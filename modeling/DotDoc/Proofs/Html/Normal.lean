import DotDoc.Proofs.Html.Compiles
import DotDoc.Proofs.Html.Printed

/-!
# Normal tables

Two tables can have one label for harmless reasons only: a name was given with an underscore or
with a hyphen, a value was given as a truth value or as a text, or the same content was cut into
texts and nested into sequences in different ways.  `Table.normal` removes these differences.  It
writes out names and values, flattens the content of every cell and font span to one sequence,
joins the texts that stand next to each other and drops the empty ones.

A table and its normal form are printed alike, and they have the same elements at the same places.
The normal form of content can be read off the
value that the content was made from, where numbers count as their texts.
-/

set_option autoImplicit false

namespace DotDoc.Html

/-- An attribute as it is written: its name with hyphens, and its value as a text. -/
def normalEntry (entry : String × Value) : String × Value :=
  (String.ofList (attributeName entry.1.toList), .str (String.ofList entry.2.formatted))

/-- A text put in front of items: it is joined to a text that they start with. -/
def joinText (front : String) : List (Content Value) → List (Content Value)
  | .text behind :: rest => .text (front ++ behind) :: rest
  | items => if front = "" then items else .text front :: items

/-- The items with neighbouring texts joined and empty texts dropped. -/
def joinTexts : List (Content Value) → List (Content Value)
  | [] => []
  | .text shown :: rest => joinText shown (joinTexts rest)
  | item :: rest => item :: joinTexts rest

mutual

/-- The items of content, sequences flattened and elements normal. -/
def Content.items : Content Value → List (Content Value)
  | .text shown => [.text shown]
  | .lineBreak => [.lineBreak]
  | .font attributes content =>
      [.font (attributes.map normalEntry) (.sequence (joinTexts content.items))]
  | .table table => [.table table.normal]
  | .sequence items => sequenceItems items

def sequenceItems : List (Content Value) → List (Content Value)
  | [] => []
  | item :: rest => item.items ++ sequenceItems rest

def normalCells : List (Cell Value) → List (Cell Value)
  | [] => []
  | ⟨attributes, content⟩ :: rest =>
      ⟨attributes.map normalEntry, .sequence (joinTexts content.items)⟩ :: normalCells rest

def normalRows : List (Row Value) → List (Row Value)
  | [] => []
  | ⟨cells⟩ :: rest => ⟨normalCells cells⟩ :: normalRows rest

/-- The table with its attributes as they are written and the content of each cell and font span
as one sequence of elements and texts between them. -/
def Table.normal : Table Value → Table Value
  | ⟨attributes, rows⟩ => ⟨attributes.map normalEntry, normalRows rows⟩

end

def Content.normal (content : Content Value) : Content Value :=
  .sequence (joinTexts content.items)

/-- The items that a value at the end of a list or a tuple stands for: a number is its text. -/
def leafItems : Value → List (Content Value)
  | .str s => [.text s]
  | .int n => [.text (String.ofList (Text.ofInt n))]
  | .float x => [.text (String.ofList (NumberStyle.plain.write x))]
  | .lineBreak => [.lineBreak]
  | .font attributes content => (Content.font attributes content).items
  | .table table => [.table table.normal]
  | _ => []

def normalContentOf (v : Value) : Content Value :=
  .sequence (joinTexts ((contentLeaves v).flatMap leafItems))

mutual

theorem Content.items_ofValue (v : Value) {content : Content Value}
    (made : Content.ofValue v = .ok content) :
    content.items = (contentLeaves v).flatMap leafItems := by
  cases v with
  | list items =>
      obtain ⟨contents, items_made, rest⟩ := bind_eq_ok_iff.1 made
      cases rest
      exact sequenceItems_ofValues items items_made
  | tuple items =>
      obtain ⟨contents, items_made, rest⟩ := bind_eq_ok_iff.1 made
      cases rest
      exact sequenceItems_ofValues items items_made
  | str _ => cases made; rfl
  | int _ => cases made; rfl
  | float _ => cases made; rfl
  | lineBreak => cases made; rfl
  | font _ _ => cases made; exact (List.append_nil _).symm
  | table _ => cases made; rfl
  | _ => cases made

theorem sequenceItems_ofValues (items : List Value) {contents : List (Content Value)}
    (made : contentsOfValues items = .ok contents) :
    sequenceItems contents = (leavesOfItems items).flatMap leafItems := by
  cases items with
  | nil => cases made; rfl
  | cons item rest =>
      obtain ⟨first, first_made, later⟩ := bind_eq_ok_iff.1 made
      obtain ⟨others, others_made, answer⟩ := bind_eq_ok_iff.1 later
      cases answer
      rw [sequenceItems, Content.items_ofValue item first_made,
        sequenceItems_ofValues rest others_made, leavesOfItems, List.flatMap_append]

end

@[simp] theorem attributeName_idem (key : Text) :
    attributeName (attributeName key) = attributeName key := by
  rw [attributeName, attributeName, List.map_map]
  refine List.map_congr_left fun c _ => ?_
  by_cases underscore : c = '_' <;> simp [underscore]

@[simp] theorem normalEntry_idem (entry : String × Value) :
    normalEntry (normalEntry entry) = normalEntry entry := by
  simp [normalEntry]

theorem attributesText_normal (attributes : List (String × Value)) :
    attributesText (attributes.map normalEntry) = attributesText attributes := by
  simp [attributesText, writtenAttributes, List.flatMap_map, normalEntry]

theorem opening_normal (element : String) (attributes : List (String × Value)) :
    opening element (attributes.map normalEntry) = opening element attributes := by
  rw [opening, opening, attributesText_normal]

theorem printedSequence_append (n : Nat) (front behind : List (Content Value)) :
    printedSequence n (front ++ behind) = printedSequence n front ++ printedSequence n behind := by
  induction front with
  | nil => rfl
  | cons item rest ih =>
      rw [List.cons_append, printedSequence, printedSequence, ih, List.append_assoc]

theorem printedSequence_joinText (n : Nat) (front : String) (items : List (Content Value)) :
    printedSequence n (joinText front items) = front.toList ++ printedSequence n items := by
  unfold joinText
  split
  · simp [printedSequence, Content.printed]
  · split
    · rename_i empty
      simp [empty]
    · rfl

theorem printed_joinTexts (n : Nat) (items : List (Content Value)) :
    (Content.sequence (joinTexts items)).printed n = printedSequence n items := by
  rw [Content.printed]
  induction items with
  | nil => rfl
  | cons item rest ih =>
      cases item with
      | text shown => rw [joinTexts, printedSequence_joinText, ih]; rfl
      | _ => simp only [joinTexts, printedSequence, ih]

mutual

theorem Content.printed_items : (n : Nat) → (content : Content Value) →
    printedSequence n content.items = content.printed n
  | n, .text shown => List.append_nil _
  | n, .lineBreak => rfl
  | n, .font attributes content => by
      rw [Content.items, printedSequence, printedSequence, List.append_nil, Content.printed,
        printed_joinTexts, content.printed_items n, opening_normal, Content.printed]
  | n, .table table => by
      rw [Content.items, printedSequence, printedSequence, List.append_nil, Content.printed,
        table.printed_normal n, Content.printed]
  | n, .sequence items => printed_sequenceItems n items

theorem printed_sequenceItems : (n : Nat) → (items : List (Content Value)) →
    printedSequence n (sequenceItems items) = printedSequence n items
  | _, [] => rfl
  | n, item :: rest => by
      rw [sequenceItems, printedSequence_append, item.printed_items n, printed_sequenceItems n rest,
        printedSequence]

theorem printed_normalCells : (n : Nat) → (cells : List (Cell Value)) →
    printedCells n (normalCells cells) = printedCells n cells
  | _, [] => rfl
  | n, ⟨attributes, content⟩ :: rest => by
      rw [normalCells, printedCells, Cell.printed, printed_joinTexts, content.printed_items (n + 1),
        opening_normal, printed_normalCells n rest, printedCells, Cell.printed]

theorem printed_normalRows : (n : Nat) → (rows : List (Row Value)) →
    printedRows n (normalRows rows) = printedRows n rows
  | _, [] => rfl
  | n, ⟨cells⟩ :: rest => by
      rw [normalRows, printedRows, Row.printed, printed_normalCells n cells,
        printed_normalRows n rest, printedRows, Row.printed]

theorem Table.printed_normal : (n : Nat) → (table : Table Value) →
    table.normal.printed n = table.printed n
  | n, ⟨attributes, rows⟩ => by
      rw [Table.normal, Table.printed, opening_normal, printed_normalRows n rows, Table.printed]

end

mutual

/-- The elements in content, each in front of those that stand in it, at their depths. -/
def Content.elements : Nat → Content Value → List Tag
  | _, .text _ => []
  | depth, .lineBreak => [⟨"br", [], depth⟩]
  | depth, .font attributes content => ⟨"font", attributes, depth⟩ :: content.elements (depth + 1)
  | depth, .table table => table.elements depth
  | depth, .sequence items => sequenceElements depth items

def sequenceElements : Nat → List (Content Value) → List Tag
  | _, [] => []
  | depth, item :: rest => item.elements depth ++ sequenceElements depth rest

def cellElements : Nat → List (Cell Value) → List Tag
  | _, [] => []
  | depth, ⟨attributes, content⟩ :: rest =>
      ⟨"td", attributes, depth⟩ :: content.elements (depth + 1) ++ cellElements depth rest

def rowElements : Nat → List (Row Value) → List Tag
  | _, [] => []
  | depth, ⟨cells⟩ :: rest =>
      ⟨"tr", [], depth⟩ :: cellElements (depth + 1) cells ++ rowElements depth rest

/-- The elements of a table, itself at the front.  Their order and depths tell which stands in
which. -/
def Table.elements : Nat → Table Value → List Tag
  | depth, ⟨attributes, rows⟩ => ⟨"table", attributes, depth⟩ :: rowElements (depth + 1) rows

end

def Tag.normal (tag : Tag) : Tag :=
  { tag with attributes := tag.attributes.map normalEntry }

theorem sequenceElements_append (depth : Nat) (front behind : List (Content Value)) :
    sequenceElements depth (front ++ behind)
      = sequenceElements depth front ++ sequenceElements depth behind := by
  induction front with
  | nil => rfl
  | cons item rest ih =>
      rw [List.cons_append, sequenceElements, sequenceElements, ih, List.append_assoc]

theorem sequenceElements_joinText (depth : Nat) (front : String) (items : List (Content Value)) :
    sequenceElements depth (joinText front items) = sequenceElements depth items := by
  unfold joinText
  split
  · rfl
  · split <;> rfl

theorem elements_joinTexts (depth : Nat) (items : List (Content Value)) :
    (Content.sequence (joinTexts items)).elements depth = sequenceElements depth items := by
  rw [Content.elements]
  induction items with
  | nil => rfl
  | cons item rest ih =>
      cases item with
      | text shown => rw [joinTexts, sequenceElements_joinText, ih]; rfl
      | _ => simp only [joinTexts, sequenceElements, ih]

mutual

theorem Content.elements_items : (depth : Nat) → (content : Content Value) →
    sequenceElements depth content.items = (content.elements depth).map Tag.normal
  | _, .text _ => rfl
  | _, .lineBreak => rfl
  | depth, .font attributes content => by
      rw [Content.items, sequenceElements, sequenceElements, List.append_nil, Content.elements,
        elements_joinTexts, content.elements_items (depth + 1), Content.elements, List.map_cons]
      rfl
  | depth, .table table => by
      rw [Content.items, sequenceElements, sequenceElements, List.append_nil, Content.elements,
        table.elements_normal depth, Content.elements]
  | depth, .sequence items => elements_sequenceItems depth items

theorem elements_sequenceItems : (depth : Nat) → (items : List (Content Value)) →
    sequenceElements depth (sequenceItems items) = (sequenceElements depth items).map Tag.normal
  | _, [] => rfl
  | depth, item :: rest => by
      rw [sequenceItems, sequenceElements_append, item.elements_items depth,
        elements_sequenceItems depth rest, sequenceElements, List.map_append]

theorem elements_normalCells : (depth : Nat) → (cells : List (Cell Value)) →
    cellElements depth (normalCells cells) = (cellElements depth cells).map Tag.normal
  | _, [] => rfl
  | depth, ⟨attributes, content⟩ :: rest => by
      rw [normalCells, cellElements, elements_joinTexts, content.elements_items (depth + 1),
        elements_normalCells depth rest, cellElements, List.cons_append, List.cons_append,
        List.map_cons, List.map_append]
      rfl

theorem elements_normalRows : (depth : Nat) → (rows : List (Row Value)) →
    rowElements depth (normalRows rows) = (rowElements depth rows).map Tag.normal
  | _, [] => rfl
  | depth, ⟨cells⟩ :: rest => by
      rw [normalRows, rowElements, elements_normalCells (depth + 1) cells,
        elements_normalRows depth rest, rowElements, List.cons_append, List.cons_append,
        List.map_cons, List.map_append]
      rfl

/-- No element and no attribute is lost, repeated or moved in the normal form. -/
theorem Table.elements_normal : (depth : Nat) → (table : Table Value) →
    table.normal.elements depth = (table.elements depth).map Tag.normal
  | depth, ⟨attributes, rows⟩ => by
      rw [Table.normal, Table.elements, elements_normalRows (depth + 1) rows, Table.elements,
        List.map_cons]
      rfl

end

end DotDoc.Html
