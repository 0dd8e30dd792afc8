import DotDoc.Proofs.Graph.Lookup
import DotDoc.Proofs.Html.PortTags

/-!
# Tables that compile

Content is checked once, when a cell or a font span is built of it, and what is stored then is
read again each time a label is made.  The two walks tell the kinds of values apart in their own
ways: the check takes numbers and tuples, which the label has no case for, because the check stores
a number as its text and a tuple as a list.

`compileTable` makes a label the careful way.  It reads whatever a cell or a font span holds as a
value again and refuses a value that is no content, at every depth.  On stored content it never
refuses, and its answer is the label.  What the check refuses is told by the values at the ends of
lists and tuples: it names the first of them that cannot stand in a cell.
-/

set_option autoImplicit false

namespace DotDoc.Html

mutual

/-- The values at the ends of lists and tuples, in order. -/
def contentLeaves : Value → List Value
  | .list items => leavesOfItems items
  | .tuple items => leavesOfItems items
  | v => [v]

def leavesOfItems : List Value → List Value
  | [] => []
  | item :: rest => contentLeaves item ++ leavesOfItems rest

end

/-- Whether a value that is no list and no tuple can stand in a cell. -/
def isContentLeaf : Value → Bool
  | .str _ => true
  | .int _ => true
  | .float _ => true
  | .lineBreak => true
  | .font _ _ => true
  | .table _ => true
  | _ => false

def firstUnfit (leaves : List Value) : Option Value :=
  leaves.find? fun leaf => !isContentLeaf leaf

mutual

/-- The value as which content is stored: numbers are stored as texts and tuples as lists. -/
def storedValue : Value → Value
  | .int n => .str (String.ofList (Text.ofInt n))
  | .float x => .str (String.ofList (NumberStyle.plain.write x))
  | .list items => .list (storedItems items)
  | .tuple items => .list (storedItems items)
  | v => v

def storedItems : List Value → List Value
  | [] => []
  | item :: rest => storedValue item :: storedItems rest

end

theorem firstUnfit_append (front rest : List Value) :
    firstUnfit (front ++ rest) = (firstUnfit front).or (firstUnfit rest) :=
  List.find?_append

/-- Whether an answer is right for values with the given ends: if all of them can stand in a cell
it is something that is stored as it should be, and otherwise the first that cannot is named. -/
def Checks {α : Type} (leaves : List Value) (answer : Except Error α) (stored : α → Prop) : Prop :=
  (firstUnfit leaves = none ∧ ∃ made, answer = .ok made ∧ stored made) ∨
    ∃ unfit, firstUnfit leaves = some unfit ∧ answer = .error (.notContent unfit)

section Checks

variable {α β : Type} {leaves : List Value} {answer : Except Error α} {stored : α → Prop}

theorem Checks.map {f : α → β} {stored' : β → Prop} (checks : Checks leaves answer stored)
    (kept : ∀ made, stored made → stored' (f made)) :
    Checks leaves (do return f (← answer)) stored' := by
  rcases checks with ⟨fit, made, rfl, right⟩ | ⟨unfit, first, rfl⟩
  · exact .inl ⟨fit, f made, rfl, kept made right⟩
  · exact .inr ⟨unfit, first, rfl⟩

theorem Checks.append {others : List Value} {later : Except Error β} {f : α → β → β}
    {stored' stored'' : β → Prop} (checks : Checks leaves answer stored)
    (checks' : Checks others later stored')
    (kept : ∀ made made', stored made → stored' made' → stored'' (f made made')) :
    Checks (leaves ++ others) (do let made ← answer; return f made (← later)) stored'' := by
  rcases checks with ⟨fit, made, rfl, right⟩ | ⟨unfit, first, rfl⟩
  · have remaining : firstUnfit (leaves ++ others) = firstUnfit others := by
      rw [firstUnfit_append, fit, Option.none_or]
    rcases checks' with ⟨fit', made', rfl, right'⟩ | ⟨unfit, first, rfl⟩
    · exact .inl ⟨remaining.trans fit', f made made', rfl, kept made made' right right'⟩
    · exact .inr ⟨unfit, remaining.trans first, rfl⟩
  · refine .inr ⟨unfit, ?_, rfl⟩
    rw [firstUnfit_append, first, Option.some_or]

end Checks

mutual

theorem Content.checks_ofValue (v : Value) :
    Checks (contentLeaves v) (Content.ofValue v) fun content =>
      content.toValue = storedValue v := by
  cases v with
  | list items => exact (checks_contentsOfValues items).map fun _ kept => congrArg Value.list kept
  | tuple items => exact (checks_contentsOfValues items).map fun _ kept => congrArg Value.list kept
  | str _ => exact .inl ⟨rfl, _, rfl, rfl⟩
  | int _ => exact .inl ⟨rfl, _, rfl, rfl⟩
  | float _ => exact .inl ⟨rfl, _, rfl, rfl⟩
  | lineBreak => exact .inl ⟨rfl, _, rfl, rfl⟩
  | font _ _ => exact .inl ⟨rfl, _, rfl, rfl⟩
  | table _ => exact .inl ⟨rfl, _, rfl, rfl⟩
  | _ => exact .inr ⟨_, rfl, rfl⟩

theorem checks_contentsOfValues (items : List Value) :
    Checks (leavesOfItems items) (contentsOfValues items) fun contents =>
      contentsToValues contents = storedItems items := by
  cases items with
  | nil => exact .inl ⟨rfl, [], rfl, rfl⟩
  | cons item rest =>
      apply (Content.checks_ofValue item).append (checks_contentsOfValues rest)
      intro content contents kept kept'
      rw [contentsToValues, kept, kept', storedItems]

end

theorem checks_cell (v : Value) {attributes : Keywords}
    (accepted : attributes.clashesWith ["content"] = false) :
    Checks (contentLeaves v) (cell v attributes) fun made =>
      ∃ content, made = ⟨attributes.entries, content⟩ ∧ content.toValue = storedValue v := by
  rw [cell, if_neg (by simp [accepted])]
  exact (Content.checks_ofValue v).map fun content kept => ⟨content, rfl, kept⟩

theorem checks_font (v : Value) {attributes : Keywords}
    (accepted : attributes.clashesWith ["content"] = false) :
    Checks (contentLeaves v) (font v attributes) fun made =>
      ∃ content, made = .font attributes.entries content ∧ content.toValue = storedValue v := by
  rw [font, if_neg (by simp [accepted])]
  exact (Content.checks_ofValue v).map fun content kept => ⟨content, rfl, kept⟩

theorem cellsOf_refusal {items : List Value} {e : Error} (refused : cellsOf items = .error e) :
    e.kind = .tableLabel := by
  induction items with
  | nil => cases refused
  | cons item rest ih =>
      cases item with
      | tableCell _ =>
          rcases bind_eq_error_iff.1 refused with later | ⟨_, _, answer⟩
          · exact ih later
          · cases answer
      | _ =>
          cases refused
          rfl

theorem rowsOf_refusal {items : List Value} {e : Error} (refused : rowsOf items = .error e) :
    e.kind = .tableLabel := by
  induction items with
  | nil => cases refused
  | cons item rest ih =>
      cases item with
      | tableRow _ =>
          rcases bind_eq_error_iff.1 refused with later | ⟨_, _, answer⟩
          · exact ih later
          · cases answer
      | _ =>
          cases refused
          rfl

theorem row_refusal {cells : Value} {e : Error} (refused : row cells = .error e) :
    e.kind = .tableLabel := by
  unfold row at refused
  split at refused
  · rcases bind_eq_error_iff.1 refused with items_refused | ⟨_, _, answer⟩
    · exact cellsOf_refusal items_refused
    · cases answer
  · cases refused
    rfl

theorem table_refusal {rows : Value} {attributes : Keywords} {e : Error}
    (accepted : attributes.clashesWith ["rows"] = false)
    (refused : table rows attributes = .error e) :
    e.kind = .tableLabel ∨ ∃ name, e = .duplicatePort name := by
  rw [table, if_neg (by simp [accepted])] at refused
  split at refused
  · rcases bind_eq_error_iff.1 refused with items_refused | ⟨taken, _, answer⟩
    · exact .inl (rowsOf_refusal items_refused)
    · rcases checkPorts_cases ⟨attributes.entries, taken⟩ with ⟨_, built⟩ | ⟨_, name, repeated⟩
      · cases built.symm.trans answer
      · exact .inr ⟨name, Except.error.inj (answer.symm.trans repeated)⟩
  · cases refused
    exact .inl rfl

theorem nodup_ports_of_built {rows : Value} {attributes : Keywords} {t : Table Value}
    (built : table rows attributes = .ok t) : t.ports.Nodup := by
  unfold table at built
  split at built
  · cases built
  · split at built
    · obtain ⟨taken, _, answer⟩ := bind_eq_ok_iff.1 built
      rcases checkPorts_cases ⟨attributes.entries, taken⟩ with ⟨distinct, same⟩ | ⟨_, _, repeated⟩
      · obtain rfl := Except.ok.inj (same.symm.trans answer)
        exact distinct
      · cases repeated.symm.trans answer
    · cases built

/-! ## Labels of stored content -/

mutual

@[simp] theorem Content.sizeOf_toValue : (content : Content Value) →
    sizeOf content.toValue = sizeOf content
  | .text _ => rfl
  | .lineBreak => rfl
  | .font _ _ => by simp [Content.toValue]
  | .table _ => by simp [Content.toValue]
  | .sequence items => by simp [Content.toValue, sizeOf_contentsToValues items]

theorem sizeOf_contentsToValues : (items : List (Content Value)) →
    sizeOf (contentsToValues items) = sizeOf items
  | [] => rfl
  | item :: rest => by
      simp [contentsToValues, item.sizeOf_toValue, sizeOf_contentsToValues rest]

end

mutual

/-- The label of a value as content.  What a font span holds is a value again. -/
def compileContent : Value → Except Error Text
  | .str s => .ok s.toList
  | .lineBreak => .ok "<br/>".toList
  | .font attributes content => do
      return opening "font" attributes ++ (← compileContent content.toValue) ++ closing "font"
  | .table t => compileTable t
  | .list items => compileItems items
  | v => .error (.notContent v)
termination_by v => sizeOf v

def compileItems : List Value → Except Error Text
  | [] => .ok []
  | item :: rest => do
      let label ← compileContent item
      return label ++ (← compileItems rest)
termination_by items => sizeOf items

/-- The elements of cells, each indented and ended by a line feed.  What a cell holds is a value
again. -/
def compileCells : List (Cell Value) → Except Error Text
  | [] => .ok []
  | ⟨attributes, content⟩ :: rest => do
      let inner ← compileContent content.toValue
      return Text.indent (opening "td" attributes ++ inner ++ closing "td")
        ++ '\n' :: (← compileCells rest)
termination_by cells => sizeOf cells

def compileRows : List (Row Value) → Except Error Text
  | [] => .ok []
  | ⟨cells⟩ :: rest => do
      let lines ← compileCells cells
      return Text.indent (opening "tr" [] ++ '\n' :: lines ++ closing "tr")
        ++ '\n' :: (← compileRows rest)
termination_by rows => sizeOf rows

def compileTable : Table Value → Except Error Text
  | ⟨attributes, rows⟩ => do
      return opening "table" attributes ++ '\n' :: (← compileRows rows) ++ closing "table"
termination_by t => sizeOf t

end

mutual

theorem Content.compile_toValue : (content : Content Value) →
    compileContent content.toValue = .ok content.label
  | .text shown => by rw [Content.toValue, compileContent, Content.label]
  | .lineBreak => by rw [Content.toValue, compileContent, Content.label]
  | .font attributes content => by
      rw [Content.toValue, compileContent, content.compile_toValue]
      rfl
  | .table t => by rw [Content.toValue, compileContent, t.compile_eq, Content.label]
  | .sequence items => by
      rw [Content.toValue, compileContent, compileItems_toValues items, Content.label]

theorem compileItems_toValues : (items : List (Content Value)) →
    compileItems (contentsToValues items) = .ok (sequenceLabel items)
  | [] => by rw [contentsToValues, compileItems, sequenceLabel]
  | item :: rest => by
      rw [contentsToValues, compileItems, item.compile_toValue, compileItems_toValues rest]
      rfl

theorem compileCells_eq : (cells : List (Cell Value)) → compileCells cells = .ok (cellLines cells)
  | [] => by rw [compileCells, cellLines]
  | ⟨attributes, content⟩ :: rest => by
      rw [compileCells, content.compile_toValue, compileCells_eq rest]
      rfl

theorem compileRows_eq : (rows : List (Row Value)) → compileRows rows = .ok (rowLines rows)
  | [] => by rw [compileRows, rowLines]
  | ⟨cells⟩ :: rest => by
      rw [compileRows, compileCells_eq cells, compileRows_eq rest]
      rfl

theorem Table.compile_eq : (t : Table Value) → compileTable t = .ok t.label
  | ⟨attributes, rows⟩ => by
      rw [compileTable, compileRows_eq rows]
      rfl

end

mutual

theorem labelOfValue_eq (v : Value) : labelOfValue v = compileContent v := by
  cases v with
  | str _ => rw [labelOfValue, compileContent]
  | lineBreak => rw [labelOfValue, compileContent, Content.label]
  | font attributes content =>
      rw [labelOfValue, compileContent, content.compile_toValue]
      rfl
  | table t => rw [labelOfValue, compileContent, t.compile_eq]
  | list items => rw [labelOfValue, compileContent, labelOfValues_eq items]
  | _ => rw [labelOfValue, compileContent] <;> simp

theorem labelOfValues_eq : (items : List Value) → labelOfValues items = compileItems items
  | [] => by rw [labelOfValues, compileItems]
  | item :: rest => by
      rw [labelOfValues, compileItems, labelOfValue_eq item, labelOfValues_eq rest]

end

/-- Every table that is built compiles, and lists the ports that its tags name, each once.  All
stored content compiles, also where a value on its own is given a label.  A cell and a font span
take exactly the values whose ends can all stand in a cell, and a refusal names the first end that
cannot; all refusals of values are errors of table labels. -/
theorem stored_content_compiles :
    (∀ (rows : Value) (attributes : Keywords) (t : Table Value), table rows attributes = .ok t →
      compileTable t = .ok t.label ∧ t.ports = namedPorts (t.pieces 0) ∧ t.ports.Nodup) ∧
    (∀ content : Content Value, compileContent content.toValue = .ok content.label) ∧
    (∀ v : Value, labelOfValue v = compileContent v) ∧
    (∀ (v : Value) (attributes : Keywords), attributes.clashesWith ["content"] = false →
      Checks (contentLeaves v) (cell v attributes) (fun made =>
        ∃ content, made = ⟨attributes.entries, content⟩ ∧ content.toValue = storedValue v) ∧
      Checks (contentLeaves v) (font v attributes) (fun made =>
        ∃ content, made = .font attributes.entries content ∧ content.toValue = storedValue v)) ∧
    (∀ unfit : Value, (Error.notContent unfit).kind = .tableLabel) ∧
    (∀ (cells : Value) (e : Error), row cells = .error e → e.kind = .tableLabel) ∧
    (∀ (rows : Value) (attributes : Keywords) (e : Error),
      attributes.clashesWith ["rows"] = false → table rows attributes = .error e →
        e.kind = .tableLabel ∨ ∃ name, e = .duplicatePort name) := by
  refine ⟨?_, Content.compile_toValue, labelOfValue_eq, ?_, ?_, ?_, ?_⟩
  · intro rows attributes t built
    exact ⟨t.compile_eq, t.ports_eq 0, nodup_ports_of_built built⟩
  · intro v attributes accepted
    exact ⟨checks_cell v accepted, checks_font v accepted⟩
  · intro unfit
    rfl
  · intro cells e refused
    exact row_refusal refused
  · intro rows attributes e accepted refused
    exact table_refusal accepted refused

def mixedContent : Value :=
  .list [.int 5, .tuple [.str "x", .font [("color", .str "red")] (.text "y"), .lineBreak],
    .table ⟨[], [⟨[⟨[("port", .str "p")], .text "z"⟩]⟩]⟩]

def mixedCell : Cell Value :=
  ⟨[("port", .int 7)], .sequence [.text "5",
    .sequence [.text "x", .font [("color", .str "red")] (.text "y"), .lineBreak],
    .table ⟨[], [⟨[⟨[("port", .str "p")], .text "z"⟩]⟩]⟩]⟩

def mixedTable : Table Value :=
  ⟨[("border", .bool false)], [⟨[mixedCell]⟩]⟩

/-- A row and nothing, both out of place, behind a text. -/
def misplacedRow : Value :=
  .list [.str "a", .tuple [.tableRow ⟨[mixedCell]⟩, .null]]

theorem mixedTable_compiles :
    cell mixedContent ⟨[("port", .int 7)], by decide⟩ = .ok mixedCell ∧
      table (.list [.tableRow ⟨[mixedCell]⟩]) ⟨[("border", .bool false)], by decide⟩
        = .ok mixedTable ∧
      compileTable mixedTable = .ok ("<table border=\"false\">\n  <tr>\n    <td port=\"7\">".toList
        ++ "5x<font color=\"red\">y</font><br/><table>\n      <tr>\n".toList
        ++ "        <td port=\"p\">z</td>\n      </tr>\n    </table></td>\n".toList
        ++ "  </tr>\n</table>".toList) ∧
      mixedTable.ports.Nodup ∧
      cell misplacedRow .empty = .error (.notContent (.tableRow ⟨[mixedCell]⟩)) ∧
      (Error.rowCellsNotList .null).kind = .tableLabel ∧
      (Error.rowsNotList .null).kind = .tableLabel := by
  obtain ⟨compiles, _, _, checks, _, of_row, of_table⟩ := stored_content_compiles
  have built : table (.list [.tableRow ⟨[mixedCell]⟩]) ⟨[("border", .bool false)], by decide⟩
      = .ok mixedTable := rfl
  obtain ⟨compiled, _, distinct⟩ := compiles _ _ _ built
  refine ⟨rfl, built, compiled.trans ?_, distinct, ?_, of_row .null _ rfl, ?_⟩
  · exact congrArg Except.ok (by decide +kernel)
  · rcases (checks misplacedRow .empty (by decide)).1 with ⟨fit, _⟩ | ⟨unfit, first, refused⟩
    · cases fit
    · cases first
      exact refused
  · rcases of_table .null .empty _ (by decide) rfl with kind | ⟨_, repeated⟩
    · exact kind
    · cases repeated

end DotDoc.Html
