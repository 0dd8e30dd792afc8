import DotDoc.Html.Label
import DotDoc.Proofs.Text.Indentation

/-!
# The layout of a table label, from the outside in

A label is made from the inside out: the finished text of a row or a cell is indented together
with everything in it.  `Table.pieces` writes the same label from the outside in.  It is told the
depth at which a part stands, puts every row and every cell on a line of its own, and lists opening
tags apart from what stands between them.  `Table.label_eq` says that the pieces in their order are
the label, whatever texts, names and values the table has, line feeds among them included.

So what is said of the tags of a table is said of its label.
-/

set_option autoImplicit false

namespace DotDoc.Html

open Text (hang margin)

/-- An opening tag that stands at a depth. -/
structure Tag where
  element : String
  attributes : List (String × Value)
  depth : Nat

namespace Tag

/-- The attributes as they are written at the depth of the tag. -/
def written (t : Tag) : List (Text × Text) :=
  t.attributes.map fun entry =>
    (hang (margin t.depth) (attributeName entry.1.toList), hang (margin t.depth) entry.2.formatted)

def text (t : Tag) : Text :=
  '<' :: t.element.toList
    ++ (t.written.flatMap fun entry => ' ' :: entry.1 ++ '=' :: '"' :: entry.2 ++ ['"']) ++ ['>']

end Tag

/-- A part of a label: an opening tag, or text after and before tags. -/
inductive Piece where
  | tag (tag : Tag)
  | between (text : Text)

namespace Piece

def text : Piece → Text
  | tag t => t.text
  | between text => text

def tag? : Piece → Option Tag
  | tag t => some t
  | between _ => none

def join (pieces : List Piece) : Text :=
  pieces.flatMap text

@[simp] theorem join_nil : join [] = [] := rfl

@[simp] theorem join_cons (piece : Piece) (rest : List Piece) :
    join (piece :: rest) = piece.text ++ join rest := rfl

@[simp] theorem join_append (first second : List Piece) :
    join (first ++ second) = join first ++ join second :=
  List.flatMap_append

def tags (pieces : List Piece) : List Tag :=
  pieces.filterMap tag?

@[simp] theorem tags_nil : tags [] = [] := rfl

@[simp] theorem tags_cons_tag (t : Tag) (rest : List Piece) :
    tags (tag t :: rest) = t :: tags rest := rfl

@[simp] theorem tags_cons_between (text : Text) (rest : List Piece) :
    tags (between text :: rest) = tags rest := rfl

@[simp] theorem tags_append (first second : List Piece) :
    tags (first ++ second) = tags first ++ tags second :=
  List.filterMap_append

end Piece

/-- The front of a line at a depth, behind the end of the line before it. -/
def lineStart (depth : Nat) : Text :=
  '\n' :: margin depth

mutual

def Content.pieces : Nat → Content Value → List Piece
  | depth, .text text => [.between (hang (margin depth) text.toList)]
  | _, .lineBreak => [.between "<br/>".toList]
  | depth, .font attributes content =>
      .tag ⟨"font", attributes, depth⟩ :: content.pieces depth ++ [.between (closing "font")]
  | depth, .table table => table.pieces depth
  | depth, .sequence items => sequencePieces depth items

def sequencePieces : Nat → List (Content Value) → List Piece
  | _, [] => []
  | depth, item :: rest => item.pieces depth ++ sequencePieces depth rest

def Cell.pieces : Nat → Cell Value → List Piece
  | depth, ⟨attributes, content⟩ =>
      .tag ⟨"td", attributes, depth⟩ :: content.pieces depth ++ [.between (closing "td")]

def cellPieces : Nat → List (Cell Value) → List Piece
  | _, [] => []
  | depth, cell :: rest =>
      .between (lineStart (depth + 1)) :: cell.pieces (depth + 1) ++ cellPieces depth rest

def Row.pieces : Nat → Row Value → List Piece
  | depth, ⟨cells⟩ =>
      .tag ⟨"tr", [], depth⟩ :: cellPieces depth cells
        ++ [.between (lineStart depth ++ closing "tr")]

def rowPieces : Nat → List (Row Value) → List Piece
  | _, [] => []
  | depth, row :: rest =>
      .between (lineStart (depth + 1)) :: row.pieces (depth + 1) ++ rowPieces depth rest

def Table.pieces : Nat → Table Value → List Piece
  | depth, ⟨attributes, rows⟩ =>
      .tag ⟨"table", attributes, depth⟩ :: rowPieces depth rows
        ++ [.between (lineStart depth ++ closing "table")]

end

/-- The opening tags of a label in the order in which they stand there. -/
def Table.tags (table : Table Value) : List Tag :=
  Piece.tags (table.pieces 0)

theorem margin_append_unit (depth : Nat) : margin depth ++ Text.indentUnit = margin (depth + 1) := by
  simp [margin, List.replicate_succ']

theorem hang_feed (depth : Nat) (rest : Text) :
    hang (margin depth) ('\n' :: rest) = lineStart depth ++ hang (margin depth) rest := by
  rw [Text.hang_cons, if_pos rfl, lineStart]

/-- A text that is indented and ended by a line feed, behind the front of a line, is the text one
level deeper behind the front of a deeper line, and the front of a line again. -/
theorem hang_line (depth : Nat) (text rest : Text) :
    lineStart depth ++ hang (margin depth) (Text.indent text ++ '\n' :: rest)
      = lineStart (depth + 1) ++ hang (margin (depth + 1)) text
        ++ (lineStart depth ++ hang (margin depth) rest) := by
  have unit_line : '\n' ∉ Text.indentUnit := by decide
  rw [Text.hang_append, hang_feed, Text.indent, Text.indentBy_eq, Text.hang_append,
    Text.hang_of_not_mem unit_line, Text.hang_hang unit_line, margin_append_unit, lineStart,
    lineStart, ← margin_append_unit]
  simp

theorem hang_opening {element : String} (one_line : '\n' ∉ element.toList)
    (attributes : List (String × Value)) (depth : Nat) :
    hang (margin depth) (opening element attributes) = (Tag.mk element attributes depth).text := by
  have entries : hang (margin depth) (attributesText attributes)
      = (Tag.mk element attributes depth).written.flatMap fun entry =>
          ' ' :: entry.1 ++ '=' :: '"' :: entry.2 ++ ['"'] := by
    rw [attributesText, writtenAttributes, Tag.written]
    induction attributes with
    | nil => rfl
    | cons entry rest ih =>
        rw [List.map_cons, List.flatMap_cons, Text.hang_append, ih]
        simp [Text.hang_cons]
  rw [opening, Text.hang_append, Text.hang_append, entries, Text.hang_cons, if_neg (by decide),
    Text.hang_of_not_mem one_line]
  rfl

theorem hang_closing {element : String} (one_line : '\n' ∉ element.toList) (depth : Nat) :
    hang (margin depth) (closing element) = closing element := by
  apply Text.hang_of_not_mem
  simp [closing, one_line]

theorem hang_element {element : String} (one_line : '\n' ∉ element.toList)
    (attributes : List (String × Value)) (depth : Nat) (lines : Text) :
    hang (margin depth) (opening element attributes ++ '\n' :: lines ++ closing element)
      = (Tag.mk element attributes depth).text
        ++ (lineStart depth ++ hang (margin depth) lines) ++ closing element := by
  rw [Text.hang_append, Text.hang_append, hang_opening one_line, hang_closing one_line, hang_feed]

mutual

theorem Content.hang_label : (depth : Nat) → (content : Content Value) →
    hang (margin depth) content.label = Piece.join (content.pieces depth)
  | depth, .text text => by simp [Content.label, Content.pieces, Piece.text]
  | depth, .lineBreak => Text.hang_of_not_mem (by decide)
  | depth, .font attributes content => by
      rw [Content.label, Text.hang_append, Text.hang_append, hang_opening (by decide),
        content.hang_label depth, hang_closing (by decide)]
      simp [Content.pieces, Piece.text]
  | depth, .table table => table.hang_label depth
  | depth, .sequence items => hang_sequenceLabel depth items

theorem hang_sequenceLabel : (depth : Nat) → (items : List (Content Value)) →
    hang (margin depth) (sequenceLabel items) = Piece.join (sequencePieces depth items)
  | depth, [] => rfl
  | depth, item :: rest => by
      rw [sequenceLabel, Text.hang_append, item.hang_label depth, hang_sequenceLabel depth rest,
        sequencePieces, Piece.join_append]

theorem Cell.hang_label : (depth : Nat) → (cell : Cell Value) →
    hang (margin depth) cell.label = Piece.join (cell.pieces depth)
  | depth, ⟨attributes, content⟩ => by
      rw [Cell.label, Text.hang_append, Text.hang_append, hang_opening (by decide),
        content.hang_label depth, hang_closing (by decide)]
      simp [Cell.pieces, Piece.text]

theorem hang_cellLines : (depth : Nat) → (cells : List (Cell Value)) →
    lineStart depth ++ hang (margin depth) (cellLines cells)
      = Piece.join (cellPieces depth cells) ++ lineStart depth
  | depth, [] => by simp [cellLines, cellPieces]
  | depth, cell :: rest => by
      rw [cellLines, hang_line, cell.hang_label (depth + 1), hang_cellLines depth rest, cellPieces]
      simp [Piece.text]

theorem Row.hang_label : (depth : Nat) → (row : Row Value) →
    hang (margin depth) row.label = Piece.join (row.pieces depth)
  | depth, ⟨cells⟩ => by
      rw [Row.label, hang_element (by decide), hang_cellLines depth cells, Row.pieces]
      simp [Piece.text]

theorem hang_rowLines : (depth : Nat) → (rows : List (Row Value)) →
    lineStart depth ++ hang (margin depth) (rowLines rows)
      = Piece.join (rowPieces depth rows) ++ lineStart depth
  | depth, [] => by simp [rowLines, rowPieces]
  | depth, row :: rest => by
      rw [rowLines, hang_line, row.hang_label (depth + 1), hang_rowLines depth rest, rowPieces]
      simp [Piece.text]

theorem Table.hang_label : (depth : Nat) → (table : Table Value) →
    hang (margin depth) table.label = Piece.join (table.pieces depth)
  | depth, ⟨attributes, rows⟩ => by
      rw [Table.label, hang_element (by decide), hang_rowLines depth rows, Table.pieces]
      simp [Piece.text]

end

theorem Table.label_eq (table : Table Value) : table.label = Piece.join (table.pieces 0) := by
  rw [← table.hang_label 0, Text.margin_zero, Text.hang_without_margin]

end DotDoc.Html
