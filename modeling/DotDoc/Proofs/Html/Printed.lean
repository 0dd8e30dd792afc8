import DotDoc.Proofs.Html.Layout
import DotDoc.Proofs.Record.Written

/-!
# Tables printed at their depth

`Table.printed` prints a table in one pass.  It is told how many tables enclose the one that it
prints, and from this number alone it knows where every line starts: four spaces stand for each
enclosing table, two more in front of a row and four more in front of a cell.  Nothing is indented
afterwards, and whatever is not a row, a cell or the end of a table follows on the current line.

A label indents the finished text of every row and every cell instead, so a line of a nested table
gets its spaces in many passes.  When no text, no attribute name and no value in the table has a
line feed, the two are equal.
-/

set_option autoImplicit false

namespace DotDoc.Html

open Text (hang margin)

section Spelled

variable (text : Text → Bool) (entry : String × Value → Bool)

mutual

/-- Whether the texts in content pass one test and the attributes of all elements in it another. -/
def Content.spelled : Content Value → Bool
  | .text shown => text shown.toList
  | .lineBreak => true
  | .font attributes content => attributes.all entry && content.spelled
  | .table table => table.spelled
  | .sequence items => sequenceSpelled items

def sequenceSpelled : List (Content Value) → Bool
  | [] => true
  | item :: rest => item.spelled && sequenceSpelled rest

def Cell.spelled : Cell Value → Bool
  | ⟨attributes, content⟩ => attributes.all entry && content.spelled

def cellsSpelled : List (Cell Value) → Bool
  | [] => true
  | cell :: rest => cell.spelled && cellsSpelled rest

def Row.spelled : Row Value → Bool
  | ⟨cells⟩ => cellsSpelled cells

def rowsSpelled : List (Row Value) → Bool
  | [] => true
  | row :: rest => row.spelled && rowsSpelled rest

def Table.spelled : Table Value → Bool
  | ⟨attributes, rows⟩ => attributes.all entry && rowsSpelled rows

end

end Spelled

def isLine (t : Text) : Bool :=
  t.lacks ['\n']

def isLineEntry (entry : String × Value) : Bool :=
  isLine entry.1.toList && isLine entry.2.formatted

/-- Nothing that the caller put into the table has a line feed. -/
def Table.OneLine (table : Table Value) : Prop :=
  table.spelled isLine isLineEntry = true

instance (table : Table Value) : Decidable table.OneLine :=
  inferInstanceAs (Decidable (_ = true))

/-- The end of a line and a number of spaces at the front of the next one. -/
def newLine (spaces : Nat) : Text :=
  '\n' :: List.replicate spaces ' '

mutual

/-- Content that stands inside `n` tables. -/
def Content.printed : Nat → Content Value → Text
  | _, .text shown => shown.toList
  | _, .lineBreak => "<br/>".toList
  | n, .font attributes content => opening "font" attributes ++ content.printed n ++ closing "font"
  | n, .table table => table.printed n
  | n, .sequence items => printedSequence n items

def printedSequence : Nat → List (Content Value) → Text
  | _, [] => []
  | n, item :: rest => item.printed n ++ printedSequence n rest

def Cell.printed : Nat → Cell Value → Text
  | n, ⟨attributes, content⟩ =>
      newLine (4 * n + 4) ++ opening "td" attributes ++ content.printed (n + 1) ++ closing "td"

def printedCells : Nat → List (Cell Value) → Text
  | _, [] => []
  | n, cell :: rest => cell.printed n ++ printedCells n rest

def Row.printed : Nat → Row Value → Text
  | n, ⟨cells⟩ =>
      newLine (4 * n + 2) ++ opening "tr" [] ++ printedCells n cells
        ++ newLine (4 * n + 2) ++ closing "tr"

def printedRows : Nat → List (Row Value) → Text
  | _, [] => []
  | n, row :: rest => row.printed n ++ printedRows n rest

def Table.printed : Nat → Table Value → Text
  | n, ⟨attributes, rows⟩ =>
      opening "table" attributes ++ printedRows n rows ++ newLine (4 * n) ++ closing "table"

end

theorem isLine_iff {t : Text} : isLine t = true ↔ '\n' ∉ t := by
  simp [isLine, Text.lacks_iff]

theorem margin_eq_replicate (depth : Nat) : margin depth = List.replicate (2 * depth) ' ' := by
  induction depth with
  | zero => rfl
  | succ depth ih =>
      rw [Text.margin_succ, ih, Text.indentUnit, Nat.mul_succ, Nat.add_comm, List.replicate_add]
      rfl

theorem lineStart_eq_newLine (depth : Nat) : lineStart depth = newLine (2 * depth) := by
  rw [lineStart, margin_eq_replicate, newLine]

theorem not_mem_attributeName {key : Text} {c : Char} (other : c ≠ '-') (absent : c ∉ key) :
    c ∉ attributeName key := by
  intro written
  obtain ⟨d, member, shown⟩ := List.mem_map.1 written
  split at shown
  · exact other shown.symm
  · exact absent (shown ▸ member)

theorem not_mem_opening {element : String} (plain : '\n' ∉ element.toList)
    {attributes : List (String × Value)} (one_line : attributes.all isLineEntry = true) :
    '\n' ∉ opening element attributes := by
  have written : '\n' ∉ attributesText attributes := by
    rw [attributesText, writtenAttributes, List.flatMap_map, List.mem_flatMap]
    rintro ⟨entry, member, feed⟩
    obtain ⟨name, value⟩ := Bool.and_eq_true_iff.1 (List.all_eq_true.1 one_line entry member)
    have not_in_name := not_mem_attributeName (by decide) (isLine_iff.1 name)
    have not_in_value := isLine_iff.1 value
    simp [not_in_name, not_in_value] at feed
  simp [opening, plain, written]

theorem Tag.text_of_line (element : String) (plain : '\n' ∉ element.toList)
    {attributes : List (String × Value)} (one_line : attributes.all isLineEntry = true)
    (depth : Nat) : (Tag.mk element attributes depth).text = opening element attributes := by
  rw [← hang_opening plain, Text.hang_of_not_mem (not_mem_opening plain one_line)]

mutual

theorem Content.join_pieces : (n : Nat) → (content : Content Value) →
    content.spelled isLine isLineEntry = true →
    Piece.join (content.pieces (2 * n)) = content.printed n
  | n, .text shown, one_line => by
      rw [Content.spelled, isLine_iff] at one_line
      simp [Content.pieces, Content.printed, Piece.text, Text.hang_of_not_mem one_line]
  | n, .lineBreak, _ => rfl
  | n, .font attributes content, one_line => by
      rw [Content.spelled, Bool.and_eq_true_iff] at one_line
      have tag := Tag.text_of_line "font" (by decide) one_line.1 (2 * n)
      have inside := content.join_pieces n one_line.2
      simp [Content.pieces, Content.printed, Piece.text, tag, inside]
  | n, .table table, one_line => table.join_pieces n one_line
  | n, .sequence items, one_line => join_sequencePieces n items one_line

theorem join_sequencePieces : (n : Nat) → (items : List (Content Value)) →
    sequenceSpelled isLine isLineEntry items = true →
    Piece.join (sequencePieces (2 * n) items) = printedSequence n items
  | _, [], _ => rfl
  | n, item :: rest, one_line => by
      rw [sequenceSpelled, Bool.and_eq_true_iff] at one_line
      rw [sequencePieces, Piece.join_append, item.join_pieces n one_line.1,
        join_sequencePieces n rest one_line.2, printedSequence]

theorem join_cellPieces : (n : Nat) → (cells : List (Cell Value)) →
    cellsSpelled isLine isLineEntry cells = true →
    Piece.join (cellPieces (2 * n + 1) cells) = printedCells n cells
  | _, [], _ => rfl
  | n, ⟨attributes, content⟩ :: rest, one_line => by
      rw [cellsSpelled, Cell.spelled, Bool.and_eq_true_iff, Bool.and_eq_true_iff] at one_line
      have deeper : 2 * n + 1 + 1 = 2 * (n + 1) := by omega
      have line : lineStart (2 * (n + 1)) = newLine (4 * n + 4) := by
        rw [lineStart_eq_newLine]
        congr 1
        omega
      have tag := Tag.text_of_line "td" (by decide) one_line.1.1 (2 * (n + 1))
      have inside := content.join_pieces (n + 1) one_line.1.2
      have later := join_cellPieces n rest one_line.2
      simp [cellPieces, Cell.pieces, printedCells, Cell.printed, Piece.text, deeper, line, tag,
        inside, later]

theorem join_rowPieces : (n : Nat) → (rows : List (Row Value)) →
    rowsSpelled isLine isLineEntry rows = true →
    Piece.join (rowPieces (2 * n) rows) = printedRows n rows
  | _, [], _ => rfl
  | n, ⟨cells⟩ :: rest, one_line => by
      rw [rowsSpelled, Row.spelled, Bool.and_eq_true_iff] at one_line
      have line : lineStart (2 * n + 1) = newLine (4 * n + 2) := by
        rw [lineStart_eq_newLine]
        congr 1
        omega
      have tag := Tag.text_of_line "tr" (by decide) List.all_nil (2 * n + 1)
      have inside := join_cellPieces n cells one_line.1
      have later := join_rowPieces n rest one_line.2
      simp [rowPieces, Row.pieces, printedRows, Row.printed, Piece.text, line, tag, inside, later]

theorem Table.join_pieces : (n : Nat) → (table : Table Value) →
    table.spelled isLine isLineEntry = true →
    Piece.join (table.pieces (2 * n)) = table.printed n
  | n, ⟨attributes, rows⟩, one_line => by
      rw [Table.spelled, Bool.and_eq_true_iff] at one_line
      have line : lineStart (2 * n) = newLine (4 * n) := by
        rw [lineStart_eq_newLine]
        congr 1
        omega
      have tag := Tag.text_of_line "table" (by decide) one_line.1 (2 * n)
      have inside := join_rowPieces n rows one_line.2
      simp [Table.pieces, Table.printed, Piece.text, line, tag, inside]

end

/-- The label of a table without line feeds in its texts, names and values is the table printed as
one that no table encloses. -/
theorem label_eq_printed (table : Table Value) (one_line : table.OneLine) :
    table.label = table.printed 0 := by
  rw [table.label_eq, ← table.join_pieces 0 one_line]

/-- A cell with two tables: one in a font span, with a row without cells, and one in a list, with
no row. -/
def stackedTable : Table Value :=
  ⟨[], [⟨[⟨[], .sequence [.font [("x_y", .int 1)] (.table ⟨[], [⟨[]⟩]⟩),
    .sequence [.text " ", .table ⟨[], []⟩]]⟩]⟩]⟩

theorem stackedTable_printed : stackedTable.OneLine ∧ stackedTable.label =
    "<table>\n  <tr>\n    <td><font x-y=\"1\"><table>\n      <tr>\n      </tr>".toList
      ++ "\n    </table></font> <table>\n    </table></td>\n  </tr>\n</table>".toList := by
  have one_line : stackedTable.OneLine := by decide +kernel
  refine ⟨one_line, ?_⟩
  rw [label_eq_printed stackedTable one_line]
  decide +kernel

end DotDoc.Html
