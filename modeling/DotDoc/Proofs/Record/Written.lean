import DotDoc.Proofs.Record.Compiles

/-!
# Cells of strings

What a label says about a record can be read only if the names and the texts in it keep away from
the marks between them.  `Cell.spelled` is a condition of this kind, with one test on port names
and one on texts, and every name and every text has to be a string.  Such a cell has a label, and
`Cell.written` gives it outright.
-/

set_option autoImplicit false

namespace DotDoc

namespace Text

/-- Whether none of some characters occurs in a text. -/
def lacks (marks : List Char) (t : Text) : Bool :=
  t.all fun c => !marks.contains c

theorem lacks_iff {marks : List Char} {t : Text} :
    t.lacks marks = true ↔ ∀ c ∈ marks, c ∉ t := by
  simp only [lacks, List.all_eq_true, Bool.not_eq_true', List.contains_eq_mem,
    decide_eq_false_iff_not]
  constructor
  · intro absent c mark member
    exact absent c member mark
  · intro absent c member mark
    exact absent c mark member

end Text

namespace Record

/-- Whether a value is a string that passes a test. -/
def isStringOf (test : Text → Bool) : Value → Bool
  | .str s => test s.toList
  | _ => false

theorem isStringOf_iff {test : Text → Bool} {v : Value} :
    isStringOf test v = true ↔ ∃ s, v = .str s ∧ test s.toList = true := by
  constructor
  · intro passed
    cases v with
    | str s => exact ⟨s, rfl, passed⟩
    | _ => cases passed
  · rintro ⟨s, rfl, passed⟩
    exact passed

mutual

/-- Whether the port names and the texts in a cell are strings, each of which passes the test on
names or the one on texts. -/
def Cell.spelled (name text : Text → Bool) : Cell Value → Bool
  | .text shown => isStringOf text shown
  | .port given shown => isStringOf name given && isStringOf text shown
  | .group _ cells => cellsSpelled name text cells

def cellsSpelled (name text : Text → Bool) : List (Cell Value) → Bool
  | [] => true
  | cell :: rest => cell.spelled name text && cellsSpelled name text rest

end

theorem Cell.spelled_text_iff {name text : Text → Bool} {shown : Value} :
    (Cell.text shown).spelled name text = true ↔ ∃ s, shown = .str s ∧ text s.toList = true :=
  isStringOf_iff

theorem Cell.spelled_port_iff {name text : Text → Bool} {given shown : Value} :
    (Cell.port given shown).spelled name text = true ↔
      ∃ n s, given = .str n ∧ shown = .str s ∧ name n.toList = true ∧ text s.toList = true := by
  rw [Cell.spelled, Bool.and_eq_true_iff, isStringOf_iff, isStringOf_iff]
  constructor
  · rintro ⟨⟨n, rfl, named⟩, s, rfl, spelled⟩
    exact ⟨n, s, rfl, rfl, named, spelled⟩
  · rintro ⟨n, s, rfl, rfl, named, spelled⟩
    exact ⟨⟨n, rfl, named⟩, s, rfl, spelled⟩

mutual

/-- Whether every group in a cell has a cell. -/
def Cell.filled : Cell Value → Bool
  | .text _ => true
  | .port _ _ => true
  | .group _ cells => !cells.isEmpty && cellsFilled cells

def cellsFilled : List (Cell Value) → Bool
  | [] => true
  | cell :: rest => cell.filled && cellsFilled rest

end

theorem cellsSpelled_iff {name text : Text → Bool} {cells : List (Cell Value)} :
    cellsSpelled name text cells = true ↔ ∀ cell ∈ cells, cell.spelled name text = true := by
  induction cells with
  | nil => simp [cellsSpelled]
  | cons cell rest ih => simp [cellsSpelled, ih]

theorem cellsFilled_iff {cells : List (Cell Value)} :
    cellsFilled cells = true ↔ ∀ cell ∈ cells, cell.filled = true := by
  induction cells with
  | nil => simp [cellsFilled]
  | cons cell rest ih => simp [cellsFilled, ih]

mutual

/-- The text of a cell inside a group, every text in it taken as it displays. -/
def Cell.written : Cell Value → Text
  | .text shown => shown.display
  | .port name shown => portText name shown
  | .group _ cells => groupText false (writtenCells cells)

def writtenCells : List (Cell Value) → List Text
  | [] => []
  | cell :: rest => cell.written :: writtenCells rest

end

theorem Cell.written_port (n s : String) :
    (Cell.port (.str n) (.str s)).written = ['<'] ++ n.toList ++ ['>', ' '] ++ s.toList := by
  simp [Cell.written, portText]

theorem Cell.written_group (isColumn : Value) (cells : List (Cell Value)) :
    (Cell.group isColumn cells).written
      = ['\x7b', ' '] ++ Text.joinWith separator (writtenCells cells) ++ [' ', '\x7d'] := by
  simp [Cell.written, groupText]

/-- What stands behind a cell of a group: the other cells that come after it, and what follows the
last of them. -/
def behindCell (others : List (Cell Value)) (after : Text) : Text :=
  match others with
  | [] => after
  | next :: later => separator ++ Text.joinWith separator (writtenCells (next :: later)) ++ after

theorem joined_cons (cell : Cell Value) (others : List (Cell Value)) (after : Text) :
    Text.joinWith separator (writtenCells (cell :: others)) ++ after
      = cell.written ++ behindCell others after := by
  cases others with
  | nil => rfl
  | cons next later => simp [behindCell, writtenCells]

section Spelled

variable {name text : Text → Bool}

mutual

theorem Cell.text?_of_spelled : (cell : Cell Value) → cell.spelled name text = true →
    cell.text? = .ok cell.written
  | .text shown, spelled => by
      obtain ⟨s, rfl, _⟩ := Cell.spelled_text_iff.1 spelled
      rfl
  | .port _ _, _ => rfl
  | .group _ cells, spelled => by
      rw [Cell.text?, texts_of_spelled cells spelled]
      rfl

theorem texts_of_spelled : (cells : List (Cell Value)) → cellsSpelled name text cells = true →
    texts cells = .ok (writtenCells cells)
  | [], _ => rfl
  | cell :: rest, spelled => by
      obtain ⟨first, later⟩ := Bool.and_eq_true_iff.1 spelled
      rw [texts, cell.text?_of_spelled first, texts_of_spelled rest later]
      rfl

end

theorem groupLabel_of_spelled {outermost : Bool} {isColumn : Value} {cells : List (Cell Value)}
    (spelled : cellsSpelled name text cells = true) :
    groupLabel outermost isColumn cells
      = .ok (groupText (outermost && !isColumn.isTruthy) (writtenCells cells)) := by
  rw [groupLabel, texts_of_spelled cells spelled]
  rfl

end Spelled

end Record
end DotDoc
