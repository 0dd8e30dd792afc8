import DotDoc.Proofs.Record.Written

/-!
# The orientation of record groups

A label does not name the orientation of a group.  It is drawn from the braces around the cells of
the group: the cells are a row where an even number of braces is open and a column where an odd
number is.  An outermost row is written without braces and an outermost column within one pair, so
the outermost group is always drawn as declared, and every group inside another stands one brace
deeper than the cells around it.

`outermostPlaces` lists where the cells of all groups stand in the label.  By induction on the tree
a group whose cells are drawn as declared passes this on exactly to the groups in it that differ
from it in orientation.
-/

set_option autoImplicit false

namespace DotDoc

namespace Text

variable {s t : Text}

/-- The braces that a text opens, less those that it closes. -/
def braceDepth (t : Text) : Int :=
  t.count '\x7b' - t.count '\x7d'

@[simp] theorem braceDepth_append (s t : Text) :
    braceDepth (s ++ t) = braceDepth s + braceDepth t := by
  simp only [braceDepth, List.count_append]
  omega

def braceless (t : Text) : Bool :=
  t.lacks ['\x7b', '\x7d']

theorem braceDepth_of_braceless (level : t.braceless = true) : braceDepth t = 0 := by
  have absent := lacks_iff.1 level
  have no_opening : t.count '\x7b' = 0 := List.count_eq_zero.2 (absent _ (by simp))
  have no_closing : t.count '\x7d' = 0 := List.count_eq_zero.2 (absent _ (by simp))
  rw [braceDepth, no_opening, no_closing]
  omega

theorem braceDepth_joinWith {separator : Text} {items : List Text}
    (separator_level : braceDepth separator = 0) (level : ∀ t ∈ items, braceDepth t = 0) :
    braceDepth (joinWith separator items) = 0 := by
  induction items with
  | nil => rfl
  | cons item rest ih =>
      have first := level item (List.mem_cons_self ..)
      cases rest with
      | nil => exact first
      | cons next rest =>
          have later : braceDepth (joinWith separator (next :: rest)) = 0 := by
            apply ih
            intro t member
            exact level t (List.mem_cons_of_mem _ member)
          simp only [joinWith_cons_cons, braceDepth_append]
          omega

end Text

namespace Record

open Text (braceDepth)

/-- A cell of a group in a label, and the orientation that the group is declared to have. -/
structure Place where
  isColumn : Value
  before : Text
  cell : Cell Value
  after : Text

/-- Whether an odd number of braces is open where the cell stands exactly if its group is a
column. -/
def Place.DrawnAsDeclared (p : Place) : Prop :=
  braceDepth p.before % 2 = 1 ↔ p.isColumn.isTruthy = true

mutual

/-- The places of the cells of all groups in a cell that stands between two texts. -/
def Cell.places (before after : Text) : Cell Value → List Place
  | .text _ => []
  | .port _ _ => []
  | .group isColumn cells =>
      cellPlaces isColumn (before ++ ['\x7b', ' ']) (' ' :: '\x7d' :: after) cells

/-- The places of cells of one group, and of the cells of all groups in them. -/
def cellPlaces (isColumn : Value) (before after : Text) : List (Cell Value) → List Place
  | [] => []
  | cell :: rest =>
      ⟨isColumn, before, cell, behindCell rest after⟩
        :: (cell.places before (behindCell rest after)
          ++ cellPlaces isColumn (before ++ cell.written ++ separator) after rest)

end

/-- The places in the label of an outermost group, which has no braces if it is a row. -/
def outermostPlaces (isColumn : Value) (cells : List (Cell Value)) : List Place :=
  if isColumn.isTruthy then (Cell.group isColumn cells).places [] []
  else cellPlaces isColumn [] [] cells

mutual

theorem Cell.places_text : (cell : Cell Value) → (before after : Text) →
    ∀ p ∈ cell.places before after,
      p.before ++ p.cell.written ++ p.after = before ++ cell.written ++ after
  | .text _, _, _, _, member => absurd member List.not_mem_nil
  | .port _ _, _, _, _, member => absurd member List.not_mem_nil
  | .group isColumn cells, before, after, p, member => by
      rw [cellPlaces_text cells isColumn _ _ p member, Cell.written_group]
      simp

theorem cellPlaces_text : (cells : List (Cell Value)) → (isColumn : Value) →
    (before after : Text) → ∀ p ∈ cellPlaces isColumn before after cells,
      p.before ++ p.cell.written ++ p.after
        = before ++ Text.joinWith separator (writtenCells cells) ++ after
  | [], _, _, _, _, member => absurd member List.not_mem_nil
  | cell :: rest, isColumn, before, after, p, member => by
      rw [List.append_assoc before, joined_cons, ← List.append_assoc]
      rcases List.mem_cons.1 member with rfl | inside
      · rfl
      · rcases List.mem_append.1 inside with within | later
        · exact cell.places_text before _ p within
        · rw [cellPlaces_text rest isColumn _ after p later]
          cases rest with
          | nil => exact absurd later List.not_mem_nil
          | cons next rest => simp [behindCell]

end

mutual

/-- Whether a cell of a group of the given orientation, if it is a group, has the other one, and
so on in the cell. -/
def Cell.alternates (outer : Value) : Cell Value → Bool
  | .text _ => true
  | .port _ _ => true
  | .group isColumn cells =>
      isColumn.isTruthy != outer.isTruthy && cellsAlternate isColumn cells

def cellsAlternate (outer : Value) : List (Cell Value) → Bool
  | [] => true
  | cell :: rest => cell.alternates outer && cellsAlternate outer rest

end

mutual

theorem Cell.braceDepth_written : (cell : Cell Value) →
    cell.spelled Text.braceless Text.braceless = true → braceDepth cell.written = 0
  | .text _, spelled => by
      obtain ⟨s, rfl, level⟩ := Cell.spelled_text_iff.1 spelled
      exact Text.braceDepth_of_braceless level
  | .port _ _, spelled => by
      obtain ⟨n, s, rfl, rfl, name_level, text_level⟩ := Cell.spelled_port_iff.1 spelled
      have opening : braceDepth ['<'] = 0 := rfl
      have closing : braceDepth ['>', ' '] = 0 := rfl
      have name_depth := Text.braceDepth_of_braceless name_level
      have text_depth := Text.braceDepth_of_braceless text_level
      simp only [Cell.written_port, Text.braceDepth_append]
      omega
  | .group isColumn cells, spelled => by
      have opening : braceDepth ['\x7b', ' '] = 1 := rfl
      have closing : braceDepth [' ', '\x7d'] = -1 := rfl
      have inside : braceDepth (Text.joinWith separator (writtenCells cells)) = 0 := by
        apply Text.braceDepth_joinWith
        · rfl
        · exact braceDepth_writtenCells cells spelled
      simp only [Cell.written_group, Text.braceDepth_append]
      omega

theorem braceDepth_writtenCells : (cells : List (Cell Value)) →
    cellsSpelled Text.braceless Text.braceless cells = true →
    ∀ t ∈ writtenCells cells, braceDepth t = 0
  | [], _, _, member => absurd member List.not_mem_nil
  | cell :: rest, spelled, t, member => by
      obtain ⟨first, later⟩ := Bool.and_eq_true_iff.1 spelled
      rcases List.mem_cons.1 member with rfl | behind
      · exact cell.braceDepth_written first
      · exact braceDepth_writtenCells rest later t behind

end

mutual

/-- In a group that is drawn as declared, the groups in a cell are so exactly if they differ from
the groups around them. -/
theorem Cell.places_drawn_iff : (cell : Cell Value) → (outer : Value) → (before after : Text) →
    cell.spelled Text.braceless Text.braceless = true → cell.filled = true →
    (braceDepth before % 2 = 1 ↔ outer.isTruthy = true) →
    ((∀ p ∈ cell.places before after, p.DrawnAsDeclared) ↔ cell.alternates outer = true)
  | .text _, _, _, _, _, _, _ => by simp [Cell.places, Cell.alternates]
  | .port _ _, _, _, _, _, _, _ => by simp [Cell.places, Cell.alternates]
  | .group _ [], _, _, _, _, filled, _ => by simp [Cell.filled] at filled
  | .group inner (first :: rest), outer, before, after, spelled, filled, drawn => by
      have opening : braceDepth ['\x7b', ' '] = 1 := rfl
      have deeper : braceDepth (before ++ ['\x7b', ' ']) = braceDepth before + 1 := by
        rw [Text.braceDepth_append, opening]
      rw [Cell.places, Cell.alternates, Bool.and_eq_true_iff, bne_iff_ne]
      by_cases same : inner.isTruthy = outer.isTruthy
      · constructor
        · intro each
          have first_drawn := each _ (List.mem_cons_self ..)
          rw [Place.DrawnAsDeclared, deeper, same, ← drawn] at first_drawn
          omega
        · intro differs
          exact absurd same differs.1
      · have inner_drawn :
            braceDepth (before ++ ['\x7b', ' ']) % 2 = 1 ↔ inner.isTruthy = true := by
          rw [deeper, Bool.eq_not_of_ne same, Bool.not_eq_true', ← Bool.not_eq_true, ← drawn]
          omega
        rw [cellPlaces_drawn_iff (first :: rest) inner _ _ spelled filled inner_drawn]
        exact (and_iff_right same).symm

theorem cellPlaces_drawn_iff : (cells : List (Cell Value)) → (isColumn : Value) →
    (before after : Text) → cellsSpelled Text.braceless Text.braceless cells = true →
    cellsFilled cells = true → (braceDepth before % 2 = 1 ↔ isColumn.isTruthy = true) →
    ((∀ p ∈ cellPlaces isColumn before after cells, p.DrawnAsDeclared) ↔
      cellsAlternate isColumn cells = true)
  | [], _, _, _, _, _, _ => by simp [cellPlaces, cellsAlternate]
  | cell :: rest, isColumn, before, after, spelled, filled, drawn => by
      obtain ⟨spelled_first, spelled_rest⟩ := Bool.and_eq_true_iff.1 spelled
      obtain ⟨filled_first, filled_rest⟩ := Bool.and_eq_true_iff.1 filled
      have level : braceDepth separator = 0 := rfl
      have as_deep : braceDepth (before ++ cell.written ++ separator) = braceDepth before := by
        have first_level := cell.braceDepth_written spelled_first
        simp only [Text.braceDepth_append]
        omega
      have in_first := cell.places_drawn_iff isColumn before (behindCell rest after) spelled_first
        filled_first drawn
      have in_rest := cellPlaces_drawn_iff rest isColumn (before ++ cell.written ++ separator) after
        spelled_rest filled_rest (as_deep ▸ drawn)
      rw [cellPlaces, List.forall_mem_cons, List.forall_mem_append, in_first, in_rest,
        cellsAlternate, Bool.and_eq_true_iff]
      exact and_iff_right drawn

end

/-- The label of an outermost group without empty groups and without braces in its names and texts
holds the cells of all groups, and every group is drawn as it is declared if and only if every
group inside another differs from that one in orientation. -/
theorem drawn_as_declared_iff_alternate {isColumn : Value} {cells : List (Cell Value)}
    (spelled : (Cell.group isColumn cells).spelled Text.braceless Text.braceless = true)
    (filled : (Cell.group isColumn cells).filled = true) :
    ∃ label, groupLabel true isColumn cells = .ok label ∧
      (∀ p ∈ outermostPlaces isColumn cells, label = p.before ++ p.cell.written ++ p.after) ∧
      ((∀ p ∈ outermostPlaces isColumn cells, p.DrawnAsDeclared) ↔
        cellsAlternate isColumn cells = true) := by
  obtain ⟨_, cells_filled⟩ := Bool.and_eq_true_iff.1 filled
  refine ⟨_, groupLabel_of_spelled spelled, ?_, ?_⟩
  · intro p member
    unfold outermostPlaces at member
    split at member
    · rename_i column
      have whole := (Cell.group isColumn cells).places_text [] [] p member
      simpa [column, Cell.written] using whole.symm
    · rename_i row
      have whole := cellPlaces_text cells isColumn [] [] p member
      simpa [row, groupText] using whole.symm
  · unfold outermostPlaces
    split
    · rename_i column
      exact cellPlaces_drawn_iff cells isColumn _ _ spelled cells_filled (iff_of_true rfl column)
    · rename_i row
      exact cellPlaces_drawn_iff cells isColumn [] [] spelled cells_filled
        (iff_of_false (by decide) row)

def columnWithRow : Cell Value :=
  .group (.bool true) [.text (.str "b"),
    .group (.bool false) [.port (.str "p") (.str "c"), .text (.str "")]]

theorem columnWithRow_drawn_in_row :
    (Cell.group (.bool false) [.text (.str "a"), columnWithRow]).spelled
        Text.braceless Text.braceless = true ∧
      (Cell.group (.bool false) [.text (.str "a"), columnWithRow]).filled = true ∧
      groupLabel true (.bool false) [.text (.str "a"), columnWithRow]
        = .ok "a | \x7b b | \x7b <p> c |  \x7d \x7d".toList ∧
      (∀ p ∈ outermostPlaces (.bool false) [.text (.str "a"), columnWithRow],
        p.DrawnAsDeclared) ∧
      ¬∀ p ∈ outermostPlaces (.bool true) [.text (.str "a"), columnWithRow],
        p.DrawnAsDeclared := by
  have spelled (isColumn : Value) : (Cell.group isColumn [.text (.str "a"), columnWithRow]).spelled
      Text.braceless Text.braceless = true := rfl
  have filled (isColumn : Value) :
      (Cell.group isColumn [.text (.str "a"), columnWithRow]).filled = true := rfl
  obtain ⟨_, _, _, in_row⟩ := drawn_as_declared_iff_alternate (spelled (.bool false)) (filled _)
  obtain ⟨_, _, _, in_column⟩ := drawn_as_declared_iff_alternate (spelled (.bool true)) (filled _)
  refine ⟨spelled _, filled _, rfl, in_row.2 rfl, ?_⟩
  rw [in_column]
  decide

end Record
end DotDoc
