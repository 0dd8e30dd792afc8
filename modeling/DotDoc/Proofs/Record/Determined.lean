import DotDoc.Proofs.Record.Written
import DotDoc.Proofs.Text.Statements

/-!
# A record label determines its cells

When names and texts keep away from the marks of a label, the label can be read in one way only.
The proof compares two cells that stand in front of some rest.  A text ends at the blank in front
of the next mark, and this blank belongs to the separator or to the closing brace: blanks of the
text itself come before it.  A name ends at the closing bracket.  Which kind of cell it is shows in
the first character, and the mark behind a cell tells whether another one follows.

What a label does not show is the orientation of the groups inside it, nor whether a column is the
whole record or the only cell of a row.
-/

set_option autoImplicit false

namespace DotDoc.Record

/-- The characters that divide a label. -/
def labelMarks : List Char :=
  ['\x7b', '\x7d', '|', '<', '>']

mutual

/-- A cell with all groups in it made rows. -/
def Cell.unoriented : Cell Value → Cell Value
  | .text shown => .text shown
  | .port name shown => .port name shown
  | .group _ cells => .group (.bool false) (unorientedCells cells)

def unorientedCells : List (Cell Value) → List (Cell Value)
  | [] => []
  | cell :: rest => cell.unoriented :: unorientedCells rest

end

/-- The cells of an outermost group as those of a row: a column is the only cell of one. -/
def outermostRow (isColumn : Value) (cells : List (Cell Value)) : List (Cell Value) :=
  if isColumn.isTruthy then [.group isColumn cells] else cells

/-- A cell without marks in its names and texts, and without empty groups. -/
structure Cell.Plain (cell : Cell Value) : Prop where
  spelled : cell.spelled (Text.lacks labelMarks) (Text.lacks labelMarks) = true
  filled : cell.filled = true

theorem Cell.plain_group_iff {isColumn : Value} {cells : List (Cell Value)} :
    (Cell.group isColumn cells).Plain ↔ cells ≠ [] ∧ ∀ cell ∈ cells, cell.Plain := by
  constructor
  · rintro ⟨spelled, filled⟩
    rw [Cell.spelled, cellsSpelled_iff] at spelled
    rw [Cell.filled, Bool.and_eq_true_iff, cellsFilled_iff] at filled
    refine ⟨by simpa using filled.1, ?_⟩
    intro cell member
    exact ⟨spelled cell member, filled.2 cell member⟩
  · rintro ⟨nonempty, each⟩
    constructor
    · rw [Cell.spelled, cellsSpelled_iff]
      intro cell member
      exact (each cell member).spelled
    · rw [Cell.filled, Bool.and_eq_true_iff, cellsFilled_iff]
      refine ⟨by simpa using nonempty, ?_⟩
      intro cell member
      exact (each cell member).filled

/-- A blank and a mark, which follow every cell of a group. -/
def EndsCell (rest : Text) : Prop :=
  ∃ mark after, rest = ' ' :: mark :: after ∧ mark ∈ labelMarks

theorem text_append_cancel {s s' rest rest' : Text} (plain : s.lacks labelMarks = true)
    (plain' : s'.lacks labelMarks = true) (ends : EndsCell rest) (ends' : EndsCell rest')
    (same : s ++ rest = s' ++ rest') : s = s' ∧ rest = rest' := by
  obtain ⟨mark, after, rfl, is_mark⟩ := ends
  obtain ⟨mark', after', rfl, is_mark'⟩ := ends'
  have unmarked {t : Text} (lacks : t.lacks labelMarks = true) :
      ∀ c ∈ t ++ [' '], !labelMarks.contains c := by
    intro c member
    rcases List.mem_append.1 member with inside | blank
    · exact List.all_eq_true.1 lacks c inside
    · obtain rfl := List.mem_singleton.1 blank
      decide
  have marked {m : Char} {t : Text} (mark : m ∈ labelMarks) :
      ∀ c, (m :: t).head? = some c → (!labelMarks.contains c) = false := by
    rintro c ⟨⟩
    simpa using mark
  have blank_first : (s ++ [' ']) ++ mark :: after = (s' ++ [' ']) ++ mark' :: after' := by
    simpa using same
  obtain ⟨fronts, rests⟩ :=
    append_cancel_of_class (unmarked plain) (unmarked plain') (marked is_mark) (marked is_mark')
      blank_first
  exact ⟨List.append_cancel_right fronts, by rw [rests]⟩

theorem text_append_ne_mark {s rest after : Text} {mark : Char} (plain : s.lacks labelMarks = true)
    (ends : EndsCell rest) (is_mark : mark ∈ labelMarks) : s ++ rest ≠ mark :: after := by
  intro same
  cases s with
  | nil =>
      obtain ⟨_, _, rfl, _⟩ := ends
      obtain ⟨rfl, _⟩ := List.cons.inj same
      exact absurd is_mark (by decide)
  | cons c s =>
      obtain ⟨rfl, _⟩ := List.cons.inj same
      exact Text.lacks_iff.1 plain c is_mark (List.mem_cons_self ..)

theorem port_append_cancel {name name' s s' : String} {rest rest' : Text}
    (named : Text.lacks labelMarks name.toList = true)
    (named' : Text.lacks labelMarks name'.toList = true)
    (plain : Text.lacks labelMarks s.toList = true)
    (plain' : Text.lacks labelMarks s'.toList = true)
    (ends : EndsCell rest) (ends' : EndsCell rest')
    (same : portText (.str name) (.str s) ++ rest = portText (.str name') (.str s') ++ rest') :
    name = name' ∧ s = s' ∧ rest = rest' := by
  have bracketless {n : String} (lacks : Text.lacks labelMarks n.toList = true) :
      ∀ c ∈ n.toList, (c != '>') = true := by
    intro c member
    have other : c ≠ '>' := by
      rintro rfl
      exact Text.lacks_iff.1 lacks '>' (by decide) member
    simpa using other
  have stops {t : Text} : ∀ c, ('>' :: t).head? = some c → (c != '>') = false := by
    rintro c ⟨⟩
    rfl
  have inside : name.toList ++ '>' :: (' ' :: s.toList ++ rest)
      = name'.toList ++ '>' :: (' ' :: s'.toList ++ rest') := by
    simpa [portText] using same
  obtain ⟨names, texts⟩ :=
    append_cancel_of_class (bracketless named) (bracketless named') stops stops inside
  obtain ⟨shown, rests⟩ := text_append_cancel plain plain' ends ends'
    (List.cons.inj (List.cons.inj texts).2).2
  exact ⟨String.toList_inj.1 names, String.toList_inj.1 shown, rests⟩

/-- The cells of a group, its closing brace, and what follows. -/
def closedCells (cells : List (Cell Value)) (after : Text) : Text :=
  Text.joinWith separator (writtenCells cells) ++ ' ' :: '\x7d' :: after

theorem closedCells_cons (cell : Cell Value) (others : List (Cell Value)) (after : Text) :
    closedCells (cell :: others) after
      = cell.written ++ behindCell others (' ' :: '\x7d' :: after) :=
  joined_cons cell others _

theorem endsCell_behindCell (others : List (Cell Value)) (after : Text) :
    EndsCell (behindCell others (' ' :: '\x7d' :: after)) := by
  cases others with
  | nil => exact ⟨'\x7d', after, rfl, by decide⟩
  | cons next later => exact ⟨'|', _, rfl, by decide⟩

theorem written_group_append (isColumn : Value) (cells : List (Cell Value)) (rest : Text) :
    (Cell.group isColumn cells).written ++ rest = '\x7b' :: ' ' :: closedCells cells rest := by
  simp [Cell.written_group, closedCells]

mutual

theorem Cell.written_append_cancel : (cell cell' : Cell Value) → {rest rest' : Text} →
    cell.Plain → cell'.Plain → EndsCell rest → EndsCell rest' →
    cell.written ++ rest = cell'.written ++ rest' →
    cell.unoriented = cell'.unoriented ∧ rest = rest'
  | .text shown, other, rest, rest', plain, plain', ends, ends', same => by
      obtain ⟨s, rfl, lacks⟩ := Cell.spelled_text_iff.1 plain.spelled
      cases other with
      | text shown' =>
          obtain ⟨s', rfl, lacks'⟩ := Cell.spelled_text_iff.1 plain'.spelled
          obtain ⟨texts, rests⟩ := text_append_cancel lacks lacks' ends ends' same
          obtain rfl := String.toList_inj.1 texts
          exact ⟨rfl, rests⟩
      | port name' shown' => exact absurd same (text_append_ne_mark lacks ends (by decide))
      | group isColumn' cells' => exact absurd same (text_append_ne_mark lacks ends (by decide))
  | .port name shown, other, rest, rest', plain, plain', ends, ends', same => by
      obtain ⟨n, s, rfl, rfl, name_lacks, lacks⟩ := Cell.spelled_port_iff.1 plain.spelled
      cases other with
      | text shown' =>
          obtain ⟨s', rfl, lacks'⟩ := Cell.spelled_text_iff.1 plain'.spelled
          exact absurd same.symm (text_append_ne_mark lacks' ends' (by decide))
      | port name' shown' =>
          obtain ⟨n', s', rfl, rfl, name_lacks', lacks'⟩ :=
            Cell.spelled_port_iff.1 plain'.spelled
          obtain ⟨rfl, rfl, rests⟩ :=
            port_append_cancel name_lacks name_lacks' lacks lacks' ends ends' same
          exact ⟨rfl, rests⟩
      | group isColumn' cells' => exact absurd (List.cons.inj same).1 (by decide)
  | .group isColumn cells, other, rest, rest', plain, plain', ends, ends', same => by
      obtain ⟨nonempty, each⟩ := Cell.plain_group_iff.1 plain
      cases other with
      | text shown' =>
          obtain ⟨s', rfl, lacks'⟩ := Cell.spelled_text_iff.1 plain'.spelled
          exact absurd same.symm (text_append_ne_mark lacks' ends' (by decide))
      | port name' shown' => exact absurd (List.cons.inj same).1 (by decide)
      | group isColumn' cells' =>
          obtain ⟨nonempty', each'⟩ := Cell.plain_group_iff.1 plain'
          rw [written_group_append, written_group_append] at same
          obtain ⟨cells_same, rests⟩ := closedCells_cancel cells cells' each each' nonempty
            nonempty' (List.cons.inj (List.cons.inj same).2).2
          rw [Cell.unoriented, Cell.unoriented, cells_same]
          exact ⟨rfl, rests⟩

theorem closedCells_cancel : (cells cells' : List (Cell Value)) → {after after' : Text} →
    (∀ cell ∈ cells, cell.Plain) → (∀ cell ∈ cells', cell.Plain) → cells ≠ [] → cells' ≠ [] →
    closedCells cells after = closedCells cells' after' →
    unorientedCells cells = unorientedCells cells' ∧ after = after'
  | [], _, _, _, _, _, nonempty, _, _ => absurd rfl nonempty
  | _ :: _, [], _, _, _, _, _, nonempty', _ => absurd rfl nonempty'
  | cell :: others, cell' :: others', after, after', plain, plain', _, _, same => by
      rw [closedCells_cons, closedCells_cons] at same
      obtain ⟨first, behind⟩ := cell.written_append_cancel cell' (plain _ (List.mem_cons_self ..))
        (plain' _ (List.mem_cons_self ..)) (endsCell_behindCell others after)
        (endsCell_behindCell others' after') same
      have later : ∀ c ∈ others, c.Plain := fun c member => plain c (List.mem_cons_of_mem _ member)
      have later' : ∀ c ∈ others', c.Plain := fun c member =>
        plain' c (List.mem_cons_of_mem _ member)
      -- the mark behind the two cells is a bar for both of them or a brace for both
      cases others with
      | nil =>
          cases others' with
          | nil =>
              exact ⟨congrArg (fun c => [c]) first, (List.cons.inj (List.cons.inj behind).2).2⟩
          | cons next' others' =>
              exact absurd (List.cons.inj (List.cons.inj behind).2).1 (by decide)
      | cons next others =>
          cases others' with
          | nil => exact absurd (List.cons.inj (List.cons.inj behind).2).1 (by decide)
          | cons next' others' =>
              obtain ⟨rest_same, ends_same⟩ := closedCells_cancel (next :: others)
                (next' :: others') later later' (List.cons_ne_nil _ _) (List.cons_ne_nil _ _)
                (List.cons.inj (List.cons.inj (List.cons.inj behind).2).2).2
              exact ⟨congrArg₂ List.cons first rest_same, ends_same⟩

end

mutual

theorem Cell.written_unoriented : (cell : Cell Value) → cell.unoriented.written = cell.written
  | .text _ => rfl
  | .port _ _ => rfl
  | .group _ cells => by
      rw [Cell.unoriented, Cell.written, Cell.written, writtenCells_unoriented cells]

theorem writtenCells_unoriented : (cells : List (Cell Value)) →
    writtenCells (unorientedCells cells) = writtenCells cells
  | [] => rfl
  | cell :: rest => by
      rw [unorientedCells, writtenCells, writtenCells, cell.written_unoriented,
        writtenCells_unoriented rest]

end

theorem groupText_outermost (isColumn : Value) (cells : List (Cell Value)) :
    groupText (!isColumn.isTruthy) (writtenCells cells)
      = Text.joinWith separator (writtenCells (outermostRow isColumn cells)) := by
  cases column : isColumn.isTruthy <;>
    simp [outermostRow, column, groupText, writtenCells, Cell.written]

theorem plain_outermostRow {isColumn : Value} {cells : List (Cell Value)}
    (plain : (Cell.group isColumn cells).Plain) :
    outermostRow isColumn cells ≠ [] ∧ ∀ cell ∈ outermostRow isColumn cells, cell.Plain := by
  unfold outermostRow
  split
  · refine ⟨List.cons_ne_nil _ _, ?_⟩
    intro cell member
    obtain rfl := List.mem_singleton.1 member
    exact plain
  · exact Cell.plain_group_iff.1 plain

/-- Two outermost groups without marks in their names and texts, and without empty groups, have
labels, and the labels are equal exactly when the groups are, with an outermost column taken for
the only cell of a row and the orientations of all groups inside forgotten. -/
theorem label_determines_cells {isColumn isColumn' : Value} {cells cells' : List (Cell Value)}
    (plain : (Cell.group isColumn cells).Plain) (plain' : (Cell.group isColumn' cells').Plain) :
    ∃ label label', groupLabel true isColumn cells = .ok label ∧
      groupLabel true isColumn' cells' = .ok label' ∧
      (label = label' ↔ unorientedCells (outermostRow isColumn cells)
        = unorientedCells (outermostRow isColumn' cells')) := by
  refine ⟨_, _, groupLabel_of_spelled plain.spelled, groupLabel_of_spelled plain'.spelled, ?_⟩
  rw [Bool.true_and, Bool.true_and, groupText_outermost, groupText_outermost]
  constructor
  · intro same
    obtain ⟨nonempty, each⟩ := plain_outermostRow plain
    obtain ⟨nonempty', each'⟩ := plain_outermostRow plain'
    have closed : closedCells (outermostRow isColumn cells) []
        = closedCells (outermostRow isColumn' cells') [] := by
      rw [closedCells, same, ← closedCells]
    exact (closedCells_cancel _ _ each each' nonempty nonempty' closed).1
  · intro same
    rw [← writtenCells_unoriented, same, writtenCells_unoriented]

def blankColumn : List (Cell Value) :=
  [.text (.str " a"), .group (.bool false) [.text (.str ""), .port (.str "p q") (.str " ")]]

theorem blankColumn_read_alike :
    (Cell.group (.bool true) blankColumn).Plain ∧
      (Cell.group (.int 0) [.group .null blankColumn]).Plain ∧
      (Cell.group (.bool false) blankColumn).Plain ∧
      groupLabel true (.bool true) blankColumn
        = .ok "\x7b  a | \x7b  | <p q>   \x7d \x7d".toList ∧
      groupLabel true (.int 0) [.group .null blankColumn]
        = groupLabel true (.bool true) blankColumn ∧
      groupLabel true (.bool false) blankColumn ≠ groupLabel true (.bool true) blankColumn := by
  have column : (Cell.group (.bool true) blankColumn).Plain := ⟨by decide, by decide⟩
  have row_of_group : (Cell.group (.int 0) [.group .null blankColumn]).Plain :=
    ⟨by decide, by decide⟩
  have row : (Cell.group (.bool false) blankColumn).Plain := ⟨by decide, by decide⟩
  refine ⟨column, row_of_group, row, rfl, ?_, ?_⟩
  · obtain ⟨label, label', written, written', same_iff⟩ :=
      label_determines_cells row_of_group column
    rw [written, written', same_iff.2 rfl]
  · obtain ⟨label, label', written, written', same_iff⟩ := label_determines_cells row column
    intro same
    rw [written, written'] at same
    cases same_iff.1 (Except.ok.inj same)

end DotDoc.Record
