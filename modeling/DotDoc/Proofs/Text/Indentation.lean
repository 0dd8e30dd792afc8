import DotDoc.Text.Lines
import Mathlib.Data.List.Basic

/-!
# Indentation and joined texts

Indenting puts the margin in front of a text and hangs the rest of its lines below: `hang` writes
the margin after every line feed and changes nothing else.  It goes through appended texts piece by
piece, so what it does to a part of a text can be read off that part, and one margin hung inside
another is their sum.  A text of one line hangs unchanged, and only such a text does.
-/

set_option autoImplicit false

namespace DotDoc.Text

/-- A margin in front of every line of a text but the first. -/
def hang (margin t : Text) : Text :=
  t.flatMap fun c => if c = '\n' then '\n' :: margin else [c]

theorem indentBy_eq (m t : Text) : indentBy m t = m ++ hang m t := rfl

@[simp] theorem hang_nil (m : Text) : hang m [] = [] := rfl

@[simp] theorem hang_append (m first second : Text) :
    hang m (first ++ second) = hang m first ++ hang m second :=
  List.flatMap_append

theorem hang_cons (m : Text) (c : Char) (rest : Text) :
    hang m (c :: rest) = (if c = '\n' then '\n' :: m else [c]) ++ hang m rest :=
  List.flatMap_cons

@[simp] theorem hang_without_margin (t : Text) : hang [] t = t := by
  induction t with
  | nil => rfl
  | cons c rest ih =>
      rw [hang_cons, ih]
      by_cases feed : c = '\n' <;> simp [feed]

theorem hang_of_not_mem {m t : Text} (one_line : '\n' ∉ t) : hang m t = t :=
  List.append_cancel_left (indentBy_of_not_mem m t one_line)

theorem length_hang (m t : Text) : (hang m t).length = t.length + t.count '\n' * m.length := by
  induction t with
  | nil => simp
  | cons c rest ih =>
      rw [hang_cons, List.length_append, ih]
      by_cases feed : c = '\n'
      · rw [if_pos feed, feed, List.count_cons_self, Nat.succ_mul, List.length_cons,
          List.length_cons]
        omega
      · rw [if_neg feed, List.count_cons_of_ne feed, List.length_singleton, List.length_cons]
        omega

theorem hang_eq_self_iff {m t : Text} (wide : m ≠ []) : hang m t = t ↔ '\n' ∉ t := by
  constructor
  · intro same member
    have widened := length_hang m t
    have feeds : 0 < t.count '\n' := List.count_pos_iff.2 member
    have width : 0 < m.length := List.length_pos_iff.2 wide
    have added : 0 < t.count '\n' * m.length := Nat.mul_pos feeds width
    rw [same] at widened
    omega
  · exact hang_of_not_mem

theorem hang_hang {m n : Text} (one_line : '\n' ∉ n) (t : Text) :
    hang m (hang n t) = hang (m ++ n) t := by
  induction t with
  | nil => rfl
  | cons c rest ih =>
      rw [hang_cons n, hang_append, ih, hang_cons (m ++ n)]
      by_cases feed : c = '\n'
      · rw [if_pos feed, if_pos feed, hang_cons, if_pos rfl, hang_of_not_mem one_line]
        simp
      · rw [if_neg feed, if_neg feed, hang_cons, if_neg feed, hang_nil, List.append_nil]

theorem hang_infix {m t whole : Text} (part : t <:+: whole) : hang m t <:+: hang m whole := by
  obtain ⟨before, after, rfl⟩ := part
  exact ⟨hang m before, hang m after, by simp⟩

@[simp] theorem not_mem_margin (depth : Nat) : '\n' ∉ margin depth := by
  simp [margin, indentUnit]

theorem margin_ne_nil {depth : Nat} (deep : 0 < depth) : margin depth ≠ [] := by
  obtain ⟨n, rfl⟩ := Nat.exists_eq_succ_of_ne_zero (Nat.ne_of_gt deep)
  simp [margin_succ, indentUnit]

theorem hang_infix_indent {t whole : Text} {depth : Nat}
    (part : hang (margin depth) t <:+: whole) : hang (margin (depth + 1)) t <:+: indent whole := by
  have deeper : hang indentUnit (hang (margin depth) t) <:+: hang indentUnit whole :=
    hang_infix part
  rw [hang_hang (not_mem_margin depth), ← margin_succ] at deeper
  exact deeper.trans (List.suffix_append indentUnit _).isInfix

theorem hang_infix_indent_once {t whole : Text} (part : t <:+: whole) :
    hang (margin 1) t <:+: indent whole := by
  have unindented : hang (margin 0) t <:+: whole := by simpa using part
  exact hang_infix_indent unindented

theorem cut_at_last {c : Char} {before after front back : Text} (not_after : c ∉ after)
    (not_back : c ∉ back) (same : before ++ c :: after = front ++ c :: back) :
    before = front ∧ after = back := by
  rcases List.append_eq_append_iff.1 same with ⟨gap, rfl, rest⟩ | ⟨gap, rfl, rest⟩
  · cases gap with
    | nil => exact ⟨(List.append_nil before).symm, (List.cons.inj rest).2⟩
    | cons d gap => exact absurd (by simp [(List.cons.inj rest).2]) not_after
  · cases gap with
    | nil => exact ⟨List.append_nil front, (List.cons.inj rest).2.symm⟩
    | cons d gap => exact absurd (by simp [(List.cons.inj rest).2]) not_back

theorem count_hang {m : Text} {c : Char} (other : c ∉ m) (t : Text) :
    (hang m t).count c = t.count c := by
  induction t with
  | nil => rfl
  | cons d rest ih =>
      rw [hang_cons, List.count_append, ih, List.count_cons, Nat.add_comm]
      by_cases feed : d = '\n'
      · rw [if_pos feed, feed, List.count_cons, List.count_eq_zero_of_not_mem other, Nat.zero_add]
      · rw [if_neg feed, List.count_singleton]

/-- A text with a line feed that ends in a character which stands nowhere around it is not there
once it hangs.  The last such character would end it, and after the last line feed before that
character stands the margin. -/
theorem not_infix_around_hang {m before after head : Text} {c : Char} (wide : m ≠ [])
    (one_line : '\n' ∉ m) (not_feed : c ≠ '\n') (not_margin : c ∉ m) (not_before : c ∉ before)
    (not_after : c ∉ after) (feed : '\n' ∈ head) :
    ¬(head ++ [c]) <:+: before ++ hang m (head ++ [c]) ++ after := by
  rintro ⟨front, back, same⟩
  have hung : hang m (head ++ [c]) = hang m head ++ [c] := by
    rw [hang_append, hang_of_not_mem (by simp [Ne.symm not_feed] : '\n' ∉ [c])]
  have counts := congrArg (List.count c) same
  simp only [hung, List.count_append, count_hang not_margin,
    List.count_eq_zero_of_not_mem not_before, List.count_eq_zero_of_not_mem not_after] at counts
  have not_back : c ∉ back := List.count_eq_zero.1 (by omega)
  have heads : front ++ head = before ++ hang m head := by
    refine (cut_at_last not_back not_after ?_).1
    simpa [hung] using same
  obtain ⟨lines, last, rfl, not_last⟩ :
      ∃ lines last, head = lines ++ '\n' :: last ∧ '\n' ∉ last := by
    obtain ⟨last, lines, split, absent⟩ := List.eq_append_cons_of_mem (List.mem_reverse.2 feed)
    refine ⟨lines.reverse, last.reverse, ?_, by simpa using absent⟩
    simpa using congrArg List.reverse split
  have not_hung : '\n' ∉ m ++ last := by simp [one_line, not_last]
  have cut : (front ++ lines) ++ '\n' :: last
      = (before ++ hang m lines) ++ '\n' :: (m ++ last) := by
    simpa [hang_cons, hang_of_not_mem not_last] using heads
  have lasts : last = m ++ last := (cut_at_last not_last not_hung cut).2
  exact wide (List.append_left_eq_self.1 lasts.symm)

theorem infix_joinWith {separator item : Text} {items : List Text} (member : item ∈ items) :
    item <:+: joinWith separator items := by
  induction items with
  | nil => cases member
  | cons first rest ih =>
      cases rest with
      | nil =>
          obtain rfl := List.mem_singleton.1 member
          exact List.infix_refl item
      | cons next later =>
          rw [joinWith_cons_cons]
          rcases List.mem_cons.1 member with rfl | member
          · exact ((List.prefix_append item separator).trans (List.prefix_append _ _)).isInfix
          · exact (ih member).trans (List.suffix_append _ _).isInfix

end DotDoc.Text
