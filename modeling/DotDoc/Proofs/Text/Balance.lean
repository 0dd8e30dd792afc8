import DotDoc.Proofs.Text.Indentation
import Mathlib.Data.List.Infix

/-!
# Balanced angle brackets

The depth of a text is the number of angle brackets that it opens, less the number that it closes.
A text is balanced when its depth is zero and no prefix goes below zero.  Only the brackets of a
text count for that, so hanging lines and replacing other characters keep it balanced.

A balanced text between two angle brackets is one token: the depth is back at zero at its last
character and not before.  Reading up to the closing bracket, with depth counted on the way, gives
back the text and all that follows.
-/

set_option autoImplicit false

namespace DotDoc.Text

variable {s t : Text}

/-- The angle brackets that a text opens, less those that it closes. -/
def depth (t : Text) : Int :=
  t.count '<' - t.count '>'

@[simp] theorem depth_nil : depth [] = 0 := rfl

@[simp] theorem depth_append (s t : Text) : depth (s ++ t) = depth s + depth t := by
  simp only [depth, List.count_append]
  omega

theorem depth_cons (c : Char) (t : Text) : depth (c :: t) = depth [c] + depth t :=
  depth_append [c] t

@[simp] theorem depth_open : depth ['<'] = 1 := rfl

@[simp] theorem depth_close : depth ['>'] = -1 := rfl

theorem depth_other {c : Char} (not_open : c ≠ '<') (not_close : c ≠ '>') : depth [c] = 0 := by
  simp [depth, not_open, not_close]

def isBracket (c : Char) : Bool :=
  c = '<' || c = '>'

theorem depth_filter (t : Text) : depth (t.filter isBracket) = depth t := by
  have opened : isBracket '<' = true := rfl
  have closed : isBracket '>' = true := rfl
  rw [depth, depth, List.count_filter opened, List.count_filter closed]

structure Balanced (t : Text) : Prop where
  prefixes : ∀ p, p <+: t → 0 ≤ depth p
  total : depth t = 0

theorem balanced_iff : Balanced t ↔ (∀ p ∈ t.inits, 0 ≤ depth p) ∧ depth t = 0 := by
  simp only [List.mem_inits]
  exact ⟨fun balanced => ⟨balanced.prefixes, balanced.total⟩, fun both => ⟨both.1, both.2⟩⟩

instance (t : Text) : Decidable (Balanced t) :=
  decidable_of_iff' _ balanced_iff

theorem Balanced.of_same_brackets (balanced : Balanced s)
    (same : t.filter isBracket = s.filter isBracket) : Balanced t where
  prefixes p before := by
    have brackets : p.filter isBracket <+: s.filter isBracket := same ▸ before.filter isBracket
    obtain ⟨q, q_before, same_brackets⟩ := List.prefix_filter_iff.1 brackets
    rw [← depth_filter, same_brackets, depth_filter]
    exact balanced.prefixes q q_before
  total := by rw [← depth_filter, same, depth_filter, balanced.total]

theorem Balanced.nil : Balanced [] where
  prefixes p before := by simp [List.prefix_nil.1 before]
  total := rfl

theorem balanced_of_no_bracket (none : t.filter isBracket = []) : Balanced t :=
  Balanced.nil.of_same_brackets none

theorem prefix_append_cases {p : Text} (before : p <+: s ++ t) :
    p <+: s ∨ ∃ q, q <+: t ∧ p = s ++ q := by
  obtain ⟨rest, same⟩ := before
  rcases List.append_eq_append_iff.1 same with ⟨q, rfl, _⟩ | ⟨q, rfl, tail⟩
  · exact .inl (List.prefix_append p q)
  · exact .inr ⟨q, ⟨rest, tail.symm⟩, rfl⟩

theorem Balanced.append (first : Balanced s) (second : Balanced t) : Balanced (s ++ t) where
  prefixes p before := by
    rcases prefix_append_cases before with inside | ⟨q, inside, rfl⟩
    · exact first.prefixes p inside
    · have later := second.prefixes q inside
      rw [depth_append, first.total]
      omega
  total := by rw [depth_append, first.total, second.total, Int.add_zero]

theorem Balanced.flatMap {α : Type} {items : List α} {text : α → Text}
    (each : ∀ item ∈ items, Balanced (text item)) : Balanced (items.flatMap text) := by
  induction items with
  | nil => exact .nil
  | cons item rest ih =>
      rw [List.flatMap_cons]
      exact (each item (List.mem_cons_self ..)).append
        (ih fun later member => each later (List.mem_cons_of_mem _ member))

theorem filter_isBracket_hang {m : Text} (none : m.filter isBracket = []) (t : Text) :
    (hang m t).filter isBracket = t.filter isBracket := by
  induction t with
  | nil => rfl
  | cons c rest ih =>
      rw [hang_cons, List.filter_append, ih]
      by_cases feed : c = '\n'
      · rw [if_pos feed, feed, List.filter_cons_of_neg (by decide), none,
          List.filter_cons_of_neg (by decide), List.nil_append]
      · rw [if_neg feed, ← List.filter_append, List.singleton_append]

theorem filter_isBracket_margin (depth : Nat) : (margin depth).filter isBracket = [] := by
  induction depth with
  | zero => rfl
  | succ depth ih => rw [margin_succ, List.filter_append, ih]; rfl

theorem Balanced.hang (balanced : Balanced t) (depth : Nat) :
    Balanced (hang (margin depth) t) :=
  balanced.of_same_brackets (filter_isBracket_hang (filter_isBracket_margin depth) t)

theorem Balanced.indent (balanced : Balanced t) : Balanced (indent t) := by
  have unit : Balanced indentUnit := balanced_of_no_bracket rfl
  exact unit.append (balanced.of_same_brackets (filter_isBracket_hang rfl t))

def bracketed (t : Text) : Text :=
  '<' :: t ++ ['>']

theorem hang_bracketed (m t : Text) : Text.hang m (bracketed t) = bracketed (Text.hang m t) := by
  have opening : Text.hang m ['<'] = ['<'] := rfl
  have closing : Text.hang m ['>'] = ['>'] := rfl
  rw [bracketed, hang_append, ← List.singleton_append, hang_append, opening, closing]
  rfl

/-- Counted from the first character on, the depth comes back to zero at the last one only. -/
structure OneToken (t : Text) : Prop where
  prefixes : ∀ p, p <+: t → p ≠ [] → p ≠ t → 0 < depth p
  total : depth t = 0

theorem depth_bracketed (t : Text) : depth (bracketed t) = depth t := by
  rw [bracketed, depth_append, depth_cons, depth_open, depth_close]
  omega

theorem Balanced.oneToken (balanced : Balanced t) : OneToken (bracketed t) where
  prefixes p before nonempty proper := by
    rcases List.prefix_concat_iff.1 before with whole | inside
    · exact absurd whole proper
    · rcases List.prefix_cons_iff.1 inside with empty | ⟨q, rfl, q_before⟩
      · exact absurd empty nonempty
      · have within := balanced.prefixes q q_before
        rw [depth_cons, depth_open]
        omega
  total := (depth_bracketed t).trans balanced.total

theorem Balanced.enclosed (balanced : Balanced t) : Balanced (bracketed t) where
  prefixes p before := by
    by_cases empty : p = []
    · simp [empty]
    · by_cases whole : p = bracketed t
      · exact Int.le_of_eq (whole ▸ balanced.oneToken.total.symm)
      · exact Int.le_of_lt (balanced.oneToken.prefixes p before empty whole)
  total := balanced.oneToken.total

def openedAfter (opened : Nat) (c : Char) : Nat :=
  if c = '<' then opened + 1 else if c = '>' then opened - 1 else opened

/-- What stands before and after the bracket that closes one more than `opened` brackets. -/
def readToClose (opened : Nat) : Text → Option (Text × Text)
  | [] => none
  | c :: rest =>
      if c = '>' && opened = 0 then some ([], rest)
      else (readToClose (openedAfter opened c) rest).map fun parts => (c :: parts.1, parts.2)

/-- The text between the angle bracket at the front and the one that closes it, with the text
after that. -/
def readBracketed : Text → Option (Text × Text)
  | '<' :: rest => readToClose 0 rest
  | _ => none

theorem openedAfter_eq {opened : Nat} {c : Char} (enough : 0 ≤ opened + depth [c]) :
    (openedAfter opened c : Int) = opened + depth [c] := by
  unfold openedAfter
  split
  · rename_i opening
    rw [opening, depth_open]
    omega
  · split
    · rename_i closing
      rw [closing, depth_close] at enough ⊢
      omega
    · rename_i not_open not_close
      rw [depth_other not_open not_close, Int.add_zero]

theorem readToClose_append {opened after : Nat} (level : (after : Int) = opened + depth t)
    (prefixes : ∀ p, p <+: t → 0 ≤ opened + depth p) (rest : Text) :
    readToClose opened (t ++ rest)
      = (readToClose after rest).map fun parts => (t ++ parts.1, parts.2) := by
  induction t generalizing opened with
  | nil =>
      rw [depth_nil, Int.add_zero, Int.natCast_inj] at level
      simp [level]
  | cons c t ih =>
      have first : 0 ≤ opened + depth [c] := prefixes [c] ⟨t, rfl⟩
      have next := openedAfter_eq first
      have not_last : (c = '>' && opened = 0) = false := by
        by_contra last
        obtain ⟨rfl, rfl⟩ : c = '>' ∧ opened = 0 := by simpa using last
        exact absurd first (by decide)
      have later : ∀ p, p <+: t → 0 ≤ openedAfter opened c + depth p := by
        intro p before
        have longer := prefixes (c :: p) (List.cons_prefix_cons.2 ⟨rfl, before⟩)
        rw [depth_cons] at longer
        omega
      have final : (after : Int) = openedAfter opened c + depth t := by
        rw [depth_cons] at level
        omega
      rw [List.cons_append, readToClose, not_last, if_neg Bool.false_ne_true, ih final later,
        Option.map_map]
      rfl

/-- A balanced text is read back from between its brackets, whatever follows. -/
theorem Balanced.read_back (balanced : Balanced t) (rest : Text) :
    readBracketed (bracketed t ++ rest) = some (t, rest) := by
  have front : bracketed t ++ rest = '<' :: (t ++ '>' :: rest) := by simp [bracketed]
  have level : ((0 : Nat) : Int) = (0 : Nat) + depth t := by
    rw [balanced.total]
    rfl
  have prefixes : ∀ p, p <+: t → 0 ≤ ((0 : Nat) : Int) + depth p := by
    intro p before
    have within := balanced.prefixes p before
    omega
  rw [front, readBracketed, readToClose_append level prefixes]
  simp [readToClose]

end DotDoc.Text
