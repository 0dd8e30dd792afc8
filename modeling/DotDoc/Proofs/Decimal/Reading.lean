import DotDoc.Decimal.Notation
import DotDoc.Proofs.Decimal.Interval
import Mathlib.Data.List.TakeWhile
import Mathlib.Tactic.NormNum

/-!
# Reading back a floating-point number

A written decimal is read by its two marks, the point and the letter of the exponent, and what is
read is its value in either notation.  Since the shortest decimal tells the size of a number, and
only a negative number is written with a sign in front, finite numbers of one text are the same.
-/

set_option autoImplicit false

namespace DotDoc

namespace Text

/-- The number that digits with a point among them stand for. -/
def pointed (t : Text) : ℚ :=
  let behind := (t.dropWhile (· ≠ '.')).tail
  Nat.ofDigitChars 10 (t.takeWhile (· ≠ '.') ++ behind) 0 / 10 ^ behind.length

/-- The exponent that a sign and digits stand for. -/
def scale : Text → ℤ
  | [] => 0
  | sign :: digits =>
      if sign = '-' then -(Nat.ofDigitChars 10 digits 0 : ℤ) else Nat.ofDigitChars 10 digits 0

/-- The number that a decimal without a sign stands for. -/
def reading (t : Text) : ℚ :=
  pointed (t.takeWhile (· ≠ 'e')) * 10 ^ scale (t.dropWhile (· ≠ 'e')).tail

variable {mark : Char} {front back : Text}

theorem differs_of_not_mem (absent : mark ∉ front) : ∀ c ∈ front, decide (c ≠ mark) = true := by
  intro c member
  exact decide_eq_true fun same => absent (same ▸ member)

theorem pointed_append (absent : '.' ∉ front) (back : Text) :
    pointed (front ++ '.' :: back) = Nat.ofDigitChars 10 (front ++ back) 0 / 10 ^ back.length := by
  have others := differs_of_not_mem absent
  rw [pointed, List.takeWhile_append_of_pos others, List.dropWhile_append_of_pos others]
  simp

theorem pointed_of_not_mem (absent : '.' ∉ front) :
    pointed front = Nat.ofDigitChars 10 front 0 := by
  have others := differs_of_not_mem absent
  rw [pointed, List.takeWhile_eq_self_iff.2 others, List.dropWhile_eq_nil_iff.2 others]
  simp

theorem reading_append (absent : 'e' ∉ front) :
    reading (front ++ 'e' :: back) = pointed front * 10 ^ scale back := by
  have others := differs_of_not_mem absent
  rw [reading, List.takeWhile_append_of_pos others, List.dropWhile_append_of_pos others]
  simp

theorem reading_of_not_mem (absent : 'e' ∉ front) : reading front = pointed front := by
  have others := differs_of_not_mem absent
  rw [reading, List.takeWhile_eq_self_iff.2 others, List.dropWhile_eq_nil_iff.2 others]
  simp [scale]

theorem ofDigitChars_zeros (digits : Text) (n : Nat) :
    Nat.ofDigitChars 10 (List.replicate n '0' ++ digits) 0 = Nat.ofDigitChars 10 digits 0 := by
  rw [Nat.ofDigitChars_append, Nat.ofDigitChars_replicate_zero, Nat.mul_zero]

end Text

namespace NumberStyle

open Text (reading pointed scale)

variable {digits : Text}

theorem not_mem_of_digits {mark : Char} (all : ∀ c ∈ digits, c.isDigit = true)
    (other : mark.isDigit = false) : mark ∉ digits := by
  intro member
  rw [all mark member] at other
  cases other

/-- A point between digits that stand for the given ones with the point behind the first `before`
of them. -/
def PointAt (digits : Text) (before : Int) (t : Text) : Prop :=
  ∃ whole rest, t = whole ++ '.' :: rest ∧ whole ≠ [] ∧
    (∀ c ∈ whole, c.isDigit = true) ∧ (∀ c ∈ rest, c.isDigit = true) ∧
    (Nat.ofDigitChars 10 (whole ++ rest) 0 : ℚ) / 10 ^ rest.length
      = Nat.ofDigitChars 10 digits 0 * 10 ^ (before - digits.length)

theorem isDigit_of_mem_zeros {n : Nat} {c : Char} (member : c ∈ List.replicate n '0') :
    c.isDigit = true := by
  rw [List.eq_of_mem_replicate member]
  rfl

theorem pointAt_in_front (all : ∀ c ∈ digits, c.isDigit = true) (n : Nat) :
    PointAt digits (-n) ('0' :: '.' :: List.replicate n '0' ++ digits) := by
  refine ⟨['0'], List.replicate n '0' ++ digits, rfl, by simp, by simp, ?_, ?_⟩
  · intro c member
    rcases List.mem_append.1 member with zero | digit
    · exact isDigit_of_mem_zeros zero
    · exact all c digit
  · have led : Nat.ofDigitChars 10 (['0'] ++ (List.replicate n '0' ++ digits)) 0
        = Nat.ofDigitChars 10 digits 0 := by
      rw [← List.append_assoc]
      exact Text.ofDigitChars_zeros digits (n + 1)
    have power : (-n - digits.length : ℤ) = -((n + digits.length : ℕ) : ℤ) := by omega
    rw [led, power, zpow_neg, zpow_natCast, List.length_append, List.length_replicate,
      div_eq_mul_inv]

theorem pointAt_inside (all : ∀ c ∈ digits, c.isDigit = true) {n : Nat} (some_whole : 0 < n)
    (inside : n < digits.length) :
    PointAt digits n (digits.take n ++ '.' :: digits.drop n) := by
  refine ⟨digits.take n, digits.drop n, rfl, ?_, fun c member => all c (List.mem_of_mem_take member),
    fun c member => all c (List.mem_of_mem_drop member), ?_⟩
  · rw [ne_eq, List.take_eq_nil_iff, ← List.length_eq_zero_iff]
    omega
  · have power : (n - digits.length : ℤ) = -((digits.length - n : ℕ) : ℤ) := by omega
    rw [List.take_append_drop, List.length_drop, power, zpow_neg, zpow_natCast, div_eq_mul_inv]

theorem pointAt_behind (all : ∀ c ∈ digits, c.isDigit = true) (nonempty : digits ≠ []) {n : Nat}
    (behind : digits.length ≤ n) :
    PointAt digits n (digits ++ List.replicate (n - digits.length) '0' ++ ['.', '0']) := by
  refine ⟨digits ++ List.replicate (n - digits.length) '0', ['0'], rfl, by simp [nonempty], ?_,
    by simp, ?_⟩
  · intro c member
    rcases List.mem_append.1 member with digit | zero
    · exact all c digit
    · exact isDigit_of_mem_zeros zero
  · have filled : digits ++ List.replicate (n - digits.length) '0' ++ ['0']
        = digits ++ List.replicate (n - digits.length + 1) '0' := by
      rw [List.append_assoc, List.replicate_succ']
    have power : (n - digits.length : ℤ) = ((n - digits.length : ℕ) : ℤ) := by omega
    rw [filled, Nat.ofDigitChars_append, Nat.ofDigitChars_replicate_zero, power, zpow_natCast]
    push_cast
    rw [List.length_singleton, pow_one, pow_succ]
    field_simp

theorem pointAt_positional (all : ∀ c ∈ digits, c.isDigit = true) (nonempty : digits ≠ [])
    (before : Int) : PointAt digits before (positional digits before) := by
  rcases before with (_ | n) | n
  · exact pointAt_in_front all 0
  · by_cases inside : n + 1 < digits.length
    · have whole : n + 1 - (digits.take (n + 1)).length = 0 := by
        rw [List.length_take]
        omega
      have more : (digits.drop (n + 1)).isEmpty = false := by
        rw [List.isEmpty_eq_false_iff, ne_eq, List.drop_eq_nil_iff]
        omega
      have text : positional digits (Int.ofNat (n + 1))
          = digits.take (n + 1) ++ '.' :: digits.drop (n + 1) := by
        simp only [positional, whole, more]
        simp
      rw [text]
      exact pointAt_inside all (Nat.succ_pos n) inside
    · have all_taken : digits.take (n + 1) = digits := List.take_of_length_le (by omega)
      have none_left : digits.drop (n + 1) = [] := List.drop_eq_nil_iff.2 (by omega)
      have text : positional digits (Int.ofNat (n + 1))
          = digits ++ List.replicate (n + 1 - digits.length) '0' ++ ['.', '0'] := by
        simp [positional, all_taken, none_left]
      rw [text]
      exact pointAt_behind all nonempty (by omega)
  · exact pointAt_in_front all (n + 1)

theorem reading_positional (all : ∀ c ∈ digits, c.isDigit = true) (nonempty : digits ≠ [])
    (before : Int) :
    reading (positional digits before)
      = Nat.ofDigitChars 10 digits 0 * 10 ^ (before - digits.length) := by
  obtain ⟨whole, rest, text, -, whole_digits, rest_digits, number⟩ :=
    pointAt_positional all nonempty before
  have no_letter : 'e' ∉ whole ++ '.' :: rest := by
    simp only [List.mem_append, List.mem_cons, not_or]
    exact ⟨not_mem_of_digits whole_digits rfl, by decide, not_mem_of_digits rest_digits rfl⟩
  rw [text, Text.reading_of_not_mem no_letter,
    Text.pointed_append (not_mem_of_digits whole_digits rfl), number]

theorem scientific_split (style : NumberStyle) (all : ∀ c ∈ digits, c.isDigit = true)
    (nonempty : digits ≠ []) (exponent : Int) :
    ∃ first front sign padding, style.scientific digits exponent
        = first :: (front
          ++ 'e' :: sign :: (List.replicate padding '0' ++ Text.ofNat exponent.natAbs)) ∧
      first.isDigit = true ∧ (∀ c ∈ front, c.isDigit = true ∨ c = '.') ∧
      sign = (if exponent < 0 then '-' else '+') ∧
      pointed (first :: front)
        = Nat.ofDigitChars 10 digits 0 * 10 ^ (1 - (digits.length : ℤ)) := by
  match digits with
  | [] => exact absurd rfl nonempty
  | [first] =>
      have digit : first.isDigit = true := all first (List.mem_singleton_self first)
      refine ⟨first, [], _, _, rfl, digit, by simp, rfl, ?_⟩
      rw [Text.pointed_of_not_mem (not_mem_of_digits all rfl)]
      simp
  | first :: second :: rest =>
      have digit : first.isDigit = true := all first (List.mem_cons_self ..)
      refine ⟨first, '.' :: second :: rest, _,
        style.exponentWidth - (Text.ofNat exponent.natAbs).length,
        by simp [scientific], digit, ?_, rfl, ?_⟩
      · intro c member
        rcases List.mem_cons.1 member with rfl | later
        · exact .inr rfl
        · exact .inl (all c (List.mem_cons_of_mem _ later))
      · have no_point : '.' ∉ [first] := by
          rintro point
          rw [← List.mem_singleton.1 point] at digit
          cases digit
        have behind : (1 - ((first :: second :: rest).length : ℤ))
            = -((second :: rest).length : ℤ) := by
          simp only [List.length_cons]
          omega
        have pointed_eq := Text.pointed_append no_point (second :: rest)
        rw [List.singleton_append, List.singleton_append] at pointed_eq
        rw [pointed_eq, behind, zpow_neg, zpow_natCast, div_eq_mul_inv]

theorem scale_of_sign (exponent : Int) (padding : Nat) :
    scale ((if exponent < 0 then '-' else '+')
      :: (List.replicate padding '0' ++ Text.ofNat exponent.natAbs)) = exponent := by
  have digits : Nat.ofDigitChars 10 (Text.ofNat exponent.natAbs) 0 = exponent.natAbs :=
    Nat.ofDigitChars_ten_toDigits
  by_cases negative : exponent < 0
  · rw [if_pos negative, scale, if_pos rfl, Text.ofDigitChars_zeros, digits]
    omega
  · rw [if_neg negative, scale, if_neg (by decide), Text.ofDigitChars_zeros, digits]
    omega

theorem reading_scientific (style : NumberStyle) (all : ∀ c ∈ digits, c.isDigit = true)
    (nonempty : digits ≠ []) (exponent : Int) :
    reading (style.scientific digits exponent)
      = Nat.ofDigitChars 10 digits 0 * 10 ^ (exponent + 1 - digits.length) := by
  obtain ⟨first, front, sign, padding, text, digit, front_chars, sign_eq, number⟩ :=
    scientific_split style all nonempty exponent
  have no_letter : 'e' ∉ first :: front := by
    intro member
    rcases List.mem_cons.1 member with rfl | later
    · cases digit
    · rcases front_chars 'e' later with letter | letter <;> cases letter
  rw [text, ← List.cons_append, Text.reading_append no_letter, number, sign_eq, scale_of_sign,
    mul_assoc, ← zpow_add₀ (by norm_num)]
  congr 2
  omega

variable (style : NumberStyle) (d : Decimal)

theorem digits_ofNat (n : Nat) : ∀ c ∈ Text.ofNat n, c.isDigit = true :=
  fun _ member => Nat.isDigit_of_mem_toDigits (by decide) (by decide) member

theorem reading_writeDecimal : reading (style.writeDecimal d) = d.value := by
  have digits : Nat.ofDigitChars 10 (Text.ofNat d.digits) 0 = d.digits :=
    Nat.ofDigitChars_ten_toDigits
  have all := digits_ofNat d.digits
  have nonempty : Text.ofNat d.digits ≠ [] := Nat.toDigits_ne_nil
  unfold writeDecimal
  dsimp only
  split
  · rw [reading_positional all nonempty, digits, Decimal.value]
    congr 2
    omega
  · rw [reading_scientific style all nonempty, digits, Decimal.value]
    congr 2
    omega

/-- A written decimal begins with a digit and holds a point or a letter. -/
theorem writeDecimal_chars :
    ∃ first rest, style.writeDecimal d = first :: rest ∧ first.isDigit = true ∧
      (∀ c ∈ rest, c.isDigit = true ∨ c = '.' ∨ c = 'e' ∨ c = '+' ∨ c = '-') ∧
      ('.' ∈ rest ∨ 'e' ∈ rest) := by
  have all := digits_ofNat d.digits
  have nonempty : Text.ofNat d.digits ≠ [] := Nat.toDigits_ne_nil
  unfold writeDecimal
  dsimp only
  split
  · obtain ⟨whole, rest, text, whole_nonempty, whole_digits, rest_digits, -⟩ :=
      pointAt_positional all nonempty (d.exponent + (Text.ofNat d.digits).length - 1 + 1)
    obtain ⟨first, later, rfl⟩ := List.exists_cons_of_ne_nil whole_nonempty
    refine ⟨first, later ++ '.' :: rest, text, whole_digits first (List.mem_cons_self ..), ?_,
      .inl (by simp)⟩
    intro c member
    simp only [List.mem_append, List.mem_cons] at member
    rcases member with digit | rfl | digit
    · exact .inl (whole_digits c (List.mem_cons_of_mem _ digit))
    · exact .inr (.inl rfl)
    · exact .inl (rest_digits c digit)
  · obtain ⟨first, front, sign, padding, text, digit, front_chars, sign_eq, -⟩ :=
      scientific_split style all nonempty (d.exponent + (Text.ofNat d.digits).length - 1)
    refine ⟨first, _, text, digit, fun c member => ?_, .inr (by simp)⟩
    simp only [List.mem_append, List.mem_cons] at member
    rcases member with in_front | rfl | in_sign | zero | in_power
    · exact (front_chars c in_front).imp_right .inl
    · exact .inr (.inr (.inl rfl))
    · rw [in_sign, sign_eq]
      split <;> simp
    · rw [List.eq_of_mem_replicate zero]
      exact .inl rfl
    · exact .inl (digits_ofNat _ c in_power)

theorem write_of_finite {x : Float} {parts : BinaryFraction}
    (finite : BinaryFraction.ofFloat? x = some parts) :
    style.write x = (if parts.negative then ['-'] else [])
      ++ style.writeDecimal (Decimal.shortest parts) := by
  unfold write
  rw [finite]
  cases sign : parts.negative <;> simp [sign]

/-- Finite numbers of one text are the same. -/
theorem parts_eq_of_write {x y : Float} {p q : BinaryFraction}
    (x_finite : BinaryFraction.ofFloat? x = some p) (y_finite : BinaryFraction.ofFloat? y = some q)
    (same : style.write x = style.write y) : p = q := by
  have p_formed := BinaryFraction.formed_of_ofFloat x_finite
  have q_formed := BinaryFraction.formed_of_ofFloat y_finite
  obtain ⟨p_first, p_rest, p_text, p_digit, -⟩ := writeDecimal_chars style (Decimal.shortest p)
  obtain ⟨q_first, q_rest, q_text, q_digit, -⟩ := writeDecimal_chars style (Decimal.shortest q)
  rw [write_of_finite style x_finite, write_of_finite style y_finite] at same
  have signs : p.negative = q.negative := by
    rw [p_text, q_text] at same
    cases p_sign : p.negative <;> cases q_sign : q.negative
    · rfl
    · rw [p_sign, q_sign] at same
      rw [(List.cons.inj same).1] at p_digit
      cases p_digit
    · rw [p_sign, q_sign] at same
      rw [← (List.cons.inj same).1] at q_digit
      cases q_digit
    · rfl
  rw [signs] at same
  have numbers := congrArg Text.reading (List.append_cancel_left same)
  rw [reading_writeDecimal, reading_writeDecimal] at numbers
  obtain ⟨mantissas, exponents⟩ := Decimal.size_eq_of_shortest p_formed q_formed numbers
  have closes : p.closeBelow = q.closeBelow := by
    rw [Bool.eq_iff_iff, p_formed.closeBelow_iff, q_formed.closeBelow_iff, mantissas, exponents]
  cases p
  cases q
  simp only at signs mantissas exponents closes
  rw [signs, mantissas, exponents, closes]

end NumberStyle
end DotDoc
