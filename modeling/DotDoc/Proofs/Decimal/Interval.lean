import DotDoc.Decimal.Shortest
import Mathlib.Algebra.Order.Field.Power
import Mathlib.Data.Rat.Cast.Order
import Mathlib.Tactic.FieldSimp
import Mathlib.Tactic.Linarith
import Mathlib.Tactic.Positivity

/-!
# The shortest decimal reads back

The interval of a floating-point number holds the decimal that the number is written as, and two
numbers of the format have no decimal in both of their intervals.  The first follows the search for
the decimal: a candidate is tested before it is taken, the number itself lies between the ends, and
zeros at the end of the digits do not matter.  For the second the ends of the two intervals are
compared over a common unit, a quarter of the last place of the finer number.
-/

set_option autoImplicit false

namespace DotDoc

namespace BinaryFraction

/-- What the format asks of the parts of a number. -/
structure Formed (x : BinaryFraction) : Prop where
  mantissa_lt : x.mantissa < 2 ^ 53
  exponent_ge : -1074 ≤ x.exponent
  leading : -1074 < x.exponent → 2 ^ 52 ≤ x.mantissa
  closeBelow_iff : x.closeBelow = true ↔ x.mantissa = 2 ^ 52 ∧ -1074 < x.exponent

theorem formed_of_ofFloat {x : Float} {parts : BinaryFraction}
    (finite : ofFloat? x = some parts) : parts.Formed := by
  have fraction : x.toBits.toNat % power 52 < 2 ^ 52 := Nat.mod_lt _ (by decide)
  have whole : power 52 = 2 ^ 52 := rfl
  unfold ofFloat? at finite
  dsimp only at finite
  split at finite
  · cases finite
  split at finite
  · obtain rfl := Option.some.inj finite
    exact ⟨by dsimp only; omega, by simp, by simp, by simp⟩
  · next scale_ne =>
      obtain rfl := Option.some.inj finite
      generalize x.toBits.toNat / power 52 % power 11 = scale at scale_ne
      generalize x.toBits.toNat % power 52 = f at fraction
      refine ⟨by dsimp only; omega, by dsimp only [Int.ofNat_eq_natCast]; omega,
        by dsimp only; omega, ?_⟩
      simp only [Int.ofNat_eq_natCast, Bool.and_eq_true, decide_eq_true_eq]
      omega

end BinaryFraction

namespace Decimal

def value (d : Decimal) : ℚ :=
  d.digits * 10 ^ d.exponent

theorem zpow_eq_div {b : ℚ} (nonzero : b ≠ 0) (k : ℤ) :
    b ^ k = b ^ k.toNat / b ^ (-k).toNat := by
  rw [eq_div_iff (pow_ne_zero _ nonzero), ← zpow_natCast, ← zpow_natCast, ← zpow_add₀ nonzero]
  congr 1
  omega

namespace Interval

/-- Being before another number, or the same where this is allowed. -/
def Upto {α : Type} [LE α] [LT α] (closed : Bool) (a b : α) : Prop :=
  if closed then a ≤ b else a < b

theorem Upto.of_lt {a b : ℚ} (closed : Bool) (below : a < b) : Upto closed a b := by
  cases closed
  · exact below
  · exact below.le

theorem Upto.trans {a b c : ℚ} {first second : Bool} (below : Upto first a b)
    (above : Upto second b c) : Upto (first && second) a c := by
  cases first <;> cases second
  · exact lt_trans below above
  · exact lt_of_lt_of_le below above
  · exact lt_of_le_of_lt below above
  · exact le_trans below above

theorem upto_div_iff {closed : Bool} {a b c d : ℕ} (b_pos : 0 < b) (d_pos : 0 < d) :
    Upto closed (a / b : ℚ) (c / d) ↔ Upto closed (a * d) (c * b) := by
  have b_pos' : (0 : ℚ) < b := by exact_mod_cast b_pos
  have d_pos' : (0 : ℚ) < d := by exact_mod_cast d_pos
  cases closed
  · simp only [Upto, Bool.false_eq_true, if_false, div_lt_div_iff₀ b_pos' d_pos']
    exact_mod_cast Iff.rfl
  · simp only [Upto, if_true, div_le_div_iff₀ b_pos' d_pos']
    exact_mod_cast Iff.rfl

theorem Upto.of_mul_right {closed : Bool} {a b c : ℕ} (positive : 0 < c)
    (below : Upto closed (a * c) (b * c)) : Upto closed a b := by
  cases closed
  · exact Nat.lt_of_mul_lt_mul_right below
  · exact Nat.le_of_mul_le_mul_right below positive

/-- Whether a number lies in the interval. -/
def Contains (i : Interval) (v : ℚ) : Prop :=
  Upto i.closed (i.low / i.denominator : ℚ) v ∧ Upto i.closed v (i.high / i.denominator : ℚ)

theorem holds_iff {i : Interval} (positive : 0 < i.denominator) (point : Nat) (exponent : Int) :
    i.holds point exponent = true ↔ i.Contains (Decimal.value ⟨point, exponent⟩) := by
  have fraction : Decimal.value ⟨point, exponent⟩
      = ((point * power exponent.toNat : ℕ) : ℚ) / (power (-exponent).toNat : ℕ) := by
    have grown (n : Nat) : power n = 10 ^ n := rfl
    rw [Decimal.value, zpow_eq_div (b := 10) (by norm_num), grown, grown]
    push_cast
    rw [mul_div_assoc]
  have shrink : 0 < power (-exponent).toNat := Nat.pow_pos (by decide)
  rw [Contains, fraction, upto_div_iff positive shrink, upto_div_iff shrink positive, holds]
  cases closed : i.closed <;> simp [Upto]

theorem denominator_pos (x : BinaryFraction) : 0 < (of x).denominator :=
  Nat.pow_pos (by decide)

/-- How far the lower end is from the number, in quarters of the last place. -/
def reach (x : BinaryFraction) : Nat :=
  if x.closeBelow then 1 else 2

/-- Of two numbers with a common decimal the ends of one do not pass the ends of the other, where
`steps` is the difference of their exponents. -/
theorem ends_of_contains {x y : BinaryFraction} {steps : Nat} {v : ℚ}
    (apart : y.exponent = x.exponent + steps) (in_x : (of x).Contains v)
    (in_y : (of y).Contains v) :
    Upto ((of y).closed && (of x).closed) ((4 * y.mantissa - reach y) * 2 ^ steps)
        (4 * x.mantissa + 2) ∧
      Upto ((of x).closed && (of y).closed) (4 * x.mantissa - reach x)
        ((4 * y.mantissa + 2) * 2 ^ steps) := by
  let unit := 2 ^ (x.exponent - 2).toNat * 2 ^ (2 - y.exponent).toNat
  have unit_pos : 0 < unit := by positivity
  have units : 2 ^ (y.exponent - 2).toNat * 2 ^ (2 - x.exponent).toNat = 2 ^ steps * unit := by
    simp only [unit, ← pow_add]
    congr 1
    omega
  have scaled (a b : Nat) :
      a * 2 ^ (y.exponent - 2).toNat * 2 ^ (2 - x.exponent).toNat = a * 2 ^ steps * unit ∧
      b * 2 ^ (x.exponent - 2).toNat * 2 ^ (2 - y.exponent).toNat = b * unit := by
    rw [mul_assoc, units, mul_assoc, mul_assoc]
    exact ⟨rfl, rfl⟩
  have lower := (upto_div_iff (denominator_pos y) (denominator_pos x)).1 (in_y.1.trans in_x.2)
  have upper := (upto_div_iff (denominator_pos x) (denominator_pos y)).1 (in_x.1.trans in_y.2)
  constructor
  · refine .of_mul_right unit_pos ?_
    rw [← (scaled _ 0).1, ← (scaled 0 _).2]
    exact lower
  · refine .of_mul_right unit_pos ?_
    rw [← (scaled _ 0).1, ← (scaled 0 _).2]
    exact upper

theorem reach_eq {x : BinaryFraction} (formed : x.Formed) :
    reach x = 1 ∧ x.mantissa = 2 ^ 52 ∧ -1074 < x.exponent ∨
      reach x = 2 ∧ ¬ (x.mantissa = 2 ^ 52 ∧ -1074 < x.exponent) := by
  have close := formed.closeBelow_iff
  unfold reach
  cases at_power : x.closeBelow <;> simp_all

theorem unique_of_le {x y : BinaryFraction} {v : ℚ} (x_formed : x.Formed) (y_formed : y.Formed)
    (ordered : x.exponent ≤ y.exponent) (in_x : (of x).Contains v) (in_y : (of y).Contains v) :
    x.mantissa = y.mantissa ∧ x.exponent = y.exponent := by
  obtain ⟨steps, apart⟩ : ∃ steps : Nat, y.exponent = x.exponent + steps :=
    ⟨(y.exponent - x.exponent).toNat, by omega⟩
  obtain ⟨lower, upper⟩ := ends_of_contains apart in_x in_y
  have x_lt := x_formed.mantissa_lt
  have x_reach := reach_eq x_formed
  have y_reach := reach_eq y_formed
  have x_closed : (of x).closed = decide (x.mantissa % 2 = 0) := rfl
  have y_closed : (of y).closed = decide (y.mantissa % 2 = 0) := rfl
  rw [x_closed, y_closed, Upto] at lower upper
  cases steps with
  | zero =>
      refine ⟨?_, by omega⟩
      rw [pow_zero, mul_one] at lower upper
      -- neighbours have no common decimal, since one of their mantissas is odd
      split at lower <;> split at upper <;>
        simp only [Bool.and_eq_true, decide_eq_true_eq] at * <;> omega
  | succ n =>
      exfalso
      have y_ge := y_formed.leading (by have := x_formed.exponent_ge; omega)
      have doubled : 2 * (4 * y.mantissa - reach y) ≤ (4 * y.mantissa - reach y) * 2 ^ (n + 1) := by
        rw [mul_comm]
        refine Nat.mul_le_mul_left _ ?_
        rw [pow_succ]
        have := Nat.one_le_two_pow (n := n)
        omega
      have finer := x_formed.exponent_ge
      split at lower <;> simp only [Bool.and_eq_true, decide_eq_true_eq] at * <;> omega

/-- Two numbers of the format with one decimal in both intervals have the same size. -/
theorem unique {x y : BinaryFraction} {v : ℚ} (x_formed : x.Formed) (y_formed : y.Formed)
    (in_x : (of x).Contains v) (in_y : (of y).Contains v) :
    x.mantissa = y.mantissa ∧ x.exponent = y.exponent := by
  rcases le_total x.exponent y.exponent with ordered | ordered
  · exact unique_of_le x_formed y_formed ordered in_x in_y
  · obtain ⟨mantissas, exponents⟩ := unique_of_le y_formed x_formed ordered in_y in_x
    exact ⟨mantissas.symm, exponents.symm⟩

/-! ## The search -/

theorem holds_of_candidate {i : Interval} {exponent : Int} {point : Nat}
    (found : i.candidate exponent = some point) : i.holds point exponent = true := by
  unfold candidate at found
  dsimp only at found
  generalize i.value * power (-exponent).toNat / (i.denominator * power exponent.toNat) = below
    at found
  split at found
  · next below_held above_held =>
      split at found
      · exact Option.some.inj found ▸ below_held
      split at found
      · exact Option.some.inj found ▸ above_held
      · obtain rfl := Option.some.inj found
        split
        · exact below_held
        · exact above_held
  · next below_held _ => exact Option.some.inj found ▸ below_held
  · next _ above_held => exact Option.some.inj found ▸ above_held
  · cases found

theorem contains_of_search {i : Interval} (positive : 0 < i.denominator) {tries : Nat}
    {exponent : Int} {d : Decimal} (found : i.search tries exponent = some d) :
    i.Contains d.value := by
  induction tries generalizing exponent with
  | zero => cases found
  | succ tries ih =>
      rw [search] at found
      split at found
      · next tested =>
          obtain rfl := Option.some.inj found
          exact (holds_iff positive _ _).1 (holds_of_candidate tested)
      · exact ih found

end Interval

theorem value_exact (x : BinaryFraction) : (exact x).value = x.mantissa * 2 ^ x.exponent := by
  have doubled (n : Nat) : BinaryFraction.power n = 2 ^ n := rfl
  have fives (n : Nat) : Nat.pow 5 n = 5 ^ n := rfl
  cases sign : x.exponent with
  | ofNat e =>
      simp only [exact, sign, value, doubled, Int.ofNat_eq_natCast, zpow_natCast, zpow_zero, mul_one]
      push_cast
      rfl
  | negSucc e =>
      have tens : (10 : ℚ) ^ (e + 1) = 5 ^ (e + 1) * 2 ^ (e + 1) := by
        rw [← mul_pow]
        norm_num
      simp only [exact, sign, value, fives, zpow_negSucc, tens]
      push_cast
      field_simp

theorem value_dropZeros (fuel : Nat) (d : Decimal) : (dropZeros fuel d).value = d.value := by
  induction fuel generalizing d with
  | zero => rfl
  | succ fuel ih =>
      rw [dropZeros]
      split
      · next trailing =>
          have whole : d.digits / 10 * 10 = d.digits := by
            simp only [ne_eq, decide_not, Bool.and_eq_true, decide_eq_true_eq] at trailing
            omega
          rw [ih, value, value, zpow_add_one₀ (by norm_num), ← mul_assoc, mul_right_comm]
          congr 1
          exact_mod_cast whole
      · rfl

theorem contains_exact {x : BinaryFraction} (nonzero : x.mantissa ≠ 0) :
    (Interval.of x).Contains (exact x).value := by
  have quarter : (4 * 2 ^ (x.exponent - 2).toNat : ℚ) / 2 ^ (2 - x.exponent).toNat
      = 2 ^ x.exponent := by
    have swapped : (2 - x.exponent).toNat = (-(x.exponent - 2)).toNat := by congr 1; omega
    rw [mul_div_assoc, swapped, ← zpow_eq_div (by norm_num), zpow_sub₀ (by norm_num)]
    norm_num
    field_simp
  have denominator : ((Interval.of x).denominator : ℚ) = 2 ^ (2 - x.exponent).toNat := by
    have natural : (Interval.of x).denominator = 2 ^ (2 - x.exponent).toNat := rfl
    rw [natural]
    push_cast
    rfl
  have own : (exact x).value = ((Interval.of x).value : ℚ) / (Interval.of x).denominator := by
    have scaled : ((Interval.of x).value : ℚ) = x.mantissa * (4 * 2 ^ (x.exponent - 2).toNat) := by
      have natural : (Interval.of x).value = x.mantissa * (4 * 2 ^ (x.exponent - 2).toNat) := by
        rw [← mul_assoc, mul_comm x.mantissa]
        rfl
      rw [natural]
      push_cast
      rfl
    rw [value_exact, scaled, denominator, mul_div_assoc, quarter]
  have positive : (0 : ℚ) < (Interval.of x).denominator := by
    exact_mod_cast Interval.denominator_pos x
  have unit_pos : 0 < BinaryFraction.power (x.exponent - 2).toNat := Nat.pow_pos (by decide)
  have low_lt : (Interval.of x).low < (Interval.of x).value := by
    refine Nat.mul_lt_mul_of_pos_right ?_ unit_pos
    split <;> omega
  have lt_high : (Interval.of x).value < (Interval.of x).high :=
    Nat.mul_lt_mul_of_pos_right (by omega) unit_pos
  rw [own]
  exact ⟨.of_lt _ (div_lt_div_of_pos_right (by exact_mod_cast low_lt) positive),
    .of_lt _ (div_lt_div_of_pos_right (by exact_mod_cast lt_high) positive)⟩

theorem contains_shortest (x : BinaryFraction) :
    (Interval.of x).Contains (shortest x).value := by
  unfold shortest
  split
  · next zero =>
      have held : (Interval.of x).holds 0 0 = true := by
        simp [Interval.holds, Interval.of, zero]
      exact (Interval.holds_iff (Interval.denominator_pos x) 0 0).1 held
  · next nonzero =>
      dsimp only
      rw [value_dropZeros]
      cases found : (Interval.of x).search 17 ((Interval.of x).magnitude - 1) with
      | none => exact contains_exact nonzero
      | some d => exact Interval.contains_of_search (Interval.denominator_pos x) found

/-- The shortest decimals of two numbers differ unless the numbers have the same size. -/
theorem size_eq_of_shortest {x y : BinaryFraction} (x_formed : x.Formed) (y_formed : y.Formed)
    (same : (shortest x).value = (shortest y).value) :
    x.mantissa = y.mantissa ∧ x.exponent = y.exponent :=
  Interval.unique x_formed y_formed (contains_shortest x) (same ▸ contains_shortest y)

end Decimal
end DotDoc
