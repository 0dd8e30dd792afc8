/-!
# Binary fractions

A finite floating-point number is `mantissa * 2 ^ exponent` with a sign.  `BinaryFraction.ofFloat?`
reads the three parts off the bits, and `integer?` is the integer that the number is, exactly and
without rounding.
-/

set_option autoImplicit false

namespace DotDoc

/-- The number `mantissa * 2 ^ exponent`, negated when `negative` holds. -/
structure BinaryFraction where
  negative : Bool
  mantissa : Nat
  exponent : Int
  /-- Whether the next smaller number of the format is only half as far as the next larger. -/
  closeBelow : Bool
  deriving DecidableEq, Repr

namespace BinaryFraction

def power (exponent : Nat) : Nat :=
  Nat.pow 2 exponent

/-- The parts of a finite number; infinities and values that are no numbers have none. -/
def ofFloat? (x : Float) : Option BinaryFraction :=
  let bits := x.toBits.toNat
  let negative := decide (bits / power 63 = 1)
  let scale : Nat := bits / power 52 % power 11
  let fraction := bits % power 52
  if scale = 2047 then none
  else if scale = 0 then some ⟨negative, fraction, -1074, false⟩
  else
    let atPower := decide (fraction = 0) && decide (1 < scale)
    some ⟨negative, fraction + power 52, Int.ofNat scale - 1075, atPower⟩

def signed (x : BinaryFraction) : Int :=
  if x.negative then -(x.mantissa : Int) else x.mantissa

def integer? (x : BinaryFraction) : Option Int :=
  match x.exponent with
  | .ofNat e => some (x.signed * power e)
  | .negSucc e => if x.signed % power (e + 1) = 0 then some (x.signed / power (e + 1)) else none

end BinaryFraction
end DotDoc
