import DotDoc.Decimal.Binary

/-!
# The shortest decimal that reads back

Every finite number of the binary format is the nearest one to all decimals between the
midpoints to its two neighbours, the midpoints included when its mantissa is even.
`Decimal.shortest` finds the decimal with the fewest significant digits in that interval, and of
several with that many digits the one nearest to the number.  It works on exact natural numbers:
all quantities are fractions over one common denominator.

If the interval holds a point of a decimal grid it holds one of the two grid points next to the
number, so `candidate` tests only these.  Seventeen digits suffice; without a candidate that has as
few, the number itself is written out.
-/

set_option autoImplicit false

namespace DotDoc

/-- The number `digits * 10 ^ exponent`. -/
structure Decimal where
  digits : Nat
  exponent : Int
  deriving DecidableEq, Repr

namespace Decimal

def power (exponent : Nat) : Nat :=
  Nat.pow 10 exponent

/-- A number with the interval of the decimals that read back as it, over one denominator. -/
structure Interval where
  value : Nat
  low : Nat
  high : Nat
  denominator : Nat
  closed : Bool

/-- The interval of a binary fraction; a quarter of its last place is the common unit. -/
def Interval.of (x : BinaryFraction) : Interval :=
  let up := (x.exponent - 2).toNat
  let unit := BinaryFraction.power up
  { value := 4 * x.mantissa * unit
    low := (4 * x.mantissa - (if x.closeBelow then 1 else 2)) * unit
    high := (4 * x.mantissa + 2) * unit
    denominator := BinaryFraction.power (2 - x.exponent).toNat
    closed := x.mantissa % 2 = 0 }

/-- Whether `point * 10 ^ exponent` lies in the interval. -/
def Interval.holds (i : Interval) (point : Nat) (exponent : Int) : Bool :=
  let scaled := point * power exponent.toNat * i.denominator
  let shrink := power (-exponent).toNat
  if i.closed then i.low * shrink ≤ scaled && scaled ≤ i.high * shrink
  else i.low * shrink < scaled && scaled < i.high * shrink

/-- How many digits stand before the decimal point of the value; less than one when the value
starts with zeros after the point. -/
def Interval.magnitude (i : Interval) : Int :=
  if i.denominator ≤ i.value then (Nat.toDigits 10 (i.value / i.denominator)).length
  else 1 - ((Nat.toDigits 10 (i.denominator / i.value)).length : Int)

/-- The grid point of `10 ^ exponent` next to the value that lies in the interval, the nearer one
of two, and the even one when both are equally near. -/
def Interval.candidate (i : Interval) (exponent : Int) : Option Nat :=
  let numerator := i.value * power (-exponent).toNat
  let divisor := i.denominator * power exponent.toNat
  let below := numerator / divisor
  let excess := 2 * (numerator % divisor)
  let above := below + 1
  match i.holds below exponent, i.holds above exponent with
  | true, true =>
      if excess < divisor then some below
      else if divisor < excess then some above
      else some (if below % 2 = 0 then below else above)
  | true, false => some below
  | false, true => some above
  | false, false => none

/-- The candidate on the coarsest grid that has one, of `tries` grids from the one of `exponent`
on. -/
def Interval.search (i : Interval) : Nat → Int → Option Decimal
  | 0, _ => none
  | tries + 1, exponent =>
      match i.candidate exponent with
      | some digits => some ⟨digits, exponent⟩
      | none => i.search tries (exponent - 1)

def exact (x : BinaryFraction) : Decimal :=
  match x.exponent with
  | .ofNat e => ⟨x.mantissa * BinaryFraction.power e, 0⟩
  | .negSucc e => ⟨x.mantissa * Nat.pow 5 (e + 1), .negSucc e⟩

/-- A decimal without zeros at the end of its digits; `fuel` bounds their number. -/
def dropZeros : Nat → Decimal → Decimal
  | 0, d => d
  | fuel + 1, d =>
      if d.digits ≠ 0 && d.digits % 10 = 0 then dropZeros fuel ⟨d.digits / 10, d.exponent + 1⟩ else d

/-- The absolute value of a binary fraction in the fewest digits that read back. -/
def shortest (x : BinaryFraction) : Decimal :=
  if x.mantissa = 0 then ⟨0, 0⟩
  else
    let interval := Interval.of x
    dropZeros 18 ((interval.search 17 (interval.magnitude - 1)).getD (exact x))

end Decimal
end DotDoc
