import DotDoc.Decimal.Shortest
import DotDoc.Text.Lines

/-!
# How a floating-point number is written

`NumberStyle` holds the decisions of a number format, and `NumberStyle.write` applies them to the
shortest digits.  The style of this library, `NumberStyle.plain`, writes a number positionally
from one ten-thousandth up to below ten to the sixteenth, keeps a digit after the point, and
otherwise writes one digit before the point and a signed exponent of at least two digits.
-/

set_option autoImplicit false

namespace DotDoc

structure NumberStyle where
  /-- The least power of ten of a first digit that is written positionally. -/
  positionalFrom : Int
  /-- The first power of ten that is too large to be written positionally. -/
  positionalBelow : Int
  /-- The least number of digits in an exponent. -/
  exponentWidth : Nat
  infinity : Text
  notNumber : Text

namespace NumberStyle

/-- Positional from `0.0001` to below `10 ^ 16`, exponents of at least two digits. -/
def plain : NumberStyle where
  positionalFrom := -4
  positionalBelow := 16
  exponentWidth := 2
  infinity := ['i', 'n', 'f']
  notNumber := ['n', 'a', 'n']

/-- Digits with the point after the first `before` of them, zeros supplied on either side. -/
def positional (digits : Text) (before : Int) : Text :=
  match before with
  | .ofNat (n + 1) =>
      let whole := digits.take (n + 1)
      let rest := digits.drop (n + 1)
      whole ++ List.replicate (n + 1 - whole.length) '0'
        ++ '.' :: (if rest.isEmpty then ['0'] else rest)
  | _ => '0' :: '.' :: List.replicate before.natAbs '0' ++ digits

/-- Digits with the point after the first and an exponent of ten. -/
def scientific (style : NumberStyle) (digits : Text) (exponent : Int) : Text :=
  let power := Text.ofNat exponent.natAbs
  let sign := if exponent < 0 then '-' else '+'
  let padding := List.replicate (style.exponentWidth - power.length) '0'
  match digits with
  | first :: second :: rest => first :: '.' :: second :: rest ++ 'e' :: sign :: padding ++ power
  | _ => digits ++ 'e' :: sign :: padding ++ power

def writeDecimal (style : NumberStyle) (d : Decimal) : Text :=
  let digits := Text.ofNat d.digits
  let first : Int := d.exponent + digits.length - 1
  if style.positionalFrom ≤ first && first < style.positionalBelow then
    positional digits (first + 1)
  else style.scientific digits first

def write (style : NumberStyle) (x : Float) : Text :=
  match BinaryFraction.ofFloat? x with
  | some parts =>
      let unsigned := style.writeDecimal (Decimal.shortest parts)
      if parts.negative then '-' :: unsigned else unsigned
  | none =>
      if x.isNaN then style.notNumber
      else if x < 0 then '-' :: style.infinity else style.infinity

end NumberStyle
end DotDoc
