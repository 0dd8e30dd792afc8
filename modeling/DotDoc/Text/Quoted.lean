import DotDoc.Text.Lines
import DotDoc.Text.Printable

/-!
# Quoted literals

The literal of a string shows it between quotes on one line.  The quote is the apostrophe,
unless the string holds an apostrophe and no double quote.  Inside, the backslash and the quote
are preceded by a backslash, line feed, carriage return and tab have letters of their own, and
any other character that is not printable is written in hexadecimal with two, four or eight
digits.  The literal of a byte string follows the same rule for its quote and shows every byte
outside ASCII in hexadecimal.
-/

set_option autoImplicit false

namespace DotDoc.Text

/-- A number in at least `width` hexadecimal digits. -/
def hex (width n : Nat) : Text :=
  let digits := Nat.toDigits 16 n
  List.replicate (width - digits.length) '0' ++ digits

/-- The quote that surrounds a literal of the given characters. -/
def quoteFor (t : Text) : Char :=
  if t.contains '\'' && !t.contains '"' then '"' else '\''

def codeOf (c : Char) : Text :=
  let n := c.toNat
  if n < 0x100 then '\\' :: 'x' :: hex 2 n
  else if n < 0x10000 then '\\' :: 'u' :: hex 4 n
  else '\\' :: 'U' :: hex 8 n

/-- A character inside a literal that `quote` surrounds. -/
def literalChar (quote c : Char) : Text :=
  if c = quote || c = '\\' then ['\\', c]
  else if c = '\n' then ['\\', 'n']
  else if c = '\r' then ['\\', 'r']
  else if c = '\t' then ['\\', 't']
  else if isPrintable c then [c]
  else codeOf c

def literal (t : Text) : Text :=
  let quote := quoteFor t
  quote :: t.flatMap (literalChar quote) ++ [quote]

/-- A byte inside a literal that `quote` surrounds; only ASCII bytes are shown as characters. -/
def literalByte (quote : Char) (byte : UInt8) : Text :=
  if byte.toNat < 0x80 then literalChar quote (Char.ofNat byte.toNat)
  else '\\' :: 'x' :: hex 2 byte.toNat

def literalOfBytes (bytes : List UInt8) : Text :=
  let quote := quoteFor (bytes.map fun byte => Char.ofNat byte.toNat)
  'b' :: quote :: bytes.flatMap (literalByte quote) ++ [quote]

end DotDoc.Text
