import DotDoc.Error

/-!
# Encoding a document

A document is a sequence of code points.  Files hold characters in UTF-8, which has no place for a
surrogate: a document with one cannot be encoded, and the refusal names the first surrogate and
those that follow it without a gap.
-/

set_option autoImplicit false

namespace DotDoc

/-- A character, or a surrogate that is no part of one. -/
inductive CodePoint where
  | char (c : Char)
  | surrogate (offset : Fin 0x800)
  deriving DecidableEq, Repr

namespace CodePoint

def number : CodePoint → Nat
  | char c => c.toNat
  | surrogate offset => 0xd800 + offset.val

def isSurrogate : CodePoint → Bool
  | char _ => false
  | surrogate _ => true

def ofText (t : Text) : List CodePoint :=
  t.map char

/-- The characters of a document that starts at a position. -/
def encodeFrom (position : Nat) : List CodePoint → Except Error Text
  | [] => .ok []
  | char c :: rest => do return c :: (← encodeFrom (position + 1) rest)
  | surrogate offset :: rest =>
      .error (.notEncodable (surrogate offset).number position
        (position + 1 + (rest.takeWhile isSurrogate).length))

def encode (document : List CodePoint) : Except Error Text :=
  encodeFrom 0 document

end CodePoint
end DotDoc
