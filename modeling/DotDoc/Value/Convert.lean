import DotDoc.Error
import DotDoc.Value.Equality

/-!
# Arguments

What an operation may demand of a value that it is given: that it can be iterated over, that it
has exactly two parts, that it may be looked up.  A value that falls short is refused with the
error that names the fault.
-/

set_option autoImplicit false

namespace DotDoc.Value

def elements (v : Value) : Except Error (List Value) :=
  match v.elements? with
  | some items => .ok items
  | none => .error .wrongType

def twoParts : List Value → Except Error (Value × Value)
  | [first, second] => .ok (first, second)
  | [] => .error (.tooFewParts 0)
  | [_] => .error (.tooFewParts 1)
  | _ :: _ :: _ :: _ => .error .tooManyParts

def pair (v : Value) : Except Error (Value × Value) := do
  twoParts (← v.elements)

/-- The id and the port that a value names: a pair names both, and another value is an id. -/
def idAndPort : Value → Except Error (Value × Value)
  | tuple items => twoParts items
  | id => .ok (id, null)

/-- The string to look up under a key: keys that are not strings are never found. -/
def lookupKey (v : Value) : Except Error (Option String) :=
  match v with
  | str s => .ok (some s)
  | v => if v.isHashable then .ok none else .error .wrongType

/-- The number to look up under an id: an element is found under every value that is equal to its
number. -/
def lookupId (v : Value) : Except Error (Option Int) :=
  if v.isHashable then .ok v.integer? else .error .wrongType

/-- Entries with one more: in the place of an equal key, which stays, or else at the end. -/
def putEntry (key value : Value) : List (Value × Value) → List (Value × Value)
  | [] => [(key, value)]
  | (k, held) :: rest =>
      if k.same key then (k, value) :: rest else (k, held) :: putEntry key value rest

/-- The mapping with the given entries, the later one of two with equal keys. -/
def dictOf (entries : List (Value × Value)) : Except Error Value :=
  if Value.allHashable (entries.map Prod.fst) then
    .ok (.dict (entries.foldl (fun held entry => putEntry entry.1 entry.2 held) []))
  else .error .wrongType

end DotDoc.Value
