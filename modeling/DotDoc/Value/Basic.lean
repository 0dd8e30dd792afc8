import DotDoc.Html.Content
import DotDoc.Record.Cell

/-!
# Values

Attributes, labels, ports and ids are given as values of one type: absence, the removal marker,
scalars, collections, and the parts that labels are built from.

`isUnset` holds of the two values that remove an attribute, `isTruthy` tells which values count
as true, and `isHashable` which values may be keys or members of sets.  `elements?` lists what
iterating over a value yields and `mapping?` the entries of a mapping.
-/

set_option autoImplicit false

namespace DotDoc

/-- A value that a caller can pass or store. -/
inductive Value where
  | null
  /-- The marker that removes an attribute. -/
  | unset
  | bool (b : Bool)
  | int (n : Int)
  | float (x : Float)
  | str (s : String)
  | bytes (octets : List UInt8)
  | list (items : List Value)
  | tuple (items : List Value)
  /-- A mapping with keys of any kind, in insertion order. -/
  | dict (entries : List (Value × Value))
  | attributes (entries : List (String × Value))
  | recordCell (cell : Record.Cell Value)
  | record (record : Record Value)
  | lineBreak
  | font (attributes : List (String × Value)) (content : Html.Content Value)
  | tableCell (cell : Html.Cell Value)
  | tableRow (row : Html.Row Value)
  | table (table : Html.Table Value)
  deriving Inhabited

namespace Value

def isUnset : Value → Bool
  | null => true
  | unset => true
  | _ => false

def isTruthy : Value → Bool
  | null => false
  | unset => false
  | bool b => b
  | int n => n ≠ 0
  | float x => !(x == 0)
  | str s => !s.isEmpty
  | bytes octets => !octets.isEmpty
  | list items => !items.isEmpty
  | tuple items => !items.isEmpty
  | dict entries => !entries.isEmpty
  | attributes entries => !entries.isEmpty
  | _ => true

mutual

/-- Whether the value may be a key of a mapping or a member of a set. -/
def isHashable : Value → Bool
  | list _ => false
  | dict _ => false
  | attributes _ => false
  | recordCell _ => false
  | lineBreak => false
  | tuple items => allHashable items
  | _ => true

def allHashable : List Value → Bool
  | [] => true
  | item :: rest => item.isHashable && allHashable rest

end

def ofChar (c : Char) : Value :=
  str (String.ofList [c])

/-- What iterating over the value yields; nothing when it cannot be iterated over. -/
def elements? : Value → Option (List Value)
  | list items => some items
  | tuple items => some items
  | str s => some (s.toList.map ofChar)
  | bytes octets => some (octets.map fun byte => int byte.toNat)
  | dict entries => some (entries.map Prod.fst)
  | attributes entries => some (entries.map fun entry => str entry.1)
  | _ => none

def mapping? : Value → Option (List (Value × Value))
  | dict entries => some entries
  | attributes entries => some (entries.map fun entry => (str entry.1, entry.2))
  | _ => none

/-- A value that is not the absent one. -/
def given? : Value → Option Value
  | null => none
  | v => some v

end Value
end DotDoc
