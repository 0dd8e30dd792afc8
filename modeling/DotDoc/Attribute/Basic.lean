import DotDoc.Attribute.Keywords
import DotDoc.Value.Convert

/-!
# Attribute lists

An attribute list holds attributes under distinct names.  A name keeps the position of its first
insertion, so storing a new value does not move it, and storing an unset value removes it.

Storing takes any key and keeps its text as the name.  Looking up and removing compare the key
itself, so they find only strings; a key that cannot be looked up at all is refused.
-/

set_option autoImplicit false

namespace DotDoc

structure AttrList where
  entries : Entries Value
  deriving Inhabited

namespace AttrList

def empty : AttrList := ⟨[]⟩

def isEmpty (l : AttrList) : Bool :=
  l.entries.isEmpty

def size (l : AttrList) : Nat :=
  l.entries.length

def keys (l : AttrList) : List String :=
  Entries.keys l.entries

def find? (name : String) (l : AttrList) : Option Value :=
  Entries.find? name l.entries

def erase (name : String) (l : AttrList) : AttrList :=
  ⟨Entries.erase name l.entries⟩

def put (name : String) (value : Value) (l : AttrList) : AttrList :=
  if value.isUnset then l.erase name else ⟨Entries.put name value l.entries⟩

def putAll (added : Entries Value) (l : AttrList) : AttrList :=
  added.foldl (fun held entry => held.put entry.1 entry.2) l

/-- A value under the text of a key.  An unset value removes the key itself, which only a string
can be. -/
def store (key value : Value) (l : AttrList) : AttrList :=
  if value.isUnset then
    match key with
    | .str name => l.erase name
    | _ => l
  else ⟨Entries.put key.name value l.entries⟩

def storeAll (added : List (Value × Value)) (l : AttrList) : AttrList :=
  added.foldl (fun held entry => held.store entry.1 entry.2) l

/-- Stores a value.  Removing from a list that is not empty takes a key that can be looked up. -/
def set (key value : Value) (l : AttrList) : Except Error AttrList :=
  if value.isUnset && !l.isEmpty && !key.isHashable then .error .wrongType
  else .ok (l.store key value)

def lookup (key : Value) (l : AttrList) : Except Error (Option Value) := do
  match ← key.lookupKey with
  | some name => pure (l.find? name)
  | none => pure none

def get (key : Value) (l : AttrList) : Except Error Value := do
  match ← l.lookup key with
  | some value => pure value
  | none => throw (.keyNotFound key)

def getD (key default : Value) (l : AttrList) : Except Error Value := do
  pure ((← l.lookup key).getD default)

def contains (key : Value) (l : AttrList) : Except Error Bool := do
  pure (← l.lookup key).isSome

/-- The attributes without a key that is not a name are the attributes themselves. -/
def eraseKey (key : Value) (l : AttrList) : AttrList :=
  match key with
  | .str name => l.erase name
  | _ => l

def delete (key : Value) (l : AttrList) : Except Error AttrList := do
  let _ ← l.get key
  pure (l.eraseKey key)

/-- Removes a key and gives its value; an absent key gives the default, if there is one. -/
def pop (key : Value) (default : Option Value) (l : AttrList) :
    Except Error (Value × AttrList) := do
  match ← l.lookup key with
  | some value => pure (value, l.eraseKey key)
  | none =>
      match default with
      | some value => pure (value, l)
      | none => throw (.keyNotFound key)

def popFirst (l : AttrList) : Except Error ((String × Value) × AttrList) :=
  match l.entries with
  | [] => .error .noEntries
  | entry :: rest => .ok (entry, ⟨rest⟩)

/-- The value under a key; the default is stored and given when the key is absent. -/
def setDefault (key default : Value) (l : AttrList) : Except Error (Value × AttrList) := do
  match ← l.lookup key with
  | some value => pure (value, l)
  | none => pure (default, ← l.set key default)

def prepend (key value : Value) (l : AttrList) : AttrList :=
  let rest := (l.eraseKey key).entries
  ⟨Entries.putAll rest (empty.store key value).entries⟩

def setPairs : List Value → AttrList → Except Error AttrList
  | [], l => .ok l
  | item :: rest, l => do
      let (key, value) ← item.pair
      setPairs rest (← l.set key value)

/-- Stores what a mapping, or a sequence of pairs, holds. -/
def update (source : Value) (l : AttrList) : Except Error AttrList :=
  match source.mapping? with
  | some entries => .ok (l.storeAll entries)
  | none => do setPairs (← source.elements) l

/-- Stores what a source holds, unless it is absent, and then the named attributes. -/
def merge (source : Value) (named : Keywords) (l : AttrList) : Except Error AttrList :=
  match source with
  | .null => .ok (l.putAll named.entries)
  | source => do return (← l.update source).putAll named.entries

/-- A list with the attributes of an optional source and then the named ones.  A source can also
be given under the name of the parameter, but not twice. -/
def build (source : Option Value) (named : Keywords) : Except Error AttrList :=
  if named.clashesWith [] then .error .wrongType
  else
    match source, named.find? "attrs" with
    | some _, some _ => .error .wrongType
    | some value, none => empty.merge value named
    | none, some value => empty.merge value (named.erase "attrs")
    | none, none => .ok (empty.putAll named.entries)

def ofKeywords (named : Keywords) : AttrList :=
  empty.putAll named.entries

def toValue (l : AttrList) : Value :=
  .attributes l.entries

def toDict (l : AttrList) : Value :=
  .dict (l.entries.map fun entry => (.str entry.1, entry.2))

end AttrList
end DotDoc
