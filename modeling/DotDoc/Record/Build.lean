import DotDoc.Attribute.Keywords
import DotDoc.Record.Label
import DotDoc.Value.Convert
import DotDoc.Value.Equality

/-!
# Building records

Cells are built from values: a cell stands for itself, a string for its text, and a pair of
strings for a port name and its text.  The body of a record is a string, a group, or a list of
cells, which is taken as a row.  A record in which two ports have equal names is refused.
-/

set_option autoImplicit false

namespace DotDoc.Record

/-- The cell that a value stands for. -/
def Cell.ofValue : Value → Except Error (Cell Value)
  | .recordCell cell => .ok cell
  | .str s => .ok (.text (.str s))
  | .tuple [.str name, .str shown] => .ok (.port (.str name) (.str shown))
  | v => .error (.notRecordCell v)

/-- The cells that values stand for, up to the first that stands for none. -/
def cellsOfValues : List Value → Except Error (List (Cell Value))
  | [] => .ok []
  | item :: rest => do
      let cell ← Cell.ofValue item
      return cell :: (← cellsOfValues rest)

def cellsOf : Value → Except Error (List (Cell Value))
  | .list items => cellsOfValues items
  | .tuple items => cellsOfValues items
  | v => .error (.cellsNotList v)

def group (cells isColumn : Value) : Except Error (Cell Value) := do
  return .group isColumn (← cellsOf cells)

def row (cells : Value) : Except Error (Cell Value) :=
  group cells (.bool false)

def column (cells : Value) : Except Error (Cell Value) :=
  group cells (.bool true)

def Body.ofValue : Value → Except Error (Body Value)
  | .str s => .ok (.plain s)
  | .recordCell (.group isColumn cells) => .ok (.group isColumn cells)
  | .list items => do return .group (.bool false) (← cellsOf (.list items))
  | .tuple items => do return .group (.bool false) (← cellsOf (.tuple items))
  | v => .error (.notRecordBody v)

/-- Refuses a second port of an equal name, and a name that cannot be compared with others. -/
def checkNames : List Value → List Value → Except Error Unit
  | _, [] => .ok ()
  | seen, name :: rest =>
      if !name.isHashable then .error .wrongType
      else if name.occursIn seen then .error (.duplicatePort name)
      else checkNames (name :: seen) rest

def Body.ports : Body Value → List Value
  | .plain _ => []
  | .group _ cells => portsOf cells

def build (body : Value) (properties : Keywords) : Except Error (Record Value) :=
  if properties.clashesWith ["body"] then .error .wrongType
  else do
    let body ← Body.ofValue body
    checkNames [] body.ports
    return ⟨body, properties.entries⟩

end DotDoc.Record
