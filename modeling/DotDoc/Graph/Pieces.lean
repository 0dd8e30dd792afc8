import DotDoc.Graph.Document
import DotDoc.Html.Label

/-!
# Pieces of a document from arbitrary values

The building blocks of a document, applied to values that need not be of the type that the block
expects.  Each refuses a value that it cannot work on and otherwise agrees with the block.
-/

set_option autoImplicit false

namespace DotDoc.Value

def ofText (t : Text) : Value :=
  .str (String.ofList t)

def escaped : Value → Except Error Text
  | .str s => .ok (Text.escape s.toList)
  | _ => .error .wrongType

def largestCount : Int := 9223372036854775807

/-- The largest depth whose margin can be stored. -/
def largestDepth : Int := 4294967296

/-- How many levels a value asks for.  A count has to fit a machine word, the characters of the
margin have to be countable, and the margin has to fit the storage. -/
def levels : Value → Except Error Nat
  | .int n =>
      if n < -largestCount - 1 || largestCount < n then .error .countTooLarge
      else if largestCount / Text.indentUnit.length < n then .error .textTooLong
      else if largestDepth < n then .error .outOfMemory
      else .ok n.toNat
  | .bool b => .ok b.toNat
  | _ => .error .wrongType

def indented (text depth : Value) : Except Error Text := do
  let levels ← depth.levels
  match text with
  | .str s => pure (Text.indentBy (Text.margin levels) s.toList)
  | .bytes _ => throw .wrongType
  | _ => throw .missingMember

/-- The entries of a mapping with their keys as text; a value that does not count as true has
none. -/
def writtenEntries (v : Value) : Except Error (List (Text × Value)) :=
  if v.isTruthy then
    match v.mapping? with
    | some entries => .ok (entries.map fun entry => (entry.1.display, entry.2))
    | none => .error .missingMember
  else .ok []

def attributeText (key value : Value) : Text :=
  writtenAttribute key.display value

def listText (v : Value) : Except Error (Option Text) := do
  return writtenList (← v.writtenEntries)

def defaultsText (vertexDefaults edgeDefaults : Value) : Except Error (Option Text) := do
  let lines := writtenDefaults (← vertexDefaults.writtenEntries) (← edgeDefaults.writtenEntries)
  return if lines.isEmpty then none else some (Text.joinLines lines)

/-- A name that underscores are replaced in. -/
def markupName : Value → Except Error Text
  | .str s => .ok s.toList
  | .bytes _ => .error .wrongType
  | _ => .error .missingMember

def markupText (v : Value) : Except Error Text :=
  if v.isTruthy then
    match v.mapping? with
    | some entries => do
        let named ← entries.mapM fun entry => do return (← entry.1.markupName, entry.2)
        return Html.writtenAttributes named
    | none => .error .missingMember
  else .ok []

def endText (id port : Value) : Text :=
  endpointText id.display (port.given?.map Value.display)

def present (v : Value) : Except Error (List Value) := do
  return (← v.elements).filterMap Value.given?

def strings : List Value → Except Error (List Text)
  | [] => .ok []
  | .str s :: rest => do return s.toList :: (← strings rest)
  | _ => .error .wrongType

def byteStrings : List Value → Except Error (List (List UInt8))
  | [] => .ok []
  | .bytes b :: rest => do return b :: (← byteStrings rest)
  | _ => .error .wrongType

/-- The elements joined by a string or byte string; nothing when the value does not count as
true. -/
def joined (items joiner : Value) : Except Error Value :=
  if items.isTruthy then
    match joiner with
    | .str separator => do
        return ofText (Text.joinWith separator.toList (← strings (← items.elements)))
    | .bytes separator => do
        return .bytes ((← byteStrings (← items.elements)).intersperse separator).flatten
    | _ => .error .missingMember
  else .ok .null

end DotDoc.Value
