import DotDoc.Attribute.Keywords
import DotDoc.Html.Label
import DotDoc.Html.Ports
import DotDoc.Value.Convert

/-!
# Building tables

Tables are built from values, and every value that cannot stand where it is put is refused when
the part is built.  Numbers become text, tuples become sequences.  A table that names a port twice
is refused, wherever in it the two names stand.
-/

set_option autoImplicit false

namespace DotDoc.Html

mutual

def Content.ofValue : Value → Except Error (Content Value)
  | .str s => .ok (.text s)
  | .int n => .ok (.text (String.ofList (Text.ofInt n)))
  | .float x => .ok (.text (String.ofList (NumberStyle.plain.write x)))
  | .lineBreak => .ok .lineBreak
  | .font attributes content => .ok (.font attributes content)
  | .table table => .ok (.table table)
  | .list items => do return .sequence (← contentsOfValues items)
  | .tuple items => do return .sequence (← contentsOfValues items)
  | v => .error (.notContent v)

/-- The contents that values stand for, up to the first that stands for none. -/
def contentsOfValues : List Value → Except Error (List (Content Value))
  | [] => .ok []
  | item :: rest => do
      let content ← Content.ofValue item
      return content :: (← contentsOfValues rest)

end

mutual

def Content.toValue : Content Value → Value
  | .text shown => .str shown
  | .lineBreak => .lineBreak
  | .font attributes content => .font attributes content
  | .table inner => .table inner
  | .sequence items => .list (contentsToValues items)

def contentsToValues : List (Content Value) → List Value
  | [] => []
  | item :: rest => item.toValue :: contentsToValues rest

end

mutual

/-- The label of a value as content.  Values that are never stored as content have none. -/
def labelOfValue : Value → Except Error Text
  | .str s => .ok s.toList
  | .lineBreak => .ok Content.lineBreak.label
  | .font attributes content => .ok (Content.font attributes content).label
  | .table table => .ok table.label
  | .list items => labelOfValues items
  | v => .error (.notContent v)

def labelOfValues : List Value → Except Error Text
  | [] => .ok []
  | item :: rest => do
      let label ← labelOfValue item
      return label ++ (← labelOfValues rest)

end

def font (content : Value) (attributes : Keywords) : Except Error Value :=
  if attributes.clashesWith ["content"] then .error .wrongType
  else do return .font attributes.entries (← Content.ofValue content)

def cell (content : Value) (attributes : Keywords) : Except Error (Cell Value) :=
  if attributes.clashesWith ["content"] then .error .wrongType
  else do return ⟨attributes.entries, ← Content.ofValue content⟩

def items? : Value → Option (List Value)
  | .list items => some items
  | .tuple items => some items
  | _ => none

def cellsOf : List Value → Except Error (List (Cell Value))
  | [] => .ok []
  | .tableCell cell :: rest => do return cell :: (← cellsOf rest)
  | v :: _ => .error (.notTableCell v)

def rowsOf : List Value → Except Error (List (Row Value))
  | [] => .ok []
  | .tableRow row :: rest => do return row :: (← rowsOf rest)
  | v :: _ => .error (.notTableRow v)

def row (cells : Value) : Except Error (Row Value) :=
  match items? cells with
  | some items => do return ⟨← cellsOf items⟩
  | none => .error (.rowCellsNotList cells)

/-- Refuses a table that names a port twice. -/
def checkPorts (table : Table Value) : Except Error (Table Value) :=
  match firstRepeated [] table.ports with
  | some name => .error (.duplicatePort (.str (String.ofList name)))
  | none => .ok table

def table (rows : Value) (attributes : Keywords) : Except Error (Table Value) :=
  if attributes.clashesWith ["rows"] then .error .wrongType
  else
    match items? rows with
    | some items => do checkPorts ⟨attributes.entries, ← rowsOf items⟩
    | none => .error (.rowsNotList rows)

def Table.attributes : Table Value → List (String × Value)
  | ⟨attributes, _⟩ => attributes

end DotDoc.Html
