import DotDoc.Error

/-!
# Record labels

Cells are joined by vertical bars.  A group stands between braces, except an outermost row, which
is written bare.  A cell with a port shows the name between angle brackets in front of its text.

A text cell gives its value as it is, and only strings can be joined, so a group that holds any
other text has no label.
-/

set_option autoImplicit false

namespace DotDoc.Record

def separator : Text := [' ', '|', ' ']

/-- The label of a group whose cells have the given labels. -/
def groupText (bare : Bool) (labels : List Text) : Text :=
  let joined := Text.joinWith separator labels
  if bare then joined else '\x7b' :: ' ' :: joined ++ [' ', '\x7d']

def portText (name text : Value) : Text :=
  '<' :: name.display ++ '>' :: ' ' :: text.display

mutual

/-- The text of a cell inside a group. -/
def Cell.text? : Cell Value → Except Error Text
  | .text (.str s) => .ok s.toList
  | .text _ => .error .wrongType
  | .port name shown => .ok (portText name shown)
  | .group _ cells => do return groupText false (← texts cells)

def texts : List (Cell Value) → Except Error (List Text)
  | [] => .ok []
  | cell :: rest => do
      let text ← cell.text?
      return text :: (← texts rest)

end

/-- The label of a group; `outermost` leaves the braces of a row out. -/
def groupLabel (outermost : Bool) (isColumn : Value) (cells : List (Cell Value)) :
    Except Error Text := do
  return groupText (outermost && !isColumn.isTruthy) (← texts cells)

/-- The label of a cell standing alone: the value of a text cell, else a string. -/
def Cell.label : Cell Value → Except Error Value
  | .text shown => .ok shown
  | cell => do return .str (String.ofList (← cell.text?))

mutual

def Cell.ports : Cell Value → List Value
  | .text _ => []
  | .port name _ => [name]
  | .group _ cells => portsOf cells

def portsOf : List (Cell Value) → List Value
  | [] => []
  | cell :: rest => cell.ports ++ portsOf rest

end

def label (record : Record Value) : Except Error Text :=
  match record.body with
  | .plain label => .ok label.toList
  | .group isColumn cells => groupLabel true isColumn cells

/-- The attributes of a vertex that shows a record: its shape comes first, and neither the shape
nor the label can be given as a property. -/
def vertexAttributes (record : Record Value) : List (String × Value) :=
  ("shape", .str "record")
    :: record.properties.filter fun property => property.1 ≠ "shape" && property.1 ≠ "label"

end DotDoc.Record
