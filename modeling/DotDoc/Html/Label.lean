import DotDoc.Value.Literal

/-!
# The label of a table

A table is written as nested elements.  Each row stands on lines of its own one level deeper than
its table, and each cell one level deeper than its row; all other content follows on the current
line.  Attribute names are written with hyphens for underscores.

The lines of a nested table are indented together with the cell that holds it, so a line feed
inside a text is followed by indentation, too.
-/

set_option autoImplicit false

namespace DotDoc.Html

def attributeName (key : Text) : Text :=
  key.map fun c => if c = '_' then '-' else c

def writtenAttributes (attributes : List (Text × Value)) : Text :=
  attributes.flatMap fun entry =>
    ' ' :: attributeName entry.1 ++ '=' :: '"' :: entry.2.formatted ++ ['"']

def attributesText (attributes : List (String × Value)) : Text :=
  writtenAttributes (attributes.map fun entry => (entry.1.toList, entry.2))

def opening (name : String) (attributes : List (String × Value)) : Text :=
  '<' :: name.toList ++ attributesText attributes ++ ['>']

def closing (name : String) : Text :=
  '<' :: '/' :: name.toList ++ ['>']

mutual

def Content.label : Content Value → Text
  | .text text => text.toList
  | .lineBreak => "<br/>".toList
  | .font attributes content => opening "font" attributes ++ content.label ++ closing "font"
  | .table table => table.label
  | .sequence items => sequenceLabel items

def sequenceLabel : List (Content Value) → Text
  | [] => []
  | item :: rest => item.label ++ sequenceLabel rest

def Cell.label : Cell Value → Text
  | ⟨attributes, content⟩ => opening "td" attributes ++ content.label ++ closing "td"

/-- The elements of cells, each indented and ended by a line feed. -/
def cellLines : List (Cell Value) → Text
  | [] => []
  | cell :: rest => Text.indent cell.label ++ '\n' :: cellLines rest

def Row.label : Row Value → Text
  | ⟨cells⟩ => opening "tr" [] ++ '\n' :: cellLines cells ++ closing "tr"

def rowLines : List (Row Value) → Text
  | [] => []
  | row :: rest => Text.indent row.label ++ '\n' :: rowLines rest

def Table.label : Table Value → Text
  | ⟨attributes, rows⟩ => opening "table" attributes ++ '\n' :: rowLines rows ++ closing "table"

end

end DotDoc.Html
