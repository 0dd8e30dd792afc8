import DotDoc.Attribute.Entries
import DotDoc.Error

/-!
# The ports of a table

A table, and every cell of it, names a port by its `port` attribute.  `Table.ports` lists the
names in the order in which the elements are written, those of nested tables included.
-/

set_option autoImplicit false

namespace DotDoc.Html

def portOf (attributes : List (String × Value)) : List Text :=
  match Entries.find? "port" attributes with
  | some name => [name.display]
  | none => []

mutual

def Content.ports : Content Value → List Text
  | .text _ => []
  | .lineBreak => []
  | .font _ content => content.ports
  | .table table => table.ports
  | .sequence items => sequencePorts items

def sequencePorts : List (Content Value) → List Text
  | [] => []
  | item :: rest => item.ports ++ sequencePorts rest

/-- The port names of cells, each before those of its content. -/
def cellPorts : List (Cell Value) → List Text
  | [] => []
  | ⟨attributes, content⟩ :: rest => portOf attributes ++ content.ports ++ cellPorts rest

def rowPorts : List (Row Value) → List Text
  | [] => []
  | ⟨cells⟩ :: rest => cellPorts cells ++ rowPorts rest

/-- The port names of a table, its cells and the tables in them. -/
def Table.ports : Table Value → List Text
  | ⟨attributes, rows⟩ => portOf attributes ++ rowPorts rows

end

/-- The first name that occurs a second time. -/
def firstRepeated : List Text → List Text → Option Text
  | _, [] => none
  | seen, name :: rest =>
      if seen.contains name then some name else firstRepeated (name :: seen) rest

end DotDoc.Html
