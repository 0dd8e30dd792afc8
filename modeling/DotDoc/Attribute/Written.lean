import DotDoc.Attribute.Basic
import DotDoc.Text.Escape

/-!
# Written attributes

`writtenAttribute` writes one attribute as a key and a quoted value.  A label whose text opens a
table is the exception: it stands between angle brackets, as it is.  `writtenList` puts the
attributes of an element between brackets and gives nothing when there are none, and
`writtenDefaults` writes the defaults for vertices and for edges on a line each.
-/

set_option autoImplicit false

namespace DotDoc

def tableOpening : Text := "<table".toList

/-- Whether a label of this text stands between angle brackets. -/
def opensTable (t : Text) : Bool :=
  tableOpening.isPrefixOf t

def quoted (t : Text) : Text :=
  '"' :: Text.escape t ++ ['"']

def writtenAttribute (key : Text) (value : Value) : Text :=
  let text := value.formatted
  if key = "label".toList ∧ opensTable text then "label=<".toList ++ text ++ ['>']
  else key ++ '=' :: quoted text

/-- Attributes between brackets; nothing when there are none. -/
def writtenList (entries : List (Text × Value)) : Option Text :=
  if entries.isEmpty then none
  else
    some ('[' :: Text.joinWith [','] (entries.map fun entry => writtenAttribute entry.1 entry.2)
      ++ [']'])

/-- A word followed by the attributes, if there are any. -/
def withList (word : Text) (entries : List (Text × Value)) : Text :=
  match writtenList entries with
  | some list => word ++ ' ' :: list
  | none => word

/-- The default attributes of one kind of element, on an indented line. -/
def defaultLine (kind : String) (entries : List (Text × Value)) : List Text :=
  if entries.isEmpty then [] else [Text.indent (withList kind.toList entries)]

def writtenDefaults (vertexDefaults edgeDefaults : List (Text × Value)) : List Text :=
  defaultLine "node" vertexDefaults ++ defaultLine "edge" edgeDefaults

namespace AttrList

def texts (l : AttrList) : List (Text × Value) :=
  l.entries.map fun entry => (entry.1.toList, entry.2)

def lines (l : AttrList) : List Text :=
  l.texts.map fun entry => Text.indent (writtenAttribute entry.1 entry.2)

end AttrList
end DotDoc
