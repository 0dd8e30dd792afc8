import DotDoc.Value.Literal

/-!
# Errors

`Error` lists the causes for which an operation is refused.  `Error.message` is the wording of a
cause; a misuse that is noticed before the operation looks at the graph, and a failure of the
surroundings, have none.  `Error.kind` classifies the causes, and `ErrorKind.lineage` gives the
kinds that a kind is a special case of, the most special first.
-/

set_option autoImplicit false

namespace DotDoc

inductive ErrorKind where
  | graph
  | elementNotFound
  | vertexNotFound
  | edgeNotFound
  | subgraphNotFound
  | membership
  | label
  | recordLabel
  | tableLabel
  | duplicatePort
  | key
  | lookup
  | value
  | wrongType
  | missingMember
  | fileNotFound
  | isDirectory
  | notDirectory
  | system
  | overflow
  | memory
  | encoding
  | renderFailed
  | rendererMissing
  | any
  deriving DecidableEq, Repr

namespace ErrorKind

/-- The kind itself and all kinds that it is a case of, the nearest first. -/
def lineage : ErrorKind → List ErrorKind
  | graph => [graph, any]
  | elementNotFound => [elementNotFound, graph, key, lookup, any]
  | vertexNotFound => [vertexNotFound, elementNotFound, graph, key, lookup, any]
  | edgeNotFound => [edgeNotFound, elementNotFound, graph, key, lookup, any]
  | subgraphNotFound => [subgraphNotFound, elementNotFound, graph, key, lookup, any]
  | membership => [membership, graph, value, any]
  | label => [label, graph, value, any]
  | recordLabel => [recordLabel, label, graph, value, any]
  | tableLabel => [tableLabel, label, graph, value, any]
  | duplicatePort => [duplicatePort, label, graph, value, any]
  | key => [key, lookup, any]
  | any => [any]
  | kind => [kind, any]

/-- The noun for the element that an error of this kind did not find. -/
def element? : ErrorKind → Option String
  | elementNotFound => some "element"
  | vertexNotFound => some "vertex"
  | edgeNotFound => some "edge"
  | subgraphNotFound => some "subgraph"
  | _ => none

def describe (kind : ErrorKind) (about : Value) : Text :=
  match kind.element? with
  | some noun => noun.toList ++ ' ' :: about.literal ++ " not found".toList
  | none =>
      if kind = duplicatePort then
        "port \"".toList ++ about.display ++ "\" is defined more than once".toList
      else about.display

end ErrorKind

inductive Error where
  | vertexNotFound (id : Value)
  | edgeNotFound (id : Value)
  | subgraphNotFound (id : Value)
  | alreadyMember (vertex : Value) (subgraph : Text)
  | cellsNotList (given : Value)
  | notRecordCell (given : Value)
  | notRecordBody (given : Value)
  | rowCellsNotList (given : Value)
  | notTableCell (given : Value)
  | rowsNotList (given : Value)
  | notTableRow (given : Value)
  | notContent (given : Value)
  | duplicatePort (name : Value)
  | keyNotFound (key : Value)
  | noEntries
  | labelRequired
  | notElementKind (given : Value)
  | layerNotMapping (layer : String) (given : Value)
  | tooFewParts (found : Nat)
  | tooManyParts
  | unknownFormat (format : Value)
  | overwritesSource (format : Value)
  | nulInPath
  /-- A count beyond the numbers that can count characters. -/
  | countTooLarge
  /-- A text with more characters than can be counted. -/
  | textTooLong
  | outOfMemory
  /-- An argument of a type that the operation does not take, or a name given twice. -/
  | wrongType
  /-- A value that lacks what the operation asks it for. -/
  | missingMember
  | fileNotFound
  | isDirectory
  | notDirectory
  | nameTooLong
  /-- A surrogate, which cannot be encoded, with the position of the first one and the position
  behind those that follow it. -/
  | notEncodable (codePoint first behind : Nat)
  | renderFailed
  | rendererMissing

namespace Error

def kind : Error → ErrorKind
  | vertexNotFound _ => .vertexNotFound
  | edgeNotFound _ => .edgeNotFound
  | subgraphNotFound _ => .subgraphNotFound
  | alreadyMember _ _ => .membership
  | cellsNotList _ => .recordLabel
  | notRecordCell _ => .recordLabel
  | notRecordBody _ => .recordLabel
  | rowCellsNotList _ => .tableLabel
  | notTableCell _ => .tableLabel
  | rowsNotList _ => .tableLabel
  | notTableRow _ => .tableLabel
  | notContent _ => .tableLabel
  | duplicatePort _ => .duplicatePort
  | keyNotFound _ => .key
  | noEntries => .key
  | labelRequired => .value
  | notElementKind _ => .value
  | layerNotMapping _ _ => .value
  | tooFewParts _ => .value
  | tooManyParts => .value
  | unknownFormat _ => .value
  | overwritesSource _ => .value
  | nulInPath => .value
  | countTooLarge => .overflow
  | textTooLong => .overflow
  | outOfMemory => .memory
  | wrongType => .wrongType
  | missingMember => .missingMember
  | fileNotFound => .fileNotFound
  | isDirectory => .isDirectory
  | notDirectory => .notDirectory
  | nameTooLong => .system
  | notEncodable _ _ _ => .encoding
  | renderFailed => .renderFailed
  | rendererMissing => .rendererMissing

/-- The fault of a codec on the code points from one position to another. -/
def encodingFault (codePoint first behind : Nat) : Text :=
  let place :=
    if behind = first + 1 then
      " '\\u".toList ++ Text.hex 4 codePoint ++ "' in position ".toList ++ Text.ofNat first
    else "s in position ".toList ++ Text.ofNat first ++ '-' :: Text.ofNat (behind - 1)
  "'utf-8' codec can't encode character".toList ++ place ++ ": surrogates not allowed".toList

def quotedThen (v : Value) (rest : String) : Text :=
  '"' :: v.display ++ '"' :: rest.toList

def message : Error → Option Text
  | vertexNotFound id => some (ErrorKind.vertexNotFound.describe id)
  | edgeNotFound id => some (ErrorKind.edgeNotFound.describe id)
  | subgraphNotFound id => some (ErrorKind.subgraphNotFound.describe id)
  | alreadyMember vertex subgraph =>
      some ("vertex ".toList ++ vertex.display ++ " already belongs to ".toList ++ subgraph)
  | cellsNotList v => some ("record cells must be a list, got ".toList ++ v.literal)
  | notRecordCell v => some (v.literal ++ " is not a valid record cell".toList)
  | notRecordBody v => some (v.literal ++ " is not a valid record body".toList)
  | rowCellsNotList v => some ("row cells must be a list, got ".toList ++ v.literal)
  | notTableCell v => some (v.literal ++ " is not a table cell, build cells with td()".toList)
  | rowsNotList v => some ("table rows must be a list, got ".toList ++ v.literal)
  | notTableRow v => some (v.literal ++ " is not a table row, build rows with tr()".toList)
  | notContent v => some (v.literal ++ " is not valid cell content".toList)
  | duplicatePort name => some (ErrorKind.duplicatePort.describe name)
  | keyNotFound key => some key.literal
  | noEntries => some []
  | labelRequired => some "vertex label is required".toList
  | notElementKind v => some (quotedThen v " is not a valid element kind")
  | layerNotMapping layer v =>
      some ('"' :: layer.toList ++ "\" must be a mapping of attributes, got ".toList ++ v.literal)
  | tooFewParts found =>
      some ("not enough values to unpack (expected 2, got ".toList ++ Text.ofNat found ++ [')'])
  | tooManyParts => some "too many values to unpack (expected 2)".toList
  | unknownFormat v => some (quotedThen v " is not a valid output format")
  | overwritesSource v => some (quotedThen v " output would overwrite the source file")
  | nulInPath => some "embedded null byte".toList
  | countTooLarge => some "cannot fit 'int' into an index-sized integer".toList
  | textTooLong => some "repeated string is too long".toList
  | outOfMemory => some []
  | wrongType => none
  | missingMember => none
  | fileNotFound => none
  | isDirectory => none
  | notDirectory => none
  | nameTooLong => none
  | notEncodable codePoint first behind => some (encodingFault codePoint first behind)
  | renderFailed => none
  | rendererMissing => none

end Error
end DotDoc
