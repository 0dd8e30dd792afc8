import DotDoc.Decimal.Notation
import DotDoc.Text.Quoted
import DotDoc.Value.Basic

/-!
# The text of a value

`Value.literal` shows a value the way it would be written down: strings in quotes, collections in
brackets, and label parts as the call that builds them.  `Value.display` differs from it only on
strings, which stand for themselves.  `Value.formatted` is the text of an attribute value, where
truth values are written in lower case.
-/

set_option autoImplicit false

namespace DotDoc.Value

/-- `opening`, the parts with commas between them, and `closing`. -/
def enclosed (opening : String) (parts : List Text) (closing : String) : Text :=
  opening.toList ++ Text.joinWith [',', ' '] parts ++ closing.toList

/-- The entries of a mapping between braces; a colon follows each key. -/
def braced (entries : List (Text × Text)) : Text :=
  enclosed "\x7b" (entries.map fun entry => entry.1 ++ ':' :: ' ' :: entry.2) "\x7d"

/-- A tuple; a single item keeps a comma behind it. -/
def parenthesized : List Text → Text
  | [item] => '(' :: item ++ [',', ')']
  | items => enclosed "(" items ")"

/-- A call of `name` with content and attributes. -/
def attributedCall (name : String) (content : Text) (attributes : List (Text × Text)) : Text :=
  name.toList ++ '(' :: content ++ ", **".toList ++ braced attributes ++ [')']

mutual

def literal : Value → Text
  | null => "None".toList
  | unset => "UNSET".toList
  | bool b => if b then "True".toList else "False".toList
  | int n => Text.ofInt n
  | float x => NumberStyle.plain.write x
  | str s => Text.literal s.toList
  | bytes octets => Text.literalOfBytes octets
  | list items => enclosed "[" (literals items) "]"
  | tuple items => parenthesized (literals items)
  | dict entries => braced (entryLiterals entries)
  | attributes entries => "AttributeList(".toList ++ braced (attributeLiterals entries) ++ [')']
  | recordCell cell => cellLiteral cell
  | record ⟨.plain label, _⟩ => enclosed "Record(" [Text.literal label.toList] ")"
  | record ⟨.group isColumn cells, _⟩ =>
      enclosed "Record(" [enclosed (if isColumn.isTruthy then "column([" else "row([")
        (cellLiterals cells) "])"] ")"
  | lineBreak => "br()".toList
  | font attrs content =>
      attributedCall "font" (contentLiteral content) (attributeLiterals attrs)
  | tableCell ⟨attrs, content⟩ =>
      attributedCall "td" (contentLiteral content) (attributeLiterals attrs)
  | tableRow ⟨cells⟩ => enclosed "tr([" (tableCellLiterals cells) "])"
  | table ⟨_, rows⟩ => enclosed "HTMLRecord([" (rowLiterals rows) "])"

def literals : List Value → List Text
  | [] => []
  | item :: rest => item.literal :: literals rest

def entryLiterals : List (Value × Value) → List (Text × Text)
  | [] => []
  | (key, value) :: rest => (key.literal, value.literal) :: entryLiterals rest

def attributeLiterals : List (String × Value) → List (Text × Text)
  | [] => []
  | (key, value) :: rest => (Text.literal key.toList, value.literal) :: attributeLiterals rest

/-- The call that builds a record cell. -/
def cellLiteral : Record.Cell Value → Text
  | .text text => enclosed "Text(" [text.literal] ")"
  | .port name text => enclosed "Port(" [name.literal, text.literal] ")"
  | .group isColumn cells =>
      enclosed (if isColumn.isTruthy then "column([" else "row([") (cellLiterals cells) "])"

def cellLiterals : List (Record.Cell Value) → List Text
  | [] => []
  | cell :: rest => cellLiteral cell :: cellLiterals rest

/-- Content as it is stored: a string, a call or a list. -/
def contentLiteral : Html.Content Value → Text
  | .text text => Text.literal text.toList
  | .lineBreak => "br()".toList
  | .font attrs content =>
      attributedCall "font" (contentLiteral content) (attributeLiterals attrs)
  | .table ⟨_, rows⟩ => enclosed "HTMLRecord([" (rowLiterals rows) "])"
  | .sequence items => enclosed "[" (contentLiterals items) "]"

def contentLiterals : List (Html.Content Value) → List Text
  | [] => []
  | item :: rest => contentLiteral item :: contentLiterals rest

def tableCellLiterals : List (Html.Cell Value) → List Text
  | [] => []
  | ⟨attrs, content⟩ :: rest =>
      attributedCall "td" (contentLiteral content) (attributeLiterals attrs)
        :: tableCellLiterals rest

def rowLiterals : List (Html.Row Value) → List Text
  | [] => []
  | ⟨cells⟩ :: rest => enclosed "tr([" (tableCellLiterals cells) "])" :: rowLiterals rest

end

/-- The value as part of a sentence: a string stands for itself. -/
def display : Value → Text
  | str s => s.toList
  | v => v.literal

/-- The value as the text of an attribute. -/
def formatted : Value → Text
  | bool b => if b then "true".toList else "false".toList
  | v => v.display

/-- The name that a value becomes as a key: its text. -/
def name : Value → String
  | str s => s
  | v => String.ofList v.literal

@[simp] theorem display_str (s : String) : (str s).display = s.toList := rfl

@[simp] theorem formatted_str (s : String) : (str s).formatted = s.toList := rfl

@[simp] theorem name_str (s : String) : (str s).name = s := rfl

end DotDoc.Value
