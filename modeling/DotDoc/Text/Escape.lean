import DotDoc.Text.Lines

/-!
# Escaping for a quoted string

`escape` prepares a text for standing between double quotes.  A quote gets a backslash unless an
odd run of backslashes stands before it already, so a quote that is escaped in the input counts
as the same quote.  Every other backslash sequence stays as it is.  When the text ends in an odd
run of backslashes one more is written at the very end, and a single final line feed after that
run does not hide it.
-/

set_option autoImplicit false

namespace DotDoc.Text

/-- The rest of a text, when `odd` tells whether an odd run of backslashes stands just before. -/
def escapeFrom (odd : Bool) : Text → Text
  | [] => if odd then ['\\'] else []
  | c :: rest =>
      if c = '\\' then '\\' :: escapeFrom (!odd) rest
      else if c = '"' then
        if odd then '"' :: escapeFrom false rest else '\\' :: '"' :: escapeFrom false rest
      else if odd && c = '\n' && rest.isEmpty then ['\n', '\\']
      else c :: escapeFrom false rest

/-- A text made ready to stand between double quotes. -/
def escape (t : Text) : Text :=
  escapeFrom false t

@[simp] theorem escape_nil : escape [] = [] := rfl

end DotDoc.Text
