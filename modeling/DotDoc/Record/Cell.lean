/-!
# Record cells

A record label is made of cells: text, text with a named port, and groups.  A group is a row or a
column of cells and may hold groups in turn.  The texts, names and orientations are values of a
type `α` that the caller fixes.
-/

set_option autoImplicit false

namespace DotDoc

namespace Record

/-- A cell of a record label. -/
inductive Cell (α : Type) where
  | text (text : α)
  /-- Text with a named port that edges can attach to. -/
  | port (name text : α)
  /-- A row, or a column when the flag counts as true. -/
  | group (isColumn : α) (cells : List (Cell α))

/-- What a record shows: a finished label, or one outermost group. -/
inductive Body (α : Type) where
  | plain (label : String)
  | group (isColumn : α) (cells : List (Cell α))

end Record

/-- A record with the other attributes of its vertex. -/
structure Record (α : Type) where
  body : Record.Body α
  properties : List (String × α)

end DotDoc
