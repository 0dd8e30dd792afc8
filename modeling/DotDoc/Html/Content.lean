/-!
# Tables in labels

A table is a list of rows, a row a list of cells, and a cell holds content: text, a line break, a
font span around content, another table, or a sequence of these.  Tables, cells and font spans
carry attributes whose values are of a type `α` that the caller fixes.
-/

set_option autoImplicit false

namespace DotDoc.Html

mutual

/-- What stands inside a table cell or a font span. -/
inductive Content (α : Type) where
  | text (text : String)
  | lineBreak
  | font (attributes : List (String × α)) (content : Content α)
  | table (table : Table α)
  | sequence (items : List (Content α))

inductive Cell (α : Type) where
  | mk (attributes : List (String × α)) (content : Content α)

inductive Row (α : Type) where
  | mk (cells : List (Cell α))

inductive Table (α : Type) where
  | mk (attributes : List (String × α)) (rows : List (Row α))

end

end DotDoc.Html
