import DotDoc.Text.Lines

/-!
# Paths

A path is a root and a list of components.  Reading a path drops empty components and single
dots, and keeps double dots.  `Path.resolve` follows the components from the working directory and
takes double dots back: above the working directory they stay as they are.
-/

set_option autoImplicit false

namespace DotDoc

/-- A path: its root, which is empty for a relative one, and its components. -/
structure Path where
  root : Text
  parts : List Text
  deriving DecidableEq, Repr

namespace Path

def pieces : Text → List Text
  | [] => [[]]
  | c :: rest =>
      if c = '/' then [] :: pieces rest
      else
        match pieces rest with
        | piece :: later => (c :: piece) :: later
        | [] => [[c]]

/-- The root that a text starts with: two slashes are a root of their own, and any other number
of them counts as one. -/
def rootOf : Text → Text
  | '/' :: '/' :: '/' :: _ => ['/']
  | '/' :: '/' :: _ => ['/', '/']
  | '/' :: _ => ['/']
  | _ => []

def ofText (t : Text) : Path :=
  ⟨rootOf t, (pieces t).filter fun piece => piece ≠ [] && piece ≠ ['.']⟩

/-- The path as text; a path without components is the directory itself. -/
def toText (p : Path) : Text :=
  if p.root.isEmpty && p.parts.isEmpty then ['.']
  else p.root ++ Text.joinWith ['/'] p.parts

/-- The place that one more component leads to.  The root is its own parent. -/
def follow (place : List Text) (part : Text) : List Text :=
  if part = ['.', '.'] then
    match place.getLast? with
    | none => [part]
    | some last =>
        if last = ['.', '.'] then place ++ [part]
        else if last = ['/'] then place
        else place.dropLast
  else place ++ [part]

/-- The place that a path starts from: the working directory, or the root. -/
def start (p : Path) : List Text :=
  if p.root.isEmpty then [] else [['/']]

/-- The components from the working directory, or from the root, without double dots that can be
taken back. -/
def resolve (p : Path) : List Text :=
  p.parts.foldl follow p.start

end Path
end DotDoc
