import DotDoc.Action
import DotDoc.Export.Encoding
import DotDoc.Export.FileSystem
import DotDoc.Export.Format
import DotDoc.Graph.Document

/-!
# Writing, compiling and showing a graph

`writeDocument` writes the document of a graph to a source file.  `compile` then hands the file to
the renderer, and `display` opens the result in a viewer.  The renderer and the viewer are outside:
the commands that they get are recorded, and how they end is an input.

The format is checked before anything is written, and the document is ready before the file is
opened.  Opening a file empties it, and only then the document is encoded.  When the renderer fails
the source file stays.
-/

set_option autoImplicit false

namespace DotDoc

inductive Command where
  | render (format : String) (source output : Text)
  | view (path : Text)
  deriving DecidableEq, Repr

/-- The files, and the commands that were given so far. -/
structure Surroundings where
  files : FileSystem
  commands : List Command

namespace Surroundings

open DotDoc.Action (ask)

/-- The place of a path, with an empty file there. -/
def openFile (path : Path) : ActionOn Surroundings (List Text) := do
  let place ← ask fun s => s.files.openForWriting path
  modify fun s => { s with files := s.files.store place [] }
  return place

def fillFile (place : List Text) (content : Text) : ActionOn Surroundings Unit :=
  modify fun s => { s with files := s.files.store place content }

/-- Gives a command to a program that ends as it is told. -/
def call (command : Command) (ending : Except Error Unit) : ActionOn Surroundings Unit := do
  modify fun s => { s with commands := s.commands ++ [command] }
  ending

end Surroundings

/-- A job, with how the renderer and the viewer end in it. -/
inductive Job where
  | write (filename : Value)
  | compile (filename format : Value) (rendering : Except Error Unit)
  | display (filename format : Value) (rendering viewing : Except Error Unit)

/-- The result of a job: the path of its file or the reason of its refusal, the commands it gave,
and the files after it. -/
structure Report where
  result : Except Error Text
  commands : List Command
  files : FileSystem

/-- The document of a graph as a sequence of code points. -/
def Graph.codePoints? (g : Graph) : Except Error (List CodePoint) :=
  g.document?.map CodePoint.ofText

namespace Job

open Surroundings (openFile fillFile call)

def pathOf (filename : Value) (extension : String) : Except Error Path :=
  match filename with
  | .str s => .ok (Path.ofText (s.toList ++ '.' :: extension.toList))
  | .bytes b => .ok (Path.ofText ((Value.bytes b).literal ++ '.' :: extension.toList))
  | _ => .error .wrongType

section
variable (r : Renderer) (document : Except Error (List CodePoint))

def writeDocument (filename : Value) : ActionOn Surroundings Path := do
  let path ← pathOf filename sourceFormat
  let document ← document
  let place ← openFile path
  let content ← CodePoint.encode document
  fillFile place content
  return path

def compileTo (filename format : Value) (rendering : Except Error Unit) :
    ActionOn Surroundings Path := do
  let format ← r.formatNamed format
  let source ← writeDocument document filename
  let output ← pathOf filename format
  call (.render format source.toText output.toText) rendering
  return output

def displayAs (filename format : Value) (rendering viewing : Except Error Unit) :
    ActionOn Surroundings Path := do
  let output ← compileTo r document filename format rendering
  call (.view output.toText) viewing
  return output

def action : Job → ActionOn Surroundings Path
  | write filename => writeDocument document filename
  | compile filename format rendering => compileTo r document filename format rendering
  | display filename format rendering viewing =>
      displayAs r document filename format rendering viewing

def run (job : Job) (files : FileSystem) : Report :=
  let (result, after) := job.action r document ⟨files, []⟩
  ⟨result.map Path.toText, after.commands, after.files⟩

end

/-- Jobs one after the other, each with the document of a graph of its own. -/
def runAll (r : Renderer) : List (Except Error (List CodePoint) × Job) → FileSystem → List Report
  | [], _ => []
  | (document, job) :: rest, files =>
      let report := job.run r document files
      report :: runAll r rest report.files

end Job
end DotDoc
