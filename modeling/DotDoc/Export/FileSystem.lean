import DotDoc.Error
import DotDoc.Export.Path

/-!
# Files

The directories and files that exist, as a value.  A file can be opened for writing when every
directory on the way to it exists and no directory has its name.  What is stored at a place
replaces what a file held there before.
-/

set_option autoImplicit false

namespace DotDoc

/-- The directories and files below the working directory, each at its resolved place. -/
structure FileSystem where
  directories : List (List Text)
  files : List (List Text × Text)

namespace FileSystem

/-- A place with all places on the way to it. -/
def placesTo : List Text → List (List Text)
  | [] => [[]]
  | part :: rest => [] :: (placesTo rest).map (part :: ·)

/-- A working directory with some directories in it, those on the way to them included, and no
files. -/
def ofDirectories (paths : List Text) : FileSystem :=
  ⟨paths.flatMap fun p => placesTo (Path.ofText p).resolve, []⟩

/-- Whether a place is a directory.  The working directory and the directories above it are. -/
def isDirectory (place : List Text) (fs : FileSystem) : Bool :=
  place.all (fun part => part = ['.', '.']) || place = [['/']] || fs.directories.contains place

def isFile (place : List Text) (fs : FileSystem) : Bool :=
  fs.files.any fun file => file.1 = place

def read? (place : List Text) (fs : FileSystem) : Option Text :=
  (fs.files.find? fun file => file.1 = place).map Prod.snd

def byteSize (t : Text) : Nat :=
  t.foldr (fun c size => c.utf8Size + size) 0

def longestName : Nat := 255

def longestPath : Nat := 4095

/-- Follows components, all of which but the last have to be directories. -/
def walk (fs : FileSystem) : List Text → List Text → Except Error (List Text)
  | place, [] =>
      if fs.isDirectory place then .error .isDirectory else .ok place
  | place, part :: rest =>
      if fs.isDirectory place then
        if longestName < byteSize part then .error .nameTooLong
        else walk fs (Path.follow place part) rest
      else if fs.isFile place then .error .notDirectory
      else .error .fileNotFound

def openForWriting (path : Path) (fs : FileSystem) : Except Error (List Text) :=
  if path.toText.contains '\x00' then .error .nulInPath
  else if longestPath < byteSize path.toText then .error .nameTooLong
  else fs.walk path.start path.parts

def store (place : List Text) (content : Text) (fs : FileSystem) : FileSystem :=
  { fs with
    files :=
      if fs.isFile place then
        fs.files.map fun file => if file.1 = place then (place, content) else file
      else fs.files ++ [(place, content)] }

end FileSystem
end DotDoc
