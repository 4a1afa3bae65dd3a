import Montage.Fault
import Montage.Path

/-!
# Files

The files and directories that the program can see. Files are told apart by their place, so two
spellings of one path name one file. A file does not need its directory to be there.
-/
namespace Montage

/-- What running the prober on a file gives. -/
structure ProberReply where
  output : String
  exit : Int
  messages : String

/-- One file. -/
structure StoredFile where
  size : Int := 0
  content : List UInt8 := []
  /-- a locked file cannot be deleted -/
  isLocked : Bool := false
  /-- the measures, if the file is an image -/
  image : Option (Int × Int) := none
  /-- absent if the prober does not start -/
  reply : Option ProberReply := none

/-- The parts of a path from the root. -/
abbrev Place := List String

/-- All files and directories. -/
structure Files where
  entries : List (Place × StoredFile)
  directories : List Place

namespace Files

def empty : Files := ⟨[], []⟩

/-- The file at a place. -/
def at? (fs : Files) (place : Place) : Option StoredFile :=
  (fs.entries.find? fun e => e.1 == place).map (·.2)

/-- Puts a file at a place, in the stead of the one that is there. -/
def put (fs : Files) (place : Place) (file : StoredFile) : Files :=
  { fs with entries := fs.entries.filter (·.1 != place) ++ [(place, file)] }

/-- Takes the file at a place away. -/
def remove (fs : Files) (place : Place) : Files :=
  { fs with entries := fs.entries.filter (·.1 != place) }

/-- Without the entries of one place, those of another are found all the same. -/
theorem find?_filter_ne (entries : List (Place × StoredFile)) {p q : Place} (h : q ≠ p) :
    (entries.filter (·.1 != p)).find? (·.1 == q) = entries.find? (·.1 == q) := by
  rw [List.find?_filter]
  congr 1
  funext e
  by_cases he : e.1 = q <;> simp [he, h]

theorem at?_put (fs : Files) (p q : Place) (file : StoredFile) :
    (fs.put p file).at? q = if q = p then some file else fs.at? q := by
  by_cases h : q = p
  · subst h
    have none : (fs.entries.filter (·.1 != q)).find? (·.1 == q) = none := by
      simp [List.find?_eq_none, -List.find?_filter]
    simp [at?, put, none, -List.find?_filter]
  · simp [at?, put, find?_filter_ne _ h, h, Ne.symm h]

theorem at?_remove (fs : Files) (p q : Place) :
    (fs.remove p).at? q = if q = p then none else fs.at? q := by
  by_cases h : q = p
  · subst h
    simp [at?, remove, List.find?_eq_none]
  · simp [at?, remove, find?_filter_ne _ h, h]

/-- The file that a path names. A path that ends in a slash names none. -/
def find? (fs : Files) (path : String) : Option StoredFile :=
  if path.toList.getLast? == some '/' then none else fs.at? (Path.place path)

def isFile (fs : Files) (path : String) : Bool := (fs.find? path).isSome

def isDirectory (fs : Files) (path : String) : Bool :=
  (Path.place path).isEmpty || fs.directories.contains (Path.place path)

/-- The places from below the root down to a place. -/
def lineage (place : Place) : List Place :=
  (List.range place.length).map fun n => place.take (n + 1)

/-- Adds a directory and those that it lies in. -/
def addDirectory (fs : Files) (place : Place) : Files :=
  let missing := (lineage place).filter (!fs.directories.contains ·)
  { fs with directories := fs.directories ++ missing }

theorem at?_addDirectory (fs : Files) (p q : Place) : (fs.addDirectory p).at? q = fs.at? q := rfl

/-- Makes sure that a path names a directory. -/
def makeDirectory (fs : Files) (path : String) : Except Fault Files :=
  if (fs.at? (Path.place path)).isSome then .error (.fileExists path)
  else .ok (fs.addDirectory (Path.place path))

/-- The paths of all files, in order. -/
def filePaths (fs : Files) : List String :=
  (fs.entries.map fun e => Path.ofPlace e.1).mergeSort

/-- The paths of all directories, in order. -/
def directoryPaths (fs : Files) : List String :=
  (fs.directories.map Path.ofPlace).mergeSort

/-- The paths of the files below a directory, in order. -/
def pathsBelow (fs : Files) (dir : String) : List String :=
  let place := Path.place dir
  ((fs.entries.filter fun e => place.isPrefixOf e.1 && place.length < e.1.length).map fun e =>
    Path.ofPlace e.1).mergeSort

end Files
end Montage
