import Montage.Files
import Montage.Text.Case

/-!
# Sweeping output directories

What earlier runs left in an output directory is deleted the first time the directory is used,
and only then: later jobs never delete each other's files. A directory is known by its absolute
path.
-/
namespace Montage

/-- Which directories have been swept, and of which files. -/
structure Sweeper where
  extensions : List String
  swept : List String

namespace Sweeper

/-- A sweeper that has not done anything. -/
def fresh (extensions : List String) : Sweeper := ⟨extensions.map Text.lower, []⟩

/-- Whether a file is one of those that are deleted. -/
def takes (s : Sweeper) (name : String) : Bool :=
  s.extensions.any fun e => (Text.lower name).endsWith e

/-- The files of a directory that are deleted. -/
def targets (s : Sweeper) (files : Files) (dir : Place) : List Place :=
  files.entries.filterMap fun (place, file) =>
    if place.dropLast == dir && !place.isEmpty && !file.isLocked && s.takes (place.getLast?.getD "")
    then some place else none

/-- Makes a directory and sweeps it, unless that has been done. Gives the number of deleted
files. -/
def prepare (s : Sweeper) (files : Files) (directory : String) :
    Except Fault (Sweeper × Files × Nat) := do
  let path := Path.absolute directory
  let files ← files.makeDirectory path
  if s.swept.contains path then return (s, files, 0)
  let gone := s.targets files (Path.place path)
  return ({ s with swept := path :: s.swept }, gone.foldl Files.remove files, gone.length)

/-- Whether a directory has been swept. -/
def hasSwept (s : Sweeper) (directory : String) : Bool :=
  s.swept.contains (Path.absolute directory)

end Sweeper
end Montage
