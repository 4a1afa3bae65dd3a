/-!
# Paths

Paths are texts with parts separated by slashes and are treated lexically: no file is looked
at. `normal` is the spelling without empty, `.` and `..` parts; two leading slashes stay two,
three or more become one. `place` also forgets that difference and is what tells files apart.
-/
namespace Montage.Path

/-- The directory that relative paths start from. -/
def workingDir : String := "/work"

def isAbsolute (p : String) : Bool := p.toList.head? == some '/'

/-- The parts between slashes, empty ones included. -/
def parts (p : String) : List String := (p.toList.splitOn '/').map String.ofList

/-- A path below a directory; an absolute path stands for itself. -/
def join (dir p : String) : String :=
  if isAbsolute p then p
  else if dir.isEmpty || dir.toList.getLast? == some '/' then dir ++ p
  else dir ++ "/" ++ p

/-- Adds one part to parts held last one first: `..` takes the last part away, but stays where
there is none in a relative path. -/
def addPart (rooted : Bool) (done : List String) (part : String) : List String :=
  if part = "" ∨ part = "." then done
  else if part ≠ ".." then part :: done
  else match done with
    | [] => if rooted then [] else [part]
    | last :: before => if last = ".." then part :: done else before

/-- How many slashes a normal path starts with. -/
def leadingSlashes (p : String) : Nat :=
  match p.toList with
  | '/' :: '/' :: '/' :: _ => 1
  | '/' :: '/' :: _ => 2
  | '/' :: _ => 1
  | _ => 0

/-- The path without empty, `.` and `..` parts. -/
def normal (p : String) : String :=
  let slashes := leadingSlashes p
  let ps := ((parts p).foldl (addPart (0 < slashes)) []).reverse
  let text := String.ofList (List.replicate slashes '/') ++ "/".intercalate ps
  if text.isEmpty then "." else text

/-- The normal path from the root. -/
def absolute (p : String) : String := normal (join workingDir p)

/-- The parts from the root down to a file or directory: equal for two spellings of one place. -/
def place (p : String) : List String :=
  ((parts (join workingDir p)).foldl (addPart true) []).reverse

/-- What stands after the last slash. -/
def baseName (p : String) : String := (parts p).getLast?.getD ""

/-- The path of a place. -/
def ofPlace (place : List String) : String := "/" ++ "/".intercalate place

end Montage.Path
