import Montage.Schema

/-!
# Issues

What is wrong, or merely doubtful, in a timeline: a path into the document and a message.
-/
namespace Montage

inductive Severity where
  | error
  | warning
deriving DecidableEq, Repr

def Severity.word : Severity → String
  | error => "error"
  | warning => "warning"

/-- A path into a timeline's document, and what is wrong there. -/
structure Issue where
  path : String
  message : String
  severity : Severity
deriving DecidableEq, Repr

namespace Issue

/-- The issue on one line. -/
def text (i : Issue) : String :=
  if i.path.isEmpty then i.message else i.path ++ ": " ++ i.message

/-- A place in a document as a path: indices in brackets, names after points. -/
def pathOf (place : List Step) : String :=
  place.foldl (fun path step =>
    match step with
    | .index i => path ++ "[" ++ toString i ++ "]"
    | .key name => if path.isEmpty then name else path ++ "." ++ name) ""

/-- A mismatch as an issue. -/
def ofMismatch (m : Mismatch) : Issue := ⟨pathOf m.place, m.message, .error⟩

end Issue
end Montage
