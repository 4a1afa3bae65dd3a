import Montage.Cli

/-!
# Files that a command looks for

A command looks only for its inputs, for fonts, and for files that texts of the timeline may
name. `candidates` lists all of these, so that whoever runs the command can find out beforehand
which of them are there.
-/
namespace Montage.Cli

mutual

/-- All texts in a document, names left out. -/
def texts : Json → List String
  | .string s => [s]
  | .array items => itemTexts items
  | .object members => memberTexts members
  | _ => []

/-- All texts in the items of an array. -/
def itemTexts : List Json → List String
  | [] => []
  | v :: vs => texts v ++ itemTexts vs

/-- All texts in the members of an object. -/
def memberTexts : List (String × Json) → List String
  | [] => []
  | (_, v) :: ms => texts v ++ memberTexts ms

end

/-- The paths that a source can mean. -/
def pathsOf (l : Library) (source : String) : List String :=
  if source.isEmpty then []
  else if Path.isAbsolute source then [source]
  else l.roots.map fun root => Path.join root source

/-- The paths that a command may look at, besides its inputs. -/
def candidates (w : Surroundings) (o : Order) : List String :=
  match inputs w o with
  | .ok (.ok (data, fields)) =>
    Font.table.map (·.2) ++
      (texts (Merge.resolveData .standard fields data)).flatMap (pathsOf (libraryFor w o))
  | _ => []

end Montage.Cli
