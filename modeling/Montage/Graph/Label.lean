import Montage.Failure
import Montage.Graph

/-!
# Fresh labels

While a graph is built, each stream inside it gets a label that no other one has: a stem and how
many labels of that stem there are by now.
-/
namespace Montage.Graph

/-- The stems of the labels that are in use, the newest first. -/
abbrev Labels := List String

/-- Building a part of a graph: labels are used up, and it may fail. -/
abbrev Build := StateT Labels (Except Failure)

/-- The next label of a stem. -/
def fresh (stem : String) : Build String := fun ls =>
  .ok (stem ++ toString (ls.count stem + 1), stem :: ls)

/-- A computation without labels. -/
def attempt {α : Type} (x : Except Fault α) : Build α := fun ls =>
  match x with
  | .ok a => .ok (a, ls)
  | .error f => .error (.fault f)

/-- A filter in a chain, before it has labels. -/
structure Link where
  operation : String
  options : List (String × OptionValue)
  /-- the stem of its label -/
  stem : String

/-- A chain of filters from a stream on: the nodes, and the label of the last stream. -/
def chain (media : Medium) (ref : Option String) (layer : String) :
    List Link → Build (List Node × String)
  | [] => return ([], layer)
  | l :: rest => do
    let label ← fresh l.stem
    let (nodes, last) ← chain media ref label rest
    return (.single ⟨l.operation, l.options, [layer], label, media, ref⟩ :: nodes, last)

end Montage.Graph
