import Montage.Number

/-!
# Filter graphs

A filter takes streams in by their labels and gives one stream out. A node is a filter with the
smaller nodes that prepare its inputs; a graph is a list of nodes. `Node.flatten` gives the
filters of a node in the order in which the encoder is told of them: all that prepares a filter
comes before it.
-/
namespace Montage

/-- What flows through a filter. -/
inductive Medium where
  | video
  | audio
deriving DecidableEq, Repr

def Medium.word : Medium → String
  | video => "video"
  | audio => "audio"

/-- The value of a filter's option. -/
inductive OptionValue where
  | text (s : String)
  | number (n : Number)
  | flag (b : Bool)
deriving DecidableEq

/-- A whole number as the value of an option. -/
def OptionValue.int (n : Int) : OptionValue := .number (.int n)

/-- One filter: what it does, with which options, on which streams. -/
structure Filter where
  operation : String
  options : List (String × OptionValue)
  inputs : List String
  output : String
  media : Medium
  /-- the clip that the filter is there for -/
  ref : Option String

/-- A filter after the nodes that prepare its inputs. -/
inductive Node where
  | mk (filter : Filter) (prelude : List Node)

instance : Inhabited Node := ⟨.mk ⟨"", [], [], "", .video, none⟩ []⟩

/-- A list of nodes, in the order of their filters. -/
abbrev Graph := List Node

namespace Node

def filter : Node → Filter
  | mk f _ => f

def prelude : Node → List Node
  | mk _ ps => ps

/-- A node of one filter. -/
def single (f : Filter) : Node := mk f []

/-- The node with another label on its stream. -/
def relabel (label : String) : Node → Node
  | mk f ps => mk { f with output := label } ps

mutual

/-- The filters of a node, each after those that prepare its inputs. -/
def flatten : Node → List Filter
  | mk f ps => flattenAll ps ++ [f]

/-- The filters of several nodes in turn. -/
def flattenAll : List Node → List Filter
  | [] => []
  | n :: ns => flatten n ++ flattenAll ns

end

theorem flattenAll_eq_flatMap (ns : List Node) : flattenAll ns = ns.flatMap flatten := by
  induction ns with
  | nil => simp [flattenAll]
  | cons n ns ih => simp [flattenAll, ih]

theorem flatten_eq (n : Node) : n.flatten = n.prelude.flatMap flatten ++ [n.filter] := by
  cases n with
  | mk f ps => simp [flatten, prelude, filter, flattenAll_eq_flatMap]

end Node

/-- All filters of a graph. -/
def Graph.filters (g : Graph) : List Filter := List.flatMap Node.flatten g

end Montage
