import Montage.Graph
import Montage.Json

/-!
# Encoder commands

Everything that one run of the encoder is told: its inputs, the filter graph, the measures of
the result and the parameters of the encoding.
-/
namespace Montage

/-- A file or source that the encoder reads, with the options in front of it. -/
structure Input where
  path : String
  options : List String
  ref : Option String
deriving DecidableEq

/-- The parameters of the encoding by name; one that is left out has its standard value. -/
abbrev Parameters := List (String × Json)

/-- One run of the encoder. -/
structure Command where
  inputs : List Input
  graph : Graph
  outputPath : String
  duration : Number
  width : Int
  height : Int
  frameRate : Number
  format : String := "mp4"
  videoLabel : String := "final"
  audioLabel : String := "aout"
  parameters : Parameters := []
  warnings : List String := []

namespace Command

def videoNodes (c : Command) : Graph := c.graph.filter (·.filter.media == .video)

def audioNodes (c : Command) : Graph := c.graph.filter (·.filter.media == .audio)

/-- The nodes that are there for a clip. -/
def nodesFor (c : Command) (ref : String) : Graph :=
  c.graph.filter (·.filter.ref == some ref)

end Command
end Montage
