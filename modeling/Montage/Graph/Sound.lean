import Montage.Asset
import Montage.Graph.Label
import Montage.Number.Compact

/-!
# Mixing sound

The sound of a timeline is the mix of all that can be heard: the videos with sound and the
soundtrack, each cut to its length, made louder or softer, and moved to its start. Without any
of them it is silence.
-/
namespace Montage.Graph

/-- Something that can be heard. -/
structure Voice where
  asset : Asset
  start : Float
  /-- the length, as it is written -/
  length : String
  volume : Float

/-- The videos with sound, in order. -/
def videoVoices (t : Timeline) (assetAt : Nat × Nat → Option Asset) : List Voice :=
  t.slots.filterMap fun (slot, c) =>
    match c.content, assetAt slot with
    | .video _ volume, some a =>
      if a.isFound && a.hasAudio then
        some ⟨a, c.startValue, Number.compactFloat c.duration, volume.getD 1⟩
      else none
    | _, _ => none

/-- The soundtrack, if there is one and its file is there. -/
def trackVoice (t : Timeline) (soundtrack : Option Asset) (total : String) : Option Voice :=
  match t.soundtrack.join, soundtrack with
  | some s, some a => if a.isFound then some ⟨a, 0, total, s.volume.getD 1⟩ else none
  | _, _ => none

/-- The number of an input in a label. -/
def inputText : Option Int → String
  | some n => toString n
  | none => "None"

/-- The chain in front of a voice's delay. -/
def voiceLinks (v : Voice) : List Link :=
  [⟨"atrim", [("start", .int 0), ("duration", .text v.length)], "atrim"⟩,
    ⟨"asetpts", [("expr", .text "PTS-STARTPTS")], "apts"⟩] ++
  (if v.volume != 1 then
    [⟨"volume", [("volume", .text (Number.compactFloat v.volume))], "avol"⟩]
  else [])

/-- The node of a voice: its chain, and the delay to its start. -/
def voiceNode (v : Voice) : Build Node := do
  let ref := some v.asset.ref
  let (prelude, layer) ← chain .audio ref (inputText v.asset.inputIndex ++ ":a") (voiceLinks v)
  let delay ← attempt (Number.nearestInt (v.start * 1000))
  let label ← fresh "a"
  return .mk ⟨"adelay", [("delays", .text (toString delay)), ("all", .int 1)], [layer], label,
    .audio, ref⟩ prelude

/-- The label of the mixed sound. -/
def soundLabel : String := "aout"

/-- The nodes of a silent sound. -/
def silence (sampleRate : Number) (total : String) : Build (List Node) := do
  let label ← fresh "silence"
  let source : Node := .single ⟨"anullsrc",
    [("channel_layout", .text "stereo"), ("sample_rate", .number sampleRate)], [], label, .audio,
    none⟩
  return [.mk ⟨"atrim", [("duration", .text total)], [label], soundLabel, .audio, none⟩ [source]]

/-- The nodes of the mix of some voices. -/
def mix (voices : List Voice) (total : String) : Build (List Node) := do
  let nodes ← voices.mapM voiceNode
  let inputs := nodes.map (·.filter.output)
  let mixed ← fresh "amix"
  return nodes ++ [
    .single ⟨"amix", [("inputs", .int inputs.length), ("duration", .text "longest"),
      ("dropout_transition", .int 0)], inputs, mixed, .audio, none⟩,
    .single ⟨"apad", [("whole_dur", .text total)], [mixed], soundLabel, .audio, none⟩]

/-- The nodes of a timeline's sound. -/
def soundNodes (t : Timeline) (assetAt : Nat × Nat → Option Asset) (soundtrack : Option Asset)
    (total : String) (sampleRate : Number) : Build (List Node) :=
  match videoVoices t assetAt ++ (trackVoice t soundtrack total).toList with
  | [] => silence sampleRate total
  | voices => mix voices total

end Montage.Graph
