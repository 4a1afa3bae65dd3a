import Montage.Command
import Montage.Graph.Picture
import Montage.Graph.Sound
import Montage.Output

/-!
# Compiling timelines

A timeline and its assets become one command of the encoder. The picture starts from input 0, a
plain colour or the background, and the clips are drawn onto it in the order of the tracks and
of the clips in them; what comes later lies on top. The last picture is called `final`. Clips
whose file is not there are left out and leave a warning.
-/
namespace Montage

/-- What compiling takes from outside the timeline. -/
structure Compiler where
  minDuration : Number
  sampleRate : Number
  settings : Settings

namespace Compiler

/-- A compiler by the settings; a least duration and a sample rate that are given go before
theirs. -/
def make (s : Settings) (minDuration sampleRate : Option Number) : Compiler where
  minDuration := minDuration.getD (.float s.minDuration)
  sampleRate := match sampleRate with
    | some r => if r.isZero then .int s.audioSampleRate else r
    | none => .int s.audioSampleRate
  settings := s

/-- The picture of input 0. -/
def baseLabel : String := "0:v"

/-- The label of the finished picture. -/
def finalLabel : String := "final"

/-- The warning about an asset that is not there. -/
def missing (source ref : String) : String := (Failure.assetMissing source (some ref)).message

/-- The colour behind everything: the background's, otherwise that of the last background clip
with one, otherwise black. -/
def baseColor (t : Timeline) : String :=
  match filled? t.backgroundColor with
  | some color => color
  | none =>
    let colors := t.clips.filterMap fun c =>
      match c.content with
      | .background color _ => filled? color.join
      | _ => none
    colors.getLast?.getD "black"

/-- The options of a background's input: it goes on as long as it is needed. -/
def backgroundOptions (a : Asset) : List String :=
  if a.kind == .image then ["-loop", "1"] else ["-stream_loop", "-1"]

/-- The options of a clip's input. -/
def inputOptions (a : Asset) : List String := if a.kind == .image then ["-loop", "1"] else []

/-- A picture and what has been drawn on it so far. -/
structure Picture where
  current : String
  nodes : List Node
  warnings : List String

/-- The input of a plain colour. -/
def colorInput (t : Timeline) (duration : Number) : Except Fault Input := do
  let length ← duration.compact
  return {
    path := "color=c=" ++ baseColor t ++ ":s=" ++ toString t.width ++ "x" ++ toString t.height ++
      ":r=" ++ Number.compactFloat t.frameRateValue ++ ":d=" ++ length
    options := ["-f", "lavfi"]
    ref := none }

/-- Input 0 and the picture that it gives. -/
def base (t : Timeline) (background : Option Asset) (duration : Number) :
    Graph.Build (Input × Picture) := do
  match background.bind fun a => a.path.map fun p => (a, p) with
  | some (a, path) =>
    let label ← Graph.fresh "bg"
    let scale : Node := .single ⟨"scale", [("w", .int t.width), ("h", .int t.height)],
      [baseLabel], label, .video, some a.ref⟩
    return (⟨path, backgroundOptions a, some a.ref⟩, ⟨label, [scale], []⟩)
  | none =>
    let warnings := (background.map fun a => missing a.source a.ref).toList
    let input ← Graph.attempt (colorInput t duration)
    return (input, ⟨baseLabel, [], warnings⟩)

/-- The failure of an asset whose number is not its place among the inputs. -/
def misnumbered (a : Asset) (expected : Nat) : Failure :=
  .compile { message := some ("Asset " ++ a.ref ++ " registered as input " ++
    Graph.inputText a.inputIndex ++ ", expected " ++ toString expected) }

/-- The inputs of found assets, the first of which has the given number. -/
def inputsFrom : (expected : Nat) → List (Asset × String) → Except Failure (List Input)
  | _, [] => .ok []
  | n, (a, path) :: rest =>
    if a.inputIndex = some (n : Int) then do
      let inputs ← inputsFrom (n + 1) rest
      return ⟨path, inputOptions a, some a.ref⟩ :: inputs
    else .error (misnumbered a n)

/-- Each asset gives one input. -/
theorem length_inputsFrom {n : Nat} {found : List (Asset × String)} {inputs : List Input}
    (h : inputsFrom n found = .ok inputs) : inputs.length = found.length := by
  induction found generalizing n inputs with
  | nil => cases h; rfl
  | cons a rest ih =>
    simp only [inputsFrom] at h
    split at h
    · cases hr : inputsFrom (n + 1) rest with
      | error f => simp [hr, bind, Except.bind] at h
      | ok is =>
        simp only [hr, bind, Except.bind, pure, Except.pure, Except.ok.injEq] at h
        subst h; simp [ih hr]
    · cases h

/-- The assets with a file, in the order of their numbers. -/
def found (assets : List Asset) : List (Asset × String) :=
  (assets.filterMap fun a => a.path.map fun p => (a, p)).mergeSort fun a b =>
    a.1.inputIndex.getD 0 ≤ b.1.inputIndex.getD 0

/-- The asset of a slot, the last one if there are several. -/
def assetAt (assets : List Asset) (slot : Nat × Nat) : Option Asset :=
  assets.reverse.find? fun a => a.slot == some slot

/-- Draws a node that is given the picture and the label of the next one. -/
def draw (v : Picture) (node : String → String → Graph.Build Node) (output : String) :
    Graph.Build Picture := do
  let n ← node v.current output
  return { v with current := output, nodes := v.nodes ++ [n] }

/-- Draws one clip. Background clips have gone into the base colour; each other clip uses up a
label, also one that is left out. -/
def drawClip (t : Timeline) (files : Files) (assets : List Asset) (v : Picture)
    (item : (Nat × Nat) × Clip) : Graph.Build Picture := do
  let (slot, c) := item
  let ref := Clip.ref slot.1 slot.2 (some c)
  let media (m : Media) (isVideo : Bool) (output : String) : Graph.Build Picture :=
    match assetAt assets slot with
    | some a =>
      if a.isFound then
        draw v (fun current output => Graph.mediaNode c ref m isVideo a current output) output
      else return { v with warnings := v.warnings ++ [missing m.source ref] }
    | none => return { v with warnings := v.warnings ++ [missing m.source ref] }
  match c.content with
  | .background .. => return v
  | .text text style =>
    let output ← Graph.fresh "stream"
    draw v (fun current output => Graph.textNode files c ref text (style.getD .standard)
      t.width t.height current output) output
  | .image m =>
    let output ← Graph.fresh "stream"
    media m false output
  | .video m _ =>
    let output ← Graph.fresh "stream"
    media m true output
  | .shape s =>
    let output ← Graph.fresh "stream"
    draw v (fun current output => Graph.shapeNode c ref (s.getD .standard) current output) output

/-- The nodes with the last one's stream called `final`; without nodes, one that passes the
picture on. -/
def finish (v : Picture) : List Node :=
  match v.nodes.getLast? with
  | some last => v.nodes.dropLast ++ [last.relabel finalLabel]
  | none => [.single ⟨"null", [], [v.current], finalLabel, .video, none⟩]

/-- The parameters of the encoding. -/
def parameters (k : Compiler) (output : OutputOptions) : Parameters := [
  ("video_codec", .string output.format.videoCodec),
  ("audio_codec", .string output.format.audioCodec),
  ("crf", .int output.quality.rateFactor),
  ("preset", .string k.settings.preset),
  ("pix_fmt", .string k.settings.pixelFormat),
  ("audio_bitrate", .string k.settings.audioBitrate),
  ("audio_sample_rate", .number k.sampleRate)]

/-- The steps of compiling, from fresh labels on. -/
def build (k : Compiler) (files : Files) (t : Timeline) (assets : List Asset)
    (outputPath : String) (output : OutputOptions) (background : Option Asset) :
    Graph.Build Command := do
  let duration := t.effectiveDuration k.minDuration
  let (baseInput, start) ← base t background duration
  let inputs ← (inputsFrom 1 (found assets) : Except Failure (List Input))
  let picture ← t.slots.foldlM (drawClip t files assets) start
  let total ← Graph.attempt duration.compact
  let sound ← Graph.soundNodes t (assetAt assets) (assets.find? (·.isSoundtrack)) total
    k.sampleRate
  return {
    inputs := baseInput :: inputs
    graph := finish picture ++ sound
    outputPath := outputPath
    duration := duration
    width := t.width
    height := t.height
    frameRate := .float t.frameRateValue
    format := output.format.word
    parameters := k.parameters output
    warnings := picture.warnings }

/-- The command of a timeline. -/
def compile (k : Compiler) (files : Files) (t : Timeline) (assets : List Asset)
    (outputPath : String) (output : OutputOptions) (background : Option Asset) :
    Except Failure Command :=
  ((k.build files t assets outputPath output background).run []).map (·.1)

end Compiler
end Montage
