import Montage.Json
import Montage.Settings

/-!
# Timelines

A timeline is a list of tracks, a track a list of clips; later ones are drawn on top. A field
that was not written is `none` and has the value that its accessor says. Members that no field
is read from are kept as they are, so that a timeline can be written again without loss.
-/
namespace Montage

/-- The named places of a picture inside another. -/
inductive Anchor where
  | center
  | top
  | bottom
  | left
  | right
  | topLeft
  | topRight
  | bottomLeft
  | bottomRight
deriving DecidableEq, Repr

/-- The colour effects of images and videos. -/
inductive Effect where
  | grayscale
  | greyscale
  | sepia
  | blur
deriving DecidableEq, Repr

/-- Members that belong to no field. -/
abbrev Extra := List (String × Json)

/-- A point by its coordinates. -/
structure Point where
  x : Option Float
  y : Option Float
  extra : Extra

/-- Where a clip is put: at a point or at an anchor. -/
inductive Position where
  | point (p : Point)
  | anchor (a : Anchor)

structure TextStyle where
  fontSize : Option Float
  fontFamily : Option String
  color : Option String
  extra : Extra

structure Shape where
  form : Option String
  width : Option Float
  height : Option Float
  fillColor : Option (Option String)
  strokeColor : Option (Option String)
  strokeWidth : Option Float
  extra : Extra

/-- The colour that is cut out of an image or a video. -/
structure ChromaKey where
  color : Option String
  threshold : Option Float
  halo : Option Float
  extra : Extra

/-- What images and videos share. -/
structure Media where
  source : String
  sourceWidth : Option (Option Float)
  sourceHeight : Option (Option Float)
  filter : Option (Option Effect)
  chromaKey : Option (Option ChromaKey)

/-- What a clip shows. -/
inductive Content where
  | background (color source : Option (Option String))
  | text (text : String) (style : Option TextStyle)
  | image (media : Media)
  | video (media : Media) (volume : Option Float)
  | shape (shape : Option Shape)

/-- A piece of content with its time, place and looks. -/
structure Clip where
  id : Option (Option String)
  start : Option Float
  duration : Float
  position : Option (Option Position)
  opacity : Option Float
  scale : Option Float
  content : Content
  extra : Extra

structure Track where
  id : Option (Option String)
  clips : Option (List Clip)
  extra : Extra

structure Resolution where
  width : Option Int
  height : Option Int
  extra : Extra

/-- What lies behind all tracks. -/
structure Background where
  color : Option (Option String)
  source : Option (Option String)
  extra : Extra

/-- The sound under the whole timeline. -/
structure Soundtrack where
  source : String
  volume : Option Float
  extra : Extra

/-- The measures of a picture whose timeline does not give them. -/
structure Canvas where
  width : Int
  height : Int
  frameRate : Float
deriving DecidableEq

structure Timeline where
  duration : Option (Option Float)
  frameRate : Option Float
  resolution : Option Resolution
  background : Option Background
  tracks : Option (List Track)
  soundtrack : Option (Option Soundtrack)
  extra : Extra
  /-- the measures that were in force when the timeline was read -/
  canvas : Canvas

/-- The measures that the settings give. -/
def Settings.canvas (s : Settings) : Canvas := ⟨s.width, s.height, s.frameRate⟩

namespace Point

def xValue (p : Point) : Float := p.x.getD 0
def yValue (p : Point) : Float := p.y.getD 0

end Point

namespace TextStyle

def standard : TextStyle := ⟨none, none, none, []⟩
def fontSizeValue (s : TextStyle) : Float := s.fontSize.getD 48
def fontFamilyValue (s : TextStyle) : String := s.fontFamily.getD "Arial"
def colorValue (s : TextStyle) : String := s.color.getD "#ffffff"

end TextStyle

namespace Shape

def standard : Shape := ⟨none, none, none, none, none, none, []⟩
def formValue (s : Shape) : String := s.form.getD "rectangle"
def widthValue (s : Shape) : Float := s.width.getD 200
def heightValue (s : Shape) : Float := s.height.getD 100
def fillValue (s : Shape) : Option String := s.fillColor.getD (some "#ff0000")
def strokeValue (s : Shape) : Option String := s.strokeColor.getD none
def strokeWidthValue (s : Shape) : Float := s.strokeWidth.getD 2

end Shape

namespace ChromaKey

def colorValue (k : ChromaKey) : String := k.color.getD "0x00ff00"
def thresholdValue (k : ChromaKey) : Float := k.threshold.getD 0.1
def haloValue (k : ChromaKey) : Float := k.halo.getD 0.1

end ChromaKey

namespace Content

/-- The word for a kind of content. -/
def kind : Content → String
  | background .. => "background"
  | text .. => "text"
  | image .. => "image"
  | video .. => "video"
  | shape .. => "shape"

/-- What an image or a video shows. -/
def media? : Content → Option Media
  | image m => some m
  | video m _ => some m
  | _ => none

end Content

namespace Clip

def startValue (c : Clip) : Float := c.start.getD 0
def opacityValue (c : Clip) : Float := c.opacity.getD 100
def scaleValue (c : Clip) : Float := c.scale.getD 1

/-- The second at which the clip ends. -/
def endValue (c : Clip) : Float := c.startValue + c.duration

/-- A name for the clip: its id, or the place it has in the timeline. -/
def ref (track index : Nat) (c : Option Clip) : String :=
  let place := "tracks[" ++ toString track ++ "].clips[" ++ toString index ++ "]"
  match c with
  | some { id := some (some id), .. } => if id.isEmpty then place else id
  | _ => place

end Clip

/-- The clips of a track. -/
def Track.clipList (t : Track) : List Clip := t.clips.getD []

namespace Timeline

def trackList (t : Timeline) : List Track := t.tracks.getD []

/-- The clips with the indices of their track and of their place in it, in drawing order. -/
def slots (t : Timeline) : List ((Nat × Nat) × Clip) :=
  t.trackList.zipIdx.flatMap fun (track, i) => track.clipList.zipIdx.map fun (c, j) => ((i, j), c)

def clips (t : Timeline) : List Clip := t.trackList.flatMap Track.clipList

/-- The slots hold the clips, in their order. -/
theorem map_slots (t : Timeline) : t.slots.map (·.2) = t.clips := by
  have h (i : Nat) (ts : List Track) :
      ((ts.zipIdx i).flatMap fun (track, i) =>
        track.clipList.zipIdx.map fun (c, j) => ((i, j), c)).map (·.2) =
        ts.flatMap Track.clipList := by
    induction ts generalizing i with
    | nil => rfl
    | cons track rest ih =>
      simp only [List.zipIdx_cons, List.flatMap_cons, List.map_append, ih, List.map_map]
      congr 1
      exact List.zipIdx_map_fst 0 track.clipList
  exact h 0 t.trackList

def frameRateValue (t : Timeline) : Float := t.frameRate.getD t.canvas.frameRate

def width (t : Timeline) : Int := (t.resolution.bind (·.width)).getD t.canvas.width

def height (t : Timeline) : Int := (t.resolution.bind (·.height)).getD t.canvas.height

def backgroundColor (t : Timeline) : Option String := (t.background.bind (·.color)).join

def backgroundSource (t : Timeline) : Option String := (t.background.bind (·.source)).join

/-- The greatest of some numbers, the first of equal ones; nothing is greater than what is not a
number. -/
def greatest (first : Float) (rest : List Float) : Float :=
  rest.foldl (fun best x => if best < x then x else best) first

/-- The second at which the last clip ends, zero without clips. -/
def contentEnd (t : Timeline) : Float :=
  match t.clips.map Clip.endValue with
  | [] => 0
  | e :: es => greatest e es

/-- The least length of a timeline that follows its clips. -/
def leastDuration : Number := .float 10

/-- The given duration unless it is zero, otherwise the end of the content, at least `floor`. -/
def effectiveDuration (t : Timeline) (floor : Number) : Number :=
  let content := (Number.float t.contentEnd).max floor
  match t.duration.join with
  | some d => if d == 0 then content else .float d
  | none => content

end Timeline
end Montage
