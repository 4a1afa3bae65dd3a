import Montage.Timeline.Reader

/-!
# Writing timelines

A timeline as a document, under the preferred spellings. The brief form holds what was written
and nothing else; the full form also holds the values of the fields that were left out.
-/
namespace Montage

/-- How much of a timeline is written. -/
inductive Detail where
  /-- only fields that were written -/
  | brief
  /-- all fields -/
  | full
deriving DecidableEq

/-- A field's member, or in full detail the value it has when left out. -/
def Detail.member {α : Type} (d : Detail) (name : String) (f : α → Json) (written : Option α)
    (standard : Json) : List (String × Json) :=
  match written, d with
  | some a, _ => [(name, f a)]
  | none, .full => [(name, standard)]
  | none, .brief => []

/-- The word that a value has in a list of words. -/
def wordFor {α : Type} [DecidableEq α] (words : List (String × α)) (a : α) : String :=
  ((words.find? fun w => w.2 = a).map (·.1)).getD ""

def Anchor.word (a : Anchor) : String := wordFor Anchor.words a

def Effect.word (e : Effect) : String := wordFor Effect.words e

/-- A text or null. -/
def nullableText (s : Option String) : Json := Json.ofOption .string s

def nullableFloat (x : Option Float) : Json := Json.ofOption .float x

def Point.toJson (d : Detail) (p : Point) : Json :=
  .object (d.member "x" .float p.x (.int 0) ++ d.member "y" .float p.y (.int 0) ++ p.extra)

def Position.toJson (d : Detail) : Position → Json
  | point p => p.toJson d
  | anchor a => .string a.word

def TextStyle.toJson (d : Detail) (s : TextStyle) : Json :=
  .object (
    d.member "fontSize" .float s.fontSize (.int 48) ++
    d.member "fontFamily" .string s.fontFamily (.string TextStyle.standard.fontFamilyValue) ++
    d.member "color" .string s.color (.string TextStyle.standard.colorValue) ++ s.extra)

def Shape.toJson (d : Detail) (s : Shape) : Json :=
  .object (
    d.member "type" .string s.form (.string Shape.standard.formValue) ++
    d.member "width" .float s.width (.int 200) ++
    d.member "height" .float s.height (.int 100) ++
    d.member "fillColor" nullableText s.fillColor (nullableText Shape.standard.fillValue) ++
    d.member "strokeColor" nullableText s.strokeColor .null ++
    d.member "strokeWidth" .float s.strokeWidth (.int 2) ++ s.extra)

def ChromaKey.toJson (d : Detail) (k : ChromaKey) : Json :=
  .object (
    d.member "color" .string k.color (.string "0x00ff00") ++
    d.member "threshold" .float k.threshold (.float 0.1) ++
    d.member "halo" .float k.halo (.float 0.1) ++ k.extra)

def Media.members (d : Detail) (m : Media) : List (String × Json) :=
  [("source", .string m.source)] ++
  d.member "originalWidth" nullableFloat m.sourceWidth .null ++
  d.member "originalHeight" nullableFloat m.sourceHeight .null ++
  d.member "filter" (Json.ofOption fun e => .string e.word) m.filter .null ++
  d.member "chromaKey" (Json.ofOption (ChromaKey.toJson d)) m.chromaKey .null

def Content.members (d : Detail) : Content → List (String × Json)
  | background color source =>
    d.member "color" nullableText color .null ++ d.member "src" nullableText source .null
  | text s style =>
    [("text", .string s)] ++
    d.member "style" (TextStyle.toJson d) style (TextStyle.standard.toJson d)
  | image m => m.members d
  | video m volume => m.members d ++ d.member "volume" .float volume (.float 1)
  | shape s => d.member "shape" (Shape.toJson d) s (Shape.standard.toJson d)

def Clip.toJson (d : Detail) (c : Clip) : Json :=
  .object (
    d.member "id" nullableText c.id .null ++
    d.member "start" .float c.start (.int 0) ++
    [("duration", .float c.duration)] ++
    d.member "position" (Json.ofOption (Position.toJson d)) c.position .null ++
    d.member "opacity" .float c.opacity (.int 100) ++
    d.member "scale" .float c.scale (.float 1) ++
    [("type", .string c.content.kind)] ++
    c.content.members d ++ c.extra)

def Track.toJson (d : Detail) (t : Track) : Json :=
  .object (
    d.member "id" nullableText t.id .null ++
    d.member "clips" (fun cs => .array (cs.map (Clip.toJson d))) t.clips (.array []) ++ t.extra)

def Resolution.toJson (d : Detail) (canvas : Canvas) (r : Resolution) : Json :=
  .object (
    d.member "width" .int r.width (.int canvas.width) ++
    d.member "height" .int r.height (.int canvas.height) ++ r.extra)

def Background.toJson (d : Detail) (b : Background) : Json :=
  .object (
    d.member "color" nullableText b.color .null ++
    d.member "src" nullableText b.source .null ++ b.extra)

def Soundtrack.toJson (d : Detail) (s : Soundtrack) : Json :=
  .object (
    [("src", .string s.source)] ++ d.member "volume" .float s.volume (.float 1) ++ s.extra)

def Timeline.toJson (d : Detail) (t : Timeline) : Json :=
  .object (
    d.member "duration" nullableFloat t.duration .null ++
    d.member "fps" .float t.frameRate (.float t.canvas.frameRate) ++
    d.member "resolution" (Resolution.toJson d t.canvas) t.resolution
      (Resolution.toJson d t.canvas ⟨none, none, []⟩) ++
    d.member "background" (Background.toJson d) t.background
      (Background.toJson d ⟨none, none, []⟩) ++
    d.member "tracks" (fun ts => .array (ts.map (Track.toJson d))) t.tracks (.array []) ++
    d.member "soundtrack" (Json.ofOption (Soundtrack.toJson d)) t.soundtrack .null ++ t.extra)

end Montage
