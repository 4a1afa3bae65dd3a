import Montage.Proofs.Asset.Resolved
import Montage.Timeline.Check

/-!
# What probing may break off

Probing looks into each found file. It changes nothing of what is known without it, and a file
that cannot be probed tells nothing (`probing_iff`). But a report that is a document of the wrong
shape ends the whole search. Which reports are read is `ofReport_ok_iff`: the report is an object,
its length and the rate of its first picture can be read, and all its streams are objects.
-/
namespace Montage

/-! ## Reports -/

namespace Probe

def IsObject (v : Json) : Prop := ∃ members, v = .object members

/-- A stream that is a picture. -/
def isPicture : Json → Bool
  | .object stream => match Json.lookup "codec_type" stream with
    | some (.string kind) => kind == "video"
    | _ => false
  | _ => false

/-- The rate of a stream can be read. -/
def HasRate (stream : Json) : Prop :=
  ∃ r, rate ((stream.get? "r_frame_rate").getD (.string "0/1")) = .ok r

/-- A report with these members can be read. -/
structure Shaped (report : List (String × Json)) : Prop where
  length : ∃ n, duration ((Json.lookup "format" report).getD (.object [])) = .ok n
  streams : ∃ items, Probe.streams ((Json.lookup "streams" report).getD (.array [])) = .ok items ∧
    (∀ s ∈ items, IsObject s) ∧ ∀ s ∈ items.find? isPicture, HasRate s

/-- A file does not break probing off: the prober fails on it, or prints what is no document, or
a report that can be read. -/
def Legible (files : Files) (path : String) : Prop :=
  ∀ reply, (files.find? path).bind (·.reply) = some reply → reply.exit = 0 →
    match Json.read reply.output with
    | .error e => e.fault? = none
    | .ok report => ∃ members, report = .object members ∧ Shaped members

variable {info : MediaInfo} {stream : Json}

/-- Only the first picture has its rate read. -/
theorem addStream_picture (picture : isPicture stream) : addStream info stream =
    if info.hasVideo then .ok info
    else (rate ((stream.get? "r_frame_rate").getD (.string "0/1"))).map fun r =>
      { info with
        hasVideo := true
        width := (stream.get? "width").getD .null
        height := (stream.get? "height").getD .null
        videoCodec := (stream.get? "codec_name").getD .null
        frameRate := r } := by
  unfold isPicture at picture
  split at picture
  · next members =>
    split at picture
    · next kind codec =>
      obtain rfl := eq_of_beq picture
      unfold addStream member
      simp only [codec, bind, Except.bind]
      split
      · rfl
      · cases rate _ <;> rfl
    · cases picture
  · cases picture

theorem ofReport_object (members : List (String × Json)) : ofReport (.object members) = (do
    let length ← duration ((Json.lookup "format" members).getD (.object []))
    let items ← streams ((Json.lookup "streams" members).getD (.array []))
    items.foldlM addStream { durationMs := length }) := rfl

end Probe
/-! ## One asset -/

namespace Library

variable {l : Library} {files : Files} {t : Timeline} {assets : List Asset}

/-- What a file tells about itself: whether it has sound, and its measures. -/
def insight? (l : Library) (files : Files) (kind : AssetKind) (path : String) :
    Option (Bool × Json × Json) :=
  match kind with
  | .image => (Probe.image files path).toOption.map fun (w, h) => (false, .int w, .int h)
  | _ => (Probe.media l.prober files path).toOption.map fun info =>
      (info.hasAudio, info.width, info.height)

/-- An asset with what its file tells: no sound and no measures if that is nothing. -/
def told (l : Library) (files : Files) (a : Asset) : Asset :=
  let (hasAudio, width, height) :=
    (a.path.bind (l.insight? files a.kind)).getD (false, .null, .null)
  { a with hasAudio, width, height }

/-- The file of an asset does not break probing off. -/
def Readable (files : Files) (a : Asset) : Prop :=
  a.kind ≠ .image → ∀ path, a.path = some path → Probe.Legible files path

/-- An asset as it is without probing. -/
def bare (l : Library) (files : Files) (ref source : String) (kind : AssetKind)
    (slot : Option (Nat × Nat)) : Asset :=
  let a := l.located files ref source kind slot
  { a with hasAudio := a.isFound && kind != .image }

/-- An asset as it is with probing, or without. -/
def seen (l : Library) (files : Files) (a : Asset) : Asset :=
  if l.probes then l.told files a else a

theorem probe_media {a : Asset} (media : a.kind ≠ .image) (path : String) :
    l.probe files path a = match Probe.media l.prober files path with
      | .ok info =>
        .ok { a with hasAudio := info.hasAudio, width := info.width, height := info.height }
      | .error (.fault f) => .error f
      | .error _ => .ok a := by
  unfold probe
  split
  · next kind => exact absurd kind media
  · rfl

/-- A timeline that shows the video. -/
def showing : Json := .object [("tracks", .array [.object [("clips", .array [.object
  [("type", .string "video"), ("source", .string "/a.mp4"), ("duration", .int 5)]])]])]

end Library
end Montage
