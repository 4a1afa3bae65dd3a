import Montage.Probe
import Montage.Timeline.Basic

/-!
# Assets

The files that a timeline refers to. An absolute source is taken as it is, a relative one is
looked for in the asset directory and some directories below it, in a fixed order. A source
without a file is an asset all the same, one that is not found. The found ones are numbered as
inputs of the encoder: the background is input 0, then come the clips in order and last the
soundtrack.
-/
namespace Montage

inductive AssetKind where
  | image
  | video
  | audio
deriving DecidableEq, Repr

def AssetKind.word : AssetKind → String
  | image => "image"
  | video => "video"
  | audio => "audio"

/-- A source and the file found for it. -/
structure Asset where
  ref : String
  source : String
  path : Option String
  kind : AssetKind
  inputIndex : Option Int := none
  hasAudio : Bool := false
  width : Json := .null
  height : Json := .null
  /-- the indices of the track and the clip; none for the soundtrack and the background -/
  slot : Option (Nat × Nat) := none

namespace Asset

def isFound (a : Asset) : Bool := a.path.isSome

def isSoundtrack (a : Asset) : Bool := a.slot.isNone && a.kind == .audio

end Asset

/-- Where assets are looked for, and whether found files are probed. -/
structure Library where
  /-- the asset directory as an absolute path -/
  directory : String
  prober : String
  probes : Bool

namespace Library

/-- A library by the settings; a directory that is given goes before theirs. -/
def make (s : Settings) (directory : Option String) (probes : Option Bool) : Library where
  directory := Path.absolute
    (match directory with
    | some d => if d.isEmpty then s.assetsDir else d
    | none => s.assetsDir)
  prober := s.proberPath
  probes := probes.getD s.probeMedia

/-- The directories in which a relative source is looked for, in order. -/
def roots (l : Library) : List String :=
  l.directory :: ["images", "videos", "unsplash/images", "unsplash/videos"].map
    (Path.join l.directory)

/-- The path of the first file that a source can mean. -/
def find? (l : Library) (files : Files) (source : String) : Option String :=
  if source.isEmpty then none
  else if Path.isAbsolute source then if files.isFile source then some source else none
  else (l.roots.map fun root => Path.join root source).find? files.isFile

/-- Adds what probing the file tells. A file that cannot be probed stays as it is; only a report
of the wrong shape is a fault. -/
def probe (l : Library) (files : Files) (path : String) (a : Asset) : Except Fault Asset :=
  match a.kind with
  | .image => match Probe.image files path with
    | .ok (w, h) => .ok { a with width := .int w, height := .int h }
    | .error _ => .ok a
  | _ => match Probe.media l.prober files path with
    | .ok info =>
      .ok { a with hasAudio := info.hasAudio, width := info.width, height := info.height }
    | .error (.fault f) => .error f
    | .error _ => .ok a

/-- The asset of a source. Without probing, videos and sounds are taken to have sound. -/
def asset (l : Library) (files : Files) (ref source : String) (kind : AssetKind)
    (slot : Option (Nat × Nat)) : Except Fault Asset :=
  let path := l.find? files source
  let a : Asset := { ref, source, path, kind, slot }
  match path with
  | none => .ok a
  | some p =>
    if l.probes then l.probe files p a
    else .ok { a with hasAudio := kind != .image }

/-- The kind and the source of a clip that shows a file. -/
def wanted? : Content → Option (AssetKind × String)
  | .image m => some (.image, m.source)
  | .video m _ => some (.video, m.source)
  | _ => none

/-- Numbers the found assets from `next` on. -/
def number : (next : Int) → List Asset → List Asset
  | _, [] => []
  | next, a :: rest =>
    if a.isFound then { a with inputIndex := some next } :: number (next + 1) rest
    else a :: number next rest

/-- The name of the soundtrack's asset. -/
def soundtrackRef : String := "soundtrack"

/-- The name of the background's asset. -/
def backgroundRef : String := "background"

/-- The assets of the clips and the soundtrack, with their inputs. -/
def assets (l : Library) (files : Files) (t : Timeline) : Except Fault (List Asset) := do
  let clips ← t.slots.filterMapM fun ((i, j), c) =>
    match wanted? c.content with
    | some (kind, source) =>
      (l.asset files (Clip.ref i j (some c)) source kind (some (i, j))).map some
    | none => .ok none
  let sound ← match t.soundtrack.join with
    | some s => (l.asset files soundtrackRef s.source .audio none).map ([·])
    | none => .ok []
  return number 1 (clips ++ sound)

/-- The endings of image files. -/
def imageExtensions : List String := [".png", ".jpg", ".jpeg", ".gif", ".bmp", ".webp"]

/-- Whether a source names an image, in capitals or not. -/
def looksLikeImage (source : String) : Bool :=
  imageExtensions.any fun e => (Text.lower source).endsWith e

/-- The asset of the background, if the timeline has a source for it. -/
def background (l : Library) (files : Files) (t : Timeline) : Except Fault (Option Asset) :=
  match t.backgroundSource with
  | none => .ok none
  | some source =>
    if source.isEmpty then .ok none
    else do
      let kind := if looksLikeImage source then AssetKind.image else .video
      let a ← l.asset files backgroundRef source kind none
      return some (if a.isFound then { a with inputIndex := some 0 } else a)

/-- The files that the prober is run on for some assets, in order: those of videos and sounds. -/
def probed (l : Library) (assets : List Asset) : List String :=
  if l.probes then assets.filterMap fun a => if a.kind == .image then none else a.path else []

end Library
end Montage
