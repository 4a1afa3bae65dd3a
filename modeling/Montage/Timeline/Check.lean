import Montage.Issue
import Montage.Timeline.Reader

/-!
# Checking timelines

The structural check of a timeline's document, before any of it is read as typed data. All
defects are reported: first those of the tracks and clips in order, each clip's by itself, then
ids used twice, then the timeline's own. Clips that run past a given duration are cut, so they
are only warned about.
-/
namespace Montage

/-- A defect: where it is, relative to the value at hand, and the message. -/
structure Defect where
  path : String
  message : String
deriving DecidableEq, Repr

namespace Defect

/-- The defect seen from above: `before` is the path of the value at hand. -/
def below (before : String) (d : Defect) : Defect := { d with path := before ++ d.path }

def toIssue (d : Defect) : Issue := ⟨d.path, d.message, .error⟩

end Defect

/-- The outcome of a check. -/
structure Report where
  errors : List Issue
  warnings : List Issue
deriving DecidableEq, Repr

def Report.isValid (r : Report) : Bool := r.errors.isEmpty

namespace Check

/-- A defect with this path and message unless the condition holds. -/
def demand (holds : Bool) (path message : String) : List Defect :=
  if holds then [] else [⟨path, message⟩]

/-- Whether a value is a number for which `p` holds. -/
def isNumber (p : Number → Bool) (v : Json) : Bool := (v.number?.map p).getD false

/-- Whether a value is a number that is not below zero. What is not a number passes. -/
def isNotNegative (v : Json) : Bool := isNumber (fun n => !n.lt (.int 0)) v

/-- Whether a value is a number from `low` to `high`. -/
def isWithin (low high : Int) (v : Json) : Bool :=
  isNumber (fun n => Number.le (.int low) n && n.le (.int high)) v

/-- Whether a value is a number that is not zero or below; what is not a number passes. -/
def isNotBelowOrZero (v : Json) : Bool := isNumber (fun n => !n.le (.int 0)) v

/-- Whether a value is a text with something in it. -/
def isFilled : Json → Bool
  | .string s => !s.isEmpty
  | _ => false

/-- One measure of a colour key: it may be left out. -/
def keyMeasure (name : String) (key : List (String × Json)) : List Defect :=
  match Json.lookup name key with
  | none | some .null => []
  | some v => demand (isWithin 0 1 v) ("." ++ name) (name ++ " must be between 0 and 1")

/-- The defects of a colour key. -/
def chromaKey : Json → List Defect
  | .null => []
  | .object key => (keyMeasure "threshold" key ++ keyMeasure "halo" key).map (·.below ".chromaKey")
  | _ => [⟨".chromaKey", "chromaKey must be an object"⟩]

/-- The defects that a clip's type asks for. -/
def content (kind : Json) (clip : List (String × Json)) : List Defect :=
  match kind with
  | .string "text" =>
    demand (isFilled ((Json.lookup "text" clip).getD .null)) ".text"
      "text is required for text clips"
  | .string kind =>
    if kind = "image" ∨ kind = "video" then
      let source := (Json.lookup "source" clip).orElse fun _ => Json.lookup "src" clip
      let key := (Json.lookup "chromaKey" clip).orElse fun _ => Json.lookup "chroma_key" clip
      demand (isFilled (source.getD .null)) ".source"
        ("source is required for " ++ kind ++ " clips") ++ chromaKey (key.getD .null)
    else []
  | _ => []

/-- Whether a value is the word of a clip's type. -/
def isKind : Json → Bool
  | .string s => Content.kinds.contains s
  | _ => false

/-- The defects of a clip. -/
def clip : Json → List Defect
  | .object c =>
    let kind := (Json.lookup "type" c).getD .null
    demand (isKind kind) ".type" ("unknown clip type " ++ kind.literal) ++
    demand (isNotNegative ((Json.lookup "start" c).getD (.int 0))) ".start"
      "start must be a number >= 0" ++
    demand (isNotBelowOrZero ((Json.lookup "duration" c).getD .null)) ".duration"
      "duration must be a number > 0" ++
    content kind c ++
    demand (isWithin 0 100 ((Json.lookup "opacity" c).getD (.int 100))) ".opacity"
      "opacity must be between 0 and 100" ++
    demand (isNotBelowOrZero ((Json.lookup "scale" c).getD (.int 1))) ".scale" "scale must be > 0"
  | _ => [⟨"", "clip must be an object"⟩]

/-- The path of a clip. -/
def clipPath (track clip : Nat) : String :=
  "tracks[" ++ toString track ++ "].clips[" ++ toString clip ++ "]"

/-- The defects of a track, by the index it has. -/
def track (i : Nat) : Json → List Defect
  | .object t =>
    match Json.lookup "clips" t with
    | some (.array []) =>
      [⟨"tracks[" ++ toString i ++ "].clips", "track must contain at least one clip"⟩]
    | some (.array clips) =>
      clips.zipIdx.flatMap fun (c, j) => (clip c).map (·.below (clipPath i j))
    | _ => [⟨"tracks[" ++ toString i ++ "].clips", "clips must be an array"⟩]
  | _ => [⟨"tracks[" ++ toString i ++ "]", "track must be an object"⟩]

/-- The clips of a track's document that are objects, with their indices. -/
def trackClips (i : Nat) (t : Json) : List ((Nat × Nat) × List (String × Json)) :=
  match t.get? "clips" with
  | some (.array clips) => clips.zipIdx.filterMap fun (c, j) =>
      match c with
      | .object members => some ((i, j), members)
      | _ => none
  | _ => []

/-- All clips that are objects, in order. -/
def objectClips (tracks : List Json) : List ((Nat × Nat) × List (String × Json)) :=
  tracks.zipIdx.flatMap fun (t, i) => trackClips i t

/-- Whether the texts of a clip that its check needs can be written: of a type that no clip has, for
the message, and of the id that it has, to be compared. -/
def isLegible (c : List (String × Json)) : Bool :=
  let kind := (Json.lookup "type" c).getD .null
  let id := (Json.lookup "id" c).getD .null
  (isKind kind || kind.isWritable) && (!id.isTruthy || id.isWritable)

/-- Breaks the check off at a clip that is not legible. -/
def legible (tracks : List Json) : Except Fault Unit :=
  if (objectClips tracks).all (isLegible ·.2) then .ok () else .error .unwritable

/-- The ids of the clips that have one, with the path of the id. -/
def ids (tracks : List Json) : List (String × String) :=
  (objectClips tracks).filterMap fun ((i, j), c) =>
    match Json.lookup "id" c with
    | some id => if id.isTruthy then some (id.text, clipPath i j ++ ".id") else none
    | none => none

/-- A defect for every id that was used before; `seen` holds the first use of each. -/
def duplicates : (seen : List (String × String)) → List (String × String) → List Defect
  | _, [] => []
  | seen, (id, path) :: rest =>
    match seen.find? fun s => s.1 == id with
    | some first =>
      ⟨path, "duplicate clip id " ++ Text.quote id ++ " (first used at " ++ first.2 ++ ")"⟩ ::
        duplicates seen rest
    | none => duplicates (seen ++ [(id, path)]) rest

/-- One measure of the picture: it may be left out. -/
def measure (name : String) (resolution : List (String × Json)) : List Defect :=
  match Json.lookup name resolution with
  | none | some .null => []
  | some v =>
    demand (isNotBelowOrZero v) ("resolution." ++ name) (name ++ " must be a positive number")

/-- The defects of the timeline's own fields, the duration left out. -/
def globals (data : List (String × Json)) : List Defect :=
  demand (isNotBelowOrZero ((Json.lookup "fps" data).getD (.int 30))) "fps"
    "fps must be a number > 0" ++
  (match Json.lookup "resolution" data with
    | none | some .null => []
    | some (.object r) => measure "width" r ++ measure "height" r
    | some _ => [⟨"resolution", "resolution must be an object"⟩]) ++
  (match Json.lookup "soundtrack" data with
    | none | some .null => []
    | some s => demand (((s.get? "src").map Json.isTruthy).getD false) "soundtrack.src"
        "soundtrack must define src")

/-- The defects of the duration. -/
def duration : Json → List Defect
  | .null => []
  | v => demand (isNotBelowOrZero v) "duration" "duration must be a number > 0"

/-- A warning if a clip ends after the duration. -/
def overrun (limit : Number) (i j : Nat) (c : List (String × Json)) :
    Except Fault (Option Issue) :=
  match ((Json.lookup "start" c).getD (.int 0)).number?,
      ((Json.lookup "duration" c).getD .null).number? with
  | some start, some length => do
    let last ← start.add length
    if limit.lt last then
      return some ⟨clipPath i j, "clip ends at " ++ (← last.written) ++
        "s, after timeline duration " ++ (← limit.written) ++ "s", .warning⟩
    else return none
  | _, _ => return none

/-- The warnings about clips that end after the duration. -/
def overruns (limit : Number) (tracks : List Json) : Except Fault (List Issue) := do
  let found ← (objectClips tracks).mapM fun ((i, j), c) => overrun limit i j c
  return found.filterMap id

/-- The tracks to look into, and the defects of the list itself. -/
def trackList : Option Json → List Json × List Defect
  | some (.array []) => ([], [⟨"tracks", "timeline must contain at least one track"⟩])
  | some (.array tracks) => (tracks, [])
  | _ => ([], [⟨"tracks", "tracks must be an array"⟩])

/-- All defects of a timeline's document. -/
def defects (data : List (String × Json)) : List Defect :=
  (trackList (Json.lookup "tracks" data)).2 ++
    ((trackList (Json.lookup "tracks" data)).1.zipIdx.flatMap fun (t, i) => track i t) ++
    duplicates [] (ids (trackList (Json.lookup "tracks" data)).1) ++ globals data ++
    duration ((Json.lookup "duration" data).getD .null)

/-- The warnings of a timeline's document: only a duration that is in order limits its clips. -/
def warnings (data : List (String × Json)) : Except Fault (List Issue) :=
  let limit := (Json.lookup "duration" data).getD .null
  match limit.number? with
  | some n =>
    if (duration limit).isEmpty then overruns n (trackList (Json.lookup "tracks" data)).1 else .ok []
  | none => .ok []

end Check

/-- All defects of a timeline's document, and the warnings. It is a fault if a whole number in the end
of a clip is too large for a double, or if one that a message or an id needs has too many digits. -/
def check : Json → Except Fault Report
  | .object data => do
    Check.legible (Check.trackList (Json.lookup "tracks" data)).1
    let warnings ← Check.warnings data
    return ⟨(Check.defects data).map Defect.toIssue, warnings⟩
  | _ => .ok ⟨[⟨"", "timeline must be an object", .error⟩], []⟩

/-- Why a document is refused. -/
inductive Refusal where
  | issues (list : List Issue)
  | fault (f : Fault)

/-- The timeline of a document that passes the check and has the right types. -/
def Timeline.accept (canvas : Except (List Mismatch) Canvas) (v : Json) :
    Except Refusal Timeline :=
  match check v with
  | .error f => .error (.fault f)
  | .ok report =>
    if report.isValid then
      match Timeline.ofJson canvas v with
      | .ok t => .ok t
      | .error ms => .error (.issues (ms.map Issue.ofMismatch))
    else .error (.issues report.errors)

end Montage
