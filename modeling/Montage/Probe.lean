import Montage.Decimal.Reader
import Montage.Files
import Montage.Json.Reader
import Montage.Number.Quotient
import Montage.Settings

/-!
# Probing media

What a prober tells about the streams of a file, and what an image tells about itself. The
prober's report is a document of which nothing is taken for granted: what has the wrong kind is
a fault.
-/
namespace Montage

/-- The first picture stream and the first sound stream of a file. The measures and codecs are
what the report says, whatever that is. -/
structure MediaInfo where
  durationMs : Option Int := none
  width : Json := .null
  height : Json := .null
  frameRate : Option Float := none
  videoCodec : Json := .null
  audioCodec : Json := .null
  hasVideo : Bool := false
  hasAudio : Bool := false

/-- Why a file cannot be probed. -/
inductive ProbeError where
  | notStarted (prober : String)
  | failed (messages : String)
  | notDocument (reason : String)
  | notImage (path : String)
  | fault (fault : Fault)

namespace ProbeError

def message : ProbeError → String
  | notStarted prober =>
    "ffprobe could not be started: [Errno 2] No such file or directory: " ++ Text.quote prober
  | failed messages => "ffprobe failed: " ++ messages
  | notDocument reason => "Failed to parse ffprobe output: " ++ reason
  | notImage path =>
    "Cannot read image " ++ path ++ ": cannot identify image file " ++ Text.quote path
  | fault f => f.message

end ProbeError

namespace Probe

/-- The command line of the prober. -/
def arguments (prober path : String) : List String :=
  [prober, "-v", "quiet", "-print_format", "json", "-show_format", "-show_streams", path]

/-- A member of a value that should be an object. -/
def member (name : String) (v : Json) : Except Fault (Option Json) :=
  match v with
  | .object members => .ok (Json.lookup name members)
  | v => .error (.noMember v.kind "get")

/-- Whether characters stand next to each other among others. -/
def occursAmong (word : List Char) : List Char → Bool
  | [] => word.isEmpty
  | c :: rest => word.isPrefixOf (c :: rest) || occursAmong word rest

/-- Whether a text occurs in another one. -/
def occursIn (word s : String) : Bool := occursAmong word.toList s.toList

/-- Whether a value contains a text: as a part, an item or a name. -/
def contains (word : String) : Json → Except Fault Bool
  | .string s => .ok (occursIn word s)
  | .array items => .ok (items.any fun
    | .string s => s == word
    | _ => false)
  | .object members => .ok (members.any (·.1 == word))
  | v => .error (.wrongKind ("argument of type '" ++ v.kind ++ "' is not iterable"))

/-- A value as a double. -/
def float : Json → Except Fault Float
  | .number n => n.toFloat
  | .bool b => .ok (if b then 1 else 0)
  | .string s => match Decimal.probed? s with
    | some x => .ok x
    | none => .error (.notDecimal s)
  | v => .error (.wrongKind
    ("float() argument must be a string or a real number, not '" ++ v.kind ++ "'"))

/-- The length in the report's part on the format. -/
def duration (format : Json) : Except Fault (Option Int) := do
  if ← contains "duration" format then
    match format with
    | .object members =>
      let seconds ← float ((Json.lookup "duration" members).getD .null)
      return some (← Number.truncateInt (seconds * 1000))
    | .string _ => .error (.wrongKind "string indices must be integers, not 'str'")
    | _ => .error (.wrongKind "list indices must be integers or slices, not str")
  else return none

/-- A part of a ratio as a whole number. -/
def whole (s : String) : Except Fault Int :=
  match Decimal.probedWhole? s with
  | some n => .ok n
  | none => .error (.notWhole s)

/-- A rate written as a ratio; a rate over zero is none. -/
def rate (v : Json) : Except Fault (Option Float) := do
  if ← contains "/" v then
    match v with
    | .string s =>
      match Path.parts s with
      | [num, den] =>
        let den ← whole den
        if 0 < den then return some (← Number.quotientInt (← whole num) den)
        else return none
      | _ => .error .tooManyParts
    | v => .error (.noMember v.kind "split")
  else return none

/-- Adds a stream of the report to what is known. -/
def addStream (info : MediaInfo) (stream : Json) : Except Fault MediaInfo := do
  match ← member "codec_type" stream with
  | some (.string "video") =>
    if info.hasVideo then return info
    let rate ← rate ((stream.get? "r_frame_rate").getD (.string "0/1"))
    return { info with
      hasVideo := true
      width := (stream.get? "width").getD .null
      height := (stream.get? "height").getD .null
      videoCodec := (stream.get? "codec_name").getD .null
      frameRate := rate }
  | some (.string "audio") =>
    if info.hasAudio then return info
    return { info with
      hasAudio := true
      audioCodec := (stream.get? "codec_name").getD .null }
  | _ => return info

/-- The streams of a report. -/
def streams : Json → Except Fault (List Json)
  | .array items => .ok items
  | .object members => .ok (members.map fun m => .string m.1)
  | .string s => .ok (s.toList.map fun c => .string (String.singleton c))
  | v => .error (.wrongKind ("'" ++ v.kind ++ "' object is not iterable"))

/-- What a report tells. -/
def ofReport (report : Json) : Except Fault MediaInfo := do
  let format ← member "format" report
  let length ← duration (format.getD (.object []))
  let streams ← streams (((← member "streams" report)).getD (.array []))
  streams.foldlM addStream { durationMs := length }

/-- What the prober tells about a file. -/
def media (prober : String) (files : Files) (path : String) : Except ProbeError MediaInfo :=
  match (files.find? path).bind (·.reply) with
  | none => .error (.notStarted prober)
  | some reply =>
    if reply.exit ≠ 0 then .error (.failed reply.messages)
    else match Json.read reply.output with
      | .error e => match e.fault? with
        | some f => .error (.fault f)
        | none => .error (.notDocument (e.message reply.output))
      | .ok report => match ofReport report with
        | .error f => .error (.fault f)
        | .ok info => .ok info

/-- The width and height of an image. -/
def image (files : Files) (path : String) : Except ProbeError (Int × Int) :=
  match (files.find? path).bind (·.image) with
  | some size => .ok size
  | none => .error (.notImage path)

end Probe
end Montage
