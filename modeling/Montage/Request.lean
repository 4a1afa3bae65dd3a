import Montage.Merge
import Montage.Output

/-!
# Requests and results

What a caller asks for, and what a finished job gives back.
-/
namespace Montage

/-- A timeline to be rendered. The timeline is a document that nobody has looked at yet. -/
structure RenderRequest where
  timeline : Json
  fields : Fields := []
  output : OutputOptions := {}

namespace RenderRequest

/-- A value that can be put into a text: a text or a number. -/
def fieldValue : Json → Parsed Json
  | .string s => .ok (.string s)
  | .number n => .ok (.number n)
  | .bool b => .ok (.int (if b then 1 else 0))
  | _ => .bad [⟨[.key "str"], "Input should be a valid string"⟩,
      ⟨[.key "int"], "Input should be a valid integer"⟩,
      ⟨[.key "float"], "Input should be a valid number"⟩]

/-- The members of an object, each read on its own. -/
def memberValues {α : Type} (read : Json → Parsed α) :
    List (String × Json) → Parsed (List (String × α))
  | [] => .ok []
  | (name, v) :: rest =>
    (((read v).under (.key name)).map fun a => List.cons (name, a)).seq fun _ =>
      memberValues read rest

/-- An object whose members all have one kind. -/
def dictionary {α : Type} (read : Json → Parsed α) : Json → Parsed (List (String × α))
  | .object ms => memberValues read ms
  | _ => .fail "Input should be a valid dictionary"

/-- The request in a document. -/
def ofMembers (ms : List (String × Json)) : Parsed RenderRequest :=
  (fun t f o => (⟨t, f.getD [], o.getD {}⟩ : RenderRequest))
    <$> Schema.required ["timeline"] .ok ms
    <*> Schema.optional ["mergeFields", "merge_fields"] (dictionary fieldValue) ms
    <*> Schema.optional ["output"] OutputOptions.ofJson ms

def ofJson : Json → Parsed RenderRequest := Schema.object "RenderRequest" ofMembers

/-- A request from its parts, with the values of the fields as they are used. -/
def make (timeline : Json) (fields : Fields) (output : OutputOptions) : Parsed RenderRequest :=
  (((memberValues fieldValue fields).under (.key "merge_fields")).map fun f =>
    ⟨timeline, f, output⟩)

def toJson (r : RenderRequest) : Json :=
  .object [("timeline", r.timeline), ("merge_fields", .object r.fields),
    ("output", r.output.toJson)]

end RenderRequest

/-- What a finished job gives back. -/
structure RenderResult where
  path : String
  filename : String
  url : String
  size : Int
  duration : Float
  resolution : List (String × Int)
  frameRate : Float
  codec : String
  format : String
  tracks : Int := 0
  clips : Int := 0

namespace RenderResult

/-- The result in a document. -/
def ofMembers (ms : List (String × Json)) : Parsed RenderResult :=
  (fun path filename url size duration resolution rate codec format tracks clips =>
    ({ path, filename, url, size, duration, resolution, codec, format
       frameRate := rate
       tracks := tracks.getD 0
       clips := clips.getD 0 } : RenderResult))
    <$> Schema.required ["path"] Schema.string ms
    <*> Schema.required ["filename"] Schema.string ms
    <*> Schema.required ["url"] Schema.string ms
    <*> Schema.required ["size"] Schema.int ms
    <*> Schema.required ["duration"] Schema.float ms
    <*> Schema.required ["resolution"] (RenderRequest.dictionary Schema.int) ms
    <*> Schema.required ["fps"] Schema.float ms
    <*> Schema.required ["codec"] Schema.string ms
    <*> Schema.required ["format"] Schema.string ms
    <*> Schema.optional ["tracks"] Schema.int ms
    <*> Schema.optional ["clips"] Schema.int ms

def ofJson : Json → Parsed RenderResult := Schema.object "RenderResult" ofMembers

def toJson (r : RenderResult) : Json :=
  .object [("path", .string r.path), ("filename", .string r.filename), ("url", .string r.url),
    ("size", .int r.size), ("duration", .float r.duration),
    ("resolution", .object (r.resolution.map fun d => (d.1, .int d.2))),
    ("fps", .float r.frameRate), ("codec", .string r.codec), ("format", .string r.format),
    ("tracks", .int r.tracks), ("clips", .int r.clips)]

end RenderResult
end Montage
