import Montage.Timeline.Basic

/-!
# Reading timelines

A timeline from its document, with all mismatches in the order of the fields. A field of several
words is written in camel case or with underscores; where both spellings are there, camel case
counts and the other is kept as an extra member. A clip is read by its type, whose word is a
step in the places of its mismatches.
-/
namespace Montage

open Schema

/-- The words for the anchors. -/
def Anchor.words : List (String × Anchor) := [
  ("center", .center), ("top", .top), ("bottom", .bottom), ("left", .left), ("right", .right),
  ("top-left", .topLeft), ("top-right", .topRight), ("bottom-left", .bottomLeft),
  ("bottom-right", .bottomRight)]

/-- The words for the effects. -/
def Effect.words : List (String × Effect) := [
  ("grayscale", .grayscale), ("greyscale", .greyscale), ("sepia", .sepia), ("blur", .blur)]

/-- The words for the types of clips. -/
def Content.kinds : List String := ["background", "text", "image", "video", "shape"]

/-- An id: a text, a whole number standing for its digits, or null. -/
def readId : Json → Parsed (Option String)
  | .number (.int n) => match (Number.int n).written with
    | .ok digits => .ok (some digits)
    | .error f => .fail ("Value error, " ++ f.message)
  | v => nullable string v

def Point.ofMembers (ms : List (String × Json)) : Parsed Point :=
  (Point.mk · · (rest [["x"], ["y"]] ms))
    <$> optional ["x"] float ms
    <*> optional ["y"] float ms

/-- The step that stands for the anchors in the place of a mismatch. -/
def anchorStep : String :=
  "literal[" ++ ",".intercalate (Anchor.words.map fun w => Text.quote w.1) ++ "]"

/-- A point or an anchor; what is neither mismatches both. -/
def Position.ofJson (v : Json) : Parsed Position :=
  match (object "Position" Point.ofMembers v).under (.key "Position") with
  | .ok p => .ok (.point p)
  | .bad asPoint =>
    match (choice Anchor.words v).under (.key anchorStep) with
    | .ok a => .ok (.anchor a)
    | .bad asAnchor => .bad (asPoint ++ asAnchor)

def TextStyle.fields : List Names :=
  [["fontSize", "font_size"], ["fontFamily", "font_family"], ["color"]]

def TextStyle.ofMembers (ms : List (String × Json)) : Parsed TextStyle :=
  (TextStyle.mk · · · (rest TextStyle.fields ms))
    <$> optional ["fontSize", "font_size"] float ms
    <*> optional ["fontFamily", "font_family"] string ms
    <*> optional ["color"] string ms

def Shape.fields : List Names :=
  [["type"], ["width"], ["height"], ["fillColor", "fill_color"],
    ["strokeColor", "stroke_color"], ["strokeWidth", "stroke_width"]]

def Shape.ofMembers (ms : List (String × Json)) : Parsed Shape :=
  (Shape.mk · · · · · · (rest Shape.fields ms))
    <$> optional ["type"] string ms
    <*> optional ["width"] float ms
    <*> optional ["height"] float ms
    <*> optional ["fillColor", "fill_color"] (nullable string) ms
    <*> optional ["strokeColor", "stroke_color"] (nullable string) ms
    <*> optional ["strokeWidth", "stroke_width"] float ms

def ChromaKey.ofMembers (ms : List (String × Json)) : Parsed ChromaKey :=
  (ChromaKey.mk · · · (rest [["color"], ["threshold"], ["halo"]] ms))
    <$> optional ["color"] string ms
    <*> optional ["threshold"] float ms
    <*> optional ["halo"] float ms

def Media.fields : List Names :=
  [["source", "src"], ["originalWidth", "original_width"], ["originalHeight", "original_height"],
    ["filter"], ["chromaKey", "chroma_key"]]

def Media.ofMembers (ms : List (String × Json)) : Parsed Media :=
  Media.mk
    <$> required ["source", "src"] string ms
    <*> optional ["originalWidth", "original_width"] (nullable float) ms
    <*> optional ["originalHeight", "original_height"] (nullable float) ms
    <*> optional ["filter"] (nullable (choice Effect.words)) ms
    <*> optional ["chromaKey", "chroma_key"]
      (nullable (object "ChromaKey" ChromaKey.ofMembers)) ms

/-- The fields of a type's own content, and a reader for them. -/
def Content.reader? (kind : String) :
    Option (List Names × (List (String × Json) → Parsed Content)) :=
  match kind with
  | "background" => some ([["color"], ["src"]], fun ms =>
      Content.background
        <$> optional ["color"] (nullable string) ms
        <*> optional ["src"] (nullable string) ms)
  | "text" => some ([["text"], ["style"]], fun ms =>
      Content.text
        <$> required ["text"] string ms
        <*> optional ["style"] (object "TextStyle" TextStyle.ofMembers) ms)
  | "image" => some (Media.fields, fun ms => Content.image <$> Media.ofMembers ms)
  | "video" => some (Media.fields ++ [["volume"]], fun ms =>
      Content.video <$> Media.ofMembers ms <*> optional ["volume"] float ms)
  | "shape" => some ([["shape"]], fun ms =>
      Content.shape <$> optional ["shape"] (object "ShapeSpec" Shape.ofMembers) ms)
  | _ => none

/-- The fields that all clips have. -/
def Clip.fields : List Names :=
  [["id"], ["start"], ["duration"], ["position"], ["opacity"], ["scale"], ["type"]]

/-- A clip whose content is read by `content` from the fields `own`. -/
def Clip.ofMembers (own : List Names) (content : List (String × Json) → Parsed Content)
    (ms : List (String × Json)) : Parsed Clip :=
  (Clip.mk · · · · · · · (rest (Clip.fields ++ own) ms))
    <$> optional ["id"] readId ms
    <*> optional ["start"] float ms
    <*> required ["duration"] float ms
    <*> optional ["position"] (nullable Position.ofJson) ms
    <*> optional ["opacity"] float ms
    <*> optional ["scale"] float ms
    <*> content ms

/-- The message for a type that no clip has. -/
def unknownTag (tag : Json) : String :=
  "Input tag '" ++ tag.text ++ "' found using 'type' does not match any of the expected tags: " ++
    ", ".intercalate (Content.kinds.map Text.quote)

/-- A clip of the type that its document names. -/
def Clip.ofJson : Json → Parsed Clip
  | .object ms =>
    match Json.lookup "type" ms with
    | none => .fail "Unable to extract tag using discriminator 'type'"
    | some tag =>
      match tag with
      | .string kind => match Content.reader? kind with
        | some (own, content) => (Clip.ofMembers own content ms).under (.key kind)
        | none => .fail (unknownTag tag)
      | _ => .fail (unknownTag tag)
  | _ => .fail "Input should be a valid dictionary or object to extract fields from"

def Track.ofMembers (ms : List (String × Json)) : Parsed Track :=
  (Track.mk · · (rest [["id"], ["clips"]] ms))
    <$> optional ["id"] readId ms
    <*> optional ["clips"] (list Clip.ofJson) ms

def Resolution.ofMembers (ms : List (String × Json)) : Parsed Resolution :=
  (Resolution.mk · · (rest [["width"], ["height"]] ms))
    <$> optional ["width"] int ms
    <*> optional ["height"] int ms

def Background.ofMembers (ms : List (String × Json)) : Parsed Background :=
  (Background.mk · · (rest [["color"], ["src"]] ms))
    <$> optional ["color"] (nullable string) ms
    <*> optional ["src"] (nullable string) ms

def Soundtrack.ofMembers (ms : List (String × Json)) : Parsed Soundtrack :=
  (Soundtrack.mk · · (rest [["src"], ["volume"]] ms))
    <$> required ["src"] string ms
    <*> optional ["volume"] float ms

namespace Timeline

def fields : List Names :=
  [["duration"], ["fps"], ["resolution"], ["background"], ["tracks"], ["soundtrack"]]

def ofMembers (canvas : Canvas) (ms : List (String × Json)) : Parsed Timeline :=
  (Timeline.mk · · · · · · (rest fields ms) canvas)
    <$> optional ["duration"] (nullable float) ms
    <*> optional ["fps"] float ms
    <*> optional ["resolution"] (object "Resolution" Resolution.ofMembers) ms
    <*> optional ["background"] (object "Background" Background.ofMembers) ms
    <*> optional ["tracks"] (list (object "Track" Track.ofMembers)) ms
    <*> optional ["soundtrack"] (nullable (object "Soundtrack" Soundtrack.ofMembers)) ms

/-- Whether a measure of the picture is left out, so that the settings must give it. -/
def needsCanvas (ms : List (String × Json)) : Bool :=
  (find ["fps"] ms).isNone ||
    match find ["resolution"] ms with
    | none => true
    | some (_, .object r) => (find ["width"] r).isNone || (find ["height"] r).isNone
    | some _ => false

/-- A timeline from its document. If a measure is needed from settings that are themselves
mismatched, their mismatches are all there is to report. -/
def ofJson (canvas : Except (List Mismatch) Canvas) (v : Json) :
    Except (List Mismatch) Timeline :=
  match v, canvas with
  | .object ms, .error e =>
    if needsCanvas ms then .error e else (ofMembers ⟨0, 0, 0⟩ ms).toExcept
  | v, .error _ => (object "Timeline" (ofMembers ⟨0, 0, 0⟩) v).toExcept
  | v, .ok c => (object "Timeline" (ofMembers c) v).toExcept

end Timeline
end Montage
