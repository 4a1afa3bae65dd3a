import Montage.Schema

/-!
# Output options

The container and the quality of a rendered file. The container decides the codecs, the quality
the rate factor: the smaller it is, the better the picture.
-/
namespace Montage

/-- The containers. -/
inductive Container where
  | mp4
  | webm
  | mov
deriving DecidableEq, Repr

namespace Container

/-- The containers by their names. -/
def words : List (String × Container) := [("mp4", mp4), ("webm", webm), ("mov", mov)]

/-- The name of a container, which is also the extension of its files. -/
def word : Container → String
  | mp4 => "mp4"
  | webm => "webm"
  | mov => "mov"

def videoCodec : Container → String
  | webm => "libvpx-vp9"
  | _ => "libx264"

def audioCodec : Container → String
  | webm => "libopus"
  | _ => "aac"

/-- The name of the video codec for readers. -/
def codecName : Container → String
  | webm => "VP9"
  | _ => "H.264"

end Container

/-- The steps of quality. -/
inductive Quality where
  | low
  | medium
  | high
  | ultra
deriving DecidableEq, Repr

namespace Quality

/-- The steps of quality by their names. -/
def words : List (String × Quality) :=
  [("low", low), ("medium", medium), ("high", high), ("ultra", ultra)]

def word : Quality → String
  | low => "low"
  | medium => "medium"
  | high => "high"
  | ultra => "ultra"

/-- The rate factor. -/
def rateFactor : Quality → Int
  | low => 28
  | medium => 23
  | high => 18
  | ultra => 15

end Quality

/-- What is asked of a rendered file. -/
structure OutputOptions where
  format : Container := .mp4
  quality : Quality := .high
deriving DecidableEq, Repr

namespace OutputOptions

/-- The options in a document. -/
def ofMembers (members : List (String × Json)) : Parsed OutputOptions :=
  (fun f q => (⟨f.getD .mp4, q.getD .high⟩ : OutputOptions))
    <$> Schema.optional ["format"] (Schema.choice Container.words) members
    <*> Schema.optional ["quality"] (Schema.choice Quality.words) members

def ofJson : Json → Parsed OutputOptions := Schema.object "OutputOptions" ofMembers

def toJson (o : OutputOptions) : Json :=
  .object [("format", .string o.format.word), ("quality", .string o.quality.word)]

end OutputOptions
end Montage
