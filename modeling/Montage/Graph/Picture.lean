import Montage.Asset
import Montage.Font
import Montage.Graph.Label
import Montage.Graph.Placement

/-!
# Drawing clips

Each clip that is to be seen becomes one node that takes the picture drawn so far and gives the
picture with the clip on it. Texts and boxes are drawn straight onto the picture; images and
videos are first brought into shape by a chain of filters and then laid over it.
-/
namespace Montage.Graph

/-- The options of a filter by name. -/
abbrev Options := List (String × OptionValue)

/-- The node of a text. -/
def textNode (files : Files) (c : Clip) (ref : String) (text : String) (style : TextStyle)
    (width height : Int) (current output : String) : Build Node := do
  let (x, y) := textCoordinates c.position.join width height
  let size ← attempt (Number.nearestInt (style.fontSizeValue * c.scaleValue))
  let color := style.colorValue ++ "@" ++ Number.compactFloat (c.opacityValue / 100)
  let font : Options := match Font.installed? files (some style.fontFamilyValue) with
    | some path => [("fontfile", .text path)]
    | none => []
  let options : Options :=
    [("text", .text text), ("fontsize", .int size), ("fontcolor", .text color),
      ("x", .text x), ("y", .text y)] ++ font ++
    [("expansion", .text "none"), ("enable", .text (window c))]
  return .single ⟨"drawtext", options, [current], output, .video, some ref⟩

/-- The colour matrix of sepia. -/
def sepia : Options := [
  ("rr", .number (.float 0.393)), ("rg", .number (.float 0.769)), ("rb", .number (.float 0.189)),
  ("gr", .number (.float 0.349)), ("gg", .number (.float 0.686)), ("gb", .number (.float 0.168)),
  ("br", .number (.float 0.272)), ("bg", .number (.float 0.534)), ("bb", .number (.float 0.131))]

/-- The filter of a colour effect. -/
def effectLink : Effect → Link
  | .grayscale => ⟨"hue", [("s", .int 0)], "filtered"⟩
  | .greyscale => ⟨"hue", [("s", .int 0)], "filtered"⟩
  | .sepia => ⟨"colorchannelmixer", sepia, "filtered"⟩
  | .blur => ⟨"gblur", [("sigma", .int 2)], "filtered"⟩

/-- The least similarity that the filter for cutting out a colour takes. -/
def leastSimilarity : Float := 0.00001

/-- The filter that cuts a colour out. -/
def keyLink (k : ChromaKey) : Link :=
  let similarity :=
    if leastSimilarity < k.thresholdValue then k.thresholdValue else leastSimilarity
  ⟨"chromakey",
    [("color", .text k.colorValue), ("similarity", .text (Number.compactFloat similarity)),
      ("blend", .text (Number.compactFloat k.haloValue))], "chroma"⟩

/-- A measure times a factor, as a whole number of at least one. A measure from a report may be
anything. -/
def scaled (measure : Json) (factor : Float) : Except Fault Int := do
  let x ← match measure with
    | .number n => n.toFloat
    | .bool b => .ok (if b then 1 else 0)
    | .string _ => .error (.wrongKind "can't multiply sequence by non-int of type 'float'")
    | .array _ => .error (.wrongKind "can't multiply sequence by non-int of type 'float'")
    | v => .error (.wrongKind
      ("unsupported operand type(s) for *: '" ++ v.kind ++ "' and 'float'"))
  let n ← Number.nearestInt (x * factor)
  return if 1 < n then n else 1

/-- The measure that a clip gives, unless it is zero or missing, otherwise that of its file. -/
def measure (own : Option Float) (found : Json) : Json :=
  match own with
  | some x => if x == 0 then found else .float x
  | none => found

/-- The filter that changes the size. Where a measure is not known, the encoder computes it. -/
def scaleLink (m : Media) (factor : Float) (a : Asset) : Except Fault Link := do
  let width := measure m.sourceWidth.join a.width
  let height := measure m.sourceHeight.join a.height
  let (w, h) : OptionValue × OptionValue ←
    if width.isTruthy && height.isTruthy then
      (do return (.int (← scaled width factor), .int (← scaled height factor)))
    else
      let f := Number.compactFloat factor
      .ok (.text ("iw*" ++ f), .text ("ih*" ++ f))
  return ⟨"scale", [("w", w), ("h", h)], "scaled"⟩

/-- The filters that let a video begin with its first picture when its clip begins. -/
def timingLinks (c : Clip) : List Link := [
  ⟨"trim", [("start", .int 0), ("duration", .text (Number.compactFloat c.duration))], "trim"⟩,
  ⟨"setpts",
    [("expr", .text ("PTS-STARTPTS+" ++ Number.compactFloat c.startValue ++ "/TB"))], "pts"⟩]

/-- The filters that make a clip transparent. -/
def fadeLinks (opacity : Float) : List Link := [
  ⟨"format", [("pix_fmts", .text "rgba")], "rgba"⟩,
  ⟨"colorchannelmixer", [("aa", .text (Number.compactFloat (opacity / 100)))], "faded"⟩]

/-- The chain that brings an image or a video into shape. -/
def mediaLinks (c : Clip) (m : Media) (isVideo : Bool) (a : Asset) : Except Fault (List Link) := do
  let scale ← if c.scaleValue != 1 then (scaleLink m c.scaleValue a).map ([·]) else .ok []
  return (if isVideo then timingLinks c else []) ++
    (m.filter.join.map effectLink).toList ++ (m.chromaKey.join.map keyLink).toList ++ scale ++
    (if c.opacityValue < 100 then fadeLinks c.opacityValue else [])

/-- The node of an image or a video. -/
def mediaNode (c : Clip) (ref : String) (m : Media) (isVideo : Bool) (a : Asset)
    (current output : String) : Build Node := do
  match a.inputIndex with
  | none => throw (.compile { message := some (ref ++ ": resolved asset has no input index") })
  | some input =>
    let links ← attempt (mediaLinks c m isVideo a)
    let (prelude, layer) ← chain .video (some ref) (toString input ++ ":v") links
    let (x, y) := coordinates .overlay ("0", "0") c.position.join
    let options : Options := [("x", .text x), ("y", .text y), ("enable", .text (window c))]
    return .mk ⟨"overlay", options, [current, layer], output, .video, some ref⟩ prelude

/-- The boxes of a shape: the inside, then the border. A box without a colour is left out. -/
def boxes (c : Clip) (s : Shape) : Except Fault (List Options) := do
  let (x, y) := coordinates .box ("100", "100") c.position.join
  let alpha := Number.compactFloat (c.opacityValue / 100)
  let w ← scaled (.float s.widthValue) c.scaleValue
  let h ← scaled (.float s.heightValue) c.scaleValue
  let box (color thickness : String) : Options :=
    [("x", .text x), ("y", .text y), ("w", .int w), ("h", .int h),
      ("color", .text (color ++ "@" ++ alpha)), ("t", .text thickness),
      ("enable", .text (window c))]
  let fill := ((filled? s.fillValue).map fun color => box color "fill").toList
  let border := if 0 < s.strokeWidthValue then
      ((filled? s.strokeValue).map fun color =>
        box color (Number.compactFloat s.strokeWidthValue)).toList
    else []
  return fill ++ border

/-- The node of a shape. A shape without boxes passes the picture on. -/
def shapeNode (c : Clip) (ref : String) (s : Shape) (current output : String) : Build Node := do
  let boxes ← attempt (boxes c s)
  match boxes.getLast? with
  | none => return .single ⟨"null", [], [current], output, .video, some ref⟩
  | some last =>
    let links := boxes.dropLast.map fun options => (⟨"drawbox", options, "box"⟩ : Link)
    let (prelude, layer) ← chain .video (some ref) current links
    return .mk ⟨"drawbox", last, [layer], output, .video, some ref⟩ prelude

end Montage.Graph
