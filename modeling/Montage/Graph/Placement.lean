import Montage.Number.Compact
import Montage.Timeline.Basic

/-!
# Where things are drawn

Coordinates are expressions that the encoder evaluates over the sizes of the picture and of the
thing drawn on it. How a filter calls these four sizes depends on the filter.
-/
namespace Montage.Graph

/-- What a filter calls the sizes of the picture and of the thing that is drawn. -/
structure SizeNames where
  pictureWidth : String
  width : String
  pictureHeight : String
  height : String

namespace SizeNames

/-- The sizes where a text is drawn. -/
def text : SizeNames := ⟨"w", "tw", "h", "th"⟩

/-- The sizes where a picture is laid over another. -/
def overlay : SizeNames := ⟨"main_w", "overlay_w", "main_h", "overlay_h"⟩

/-- The sizes where a box is drawn. -/
def box : SizeNames := ⟨"iw", "w", "ih", "h"⟩

/-- Half of what the width leaves. -/
def middleX (n : SizeNames) : String := "(" ++ n.pictureWidth ++ "-" ++ n.width ++ ")/2"

/-- Half of what the height leaves. -/
def middleY (n : SizeNames) : String := "(" ++ n.pictureHeight ++ "-" ++ n.height ++ ")/2"

/-- All that the width leaves. -/
def farX (n : SizeNames) : String := n.pictureWidth ++ "-" ++ n.width

/-- All that the height leaves. -/
def farY (n : SizeNames) : String := n.pictureHeight ++ "-" ++ n.height

end SizeNames

/-- The coordinates of an anchor. -/
def anchorPoint (n : SizeNames) : Anchor → String × String
  | .center => (n.middleX, n.middleY)
  | .top => (n.middleX, "0")
  | .bottom => (n.middleX, n.farY)
  | .left => ("0", n.middleY)
  | .right => (n.farX, n.middleY)
  | .topLeft => ("0", "0")
  | .topRight => (n.farX, "0")
  | .bottomLeft => ("0", n.farY)
  | .bottomRight => (n.farX, n.farY)

/-- The coordinates of a point. -/
def point (p : Point) : String × String :=
  (Number.compactFloat p.xValue, Number.compactFloat p.yValue)

/-- The coordinates of a position, or the standard ones without one. -/
def coordinates (n : SizeNames) (standard : String × String) : Option Position → String × String
  | none => standard
  | some (.anchor a) => anchorPoint n a
  | some (.point p) => point p

/-- The coordinates of a text. On a picture 1920 wide, the abscissa 960 stands for the middle;
on one 1080 high, so does the ordinate 540. -/
def textCoordinates (position : Option Position) (width height : Int) : String × String :=
  let middle := anchorPoint .text .center
  match position with
  | some (.point p) =>
    let (x, y) := point p
    (if p.xValue == 960 && width == 1920 then middle.1 else x,
      if p.yValue == 540 && height == 1080 then middle.2 else y)
  | position => coordinates .text middle position

/-- The condition that the time lies between two seconds, both included. -/
def between (first last : String) : String := "between(t," ++ first ++ "," ++ last ++ ")"

/-- The condition that a clip is to be seen. -/
def window (c : Clip) : String :=
  between (Number.compactFloat c.startValue) (Number.compactFloat c.endValue)

end Montage.Graph
