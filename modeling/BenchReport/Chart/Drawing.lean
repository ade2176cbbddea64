import BenchReport.Chart.Basic
import BenchReport.Image.Bitmap

/-!
# Images of charts

A chart is drawn as a line through its points, each of them a disc, inside a
frame that both ranges fill. Points beyond the ranges, and those that have no
number for a coordinate, are left out. There is no lettering.
-/

namespace BenchReport

/-- How far a value is from the first one of a range, when the range is `length`
pixels long; none for what lies outside. -/
def AxisRange.offset? (range : AxisRange) (length : Nat) (value : Double) :
    Option Nat :=
  if range.first ≤ value ∧ value ≤ range.last then
    let share := (value - range.first) / (range.last - range.first)
    if share.isFinite then some (share * .ofNat length).toUInt64.toNat else none
  else none

namespace Chart

/-- The room on the left of the frame. -/
def leftMargin : Nat := 90

/-- The room below the frame. -/
def lowerMargin : Nat := 70

/-- The room above the frame. -/
def upperMargin : Nat := 50

/-- The room on the right of the frame. -/
def rightMargin : Nat := 20

/-- The radius of the discs. -/
def markerRadius : Nat := 4

/-- The pixel of a point in an image of some size. -/
def pixel? (chart : Chart) (width height : Nat) (p : Point) : Option Pixel := do
  let right ← chart.xRange.offset? (width - leftMargin - rightMargin) p.x
  let up ← chart.yRange.offset? (height - upperMargin - lowerMargin) p.y
  return ⟨leftMargin + right, height - lowerMargin - up⟩

/-- The image of the chart. -/
def image (chart : Chart) (width height : Nat) : Bitmap :=
  let pixels := chart.points.filterMap (chart.pixel? width height)
  let framed := (Bitmap.blank width height).frame .black
    ⟨leftMargin, upperMargin⟩ ⟨width - rightMargin, height - lowerMargin⟩
  let lined := (pixels.zip (pixels.drop 1)).foldl
    (fun image (p, q) => image.segment .blue p q) framed
  pixels.foldl (Bitmap.disc .blue markerRadius) lined

end Chart

end BenchReport
