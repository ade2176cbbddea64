import BenchReport.Double.Arithmetic
import BenchReport.Path

/-!
# Charts

A chart is a line through points, with a title and two labels, and the path of
its image. Each axis covers the values with a margin of a twentieth of their
span; values that are all equal get a margin of a twentieth of their size, and
at least one. What is no number does not count, and where no number is left, or
one is infinite, the axis goes from zero to one.
-/

namespace BenchReport

/-- A point of a chart. -/
structure Point where
  /-- The value on the horizontal axis. -/
  x : Double
  /-- The value on the vertical axis. -/
  y : Double
deriving DecidableEq, Repr

/-- What an axis covers. -/
structure AxisRange where
  /-- The least value. -/
  first : Double
  /-- The greatest value. -/
  last : Double
deriving DecidableEq, Repr

namespace AxisRange

/-- A twentieth. -/
def marginFactor : Double := .ofQuotient false 1 20

/-- The least of the values, infinity if there are none. -/
def least (values : List Double) : Double :=
  values.foldl Double.min .infinity

/-- The greatest of the values, negative infinity if there are none. -/
def greatest (values : List Double) : Double :=
  values.foldl Double.max .negativeInfinity

/-- The margin on each side of values from `low` to `high`. -/
def margin (low high : Double) : Double :=
  let span := high - low
  if Double.zero < span then span * marginFactor
  else Double.max (low.abs * marginFactor) (.ofNat 1)

/-- The range of an axis for some values. -/
def around (values : List Double) : AxisRange :=
  let low := least values
  let high := greatest values
  if low.isFinite && high.isFinite then
    ⟨low - margin low high, high + margin low high⟩
  else ⟨.zero, .ofNat 1⟩

end AxisRange

/-- A line chart. -/
structure Chart where
  /-- The path of the image. -/
  path : Path
  /-- The title. -/
  title : String
  /-- The label of the horizontal axis. -/
  xLabel : String
  /-- The label of the vertical axis. -/
  yLabel : String
  /-- The points in the order in which the line goes through them. -/
  points : List Point
deriving DecidableEq, Repr

namespace Chart

/-- The label of an axis of threads. -/
def threadsLabel : String := "Number of Threads"

/-- A chart whose horizontal axis counts threads. -/
def overThreads (path : Path) (title yLabel : String) (points : List Point) :
    Chart where
  path
  title
  xLabel := threadsLabel
  yLabel
  points

/-- The range of the horizontal axis. -/
def xRange (chart : Chart) : AxisRange :=
  .around (chart.points.map (·.x))

/-- The range of the vertical axis. -/
def yRange (chart : Chart) : AxisRange :=
  .around (chart.points.map (·.y))

end Chart

end BenchReport
