import BenchReport.Chart.Basic
import BenchReport.Chart.Comparison
import BenchReport.Chart.Metric
import BenchReport.Table.Ratio

/-!
# Sets of charts

The charts of a case are three for each number of streams, one for each metric;
those of a comparison are one for each number of streams of the tree reduction.
A set is computed as a whole: a single value that cannot be computed leaves no
chart of it.
-/

namespace BenchReport

/-- The points of a metric over threads, for the rows with some number of
streams. -/
def Metric.points (rows : List (Timing × Double)) (xstreams : UInt32)
    (metric : Metric) :
    List Point :=
  (rows.filter (·.1.xstreams = xstreams)).map fun (timing, ratio) =>
    ⟨.ofNat timing.threads.toNat, metric.value timing ratio⟩

/-- The chart of a metric of a case. -/
def Metric.chart (case : String) (directory : Path)
    (rows : List (Timing × Double)) (xstreams : UInt32) (metric : Metric) :
    Chart :=
  .overThreads (directory.join (metric.fileName xstreams))
    (metric.title xstreams case) metric.label (metric.points rows xstreams)

/-- The charts of a case, under its name in the output directory. -/
def caseCharts (table : Table) (output : Path) :
    Except TimingError (List Chart) := do
  let baseline ← table.baselineTime
  let speedups ← table.speedups baseline
  return table.xstreams.flatMap fun xstreams =>
    Metric.all.map
      (Metric.chart table.name (output.join table.name)
        (table.rows.zip speedups) xstreams)

/-- The chart of a comparison for some number of streams. -/
def Comparison.chart (c : Comparison) (tree simple : Table) (output : Path)
    (xstreams : UInt32) : Except TimingError Chart := do
  let ratios ← tree.ratios simple xstreams
  return .overThreads ((output.join c.directory).join (c.fileName xstreams))
    (c.title xstreams) Metric.speedup.label
    (ratios.map fun (threads, ratio) => ⟨.ofNat threads.toNat, ratio⟩)

/-- The charts of a comparison, in its own place in the output directory. -/
def comparisonCharts (tree simple : Table) (c : Comparison) (output : Path) :
    Except TimingError (List Chart) :=
  tree.xstreams.mapM (c.chart tree simple output)

end BenchReport
