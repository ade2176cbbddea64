import BenchReport.Table.Basic

/-!
# Metrics

What the charts of a case show, for each number of execution streams: the mean
time as the table gives it in seconds, the mean time in nanoseconds converted to
seconds, and the speedup.
-/

namespace BenchReport

/-- What a chart shows over the number of threads. -/
inductive Metric where
  /-- The time from the column of seconds. -/
  | meanTime
  /-- The time from the column of nanoseconds. -/
  | meanTimeNanos
  /-- The speedup against the baseline. -/
  | speedup
deriving DecidableEq, Repr

namespace Metric

/-- All metrics in the order of their charts. -/
def all : List Metric := [meanTime, meanTimeNanos, speedup]

/-- The name of the image for a number of streams. -/
def fileName (xstreams : UInt32) : Metric → String
  | meanTime => "mean_execution_time_xstreams_" ++ xstreams.toNat.repr ++ ".png"
  | meanTimeNanos =>
    "mean_execution_time_xstreams_" ++ xstreams.toNat.repr ++ "_nanos.png"
  | speedup => "speedup_xstreams_" ++ xstreams.toNat.repr ++ ".png"

/-- What the title calls the metric. -/
def heading : Metric → String
  | meanTime | meanTimeNanos => "Mean Execution Time vs Threads"
  | speedup => "Speedup vs Threads"

/-- The title of the chart of a case for a number of streams. -/
def title (xstreams : UInt32) (case : String) (metric : Metric) : String :=
  metric.heading ++ " (Xstreams=" ++ xstreams.toNat.repr ++ ") (" ++ case ++ ")"

/-- The label of the vertical axis. -/
def label : Metric → String
  | meanTime | meanTimeNanos => "Mean Time (s)"
  | speedup => "Speedup"

/-- The value for a row that has the speedup given. -/
def value (timing : Timing) (speedupOfRow : Double) : Metric → Double
  | meanTime => timing.seconds
  | meanTimeNanos => timing.nanosAsSeconds
  | speedup => speedupOfRow

end Metric

end BenchReport
