import BenchReport.Numeral.Style
import BenchReport.Samples.Summary

/-!
# Report entries

One entry for each group that has times, in ascending order of settings. An
entry gives the mean twice: in hundredths of a second, and as a whole number of
nanoseconds, which stays within 64 bits whatever the mean is.
-/

namespace BenchReport

/-- What a report says of one group. -/
structure Entry where
  /-- The setting of the group. -/
  setting : Setting
  /-- The mean time in seconds, rounded to hundredths. -/
  timeSeconds : Double
  /-- The mean time in nanoseconds. -/
  timeNanos : UInt64
  /-- The number of runs. -/
  samples : Nat
deriving DecidableEq, Repr

namespace Entry

/-- The nanoseconds in a second. -/
def nanosPerSecond : Double := .ofNat 1000000000

/-- The entry of a group with this summary. -/
def ofSummary (setting : Setting) (summary : Summary) : Entry where
  setting
  timeSeconds := summary.roundedMean
  timeNanos := (summary.mean * nanosPerSecond).toUInt64
  samples := summary.samples

/-- The column of problem classes. -/
def classColumn : String := "Class"

/-- The column of execution streams. -/
def xstreamsColumn : String := "Xstreams"

/-- The column of threads. -/
def threadsColumn : String := "Threads"

/-- The column of mean times in seconds. -/
def secondsColumn : String := "Time(s)"

/-- The column of mean times in nanoseconds. -/
def nanosColumn : String := "Time(nanos)"

/-- The column of numbers of runs. -/
def samplesColumn : String := "Samples"

/-- The line of the entry in a text report. -/
def line (setting : Setting) (summary : Summary) : String :=
  setting.text ++ ": " ++ summary.roundedMean.toText .fractional

end Entry

/-- The entries of a report. -/
def Samples.entries (s : Samples) : List Entry :=
  s.summaries.map fun (setting, summary) => .ofSummary setting summary

end BenchReport
