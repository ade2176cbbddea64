import BenchReport.Double.Arithmetic
import BenchReport.Numeral.Hundredths
import BenchReport.Numeral.Read
import BenchReport.Samples.Basic

/-!
# Summaries

The mean of a group and the number of its times. The times are added up in their
order, with a rounding at each step, and the sum starts from the negative zero,
the one number that adding leaves every other one unchanged. A report shows the
mean in hundredths: it is written with two decimal places and read again.
-/

namespace BenchReport

/-- The mean of some times and their number. -/
structure Summary where
  /-- The arithmetic mean in seconds. -/
  mean : Double
  /-- The number of times. -/
  samples : Nat
deriving DecidableEq, Repr

namespace Summary

/-- The sum of the times, added up in order. -/
def total (times : List Double) : Double :=
  times.foldl (· + ·) .negativeZero

/-- The summary of times, unless there are none. -/
def ofTimes? (times : List Double) : Option Summary :=
  if times.isEmpty then none
  else some { mean := total times / .ofNat times.length,
              samples := times.length }

/-- The mean as its numeral in hundredths of a second is read back; the mean
itself if that were no number. -/
def roundedMean (s : Summary) : Double :=
  (Double.read s.mean.toHundredths).toOption.getD s.mean

end Summary

/-- The summaries of the groups that have times, in ascending order
of settings. -/
def Samples.summaries (s : Samples) : List (Setting × Summary) :=
  s.groups.filterMap fun g => (Summary.ofTimes? g.times).map (g.setting, ·)

end BenchReport
