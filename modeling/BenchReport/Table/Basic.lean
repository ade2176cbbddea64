import BenchReport.Double.Arithmetic
import BenchReport.Numeral.Style

/-!
# Tables of timings

A table lists mean times by execution streams and threads. Its baseline is the
one row with a single stream and a single thread, and the speedup of a row is
the time of the baseline divided by the time of the row. A time can be divided
by if it is finite and positive.
-/

namespace BenchReport

/-- A row of a table. -/
structure Timing where
  /-- The number of execution streams. -/
  xstreams : UInt32
  /-- The number of user-level threads. -/
  threads : UInt32
  /-- The mean time in seconds. -/
  seconds : Double
  /-- The mean time in nanoseconds. -/
  nanos : Double
deriving DecidableEq, Repr

namespace Timing

/-- Whether the row is measured with one stream and one thread. -/
def isBaseline (t : Timing) : Bool :=
  t.xstreams = 1 && t.threads = 1

/-- The time in nanoseconds, in seconds. -/
def nanosAsSeconds (t : Timing) : Double :=
  t.nanos / .ofNat 1000000000

/-- Whether the time in nanoseconds can be divided by. -/
def isValid (t : Timing) : Bool :=
  t.nanos.isFinite && Double.zero < t.nanos

end Timing

/-- A table of mean times. -/
structure Table where
  /-- The case that the table belongs to. -/
  name : String
  /-- The rows in the order of the file. -/
  rows : List Timing
deriving DecidableEq, Repr

/-- How two tables fail to have the same threads for some number of streams. -/
inductive Misalignment where
  /-- They have different numbers of rows. -/
  | rowCounts (first second : Nat)
  /-- The second table has several rows with these threads. -/
  | repeated (threads : UInt32)
  /-- The second table has no row with these threads. -/
  | missing (threads : UInt32)
deriving DecidableEq, Repr

/-- Why values cannot be computed from tables. -/
inductive TimingError where
  /-- The table has no baseline. -/
  | baselineNotFound (case : String)
  /-- The table has several rows that could be the baseline. -/
  | ambiguousBaseline (case : String) (count : Nat)
  /-- A time is of no use. -/
  | invalidTiming (case : String) (timing : Timing)
  /-- The rows of two tables do not go together. -/
  | misaligned (first second : String) (xstreams : UInt32)
    (cause : Misalignment)
deriving DecidableEq, Repr

/-- The wording of the cause, where `second` is the name of the second table. -/
def Misalignment.message (second : String) : Misalignment → String
  | rowCounts m n => m.repr ++ " rows against " ++ n.repr ++ " rows"
  | repeated threads =>
    "Threads=" ++ threads.toNat.repr ++ " appears more than once in `" ++
      second ++ "`"
  | missing threads =>
    "Threads=" ++ threads.toNat.repr ++ " is missing in `" ++ second ++ "`"

/-- The wording of the error. -/
def TimingError.message : TimingError → String
  | baselineNotFound case =>
    "Table `" ++ case ++ "` has no baseline row with Xstreams=1 and Threads=1"
  | ambiguousBaseline case count =>
    "Table `" ++ case ++ "` has " ++ count.repr
      ++ " baseline rows with Xstreams=1 and Threads=1"
  | invalidTiming case timing =>
    "Table `" ++ case ++ "` has invalid time " ++ timing.nanos.toText .plain
      ++ " ns at Xstreams=" ++ timing.xstreams.toNat.repr
      ++ ", Threads=" ++ timing.threads.toNat.repr
  | misaligned first second xstreams cause =>
    "Tables `" ++ first ++ "` and `" ++ second ++
      "` are misaligned at Xstreams=" ++ xstreams.toNat.repr ++ ": " ++
      cause.message second

namespace Table

/-- The time of the baseline in nanoseconds. -/
def baselineTime (table : Table) : Except TimingError Double :=
  match table.rows.filter Timing.isBaseline with
  | [] => .error (.baselineNotFound table.name)
  | [baseline] =>
    if baseline.isValid then .ok baseline.nanos
    else .error (.invalidTiming table.name baseline)
  | several => .error (.ambiguousBaseline table.name several.length)

/-- The speedup of a row against a time in nanoseconds. -/
def speedup (table : Table) (baseline : Double) (timing : Timing) :
    Except TimingError Double :=
  if timing.isValid then .ok (baseline / timing.nanos)
  else .error (.invalidTiming table.name timing)

/-- The speedups of all rows against a time in nanoseconds. -/
def speedups (table : Table) (baseline : Double) :
    Except TimingError (List Double) :=
  table.rows.mapM (table.speedup baseline)

/-- The numbers of streams in the order in which they first appear. -/
def xstreams (table : Table) : List UInt32 :=
  (table.rows.map (·.xstreams)).eraseDups

/-- The rows with some number of streams. -/
def partition (table : Table) (xstreams : UInt32) : List Timing :=
  table.rows.filter (·.xstreams = xstreams)

/-- The rows by number of streams, in the order in which the numbers appear. -/
def partitions (table : Table) : List (UInt32 × List Timing) :=
  table.xstreams.map fun n => (n, table.partition n)

end Table

end BenchReport
