import BenchReport.Table.Basic

/-!
# Ratios between two tables

For some number of streams, the rows of two tables go together if both have the
same threads, each of them once. The ratio of a pair is the time in the second
table divided by the time in the first one. Faults are looked for in a fixed
order: the numbers of rows, a repetition in the second table, and then for each
row of the first table a missing partner, its own time, the time of its partner.
-/

namespace BenchReport.Table

/-- The threads that a row repeats, if one does: the first such row counts. -/
def repeated? (seen : List UInt32) : List Timing → Option UInt32
  | [] => none
  | t :: rest =>
    if seen.contains t.threads then some t.threads
      else repeated? (t.threads :: seen) rest

/-- Whether the time can be divided, though perhaps not divided by. -/
def isDividend (t : Timing) : Bool :=
  t.nanos.isFinite && Double.zero ≤ t.nanos

/-- Pairs each of the rows of the first table with its partner among `partners`,
rows of the second table that have no pair yet. -/
def pairRatios (first second : Table) (xstreams : UInt32) :
    List Timing → List Timing → Except TimingError (List (UInt32 × Double))
  | [], _ => .ok []
  | t :: rest, partners =>
    match partners.find? (·.threads = t.threads) with
    | none =>
      .error (.misaligned first.name second.name xstreams (.missing t.threads))
    | some partner =>
      if !t.isValid then .error (.invalidTiming first.name t)
      else if !isDividend partner then
        .error (.invalidTiming second.name partner)
      else
        (pairRatios first second xstreams rest
            (partners.eraseP (·.threads = t.threads))).map
          ((t.threads, partner.nanos / t.nanos) :: ·)

/-- The ratio for each number of threads, in the order of the first table. -/
def ratios (first second : Table) (xstreams : UInt32) :
    Except TimingError (List (UInt32 × Double)) :=
  let rows := first.partition xstreams
  let partners := second.partition xstreams
  if rows.length ≠ partners.length then
    .error (.misaligned first.name second.name xstreams
      (.rowCounts rows.length partners.length))
  else
    match repeated? [] partners with
    | some threads =>
      .error (.misaligned first.name second.name xstreams (.repeated threads))
    | none => pairRatios first second xstreams rows partners

end BenchReport.Table
