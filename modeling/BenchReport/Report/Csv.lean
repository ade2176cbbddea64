import BenchReport.Csv.Write
import BenchReport.Numeral.Style
import BenchReport.Report.Entry

/-!
# Table reports

A report is a table whose first record names the columns; without entries there
is no record at all. What is unknown is an empty field.
-/

namespace BenchReport.Csv

/-- The names of the columns. -/
def reportHeader : List (List Char) :=
  [Entry.classColumn, Entry.xstreamsColumn, Entry.threadsColumn,
    Entry.secondsColumn, Entry.nanosColumn,
    Entry.samplesColumn].map String.toList

/-- The field of a count that may be unknown. -/
def countField : Option UInt32 → List Char
  | none => []
  | some n => Nat.toDigits 10 n.toNat

/-- The record of an entry. -/
def ofEntry (e : Entry) : List (List Char) :=
  [(e.setting.problemClass.map String.toList).getD [],
    countField e.setting.xstreams,
    countField e.setting.threads,
    e.timeSeconds.toChars .tabular,
    Nat.toDigits 10 e.timeNanos.toNat,
    Nat.toDigits 10 e.samples]

/-- The records of a report. -/
def reportRecords : List Entry → List (List (List Char))
  | [] => []
  | entries => reportHeader :: entries.map ofEntry

/-- The report of some entries. -/
def report (entries : List Entry) : List Char :=
  (reportRecords entries).flatMap recordText

end BenchReport.Csv
