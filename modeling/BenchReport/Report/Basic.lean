import BenchReport.Report.Csv
import BenchReport.Report.Format
import BenchReport.Report.Json

/-!
# Reports

The report on samples in each of the formats, to the last character.
-/

namespace BenchReport

/-- The lines of the text report. -/
def Samples.lines (s : Samples) : List String :=
  s.summaries.map fun (setting, summary) => Entry.line setting summary

/-- The characters of the report in a format. -/
def Samples.reportChars (s : Samples) : ReportFormat → List Char
  | .text => s.lines.flatMap fun line => line.toList ++ ['\n']
  | .json => Json.report s.entries
  | .csv => Csv.report s.entries

/-- The report in a format. -/
def Samples.report (s : Samples) (format : ReportFormat) : String :=
  .ofList (s.reportChars format)

end BenchReport
