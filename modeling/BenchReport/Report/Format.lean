import BenchReport.Text.Lowercase

/-!
# Report formats

The formats and their names, which are read in any letter case.
-/

namespace BenchReport

/-- How a report is written. -/
inductive ReportFormat where
  /-- A line of text for each group. -/
  | text
  /-- An array of objects. -/
  | json
  /-- A table that starts with the names of its columns. -/
  | csv
deriving DecidableEq, Repr

namespace ReportFormat

instance : Inhabited ReportFormat := ⟨text⟩

/-- All formats. -/
def all : List ReportFormat := [text, json, csv]

/-- The name of the format. -/
def name : ReportFormat → String
  | text => "text"
  | json => "json"
  | csv => "csv"

/-- A name that no format has, in lower case. -/
structure Unknown where
  /-- The name. -/
  name : String
deriving DecidableEq, Repr

/-- The wording of the error. -/
def Unknown.message (unknown : Unknown) : String :=
  "Unknown output format `" ++ unknown.name ++ "`. Supported formats: "
    ++ ", ".intercalate (all.map ReportFormat.name)

/-- The format of a name. -/
def ofName (text : String) : Except Unknown ReportFormat :=
  let wanted := String.ofList (Text.lowercase text.toList)
  match all.find? (·.name = wanted) with
  | some format => .ok format
  | none => .error ⟨wanted⟩

end ReportFormat

end BenchReport
