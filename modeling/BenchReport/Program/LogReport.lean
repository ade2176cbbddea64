import BenchReport.CommandLine.Label
import BenchReport.CommandLine.Usage
import BenchReport.LogFile.Directory
import BenchReport.Report.Basic

/-!
# The log report program

The program surveys a directory of logs and writes a report on the samples. All
that can fail before the report is written is settled first, so a program that
fails has written nothing; what it warns of goes to the standard error output.
-/

namespace BenchReport

/-- The settings of the program. -/
structure LogSettings where
  /-- Whether warnings are left out. -/
  quiet : Bool := false
  /-- The directory of the logs. -/
  inputDirectory : Path := ⟨"./raw_results_argobots"⟩
  /-- The extension of the logs. -/
  extension : String := "txt"
  /-- The format of the report. -/
  format : ReportFormat := .text
  /-- The file for the report, which goes to the standard output without one. -/
  outputPath : Option Path := none
deriving DecidableEq, Repr

namespace LogSettings

/-- What the program takes. -/
def usage : Usage LogSettings where
  flags :=
    [{ name := "quiet", letter := 'q', set := ({ · with quiet := true }) }]
  options := [
    { name := "extension", set := fun value s =>
        .ok { s with extension := value } },
    { name := "output-format", set := fun value s =>
        match ReportFormat.ofName value with
        | .ok format => .ok { s with format }
        | .error _ => .error .valueValidation },
    .nonempty "output-path" fun value s =>
      { s with outputPath := some ⟨value⟩ }]
  positionals := [
    .nonempty "input directory" fun value s =>
      { s with inputDirectory := ⟨value⟩ }]

/-- The settings of a command line. -/
def read (arguments : List String) : Except UsageError LogSettings :=
  usage.read {} arguments

/-- Whether the extension is none that a file can have. -/
def hasInvalidExtension (s : LogSettings) : Bool :=
  s.extension.isEmpty || s.extension.toList.any fun c =>
    c = '/' || c = '*' || c = '?'

end LogSettings

/-- Why the program fails. -/
inductive LogFailure where
  /-- The command line is not accepted. -/
  | usage (error : UsageError)
  /-- No file can have the extension. -/
  | invalidExtension (extension : String)
  /-- The directory cannot be searched. -/
  | scan (error : ScanError)
  /-- The report cannot be written. -/
  | writing (path : Path) (error : FileError)
deriving DecidableEq, Repr

/-- The wording of the failure. -/
def LogFailure.message : LogFailure → String
  | usage e => e.message
  | invalidExtension extension =>
    "Invalid log file extension `" ++ extension
      ++ "`. Use `--extension` with a plain extension like `txt`."
  | scan e => e.message
  | writing path e => "Report file " ++ path.quoted ++ " writing: " ++ e.message

/-- A report that is ready to be written. -/
structure LogPlan where
  /-- What to warn of. -/
  warnings : List String
  /-- The report. -/
  report : String
  /-- The file for it, if it goes to one. -/
  destination : Option Path
deriving DecidableEq, Repr

namespace LogSettings

/-- What has to be warned of after a survey. -/
def warnings (s : LogSettings) (survey : LogFile.Survey) : List String :=
  if s.quiet then []
  else
    survey.skipped.map (·.message)
      ++ if survey.samples.isEmpty then
          ["No verified logs found in " ++ s.inputDirectory.quoted]
        else []

/-- What the program is going to write. -/
def plan (s : LogSettings) (tree : FileTree) : Except LogFailure LogPlan :=
  if s.hasInvalidExtension then .error (.invalidExtension s.extension)
  else
    match LogFile.survey tree s.inputDirectory s.extension with
    | .error e => .error (.scan e)
    | .ok survey =>
      .ok { warnings := s.warnings survey
            report := survey.samples.report s.format
            destination := s.outputPath }

end LogSettings

/-- The file tree after a report is written to a file. -/
def writeReport (tree : FileTree) (path : Path) (report : String) :
    Except LogFailure FileTree :=
  match tree.write path (Utf8.encode report.toList) with
  | .ok written => .ok written
  | .error e => .error (.writing path e)

/-- What a program leaves behind. -/
structure Outcome where
  /-- Whether the program succeeds. -/
  success : Bool
  /-- What is written to the standard output. -/
  output : String
  /-- What is written to the standard error output. -/
  errors : String
  /-- The file tree. -/
  tree : FileTree
deriving DecidableEq

/-- Lines of text, each with its end. -/
def linesText (lines : List String) : String :=
  .join (lines.map (· ++ "\n"))

/-- A program that fails after some lines of warnings. -/
def Outcome.failed (tree : FileTree) (lines : List String) (message : String) :
    Outcome where
  success := false
  output := ""
  errors := linesText (lines ++ ["Error: " ++ message])
  tree

/-- The lines of the warnings. -/
def LogPlan.warningLines (coloured : Bool) (p : LogPlan) : List String :=
  p.warnings.map fun warning => Label.text coloured .warning ++ " " ++ warning

/-- Writes what is ready to be written. -/
def LogPlan.carryOut (coloured : Bool) (tree : FileTree) (p : LogPlan) :
    Outcome :=
  let lines := p.warningLines coloured
  match p.destination with
  | none =>
    { success := true, output := p.report, errors := linesText lines, tree }
  | some path =>
    match writeReport tree path p.report with
    | .ok tree =>
      { success := true, output := "", errors := linesText lines, tree }
    | .error e => .failed tree lines e.message

/-- Runs the program. -/
def runLogReport (coloured : Bool) (tree : FileTree) (arguments : List String) :
    Outcome :=
  match LogSettings.read arguments with
  | .error e => .failed tree [] (LogFailure.usage e).message
  | .ok settings =>
    match settings.plan tree with
    | .error e => .failed tree [] e.message
    | .ok plan => plan.carryOut coloured tree

end BenchReport
