import BenchReport.Chart.Canvas
import BenchReport.CommandLine.Label
import BenchReport.CommandLine.Usage

/-!
# The chart program

The program renders the charts of each case and then of each comparison. A set
of charts that fails is told and counted, and the others go on. A comparison
takes the tables of its cases from the cases whose charts were rendered, and
loads the others again.
-/

namespace BenchReport

/-- The settings of the program. -/
structure ChartSettings where
  /-- Whether progress is left untold. -/
  quiet : Bool := false
  /-- The directory of the tables. -/
  inputDirectory : Path := ⟨"."⟩
  /-- The directory for the directories of the charts. -/
  outputDirectory : Path := ⟨"."⟩
deriving DecidableEq, Repr

namespace ChartSettings

/-- What the program takes. -/
def usage : Usage ChartSettings where
  flags :=
    [{ name := "quiet", letter := 'q', set := ({ · with quiet := true }) }]
  options := [
    .nonempty "input-directory" fun value s =>
      { s with inputDirectory := ⟨value⟩ },
    .nonempty "output-directory" fun value s =>
      { s with outputDirectory := ⟨value⟩ }]
  positionals := []

/-- The settings of a command line. -/
def read (arguments : List String) : Except UsageError ChartSettings :=
  usage.read {} arguments

end ChartSettings

/-- How far the program has come. -/
structure Progress where
  /-- The tables of the cases whose charts were rendered. -/
  tables : List (String × Table) := []
  /-- The number of sets of charts that failed. -/
  failures : Nat := 0
  /-- The lines for the standard output. -/
  output : List String := []
  /-- The lines for the standard error output. -/
  errors : List String := []
deriving DecidableEq, Repr

namespace Progress

/-- The progress after a set of charts. -/
def record (p : Progress) (coloured quiet : Bool) (name : String) :
    Except ChartError (List Path) → Progress
  | .ok paths =>
    if quiet then p
    else
      { p with output := p.output ++
        ["    " ++ Label.text coloured .rendered ++ " "
          ++ paths.length.repr ++ " chart(s) for " ++ name] }
  | .error e =>
    { p with
      failures := p.failures + 1
      errors := p.errors ++
        [Label.text coloured .error ++ " " ++ name ++ ": " ++ e.message] }

/-- The table of a case, loaded unless it is at hand. -/
def table (p : Progress) (load : String → Except TableError Table)
    (case : String) :
    Except TableError Table :=
  match p.tables.lookup case with
  | some table => .ok table
  | none => load case

end Progress

variable {m : Type → Type} [Monad m]

/-- Renders the charts of a case. -/
def renderCaseSet (coloured : Bool) (settings : ChartSettings)
    (canvas : Canvas m) (load : String → Except TableError Table) (p : Progress)
    (case : String) : m Progress :=
  let record := p.record coloured settings.quiet case
  match load case with
  | .error e => pure (record (.error (.table e)))
  | .ok table => do
    match ← renderCase canvas table settings.outputDirectory with
    | .error e => return record (.error e)
    | .ok paths =>
      return { record (.ok paths) with tables := (case, table) :: p.tables }

/-- Renders the charts of a comparison. -/
def renderComparisonSet (coloured : Bool) (settings : ChartSettings)
    (canvas : Canvas m) (load : String → Except TableError Table) (p : Progress)
    (c : Comparison) : m Progress :=
  let record := p.record coloured settings.quiet c.name
  match p.table load c.tree with
  | .error e => pure (record (.error (.table e)))
  | .ok tree =>
    match p.table load c.simple with
    | .error e => pure (record (.error (.table e)))
    | .ok simple => do
      return record
        (← renderComparison canvas tree simple c settings.outputDirectory)

/-- Renders all charts, with tables that `load` gives. -/
def renderAllFrom (coloured : Bool) (settings : ChartSettings)
    (canvas : Canvas m) (load : String → Except TableError Table) :
    m Progress := do
  let p ← Case.all.foldlM (renderCaseSet coloured settings canvas load) {}
  Comparison.all.foldlM (renderComparisonSet coloured settings canvas load) p

/-- Renders all charts, with the tables in the input directory. -/
def renderAll (coloured : Bool) (tree : FileTree) (settings : ChartSettings)
    (canvas : Canvas m) : m Progress :=
  renderAllFrom coloured settings canvas
    (Table.load tree settings.inputDirectory)

/-- The wording of the failure of some sets of charts. -/
def failureMessage (failures : Nat) : String :=
  failures.repr ++ " chart set(s) failed to render"

/-- The lines that the program ends with on the standard error output. -/
def Progress.finalErrors (p : Progress) : List String :=
  if p.failures = 0 then p.errors
  else p.errors ++ ["Error: " ++ failureMessage p.failures]

end BenchReport
