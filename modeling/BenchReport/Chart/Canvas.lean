import BenchReport.Chart.Set
import BenchReport.FileTree.Access
import BenchReport.Table.Load

/-!
# Drawing charts

A canvas draws charts one at a time and may fail at any of them. What it does
otherwise is its own business, so drawing is described for canvases of every
kind of effect.
-/

namespace BenchReport

/-- Why a chart is not drawn. -/
inductive CanvasError where
  /-- The directory of the image cannot be made. -/
  | creatingDirectory (path : Path) (error : FileError)
  /-- The image cannot be drawn or saved. -/
  | drawing (path : Path) (message : String)
deriving DecidableEq, Repr

/-- The wording of the error. -/
def CanvasError.message : CanvasError → String
  | creatingDirectory path e =>
    "Creating directory " ++ path.quoted ++ ": " ++ e.message
  | drawing path text => "Drawing chart " ++ path.quoted ++ ": " ++ text

/-- Something that draws charts. -/
structure Canvas (m : Type → Type) where
  /-- Draws a chart and saves it at its path. -/
  draw : Chart → m (Except CanvasError Unit)

namespace Canvas

/-- The size of the images in pixels, across. -/
def width : Nat := 1000

/-- The size of the images in pixels, from top to bottom. -/
def height : Nat := 600

/-- The file tree with the directory of the image of a chart in it. -/
def prepare (tree : FileTree) (chart : Chart) : Except CanvasError FileTree :=
  match chart.path.parent? with
  | none => .ok tree
  | some directory =>
    match tree.makeDirectories directory with
    | .ok prepared => .ok prepared
    | .error e => .error (.creatingDirectory directory e)

variable {m : Type → Type} [Monad m]

/-- Draws charts in their order up to the first failure, and gives the paths of
the images if there is none. -/
def drawAll (canvas : Canvas m) :
    List Chart → m (Except CanvasError (List Path))
  | [] => pure (.ok [])
  | chart :: charts => do
    match ← canvas.draw chart with
    | .error e => return .error e
    | .ok () =>
      match ← drawAll canvas charts with
      | .error e => return .error e
      | .ok paths => return .ok (chart.path :: paths)

end Canvas

/-- Why a set of charts is not rendered. -/
inductive ChartError where
  /-- A table cannot be loaded. -/
  | table (error : TableError)
  /-- A value cannot be computed. -/
  | timing (error : TimingError)
  /-- A chart is not drawn. -/
  | canvas (error : CanvasError)
deriving DecidableEq, Repr

/-- The wording of the error. -/
def ChartError.message : ChartError → String
  | table e => e.message
  | timing e => e.message
  | canvas e => e.message

variable {m : Type → Type} [Monad m]

/-- Draws charts if they could be computed. -/
def renderCharts (canvas : Canvas m) :
    Except TimingError (List Chart) → m (Except ChartError (List Path))
  | .error e => pure (.error (.timing e))
  | .ok charts => do
    match ← canvas.drawAll charts with
    | .error e => return .error (.canvas e)
    | .ok paths => return .ok paths

/-- Draws the charts of a case. -/
def renderCase (canvas : Canvas m) (table : Table) (output : Path) :
    m (Except ChartError (List Path)) :=
  renderCharts canvas (caseCharts table output)

/-- Draws the charts of a comparison. -/
def renderComparison (canvas : Canvas m) (tree simple : Table) (c : Comparison)
    (output : Path) : m (Except ChartError (List Path)) :=
  renderCharts canvas (comparisonCharts tree simple c output)

end BenchReport
