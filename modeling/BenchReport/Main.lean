import BenchReport.Chart.Drawing
import BenchReport.Image.Png
import BenchReport.Program.ChartRender
import BenchReport.Program.LogReport

/-!
# The command

The first argument names the program, `logs` or `charts`, and the others are its
own. What a program needs of the file system is looked up before and handed over
as a file tree; what it has to write is written after. A file that cannot be
read is in the tree as such a file, so that the program says what comes of it.
-/

namespace BenchReport.Command

/-- The number and the words of an error of the operating system. -/
def code : IO.Error → Nat × String
  | .alreadyExists _ n text => (n.toNat, text)
  | .otherError n text => (n.toNat, text)
  | .resourceBusy n text => (n.toNat, text)
  | .resourceVanished n text => (n.toNat, text)
  | .unsupportedOperation n text => (n.toNat, text)
  | .hardwareFault n text => (n.toNat, text)
  | .unsatisfiedConstraints n text => (n.toNat, text)
  | .illegalOperation n text => (n.toNat, text)
  | .protocolError n text => (n.toNat, text)
  | .timeExpired n text => (n.toNat, text)
  | .interrupted _ n text => (n.toNat, text)
  | .noFileOrDirectory _ n text => (n.toNat, text)
  | .invalidArgument _ n text => (n.toNat, text)
  | .permissionDenied _ n text => (n.toNat, text)
  | .resourceExhausted _ n text => (n.toNat, text)
  | .inappropriateType _ n text => (n.toNat, text)
  | .noSuchThing _ n text => (n.toNat, text)
  | .unexpectedEof => (0, "end of file")
  | .userError text => (0, text)

/-- What an error says to stand in the way of reading a file. -/
def obstacle (opens : Bool) (e : IO.Error) : Obstacle where
  opens
  code := (code e).1
  text := (code e).2

/-- The error of a call to the file system. The numbers are the operating
system's own, as the wordings show. -/
def fileError (e : IO.Error) : FileError :=
  match (code e).1 with
  | 2 => .notFound
  | 17 => .exists
  | 20 => .notDirectory
  | 21 => .isDirectory
  | 36 => .nameTooLong
  | 40 => .tooManyLinks
  | _ => .blocked (obstacle false e)

/-- Does some work on the file system. -/
def attempt {α : Type} (work : IO α) : BaseIO (Except FileError α) := do
  match ← work.toBaseIO with
  | .ok value => return .ok value
  | .error e => return .error (fileError e)

/-- What is found at a path, links followed. -/
def kind? (path : Path) : BaseIO (Option IO.FS.FileType) := do
  let found : IO IO.FS.FileType := do
    return (← (← IO.FS.realPath path.text).metadata).type
  return (← found.toBaseIO).toOption

/-- The file at a path with its bytes, unless something keeps them. -/
def readFile (path : Path) : BaseIO Node := do
  match ← (IO.FS.Handle.mk path.text .read).toBaseIO with
  | .error e => return .blocked (obstacle false e)
  | .ok handle =>
    match ← handle.readBinToEnd.toBaseIO with
    | .error e => return .blocked (obstacle true e)
    | .ok bytes => return .file bytes.toList

/-- The tree with what is found at a path. Only if it is going to be read, the
bytes of a file are wanted, or what keeps anyone from getting there. -/
def observe (reading : Bool) (tree : FileTree) (path : Path) :
    BaseIO FileTree := do
  match ← kind? path with
  | some .dir => return (tree.makeDirectories path).toOption.getD tree
  | some .file =>
    let file ← if reading then readFile path else pure (.file [])
    return (tree.putFile path file).toOption.getD tree
  | some _ => return tree
  | none =>
    if reading then
      match ← attempt (IO.FS.Handle.mk path.text .read) with
      | .error (.blocked obstacle) =>
        return (tree.putFile path (.blocked obstacle)).toOption.getD tree
      | _ => return tree
    else return tree

/-- The tree with what is found on the way to a path and at its end. -/
def observeWay (reading : Bool) (tree : FileTree) (path : Path) :
    BaseIO FileTree :=
  path.ancestors.reverse.foldlM (observe reading) tree

/-- The tree of the directory one stands in. -/
def currentTree : BaseIO FileTree := do
  match ← IO.currentDir.toBaseIO with
  | .ok directory =>
    return (FileTree.standingIn ⟨directory.toString⟩).toOption.getD .empty
  | .error _ => return .empty

/-- The names in a directory. -/
def namesIn (path : Path) : BaseIO (Except IO.Error (List String)) := do
  let entries : IO (Array IO.FS.DirEntry) := do
    (← IO.FS.realPath path.text).readDir
  return (← entries.toBaseIO).map (·.toList.map (·.fileName))

/-- The tree with something in the place of a directory that has entries which
no one may list. -/
def bar (tree : FileTree) (directory : Path) (obstacle : Obstacle) : FileTree :=
  match tree.resolve directory with
  | .ok place => tree.put place (.blocked obstacle)
  | .error _ => tree

/-- The input directory with its log files. Other files in it have no bytes. -/
def logTree (settings : LogSettings) : BaseIO FileTree := do
  let directory := settings.inputDirectory
  let way ← observeWay true (← currentTree) directory
  match ← namesIn directory with
  | .error e => return bar way directory (obstacle false e)
  | .ok names =>
    let outline ← (names.map directory.join).foldlM (observe false) way
    match LogFile.scan outline directory settings.extension with
    | .ok paths => paths.foldlM (observe true) outline
    | .error _ => return outline

/-- Reports a failure. -/
def fail (message : String) : IO Bool := do
  IO.eprintln ("Error: " ++ message)
  return false

/-- Writes a file. The bytes are out only once the handle is flushed. -/
def writeFile (path : Path) (bytes : ByteArray) : IO Unit :=
  IO.FS.withFile path.text .write fun handle => do
    handle.write bytes
    handle.flush

/-- Runs the log report program; the result says whether it succeeds. -/
def runLogs (coloured : Bool) (arguments : List String) : IO Bool := do
  match LogSettings.read arguments with
  | .error e => fail (LogFailure.usage e).message
  | .ok settings =>
    match settings.plan (← logTree settings) with
    | .error e => fail e.message
    | .ok plan =>
      (plan.warningLines coloured).forM IO.eprintln
      match plan.destination with
      | none =>
        IO.print plan.report
        return true
      | some path =>
        match ← attempt (writeFile path plan.report.toUTF8) with
        | .ok () => return true
        | .error e => fail (LogFailure.writing path e).message

/-- Makes a directory if none is found there. -/
def makeMissing (path : Path) : IO Unit := do
  match ← kind? path with
  | some .dir => return ()
  | _ => IO.FS.createDir path.text

/-- Makes the directory of the image of a chart: what a tree of the way there
has when it is prepared for the image is made in the file system too. -/
def prepareImage (chart : Chart) : BaseIO (Except CanvasError Unit) := do
  let some directory := chart.path.parent? | return .ok ()
  let way ← observeWay false (← currentTree) directory
  match Canvas.prepare way chart with
  | .error e => return .error e
  | .ok prepared =>
    let directories := directory.ancestors.reverse.filter prepared.isDirectory
    match ← attempt (directories.forM makeMissing) with
    | .ok () => return .ok ()
    | .error e => return .error (.creatingDirectory directory e)

/-- Draws charts as images in files. -/
def fileCanvas : Canvas IO where
  draw chart := do
    match ← prepareImage chart with
    | .error e => return .error e
    | .ok () =>
      let bytes := Png.encode (chart.image Canvas.width Canvas.height)
      match ← (writeFile chart.path bytes).toBaseIO with
      | .ok () => return .ok ()
      | .error e => return .error (.drawing chart.path (toString e))

/-- The tables of the cases. -/
def tableTree (settings : ChartSettings) : BaseIO FileTree := do
  (Case.all.map (Table.path settings.inputDirectory)).foldlM (observeWay true)
    (← currentTree)

/-- Runs the chart program; the result says whether it succeeds. -/
def runCharts (coloured : Bool) (arguments : List String) : IO Bool := do
  match ChartSettings.read arguments with
  | .error e => fail e.message
  | .ok settings =>
    let progress ← renderAll coloured (← tableTree settings) settings fileCanvas
    progress.output.forM IO.println
    progress.finalErrors.forM IO.eprintln
    return progress.failures = 0

/-- Whether the environment and the standard output ask for colours. -/
def coloursWanted : IO Bool := do
  return Label.areColoured (← IO.getEnv "CLICOLOR_FORCE")
    (← IO.getEnv "NO_COLOR") (← IO.getEnv "CLICOLOR")
    (← (← IO.getStdout).isTty)

/-- Runs the program that the first argument names. -/
def run : List String → IO Bool
  | "logs" :: arguments => do runLogs (← coloursWanted) arguments
  | "charts" :: arguments => do runCharts (← coloursWanted) arguments
  | _ => fail "the first argument has to be `logs` or `charts`"

end BenchReport.Command

/-- Runs a program; the exit code tells whether it succeeds. -/
def main (arguments : List String) : IO UInt32 := do
  return if ← BenchReport.Command.run arguments then 0 else 1
