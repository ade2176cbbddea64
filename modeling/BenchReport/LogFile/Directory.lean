import BenchReport.Glob.Search
import BenchReport.LogFile.Basic
import BenchReport.Samples.Basic

/-!
# Directories of log files

The log files of a directory are the files whose names end with a dot and the
extension. They are found by a pattern in which the directory stands for itself
and the extension keeps its special characters, and they come in ascending order
of their paths. A file that gives no run is left out and reported; only a
directory that cannot be searched is an error.
-/

namespace BenchReport

/-- Why a directory cannot be searched. -/
inductive ScanError where
  /-- The entries of the directory cannot be listed. -/
  | directoryNotFound (directory : Path)
  /-- The directory and the extension make no pattern. -/
  | pattern (directory : Path) (error : Glob.PatternError)
deriving DecidableEq, Repr

/-- The wording of the error. -/
def ScanError.message : ScanError → String
  | directoryNotFound directory =>
    "Input directory " ++ directory.quoted ++ " is not found or not readable"
  | pattern directory error =>
    "Input directory " ++ directory.quoted ++ " pattern: " ++ error.message

namespace LogFile

/-- The pattern of the log files in a directory. -/
def patternText (directory : Path) (extension : String) : List Char :=
  Glob.escape directory.text.toList ++ "/*.".toList ++ extension.toList

/-- The paths of the log files in a directory. -/
def scan (tree : FileTree) (directory : Path) (extension : String) :
    Except ScanError (List Path) :=
  match tree.list directory with
  | .error _ => .error (.directoryNotFound directory)
  | .ok _ =>
    match Glob.PathPattern.read (patternText directory extension) with
    | .error error => .error (.pattern directory error)
    | .ok pattern =>
      .ok (((Glob.search tree pattern).filter tree.isFile).mergeSort Path.le)

/-- What the log files of a directory tell. -/
structure Survey where
  /-- The times of the runs, taken in the order of the paths. -/
  samples : Samples
  /-- The files without a run, in the order of the paths. -/
  skipped : List Skipped
deriving DecidableEq

/-- The survey of some files. -/
def surveyOf (tree : FileTree) (paths : List Path) : Survey :=
  let outcomes := paths.map (examine tree)
  { samples := .ofList (outcomes.filterMap Except.toOption)
    skipped := outcomes.filterMap fun
      | .ok _ => none
      | .error skipped => some skipped }

/-- The survey of the log files in a directory. -/
def survey (tree : FileTree) (directory : Path) (extension : String) :
    Except ScanError Survey :=
  (scan tree directory extension).map (surveyOf tree)

end LogFile

end BenchReport
