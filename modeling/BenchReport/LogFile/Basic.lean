import BenchReport.FileTree.Access
import BenchReport.Run.Basic
import BenchReport.Text.Utf8

/-!
# Log files

A log is read as text whatever its bytes are: what is no encoded character
becomes a replacement character, and the rest of the log still counts.
-/

namespace BenchReport

/-- A log file that was read. -/
structure LogFile where
  /-- Where the file is. -/
  path : Path
  /-- The characters in it. -/
  content : List Char
deriving DecidableEq, Repr

namespace LogFile

/-- A log file that cannot be read. -/
structure Unreadable where
  /-- Where the file should be. -/
  path : Path
  /-- What went wrong. -/
  error : FileError
deriving DecidableEq, Repr

/-- The wording of the error. -/
def Unreadable.message (e : Unreadable) : String :=
  "Reading log file " ++ e.path.quoted ++ ": " ++ e.error.message

/-- Reads a log file. -/
def read (tree : FileTree) (path : Path) : Except Unreadable LogFile :=
  match tree.read path with
  | .ok bytes => .ok ⟨path, Utf8.decodeLossy bytes⟩
  | .error error => .error ⟨path, error⟩

/-- The name by which messages call the file. -/
def name (file : LogFile) : String :=
  file.path.shownName

/-- A file that gives no run. -/
inductive Skipped where
  /-- The log tells of no run. -/
  | rejected (path : Path) (rejection : Rejection)
  /-- The file cannot be read. -/
  | unreadable (e : Unreadable)
deriving DecidableEq, Repr

/-- The wording of the reason. -/
def Skipped.message : Skipped → String
  | rejected path rejection => rejection.message ++ " on " ++ path.shownName
  | unreadable e => e.message

/-- The run that the log at a path tells of. -/
def examine (tree : FileTree) (path : Path) : Except Skipped Run :=
  match read tree path with
  | .error e => .error (.unreadable e)
  | .ok file =>
    match Run.ofLog file.content with
    | .ok run => .ok run
    | .error rejection => .error (.rejected path rejection)

end LogFile

end BenchReport
