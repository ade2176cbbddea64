import BenchReport.FileTree.Basic
import BenchReport.Path

/-!
# Walking a file tree

A path is walked step by step from its start, and every place that is left by a
step has to be a directory. A link on the way is replaced by the steps of its
target, taken from the directory that the link stands in. At most forty links
are followed in one walk.
-/

namespace BenchReport

/-- Why an access to a file tree fails. -/
inductive FileError where
  /-- A name on the way, or at its end, has no entry. -/
  | notFound
  /-- A step leaves something that is no directory. -/
  | notDirectory
  /-- A directory stands where a file is wanted. -/
  | isDirectory
  /-- An entry stands where a new one is wanted. -/
  | exists
  /-- A name or the whole path is too long. -/
  | nameTooLong
  /-- More links would have to be followed than is allowed. -/
  | tooManyLinks
  /-- The path holds the null character. -/
  | nullCharacter
  /-- A file is there, and something keeps its bytes from being had. -/
  | blocked (obstacle : Obstacle)
deriving DecidableEq, Repr

/-- The wording of the error. -/
def FileError.message : FileError → String
  | .notFound => "No such file or directory (os error 2)"
  | .notDirectory => "Not a directory (os error 20)"
  | .isDirectory => "Is a directory (os error 21)"
  | .exists => "File exists (os error 17)"
  | .nameTooLong => "File name too long (os error 36)"
  | .tooManyLinks => "Too many levels of symbolic links (os error 40)"
  | .nullCharacter => "file name contained an unexpected NUL byte"
  | .blocked obstacle =>
    obstacle.text ++ " (os error " ++ obstacle.code.repr ++ ")"

/-- Whether what is read can be opened all the same: a directory can, and so can
a file where only reading fails. -/
def FileError.opens : FileError → Bool
  | .isDirectory => true
  | .blocked obstacle => obstacle.opens
  | _ => false

/-- One step of a walk. -/
inductive Step where
  /-- Stay in the directory. -/
  | here
  /-- Go to the directory above; above the root is the root. -/
  | up
  /-- Go to an entry. -/
  | name (entry : FileName)
  /-- Go to an entry by a name that none can have. -/
  | tooLong
deriving DecidableEq, Repr

/-- The step of a part of a path; empty parts are not asked. -/
def Step.ofPart (part : List Char) : Step :=
  if part = ['.'] then .here
  else if part = ['.', '.'] then .up
  else
    match FileName.ofText? (.ofList part) with
    | some entry => .name entry
    | none => .tooLong

/-- The way that a path describes. -/
structure Route where
  /-- Whether the way begins at the root. -/
  fromRoot : Bool
  /-- The steps. -/
  steps : List Step
  /-- Whether a slash follows the last step. -/
  slashEnd : Bool
deriving DecidableEq, Repr

namespace Route

/-- The way of a text that holds no null character. -/
def ofText (text : String) : Route where
  fromRoot := text.toList.head? = some '/'
  steps := ((Path.splitParts text.toList).filter (· ≠ [])).map Step.ofPart
  slashEnd := text.toList.getLast? = some '/'

/-- The steps, with one that stays at the end where a slash ends the path: what
has a slash after it has to be a directory. -/
def stepsInto (r : Route) : List Step :=
  if r.slashEnd then r.steps ++ [.here] else r.steps

/-- Where the way begins when one stands at a place. -/
def origin (r : Route) (place : Place) : Place :=
  if r.fromRoot then [] else place

end Route

namespace FileTree

/-- The number of links that one walk follows at most. -/
def linkLimit : Nat := 40

/-- Where steps lead without following a link. -/
inductive Halt where
  /-- All steps are taken. -/
  | arrived (place : Place)
  /-- A link was met in a directory, with steps left after it. -/
  | link (directory : Place) (target : String) (rest : List Step)
deriving DecidableEq, Repr

/-- Takes steps from a place up to the first link. -/
def advance (tree : FileTree) (place : Place) :
    List Step → Except FileError Halt
  | [] => .ok (.arrived place)
  | step :: rest =>
    if tree.isDirectoryAt place then
      match step with
      | .here => advance tree place rest
      | .up => advance tree place.tail rest
      | .tooLong => .error .nameTooLong
      | .name entry =>
        match tree.find? (entry :: place) with
        | none => .error .notFound
        | some (.link target) => .ok (.link place target rest)
        | some _ => advance tree (entry :: place) rest
    else .error .notDirectory

/-- A place, and how many links may still be followed from there. -/
structure Arrival where
  /-- The place. -/
  place : Place
  /-- The number of links left. -/
  linksLeft : Nat
deriving DecidableEq, Repr

/-- Takes steps from a place and follows every link on the way. -/
def walk (tree : FileTree) (links : Nat) (place : Place) (steps : List Step) :
    Except FileError Arrival :=
  match links, tree.advance place steps with
  | _, .error e => .error e
  | links, .ok (.arrived place) => .ok ⟨place, links⟩
  | 0, .ok (.link ..) => .error .tooManyLinks
  | links + 1, .ok (.link directory target rest) =>
    let route := Route.ofText target
    walk tree links (route.origin directory) (route.stepsInto ++ rest)

/-- The way of a path, unless no path can have its text. -/
def route? (path : Path) : Except FileError Route :=
  if path.text.toList.contains '\x00' then .error .nullCharacter
  else if path.text = "" then .error .notFound
  else if 4096 ≤ path.text.utf8ByteSize then .error .nameTooLong
  else .ok (.ofText path.text)

/-- The place that a path leads to, all links followed. -/
def resolve (tree : FileTree) (path : Path) : Except FileError Place := do
  let route ← route? path
  let arrival ← tree.walk linkLimit (route.origin tree.start) route.stepsInto
  return arrival.place

/-- The directory that all steps but the last lead to, and the last step, if
there is one. -/
def walkToLast (tree : FileTree) (links : Nat) (place : Place)
    (steps : List Step) :
    Except FileError (Arrival × Option Step) := do
  let arrival ← tree.walk links place steps.dropLast
  match steps.getLast? with
  | none => return (arrival, none)
  | some step =>
    if tree.isDirectoryAt arrival.place then return (arrival, some step)
    else throw .notDirectory

end FileTree

end BenchReport
