import BenchReport.FileTree.Access
import BenchReport.Glob.Pattern

/-!
# Searching a file tree

A pattern of paths is searched part by part. A part without any special
character is not looked for but stepped on, so a path that is found has the
dots and slashes of the pattern where those are literal. Any other part is
compared with the names in the directory, in ascending order; only a part that
begins with a dot can also stand for the directory itself or the one above.
-/

namespace BenchReport.Glob

/-- What one part of a pattern stands for. -/
inductive Part where
  /-- Any number of directories. -/
  | anyDepth
  /-- One name. -/
  | name (tokens : List Token)
deriving DecidableEq, Repr

/-- The part that is written as a text. -/
def Part.read (text : List Char) : Except PatternError Part :=
  (tokens text).map fun
    | [.anyDepth] => .anyDepth
    | tokens => .name tokens

/-- A pattern of paths. -/
structure PathPattern where
  /-- Whether the paths start at the root. -/
  fromRoot : Bool
  /-- The parts between slashes. -/
  parts : List Part
  /-- Whether only directories are wanted. -/
  directories : Bool
deriving DecidableEq, Repr

/-- The texts of the parts: a slash at the end starts no further one. -/
def partTexts (text : List Char) : List (List Char) :=
  match (Path.splitParts text).reverse with
  | [] :: before => before.reverse
  | _ => Path.splitParts text

/-- Reads a pattern of paths: first as a whole, then part by part. -/
def PathPattern.read (text : List Char) : Except PatternError PathPattern := do
  discard (tokens text)
  let fromRoot := text.head? = some '/'
  let parts ← (partTexts (if fromRoot then text.drop 1 else text)).mapM
    Part.read
  return { fromRoot, parts, directories := text.getLast? = some '/' }

/-- A path on the way through a search. -/
inductive Candidate where
  /-- A path for which no part is left. -/
  | complete (path : Path)
  /-- A path whose last component is still to be compared with the
  first part. -/
  | open (path : Path) (parts : List Part)
deriving DecidableEq, Repr

/-- Whether the path is a dot, however it is written. -/
def isDot (path : Path) : Bool :=
  path.components = [.here]

/-- The path of an entry in a directory; a dot is not kept before it. -/
def enter (path : Path) (name : String) : Path :=
  if isDot path then ⟨name⟩ else path.join name

/-- The candidates below a path for the parts that are left, in the order in
which they are taken up. -/
def candidates (tree : FileTree) (path : Path) : List Part → List Candidate
  | [] => []
  | part :: parts =>
    let proceed (next : Path) : List Candidate :=
      if parts.isEmpty then [.complete next] else candidates tree next parts
    let children :=
      if tree.isDirectory path then
        match tree.list path with
        | .ok names =>
          names.map fun name => .open (enter path name.text) (part :: parts)
        | .error _ => []
      else []
    match part with
    | .anyDepth => children
    | .name tokens =>
      match literalText? tokens with
      | some text =>
        let next := enter path (.ofList text)
        let dots := text = ['.'] || text = ['.', '.']
        if if dots then tree.isDirectory path else tree.hasEntry next then
          proceed next
        else []
      | none =>
        let special (dots : String) : List Candidate :=
          if tree.isDirectory path && tokens.head? = some (.literal '.')
              && accepts tokens dots.toList then
            proceed (path.join dots)
          else []
        special ".." ++ special "." ++ children

/-- Whether a path is found that no part is left for. -/
def found (tree : FileTree) (directories : Bool) (path : Path) : List Path :=
  if !directories || tree.isDirectory path then [path] else []

/-- The paths that a candidate leads to. Each step goes one name deeper, and a
path with more names than `depth` is too long to be a directory. -/
def visit (tree : FileTree) (directories : Bool) : Nat → Candidate → List Path
  | _, .complete path => found tree directories path
  | 0, .open .. => []
  | depth + 1, .open path parts =>
    let compare (parts : List Part) : List Path :=
      match parts, path.fileName? with
      | .name tokens :: rest, some name =>
        if accepts tokens name.toList then
          if rest.isEmpty then found tree directories path
          else (candidates tree path rest).flatMap
            (visit tree directories depth)
        else []
      | _, _ => []
    match parts with
    | .anyDepth :: _ =>
      let rest := parts.dropWhile (· = .anyDepth)
      let deeper := if tree.isDirectory path then
          (candidates tree path (.anyDepth :: rest)).flatMap
            (visit tree directories depth)
        else []
      if rest.isEmpty then
        if tree.isDirectory path then path :: deeper else []
      else compare rest ++ deeper
    | _ => compare parts

/-- The paths that a pattern stands for, in the order in which they
are found. -/
def search (tree : FileTree) (pattern : PathPattern) : List Path :=
  let origin : Path := if pattern.fromRoot then ⟨"/"⟩ else ⟨"."⟩
  (candidates tree origin pattern.parts).flatMap
    (visit tree pattern.directories 4096)

end BenchReport.Glob
