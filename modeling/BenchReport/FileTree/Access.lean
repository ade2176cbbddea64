import BenchReport.FileTree.Walk

/-!
# Reading and changing a file tree

What can be asked about a path, and what can be put there. A file is put
through links, also through one that leads to a name without an entry; a
directory is never made through one. A file that cannot be read is a file in
every other respect, except that nothing can be put in its place.
-/

namespace BenchReport.FileTree

/-- What a path leads to. -/
def node (tree : FileTree) (path : Path) : Except FileError Node := do
  let place ← tree.resolve path
  match tree.find? place with
  | some node => return node
  | none => throw .notFound

/-- Whether the path leads to a directory. -/
def isDirectory (tree : FileTree) (path : Path) : Bool :=
  match tree.node path with
  | .ok .directory => true
  | _ => false

/-- Whether the path leads to a file. -/
def isFile (tree : FileTree) (path : Path) : Bool :=
  match tree.node path with
  | .ok node => node.isFile
  | .error _ => false

/-- Whether the path names an entry, be it a link that leads nowhere. -/
def hasEntry (tree : FileTree) (path : Path) : Bool :=
  let found : Except FileError Unit := do
    let route ← route? path
    let origin := route.origin tree.start
    if route.slashEnd then
      discard (tree.walk linkLimit origin route.stepsInto)
    else
      match ← tree.walkToLast linkLimit origin route.steps with
      | (arrival, some (.name entry)) =>
        unless (tree.find? (entry :: arrival.place)).isSome do throw .notFound
      | (_, some .tooLong) => throw .nameTooLong
      | _ => return ()
  found.isOk

/-- The order of names by code points. -/
def nameLe (a b : FileName) : Bool :=
  a.text ≤ b.text

/-- The names in the directory that a path leads to, in ascending order. -/
def list (tree : FileTree) (path : Path) :
    Except FileError (List FileName) := do
  let place ← tree.resolve path
  match tree.find? place with
  | some .directory => return (tree.namesIn place).mergeSort nameLe
  | some _ => throw .notDirectory
  | none => throw .notFound

/-- The bytes of the file that a path leads to. -/
def read (tree : FileTree) (path : Path) : Except FileError (List UInt8) := do
  match ← tree.node path with
  | .file bytes => return bytes
  | .blocked obstacle => throw (.blocked obstacle)
  | .directory => throw .isDirectory
  | .link _ => throw .notFound

/-- The place where a file can be written, on the way of a route from a place.
Links at the end of the way are followed, whether or not they lead to
an entry. -/
def filePlace (tree : FileTree) (links : Nat) (place : Place) (route : Route) :
    Except FileError Place :=
  match links, tree.walkToLast links (route.origin place) route.steps with
  | _, .error e => .error e
  | links, .ok (arrival, last) =>
    if route.slashEnd then .error .isDirectory
    else
      match last with
      | some .tooLong => .error .nameTooLong
      | some (.name entry) =>
        match tree.find? (entry :: arrival.place) with
        | some .directory => .error .isDirectory
        | some (.blocked obstacle) => .error (.blocked obstacle)
        | some (.link target) =>
          match links with
          | 0 => .error .tooManyLinks
          | links + 1 =>
            if arrival.linksLeft = 0 then .error .tooManyLinks
            else filePlace tree (min links (arrival.linksLeft - 1))
              arrival.place (.ofText target)
        | _ => .ok (entry :: arrival.place)
      | _ => .error .isDirectory

/-- Puts a file where a path leads to, in place of one that is there. -/
def putFile (tree : FileTree) (path : Path) (file : Node) :
    Except FileError FileTree := do
  let route ← route? path
  let place ← tree.filePlace linkLimit tree.start route
  return tree.put place file

/-- Writes a file where a path leads to. -/
def write (tree : FileTree) (path : Path) (bytes : List UInt8) :
    Except FileError FileTree :=
  tree.putFile path (.file bytes)

/-- Puts a new entry where a path leads to; a slash may follow only the name of
a directory. -/
def create (tree : FileTree) (path : Path) (new : Node) :
    Except FileError FileTree := do
  let route ← route? path
  match ← tree.walkToLast linkLimit (route.origin tree.start) route.steps with
  | (_, some .tooLong) => throw .nameTooLong
  | (arrival, some (.name entry)) =>
    if (tree.find? (entry :: arrival.place)).isSome then throw .exists
    else if route.slashEnd && new ≠ .directory then throw .notFound
    else return tree.put (entry :: arrival.place) new
  | _ => throw .exists

/-- Makes a directory. -/
def makeDirectory (tree : FileTree) (path : Path) : Except FileError FileTree :=
  tree.create path .directory

/-- Makes the directories of a list, in which each is followed by the one above
it, as far as they are missing. The empty path is there already. -/
def makeChain (tree : FileTree) : List Path → Except FileError FileTree
  | [] => .ok tree
  | path :: above =>
    if path.text = "" then .ok tree
    else
      match tree.makeDirectory path with
      | .ok changed => .ok changed
      | .error .notFound =>
        match makeChain tree above with
        | .error e => .error e
        | .ok below =>
          match below.makeDirectory path with
          | .ok changed => .ok changed
          | .error e => if below.isDirectory path then .ok below else .error e
      | .error e => if tree.isDirectory path then .ok tree else .error e

/-- Makes a directory and those above it, as far as they are missing. -/
def makeDirectories (tree : FileTree) (path : Path) :
    Except FileError FileTree :=
  tree.makeChain path.ancestors

/-- The tree of a directory and those above it, with relative paths starting in
that directory. -/
def standingIn (path : Path) : Except FileError FileTree := do
  let tree ← makeDirectories .empty path
  return { tree with start := ← tree.resolve path }

end BenchReport.FileTree
