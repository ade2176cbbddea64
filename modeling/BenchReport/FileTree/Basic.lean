/-!
# File trees

A file tree maps places to what is found there: a directory, a file with its
bytes, a file whose bytes cannot be had, or a link with the path it leads to. A
place is the list of names from an entry up to the root, which is always a
directory. No place is listed twice; it does no harm if a place is listed whose
directory is not, since no path gets there.
-/

namespace BenchReport

/-- Whether a text can be the name of an entry: it has to fit in 255 bytes, to
hold neither a slash nor the null character, and to be none of the texts that
mean a directory already. -/
def IsFileName (text : String) : Prop :=
  text ≠ "" ∧ text ≠ "." ∧ text ≠ ".." ∧ '/' ∉ text.toList ∧
    '\x00' ∉ text.toList ∧ text.utf8ByteSize ≤ 255

instance (text : String) : Decidable (IsFileName text) := by
  unfold IsFileName
  infer_instance

/-- The name of an entry. -/
structure FileName where
  /-- The text. -/
  text : String
  /-- The text can be a name. -/
  valid : IsFileName text
deriving DecidableEq, Repr

/-- The name with this text, if it can be one. -/
def FileName.ofText? (text : String) : Option FileName :=
  if valid : IsFileName text then some { text, valid } else none

/-- The names from an entry up to the root. -/
abbrev Place := List FileName

/-- What keeps the bytes of a file from everyone who asks for them, such as a
missing permission or a defect of the disk. -/
structure Obstacle where
  /-- Whether the file can be opened, so that only reading from it fails. -/
  opens : Bool
  /-- The number by which the operating system reports it. -/
  code : Nat
  /-- The words for the number. -/
  text : String
deriving DecidableEq, Repr

/-- What is found at a place. -/
inductive Node where
  /-- A directory. -/
  | directory
  /-- A file. -/
  | file (bytes : List UInt8)
  /-- A file that can be neither read nor written. -/
  | blocked (obstacle : Obstacle)
  /-- A link, with the path it leads to. -/
  | link (target : String)
deriving DecidableEq, Repr

/-- Whether the node is a file, be it one that cannot be read. -/
def Node.isFile : Node → Bool
  | .file _ => true
  | .blocked _ => true
  | .directory => false
  | .link _ => false

/-- The entries of a file system, and the directory where relative
paths start. -/
structure FileTree where
  /-- The entries below the root. -/
  entries : List (Place × Node) := []
  /-- The directory where relative paths start. -/
  start : Place := []
  /-- No place has two entries. -/
  distinct : (entries.map (·.1)).Nodup := by exact List.Pairwise.nil
deriving DecidableEq

namespace FileTree

/-- The tree of the root alone. -/
def empty : FileTree where

/-- What is found at a place. -/
def find? (tree : FileTree) : Place → Option Node
  | [] => some .directory
  | place => (tree.entries.find? (·.1 = place)).map (·.2)

/-- Whether a directory is found at a place. -/
def isDirectoryAt (tree : FileTree) (place : Place) : Bool :=
  tree.find? place = some .directory

/-- The names of the entries of the directory at a place. -/
def namesIn (tree : FileTree) (place : Place) : List FileName :=
  tree.entries.filterMap fun (entry, _) =>
    match entry with
    | [] => none
    | name :: above => if above = place then some name else none

/-- The tree with an entry at a place, whatever was there. -/
def put (tree : FileTree) (place : Place) (node : Node) : FileTree where
  entries := (place, node) :: tree.entries.filter (·.1 ≠ place)
  start := tree.start
  distinct := by
    simp only [List.map_cons, List.nodup_cons]
    refine ⟨by simp, ?_⟩
    exact tree.distinct.sublist (List.filter_sublist.map _)

end FileTree

end BenchReport
