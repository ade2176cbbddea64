import BenchReport.Text.Quoted

/-!
# Paths

A path is a text cut into parts by slashes. Empty parts and single dots lead
nowhere and are passed over, except for a dot at the very beginning, which is
how a path says that it starts where one stands. Paths are joined and shortened
as texts, so what was written stays as it was written; they are compared by
their components.
-/

namespace BenchReport

/-- A path as it was written. -/
structure Path where
  /-- The text. -/
  text : String
deriving DecidableEq, Repr

namespace Path

/-- A step that a path names. -/
inductive Component where
  /-- The root of the file tree. -/
  | root
  /-- The directory one stands in. -/
  | here
  /-- The directory above. -/
  | up
  /-- An entry of the directory. -/
  | name (text : String)
deriving DecidableEq, Repr

/-- The kinds of components in their order. -/
def Component.kind : Component → Nat
  | root => 0
  | here => 1
  | up => 2
  | name _ => 3

/-- The name, if the component is one. -/
def Component.name? : Component → Option String
  | name text => some text
  | _ => none

/-- The order of components: by kind, then names by code points. -/
instance : Ord Component where
  compare := compareLex (compareOn Component.kind) (compareOn Component.name?)

/-- The texts between the slashes. There is always a first one. -/
def splitParts : List Char → List (List Char)
  | [] => [[]]
  | c :: rest =>
    if c = '/' then [] :: splitParts rest
    else
      match splitParts rest with
      | [] => [[c]]
      | part :: parts => (c :: part) :: parts

/-- Whether a part other than the first leads nowhere. -/
def isIdle (part : List Char) : Bool :=
  part = [] || part = ['.']

/-- Whether the path starts at the root. -/
def isAbsolute (p : Path) : Bool :=
  p.text.toList.head? = some '/'

/-- The part of a component. -/
def componentOf (part : List Char) : Component :=
  if part = ['.'] then .here
  else if part = ['.', '.'] then .up
  else .name (.ofList part)

/-- The components of the path. -/
def components (p : Path) : List Component :=
  match splitParts p.text.toList with
  | [] => []
  | first :: rest =>
    let later := (rest.filter (!isIdle ·)).map componentOf
    if p.isAbsolute then .root :: later
    else if first = [] then later
    else componentOf first :: later

/-- The last component, if it is a name. -/
def fileName? (p : Path) : Option String :=
  p.components.getLast?.bind (·.name?)

/-- The name shown for the path: the last component, or all of the path if it
ends in no name. -/
def shownName (p : Path) : String :=
  p.fileName?.getD p.text

/-- The path between quotes. -/
def quoted (p : Path) : String :=
  Text.quoted p.text

/-- The path `q` as seen from `p`: an absolute one stands alone, another one
follows after a slash. -/
def join (p : Path) (q : String) : Path :=
  let text := p.text.toList
  if (Path.mk q).isAbsolute then ⟨q⟩
  else if text.isEmpty || text.getLast? = some '/' then ⟨p.text ++ q⟩
  else ⟨p.text ++ "/" ++ q⟩

/-- The parts without the idle ones at the end; `first` is whether the parts
start a relative path, whose leading dot is not idle. -/
def trimIdle (first : Bool) : List (List Char) → List (List Char)
  | [] => []
  | part :: parts =>
    match trimIdle false parts with
    | [] => if part = [] || (!first && part = ['.']) then [] else [part]
    | kept => part :: kept

/-- The path without its last component. -/
def parent? (p : Path) : Option Path :=
  let (start, parts) := if p.isAbsolute then
      (['/'], (splitParts p.text.toList).drop 1)
    else ([], splitParts p.text.toList)
  match trimIdle (!p.isAbsolute) parts with
  | [] => none
  | kept =>
    let above := trimIdle (!p.isAbsolute) kept.dropLast
    some ⟨.ofList (start ++ ['/'].intercalate above)⟩

/-- The path and what stays of it when its last components are taken away, one
after the other, as long as `steps` lasts. -/
def ancestorsWithin : Nat → Path → List Path
  | 0, p => [p]
  | steps + 1, p =>
    match p.parent? with
    | none => [p]
    | some above => p :: ancestorsWithin steps above

/-- The path, its parent, and so on up to the root or to the empty path. A path
has no more components than characters. -/
def ancestors (p : Path) : List Path :=
  ancestorsWithin p.text.length p

/-- Whether the first path comes before the second one or is as far as it, by
components. -/
def le (p q : Path) : Bool :=
  (List.compareLex compare p.components q.components).isLE

end Path

end BenchReport
