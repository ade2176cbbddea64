/-!
# Patterns of names

A pattern is a text in which `?` stands for any character, `*` for any text, and
brackets for one character of a class; two stars that fill the space between
slashes stand for any number of directories. Everything else stands for itself.

A pattern is read from left to right, and the first fault is told with the
position, counted in characters, that it is recognised at.
-/

namespace BenchReport.Glob

/-- A part of a class of characters. -/
inductive ClassItem where
  /-- One character. -/
  | single (c : Char)
  /-- All characters from one to another. -/
  | range (first last : Char)
deriving DecidableEq, Repr

/-- Whether the item holds the character. -/
def ClassItem.holds (c : Char) : ClassItem → Bool
  | single d => c = d
  | range first last => first ≤ c && c ≤ last

/-- A part of a pattern. -/
inductive Token where
  /-- The character itself. -/
  | literal (c : Char)
  /-- Any character. -/
  | anyChar
  /-- Any text. -/
  | anyText
  /-- Any number of directories. -/
  | anyDepth
  /-- One character that is in the class, or, if `excluded`, one that is not. -/
  | oneOf (excluded : Bool) (items : List ClassItem)
deriving DecidableEq, Repr

/-- What is wrong with a pattern. -/
inductive PatternFault where
  /-- There are more than two stars in a row. -/
  | tooManyStars
  /-- Two stars do not fill the space between slashes. -/
  | starsInName
  /-- A bracket opens no class. -/
  | openBracket
deriving DecidableEq, Repr

/-- A fault of a pattern and where it is. -/
structure PatternError where
  /-- The number of characters before the place of the fault. -/
  position : Nat
  /-- The fault. -/
  fault : PatternFault
deriving DecidableEq, Repr

/-- The wording of the fault. -/
def PatternFault.message : PatternFault → String
  | tooManyStars => "wildcards are either regular `*` or recursive `**`"
  | starsInName => "recursive wildcards must form a single path component"
  | openBracket => "invalid range pattern"

/-- The wording of the error. -/
def PatternError.message (e : PatternError) : String :=
  "Pattern syntax error near position " ++ e.position.repr ++ ": " ++
    e.fault.message

/-- The items of a class. -/
def classItems : List Char → List ClassItem
  | first :: '-' :: last :: rest => .range first last :: classItems rest
  | c :: rest => .single c :: classItems rest
  | [] => []

/-- The class that follows an opening bracket, and the number of characters up
to its closing one. The first character of a class closes nothing. -/
def readClass? : List Char → Option (Token × Nat)
  | '!' :: first :: rest =>
    (rest.idxOf? ']').map fun length =>
      (.oneOf true (classItems (first :: rest.take length)), length + 3)
  | '!' :: [] => none
  | first :: rest =>
    (rest.idxOf? ']').map fun length =>
      (.oneOf false (classItems (first :: rest.take length)), length + 2)
  | [] => none

/-- The token at the beginning of `c :: rest`, and how many characters of `rest`
belong to it. The pattern has `position` characters before, the last of them
`previous`. -/
def readToken (position : Nat) (previous : Option Char) (c : Char)
    (rest : List Char) :
    Except PatternError (Token × Nat) :=
  if c = '?' then .ok (.anyChar, 0)
  else if c = '*' then
    let more := (rest.takeWhile (· = '*')).length
    if 2 ≤ more then .error ⟨position + 2, .tooManyStars⟩
    else if more = 0 then .ok (.anyText, 0)
    else if previous.any (· ≠ '/') then .error ⟨position - 1, .starsInName⟩
    else
      match rest.drop 1 with
      | [] => .ok (.anyDepth, 1)
      | next :: _ =>
        if next = '/' then .ok (.anyDepth, 2)
          else .error ⟨position + 2, .starsInName⟩
  else if c = '[' then
    match readClass? rest with
    | some result => .ok result
    | none => .error ⟨position, .openBracket⟩
  else .ok (.literal c, 0)

/-- The tokens of a pattern of which `position` characters have been read, the
last of them `previous`. -/
def readTokens (position : Nat) (previous : Option Char) :
    List Char → Except PatternError (List Token)
  | [] => .ok []
  | c :: rest =>
    match readToken position previous c rest with
    | .error e => .error e
    | .ok (token, more) =>
      let last := ((c :: rest).take (more + 1)).getLast?
      (readTokens (position + more + 1) last (rest.drop more)).map (token :: ·)
termination_by cs => cs.length
decreasing_by simp only [List.length_drop, List.length_cons]; omega

/-- The tokens of a pattern. -/
def tokens (pattern : List Char) : Except PatternError (List Token) :=
  readTokens 0 none pattern

/-- A pattern that stands for one text. -/
def escape (cs : List Char) : List Char :=
  cs.flatMap fun c =>
    if c = '?' || c = '*' || c = '[' || c = ']' then ['[', c, ']'] else [c]

/-- Whether tokens stand for a name. -/
def accepts : List Token → List Char → Bool
  | [], cs => cs.isEmpty
  | .anyText :: tokens, [] => accepts tokens []
  | .anyText :: tokens, c :: cs =>
    accepts tokens (c :: cs) || accepts (.anyText :: tokens) cs
  | .anyDepth :: _, _ => false
  | _ :: _, [] => false
  | .literal d :: tokens, c :: cs => c = d && accepts tokens cs
  | .anyChar :: tokens, _ :: cs => accepts tokens cs
  | .oneOf excluded items :: tokens, c :: cs =>
    items.any (·.holds c) != excluded && accepts tokens cs
termination_by tokens cs => (tokens.length, cs.length)

/-- The text that tokens stand for, if they stand for just one. -/
def literalText? : List Token → Option (List Char)
  | [] => some []
  | .literal c :: tokens => (literalText? tokens).map (c :: ·)
  | _ :: _ => none

end BenchReport.Glob
