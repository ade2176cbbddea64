import BenchReport.Numeral.Read
import BenchReport.Numeral.Whole
import BenchReport.Report.Json

/-!
# Reading arrays of flat objects

A reader of JSON as far as reports need it: an array of objects whose members
are strings, numbers and nulls. A text is cut into tokens first, and white space
counts only between them. The reader takes nothing that is no JSON: numbers have
no zeros in front and digits on both sides of a point, control characters are
escaped in strings, and no comma stands before a closing bracket.
-/

namespace BenchReport.Json

/-! ## Tokens -/

/-- A token of a text. -/
inductive Token where
  /-- A bracket, a brace, a comma or a colon. -/
  | mark (c : Char)
  /-- The word for no value. -/
  | null
  /-- A number, by its characters. -/
  | number (text : List Char)
  /-- A string. -/
  | string (text : String)
deriving DecidableEq, Repr

/-- Whether the character is white space between tokens. -/
def isSpace (c : Char) : Bool :=
  c = ' ' || c = '\n' || c = '\r' || c = '\t'

/-- Whether the character is a token of its own. -/
def isMark (c : Char) : Bool :=
  c = '[' || c = ']' || c = '{' || c = '}' || c = ',' || c = ':'

/-- Whether the character can stand in a number or in a word. -/
def isWordChar (c : Char) : Bool :=
  c.isAlphanum || c = '-' || c = '+' || c = '.'

/-- Whether the text is a number without a sign. -/
def isUnsignedNumber (text : List Char) : Bool :=
  let whole := text.takeWhile Char.isDigit
  (whole = ['0'] || !whole.isEmpty && whole.head? ≠ some '0') &&
    match text.dropWhile Char.isDigit with
    | '.' :: rest =>
      !(rest.takeWhile Char.isDigit).isEmpty &&
        (Decimal.readExponent? (rest.dropWhile Char.isDigit)).isSome
    | rest => (Decimal.readExponent? rest).isSome

/-- Whether the text is a number. -/
def isNumber : List Char → Bool
  | '-' :: text => isUnsignedNumber text
  | text => isUnsignedNumber text

/-- The character that stands after a backslash for this one. -/
def escaped? (c : Char) : Option Char :=
  if c = '"' || c = '\\' || c = '/' then some c
  else if c = 'b' then some '\x08'
  else if c = 'f' then some '\x0C'
  else if c = 'n' then some '\n'
  else if c = 'r' then some '\r'
  else if c = 't' then some '\t'
  else none

/-- The character of a number in hexadecimal. Halves of a pair are none. -/
def character? (digits : List Char) : Option Char :=
  match Whole.readDigits 16 0x10000 0 digits with
  | .ok n => if n.isValidChar then some (.ofNat n) else none
  | .error _ => none

/-- Reads a string after its first quote, and gives what comes after it. -/
def readString? : List Char → Option (List Char × List Char)
  | [] => none
  | '"' :: rest => some ([], rest)
  | '\\' :: 'u' :: a :: b :: c :: d :: rest =>
    match character? [a, b, c, d] with
    | some x => (readString? rest).map fun (text, rest) => (x :: text, rest)
    | none => none
  | '\\' :: c :: rest =>
    match escaped? c with
    | some x => (readString? rest).map fun (text, rest) => (x :: text, rest)
    | none => none
  | c :: rest =>
    if c = '\\' || c.toNat < 0x20 then none
    else (readString? rest).map fun (text, rest) => (c :: text, rest)

/-- The token at the beginning of a text, and what comes after it. -/
def token? : List Char → Option (Token × List Char)
  | [] => none
  | c :: rest =>
    if isMark c then some (.mark c, rest)
    else if c = '"' then (readString? rest).map fun (text, rest) =>
      (.string (.ofList text), rest)
    else
      let word := (c :: rest).takeWhile isWordChar
      let after := (c :: rest).dropWhile isWordChar
      if word = "null".toList then some (.null, after)
      else if isNumber word then some (.number word, after)
      else none

theorem length_readString?_le {cs text rest : List Char}
    (h : readString? cs = some (text, rest)) :
    rest.length ≤ cs.length := by
  fun_induction readString? cs generalizing text with
  | case1 => cases h
  | case2 after =>
      cases h
      exact Nat.le_succ _
  | case3 a b c d after x hx ih | case5 c after _ x hx ih =>
      simp only [Option.map_eq_some_iff, Prod.mk.injEq, Prod.exists] at h
      obtain ⟨later, _, hread, -, rfl⟩ := h
      have := ih hread
      simp only [List.length_cons]
      omega
  | case4 | case6 | case7 => cases h
  | case8 c after hescape hunicode hquote hplain ih =>
      simp only [Option.map_eq_some_iff, Prod.mk.injEq, Prod.exists] at h
      obtain ⟨later, _, hread, -, rfl⟩ := h
      exact Nat.le_succ_of_le (ih hread)

theorem length_dropWhile_lt {p : Char → Bool} {cs : List Char}
    (h : cs.takeWhile p ≠ []) :
    (cs.dropWhile p).length < cs.length := by
  have hsplit :=
    congrArg List.length (List.takeWhile_append_dropWhile (p := p) (l := cs))
  have hpos := List.length_pos_iff.2 h
  rw [List.length_append] at hsplit
  omega

/-- A token has characters. -/
theorem length_token?_lt {cs rest : List Char} {token : Token}
    (h : token? cs = some (token, rest)) : rest.length < cs.length := by
  cases cs with
  | nil => cases h
  | cons c after =>
      rw [token?] at h
      split at h
      · cases h
        exact Nat.lt_succ_self _
      split at h
      · simp only [Option.map_eq_some_iff, Prod.mk.injEq, Prod.exists] at h
        obtain ⟨_, _, hread, -, rfl⟩ := h
        exact Nat.lt_succ_of_le (length_readString?_le hread)
      dsimp only at h
      split at h
      · next hnull =>
        cases h
        exact length_dropWhile_lt (by rw [hnull]; decide)
      split at h
      · next hnumber =>
        cases h
        refine length_dropWhile_lt fun hnil => ?_
        rw [hnil] at hnumber
        cases hnumber
      · cases h

/-- The tokens of a text. -/
def tokens? : List Char → Option (List Token)
  | [] => some []
  | c :: rest =>
    if isSpace c then tokens? rest
    else
      match h : token? (c :: rest) with
      | none => none
      | some (token, after) =>
        have := length_token?_lt h
        (tokens? after).map (token :: ·)
termination_by cs => cs.length
decreasing_by
  · exact Nat.lt_succ_self _
  · exact this

/-! ## Values -/

/-- The value of a token, if it is one. -/
def Token.scalar? : Token → Option Scalar
  | .mark _ => none
  | .null => some .null
  | .number text => some (.number text)
  | .string text => some (.string text)

/-- Reads the members of an object up to its end. -/
def members? : List Token → Option (Object × List Token)
  | .string name :: .mark ':' :: token :: .mark c :: rest =>
    match token.scalar? with
    | none => none
    | some value =>
      if c = '}' then some ([(name, value)], rest)
      else if c = ',' then (members? rest).map fun (later, rest) =>
        ((name, value) :: later, rest)
      else none
  | _ => none

/-- Reads an object. -/
def object? : List Token → Option (Object × List Token)
  | .mark '{' :: .mark '}' :: rest => some ([], rest)
  | .mark '{' :: rest => members? rest
  | _ => none

theorem length_members?_lt {tokens rest : List Token} {object : Object}
    (h : members? tokens = some (object, rest)) :
    rest.length < tokens.length := by
  fun_induction members? tokens generalizing object with
  | case1 => cases h
  | case2 name token after value hvalue =>
      cases h
      simp only [List.length_cons]
      omega
  | case3 name token after value hvalue hend ih =>
      simp only [Option.map_eq_some_iff, Prod.mk.injEq, Prod.exists] at h
      obtain ⟨later, _, hlater, -, rfl⟩ := h
      have := ih hlater
      simp only [List.length_cons]
      omega
  | case4 => cases h
  | case5 => cases h

theorem length_object?_lt {tokens rest : List Token} {object : Object}
    (h : object? tokens = some (object, rest)) :
    rest.length < tokens.length := by
  rw [object?.eq_def] at h
  split at h
  · cases h
    simp only [List.length_cons]
    omega
  · exact Nat.lt_succ_of_lt (length_members?_lt h)
  · cases h

/-- Reads the objects of an array up to its end, which is the end of
the text. -/
def objects? (tokens : List Token) : Option (List Object) :=
  match h : object? tokens with
  | some (object, .mark ',' :: rest) =>
    have := Nat.lt_of_succ_lt (length_object?_lt h)
    (objects? rest).map (object :: ·)
  | some (object, [.mark ']']) => some [object]
  | _ => none
termination_by tokens.length
decreasing_by exact this

/-- Reads an array. -/
def array? : List Token → Option (List Object)
  | [.mark '[', .mark ']'] => some []
  | .mark '[' :: rest => objects? rest
  | _ => none

/-- The objects of an array, all of the text. -/
def read? (cs : List Char) : Option (List Object) :=
  (tokens? cs).bind array?

example :
    read?
      " [ \x7b\"a\" : \"\\u001F\\/\", \"b\":-0.5e+3\x7d, \x7b\x7d ]\n".toList =
    some [[("a", .string "\x1f/"), ("b", .number "-0.5e+3".toList)], []] := by
  decide +kernel

example : read? "[\x7b\"a\": 01\x7d]".toList = none ∧
    read? "[\x7b\"a\": 1,\x7d]".toList = none := by
  decide +kernel

end BenchReport.Json
