import BenchReport.Proofs.Json.Number

/-!
# Reports in JSON are read back

A report is cut into the tokens it was put together from, and the tokens are
read as the objects. For the first half, pieces of text are put in front of any
rest (`Lexes`); only a number or a word has to be told from what follows, and in
a report that is always a comma or a line feed. A character of a string is read
back whether it is escaped or not.
-/

namespace BenchReport.Json

/-! ## Strings -/

theorem character?_of_lt {n : Nat} (hn : n < 0x10) :
    "\\u000".toList ++ Nat.toDigits 16 n =
      ['\\', 'u', '0', '0', '0', Nat.digitChar n] ∧
      character? ['0', '0', '0', Nat.digitChar n] = some (.ofNat n) := by
  have hall : ∀ n < 0x10,
      "\\u000".toList ++ Nat.toDigits 16 n =
        ['\\', 'u', '0', '0', '0', Nat.digitChar n] ∧
      character? ['0', '0', '0', Nat.digitChar n] = some (.ofNat n) := by decide
  exact hall n hn

theorem character?_of_ge {n : Nat} (hlow : 0x10 ≤ n) (hn : n < 0x20) :
    "\\u00".toList ++ Nat.toDigits 16 n =
      ['\\', 'u', '0', '0', '1', Nat.digitChar (n - 0x10)] ∧
      character? ['0', '0', '1', Nat.digitChar (n - 0x10)] =
        some (.ofNat n) := by
  have hall : ∀ n < 0x20, 0x10 ≤ n →
      "\\u00".toList ++ Nat.toDigits 16 n =
        ['\\', 'u', '0', '0', '1', Nat.digitChar (n - 0x10)] ∧
      character? ['0', '0', '1', Nat.digitChar (n - 0x10)] =
        some (.ofNat n) := by decide
  exact hall n hn hlow

/-- The character with the text that is read after it. -/
def consRead (c : Char) (read : Option (List Char × List Char)) :
    Option (List Char × List Char) :=
  read.map fun (text, rest) => (c :: text, rest)

theorem readString?_unicode {a b c d x : Char}
    (h : character? [a, b, c, d] = some x) (rest : List Char) :
    readString? ('\\' :: 'u' :: a :: b :: c :: d :: rest) =
      consRead x (readString? rest) := by
  rw [readString?, h]
  rfl

theorem readString?_escaped {c x : Char} (h : escaped? c = some x)
    (rest : List Char) :
    readString? ('\\' :: c :: rest) = consRead x (readString? rest) := by
  rw [readString?, h]
  · rfl
  · rintro a b c d rest rfl
    cases h

theorem readString?_plain {c : Char} (hquote : c ≠ '"') (hescape : c ≠ '\\')
    (hcontrol : ¬ c.toNat < 0x20) (rest : List Char) :
    readString? (c :: rest) = consRead c (readString? rest) := by
  rw [readString?.eq_def]
  split
  · next h => cases h
  · next h => exact absurd (List.cons.inj h).1 hquote
  · next h => exact absurd (List.cons.inj h).1 hescape
  · next h => exact absurd (List.cons.inj h).1 hescape
  · next h =>
    cases h
    rw [if_neg (by simp [hescape, hcontrol])]
    rfl

theorem readString?_escapedChar (c : Char) (rest : List Char) :
    readString? (escapedChar c ++ rest) = consRead c (readString? rest) := by
  rw [escapedChar]
  split
  · next h =>
    have hescaped : escaped? c = some c := by
      rw [escaped?, if_pos]
      rw [h, Bool.true_or]
    exact readString?_escaped hescaped rest
  iterate 5
    split
    · next h =>
      subst h
      exact readString?_escaped (by decide) rest
  split
  · next hlow =>
    obtain ⟨htext, hread⟩ := character?_of_lt hlow
    rw [Char.ofNat_toNat] at hread
    rw [htext]
    exact readString?_unicode hread rest
  split
  · next hlow hhigh =>
    obtain ⟨htext, hread⟩ := character?_of_ge (Nat.le_of_not_lt hlow) hhigh
    rw [Char.ofNat_toNat] at hread
    rw [htext]
    exact readString?_unicode hread rest
  · next h _ _ _ _ _ _ hcontrol =>
    simp only [Bool.or_eq_true, decide_eq_true_eq, not_or] at h
    exact readString?_plain h.1 h.2 hcontrol rest

theorem readString?_flatMap (cs rest : List Char) :
    readString? (cs.flatMap escapedChar ++ '"' :: rest) = some (cs, rest) := by
  induction cs with
  | nil => rw [List.flatMap_nil, List.nil_append, readString?]
  | cons c later ih =>
      rw [List.flatMap_cons, List.append_assoc, readString?_escapedChar, ih]
      rfl

/-! ## Tokens -/

theorem tokens?_space {c : Char} (hc : isSpace c = true) (rest : List Char) :
    tokens? (c :: rest) = tokens? rest := by
  rw [tokens?, if_pos hc]

theorem tokens?_of_token? {c : Char} {rest after : List Char} {token : Token}
    (hc : isSpace c = false) (h : token? (c :: rest) = some (token, after)) :
    tokens? (c :: rest) = (tokens? after).map (token :: ·) := by
  rw [tokens?, if_neg (Bool.eq_false_iff.1 hc)]
  split
  · next hnone => cases h.symm.trans hnone
  · next hsome =>
    cases h.symm.trans hsome
    rfl

/-- Whether a text is cut into these tokens in front of any rest. -/
def Lexes (cs : List Char) (tokens : List Token) : Prop :=
  ∀ rest, tokens? (cs ++ rest) = (tokens? rest).map (tokens ++ ·)

/-- The same where the rest does not go on with a word. -/
def LexesWord (cs : List Char) (tokens : List Token) : Prop :=
  ∀ rest, (∀ c ∈ rest.head?, isWordChar c = false) →
    tokens? (cs ++ rest) = (tokens? rest).map (tokens ++ ·)

theorem Lexes.word {cs : List Char} {tokens : List Token}
    (h : Lexes cs tokens) :
    LexesWord cs tokens :=
  fun rest _ => h rest

theorem Lexes.append {cs ds : List Char} {tokens later : List Token}
    (hcs : Lexes cs tokens) (hds : Lexes ds later) :
    Lexes (cs ++ ds) (tokens ++ later) := by
  intro rest
  rw [List.append_assoc, hcs, hds, Option.map_map]
  congr 1
  exact funext fun tail => (List.append_assoc ..).symm

theorem Lexes.append_word {cs ds : List Char} {tokens later : List Token}
    (hcs : Lexes cs tokens) (hds : LexesWord ds later) :
    LexesWord (cs ++ ds) (tokens ++ later) := by
  intro rest hrest
  rw [List.append_assoc, hcs, hds rest hrest, Option.map_map]
  congr 1
  exact funext fun tail => (List.append_assoc ..).symm

theorem LexesWord.append {cs ds : List Char} {tokens later : List Token}
    (hcs : LexesWord cs tokens) (hds : Lexes ds later)
    (hhead : ∃ c rest, ds = c :: rest ∧ isWordChar c = false) :
    Lexes (cs ++ ds) (tokens ++ later) := by
  obtain ⟨c, tail, rfl, hc⟩ := hhead
  intro rest
  rw [List.append_assoc, hcs _ (by simpa using hc), hds, Option.map_map]
  congr 1
  exact funext fun tail => (List.append_assoc ..).symm

theorem lexes_spaces {cs : List Char} (h : ∀ c ∈ cs, isSpace c = true) :
    Lexes cs [] := by
  intro rest
  induction cs with
  | nil => simp
  | cons c later ih =>
      obtain ⟨hc, hlater⟩ := List.forall_mem_cons.1 h
      rw [List.cons_append, tokens?_space hc, ih hlater]

theorem lexes_mark {c : Char} (hc : isMark c = true) : Lexes [c] [.mark c] := by
  have hspace : isSpace c = false := by
    simp only [isMark, Bool.or_eq_true, decide_eq_true_eq] at hc
    rcases hc with ((((rfl | rfl) | rfl) | rfl) | rfl) | rfl <;> decide
  intro rest
  rw [List.singleton_append,
    tokens?_of_token? hspace (by rw [token?, if_pos hc])]
  rfl

theorem lexes_stringText (text : String) :
    Lexes (stringText text) [.string text] := by
  intro rest
  have hread := readString?_flatMap text.toList rest
  have htoken :
      token? ('"' :: (text.toList.flatMap escapedChar ++ '"' :: rest)) =
        some (.string text, rest) := by
    rw [token?, if_neg (by decide), if_pos rfl, hread]
    simp
  rw [stringText, List.cons_append, List.cons_append, List.append_assoc,
    List.singleton_append, tokens?_of_token? (by decide) htoken]
  rfl

theorem isWordChar_cases {c : Char} (h : isWordChar c = true) :
    isSpace c = false ∧ isMark c = false ∧ c ≠ '"' := by
  have hne : ∀ d, isWordChar d = false → c ≠ d := by
    rintro d hd rfl
    cases h.symm.trans hd
  refine ⟨?_, ?_, hne '"' (by decide)⟩
  · simp [isSpace, hne ' ' (by decide), hne '\n' (by decide),
      hne '\r' (by decide), hne '\t' (by decide)]
  · simp [isMark, hne '[' (by decide), hne ']' (by decide), hne '{' (by decide),
      hne '}' (by decide), hne ',' (by decide), hne ':' (by decide)]

/-- A word is read up to the first character that cannot go on with it. -/
theorem token?_word {word rest : List Char}
    (hword : ∀ c ∈ word, isWordChar c = true) (hne : word ≠ [])
    (hrest : ∀ c ∈ rest.head?, isWordChar c = false) :
    token? (word ++ rest) =
      if word = "null".toList then some (.null, rest)
      else if isNumber word then some (.number word, rest)
      else none := by
  have htake : (word ++ rest).takeWhile isWordChar = word := by
    rw [List.takeWhile_append_of_pos hword]
    cases rest with
    | nil => simp
    | cons c later => simp [hrest c rfl]
  have hdrop : (word ++ rest).dropWhile isWordChar = rest := by
    rw [List.dropWhile_append_of_pos hword]
    cases rest with
    | nil => simp
    | cons c later => simp [hrest c rfl]
  obtain ⟨c, later, rfl⟩ := List.exists_cons_of_ne_nil hne
  obtain ⟨-, hmark, hquote⟩ :=
    isWordChar_cases (hword c (List.mem_cons_self ..))
  rw [List.cons_append] at htake hdrop ⊢
  rw [token?, if_neg (by simp [hmark]), if_neg hquote, htake, hdrop]

theorem lexesWord_of_token? {word : List Char} {token : Token}
    (hword : ∀ c ∈ word, isWordChar c = true) (hne : word ≠ [])
    (htoken : ∀ rest, (∀ c ∈ rest.head?, isWordChar c = false) →
      token? (word ++ rest) = some (token, rest)) :
    LexesWord word [token] := by
  intro rest hrest
  have hread := htoken rest hrest
  obtain ⟨c, later, rfl⟩ := List.exists_cons_of_ne_nil hne
  obtain ⟨hspace, -, -⟩ := isWordChar_cases (hword c (List.mem_cons_self ..))
  rw [List.cons_append] at hread ⊢
  rw [tokens?_of_token? hspace hread]
  rfl

theorem lexesWord_null : LexesWord "null".toList [.null] := by
  have hword : ∀ c ∈ "null".toList, isWordChar c = true :=
    List.all_eq_true.1 (by decide)
  refine lexesWord_of_token? hword (by decide) fun rest hrest => ?_
  rw [token?_word hword (by decide) hrest, if_pos rfl]

theorem lexesWord_number {text : List Char} (h : IsWritten text) :
    LexesWord text [.number text] := by
  have hne : text ≠ [] := by
    rintro rfl
    cases h.1
  have hnull : text ≠ "null".toList := by
    rintro rfl
    exact absurd h.1 (by decide)
  refine lexesWord_of_token? h.2 hne fun rest hrest => ?_
  rw [token?_word h.2 hne hrest, if_neg hnull, if_pos h.1]

/-! ## Tokens of values -/

/-- The token of a value. -/
def Scalar.token : Scalar → Token
  | .null => .null
  | .number text => .number text
  | .string text => .string text

/-- Whether the numbers among the values of the object are written
as numbers. -/
def IsSound (object : Object) : Prop :=
  ∀ name text, (name, Scalar.number text) ∈ object → IsWritten text

theorem lexesWord_text {value : Scalar}
    (h : ∀ text, value = .number text → IsWritten text) :
    LexesWord value.text [value.token] := by
  cases value with
  | null => exact lexesWord_null
  | number text => exact lexesWord_number (h text rfl)
  | string text => exact (lexes_stringText text).word

/-- The tokens of items between brackets, with commas between them. -/
def bracketedTokens (opening closing : Char) : List (List Token) → List Token
  | [] => [.mark opening, .mark closing]
  | item :: items =>
    .mark opening :: item ++ items.flatMap (.mark ',' :: ·) ++ [.mark closing]

/-- The tokens of a member. -/
def memberTokens (member : String × Scalar) : List Token :=
  [.string member.1, .mark ':', member.2.token]

/-- The tokens of an object. -/
def objectTokens (object : Object) : List Token :=
  bracketedTokens '{' '}' (object.map memberTokens)

/-- The tokens of an array of objects. -/
def arrayTokens (objects : List Object) : List Token :=
  bracketedTokens '[' ']' (objects.map objectTokens)

section Bracketed

variable {opening closing : Char} {indent outer : List Char}

/-- What comes after the first item: the other items and the closing bracket. -/
theorem lexes_items (hclosing : isMark closing = true)
    (hindent : ∀ c ∈ indent, isSpace c = true)
    (houter : ∀ c ∈ outer, isSpace c = true) {items : List (List Char)}
    {tokens : List (List Token)} (h : List.Forall₂ LexesWord items tokens) :
    ∃ c text, items.flatMap (fun item => ',' :: '\n' :: indent ++ item)
        ++ '\n' :: outer ++ [closing] = c :: text ∧ isWordChar c = false ∧
      Lexes (c :: text)
        (tokens.flatMap (.mark ',' :: ·) ++ [.mark closing]) := by
  induction h with
  | nil =>
      refine ⟨'\n', outer ++ [closing], by simp, by decide, ?_⟩
      have hspaces : ∀ c ∈ '\n' :: outer, isSpace c = true :=
        List.forall_mem_cons.2 ⟨by decide, houter⟩
      exact (lexes_spaces hspaces).append (lexes_mark hclosing)
  | @cons item _ items _ hitem _ ih =>
      obtain ⟨c, text, heq, hc, hrest⟩ := ih
      refine ⟨',', '\n' :: indent ++ item ++ (c :: text), ?_, by decide, ?_⟩
      · rw [← heq]
        simp
      · have hspaces : ∀ c ∈ '\n' :: indent, isSpace c = true :=
          List.forall_mem_cons.2 ⟨by decide, hindent⟩
        have hfirst := (lexes_spaces hspaces).append_word hitem
        have hlater := hfirst.append hrest ⟨c, text, rfl, hc⟩
        have hcomma : isMark ',' = true := by decide
        simpa using (lexes_mark hcomma).append hlater

theorem lexes_bracketed (hopening : isMark opening = true)
    (hclosing : isMark closing = true)
    (hindent : ∀ c ∈ indent, isSpace c = true)
    (houter : ∀ c ∈ outer, isSpace c = true) {items : List (List Char)}
    {tokens : List (List Token)} (h : List.Forall₂ LexesWord items tokens) :
    Lexes (bracketed opening closing indent outer items)
      (bracketedTokens opening closing tokens) := by
  cases h with
  | nil => exact (lexes_mark hopening).append (lexes_mark hclosing)
  | @cons item _ items _ hitem hitems =>
      obtain ⟨c, text, heq, hc, hrest⟩ :=
        lexes_items hclosing hindent houter hitems
      have hspaces : ∀ c ∈ '\n' :: indent, isSpace c = true :=
        List.forall_mem_cons.2 ⟨by decide, hindent⟩
      have hfirst := (lexes_spaces hspaces).append_word hitem
      have hall :=
        (lexes_mark hopening).append (hfirst.append hrest ⟨c, text, rfl, hc⟩)
      rw [← heq] at hall
      simpa [bracketed, bracketedTokens] using hall

end Bracketed

theorem lexesWord_member {member : String × Scalar}
    (h : ∀ text, member.2 = .number text → IsWritten text) :
    LexesWord (stringText member.1 ++ ": ".toList ++ member.2.text)
      (memberTokens member) := by
  have hcolon : Lexes ": ".toList [.mark ':'] :=
    (lexes_mark (by decide)).append
      (lexes_spaces (List.all_eq_true.1 (by decide)))
  exact ((lexes_stringText member.1).append hcolon).append_word
    (lexesWord_text h)

theorem lexes_objectText {object : Object} (h : IsSound object) :
    Lexes (objectText object) (objectTokens object) := by
  refine lexes_bracketed (by decide) (by decide)
    (List.all_eq_true.1 (by decide))
    (List.all_eq_true.1 (by decide)) ?_
  rw [List.forall₂_map_left_iff, List.forall₂_map_right_iff, List.forall₂_same]
  exact fun member hmem => lexesWord_member fun text htext =>
    h member.1 text (htext ▸ hmem)

theorem lexes_arrayText {objects : List Object}
    (h : ∀ object ∈ objects, IsSound object) :
    Lexes (arrayText objects) (arrayTokens objects) := by
  refine lexes_bracketed (by decide) (by decide)
    (List.all_eq_true.1 (by decide))
    (List.forall_mem_nil _) ?_
  rw [List.forall₂_map_left_iff, List.forall₂_map_right_iff, List.forall₂_same]
  exact fun object hmem => (lexes_objectText (h object hmem)).word

/-! ## Values of tokens -/

theorem scalar?_token (value : Scalar) : value.token.scalar? = some value := by
  cases value <;> rfl

theorem members?_memberTokens (member : String × Scalar) (later : Object)
    (rest : List Token) :
    members?
      (memberTokens member ++ (later.map memberTokens).flatMap (.mark ',' :: ·)
        ++ .mark '}' :: rest) = some (member :: later, rest) := by
  induction later generalizing member with
  | nil => simp [memberTokens, members?, scalar?_token]
  | cons next later ih =>
      have hnext := ih next
      simp only [memberTokens, List.cons_append, List.nil_append] at hnext
      simp [memberTokens, members?, scalar?_token, hnext]

theorem object?_objectTokens (object : Object) (rest : List Token) :
    object? (objectTokens object ++ rest) = some (object, rest) := by
  cases object with
  | nil => rfl
  | cons member later =>
      have hmembers := members?_memberTokens member later rest
      rw [objectTokens, List.map_cons, bracketedTokens, List.append_assoc,
        List.singleton_append, List.cons_append, List.cons_append,
        object?, hmembers]
      intro after h
      cases h

theorem objects?_cons {tokens rest : List Token} {object : Object}
    (h : object? tokens = some (object, .mark ',' :: rest)) :
    objects? tokens = (objects? rest).map (object :: ·) := by
  rw [objects?]
  split
  · next hobject =>
    cases h.symm.trans hobject
    rfl
  · next hobject => cases h.symm.trans hobject
  · next hnone _ => exact absurd h (hnone _ _)

theorem objects?_single {tokens : List Token} {object : Object}
    (h : object? tokens = some (object, [.mark ']'])) :
    objects? tokens = some [object] := by
  rw [objects?]
  split
  · next hobject => cases h.symm.trans hobject
  · next hobject =>
    cases h.symm.trans hobject
    rfl
  · next hnone => exact absurd h (hnone _)

theorem objects?_objectTokens (object : Object) (later : List Object) :
    objects?
      (objectTokens object ++ (later.map objectTokens).flatMap (.mark ',' :: ·)
        ++ [.mark ']']) = some (object :: later) := by
  induction later generalizing object with
  | nil =>
      rw [List.map_nil, List.flatMap_nil, List.append_nil]
      exact objects?_single (object?_objectTokens object _)
  | cons next later ih =>
      have hobject :=
        object?_objectTokens object (.mark ',' :: (objectTokens next ++
          (later.map objectTokens).flatMap (.mark ',' :: ·) ++ [.mark ']']))
      rw [List.map_cons, List.flatMap_cons, List.append_assoc, List.cons_append,
        List.cons_append, objects?_cons hobject, ih]
      rfl

theorem array?_arrayTokens (objects : List Object) :
    array? (arrayTokens objects) = some objects := by
  cases objects with
  | nil => rfl
  | cons object later =>
      rw [arrayTokens, List.map_cons, bracketedTokens, List.cons_append,
        List.cons_append, array?, objects?_objectTokens]
      intro h
      cases object <;> cases h

/-! ## Reports -/

/-- An array of objects is read back. -/
theorem read?_arrayText {objects : List Object}
    (h : ∀ object ∈ objects, IsSound object) :
    read? (arrayText objects ++ ['\n']) = some objects := by
  have hend : tokens? ['\n'] = some [] := by
    rw [tokens?_space (by decide), tokens?]
  rw [read?, lexes_arrayText h, hend]
  exact (congrArg array? (List.append_nil _)).trans (array?_arrayTokens objects)

theorem isSound_ofEntry (e : Entry) : IsSound (ofEntry e) := by
  have hcount : ∀ (count : Option UInt32) text, ofCount? count = .number text →
      IsWritten text := by
    intro count text h
    cases count with
    | none => cases h
    | some n =>
        cases h
        exact isWritten_toDigits _
  have hdouble : ∀ x text, ofDouble x = .number text → IsWritten text := by
    intro x text h
    rw [ofDouble] at h
    split at h
    · next hfinite =>
      cases h
      exact isWritten_toChars hfinite
    · cases h
  intro name text hmem
  simp only [ofEntry, List.mem_cons, List.not_mem_nil, or_false, Prod.mk.injEq]
    at hmem
  rcases hmem with ⟨-, h⟩ | ⟨-, h⟩ | ⟨-, h⟩ | ⟨-, h⟩ | ⟨-, h⟩ | ⟨-, h⟩
  · cases hclass : e.setting.problemClass <;> rw [hclass] at h <;> cases h
  · exact hcount _ _ h.symm
  · exact hcount _ _ h.symm
  · exact hdouble _ _ h.symm
  · cases h
    exact isWritten_toDigits _
  · cases h
    exact isWritten_toDigits _

/-- A report is read as the objects of its entries. -/
theorem read?_report (entries : List Entry) :
    read? (report entries) = some (entries.map ofEntry) := by
  refine read?_arrayText fun object hmem => ?_
  obtain ⟨e, -, rfl⟩ := List.mem_map.1 hmem
  exact isSound_ofEntry e

end BenchReport.Json
