import BenchReport.Proofs.Glob.Search

/-!
# Patterns that stand for a text

An escaped text is read character by character, whatever was read before it: a
special one becomes a class of itself, any other one stands for itself
(`reads_escape`). So an escaped text accepts itself and nothing else
(`accepts_escaped_iff`), and since escaping adds no slash, the parts of an
escaped text are its parts escaped (`splitParts_escape`).

A text without an opening bracket, a star or a question mark is read as it is.
After a star and a dot it makes a pattern of the names that end with the dot and
the text (`accepts_suffix_iff`).
-/

namespace BenchReport.Glob

/-- Whether a character is escaped. -/
def isSpecial (c : Char) : Bool :=
  c = '?' || c = '*' || c = '[' || c = ']'

/-- The token of an escaped character. -/
def escaped (c : Char) : Token :=
  if isSpecial c then .oneOf false [.single c] else .literal c

/-- Whether a text is read as it is. -/
def IsPlain (cs : List Char) : Prop :=
  ∀ c ∈ cs, c ≠ '?' ∧ c ≠ '*' ∧ c ≠ '['

instance (cs : List Char) : Decidable (IsPlain cs) :=
  List.decidableBAll _ cs

/-- The tokens of the names that end with a dot and a text. -/
def suffixTokens (cs : List Char) : List Token :=
  .anyText :: .literal '.' :: cs.map .literal

/-! ## Reading -/

/-- Whether a text is read as some tokens, whatever stands before it. -/
def Reads (cs : List Char) (tokens : List Token) : Prop :=
  ∀ position previous, readTokens position previous cs = .ok tokens

theorem reads_nil : Reads [] [] := fun _ _ => by rw [readTokens]

theorem reads_cons {c : Char} {rest : List Char} {token : Token} {more : Nat}
    (htoken : ∀ position previous, readToken position previous c rest =
      .ok (token, more))
    {tokens : List Token} (h : Reads (rest.drop more) tokens) :
    Reads (c :: rest) (token :: tokens) := by
  intro position previous
  rw [readTokens, htoken]
  dsimp only
  rw [h]
  rfl

theorem reads_literal {c : Char} (hc : c ≠ '?' ∧ c ≠ '*' ∧ c ≠ '[')
    {rest : List Char} {tokens : List Token} (h : Reads rest tokens) :
    Reads (c :: rest) (.literal c :: tokens) := by
  have htoken : ∀ position previous,
      readToken position previous c rest = .ok (.literal c, 0) := fun _ _ => by
    rw [readToken, if_neg hc.1, if_neg hc.2.1, if_neg hc.2.2]
  exact reads_cons htoken h

theorem readClass?_single {c : Char} (hc : c ≠ '!') (rest : List Char) :
    readClass? (c :: ']' :: rest) = some (.oneOf false [.single c], 2) := by
  rw [readClass?.eq_def]
  split
  · next heq => exact absurd (List.cons.inj heq).1 hc
  · next heq => exact absurd (List.cons.inj heq).1 hc
  · next heq =>
    cases heq
    rfl
  · next heq => cases heq

theorem reads_oneOf {c : Char} (hc : c ≠ '!') {rest : List Char}
    {tokens : List Token} (h : Reads rest tokens) :
    Reads ('[' :: c :: ']' :: rest) (.oneOf false [.single c] :: tokens) := by
  have htoken : ∀ position previous,
      readToken position previous '[' (c :: ']' :: rest) =
        .ok (.oneOf false [.single c], 2) := fun _ _ => by
    rw [readToken, if_neg (by decide), if_neg (by decide), if_pos rfl,
      readClass?_single hc]
  exact reads_cons htoken h

theorem escape_cons (c : Char) (cs : List Char) :
    escape (c :: cs) = (if isSpecial c then ['[', c, ']'] else [c]) ++
      escape cs :=
  List.flatMap_cons

theorem reads_escape {rest : List Char} {tokens : List Token}
    (h : Reads rest tokens) (cs : List Char) :
    Reads (escape cs ++ rest) (cs.map escaped ++ tokens) := by
  induction cs with
  | nil => exact h
  | cons c cs ih =>
      rw [escape_cons, List.map_cons, escaped]
      by_cases hc : isSpecial c = true
      · rw [if_pos hc, if_pos hc]
        refine reads_oneOf ?_ ih
        rintro rfl
        exact absurd hc (by decide)
      · rw [if_neg hc, if_neg hc]
        refine reads_literal ⟨?_, ?_, ?_⟩ ih
        · rintro rfl
          exact hc rfl
        · rintro rfl
          exact hc rfl
        · rintro rfl
          exact hc rfl

theorem reads_plain {cs : List Char} (hcs : IsPlain cs) :
    Reads cs (cs.map .literal) := by
  induction cs with
  | nil => exact reads_nil
  | cons c cs ih =>
      obtain ⟨hc, hcs⟩ := List.forall_mem_cons.1 hcs
      exact reads_literal hc (ih hcs)

theorem reads_suffix {cs : List Char} (hcs : IsPlain cs) :
    Reads ('*' :: '.' :: cs) (suffixTokens cs) := by
  have htoken : ∀ position previous,
      readToken position previous '*' ('.' :: cs) = .ok (.anyText, 0) :=
    fun _ _ => by
      rw [readToken, if_neg (by decide), if_pos rfl]
      rfl
  exact reads_cons htoken (reads_literal (by decide) (reads_plain hcs))

/-! ## Accepting -/

theorem accepts_literal_iff {c : Char} {tokens : List Token}
    {text : List Char} :
    accepts (.literal c :: tokens) text = true ↔
      ∃ rest, text = c :: rest ∧ accepts tokens rest = true := by
  cases text with
  | nil => simp [accepts]
  | cons d rest =>
      rw [accepts, Bool.and_eq_true, decide_eq_true_eq]
      constructor
      · rintro ⟨rfl, h⟩
        exact ⟨rest, rfl, h⟩
      · rintro ⟨_, heq, h⟩
        cases heq
        exact ⟨rfl, h⟩

theorem accepts_oneOf_iff {c : Char} {tokens : List Token} {text : List Char} :
    accepts (.oneOf false [.single c] :: tokens) text = true ↔
      ∃ rest, text = c :: rest ∧ accepts tokens rest = true := by
  cases text with
  | nil => simp [accepts]
  | cons d rest =>
      rw [accepts]
      simp only [List.any_cons, List.any_nil, Bool.or_false, ClassItem.holds,
        Bool.bne_false, Bool.and_eq_true, decide_eq_true_eq]
      constructor
      · rintro ⟨rfl, h⟩
        exact ⟨rest, rfl, h⟩
      · rintro ⟨_, heq, h⟩
        cases heq
        exact ⟨rfl, h⟩

/-- Tokens for one character each accept the text of these characters only. -/
theorem accepts_map_iff {f : Char → Token}
    (hf : ∀ c tokens text, accepts (f c :: tokens) text = true ↔
      ∃ rest, text = c :: rest ∧ accepts tokens rest = true)
    {cs text : List Char} :
    accepts (cs.map f) text = true ↔ text = cs := by
  induction cs generalizing text with
  | nil => rw [List.map_nil, accepts, List.isEmpty_iff]
  | cons c cs ih =>
      rw [List.map_cons, hf]
      simp only [ih, exists_eq_right]

theorem accepts_escaped_iff {cs text : List Char} :
    accepts (cs.map escaped) text = true ↔ text = cs := by
  refine accepts_map_iff fun c tokens text => ?_
  rw [escaped]
  split
  · exact accepts_oneOf_iff
  · exact accepts_literal_iff

theorem accepts_anyText_iff {tokens : List Token} {text : List Char} :
    accepts (.anyText :: tokens) text = true ↔
      ∃ later, later <:+ text ∧ accepts tokens later = true := by
  induction text with
  | nil =>
      rw [accepts]
      simp only [List.suffix_nil, exists_eq_left]
  | cons c rest ih =>
      rw [accepts, Bool.or_eq_true, ih]
      simp only [List.suffix_cons_iff]
      constructor
      · rintro (h | ⟨later, hlater, h⟩)
        · exact ⟨_, .inl rfl, h⟩
        · exact ⟨later, .inr hlater, h⟩
      · rintro ⟨later, rfl | hlater, h⟩
        · exact .inl h
        · exact .inr ⟨later, hlater, h⟩

theorem accepts_suffix_iff {cs text : List Char} :
    accepts (suffixTokens cs) text = true ↔ ('.' :: cs) <:+ text := by
  rw [suffixTokens, accepts_anyText_iff]
  have hplain (later : List Char) : accepts (cs.map .literal) later = true ↔
      later = cs :=
    accepts_map_iff fun _ _ _ => accepts_literal_iff
  simp only [accepts_literal_iff, hplain, exists_eq_right]

/-! ## Literal parts -/

theorem literalText?_of_forall {cs : List Char}
    (h : ∀ c ∈ cs, isSpecial c = false) :
    literalText? (cs.map escaped) = some cs := by
  induction cs with
  | nil => rfl
  | cons c cs ih =>
      obtain ⟨hc, hcs⟩ := List.forall_mem_cons.1 h
      rw [List.map_cons, escaped, hc, if_neg Bool.false_ne_true,
        literalText?, ih hcs]
      rfl

theorem literalText?_of_exists {cs : List Char}
    (h : ∃ c ∈ cs, isSpecial c = true) :
    literalText? (cs.map escaped) = none := by
  induction cs with
  | nil =>
      obtain ⟨_, hmem, -⟩ := h
      cases hmem
  | cons c cs ih =>
      rw [List.map_cons, escaped]
      by_cases hc : isSpecial c = true
      · rw [if_pos hc]
        rfl
      · obtain ⟨d, hd, hspecial⟩ := h
        have hmem :=
          (List.mem_cons.1 hd).resolve_left fun heq => hc (heq ▸ hspecial)
        rw [if_neg hc, literalText?, ih ⟨d, hmem, hspecial⟩]
        rfl

/-! ## Parts -/

theorem splitParts_escape (cs : List Char) :
    Path.splitParts (escape cs) = (Path.splitParts cs).map escape := by
  induction cs with
  | nil => rfl
  | cons c cs ih =>
      rw [escape_cons]
      by_cases hc : c = '/'
      · subst hc
        rw [if_neg (by decide), List.singleton_append, Path.splitParts,
          if_pos rfl, ih, Path.splitParts, if_pos rfl]
        rfl
      · obtain ⟨first, others, hsplit⟩ :=
          List.exists_cons_of_ne_nil (Path.splitParts_ne_nil cs)
        rw [hsplit, List.map_cons] at ih
        have hslash :
            '/' ∉ (if isSpecial c = true then ['[', c, ']'] else [c]) := by
          split <;> simp [Ne.symm hc]
        rw [Path.splitParts_append hslash ih, Path.splitParts, if_neg hc,
          hsplit, ← escape_cons]
        rfl

end BenchReport.Glob
