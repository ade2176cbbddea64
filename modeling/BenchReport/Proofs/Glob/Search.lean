import BenchReport.Glob.Search
import BenchReport.Proofs.FileTree.Access
import BenchReport.Proofs.Outcome

/-!
# Steps of a search

The parts of a pattern come from a text cut at its slashes, so a part that is
taken literally holds no slash and is one step (`isStep_of_mem_parts`). Entering
a directory adds such a step to the path. The dot that a search of relative
paths starts from is dropped when a directory is entered, and no other path is a
dot (`isDot_enter`), so it is dropped once and only there.

Candidates and visits are taken apart by equations, one for each kind of part.
-/

namespace BenchReport.Glob

/-! ## Literal parts -/

/-- Whether a part of a pattern is free of slashes that stand for themselves. -/
def Part.IsStep (part : Part) : Prop :=
  ∀ tokens, part = .name tokens → .literal '/' ∉ tokens

theorem not_literal_of_readClass? {rest : List Char} {token : Token}
    {more : Nat} (h : readClass? rest = some (token, more)) (d : Char) :
    token ≠ .literal d := by
  rintro rfl
  rw [readClass?.eq_def] at h
  split at h
  · rw [Option.map_eq_some_iff] at h
    obtain ⟨_, -, h⟩ := h
    cases h
  · cases h
  · rw [Option.map_eq_some_iff] at h
    obtain ⟨_, -, h⟩ := h
    cases h
  · cases h

theorem eq_of_readToken {position more : Nat} {previous : Option Char}
    {c d : Char} {rest : List Char}
    (h : readToken position previous c rest = .ok (.literal d, more)) :
    d = c := by
  simp only [readToken] at h
  split at h
  · cases h
  · split at h
    · repeat' split at h
      all_goals cases h
    · split at h
      · split at h
        · next result hclass =>
          cases h
          exact absurd rfl (not_literal_of_readClass? hclass d)
        · cases h
      · cases h
        rfl

theorem mem_of_readTokens {position : Nat} {previous : Option Char}
    {cs : List Char} {tokens : List Token}
    (h : readTokens position previous cs = .ok tokens) {d : Char}
    (hd : .literal d ∈ tokens) : d ∈ cs := by
  fun_induction readTokens position previous cs generalizing tokens with
  | case1 =>
      cases h
      cases hd
  | case2 => cases h
  | case3 position previous c rest token more hread last =>
      rename_i ih
      obtain ⟨later, hlater, rfl⟩ := map_eq_ok_iff.1 h
      rcases List.mem_cons.1 hd with rfl | hd
      · exact eq_of_readToken hread ▸ List.mem_cons_self ..
      · exact List.mem_cons_of_mem _ (List.mem_of_mem_drop (ih hlater hd))

theorem isStep_of_read {text : List Char} {part : Part} (htext : '/' ∉ text)
    (h : Part.read text = .ok part) : part.IsStep := by
  rintro tokens rfl hslash
  obtain ⟨read, hread, hpart⟩ := map_eq_ok_iff.1 h
  split at hpart
  · cases hpart
  · cases hpart
    exact htext (mem_of_readTokens hread hslash)

theorem not_mem_of_mem_partTexts {text part : List Char}
    (h : part ∈ partTexts text) :
    '/' ∉ part := by
  have hpart : part ∈ Path.splitParts text := by
    rw [partTexts] at h
    split at h
    · next before hbefore =>
      rw [← List.mem_reverse, hbefore]
      exact List.mem_cons_of_mem _ (List.mem_reverse.1 h)
    · exact h
  exact Path.not_mem_of_mem_splitParts hpart

theorem isStep_of_mem_parts {text : List Char} {pattern : PathPattern}
    (h : PathPattern.read text = .ok pattern) :
    ∀ part ∈ pattern.parts, part.IsStep := by
  rw [PathPattern.read] at h
  obtain ⟨-, -, h⟩ := bind_eq_ok_iff.1 h
  obtain ⟨parts, hparts, h⟩ := bind_eq_ok_iff.1 h
  cases h
  intro part hpart
  obtain ⟨partText, hmem, hread⟩ := exists_of_mem_mapM hparts hpart
  exact isStep_of_read (not_mem_of_mem_partTexts hmem) hread

theorem isStep_anyDepth : Part.anyDepth.IsStep :=
  nofun

theorem isStep_dropWhile {parts : List Part}
    (hparts : ∀ part ∈ parts, part.IsStep) :
    ∀ part ∈ parts.dropWhile (· = .anyDepth), part.IsStep :=
  fun part hpart => hparts part ((List.dropWhile_sublist _).subset hpart)

theorem literal_mem_of_literalText? {tokens : List Token} {text : List Char}
    (h : literalText? tokens = some text) {d : Char} (hd : d ∈ text) :
    .literal d ∈ tokens := by
  induction tokens generalizing text with
  | nil =>
      cases h
      cases hd
  | cons token rest ih =>
      cases token with
      | literal c =>
          rw [literalText?, Option.map_eq_some_iff] at h
          obtain ⟨later, hlater, rfl⟩ := h
          rcases List.mem_cons.1 hd with rfl | hd
          · exact List.mem_cons_self ..
          · exact List.mem_cons_of_mem _ (ih hlater hd)
      | _ => cases h

theorem not_mem_of_literalText? {tokens : List Token} {text : List Char}
    {parts : List Part}
    (hparts : ∀ part ∈ Part.name tokens :: parts, part.IsStep)
    (h : literalText? tokens = some text) : '/' ∉ text := fun hmem =>
  (List.forall_mem_cons.1 hparts).1 tokens rfl
    (literal_mem_of_literalText? h hmem)

/-! ## Entering a directory -/

section Entering

variable {tree : FileTree} {path : Path} {q : String}

theorem isDot_iff : isDot path = true ↔ path.components = [.here] :=
  decide_eq_true_iff

theorem enter_of_isDot (h : isDot path = true) (name : String) :
    enter path name = ⟨name⟩ :=
  if_pos h

theorem enter_of_not_isDot (h : isDot path = false) (name : String) :
    enter path name = path.join name :=
  if_neg (Bool.eq_false_iff.1 h)

/-- What is entered is no dot, if the name is none. -/
theorem isDot_enter (path : Path) (hq : '/' ∉ q.toList)
    (hdot : q.toList ≠ ['.']) :
    isDot (enter path q) = false := by
  have hhere : Path.componentOf q.toList ≠ .here :=
    fun h => hdot (Path.componentOf_eq_here_iff.1 h)
  have hname : isDot ⟨q⟩ = false := by
    rw [Bool.eq_false_iff, Ne, isDot_iff, Path.components_of_not_mem hq,
      Path.start, if_neg Bool.false_ne_true]
    split
    · exact (List.cons_ne_nil _ _).symm
    · exact fun h => hhere (List.cons.inj h).1
  cases hpath : isDot path with
  | true => rwa [enter_of_isDot hpath]
  | false =>
      rw [enter_of_not_isDot hpath]
      by_cases hempty : path.text = ""
      · rwa [Path.join_of_text_eq hempty hq]
      · rw [Bool.eq_false_iff, Ne, isDot_iff,
          Path.components_join_of_ne hempty hq]
        by_cases hidle : Path.isIdle q.toList = true
        · rw [List.filter_cons_of_neg (by simpa using hidle)]
          intro h
          rw [List.filter_nil, List.map_nil, List.append_nil,
            ← isDot_iff, hpath] at h
          cases h
        · rw [List.filter_cons_of_pos (by simpa using hidle)]
          intro h
          have hlast := congrArg List.getLast? h
          rw [List.filter_nil, List.map_singleton, List.getLast?_concat]
            at hlast
          exact hhere (Option.some.inj hlast)

theorem text_enter_ne (path : Path) (name : FileName) :
    (enter path name.text).text ≠ "" := by
  cases hpath : isDot path with
  | true =>
      rw [enter_of_isDot hpath]
      exact name.valid.1
  | false =>
      rw [enter_of_not_isDot hpath]
      intro h
      have hcomponents := Path.components_join path (FileTree.isName_text name)
      rw [show path.join name.text = ⟨""⟩ from congrArg Path.mk h]
        at hcomponents
      exact List.append_ne_nil_of_right_ne_nil _ (List.cons_ne_nil _ _)
        hcomponents.symm

theorem isSome_find?_of_hasEntry_enter {place : Place} {name : FileName}
    (hresolve : tree.resolve path = .ok place)
    (h : tree.hasEntry (enter path name.text) = true) :
    (tree.find? (name :: place)).isSome = true := by
  cases hpath : isDot path with
  | true =>
      rw [enter_of_isDot hpath] at h
      rw [FileTree.place_eq_start (isDot_iff.1 hpath) hresolve]
      exact FileTree.isSome_find?_of_hasEntry h
  | false =>
      rw [enter_of_not_isDot hpath] at h
      exact FileTree.isSome_find?_of_hasEntry_join hresolve h

end Entering

/-! ## Candidates and visits -/

/-- The candidates at a path from which some parts are left, or the path itself
if none is. -/
def proceed (tree : FileTree) (next : Path) (parts : List Part) :
    List Candidate :=
  if parts.isEmpty then [.complete next] else candidates tree next parts

/-- The candidates that stand for the entries of a directory. -/
def children (tree : FileTree) (path : Path) (parts : List Part) :
    List Candidate :=
  if tree.isDirectory path then
    match tree.list path with
    | .ok names => names.map fun name => .open (enter path name.text) parts
    | .error _ => []
  else []

/-- The candidates of a directory that a part stands for by dots. -/
def dotted (tree : FileTree) (path : Path) (tokens : List Token)
    (parts : List Part) (dots : String) : List Candidate :=
  if tree.isDirectory path && tokens.head? = some (.literal '.')
      && accepts tokens dots.toList then
    proceed tree (path.join dots) parts
  else []

/-- The paths found from a path whose last component is compared with the first
part. -/
def matched (tree : FileTree) (directories : Bool) (depth : Nat) (path : Path)
    (parts : List Part) : List Path :=
  match parts, path.fileName? with
  | .name tokens :: rest, some name =>
    if accepts tokens name.toList then
      if rest.isEmpty then found tree directories path
      else (candidates tree path rest).flatMap (visit tree directories depth)
    else []
  | _, _ => []

section Equations

variable {tree : FileTree} {directories : Bool} {path : Path}
  {tokens : List Token} {parts : List Part}

theorem candidates_anyDepth :
    candidates tree path (.anyDepth :: parts) =
      children tree path (.anyDepth :: parts) := by
  rw [candidates]
  rfl

theorem candidates_literal {text : List Char}
    (h : literalText? tokens = some text) :
    candidates tree path (.name tokens :: parts) =
      if (if text = ['.'] || text = ['.', '.'] then tree.isDirectory path
          else tree.hasEntry (enter path (.ofList text))) then
        proceed tree (enter path (.ofList text)) parts
      else [] := by
  rw [candidates]
  dsimp only
  rw [h]
  rfl

theorem candidates_name (h : literalText? tokens = none) :
    candidates tree path (.name tokens :: parts) =
      dotted tree path tokens parts ".." ++ dotted tree path tokens parts "."
        ++ children tree path (.name tokens :: parts) := by
  rw [candidates]
  dsimp only
  rw [h]
  rfl

theorem visit_nil (depth : Nat) :
    visit tree directories (depth + 1) (.open path []) = [] := by
  rw [visit]
  exact nofun

theorem visit_name (depth : Nat) :
    visit tree directories (depth + 1) (.open path (.name tokens :: parts)) =
      matched tree directories depth path (.name tokens :: parts) := by
  rw [visit]
  · rfl
  · exact nofun

theorem visit_anyDepth (depth : Nat) :
    visit tree directories (depth + 1) (.open path (.anyDepth :: parts)) =
      let rest := (Part.anyDepth :: parts).dropWhile (· = .anyDepth)
      let deeper := if tree.isDirectory path then
          (candidates tree path (.anyDepth :: rest)).flatMap
            (visit tree directories depth)
        else []
      if rest.isEmpty then if tree.isDirectory path then path :: deeper else []
      else matched tree directories depth path rest ++ deeper := by
  rw [visit]
  rfl

end Equations

end BenchReport.Glob
