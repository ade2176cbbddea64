import BenchReport.Proofs.Glob.Descent

/-!
# Searches in a directory

An escaped directory and then a pattern of names stand for the names in the
directory that the pattern accepts (`search_names`). The search has them under a
path that leads where the path of the directory leads (`descend_directory`) and
that leaves at least as much room for a name, so what can be opened by joining
the directory and a name can be opened by the path that the search gives
(`resolve_enter_respelled`).

There is one way to get lost. An empty part is entered as an empty text where
the search has only a dot, and an empty path leads nowhere. So a relative path
must not have a slash right after the dots that it begins with (`LosesDots`).
With one, the search finds nothing (`search_of_losesDots`).
-/

namespace BenchReport.Glob

open FileTree

variable {tree : FileTree}

/-! ## Parts of a directory -/

/-- The parts of a path below the root, or below where relative paths start. -/
def partsBelow (directory : Path) : List (List Char) :=
  Path.splitParts (if directory.isAbsolute then directory.text.toList.drop 1
    else directory.text.toList)

/-- Where a search starts. -/
def origin (absolute : Bool) : Path :=
  if absolute then ⟨"/"⟩ else ⟨"."⟩

/-- The path that a search has for a directory. -/
def respelled (directory : Path) : Path :=
  enterAll (origin directory.isAbsolute) (partsBelow directory)

/-- Whether a relative path has a slash right after the dots that it
begins with. -/
def LosesDots (directory : Path) : Prop :=
  directory.isAbsolute = false ∧
    ((Path.splitParts directory.text.toList).dropWhile (· = ['.'])).head? =
      some []

instance (directory : Path) : Decidable (LosesDots directory) := by
  unfold LosesDots
  infer_instance

theorem size_cons (c : Char) (cs : List Char) :
    (String.ofList (c :: cs)).utf8ByteSize = c.utf8Size +
      (String.ofList cs).utf8ByteSize := by
  rw [String.ofList_cons, String.utf8ByteSize_append,
    String.utf8ByteSize_singleton]

theorem sizeAll_splitParts (cs : List Char) :
    sizeAll (Path.splitParts cs) = (String.ofList cs).utf8ByteSize + 1 := by
  induction cs with
  | nil => rfl
  | cons c cs ih =>
      rw [Path.splitParts, size_cons]
      split
      · next hslash =>
        rw [sizeAll_cons, ih, hslash, show '/'.utf8Size = 1 by decide,
          String.ofList_nil, String.utf8ByteSize_empty]
        omega
      · obtain ⟨first, others, hsplit⟩ :=
          List.exists_cons_of_ne_nil (Path.splitParts_ne_nil cs)
        rw [hsplit, sizeAll_cons] at ih
        rw [hsplit]
        dsimp only
        rw [sizeAll_cons, size_cons]
        omega

theorem addedAll_le_sizeAll (texts : List (List Char)) :
    addedAll texts ≤ sizeAll texts := by
  induction texts with
  | nil => exact Nat.le_refl _
  | cons text rest ih =>
      rw [addedAll_cons, sizeAll_cons]
      exact Nat.add_le_add (added_le _) ih

theorem addedAll_append (texts later : List (List Char)) :
    addedAll (texts ++ later) = addedAll texts + addedAll later := by
  rw [addedAll, List.map_append, List.sum_append]
  rfl

/-- A slash at the end adds nothing. -/
theorem addedAll_splitParts_le {cs : List Char}
    (h : cs = [] ∨ cs.getLast? = some '/') :
    addedAll (Path.splitParts cs) ≤ (String.ofList cs).utf8ByteSize := by
  rcases h with rfl | h
  · exact Nat.le_refl _
  · obtain ⟨before, rfl⟩ := List.getLast?_eq_some_iff.1 h
    have hle := addedAll_le_sizeAll (Path.splitParts before)
    rw [sizeAll_splitParts] at hle
    rw [Path.splitParts_append_slash, addedAll_append, String.ofList_append,
      String.utf8ByteSize_append]
    exact hle

/-! ## Coming to the directory -/

theorem stands_origin (absolute : Bool)
    (h : tree.isDirectoryAt (if absolute then [] else tree.start) = true) :
    Stands tree (origin absolute) (if absolute then 1 else 0)
      ⟨if absolute then [] else tree.start, linkLimit⟩ := by
  cases absolute with
  | false => exact ⟨rfl, walk_here h linkLimit, h, by decide, fun _ => rfl⟩
  | true => exact ⟨rfl, walk_here h linkLimit, h, by decide, by decide⟩

theorem steps_ofText (directory : Path) :
    (Route.ofText directory.text).steps =
      ((partsBelow directory).filter (· ≠ [])).map Step.ofPart := by
  rw [Route.ofText, partsBelow]
  dsimp only
  by_cases habsolute : directory.isAbsolute = true
  · rw [if_pos habsolute, Path.toList_of_isAbsolute habsolute,
      Path.splitParts, if_pos rfl, List.filter_cons_of_neg (by decide)]
    rfl
  · rw [if_neg habsolute]

/-- The way to a directory is the way along its parts. -/
theorem walk_partsBelow {directory : Path} {arrival : Arrival}
    (h : tree.walk linkLimit ((Route.ofText directory.text).origin tree.start)
      (Route.ofText directory.text).steps = .ok arrival)
    (hdirectory : tree.isDirectoryAt arrival.place = true) :
    tree.walk linkLimit (if directory.isAbsolute then [] else tree.start)
      ((partsBelow directory).map stepOf) = .ok arrival := by
  rw [steps_ofText] at h
  exact walk_map_stepOf h hdirectory

/-- The parts of a path, with the slash that it begins with, are as long
as it. -/
theorem sizeAll_partsBelow (directory : Path) :
    (if directory.isAbsolute then 1 else 0) + sizeAll (partsBelow directory) =
      directory.text.utf8ByteSize + 1 := by
  rw [partsBelow, sizeAll_splitParts]
  by_cases habsolute : directory.isAbsolute = true
  · have hsize := congrArg (fun cs => (String.ofList cs).utf8ByteSize)
      (Path.toList_of_isAbsolute habsolute)
    simp only [String.ofList_toList, size_cons] at hsize
    rw [if_pos habsolute, if_pos habsolute, hsize,
      show '/'.utf8Size = 1 by decide]
    omega
  · rw [if_neg habsolute, if_neg habsolute, String.ofList_toList]
    omega

/-- What is joined to a path comes after no fewer bytes than what is entered. -/
theorem addedAll_partsBelow_le {directory : Path} (hne : directory.text ≠ "") :
    (if directory.isAbsolute then 1 else 0) + addedAll (partsBelow directory) ≤
      (directory.join "").text.utf8ByteSize := by
  have hsize := sizeAll_partsBelow directory
  rcases Path.text_join_empty hne with ⟨htext, hslash⟩ | htext
  · rw [htext]
    rw [partsBelow, sizeAll_splitParts] at hsize
    have hle : addedAll (partsBelow directory) ≤
        (String.ofList
          (if directory.isAbsolute then directory.text.toList.drop 1
            else directory.text.toList)).utf8ByteSize := by
      rw [partsBelow]
      refine addedAll_splitParts_le ?_
      by_cases habsolute : directory.isAbsolute = true
      · rw [if_pos habsolute]
        rw [Path.toList_of_isAbsolute habsolute] at hslash
        cases hrest : directory.text.toList.drop 1 with
        | nil => exact .inl rfl
        | cons c rest =>
            rw [hrest, List.getLast?_cons_cons] at hslash
            exact .inr hslash
      · rw [if_neg habsolute]
        exact .inr hslash
    omega
  · have hle := addedAll_le_sizeAll (partsBelow directory)
    rw [htext, String.utf8ByteSize_append, show "/".utf8ByteSize = 1 by decide]
    omega

theorem not_mem_of_mem_partsBelow {directory : Path}
    (hnull : '\x00' ∉ directory.text.toList) :
    ∀ text ∈ partsBelow directory, '/' ∉ text ∧ '\x00' ∉ text := by
  intro text htext
  refine ⟨Path.not_mem_of_mem_splitParts htext, fun hmem => hnull ?_⟩
  have hbelow := Path.mem_of_mem_splitParts htext hmem
  split at hbelow
  · exact List.mem_of_mem_drop hbelow
  · exact hbelow

/-- A search for a directory comes to it, by a path that leads where the path of
the directory leads and is nowhere longer. -/
theorem descend_directory (directories : Bool) {directory : Path}
    {place : Place} (hdots : ¬ LosesDots directory)
    (hresolve : tree.resolve directory = .ok place)
    (hplace : tree.isDirectoryAt place = true) :
    ∃ size arrival, Stands tree (respelled directory) size arrival ∧
      arrival.place = place ∧ size ≤ (directory.join "").text.utf8ByteSize ∧
      tree.walk linkLimit ((Route.ofText directory.text).origin tree.start)
        (Route.ofText directory.text).steps = .ok arrival ∧
      ∃ later, 0 < later ∧ ∀ parts : List Part, parts ≠ [] →
        (candidates tree (origin directory.isAbsolute)
            ((partsBelow directory).map .ofText ++ parts)).flatMap
            (visit tree directories 4096) =
          (candidates tree (respelled directory) parts).flatMap
            (visit tree directories later) := by
  obtain ⟨_, hroute, arrival, hinto, rfl⟩ := resolve_eq_ok_iff.1 hresolve
  obtain ⟨hnull, hne, hshort, rfl⟩ := route?_eq_ok_iff.1 hroute
  have hsteps := walk_steps hinto
  have hwalk := walk_partsBelow hsteps hplace
  have hsize := sizeAll_partsBelow directory
  have hstands :=
    stands_origin directory.isAbsolute (isDirectoryAt_of_walk hwalk hplace)
  have hdot : isDot (origin directory.isAbsolute) = true →
      ((partsBelow directory).dropWhile (· = ['.'])).head? ≠ some [] := by
    intro hisDot hhead
    cases habsolute : directory.isAbsolute with
    | true =>
        rw [habsolute] at hisDot
        exact absurd hisDot (by decide)
    | false =>
        rw [partsBelow, habsolute] at hhead
        exact hdots ⟨habsolute, hhead⟩
  have hdepth : 8192 ≤ 2 * 4096 + if directory.isAbsolute then 1 else 0 :=
    Nat.le_add_right ..
  obtain ⟨hlast, hsearch⟩ :=
    descend directories hstands (not_mem_of_mem_partsBelow hnull) hdot
      hwalk hplace (by omega) hdepth
  exact ⟨_, arrival, hlast, rfl, addedAll_partsBelow_le hne, hsteps, hsearch⟩

/-! ## Names in the directory -/

section Names

variable {directory : Path} {names : List FileName}
  (hdots : ¬ LosesDots directory) (hlist : tree.list directory = .ok names)

include hdots hlist

/-- Below a directory, a pattern of names stands for the names that
it accepts. -/
theorem search_names {tokens : List Token}
    (hliteral : literalText? tokens = none)
    (hhead : tokens.head? ≠ some (.literal '.')) :
    search tree
        ⟨directory.isAbsolute, (partsBelow directory).map .ofText ++
          [.name tokens], false⟩ =
      (names.filter fun name => accepts tokens name.text.toList).map fun name =>
        enter (respelled directory) name.text := by
  obtain ⟨place, hresolve, hplace, rfl⟩ := list_eq_ok_iff.1 hlist
  obtain ⟨size, arrival, hstands, rfl, -, -, later, hlater, hsearch⟩ :=
    descend_directory false hdots hresolve hplace
  have hdotted (dots : String) :
      dotted tree (respelled directory) tokens [] dots = [] := by
    refine if_neg fun h => hhead ?_
    rw [Bool.and_eq_true, Bool.and_eq_true, decide_eq_true_eq] at h
    exact h.1.2
  obtain ⟨fewer, rfl⟩ : ∃ fewer, later = fewer + 1 := ⟨later - 1, by omega⟩
  rw [search, ← origin, hsearch _ (List.cons_ne_nil _ _),
    candidates_name hliteral, hdotted, hdotted, List.nil_append,
    List.nil_append, flatMap_children hstands.isDirectory
      (list_of_stands hstands), List.map_eq_flatMap]
  refine List.flatMap_congr fun name _ => ?_
  rw [proceed, List.isEmpty_nil, if_pos rfl, List.flatMap_singleton, visit]
  rfl

/-- A name that a directory is joined with is found under the path of
the search. -/
theorem resolve_enter_respelled {name : FileName} {place : Place}
    (h : tree.resolve (directory.join name.text) = .ok place) :
    tree.resolve (enter (respelled directory) name.text) = .ok place := by
  obtain ⟨above, hresolve, habove, -⟩ := list_eq_ok_iff.1 hlist
  obtain ⟨size, arrival, hstands, rfl, hle, hsteps, -⟩ :=
    descend_directory false hdots hresolve habove
  have hne := text_ne_of_resolve hresolve
  obtain ⟨hslash, hnonempty, -, -⟩ := isName_text name
  obtain ⟨_, hroute, last, hwalk, rfl⟩ := resolve_eq_ok_iff.1 h
  obtain ⟨hnull, -, hshort, rfl⟩ := route?_eq_ok_iff.1 hroute
  rw [Path.text_join_eq hne hslash, String.utf8ByteSize_append] at hshort
  rw [stepsInto_join hne hslash, Route.origin, fromRoot_join hne hslash,
    ← Route.origin, walk_append hsteps] at hwalk
  have hnameNull : '\x00' ∉ name.text.toList := name.valid.2.2.2.2.1
  obtain ⟨henter, hentered⟩ :=
    hstands.walk_enter hslash hnameNull (fun _ => hnonempty) (by omega)
  exact resolve_eq_ok_iff.2 ⟨_, henter, last, hentered.trans hwalk, rfl⟩

/-- What the path of the search leads to is one step from the directory. -/
theorem walk_of_resolve_enter {name : FileName} {above place : Place}
    (hresolve : tree.resolve directory = .ok above)
    (h : tree.resolve (enter (respelled directory) name.text) = .ok place) :
    ∃ arrival, tree.walk linkLimit above [.name name] = .ok arrival ∧
      arrival.place = place := by
  obtain ⟨_, hlisted, habove, -⟩ := list_eq_ok_iff.1 hlist
  cases hresolve.symm.trans hlisted
  obtain ⟨size, arrival, hstands, rfl, -, hsteps, -⟩ :=
    descend_directory false hdots hresolve habove
  obtain ⟨hslash, hnonempty, -, -⟩ := isName_text name
  obtain ⟨_, hroute, last, hwalk, rfl⟩ := resolve_eq_ok_iff.1 h
  obtain ⟨-, -, hshort, rfl⟩ := route?_eq_ok_iff.1 hroute
  rw [size_enter hstands.text_ne hslash] at hshort
  have hnull : '\x00' ∉ name.text.toList := name.valid.2.2.2.2.1
  -- The path is short enough as it is, whatever room the search has left.
  have hroom :
      Stands tree (respelled directory) (room (respelled directory)) arrival :=
    { hstands with fits := Nat.le_refl _ }
  obtain ⟨-, hentered⟩ :=
    hroom.walk_enter hslash hnull (fun _ => hnonempty) hshort
  rw [hentered, stepOf, if_neg hnonempty, ofPart_name] at hwalk
  obtain ⟨used, hused⟩ := Nat.exists_eq_add_of_le (linksLeft_le hsteps)
  refine ⟨⟨last.place, last.linksLeft + used⟩, ?_, rfl⟩
  rw [hused]
  exact walk_add hwalk used

end Names

/-! ## Losing the dots -/

theorem candidates_of_lost {texts : List (List Char)}
    (h : (texts.dropWhile (· = ['.'])).head? = some []) (part : Part) :
    candidates tree ⟨"."⟩ (texts.map .ofText ++ [part]) = [] := by
  induction texts with
  | nil => cases h
  | cons text rest ih =>
      rw [List.map_cons, List.cons_append]
      by_cases htext : text = ['.']
      · rw [htext, List.dropWhile_cons_of_pos (by decide)] at h
        have hliteral : literalText? (['.'].map escaped) = some ['.'] := rfl
        rw [htext, Part.ofText, candidates_literal hliteral]
        refine ite_eq_right_iff.2 fun _ => ?_
        exact (proceed_of_ne_nil (by simp) _).trans (ih h)
      · rw [List.dropWhile_cons_of_neg (by simpa using htext)] at h
        obtain rfl : text = [] := Option.some.inj h
        rw [Part.ofText, List.map_nil, candidates_literal rfl]
        refine if_neg fun hentry => ?_
        exact text_ne_of_hasEntry (show tree.hasEntry ⟨""⟩ = true from hentry)
          rfl

/-- A search for names below a directory that loses its dots finds nothing. -/
theorem search_of_losesDots {directory : Path} (h : LosesDots directory)
    (part : Part) (directories : Bool) :
    search tree ⟨directory.isAbsolute,
      (partsBelow directory).map .ofText ++ [part], directories⟩ =
      [] := by
  obtain ⟨habsolute, hlost⟩ := h
  rw [search, partsBelow, habsolute]
  show (candidates tree ⟨"."⟩ _).flatMap _ = []
  rw [if_neg Bool.false_ne_true, candidates_of_lost hlost]
  rfl

end BenchReport.Glob
