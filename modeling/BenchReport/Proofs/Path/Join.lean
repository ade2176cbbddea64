import BenchReport.Path

/-!
# Paths after a join

A name is joined to a path as text, with a slash in between unless there is one
already, and the empty path adds nothing. What is read from the text later are
its parts, and there the three cases are one: the parts of the joined path are
those of the path, without the empty one that a slash at the end leaves, and
then the name (`splitParts_join`). The first part is the one that decides how a
path starts, and a join does not touch it unless the path is empty.
-/

namespace BenchReport.Path

/-! ## Parts -/

theorem splitParts_ne_nil (cs : List Char) : splitParts cs ≠ [] := by
  cases cs with
  | nil => exact List.cons_ne_nil _ _
  | cons c rest =>
      rw [splitParts]
      split
      · exact List.cons_ne_nil _ _
      · split
        · exact List.cons_ne_nil _ _
        · exact List.cons_ne_nil _ _

theorem splitParts_of_not_mem {cs : List Char} (h : '/' ∉ cs) :
    splitParts cs = [cs] := by
  induction cs with
  | nil => rfl
  | cons c rest ih =>
      rw [List.mem_cons, not_or] at h
      obtain ⟨hc, hrest⟩ := h
      rw [splitParts, if_neg (Ne.symm hc), ih hrest]

theorem splitParts_append_slash (cs later : List Char) :
    splitParts (cs ++ '/' :: later) = splitParts cs ++ splitParts later := by
  induction cs with
  | nil => rfl
  | cons c rest ih =>
      rw [List.cons_append, splitParts, splitParts, ih]
      split
      · rfl
      · obtain ⟨first, others, hsplit⟩ :=
          List.exists_cons_of_ne_nil (splitParts_ne_nil rest)
        rw [hsplit]
        rfl

theorem splitParts_append {cs later first : List Char}
    {others : List (List Char)} (hcs : '/' ∉ cs)
    (h : splitParts later = first :: others) :
    splitParts (cs ++ later) = (cs ++ first) :: others := by
  induction cs with
  | nil => exact h
  | cons c cs ih =>
      rw [List.mem_cons, not_or] at hcs
      rw [List.cons_append, splitParts, if_neg (Ne.symm hcs.1), ih hcs.2]
      rfl

theorem mem_of_mem_splitParts {cs part : List Char} (h : part ∈ splitParts cs)
    {c : Char} (hc : c ∈ part) : c ∈ cs := by
  induction cs generalizing part with
  | nil =>
      rw [List.mem_singleton.1 h] at hc
      exact hc
  | cons d cs ih =>
      obtain ⟨first, others, hsplit⟩ :=
        List.exists_cons_of_ne_nil (splitParts_ne_nil cs)
      rw [hsplit] at ih
      rw [splitParts, hsplit] at h
      split at h
      · rcases List.mem_cons.1 h with rfl | h
        · cases hc
        · exact List.mem_cons_of_mem _ (ih h hc)
      · rcases List.mem_cons.1 h with rfl | h
        · rcases List.mem_cons.1 hc with rfl | hc
          · exact List.mem_cons_self ..
          · exact List.mem_cons_of_mem _ (ih (List.mem_cons_self ..) hc)
        · exact List.mem_cons_of_mem _ (ih (List.mem_cons_of_mem _ h) hc)

theorem not_mem_of_mem_splitParts {cs part : List Char}
    (h : part ∈ splitParts cs) :
    '/' ∉ part := by
  induction cs generalizing part with
  | nil =>
      obtain rfl := List.mem_singleton.1 h
      exact List.not_mem_nil
  | cons c rest ih =>
      obtain ⟨first, others, hsplit⟩ :=
        List.exists_cons_of_ne_nil (splitParts_ne_nil rest)
      rw [hsplit] at ih
      rw [splitParts, hsplit] at h
      split at h
      · rcases List.mem_cons.1 h with rfl | h
        · exact List.not_mem_nil
        · exact ih h
      · next hc =>
        rcases List.mem_cons.1 h with rfl | h
        · rw [List.mem_cons, not_or]
          exact ⟨Ne.symm hc, ih (List.mem_cons_self ..)⟩
        · exact ih (List.mem_cons_of_mem _ h)

/-! ## Joined paths -/

variable {p : Path} {q : String}

theorem not_isAbsolute (hq : '/' ∉ q.toList) :
    (Path.mk q).isAbsolute = false := by
  refine decide_eq_false fun h => hq ?_
  exact List.mem_of_mem_head? h

theorem join_of_text_eq (hp : p.text = "") (hq : '/' ∉ q.toList) :
    p.join q = ⟨q⟩ := by
  have hempty : p.text.toList.isEmpty = true := by rw [hp]; rfl
  simp only [join, not_isAbsolute hq, hempty, Bool.true_or, Bool.false_eq_true,
    if_false, if_true]
  rw [hp, String.empty_append]

theorem toList_join (hp : p.text ≠ "") (hq : '/' ∉ q.toList) :
    (p.join q).text.toList =
      if p.text.toList.getLast? = some '/' then p.text.toList ++ q.toList
      else p.text.toList ++ '/' :: q.toList := by
  have hne : p.text.toList.isEmpty = false := by
    rw [List.isEmpty_eq_false_iff]
    exact fun h => hp (String.toList_inj.1 h)
  simp only [join, not_isAbsolute hq, hne, Bool.false_or,
    Bool.false_eq_true, if_false, decide_eq_true_eq]
  split
  · exact String.toList_append
  · rw [String.toList_append, String.toList_append, List.append_assoc]
    rfl

theorem splitParts_join (hp : p.text ≠ "") (hq : '/' ∉ q.toList) :
    ∃ first rest, splitParts (p.join q).text.toList =
      first :: (rest ++ [q.toList]) ∧
      (splitParts p.text.toList = first :: rest ∨
        splitParts p.text.toList = first :: (rest ++ [[]])) := by
  rw [toList_join hp hq]
  split
  · next hslash =>
    obtain ⟨before, hbefore⟩ := List.getLast?_eq_some_iff.1 hslash
    obtain ⟨first, rest, hsplit⟩ :=
      List.exists_cons_of_ne_nil (splitParts_ne_nil before)
    refine ⟨first, rest, ?_, .inr ?_⟩
    · rw [hbefore, List.append_assoc, List.singleton_append,
        splitParts_append_slash, hsplit, splitParts_of_not_mem hq]
      rfl
    · rw [hbefore, splitParts_append_slash, hsplit]
      rfl
  · obtain ⟨first, rest, hsplit⟩ :=
      List.exists_cons_of_ne_nil (splitParts_ne_nil p.text.toList)
    refine ⟨first, rest, ?_, .inl hsplit⟩
    rw [splitParts_append_slash, hsplit, splitParts_of_not_mem hq]
    rfl

theorem isAbsolute_join (hp : p.text ≠ "") (hq : '/' ∉ q.toList) :
    (p.join q).isAbsolute = p.isAbsolute := by
  have hne : p.text.toList ≠ [] := fun h => hp (String.toList_inj.1 h)
  obtain ⟨c, rest, htext⟩ := List.exists_cons_of_ne_nil hne
  rw [isAbsolute, isAbsolute, toList_join hp hq, htext]
  split <;> rfl

theorem toList_of_isAbsolute (h : p.isAbsolute = true) :
    p.text.toList = '/' :: p.text.toList.drop 1 := by
  obtain ⟨rest, hrest⟩ := List.head?_eq_some_iff.1 (of_decide_eq_true h)
  rw [hrest]
  rfl

theorem text_join_eq (hp : p.text ≠ "") (hq : '/' ∉ q.toList) :
    (p.join q).text = (p.join "").text ++ q := by
  refine String.toList_inj.1 ?_
  rw [String.toList_append, toList_join hp hq, toList_join hp (by decide)]
  split
  · rw [String.toList_empty, List.append_nil]
  · rw [List.append_assoc]
    rfl

theorem text_join_empty (hp : p.text ≠ "") :
    (p.join "").text = p.text ∧ p.text.toList.getLast? = some '/' ∨
      (p.join "").text = p.text ++ "/" := by
  have hlist := toList_join hp (q := "") (by decide)
  split at hlist
  · next hslash =>
    rw [String.toList_empty, List.append_nil] at hlist
    exact .inl ⟨String.toList_inj.1 hlist, hslash⟩
  · refine .inr (String.toList_inj.1 (hlist.trans ?_))
    rw [String.toList_append]
    rfl

/-- A second slash is not written. -/
theorem join_empty_join_empty (hp : p.text ≠ "") :
    ((p.join "").join "").text = (p.join "").text := by
  have hlast : (p.join "").text.toList.getLast? = some '/' := by
    rcases text_join_empty hp with ⟨htext, hslash⟩ | htext
    · rw [htext, hslash]
    · rw [htext, String.toList_append]
      exact List.getLast?_concat
  have hne : (p.join "").text ≠ "" := by
    intro hempty
    rw [hempty] at hlast
    cases hlast
  have hlist := toList_join hne (q := "") (by decide)
  rw [if_pos hlast, String.toList_empty, List.append_nil] at hlist
  exact String.toList_inj.1 hlist

/-! ## Components -/

theorem componentOf_eq_here_iff {part : List Char} :
    componentOf part = .here ↔ part = ['.'] := by
  rw [componentOf]
  split
  · next h => exact iff_of_true rfl h
  · next h =>
    refine iff_of_false ?_ h
    split <;> exact nofun

/-- Whether a text is a name that says where it leads by itself. -/
def IsName (q : String) : Prop :=
  '/' ∉ q.toList ∧ q.toList ≠ [] ∧ q.toList ≠ ['.'] ∧ q.toList ≠ ['.', '.']

instance (q : String) : Decidable (IsName q) := by
  unfold IsName
  infer_instance

theorem IsName.isIdle_eq (h : IsName q) : isIdle q.toList = false := by
  obtain ⟨-, hne, hdot, -⟩ := h
  simp only [isIdle, hne, hdot, decide_false, Bool.or_self]

theorem IsName.componentOf_eq (h : IsName q) :
    componentOf q.toList = .name q := by
  obtain ⟨-, -, hdot, hdots⟩ := h
  rw [componentOf, if_neg hdot, if_neg hdots, String.ofList_toList]

/-- The component that a path starts with, if it starts with one. -/
def start (absolute : Bool) (first : List Char) : List Component :=
  if absolute then [.root] else if first = [] then [] else [componentOf first]

theorem components_of_splitParts {first : List Char} {rest : List (List Char)}
    (h : splitParts p.text.toList = first :: rest) :
    p.components = start p.isAbsolute first ++
      (rest.filter (!isIdle ·)).map componentOf := by
  rw [components, h, start]
  dsimp only
  split
  · rfl
  · split <;> rfl

theorem components_join_of_ne (hp : p.text ≠ "") (hq : '/' ∉ q.toList) :
    (p.join q).components =
      p.components ++ ([q.toList].filter (!isIdle ·)).map componentOf := by
  obtain ⟨first, rest, hjoined, hparts⟩ := splitParts_join hp hq
  have hdropped :
      (rest ++ [[]]).filter (!isIdle ·) = rest.filter (!isIdle ·) := by
    rw [List.filter_append]
    exact List.append_nil _
  rw [components_of_splitParts hjoined, isAbsolute_join hp hq,
    List.filter_append, List.map_append, ← List.append_assoc]
  rcases hparts with hparts | hparts
  · rw [components_of_splitParts hparts]
  · rw [components_of_splitParts hparts, hdropped]

theorem components_of_not_mem (hq : '/' ∉ q.toList) :
    (Path.mk q).components = start false q.toList := by
  rw [components_of_splitParts (splitParts_of_not_mem hq), not_isAbsolute hq]
  exact List.append_nil _

theorem components_join (p : Path) (hq : IsName q) :
    (p.join q).components = p.components ++ [.name q] := by
  by_cases hp : p.text = ""
  · obtain ⟨text⟩ := p
    cases hp
    rw [join_of_text_eq rfl hq.1, components_of_not_mem hq.1, start,
      if_neg Bool.false_ne_true, if_neg hq.2.1, hq.componentOf_eq]
    rfl
  · rw [components_join_of_ne hp hq.1]
    simp only [List.filter_cons, hq.isIdle_eq, Bool.not_false, if_true,
      List.filter_nil, List.map_singleton, hq.componentOf_eq]

end BenchReport.Path
