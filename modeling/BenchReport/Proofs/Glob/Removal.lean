import BenchReport.Proofs.FileTree.Removal
import BenchReport.Proofs.Glob.Search

/-!
# Searching a tree without some of its entries

A search goes on from a path only if the path is a directory, and it takes a
literal part only if the path with the part names an entry. Taking away entries
that lead to files of one kind can therefore end a search early, but only at
paths that no longer name an entry, and from such a path the whole tree would
not have got to any other file either: the path is no directory there
(`isDirectory_of_dead`), and whatever is joined to it has no entry. So the files
of other kinds are found as before, in the same order (`search_without`).

The induction is on the number of names that a search may still go down; within
it, the candidates below a path are compared by induction on the parts that are
left.
-/

namespace BenchReport.Glob

section

variable {tree : FileTree} {places : List Place} {kind : Node → Prop}
  {path : Path} {parts : List Part} {directories : Bool}

/-! ## Paths without an entry -/

/-- Whether a path that the search comes to names no entry any more. -/
def Dead (tree : FileTree) (places : List Place) (path : Path) : Prop :=
  isDot path = false ∧ path.text ≠ "" ∧
    (tree.without places).hasEntry path = false

variable (hplaces : ∀ place ∈ places, tree.LeadsTo kind place)

include hplaces

theorem dead_enter {place : Place} {name : FileName}
    (hresolve : tree.resolve path = .ok place)
    (hdirectory : tree.isDirectoryAt place = true)
    (hmem : name :: place ∈ places) :
    Dead tree places (enter path name.text) := by
  obtain ⟨hslash, -, hdot, -⟩ := FileTree.isName_text name
  refine ⟨isDot_enter path hslash hdot, text_enter_ne path name, ?_⟩
  rw [Bool.eq_false_iff]
  intro hentry
  have hsome := isSome_find?_of_hasEntry_enter
    (FileTree.resolve_without hplaces hresolve hdirectory) hentry
  rw [FileTree.find?_without_of_mem hmem] at hsome
  cases hsome

omit hplaces in
theorem dead_of_literal {tokens : List Token} {text : List Char}
    (hparts : ∀ part ∈ Part.name tokens :: parts, part.IsStep)
    (hliteral : literalText? tokens = some text)
    (hdots : ¬ (text = ['.'] || text = ['.', '.']) = true)
    (hold : tree.hasEntry (enter path (.ofList text)) = true)
    (hnew : (tree.without places).hasEntry (enter path (.ofList text)) =
      false) :
    Dead tree places (enter path (.ofList text)) := by
  refine ⟨isDot_enter path ?_ ?_, FileTree.text_ne_of_hasEntry hold, hnew⟩
  · rw [String.toList_ofList]
    exact not_mem_of_literalText? hparts hliteral
  · rw [String.toList_ofList]
    intro hdot
    exact hdots (by rw [hdot]; rfl)

theorem isDirectory_of_dead (h : Dead tree places path) :
    tree.isDirectory path = false := by
  rw [Bool.eq_false_iff]
  intro hdirectory
  have hnew := (FileTree.isDirectory_without hplaces path).trans hdirectory
  have hentry := FileTree.hasEntry_of_node (FileTree.isDirectory_iff.1 hnew)
  rw [h.2.2] at hentry
  cases hentry

theorem children_of_dead (h : Dead tree places path) :
    children tree path parts = [] :=
  if_neg (by rw [isDirectory_of_dead hplaces h]; exact Bool.false_ne_true)

theorem dotted_of_dead (h : Dead tree places path) (tokens : List Token)
    (dots : String) :
    dotted tree path tokens parts dots = [] :=
  if_neg (by rw [isDirectory_of_dead hplaces h]; exact Bool.false_ne_true)

theorem candidates_of_dead (h : Dead tree places path)
    (hparts : ∀ part ∈ parts, part.IsStep) :
    candidates tree path parts = [] := by
  cases parts with
  | nil => rw [candidates]
  | cons part rest =>
      cases part with
      | anyDepth => rw [candidates_anyDepth, children_of_dead hplaces h]
      | name tokens =>
          cases hliteral : literalText? tokens with
          | none =>
              rw [candidates_name hliteral, dotted_of_dead hplaces h,
                dotted_of_dead hplaces h, children_of_dead hplaces h]
              rfl
          | some text =>
              have hnot := isDirectory_of_dead hplaces h
              rw [candidates_literal hliteral, hnot, if_neg]
              split
              · exact Bool.false_ne_true
              · intro hentry
                have hslash := not_mem_of_literalText? hparts hliteral
                rw [enter_of_not_isDot h.1] at hentry
                rw [FileTree.isDirectory_of_hasEntry_join h.2.1
                  (by rwa [String.toList_ofList]) hentry] at hnot
                cases hnot

/-! ## Searches compared -/

/-- Of the paths that candidates lead to, those that are wanted. -/
def wanted (tree : FileTree) (directories : Bool) (accept : Path → Bool)
    (depth : Nat) (cs : List Candidate) : List Path :=
  (cs.flatMap (visit tree directories depth)).filter accept

omit hplaces in
theorem wanted_append (accept : Path → Bool) (depth : Nat)
    (cs ds : List Candidate) :
    wanted tree directories accept depth (cs ++ ds) =
      wanted tree directories accept depth cs ++
        wanted tree directories accept depth ds := by
  rw [wanted, List.flatMap_append, List.filter_append]
  rfl

variable {accept : Path → Bool}
  (haccept : ∀ path, accept path = true →
    ∃ node, tree.node path = .ok node ∧ node.isFile = true ∧ ¬ kind node)

include haccept

theorem accept_of_dead (h : Dead tree places path) : accept path = false := by
  rw [Bool.eq_false_iff]
  intro hpath
  obtain ⟨node, hnode, hfile, hkind⟩ := haccept path hpath
  have hnew := (FileTree.node_without hplaces hnode).resolve_right
    fun hother => hkind (hother.2 hfile)
  have hentry := FileTree.hasEntry_of_node hnew
  rw [h.2.2] at hentry
  cases hentry

theorem found_of_dead (h : Dead tree places path) :
    (found tree directories path).filter accept = [] := by
  rw [found]
  split
  · have hpath := accept_of_dead hplaces haccept h
    exact List.filter_cons_of_neg (by rw [hpath]; exact Bool.false_ne_true)
  · rfl

theorem matched_of_dead (h : Dead tree places path)
    (hparts : ∀ part ∈ parts, part.IsStep) (depth : Nat) :
    (matched tree directories depth path parts).filter accept = [] := by
  rw [matched.eq_def]
  split
  · next tokens rest name _ =>
    split
    · split
      · exact found_of_dead hplaces haccept h
      · rw [candidates_of_dead hplaces h (List.forall_mem_cons.1 hparts).2]
        rfl
    · rfl
  · rfl

theorem visit_of_dead (h : Dead tree places path)
    (hparts : ∀ part ∈ parts, part.IsStep) (depth : Nat) :
    (visit tree directories depth (.open path parts)).filter accept = [] := by
  cases depth with
  | zero => rw [visit]; rfl
  | succ depth =>
      cases parts with
      | nil => rw [visit_nil]; rfl
      | cons part rest =>
          cases part with
          | name tokens =>
              rw [visit_name, matched_of_dead hplaces haccept h hparts]
          | anyDepth =>
              rw [visit_anyDepth]
              simp only [isDirectory_of_dead hplaces h,
                Bool.false_eq_true, if_false, List.append_nil]
              split
              · rfl
              · exact matched_of_dead hplaces haccept h
                  (isStep_dropWhile hparts) depth

theorem wanted_proceed_of_dead (h : Dead tree places path)
    (hparts : ∀ part ∈ parts, part.IsStep) (depth : Nat) :
    wanted tree directories accept depth (proceed tree path parts) = [] := by
  rw [wanted, proceed]
  split
  · rw [List.flatMap_singleton, visit, found_of_dead hplaces haccept h]
  · rw [candidates_of_dead hplaces h hparts]
    rfl

omit haccept in
theorem found_without (path : Path) :
    found (tree.without places) directories path =
      found tree directories path := by
  rw [found, found, FileTree.isDirectory_without hplaces]

theorem wanted_children_without {depth : Nat}
    (hvisit : ∀ path,
      (visit (tree.without places) directories depth (.open path parts)).filter
          accept =
        (visit tree directories depth (.open path parts)).filter accept)
    (hparts : ∀ part ∈ parts, part.IsStep) (path : Path) :
    wanted (tree.without places) directories accept depth
        (children (tree.without places) path parts) =
      wanted tree directories accept depth (children tree path parts) := by
  rw [children, children, FileTree.isDirectory_without hplaces]
  split
  · next hdirectory =>
    obtain ⟨place, hresolve, hfind⟩ :=
      FileTree.node_eq_ok_iff.1 (FileTree.isDirectory_iff.1 hdirectory)
    have hlist :
        tree.list path = .ok ((tree.namesIn place).mergeSort FileTree.nameLe) :=
      FileTree.list_eq_ok_iff.2 ⟨place, hresolve, decide_eq_true hfind, rfl⟩
    rw [FileTree.list_without hplaces hresolve hlist, hlist]
    dsimp only
    generalize (tree.namesIn place).mergeSort FileTree.nameLe = names
    rw [wanted, wanted, List.flatMap_map, List.flatMap_map]
    induction names with
    | nil => rfl
    | cons name rest ih =>
        rw [List.flatMap_cons, List.filter_append, ← ih]
        by_cases hmem : name :: place ∈ places
        · -- The entry is gone, and nothing that is wanted was below it.
          have hdead := dead_enter hplaces hresolve (decide_eq_true hfind) hmem
          rw [List.filter_cons_of_neg (by simpa using hmem),
            visit_of_dead hplaces haccept hdead hparts, List.nil_append]
        · rw [List.filter_cons_of_pos (by simpa using hmem), List.flatMap_cons,
            List.filter_append, hvisit]
  · rfl

omit haccept in
theorem wanted_proceed_without {depth : Nat}
    (hcandidates : ∀ path,
      wanted (tree.without places) directories accept depth
          (candidates (tree.without places) path parts) =
        wanted tree directories accept depth (candidates tree path parts))
    (path : Path) :
    wanted (tree.without places) directories accept depth
        (proceed (tree.without places) path parts) =
      wanted tree directories accept depth (proceed tree path parts) := by
  rw [proceed, proceed]
  split
  · rw [wanted, wanted, List.flatMap_singleton, List.flatMap_singleton,
      visit, visit, found_without hplaces]
  · exact hcandidates path

theorem wanted_candidates_without {depth : Nat}
    (hvisit : ∀ (path : Path) (parts : List Part),
      (∀ part ∈ parts, part.IsStep) →
      (visit (tree.without places) directories depth (.open path parts)).filter
          accept =
        (visit tree directories depth (.open path parts)).filter accept)
    (hparts : ∀ part ∈ parts, part.IsStep) (path : Path) :
    wanted (tree.without places) directories accept depth
        (candidates (tree.without places) path parts) =
      wanted tree directories accept depth (candidates tree path parts) := by
  induction parts generalizing path with
  | nil => rw [candidates, candidates]; rfl
  | cons part rest ih =>
      have hproceed := wanted_proceed_without hplaces
        (ih (List.forall_mem_cons.1 hparts).2)
      have hchildren := wanted_children_without hplaces haccept
        (fun path => hvisit path _ hparts) hparts path
      cases part with
      | anyDepth => rwa [candidates_anyDepth, candidates_anyDepth]
      | name tokens =>
          cases hliteral : literalText? tokens with
          | none =>
              have hdotted : ∀ dots,
                  wanted (tree.without places) directories accept depth
                      (dotted (tree.without places) path tokens rest dots) =
                    wanted tree directories accept depth
                      (dotted tree path tokens rest dots) := by
                intro dots
                rw [dotted, dotted, FileTree.isDirectory_without hplaces]
                split
                · exact hproceed _
                · rfl
              rw [candidates_name hliteral, candidates_name hliteral,
                wanted_append, wanted_append, wanted_append, wanted_append,
                hdotted, hdotted, hchildren]
          | some text =>
              rw [candidates_literal hliteral, candidates_literal hliteral,
                FileTree.isDirectory_without hplaces]
              by_cases hdots : (text = ['.'] || text = ['.', '.']) = true
              · rw [if_pos hdots, if_pos hdots]
                split
                · exact hproceed _
                · rfl
              · rw [if_neg hdots, if_neg hdots]
                cases hnew : (tree.without places).hasEntry
                  (enter path (.ofList text)) with
                | true =>
                    rw [FileTree.hasEntry_of_without hnew,
                      if_pos rfl, if_pos rfl]
                    exact hproceed _
                | false =>
                    rw [if_neg Bool.false_ne_true]
                    split
                    · next hold =>
                      have hdead :=
                        dead_of_literal hparts hliteral hdots hold hnew
                      exact (wanted_proceed_of_dead hplaces haccept hdead
                        (List.forall_mem_cons.1 hparts).2 depth).symm
                    · rfl

theorem visit_without {parts : List Part} (hparts : ∀ part ∈ parts, part.IsStep)
    (depth : Nat) (path : Path) :
    (visit (tree.without places) directories depth (.open path parts)).filter
        accept =
      (visit tree directories depth (.open path parts)).filter accept := by
  induction depth generalizing path parts with
  | zero => rw [visit, visit]
  | succ depth ih =>
      have hcandidates : ∀ {parts : List Part}, (∀ part ∈ parts, part.IsStep) →
          wanted (tree.without places) directories accept depth
              (candidates (tree.without places) path parts) =
            wanted tree directories accept depth (candidates tree path parts) :=
        fun hparts => wanted_candidates_without hplaces haccept
          (fun path parts hparts => ih hparts path) hparts path
      have hmatched : ∀ {parts : List Part}, (∀ part ∈ parts, part.IsStep) →
          (matched (tree.without places) directories depth path parts).filter
              accept =
            (matched tree directories depth path parts).filter accept := by
        intro parts hparts
        rw [matched.eq_def, matched.eq_def]
        split
        · split
          · split
            · rw [found_without hplaces]
            · exact hcandidates (List.forall_mem_cons.1 hparts).2
          · rfl
        · rfl
      cases parts with
      | nil => rw [visit_nil, visit_nil]
      | cons part later =>
          cases part with
          | name tokens => rw [visit_name, visit_name, hmatched hparts]
          | anyDepth =>
              rw [visit_anyDepth, visit_anyDepth]
              have hrest := isStep_dropWhile hparts
              revert hrest
              generalize (Part.anyDepth :: later).dropWhile (· = .anyDepth) =
                rest
              intro hrest
              have hdeeper :
                  wanted (tree.without places) directories accept depth
                      (candidates (tree.without places) path
                        (.anyDepth :: rest)) =
                    wanted tree directories accept depth
                      (candidates tree path (.anyDepth :: rest)) :=
                hcandidates (List.forall_mem_cons.2 ⟨isStep_anyDepth, hrest⟩)
              rw [wanted, wanted] at hdeeper
              dsimp only
              rw [FileTree.isDirectory_without hplaces]
              by_cases hdirectory : tree.isDirectory path = true
              · simp only [if_pos hdirectory]
                split
                · rw [List.filter_cons, List.filter_cons, hdeeper]
                · rw [List.filter_append, List.filter_append, hdeeper,
                    hmatched hrest]
              · simp only [if_neg hdirectory, List.append_nil]
                split
                · rfl
                · exact hmatched hrest

end

/-- What a search finds among the files of other kinds stays as it was when
entries are taken away that lead only to files of one kind. -/
theorem search_without {tree : FileTree} {places : List Place}
    {kind : Node → Prop}
    (hplaces : ∀ place ∈ places, tree.LeadsTo kind place) {accept : Path → Bool}
    (haccept : ∀ path, accept path = true →
      ∃ node, tree.node path = .ok node ∧ node.isFile = true ∧ ¬ kind node)
    {pattern : PathPattern} (hparts : ∀ part ∈ pattern.parts, part.IsStep) :
    (search (tree.without places) pattern).filter accept =
      (search tree pattern).filter accept :=
  wanted_candidates_without hplaces haccept
    (fun path _ hparts => visit_without hplaces haccept hparts 4096 path) hparts
      _

end BenchReport.Glob
