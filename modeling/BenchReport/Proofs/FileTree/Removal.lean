import BenchReport.Proofs.FileTree.Access
import BenchReport.Proofs.Path.Order

/-!
# Trees without some of their entries

Taking entries away can end a walk that went over them, and nothing else: a walk
that succeeds in the smaller tree succeeds in the larger one and arrives at the
same place (`walk_of_without`). The other way is true as far as the entries that
are missing are none that matter. If each of them leads only to files of one
kind, then a walk over one of them arrives at such a file, since nothing goes on
from a file (`walk_without`). So directories and all other files are found where
they were, whatever links lead to them (`node_without`), and a directory lists
the same names but for the entries that were taken away (`list_without`). A file
that cannot be read ends a walk like any other, so it can be of the kind
as well.

The entry that a path names is its last step, and a path to a file has one
(`entryPlace?_of_isFile`). Without that entry the path names nothing
(`hasEntry_removeAll`).
-/

namespace BenchReport.FileTree

/-- The tree without the entries at some places. -/
def without (tree : FileTree) (places : List Place) : FileTree where
  entries := tree.entries.filter (·.1 ∉ places)
  start := tree.start
  distinct := tree.distinct.sublist (List.filter_sublist.map _)

/-- The place of the entry that a path names; no link at the end is followed. -/
def entryPlace? (tree : FileTree) (path : Path) : Option Place :=
  match route? path with
  | .error _ => none
  | .ok route =>
    match tree.walkToLast linkLimit (route.origin tree.start) route.steps with
    | .ok (arrival, some (.name entry)) => some (entry :: arrival.place)
    | _ => none

/-- The tree without the entries that some paths name. -/
def removeAll (tree : FileTree) (paths : List Path) : FileTree :=
  tree.without (paths.filterMap tree.entryPlace?)

/-- Whether a file of a kind is found at the place. -/
def HoldsFile (tree : FileTree) (kind : Node → Prop) (place : Place) : Prop :=
  ∃ node, tree.find? place = some node ∧ node.isFile = true ∧ kind node

/-- Whether every walk over a link ends at a file of a kind. -/
def LinksTo (tree : FileTree) (kind : Node → Prop) (directory : Place)
    (target : String) : Prop :=
  ∀ links arrival, tree.walk links ((Route.ofText target).origin directory)
    (Route.ofText target).stepsInto = .ok arrival →
      tree.HoldsFile kind arrival.place

/-- Whether nothing but a file of a kind is reached through the entry at a
place. -/
def LeadsTo (tree : FileTree) (kind : Node → Prop) (place : Place) : Prop :=
  match tree.find? place with
  | none => True
  | some .directory => False
  | some (.link target) => tree.LinksTo kind place.tail target
  | some node => kind node

/-- Whether steps that halt so can only end at a file of a kind. -/
def Halt.LeadsTo (tree : FileTree) (kind : Node → Prop) : Halt → Prop
  | .arrived place => tree.HoldsFile kind place
  | .link directory target _ => tree.LinksTo kind directory target

variable {tree : FileTree} {places : List Place} {kind : Node → Prop}

theorem leadsTo_iff_of_isFile {place : Place} {node : Node}
    (hfind : tree.find? place = some node) (hfile : node.isFile = true) :
    tree.LeadsTo kind place ↔ kind node := by
  rw [LeadsTo, hfind]
  cases node with
  | file bytes => rfl
  | blocked obstacle => rfl
  | directory => cases hfile
  | link target => cases hfile

/-! ## What is found -/

theorem find?_without {place : Place} (h : place ∉ places) :
    (tree.without places).find? place = tree.find? place := by
  cases place with
  | nil => rfl
  | cons entry above =>
      have hentries :
          (tree.entries.filter (·.1 ∉ places)).find? (·.1 = entry :: above) =
            tree.entries.find? (·.1 = entry :: above) := by
        rw [List.find?_filter]
        congr 1
        funext e
        by_cases he : e.1 = entry :: above
        · simp [he, h]
        · simp [he]
      exact congrArg (Option.map (·.2)) hentries

theorem find?_without_of_mem {entry : FileName} {above : Place}
    (h : entry :: above ∈ places) :
    (tree.without places).find? (entry :: above) = none := by
  have hnone :
      (tree.entries.filter (·.1 ∉ places)).find? (·.1 = entry :: above) =
        none := by
    rw [List.find?_filter, List.find?_eq_none]
    rintro e - he
    simp only [decide_eq_true_eq] at he
    exact he.1 (he.2 ▸ h)
  exact congrArg (Option.map (·.2)) hnone

theorem find?_of_without {place : Place} {node : Node}
    (h : (tree.without places).find? place = some node) :
    tree.find? place = some node := by
  cases place with
  | nil => exact h
  | cons entry above =>
      by_cases hmem : entry :: above ∈ places
      · rw [find?_without_of_mem hmem] at h
        cases h
      · rwa [find?_without hmem] at h

theorem isDirectoryAt_of_without {place : Place}
    (h : (tree.without places).isDirectoryAt place = true) :
    tree.isDirectoryAt place = true :=
  decide_eq_true (find?_of_without (of_decide_eq_true h))

theorem not_mem_of_isDirectoryAt
    (hplaces : ∀ place ∈ places, tree.LeadsTo kind place) {place : Place}
    (h : tree.isDirectoryAt place = true) : place ∉ places := by
  intro hmem
  have hleads := hplaces place hmem
  rw [LeadsTo, of_decide_eq_true h] at hleads
  exact hleads

theorem isDirectoryAt_without
    (hplaces : ∀ place ∈ places, tree.LeadsTo kind place) (place : Place) :
    (tree.without places).isDirectoryAt place = tree.isDirectoryAt place := by
  rw [Bool.eq_iff_iff]
  constructor
  · exact isDirectoryAt_of_without
  · intro h
    refine decide_eq_true ?_
    rw [find?_without (not_mem_of_isDirectoryAt hplaces h)]
    exact of_decide_eq_true h

/-! ## Walks in the smaller tree -/

theorem advance_of_without {place : Place} {steps : List Step} {halt : Halt}
    (h : (tree.without places).advance place steps = .ok halt) :
    tree.advance place steps = .ok halt := by
  induction steps generalizing place with
  | nil => exact h
  | cons step rest ih =>
      simp only [advance] at h ⊢
      split at h
      · next hdirectory =>
        rw [if_pos (isDirectoryAt_of_without hdirectory)]
        cases step with
        | here => exact ih h
        | up => exact ih h
        | tooLong => cases h
        | name entry =>
            simp only at h ⊢
            split at h
            · cases h
            · next text hfind =>
              rw [find?_of_without hfind]
              exact h
            · next node hlink hfind =>
              rw [find?_of_without hfind]
              cases node with
              | link text => exact absurd rfl (hlink text)
              | file bytes => exact ih h
              | blocked obstacle => exact ih h
              | directory => exact ih h
      · cases h

theorem walk_of_without {links : Nat} {place : Place} {steps : List Step}
    {arrival : Arrival}
    (h : (tree.without places).walk links place steps = .ok arrival) :
    tree.walk links place steps = .ok arrival := by
  induction h using walk_induct with
  | arrived links hadvance =>
      exact walk_arrived (advance_of_without hadvance) links
  | link links hadvance hwalk ih =>
      rw [walk_link (advance_of_without hadvance)]
      exact ih

/-! ## Walks in the larger tree -/

theorem HoldsFile.not_isDirectoryAt {place : Place}
    (h : tree.HoldsFile kind place) :
    ¬ tree.isDirectoryAt place = true := by
  intro hdirectory
  obtain ⟨node, hfind, hfile, -⟩ := h
  cases (of_decide_eq_true hdirectory).symm.trans hfind
  cases hfile

theorem HoldsFile.advance_eq {place : Place} (h : tree.HoldsFile kind place)
    {steps : List Step} {halt : Halt}
    (hadvance : tree.advance place steps = .ok halt) :
    halt = .arrived place := by
  cases steps with
  | nil =>
      rw [advance] at hadvance
      exact (Except.ok.inj hadvance).symm
  | cons step rest =>
      rw [advance.eq_def] at hadvance
      dsimp only at hadvance
      rw [if_neg h.not_isDirectoryAt] at hadvance
      cases hadvance

theorem HoldsFile.place_eq {place : Place} (h : tree.HoldsFile kind place)
    {links : Nat} {steps : List Step} {arrival : Arrival}
    (hwalk : tree.walk links place steps = .ok arrival) :
    arrival.place = place := by
  rcases walk_cases hwalk with
    ⟨end_, hadvance, rfl⟩ | ⟨_, _, _, _, _, hadvance, _⟩
  · cases h.advance_eq hadvance
    rfl
  · cases h.advance_eq hadvance

theorem advance_without (hplaces : ∀ place ∈ places, tree.LeadsTo kind place)
    {place : Place} {steps : List Step} {halt : Halt}
    (h : tree.advance place steps = .ok halt) :
    (tree.without places).advance place steps = .ok halt ∨
      halt.LeadsTo tree kind := by
  induction steps generalizing place with
  | nil => exact .inl h
  | cons step rest ih =>
      simp only [advance] at h ⊢
      rw [isDirectoryAt_without hplaces]
      split at h
      · next hdirectory =>
        rw [if_pos hdirectory]
        cases step with
        | here => exact ih h
        | up => exact ih h
        | tooLong => cases h
        | name entry =>
            simp only at h ⊢
            by_cases hmem : entry :: place ∈ places
            · -- The step goes to a missing entry, and from there to a file at
              -- most.
              have hleads := hplaces _ hmem
              split at h
              · cases h
              · next target hfind =>
                rw [LeadsTo, hfind] at hleads
                cases h
                exact .inr hleads
              · next node hlink hfind =>
                have hnot : node ≠ .directory := by
                  rintro rfl
                  exact not_mem_of_isDirectoryAt hplaces
                    (decide_eq_true hfind) hmem
                have hfile := isFile_of_ne hnot hlink
                have hholds : tree.HoldsFile kind (entry :: place) :=
                  ⟨node, hfind, hfile,
                    (leadsTo_iff_of_isFile hfind hfile).1 hleads⟩
                cases hholds.advance_eq h
                exact .inr hholds
            · rw [find?_without hmem]
              split at h
              · cases h
              · exact .inl h
              · exact ih h
      · cases h

theorem walk_without (hplaces : ∀ place ∈ places, tree.LeadsTo kind place)
    {links : Nat} {place : Place} {steps : List Step} {arrival : Arrival}
    (h : tree.walk links place steps = .ok arrival) :
    (tree.without places).walk links place steps = .ok arrival ∨
      tree.HoldsFile kind arrival.place := by
  induction h using walk_induct with
  | arrived links hadvance =>
      exact (advance_without hplaces hadvance).imp
        (fun hsame => walk_arrived hsame links) id
  | link links hadvance hwalk ih =>
      rcases advance_without hplaces hadvance with hsame | hlinks
      · rw [walk_link hsame]
        exact ih
      · -- The link has led to a file, so nothing was left to do after it.
        obtain ⟨mid, hmid, hrest⟩ := walk_of_append hwalk
        have hholds := hlinks _ mid hmid
        rw [hholds.place_eq hrest]
        exact .inr hholds

/-! ## Accesses -/

theorem resolve_of_without {path : Path} {place : Place}
    (h : (tree.without places).resolve path = .ok place) :
    tree.resolve path = .ok place := by
  obtain ⟨route, hroute, arrival, hwalk, rfl⟩ := resolve_eq_ok_iff.1 h
  exact resolve_eq_ok_iff.2 ⟨route, hroute, arrival, walk_of_without hwalk, rfl⟩

theorem node_of_without {path : Path} {node : Node}
    (h : (tree.without places).node path = .ok node) :
    tree.node path = .ok node := by
  obtain ⟨place, hresolve, hfind⟩ := node_eq_ok_iff.1 h
  exact node_eq_ok_iff.2 ⟨place, resolve_of_without hresolve,
    find?_of_without hfind⟩

theorem node_without (hplaces : ∀ place ∈ places, tree.LeadsTo kind place)
    {path : Path} {node : Node} (h : tree.node path = .ok node) :
    (tree.without places).node path = .ok node ∨
      node ≠ .directory ∧ (node.isFile = true → kind node) := by
  obtain ⟨place, hresolve, hfind⟩ := node_eq_ok_iff.1 h
  obtain ⟨route, hroute, arrival, hwalk, rfl⟩ := resolve_eq_ok_iff.1 hresolve
  rcases walk_without hplaces hwalk with hsame | ⟨other, hother, hfile, hkind⟩
  · by_cases hmem : arrival.place ∈ places
    · refine .inr ⟨?_, fun hfile =>
        (leadsTo_iff_of_isFile hfind hfile).1 (hplaces _ hmem)⟩
      rintro rfl
      exact not_mem_of_isDirectoryAt hplaces (decide_eq_true hfind) hmem
    · refine .inl
        (node_eq_ok_iff.2 ⟨arrival.place, ?_, (find?_without hmem).trans hfind⟩)
      exact resolve_eq_ok_iff.2 ⟨route, hroute, arrival, hsame, rfl⟩
  · obtain rfl : node = other := Option.some.inj (hfind.symm.trans hother)
    refine .inr ⟨?_, fun _ => hkind⟩
    rintro rfl
    cases hfile

theorem isDirectory_without
    (hplaces : ∀ place ∈ places, tree.LeadsTo kind place) (path : Path) :
    (tree.without places).isDirectory path = tree.isDirectory path := by
  rw [Bool.eq_iff_iff, isDirectory_iff, isDirectory_iff]
  constructor
  · exact node_of_without
  · intro h
    exact (node_without hplaces h).resolve_right fun hother => hother.1 rfl

theorem resolve_without (hplaces : ∀ place ∈ places, tree.LeadsTo kind place)
    {path : Path} {place : Place} (hresolve : tree.resolve path = .ok place)
    (hdirectory : tree.isDirectoryAt place = true) :
    (tree.without places).resolve path = .ok place := by
  have hnode : (tree.without places).node path = .ok .directory :=
    isDirectory_iff.1 ((isDirectory_without hplaces path).trans
      (isDirectory_iff.2
        (node_eq_ok_iff.2 ⟨place, hresolve, of_decide_eq_true hdirectory⟩)))
  obtain ⟨place', hnew, -⟩ := node_eq_ok_iff.1 hnode
  cases (resolve_of_without hnew).symm.trans hresolve
  exact hnew

theorem hasEntry_of_without {path : Path}
    (h : (tree.without places).hasEntry path = true) :
    tree.hasEntry path = true := by
  obtain ⟨route, hroute, arrival, hwalk, hlast⟩ := hasEntry_iff.1 h
  refine hasEntry_iff.2 ⟨route, hroute, arrival, walk_of_without hwalk,
    fun last hget => ?_⟩
  obtain ⟨hdirectory, hnames⟩ := hlast last hget
  refine ⟨isDirectoryAt_of_without hdirectory, ?_⟩
  cases last with
  | here => trivial
  | up => trivial
  | tooLong => exact hnames
  | name entry =>
      obtain ⟨node, hfind⟩ := Option.isSome_iff_exists.1 hnames
      exact Option.isSome_of_eq_some (find?_of_without hfind)

theorem namesIn_without (place : Place) :
    (tree.without places).namesIn place =
      (tree.namesIn place).filter fun name => name :: place ∉ places := by
  rw [namesIn, namesIn, without]
  dsimp only
  rw [List.filterMap_filter, List.filter_filterMap]
  congr 1
  funext e
  obtain ⟨entry, node⟩ := e
  cases entry with
  | nil => exact ite_self none
  | cons name above =>
      by_cases habove : above = place
      · subst habove
        by_cases hmem : name :: above ∈ places <;> simp [hmem, Option.filter]
      · simp [habove]

theorem nameLe_trans (a b c : FileName) (hab : nameLe a b = true)
    (hbc : nameLe b c = true) :
    nameLe a c = true :=
  decide_eq_true
    (String.le_trans (of_decide_eq_true hab) (of_decide_eq_true hbc))

theorem nameLe_total (a b : FileName) : (nameLe a b || nameLe b a) = true := by
  rw [Bool.or_eq_true]
  exact (String.le_total a.text b.text).imp decide_eq_true decide_eq_true

theorem list_without (hplaces : ∀ place ∈ places, tree.LeadsTo kind place)
    {path : Path} {place : Place} {names : List FileName}
    (hresolve : tree.resolve path = .ok place)
    (h : tree.list path = .ok names) :
    (tree.without places).list path =
      .ok (names.filter fun name => name :: place ∉ places) := by
  obtain ⟨place', hresolve', hdirectory, rfl⟩ := list_eq_ok_iff.1 h
  cases hresolve.symm.trans hresolve'
  refine list_eq_ok_iff.2
    ⟨place, ?_, (isDirectoryAt_without hplaces place).trans hdirectory, ?_⟩
  · exact resolve_without hplaces hresolve hdirectory
  · rw [namesIn_without, filter_mergeSort nameLe_trans nameLe_total]

/-! ## Entries that paths name -/

theorem entryPlace?_eq_some {path : Path} {place : Place}
    (h : tree.entryPlace? path = some place) :
    ∃ route initial arrival entry, route? path = .ok route ∧
      route.steps = initial ++ [.name entry] ∧
      tree.walk linkLimit (route.origin tree.start) initial = .ok arrival ∧
      tree.isDirectoryAt arrival.place = true ∧
      place = entry :: arrival.place := by
  rw [entryPlace?] at h
  split at h
  · cases h
  · next route hroute =>
    split at h
    · next arrival entry hlast =>
      cases h
      obtain ⟨initial, hsteps, hwalk, hdirectory⟩ := walkToLast_eq_ok hlast
      exact ⟨route, initial, arrival, entry, hroute, hsteps, hwalk,
        hdirectory, rfl⟩
    · cases h

theorem leadsTo_of_entryPlace? {path : Path} {node : Node} {place : Place}
    (hnode : tree.node path = .ok node) (hfile : node.isFile = true)
    (hkind : kind node) (h : tree.entryPlace? path = some place) :
    tree.LeadsTo kind place := by
  obtain ⟨route, initial, arrival, entry, hroute, hsteps, hwalk,
    hdirectory, rfl⟩ :=
    entryPlace?_eq_some h
  obtain ⟨_, end_, hroute', hend, hfind⟩ := walk_of_node hnode
  cases hroute.symm.trans hroute'
  have hholds : tree.HoldsFile kind end_.place := ⟨node, hfind, hfile, hkind⟩
  rw [hsteps, walk_append hwalk] at hend
  rcases walk_cases hend with
    ⟨_, hadvance, rfl⟩ | ⟨_, _, _, _, _, hadvance, hlink⟩
  · rw [advance_name hdirectory] at hadvance
    split at hadvance
    · cases hadvance
    · cases hadvance
    · cases hadvance
      exact (leadsTo_iff_of_isFile hfind hfile).2 hkind
  · rw [advance_name hdirectory] at hadvance
    split at hadvance
    · cases hadvance
    · next text hplace =>
      cases hadvance
      rw [LeadsTo, hplace]
      intro links other hother
      rw [List.append_nil] at hlink
      rw [place_eq_of_walk hother hlink]
      exact hholds
    · cases hadvance

/-- A path to a file names an entry. A step upwards does not lead to a file,
where the start is below directories. -/
theorem entryPlace?_of_isFile (hstart : tree.Grounded tree.start) {path : Path}
    (h : tree.isFile path = true) :
    ∃ place, tree.entryPlace? path = some place := by
  obtain ⟨node, hnode, hfile⟩ := isFile_iff.1 h
  obtain ⟨route, end_, hroute, hend, hfind⟩ := walk_of_node hnode
  have hnot : ¬ tree.isDirectoryAt end_.place = true := by
    intro hdirectory
    cases (of_decide_eq_true hdirectory).symm.trans hfind
    cases hfile
  have horigin := hstart.origin route
  rcases List.eq_nil_or_concat route.steps with hsteps | ⟨initial, last, hsteps⟩
  · rw [hsteps, walk_nil] at hend
    cases hend
    exact absurd horigin.isDirectoryAt hnot
  · rw [List.concat_eq_append] at hsteps
    rw [hsteps] at hend
    obtain ⟨mid, hmid, hlast⟩ := walk_of_append hend
    obtain ⟨hdirectory, hnames⟩ := walk_single hlast
    cases last with
    | here =>
        rw [walk_here hdirectory] at hlast
        cases hlast
        exact absurd hdirectory hnot
    | up =>
        rw [walk_up hdirectory] at hlast
        cases hlast
        have hgrounded := grounded_of_walk (fun _ => horigin) hmid hdirectory
        exact absurd hgrounded.tail.isDirectoryAt hnot
    | tooLong => exact hnames.elim
    | name entry =>
        have hwalkToLast :
            tree.walkToLast linkLimit (route.origin tree.start) route.steps =
              .ok (mid, some (.name entry)) := by
          rw [walkToLast_eq_ok_iff, hsteps, List.dropLast_concat,
            List.getLast?_concat]
          exact ⟨hmid, rfl, fun _ => hdirectory⟩
        refine ⟨entry :: mid.place, ?_⟩
        rw [entryPlace?, hroute]
        dsimp only
        rw [hwalkToLast]

theorem hasEntry_removeAll {path : Path} {place : Place} {paths : List Path}
    (hpath : path ∈ paths) (h : tree.entryPlace? path = some place) :
    (tree.removeAll paths).hasEntry path = false := by
  obtain ⟨route, initial, arrival, entry, hroute, hsteps, hwalk, -, rfl⟩ :=
    entryPlace?_eq_some h
  have hgone : (tree.removeAll paths).find? (entry :: arrival.place) = none :=
    find?_without_of_mem (List.mem_filterMap.2 ⟨path, hpath, h⟩)
  rw [Bool.eq_false_iff]
  intro hentry
  obtain ⟨_, hroute', end_, hwalk', hlast⟩ := hasEntry_iff.1 hentry
  cases hroute.symm.trans hroute'
  have hnames :
      ∃ mid, tree.walk linkLimit (route.origin tree.start) initial = .ok mid ∧
      (tree.removeAll paths).Names mid.place (.name entry) := by
    rw [Route.stepsInto, hsteps] at hwalk' hlast
    split at hwalk'
    · next hslash =>
      rw [List.dropLast_concat] at hwalk'
      obtain ⟨mid, hmid, hname⟩ := walk_of_append hwalk'
      exact ⟨mid, walk_of_without hmid, (walk_single hname).2⟩
    · next hslash =>
      rw [if_neg hslash] at hlast
      rw [List.dropLast_concat] at hwalk'
      rw [List.getLast?_concat] at hlast
      exact ⟨end_, walk_of_without hwalk', (hlast _ rfl).2⟩
  obtain ⟨mid, hmid, hname⟩ := hnames
  cases hmid.symm.trans hwalk
  rw [Names, hgone] at hname
  cases hname

end BenchReport.FileTree
