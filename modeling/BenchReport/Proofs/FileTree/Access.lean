import BenchReport.Proofs.FileTree.Walk
import BenchReport.Proofs.Path.Join

/-!
# Paths that lead somewhere

What is asked of a path comes down to a walk. A path leads to what is found
where the walk over its steps arrives (`node_eq_ok_iff`), and it names an entry
if the walk over all steps but the last arrives in a directory where the last
step names something (`hasEntry_iff`). So whatever a path leads to, the path
names an entry (`hasEntry_of_node`), and a name joined to a path names an entry
only if the path leads to a directory and the entry is found there.
-/

namespace BenchReport.FileTree

variable {tree : FileTree}

/-! ## What a path leads to -/

theorem resolve_eq_ok_iff {path : Path} {place : Place} :
    tree.resolve path = .ok place ↔
      ∃ route, route? path = .ok route ∧ ∃ arrival,
        tree.walk linkLimit (route.origin tree.start) route.stepsInto =
          .ok arrival ∧
        arrival.place = place := by
  simp only [resolve, bind_eq_ok_iff, pure, Except.pure, Except.ok.injEq]

theorem node_eq_ok_iff {path : Path} {node : Node} :
    tree.node path = .ok node ↔
      ∃ place, tree.resolve path = .ok place ∧
        tree.find? place = some node := by
  rw [FileTree.node, bind_eq_ok_iff]
  refine exists_congr fun place => and_congr_right fun _ => ?_
  cases tree.find? place with
  | none => exact iff_of_false nofun nofun
  | some found =>
      constructor
      · exact fun h => congrArg some (Except.ok.inj h)
      · exact fun h => congrArg Except.ok (Option.some.inj h)

theorem isDirectory_iff {path : Path} :
    tree.isDirectory path = true ↔ tree.node path = .ok .directory := by
  rw [isDirectory]
  split
  · next h => exact iff_of_true rfl h
  · next h => exact iff_of_false Bool.false_ne_true h

theorem isFile_iff {path : Path} :
    tree.isFile path = true ↔
      ∃ node, tree.node path = .ok node ∧ node.isFile = true := by
  rw [isFile]
  cases tree.node path with
  | error e => exact iff_of_false Bool.false_ne_true nofun
  | ok node =>
      constructor
      · exact fun h => ⟨node, rfl, h⟩
      · rintro ⟨_, ⟨⟩, h⟩
        exact h

theorem read_eq_ok_iff {path : Path} {bytes : List UInt8} :
    tree.read path = .ok bytes ↔ tree.node path = .ok (.file bytes) := by
  rw [read, bind_eq_ok_iff]
  constructor
  · rintro ⟨node, hnode, h⟩
    cases node with
    | file other => rw [hnode, Except.ok.inj h]
    | blocked obstacle => cases h
    | directory => cases h
    | link target => cases h
  · intro h
    exact ⟨_, h, rfl⟩

/-- What is neither a directory nor a link is a file. -/
theorem isFile_of_ne {node : Node} (hdirectory : node ≠ .directory)
    (hlink : ∀ target, node ≠ .link target) : node.isFile = true := by
  cases node with
  | file bytes => rfl
  | blocked obstacle => rfl
  | directory => exact absurd rfl hdirectory
  | link target => exact absurd rfl (hlink target)

theorem list_eq_ok_iff {path : Path} {names : List FileName} :
    tree.list path = .ok names ↔
      ∃ place, tree.resolve path = .ok place ∧ tree.isDirectoryAt place = true ∧
        (tree.namesIn place).mergeSort nameLe = names := by
  rw [list, bind_eq_ok_iff]
  refine exists_congr fun place => and_congr_right fun _ => ?_
  rw [isDirectoryAt, decide_eq_true_eq]
  split
  · next hfind =>
    exact ⟨fun h => ⟨hfind, Except.ok.inj h⟩, fun h => congrArg Except.ok h.2⟩
  · next hother hfind =>
    exact iff_of_false nofun fun h =>
      hother (Option.some.inj (hfind.symm.trans h.1))
  · next hfind => exact iff_of_false nofun fun h => nomatch hfind.symm.trans h.1

/-! ## Names in a directory -/

/-- The name of a place, if it is an entry of the directory. -/
def nameIn? (directory : Place) : Place → Option FileName
  | [] => none
  | name :: above => if above = directory then some name else none

theorem nameIn?_eq_some_iff {directory place : Place} {name : FileName} :
    nameIn? directory place = some name ↔ place = name :: directory := by
  cases place with
  | nil => exact iff_of_false nofun nofun
  | cons entry above =>
      rw [nameIn?, List.cons.injEq]
      split
      · next habove =>
        exact ⟨fun h => ⟨Option.some.inj h, habove⟩, fun h => congrArg some h.1⟩
      · next habove => exact iff_of_false nofun fun h => habove h.2

theorem namesIn_eq (tree : FileTree) (place : Place) :
    tree.namesIn place = (tree.entries.map (·.1)).filterMap
      (nameIn? place) := by
  rw [namesIn, List.filterMap_map]
  rfl

theorem nodup_namesIn (place : Place) : (tree.namesIn place).Nodup := by
  rw [namesIn_eq]
  refine List.Pairwise.filterMap _ (fun a b hne name ha other hb heq => hne ?_)
    tree.distinct
  rw [nameIn?_eq_some_iff.1 ha, nameIn?_eq_some_iff.1 hb, heq]

theorem mem_namesIn_iff {place : Place} {name : FileName} :
    name ∈ tree.namesIn place ↔ (tree.find? (name :: place)).isSome = true := by
  have hfind : tree.find? (name :: place) =
      (tree.entries.find? (·.1 = name :: place)).map (·.2) := rfl
  rw [namesIn_eq, List.mem_filterMap, hfind, Option.isSome_map,
    List.find?_isSome]
  simp only [nameIn?_eq_some_iff, exists_eq_right, List.mem_map,
    decide_eq_true_eq]

theorem nodup_of_list {path : Path} {names : List FileName}
    (h : tree.list path = .ok names) :
    names.Nodup := by
  obtain ⟨place, -, -, rfl⟩ := list_eq_ok_iff.1 h
  exact (List.mergeSort_perm _ _).nodup_iff.2 (nodup_namesIn place)

theorem mem_of_list {path : Path} {place : Place} {names : List FileName}
    (hresolve : tree.resolve path = .ok place) (h : tree.list path = .ok names)
    {name : FileName} (hname : (tree.find? (name :: place)).isSome = true) :
    name ∈ names := by
  obtain ⟨_, hplace, -, rfl⟩ := list_eq_ok_iff.1 h
  cases hresolve.symm.trans hplace
  exact List.mem_mergeSort.2 (mem_namesIn_iff.2 hname)

/-! ## What a path names -/

/-- Whether a step from a directory names something that is there. -/
def Names (tree : FileTree) (place : Place) : Step → Prop
  | .here => True
  | .up => True
  | .name entry => (tree.find? (entry :: place)).isSome = true
  | .tooLong => False

theorem advance_single {place : Place} {step : Step} {halt : Halt}
    (h : tree.advance place [step] = .ok halt) :
    tree.isDirectoryAt place = true ∧ tree.Names place step := by
  rw [advance.eq_def] at h
  dsimp only at h
  split at h
  · next hdirectory =>
    refine ⟨hdirectory, ?_⟩
    cases step with
    | here => trivial
    | up => trivial
    | tooLong => cases h
    | name entry =>
        dsimp only at h
        split at h
        · cases h
        · next text hfind => exact Option.isSome_of_eq_some hfind
        · next node _ hfind => exact Option.isSome_of_eq_some hfind
  · cases h

theorem walk_here {place : Place} (h : tree.isDirectoryAt place = true)
    (links : Nat) :
    tree.walk links place [.here] = .ok ⟨place, links⟩ := by
  refine walk_arrived ?_ links
  rw [advance, if_pos h]
  rfl

theorem walk_up {place : Place} (h : tree.isDirectoryAt place = true)
    (links : Nat) :
    tree.walk links place [.up] = .ok ⟨place.tail, links⟩ := by
  refine walk_arrived ?_ links
  rw [advance, if_pos h]
  rfl

theorem walk_single {links : Nat} {place : Place} {step : Step}
    {arrival : Arrival} (h : tree.walk links place [step] = .ok arrival) :
    tree.isDirectoryAt place = true ∧ tree.Names place step := by
  rcases walk_cases h with ⟨_, hadvance, -⟩ | ⟨_, _, _, _, -, hadvance, -⟩
  · exact advance_single hadvance
  · exact advance_single hadvance

theorem isDirectoryAt_of_walk {links : Nat} {place : Place} {steps : List Step}
    {arrival : Arrival} (h : tree.walk links place steps = .ok arrival)
    (hdirectory : tree.isDirectoryAt arrival.place = true) :
    tree.isDirectoryAt place = true := by
  cases steps with
  | nil =>
      rw [walk_nil] at h
      cases h
      exact hdirectory
  | cons step rest =>
      rw [← List.singleton_append] at h
      obtain ⟨mid, hmid, -⟩ := walk_of_append h
      exact (walk_single hmid).1

/-- A walk that goes into a directory arrives where it does without
the slash. -/
theorem walk_steps {links : Nat} {place : Place} {route : Route}
    {arrival : Arrival}
    (h : tree.walk links place route.stepsInto = .ok arrival) :
    tree.walk links place route.steps = .ok arrival := by
  rw [Route.stepsInto] at h
  split at h
  · obtain ⟨mid, hmid, hhere⟩ := walk_of_append h
    rw [walk_here (walk_single hhere).1] at hhere
    cases hhere
    exact hmid
  · exact h

/-- The last step of a path is asked only what it names, and a slash at the end
is a last step. -/
theorem hasEntry_iff {path : Path} :
    tree.hasEntry path = true ↔
      ∃ route, route? path = .ok route ∧ ∃ arrival,
        tree.walk linkLimit (route.origin tree.start) route.stepsInto.dropLast =
          .ok arrival ∧
        ∀ last, route.stepsInto.getLast? = some last →
          tree.isDirectoryAt arrival.place = true ∧
            tree.Names arrival.place last := by
  have hok : ∀ found : Except FileError Unit, found.isOk = true ↔
      found = .ok () := by
    intro found
    cases found with
    | error e => exact iff_of_false nofun nofun
    | ok u => exact iff_of_true rfl rfl
  simp only [hasEntry, hok, bind_eq_ok_iff (x := route? path)]
  refine exists_congr fun route => and_congr_right fun _ => ?_
  cases hslash : route.slashEnd with
  | true =>
      have hinto : route.stepsInto = route.steps ++ [.here] := by
        rw [Route.stepsInto, if_pos hslash]
      rw [if_pos rfl, hinto, List.dropLast_concat, List.getLast?_concat]
      constructor
      · intro h
        cases hwalk : tree.walk linkLimit (route.origin tree.start)
          (route.steps ++ [.here]) with
        | error e =>
            rw [hwalk] at h
            cases h
        | ok arrival =>
            obtain ⟨mid, hmid, hhere⟩ := walk_of_append hwalk
            refine ⟨mid, hmid, fun last hlast => ?_⟩
            cases hlast
            exact walk_single hhere
      · rintro ⟨mid, hmid, hlast⟩
        rw [walk_append hmid, walk_here (hlast _ rfl).1]
        rfl
  | false =>
      have hinto : route.stepsInto = route.steps := by
        rw [Route.stepsInto, if_neg (by rw [hslash]; exact Bool.false_ne_true)]
      rw [if_neg Bool.false_ne_true, hinto]
      constructor
      · intro h
        obtain ⟨⟨arrival, step?⟩, hlast, h⟩ := bind_eq_ok_iff.1 h
        obtain ⟨hwalk, hstep, hdirectory⟩ := walkToLast_eq_ok_iff.1 hlast
        refine ⟨arrival, hwalk, fun last hget => ?_⟩
        obtain rfl : step? = some last := hstep.symm.trans hget
        refine ⟨hdirectory nofun, ?_⟩
        cases last with
        | here => trivial
        | up => trivial
        | tooLong => cases h
        | name entry =>
            by_cases hfind : (tree.find? (entry :: arrival.place)).isSome = true
            · exact hfind
            · dsimp only at h
              rw [if_neg hfind] at h
              cases h
      · rintro ⟨arrival, hwalk, hlast⟩
        refine bind_eq_ok_iff.2 ⟨(arrival, route.steps.getLast?),
          walkToLast_eq_ok_iff.2 ⟨hwalk, rfl, fun hne => ?_⟩, ?_⟩
        · obtain ⟨last, hget⟩ := Option.ne_none_iff_exists'.1 hne
          exact (hlast last hget).1
        · cases hget : route.steps.getLast? with
          | none => rfl
          | some last =>
              have hnames := (hlast last hget).2
              cases last with
              | here => rfl
              | up => rfl
              | tooLong => exact hnames.elim
              | name entry => exact if_pos hnames

theorem hasEntry_of_node {path : Path} {node : Node}
    (h : tree.node path = .ok node) :
    tree.hasEntry path = true := by
  obtain ⟨place, hresolve, -⟩ := node_eq_ok_iff.1 h
  obtain ⟨route, hroute, arrival, hwalk, -⟩ := resolve_eq_ok_iff.1 hresolve
  refine hasEntry_iff.2 ⟨route, hroute, ?_⟩
  rcases List.eq_nil_or_concat route.stepsInto with
    hsteps | ⟨initial, last, hsteps⟩
  · rw [hsteps] at hwalk ⊢
    exact ⟨arrival, hwalk, nofun⟩
  · rw [List.concat_eq_append] at hsteps
    rw [hsteps] at hwalk
    rw [hsteps, List.dropLast_concat, List.getLast?_concat]
    obtain ⟨mid, hmid, hlast⟩ := walk_of_append hwalk
    refine ⟨mid, hmid, fun step hstep => ?_⟩
    cases hstep
    exact walk_single hlast

/-- What a path leads to is found where its steps lead, without regard to a
slash at the end. -/
theorem walk_of_node {path : Path} {node : Node}
    (h : tree.node path = .ok node) :
    ∃ route arrival, route? path = .ok route ∧
      tree.walk linkLimit (route.origin tree.start) route.steps = .ok arrival ∧
      tree.find? arrival.place = some node := by
  obtain ⟨_, hresolve, hfind⟩ := node_eq_ok_iff.1 h
  obtain ⟨route, hroute, arrival, hwalk, rfl⟩ := resolve_eq_ok_iff.1 hresolve
  exact ⟨route, arrival, hroute, walk_steps hwalk, hfind⟩

/-! ## Joined paths -/

theorem isName_text (name : FileName) : Path.IsName name.text := by
  obtain ⟨hne, hdot, hdots, hslash, -, -⟩ := name.valid
  exact ⟨hslash, fun h => hne (String.toList_inj.1 h),
    fun h => hdot (String.toList_inj.1 h),
    fun h => hdots (String.toList_inj.1 h)⟩

theorem ofPart_name (name : FileName) :
    Step.ofPart name.text.toList = .name name := by
  obtain ⟨-, -, hdot, hdots⟩ := isName_text name
  have hofText : FileName.ofText? (.ofList name.text.toList) = some name := by
    rw [FileName.ofText?, String.ofList_toList, dif_pos name.valid]
  rw [Step.ofPart, if_neg hdot, if_neg hdots, hofText]

theorem route?_eq_ok_iff {path : Path} {route : Route} :
    route? path = .ok route ↔
      '\x00' ∉ path.text.toList ∧ path.text ≠ "" ∧
        path.text.utf8ByteSize < 4096 ∧
        .ofText path.text = route := by
  rw [route?]
  by_cases hnull : '\x00' ∈ path.text.toList
  · rw [if_pos (by simpa using hnull)]
    exact iff_of_false nofun fun h => h.1 hnull
  · rw [if_neg (by simpa using hnull)]
    by_cases hempty : path.text = ""
    · rw [if_pos hempty]
      exact iff_of_false nofun fun h => h.2.1 hempty
    · rw [if_neg hempty]
      by_cases hlong : 4096 ≤ path.text.utf8ByteSize
      · rw [if_pos hlong]
        exact iff_of_false nofun fun h => absurd h.2.2.1 (Nat.not_lt.2 hlong)
      · rw [if_neg hlong, Except.ok.injEq]
        exact ⟨fun h => ⟨hnull, hempty, Nat.lt_of_not_le hlong, h⟩,
          fun h => h.2.2.2⟩

variable {p : Path} {q : String}

theorem text_ne_of_hasEntry (h : tree.hasEntry p = true) : p.text ≠ "" := by
  obtain ⟨route, hroute, -⟩ := hasEntry_iff.1 h
  exact (route?_eq_ok_iff.1 hroute).2.1

theorem text_ne_of_resolve {place : Place} (h : tree.resolve p = .ok place) :
    p.text ≠ "" := by
  obtain ⟨_, hroute, -⟩ := resolve_eq_ok_iff.1 h
  exact (route?_eq_ok_iff.1 hroute).2.1

theorem text_join (hp : p.text ≠ "") (hq : '/' ∉ q.toList) :
    ∃ between, (p.join q).text = p.text ++ between := by
  have htext := Path.toList_join hp hq
  split at htext
  · exact ⟨q, String.toList_inj.1 (htext.trans String.toList_append.symm)⟩
  · refine ⟨"/" ++ q, String.toList_inj.1 (htext.trans ?_)⟩
    rw [String.toList_append, String.toList_append]
    rfl

theorem route?_of_join (hp : p.text ≠ "") (hq : '/' ∉ q.toList) {route : Route}
    (h : route? (p.join q) = .ok route) : route? p = .ok (.ofText p.text) := by
  obtain ⟨hnull, -, hshort, -⟩ := route?_eq_ok_iff.1 h
  obtain ⟨between, htext⟩ := text_join hp hq
  rw [htext] at hnull hshort
  rw [String.toList_append] at hnull
  rw [String.utf8ByteSize_append] at hshort
  exact route?_eq_ok_iff.2
    ⟨fun hmem => hnull (List.mem_append_left _ hmem), hp, by omega, rfl⟩

theorem fromRoot_join (hp : p.text ≠ "") (hq : '/' ∉ q.toList) :
    (Route.ofText (p.join q).text).fromRoot = (Route.ofText p.text).fromRoot :=
  Path.isAbsolute_join hp hq

theorem stepsInto_join (hp : p.text ≠ "") (hq : '/' ∉ q.toList) :
    (Route.ofText (p.join q).text).stepsInto =
      (Route.ofText p.text).steps ++
        [if q.toList = [] then .here else .ofPart q.toList] := by
  have hsteps :
      (Route.ofText (p.join q).text).steps = (Route.ofText p.text).steps ++
        (([q.toList].filter (· ≠ [])).map Step.ofPart) := by
    obtain ⟨first, rest, hjoined, hparts⟩ := Path.splitParts_join hp hq
    rw [Route.ofText, Route.ofText]
    dsimp only
    rw [hjoined, ← List.cons_append, List.filter_append, List.map_append]
    rcases hparts with hparts | hparts
    · rw [hparts]
    · rw [hparts, ← List.cons_append, List.filter_append, List.map_append]
      exact congrArg (· ++ _) (List.append_nil _).symm
  by_cases hempty : q.toList = []
  · have hslash : (Route.ofText (p.join q).text).slashEnd = true := by
      refine decide_eq_true ?_
      rw [Path.toList_join hp hq, hempty]
      split
      · next hlast => rw [List.append_nil, hlast]
      · exact List.getLast?_concat
    rw [Route.stepsInto, if_pos hslash, hsteps, if_pos hempty, hempty]
    exact congrArg (· ++ [Step.here]) (List.append_nil _)
  · have hslash : ¬ (Route.ofText (p.join q).text).slashEnd = true := by
      intro h
      have hlast : (p.join q).text.toList.getLast? = some '/' :=
        of_decide_eq_true h
      obtain ⟨initial, last, hconcat⟩ :=
        (List.eq_nil_or_concat q.toList).resolve_left hempty
      rw [List.concat_eq_append] at hconcat
      have hmem : last ∈ q.toList := by
        rw [hconcat]
        exact List.mem_append_right _ (List.mem_singleton_self _)
      obtain rfl : last = '/' := by
        rw [Path.toList_join hp hq, hconcat] at hlast
        split at hlast
        · rw [← List.append_assoc, List.getLast?_concat] at hlast
          exact Option.some.inj hlast
        · rw [← List.cons_append, ← List.append_assoc, List.getLast?_concat]
            at hlast
          exact Option.some.inj hlast
      exact hq hmem
    have hkept : [q.toList].filter (· ≠ []) = [q.toList] := by
      simpa using hempty
    rw [Route.stepsInto, if_neg hslash, hsteps, if_neg hempty, hkept]
    rfl

theorem isDirectory_of_walk {route : Route} {arrival : Arrival}
    (hroute : route? p = .ok route)
    (hwalk : tree.walk linkLimit (route.origin tree.start) route.steps =
      .ok arrival)
    (hdirectory : tree.isDirectoryAt arrival.place = true) :
    tree.isDirectory p = true := by
  refine isDirectory_iff.2
    (node_eq_ok_iff.2 ⟨arrival.place, ?_, of_decide_eq_true hdirectory⟩)
  refine resolve_eq_ok_iff.2 ⟨route, hroute, arrival, ?_, rfl⟩
  rw [Route.stepsInto]
  split
  · rw [walk_append hwalk, walk_here hdirectory]
  · exact hwalk

theorem place_eq_of_resolve {route : Route} {arrival : Arrival} {place : Place}
    (hroute : route? p = .ok route) (hresolve : tree.resolve p = .ok place)
    (hwalk : tree.walk linkLimit (route.origin tree.start) route.steps =
      .ok arrival) :
    place = arrival.place := by
  obtain ⟨_, hroute', arrival', hinto, rfl⟩ := resolve_eq_ok_iff.1 hresolve
  cases hroute.symm.trans hroute'
  exact place_eq_of_walk (walk_steps hinto) hwalk

theorem isDirectory_of_hasEntry_join (hp : p.text ≠ "") (hq : '/' ∉ q.toList)
    (h : tree.hasEntry (p.join q) = true) : tree.isDirectory p = true := by
  obtain ⟨route, hroute, arrival, hwalk, hlast⟩ := hasEntry_iff.1 h
  obtain ⟨-, -, -, rfl⟩ := route?_eq_ok_iff.1 hroute
  rw [stepsInto_join hp hq, List.dropLast_concat, Route.origin,
    fromRoot_join hp hq] at hwalk
  rw [stepsInto_join hp hq, List.getLast?_concat] at hlast
  exact isDirectory_of_walk (route?_of_join hp hq hroute) hwalk (hlast _ rfl).1

theorem isSome_find?_of_hasEntry_join {place : Place} {name : FileName}
    (hresolve : tree.resolve p = .ok place)
    (h : tree.hasEntry (p.join name.text) = true) :
    (tree.find? (name :: place)).isSome = true := by
  obtain ⟨route', hroute', -⟩ := resolve_eq_ok_iff.1 hresolve
  obtain ⟨-, hp, -, rfl⟩ := route?_eq_ok_iff.1 hroute'
  obtain ⟨hq, hne, -, -⟩ := isName_text name
  obtain ⟨route, hroute, arrival, hwalk, hlast⟩ := hasEntry_iff.1 h
  obtain ⟨-, -, -, rfl⟩ := route?_eq_ok_iff.1 hroute
  rw [stepsInto_join hp hq, List.dropLast_concat, Route.origin,
    fromRoot_join hp hq] at hwalk
  rw [stepsInto_join hp hq, List.getLast?_concat] at hlast
  rw [place_eq_of_resolve hroute' hresolve hwalk]
  rw [if_neg hne, ofPart_name] at hlast
  exact (hlast _ rfl).2

/-! ## Names and dots -/

theorem stepsInto_of_not_mem (hq : '/' ∉ q.toList) (hne : q.toList ≠ []) :
    (Route.ofText q).stepsInto = [.ofPart q.toList] := by
  have hslash : ¬ (Route.ofText q).slashEnd = true := by
    intro h
    have hlast : q.toList.getLast? = some '/' := of_decide_eq_true h
    exact hq (List.mem_of_getLast? hlast)
  have hkept : [q.toList].filter (· ≠ []) = [q.toList] := by simpa using hne
  rw [Route.stepsInto, if_neg hslash, Route.ofText]
  dsimp only
  rw [Path.splitParts_of_not_mem hq, hkept]
  rfl

/-- A name alone is looked for where paths start. -/
theorem isSome_find?_of_hasEntry {name : FileName}
    (h : tree.hasEntry ⟨name.text⟩ = true) :
    (tree.find? (name :: tree.start)).isSome = true := by
  obtain ⟨hq, hne, -, -⟩ := isName_text name
  obtain ⟨route, hroute, arrival, hwalk, hlast⟩ := hasEntry_iff.1 h
  obtain ⟨-, -, -, rfl⟩ := route?_eq_ok_iff.1 hroute
  have hroot : (Route.ofText name.text).fromRoot = false :=
    Path.not_isAbsolute hq
  rw [stepsInto_of_not_mem hq hne, ofPart_name] at hwalk hlast
  rw [Route.origin, hroot, if_neg Bool.false_ne_true, List.dropLast_singleton,
    walk_nil] at hwalk
  cases hwalk
  exact (hlast _ rfl).2

theorem place_eq_of_walk_here {steps : List Step}
    (h : ∀ step ∈ steps, step = .here) {links : Nat} {place : Place}
    {arrival : Arrival} (hwalk : tree.walk links place steps = .ok arrival) :
    arrival.place = place := by
  induction steps generalizing links arrival with
  | nil =>
      rw [walk_nil] at hwalk
      cases hwalk
      rfl
  | cons step rest ih =>
      obtain ⟨rfl, hrest⟩ := List.forall_mem_cons.1 h
      rw [← List.singleton_append] at hwalk
      obtain ⟨mid, hmid, hlater⟩ := walk_of_append hwalk
      rw [walk_here (walk_single hmid).1] at hmid
      cases hmid
      exact ih hrest hlater

theorem parts_of_components_eq_here (hp : p.components = [.here]) :
    p.isAbsolute = false ∧ ∀ part ∈ Path.splitParts p.text.toList, part = [] ∨
      part = ['.'] := by
  obtain ⟨first, rest, hsplit⟩ :=
    List.exists_cons_of_ne_nil (Path.splitParts_ne_nil p.text.toList)
  have hhere : ∀ component ∈ p.components, component = .here := by
    rw [hp]
    exact fun _ => List.mem_singleton.1
  rw [Path.components_of_splitParts hsplit, List.forall_mem_append] at hhere
  obtain ⟨hfirst, hrest⟩ := hhere
  have habsolute : p.isAbsolute = false := by
    cases habsolute : p.isAbsolute with
    | false => rfl
    | true =>
        rw [habsolute] at hfirst
        cases hfirst .root (List.mem_singleton_self _)
  rw [hsplit]
  refine ⟨habsolute, List.forall_mem_cons.2 ⟨?_, fun part hpart => ?_⟩⟩
  · rw [habsolute, Path.start, if_neg Bool.false_ne_true] at hfirst
    by_cases hempty : first = []
    · exact .inl hempty
    · rw [if_neg hempty] at hfirst
      exact .inr
        (Path.componentOf_eq_here_iff.1 (hfirst _ (List.mem_singleton_self _)))
  · by_cases hidle : Path.isIdle part = true
    · rw [Path.isIdle, Bool.or_eq_true] at hidle
      exact hidle.imp of_decide_eq_true of_decide_eq_true
    · have hkept : part ∈ rest.filter (!Path.isIdle ·) :=
        List.mem_filter.2 ⟨hpart, by simpa using hidle⟩
      exact .inr
        (Path.componentOf_eq_here_iff.1 (hrest _ (List.mem_map_of_mem hkept)))

/-- A path that is only a dot leads to where paths start. -/
theorem place_eq_start (hp : p.components = [.here]) {place : Place}
    (h : tree.resolve p = .ok place) : place = tree.start := by
  obtain ⟨route, hroute, arrival, hwalk, rfl⟩ := resolve_eq_ok_iff.1 h
  obtain ⟨-, -, -, rfl⟩ := route?_eq_ok_iff.1 hroute
  obtain ⟨habsolute, hparts⟩ := parts_of_components_eq_here hp
  have hroot : (Route.ofText p.text).fromRoot = false := habsolute
  have hsteps : ∀ step ∈ (Route.ofText p.text).steps, step = .here := by
    intro step hstep
    obtain ⟨part, hpart, rfl⟩ := List.mem_map.1 hstep
    obtain ⟨hpart, hne⟩ := List.mem_filter.1 hpart
    rw [(hparts part hpart).resolve_left (of_decide_eq_true hne)]
    rfl
  rw [Route.origin, hroot, if_neg Bool.false_ne_true] at hwalk
  refine place_eq_of_walk_here (fun step hstep => ?_) hwalk
  rw [Route.stepsInto] at hstep
  split at hstep
  · rcases List.mem_append.1 hstep with hstep | hstep
    · exact hsteps step hstep
    · exact List.mem_singleton.1 hstep
  · exact hsteps step hstep

end BenchReport.FileTree
