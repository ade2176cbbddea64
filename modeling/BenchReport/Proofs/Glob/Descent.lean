import BenchReport.Proofs.Glob.Literal
import Mathlib.Algebra.GroupWithZero.Nat
import Mathlib.Data.List.Nodup

/-!
# Searches along a path

A pattern that begins with an escaped path leads a search along that path. What
the search has at each part is a path of its own: without the dots that the
escaped path begins with, and without double slashes. It stands for the same
walk (`Stands`), so where the parts lead from directory to directory the search
comes to the last one (`descend`). A part is taken literally on the way or is
looked for among the names of the directory above, where just one name is
accepted.

The search has only so many steps down, and a path can have only so many bytes.
What is entered is nowhere longer than the parts with their slashes, and a part
that has to be looked for takes two bytes at least, so neither runs out.
-/

namespace BenchReport.Glob

open FileTree

variable {tree : FileTree} {path : Path}

/-! ## Steps of parts -/

/-- The step of a part of a path, be it empty. -/
def stepOf (part : List Char) : Step :=
  if part = [] then .here else .ofPart part

/-- Empty parts are no obstacle on the way to a directory. -/
theorem walk_map_stepOf {links : Nat} {place : Place} {parts : List (List Char)}
    {arrival : Arrival}
    (h : tree.walk links place ((parts.filter (· ≠ [])).map Step.ofPart) =
      .ok arrival)
    (hdirectory : tree.isDirectoryAt arrival.place = true) :
    tree.walk links place (parts.map stepOf) = .ok arrival := by
  induction parts generalizing links place with
  | nil => exact h
  | cons part rest ih =>
      rw [List.map_cons, ← List.singleton_append, stepOf]
      by_cases hpart : part = []
      · rw [List.filter_cons_of_neg (by simpa using hpart)] at h
        rw [if_pos hpart,
          walk_append (walk_here (isDirectoryAt_of_walk h hdirectory) links)]
        exact ih h
      · rw [List.filter_cons_of_pos (by simpa using hpart), List.map_cons,
          ← List.singleton_append] at h
        obtain ⟨mid, hmid, hrest⟩ := walk_of_append h
        rw [if_neg hpart, walk_append hmid]
        exact ih hrest

/-! ## Paths of a search -/

/-- The number of bytes before a name that is entered. -/
def room (path : Path) : Nat :=
  if isDot path then 0 else (path.join "").text.utf8ByteSize

/-- Whether a path of a search stands for a walk that has arrived in a
directory, and whether names can be entered after at most so many bytes. -/
structure Stands (tree : FileTree) (path : Path) (size : Nat)
    (arrival : Arrival) : Prop where
  route : route? path = .ok (.ofText path.text)
  walk : tree.walk linkLimit ((Route.ofText path.text).origin tree.start)
    (Route.ofText path.text).stepsInto = .ok arrival
  directory : tree.isDirectoryAt arrival.place = true
  fits : room path ≤ size
  dot : isDot path = true → path = ⟨"."⟩

theorem room_le (path : Path) :
    room path ≤ (path.join "").text.utf8ByteSize := by
  rw [room]
  split
  · exact Nat.zero_le _
  · exact Nat.le_refl _

theorem size_enter (hpath : path.text ≠ "") {q : String} (hq : '/' ∉ q.toList) :
    (enter path q).text.utf8ByteSize = room path + q.utf8ByteSize := by
  cases hisDot : isDot path with
  | true => rw [enter_of_isDot hisDot, room, if_pos hisDot, Nat.zero_add]
  | false =>
      rw [enter_of_not_isDot hisDot, room, hisDot, if_neg Bool.false_ne_true,
        Path.text_join_eq hpath hq, String.utf8ByteSize_append]

/-- The number of bytes that a part adds to a path, with its slash. -/
def added (q : String) : Nat :=
  if q = "" then 0 else q.utf8ByteSize + 1

section Stands

variable {size : Nat} {arrival : Arrival} (h : Stands tree path size arrival)

include h

theorem Stands.resolve : tree.resolve path = .ok arrival.place :=
  resolve_eq_ok_iff.2 ⟨_, h.route, arrival, h.walk, rfl⟩

theorem Stands.isDirectory : tree.isDirectory path = true :=
  isDirectory_iff.2
    (node_eq_ok_iff.2 ⟨_, h.resolve, of_decide_eq_true h.directory⟩)

theorem Stands.text_ne : path.text ≠ "" :=
  (route?_eq_ok_iff.1 h.route).2.1

/-- A path that is a dot stands for no step at all. -/
theorem Stands.arrival_of_isDot (hdot : isDot path = true) :
    arrival = ⟨tree.start, linkLimit⟩ := by
  have hwalk := h.walk
  rw [h.dot hdot] at hwalk
  have hhere : tree.walk linkLimit tree.start [.here] = .ok arrival := hwalk
  rw [walk_here (walk_single hhere).1] at hhere
  exact (Except.ok.inj hhere).symm

/-- What is entered stands for one more step, if it is not too long. -/
theorem Stands.walk_enter {q : String} (hq : '/' ∉ q.toList)
    (hnull : '\x00' ∉ q.toList) (hdot : isDot path = true → q.toList ≠ [])
    (hsize : size + q.utf8ByteSize < 4096) :
    route? (enter path q) = .ok (.ofText (enter path q).text) ∧
      tree.walk linkLimit ((Route.ofText (enter path q).text).origin tree.start)
          (Route.ofText (enter path q).text).stepsInto =
        tree.walk arrival.linksLeft arrival.place [stepOf q.toList] := by
  cases hisDot : isDot path with
  | true =>
      have hne := hdot hisDot
      have hroot : (Route.ofText q).fromRoot = false := Path.not_isAbsolute hq
      rw [enter_of_isDot hisDot, h.arrival_of_isDot hisDot,
        stepsInto_of_not_mem hq hne, Route.origin, hroot,
        if_neg Bool.false_ne_true, stepOf, if_neg hne]
      refine ⟨route?_eq_ok_iff.2
        ⟨hnull, ?_, Nat.lt_of_le_of_lt (Nat.le_add_left ..) hsize, rfl⟩, rfl⟩
      exact fun hempty => hne (String.toList_inj.2 hempty)
  | false =>
      obtain ⟨hpathNull, hpath, -, -⟩ := route?_eq_ok_iff.1 h.route
      have hroom := h.fits
      rw [room, hisDot, if_neg Bool.false_ne_true] at hroom
      rw [enter_of_not_isDot hisDot, stepsInto_join hpath hq, Route.origin,
        fromRoot_join hpath hq, ← Route.origin,
        walk_append (walk_steps h.walk), stepOf]
      refine ⟨route?_eq_ok_iff.2 ⟨?_, ?_, ?_, rfl⟩, rfl⟩
      · rw [Path.toList_join hpath hq]
        split
        · exact fun hmem => (List.mem_append.1 hmem).elim hpathNull hnull
        · intro hmem
          rcases List.mem_append.1 hmem with hmem | hmem
          · exact hpathNull hmem
          · exact hnull ((List.mem_cons.1 hmem).resolve_left (by decide))
      · obtain ⟨between, htext⟩ := text_join hpath hq
        rw [htext]
        exact fun hempty => hpath (String.append_eq_empty_iff.1 hempty).1
      · rw [Path.text_join_eq hpath hq, String.utf8ByteSize_append]
        omega

omit h in
theorem isDot_enter_of_not_isDot (hpath : path.text ≠ "")
    (hisDot : isDot path = false) {q : String} (hq : '/' ∉ q.toList) :
    isDot (enter path q) = false := by
  by_cases hhere : q.toList = ['.']
  · have hcomponents := Path.components_join_of_ne hpath hq
    rw [hhere, show [['.']].filter (!Path.isIdle ·) = [] by decide,
      List.map_nil, List.append_nil] at hcomponents
    rw [enter_of_not_isDot hisDot, Bool.eq_false_iff, Ne, isDot_iff,
      hcomponents, ← isDot_iff, hisDot]
    exact Bool.false_ne_true
  · exact isDot_enter path hq hhere

theorem Stands.room_enter_le {q : String} (hq : '/' ∉ q.toList)
    (hdot : isDot path = true → q.toList ≠ []) :
    room (enter path q) ≤ size + added q := by
  have hfits := h.fits
  by_cases hempty : q = ""
  · subst hempty
    have hisDot : isDot path = false :=
      Bool.eq_false_iff.2 fun hisDot => hdot hisDot rfl
    have hroom := room_le (path.join "")
    rw [Path.join_empty_join_empty h.text_ne] at hroom
    rw [room, hisDot, if_neg Bool.false_ne_true] at hfits
    rw [enter_of_not_isDot hisDot, added, if_pos rfl]
    omega
  · have hsize := size_enter h.text_ne hq
    have hne : (enter path q).text ≠ "" := by
      intro hnone
      rw [hnone, String.utf8ByteSize_empty] at hsize
      exact hempty (String.utf8ByteSize_eq_zero_iff.1
        (Nat.eq_zero_of_add_eq_zero_left hsize.symm))
    have hroom := room_le (enter path q)
    rw [added, if_neg hempty]
    rcases Path.text_join_empty hne with ⟨htext, -⟩ | htext
    · rw [htext] at hroom
      omega
    · rw [htext, String.utf8ByteSize_append,
        show "/".utf8ByteSize = 1 by decide] at hroom
      omega

omit h in
/-- A dot stays one by dots only, and nothing else becomes one. -/
theorem isDot_of_enter (hpath : path.text ≠ "") {q : String}
    (hq : '/' ∉ q.toList) (hdot : isDot (enter path q) = true) :
    isDot path = true ∧ q.toList = ['.'] := by
  constructor
  · by_contra hisDot
    rw [isDot_enter_of_not_isDot hpath (Bool.eq_false_iff.2 hisDot) hq] at hdot
    cases hdot
  · by_contra hhere
    rw [isDot_enter path hq hhere] at hdot
    cases hdot

theorem Stands.enter {q : String} (hq : '/' ∉ q.toList)
    (hnull : '\x00' ∉ q.toList) (hdot : isDot path = true → q.toList ≠ [])
    (hsize : size + q.utf8ByteSize < 4096) {next : Arrival}
    (hstep : tree.walk arrival.linksLeft arrival.place [stepOf q.toList] =
      .ok next)
    (hdirectory : tree.isDirectoryAt next.place = true) :
    Stands tree (enter path q) (size + added q) next := by
  obtain ⟨hroute, hwalk⟩ := h.walk_enter hq hnull hdot hsize
  refine ⟨hroute, hwalk.trans hstep, hdirectory, h.room_enter_le hq hdot,
    fun hisDot => ?_⟩
  obtain ⟨hpath, hhere⟩ := isDot_of_enter h.text_ne hq hisDot
  rw [enter_of_isDot hpath]
  exact congrArg Path.mk (String.toList_inj.1 hhere)

end Stands

/-! ## Along an escaped path -/

/-- The part of a pattern that stands for a text. -/
def Part.ofText (text : List Char) : Part :=
  .name (text.map escaped)

/-- The path of a search after some parts. -/
def enterAll (path : Path) (parts : List (List Char)) : Path :=
  parts.foldl (fun path part => enter path (.ofList part)) path

/-- The number of bytes that parts add. -/
def addedAll (parts : List (List Char)) : Nat :=
  (parts.map fun part => added (.ofList part)).sum

/-- The number of bytes of parts, each with its slash. -/
def sizeAll (parts : List (List Char)) : Nat :=
  (parts.map fun part => (String.ofList part).utf8ByteSize + 1).sum

theorem enterAll_cons (path : Path) (text : List Char)
    (rest : List (List Char)) :
    enterAll path (text :: rest) = enterAll (enter path (.ofList text)) rest :=
  rfl

theorem addedAll_cons (text : List Char) (rest : List (List Char)) :
    addedAll (text :: rest) = added (.ofList text) + addedAll rest := by
  rw [addedAll, List.map_cons, List.sum_cons]
  rfl

theorem sizeAll_cons (text : List Char) (rest : List (List Char)) :
    sizeAll (text :: rest) = (String.ofList text).utf8ByteSize + 1 +
      sizeAll rest := by
  rw [sizeAll, List.map_cons, List.sum_cons]
  rfl

theorem added_le (q : String) : added q ≤ q.utf8ByteSize + 1 := by
  rw [added]
  split
  · exact Nat.zero_le _
  · exact Nat.le_refl _

theorem two_le_added (name : FileName) : 2 ≤ added name.text := by
  have hne := mt String.utf8ByteSize_eq_zero_iff.1 name.valid.1
  rw [added, if_neg name.valid.1]
  omega

theorem components_enter (path : Path) (name : FileName) :
    (enter path name.text).components =
      (if isDot path then [] else path.components) ++ [.name name.text] := by
  have hname := isName_text name
  cases hisDot : isDot path with
  | true =>
      rw [enter_of_isDot hisDot, Path.components_of_not_mem hname.1, Path.start,
        if_neg Bool.false_ne_true, if_neg hname.2.1, hname.componentOf_eq]
      rfl
  | false =>
      rw [enter_of_not_isDot hisDot, Path.components_join path hname]
      rfl

theorem fileName?_enter (path : Path) (name : FileName) :
    (enter path name.text).fileName? = some name.text := by
  rw [Path.fileName?, components_enter, List.getLast?_concat]
  rfl

section Parts

variable {directories : Bool} {tokens : List Token} {parts : List Part}

theorem matched_of_fileName? {name : String} (h : path.fileName? = some name)
    (depth : Nat) :
    matched tree directories depth path (.name tokens :: parts) =
      if accepts tokens name.toList then
        (proceed tree path parts).flatMap (visit tree directories depth)
      else [] := by
  rw [matched.eq_def, h, proceed]
  dsimp only
  split
  · split
    · rw [List.flatMap_singleton, visit]
    · rfl
  · rfl

/-- Of the names in a directory, a search goes on from those that
are accepted. -/
theorem flatMap_children {names : List FileName}
    (hdirectory : tree.isDirectory path = true)
    (hlist : tree.list path = .ok names) (depth : Nat) :
    (children tree path (.name tokens :: parts)).flatMap
        (visit tree directories (depth + 1)) =
      (names.filter fun name => accepts tokens name.text.toList).flatMap
        fun name =>
          (proceed tree (enter path name.text) parts).flatMap
            (visit tree directories depth) := by
  rw [children, if_pos hdirectory, hlist]
  dsimp only
  rw [List.flatMap_map]
  clear hlist
  induction names with
  | nil => rfl
  | cons name rest ih =>
      rw [List.flatMap_cons, ih, visit_name,
        matched_of_fileName? (fileName?_enter path name)]
      by_cases haccepts : accepts tokens name.text.toList = true
      · rw [if_pos haccepts, List.filter_cons, if_pos haccepts,
          List.flatMap_cons]
      · rw [if_neg haccepts, List.filter_cons, if_neg haccepts, List.nil_append]

theorem filter_accepts_escaped {names : List FileName} (hnames : names.Nodup)
    {name : FileName} (hname : name ∈ names) :
    (names.filter fun other => accepts (name.text.toList.map escaped)
      other.text.toList) =
      [name] := by
  have heq : ∀ other ∈ names,
      accepts (name.text.toList.map escaped) other.text.toList =
        (other == name) := by
    intro other _
    rw [Bool.eq_iff_iff, accepts_escaped_iff, beq_iff_eq, String.toList_inj]
    constructor
    · intro htext
      cases other
      cases name
      cases htext
      rfl
    · exact fun h => congrArg FileName.text h
  rw [List.filter_congr heq, List.filter_beq,
    List.count_eq_one_of_mem hnames hname]
  rfl

theorem proceed_of_ne_nil (hparts : parts ≠ []) (path : Path) :
    proceed tree path parts = candidates tree path parts :=
  if_neg (by rwa [List.isEmpty_iff])

/-- A part without special characters is stepped on. -/
theorem candidates_ofText {text : List Char}
    (htext : ∀ c ∈ text, isSpecial c = false) (hparts : parts ≠ [])
    (hdirectory : tree.isDirectory path = true)
    (hentry : tree.hasEntry (enter path (.ofList text)) = true) :
    candidates tree path (.ofText text :: parts) =
      candidates tree (enter path (.ofList text)) parts := by
  rw [Part.ofText, candidates_literal (literalText?_of_forall htext), if_pos,
    proceed_of_ne_nil hparts]
  split
  · exact hdirectory
  · exact hentry

/-- A part with a special character is looked for, and one name is it. -/
theorem flatMap_candidates_ofText {names : List FileName} {name : FileName}
    (htext : ∃ c ∈ name.text.toList, isSpecial c = true) (hparts : parts ≠ [])
    (hdirectory : tree.isDirectory path = true)
    (hlist : tree.list path = .ok names) (hname : name ∈ names) (depth : Nat) :
    (candidates tree path (.ofText name.text.toList :: parts)).flatMap
        (visit tree directories (depth + 1)) =
      (candidates tree (enter path name.text) parts).flatMap
        (visit tree directories depth) := by
  have hdots (dots : String) (hplain : ∀ c ∈ dots.toList, isSpecial c = false) :
      dotted tree path (name.text.toList.map escaped) parts dots = [] := by
    refine if_neg fun h => ?_
    rw [Bool.and_eq_true, accepts_escaped_iff] at h
    obtain ⟨c, hc, hspecial⟩ := htext
    rw [← h.2] at hc
    rw [hplain c hc] at hspecial
    cases hspecial
  rw [Part.ofText, candidates_name (literalText?_of_exists htext),
    hdots ".." (by simp [isSpecial]), hdots "." (by simp [isSpecial]),
    List.nil_append, List.nil_append, flatMap_children hdirectory hlist,
    filter_accepts_escaped (nodup_of_list hlist) hname, List.flatMap_singleton,
    proceed_of_ne_nil hparts]

theorem list_of_stands {size : Nat} {arrival : Arrival}
    (h : Stands tree path size arrival) :
    tree.list path = .ok ((tree.namesIn arrival.place).mergeSort nameLe) :=
  list_eq_ok_iff.2 ⟨_, h.resolve, h.directory, rfl⟩

/-- A part with a special character is a name, if there is a step for it. -/
theorem exists_name_of_names {place : Place} {text : List Char}
    (htext : ∃ c ∈ text, isSpecial c = true)
    (h : tree.Names place (stepOf text)) :
    ∃ name : FileName, name.text.toList = text ∧
      (tree.find? (name :: place)).isSome = true := by
  obtain ⟨c, hc, hspecial⟩ := htext
  have hne {plain : List Char} (hplain : ∀ c ∈ plain, isSpecial c = false) :
      text ≠ plain := by
    rintro rfl
    rw [hplain c hc] at hspecial
    cases hspecial
  rw [stepOf, if_neg (hne (by simp)), Step.ofPart,
    if_neg (hne (by simp [isSpecial])), if_neg (hne (by simp [isSpecial])),
    FileName.ofText?] at h
  split at h
  · next entry hentry =>
    split at hentry
    · cases hentry
      exact ⟨_, String.toList_ofList, h⟩
    · cases hentry
  · exact h.elim

/-- A search goes on from a directory to the one that a part of the path is the
name of; it goes down only where the part has to be looked for. -/
theorem flatMap_candidates_enter (directories : Bool) {size depth : Nat}
    {q : String} {arrival next : Arrival} (h : Stands tree path size arrival)
    (hnext : Stands tree (enter path q) (size + added q) next)
    (hstep : tree.walk arrival.linksLeft arrival.place [stepOf q.toList] =
      .ok next)
    (hsize : size < 4096) (hdepth : 8192 ≤ 2 * depth + size) :
    ∃ later, 8192 ≤ 2 * later + (size + added q) ∧
      ∀ parts : List Part, parts ≠ [] →
      (candidates tree path (.ofText q.toList :: parts)).flatMap
          (visit tree directories depth) =
        (candidates tree (enter path q) parts).flatMap
          (visit tree directories later) := by
  by_cases hspecial : ∃ c ∈ q.toList, isSpecial c = true
  · obtain ⟨name, hname, hfind⟩ :=
      exists_name_of_names hspecial (walk_single hstep).2
    obtain rfl := String.toList_inj.1 hname
    have hmore := two_le_added name
    obtain ⟨later, rfl⟩ : ∃ later, depth = later + 1 := ⟨depth - 1, by omega⟩
    refine ⟨later, by omega, fun parts hparts => ?_⟩
    exact flatMap_candidates_ofText hspecial hparts h.isDirectory
      (list_of_stands h)
      (mem_of_list h.resolve (list_of_stands h) hfind) later
  · have hplain : ∀ c ∈ q.toList, isSpecial c = false := by
      simpa using hspecial
    have hentry : tree.hasEntry (enter path (.ofList q.toList)) = true := by
      rw [String.ofList_toList]
      exact hasEntry_of_node (isDirectory_iff.1 hnext.isDirectory)
    refine ⟨depth, by omega, fun parts hparts => ?_⟩
    rw [candidates_ofText hplain hparts h.isDirectory hentry,
      String.ofList_toList]

/-- Where a path leads from directory to directory, a search for the path comes
to the last one, and goes on from there. -/
theorem descend (directories : Bool) {texts : List (List Char)}
    {size depth : Nat} {arrival last : Arrival}
    (h : Stands tree path size arrival)
    (htexts : ∀ text ∈ texts, '/' ∉ text ∧ '\x00' ∉ text)
    (hdot : isDot path = true → (texts.dropWhile (· = ['.'])).head? ≠ some [])
    (hwalk : tree.walk arrival.linksLeft arrival.place (texts.map stepOf) =
      .ok last)
    (hlast : tree.isDirectoryAt last.place = true)
    (hsize : size + sizeAll texts ≤ 4096) (hdepth : 8192 ≤ 2 * depth + size) :
    Stands tree (enterAll path texts) (size + addedAll texts) last ∧
      ∃ later, 0 < later ∧ ∀ parts : List Part, parts ≠ [] →
        (candidates tree path (texts.map .ofText ++ parts)).flatMap
            (visit tree directories depth) =
          (candidates tree (enterAll path texts) parts).flatMap
            (visit tree directories later) := by
  induction texts generalizing path size depth arrival with
  | nil =>
      rw [List.map_nil, walk_nil] at hwalk
      cases hwalk
      have hzero : sizeAll [] = 0 := rfl
      exact ⟨h, depth, by omega, fun _ _ => rfl⟩
  | cons text rest ih =>
      obtain ⟨⟨hslash, hnull⟩, hrest⟩ := List.forall_mem_cons.1 htexts
      rw [List.map_cons, ← List.singleton_append] at hwalk
      obtain ⟨next, hstep, hlater⟩ := walk_of_append hwalk
      obtain ⟨q, rfl⟩ : ∃ q : String, q.toList = text :=
        ⟨.ofList text, String.toList_ofList⟩
      rw [sizeAll_cons, String.ofList_toList] at hsize
      have hle := added_le q
      have hempty : isDot path = true → q.toList ≠ [] := by
        rintro hisDot hnil
        rw [hnil] at hdot
        exact hdot hisDot rfl
      have hnext := h.enter hslash hnull hempty (by omega) hstep
        (isDirectoryAt_of_walk hlater hlast)
      have hdots : isDot (enter path q) = true →
          (rest.dropWhile (· = ['.'])).head? ≠ some [] := by
        intro hisDot
        obtain ⟨hpath, hhere⟩ := isDot_of_enter h.text_ne hslash hisDot
        rw [hhere] at hdot
        exact hdot hpath
      obtain ⟨fewer, hfewer, hentered⟩ :=
        flatMap_candidates_enter directories h hnext hstep (by omega) hdepth
      obtain ⟨hstands, later, hpos, hsearch⟩ :=
        ih hnext hrest hdots hlater (by omega) hfewer
      rw [enterAll_cons, addedAll_cons, String.ofList_toList, ← Nat.add_assoc]
      refine ⟨hstands, later, hpos, fun parts hparts => ?_⟩
      rw [List.map_cons, List.cons_append,
        hentered _ (List.append_ne_nil_of_right_ne_nil _ hparts)]
      exact hsearch parts hparts

end Parts

end BenchReport.Glob
