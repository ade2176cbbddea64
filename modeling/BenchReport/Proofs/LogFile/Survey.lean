import BenchReport.Proofs.Glob.Removal
import BenchReport.Proofs.LogFile.Scan
import BenchReport.Proofs.Samples.Grouping

/-!
# A survey accounts for every log file

Each path that a scan gives is read once, and what comes of it is a run, a
rejection or a failure to read; `Surveyed` says so path by path, in the order of
the paths. The samples are those of the runs, so that the numbers of times in
all groups and of skipped files add up to the number of paths.

A skipped file has no say in the samples, and this holds also of its being
there. The files without a run are of one kind, whether they are rejected for
what they hold or cannot be read, and the entry of a skipped file leads to such
a file only. Taking entries like that away leaves everything else where it was
(`Glob.search_without`), so another scan finds the same files with a run, in the
same order.
-/

namespace BenchReport.LogFile

variable {tree : FileTree}

/-! ## Outcomes -/

/-- What comes of files, one after the other: the runs that their logs tell of,
and what is said of the files that are rejected or cannot be read. -/
inductive Surveyed (tree : FileTree) :
    List Path → List Run → List Skipped → Prop where
  | nil : Surveyed tree [] [] []
  | accepted {path : Path} {paths : List Path} {bytes : List UInt8} {run : Run}
      {runs : List Run} {skipped : List Skipped}
      (hread : tree.read path = .ok bytes)
      (hlog : Run.ofLog (Utf8.decodeLossy bytes) = .ok run)
      (rest : Surveyed tree paths runs skipped) :
      Surveyed tree (path :: paths) (run :: runs) skipped
  | rejected {path : Path} {paths : List Path} {bytes : List UInt8}
      {rejection : Rejection} {runs : List Run} {skipped : List Skipped}
      (hread : tree.read path = .ok bytes)
      (hlog : Run.ofLog (Utf8.decodeLossy bytes) = .error rejection)
      (rest : Surveyed tree paths runs skipped) :
      Surveyed tree (path :: paths) runs (.rejected path rejection :: skipped)
  | unreadable {path : Path} {paths : List Path} {error : FileError}
      {runs : List Run} {skipped : List Skipped}
      (hread : tree.read path = .error error)
      (rest : Surveyed tree paths runs skipped) :
      Surveyed tree (path :: paths) runs (.unreadable ⟨path, error⟩ :: skipped)

/-- Whether no run is told of by what is found; a file that cannot be read tells
of none. -/
def IsSpare (node : Node) : Prop :=
  ∀ bytes run, node = .file bytes → Run.ofLog (Utf8.decodeLossy bytes) ≠ .ok run

/-- The path of a skipped file. -/
def Skipped.path : Skipped → Path
  | rejected path _ => path
  | unreadable e => e.path

/-- The runs of files. -/
def runsOf (tree : FileTree) (paths : List Path) : List Run :=
  paths.filterMap fun path => (examine tree path).toOption

theorem samples_surveyOf (tree : FileTree) (paths : List Path) :
    (surveyOf tree paths).samples = .ofList (runsOf tree paths) := by
  rw [surveyOf, runsOf, List.filterMap_map]
  rfl

theorem examine_of_read_error {path : Path} {error : FileError}
    (h : tree.read path = .error error) :
    examine tree path = .error (.unreadable ⟨path, error⟩) := by
  rw [examine, read, h]

theorem examine_of_read {path : Path} {bytes : List UInt8}
    (h : tree.read path = .ok bytes) :
    examine tree path = (Run.ofLog (Utf8.decodeLossy bytes)).mapError
      (.rejected path) := by
  rw [examine, read, h]
  dsimp only
  cases Run.ofLog (Utf8.decodeLossy bytes) <;> rfl

theorem surveyed_surveyOf (tree : FileTree) (paths : List Path) :
    Surveyed tree paths (runsOf tree paths) (surveyOf tree paths).skipped := by
  induction paths with
  | nil => exact .nil
  | cons path rest ih =>
      rw [runsOf, surveyOf] at ih ⊢
      dsimp only at ih ⊢
      rw [List.map_cons, List.filterMap_cons, List.filterMap_cons]
      cases hread : tree.read path with
      | error error =>
          rw [examine_of_read_error hread]
          exact .unreadable hread ih
      | ok bytes =>
          rw [examine_of_read hread]
          cases hlog : Run.ofLog (Utf8.decodeLossy bytes) with
          | ok run => exact .accepted hread hlog ih
          | error rejection => exact .rejected hread hlog ih

theorem Surveyed.length_add_length {paths : List Path} {runs : List Run}
    {skipped : List Skipped} (h : Surveyed tree paths runs skipped) :
    runs.length + skipped.length = paths.length := by
  induction h with
  | nil => rfl
  | accepted _ _ _ ih => rw [List.length_cons, List.length_cons]; omega
  | rejected _ _ _ ih => rw [List.length_cons, List.length_cons]; omega
  | unreadable _ _ ih => rw [List.length_cons, List.length_cons]; omega

theorem Surveyed.path_mem {paths : List Path} {runs : List Run}
    {skipped : List Skipped} (h : Surveyed tree paths runs skipped)
    {path : Path} (hpath : path ∈ skipped.map Skipped.path) :
    path ∈ paths ∧ ∀ bytes run, tree.read path = .ok bytes →
      Run.ofLog (Utf8.decodeLossy bytes) ≠ .ok run := by
  induction h with
  | nil => cases hpath
  | accepted _ _ _ ih =>
      obtain ⟨hmem, hspare⟩ := ih hpath
      exact ⟨List.mem_cons_of_mem _ hmem, hspare⟩
  | rejected hread hlog _ ih =>
      rcases List.mem_cons.1 hpath with rfl | hpath
      · refine ⟨List.mem_cons_self .., fun bytes run hbytes hrun => ?_⟩
        cases hread.symm.trans hbytes
        cases hlog.symm.trans hrun
      · obtain ⟨hmem, hspare⟩ := ih hpath
        exact ⟨List.mem_cons_of_mem _ hmem, hspare⟩
  | unreadable hread _ ih =>
      rcases List.mem_cons.1 hpath with rfl | hpath
      · refine ⟨List.mem_cons_self .., fun bytes run hbytes => ?_⟩
        cases hread.symm.trans hbytes
      · obtain ⟨hmem, hspare⟩ := ih hpath
        exact ⟨List.mem_cons_of_mem _ hmem, hspare⟩

/-! ## Without skipped files -/

theorem examine_eq_ok_iff {path : Path} {run : Run} :
    examine tree path = .ok run ↔ ∃ bytes, tree.node path = .ok (.file bytes) ∧
      Run.ofLog (Utf8.decodeLossy bytes) = .ok run := by
  cases hread : tree.read path with
  | error error =>
      rw [examine_of_read_error hread]
      refine iff_of_false nofun ?_
      rintro ⟨bytes, hnode, -⟩
      cases hread.symm.trans (FileTree.read_eq_ok_iff.2 hnode)
  | ok bytes =>
      rw [examine_of_read hread]
      constructor
      · intro h
        refine ⟨bytes, FileTree.read_eq_ok_iff.1 hread, ?_⟩
        cases hlog : Run.ofLog (Utf8.decodeLossy bytes) with
        | ok other =>
            rw [hlog] at h
            exact congrArg Except.ok (Except.ok.inj h)
        | error rejection =>
            rw [hlog] at h
            cases h
      · rintro ⟨other, hnode, hlog⟩
        cases hread.symm.trans (FileTree.read_eq_ok_iff.2 hnode)
        rw [hlog]
        rfl

/-- Whether the log at a path tells of a run. -/
def hasRun (tree : FileTree) (path : Path) : Bool :=
  (examine tree path).toOption.isSome

theorem node_of_hasRun {path : Path} (h : hasRun tree path = true) :
    ∃ node, tree.node path = .ok node ∧ node.isFile = true ∧
      ¬ IsSpare node := by
  obtain ⟨run, hrun⟩ := Option.isSome_iff_exists.1 h
  obtain ⟨bytes, hnode, hlog⟩ :=
    examine_eq_ok_iff.1 (toOption_eq_some_iff.1 hrun)
  exact ⟨_, hnode, rfl, fun hspare => hspare bytes run rfl hlog⟩

theorem runsOf_filter_hasRun (tree : FileTree) (paths : List Path) :
    runsOf tree (paths.filter (hasRun tree)) = runsOf tree paths := by
  rw [runsOf, runsOf, List.filterMap_filter]
  congr 1
  funext path
  rw [hasRun]
  cases (examine tree path).toOption <;> rfl

/-- Of the paths that a scan takes from a search, those with a run are those
with a run that the search has found, sorted. -/
theorem filter_hasRun_sorted (paths : List Path) {isFile : Path → Bool}
    (hfile : ∀ path, hasRun tree path = true → isFile path = true) :
    ((paths.filter isFile).mergeSort Path.le).filter (hasRun tree) =
      (paths.filter (hasRun tree)).mergeSort Path.le := by
  rw [filter_mergeSort Path.le_trans Path.le_total, List.filter_filter]
  congr 1
  refine List.filter_congr fun path _ => ?_
  cases hrun : hasRun tree path with
  | false => rfl
  | true => rw [hfile path hrun]; rfl

theorem isFile_of_hasRun {path : Path} (h : hasRun tree path = true) :
    tree.isFile path = true := by
  obtain ⟨node, hnode, hfile, -⟩ := node_of_hasRun h
  exact FileTree.isFile_iff.2 ⟨node, hnode, hfile⟩

section Without

variable {places : List Place}
  (hplaces : ∀ place ∈ places, tree.LeadsTo IsSpare place)

include hplaces

theorem toOption_examine_without (path : Path) :
    (examine (tree.without places) path).toOption =
      (examine tree path).toOption := by
  refine Option.ext fun run => ?_
  rw [toOption_eq_some_iff, toOption_eq_some_iff, examine_eq_ok_iff,
    examine_eq_ok_iff]
  refine exists_congr fun bytes => and_congr_left fun hlog =>
    ⟨FileTree.node_of_without, ?_⟩
  intro hnode
  exact (FileTree.node_without hplaces hnode).resolve_right
    fun hother => hother.2 rfl bytes run rfl hlog

theorem runsOf_without : runsOf (tree.without places) = runsOf tree := by
  funext paths
  rw [runsOf, runsOf]
  congr 1
  exact funext (toOption_examine_without hplaces)

theorem isFile_without {path : Path} (h : hasRun tree path = true) :
    (tree.without places).isFile path = true := by
  obtain ⟨node, hnode, hfile, hspare⟩ := node_of_hasRun h
  exact FileTree.isFile_iff.2
    ⟨node, (FileTree.node_without hplaces hnode).resolve_right
      fun hother => hspare (hother.2 hfile), hfile⟩

theorem scan_without {directory : Path} {extension : String} {paths : List Path}
    (h : scan tree directory extension = .ok paths) :
    ∃ later, scan (tree.without places) directory extension = .ok later ∧
      runsOf (tree.without places) later = runsOf tree paths := by
  obtain ⟨names, pattern, hlist, hpattern, rfl⟩ := scan_eq_ok_iff.1 h
  obtain ⟨place, hresolve, -, -⟩ := FileTree.list_eq_ok_iff.1 hlist
  have hsearch := Glob.search_without hplaces (fun _ => node_of_hasRun)
    (Glob.isStep_of_mem_parts hpattern)
  refine ⟨_, scan_eq_ok_iff.2
    ⟨_, pattern, FileTree.list_without hplaces hresolve hlist, hpattern, rfl⟩,
    ?_⟩
  rw [runsOf_without hplaces, ← runsOf_filter_hasRun,
    filter_hasRun_sorted _ fun _ => isFile_without hplaces, hsearch,
    ← filter_hasRun_sorted _ fun _ => isFile_of_hasRun, runsOf_filter_hasRun]

end Without

theorem isFile_of_mem_scan {directory : Path} {extension : String}
    {paths : List Path} (h : scan tree directory extension = .ok paths)
    {path : Path} (hpath : path ∈ paths) :
    tree.isFile path = true := by
  obtain ⟨_, _, -, -, rfl⟩ := scan_eq_ok_iff.1 h
  exact (List.mem_filter.1 (List.mem_mergeSort.1 hpath)).2

/-- What is skipped is a file without a run, whether it was read or not. -/
theorem isSpare_of_mem_skipped {paths : List Path} {path : Path} {node : Node}
    (hpath : path ∈ (surveyOf tree paths).skipped.map Skipped.path)
    (hnode : tree.node path = .ok node) : IsSpare node := by
  rintro bytes run rfl
  exact ((surveyed_surveyOf tree paths).path_mem hpath).2 bytes run
    (FileTree.read_eq_ok_iff.2 hnode)

/-! ## A directory of two logs -/

/-- A directory with a log of a run and with a link to a log of none. -/
def twoLogs : FileTree where
  entries := [([⟨"logs", by decide⟩], .directory),
    ([⟨"bad.x", by decide⟩, ⟨"logs", by decide⟩], .link "../old"),
    ([⟨"good.x", by decide⟩, ⟨"logs", by decide⟩],
      .file
        (Utf8.encode "Time in seconds = 4\nVERIFICATION SUCCESSFUL".toList)),
    ([⟨"old", by decide⟩], .file [])]
  distinct := by decide

theorem list_twoLogs :
    twoLogs.list ⟨"logs"⟩ = .ok [⟨"bad.x", by decide⟩, ⟨"good.x", by decide⟩] :=
  FileTree.list_eq_ok_iff.2 ⟨[⟨"logs", by decide⟩], rfl, by decide,
    List.mergeSort_of_pairwise (by decide)⟩

theorem scan_twoLogs :
    scan twoLogs ⟨"logs"⟩ "x" = .ok [⟨"logs/bad.x"⟩, ⟨"logs/good.x"⟩] := by
  rw [scan_of_forall list_twoLogs (by decide) (by decide) (by decide)
    (by decide) (by decide)]
  exact congrArg Except.ok (List.mergeSort_of_pairwise (by decide))

/-! ## All files -/

/-- Whatever files are read, each is a time or is skipped, in order. The survey
of a directory fails as its scan fails and never otherwise, and it reads the
scanned files in ascending order. When skipped files are taken away, which
leaves none of their paths an entry, the next survey has the same samples. -/
theorem survey_accounts (tree : FileTree) (directory : Path)
    (extension : String) :
    (∀ paths, ∃ runs, Surveyed tree paths runs (surveyOf tree paths).skipped ∧
      (surveyOf tree paths).samples = .ofList runs ∧
      ((surveyOf tree paths).samples.groups.map (·.times.length)).sum
        + (surveyOf tree paths).skipped.length = paths.length) ∧
    (∀ e, survey tree directory extension = .error e ↔
      scan tree directory extension = .error e) ∧
    ∀ paths, scan tree directory extension = .ok paths →
      paths.Pairwise (fun p q => p.le q = true) ∧
      survey tree directory extension = .ok (surveyOf tree paths) ∧
      ∀ removed, (∀ path ∈ removed, path ∈
        (surveyOf tree paths).skipped.map Skipped.path) →
        (∀ path ∈ removed, ∀ place, tree.entryPlace? path = some place →
          (tree.removeAll removed).hasEntry path = false) ∧
        (tree.Grounded tree.start → ∀ path ∈ removed,
          (tree.removeAll removed).hasEntry path = false) ∧
        ∃ later, survey (tree.removeAll removed) directory extension =
          .ok later ∧
          later.samples = (surveyOf tree paths).samples := by
  refine ⟨fun paths => ?_, fun e => ?_, fun paths hscan =>
    ⟨?_, ?_, fun removed hremoved => ?_⟩⟩
  · have hsurveyed := surveyed_surveyOf tree paths
    refine ⟨_, hsurveyed, samples_surveyOf tree paths, ?_⟩
    rw [samples_surveyOf, Samples.sum_length_ofList,
      hsurveyed.length_add_length]
  · rw [survey]
    cases scan tree directory extension with
    | error e' =>
        constructor
        · exact fun h => congrArg Except.error (Except.error.inj h)
        · exact fun h => congrArg Except.error (Except.error.inj h)
    | ok paths => exact iff_of_false nofun nofun
  · obtain ⟨_, _, -, -, rfl⟩ := scan_eq_ok_iff.1 hscan
    exact List.pairwise_mergeSort Path.le_trans Path.le_total _
  · rw [survey, hscan]
    rfl
  · have hfiles : ∀ path ∈ removed, tree.isFile path = true := fun path hpath =>
      isFile_of_mem_scan hscan
        ((surveyed_surveyOf tree paths).path_mem (hremoved path hpath)).1
    refine ⟨fun path hpath place hplace => ?_, fun hstart path hpath => ?_, ?_⟩
    · exact FileTree.hasEntry_removeAll hpath hplace
    · obtain ⟨place, hplace⟩ :=
        FileTree.entryPlace?_of_isFile hstart (hfiles path hpath)
      exact FileTree.hasEntry_removeAll hpath hplace
    · have hplaces : ∀ place ∈ removed.filterMap tree.entryPlace?,
          tree.LeadsTo IsSpare place := by
        intro place hplace
        obtain ⟨path, hpath, hentry⟩ := List.mem_filterMap.1 hplace
        obtain ⟨node, hnode, hfile⟩ := FileTree.isFile_iff.1 (hfiles path hpath)
        have hspare := isSpare_of_mem_skipped (hremoved path hpath) hnode
        exact FileTree.leadsTo_of_entryPlace? hnode hfile hspare hentry
      obtain ⟨later, hlater, hruns⟩ := scan_without hplaces hscan
      refine ⟨surveyOf (tree.removeAll removed) later, ?_, ?_⟩
      · rw [survey, FileTree.removeAll, hlater]
        rfl
      · rw [samples_surveyOf, samples_surveyOf]
        exact congrArg Samples.ofList hruns

/-- The same directory with a log in it that no one may read. -/
def guardedLogs : FileTree where
  entries := [([⟨"logs", by decide⟩], .directory),
    ([⟨"bad.x", by decide⟩, ⟨"logs", by decide⟩], .link "../old"),
    ([⟨"closed.x", by decide⟩, ⟨"logs", by decide⟩],
      .blocked ⟨false, 13, "Permission denied"⟩),
    ([⟨"good.x", by decide⟩, ⟨"logs", by decide⟩],
      .file
        (Utf8.encode "Time in seconds = 4\nVERIFICATION SUCCESSFUL".toList)),
    ([⟨"old", by decide⟩], .file [])]
  distinct := by decide

theorem scan_guardedLogs :
    scan guardedLogs ⟨"logs"⟩ "x" =
      .ok [⟨"logs/bad.x"⟩, ⟨"logs/closed.x"⟩, ⟨"logs/good.x"⟩] := by
  have hlist : guardedLogs.list ⟨"logs"⟩ =
      .ok [⟨"bad.x", by decide⟩, ⟨"closed.x", by decide⟩,
        ⟨"good.x", by decide⟩] :=
    FileTree.list_eq_ok_iff.2 ⟨[⟨"logs", by decide⟩], rfl, by decide,
      List.mergeSort_of_pairwise (by decide)⟩
  rw [scan_of_forall hlist (by decide) (by decide) (by decide) (by decide)
    (by decide)]
  exact congrArg Except.ok (List.mergeSort_of_pairwise (by decide))

/-- The link and the log that cannot be read are skipped, and taking both away
leaves the one run. -/
theorem survey_accounts_guarded_logs :
    let paths : List Path :=
      [⟨"logs/bad.x"⟩, ⟨"logs/closed.x"⟩, ⟨"logs/good.x"⟩]
    let removed : List Path := [⟨"logs/bad.x"⟩, ⟨"logs/closed.x"⟩]
    scan guardedLogs ⟨"logs"⟩ "x" = .ok paths ∧
      (surveyOf guardedLogs paths).skipped =
        [.rejected ⟨"logs/bad.x"⟩ .unverified,
          .unreadable ⟨⟨"logs/closed.x"⟩,
            .blocked ⟨false, 13, "Permission denied"⟩⟩] ∧
      (surveyOf guardedLogs paths).samples.groups = [⟨{}, [.ofNat 4]⟩] ∧
      (∀ path ∈ removed, (guardedLogs.removeAll removed).hasEntry path =
        false) ∧
      ∃ later, survey (guardedLogs.removeAll removed) ⟨"logs"⟩ "x" = .ok later ∧
        later.samples = (surveyOf guardedLogs paths).samples := by
  intro paths removed
  have hskipped : (surveyOf guardedLogs paths).skipped =
      [.rejected ⟨"logs/bad.x"⟩ .unverified,
        .unreadable ⟨⟨"logs/closed.x"⟩,
          .blocked ⟨false, 13, "Permission denied"⟩⟩] := by
    decide +kernel
  obtain ⟨-, -, hremoved⟩ :=
    (survey_accounts guardedLogs ⟨"logs"⟩ "x").2.2 _ scan_guardedLogs
  obtain ⟨-, hgone, hlater⟩ := hremoved removed (by rw [hskipped]; decide)
  exact ⟨scan_guardedLogs, hskipped, by decide +kernel,
    hgone FileTree.grounded_nil, hlater⟩

end BenchReport.LogFile
