import BenchReport.Proofs.LogFile.Extension
import BenchReport.Proofs.Text.ByteOrder

/-!
# The files of a directory in order

A directory lists each of its names once and in ascending order, a search keeps
that order, and among paths of one directory the order of paths is the order of
names. So a scan with a plain extension has nothing left to sort, and the names
that it gives ascend strictly (`pairwise_foundNames`).

A path that is found leads to the file that an entry of the directory is or
links to (`entryFile?_of_isFile`). The entry is one step from the directory, so
no file of another directory can stand in for it, whatever the directory is
called. In the other direction it is not enough that the entry is a file, since
a path can be too long to be opened, and a walk follows only so many links. But
what can be opened by joining the directory and a name is found, for the path of
the search is no longer than that.

None of this holds of a directory whose dots the search loses: there nothing is
found at all (`scan_of_losesDots`).
-/

namespace BenchReport

namespace FileTree

/-- The place of the file that an entry of a directory is or, if it is a link,
leads to. -/
def entryFile? (tree : FileTree) (directory : Place) (name : FileName) :
    Option Place :=
  match tree.walk linkLimit directory [.name name] with
  | .error _ => none
  | .ok arrival =>
    if (tree.find? arrival.place).any Node.isFile then
      some arrival.place else none

theorem entryFile?_of_walk {tree : FileTree} {directory : Place}
    {name : FileName} {arrival : Arrival} {node : Node}
    (hwalk : tree.walk linkLimit directory [.name name] = .ok arrival)
    (hfind : tree.find? arrival.place = some node)
    (hfile : node.isFile = true) :
    tree.entryFile? directory name = some arrival.place := by
  rw [entryFile?, hwalk]
  dsimp only
  rw [hfind, Option.any_some, if_pos hfile]

theorem text_lt_of_nameLe {a b : FileName} (hne : a ≠ b)
    (h : nameLe a b = true) :
    a.text < b.text := by
  have hle : ¬ b.text < a.text := of_decide_eq_true h
  rw [String.lt_iff] at hle ⊢
  refine (List.le_iff_lt_or_eq.1 (List.not_lt.1 hle)).resolve_right fun heq =>
    hne ?_
  cases a
  cases b
  cases String.toList_inj.1 heq
  rfl

/-- The names in a directory ascend strictly. -/
theorem pairwise_of_list {tree : FileTree} {path : Path} {names : List FileName}
    (h : tree.list path = .ok names) :
    names.Pairwise fun a b => a.text < b.text := by
  have hnodup := nodup_of_list h
  obtain ⟨place, -, -, rfl⟩ := list_eq_ok_iff.1 h
  have hsorted :=
    List.pairwise_mergeSort nameLe_trans nameLe_total (tree.namesIn place)
  exact (hnodup.and hsorted).imp fun h => text_lt_of_nameLe h.1 h.2

end FileTree

namespace LogFile

open Glob

variable {tree : FileTree} {directory : Path} {extension : String}

/-! ## Names that are found -/

/-- Paths that a search has for names in ascending order are sorted. -/
theorem mergeSort_enter (path : Path) {names : List FileName}
    (h : names.Pairwise fun a b => a.text < b.text) :
    (names.map fun name => enter path name.text).mergeSort Path.le =
      names.map fun name => enter path name.text := by
  refine List.mergeSort_of_pairwise (List.pairwise_map.2 (h.imp fun hlt => ?_))
  exact Path.le_of_components (components_enter path _)
    (components_enter path _) hlt

/-- The names that a scan finds. -/
def foundNames (tree : FileTree) (directory : Path) (extension : String)
    (names : List FileName) : List FileName :=
  (names.filter fun name =>
      accepts (suffixTokens extension.toList) name.text.toList).filter
    fun name => tree.isFile (enter (respelled directory) name.text)

theorem mem_foundNames {names : List FileName} {name : FileName} :
    name ∈ foundNames tree directory extension names ↔
      name ∈ names ∧ ('.' :: extension.toList) <:+ name.text.toList ∧
        tree.isFile (enter (respelled directory) name.text) = true := by
  rw [foundNames, List.mem_filter, List.mem_filter,
    accepts_suffix_iff, and_assoc]

theorem pairwise_foundNames {names : List FileName}
    (hlist : tree.list directory = .ok names) :
    (foundNames tree directory extension names).Pairwise fun a b =>
      a.text < b.text :=
  (FileTree.pairwise_of_list hlist).sublist
    (List.filter_sublist.trans List.filter_sublist)

theorem scan_eq_foundNames {names : List FileName}
    (hlist : tree.list directory = .ok names) (hdots : ¬ LosesDots directory)
    (hplain : IsPlain extension.toList) (hslash : '/' ∉ extension.toList) :
    scan tree directory extension =
      .ok ((foundNames tree directory extension names).map fun name =>
        enter (respelled directory) name.text) := by
  rw [scan_eq_of_list hlist hdots hplain hslash, List.filter_map,
    Function.comp_def, ← foundNames,
    mergeSort_enter _ (pairwise_foundNames hlist)]

/-! ## Where the paths lead -/

theorem entryFile?_of_isFile {names : List FileName}
    (hlist : tree.list directory = .ok names) (hdots : ¬ LosesDots directory)
    {place : Place} (hresolve : tree.resolve directory = .ok place)
    {name : FileName}
    (h : tree.isFile (enter (respelled directory) name.text) = true) :
    ∃ file, tree.entryFile? place name = some file ∧
      tree.resolve (enter (respelled directory) name.text) = .ok file := by
  obtain ⟨node, hnode, hfile⟩ := FileTree.isFile_iff.1 h
  obtain ⟨file, henter, hfind⟩ := FileTree.node_eq_ok_iff.1 hnode
  obtain ⟨arrival, hwalk, rfl⟩ :=
    walk_of_resolve_enter hdots hlist hresolve henter
  exact ⟨_, FileTree.entryFile?_of_walk hwalk hfind hfile, henter⟩

theorem isFile_enter_respelled {names : List FileName}
    (hlist : tree.list directory = .ok names) (hdots : ¬ LosesDots directory)
    {name : FileName} (h : tree.isFile (directory.join name.text) = true) :
    tree.isFile (enter (respelled directory) name.text) = true := by
  obtain ⟨node, hnode, hfile⟩ := FileTree.isFile_iff.1 h
  obtain ⟨place, hresolve, hfind⟩ := FileTree.node_eq_ok_iff.1 hnode
  have henter := resolve_enter_respelled hdots hlist hresolve
  exact FileTree.isFile_iff.2
    ⟨node, FileTree.node_eq_ok_iff.2 ⟨place, henter, hfind⟩, hfile⟩

/-! ## All directories -/

/-- A directory that cannot be listed is not found. In any other directory, a
scan with a plain extension finds names of the directory that end with a dot and
the extension, in strictly ascending order of their bytes. Each of them is a
file or a link to one, and its path leads there; and none is missing that the
directory and the name lead to. -/
theorem scan_exact (tree : FileTree) (directory : Path) {extension : String}
    (hextension : ∀ c ∈ extension.toList, c ≠ '*' ∧ c ≠ '?' ∧
      c ≠ '[' ∧ c ≠ '/') :
    (∀ e, tree.list directory = .error e →
      scan tree directory extension = .error (.directoryNotFound directory)) ∧
    ∀ names place, tree.list directory = .ok names →
      tree.resolve directory = .ok place →
      ¬ LosesDots directory → ∃ found : List FileName,
        scan tree directory extension =
          .ok (found.map fun name => enter (respelled directory) name.text) ∧
        (found.Pairwise fun a b => BytesBefore a.text b.text) ∧
        (∀ name ∈ found, name ∈ names ∧ ('.' :: extension.toList) <:+
          name.text.toList ∧
          ∃ file, tree.entryFile? place name = some file ∧
            tree.resolve (enter (respelled directory) name.text) = .ok file) ∧
        ∀ name ∈ names, ('.' :: extension.toList) <:+ name.text.toList →
          tree.isFile (directory.join name.text) = true → name ∈ found := by
  have hplain : IsPlain extension.toList := fun c hc =>
    ⟨(hextension c hc).2.1, (hextension c hc).1, (hextension c hc).2.2.1⟩
  have hslash : '/' ∉ extension.toList :=
    fun hmem => (hextension _ hmem).2.2.2 rfl
  refine ⟨fun e he => by rw [scan, he],
    fun names place hlist hresolve hdots => ?_⟩
  refine ⟨foundNames tree directory extension names,
    scan_eq_foundNames hlist hdots hplain hslash,
    (pairwise_foundNames hlist).imp bytesBefore_iff.2, fun name hname => ?_, ?_⟩
  · obtain ⟨hmem, hsuffix, hfile⟩ := mem_foundNames.1 hname
    exact ⟨hmem, hsuffix, entryFile?_of_isFile hlist hdots hresolve hfile⟩
  · intro name hmem hsuffix hfile
    exact mem_foundNames.2 ⟨hmem, hsuffix,
      isFile_enter_respelled hlist hdots hfile⟩

/-- A directory that is named by a star, beside one that a star stands for. -/
def starred : FileTree where
  entries := [([⟨"*", by decide⟩], .directory),
    ([⟨"b.x", by decide⟩, ⟨"*", by decide⟩], .file []),
    ([⟨"a.x", by decide⟩, ⟨"*", by decide⟩], .link "b.x"),
    ([⟨"c.x", by decide⟩, ⟨"*", by decide⟩], .directory),
    ([⟨"d.x", by decide⟩, ⟨"*", by decide⟩], .link "e.x"),
    ([⟨"s", by decide⟩], .directory),
    ([⟨"e.x", by decide⟩, ⟨"s", by decide⟩], .file [])]
  distinct := by decide

/-- The file and the link to it are found, and neither the directory nor the
broken link is. -/
theorem scan_exact_starred :
    ∃ found : List FileName,
      scan starred ⟨"*"⟩ "x" =
        .ok (found.map fun name => enter (respelled ⟨"*"⟩) name.text) ∧
      ⟨"a.x", by decide⟩ ∈ found ∧ ⟨"b.x", by decide⟩ ∈ found ∧
      ⟨"c.x", by decide⟩ ∉ found ∧ ⟨"d.x", by decide⟩ ∉ found := by
  have hextension :
      ∀ c ∈ "x".toList, c ≠ '*' ∧ c ≠ '?' ∧ c ≠ '[' ∧ c ≠ '/' := by simp
  have hresolve : starred.resolve ⟨"*"⟩ = .ok [⟨"*", by decide⟩] := rfl
  obtain ⟨found, hscan, -, hsound, hcomplete⟩ :=
    (scan_exact starred ⟨"*"⟩ hextension).2 _ _
      (FileTree.list_eq_ok_iff.2 ⟨_, hresolve, by decide, rfl⟩) hresolve
      (by rintro ⟨-, h⟩; exact absurd h (by decide))
  have hmissing (name : FileName)
      (h : starred.entryFile? [⟨"*", by decide⟩] name = none) :
      name ∉ found := by
    intro hname
    obtain ⟨-, -, file, hfile, -⟩ := hsound name hname
    cases h.symm.trans hfile
  refine ⟨found, hscan, ?_, ?_, hmissing _ (by decide), hmissing _ (by decide)⟩
  · exact hcomplete _ (List.mem_mergeSort.2 (by decide)) (by decide) (by decide)
  · exact hcomplete _ (List.mem_mergeSort.2 (by decide)) (by decide) (by decide)

/-! ## Directories whose dots are lost -/

/-- In a directory whose dots the search loses, nothing is found. -/
theorem scan_of_losesDots {names : List FileName}
    (hlist : tree.list directory = .ok names) (hdots : LosesDots directory)
    (hplain : IsPlain extension.toList) (hslash : '/' ∉ extension.toList) :
    scan tree directory extension = .ok [] := by
  obtain ⟨_, hresolve, -, -⟩ := FileTree.list_eq_ok_iff.1 hlist
  have hne := FileTree.text_ne_of_resolve hresolve
  refine scan_eq_ok_iff.2 ⟨names, _, hlist,
    read_patternText hne hplain hslash, ?_⟩
  rw [search_of_losesDots hdots]
  exact List.mergeSort_nil

/-- A file in the directory where relative paths start. -/
def loneFile : FileTree where
  entries := [([⟨"a.txt", by decide⟩], .file [])]
  distinct := by decide

/-- The file is listed and can be opened by its directory and name, and a scan
of the directory does not find it. -/
theorem scan_dot_slash :
    loneFile.list ⟨"./"⟩ = .ok [⟨"a.txt", by decide⟩] ∧
      loneFile.isFile ((Path.mk "./").join "a.txt") = true ∧
      scan loneFile ⟨"./"⟩ "txt" = .ok [] := by
  have hlist : loneFile.list ⟨"./"⟩ = .ok [⟨"a.txt", by decide⟩] :=
    FileTree.list_eq_ok_iff.2 ⟨[], rfl, rfl, List.mergeSort_singleton _⟩
  refine ⟨hlist, by decide,
    scan_of_losesDots hlist ⟨by decide, by decide⟩ ?_ (by decide)⟩
  simp [IsPlain]

end LogFile

end BenchReport
