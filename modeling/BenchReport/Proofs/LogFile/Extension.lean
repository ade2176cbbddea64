import BenchReport.Program.LogReport
import BenchReport.Proofs.LogFile.Survey

/-!
# Extensions of log files

An extension that is accepted holds no slash, no star and no question mark, so
what could be special in it is an opening bracket. Without one the extension is
plain (`plain_of_valid`), and a scan gives the files of the names that end with
it (`scan_literal`).

With a bracket the extension is a class of characters or no pattern at all
(`scan_bracket`).
-/

namespace BenchReport.LogFile

open Glob

variable {tree : FileTree} {directory : Path}

theorem plain_of_valid {s : LogSettings} (h : s.hasInvalidExtension = false)
    (hbracket : '[' ∉ s.extension.toList) :
    IsPlain s.extension.toList ∧ '/' ∉ s.extension.toList := by
  rw [LogSettings.hasInvalidExtension, Bool.or_eq_false_iff, List.any_eq_false]
    at h
  have hvalid : ∀ c ∈ s.extension.toList, c ≠ '/' ∧ c ≠ '*' ∧ c ≠ '?' := by
    simpa only [Bool.or_eq_true, decide_eq_true_eq, not_or, and_assoc] using h.2
  refine ⟨fun c hc => ⟨(hvalid c hc).2.2, (hvalid c hc).2.1, ?_⟩,
    fun hmem => (hvalid _ hmem).1 rfl⟩
  rintro rfl
  exact hbracket hc

/-- Accepted extensions without an opening bracket are taken literally: whatever
a scan finds is a file whose name in the directory ends with a dot and the
extension, and no such file is missing that the directory and the name
lead to. -/
theorem scan_literal {names : List FileName} {s : LogSettings}
    (hlist : tree.list directory = .ok names) (hdots : ¬ LosesDots directory)
    (hvalid : s.hasInvalidExtension = false)
    (hbracket : '[' ∉ s.extension.toList) :
    ∃ paths, scan tree directory s.extension = .ok paths ∧
      (∀ path ∈ paths, tree.isFile path = true ∧ ∃ name ∈ names,
        path.fileName? = some name.text ∧ ('.' :: s.extension.toList) <:+
          name.text.toList) ∧
      ∀ name ∈ names, ('.' :: s.extension.toList) <:+ name.text.toList →
        tree.isFile (directory.join name.text) = true → ∃ path ∈ paths,
          path.fileName? = some name.text ∧
            tree.resolve path = tree.resolve (directory.join name.text) := by
  obtain ⟨hplain, hslash⟩ := plain_of_valid hvalid hbracket
  refine ⟨_, scan_eq_of_list hlist hdots hplain hslash,
    fun path hpath => ?_, ?_⟩
  · obtain ⟨hpath, hfile⟩ := List.mem_filter.1 (List.mem_mergeSort.1 hpath)
    obtain ⟨name, hname, rfl⟩ := List.mem_map.1 hpath
    obtain ⟨hmem, haccepts⟩ := List.mem_filter.1 hname
    exact ⟨hfile, name, hmem, fileName?_enter _ name,
      accepts_suffix_iff.1 haccepts⟩
  · intro name hname hsuffix hfile
    obtain ⟨node, hnode, hnodeFile⟩ := FileTree.isFile_iff.1 hfile
    obtain ⟨place, hresolve, hfind⟩ := FileTree.node_eq_ok_iff.1 hnode
    have henter := resolve_enter_respelled hdots hlist hresolve
    refine ⟨enter (respelled directory) name.text, ?_, fileName?_enter _ name,
      henter.trans hresolve.symm⟩
    refine List.mem_mergeSort.2
      (List.mem_filter.2 ⟨List.mem_map.2 ⟨name, ?_, rfl⟩, ?_⟩)
    · exact List.mem_filter.2 ⟨hname, accepts_suffix_iff.2 hsuffix⟩
    · exact FileTree.isFile_iff.2
        ⟨node, FileTree.node_eq_ok_iff.2 ⟨place, henter, hfind⟩, hnodeFile⟩

/-- Both logs have the extension. -/
theorem scan_literal_two_logs :
    ∃ paths, scan twoLogs ⟨"logs"⟩ "x" = .ok paths ∧
      (∃ path ∈ paths, path.fileName? = some "bad.x") ∧
      ∃ path ∈ paths, path.fileName? = some "good.x" := by
  obtain ⟨paths, hscan, -, hall⟩ :=
    scan_literal (s := { extension := "x" }) list_twoLogs
      (by rintro ⟨-, h⟩; exact absurd h (by decide)) (by decide) (by decide)
  obtain ⟨bad, hbad, hbadName, -⟩ :=
    hall ⟨"bad.x", by decide⟩ (by decide) (by decide) (by decide)
  obtain ⟨good, hgood, hgoodName, -⟩ :=
    hall ⟨"good.x", by decide⟩ (by decide) (by decide) (by decide)
  exact ⟨paths, hscan, ⟨bad, hbad, hbadName⟩, good, hgood, hgoodName⟩

/-- A lone bracket is accepted as an extension, and no directory can be searched
for it. -/
theorem scan_bracket :
    ({ extension := "[" } : LogSettings).hasInvalidExtension = false ∧
      twoLogs.isDirectory ⟨"logs"⟩ = true ∧
      scan twoLogs ⟨"logs"⟩ "[" =
        .error (.pattern ⟨"logs"⟩ ⟨7, .openBracket⟩) := by
  refine ⟨by decide, by decide, ?_⟩
  rw [scan, list_twoLogs]
  decide +kernel

end BenchReport.LogFile
