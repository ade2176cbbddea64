import BenchReport.LogFile.Directory
import BenchReport.Proofs.Glob.Directory

/-!
# Scans with plain extensions

A scan lists the directory, reads the pattern of its log files, and keeps the
files among what is found for the pattern (`scan_eq_ok_iff`). The directory is
escaped in that pattern and the extension is not. If nothing in the extension is
special, the pattern is the directory, part by part, and then the names that end
with a dot and the extension (`read_patternText`), so that a scan gives the
files of these names that are listed in the directory (`scan_eq_of_list`).
-/

namespace BenchReport.LogFile

open Glob

variable {tree : FileTree} {directory : Path} {extension : String}

theorem scan_eq_ok_iff {directory : Path} {extension : String}
    {paths : List Path} :
    scan tree directory extension = .ok paths ↔
      ∃ names pattern, tree.list directory = .ok names ∧
        Glob.PathPattern.read (patternText directory extension) = .ok pattern ∧
        ((Glob.search tree pattern).filter tree.isFile).mergeSort Path.le =
          paths := by
  rw [scan]
  constructor
  · intro h
    split at h
    · cases h
    · next names hlist =>
      split at h
      · cases h
      · next pattern hpattern =>
        exact ⟨names, pattern, hlist, hpattern, Except.ok.inj h⟩
  · rintro ⟨names, pattern, hlist, hpattern, rfl⟩
    rw [hlist]
    dsimp only
    rw [hpattern]

/-! ## The pattern of a directory and an extension -/

theorem part_read_escape (text : List Char) :
    Part.read (escape text) = .ok (.ofText text) := by
  have htokens : tokens (escape text) = .ok (text.map escaped) := by
    have hreads := reads_escape reads_nil text 0 none
    rwa [List.append_nil, List.append_nil] at hreads
  rw [Part.read, htokens]
  cases text with
  | nil => rfl
  | cons c rest =>
      rw [Part.ofText, List.map_cons, escaped]
      split <;> rfl

theorem part_read_suffix {cs : List Char} (hcs : IsPlain cs) :
    Part.read ('*' :: '.' :: cs) = .ok (.name (suffixTokens cs)) := by
  rw [Part.read, tokens, reads_suffix hcs]
  rfl

theorem mapM_read (texts : List (List Char)) {cs : List Char}
    (hcs : IsPlain cs) :
    (texts.map escape ++ ['*' :: '.' :: cs]).mapM Part.read =
      .ok (texts.map Part.ofText ++ [.name (suffixTokens cs)]) := by
  rw [mapM_eq_ok_iff]
  induction texts with
  | nil => exact .cons (part_read_suffix hcs) .nil
  | cons text rest ih => exact .cons (part_read_escape text) ih

theorem partTexts_pattern (directory : List Char) {cs : List Char}
    (hslash : '/' ∉ cs) :
    partTexts (escape directory ++ '/' :: '*' :: '.' :: cs) =
      (Path.splitParts directory).map escape ++ ['*' :: '.' :: cs] := by
  have hlast : '/' ∉ '*' :: '.' :: cs := by simpa using hslash
  have hsplit : Path.splitParts (escape directory ++ '/' :: '*' :: '.' :: cs) =
      (Path.splitParts directory).map escape ++ ['*' :: '.' :: cs] := by
    rw [Path.splitParts_append_slash, splitParts_escape,
      Path.splitParts_of_not_mem hlast]
  rw [partTexts, hsplit, List.reverse_append]
  rfl

theorem head?_escape {cs : List Char} (hcs : cs ≠ []) (later : List Char) :
    (escape cs ++ later).head? = some '/' ↔ cs.head? = some '/' := by
  obtain ⟨c, rest, rfl⟩ := List.exists_cons_of_ne_nil hcs
  rw [escape_cons]
  by_cases hc : isSpecial c = true
  · rw [if_pos hc]
    refine iff_of_false nofun ?_
    rintro ⟨⟩
    cases hc
  · rw [if_neg hc]
    rfl

theorem toList_patternText (directory : Path) (extension : String) :
    patternText directory extension =
      escape directory.text.toList ++ '/' :: '*' :: '.' ::
        extension.toList := by
  rw [patternText, List.append_assoc]
  rfl

/-- What the pattern of the log files is read as. -/
theorem read_patternText (hdirectory : directory.text ≠ "")
    (hplain : IsPlain extension.toList) (hslash : '/' ∉ extension.toList) :
    PathPattern.read (patternText directory extension) =
      .ok ⟨directory.isAbsolute,
        (partsBelow directory).map .ofText ++
          [.name (suffixTokens extension.toList)], false⟩ := by
  have htokens : ∃ all, tokens (patternText directory extension) = .ok all := by
    rw [toList_patternText]
    exact ⟨_, reads_escape (reads_literal (by decide) (reads_suffix hplain)) _ 0
      none⟩
  have hroot : (patternText directory extension).head? = some '/' ↔
      directory.isAbsolute = true := by
    rw [toList_patternText, Path.isAbsolute, decide_eq_true_eq]
    exact head?_escape (fun h => hdirectory (String.toList_inj.1 h)) _
  have hparts :
      partTexts
          (if (patternText directory extension).head? = some '/' then
            (patternText directory extension).drop 1
          else patternText directory extension) =
        (partsBelow directory).map escape ++
          ['*' :: '.' :: extension.toList] := by
    simp only [hroot]
    rw [toList_patternText, partsBelow]
    by_cases habsolute : directory.isAbsolute = true
    · rw [if_pos habsolute, if_pos habsolute,
        Path.toList_of_isAbsolute habsolute]
      exact partTexts_pattern _ hslash
    · rw [if_neg habsolute, if_neg habsolute]
      exact partTexts_pattern _ hslash
  have hend : decide ((patternText directory extension).getLast? = some '/') =
      false := by
    rw [toList_patternText]
    refine decide_eq_false fun h => ?_
    rw [List.getLast?_append_of_ne_nil _ (List.cons_ne_nil _ _),
      List.getLast?_cons_cons] at h
    have hmem := List.mem_of_getLast? h
    exact hslash (by simpa using hmem)
  obtain ⟨all, hall⟩ := htokens
  rw [PathPattern.read, hall]
  refine bind_eq_ok_iff.2 ⟨(), rfl, bind_eq_ok_iff.2
    ⟨(partsBelow directory).map .ofText ++
      [.name (suffixTokens extension.toList)], ?_, ?_⟩⟩
  · rw [hparts]
    exact mapM_read _ hplain
  · rw [Bool.eq_iff_iff.2 (decide_eq_true_iff.trans hroot), hend]
    rfl

/-! ## The files of an extension -/

/-- The paths of the files in a directory that the names end with a dot and the
extension for, as a search has them. -/
theorem scan_eq_of_list {names : List FileName}
    (hlist : tree.list directory = .ok names) (hdots : ¬ LosesDots directory)
    (hplain : IsPlain extension.toList) (hslash : '/' ∉ extension.toList) :
    scan tree directory extension =
      .ok ((((names.filter fun name =>
          accepts (suffixTokens extension.toList) name.text.toList).map
            fun name => enter (respelled directory) name.text).filter
              tree.isFile).mergeSort Path.le) := by
  obtain ⟨_, hresolve, -, -⟩ := FileTree.list_eq_ok_iff.1 hlist
  have hne := FileTree.text_ne_of_resolve hresolve
  refine scan_eq_ok_iff.2 ⟨names, _, hlist,
    read_patternText hne hplain hslash, ?_⟩
  rw [search_names hdots hlist rfl (by rintro ⟨⟩)]

/-- If the names of a directory all end with the extension and lead to files, a
scan finds them all. -/
theorem scan_of_forall {names : List FileName}
    (hlist : tree.list directory = .ok names) (hdots : ¬ LosesDots directory)
    (hplain : IsPlain extension.toList) (hslash : '/' ∉ extension.toList)
    (hsuffix : ∀ name ∈ names, ('.' :: extension.toList) <:+ name.text.toList)
    (hfile : ∀ name ∈ names,
      tree.isFile (enter (respelled directory) name.text) = true) :
    scan tree directory extension =
      .ok
        ((names.map fun name => enter (respelled directory) name.text).mergeSort
          Path.le) := by
  have haccepts : ∀ name ∈ names,
      accepts (suffixTokens extension.toList) name.text.toList = true :=
    fun name hname => accepts_suffix_iff.2 (hsuffix name hname)
  have hfiles :
      ∀ path ∈ names.map fun name => enter (respelled directory) name.text,
      tree.isFile path = true := List.forall_mem_map.2 hfile
  rw [scan_eq_of_list hlist hdots hplain hslash, List.filter_eq_self.2 haccepts,
    List.filter_eq_self.2 hfiles]

end BenchReport.LogFile
