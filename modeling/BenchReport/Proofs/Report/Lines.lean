import BenchReport.Proofs.Report.Agreement
import BenchReport.Proofs.Run.Extraction

/-!
# Lines tell groups apart

A class stands in a line as it is, whatever it is made of, so nothing can be
found in a line from its beginning: what looks like the end of the class may
belong to it. But neither a count nor a mean has a blank, so the last blank of a
text is the one that the program has written, and a line can be taken apart from
its end (`append_cons_inj_of_last`). What is left when the counts are gone is
the class and a character on each side.

A report is its lines, one after another, as long as no class has a line feed.
A class that was read from a log has none, because it is a word.
-/

namespace BenchReport

/-- Texts are equal only if they are equal on both sides of the
last separator. -/
theorem append_cons_inj_of_last {α : Type} {sep : α}
    {front back front' back' : List α} (hback : sep ∉ back)
    (hback' : sep ∉ back') (h : front ++ sep :: back = front' ++ sep :: back') :
    front = front' ∧ back = back' := by
  -- Where one front goes on with `more`, the other back has the separator
  -- in it.
  have hshort : ∀ {more back back' : List α}, sep ∉ back →
      sep :: back = more ++ sep :: back' →
      more = [] ∧ back = back' := by
    intro more back back' hback h
    cases more with
    | nil => exact ⟨rfl, (List.cons.inj h).2⟩
    | cons c more =>
        rw [(List.cons.inj h).2] at hback
        simp at hback
  rcases List.append_eq_append_iff.1 h with
    ⟨more, rfl, hmore⟩ | ⟨more, rfl, hmore⟩
  · obtain ⟨rfl, rfl⟩ := hshort hback hmore
    exact ⟨(List.append_nil front).symm, rfl⟩
  · obtain ⟨rfl, rfl⟩ := hshort hback' hmore
    exact ⟨List.append_nil front', rfl⟩

namespace Setting

/-! ## Settings -/

/-- The text of a class that may be unknown. -/
def classText : Option String → List Char
  | none => "None".toList
  | some name => "'".toList ++ name.toList ++ "'".toList

theorem classText_inj {a b : Option String} (h : classText a = classText b) :
    a = b := by
  cases a with
  | none =>
      cases b with
      | none => rfl
      | some name => exact absurd (List.cons.inj h).1 (by decide)
  | some name =>
      cases b with
      | none => exact absurd (List.cons.inj h).1 (by decide)
      | some other =>
          rw [classText, classText, List.append_cancel_right_eq,
            List.append_cancel_left_eq] at h
          rw [String.toList_inj.1 h]

theorem countText_inj {a b : Option UInt32} (h : countText a = countText b) :
    a = b := by
  have hword : ∀ n : UInt32, countText none ≠ countText (some n) := by
    intro n hnone
    have hdigit : 'N'.isDigit := by
      refine Whole.isDigit_of_mem_toDigits (n := n.toNat) ?_
      rw [← Nat.toList_repr]
      exact congrArg String.toList hnone ▸ (by decide : 'N' ∈ "None".toList)
    exact absurd hdigit (by decide)
  cases a with
  | none =>
      cases b with
      | none => rfl
      | some n => exact absurd h (hword n)
  | some m =>
      cases b with
      | none => exact absurd h.symm (hword m)
      | some n =>
          have hdigits : Nat.toDigits 10 m.toNat = Nat.toDigits 10 n.toNat := by
            rw [← Nat.toList_repr, ← Nat.toList_repr]
            exact congrArg String.toList h
          have hvalues := congrArg (Nat.ofDigitChars 10 · 0) hdigits
          simp only [Nat.ofDigitChars_ten_toDigits] at hvalues
          rw [UInt32.toNat_inj.1 hvalues]

/-- The text of a setting, cut at the blanks that stand before its counts. -/
theorem toList_text (x : Setting) :
    x.text.toList =
      ("(".toList ++ classText x.problemClass ++ ",".toList) ++
        ' ' :: ((countText x.xstreams).toList ++ ",".toList) ++
        ' ' :: ((countText x.threads).toList ++ ")".toList) := by
  rw [text]
  cases x.problemClass with
  | none => simp [classText]
  | some name => simp [classText]

theorem text_inj {x y : Setting} (h : x.text = y.text) : x = y := by
  have hsolid : ∀ (count : Option UInt32) {ending : List Char}, ' ' ∉ ending →
      ' ' ∉ (countText count).toList ++ ending := by
    intro count ending hending
    rw [List.mem_append, not_or]
    exact ⟨(Entry.isSolid_countText count).not_mem (by decide), hending⟩
  have hchars := congrArg String.toList h
  rw [toList_text, toList_text] at hchars
  obtain ⟨hfront, hthreads⟩ := append_cons_inj_of_last (hsolid _ (by decide))
    (hsolid _ (by decide)) hchars
  obtain ⟨hclass, hxstreams⟩ := append_cons_inj_of_last (hsolid _ (by decide))
    (hsolid _ (by decide)) hfront
  rw [List.append_cancel_right_eq] at hthreads hxstreams
  rw [List.append_cancel_right_eq, List.append_cancel_left_eq] at hclass
  exact eq_of_fields (classText_inj hclass)
    (countText_inj (String.toList_inj.1 hxstreams))
    (countText_inj (String.toList_inj.1 hthreads))

end Setting

/-! ## Lines -/

/-- The mean of a summary as a line shows it. -/
def Summary.meanText (s : Summary) : String :=
  s.roundedMean.toText .fractional

theorem Summary.blank_not_mem_meanText (s : Summary) :
    ' ' ∉ s.meanText.toList := by
  rw [meanText, Double.toText, String.toList_ofList]
  exact (Double.isSolid_toChars NumeralStyle.readable_fractional _).not_mem
    (by decide)

namespace Entry

theorem toList_line_eq (x : Setting) (s : Summary) :
    (line x s).toList = (x.text.toList ++ ":".toList) ++ ' ' ::
      s.meanText.toList := by
  simp [line, Summary.meanText]

theorem line_inj {x y : Setting} {s t : Summary} (h : line x s = line y t) :
    x = y ∧ s.meanText = t.meanText := by
  have hchars := congrArg String.toList h
  rw [toList_line_eq, toList_line_eq] at hchars
  obtain ⟨hsetting, hmean⟩ := append_cons_inj_of_last s.blank_not_mem_meanText
    t.blank_not_mem_meanText hchars
  rw [List.append_cancel_right_eq] at hsetting
  exact ⟨Setting.text_inj (String.toList_inj.1 hsetting),
    String.toList_inj.1 hmean⟩

end Entry

/-! ## Reports -/

namespace Samples

variable {s t : Samples}

/-- Whether no class breaks its line of the report in two. -/
def KeepsLines (s : Samples) : Prop :=
  ∀ g ∈ s.nonempty, ∀ name ∈ g.setting.problemClass, '\n' ∉ name.toList

instance (s : Samples) : Decidable s.KeepsLines :=
  inferInstanceAs (Decidable (∀ g ∈ s.nonempty, ∀ name ∈ g.setting.problemClass,
    '\n' ∉ name.toList))

theorem KeepsLines.splitOn_report (h : s.KeepsLines) :
    (s.report .text).toList.splitOn '\n' =
      s.lines.map String.toList ++ [[]] := by
  have hfree : ∀ line ∈ s.lines.map String.toList, '\n' ∉ line := by
    rw [lines_eq, List.map_map, List.forall_mem_map]
    exact fun g hg => Entry.lineFeed_not_mem_line (h g hg)
  rw [toList_report, reportChars, ← splitOn_flatMap hfree, List.flatMap_map]

theorem KeepsLines.lines_inj (hs : s.KeepsLines) (ht : t.KeepsLines)
    (h : s.report .text = t.report .text) : s.lines = t.lines := by
  have hsplit := hs.splitOn_report
  rw [h, ht.splitOn_report, List.append_cancel_right_eq] at hsplit
  exact List.map_injective_iff.2 (fun _ _ => String.toList_inj.1) hsplit.symm

theorem summaries_of_lines (h : s.lines = t.lines) :
    s.summaries.map (·.1) = t.summaries.map (·.1) ∧
      s.summaries.map (·.2.meanText) = t.summaries.map (·.2.meanText) := by
  rw [lines, lines, ← List.forall₂_eq_eq_eq, List.forall₂_map_left_iff,
    List.forall₂_map_right_iff] at h
  constructor
  · rw [← List.forall₂_eq_eq_eq, List.forall₂_map_left_iff,
      List.forall₂_map_right_iff]
    exact h.imp fun _ _ hline => (Entry.line_inj hline).1
  · rw [← List.forall₂_eq_eq_eq, List.forall₂_map_left_iff,
      List.forall₂_map_right_iff]
    exact h.imp fun _ _ hline => (Entry.line_inj hline).2

end Samples

theorem Run.lineFeed_not_mem_problemClass {log : List Char} {run : Run}
    (h : ofLog log = .ok run) :
    ∀ name ∈ run.setting.problemClass, '\n' ∉ name.toList := by
  intro name hname
  obtain ⟨i, ⟨_, -, -, hword, -⟩, -⟩ :=
    (ofLog_eq_ok_iff.1 h).2.problemClass name |>.1 hname
  have hsolid : Text.IsSolid name.toList :=
    fun c hc => Text.isBlank_of_isWord (hword c hc)
  exact hsolid.not_mem (by decide)

theorem Samples.keepsLines_ofList {runs : List Run}
    (h : ∀ run ∈ runs, ∃ log, Run.ofLog log = .ok run) :
    (ofList runs).KeepsLines := by
  intro g hg
  have hsetting :=
    List.mem_map_of_mem (f := Group.setting) (List.mem_filter.1 hg).1
  obtain ⟨run, hrun, hsame⟩ := List.mem_map.1 (mem_settings_ofList.1 hsetting)
  obtain ⟨log, hlog⟩ := h run hrun
  rw [← hsame]
  exact Run.lineFeed_not_mem_problemClass hlog

/-- What lines tell apart. No two settings have the same text, whatever their
classes are. Where no class has a line feed, no two reports are the same text
but those on the same settings in the same order with the same means as they are
shown. The samples of runs that logs tell of have no class with a line feed. -/
theorem lines_tell_apart :
    (∀ x y : Setting, x.text = y.text → x = y) ∧
    (∀ s t : Samples,
      (∀ g ∈ s.groups.filter (·.times ≠ []), ∀ name ∈ g.setting.problemClass,
        '\n' ∉ name.toList) →
      (∀ g ∈ t.groups.filter (·.times ≠ []), ∀ name ∈ g.setting.problemClass,
        '\n' ∉ name.toList) →
      s.report .text = t.report .text →
      (s.groups.filter (·.times ≠ [])).map (·.setting) =
          (t.groups.filter (·.times ≠ [])).map (·.setting) ∧
        s.summaries.map (·.2.meanText) = t.summaries.map (·.2.meanText)) ∧
    ∀ runs : List Run, (∀ run ∈ runs, ∃ log, Run.ofLog log = .ok run) →
      ∀ g ∈ (Samples.ofList runs).groups.filter (·.times ≠ []),
        ∀ name ∈ g.setting.problemClass, '\n' ∉ name.toList := by
  refine ⟨fun x y => Setting.text_inj, ?_,
    fun runs => Samples.keepsLines_ofList⟩
  intro s t hs ht hreport
  obtain ⟨hsettings, hmeans⟩ :=
    Samples.summaries_of_lines (Samples.KeepsLines.lines_inj hs ht hreport)
  rw [Samples.settings_summaries, Samples.settings_summaries] at hsettings
  exact ⟨hsettings, hmeans⟩

/-- A run that a log tells of. -/
def toldRun : Run where
  setting := ⟨some "B", none, none⟩
  elapsed := .ofNat 1

/-- A run with a class that looks like the end of a line, which takes some
number of milliseconds, and another one. -/
def misleading (milliseconds : Nat) : List Run :=
  [{ setting := ⟨some "a', 1, 2): 3.0", none, some 4⟩
     elapsed := .ofQuotient false milliseconds 1000 },
    toldRun]

/-- Times that are shown as the same mean, on both sides of it. -/
theorem lines_tell_apart_misleading :
    let s := Samples.ofList (misleading 2346)
    let t := Samples.ofList (misleading 2354)
    s ≠ t ∧ s.report .text = t.report .text ∧
    (s.groups.filter (·.times ≠ [])).map (·.setting) =
      (t.groups.filter (·.times ≠ [])).map (·.setting) ∧
    s.summaries.map (·.2.meanText) = t.summaries.map (·.2.meanText) ∧
    (⟨some "B", none, none⟩ : Setting) = toldRun.setting ∧
    ∀ g ∈ (Samples.ofList [toldRun]).groups.filter (·.times ≠ []),
      ∀ name ∈ g.setting.problemClass, '\n' ∉ name.toList := by
  intro s t
  obtain ⟨hsettings, hreports, hlogs⟩ := lines_tell_apart
  have hsame : s.report .text = t.report .text := by decide +kernel
  have hs : s.KeepsLines := by decide +kernel
  have ht : t.KeepsLines := by decide +kernel
  obtain ⟨hkeys, hmeans⟩ := hreports s t hs ht hsame
  refine ⟨by decide +kernel, hsame, hkeys, hmeans,
    hsettings _ _ rfl, hlogs _ ?_⟩
  rw [List.forall_mem_singleton]
  exact ⟨"Class = B Time in seconds = 1 VERIFICATION SUCCESSFUL".toList, by
    decide +kernel⟩

end BenchReport
