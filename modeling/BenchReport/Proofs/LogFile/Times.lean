import BenchReport.Proofs.Double.Nonnegative
import BenchReport.Proofs.LogFile.Survey
import BenchReport.Proofs.Numeral.Grammar
import BenchReport.Proofs.Run.Extraction
import BenchReport.Proofs.Samples.Means
import BenchReport.Proofs.Samples.Rounding

/-!
# Times that logs tell

The value of a time in a log is made of digits of any script and of points. So
it has no sign, no exponent and no letter of the words for infinity and for no
number, and what can be read of it is a plain decimal
(`LogField.exists_decimal_of_read`). Its double is infinite if it is too large,
but it has no minus sign.

That is kept on the way to a report. The sum of a group may become infinite, and
then so is the mean: times are counted in 64 bits, so that their number is
finite, and an infinity can be divided by it. Showing the mean in hundredths
keeps its sign.
-/

namespace BenchReport

/-! ## Times in a log -/

namespace LogField

/-- The code points of capital letters that have a small one in ASCII. -/
def capitalRanges : Text.Ranges := [(0x41, 0x5A)]

theorem toLower_of_isFractional {c : Char} (hc : isFractional c = true) :
    c.toLower = c := by
  have hcapital : capitalRanges.holds c = false := by
    rw [isFractional, Bool.or_eq_true, decide_eq_true_eq] at hc
    rcases hc with hc | rfl
    · exact Text.not_holds_of_apart (by decide +kernel) hc
    · rfl
  refine dif_neg fun hupper => ?_
  have hholds : capitalRanges.holds c = true :=
    Text.holds_iff.2 ⟨_, List.mem_singleton_self _, hupper.1, hupper.2⟩
  cases hcapital.symm.trans hholds

/-- Digits and points that can be read are a plain decimal. -/
theorem exists_decimal_of_read {text : List Char} {x : Double}
    (htext : ∀ c ∈ text, isFractional c = true)
    (hread : Double.read text = .ok x) :
    ∃ d, Decimal.IsNumeral text d ∧ x = .signed false d.toMagnitude := by
  have hlower : text.map Char.toLower = text :=
    (List.map_congr_left fun c hc => toLower_of_isFractional (htext c hc)).trans
      (List.map_id _)
  have hother : ∀ {c : Char}, isFractional c = false → c ∉ text := by
    intro c hc hmem
    cases hc.symm.trans (htext c hmem)
  cases Double.read_eq_ok_iff.1 hread with
  | plus _ => exact absurd (List.mem_cons_self ..) (hother rfl)
  | minus _ => exact absurd (List.mem_cons_self ..) (hother rfl)
  | unsigned hunsigned =>
      cases hunsigned with
      | decimal hnumeral => exact ⟨_, hnumeral, rfl⟩
      | infinity hword =>
          rw [hlower] at hword
          have hmem : 'n' ∈ text := by rcases hword with rfl | rfl <;> decide
          exact absurd hmem (hother rfl)
      | nan hword =>
          rw [hlower] at hword
          have hmem : 'n' ∈ text := by rw [hword]; decide
          exact absurd hmem (hother rfl)

end LogField

namespace Run

variable {log : List Char}

theorem isNonneg_of_tells {field : LogField} {x : Double}
    (hfield : field.holds = LogField.isFractional)
    (h : Tells field Double.read log x) :
    x.isNonneg = true := by
  obtain ⟨i, text, ⟨⟨_, -, -, hvalue, -⟩, -⟩, hread⟩ := h
  rw [hfield] at hvalue
  obtain ⟨d, -, rfl⟩ := LogField.exists_decimal_of_read hvalue hread
  rfl

/-- The times of a run are numbers without a minus sign. -/
theorem isNonneg_of_ofLog {run : Run} (h : ofLog log = .ok run) :
    run.elapsed.isNonneg = true ∧
      ∀ x, run.initializationTime = some x → x.isNonneg = true := by
  obtain ⟨-, htold⟩ := ofLog_eq_ok_iff.1 h
  exact ⟨isNonneg_of_tells rfl htold.elapsed,
    fun x hx => isNonneg_of_tells rfl ((htold.initializationTime x).1 hx)⟩

end Run

/-! ## Means of groups -/

namespace Summary

variable {times : List Double} {summary : Summary}

theorem isNonneg_total (hne : times ≠ [])
    (htimes : ∀ t ∈ times, t.isNonneg = true) :
    (total times).isNonneg = true := by
  obtain ⟨t, rest, rfl⟩ := List.exists_cons_of_ne_nil hne
  obtain ⟨ht, hrest⟩ := List.forall_mem_cons.1 htimes
  rw [total, List.foldl_cons, Double.negativeZero_add]
  exact Double.isNonneg_foldl_add ht hrest

theorem isNonneg_mean (h : ofTimes? times = some summary)
    (htimes : ∀ t ∈ times, t.isNonneg = true)
    (hcount : summary.samples < UInt64.size) :
    summary.mean.isNonneg = true := by
  rw [ofTimes?, Option.ite_none_left_eq_some] at h
  obtain ⟨hne, heq⟩ := h
  obtain rfl := Option.some.inj heq
  have hlength : times.length ≠ 0 := mt List.isEmpty_iff_length_eq_zero.2 hne
  exact Double.isNonneg_div (isNonneg_total (mt List.isEmpty_iff.2 hne) htimes)
    (Double.isFinite_ofNat hcount) ((Double.zero_lt_ofNat_iff hcount).2 hlength)

theorem isNonneg_roundedMean (h : summary.mean.isNonneg = true) :
    summary.roundedMean.isNonneg = true := by
  obtain ⟨m, hmean⟩ := Double.isNonneg_iff.1 h
  rw [roundedMean_eq_shown hmean]
  rfl

end Summary

/-- The means of runs without negative times, exact and rounded. -/
theorem Samples.isNonneg_means {runs : List Run}
    (hruns : ∀ run ∈ runs, run.elapsed.isNonneg = true) {x : Setting}
    {summary : Summary} (h : (x, summary) ∈ (ofList runs).summaries)
    (hcount : summary.samples < UInt64.size) :
    summary.mean.isNonneg = true ∧ summary.roundedMean.isNonneg = true := by
  have htimes : ∀ t ∈ timesOf x runs, t.isNonneg = true :=
    List.forall_mem_map.2 fun run hrun => hruns run (List.mem_filter.1 hrun).1
  have hmean := Summary.isNonneg_mean (mem_summaries_ofList.1 h) htimes hcount
  exact ⟨hmean, Summary.isNonneg_roundedMean hmean⟩

/-! ## Surveys -/

namespace LogFile

theorem isNonneg_of_mem_runsOf {tree : FileTree} {paths : List Path} {run : Run}
    (h : run ∈ runsOf tree paths) : run.elapsed.isNonneg = true := by
  obtain ⟨path, -, hrun⟩ := List.mem_filterMap.1 h
  obtain ⟨bytes, -, hlog⟩ := examine_eq_ok_iff.1 (toOption_eq_some_iff.1 hrun)
  exact (Run.isNonneg_of_ofLog hlog).1

/-- No time is negative, a negative zero or no number: neither those that a log
tells, nor, for whatever files a directory has, the means of its groups and the
rounded means that a report shows. A group may have as many times as can be
counted in 64 bits. -/
theorem times_nonneg :
    (∀ x : Double, x.isNonneg = true ↔ Double.zero ≤ x ∧ x ≠ .negativeZero) ∧
    (∀ (log : List Char) (run : Run), Run.ofLog log = .ok run →
      run.elapsed.isNonneg = true ∧
        ∀ x, run.initializationTime = some x → x.isNonneg = true) ∧
    ∀ (tree : FileTree) (directory : Path) (extension : String)
    (found : Survey),
      survey tree directory extension = .ok found →
      (∀ x summary, (x, summary) ∈ found.samples.summaries →
        summary.samples < UInt64.size →
        summary.mean.isNonneg = true ∧ summary.roundedMean.isNonneg = true) ∧
      ∀ e ∈ found.samples.entries, e.samples < UInt64.size →
        e.timeSeconds.isNonneg = true := by
  refine ⟨fun x => Double.isNonneg_iff_zero_le,
    fun log run h => Run.isNonneg_of_ofLog h, ?_⟩
  intro tree directory extension found h
  obtain ⟨paths, -, rfl⟩ := map_eq_ok_iff.1 h
  rw [samples_surveyOf]
  have hmeans : ∀ x summary, (x, summary) ∈
      (Samples.ofList (runsOf tree paths)).summaries →
      summary.samples < UInt64.size →
      summary.mean.isNonneg = true ∧ summary.roundedMean.isNonneg = true :=
    fun x summary hmem hcount =>
      Samples.isNonneg_means (fun run hrun => isNonneg_of_mem_runsOf hrun) hmem
        hcount
  refine ⟨hmeans, List.forall_mem_map.2 fun p hp hcount => ?_⟩
  exact (hmeans p.1 p.2 hp hcount).2

/-- A log of a run that takes no time, and a directory with a log of
four seconds. -/
theorem times_nonneg_two_logs :
    let log :=
      "Initialization time = 5. seconds\nTime in seconds = .0\nVERIFICATION SUCCESSFUL"
    let found := surveyOf twoLogs [⟨"logs/bad.x"⟩, ⟨"logs/good.x"⟩]
    (∃ run, Run.ofLog log.toList = .ok run ∧ run.elapsed = .zero ∧
      run.initializationTime = some (.ofNat 5) ∧ run.elapsed.isNonneg = true ∧
      (Double.ofNat 5).isNonneg = true) ∧
    survey twoLogs ⟨"logs"⟩ "x" = .ok found ∧
    (∃ x summary, (x, summary) ∈ found.samples.summaries ∧
      summary.samples < UInt64.size ∧
      summary.mean.isNonneg = true ∧ summary.roundedMean.isNonneg = true) ∧
    ∃ e ∈ found.samples.entries, e.samples < UInt64.size ∧
      e.timeSeconds.isNonneg = true := by
  intro log found
  obtain ⟨-, hlogs, hsurveys⟩ := times_nonneg
  have hrun : Run.ofLog log.toList = .ok
      { setting := {}, initializationTime := some (.ofNat 5),
        elapsed := .zero } := by
    decide +kernel
  have hfound : survey twoLogs ⟨"logs"⟩ "x" = .ok found := by
    rw [survey, scan_twoLogs]
    rfl
  have hsummary : ((⟨none, none, none⟩, ⟨.ofNat 4, 1⟩) : Setting × Summary) ∈
      found.samples.summaries := by decide +kernel
  have hcount : 1 < UInt64.size := by decide
  obtain ⟨hmeans, hentries⟩ := hsurveys twoLogs ⟨"logs"⟩ "x" found hfound
  obtain ⟨helapsed, hinitialization⟩ := hlogs log.toList _ hrun
  have hentry : Entry.ofSummary ⟨none, none, none⟩ ⟨.ofNat 4, 1⟩ ∈
      found.samples.entries :=
    List.mem_map_of_mem hsummary
  exact ⟨⟨_, hrun, rfl, rfl, helapsed, hinitialization _ rfl⟩, hfound,
    ⟨_, _, hsummary, hcount, hmeans _ _ hsummary hcount⟩,
    _, hentry, hcount, hentries _ hentry hcount⟩

end LogFile

end BenchReport
