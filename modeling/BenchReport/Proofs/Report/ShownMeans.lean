import BenchReport.Proofs.Double.Count
import BenchReport.Proofs.Numeral.ShortestHundredths
import BenchReport.Proofs.Report.Lines
import BenchReport.Proofs.Samples.Rounding

/-!
# Lines show hundredths

A line ends with the digits of the rounded mean. They are the shortest ones of
that double, but for a mean of less than 10^13 they are also those of its
hundredths, with one decimal place at least (`lines_show_hundredths`). The one
thing that a line shows besides is the sign of the negative zero, which is a
mean like any other: it is not less than zero, and a minus stands before
it (`not_shown_negativeZero`).
-/

namespace BenchReport

/-! ## After the last separator -/

/-- Whether `rest` is what stands after the last `sep` in a text. -/
def IsAfterLast (sep text rest : List Char) : Prop :=
  sep ++ rest <:+ text ∧ ∀ later, sep ++ later <:+ text →
    rest.length ≤ later.length

theorem isAfterLast_of_blank_not_mem {rest : List Char} (front : List Char)
    (h : ' ' ∉ rest) :
    IsAfterLast ": ".toList (front ++ ": ".toList ++ rest) rest := by
  refine ⟨⟨front, (List.append_assoc ..).symm⟩, fun later hlater => ?_⟩
  have hblank : ' ' :: later <:+ front ++ ": ".toList ++ rest :=
    (List.suffix_cons ':' (' ' :: later)).trans hlater
  -- A separator further back would lie in `rest` with its blank.
  refine Nat.le_of_not_lt fun hshort => h ?_
  have hinside : ' ' :: later <:+ rest :=
    List.suffix_of_suffix_length_le hblank (List.suffix_append _ rest) hshort
  exact hinside.subset (List.mem_cons_self ..)

theorem IsAfterLast.unique {sep text rest rest' : List Char}
    (h : IsAfterLast sep text rest) (h' : IsAfterLast sep text rest') :
    rest = rest' := by
  have hlength : rest.length = rest'.length :=
    Nat.le_antisymm (h.2 _ h'.1) (h'.2 _ h.1)
  have hsuffix : rest <:+ rest' :=
    List.suffix_of_suffix_length_le ((List.suffix_append sep rest).trans h.1)
      ((List.suffix_append sep rest').trans h'.1) hlength.le
  exact hsuffix.eq_of_length hlength

theorem Entry.isAfterLast_line (x : Setting) (s : Summary) :
    IsAfterLast ": ".toList (line x s).toList s.meanText.toList := by
  have hline : (line x s).toList = x.text.toList ++ ": ".toList ++
      s.meanText.toList := by
    rw [line, String.toList_append, String.toList_append, Summary.meanText]
  rw [hline]
  exact isAfterLast_of_blank_not_mem _ s.blank_not_mem_meanText

/-! ## Means from zero to 10^13 -/

namespace Double

theorem units_lt_of_lt_ofNat {negative : Bool} {m : Magnitude} {n : ℕ}
    (hn : n < 2 ^ 53) (hneg : negative = true → m = .zero)
    (h : signed negative m < .ofNat n) :
    m.units < n * unitsPerOne := by
  have hvalue := (Double.lt_iff.1 h).2.2
  rw [ofNat_eq, value_positive, units_nearest hn] at hvalue
  cases negative with
  | false =>
      rw [value_positive] at hvalue
      exact Int.ofNat_lt.1 hvalue
  | true =>
      rw [hneg rfl, value_negative, Magnitude.units_zero] at hvalue
      rw [hneg rfl, Magnitude.units_zero]
      omega

end Double

namespace Summary

variable {s : Summary}

/-- A mean from zero to 10^13 is shown as its hundredths, after the sign that
only zero can have. -/
theorem meanText_hundredths (hzero : .zero ≤ s.mean)
    (hlarge : s.mean < .ofNat (10 ^ 13)) :
    ∃ h : ℕ, IsRoundedInteger h (100 * s.mean.exact) ∧
      s.meanText.toList = (if s.mean = .negativeZero then ['-'] else []) ++
        hundredthsNumeral h := by
  obtain ⟨negative, m, hmean, hneg⟩ := Double.exists_signed_of_zero_le hzero
  rw [hmean] at hlarge
  have hunits := Double.units_lt_of_lt_ofNat (by decide) hneg hlarge
  have hfinite : m.isFinite = true := by
    have hroom : 10 ^ 13 * unitsPerOne ≤ Magnitude.infinity.units := by
      decide +kernel
    exact Magnitude.isFinite_iff.2 (hunits.trans_le hroom)
  have htext :
      NumeralStyle.fractional.magnitudeText (.ofHundredths m.hundredths) =
        hundredthsNumeral m.hundredths :=
    NumeralStyle.magnitudeText_ofHundredths (Magnitude.hundredths_le hunits.le)
  have hrounded := isRoundedInteger_hundredths negative m
  refine ⟨m.hundredths, ?_⟩
  rw [meanText, Double.toText, String.toList_ofList,
    roundedMean_signed hmean hfinite, hmean]
  cases negative with
  | false =>
      rw [withSign_false] at hrounded
      rw [if_neg (by rintro ⟨⟩), List.nil_append, Double.toChars]
      exact ⟨hrounded, htext⟩
  | true =>
      obtain rfl := hneg rfl
      rw [Magnitude.hundredths_zero] at hrounded htext ⊢
      rw [withSign_zero] at hrounded
      rw [if_pos Double.negativeZero.eq_def.symm, Double.toChars, htext]
      exact ⟨hrounded, rfl⟩

end Summary

/-! ## Lines -/

/-- What stands after the last colon and blank of a line is the numeral of the
hundredths nearest to the mean, if that is at least zero and less than 10^13:
digits, a point, and a second decimal place only if it is no zero. A minus comes
first exactly if the mean is the negative zero. What is shown reads back as the
time of the entry. -/
theorem lines_show_hundredths (s : Samples) (i : ℕ) (x : Setting)
    (summary : Summary) (hi : s.summaries[i]? = some (x, summary))
    (hzero : .zero ≤ summary.mean) (hlarge : summary.mean < .ofNat (10 ^ 13)) :
    ∃ line entry shown, ∃ h : ℕ,
      s.lines[i]? = some line ∧ s.entries[i]? = some entry ∧ entry.setting = x ∧
      IsAfterLast ": ".toList line.toList shown ∧
      IsRoundedInteger h (100 * summary.mean.exact) ∧
      shown = (if summary.mean = .negativeZero then ['-'] else []) ++
        hundredthsNumeral h ∧
      Double.read shown = .ok entry.timeSeconds := by
  obtain ⟨h, hrounded, hshown⟩ := Summary.meanText_hundredths hzero hlarge
  refine ⟨Entry.line x summary, .ofSummary x summary, summary.meanText.toList,
    h, ?_, ?_, rfl, Entry.isAfterLast_line x summary, hrounded, hshown, ?_⟩
  · rw [Samples.lines, List.getElem?_map, hi]
    rfl
  · rw [Samples.entries, List.getElem?_map, hi]
    rfl
  · rw [Summary.meanText, Double.toText, String.toList_ofList]
    exact Double.read_toChars NumeralStyle.readable_fractional _

/-- The last separator of the line is the program's own, not the one in
the class. -/
theorem lines_show_hundredths_misleading :
    let s := Samples.ofList (misleading 2346)
    let summary : Summary := ⟨.ofQuotient false 2346 1000, 1⟩
    (∃ x, s.summaries[1]? = some (x, summary) ∧ Double.zero ≤ summary.mean ∧
      summary.mean < .ofNat (10 ^ 13) ∧
      ∃ line entry shown, ∃ h : ℕ,
        s.lines[1]? = some line ∧ s.entries[1]? = some entry ∧
          entry.setting = x ∧
        IsAfterLast ": ".toList line.toList shown ∧
        IsRoundedInteger h (100 * summary.mean.exact) ∧
        shown = (if summary.mean = .negativeZero then ['-'] else []) ++
          hundredthsNumeral h ∧
        Double.read shown = .ok entry.timeSeconds) ∧
    summary.meanText.toList = hundredthsNumeral 235 := by
  intro s summary
  have hi :
      s.summaries[1]? =
        some (⟨some "a', 1, 2): 3.0", none, some 4⟩, summary) := by
    decide +kernel
  have hzero : Double.zero ≤ summary.mean := by decide +kernel
  have hlarge : summary.mean < .ofNat (10 ^ 13) := by decide +kernel
  exact ⟨⟨_, hi, hzero, hlarge,
    lines_show_hundredths s 1 _ summary hi hzero hlarge⟩, by decide +kernel⟩

theorem head?_hundredthsNumeral (h : ℕ) :
    (hundredthsNumeral h).head? ≠ some '-' := by
  have hne : Nat.toDigits 10 (h / 100) ≠ [] := Nat.toDigits_ne_nil
  obtain ⟨c, rest, hdigits⟩ := List.exists_cons_of_ne_nil hne
  have hdigit : c.isDigit :=
    Nat.isDigit_of_mem_toDigits (by decide) (by decide)
      (hdigits ▸ List.mem_cons_self ..)
  rw [hundredthsNumeral, hdigits]
  rintro ⟨⟩
  exact absurd hdigit (by decide)

/-- A run of a group whose mean is the negative zero. -/
def negativeZeroRun : Run where
  setting := ⟨some "A", some 1, some 1⟩
  elapsed := .negativeZero

/-- The numeral alone is not what is shown of a mean that is the
negative zero. -/
theorem not_shown_negativeZero :
    ¬ ∀ (s : Samples) (i : ℕ) (x : Setting) (summary : Summary),
      s.summaries[i]? = some (x, summary) → .zero ≤ summary.mean →
      summary.mean < .ofNat (10 ^ 13) →
      ∃ line shown, ∃ h : ℕ, s.lines[i]? = some line ∧
        IsAfterLast ": ".toList line.toList shown ∧
        IsRoundedInteger h (100 * summary.mean.exact) ∧
        shown = hundredthsNumeral h := by
  intro hclaim
  let summary : Summary := ⟨.negativeZero, 1⟩
  obtain ⟨line, shown, h, hline, hlast, -, hnumeral⟩ :=
    hclaim (Samples.ofList [negativeZeroRun]) 0 negativeZeroRun.setting summary
      (by decide +kernel) (by decide +kernel) (by decide +kernel)
  have hwritten : (Samples.ofList [negativeZeroRun]).lines[0]? =
      some (Entry.line negativeZeroRun.setting summary) := by decide +kernel
  rw [hwritten, Option.some.injEq] at hline
  subst hline
  have htext := hlast.unique (Entry.isAfterLast_line _ summary)
  have hminus : summary.meanText.toList.head? = some '-' := by decide +kernel
  rw [← htext, hnumeral] at hminus
  exact head?_hundredthsNumeral h hminus

end BenchReport
