import BenchReport.Proofs.Numeral.Hundredths
import BenchReport.Samples.Summary

/-!
# Means in hundredths

A mean is shown as the double that its numeral in hundredths is read as
(`roundedMean_signed`). That rounds twice, and each time exactly: first the mean
to the nearest hundredth, then the hundredth to the nearest double, always to
the even one of two (`roundedMean_exact`). A mean that is no finite number has
no hundredths, and it stays what it is.
-/

namespace BenchReport.Summary

variable {s : Summary} {negative : Bool} {m : Magnitude}

theorem roundedMean_signed (hmean : s.mean = .signed negative m)
    (hm : m.isFinite = true) :
    s.roundedMean = .signed negative (.ofHundredths m.hundredths) := by
  rw [roundedMean, hmean, Double.read_toHundredths negative hm]
  rfl

theorem roundedMean_of_not_isFinite (h : s.mean.isFinite = false) :
    s.roundedMean = s.mean := by
  rw [roundedMean, Double.read_toHundredths_of_not_isFinite h]
  rfl

/-- A finite mean is rounded to the double nearest to a number of hundredths,
and that is the integer nearest to the hundredths that the mean has; the sign
stays, also where it is all that is left. Another mean is not rounded. -/
theorem roundedMean_exact (s : Summary) :
    (s.mean.isFinite = true → ∃ negative m h,
      s.mean = .signed negative m ∧ IsRoundedInteger h (100 * s.mean.exact) ∧
      s.roundedMean.IsRounded (h / 100) ∧ ∃ rounded,
        s.roundedMean = .signed negative rounded) ∧
    (s.mean.isFinite = false → s.roundedMean = s.mean) := by
  refine ⟨fun hfinite => ?_, roundedMean_of_not_isFinite⟩
  cases hmean : s.mean with
  | nan =>
      rw [hmean] at hfinite
      cases hfinite
  | signed negative m =>
      rw [hmean] at hfinite
      have hrounded := roundedMean_signed hmean hfinite
      refine ⟨negative, m, withSign negative m.hundredths, rfl,
        isRoundedInteger_hundredths negative m, ?_, _, hrounded⟩
      rw [hrounded]
      exact Double.isRounded_ofQuotient negative m.hundredths (by decide)

/-- A mean halfway between two numbers of hundredths. -/
def eighths : Summary where
  mean := .ofQuotient false 9 8
  samples := 2

theorem roundedMean_exact_eighths :
    eighths.roundedMean = .ofQuotient false 112 100 ∧
    (∃ negative m h,
      eighths.mean = .signed negative m ∧
        IsRoundedInteger h (100 * eighths.mean.exact) ∧
      eighths.roundedMean.IsRounded (h / 100) ∧
      ∃ rounded, eighths.roundedMean = .signed negative rounded) ∧
    Summary.roundedMean ⟨.infinity, 1⟩ = .infinity :=
  ⟨by decide +kernel, (roundedMean_exact eighths).1 (by decide +kernel),
    (roundedMean_exact ⟨.infinity, 1⟩).2 (by decide +kernel)⟩

/-! ## Rounding again, and rounding in order -/

/-- What a magnitude is shown as: its nearest number of hundredths, or itself if
it is infinite. -/
def shown (m : Magnitude) : Magnitude :=
  if m.isFinite then .ofHundredths m.hundredths else m

theorem roundedMean_eq_shown (hmean : s.mean = .signed negative m) :
    s.roundedMean = .signed negative (shown m) := by
  by_cases hm : m.isFinite = true
  · rw [roundedMean_signed hmean hm, shown, if_pos hm]
  · have hmean' : s.mean.isFinite = false := by
      rw [hmean]
      exact Bool.eq_false_iff.2 hm
    rw [roundedMean_of_not_isFinite hmean', hmean, shown, if_neg hm]

theorem shown_shown (m : Magnitude) : shown (shown m) = shown m := by
  by_cases hm : m.isFinite = true
  · rw [show shown m = .ofHundredths m.hundredths from if_pos hm, shown,
      Magnitude.hundredths_ofHundredths, ite_self]
  · rw [show shown m = m from if_neg hm, shown, if_neg hm]

theorem shown_zero : shown .zero = .zero := by
  rw [shown, if_pos (by decide), Magnitude.hundredths_zero,
    Magnitude.ofHundredths_zero]

theorem units_shown_mono {m n : Magnitude} (h : m.units ≤ n.units) :
    (shown m).units ≤ (shown n).units := by
  by_cases hn : n.isFinite = true
  · rw [shown, if_pos (Magnitude.isFinite_of_units_le hn h), shown, if_pos hn]
    exact Magnitude.units_ofHundredths_mono (Magnitude.hundredths_mono h)
  · rw [show shown n = n from if_neg hn,
      Magnitude.eq_infinity_of_not_isFinite hn]
    exact Magnitude.units_le_infinity _

/-- A mean that is rounded stays when it is rounded again, whether doubles are
closer together there than hundredths or farther apart; and of two means that
are numbers, the lesser one is not rounded to more than the other. -/
theorem roundedMean_idempotent_monotone :
    (∀ (mean : Double) (n k : ℕ),
      roundedMean ⟨roundedMean ⟨mean, n⟩, k⟩ = roundedMean ⟨mean, n⟩) ∧
    ∀ s t : Summary, s.mean ≤ t.mean → s.roundedMean ≤ t.roundedMean := by
  constructor
  · intro mean n k
    cases mean with
    | nan => rfl
    | signed negative m =>
        rw [roundedMean_eq_shown (s := ⟨.signed negative m, n⟩) rfl,
          roundedMean_eq_shown (s := ⟨.signed negative (shown m), k⟩) rfl,
          shown_shown]
  · intro s t h
    obtain ⟨hs, ht, -⟩ := Double.le_iff.1 h
    cases hmean : s.mean with
    | nan => exact absurd hmean hs
    | signed negative m =>
        cases hmean' : t.mean with
        | nan => exact absurd hmean' ht
        | signed negative' m' =>
            rw [roundedMean_eq_shown hmean, roundedMean_eq_shown hmean']
            rw [hmean, hmean'] at h
            exact Double.signed_le_signed_of_mono shown_zero units_shown_mono h

/-- Where doubles are more than a hundredth apart a mean is its own rounding,
and just below, where they are less apart, it is rounded to another double. -/
theorem roundedMean_idempotent_monotone_crossing :
    let dense : Summary := ⟨.ofQuotient false (2 ^ 53 - 7) 128, 1⟩
    let sparse : Summary := ⟨.ofQuotient false (2 ^ 52 + 1) 64, 1⟩
    dense.roundedMean ≠ dense.mean ∧ sparse.roundedMean = sparse.mean ∧
      dense.mean ≤ sparse.mean ∧ dense.roundedMean ≤ sparse.roundedMean ∧
      roundedMean ⟨dense.roundedMean, 1⟩ = dense.roundedMean := by
  intro dense sparse
  have hle : dense.mean ≤ sparse.mean := by decide +kernel
  obtain ⟨hagain, hordered⟩ := roundedMean_idempotent_monotone
  exact ⟨by decide +kernel, by decide +kernel, hle, hordered dense sparse hle,
    hagain _ _ _⟩

end BenchReport.Summary
