import BenchReport.Proofs.Double.Quotient
import BenchReport.Proofs.Double.Sum

/-!
# Numbers without a minus sign

A number without a minus sign is not negative and no negative zero either. Sums
of such numbers have none, even where they become infinite, and so do their
quotients by a count: the only quotients of theirs that are no number are those
of two zeros and of two infinities, and a count of 64 bits is neither, unless it
is zero.
-/

namespace BenchReport.Double

variable {x y : Double}

/-- Whether the double is a number without a minus sign. -/
def isNonneg : Double → Bool
  | .signed false _ => true
  | _ => false

theorem isNonneg_iff : x.isNonneg = true ↔ ∃ m, x = .signed false m := by
  cases x with
  | nan => exact iff_of_false nofun (by simp)
  | signed s m =>
      cases s with
      | false => exact iff_of_true rfl ⟨m, rfl⟩
      | true => exact iff_of_false nofun (by simp)

theorem isNonneg_iff_zero_le :
    x.isNonneg = true ↔ zero ≤ x ∧ x ≠ negativeZero := by
  rw [isNonneg_iff]
  constructor
  · rintro ⟨m, rfl⟩
    refine ⟨Double.le_iff.2 ⟨nofun, nofun, ?_⟩, by simp [negativeZero]⟩
    rw [zero, value_positive, value_positive, Magnitude.units_zero]
    exact Int.natCast_nonneg _
  · rintro ⟨hle, hne⟩
    obtain ⟨s, m, rfl, hzero⟩ := exists_signed_of_zero_le hle
    cases s with
    | false => exact ⟨m, rfl⟩
    | true => exact absurd (by rw [hzero rfl, negativeZero]) hne

theorem isNonneg_add (hx : x.isNonneg = true) (hy : y.isNonneg = true) :
    (x + y).isNonneg = true := by
  obtain ⟨m, rfl⟩ := isNonneg_iff.1 hx
  obtain ⟨n, rfl⟩ := isNonneg_iff.1 hy
  by_cases hm : m.isFinite = true
  · by_cases hn : n.isFinite = true
    · rw [add_of_finite hm hn, value_positive, value_positive]
      split
      · rfl
      · rw [ofUnits_of_not_neg (by omega)]
        rfl
    · obtain rfl := Magnitude.eq_infinity_of_not_isFinite hn
      exact congrArg isNonneg (add_infinity (a := signed false m) hm)
  · obtain rfl := Magnitude.eq_infinity_of_not_isFinite hm
    by_cases hn : n.isFinite = true
    · rw [add_comm]
      exact congrArg isNonneg (add_infinity (a := signed false n) hn)
    · obtain rfl := Magnitude.eq_infinity_of_not_isFinite hn
      rfl

theorem isNonneg_foldl_add {values : List Double} (hx : x.isNonneg = true)
    (hvalues : ∀ v ∈ values, v.isNonneg = true) :
    (values.foldl (· + ·) x).isNonneg = true := by
  induction values generalizing x with
  | nil => exact hx
  | cons v rest ih =>
      obtain ⟨hv, hrest⟩ := List.forall_mem_cons.1 hvalues
      exact ih (isNonneg_add hx hv) hrest

theorem isNonneg_div (hx : x.isNonneg = true) (hfinite : y.isFinite = true)
    (hpos : zero < y) :
    (x / y).isNonneg = true := by
  obtain ⟨m, rfl⟩ := isNonneg_iff.1 hx
  obtain ⟨n, rfl, hn, hrank⟩ := exists_magnitude_of_pos hfinite hpos
  by_cases hm : m.isFinite = true
  · rw [div_of_finite hm hn hrank]
    rfl
  · obtain rfl := Magnitude.eq_infinity_of_not_isFinite hm
    show (div _ _).isNonneg = true
    rw [div, if_neg (by simp [hm]), if_neg hm, if_pos hn]
    rfl

end BenchReport.Double
