import BenchReport.Numeral.Hundredths
import BenchReport.Proofs.Double.Exact
import BenchReport.Proofs.Numeral.RoundTrip

/-!
# Numerals of hundredths read back

A number is rounded twice on its way through a numeral with two decimal places.
The first time it goes to the nearest integer number of hundredths
(`isRoundedInteger_hundredths`), on exact values. The numeral is exact, so the
second time it is the double nearest to that many hundredths
(`read_toHundredths`), even though no double may be there.
-/

namespace BenchReport

/-! ## Rounding to an integer -/

variable {num den : ℕ}

/-- The integer below if the rest is less than a half, or a half and the integer
is even; otherwise the next one. -/
theorem roundHalfEven_cases (num den : ℕ) :
    (roundHalfEven num den = num / den ∧
      (2 * (num % den) < den ∨ 2 * (num % den) = den ∧ num / den % 2 = 0)) ∨
    (roundHalfEven num den = num / den + 1 ∧
      (den < 2 * (num % den) ∨ 2 * (num % den) = den ∧ num / den % 2 = 1)) := by
  simp only [roundHalfEven]
  split
  · next hless => exact .inl ⟨rfl, .inl hless⟩
  · next hless =>
      split
      · next hmore => exact .inr ⟨rfl, .inl hmore⟩
      · next hmore =>
          have hhalf : 2 * (num % den) = den := by omega
          rcases Nat.mod_two_eq_zero_or_one (num / den) with hparity | hparity
          · exact .inl ⟨by rw [hparity, Nat.add_zero], .inr ⟨hhalf, hparity⟩⟩
          · exact .inr ⟨by rw [hparity], .inr ⟨hhalf, hparity⟩⟩

/-- An integer is one of two neighbours, or a multiple of it is a whole step
past both. -/
theorem mul_le_or_eq_or_le_mul (k below : ℤ) (den : ℕ) :
    k * den ≤ below * den - den ∨ k = below ∨ k = below + 1 ∨
      below * den + 2 * den ≤ k * den := by
  rcases Int.lt_or_le k below with h | h
  · have :=
      Int.mul_le_mul_of_nonneg_right (Int.le_sub_one_of_lt h)
        (Int.natCast_nonneg den)
    rw [Int.sub_mul] at this
    omega
  · rcases Int.lt_or_le (below + 1) k with h' | h'
    · have :=
        Int.mul_le_mul_of_nonneg_right (Int.add_one_le_of_lt h')
          (Int.natCast_nonneg den)
      rw [Int.add_mul, Int.add_mul] at this
      omega
    · omega

theorem roundHalfEven_closest (num : ℕ) (hden : 0 < den) (k : ℤ) :
    ((roundHalfEven num den : ℤ) * den - num).natAbs ≤ (k * den - num).natAbs ∧
    (k ≠ roundHalfEven num den →
      ((roundHalfEven num den : ℤ) * den - num).natAbs =
        (k * den - num).natAbs →
      Even (roundHalfEven num den : ℤ)) := by
  have hrest := Nat.mod_lt num hden
  have hnum : (num : ℤ) = (num / den : ℕ) * den + (num % den : ℕ) := by
    rw [← Nat.cast_mul, ← Nat.cast_add, Nat.div_add_mod']
  have hnext :
      ((num / den : ℕ) + 1 : ℤ) * den = (num / den : ℕ) * den + den := by
    rw [Int.add_mul, Int.one_mul]
  rw [Int.even_iff]
  rcases roundHalfEven_cases num den with ⟨h, hhalf⟩ | ⟨h, hhalf⟩ <;> rw [h] <;>
    rcases mul_le_or_eq_or_le_mul k (num / den : ℕ) den with
      hk | rfl | rfl | hk <;>
    push_cast at * <;> omega

theorem roundHalfEven_le {k : ℕ} (hden : 0 < den) (h : num ≤ k * den) :
    roundHalfEven num den ≤ k := by
  have hclosest := (roundHalfEven_closest num hden k).1
  refine Nat.le_of_not_lt fun hlt => ?_
  have hmore := Nat.mul_le_mul_right den (Nat.succ_le_of_lt hlt)
  rw [Nat.succ_mul] at hmore
  omega

theorem roundHalfEven_mono {num' : ℕ} (hden : 0 < den) (h : num ≤ num') :
    roundHalfEven num den ≤ roundHalfEven num' den := by
  rcases Nat.eq_or_lt_of_le h with rfl | hlt
  · exact Nat.le_refl _
  · have hlow := (roundHalfEven_closest num hden (roundHalfEven num' den)).1
    have hhigh := (roundHalfEven_closest num' hden (roundHalfEven num den)).1
    refine Nat.le_of_not_lt fun hcross => ?_
    have hcross := Nat.mul_lt_mul_of_pos_right hcross hden
    omega

/-- The rounded integer is off by at most a half, and it is even if it is off by
a half. -/
theorem roundHalfEven_error (num : ℕ) (hden : 0 < den) :
    2 * ((roundHalfEven num den : ℤ) * den - num).natAbs ≤ den ∧
    (2 * ((roundHalfEven num den : ℤ) * den - num).natAbs = den →
      roundHalfEven num den % 2 = 0) := by
  have hrest := Nat.mod_lt num hden
  have hnum : (num : ℤ) = (num / den : ℕ) * den + (num % den : ℕ) := by
    rw [← Nat.cast_mul, ← Nat.cast_add, Nat.div_add_mod']
  have hnext :
      ((num / den : ℕ) + 1 : ℤ) * den = (num / den : ℕ) * den + den := by
    rw [Int.add_mul, Int.one_mul]
  rcases roundHalfEven_cases num den with ⟨h, hhalf⟩ | ⟨h, hhalf⟩ <;> rw [h] <;>
    push_cast at * <;> omega

/-- No other integer is off by at most a half, and even if it is off by a half:
two such integers are a step apart, each off by a half, and only one of the two
is even. -/
theorem roundHalfEven_eq_of_error {k : ℕ} (hden : 0 < den)
    (herror : 2 * ((k : ℤ) * den - num).natAbs ≤ den)
    (heven : 2 * ((k : ℤ) * den - num).natAbs = den → k % 2 = 0) :
    roundHalfEven num den = k := by
  obtain ⟨hround, hroundEven⟩ := roundHalfEven_error num hden
  have hbelow := mul_le_or_eq_or_le_mul (roundHalfEven num den) k den
  have habove := mul_le_or_eq_or_le_mul k (roundHalfEven num den) den
  omega

/-- Rounding a quotient half to even gives the integer nearest to it. -/
theorem isRoundedInteger_roundHalfEven (negative : Bool) (num : ℕ)
    (hden : 0 < den) :
    IsRoundedInteger (withSign negative (roundHalfEven num den))
      (withSign negative num / den) := by
  have hplain : IsRoundedInteger (roundHalfEven num den) ((num : ℤ) / den) := by
    intro k
    have hdistance : ∀ v : ℤ, |(v : ℚ) - (num : ℤ) / den| =
        ((v * den - num).natAbs : ℚ) / den := by
      intro v
      have h := abs_div_sub_div v num Nat.one_pos hden
      rwa [Nat.cast_one, div_one, mul_one] at h
    obtain ⟨hle, heven⟩ := roundHalfEven_closest num hden k
    have hpos : (0 : ℚ) < den := Nat.cast_pos.2 hden
    rw [hdistance, hdistance, div_le_div_iff_of_pos_right hpos, Nat.cast_le,
      div_left_inj' hpos.ne', Nat.cast_inj]
    exact ⟨hle, heven⟩
  cases negative with
  | false => exact hplain
  | true =>
      have h := hplain.neg
      rwa [← neg_div, ← Int.cast_neg] at h

/-! ## Hundredths -/

theorem isRoundedInteger_hundredths (negative : Bool) (m : Magnitude) :
    IsRoundedInteger (withSign negative m.hundredths)
      (100 * (Double.signed negative m).exact) := by
  have hvalue : 100 * (Double.signed negative m).exact =
      withSign negative (100 * m.units) / unitsPerOne := by
    rw [Nat.mul_comm, ← withSign_mul, Double.exact, Double.value_signed]
    push_cast
    ring
  rw [hvalue]
  exact isRoundedInteger_roundHalfEven negative (100 * m.units) unitsPerOne_pos

theorem Magnitude.hundredths_le {m : Magnitude} {k : ℕ}
    (h : m.units ≤ k * unitsPerOne) :
    m.hundredths ≤ 100 * k := by
  refine roundHalfEven_le unitsPerOne_pos ?_
  rw [Nat.mul_assoc]
  exact Nat.mul_le_mul_left 100 h

theorem Magnitude.hundredths_mono {m n : Magnitude} (h : m.units ≤ n.units) :
    m.hundredths ≤ n.hundredths :=
  roundHalfEven_mono unitsPerOne_pos (Nat.mul_le_mul_left 100 h)

theorem Magnitude.hundredths_zero : Magnitude.zero.hundredths = 0 :=
  Nat.le_zero.1 (hundredths_le (k := 0) (by rw [units_zero, Nat.zero_mul]))

theorem Decimal.read?_hundredthsText (count : ℕ) :
    read? (hundredthsText count) = some ⟨count, -2⟩ := by
  have htenth : count / 10 % 10 < 10 := Nat.mod_lt _ (by decide)
  have hlast : count % 10 < 10 := Nat.mod_lt _ (by decide)
  have hwhole : ∀ c ∈ Nat.toDigits 10 (count / 100), c.isDigit := fun c hc =>
    Nat.isDigit_of_mem_toDigits (by decide) (by decide) hc
  have hfraction :
      ∀ c ∈ [Nat.digitChar (count / 10 % 10), Nat.digitChar (count % 10)],
      c.isDigit := by
    simp [htenth, hlast]
  have hread :=
    read?_point hwhole hfraction (.inl Nat.toDigits_ne_nil) ends_nil rfl
  have hcount : 10 * (10 * (count / 100) + count / 10 % 10) + count % 10 =
      count := by omega
  rw [Nat.ofDigitChars_append, Nat.ofDigitChars_ten_toDigits,
    Nat.ofDigitChars_cons_digitChar_of_lt_ten htenth,
    Nat.ofDigitChars_cons_digitChar_of_lt_ten hlast, Nat.ofDigitChars_nil,
    hcount] at hread
  exact hread

/-- The magnitude nearest to a number of hundredths. -/
def Magnitude.ofHundredths (count : ℕ) : Magnitude :=
  .nearest (count * unitsPerOne) 100

theorem Magnitude.units_ofHundredths_mono {h n : ℕ} (hle : h ≤ n) :
    (ofHundredths h).units ≤ (ofHundredths n).units :=
  units_nearest_mono (by decide) (Nat.mul_le_mul_right _ hle)

theorem Magnitude.ofHundredths_zero : ofHundredths 0 = .zero :=
  nearest_eq_zero (by decide) (by omega)

/-- Whatever was rounded to a number of hundredths, the double nearest to that
number is rounded to it again, since it is no farther from it than the
first double. -/
theorem Magnitude.hundredths_ofHundredths (m : Magnitude) :
    (ofHundredths m.hundredths).hundredths = m.hundredths := by
  obtain ⟨herror, heven⟩ := roundHalfEven_error (100 * m.units) unitsPerOne_pos
  have hclosest :=
    nearest_closest (m.hundredths * unitsPerOne) (by decide : 0 < 100) m
  rw [← hundredths] at herror heven
  rw [← ofHundredths] at hclosest
  push_cast at herror heven hclosest
  refine roundHalfEven_eq_of_error unitsPerOne_pos ?_ fun htie => heven ?_
  · push_cast
    omega
  · push_cast at htie
    omega

theorem Decimal.toMagnitude_hundredths (count : ℕ) :
    (Decimal.mk count (-2)).toMagnitude = .ofHundredths count := by
  rw [toMagnitude_eq_nearest, Magnitude.ofHundredths]
  simp

namespace Double

/-- What the numeral in hundredths says of a finite double is read, not
the double. -/
theorem read_toHundredths {m : Magnitude} (negative : Bool)
    (hm : m.isFinite = true) :
    read (toHundredths (signed negative m)) =
      .ok (.signed negative (.ofHundredths m.hundredths)) := by
  have hread :=
    readUnsigned_of_read? negative (Decimal.read?_hundredthsText m.hundredths)
  rw [Decimal.toMagnitude_hundredths] at hread
  rw [toHundredths, if_pos hm]
  cases negative with
  | true => exact (read_minus _).trans hread
  | false => exact read_of_readUnsigned hread

theorem read_toHundredths_of_not_isFinite {x : Double}
    (hx : x.isFinite = false) :
    read x.toHundredths = .ok x := by
  cases x with
  | nan => rfl
  | signed negative m =>
      obtain rfl :=
        Magnitude.eq_infinity_of_not_isFinite (Bool.eq_false_iff.1 hx)
      cases negative <;> rfl

end Double

end BenchReport
