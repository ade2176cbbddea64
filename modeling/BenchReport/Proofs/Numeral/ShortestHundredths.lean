import BenchReport.Proofs.Numeral.Hundredths

/-!
# Hundredths are their shortest digits

A double that stands for a number of hundredths is seldom that number, and what
is written are the shortest digits of the double. Up to 10^13 they are still the
digits of the hundredths. Doubles lie less than a fifth of a hundredth apart
there, so between two neighbouring hundredths there are two doubles
(`exists_units_between`): each number of hundredths has a double of its own, and
one of its two neighbours on the grid of hundredths reads back. The search is
over at that grid at the latest, and a decimal on a coarser one is a number of
hundredths as well (`exists_shortest_ofHundredths`).
-/

namespace BenchReport

namespace Magnitude

variable {h n : ℕ}

/-! ## The spacing of doubles and of hundredths -/

theorem exists_units_eq_div {a : ℕ} (ha : a < 2 ^ 53) :
    ∃ m : Magnitude, 512 * m.units = a * unitsPerOne := by
  have hstep : unitsPerOne = 512 * 2 ^ 1065 := by decide +kernel
  have hroom : 2 ^ 53 * 2 ^ 1065 ≤ infinity.units := by decide +kernel
  obtain ⟨m, hm⟩ :=
    exists_units_eq ha ((Nat.mul_le_mul_right _ (Nat.le_of_lt ha)).trans hroom)
  exact ⟨m, by rw [hm, hstep, Nat.mul_left_comm]⟩

/-- Two magnitudes, multiples of 1/512, lie from one number of hundredths to
the next. -/
theorem exists_units_between (hh : h ≤ 10 ^ 15) :
    ∃ low high : Magnitude, low.units < high.units ∧
      h * unitsPerOne ≤ low.units * 100 ∧ high.units * 100 ≤
        (h + 1) * unitsPerOne := by
  -- A hundredth is more than five steps of 1/512, so after the first of them
  -- there is another.
  obtain ⟨a, hlow, hhigh⟩ :
    ∃ a, 512 * h ≤ 100 * a ∧ 100 * (a + 1) ≤ 512 * (h + 1) :=
    ⟨(512 * h + 99) / 100, by omega, by omega⟩
  obtain ⟨low, hlowUnits⟩ := exists_units_eq_div (a := a) (by omega)
  obtain ⟨high, hhighUnits⟩ := exists_units_eq_div (a := a + 1) (by omega)
  have hlow := Nat.mul_le_mul_right unitsPerOne hlow
  have hhigh := Nat.mul_le_mul_right unitsPerOne hhigh
  have hpos := unitsPerOne_pos
  rw [Nat.mul_assoc, Nat.mul_assoc, ← hlowUnits] at hlow
  rw [Nat.mul_assoc, Nat.mul_assoc, ← hhighUnits] at hhigh
  rw [Nat.add_mul] at hhighUnits
  exact ⟨low, high, by omega, by omega, by omega⟩

/-- A number of hundredths and its double are on the same side of another number
of hundredths. -/
theorem units_ofHundredths_between (hh : h ≤ 10 ^ 15) :
    (ofHundredths h).units * 100 < (h + 1) * unitsPerOne ∧
      h * unitsPerOne < (ofHundredths (h + 1)).units * 100 ∧
      (ofHundredths h).units < (ofHundredths (h + 1)).units := by
  obtain ⟨low, high, hlt, hlow, hhigh⟩ := exists_units_between hh
  have hbelow : (ofHundredths h).units ≤ low.units :=
    units_nearest_le (by decide) hlow
  have habove : high.units ≤ (ofHundredths (h + 1)).units :=
    le_units_nearest (by decide) hhigh
  omega

theorem ofHundredths_inj (hh : h ≤ 10 ^ 15)
    (heq : ofHundredths n = ofHundredths h) : n = h := by
  rcases Nat.lt_trichotomy n h with hlt | rfl | hlt
  · have hnext := (units_ofHundredths_between (h := n) (by omega)).2.2
    have hmono := units_ofHundredths_mono (by omega : n + 1 ≤ h)
    rw [heq] at hnext
    omega
  · rfl
  · have hnext := (units_ofHundredths_between hh).2.2
    have hmono := units_ofHundredths_mono (by omega : h + 1 ≤ n)
    rw [heq] at hmono
    omega

theorem unitsPerOne_le_ofHundredths (hpos : 0 < h) :
    unitsPerOne ≤ (ofHundredths h).units * 100 := by
  have hleast : unitsPerOne ≤ (ofHundredths 1).units * 100 := by decide +kernel
  exact hleast.trans (Nat.mul_le_mul_right 100 (units_ofHundredths_mono hpos))

theorem ofHundredths_lt (hh : h ≤ 10 ^ 15) :
    (ofHundredths h).units * 100 < 10 ^ 17 * unitsPerOne :=
  Nat.lt_of_lt_of_le (units_ofHundredths_between hh).1
    (Nat.mul_le_mul_right _ (by omega))

theorem rank_ofHundredths_ne_zero (hpos : 0 < h) :
    (ofHundredths h).rank ≠ 0 := by
  have hle := unitsPerOne_le_ofHundredths hpos
  have hone := unitsPerOne_pos
  rw [ne_eq, ← units_eq_zero_iff]
  omega

theorem isFinite_ofHundredths (hh : h ≤ 10 ^ 15) :
    (ofHundredths h).isFinite = true := by
  have hlt := ofHundredths_lt hh
  have hroom : 10 ^ 17 * unitsPerOne ≤ infinity.units := by decide +kernel
  rw [isFinite_iff]
  omega

/-! ## The search -/

theorem isSome_onGrid? {tie : Tie} {m : Magnitude} {exponent : ℤ} (below : ℕ)
    (hbelow : m.units * Nat.pow 10 (-exponent).toNat /
      (unitsPerOne * Nat.pow 10 exponent.toNat) = below)
    (h : (Decimal.mk below exponent).toMagnitude = m ∨
      (Decimal.mk (below + 1) exponent).toMagnitude = m) :
    (m.onGrid? tie exponent).isSome := by
  unfold onGrid?
  dsimp only
  rw [hbelow]
  generalize compare (2 * (_ : ℕ)) _ = order
  split
  · split
    · split <;> rfl
    · rfl
  · next hne =>
      rw [if_pos (h.resolve_left hne)]
      rfl

/-- The search goes no further than to a grid that has a decimal. -/
theorem exists_onGrid?_eq_shortest {tie : Tie} {m : Magnitude} {digits : ℕ}
    (hdigits : digits < 17)
    (h : (m.onGrid? tie (m.leadingExponent - digits)).isSome) :
    ∃ n ≤ digits, m.onGrid? tie (m.leadingExponent - n) =
      some (m.shortest tie) := by
  rw [shortest]
  cases htried : (List.range 17).findSome? fun (digits : ℕ) =>
      m.onGrid? tie (m.leadingExponent - digits) with
  | none =>
      rw [List.findSome?_eq_none_iff.1 htried digits (List.mem_range.2 hdigits)]
        at h
      cases h
  | some d =>
      obtain ⟨before, n, after, hrange, hgrid, hnone⟩ :=
        List.findSome?_eq_some_iff.1 htried
      refine ⟨n, ?_, hgrid⟩
      have hmem : digits ∈ before ++ n :: after :=
        hrange ▸ List.mem_range.2 hdigits
      have hascending : (before ++ n :: after).Pairwise (· < ·) :=
        hrange ▸ List.pairwise_lt_range
      rcases List.mem_append.1 hmem with hbefore | hafter
      · rw [hnone digits hbefore] at h
        cases h
      · rcases List.mem_cons.1 hafter with rfl | hafter
        · exact Nat.le_refl _
        · have htail := (List.pairwise_append.1 hascending).2.1
          exact Nat.le_of_lt (List.rel_of_pairwise_cons htail hafter)

theorem isSome_onGrid?_ofHundredths (tie : Tie) (hpos : 0 < h)
    (hh : h ≤ 10 ^ 15) :
    ((ofHundredths h).onGrid? tie (-2)).isSome := by
  obtain ⟨below, rfl⟩ : ∃ below, h = below + 1 := ⟨h - 1, by omega⟩
  have hafter := (units_ofHundredths_between hh).1
  have hbefore := (units_ofHundredths_between (h := below) (by omega)).2.1
  have hnum : Nat.pow 10 (-(-2 : ℤ)).toNat = 100 := rfl
  have hden : Nat.pow 10 (-2 : ℤ).toNat = 1 := rfl
  -- The double may lie on either side of its hundredths.
  rcases Nat.lt_or_ge ((ofHundredths (below + 1)).units * 100)
    ((below + 1) * unitsPerOne) with
    hside | hside
  · refine isSome_onGrid? below ?_ (.inr (Decimal.toMagnitude_hundredths _))
    rw [hnum, hden, Nat.mul_one]
    exact Nat.div_eq_of_lt_le hbefore.le hside
  · refine isSome_onGrid? (below + 1) ?_
      (.inl (Decimal.toMagnitude_hundredths _))
    rw [hnum, hden, Nat.mul_one]
    exact Nat.div_eq_of_lt_le hside hafter

theorem leadingExponent_ofHundredths (hpos : 0 < h) (hh : h ≤ 10 ^ 15) :
    -2 ≤ (ofHundredths h).leadingExponent ∧
      (ofHundredths h).leadingExponent ≤ 14 := by
  obtain ⟨p, hp, hpow, hpowLow, hpowHigh⟩ :
      ∃ p, 0 < p ∧ Nat.pow 10 324 = 100 * p ∧ 10 ^ 322 = p ∧
        10 ^ 339 = 10 ^ 17 * p :=
    ⟨Nat.pow 10 322, by decide +kernel⟩
  have hmany :
      ¬ digitCount ((ofHundredths h).units * Nat.pow 10 324 / unitsPerOne) ≤
        322 := by
    rw [digitCount_le_iff (by decide), Nat.not_lt,
      Nat.le_div_iff_mul_le unitsPerOne_pos, hpow, hpowLow, ← Nat.mul_assoc,
      Nat.mul_comm p]
    exact Nat.mul_le_mul_right p (unitsPerOne_le_ofHundredths hpos)
  have hfew :
      digitCount ((ofHundredths h).units * Nat.pow 10 324 / unitsPerOne) ≤
        339 := by
    rw [digitCount_le_iff (by decide), Nat.div_lt_iff_lt_mul unitsPerOne_pos,
      hpow, hpowHigh, ← Nat.mul_assoc, Nat.mul_right_comm (10 ^ 17)]
    exact Nat.mul_lt_mul_of_pos_right (ofHundredths_lt hh) hp
  rw [leadingExponent]
  omega

/-- The shortest decimal is the number of hundredths, zeros at its end aside. -/
theorem exists_shortest_ofHundredths (tie : Tie) (hpos : 0 < h)
    (hh : h ≤ 10 ^ 15) :
    ∃ c j : ℕ, c * 10 ^ j = h ∧ (ofHundredths h).shortest tie =
      ⟨c, -2 + j⟩ := by
  obtain ⟨hlow, hhigh⟩ := leadingExponent_ofHundredths hpos hh
  have hgrid := isSome_onGrid?_ofHundredths tie hpos hh
  obtain ⟨digits, hdigits⟩ :
    ∃ digits : ℕ, (ofHundredths h).leadingExponent - digits = -2 :=
    ⟨((ofHundredths h).leadingExponent + 2).toNat, by omega⟩
  rw [← hdigits] at hgrid
  -- What is found has at most as many digits, so its grid is the one of
  -- hundredths or coarser.
  obtain ⟨n, hn, hfound⟩ := exists_onGrid?_eq_shortest (by omega) hgrid
  obtain ⟨hexponent, hvalue⟩ := onGrid?_sound hfound
  generalize (ofHundredths h).shortest tie = d at hexponent hvalue ⊢
  obtain ⟨c, e⟩ := d
  obtain rfl : e = _ := hexponent
  obtain ⟨j, hj⟩ : ∃ j : ℕ, (ofHundredths h).leadingExponent - n = -2 + j :=
    ⟨((ofHundredths h).leadingExponent - n + 2).toNat, by omega⟩
  rw [hj] at hvalue ⊢
  refine ⟨c, j, ofHundredths_inj hh ?_, rfl⟩
  rw [← hvalue, ← Decimal.toMagnitude_mul_pow, Decimal.toMagnitude_hundredths]

end Magnitude

/-! ## The digits -/

/-- The one or two decimal places that a number of hundredths needs. -/
def hundredthsPlaces (count : ℕ) : List Char :=
  Nat.digitChar (count / 10 % 10) ::
    if count % 10 = 0 then [] else [Nat.digitChar (count % 10)]

/-- The numeral of a number of hundredths, with a second decimal place only if
it is no zero. -/
def hundredthsNumeral (count : ℕ) : List Char :=
  Nat.toDigits 10 (count / 100) ++ '.' :: hundredthsPlaces count

theorem digitChar_ne_zero {d : ℕ} (hd : d < 10) (hne : d ≠ 0) :
    Nat.digitChar d ≠ '0' := by
  decide +revert

theorem significantDigits_mul_pow {n : ℕ} (hn : 0 < n) (j : ℕ) :
    significantDigits (n * 10 ^ j) = significantDigits n := by
  have hzeros : ∀ c ∈ List.replicate j '0', decide (c = '0') = true :=
    fun c hc => decide_eq_true (List.eq_of_mem_replicate hc)
  rw [significantDigits, toDigits_mul_pow hn, List.reverse_append,
    List.reverse_replicate, List.dropWhile_append_of_pos hzeros,
    significantDigits]

theorem significantDigits_of_mod_ne_zero {n : ℕ} (hn : 10 ≤ n)
    (h : n % 10 ≠ 0) :
    significantDigits n = Nat.toDigits 10 (n / 10) ++
      [Nat.digitChar (n % 10)] := by
  have hlast : Nat.digitChar (n % 10) ≠ '0' :=
    digitChar_ne_zero (Nat.mod_lt n (by decide)) h
  rw [significantDigits, Nat.toDigits_of_base_le (by decide) hn,
    List.reverse_append, List.reverse_singleton, List.singleton_append,
    List.dropWhile_cons_of_neg (by simpa using hlast), List.reverse_cons,
    List.reverse_reverse]

theorem toDigits_tenths {h : ℕ} (hh : 100 ≤ h) :
    Nat.toDigits 10 (h / 10) = Nat.toDigits 10 (h / 100) ++
      [Nat.digitChar (h / 10 % 10)] := by
  rw [Nat.toDigits_of_base_le (by decide) (by omega : 10 ≤ h / 10),
    Nat.div_div_eq_div_mul]

theorem significantDigits_hundredths {h : ℕ} (hh : 100 ≤ h)
    (hrest : h % 100 ≠ 0) :
    significantDigits h = Nat.toDigits 10 (h / 100) ++ hundredthsPlaces h := by
  by_cases hlast : h % 10 = 0
  · have htenths : h = h / 10 * 10 ^ 1 := by omega
    calc significantDigits h
        = significantDigits (h / 10 * 10 ^ 1) := congrArg _ htenths
      _ = significantDigits (h / 10) := significantDigits_mul_pow (by omega) 1
      _ = Nat.toDigits 10 (h / 10 / 10) ++ [Nat.digitChar (h / 10 % 10)] :=
          significantDigits_of_mod_ne_zero (by omega) (by omega)
      _ = Nat.toDigits 10 (h / 100) ++ hundredthsPlaces h := by
          rw [Nat.div_div_eq_div_mul, hundredthsPlaces, if_pos hlast]
  · rw [significantDigits_of_mod_ne_zero (by omega) hlast, toDigits_tenths hh,
      hundredthsPlaces, if_neg hlast, List.append_assoc]
    rfl

namespace NumeralStyle

variable {h : ℕ}

theorem decimalText_mul_pow (style : NumeralStyle) {c : ℕ} (hc : 0 < c) (j : ℕ)
    (e : ℤ) :
    style.decimalText ⟨c * 10 ^ j, e⟩ = style.decimalText ⟨c, e + j⟩ := by
  rw [decimalText, decimalText, ← significantDigits, ← significantDigits,
    significantDigits_mul_pow hc, Decimal.leadingExponent_mul_pow hc]

theorem positionalText_whole (style : NumeralStyle) {digits whole : List Char}
    {k : ℕ} (hwhole : whole = digits ++ List.replicate k '0')
    (hne : whole ≠ []) :
    style.positionalText digits (whole.length - 1) =
      whole ++ style.wholeEnd := by
  have hpos := List.length_pos_of_ne_nil hne
  have hlength : whole.length = digits.length + k := by
    rw [hwhole, List.length_append, List.length_replicate]
  have hcount : ((whole.length : ℤ) - 1).toNat + 1 = digits.length + k := by
    omega
  simp only [positionalText, hcount]
  rw [if_neg (by omega), if_pos (by omega), Nat.add_sub_cancel_left, ← hwhole]

theorem positionalText_fraction (style : NumeralStyle)
    {whole fraction : List Char} (hwhole : whole ≠ [])
    (hfraction : fraction ≠ []) :
    style.positionalText (whole ++ fraction) (whole.length - 1) =
      whole ++ '.' :: fraction := by
  have hpos := List.length_pos_of_ne_nil hwhole
  have hmore := List.length_pos_of_ne_nil hfraction
  have hcount : ((whole.length : ℤ) - 1).toNat + 1 = whole.length := by omega
  simp only [positionalText, hcount, List.length_append]
  rw [if_neg (by omega), if_neg (by omega), List.take_left, List.drop_left]

/-- Less than one is written with zeros in front of the significant digits. -/
theorem decimalText_fractional_of_lt :
    ∀ h < 100, h ≠ 0 → fractional.decimalText ⟨h, -2⟩ =
      hundredthsNumeral h := by
  decide +kernel

theorem decimalText_fractional (hpos : 0 < h) (hh : h ≤ 10 ^ 15) :
    fractional.decimalText ⟨h, -2⟩ = hundredthsNumeral h := by
  rcases Nat.lt_or_ge h 100 with hsmall | hlarge
  · exact decimalText_fractional_of_lt h hsmall (by omega)
  have hwhole : Nat.toDigits 10 (h / 100) ≠ [] := Nat.toDigits_ne_nil
  have hcount : digitCount h = (Nat.toDigits 10 (h / 100)).length + 2 := by
    rw [digitCount, Nat.toDigits_of_base_le (by decide) (by omega : 10 ≤ h),
      toDigits_tenths hlarge, List.length_append, List.length_append]
    rfl
  have hleading : (Decimal.mk h (-2)).leadingExponent =
      ((Nat.toDigits 10 (h / 100)).length : ℤ) - 1 := by
    simp only [Decimal.leadingExponent, hcount]
    omega
  have hpositional :
      fractional.positional (Decimal.mk h (-2)).leadingExponent = true := by
    have hfew : digitCount h ≤ 16 :=
      (digitCount_le_iff (by decide)).2 (by omega)
    simp only [fractional, hleading, Bool.and_eq_true, decide_eq_true_eq]
    omega
  rw [decimalText, if_pos hpositional, hleading, ← significantDigits,
    hundredthsNumeral]
  -- Whole numbers have no place to show, and are filled up with zeros before
  -- the point.
  by_cases hrest : h % 100 = 0
  · obtain ⟨k, hk⟩ := toDigits_eq_significantDigits (h / 100)
    have hhundred : significantDigits h = significantDigits (h / 100) :=
      (congrArg _ (by omega : h = h / 100 * 10 ^ 2)).trans
        (significantDigits_mul_pow (by omega) 2)
    have hplaces : hundredthsPlaces h = ['0'] := by
      rw [hundredthsPlaces, if_pos (by omega), (by omega : h / 10 % 10 = 0)]
      rfl
    rw [hhundred, positionalText_whole _ hk hwhole, hplaces]
    rfl
  · rw [significantDigits_hundredths hlarge hrest]
    exact positionalText_fraction _ hwhole (List.cons_ne_nil _ _)

/-- The digits of the double are those of the hundredths. -/
theorem magnitudeText_ofHundredths (hh : h ≤ 10 ^ 15) :
    fractional.magnitudeText (.ofHundredths h) = hundredthsNumeral h := by
  rcases Nat.eq_zero_or_pos h with rfl | hpos
  · decide +kernel
  obtain ⟨c, j, rfl, hshortest⟩ :=
    Magnitude.exists_shortest_ofHundredths fractional.tie hpos hh
  rw [magnitudeText, if_neg (Magnitude.rank_ofHundredths_ne_zero hpos),
    if_pos (Magnitude.isFinite_ofHundredths hh), hshortest,
    ← decimalText_mul_pow _ (Nat.pos_of_mul_pos_right hpos)]
  exact decimalText_fractional hpos hh

example :
    fractional.magnitudeText (.ofHundredths 250) = "2.5".toList := by
      decide +kernel

end NumeralStyle

end BenchReport
