import Mathlib.Algebra.BigOperators.Group.List.Basic
import BenchReport.Proofs.Double.Order

/-!
# Sums that do not depend on the order

A sum of two numbers is the same both ways, but a sum of three is rounded twice,
and what is lost depends on which two come first. Nothing is lost where every
sum on the way is a double already. That is so for multiples of one power of two
whose sizes add up to less than 2^53 of it (`AddExactly`): whatever has been
added so far, its value is the sum of the values, and its sign can be told from
the values alone. So the result is one that no permutation changes, `exactSum`.
-/

namespace BenchReport.Double

variable {a b : Double}

/-! ## Two numbers -/

theorem add_comm (a b : Double) : a + b = b + a := by
  show add a b = add b a
  cases a with
  | nan => cases b <;> rfl
  | signed s m =>
      cases b with
      | nan => rfl
      | signed t n =>
          rw [add, add, Bool.and_comm, Int.add_comm, Bool.and_comm s t]
          cases hm : m.isFinite with
          | true => cases hn : n.isFinite <;> rfl
          | false =>
              obtain rfl :=
                Magnitude.eq_infinity_of_not_isFinite (Bool.eq_false_iff.1 hm)
              cases hn : n.isFinite with
              | true => rfl
              | false =>
                  obtain rfl :=
                    Magnitude.eq_infinity_of_not_isFinite
                      (Bool.eq_false_iff.1 hn)
                  cases s <;> cases t <;> rfl

/-- The double nearest to the value of a number is that number, zero apart. -/
theorem ofUnits_value {s : Bool} {m : Magnitude} (h : (signed s m).value ≠ 0) :
    ofUnits (signed s m).value = .signed s m := by
  have hexact := Magnitude.nearest_exact m Nat.one_pos
  rw [Nat.mul_one] at hexact
  rw [ofUnits, natAbs_value, hexact]
  congr 1
  cases s with
  | false =>
      rw [value_positive]
      exact decide_eq_false (by omega)
  | true =>
      rw [value_negative] at h ⊢
      exact decide_eq_true (by omega)

theorem eq_zero_of_value_eq_zero {s : Bool} {m : Magnitude}
    (h : (signed s m).value = 0) :
    m = .zero := by
  refine Magnitude.eq_of_rank_eq (Magnitude.units_eq_zero_iff.1 ?_)
  rw [← natAbs_value s, h]
  rfl

theorem value_negativeZero : negativeZero.value = 0 := by
  rw [negativeZero, value_negative, Magnitude.units_zero]
  rfl

/-- The negative zero changes no number that it is added to. -/
theorem negativeZero_add (a : Double) : negativeZero + a = a := by
  cases a with
  | nan => rfl
  | signed s m =>
      by_cases hm : m.isFinite = true
      · have hzero : (signed true .zero).value = 0 := value_negativeZero
        rw [negativeZero, add_of_finite (by decide) hm, hzero, Int.zero_add]
        split
        · next hvalue =>
          rw [eq_zero_of_value_eq_zero hvalue, Bool.true_and]
        · next hvalue => exact ofUnits_value hvalue
      · obtain rfl := Magnitude.eq_infinity_of_not_isFinite hm
        cases s with
        | false => exact add_infinity (by decide)
        | true => exact add_negativeInfinity (by decide)

/-! ## Exact sums -/

/-- Whether no sum of some of the values is rounded: they are finite multiples
of one power of two, and all sizes together are less than 2^53 of it, and less
than infinity. -/
def AddExactly (values : List Double) : Prop :=
  ∃ k : Nat, (∀ v ∈ values, v.isFinite = true ∧ 2 ^ k ∣ v.value.natAbs) ∧
    (values.map (·.value.natAbs)).sum < 2 ^ 53 * 2 ^ k ∧
    (values.map (·.value.natAbs)).sum < Magnitude.infinity.units

/-- The sum of the values without any rounding on the way; it is the negative
zero only for negative zeros. -/
def exactSum (values : List Double) : Double :=
  if (values.map value).sum = 0 then
    .signed (values.all (· = negativeZero)) .zero
  else ofUnits (values.map value).sum

variable {values : List Double}

theorem AddExactly.of_append {later : List Double}
    (h : AddExactly (values ++ later)) :
    AddExactly values := by
  obtain ⟨k, hall, hsum, hfinite⟩ := h
  rw [List.map_append, List.sum_append] at hsum hfinite
  exact ⟨k, fun v hv => hall v (List.mem_append_left _ hv), by omega, by omega⟩

theorem AddExactly.perm {others : List Double} (h : AddExactly values)
    (hperm : values.Perm others) : AddExactly others := by
  obtain ⟨k, hall, hsum, hfinite⟩ := h
  have hmap := (hperm.map (·.value.natAbs)).sum_nat
  exact ⟨k, fun v hv => hall v (hperm.mem_iff.2 hv), hmap ▸ hsum,
    hmap ▸ hfinite⟩

theorem exactSum_perm {others : List Double} (hperm : values.Perm others) :
    exactSum values = exactSum others := by
  rw [exactSum, exactSum, (hperm.map value).sum_eq, hperm.all_eq]

theorem natAbs_sum_le (values : List Double) :
    (values.map value).sum.natAbs ≤ (values.map (·.value.natAbs)).sum := by
  induction values with
  | nil => exact Nat.le_refl _
  | cons v rest ih =>
      rw [List.map_cons, List.map_cons, List.sum_cons, List.sum_cons]
      have := Int.natAbs_add_le v.value (rest.map value).sum
      omega

theorem dvd_sum {k : Nat} (h : ∀ v ∈ values, 2 ^ k ∣ v.value.natAbs) :
    2 ^ k ∣ (values.map value).sum.natAbs := by
  induction values with
  | nil => exact Nat.dvd_zero _
  | cons v rest ih =>
      obtain ⟨hv, hrest⟩ := List.forall_mem_cons.1 h
      rw [List.map_cons, List.sum_cons]
      exact Int.ofNat_dvd_left.1 (Int.dvd_add (Int.ofNat_dvd_left.2 hv)
        (Int.ofNat_dvd_left.2 (ih hrest)))

/-- An exact sum is a double: the sum of the values has a magnitude of
that size. -/
theorem AddExactly.exists_units_eq (h : AddExactly values) :
    ∃ m : Magnitude, m.isFinite = true ∧ m.units =
      (values.map value).sum.natAbs := by
  obtain ⟨k, hall, hsum, hfinite⟩ := h
  have hle := natAbs_sum_le values
  obtain ⟨n, hn⟩ := dvd_sum fun v hv => (hall v hv).2
  rw [Nat.mul_comm] at hn
  have hcount : n < 2 ^ 53 :=
    Nat.lt_of_mul_lt_mul_right (hn ▸ Nat.lt_of_le_of_lt hle hsum)
  obtain ⟨m, hm⟩ := Magnitude.exists_units_eq hcount (k := k) (by omega)
  exact ⟨m, Magnitude.isFinite_iff.2 (by omega), hm.trans hn.symm⟩

/-- What is added up is told by its value, and by its sign where that
is zero. -/
theorem AddExactly.exactSum_eq (h : AddExactly values) :
    ∃ s m, exactSum values = .signed s m ∧ m.isFinite = true ∧
      (signed s m).value = (values.map value).sum ∧
      ((values.map value).sum = 0 → s = values.all (· = negativeZero)) := by
  obtain ⟨m, hm, hunits⟩ := h.exists_units_eq
  by_cases hzero : (values.map value).sum = 0
  · refine ⟨_, _, if_pos hzero, by decide, ?_, fun _ => rfl⟩
    have hvalue := natAbs_value (values.all (· = negativeZero)) .zero
    rw [Magnitude.units_zero] at hvalue
    omega
  · have hexact := Magnitude.nearest_exact m Nat.one_pos
    rw [Nat.mul_one, hunits] at hexact
    refine ⟨_, m, (if_neg hzero).trans (by rw [ofUnits, hexact]), hm, ?_,
      fun h => absurd h hzero⟩
    by_cases hneg : (values.map value).sum < 0
    · rw [decide_eq_true hneg, value_negative, hunits]
      omega
    · rw [decide_eq_false hneg, value_positive, hunits]
      omega

theorem sum_eq_zero_of_all (h : values.all (· = negativeZero) = true) :
    (values.map value).sum = 0 := by
  refine List.sum_eq_zero (List.forall_mem_map.2 fun v hv => ?_)
  rw [of_decide_eq_true (List.all_eq_true.1 h v hv), value_negativeZero]

/-- One more value keeps a sum exact. -/
theorem exactSum_concat {v : Double} (h : AddExactly (values ++ [v])) :
    exactSum values + v = exactSum (values ++ [v]) := by
  obtain ⟨s, m, hsum, hm, hvalue, hsign⟩ := h.of_append.exactSum_eq
  obtain ⟨k, hall, -, -⟩ := h
  have hv := (hall v (List.mem_append_right _ (List.mem_singleton_self v))).1
  cases v with
  | nan => cases hv
  | signed t n =>
      have htotal : ((values ++ [signed t n]).map value).sum =
          (signed s m).value + (signed t n).value := by
        rw [List.map_append, List.sum_append, hvalue, List.map_singleton,
          List.sum_singleton]
      rw [hsum, add_of_finite hm hv, exactSum, htotal]
      split
      · next hzero =>
        congr 1
        rw [List.all_append, List.all_cons, List.all_nil, Bool.and_true]
        by_cases hnone : (values.map value).sum = 0
        · have hn : n = .zero := eq_zero_of_value_eq_zero (s := t) (by omega)
          rw [hsign hnone, hn]
          cases t <;> rfl
        · -- Opposite numbers: one of them is positive, and not all are zeros.
          have hall : values.all (· = negativeZero) = false :=
            Bool.eq_false_iff.2 fun hall => hnone (sum_eq_zero_of_all hall)
          rw [hall, Bool.false_and]
          cases s with
          | false => rfl
          | true =>
              cases t with
              | false => rfl
              | true =>
                  rw [value_negative, value_negative] at hzero
                  rw [value_negative] at hvalue
                  omega
      · rfl

/-- Values that add up exactly give their exact sum, added up in their order. -/
theorem foldl_add_eq_exactSum (h : AddExactly values) :
    values.foldl (· + ·) .negativeZero = exactSum values := by
  have hrun : ∀ later before : List Double, AddExactly (before ++ later) →
      later.foldl (· + ·) (exactSum before) = exactSum (before ++ later) := by
    intro later
    induction later with
    | nil =>
        intro before _
        rw [List.append_nil]
        rfl
    | cons v rest ih =>
        intro before h
        rw [List.append_cons] at h ⊢
        rw [List.foldl_cons, exactSum_concat h.of_append]
        exact ih (before ++ [v]) h
  exact hrun values [] h

theorem foldl_add_perm {others : List Double} (hperm : values.Perm others)
    (h : AddExactly values) :
    values.foldl (· + ·) negativeZero = others.foldl (· + ·) .negativeZero := by
  rw [foldl_add_eq_exactSum h, foldl_add_eq_exactSum (h.perm hperm),
    exactSum_perm hperm]

/-- Two values need not add up exactly: the sum starts from the
negative zero. -/
theorem foldl_add_perm_of_length_le {others : List Double}
    (hperm : values.Perm others) (h : values.length ≤ 2) :
    values.foldl (· + ·) negativeZero = others.foldl (· + ·) .negativeZero := by
  induction hperm with
  | nil => rfl
  | @cons v rest rest' hrest _ =>
      have hshort : rest.length ≤ 1 := Nat.le_of_succ_le_succ h
      have heq : rest = rest' := by
        match rest, hshort with
        | [], _ => exact hrest.nil_eq
        | [w], _ => exact (List.perm_singleton.1 hrest.symm).symm
      rw [heq]
  | swap v w rest =>
      obtain rfl : rest = [] := List.eq_nil_of_length_eq_zero (by
        rw [List.length_cons, List.length_cons] at h
        omega)
      simp only [List.foldl_cons, List.foldl_nil, negativeZero_add,
        add_comm v w]
  | trans hfirst _ ih ih' => exact (ih h).trans (ih' (hfirst.length_eq ▸ h))

end BenchReport.Double
