import BenchReport.Proofs.Outcome
import BenchReport.Table.Ratio
import Mathlib.Data.List.Perm.Basic

/-!
# The rows of a table

The numbers of streams of a table are the distinct ones among its rows, each at
the place of its first row (`pairwise_xstreams`), and the partitions taken one
after another are the rows in another order (`perm_partitions`): a row stands in
the partition of its own number and in no other.

The rest is what the checks of a table look at in a row: whether it is the
baseline, and whether its time can be divided or divided by. Speedups fail with
the first row in the order of the file whose time cannot be divided by.
-/

namespace BenchReport

open Double (zero)

namespace Timing

variable {t : Timing}

theorem isBaseline_iff :
    t.isBaseline = true ↔ t.xstreams = 1 ∧ t.threads = 1 := by
  simp [isBaseline]

theorem isValid_iff :
    t.isValid = true ↔ t.nanos.isFinite = true ∧ zero < t.nanos := by
  simp [isValid]

end Timing

/-! ## Distinct values

`eraseDups` keeps the first of its list and goes on with what is left when that
value is dropped, and the inductions here follow it. -/

section Distinct

variable {α : Type} [DecidableEq α]

theorem eraseDups_sublist : ∀ l : List α, l.eraseDups.Sublist l
  | [] => by simp
  | a :: rest => by
      rw [List.eraseDups_cons]
      exact ((eraseDups_sublist _).trans List.filter_sublist).cons_cons a
termination_by l => l.length
decreasing_by exact Nat.lt_succ_of_le (List.length_filter_le _ _)

theorem nodup_eraseDups : ∀ l : List α, l.eraseDups.Nodup
  | [] => by simp
  | a :: rest => by
      rw [List.eraseDups_cons, List.nodup_cons]
      refine ⟨?_, nodup_eraseDups _⟩
      simp
termination_by l => l.length
decreasing_by exact Nat.lt_succ_of_le (List.length_filter_le _ _)

/-- Dropping some values does not change which of two others comes first. -/
theorem idxOf_lt_idxOf_of_filter {p : α → Bool} {a b : α} (ha : p a = true)
    (hb : p b = true) {l : List α}
    (h : (l.filter p).idxOf a < (l.filter p).idxOf b) :
    l.idxOf a < l.idxOf b := by
  induction l with
  | nil => simp at h
  | cons x rest ih =>
      by_cases hx : p x = true
      · rw [List.filter_cons_of_pos hx] at h
        simp only [List.idxOf_cons, cond_eq_ite, beq_iff_eq] at h ⊢
        split
        · next hxa =>
          rw [if_pos hxa] at h
          split
          · next hxb => simp [hxb] at h
          · omega
        · next hxa =>
          rw [if_neg hxa] at h
          split
          · next hxb => simp [hxb] at h
          · next hxb =>
            rw [if_neg hxb] at h
            have := ih (by omega)
            omega
      · rw [List.filter_cons_of_neg hx] at h
        have hxa : x ≠ a := by
          intro heq
          exact hx (heq ▸ ha)
        have hxb : x ≠ b := by
          intro heq
          exact hx (heq ▸ hb)
        simp only [List.idxOf_cons, cond_eq_ite, beq_iff_eq, hxa, hxb, if_false]
        have := ih h
        omega

theorem pairwise_idxOf_eraseDups :
    ∀ l : List α, l.eraseDups.Pairwise fun a b => l.idxOf a < l.idxOf b
  | [] => by simp
  | a :: rest => by
      have hrest := pairwise_idxOf_eraseDups (rest.filter fun b => !b == a)
      have hne : ∀ b ∈ (rest.filter fun b => !b == a).eraseDups, b ≠ a := by
        intro b hb
        rw [List.mem_eraseDups, List.mem_filter] at hb
        simpa using hb.2
      rw [List.eraseDups_cons, List.pairwise_cons]
      constructor
      · intro b hb
        have hba : a ≠ b := (hne b hb).symm
        simp [hba]
      · refine hrest.imp_of_mem ?_
        intro b c hb hc hlt
        have hba : a ≠ b := (hne b hb).symm
        have hca : a ≠ c := (hne c hc).symm
        have hfirst := idxOf_lt_idxOf_of_filter (by simpa using hba.symm)
          (by simpa using hca.symm) hlt
        simpa [List.idxOf_cons, hba, hca] using hfirst
termination_by l => l.length
decreasing_by exact Nat.lt_succ_of_le (List.length_filter_le _ _)

/-- The classes of some items, one after another, are the items in
another order. -/
theorem perm_flatMap_filter {β : Type} {f : β → α} {keys : List α}
    (hkeys : keys.Nodup) {l : List β} (hmem : ∀ b ∈ l, f b ∈ keys) :
    (keys.flatMap fun a => l.filter (f · = a)).Perm l := by
  induction l with
  | nil => simp
  | cons b rest ih =>
      obtain ⟨hb, hrest⟩ := List.forall_mem_cons.1 hmem
      obtain ⟨before, after, rfl⟩ := List.append_of_mem hb
      have hapart : f b ∉ before ∧ f b ∉ after := by
        rw [List.perm_middle.nodup_iff, List.nodup_cons, List.mem_append,
          not_or] at hkeys
        exact hkeys.1
      have hskip : ∀ as : List α, f b ∉ as →
          (as.flatMap fun a => (b :: rest).filter (f · = a)) =
            as.flatMap fun a => rest.filter (f · = a) := by
        intro as has
        refine List.flatMap_congr ?_
        intro a ha
        exact List.filter_cons_of_neg
          (by simpa using ne_of_mem_of_not_mem ha has |>.symm)
      have hrest := ih hrest
      simp only [List.flatMap_append, List.flatMap_cons] at hrest ⊢
      rw [hskip before hapart.1, hskip after hapart.2,
        List.filter_cons_of_pos (by simp), List.cons_append]
      exact List.perm_middle.trans (hrest.cons b)

end Distinct

namespace Table

variable {table : Table} {n : UInt32} {t : Timing}

/-! ## Streams and partitions -/

theorem mem_xstreams :
    n ∈ table.xstreams ↔ ∃ t ∈ table.rows, t.xstreams = n := by
  rw [xstreams, List.mem_eraseDups, List.mem_map]

theorem nodup_xstreams (table : Table) : table.xstreams.Nodup :=
  nodup_eraseDups _

theorem pairwise_xstreams (table : Table) : table.xstreams.Pairwise fun m n =>
    (table.rows.map (·.xstreams)).idxOf m <
      (table.rows.map (·.xstreams)).idxOf n :=
  pairwise_idxOf_eraseDups _

theorem partition_ne_nil (hn : n ∈ table.xstreams) :
    table.partition n ≠ [] := by
  obtain ⟨t, ht, hstreams⟩ := mem_xstreams.1 hn
  exact List.ne_nil_of_mem (List.mem_filter.2 ⟨ht, decide_eq_true hstreams⟩)

theorem perm_partitions (table : Table) :
    (table.xstreams.flatMap table.partition).Perm table.rows := by
  refine perm_flatMap_filter (f := Timing.xstreams) table.nodup_xstreams ?_
  intro t ht
  exact mem_xstreams.2 ⟨t, ht, rfl⟩

/-! ## Times that can be divided or divided by -/

theorem isDividend_iff :
    isDividend t = true ↔ t.nanos.isFinite = true ∧ zero ≤ t.nanos := by
  simp [isDividend]

theorem speedups_of_isValid (hvalid : ∀ t ∈ table.rows, t.isValid = true)
    (baseline : Double) :
    table.speedups baseline = .ok (table.rows.map (baseline / ·.nanos)) := by
  rw [speedups, mapM_eq_ok_iff, List.forall₂_map_right_iff, List.forall₂_same]
  intro t ht
  rw [speedup, if_pos (hvalid t ht)]

theorem speedups_of_first {before after : List Timing}
    (hrows : table.rows = before ++ t :: after)
    (hbefore : ∀ u ∈ before, u.isValid = true) (ht : ¬ t.isValid = true)
    (baseline : Double) :
    table.speedups baseline = .error (.invalidTiming table.name t) := by
  rw [speedups, mapM_eq_error_iff]
  refine ⟨before, t, after, hrows, ?_, ?_⟩
  · intro u hu
    exact ⟨baseline / u.nanos, by rw [speedup, if_pos (hbefore u hu)]⟩
  · rw [speedup, if_neg ht]

theorem speedups_of_not_isValid
    (hinvalid : ∃ t ∈ table.rows, ¬ t.isValid = true) (baseline : Double) :
    ∃ t, table.speedups baseline = .error (.invalidTiming table.name t) := by
  have hsome : (table.rows.find? (!·.isValid)).isSome := by
    simpa using hinvalid
  obtain ⟨t, hfound⟩ := Option.isSome_iff_exists.1 hsome
  obtain ⟨ht, before, after, hrows, hbefore⟩ :=
    List.find?_eq_some_iff_append.1 hfound
  refine ⟨t, speedups_of_first hrows ?_ (by simpa using ht) baseline⟩
  intro u hu
  simpa using hbefore u hu

end Table

end BenchReport
