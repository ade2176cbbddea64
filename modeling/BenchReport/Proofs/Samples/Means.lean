import BenchReport.Proofs.Double.Sum
import BenchReport.Proofs.Samples.History
import BenchReport.Samples.Summary

/-!
# Means and the order of runs

The runs of a group come in some order, and a permutation of all runs permutes
the times of each setting. So the settings and the numbers of their times do not
depend on the order. A mean can depend on it, because its sum is rounded at each
step: `summaries_reverse_ne` has three times that have another mean from back to
front. It does not where there are at most two times, or where they add up
exactly.
-/

namespace BenchReport

/-! ## Summaries of settings -/

/-- Lists that ascend by settings are equal if they have the same members. -/
theorem eq_of_precedes {α : Type} {settingOf : α → Setting} {l l' : List α}
    (h : l.Pairwise fun a b => (settingOf a).Precedes (settingOf b))
    (h' : l'.Pairwise fun a b => (settingOf a).Precedes (settingOf b))
    (hmem : ∀ a, a ∈ l ↔ a ∈ l') : l = l' := by
  have hirrefl := irrefl_of Setting.Precedes
  have hnodup : ∀ {l : List α},
      l.Pairwise (fun a b => (settingOf a).Precedes (settingOf b)) →
        l.Nodup := by
    refine fun h => List.Pairwise.imp (fun hab heq => ?_) h
    rw [heq] at hab
    exact hirrefl _ hab
  refine List.Perm.eq_of_pairwise (fun a b _ _ hab hba => ?_) h h'
    ((List.perm_ext_iff_of_nodup (hnodup h) (hnodup h')).2 hmem)
  exact absurd (trans_of Setting.Precedes hab hba) (hirrefl _)

theorem perm_timesOf {runs others : List Run} (h : runs.Perm others)
    (x : Setting) :
    (timesOf x runs).Perm (timesOf x others) :=
  (h.filter _).map _

namespace Samples

theorem precedes_summaries (s : Samples) :
    s.summaries.Pairwise fun p q => p.1.Precedes q.1 := by
  have hnonempty : (s.nonempty.map (·.setting)).Pairwise Setting.Precedes :=
    (precedes_settings s).sublist (List.filter_sublist.map _)
  rw [← settings_summaries] at hnonempty
  exact List.pairwise_map.1 hnonempty

theorem mem_summaries_ofList {runs : List Run} {x : Setting}
    {summary : Summary} :
    (x, summary) ∈ (ofList runs).summaries ↔
      Summary.ofTimes? (timesOf x runs) = some summary := by
  rw [summaries, List.mem_filterMap]
  constructor
  · rintro ⟨g, hg, hsummary⟩
    obtain ⟨found, hfound, heq⟩ := Option.map_eq_some_iff.1 hsummary
    cases heq
    rwa [← (mem_groups_ofList.1 hg).1]
  · intro h
    have hne : timesOf x runs ≠ [] := by
      intro hnil
      rw [hnil] at h
      cases h
    refine ⟨⟨x, timesOf x runs⟩, mem_groups_ofList.2 ⟨rfl, hne⟩, ?_⟩
    rw [h]
    rfl

end Samples

/-! ## Times in another order -/

/-- Whether times have one mean in whatever order they come. -/
def OrderFree (times : List Double) : Prop :=
  times.length ≤ 2 ∨ Double.AddExactly times

theorem samples_ofTimes? (times : List Double) :
    (Summary.ofTimes? times).map (·.samples) =
      if times.length = 0 then none else some times.length := by
  cases times <;> rfl

theorem ofTimes?_perm {times others : List Double} (h : times.Perm others)
    (hfree : OrderFree times) :
    Summary.ofTimes? times = Summary.ofTimes? others := by
  have htotal : Summary.total times = Summary.total others := by
    rcases hfree with hshort | hexact
    · exact Double.foldl_add_perm_of_length_le h hshort
    · exact Double.foldl_add_perm h hexact
  rw [Summary.ofTimes?, Summary.ofTimes?, htotal, h.length_eq, h.isEmpty_eq]

/-! ## Runs in another order -/

/-- In another order, runs have the same settings with the same numbers of
times, and also the same mean for each setting whose times have one mean. -/
theorem summaries_perm {runs others : List Run} (h : runs.Perm others) :
    (Samples.ofList runs).summaries.map (fun p => (p.1, p.2.samples)) =
      (Samples.ofList others).summaries.map (fun p => (p.1, p.2.samples)) ∧
    ∀ x, OrderFree (timesOf x runs) → ∀ summary,
      (x, summary) ∈ (Samples.ofList runs).summaries ↔
        (x, summary) ∈ (Samples.ofList others).summaries := by
  have hcounted : ∀ (runs : List Run) (x : Setting) (n : Nat),
      (x, n) ∈ (Samples.ofList runs).summaries.map
          (fun p => (p.1, p.2.samples)) ↔
        (Summary.ofTimes? (timesOf x runs)).map (·.samples) = some n := by
    intro runs x n
    rw [List.mem_map, Option.map_eq_some_iff]
    constructor
    · rintro ⟨⟨y, summary⟩, hmem, heq⟩
      cases heq
      exact ⟨summary, Samples.mem_summaries_ofList.1 hmem, rfl⟩
    · rintro ⟨summary, hsummary, rfl⟩
      exact ⟨(x, summary), Samples.mem_summaries_ofList.2 hsummary, rfl⟩
  have hascends : ∀ runs : List Run,
      ((Samples.ofList runs).summaries.map
        (fun p => (p.1, p.2.samples))).Pairwise fun p q => p.1.Precedes q.1 :=
    fun runs => List.pairwise_map.2 (Samples.precedes_summaries _)
  constructor
  · refine eq_of_precedes (hascends runs) (hascends others) fun ⟨x, n⟩ => ?_
    rw [hcounted, hcounted, samples_ofTimes?, samples_ofTimes?,
      (perm_timesOf h x).length_eq]
  · intro x hfree summary
    rw [Samples.mem_summaries_ofList, Samples.mem_summaries_ofList,
      ofTimes?_perm (perm_timesOf h x) hfree]

/-- Runs with a setting of their own that take some numbers of tenths of
a second. -/
def tenths (counts : List Nat) : List Run :=
  counts.map fun n =>
    { setting := { problemClass := some "EP", xstreams := some 1,
                   threads := some 1 }
      elapsed := .ofQuotient false n 10 }

theorem summaries_perm_halves :
    (tenths [15, 25, 5]).Perm (tenths [5, 25, 15]) ∧
    OrderFree (timesOf ⟨some "EP", some 1, some 1⟩ (tenths [15, 25, 5])) ∧
    ((⟨some "EP", some 1, some 1⟩, ⟨.ofQuotient false 3 2, 3⟩) ∈
      (Samples.ofList (tenths [15, 25, 5])).summaries ↔
        (⟨some "EP", some 1, some 1⟩, ⟨.ofQuotient false 3 2, 3⟩) ∈
          (Samples.ofList (tenths [5, 25, 15])).summaries) := by
  have hperm : (tenths [15, 25, 5]).Perm (tenths [5, 25, 15]) :=
    (List.reverse_perm (tenths [5, 25, 15]))
  have hfree :
      OrderFree (timesOf ⟨some "EP", some 1, some 1⟩ (tenths [15, 25, 5])) :=
    .inr ⟨1073, by decide +kernel, by decide +kernel, by decide +kernel⟩
  exact ⟨hperm, hfree, (summaries_perm hperm).2 _ hfree _⟩

/-- A tenth, two and three tenths of a second have another mean from back to
front. -/
theorem summaries_reverse_ne :
    (tenths [1, 2, 3]).Perm (tenths [3, 2, 1]) ∧
      (Samples.ofList (tenths [1, 2, 3])).summaries ≠
        (Samples.ofList (tenths [3, 2, 1])).summaries :=
  ⟨List.reverse_perm (tenths [3, 2, 1]), by decide +kernel⟩

end BenchReport
