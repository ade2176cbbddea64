import BenchReport.Report.Entry
import Mathlib.Algebra.GroupWithZero.Nat

/-!
# Groups and entries

Adding a run changes one group, so what holds of all groups is kept from one run
to the next: each has times, and the settings are those of the runs. A report
has one entry for each group with times, in the order of the groups, and that is
the ascending order of settings.
-/

namespace BenchReport

/-! ## Groups of runs -/

namespace Group

variable {setting : Setting} {f : List Double → List Double}

theorem times_change_ne_nil (hf : ∀ times, f times ≠ []) {groups : List Group}
    (hgroups : ∀ g ∈ groups, g.times ≠ []) :
    ∀ g ∈ change setting f groups, g.times ≠ [] := by
  induction groups with
  | nil => simpa [change] using hf []
  | cons first rest ih =>
      obtain ⟨hfirst, hrest⟩ := List.forall_mem_cons.1 hgroups
      rw [change]
      split
      · exact List.forall_mem_cons.2 ⟨hf _, hgroups⟩
      · exact List.forall_mem_cons.2 ⟨hf _, hrest⟩
      · exact List.forall_mem_cons.2 ⟨hfirst, ih hrest⟩

theorem mem_settings_change {groups : List Group} {x : Setting} :
    x ∈ (change setting f groups).map (·.setting) ↔
      x = setting ∨ x ∈ groups.map (·.setting) := by
  induction groups with
  | nil => simp [change]
  | cons first rest ih =>
      rw [change]
      split
      · exact List.mem_cons
      · next heq =>
        rw [Std.LawfulEqOrd.eq_of_compare heq]
        simp only [List.map_cons, List.mem_cons, or_self_left]
      · rw [List.map_cons, List.mem_cons, ih, List.map_cons, List.mem_cons]
        exact or_left_comm

end Group

namespace Samples

theorem times_append_ne_nil {s : Samples} (hs : ∀ g ∈ s.groups, g.times ≠ [])
    (runs : List Run) : ∀ g ∈ (s.append runs).groups, g.times ≠ [] := by
  induction runs generalizing s with
  | nil => exact hs
  | cons run rest ih =>
      exact ih (Group.times_change_ne_nil (fun times => by simp) hs)

theorem mem_settings_append {s : Samples} {runs : List Run} {x : Setting} :
    x ∈ (s.append runs).groups.map (·.setting) ↔
      x ∈ s.groups.map (·.setting) ∨ x ∈ runs.map (·.setting) := by
  induction runs generalizing s with
  | nil => simp [append]
  | cons run rest ih =>
      have hstep : s.append (run :: rest) = (s.push run).append rest := rfl
      have hpush : x ∈ (s.push run).groups.map (·.setting) ↔
          x = run.setting ∨ x ∈ s.groups.map (·.setting) :=
        Group.mem_settings_change
      rw [hstep, ih, hpush, List.map_cons, List.mem_cons, or_assoc,
        or_left_comm]

theorem times_ofList_ne_nil (runs : List Run) :
    ∀ g ∈ (ofList runs).groups, g.times ≠ [] :=
  times_append_ne_nil (by simp [empty]) runs

theorem mem_settings_ofList {runs : List Run} {x : Setting} :
    x ∈ (ofList runs).groups.map (·.setting) ↔ x ∈ runs.map (·.setting) := by
  rw [ofList, mem_settings_append]
  simp [empty]

/-! ## The number of times -/

theorem sum_length_push (s : Samples) (run : Run) :
    ((s.push run).groups.map (·.times.length)).sum =
      (s.groups.map (·.times.length)).sum + 1 := by
  show ((Group.change run.setting (· ++ [run.elapsed]) s.groups).map
      (·.times.length)).sum = _
  induction s.groups with
  | nil => rfl
  | cons first rest ih =>
      rw [Group.change]
      split
      · rw [List.map_cons, List.sum_cons, Nat.add_comm]
        rfl
      · rw [List.map_cons, List.map_cons, List.sum_cons, List.sum_cons,
          List.length_append, List.length_singleton]
        omega
      · rw [List.map_cons, List.map_cons, List.sum_cons, List.sum_cons, ih]
        omega

theorem sum_length_append (s : Samples) (runs : List Run) :
    ((s.append runs).groups.map (·.times.length)).sum =
      (s.groups.map (·.times.length)).sum + runs.length := by
  induction runs generalizing s with
  | nil => rfl
  | cons run rest ih =>
      have hstep : s.append (run :: rest) = (s.push run).append rest := rfl
      rw [hstep, ih, sum_length_push, List.length_cons]
      omega

theorem sum_length_ofList (runs : List Run) :
    ((ofList runs).groups.map (·.times.length)).sum = runs.length :=
  (sum_length_append empty runs).trans (Nat.zero_add _)

end Samples

/-! ## Entries of groups -/

namespace Group

/-- The summary of the times of the group. -/
def summary (g : Group) : Summary where
  mean := Summary.total g.times / .ofNat g.times.length
  samples := g.times.length

/-- The entry of the group. -/
def entry (g : Group) : Entry :=
  .ofSummary g.setting g.summary

end Group

namespace Samples

/-- The groups that a report tells of. -/
def nonempty (s : Samples) : List Group :=
  s.groups.filter (·.times ≠ [])

theorem summaries_eq (s : Samples) :
    s.summaries = s.nonempty.map fun g => (g.setting, g.summary) := by
  rw [summaries, nonempty]
  induction s.groups with
  | nil => rfl
  | cons g rest ih =>
      cases htimes : g.times with
      | nil => simpa [htimes, Summary.ofTimes?] using ih
      | cons x later => simpa [htimes, Summary.ofTimes?, Group.summary] using ih

theorem settings_summaries (s : Samples) :
    s.summaries.map (·.1) = s.nonempty.map (·.setting) := by
  rw [summaries_eq, List.map_map]
  rfl

theorem entries_eq (s : Samples) : s.entries = s.nonempty.map Group.entry := by
  rw [entries, summaries_eq, List.map_map]
  rfl

theorem settings_entries (s : Samples) :
    s.entries.map (·.setting) = s.nonempty.map (·.setting) := by
  rw [← settings_summaries, entries, List.map_map]
  rfl

theorem pairwise_settings_entries (s : Samples) :
    (s.entries.map (·.setting)).Pairwise fun a b => compare a b = .lt := by
  rw [settings_entries, List.pairwise_map]
  exact s.ascending.sublist List.filter_sublist

theorem forall_entries_iff {s : Samples} {P : Setting → Prop} :
    (∀ e ∈ s.entries, P e.setting) ↔ ∀ g ∈ s.groups, g.times ≠ [] →
      P g.setting := by
  have hmem : (∀ e ∈ s.entries, P e.setting) ↔
      ∀ x ∈ s.entries.map (·.setting), P x := by
    rw [List.forall_mem_map]
  rw [hmem, settings_entries, List.forall_mem_map, nonempty]
  simp only [List.mem_filter, decide_eq_true_eq, and_imp]

end Samples

end BenchReport
