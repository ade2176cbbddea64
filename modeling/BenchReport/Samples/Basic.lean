import BenchReport.Run.Basic

/-!
# Samples

The elapsed times of runs, grouped by setting. The groups stand in ascending
order of their settings, which is part of the type, and each holds its times in
the order in which the runs came.
-/

namespace BenchReport

/-- The elapsed times of the runs with one setting. -/
structure Group where
  /-- The setting that the runs share. -/
  setting : Setting
  /-- The elapsed times in seconds, in the order of the runs. -/
  times : List Double
deriving DecidableEq, Repr

namespace Group

/-- The order of groups in a list of samples. -/
def Before (a b : Group) : Prop :=
  compare a.setting b.setting = .lt

/-- Changes the times of one setting in a list of ascending groups, where a
setting without a group has no times. -/
def change (setting : Setting) (f : List Double → List Double) :
    List Group → List Group
  | [] => [⟨setting, f []⟩]
  | g :: rest =>
    match compare setting g.setting with
    | .lt => ⟨setting, f []⟩ :: g :: rest
    | .eq => ⟨g.setting, f g.times⟩ :: rest
    | .gt => g :: change setting f rest

theorem setting_of_mem_change {setting : Setting}
    {f : List Double → List Double} {groups : List Group} {g : Group}
    (h : g ∈ change setting f groups) :
    g.setting = setting ∨ ∃ g' ∈ groups, g'.setting = g.setting := by
  induction groups with
  | nil => simp_all [change]
  | cons first rest ih =>
    simp only [change] at h
    split at h
    · grind
    · grind
    · rcases List.mem_cons.1 h with rfl | h
      · exact .inr ⟨_, List.mem_cons_self .., rfl⟩
      · grind

theorem pairwise_change {setting : Setting} {f : List Double → List Double}
    {groups : List Group} (h : groups.Pairwise Before) :
    (change setting f groups).Pairwise Before := by
  induction groups with
  | nil => simp [change]
  | cons first rest ih =>
    obtain ⟨hfirst, hrest⟩ := List.pairwise_cons.1 h
    simp only [change]
    split
    next hlt =>
      refine List.pairwise_cons.2 ⟨fun g hg => ?_, h⟩
      rcases List.mem_cons.1 hg with rfl | hg
      · exact hlt
      · exact Std.TransCmp.lt_trans hlt (hfirst g hg)
    next => exact List.pairwise_cons.2 ⟨hfirst, hrest⟩
    next hgt =>
      refine List.pairwise_cons.2 ⟨fun g hg => ?_, ih hrest⟩
      rcases setting_of_mem_change hg with heq | ⟨g', hmem, heq⟩
      · rw [Before, heq]
        exact Std.OrientedCmp.lt_of_gt hgt
      · rw [Before, ← heq]
        exact hfirst g' hmem

end Group

/-- The elapsed times of runs by setting. -/
structure Samples where
  /-- The groups, one for each setting. -/
  groups : List Group := []
  /-- The groups ascend by setting, so no setting has two of them. -/
  ascending : groups.Pairwise Group.Before := by exact List.Pairwise.nil
deriving DecidableEq

namespace Samples

/-- Samples of no run. -/
def empty : Samples where

instance : EmptyCollection Samples := ⟨empty⟩

/-- The times of a setting, if it has a group. -/
def times? (s : Samples) (setting : Setting) : Option (List Double) :=
  (s.groups.find? fun g => g.setting = setting).map (·.times)

/-- Changes the times of one setting. -/
def change (s : Samples) (setting : Setting) (f : List Double → List Double) :
    Samples where
  groups := Group.change setting f s.groups
  ascending := Group.pairwise_change s.ascending

/-- Gives a setting the times `times`, whatever it had. -/
def insert (s : Samples) (setting : Setting) (times : List Double) : Samples :=
  s.change setting fun _ => times

/-- Adds the elapsed time of a run to the group of its setting. -/
def push (s : Samples) (run : Run) : Samples :=
  s.change run.setting (· ++ [run.elapsed])

/-- Adds runs in their order. -/
def append (s : Samples) (runs : List Run) : Samples :=
  runs.foldl push s

/-- The samples of runs. -/
def ofList (runs : List Run) : Samples :=
  empty.append runs

/-- Whether there is no group. -/
def isEmpty (s : Samples) : Bool :=
  s.groups.isEmpty

end Samples

end BenchReport
