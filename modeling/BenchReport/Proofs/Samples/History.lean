import Mathlib.Data.List.Forall2
import Mathlib.Order.Defs.Unbundled
import BenchReport.Proofs.Samples.Grouping
import BenchReport.Proofs.Text.ByteOrder
import BenchReport.Report.Basic

/-!
# What samples hold after any history

Samples are filled by single runs, by lists of runs and by the runs of logs, and
they may be collected anew in between. Whatever is done, they are the samples of
one list of runs, those accepted since the last collection: adding to the
samples is adding to that list (`ofList_append`), and a rejected log adds
nothing. So there is one invariant, `perform_eq_ofList`, and all the rest is
about `ofList`.

There, one equation tells of every setting: its times are those of the list
with that setting, in their order, and it has none if there are none
(`times?_ofList`). Settings come in the order of `Setting.Precedes`, which is
spelled out by components here and shown to be the comparison that groups are
kept by.
-/

namespace BenchReport

/-! ## The order of settings -/

/-- Whether a setting comes before another one: by class, then by streams, then
by threads, and in each of them what is unknown before all that is known. -/
def Setting.Precedes (a b : Setting) : Prop :=
  Option.lt BytesBefore a.problemClass b.problemClass ∨
    a.problemClass = b.problemClass ∧
      (Option.lt (· < ·) a.xstreams b.xstreams ∨
        a.xstreams = b.xstreams ∧ Option.lt (· < ·) a.threads b.threads)

theorem compare_option_eq_lt_iff {α : Type} [Ord α] {r : α → α → Prop}
    (h : ∀ a b : α, compare a b = .lt ↔ r a b) (x y : Option α) :
    compare x y = .lt ↔ Option.lt r x y := by
  cases x with
  | none => cases y <;> simp [compare, Option.lt]
  | some a =>
      cases y with
      | none => simp [compare, Option.lt]
      | some b => exact h a b

theorem Setting.compare_eq_lt_iff {a b : Setting} :
    compare a b = .lt ↔ a.Precedes b := by
  have hclass : ∀ x y : String, compare x y = .lt ↔ BytesBefore x y :=
    fun x y => by
      rw [bytesBefore_iff]
      exact compareOfLessAndEq_eq_lt
  have hcount : ∀ x y : UInt32, compare x y = .lt ↔ x < y := fun x y =>
    compareOfLessAndEq_eq_lt
  show ((compare a.problemClass b.problemClass).then
    ((compare a.xstreams b.xstreams).then (compare a.threads b.threads))) =
      .lt ↔ _
  rw [Ordering.then_eq_lt, Ordering.then_eq_lt, compare_option_eq_lt_iff hclass,
    compare_option_eq_lt_iff hcount, compare_option_eq_lt_iff hcount,
    Std.LawfulEqOrd.compare_eq_iff_eq, Std.LawfulEqOrd.compare_eq_iff_eq]
  rfl

instance : IsStrictTotalOrder Setting Setting.Precedes where
  irrefl a h := by
    rw [← Setting.compare_eq_lt_iff, Std.ReflOrd.compare_self] at h
    cases h
  trans a b c hab hbc := by
    rw [← Setting.compare_eq_lt_iff] at hab hbc ⊢
    exact Std.TransCmp.lt_trans hab hbc
  trichotomous a b hab hba := by
    rw [← Setting.compare_eq_lt_iff] at hab hba
    cases h : compare a b with
    | lt => exact absurd h hab
    | eq => exact Std.LawfulEqOrd.eq_of_compare h
    | gt => exact absurd (Std.OrientedCmp.lt_of_gt h) hba

/-! ## The times of a setting -/

namespace Group

variable {setting x : Setting} {f : List Double → List Double}
  {groups : List Group}

theorem Before.setting_ne {a b : Group} (h : a.Before b) :
    a.setting ≠ b.setting := by
  intro heq
  rw [Before, heq, Std.ReflOrd.compare_self] at h
  cases h

/-- The times of a setting in a list of groups, if it has a group there. -/
def times? (groups : List Group) (x : Setting) : Option (List Double) :=
  (groups.find? fun g => g.setting = x).map (·.times)

theorem times?_cons (first : Group) (rest : List Group) (x : Setting) :
    times? (first :: rest) x = if first.setting = x then some first.times
      else times? rest x := by
  by_cases hx : first.setting = x <;> simp [times?, hx]

theorem times?_eq_none (h : ∀ g ∈ groups, g.setting ≠ x) :
    times? groups x = none := by
  rw [times?, List.find?_eq_none.2 fun g hg => by simpa using h g hg]
  rfl

theorem mem_iff_times? (h : groups.Pairwise Before) {g : Group} :
    g ∈ groups ↔ times? groups g.setting = some g.times := by
  induction groups with
  | nil => simp [times?]
  | cons first rest ih =>
      obtain ⟨hfirst, hrest⟩ := List.pairwise_cons.1 h
      rw [List.mem_cons, times?_cons]
      by_cases hsame : first.setting = g.setting
      · rw [if_pos hsame, Option.some.injEq]
        constructor
        · rintro (rfl | hg)
          · rfl
          · exact absurd hsame (hfirst g hg).setting_ne
        · intro htimes
          cases first
          cases g
          exact .inl ((Group.mk.injEq ..).mpr ⟨hsame.symm, htimes.symm⟩)
      · have hne : g ≠ first := fun heq => hsame (heq ▸ rfl)
        rw [if_neg hsame, ← ih hrest]
        exact or_iff_right hne

theorem times?_change (h : groups.Pairwise Before) :
    times? (change setting f groups) x =
      if setting = x then some (f ((times? groups setting).getD []))
        else times? groups x := by
  induction groups with
  | nil => exact times?_cons ..
  | cons first rest ih =>
      obtain ⟨hfirst, hrest⟩ := List.pairwise_cons.1 h
      rw [change]
      split
      · next hlt =>
        have hnone : times? (first :: rest) setting = none :=
          times?_eq_none fun g hg heq => by
          rcases List.mem_cons.1 hg with rfl | hg
          · rw [heq, Std.ReflOrd.compare_self] at hlt
            cases hlt
          · have hbefore := Std.TransCmp.lt_trans hlt (hfirst g hg)
            rw [heq, Std.ReflOrd.compare_self] at hbefore
            cases hbefore
        rw [times?_cons, hnone]
        rfl
      · next heq =>
        obtain rfl := Std.LawfulEqOrd.eq_of_compare heq
        rw [times?_cons, times?_cons, times?_cons, if_pos rfl]
        split <;> rfl
      · next hgt =>
        have hne : first.setting ≠ setting := by
          rintro rfl
          rw [Std.ReflOrd.compare_self] at hgt
          cases hgt
        rw [times?_cons, times?_cons, times?_cons, if_neg hne, ih hrest]
        by_cases hx : first.setting = x
        · rw [if_pos hx, if_pos hx, if_neg (fun h => hne (hx.trans h.symm))]
        · rw [if_neg hx, if_neg hx]

end Group

/-- The elapsed times of the runs with a setting, in the order of the runs. -/
def timesOf (x : Setting) (runs : List Run) : List Double :=
  (runs.filter (·.setting = x)).map (·.elapsed)

theorem timesOf_cons (x : Setting) (run : Run) (rest : List Run) :
    timesOf x (run :: rest) =
      if run.setting = x then run.elapsed :: timesOf x rest
        else timesOf x rest := by
  by_cases hx : run.setting = x <;> simp [timesOf, hx]

namespace Samples

variable {s : Samples} {x : Setting}

theorem times?_push (s : Samples) (run : Run) (x : Setting) :
    (s.push run).times? x =
      if run.setting = x then some ((s.times? x).getD [] ++ [run.elapsed])
      else s.times? x := by
  refine (Group.times?_change s.ascending).trans ?_
  by_cases hx : run.setting = x
  · subst hx
    rfl
  · rw [if_neg hx, if_neg hx]
    rfl

theorem times?_append (s : Samples) (runs : List Run) (x : Setting) :
    (s.append runs).times? x =
      if timesOf x runs = [] then s.times? x
      else some ((s.times? x).getD [] ++ timesOf x runs) := by
  induction runs generalizing s with
  | nil => rfl
  | cons run rest ih =>
      have hstep : s.append (run :: rest) = (s.push run).append rest := rfl
      rw [hstep, ih, times?_push, timesOf_cons]
      by_cases hx : run.setting = x
      · rw [if_pos hx, if_pos hx, if_neg (List.cons_ne_nil _ _)]
        split
        · next hrest => rw [hrest]
        · rw [Option.getD_some, List.append_assoc, List.singleton_append]
      · rw [if_neg hx, if_neg hx]

theorem times?_ofList (runs : List Run) (x : Setting) :
    (ofList runs).times? x = if timesOf x runs = [] then none
      else some (timesOf x runs) :=
  times?_append empty runs x

theorem mem_groups_ofList {runs : List Run} {g : Group} :
    g ∈ (ofList runs).groups ↔
      g.times = timesOf g.setting runs ∧ g.times ≠ [] := by
  have htimes : Group.times? (ofList runs).groups g.setting =
      if timesOf g.setting runs = [] then none
        else some (timesOf g.setting runs) :=
    times?_ofList runs g.setting
  rw [Group.mem_iff_times? (ofList runs).ascending, htimes]
  split
  · next hnone =>
    rw [hnone]
    exact iff_of_false nofun fun h => h.2 h.1
  · next hsome =>
    rw [Option.some.injEq, eq_comm]
    exact ⟨fun h => ⟨h, h ▸ hsome⟩, And.left⟩

theorem ofList_append (runs later : List Run) :
    ofList (runs ++ later) = (ofList runs).append later :=
  List.foldl_append

/-! ## Histories -/

/-- What can be done to samples: a run is added, or several are, or the samples
are given up for those of some runs, or the run is added that a log tells of, if
it tells of one. -/
inductive Action where
  | push (run : Run)
  | extend (runs : List Run)
  | collect (runs : List Run)
  | extract (log : List Char)

namespace Action

/-- The samples after an action. -/
def apply (s : Samples) : Action → Samples
  | push run => s.push run
  | extend runs => s.append runs
  | collect runs => ofList runs
  | extract log =>
    match Run.ofLog log with
    | .ok run => s.push run
    | .error _ => s

/-- The runs that an action adds. -/
def accepted : Action → List Run
  | push run => [run]
  | extend runs => runs
  | collect runs => runs
  | extract log => (Run.ofLog log).toOption.toList

/-- Whether the action gives up what was there. -/
def restarts : Action → Bool
  | collect _ => true
  | _ => false

/-- The runs that count after an action, in the order in which they came. -/
def counted (runs : List Run) (action : Action) : List Run :=
  (if action.restarts then [] else runs) ++ action.accepted

end Action

/-- The samples after some actions, from none. -/
def perform (actions : List Action) : Samples :=
  actions.foldl Action.apply empty

/-- The runs that some actions have accepted since the last one that gave up
what was there. -/
def acceptedSince (actions : List Action) : List Run :=
  actions.foldl Action.counted []

theorem apply_ofList (runs : List Run) (action : Action) :
    action.apply (ofList runs) = ofList (action.counted runs) := by
  cases action with
  | push run => exact (ofList_append runs [run]).symm
  | extend more => exact (ofList_append runs more).symm
  | collect fresh => rfl
  | extract log =>
      show (match Run.ofLog log with | .ok run => _ | .error _ => _) =
        ofList (runs ++ (Run.ofLog log).toOption.toList)
      cases Run.ofLog log with
      | ok run => exact (ofList_append runs [run]).symm
      | error rejection => exact congrArg ofList (List.append_nil runs).symm

theorem foldl_apply_ofList (runs : List Run) (actions : List Action) :
    actions.foldl Action.apply (ofList runs) =
      ofList (actions.foldl Action.counted runs) := by
  induction actions generalizing runs with
  | nil => rfl
  | cons action rest ih =>
      rw [List.foldl_cons, List.foldl_cons, apply_ofList, ih]

theorem perform_eq_ofList (actions : List Action) :
    perform actions = ofList (acceptedSince actions) :=
  foldl_apply_ofList [] actions

theorem perform_concat_rejected {log : List Char} {rejection : Rejection}
    (h : Run.ofLog log = .error rejection) (actions : List Action) :
    perform (actions ++ [.extract log]) = perform actions := by
  rw [perform, List.foldl_append]
  show (match Run.ofLog log with | .ok run => _ | .error _ => _) = _
  rw [h]
  rfl

/-! ## What is told of the samples -/

theorem precedes_settings (s : Samples) :
    (s.groups.map (·.setting)).Pairwise Setting.Precedes := by
  rw [List.pairwise_map]
  exact s.ascending.imp Setting.compare_eq_lt_iff.1

theorem lines_settings (s : Samples) :
    List.Forall₂ (fun (x : Setting) (line : String) =>
      (x.text ++ ": ").toList <+: line.toList)
      (s.summaries.map (·.1)) s.lines := by
  rw [lines, List.forall₂_map_left_iff, List.forall₂_map_right_iff,
    List.forall₂_same]
  rintro ⟨x, summary⟩ -
  show (x.text ++ ": ").toList <+: (Entry.line x summary).toList
  exact ⟨_, String.toList_append.symm⟩

/-- What samples have to be if they are to tell of some runs and of
no others. -/
structure Account (s : Samples) (runs : List Run) : Prop where
  /-- A group holds the times of the runs with its setting, and it
  holds some. -/
  groups_iff :
    ∀ g, g ∈ s.groups ↔ g.times = timesOf g.setting runs ∧ g.times ≠ []
  /-- A setting has a group if a run has the setting, and only then. -/
  settings_iff : ∀ x, x ∈ s.groups.map (·.setting) ↔
    ∃ run ∈ runs, run.setting = x
  /-- There is no group only if there is no run. -/
  isEmpty_iff : s.isEmpty = true ↔ runs = []
  /-- The settings ascend. -/
  ascending : (s.groups.map (·.setting)).Pairwise Setting.Precedes
  /-- There is a summary for each group, in the order of the groups. -/
  summaries : s.summaries.map (·.1) = s.groups.map (·.setting)
  /-- There is an entry for each group, in the order of the groups. -/
  entries : s.entries.map (·.setting) = s.groups.map (·.setting)
  /-- There is a line for each group, in the order of the groups. -/
  lines : List.Forall₂ (fun (x : Setting) (line : String) =>
    (x.text ++ ": ").toList <+: line.toList) (s.groups.map (·.setting)) s.lines

theorem isEmpty_ofList {runs : List Run} :
    (ofList runs).isEmpty = true ↔ runs = [] := by
  rw [isEmpty, List.isEmpty_iff]
  constructor
  · intro hgroups
    rw [List.eq_nil_iff_forall_not_mem]
    intro run hrun
    have hmem :=
      mem_settings_ofList.2 (List.mem_map_of_mem (f := (·.setting)) hrun)
    rw [hgroups] at hmem
    cases hmem
  · rintro rfl
    rfl

theorem account_ofList (runs : List Run) : (ofList runs).Account runs := by
  have hnonempty : (ofList runs).nonempty = (ofList runs).groups :=
    List.filter_eq_self.2 fun g hg =>
      decide_eq_true (times_ofList_ne_nil runs g hg)
  have hsummaries : (ofList runs).summaries.map (·.1) =
      (ofList runs).groups.map (·.setting) := by
    rw [settings_summaries, hnonempty]
  exact {
    groups_iff := fun _ => mem_groups_ofList
    settings_iff := fun x => by rw [mem_settings_ofList, List.mem_map]
    isEmpty_iff := isEmpty_ofList
    ascending := precedes_settings _
    summaries := hsummaries
    entries := by rw [settings_entries, hnonempty]
    lines := hsummaries ▸ lines_settings _ }

/-- Settings are in a strict total order. Whatever is done to samples, they tell
of the runs accepted since the last collection, with the settings in that order,
and a log without a run leaves them as they are. -/
theorem account_perform :
    IsStrictTotalOrder Setting Setting.Precedes ∧
    ∀ actions, (perform actions).Account (acceptedSince actions) ∧
      ∀ log rejection, Run.ofLog log = .error rejection →
        perform (actions ++ [.extract log]) = perform actions := by
  refine ⟨inferInstance, fun actions => ⟨?_, fun log rejection h => ?_⟩⟩
  · rw [perform_eq_ofList]
    exact account_ofList _
  · exact perform_concat_rejected h actions

theorem account_perform_without_time :
    Run.ofLog "VERIFICATION SUCCESSFUL".toList = .error .missingElapsedTime ∧
      perform
        [.push { setting := { problemClass := some "B" }, elapsed := .ofNat 4 },
          .extract "VERIFICATION SUCCESSFUL".toList] =
        perform
          [.push { setting := { problemClass := some "B" },
                   elapsed := .ofNat 4 }] :=
  have hlog : Run.ofLog "VERIFICATION SUCCESSFUL".toList =
      .error .missingElapsedTime := by decide
  ⟨hlog, (account_perform.2 [.push _]).2 _ _ hlog⟩

end Samples

end BenchReport
