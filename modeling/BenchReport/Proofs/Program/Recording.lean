import BenchReport.Proofs.Program.Rendering

/-!
# Canvases that run full

A canvas that has room for some number of charts fails in the middle of a set,
and from then on it fails whenever it is asked. So a run keeps the first charts
of those that a canvas without a limit would keep, and what it loses is told set
by set: a set fails in addition if it has a chart that there was no room for. A
set without charts never asks the canvas, so it does not fail, however full the
canvas is.

The invariant is about the room that is left. It is what the canvas has room for
beyond the charts that it keeps, and a set takes from it as many charts as it
has, down to nothing (`room_fitting`). What is said of one set for any room that
is left is then said of all sets by an induction over them, in which the charts
of the later sets are dropped by as many places as the earlier ones have taken.
-/

namespace BenchReport

/-! ## Drawing in a state -/

section State

variable {σ : Type} {canvas : Canvas (StateM σ)} {chart : Chart}
  {charts : List Chart} {before after last : σ}

theorem run_drawAll_of_error {e : CanvasError}
    (h : (canvas.draw chart).run before = (.error e, after)) :
    (canvas.drawAll (chart :: charts)).run before = (.error e, after) := by
  rw [Canvas.drawAll, StateT.run_bind, h]
  rfl

theorem run_drawAll_of_ok {result : Except CanvasError (List Path)}
    (h : (canvas.draw chart).run before = (.ok (), after))
    (hrest : (canvas.drawAll charts).run after = (result, last)) :
    (canvas.drawAll (chart :: charts)).run before =
      (result.map (chart.path :: ·), last) := by
  rw [Canvas.drawAll, StateT.run_bind, h]
  show ((canvas.drawAll charts >>= _ : StateM σ _).run after) = _
  rw [StateT.run_bind, hrest]
  cases result <;> rfl

theorem run_drawSet_of_ok {result : Except CanvasError (List Path)}
    (h : (canvas.drawAll charts).run before = (result, after)) :
    (drawSet canvas (.ok charts)).run before =
      (result.mapError .canvas, after) := by
  rw [drawSet, StateT.run_map, h]
  rfl

theorem run_drawSets_cons {name : String} {set : ChartSet}
    {sets : List (String × ChartSet)} {result : SetResult}
    {results : List (String × SetResult)}
    (h : (drawSet canvas set).run before = (result, after))
    (hrest : (drawSets canvas sets).run after = (results, last)) :
    (drawSets canvas ((name, set) :: sets)).run before =
      ((name, result) :: results, last) := by
  rw [drawSets_cons, StateT.run_bind, h]
  show ((drawSets canvas sets >>= _ : StateM σ _).run after) = _
  rw [StateT.run_bind, hrest]
  rfl

theorem run_renderAllFrom (coloured : Bool) {settings : ChartSettings}
    {load : String → Except TableError Table}
    {results : List (String × SetResult)}
    (h : (drawSets canvas (chartSets load settings.outputDirectory)).run
      before = (results, after)) :
    ∃ p, (renderAllFrom coloured settings canvas load).run before = (p, after) ∧
      p.account = .ofResults coloured settings.quiet results := by
  have haccount :
      (Progress.account <$> renderAllFrom coloured settings canvas load).run
          before =
        (Account.ofResults coloured settings.quiet <$>
          drawSets canvas (chartSets load settings.outputDirectory)).run
          before := by
    rw [account_renderAllFrom]
  rw [StateT.run_map, StateT.run_map, h] at haccount
  generalize (renderAllFrom coloured settings canvas load).run before =
    run at haccount ⊢
  obtain ⟨p, state⟩ := run
  obtain ⟨hp, rfl⟩ := Prod.mk.inj haccount
  exact ⟨p, rfl, hp⟩

end State

/-! ## Charts and the room for them -/

/-- A canvas that keeps the charts it draws, in their order. Where its room is
limited, drawing fails as long as it is full. -/
def recorder (room : Option Nat) (failure : Chart → CanvasError) :
    Canvas (StateM (List Chart)) where
  draw chart := do
    let kept ← get
    if room = some kept.length then return .error (failure chart)
    else
      set (kept ++ [chart])
      return .ok ()

/-- The charts of a set, none if it cannot be computed. -/
def chartsOf : ChartSet → List Chart
  | .ok charts => charts
  | .error _ => []

/-- The charts of all sets in their order, each with the name of its set. -/
def namedCharts (sets : List (String × ChartSet)) : List (String × Chart) :=
  sets.flatMap fun (name, set) => (chartsOf set).map (name, ·)

/-- The beginning of a list that there is room for. -/
def fitting {α : Type} (left : Option Nat) (items : List α) : List α :=
  match left with
  | none => items
  | some n => items.take n

/-- The names of the sets with charts beyond those that there is room for. -/
def lateNames (left : Option Nat) (sets : List (String × ChartSet)) :
    List String :=
  match left with
  | none => []
  | some n => ((namedCharts sets).drop n).map (·.1)

variable {room left : Option Nat} {kept charts : List Chart} {chart : Chart}
  {name : String} {set : ChartSet} {sets : List (String × ChartSet)}

theorem charts_namedCharts_cons :
    (namedCharts ((name, set) :: sets)).map (·.2) =
      chartsOf set ++ (namedCharts sets).map (·.2) := by
  rw [namedCharts, List.flatMap_cons, List.map_append, List.map_map]
  exact congrArg (· ++ _) (List.map_id _)

theorem fitting_nil {α : Type} (left : Option Nat) :
    fitting left ([] : List α) = [] := by
  cases left with
  | none => rfl
  | some n => exact List.take_nil

theorem fitting_append {α : Type} (left : Option Nat) (first second : List α) :
    fitting left (first ++ second) =
      fitting left first ++ fitting (left.map (· - first.length)) second := by
  cases left with
  | none => rfl
  | some n => exact List.take_append

/-- The room for charts that are kept and more is the room that is left once
some of the others are kept as well. -/
theorem room_fitting (kept charts : List Chart) (left : Option Nat) :
    left.map (kept.length + ·) =
      (left.map (· - charts.length)).map
        ((kept ++ fitting left charts).length + ·) := by
  cases left with
  | none => rfl
  | some n =>
      simp only [Option.map_some, fitting, List.length_append, List.length_take]
      congr 1
      omega

/-! ## One set -/

theorem draw_recorder_of_ne (failure : Chart → CanvasError)
    (h : room ≠ some kept.length) :
    ((recorder room failure).draw chart).run kept =
      (.ok (), kept ++ [chart]) := by
  show (if room = some kept.length then _ else _ : StateM (List Chart) _).run
      kept = _
  rw [if_neg h]
  rfl

theorem draw_recorder_of_eq (failure : Chart → CanvasError)
    (h : room = some kept.length) :
    ((recorder room failure).draw chart).run kept =
      (.error (failure chart), kept) := by
  show (if room = some kept.length then _ else _ : StateM (List Chart) _).run
      kept = _
  rw [if_pos h]
  rfl

theorem drawAll_recorder (failure : Chart → CanvasError)
    (kept charts : List Chart) (left : Option Nat) :
    ∃ result,
      ((recorder (left.map (kept.length + ·)) failure).drawAll charts).run
        kept = (result, kept ++ fitting left charts) ∧
      result.isOk = left.all (charts.length ≤ ·) := by
  induction charts generalizing kept left with
  | nil =>
      refine ⟨.ok [], ?_, ?_⟩
      · rw [fitting_nil, List.append_nil]
        rfl
      · cases left <;> rfl
  | cons chart rest ih =>
      by_cases hfull : left = some 0
      · subst hfull
        have hdraw :
            ((recorder ((some 0).map (kept.length + ·)) failure).draw chart).run
              kept = (.error (failure chart), kept) :=
          draw_recorder_of_eq failure rfl
        refine ⟨.error (failure chart), ?_, rfl⟩
        rw [run_drawAll_of_error hdraw]
        exact congrArg _ (List.append_nil kept).symm
      · have hpos : ∀ n, left = some n → 0 < n := by
          rintro n rfl
          exact Nat.pos_of_ne_zero fun hzero => hfull (congrArg some hzero)
        have hroom : left.map (kept.length + ·) ≠ some kept.length := by
          intro h
          obtain ⟨n, hn, hlength⟩ := Option.map_eq_some_iff.1 h
          have := hpos n hn
          omega
        have hfits : fitting left [chart] = [chart] := by
          cases left with
          | none => rfl
          | some n => exact List.take_of_length_le (hpos n rfl)
        have hnext := room_fitting kept [chart] left
        rw [hfits] at hnext
        obtain ⟨result, hrun, hok⟩ :=
          ih (kept ++ [chart]) (left.map (· - [chart].length))
        rw [← hnext] at hrun
        have hcons : fitting left (chart :: rest) = _ :=
          fitting_append left [chart] rest
        have hisOk : (result.map (chart.path :: ·)).isOk = result.isOk := by
          cases result <;> rfl
        refine ⟨result.map (chart.path :: ·), ?_, ?_⟩
        · rw [run_drawAll_of_ok (draw_recorder_of_ne failure hroom) hrun,
            hcons, hfits, List.append_assoc]
        · rw [hisOk, hok]
          cases left with
          | none => rfl
          | some n =>
              have := hpos n rfl
              rw [Option.map_some, Option.all_some, Option.all_some]
              refine decide_eq_decide.2 ?_
              simp only [List.length_cons, List.length_nil]
              omega

theorem drawSet_recorder (failure : Chart → CanvasError) (kept : List Chart)
    (left : Option Nat) (set : ChartSet) :
    ∃ result, (drawSet (recorder (left.map (kept.length + ·)) failure) set).run
      kept =
        (result, kept ++ fitting left (chartsOf set)) ∧
      result.isOk = (set.isOk && left.all ((chartsOf set).length ≤ ·)) := by
  cases set with
  | error e =>
      refine ⟨.error e, ?_, rfl⟩
      rw [chartsOf, fitting_nil, List.append_nil]
      rfl
  | ok charts =>
      obtain ⟨result, hrun, hok⟩ := drawAll_recorder failure kept charts left
      refine ⟨result.mapError .canvas, run_drawSet_of_ok hrun, ?_⟩
      show _ = left.all (charts.length ≤ ·)
      rw [← hok]
      cases result <;> rfl

/-! ## All sets -/

theorem mem_lateNames_cons {x : String} :
    x ∈ lateNames left ((name, set) :: sets) ↔
      x = name ∧ left.all ((chartsOf set).length ≤ ·) = false ∨
        x ∈ lateNames (left.map (· - (chartsOf set).length)) sets := by
  cases left with
  | none => simp [lateNames]
  | some n =>
      have hset : ((chartsOf set).map (name, ·)).map (·.1) =
          List.replicate (chartsOf set).length name := by
        rw [List.map_map]
        exact List.map_const' ..
      rw [lateNames, namedCharts, List.flatMap_cons, List.drop_append,
        List.map_append, List.mem_append, List.map_drop, hset,
        List.drop_replicate, List.mem_replicate, List.length_map]
      refine or_congr_left ?_
      rw [and_comm]
      refine and_congr_right fun _ => ?_
      rw [Option.all_some, decide_eq_false_iff_not]
      omega

theorem mem_of_mem_lateNames {x : String} (h : x ∈ lateNames left sets) :
    x ∈ sets.map (·.1) := by
  induction sets generalizing left with
  | nil => cases left <;> simp [lateNames, namedCharts] at h
  | cons first rest ih =>
      rw [mem_lateNames_cons] at h
      rcases h with ⟨rfl, -⟩ | h
      · exact List.mem_cons_self
      · exact List.mem_cons_of_mem _ (ih h)

theorem countP_lateNames_cons (h : name ∉ sets.map (·.1)) :
    ((name, set) :: sets).countP (·.1 ∈ lateNames left ((name, set) :: sets)) =
      sets.countP
        (·.1 ∈ lateNames (left.map (· - (chartsOf set).length)) sets) +
        if left.all ((chartsOf set).length ≤ ·) then 0 else 1 := by
  rw [List.countP_cons]
  congr 1
  · refine List.countP_congr fun other hother => ?_
    have hne : other.1 ≠ name := by
      rintro rfl
      exact h (List.mem_map_of_mem hother)
    rw [decide_eq_true_eq, decide_eq_true_eq, mem_lateNames_cons]
    exact or_iff_right fun hname => hne hname.1
  · have hlater :
        name ∉ lateNames (left.map (· - (chartsOf set).length)) sets :=
      fun hlate => h (mem_of_mem_lateNames hlate)
    simp only [decide_eq_true_eq, mem_lateNames_cons, hlater,
      or_false, true_and]
    cases left.all ((chartsOf set).length ≤ ·) <;> rfl

theorem drawSets_recorder (failure : Chart → CanvasError) (kept : List Chart)
    (left : Option Nat) (hnames : (sets.map (·.1)).Nodup) :
    ∃ results,
      (drawSets (recorder (left.map (kept.length + ·)) failure) sets).run kept =
        (results, kept ++ fitting left ((namedCharts sets).map (·.2))) ∧
      results.countP (fun r => !r.2.isOk) =
        sets.countP (fun s => !s.2.isOk) +
          sets.countP (·.1 ∈ lateNames left sets) := by
  induction sets generalizing kept left with
  | nil =>
      refine ⟨[], ?_, rfl⟩
      rw [namedCharts, List.flatMap_nil, List.map_nil, fitting_nil,
        List.append_nil]
      rfl
  | cons first rest ih =>
      obtain ⟨name, set⟩ := first
      obtain ⟨hname, hrest⟩ := List.nodup_cons.1 hnames
      obtain ⟨result, hset, hok⟩ := drawSet_recorder failure kept left set
      obtain ⟨results, hsets, hfailed⟩ :=
        ih (kept ++ fitting left (chartsOf set))
          (left.map (· - (chartsOf set).length)) hrest
      rw [← room_fitting] at hsets
      refine ⟨(name, result) :: results, ?_, ?_⟩
      · rw [run_drawSets_cons hset hsets, charts_namedCharts_cons,
          fitting_append, List.append_assoc]
      · -- A set that cannot be computed has no charts, so it is not counted
        -- twice.
        have hcomputed :
            set.isOk = false → left.all ((chartsOf set).length ≤ ·) = true := by
          cases set with
          | error e => cases left <;> simp [chartsOf]
          | ok charts => exact fun h => Bool.noConfusion h
        rw [List.countP_cons, List.countP_cons, hfailed,
          countP_lateNames_cons hname, hok]
        cases hset : set.isOk with
        | false =>
            rw [hcomputed hset]
            simp only [Bool.and_true, Bool.not_false, if_true]
            omega
        | true =>
            cases left.all ((chartsOf set).length ≤ ·) with
            | false =>
                simp only [Bool.and_false, Bool.not_false,
                  Bool.not_true, if_true, Bool.false_eq_true, if_false]
                omega
            | true =>
                simp only [Bool.and_true, Bool.not_true, if_true,
                  Bool.false_eq_true, if_false, Nat.add_zero]

theorem nodup_names_chartSets (load : String → Except TableError Table)
    (output : Path) :
    ((chartSets load output).map (·.1)).Nodup := by
  rw [chartSets, List.map_append, List.map_map, List.map_map]
  show (Case.all.map id ++ Comparison.all.map Comparison.name).Nodup
  decide

theorem renderAllFrom_recorder (coloured : Bool) (settings : ChartSettings)
    (load : String → Except TableError Table) (room : Option Nat)
    (failure : Chart → CanvasError) :
    ∃ p, (renderAllFrom coloured settings (recorder room failure) load).run [] =
        (p, fitting room
          ((namedCharts (chartSets load settings.outputDirectory)).map (·.2))) ∧
      p.failures =
        (chartSets load settings.outputDirectory).countP (fun s => !s.2.isOk) +
        (chartSets load settings.outputDirectory).countP
          (·.1 ∈ lateNames room (chartSets load settings.outputDirectory)) := by
  obtain ⟨results, hrun, hfailed⟩ := drawSets_recorder failure [] room
    (nodup_names_chartSets load settings.outputDirectory)
  have hroom : room.map (([] : List Chart).length + ·) = room := by
    cases room with
    | none => rfl
    | some n => exact congrArg some (Nat.zero_add n)
  rw [hroom, List.nil_append] at hrun
  obtain ⟨p, hp, haccount⟩ := run_renderAllFrom coloured hrun
  exact ⟨p, hp, (congrArg Account.failures haccount).trans hfailed⟩

/-- A canvas of limited room ends up with the first charts of the run on one
that never fails, as many as it has room for. The sets that fail beyond those
that fail anyway are the ones with a chart that there was no room for; sets are
told apart by their names. -/
theorem renderAll_recorder (coloured : Bool) (tree : FileTree)
    (settings : ChartSettings) (failure : Chart → CanvasError) :
    let sets :=
      chartSets (Table.load tree settings.inputDirectory)
        settings.outputDirectory
    let run := fun room =>
      (renderAll coloured tree settings (recorder room failure)).run []
    (sets.map (·.1)).Nodup ∧
    (run none).2 = (namedCharts sets).map (·.2) ∧
    ∀ n, (run (some n)).2 = (run none).2.take n ∧
      (run (some n)).1.failures = (run none).1.failures +
        sets.countP (·.1 ∈ ((namedCharts sets).drop n).map (·.1)) := by
  intro sets run
  have hrun :
      ∀ room, ∃ p, run room = (p, fitting room ((namedCharts sets).map (·.2))) ∧
      p.failures = sets.countP (fun s => !s.2.isOk) +
        sets.countP (·.1 ∈ lateNames room sets) := fun room =>
    renderAllFrom_recorder coloured settings _ room failure
  obtain ⟨p, hp, hfailed⟩ := hrun none
  have hnone : sets.countP (·.1 ∈ lateNames none sets) = 0 :=
    List.countP_eq_zero.2 fun s _ => by simp [lateNames]
  refine ⟨nodup_names_chartSets _ _, congrArg Prod.snd hp, fun n => ?_⟩
  obtain ⟨q, hq, hlate⟩ := hrun (some n)
  rw [hp, hq]
  refine ⟨rfl, ?_⟩
  show q.failures = p.failures + _
  rw [hlate, hfailed, hnone]
  rfl

end BenchReport
