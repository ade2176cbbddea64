import BenchReport.Proofs.Program.Images

/-!
# Drawing ends at the first failure

A set of charts is computed before its first chart is drawn, so a set that
cannot be computed leaves the canvas as it was. From then on everything is up to
the canvas, and nothing is known of it: it has a state that every chart may
change, and it may fail at any chart in any state.

So the course of the drawing is followed state by state. `Canvas.Draws` says
that some charts are drawn one after the other without a failure, and
`Canvas.Renders` lists the three ways in which a set can end: it is not
computed, all of it is drawn, or its charts are drawn up to the first one that
fails. Each of the three comes with the charts that the canvas was asked for.
That there is no fourth way is `Canvas.draws_or_fails`, by induction on the
charts with the state that the earlier ones have left.
-/

namespace BenchReport

variable {σ : Type}

namespace Canvas

/-- Whether charts are drawn one after the other without a failure, and lead
from one state of the canvas to another. -/
inductive Draws (canvas : Canvas (StateM σ)) : List Chart → σ → σ → Prop where
  | nil {state : σ} : Draws canvas [] state state
  | cons {chart : Chart} {charts : List Chart} {before middle after : σ}
      (hdraw : (canvas.draw chart).run before = (.ok (), middle))
      (hrest : Draws canvas charts middle after) :
      Draws canvas (chart :: charts) before after

/-- What comes of a set of charts in a state of the canvas: the charts that it
is asked to draw, the result, and the state that is left. -/
inductive Renders (canvas : Canvas (StateM σ)) (state : σ) :
    Except TimingError (List Chart) → List Chart →
      Except ChartError (List Path) → σ → Prop where
  /-- A set that is not computed is not drawn. -/
  | uncomputed {e : TimingError} :
      Renders canvas state (.error e) [] (.error (.timing e)) state
  /-- All charts are drawn. -/
  | complete {charts : List Chart} {after : σ}
      (hdraws : canvas.Draws charts state after) :
      Renders canvas state (.ok charts) charts (.ok (charts.map (·.path))) after
  /-- A chart fails after others are drawn, and those after it are not
  asked for. -/
  | stopped {drawn later : List Chart} {chart : Chart} {middle after : σ}
      {e : CanvasError} (hdraws : canvas.Draws drawn state middle)
      (hfails : (canvas.draw chart).run middle = (.error e, after)) :
      Renders canvas state (.ok (drawn ++ chart :: later)) (drawn ++ [chart])
        (.error (.canvas e)) after

variable {canvas : Canvas (StateM σ)} {charts drawn : List Chart}
  {chart : Chart} {state before middle after : σ} {e : CanvasError}

/-! ## The course of a drawing -/

theorem draws_or_fails (canvas : Canvas (StateM σ)) (charts : List Chart)
    (state : σ) :
    (∃ after, canvas.Draws charts state after) ∨
      ∃ drawn chart later middle e after, charts = drawn ++ chart :: later ∧
        canvas.Draws drawn state middle ∧
        (canvas.draw chart).run middle = (.error e, after) := by
  induction charts generalizing state with
  | nil => exact .inl ⟨state, .nil⟩
  | cons chart rest ih =>
      obtain ⟨result, next, hdraw⟩ : ∃ result next,
          (canvas.draw chart).run state = (result, next) := ⟨_, _, rfl⟩
      cases result with
      | error e =>
          exact .inr ⟨[], chart, rest, state, e, next, rfl, .nil, hdraw⟩
      | ok _ =>
          rcases ih next with
            ⟨after, hrest⟩ | ⟨drawn, last, later, middle, e, after,
              hsplit, hrest,
            hfails⟩
          · exact .inl ⟨after, .cons hdraw hrest⟩
          · refine .inr ⟨chart :: drawn, last, later, middle, e, after, ?_,
              .cons hdraw hrest, hfails⟩
            rw [hsplit, List.cons_append]

theorem Draws.run_drawAll (h : canvas.Draws charts before after) :
    (canvas.drawAll charts).run before =
      (.ok (charts.map (·.path)), after) := by
  induction h with
  | nil => rfl
  | cons hdraw _ ih => exact run_drawAll_of_ok hdraw ih

/-- What comes after a chart that fails does not matter. -/
theorem Draws.run_drawAll_of_error (h : canvas.Draws drawn before middle)
    (hfails : (canvas.draw chart).run middle = (.error e, after))
    (later : List Chart) :
    (canvas.drawAll (drawn ++ chart :: later)).run before =
      (.error e, after) := by
  induction h with
  | nil => exact BenchReport.run_drawAll_of_error hfails
  | cons hdraw _ ih => exact run_drawAll_of_ok hdraw (ih hfails)

/-! ## The charts that are asked for -/

theorem Draws.watched (h : canvas.Draws charts before after)
    (asked : List Chart) :
    canvas.watched.Draws charts (asked, before) (asked ++ charts, after) := by
  induction h generalizing asked with
  | nil =>
      rw [List.append_nil]
      exact .nil
  | @cons chart rest _ _ _ hdraw _ ih =>
      have hrest := ih (asked ++ [chart])
      rw [List.append_assoc, List.singleton_append] at hrest
      exact .cons (run_draw_watched hdraw asked) hrest

/-! ## A set of charts -/

theorem run_renderCharts_of_ok {result : Except CanvasError (List Path)}
    (h : (canvas.drawAll charts).run before = (result, after)) :
    (renderCharts canvas (.ok charts)).run before =
      (result.mapError .canvas, after) := by
  rw [renderCharts_eq]
  exact run_drawSet_of_ok h

theorem exists_renders (canvas : Canvas (StateM σ)) (state : σ)
    (set : Except TimingError (List Chart)) :
    ∃ asked result after, canvas.Renders state set asked result after ∧
      (renderCharts canvas set).run state = (result, after) ∧
      (renderCharts canvas.watched set).run ([], state) =
        (result, (asked, after)) := by
  cases set with
  | error e => exact ⟨[], .error (.timing e), state, .uncomputed, rfl, rfl⟩
  | ok charts =>
      rcases canvas.draws_or_fails charts state with
        ⟨after, hdraws⟩ | ⟨drawn, chart, later, middle, e, after, rfl,
          hdraws, hfails⟩
      · exact ⟨charts, .ok (charts.map Chart.path), after, .complete hdraws,
          run_renderCharts_of_ok hdraws.run_drawAll,
          run_renderCharts_of_ok (hdraws.watched []).run_drawAll⟩
      · exact ⟨drawn ++ [chart], .error (.canvas e), after,
          .stopped hdraws hfails,
          run_renderCharts_of_ok (hdraws.run_drawAll_of_error hfails later),
          run_renderCharts_of_ok ((hdraws.watched []).run_drawAll_of_error
            (run_draw_watched hfails drawn) later)⟩

end Canvas

/-- Rendering is all or nothing up to the canvas. A case or a comparison that
cannot be computed gives its error, and the canvas is not asked for anything.
Otherwise the canvas is asked for the computed charts one at a time, in their
order, up to the first one that fails: its error is the result, and without any
failure the result is the paths of all charts. -/
theorem renders_up_to_failure (canvas : Canvas (StateM σ)) (state : σ)
    (output : Path) :
    (∀ table, ∃ asked result after,
      canvas.Renders state (caseCharts table output) asked result after ∧
      (renderCase canvas table output).run state = (result, after) ∧
      (renderCase canvas.watched table output).run ([], state) =
        (result, (asked, after))) ∧
    ∀ tree simple c, ∃ asked result after,
      canvas.Renders state (comparisonCharts tree simple c output) asked
        result after ∧
      (renderComparison canvas tree simple c output).run state =
        (result, after) ∧
      (renderComparison canvas.watched tree simple c output).run ([], state) =
        (result, (asked, after)) :=
  ⟨fun table => canvas.exists_renders state (caseCharts table output),
    fun tree simple c =>
      canvas.exists_renders state (comparisonCharts tree simple c output)⟩

end BenchReport
