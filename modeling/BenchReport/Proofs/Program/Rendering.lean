import BenchReport.Program.ChartRender

/-!
# Tables at hand change nothing

The chart program keeps the tables of the cases that it has rendered, and a
comparison takes its tables from there if it can. Here the same program is
described without that: each of the six sets of charts is computed from the
files of its own tables, all of it before anything is drawn, and then the sets
are drawn one after the other.

Whatever is at hand was loaded from the same files, and that is the invariant
(`Progress.Sound`). It is kept by every set, also by one that fails, since then
nothing is put aside. The rest is `foldlM` against `mapM`: a step of the program
draws one set and records the result, so a run draws all sets and then records
all results. This holds for canvases of every lawful monad, so for every way to
fail and for every state that drawing leaves behind.
-/

namespace BenchReport

/-! ## The sets of charts by themselves -/

/-- A set of charts, or why it cannot be computed. -/
abbrev ChartSet := Except ChartError (List Chart)

/-- A set of charts that was drawn, by its images, or why it was not. -/
abbrev SetResult := Except ChartError (List Path)

/-- The charts of a case, from its own table. -/
def caseSet (load : String → Except TableError Table) (output : Path)
    (case : String) :
    ChartSet := do
  let table ← (load case).mapError .table
  (caseCharts table output).mapError .timing

/-- The charts of a comparison, from its two tables. -/
def comparisonSet (load : String → Except TableError Table) (output : Path)
    (c : Comparison) :
    ChartSet := do
  let tree ← (load c.tree).mapError .table
  let simple ← (load c.simple).mapError .table
  (comparisonCharts tree simple c output).mapError .timing

/-- All sets with their names, in the order of the program. -/
def chartSets (load : String → Except TableError Table) (output : Path) :
    List (String × ChartSet) :=
  Case.all.map (fun case => (case, caseSet load output case)) ++
    Comparison.all.map fun c => (c.name, comparisonSet load output c)

variable {m : Type → Type} [Monad m]

/-- Draws a set of charts, if there is one. -/
def drawSet (canvas : Canvas m) : ChartSet → m SetResult
  | .error e => pure (.error e)
  | .ok charts => (·.mapError .canvas) <$> canvas.drawAll charts

/-- Draws sets of charts in their order, whether or not others fail. -/
def drawSets (canvas : Canvas m) (sets : List (String × ChartSet)) :
    m (List (String × SetResult)) :=
  sets.mapM fun (name, set) => (name, ·) <$> drawSet canvas set

/-! ## What is told of results -/

/-- The lines on the standard output for a result. -/
def outputLines (coloured quiet : Bool) : String × SetResult → List String
  | (_, .error _) => []
  | (name, .ok paths) =>
    if quiet then []
    else ["    " ++ Label.text coloured .rendered ++ " " ++ paths.length.repr ++
      " chart(s) for " ++ name]

/-- The lines on the standard error output for a result. -/
def errorLines (coloured : Bool) : String × SetResult → List String
  | (name, .error e) =>
    [Label.text coloured .error ++ " " ++ name ++ ": " ++ e.message]
  | (_, .ok _) => []

/-- What a run leaves behind, apart from the images. -/
structure Account where
  /-- The number of sets that failed. -/
  failures : Nat
  /-- The lines on the standard output. -/
  output : List String
  /-- The lines on the standard error output. -/
  errors : List String
deriving DecidableEq, Repr

/-- The account of the results of all sets. -/
def Account.ofResults (coloured quiet : Bool)
    (results : List (String × SetResult)) :
    Account where
  failures := results.countP fun r => !r.2.isOk
  output := results.flatMap (outputLines coloured quiet)
  errors := results.flatMap (errorLines coloured)

/-- The account with one more result. -/
def Account.add (coloured quiet : Bool) (a : Account) (r : String × SetResult) :
    Account where
  failures := a.failures + if r.2.isOk then 0 else 1
  output := a.output ++ outputLines coloured quiet r
  errors := a.errors ++ errorLines coloured r

variable {coloured quiet : Bool}

theorem Account.foldl_add (a : Account) (results : List (String × SetResult)) :
    results.foldl (add coloured quiet) a =
      { failures := a.failures + (ofResults coloured quiet results).failures
        output := a.output ++ (ofResults coloured quiet results).output
        errors := a.errors ++ (ofResults coloured quiet results).errors } := by
  induction results generalizing a with
  | nil => simp [ofResults]
  | cons r rest ih =>
      rw [List.foldl_cons, ih]
      simp only [add, ofResults, List.countP_cons, List.flatMap_cons,
        List.append_assoc, Account.mk.injEq, and_true]
      cases hr : r.2.isOk
      · simp
        omega
      · simp

/-! ## One set -/

/-- The account that a program gives so far. -/
def Progress.account (p : Progress) : Account where
  failures := p.failures
  output := p.output
  errors := p.errors

theorem Progress.account_record (p : Progress) (r : String × SetResult) :
    (p.record coloured quiet r.1 r.2).account =
      p.account.add coloured quiet r := by
  obtain ⟨name, result⟩ := r
  cases result with
  | error e =>
      simp [record, account, Account.add, outputLines, errorLines, Except.isOk,
        Except.toBool]
  | ok paths =>
      cases quiet <;>
        simp [record, account, Account.add, outputLines, errorLines,
          Except.isOk, Except.toBool]

theorem Progress.tables_record (p : Progress) (name : String)
    (result : SetResult) :
    (p.record coloured quiet name result).tables = p.tables := by
  cases result with
  | error e => rfl
  | ok paths => cases quiet <;> rfl

/-- Whether every table at hand is the one that would be loaded. -/
def Progress.Sound (p : Progress) (load : String → Except TableError Table) :
    Prop :=
  ∀ case table, p.tables.lookup case = some table → load case = .ok table

variable {load : String → Except TableError Table}

theorem Progress.Sound.table_eq {p : Progress} (h : p.Sound load)
    (case : String) :
    p.table load case = load case := by
  rw [table]
  split
  · next table hlookup => exact (h case table hlookup).symm
  · rfl

theorem Progress.Sound.record {p : Progress} (h : p.Sound load) (name : String)
    (result : SetResult) :
    (p.record coloured quiet name result).Sound load := by
  rw [Sound, tables_record]
  exact h

/-- The progress after the charts of a case: its table is at hand if they were
drawn. -/
def Progress.afterCase (load : String → Except TableError Table)
    (coloured quiet : Bool) (p : Progress) (r : String × SetResult) :
    Progress :=
  match load r.1, r.2 with
  | .ok table, .ok _ =>
    { p.record coloured quiet r.1 r.2 with tables := (r.1, table) :: p.tables }
  | _, _ => p.record coloured quiet r.1 r.2

theorem Progress.account_afterCase (p : Progress) (r : String × SetResult) :
    (p.afterCase load coloured quiet r).account =
      p.account.add coloured quiet r := by
  rw [afterCase]
  split
  · exact p.account_record r
  · exact p.account_record r

theorem Progress.Sound.afterCase {p : Progress} (h : p.Sound load)
    (r : String × SetResult) :
    (p.afterCase load coloured quiet r).Sound load := by
  rw [Progress.afterCase]
  split
  · next table paths hload hresult =>
    intro case found hlookup
    rw [List.lookup_cons] at hlookup
    split at hlookup
    · next hcase =>
      obtain rfl := Option.some.inj hlookup
      rw [eq_of_beq hcase, hload]
    · exact h case found hlookup
  · exact h.record r.1 r.2

variable [LawfulMonad m] {canvas : Canvas m} {settings : ChartSettings}

theorem renderCharts_eq (charts : Except TimingError (List Chart)) :
    renderCharts canvas charts = drawSet canvas (charts.mapError .timing) := by
  cases charts with
  | error e => rfl
  | ok charts =>
      show renderCharts canvas (.ok charts) = drawSet canvas (.ok charts)
      rw [renderCharts, drawSet, map_eq_pure_bind]
      refine bind_congr fun result => ?_
      cases result <;> rfl

theorem renderCaseSet_eq (p : Progress) (case : String) :
    renderCaseSet coloured settings canvas load p case =
      (fun result =>
          p.afterCase load coloured settings.quiet (case, result)) <$>
        drawSet canvas (caseSet load settings.outputDirectory case) := by
  cases hload : load case with
  | error e =>
      have hset :
          caseSet load settings.outputDirectory case = .error (.table e) := by
        rw [caseSet, hload]
        rfl
      rw [renderCaseSet, hload, hset, drawSet, map_pure, Progress.afterCase]
      simp only [hload]
  | ok table =>
      have hset : caseSet load settings.outputDirectory case =
          (caseCharts table settings.outputDirectory).mapError .timing := by
        rw [caseSet, hload]
        rfl
      rw [renderCaseSet, hload, hset, ← renderCharts_eq, map_eq_pure_bind]
      refine bind_congr fun result => ?_
      rw [Progress.afterCase]
      cases result <;> simp only [hload]

theorem renderComparisonSet_eq {p : Progress} (h : p.Sound load)
    (c : Comparison) :
    renderComparisonSet coloured settings canvas load p c =
      p.record coloured settings.quiet c.name <$>
        drawSet canvas (comparisonSet load settings.outputDirectory c) := by
  rw [renderComparisonSet, h.table_eq, h.table_eq]
  cases htree : load c.tree with
  | error e =>
      have hset : comparisonSet load settings.outputDirectory c =
          .error (.table e) := by
        rw [comparisonSet, htree]
        rfl
      rw [hset, drawSet, map_pure]
  | ok tree =>
      cases hsimple : load c.simple with
      | error e =>
          have hset : comparisonSet load settings.outputDirectory c =
              .error (.table e) := by
            rw [comparisonSet, htree, hsimple]
            rfl
          rw [hset, drawSet, map_pure]
      | ok simple =>
          have hset : comparisonSet load settings.outputDirectory c =
              (comparisonCharts tree simple c settings.outputDirectory).mapError
                .timing := by
            rw [comparisonSet, htree, hsimple]
            rfl
          rw [hset, ← renderCharts_eq, map_eq_pure_bind]
          rfl

/-! ## All sets -/

theorem drawSets_cons (name : String) (set : ChartSet)
    (sets : List (String × ChartSet)) :
    drawSets canvas ((name, set) :: sets) = (do
      let result ← drawSet canvas set
      let results ← drawSets canvas sets
      return (name, result) :: results) := by
  simp only [drawSets, List.mapM_cons, bind_map_left]

theorem drawSets_append (first second : List (String × ChartSet)) :
    drawSets canvas (first ++ second) = (do
      let results ← drawSets canvas first
      let others ← drawSets canvas second
      return results ++ others) := List.mapM_append

theorem foldlM_renderCaseSet (cases : List String) (p : Progress) :
    cases.foldlM (renderCaseSet coloured settings canvas load) p =
      (·.foldl (Progress.afterCase load coloured settings.quiet) p) <$>
        drawSets canvas
          (cases.map fun case =>
            (case, caseSet load settings.outputDirectory case)) := by
  induction cases generalizing p with
  | nil => simp [drawSets]
  | cons case rest ih =>
      rw [List.foldlM_cons, renderCaseSet_eq, bind_map_left, List.map_cons,
        drawSets_cons]
      simp only [ih, map_eq_pure_bind, bind_assoc, pure_bind, List.foldl_cons]

theorem foldlM_renderComparisonSet (comparisons : List Comparison)
    {p : Progress} (h : p.Sound load) :
    comparisons.foldlM (renderComparisonSet coloured settings canvas load) p =
      (·.foldl (fun p r => p.record coloured settings.quiet r.1 r.2) p) <$>
        drawSets canvas
          (comparisons.map fun c =>
            (c.name, comparisonSet load settings.outputDirectory c)) := by
  induction comparisons generalizing p with
  | nil => simp [drawSets]
  | cons c rest ih =>
      rw [List.foldlM_cons, renderComparisonSet_eq h, bind_map_left,
        List.map_cons, drawSets_cons]
      have hstep : ∀ result : SetResult,
          rest.foldlM (renderComparisonSet coloured settings canvas load)
              (p.record coloured settings.quiet c.name result) = _ :=
        fun result => ih (h.record c.name result)
      simp only [hstep, map_eq_pure_bind, bind_assoc, pure_bind,
        List.foldl_cons]

theorem sound_foldl_afterCase {p : Progress} (h : p.Sound load)
    (results : List (String × SetResult)) :
    (results.foldl (Progress.afterCase load coloured quiet) p).Sound load := by
  induction results generalizing p with
  | nil => exact h
  | cons r rest ih => exact ih (h.afterCase r)

theorem account_foldl {step : Progress → String × SetResult → Progress}
    (hstep : ∀ p r, (step p r).account = p.account.add coloured quiet r)
    (p : Progress) (results : List (String × SetResult)) :
    (results.foldl step p).account = results.foldl (Account.add coloured quiet)
      p.account := by
  induction results generalizing p with
  | nil => rfl
  | cons r rest ih => rw [List.foldl_cons, ih, hstep, List.foldl_cons]

theorem account_renderAllFrom :
    Progress.account <$> renderAllFrom coloured settings canvas load =
      Account.ofResults coloured settings.quiet <$>
        drawSets canvas (chartSets load settings.outputDirectory) := by
  have hstart : ({} : Progress).Sound load := fun case table hlookup => by
    cases hlookup
  have hcomparisons : ∀ results : List (String × SetResult),
      Comparison.all.foldlM (renderComparisonSet coloured settings canvas load)
        (results.foldl (Progress.afterCase load coloured settings.quiet) {}) =
          _ := fun results =>
    foldlM_renderComparisonSet Comparison.all
      (sound_foldl_afterCase hstart results)
  have haccount : ∀ results others : List (String × SetResult),
      (others.foldl (fun p r => p.record coloured settings.quiet r.1 r.2)
          (results.foldl (Progress.afterCase load coloured settings.quiet)
            {})).account =
        Account.ofResults coloured settings.quiet (results ++ others) := by
    intro results others
    rw [account_foldl Progress.account_record,
      account_foldl Progress.account_afterCase, ← List.foldl_append,
      Account.foldl_add]
    simp [Progress.account]
  rw [renderAllFrom, foldlM_renderCaseSet, bind_map_left, chartSets,
    drawSets_append]
  simp only [hcomparisons, map_eq_pure_bind, bind_assoc, pure_bind, haccount]

theorem load_congr {tree other : FileTree} {directory : Path} {case : String}
    (h : other.read (Table.path directory case) =
      tree.read (Table.path directory case)) :
    Table.load other directory case = Table.load tree directory case := by
  unfold Table.load
  dsimp only
  rw [h]

theorem comparisonSet_congr {load other : String → Except TableError Table}
    {output : Path} {c : Comparison} (htree : other c.tree = load c.tree)
    (hsimple : other c.simple = load c.simple) :
    comparisonSet other output c = comparisonSet load output c := by
  rw [comparisonSet, comparisonSet, htree, hsimple]

/-- A run gives the same account, and leaves the canvas in the same state, as
drawing the six sets one after the other, each computed from the files of its
own tables. The set of a comparison is the same wherever its two files are. -/
theorem renderAll_fresh (coloured : Bool) (tree : FileTree)
    (settings : ChartSettings) (canvas : Canvas m) :
    Progress.account <$> renderAll coloured tree settings canvas =
      Account.ofResults coloured settings.quiet <$> drawSets canvas
        (chartSets (Table.load tree settings.inputDirectory)
          settings.outputDirectory) ∧
    (chartSets (Table.load tree settings.inputDirectory)
      settings.outputDirectory).length = 6 ∧
    ∀ (other : FileTree) (c : Comparison),
      other.read (Table.path settings.inputDirectory c.tree) =
        tree.read (Table.path settings.inputDirectory c.tree) →
      other.read (Table.path settings.inputDirectory c.simple) =
        tree.read (Table.path settings.inputDirectory c.simple) →
      comparisonSet (Table.load other settings.inputDirectory)
          settings.outputDirectory c =
        comparisonSet (Table.load tree settings.inputDirectory)
          settings.outputDirectory c := by
  refine ⟨account_renderAllFrom, rfl, fun other c htree hsimple => ?_⟩
  exact comparisonSet_congr (load_congr htree) (load_congr hsimple)

/-- A canvas that counts its charts and fails at every other one, and a table
for one case of the four. -/
theorem renderAll_fresh_flaky :
    let canvas : Canvas (StateM Nat) := ⟨fun chart => do
      let drawn ← get
      set (drawn + 1)
      return if drawn % 2 = 0 then .ok ()
        else .error (.drawing chart.path "disk full")⟩
    let tree := FileTree.empty.put [⟨"argobots_tree_summary.csv", by decide⟩]
      (.file (Utf8.encode
        "Xstreams,Threads,Time(s),Time(nanos)\n1,1,2.0,2000000000\n1,2,1.5,1500000000\n".toList))
    Progress.account <$> renderAll true tree {} canvas =
      Account.ofResults true false <$> drawSets canvas
        (chartSets (Table.load tree ⟨"."⟩) ⟨"."⟩) :=
  (renderAll_fresh true _ {} _).1

end BenchReport
