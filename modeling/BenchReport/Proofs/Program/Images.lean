import BenchReport.Proofs.Chart.Joining
import BenchReport.Proofs.Numeral.RoundTrip
import BenchReport.Proofs.Numeral.Whole
import BenchReport.Proofs.Path.Join
import BenchReport.Proofs.Program.Recording
import BenchReport.Proofs.Table.Charts
import BenchReport.Proofs.Outcome
import Mathlib.Data.List.Nodup

/-!
# Every image has a path of its own

A run writes up to six sets of images, and nothing looks at a path before it is
written. That none is written twice is due to the names. The sets have different
directories, and the file names of a set have a number of streams between two
fixed texts, neither of which runs on in digits, so the number can be read off
the name (`repr_append_inj`). No number of streams is charted twice, whatever
the rows of a table are.

The output directory does not matter. A joined name is a component of its own at
the end of any path, even of one that ends in slashes or dots, and it is the
last two components that tell two images apart.

What a canvas is asked to draw depends on how it behaves, because a set ends at
its first failure. But it is a prefix of the charts of the set, so all that it
is asked for in a run is a part of the charts of all sets.
-/

namespace BenchReport

/-! ## Names of images -/

/-- Numbers between the same texts are told apart, and so are texts after them
that do not begin with a digit. -/
theorem repr_append_inj {m n : Nat} {first second : String}
    (hfirst : ∀ c ∈ first.toList.head?, c.isDigit = false)
    (hsecond : ∀ c ∈ second.toList.head?, c.isDigit = false)
    (h : m.repr ++ first = n.repr ++ second) : m = n ∧ first = second := by
  have hchars : Nat.toDigits 10 m ++ first.toList =
      Nat.toDigits 10 n ++ second.toList := by
    rw [← Nat.toList_repr, ← Nat.toList_repr, ← String.toList_append,
      ← String.toList_append, h]
  have hm : ∀ c ∈ Nat.toDigits 10 m, c.isDigit :=
    fun c hc => Whole.isDigit_of_mem_toDigits hc
  have hn : ∀ c ∈ Nat.toDigits 10 n, c.isDigit :=
    fun c hc => Whole.isDigit_of_mem_toDigits hc
  have hdigits := congrArg (List.takeWhile Char.isDigit) hchars
  have hrest := congrArg (List.dropWhile Char.isDigit) hchars
  rw [Decimal.takeWhile_isDigit_append hm hfirst,
    Decimal.takeWhile_isDigit_append hn hsecond]
    at hdigits
  rw [Decimal.dropWhile_isDigit_append hm hfirst,
    Decimal.dropWhile_isDigit_append hn hsecond]
    at hrest
  refine ⟨?_, String.toList_inj.1 hrest⟩
  have hvalues := congrArg (Nat.ofDigitChars 10 · 0) hdigits
  simpa only [Nat.ofDigitChars_ten_toDigits] using hvalues

/-- What follows the number in the name of an image. -/
def Metric.ending : Metric → String
  | meanTime | speedup => ".png"
  | meanTimeNanos => "_nanos.png"

/-- What precedes the number in the name of an image. -/
def Metric.beginning : Metric → String
  | meanTime | meanTimeNanos => "mean_execution_time_xstreams_"
  | speedup => "speedup_xstreams_"

theorem Metric.fileName_eq (n : UInt32) (metric : Metric) :
    metric.fileName n = metric.beginning ++
      (n.toNat.repr ++ metric.ending) := by
  cases metric with
  | meanTime => exact String.append_assoc
  | meanTimeNanos => exact String.append_assoc
  | speedup => exact String.append_assoc

theorem head?_append_toList {beginning later : String} {c : Char}
    (h : beginning.toList.head? = some c) :
    (beginning ++ later).toList.head? = some c := by
  rw [String.toList_append, List.head?_append, h]
  rfl

theorem isName_numbered {beginning ending : String} {c : Char} (n : Nat)
    (hfirst : beginning.toList.head? = some c) (hc : c ≠ '.')
    (hbeginning : '/' ∉ beginning.toList) (hending : '/' ∉ ending.toList) :
    Path.IsName (beginning ++ (n.repr ++ ending)) := by
  have hhead : (beginning ++ (n.repr ++ ending)).toList.head? = some c :=
    head?_append_toList hfirst
  have hne : ∀ cs : List Char, cs.head? ≠ some c →
      (beginning ++ (n.repr ++ ending)).toList ≠ cs := by
    rintro cs hcs rfl
    exact hcs hhead
  refine ⟨?_, hne [] (by simp), hne ['.'] ?_, hne ['.', '.'] ?_⟩
  · intro h
    rw [String.toList_append, String.toList_append, Nat.toList_repr,
      List.mem_append, List.mem_append] at h
    rcases h with h | h | h
    · exact hbeginning h
    · exact absurd (Whole.isDigit_of_mem_toDigits h) (by decide)
    · exact hending h
  · exact fun h => hc (Option.some.inj h).symm
  · exact fun h => hc (Option.some.inj h).symm

namespace Metric

theorem head?_beginning (metric : Metric) :
    metric.beginning.toList.head? =
      some (if metric = speedup then 's' else 'm') := by
  cases metric <;> rfl

theorem head?_ending (metric : Metric) :
    ∀ c ∈ metric.ending.toList.head?, c.isDigit = false := by
  intro c hc
  cases metric <;> (cases hc; rfl)

theorem isName_fileName (n : UInt32) (metric : Metric) :
    Path.IsName (metric.fileName n) := by
  rw [fileName_eq]
  refine isName_numbered _ metric.head?_beginning ?_ ?_ ?_
  · cases metric <;> decide
  · cases metric <;> decide
  · cases metric <;> decide

theorem fileName_inj {m n : UInt32} {metric other : Metric}
    (h : metric.fileName m = other.fileName n) : m = n ∧ metric = other := by
  rw [fileName_eq, fileName_eq] at h
  have hbeginning : metric.beginning = other.beginning := by
    have hhead := congrArg (·.toList.head?) h
    simp only [head?_append_toList (head?_beginning _), Option.some.injEq]
      at hhead
    revert hhead
    cases metric <;> cases other <;> decide
  rw [hbeginning, String.append_right_inj] at h
  obtain ⟨hn, hending⟩ :=
    repr_append_inj metric.head?_ending other.head?_ending h
  refine ⟨UInt32.toNat_inj.1 hn, ?_⟩
  revert hbeginning hending
  cases metric <;> cases other <;> decide

end Metric

namespace Comparison

theorem fileName_eq (c : Comparison) (n : UInt32) :
    c.fileName n = "tree_vs_simple_xstreams_" ++ (n.toNat.repr ++ ".png") :=
  String.append_assoc

theorem isName_fileName (c : Comparison) (n : UInt32) :
    Path.IsName (c.fileName n) := by
  rw [fileName_eq]
  exact isName_numbered (c := 't') _ rfl (by decide) (by decide) (by decide)

theorem fileName_inj {c : Comparison} {m n : UInt32}
    (h : c.fileName m = c.fileName n) :
    m = n := by
  rw [fileName_eq, fileName_eq, String.append_right_inj] at h
  have hend : ∀ c ∈ ".png".toList.head?, c.isDigit = false := fun c hc => by
    cases hc
    rfl
  exact UInt32.toNat_inj.1 (repr_append_inj hend hend h).1

end Comparison

/-! ## The images of a set -/

/-- Whether the images of charts are in a directory of the output directory,
each under a name of its own. -/
def ArePlaced (output : Path) (directory : String) (charts : List Chart) :
    Prop :=
  ∃ files : List String, files.Nodup ∧ (∀ file ∈ files, Path.IsName file) ∧
    charts.map (·.path) = files.map ((output.join directory).join ·)

theorem arePlaced_nil (output : Path) (directory : String) :
    ArePlaced output directory [] :=
  ⟨[], List.nodup_nil, fun _ h => absurd h List.not_mem_nil, rfl⟩

theorem caseCharts_arePlaced {table : Table} {output : Path}
    {charts : List Chart} (h : caseCharts table output = .ok charts) :
    ArePlaced output table.name charts := by
  rw [caseCharts] at h
  cases hbaseline : table.baselineTime with
  | error e => rw [hbaseline] at h; cases h
  | ok baseline =>
      rw [hbaseline] at h
      cases hspeedups : table.speedups baseline with
      | error e => simp only [bind, Except.bind, hspeedups] at h; cases h
      | ok speedups =>
          simp only [bind, Except.bind, hspeedups] at h
          cases h
          refine ⟨table.xstreams.flatMap fun n => Metric.all.map (·.fileName n),
            ?_, ?_, ?_⟩
          · rw [List.nodup_flatMap]
            constructor
            · intro n _
              refine List.Nodup.map_on (fun a _ b _ hname => ?_) (by decide)
              exact (Metric.fileName_inj hname).2
            · refine table.nodup_xstreams.imp fun hne => ?_
              intro file hfirst hsecond
              obtain ⟨a, -, rfl⟩ := List.mem_map.1 hfirst
              obtain ⟨b, -, hname⟩ := List.mem_map.1 hsecond
              exact hne (Metric.fileName_inj hname).1.symm
          · intro file hfile
            obtain ⟨n, -, hn⟩ := List.mem_flatMap.1 hfile
            obtain ⟨metric, -, rfl⟩ := List.mem_map.1 hn
            exact metric.isName_fileName n
          · rw [List.map_flatMap, List.map_flatMap]
            simp only [List.map_map]
            rfl

theorem path_of_chart_eq_ok {c : Comparison} {tree simple : Table}
    {output : Path} {n : UInt32} {chart : Chart}
    (h : c.chart tree simple output n = .ok chart) :
    chart.path = (output.join c.directory).join (c.fileName n) := by
  obtain ⟨_, -, rfl⟩ := Comparison.chart_eq_ok_iff.1 h
  rfl

theorem comparisonCharts_arePlaced {tree simple : Table} {c : Comparison}
    {output : Path} {charts : List Chart}
    (h : comparisonCharts tree simple c output = .ok charts) :
    ArePlaced output c.directory charts := by
  refine ⟨tree.xstreams.map c.fileName, ?_, ?_, ?_⟩
  · exact List.Nodup.map_on (fun a _ b _ hname => Comparison.fileName_inj hname)
      tree.nodup_xstreams
  · intro file hfile
    obtain ⟨n, -, rfl⟩ := List.mem_map.1 hfile
    exact c.isName_fileName n
  · rw [comparisonCharts, mapM_eq_ok_iff] at h
    generalize tree.xstreams = streams at h ⊢
    induction h with
    | nil => rfl
    | cons hchart _ ih =>
        rw [List.map_cons, List.map_cons, List.map_cons,
          path_of_chart_eq_ok hchart, ih]

/-! ## The images of a run -/

theorem load_name {tree : FileTree} {directory : Path} {case : String}
    {table : Table} (h : Table.load tree directory case = .ok table) :
    table.name = case := by
  unfold Table.load at h
  dsimp only at h
  split at h
  · split at h
    · cases h
      rfl
    · cases h
  · split at h
    · cases h
      rfl
    · cases h

theorem arePlaced_chartsOf {output : Path} {directory : String} {set : ChartSet}
    (h : ∀ charts, set = .ok charts → ArePlaced output directory charts) :
    ArePlaced output directory (chartsOf set) := by
  cases set with
  | error e => exact arePlaced_nil output directory
  | ok charts => exact h charts rfl

theorem eq_ok_of_caseSet {load : String → Except TableError Table}
    {output : Path} {case : String} {charts : List Chart}
    (h : caseSet load output case = .ok charts) :
    ∃ table, load case = .ok table ∧ caseCharts table output = .ok charts := by
  rw [caseSet] at h
  cases htable : load case with
  | error e => rw [htable] at h; cases h
  | ok table =>
      rw [htable] at h
      cases hcharts : caseCharts table output with
      | error e =>
          simp only [Except.mapError, bind, Except.bind, hcharts] at h; cases h
      | ok found =>
          simp only [Except.mapError, bind, Except.bind, hcharts] at h
          cases h
          exact ⟨table, rfl, hcharts⟩

theorem eq_ok_of_comparisonSet {load : String → Except TableError Table}
    {output : Path} {c : Comparison} {charts : List Chart}
    (h : comparisonSet load output c = .ok charts) :
    ∃ tree simple, comparisonCharts tree simple c output = .ok charts := by
  rw [comparisonSet] at h
  cases htree : load c.tree with
  | error e => rw [htree] at h; cases h
  | ok tree =>
      rw [htree] at h
      cases hsimple : load c.simple with
      | error e =>
          simp only [Except.mapError, bind, Except.bind, hsimple] at h; cases h
      | ok simple =>
          simp only [Except.mapError, bind, Except.bind, hsimple] at h
          refine ⟨tree, simple, ?_⟩
          cases hcharts : comparisonCharts tree simple c output with
          | error e => rw [hcharts] at h; cases h
          | ok found => rw [hcharts] at h; cases h; rfl

/-- The directories of the sets of charts, in the order of the sets. -/
def setDirectories : List String :=
  Case.all ++ Comparison.all.map (·.directory)

theorem chartSets_arePlaced (output : Path)
    {load : String → Except TableError Table}
    (hload : ∀ case table, load case = .ok table → table.name = case) :
    List.Forall₂ (fun directory charts => ArePlaced output directory charts)
      setDirectories ((chartSets load output).map fun s => chartsOf s.2) := by
  have hcase :
      ∀ case, ArePlaced output case (chartsOf (caseSet load output case)) := by
    refine fun case => arePlaced_chartsOf fun charts hcharts => ?_
    obtain ⟨table, htable, hok⟩ := eq_ok_of_caseSet hcharts
    exact hload case table htable ▸ caseCharts_arePlaced hok
  have hcomparison : ∀ c : Comparison,
      ArePlaced output c.directory
        (chartsOf (comparisonSet load output c)) := by
    refine fun c => arePlaced_chartsOf fun charts hcharts => ?_
    obtain ⟨tree, simple, hok⟩ := eq_ok_of_comparisonSet hcharts
    exact comparisonCharts_arePlaced hok
  rw [chartSets, setDirectories, List.map_append, List.map_map, List.map_map]
  refine List.rel_append ?_ ?_
  · rw [List.forall₂_map_right_iff]
    exact List.forall₂_same.2 fun case _ => hcase case
  · rw [List.forall₂_map_left_iff, List.forall₂_map_right_iff]
    exact List.forall₂_same.2 fun c _ => hcomparison c

theorem ArePlaced.components_eq {output : Path} {directory : String}
    {charts : List Chart} (h : ArePlaced output directory charts)
    (hdirectory : Path.IsName directory) :
    ∃ files : List String, files.Nodup ∧
      charts.map (·.path.components) =
        files.map fun file =>
          output.components ++ [.name directory, .name file] := by
  obtain ⟨files, hnodup, hnames, hpaths⟩ := h
  refine ⟨files, hnodup, ?_⟩
  have hcomponents := congrArg (List.map Path.components) hpaths
  rw [List.map_map, List.map_map] at hcomponents
  refine hcomponents.trans (List.map_congr_left fun file hfile => ?_)
  rw [Function.comp_apply, Path.components_join _ (hnames file hfile),
    Path.components_join _ hdirectory, List.append_assoc]
  rfl

theorem nodup_components {output : Path} {directories : List String}
    {groups : List (List Chart)}
    (hplaced : List.Forall₂ (ArePlaced output) directories groups)
    (hnames : ∀ directory ∈ directories, Path.IsName directory)
    (hnodup : directories.Nodup) :
    (groups.flatten.map (·.path.components)).Nodup ∧
      ∀ x ∈ groups.flatten.map (·.path.components), ∃ directory ∈ directories,
        ∃ file : String,
        x = output.components ++ [.name directory, .name file] := by
  induction hplaced with
  | nil => exact ⟨List.nodup_nil, fun x hx => absurd hx List.not_mem_nil⟩
  | @cons directory charts directories groups hfirst _ ih =>
      obtain ⟨hname, hnames⟩ := List.forall_mem_cons.1 hnames
      obtain ⟨hnew, hnodup⟩ := List.nodup_cons.1 hnodup
      obtain ⟨hlater, hplace⟩ := ih hnames hnodup
      obtain ⟨files, hfiles, hcharts⟩ := hfirst.components_eq hname
      rw [List.flatten_cons, List.map_append, hcharts]
      constructor
      · refine List.Nodup.append ?_ hlater ?_
        · refine List.Nodup.map_on (fun a _ b _ heq => ?_) hfiles
          simpa using heq
        · intro x hx hother
          obtain ⟨file, -, rfl⟩ := List.mem_map.1 hx
          obtain ⟨other, hmem, name, heq⟩ := hplace _ hother
          have hcancel := List.append_cancel_left heq
          simp only [List.cons.injEq, Path.Component.name.injEq, and_true]
            at hcancel
          exact hnew (hcancel.1 ▸ hmem)
      · intro x hx
        rcases List.mem_append.1 hx with hx | hx
        · obtain ⟨file, -, rfl⟩ := List.mem_map.1 hx
          exact ⟨directory, List.mem_cons_self, file, rfl⟩
        · obtain ⟨other, hmem, hother⟩ := hplace x hx
          exact ⟨other, List.mem_cons_of_mem _ hmem, hother⟩

/-! ## What a canvas is asked to draw -/

section Watched

variable {σ : Type} (canvas : Canvas (StateM σ))

/-- A canvas beside a list of all charts that it was asked to draw, whether or
not it drew them. -/
def Canvas.watched : Canvas (StateM (List Chart × σ)) where
  draw chart := fun (asked, state) =>
    let (result, after) := (canvas.draw chart).run state
    (result, (asked ++ [chart], after))

variable {canvas} in
theorem Canvas.run_draw_watched {chart : Chart} {before after : σ}
    {result : Except CanvasError Unit}
    (h : (canvas.draw chart).run before = (result, after))
    (asked : List Chart) :
    (canvas.watched.draw chart).run (asked, before) =
      (result, (asked ++ [chart], after)) := by
  show (((canvas.draw chart).run before).1,
    (asked ++ [chart], ((canvas.draw chart).run before).2)) = _
  rw [h]

theorem drawAll_watched (charts asked : List Chart) (state : σ) :
    ∃ result after extra, (canvas.drawAll charts).run state = (result, after) ∧
      (canvas.watched.drawAll charts).run (asked, state) =
        (result, (asked ++ extra, after)) ∧
      extra <+: charts := by
  induction charts generalizing asked state with
  | nil =>
      refine ⟨.ok [], state, [], rfl, ?_, List.prefix_rfl⟩
      rw [List.append_nil]
      rfl
  | cons chart rest ih =>
      obtain ⟨drawn, middle, hdraw⟩ : ∃ drawn middle,
          (canvas.draw chart).run state = (drawn, middle) := ⟨_, _, rfl⟩
      have hwatched := Canvas.run_draw_watched hdraw asked
      cases drawn with
      | error e =>
          exact ⟨.error e, middle, [chart], run_drawAll_of_error hdraw,
            run_drawAll_of_error hwatched, ⟨rest, rfl⟩⟩
      | ok _ =>
          obtain ⟨result, after, extra, hrun, hrest, hextra⟩ :=
            ih (asked ++ [chart]) middle
          rw [List.append_assoc] at hrest
          exact ⟨_, after, chart :: extra, run_drawAll_of_ok hdraw hrun,
            run_drawAll_of_ok hwatched hrest,
            List.cons_prefix_cons.2 ⟨rfl, hextra⟩⟩

theorem drawSet_watched (set : ChartSet) (asked : List Chart) (state : σ) :
    ∃ result after extra, (drawSet canvas set).run state = (result, after) ∧
      (drawSet canvas.watched set).run (asked, state) =
        (result, (asked ++ extra, after)) ∧
      extra <+: chartsOf set := by
  cases set with
  | error e =>
      refine ⟨.error e, state, [], rfl, ?_, List.prefix_rfl⟩
      rw [List.append_nil]
      rfl
  | ok charts =>
      obtain ⟨result, after, extra, hrun, hwatched, hextra⟩ :=
        drawAll_watched canvas charts asked state
      exact ⟨_, after, extra, run_drawSet_of_ok hrun,
        run_drawSet_of_ok hwatched, hextra⟩

theorem drawSets_watched (sets : List (String × ChartSet)) (asked : List Chart)
    (state : σ) :
    ∃ results after extra, (drawSets canvas sets).run state = (results, after) ∧
      (drawSets canvas.watched sets).run (asked, state) =
        (results, (asked ++ extra, after)) ∧
      extra.Sublist (sets.map fun s => chartsOf s.2).flatten := by
  induction sets generalizing asked state with
  | nil =>
      refine ⟨[], state, [], rfl, ?_, List.Sublist.slnil⟩
      rw [List.append_nil]
      rfl
  | cons first rest ih =>
      obtain ⟨name, set⟩ := first
      obtain ⟨result, middle, extra, hset, hwatched, hextra⟩ :=
        drawSet_watched canvas set asked state
      obtain ⟨results, after, later, hsets, hrest, hlater⟩ :=
        ih (asked ++ extra) middle
      rw [List.append_assoc] at hrest
      exact ⟨_, after, extra ++ later, run_drawSets_cons hset hsets,
        run_drawSets_cons hwatched hrest, hextra.sublist.append hlater⟩

end Watched

/-- However a canvas behaves, the charts that a run asks it for have different
paths, even where different texts of a path would mean the same. Watching what
it is asked for changes nothing in the run. -/
theorem renderAll_watched (coloured : Bool) (tree : FileTree)
    (settings : ChartSettings) {σ : Type} (canvas : Canvas (StateM σ))
    (state : σ) :
    ∃ p q asked after,
      (renderAll coloured tree settings canvas).run state = (p, after) ∧
      (renderAll coloured tree settings canvas.watched).run ([], state) =
        (q, (asked, after)) ∧
      q.account = p.account ∧
      (asked.map (·.path.components)).Nodup := by
  obtain ⟨results, after, asked, hrun, hwatched, hsublist⟩ :=
    drawSets_watched canvas
      (chartSets (Table.load tree settings.inputDirectory)
        settings.outputDirectory) [] state
  obtain ⟨p, hp, haccount⟩ := run_renderAllFrom coloured hrun
  obtain ⟨q, hq, hsame⟩ := run_renderAllFrom coloured hwatched
  have hload :
      ∀ case table, Table.load tree settings.inputDirectory case = .ok table →
      table.name = case := fun _ _ => load_name
  have hdistinct :=
    nodup_components (chartSets_arePlaced settings.outputDirectory hload)
      (by decide) (by decide)
  exact ⟨p, q, asked, after, hp, hq, hsame.trans haccount.symm,
    hdistinct.1.sublist (hsublist.map _)⟩

end BenchReport
