import BenchReport.Program.LogReport
import BenchReport.Proofs.CommandLine.Flags
import BenchReport.Proofs.FileTree.Write
import BenchReport.Proofs.LogFile.Survey
import BenchReport.Proofs.Samples.History

/-!
# What a report program leaves behind

All that can fail is settled before a report is written, or in writing it, and a
report goes either to the standard output or to one file. So a program that
fails has written no report and changed no file (`LogPlan.unchanged_of_failed`),
and one that succeeds has done one of the two with the whole report
(`LogPlan.carryOut_of_success`). Whether it succeeds is known from the settings,
the scan and the path for the report (`LogSettings.IsFeasible`), whatever the
report says.

The warnings are a matter of the settings alone. Raising the flag that leaves
them out changes nothing else in the settings, and the command line gives the
same settings with the flag put in front (`Usage.read_cons_letter`), so the
program does the same without its warnings.
-/

namespace BenchReport

/-- Whether a program has left a report where it is wanted, and has changed
nothing else. -/
def Outcome.Delivers (outcome : Outcome) (before : FileTree) (report : String) :
    Option Path → Prop
  | none => outcome.output = report ∧ outcome.tree = before
  | some path => outcome.output = "" ∧
      ∃ place, before.Rewrites outcome.tree path
        (Utf8.encode report.toList) place

/-! ## Carrying out a plan -/

namespace LogPlan

variable {p : LogPlan} {coloured : Bool} {tree : FileTree}

theorem carryOut_of_none (h : p.destination = none) :
    p.carryOut coloured tree =
      { success := true, output := p.report,
        errors := linesText (p.warningLines coloured),
        tree } := by
  rw [carryOut, h]

theorem carryOut_of_write {path : Path} {written : FileTree}
    (h : p.destination = some path)
    (hwrite : tree.write path (Utf8.encode p.report.toList) = .ok written) :
    p.carryOut coloured tree =
      { success := true, output := "",
        errors := linesText (p.warningLines coloured),
        tree := written } := by
  rw [carryOut, h]
  dsimp only
  rw [writeReport, hwrite]

theorem carryOut_of_write_error {path : Path} {e : FileError}
    (h : p.destination = some path)
    (hwrite : tree.write path (Utf8.encode p.report.toList) = .error e) :
    p.carryOut coloured tree =
      .failed tree (p.warningLines coloured)
        (LogFailure.writing path e).message := by
  rw [carryOut, h]
  dsimp only
  rw [writeReport, hwrite]

theorem carryOut_success_iff :
    (p.carryOut coloured tree).success = true ↔
      ∀ path, p.destination = some path → tree.IsWritable path := by
  cases hdestination : p.destination with
  | none =>
      rw [carryOut_of_none hdestination]
      exact iff_of_true rfl nofun
  | some path =>
      cases hwrite : tree.write path (Utf8.encode p.report.toList) with
      | ok written =>
          rw [carryOut_of_write hdestination hwrite]
          refine iff_of_true rfl fun other hother => ?_
          cases hother
          exact FileTree.isWritable_iff.2 ⟨written, hwrite⟩
      | error e =>
          rw [carryOut_of_write_error hdestination hwrite]
          refine iff_of_false Bool.false_ne_true fun hwritable => ?_
          obtain ⟨written, hwritten⟩ :=
            FileTree.isWritable_iff.1 (hwritable path rfl)
          cases hwrite.symm.trans hwritten

/-- What is written if a plan is carried out. -/
theorem carryOut_of_success (h : (p.carryOut coloured tree).success = true) :
    (p.carryOut coloured tree).errors = linesText (p.warningLines coloured) ∧
      (p.carryOut coloured tree).Delivers tree p.report p.destination := by
  cases hdestination : p.destination with
  | none =>
      rw [carryOut_of_none hdestination]
      exact ⟨rfl, rfl, rfl⟩
  | some path =>
      obtain ⟨written, hwrite⟩ :=
        FileTree.isWritable_iff.1 (carryOut_success_iff.1 h path hdestination)
      rw [carryOut_of_write hdestination hwrite]
      exact ⟨rfl, rfl, FileTree.rewrites_of_write hwrite⟩

theorem unchanged_of_failed (h : (p.carryOut coloured tree).success = false) :
    (p.carryOut coloured tree).output = "" ∧
      (p.carryOut coloured tree).tree = tree := by
  cases hdestination : p.destination with
  | none =>
      rw [carryOut_of_none hdestination] at h
      cases h
  | some path =>
      cases hwrite : tree.write path (Utf8.encode p.report.toList) with
      | ok written =>
          rw [carryOut_of_write hdestination hwrite] at h
          cases h
      | error e =>
          rw [carryOut_of_write_error hdestination hwrite]
          exact ⟨rfl, rfl⟩

/-- A plan without its warnings has the same effect on everything else. -/
theorem carryOut_without_warnings
    (h : (p.carryOut coloured tree).success = true) :
    ({ p with warnings := [] } : LogPlan).carryOut coloured tree =
      { p.carryOut coloured tree with errors := "" } := by
  cases hdestination : p.destination with
  | none =>
      rw [carryOut_of_none hdestination]
      exact carryOut_of_none rfl
  | some path =>
      obtain ⟨written, hwrite⟩ :=
        FileTree.isWritable_iff.1 (carryOut_success_iff.1 h path hdestination)
      rw [carryOut_of_write hdestination hwrite]
      exact carryOut_of_write rfl hwrite

end LogPlan

/-! ## Settings -/

namespace LogSettings

variable {s : LogSettings} {coloured : Bool} {tree : FileTree}
  {paths : List Path}

/-- Whether a report can be made as the settings say, with these paths being
those of the logs. -/
structure IsFeasible (s : LogSettings) (tree : FileTree) (paths : List Path) :
    Prop where
  extension : s.hasInvalidExtension = false
  scan : LogFile.scan tree s.inputDirectory s.extension = .ok paths
  destination : ∀ path, s.outputPath = some path → tree.IsWritable path

/-- The plan for the logs at some paths. -/
def planOf (s : LogSettings) (tree : FileTree) (paths : List Path) :
    LogPlan where
  warnings := s.warnings (LogFile.surveyOf tree paths)
  report := (LogFile.surveyOf tree paths).samples.report s.format
  destination := s.outputPath

theorem plan_eq_ok_iff {p : LogPlan} :
    s.plan tree = .ok p ↔ s.hasInvalidExtension = false ∧
      ∃ paths, LogFile.scan tree s.inputDirectory s.extension = .ok paths ∧
        s.planOf tree paths = p := by
  rw [plan]
  cases s.hasInvalidExtension with
  | true =>
      constructor
      · intro h
        cases h
      · rintro ⟨hvalid, -⟩
        cases hvalid
  | false =>
      rw [if_neg Bool.false_ne_true, LogFile.survey]
      cases LogFile.scan tree s.inputDirectory s.extension with
      | error e =>
          constructor
          · intro h
            cases h
          · rintro ⟨-, _, hscan, -⟩
            cases hscan
      | ok paths =>
          constructor
          · exact fun h => ⟨rfl, paths, rfl, Except.ok.inj h⟩
          · rintro ⟨-, _, hscan, h⟩
            cases hscan
            exact congrArg Except.ok h

/-- The flag that leaves the warnings out. -/
def quietFlag : Flag LogSettings where
  name := "quiet"
  letter := 'q'
  set s := { s with quiet := true }

/-- Whether a value is bad whatever the settings are, or changes them and has
nothing to do with the warnings. -/
def SparesQuiet (p : Parameter LogSettings) : Prop :=
  ∀ value, (∃ e, ∀ s, p.set value s = .error e) ∨
    ∃ change : LogSettings → LogSettings, ∀ s, p.set value s = .ok (change s) ∧
      (change s).quiet = s.quiet ∧ change (quietFlag.set s) =
        quietFlag.set (change s)

theorem sparesQuiet_nonempty {change : String → LogSettings → LogSettings}
    (h : ∀ value s, (change value s).quiet = s.quiet ∧
      change value (quietFlag.set s) = quietFlag.set (change value s))
    (name : String) :
    SparesQuiet (.nonempty name change) := by
  intro value
  by_cases hempty : value.isEmpty = true
  · exact .inl ⟨.invalidValue, fun s => if_pos hempty⟩
  · exact .inr ⟨change value, fun s => ⟨if_neg hempty, h value s⟩⟩

theorem sparesQuiet_of_mem {p : Parameter LogSettings}
    (hp : p ∈ usage.parameters) :
    SparesQuiet p := by
  simp only [Usage.parameters, usage, List.cons_append, List.nil_append,
    List.mem_cons, List.not_mem_nil, or_false] at hp
  rcases hp with rfl | rfl | rfl | rfl
  · exact fun value =>
      .inr ⟨fun s => { s with extension := value }, fun s => ⟨rfl, rfl, rfl⟩⟩
  · intro value
    dsimp only
    cases ReportFormat.ofName value with
    | error e => exact .inl ⟨.valueValidation, fun s => rfl⟩
    | ok format =>
        exact .inr ⟨fun s => { s with format }, fun s => ⟨rfl, rfl, rfl⟩⟩
  · refine sparesQuiet_nonempty ?_ _
    exact fun value s => ⟨rfl, rfl⟩
  · refine sparesQuiet_nonempty ?_ _
    exact fun value s => ⟨rfl, rfl⟩

theorem isApart_quietFlag : usage.IsApart quietFlag (·.quiet) where
  isOn_set _ := rfl
  name_flag other hother := .inl (List.mem_singleton.1 hother)
  set_flag other hother settings := by
    rw [List.mem_singleton.1 hother]
    rfl
  isOn_flag other hother settings _ := by rw [List.mem_singleton.1 hother]
  name_parameter := by decide
  set_parameter p hp value settings := by
    rcases sparesQuiet_of_mem hp value with ⟨e, herror⟩ | ⟨change, hchange⟩
    · rw [herror, herror]
      rfl
    · obtain ⟨hset, -, hflag⟩ := hchange settings
      rw [hset, (hchange _).1, hflag]
      rfl
  isOn_parameter p hp value settings changed hon h := by
    rcases sparesQuiet_of_mem hp value with ⟨e, herror⟩ | ⟨change, hchange⟩
    · cases (herror settings).symm.trans h
    · obtain ⟨hset, hquiet, -⟩ := hchange settings
      cases hset.symm.trans h
      exact hquiet.trans hon

theorem read_cons_quiet {arguments : List String} (h : read arguments = .ok s)
    (hquiet : s.quiet = false) :
    read ("-q" :: arguments) = .ok { s with quiet := true } :=
  Usage.read_cons_letter isApart_quietFlag rfl (by decide) h hquiet

theorem isFeasible_iff (coloured : Bool) :
    s.IsFeasible tree paths ↔ s.plan tree = .ok (s.planOf tree paths) ∧
      LogFile.scan tree s.inputDirectory s.extension = .ok paths ∧
      ((s.planOf tree paths).carryOut coloured tree).success = true := by
  rw [plan_eq_ok_iff, LogPlan.carryOut_success_iff]
  constructor
  · exact fun h => ⟨⟨h.extension, paths, h.scan, rfl⟩, h.scan, h.destination⟩
  · rintro ⟨⟨hextension, -⟩, hscan, hdestination⟩
    exact ⟨hextension, hscan, hdestination⟩

/-- Settings that leave the warnings out plan the same report. -/
theorem planOf_quiet (s : LogSettings) (tree : FileTree) (paths : List Path) :
    ({ s with quiet := true } : LogSettings).planOf tree paths =
      { s.planOf tree paths with warnings := [] } :=
  rfl

theorem IsFeasible.quiet (h : s.IsFeasible tree paths) :
    ({ s with quiet := true } : LogSettings).IsFeasible tree paths :=
  ⟨h.extension, h.scan, h.destination⟩

theorem warnings_of_not_quiet (hquiet : s.quiet = false) (tree : FileTree)
    (paths : List Path) :
    s.warnings (LogFile.surveyOf tree paths) =
      (LogFile.surveyOf tree paths).skipped.map (·.message) ++
        if (LogFile.runsOf tree paths).isEmpty then
          ["No verified logs found in " ++ s.inputDirectory.quoted]
            else [] := by
  have hempty : (LogFile.surveyOf tree paths).samples.isEmpty =
      (LogFile.runsOf tree paths).isEmpty := by
    rw [LogFile.samples_surveyOf, Bool.eq_iff_iff, Samples.isEmpty_ofList,
      List.isEmpty_iff]
  rw [warnings, hquiet, if_neg Bool.false_ne_true, hempty]

end LogSettings

/-! ## Runs of the program -/

section Run

variable {coloured : Bool} {tree : FileTree} {arguments : List String}

theorem runLogReport_of_plan {s : LogSettings} {p : LogPlan}
    (hread : LogSettings.read arguments = .ok s) (hplan : s.plan tree = .ok p) :
    runLogReport coloured tree arguments = p.carryOut coloured tree := by
  rw [runLogReport, hread]
  dsimp only
  rw [hplan]

theorem runLogReport_of_isFeasible {s : LogSettings} {paths : List Path}
    (hread : LogSettings.read arguments = .ok s) (h : s.IsFeasible tree paths) :
    runLogReport coloured tree arguments =
      (s.planOf tree paths).carryOut coloured tree :=
  runLogReport_of_plan hread ((LogSettings.isFeasible_iff coloured).1 h).1

/-- A program without a plan has failed before it has done anything. -/
theorem runLogReport_cases (coloured : Bool) (tree : FileTree)
    (arguments : List String) :
    (∃ s paths, LogSettings.read arguments = .ok s ∧
      s.plan tree = .ok (s.planOf tree paths) ∧
      LogFile.scan tree s.inputDirectory s.extension = .ok paths ∧
      runLogReport coloured tree arguments =
        (s.planOf tree paths).carryOut coloured tree) ∨
    ∃ message, runLogReport coloured tree arguments =
      .failed tree [] message := by
  cases hread : LogSettings.read arguments with
  | error e =>
      refine .inr ⟨(LogFailure.usage e).message, ?_⟩
      rw [runLogReport, hread]
  | ok s =>
      cases hplan : s.plan tree with
      | error e =>
          refine .inr ⟨e.message, ?_⟩
          rw [runLogReport, hread]
          dsimp only
          rw [hplan]
      | ok p =>
          obtain ⟨-, paths, hscan, rfl⟩ := LogSettings.plan_eq_ok_iff.1 hplan
          exact .inl ⟨s, paths, rfl, hplan, hscan,
            runLogReport_of_plan hread hplan⟩

theorem runLogReport_success_iff :
    (runLogReport coloured tree arguments).success = true ↔
      ∃ s paths, LogSettings.read arguments = .ok s ∧
        s.IsFeasible tree paths := by
  constructor
  · intro h
    rcases runLogReport_cases coloured tree arguments with
      ⟨s, paths, hread, hplan, hscan, hrun⟩ | ⟨message, hrun⟩
    · rw [hrun] at h
      exact ⟨s, paths, hread,
        (LogSettings.isFeasible_iff coloured).2 ⟨hplan, hscan, h⟩⟩
    · rw [hrun] at h
      cases h
  · rintro ⟨s, paths, hread, hfeasible⟩
    rw [runLogReport_of_isFeasible hread hfeasible]
    exact ((LogSettings.isFeasible_iff coloured).1 hfeasible).2.2

theorem runLogReport_unchanged
    (h : (runLogReport coloured tree arguments).success = false) :
    (runLogReport coloured tree arguments).output = "" ∧
      (runLogReport coloured tree arguments).tree = tree := by
  rcases runLogReport_cases coloured tree arguments with
    ⟨s, paths, -, -, -, hrun⟩ | ⟨message, hrun⟩
  · rw [hrun] at h ⊢
    exact LogPlan.unchanged_of_failed h
  · rw [hrun]
    exact ⟨rfl, rfl⟩

theorem runLogReport_quiet {s : LogSettings} {paths : List Path}
    (hread : LogSettings.read arguments = .ok s) (h : s.IsFeasible tree paths)
    (hquiet : s.quiet = false) :
    runLogReport coloured tree ("-q" :: arguments) =
      { runLogReport coloured tree arguments with errors := "" } := by
  rw [runLogReport_of_isFeasible (LogSettings.read_cons_quiet hread hquiet)
    h.quiet, runLogReport_of_isFeasible hread h, LogSettings.planOf_quiet]
  exact LogPlan.carryOut_without_warnings
    ((LogSettings.isFeasible_iff coloured).1 h).2.2

/-- A program that fails has written no report and changed no file. It succeeds
if the command line is read, the extension is one, the directory can be scanned
and the report can be written where it is wanted; then each scanned file is a
run or is skipped, and the report on the runs is all that is written, to the
standard output or to the file. Unless it is quiet, it warns of each skipped
file in order and then of having no run, and made quiet it does the same without
the warnings. -/
theorem runLogReport_delivers (coloured : Bool) (tree : FileTree)
    (arguments : List String) :
    ((runLogReport coloured tree arguments).success = false →
      (runLogReport coloured tree arguments).output = "" ∧
        (runLogReport coloured tree arguments).tree = tree) ∧
    ((runLogReport coloured tree arguments).success = true ↔
      ∃ s paths, LogSettings.read arguments = .ok s ∧ s.IsFeasible tree paths) ∧
    ∀ s paths, LogSettings.read arguments = .ok s → s.IsFeasible tree paths →
      ∃ runs skipped, paths.Pairwise (fun p q => p.le q = true) ∧
        LogFile.Surveyed tree paths runs skipped ∧
        LogFile.survey tree s.inputDirectory s.extension =
          .ok ⟨.ofList runs, skipped⟩ ∧
        (runLogReport coloured tree arguments).Delivers tree
          ((Samples.ofList runs).report s.format) s.outputPath ∧
        (s.quiet = true → (runLogReport coloured tree arguments).errors = "") ∧
        (s.quiet = false →
          (runLogReport coloured tree arguments).errors =
            linesText ((skipped.map (·.message) ++
              if runs.isEmpty then
                ["No verified logs found in " ++ s.inputDirectory.quoted]
              else []).map (Label.text coloured .warning ++ " " ++ ·)) ∧
          runLogReport coloured tree ("-q" :: arguments) =
            { runLogReport coloured tree arguments with errors := "" }) := by
  refine ⟨runLogReport_unchanged, runLogReport_success_iff,
    fun s paths hread hfeasible => ?_⟩
  obtain ⟨-, hscan, hsuccess⟩ :=
    (LogSettings.isFeasible_iff coloured).1 hfeasible
  obtain ⟨herrors, hdelivers⟩ := LogPlan.carryOut_of_success hsuccess
  rw [← runLogReport_of_isFeasible hread hfeasible] at herrors hdelivers
  have hsamples := LogFile.samples_surveyOf tree paths
  refine ⟨LogFile.runsOf tree paths, (LogFile.surveyOf tree paths).skipped, ?_,
    LogFile.surveyed_surveyOf tree paths, ?_, hsamples ▸ hdelivers,
    fun hquiet => ?_, fun hquiet =>
      ⟨?_, runLogReport_quiet hread hfeasible hquiet⟩⟩
  · obtain ⟨_, _, -, -, rfl⟩ := LogFile.scan_eq_ok_iff.1 hscan
    exact List.pairwise_mergeSort Path.le_trans Path.le_total _
  · rw [← hsamples, LogFile.survey, hscan]
    rfl
  · have hwarnings : (s.planOf tree paths).warnings = [] := if_pos hquiet
    rw [herrors, LogPlan.warningLines, hwarnings]
    rfl
  · rw [← LogSettings.warnings_of_not_quiet hquiet]
    exact herrors

end Run

/-! ## A report among the logs -/

/-- Settings for a report in a new file beside the logs. -/
def LogSettings.besideLogs : LogSettings where
  inputDirectory := ⟨"logs"⟩
  extension := "x"
  outputPath := some ⟨"logs/new.x"⟩

theorem isFeasible_besideLogs :
    LogSettings.besideLogs.IsFeasible LogFile.twoLogs
      [⟨"logs/bad.x"⟩, ⟨"logs/good.x"⟩] where
  extension := by decide
  scan := LogFile.scan_twoLogs
  destination := by
    rintro _ ⟨⟩
    refine ⟨_, rfl, [⟨"new.x", by decide⟩, ⟨"logs", by decide⟩], ?_⟩
    rw [FileTree.filePlace.eq_def]
    decide +kernel

/-- The report is in the new file, and the program is quiet if it should be. -/
theorem runLogReport_delivers_beside_logs :
    (runLogReport false LogFile.twoLogs
        ["logs", "--extension", "x", "--output-path", "logs/new.x"]).success =
        true ∧
      (runLogReport false LogFile.twoLogs
        ["logs", "--extension", "x", "--output-path", "logs/new.x"]).tree.read
          ⟨"logs/new.x"⟩ =
        .ok (Utf8.encode "(None, None, None): 4.0\n".toList) ∧
      (runLogReport false LogFile.twoLogs
        ["-q", "logs", "--extension", "x", "--output-path",
          "logs/new.x"]).errors = "" := by
  obtain ⟨-, hsuccess, hdelivers⟩ := runLogReport_delivers false LogFile.twoLogs
    ["logs", "--extension", "x", "--output-path", "logs/new.x"]
  have hread :
      LogSettings.read
        ["logs", "--extension", "x", "--output-path", "logs/new.x"] =
          .ok .besideLogs := by decide +kernel
  obtain ⟨runs, skipped, -, -, hsurvey, ⟨-, place, hrewrites⟩, -, hloud⟩ :=
    hdelivers _ _ hread isFeasible_besideLogs
  refine ⟨hsuccess.2 ⟨_, _, hread, isFeasible_besideLogs⟩,
    ?_, by rw [(hloud rfl).2]⟩
  rw [LogFile.survey, isFeasible_besideLogs.scan] at hsurvey
  have hsamples : Samples.ofList runs = _ :=
    (congrArg LogFile.Survey.samples (Except.ok.inj hsurvey)).symm
  have hreport :
      (Samples.ofList runs).report .text = "(None, None, None): 4.0\n" := by
    rw [hsamples]
    decide +kernel
  exact hreport ▸ hrewrites.read

end BenchReport
