import ApiSurface.Proofs.Batch.Ending
import ApiSurface.Proofs.Batch.Reports
import ApiSurface.Proofs.CommandLine.Answers
import ApiSurface.Proofs.Settings.Validation

/-!
What the exit code of a scan says about the files.

The settings are read and checked before anything is made, then the folder for the reports is made, and
then the reports are written. So as long as the settings are at fault nothing has happened at all, and
when the folder is, there are at most a few more folders. Behind the last report there is only the answer to
be written, which fails as JSON when it names a path that is no text.
-/

namespace ApiSurface

open FileSystem

/-! ## Loading -/

namespace Settings

variable {fs : FileSystem} {env : Environment} {path : Path}

/-- Nothing keeps the file from being read, or it is not there. -/
def IsReadable (fs : FileSystem) (path : Path) : Prop :=
  ∀ e, fs.readText path = .error e → e = .os .notFound

theorem withEnvironment_eq_error {s : Settings} {f : Failure} (h : withEnvironment env s = .error f) :
    ∃ e, f = .config e := by
  unfold withEnvironment validate at h
  cases hv : (s.overriddenBy env).violation? with
  | none =>
    simp only [hv] at h
    cases h
  | some v =>
    simp only [hv] at h
    exact ⟨_, (Except.error.inj h).symm⟩

theorem ofFile_of_error {e : IoError} (h : fs.readText path = .error e) :
    ofFile fs path = .error (readFailure path e) := by
  unfold ofFile
  rw [h]
  rfl

theorem ofFile_eq_error {text : String} {f : Failure} (hread : fs.readText path = .ok text)
    (h : ofFile fs path = .error f) : ∃ e, f = .config e := by
  unfold ofFile parse validate at h
  rw [hread] at h
  cases hparse : Settings.parse? text with
  | none =>
    simp only [Except.mapError, bind, Except.bind, hparse] at h
    exact ⟨_, (Except.error.inj h).symm⟩
  | some s =>
    cases hv : s.violation? with
    | none =>
      simp only [Except.mapError, bind, Except.bind, hparse, hv] at h
      cases h
    | some v =>
      simp only [Except.mapError, bind, Except.bind, hparse, hv] at h
      exact ⟨_, (Except.error.inj h).symm⟩

/-- A file that is there but cannot be read is a failure to read. -/
theorem loadOrDefault_of_error {e : IoError} (h : fs.readText path = .error e) (hne : e ≠ .os .notFound) :
    loadOrDefault fs env path = .error (.io e) := by
  have hfailure : readFailure path e = .io e := by
    unfold readFailure
    split
    · exact absurd rfl hne
    · rfl
  rw [loadOrDefault, load, ofFile_of_error h, hfailure]
  rfl

/-- Else it is the settings that are at fault. -/
theorem loadOrDefault_eq_error {f : Failure} (hreadable : IsReadable fs path)
    (h : loadOrDefault fs env path = .error f) : ∃ e, f = .config e := by
  unfold loadOrDefault at h
  split at h
  · exact withEnvironment_eq_error h
  · unfold load at h
    cases hfile : ofFile fs path with
    | ok s =>
      rw [hfile] at h
      exact withEnvironment_eq_error h
    | error g =>
      rw [hfile] at h
      obtain rfl := Except.error.inj h
      cases hread : fs.readText path with
      | ok text => exact ofFile_eq_error hread hfile
      | error e =>
        obtain rfl := hreadable e hread
        rw [ofFile_of_error hread] at hfile
        exact ⟨_, (Except.error.inj hfile).symm⟩

end Settings

/-! ## Settings for a scan -/

namespace ScanArguments

/-- What comes of asking for the settings of a scan. -/
inductive Asked (args : ScanArguments) (fs : FileSystem) (env : Environment) (config : Path) :
    Except CommandError ScannerSettings → Prop
  | unreadable {e : IoError} (hread : fs.readText config = .error e) (hne : e ≠ .os .notFound) :
      Asked args fs env config (.error (.failure (.io e)))
  | unloadable {e : ConfigError} (hreadable : Settings.IsReadable fs config)
      (hload : Settings.loadOrDefault fs env config = .error (.config e)) :
      Asked args fs env config (.error (.failure (.config e)))
  | invalid {loaded : Settings} {text : String} (hreadable : Settings.IsReadable fs config)
      (hload : Settings.loadOrDefault fs env config = .ok loaded)
      (hinvalid : ¬ (args.onto loaded.scan).IsValid) : Asked args fs env config (.error (.config text))
  | idle {loaded : Settings} {text : String} (hreadable : Settings.IsReadable fs config)
      (hload : Settings.loadOrDefault fs env config = .ok loaded)
      (hvalid : (args.onto loaded.scan).IsValid) (hnone : (args.onto loaded.scan).artifacts = []) :
      Asked args fs env config (.error (.command text))
  | settings {loaded : Settings} (hreadable : Settings.IsReadable fs config)
      (hload : Settings.loadOrDefault fs env config = .ok loaded)
      (hvalid : (args.onto loaded.scan).IsValid) (hsome : (args.onto loaded.scan).artifacts ≠ []) :
      Asked args fs env config (.ok (args.onto loaded.scan))

variable {args : ScanArguments} {fs : FileSystem} {env : Environment} {config : Path}

/-- No artifact is named when neither the arguments nor the settings name one. -/
theorem onto_artifacts_eq_nil_iff {s : ScanSettings} :
    (args.onto s).artifacts = [] ↔ args.artifacts = [] ∧ s.artifacts = [] := by
  unfold onto
  cases hargs : args.artifacts <;> simp [ScannerSettings.ofScan]

theorem asked_settings (args : ScanArguments) (fs : FileSystem) (env : Environment) (config : Path) :
    Asked args fs env config (args.settings fs env config) := by
  by_cases hreadable : Settings.IsReadable fs config
  swap
  · unfold Settings.IsReadable at hreadable
    push Not at hreadable
    obtain ⟨e, hread, hne⟩ := hreadable
    rw [settings, Settings.loadOrDefault_of_error hread hne]
    exact .unreadable hread hne
  unfold settings
  cases hload : Settings.loadOrDefault fs env config with
  | error f =>
    obtain ⟨e, rfl⟩ := Settings.loadOrDefault_eq_error hreadable hload
    exact .unloadable hreadable hload
  | ok loaded =>
    cases hcheck : (args.onto loaded.scan).validate with
    | error e =>
      obtain ⟨field, reason, rfl⟩ := ScannerSettings.validate_eq_error hcheck
      simp only [Except.mapError, bind, Except.bind, hcheck]
      refine .invalid hreadable hload fun hvalid => ?_
      rw [ScannerSettings.validate_eq_ok_iff.2 hvalid] at hcheck
      cases hcheck
    | ok _ =>
      have hvalid := ScannerSettings.validate_eq_ok_iff.1 hcheck
      by_cases hnone : (args.onto loaded.scan).artifacts = []
      · simp only [Except.mapError, bind, Except.bind, hcheck, hnone]
        exact .idle hreadable hload hvalid hnone
      · have hempty : (args.onto loaded.scan).artifacts.isEmpty = false := by
          rwa [List.isEmpty_eq_false_iff]
        simp only [Except.mapError, bind, Except.bind, hcheck, hempty]
        exact .settings hreadable hload hvalid hnone

/-! ## Ends of scans -/

/-- What a scan into the folder comes to when its batch has come to this. -/
def resultOf (args : ScanArguments) (outputDir : String) :
    Except ScanError BatchSummary → CommandResult
  | .error e => .failed (.ofScanError e)
  | .ok summary => ⟨some (.scanned outputDir summary), args.complaint? summary⟩

/-- How a scan can end, whatever the schedule of its batch. -/
inductive EndsIn (args : ScanArguments) (host : Host) (config : Path) (fs : FileSystem) :
    FileSystem → CommandResult → Prop
  | failed {e : CommandError} (hsettings : args.settings fs host.environment config = .error e) :
      EndsIn args host config fs fs (.failed e)
  | ended {s : ScannerSettings} {files : FileSystem} {result : Except ScanError BatchSummary}
      (hsettings : args.settings fs host.environment config = .ok s)
      (hbatch : Batch.EndsIn ⟨s, host.device, host.token⟩ s.requests ⟨s.outputDir⟩ fs files result) :
      EndsIn args host config fs files (args.resultOf s.outputDir result)

section EndsIn

variable {host : Host} {files : FileSystem} {result : CommandResult}

/-- A scan that does one thing after the other ends in one of these ways. -/
theorem endsIn_run (args : ScanArguments) (host : Host) (config : Path) (s : Batch.State) :
    args.EndsIn host config s.files (args.run host config s).1.files (args.run host config s).2 := by
  unfold run
  have hasked := asked_settings args s.files host.environment config
  cases hsettings : args.settings s.files host.environment config with
  | error e => exact .failed hsettings
  | ok settings =>
    rw [hsettings] at hasked
    have hmax : 1 ≤ settings.maxParallelScans := by
      cases hasked with
      | settings _ _ hvalid _ => exact hvalid.maxParallelScans.1
    have hends := @Batch.endsIn_scanBatch ⟨settings, host.device, host.token⟩ ⟨settings.outputDir⟩
      settings.requests hmax s
    simp only [scanConfigured]
    generalize scanBatch ⟨settings, host.device, host.token⟩ settings.requests ⟨settings.outputDir⟩ s =
      batch at hends
    obtain ⟨s', ended⟩ := batch
    cases ended with
    | error e => exact .ended hsettings hends
    | ok summary => exact .ended hsettings hends

theorem EndsIn.eq_failed {e : CommandError} (h : args.EndsIn host config fs files result)
    (hsettings : args.settings fs host.environment config = .error e) :
    files = fs ∧ result = .failed e := by
  cases h with
  | failed hsettings' =>
    obtain rfl := Except.error.inj (hsettings.symm.trans hsettings')
    exact ⟨rfl, rfl⟩
  | ended hsettings' _ => cases hsettings.symm.trans hsettings'

theorem EndsIn.exists_batch {s : ScannerSettings} (h : args.EndsIn host config fs files result)
    (hsettings : args.settings fs host.environment config = .ok s) :
    ∃ ended, Batch.EndsIn ⟨s, host.device, host.token⟩ s.requests ⟨s.outputDir⟩ fs files ended ∧
      result = args.resultOf s.outputDir ended := by
  cases h with
  | failed hsettings' => cases hsettings.symm.trans hsettings'
  | ended hsettings' hbatch =>
    obtain rfl := Except.ok.inj (hsettings.symm.trans hsettings')
    exact ⟨_, hbatch, rfl⟩

end EndsIn

end ScanArguments

/-! ## Summaries -/

theorem BatchSummary.isComplete_iff {outcomes : List Outcome} :
    (BatchSummary.mk outcomes).isComplete = true ↔ ∀ outcome ∈ outcomes, outcome.isWritten = true := by
  unfold isComplete skipped written
  rw [decide_eq_true_eq, Nat.sub_eq_zero_iff_le]
  constructor
  · intro hle
    exact List.countP_eq_length.1 (Nat.le_antisymm List.countP_le_length hle)
  · intro hall
    exact Nat.le_of_eq (List.countP_eq_length.2 hall).symm

/-- The exit code of a scan whose batch is done. Whether the answer can be written counts for more than
whether artifacts were skipped. -/
def ScanArguments.exitCodeOf (args : ScanArguments) (format : OutputFormat) (outcomes : List Outcome) : Nat :=
  if format = .json ∧ HasOddPath outcomes then 1
  else if args.failOnSkip = true ∧ ∃ outcome ∈ outcomes, outcome.isWritten = false then 4
  else 0

theorem ScanArguments.exitCodeOf_of_plain {args : ScanArguments} {format : OutputFormat}
    {outcomes : List Outcome} (hodd : ¬ HasOddPath outcomes)
    (hwritten : ¬ ∃ outcome ∈ outcomes, outcome.isWritten = false) : args.exitCodeOf format outcomes = 0 := by
  rw [exitCodeOf, if_neg fun h => hodd h.2, if_neg fun h => hwritten h.2]

/-! ## Endings -/

open Batch Replacement

/-- A schedule of the batch that the settings name has come to its end. The reports are where they belong.
Along its path a report can be read unless another one has come to stand on the way. -/
structure Batch.Course.IsDone (w : Workshop) (start : FileSystem) (c : Batch.Course) : Prop where
  reaches : Reaches w ⟨w.settings.outputDir⟩ (.start start w.settings.requests) c
  finished : c.IsFinished
  writes : WritesReports w ⟨w.settings.outputDir⟩ w.settings.requests start
    (Passes w ⟨w.settings.outputDir⟩ (.start start w.settings.requests) c) (IsDraftPlace w start)
    c.outcomes c.files
  /-- When every deletion of a temporary file succeeds, none is left. -/
  clean : ReachesCleanly w ⟨w.settings.outputDir⟩ start (.start start w.settings.requests) c →
    WritesReports w ⟨w.settings.outputDir⟩ w.settings.requests start
      (Passes w ⟨w.settings.outputDir⟩ (.start start w.settings.requests) c) (fun _ => False)
      c.outcomes c.files
  read : ∀ report ∈ reports c.outcomes, ∀ content, Holds start c.files report content →
    (∀ place ∈ start.way false report, ¬ IsReportPlace start c.outcomes place) →
    c.files.readFile report = .ok content

/-- How a scan has ended: the files that it leaves, what it has to say, and its exit code. -/
inductive ScanEnding (host : Host) (args : ScanArguments) (config : Path) (format : OutputFormat)
    (fs : FileSystem) : FileSystem → Option Answer → Nat → Prop
  /-- The settings file cannot be read, and not because it is missing. -/
  | unreadable {e : IoError} (hread : fs.readText config = .error e) (hne : e ≠ .os .notFound) :
      ScanEnding host args config format fs fs none 10
  /-- There are no settings, or none that the scanner takes. -/
  | misconfigured (hreadable : Settings.IsReadable fs config)
      (hinvalid : ∀ loaded, Settings.loadOrDefault fs host.environment config = .ok loaded →
        ¬ (args.onto loaded.scan).IsValid) :
      ScanEnding host args config format fs fs none 2
  /-- Nothing is to be scanned. -/
  | idle {loaded : Settings} (hreadable : Settings.IsReadable fs config)
      (hload : Settings.loadOrDefault fs host.environment config = .ok loaded)
      (hvalid : (args.onto loaded.scan).IsValid)
      (hnone : args.artifacts = [] ∧ loaded.scan.artifacts = []) :
      ScanEnding host args config format fs fs none 1
  /-- There is no folder for the reports. Some folders above it may have been made. -/
  | aborted {loaded : Settings} {files : FileSystem} {e : IoError}
      (hreadable : Settings.IsReadable fs config)
      (hload : Settings.loadOrDefault fs host.environment config = .ok loaded)
      (hvalid : (args.onto loaded.scan).IsValid)
      (hsome : ¬ (args.artifacts = [] ∧ loaded.scan.artifacts = []))
      (hfolder : fs.createFolders ⟨(args.onto loaded.scan).outputDir⟩ = (files, some e))
      (hmade : FoldersMade ⟨(args.onto loaded.scan).outputDir⟩ fs files) :
      ScanEnding host args config format fs files none 3
  /-- The batch is done, by whatever schedule. -/
  | done {loaded : Settings} {start : FileSystem} {c : Batch.Course}
      (hreadable : Settings.IsReadable fs config)
      (hload : Settings.loadOrDefault fs host.environment config = .ok loaded)
      (hvalid : (args.onto loaded.scan).IsValid)
      (hsome : ¬ (args.artifacts = [] ∧ loaded.scan.artifacts = []))
      (hfolder : fs.createFolders ⟨(args.onto loaded.scan).outputDir⟩ = (start, none))
      (hmade : FoldersMade ⟨(args.onto loaded.scan).outputDir⟩ fs start)
      (hdone : c.IsDone ⟨args.onto loaded.scan, host.device, host.token⟩ start) :
      ScanEnding host args config format fs c.files
        (some (.scanned (args.onto loaded.scan).outputDir ⟨c.outcomes⟩))
        (args.exitCodeOf format c.outcomes)

section Ending

variable {host : Host} {args : ScanArguments} {config : Path} {format : OutputFormat} {fs : FileSystem}

theorem exitCode_complaint? (answer : Option Answer) (outcomes : List Outcome) :
    CommandResult.exitCode ⟨answer, args.complaint? ⟨outcomes⟩⟩ =
      if args.failOnSkip = true ∧ ∃ outcome ∈ outcomes, outcome.isWritten = false then 4 else 0 := by
  have hskipped : (BatchSummary.mk outcomes).isComplete = false ↔
      ∃ outcome ∈ outcomes, outcome.isWritten = false := by
    rw [← Bool.not_eq_true, BatchSummary.isComplete_iff]
    simp
  have hiff : (args.failOnSkip && !(BatchSummary.mk outcomes).isComplete) = true ↔
      args.failOnSkip = true ∧ ∃ outcome ∈ outcomes, outcome.isWritten = false := by
    rw [Bool.and_eq_true, Bool.not_eq_true', hskipped]
  unfold CommandResult.exitCode ScanArguments.complaint?
  by_cases hfails : args.failOnSkip = true ∧ ∃ outcome ∈ outcomes, outcome.isWritten = false
  · rw [if_pos (hiff.2 hfails), if_pos hfails]
    rfl
  · rw [if_neg fun h => hfails (hiff.1 h), if_neg hfails]
    rfl

/-- The exit code of a batch that is done is the one for its outcomes. -/
theorem exitCode_resultOf (outputDir : String) (outcomes : List Outcome) :
    ((args.resultOf outputDir (.ok ⟨outcomes⟩)).ending format).exitCode =
      some (args.exitCodeOf format outcomes) := by
  unfold ScanArguments.exitCodeOf
  by_cases hodd : format = .json ∧ HasOddPath outcomes
  · rw [if_pos hodd]
    exact CommandResult.exitCode_ending_of_not_isWhole rfl fun hwhole =>
      Answer.isWhole_write_scanned.1 hwhole hodd
  · rw [if_neg hodd, CommandResult.exitCode_ending_of_isWhole, ScanArguments.resultOf, exitCode_complaint?]
    rintro answer hanswer
    obtain rfl := Option.some.inj hanswer
    exact Answer.isWhole_write_scanned.2 hodd

/-- A schedule that has come to its end has done what the settings say. -/
theorem isDone_of_reaches {w : Workshop} {start : FileSystem} {c : Batch.Course}
    (hdevice : WriteDevice.IsFaithful w.device) (hsound : start.isSound)
    (hfresh : ∀ i, IsFresh start (w.token i)) (htoken : ∀ i, IsToken (w.token i))
    (hdistinct : ∀ i j, i < j → j < w.settings.requests.length → w.token i ≠ w.token j)
    (hreaches : Batch.Course.Reaches w ⟨w.settings.outputDir⟩ (.start start w.settings.requests) c)
    (hfinished : c.IsFinished) : c.IsDone w start where
  reaches := hreaches
  finished := hfinished
  writes := writesReports_of_reaches hdevice hsound hfresh htoken hdistinct hreaches hfinished
    fun _ hplace hno => absurd hplace hno
  clean hclean := writesReports_of_reachesCleanly hdevice hsound hfresh htoken hdistinct hclean hfinished
  read report hreport content hholds hway := by
    have htidy := (Batch.Course.isTidy_start hsound).reaches hdevice hsound hfresh hreaches
    obtain ⟨hot, hfilled, hhot⟩ := htidy.filled
    have hplaced : c.placed = reports c.outcomes := Batch.Course.placed_eq_reports hfinished
    have ⟨goal, _, hgoal, hno, _⟩ := hholds
    have ⟨_, hlocate, _⟩ := hgoal
    have hchanged : ChangedAt (fun place => hot place ∨ place = goal) start c.files := by
      refine hfilled.toChangedAt.mono (fun _ => .inl) fun place hplace => ?_
      obtain hhere | rfl := hplace
      · exact hfilled.start_not_isFolder place hhere
      · exact hno
    refine hholds.readFile_of_isClear hchanged ⟨fun place hplace hhere => ?_, fun place hplace _ => ?_⟩
    · obtain hhere | rfl := hhere
      · obtain hdraft | htaken := hhot place hhere
        · -- Something stands everywhere on the way.
          obtain ⟨-, hthere | hmissing⟩ := get?_of_mem_way (isSound_iff.1 hsound).2 hplace
          · exact hthere (hdraft.get?_eq_none hfresh)
          · cases hlocate.symm.trans hmissing
        · rw [hplaced] at htaken
          exact hway place hplace htaken
      · exact hway place hplace ⟨report, hreport, hgoal⟩
    · exact .inr (hplace.unique hgoal)

/-- With settings to work with, the folder decides, and then the batch. -/
theorem scanEnding_of_batch {loaded : Settings} {files : FileSystem} {ended : Except ScanError BatchSummary}
    (hsound : fs.isSound) (hdevice : WriteDevice.IsFaithful host.device)
    (htoken : ∀ i, IsToken (host.token i))
    (hdistinct : ∀ i j, i < j → j < (args.onto loaded.scan).requests.length → host.token i ≠ host.token j)
    (hreadable : Settings.IsReadable fs config)
    (hload : Settings.loadOrDefault fs host.environment config = .ok loaded)
    (hvalid : (args.onto loaded.scan).IsValid) (hsome : (args.onto loaded.scan).artifacts ≠ [])
    (hfresh : ∀ i, IsFresh (fs.createFolders ⟨(args.onto loaded.scan).outputDir⟩).1 (host.token i))
    (hbatch : Batch.EndsIn ⟨args.onto loaded.scan, host.device, host.token⟩ (args.onto loaded.scan).requests
      ⟨(args.onto loaded.scan).outputDir⟩ fs files ended) :
    ∃ code, ((args.resultOf (args.onto loaded.scan).outputDir ended).ending format).exitCode = some code ∧
      ScanEnding host args config format fs files (args.resultOf (args.onto loaded.scan).outputDir ended).answer
        code := by
  have hsome' : ¬ (args.artifacts = [] ∧ loaded.scan.artifacts = []) := by
    rwa [← ScanArguments.onto_artifacts_eq_nil_iff]
  cases hbatch with
  | refused hfolder =>
    exact ⟨3, rfl, .aborted hreadable hload hvalid hsome' hfolder (.of_createFolders hsound hfolder)⟩
  | finished hfolder hreaches hfinished =>
    have hmade := FoldersMade.of_createFolders hsound hfolder
    rw [hfolder] at hfresh
    exact ⟨_, exitCode_resultOf _ _, .done hreadable hload hvalid hsome' hfolder hmade
      (isDone_of_reaches hdevice hmade.sound hfresh htoken hdistinct hreaches hfinished)⟩

theorem scanEnding_of_endsIn {files : FileSystem} {result : CommandResult} (hsound : fs.isSound)
    (hdevice : WriteDevice.IsFaithful host.device) (htoken : ∀ i, IsToken (host.token i))
    (hdistinct : ∀ s, args.settings fs host.environment config = .ok s →
      ∀ i j, i < j → j < s.requests.length → host.token i ≠ host.token j)
    (hfresh : ∀ s, args.settings fs host.environment config = .ok s →
      ∀ i, IsFresh (fs.createFolders ⟨s.outputDir⟩).1 (host.token i))
    (hends : args.EndsIn host config fs files result) :
    ∃ code, (result.ending format).exitCode = some code ∧
      ScanEnding host args config format fs files result.answer code := by
  have hasked := ScanArguments.asked_settings args fs host.environment config
  cases hends with
  | @failed e hsettings =>
    rw [hsettings] at hasked
    cases hasked with
    | unreadable hread hne => exact ⟨10, rfl, .unreadable hread hne⟩
    | unloadable hreadable hload =>
      refine ⟨2, rfl, .misconfigured hreadable fun loaded hloaded => ?_⟩
      rw [hload] at hloaded
      cases hloaded
    | invalid hreadable hload hinvalid =>
      refine ⟨2, rfl, .misconfigured hreadable fun loaded hloaded => ?_⟩
      rw [hload] at hloaded
      rwa [← Except.ok.inj hloaded]
    | idle hreadable hload hvalid hnone =>
      exact ⟨1, rfl, .idle hreadable hload hvalid (ScanArguments.onto_artifacts_eq_nil_iff.1 hnone)⟩
  | @ended s _ _ hsettings hbatch =>
    have hfresh := hfresh s hsettings
    have hdistinct := hdistinct s hsettings
    rw [hsettings] at hasked
    cases hasked with
    | settings hreadable hload hvalid hsome =>
      exact scanEnding_of_batch hsound hdevice htoken hdistinct hreadable hload hvalid hsome hfresh hbatch

/-- A command line for a scan makes the program scan. -/
theorem runProgram_eq {given : List OsString} {parsed : Arguments} (hgiven : Arguments.parse given = .ok parsed)
    (hcommand : parsed.command = .scan args) (hlogging : parsed.checkLogging host fs = .ok ()) :
    runProgram host given fs =
      .ok ((args.run host ⟨parsed.config⟩ ⟨fs, .zero⟩).1.files,
        (args.run host ⟨parsed.config⟩ ⟨fs, .zero⟩).2.ending parsed.output) := by
  unfold runProgram
  rw [hgiven]
  show Except.ok (parsed.run host fs) = _
  unfold Arguments.run
  rw [hlogging, hcommand]
  rfl

/-- **The exit code of a scan says what has become of the files, whatever the schedule.** -/
theorem runProgram_scan {host : Host} {given : List OsString} {fs : FileSystem} {parsed : Arguments}
    {args : ScanArguments} (hgiven : Arguments.parse given = .ok parsed)
    (hcommand : parsed.command = .scan args) (hlogging : parsed.checkLogging host fs = .ok ())
    (hsound : fs.isSound) (hdevice : WriteDevice.IsFaithful host.device)
    (htoken : ∀ i, IsToken (host.token i))
    (hdistinct : ∀ s, args.settings fs host.environment ⟨parsed.config⟩ = .ok s →
      ∀ i j, i < j → j < s.requests.length → host.token i ≠ host.token j)
    (hfresh : ∀ s, args.settings fs host.environment ⟨parsed.config⟩ = .ok s →
      ∀ i, IsFresh (fs.createFolders ⟨s.outputDir⟩).1 (host.token i)) :
    (∃ files result, runProgram host given fs = .ok (files, result.ending parsed.output) ∧
      args.EndsIn host ⟨parsed.config⟩ fs files result) ∧
    ∀ files result, args.EndsIn host ⟨parsed.config⟩ fs files result →
      ∃ code, (result.ending parsed.output).exitCode = some code ∧
        ScanEnding host args ⟨parsed.config⟩ parsed.output fs files result.answer code := by
  refine ⟨⟨_, _, runProgram_eq hgiven hcommand hlogging,
    ScanArguments.endsIn_run args host ⟨parsed.config⟩ ⟨fs, .zero⟩⟩, fun files result hends => ?_⟩
  exact scanEnding_of_endsIn hsound hdevice htoken hdistinct hfresh hends

/-! ### A scan of three artifacts -/

/-- A machine with a small disk, on which no variable is set. -/
def crampedHost : Host where
  environment _ := none
  device := smallDisk 11
  token := crampedWorkshop.token
  logFilter := none

def crampedGiven : List OsString :=
  ["scan", "core", "wide", "gone.jar", "--output-dir", "out", "--fail-on-skip"]

def crampedArguments : ScanArguments where
  artifacts := ["core", "wide", "gone.jar"]
  classpath := []
  outputDir := some "out"
  strict := false
  excludeSynthetic := false
  jobs := none
  failOnSkip := true

/-- Two of three artifacts are skipped, and that is what the exit code says. The third has its report. -/
theorem runProgram_cramped :
    ∃ (files : FileSystem) (result : CommandResult),
      runProgram crampedHost crampedGiven crampedFiles = .ok (files, result.ending .text) ∧
      (result.ending .text).exitCode = some 4 ∧
      ScanEnding crampedHost crampedArguments ⟨"apiscan.toml"⟩ .text crampedFiles files result.answer 4 := by
  have hgiven : Arguments.parse crampedGiven =
      .ok ⟨"apiscan.toml", none, .text, .scan crampedArguments⟩ := by
    decide +kernel
  have hsettings : ∀ s, crampedArguments.settings crampedFiles (fun _ => none) ⟨"apiscan.toml"⟩ = .ok s →
      s = crampedArguments.onto Settings.defaultScan := by
    intro s hs
    have hdefault : crampedArguments.settings crampedFiles (fun _ => none) ⟨"apiscan.toml"⟩ =
        .ok (crampedArguments.onto Settings.defaultScan) := by
      decide +kernel
    exact (Except.ok.inj (hdefault.symm.trans hs)).symm
  obtain ⟨⟨files, result, hrun, hends⟩, hall⟩ :=
    @runProgram_scan crampedHost crampedGiven crampedFiles
      ⟨"apiscan.toml", none, .text, .scan crampedArguments⟩ crampedArguments hgiven rfl (by decide +kernel)
      (by decide +kernel) (isFaithful_smallDisk 11) isToken_cramped
      (fun s hs i j hlt hj => by
        obtain rfl := hsettings s hs
        exact token_cramped_ne hlt (hj.trans (by decide)))
      fun s hs i => by
        obtain rfl := hsettings s hs
        exact isFresh_cramped i
  obtain ⟨code, hcode, hending⟩ := hall files result hends
  have hfour : ((runProgram crampedHost crampedGiven crampedFiles).toOption.bind (·.2.exitCode)) =
      some 4 := by
    decide +kernel
  rw [hrun] at hfour
  obtain rfl : code = 4 := Option.some.inj (hcode.symm.trans hfour)
  exact ⟨files, result, hrun, hcode, hending⟩

/-! ### What the exit code does not say -/

/-- The folder for the reports is `d`, by way of a link in it that has the name of a report. -/
def loopFiles : FileSystem where
  root := .folder [("loop", .folder []), ("d", .folder [("loop.txt", .link ".")])]
  current := []
  contents := #[]

def loopHost : Host where
  environment _ := none
  device := perform
  token _ := "0a1b2c3d-0000-4000-8000-000000000000"
  logFilter := none

def loopGiven : List OsString :=
  ["scan", "loop", "--output-dir", "d/loop.txt"]

/-- The name of the folder in which the program runs is a byte that begins no character. -/
def oddFiles : FileSystem where
  root := .folder [(.ofList [0xE9], .folder [])]
  current := [.ofList [0xE9]]
  contents := #[]

def oddGiven : OutputFormat → List OsString
  | .text => ["scan", ".", "--output-dir", "out"]
  | .json => ["scan", ".", "--output-dir", "out", "--output", "json"]

theorem isToken_loop (i : Nat) : IsToken (loopHost.token i) := by
  show IsToken "0a1b2c3d-0000-4000-8000-000000000000"
  unfold IsToken
  decide +kernel

def oddParsed : Arguments :=
  ⟨"apiscan.toml", none, .json, .scan ⟨["."], [], some "out", false, false, none, false⟩⟩

theorem parse_odd : Arguments.parse (oddGiven .json) = .ok oddParsed := by
  decide +kernel

/-- The report is written, and then the answer cannot be. -/
theorem runProgram_odd : ∃ files ending, runProgram loopHost (oddGiven .json) oddFiles = .ok (files, ending) ∧
    ending.exitCode = some 1 ∧ files.contents.size = 1 := by
  obtain ⟨files, ending, hrun⟩ : ∃ files ending, runProgram loopHost (oddGiven .json) oddFiles =
      .ok (files, ending) := ⟨_, _, by rw [runProgram, parse_odd]; rfl⟩
  have hcode : ((runProgram loopHost (oddGiven .json) oddFiles).toOption.bind (·.2.exitCode)) = some 1 := by
    decide +kernel
  have hwritten : ((runProgram loopHost (oddGiven .json) oddFiles).toOption.map (·.1.contents.size)) =
      some 1 := by
    decide +kernel
  rw [hrun] at hcode hwritten
  exact ⟨files, ending, hrun, hcode, Option.some.inj hwritten⟩

/-- It is not said that every report that was written can be read along its path: in the first scan it takes
the place of the link on its way. Nor is it said that nothing has happened when the exit code is 1: in the
second one the report on the folder is written, and then the answer cannot be, which names it. -/
theorem not_told_by_exitCode :
    (¬ ∀ (host : Host) (given : List OsString) (fs files : FileSystem) (ending : Ending)
        (parsed : Arguments) (args : ScanArguments) (dir : String) (summary : BatchSummary),
      fs.isSound → Arguments.parse given = .ok parsed → parsed.command = .scan args →
      parsed.checkLogging host fs = .ok () → host.device = perform → (∀ i, IsToken (host.token i)) →
      (∀ i, IsFresh (fs.createFolders ⟨dir⟩).1 (host.token i)) →
      runProgram host given fs = .ok (files, ending) → ending.exitCode = some 0 →
      (args.run host ⟨parsed.config⟩ ⟨fs, .zero⟩).2.answer = some (.scanned dir summary) →
      ∀ report ∈ reports summary.outcomes, files.isFile report = true) ∧
    ¬ ∀ (host : Host) (given : List OsString) (fs files : FileSystem) (ending : Ending) (parsed : Arguments)
        (args : ScanArguments), fs.isSound → Arguments.parse given = .ok parsed → parsed.command = .scan args →
      parsed.checkLogging host fs = .ok () → host.device = perform → (∀ i, IsToken (host.token i)) →
      runProgram host given fs = .ok (files, ending) → ending.exitCode = some 1 → files = fs := by
  refine ⟨fun hall => ?_, fun hall => ?_⟩
  · have hgiven : Arguments.parse loopGiven = .ok ⟨"apiscan.toml", none, .text,
        .scan ⟨["loop"], [], some "d/loop.txt", false, false, none, false⟩⟩ := by
      decide +kernel
    have hfresh : IsFresh (loopFiles.createFolders ⟨"d/loop.txt"⟩).1 "0a1b2c3d-0000-4000-8000-000000000000" :=
      ⟨(isToken_loop 0).noSlash, by decide +kernel⟩
    have hanswer : (ScanArguments.run ⟨["loop"], [], some "d/loop.txt", false, false, none, false⟩ loopHost
        ⟨"apiscan.toml"⟩ ⟨loopFiles, .zero⟩).2.answer =
        some (.scanned "d/loop.txt" ⟨[.written ⟨"loop"⟩ ⟨"d/loop.txt/loop.txt"⟩ 0 0]⟩) := by
      decide +kernel
    have hreport := hall loopHost loopGiven loopFiles _ _ _ _ _ _ (by decide +kernel) hgiven rfl
      (by decide +kernel) rfl isToken_loop (fun _ => hfresh) (by rw [runProgram, hgiven]; rfl)
      (by decide +kernel) hanswer ⟨"d/loop.txt/loop.txt"⟩ (by decide)
    revert hreport
    decide +kernel
  · obtain ⟨files, ending, hrun, hcode, hwritten⟩ := runProgram_odd
    obtain rfl := hall _ _ _ _ _ _ _ (by decide +kernel) parse_odd rfl (by decide +kernel) rfl isToken_loop
      hrun hcode
    cases hwritten

end Ending

end ApiSurface
