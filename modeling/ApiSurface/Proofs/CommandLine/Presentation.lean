import ApiSurface.Proofs.Batch.Again
import ApiSurface.Proofs.CommandLine.ExitCode
import ApiSurface.Proofs.Settings.Layers

/-!
What a scan is asked to say, and how it is asked to work, have no part in what it finds.

Two command lines may differ in the form of the answer, in the log level, in whether skipped artifacts
count as a failure and in how many scans may be under way. Then the settings of both are the same but for
the last, so the batches have the same outcomes and leave the same files, whatever their schedules, and
only the exit code may tell that skipped artifacts count, or that an answer cannot be written as JSON.
-/

namespace ApiSurface

open FileSystem

/-! ## Settings that are alike -/

/-- How many scans may be under way does not matter to a check, as long as they are not too few or too
many. -/
theorem ScannerSettings.violation?_congr {s s' : ScannerSettings} (h : s.ScansAlike s')
    (hrange : 1 ≤ s.maxParallelScans ∧ s.maxParallelScans ≤ maxParallelScansLimit)
    (hrange' : 1 ≤ s'.maxParallelScans ∧ s'.maxParallelScans ≤ maxParallelScansLimit) :
    s'.violation? = s.violation? := by
  obtain ⟨n, rfl⟩ : ∃ n, s' = { s with maxParallelScans := n } := ⟨_, h⟩
  unfold violation?
  rw [outOfRange_eq_false_iff.2 hrange, outOfRange_eq_false_iff.2 hrange']

namespace ScanArguments

/-- The arguments differ at most in how many scans may be under way and in whether skipped artifacts count
as a failure. -/
def ScansAlike (args args' : ScanArguments) : Prop :=
  args' = { args with jobs := args'.jobs, failOnSkip := args'.failOnSkip }

/-- The number of scans that may be under way, if it is given, is one that may be given. -/
def GivesJobs (args : ScanArguments) : Prop :=
  ∀ n, args.jobs = some n → 1 ≤ n ∧ n ≤ maxParallelScansLimit

variable {args args' : ScanArguments} {fs : FileSystem} {env : Environment} {config : Path}

theorem ScansAlike.onto (h : args.ScansAlike args') (s : ScanSettings) :
    (args.onto s).ScansAlike (args'.onto s) := by
  obtain ⟨jobs, failOnSkip, rfl⟩ : ∃ jobs failOnSkip, args' = { args with jobs, failOnSkip } := ⟨_, _, h⟩
  rfl

theorem GivesJobs.onto (h : args.GivesJobs) {s : ScanSettings} (hs : s.IsValid) :
    1 ≤ (args.onto s).maxParallelScans ∧ (args.onto s).maxParallelScans ≤ maxParallelScansLimit := by
  show 1 ≤ args.jobs.getD s.maxParallelScans ∧ args.jobs.getD s.maxParallelScans ≤ maxParallelScansLimit
  cases hjobs : args.jobs with
  | none => exact hs.maxParallelScans
  | some n => exact h n hjobs

/-- Such arguments fail in the same way, or they ask for scans that are alike. -/
theorem ScansAlike.settings_alike (h : args.ScansAlike args') (hjobs : args.GivesJobs)
    (hjobs' : args'.GivesJobs) (fs : FileSystem) (env : Environment) (config : Path) :
    (∃ e, args.settings fs env config = .error e ∧ args'.settings fs env config = .error e) ∨
      ∃ s s', args.settings fs env config = .ok s ∧ args'.settings fs env config = .ok s' ∧
        s.ScansAlike s' := by
  unfold settings
  cases hload : Settings.loadOrDefault fs env config with
  | error f => exact .inl ⟨.failure f, rfl, rfl⟩
  | ok loaded =>
    have hscan := (Settings.isValid_of_loadOrDefault hload).scan
    have halike := h.onto loaded.scan
    have hartifacts : (args'.onto loaded.scan).artifacts = (args.onto loaded.scan).artifacts :=
      congrArg (·.artifacts) halike
    have hcheck : (args'.onto loaded.scan).validate = (args.onto loaded.scan).validate := by
      unfold ScannerSettings.validate
      rw [ScannerSettings.violation?_congr halike (hjobs.onto hscan) (hjobs'.onto hscan)]
    simp only [Except.mapError, bind, Except.bind, hcheck, hartifacts]
    cases (args.onto loaded.scan).validate with
    | error e => exact .inl ⟨.ofScanError e, rfl, rfl⟩
    | ok _ =>
      cases (args.onto loaded.scan).artifacts.isEmpty with
      | true => exact .inl ⟨_, rfl, rfl⟩
      | false => exact .inr ⟨_, _, rfl, rfl, halike⟩

end ScanArguments

/-! ## Ends that are alike -/

/-- Some artifact has been skipped. -/
def CommandResult.HasSkipped (r : CommandResult) : Prop :=
  ∃ outputDir summary, r.answer = some (.scanned outputDir summary) ∧
    ∃ outcome ∈ summary.outcomes, outcome.isWritten = false

/-- The answer is about a batch, and it names a path that is no text. -/
def CommandResult.NamesOddPath (r : CommandResult) : Prop :=
  ∃ outputDir summary, r.answer = some (.scanned outputDir summary) ∧ HasOddPath summary.outcomes

/-- Two scans have come to the same, but for whether skipped artifacts count as a failure and whether the
answer can be written. -/
structure ScanArguments.EndsAlike (args args' : ScanArguments) (format format' : OutputFormat)
    (files files' : FileSystem) (result result' : CommandResult) : Prop where
  current : files'.current = files.current
  sameAt : ∀ place, SameAt files files' place
  readFile : ∀ path, files'.readFile path = files.readFile path
  answer : result'.answer = result.answer
  exitCode : ¬ result.HasSkipped → ¬ result.NamesOddPath →
    (result'.ending format').exitCode = (result.ending format).exitCode
  /-- Where batches are done, each exit code is the one for their outcomes. -/
  exitCode_done : ∀ outputDir outcomes, result.answer = some (.scanned outputDir ⟨outcomes⟩) →
    (result.ending format).exitCode = some (args.exitCodeOf format outcomes) ∧
      (result'.ending format').exitCode = some (args'.exitCodeOf format' outcomes)

namespace ScanArguments

section EndsAlike

variable {args args' : ScanArguments} {format format' : OutputFormat} {files files' : FileSystem}

/-- Scans that fail in the same way have come to the same. -/
theorem EndsAlike.failed (e : CommandError) :
    args.EndsAlike args' format format' files files (.failed e) (.failed e) where
  current := rfl
  sameAt place := (Keeps.refl files place).sameAt (Keeps.refl files place)
  readFile _ := rfl
  answer := rfl
  exitCode _ _ := rfl
  exitCode_done _ _ hanswer := by cases hanswer

/-- Batches with the same outcomes, after which the same stands everywhere, have come to the same. -/
theorem EndsAlike.scanned {outputDir : String} {outcomes : List Outcome}
    (hfolder : files.IsFolderAt files.current) (hcurrent : files'.current = files.current)
    (hsame : ∀ place, SameAt files files' place) :
    args.EndsAlike args' format format' files files' (args.resultOf outputDir (.ok ⟨outcomes⟩))
      (args'.resultOf outputDir (.ok ⟨outcomes⟩)) where
  current := hcurrent
  sameAt := hsame
  readFile := readFile_congr hfolder hcurrent hsame
  answer := rfl
  exitCode hnone hplain := by
    have hwritten : ¬ ∃ outcome ∈ outcomes, outcome.isWritten = false :=
      fun hskipped => hnone ⟨outputDir, ⟨outcomes⟩, rfl, hskipped⟩
    have hodd : ¬ HasOddPath outcomes := fun hodd => hplain ⟨outputDir, ⟨outcomes⟩, rfl, hodd⟩
    rw [exitCode_resultOf, exitCode_resultOf, exitCodeOf_of_plain hodd hwritten,
      exitCodeOf_of_plain hodd hwritten]
  exitCode_done _ _ hanswer := by
    obtain ⟨-, heq⟩ := Answer.scanned.inj (Option.some.inj hanswer)
    obtain rfl := BatchSummary.mk.inj heq
    exact ⟨exitCode_resultOf _ _, exitCode_resultOf _ _⟩

end EndsAlike

/-! ## Scans that are alike -/

/-- A command line that makes the program scan, with a usable log filter, and with a batch that does not
get in its own way. -/
structure IsUndisturbedScan (args : ScanArguments) (parsed : Arguments) (host : Host) (given : List OsString)
    (fs : FileSystem) : Prop where
  parse : Arguments.parse given = .ok parsed
  command : parsed.command = .scan args
  logging : parsed.checkLogging host fs = .ok ()
  jobs : args.GivesJobs
  device : host.device = perform
  token : ∀ i, Batch.IsToken (host.token i)
  undisturbed : ∀ s, args.settings fs host.environment ⟨parsed.config⟩ = .ok s →
    Batch.IsUndisturbed ⟨s, host.device, host.token⟩ ⟨s.outputDir⟩ (fs.createFolders ⟨s.outputDir⟩).1
      s.requests

section IsUndisturbedScan

variable {args args' : ScanArguments} {parsed parsed' : Arguments} {host host' : Host}
  {given given' : List OsString} {fs files files' : FileSystem} {result result' : CommandResult}

/-- The program then ends in one of the ways in which the scan can end. -/
theorem IsUndisturbedScan.runProgram (h : args.IsUndisturbedScan parsed host given fs) :
    ∃ files result, ApiSurface.runProgram host given fs = .ok (files, result.ending parsed.output) ∧
      args.EndsIn host ⟨parsed.config⟩ fs files result :=
  ⟨_, _, runProgram_eq h.parse h.command h.logging, endsIn_run args host ⟨parsed.config⟩ ⟨fs, .zero⟩⟩

/-- Batches of scans that are alike have the same outcomes, and the same stands behind them. -/
theorem IsUndisturbedScan.endsAlike_of_settings {s s' : ScannerSettings}
    (h : args.IsUndisturbedScan parsed host given fs) (h' : args'.IsUndisturbedScan parsed' host' given' fs)
    (hsettings : args.settings fs host.environment ⟨parsed.config⟩ = .ok s)
    (hsettings' : args'.settings fs host'.environment ⟨parsed'.config⟩ = .ok s')
    (hsound : fs.isSound) (halike : s.ScansAlike s')
    (hends : args.EndsIn host ⟨parsed.config⟩ fs files result)
    (hends' : args'.EndsIn host' ⟨parsed'.config⟩ fs files' result') :
    args.EndsAlike args' parsed.output parsed'.output files files' result result' := by
  obtain ⟨ended, hbatch, rfl⟩ := hends.exists_batch hsettings
  obtain ⟨ended', hbatch', rfl⟩ := hends'.exists_batch hsettings'
  have hundisturbed := h.undisturbed s hsettings
  have hundisturbed' := h'.undisturbed s' hsettings'
  have hdir : s'.outputDir = s.outputDir := congrArg (·.outputDir) halike
  have hrequests : s'.requests = s.requests := by
    rw [halike]
    rfl
  rw [hdir, hrequests] at hbatch' hundisturbed'
  rw [hdir]
  cases hfolder : fs.createFolders ⟨s.outputDir⟩ with
  | mk start e? =>
    cases e? with
    | some e =>
      obtain ⟨rfl, rfl⟩ := hbatch.eq_error hfolder
      obtain ⟨rfl, rfl⟩ := hbatch'.eq_error hfolder
      exact .failed _
    | none =>
      have hstart : start.isSound := (FoldersMade.of_createFolders hsound hfolder).sound
      rw [hfolder] at hundisturbed hundisturbed'
      obtain ⟨rfl, hleaves⟩ := hbatch.eq_ok hfolder h.device hstart hundisturbed
      obtain ⟨rfl, hleaves'⟩ := hbatch'.eq_ok hfolder h'.device hstart hundisturbed'
      have hgives := @Batch.gives_congr ⟨s, host.device, host.token⟩ ⟨s', host'.device, host'.token⟩ start
        hstart halike h.token h'.token
      have houtcomes := @Batch.outcomeOf_congr ⟨s, host.device, host.token⟩
        ⟨s', host'.device, host'.token⟩ start hstart halike h.token h'.token
      rw [hgives] at hleaves'
      rw [houtcomes]
      exact .scanned hleaves.changed.isFolderAt_current (hleaves'.current.trans hleaves.current.symm)
        (hleaves.sameAt hleaves' (fun _ _ _ _ => Iff.rfl) fun place _ => Keeps.refl start place)

end IsUndisturbedScan

end ScanArguments

/-- **How a scan is asked to answer and to work has no part in what it finds.** -/
theorem runProgram_alike {args args' : ScanArguments} {parsed parsed' : Arguments} {host host' : Host}
    {given given' : List OsString} {fs : FileSystem} (h : args.IsUndisturbedScan parsed host given fs)
    (h' : args'.IsUndisturbedScan parsed' host' given' fs) (halike : args.ScansAlike args')
    (hconfig : parsed'.config = parsed.config) (henvironment : host'.environment = host.environment)
    (hsound : fs.isSound) :
    (∃ files result, runProgram host given fs = .ok (files, result.ending parsed.output) ∧
      args.EndsIn host ⟨parsed.config⟩ fs files result) ∧
    (∃ files result, runProgram host' given' fs = .ok (files, result.ending parsed'.output) ∧
      args'.EndsIn host' ⟨parsed'.config⟩ fs files result) ∧
    ∀ files result files' result', args.EndsIn host ⟨parsed.config⟩ fs files result →
      args'.EndsIn host' ⟨parsed'.config⟩ fs files' result' →
      args.EndsAlike args' parsed.output parsed'.output files files' result result' := by
  refine ⟨h.runProgram, h'.runProgram, fun files result files' result' hends hends' => ?_⟩
  obtain ⟨e, hfails, hfails'⟩ | ⟨s, s', hsettings, hsettings', hscans⟩ :=
    halike.settings_alike h.jobs h'.jobs fs host.environment ⟨parsed.config⟩
  · rw [← hconfig, ← henvironment] at hfails'
    obtain ⟨rfl, rfl⟩ := hends.eq_failed hfails
    obtain ⟨rfl, rfl⟩ := hends'.eq_failed hfails'
    exact .failed e
  · rw [← hconfig, ← henvironment] at hsettings'
    exact h.endsAlike_of_settings h' hsettings hsettings' hsound hscans hends hends'

/-! ### One scan asked for in two ways -/

open Batch

/-- A machine on which no variable is set. -/
def plainHost (token : Nat → String) : Host where
  environment _ := none
  device := perform
  token
  logFilter := none

def briefGiven : List OsString :=
  ["scan", "core", "gone.jar", "--output-dir", "out"]

def briefArguments : ScanArguments where
  artifacts := ["core", "gone.jar"]
  classpath := []
  outputDir := some "out"
  strict := false
  excludeSynthetic := false
  jobs := none
  failOnSkip := false

def formalGiven : List OsString :=
  ["--log-level", "debug", "scan", "core", "gone.jar", "--fail-on-skip", "--output-dir", "out", "-j", "1",
    "--output", "json"]

def formalArguments : ScanArguments :=
  { briefArguments with jobs := some 1, failOnSkip := true }

theorem isUndisturbedScan_brief : briefArguments.IsUndisturbedScan
    ⟨"apiscan.toml", none, .text, .scan briefArguments⟩ (plainHost morningWorkshop.token) briefGiven
    sampleFiles where
  parse := by decide +kernel
  command := rfl
  logging := by decide +kernel
  jobs n hn := by cases hn
  device := rfl
  token i := (isToken_sample i).1
  undisturbed s hs := by
    have hsettings : briefArguments.settings sampleFiles (fun _ => none) ⟨"apiscan.toml"⟩ =
        .ok (briefArguments.onto Settings.defaultScan) := by
      decide +kernel
    obtain rfl := Except.ok.inj (hsettings.symm.trans hs)
    exact ⟨by decide +kernel, by decide +kernel, by decide +kernel, fun i => (isToken_sample i).1.noSlash⟩

theorem isUndisturbedScan_formal : formalArguments.IsUndisturbedScan
    ⟨"apiscan.toml", some "debug", .json, .scan formalArguments⟩ (plainHost eveningWorkshop.token) formalGiven
    sampleFiles where
  parse := by decide +kernel
  command := rfl
  logging := by decide +kernel
  jobs n hn := by
    obtain rfl := Option.some.inj hn
    decide
  device := rfl
  token i := (isToken_sample i).2
  undisturbed s hs := by
    have hsettings : formalArguments.settings sampleFiles (fun _ => none) ⟨"apiscan.toml"⟩ =
        .ok (formalArguments.onto Settings.defaultScan) := by
      decide +kernel
    obtain rfl := Except.ok.inj (hsettings.symm.trans hs)
    exact ⟨by decide +kernel, by decide +kernel, by decide +kernel, fun i => (isToken_sample i).2.noSlash⟩

/-- Both runs report on the folder and skip what is not there. Only the second one calls that a failure. -/
theorem runProgram_brief_and_formal :
    ∃ files result files' result',
      runProgram (plainHost morningWorkshop.token) briefGiven sampleFiles =
        .ok (files, result.ending .text) ∧
      runProgram (plainHost eveningWorkshop.token) formalGiven sampleFiles =
        .ok (files', result'.ending .json) ∧
      (result.ending .text).exitCode = some 0 ∧ (result'.ending .json).exitCode = some 4 ∧
      briefArguments.EndsAlike formalArguments .text .json files files' result result' := by
  obtain ⟨⟨files, result, hrun, hends⟩, ⟨files', result', hrun', hends'⟩, halike⟩ :=
    runProgram_alike isUndisturbedScan_brief isUndisturbedScan_formal rfl rfl rfl (by decide +kernel)
  refine ⟨files, result, files', result', hrun, hrun', ?_, ?_, halike _ _ _ _ hends hends'⟩
  · have hzero : ((runProgram (plainHost morningWorkshop.token) briefGiven sampleFiles).toOption.bind
        (·.2.exitCode)) = some 0 := by
      decide +kernel
    rwa [hrun] at hzero
  · have hfour : ((runProgram (plainHost eveningWorkshop.token) formalGiven sampleFiles).toOption.bind
        (·.2.exitCode)) = some 4 := by
      decide +kernel
    rwa [hrun'] at hfour

/-! ### Scans that get in each other's way -/

/-- Where the report on the first folder is to stand, a link leads to the folder with the third one. -/
def crossedFiles : FileSystem where
  root := .folder [("core", .folder []), ("lib", .folder []), ("libs", .folder [("lib.x", .folder [])]),
    ("out", .folder [("core.txt", .link "../libs")])]
  current := []
  contents := #[]

def crossedGiven (jobs : String) : List OsString :=
  ["scan", "core", "lib", "out/core.txt/lib.x", "--output-dir", "out", "--jobs", jobs]

def crossedArguments (jobs : Nat) : ScanArguments where
  artifacts := ["core", "lib", "out/core.txt/lib.x"]
  classpath := []
  outputDir := some "out"
  strict := false
  excludeSynthetic := false
  jobs := some jobs
  failOnSkip := false

/-- The folder in which the program runs has a name that is no text. -/
def oddArguments : ScanArguments where
  artifacts := ["."]
  classpath := []
  outputDir := some "out"
  strict := false
  excludeSynthetic := false
  jobs := none
  failOnSkip := false

def oddOutcomes : List Outcome :=
  [.written ⟨"."⟩ ⟨.ofList (("out/" : OsString).toList ++ 0xE9 :: (".txt" : OsString).toList)⟩ 0 0]

theorem isUndisturbedScan_odd (format : OutputFormat) : oddArguments.IsUndisturbedScan
    ⟨"apiscan.toml", none, format, .scan oddArguments⟩ (plainHost morningWorkshop.token)
    (oddGiven format) oddFiles where
  parse := by cases format <;> decide +kernel
  command := rfl
  logging := by cases format <;> decide +kernel
  jobs n hn := by cases hn
  device := rfl
  token i := (isToken_sample i).1
  undisturbed s hs := by
    have hsettings : oddArguments.settings oddFiles (fun _ => none) ⟨"apiscan.toml"⟩ =
        .ok (oddArguments.onto Settings.defaultScan) := by
      decide +kernel
    obtain rfl := Except.ok.inj (hsettings.symm.trans hs)
    exact ⟨by decide +kernel, by decide +kernel, by decide +kernel, fun i => (isToken_sample i).1.noSlash⟩

theorem run_odd : (oddArguments.run (plainHost morningWorkshop.token) ⟨"apiscan.toml"⟩ ⟨oddFiles, .zero⟩).2 =
    oddArguments.resultOf "out" (.ok ⟨oddOutcomes⟩) := by
  decide +kernel

theorem not_hasSkipped_odd : ¬ (oddArguments.resultOf "out" (.ok ⟨oddOutcomes⟩)).HasSkipped := by
  rintro ⟨_, _, hanswer, outcome, houtcome, hskipped⟩
  obtain ⟨-, rfl⟩ := Answer.scanned.inj (Option.some.inj hanswer)
  obtain rfl := List.mem_singleton.1 houtcome
  cases hskipped

theorem givesJobs_crossed {jobs : Nat} (hone : 1 ≤ jobs) (htwo : jobs ≤ 2) :
    (crossedArguments jobs).GivesJobs := by
  intro n hn
  obtain rfl := Option.some.inj hn
  exact ⟨hone, htwo.trans (by decide)⟩

theorem namesNoReport_crossed {s : ScannerSettings}
    (hs : (crossedArguments 1).settings crossedFiles (fun _ => none) ⟨"apiscan.toml"⟩ = .ok s) :
    NamesNoReport (crossedFiles.createFolders ⟨s.outputDir⟩).1 ⟨s.outputDir⟩ s.requests := by
  have hsettings : (crossedArguments 1).settings crossedFiles (fun _ => none) ⟨"apiscan.toml"⟩ =
      .ok ((crossedArguments 1).onto Settings.defaultScan) := by
    decide +kernel
  obtain rfl := Except.ok.inj (hsettings.symm.trans hs)
  unfold NamesNoReport
  decide +kernel

/-- It is not enough that nothing that is named is the path of a report. When one scan follows the other, the
first report is there before the name of the third is chosen, and the path of the third leads nowhere any
more. When two may be under way, its name is chosen before. Nor is the exit code the same in all other cases,
also where nothing is skipped: one of two answers is JSON, and names a path that is no text. -/
theorem not_runProgram_alike :
    (¬ ∀ (args args' : ScanArguments) (parsed parsed' : Arguments) (host : Host) (given given' : List OsString)
        (fs : FileSystem), Arguments.parse given = .ok parsed → Arguments.parse given' = .ok parsed' →
      parsed.command = .scan args → parsed'.command = .scan args' →
      parsed.checkLogging host fs = .ok () → parsed'.checkLogging host fs = .ok () →
      parsed'.config = parsed.config → args.ScansAlike args' → args.GivesJobs → args'.GivesJobs →
      host.device = perform → (∀ i, IsToken (host.token i)) → fs.isSound →
      (∀ s, args.settings fs host.environment ⟨parsed.config⟩ = .ok s →
        NamesNoReport (fs.createFolders ⟨s.outputDir⟩).1 ⟨s.outputDir⟩ s.requests) →
      (args'.run host ⟨parsed'.config⟩ ⟨fs, .zero⟩).2.answer =
        (args.run host ⟨parsed.config⟩ ⟨fs, .zero⟩).2.answer) ∧
    ¬ ∀ (args : ScanArguments) (parsed parsed' : Arguments) (host : Host) (given given' : List OsString)
        (fs : FileSystem) (result : CommandResult), args.IsUndisturbedScan parsed host given fs →
      args.IsUndisturbedScan parsed' host given' fs → parsed'.config = parsed.config → fs.isSound →
      (args.run host ⟨parsed.config⟩ ⟨fs, .zero⟩).2 = result → ¬ result.HasSkipped →
      (result.ending parsed'.output).exitCode = (result.ending parsed.output).exitCode := by
  refine ⟨fun hall => ?_, fun hall => ?_⟩
  · have hsame := hall (crossedArguments 1) (crossedArguments 2)
      ⟨"apiscan.toml", none, .text, .scan (crossedArguments 1)⟩
      ⟨"apiscan.toml", none, .text, .scan (crossedArguments 2)⟩ (plainHost morningWorkshop.token)
      (crossedGiven "1") (crossedGiven "2") crossedFiles (by decide +kernel) (by decide +kernel) rfl rfl
      (by decide +kernel) (by decide +kernel) rfl rfl (givesJobs_crossed (by decide) (by decide))
      (givesJobs_crossed (by decide) (by decide)) rfl (fun i => (isToken_sample i).1) (by decide +kernel)
      fun _ => namesNoReport_crossed
    revert hsame
    decide +kernel
  · have hcode := hall oddArguments _ _ _ _ _ _ _ (isUndisturbedScan_odd .text) (isUndisturbedScan_odd .json) rfl
      (by decide +kernel) run_odd not_hasSkipped_odd
    rw [exitCode_resultOf, exitCode_resultOf] at hcode
    revert hcode
    decide +kernel

end ApiSurface
