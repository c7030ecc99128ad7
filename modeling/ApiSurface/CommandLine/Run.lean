import ApiSurface.CommandLine.Answer
import ApiSurface.CommandLine.Arguments
import ApiSurface.CommandLine.Error
import ApiSurface.CommandLine.LogFilter
import ApiSurface.Settings.Loading

/-!
Runs of the program: from arguments, variables and files to an exit code, two texts and other files.

| here | there |
|---|---|
| `runProgram` | `main` |
| `Arguments.run` | `run` |
| `ScanArguments.run` | `scan.execute` |
| `ScanArguments.onto`, `ScanArguments.settings` | `build_scanner_config` |
| `Settings.check` | `config.execute_validate` |
| `Settings.display` | `config.execute_show` |
| `CommandResult.ending` | `OutputWriter.render` |
| `Arguments.checkLogging` | `init_tracing` |
-/

namespace ApiSurface

/-- What a run finds outside of its arguments and files. -/
structure Host where
  environment : Environment
  device : WriteDevice
  /-- The token for the temporary file of each job. -/
  token : Nat → String
  /-- The log filter that is set for the machine. If it can be used, no other is asked for. -/
  logFilter : Option String

/-- What a run leaves besides files. -/
structure Ending where
  /-- Nothing if the program is aborted. -/
  exitCode : Option Nat
  stdout : String
  stderr : String
  deriving DecidableEq, Repr

/-- What a command comes to: what it has to say, and how it fails. It can do both. -/
structure CommandResult where
  answer : Option Answer
  error : Option CommandError
  deriving DecidableEq, Repr

namespace CommandResult

def ok (answer : Answer) : CommandResult :=
  ⟨some answer, none⟩

def failed (e : CommandError) : CommandResult :=
  ⟨none, some e⟩

def ofExcept : Except CommandError Answer → CommandResult
  | .ok answer => ok answer
  | .error e => failed e

end CommandResult

/-! ## Scanning -/

namespace ScanArguments

/-- The settings with the arguments put over them. Paths are taken over as they are shown, so one that is
no text becomes another path here. -/
def onto (args : ScanArguments) (s : ScanSettings) : ScannerSettings :=
  let s := ScannerSettings.ofScan s
  { s with
    artifacts := if args.artifacts.isEmpty then s.artifacts else args.artifacts.map (·.shown)
    classpath := if args.classpath.isEmpty then s.classpath else args.classpath.map (·.shown)
    outputDir := (args.outputDir.map (·.shown)).getD s.outputDir
    includeSynthetic := s.includeSynthetic && !args.excludeSynthetic
    strictResolution := s.strictResolution || args.strict
    maxParallelScans := args.jobs.getD s.maxParallelScans }

/-- What the scanner is to work with: the settings of the file, of the environment and of the
arguments, which have to name an artifact. -/
def settings (args : ScanArguments) (fs : FileSystem) (env : Environment) (config : Path) :
    Except CommandError ScannerSettings := do
  let loaded ← (Settings.loadOrDefault fs env config).mapError .failure
  let s := args.onto loaded.scan
  s.validate.mapError .ofScanError
  if s.artifacts.isEmpty then
    throw (.command "no artifacts to scan (pass ARTIFACT or set scanner.artifacts)")
  return s

/-- How a batch that was done fails all the same. -/
def complaint? (args : ScanArguments) (summary : BatchSummary) : Option CommandError :=
  if args.failOnSkip && !summary.isComplete then some (.skipped summary.skipped) else none

/-- Scans and writes the reports. -/
def run (args : ScanArguments) (host : Host) (config : Path) (s : Batch.State) :
    Batch.State × CommandResult :=
  match args.settings s.files host.environment config with
  | .error e => (s, .failed e)
  | .ok settings =>
    match scanConfigured ⟨settings, host.device, host.token⟩ s with
    | (s, .error e) => (s, .failed (.ofScanError e))
    | (s, .ok summary) => (s, ⟨some (.scanned settings.outputDir summary), args.complaint? summary⟩)

end ScanArguments

/-! ## Looking at settings -/

namespace Settings

/-- Says whether there are settings to work with. -/
def check (fs : FileSystem) (env : Environment) (path : Path) : CommandResult :=
  match load fs env path with
  | .ok _ => .ok (.validated path.shown none)
  | .error e => ⟨some (.validated path.shown (some e)), some (.config "configuration is invalid")⟩

/-- The section of that name, where one is named. -/
def sectionOf : Option String → Except CommandError (Option SettingsSection)
  | none => .ok none
  | some name =>
    match SettingsSection.parse? name with
    | some sec => .ok (some sec)
    | none => .error (.command s!"unknown section: {name} (expected: general, scanner)")

/-- Shows the settings, or a section of them. -/
def display (fs : FileSystem) (env : Environment) (path : Path) (name : Option String) :
    Except CommandError Answer := do
  let s ← (loadOrDefault fs env path).mapError .failure
  return .settings path.shown (← sectionOf name) s

/-- The settings about logging; when there are none to work with, the defaults. -/
def generalOrDefault (fs : FileSystem) (env : Environment) (path : Path) : GeneralSettings :=
  match loadOrDefault fs env path with
  | .ok s => s.general
  | .error _ => defaultGeneral

end Settings

/-! ## Runs -/

def Command.run (host : Host) (config : Path) (s : Batch.State) :
    Command → Batch.State × CommandResult
  | .scan args => args.run host config s
  | .validateSettings => (s, Settings.check s.files host.environment config)
  | .showSettings name =>
    (s, .ofExcept (Settings.display s.files host.environment config name))

def Answer.write (answer : Answer) : OutputFormat → Json.Output
  | .text => .whole answer.text
  | .json => answer.json.pretty ++ .whole "\n"

/-- How a run ends. The answer is written first, so if that fails nothing else counts. -/
def CommandResult.ending (format : OutputFormat) (r : CommandResult) : Ending :=
  let output := (r.answer.map (·.write format)).getD (.whole "")
  let error := (output.fault.map CommandError.unwritable).or r.error
  { exitCode := some ((error.map (·.exitCode)).getD 0)
    stdout := output.text
    stderr := (error.map fun e => s!"error: {e.message}\n").getD "" }

namespace Arguments

/-- The log filter that the arguments and the settings ask for. -/
def logFilter (args : Arguments) (host : Host) (fs : FileSystem) : String :=
  args.logLevel.getD (Settings.generalOrDefault fs host.environment ⟨args.config⟩).logLevel

/-- Fails unless there is a log filter that can be used. -/
def checkLogging (args : Arguments) (host : Host) (fs : FileSystem) :
    Except LogFilter.Fault Unit :=
  match host.logFilter.map LogFilter.check with
  | some (.ok ()) => .ok ()
  | some (.error .cutInCharacter) => .error .cutInCharacter
  | some (.error .malformed) | none => LogFilter.check (args.logFilter host fs)

/-- How a run ends that has no log filter. A filter that cannot be cut aborts the program. -/
def endingWithout (args : Arguments) (host : Host) (fs : FileSystem) : LogFilter.Fault → Ending
  | .malformed => {
    exitCode := some 2
    stdout := ""
    stderr := s!"error: invalid log level '{args.logFilter host fs}'\n" }
  | .cutInCharacter => {
    exitCode := none
    stdout := ""
    stderr := "the log filter is cut inside of a character\n" }

/-- Runs the command, unless there is no way to log. -/
def run (args : Arguments) (host : Host) (fs : FileSystem) : FileSystem × Ending :=
  match args.checkLogging host fs with
  | .ok () =>
    let (s, result) := args.command.run host ⟨args.config⟩ ⟨fs, Metrics.zero⟩
    (s.files, result.ending args.output)
  | .error fault => (fs, args.endingWithout host fs fault)

end Arguments

/-- Runs the program on its arguments. -/
def runProgram (host : Host) (args : List OsString) (fs : FileSystem) :
    Except Refusal (FileSystem × Ending) := do
  return (← Arguments.parse args).run host fs

end ApiSurface
