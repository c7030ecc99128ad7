import ApiSurface.Text.Characters
import ApiSurface.Text.OsString

/-!
The arguments of the program.

An argument list is read from the front by a machine that takes one argument a step. A command and
its sub-command each have options of their own; two options belong to all of them, and of those the
innermost value counts. The value of an option is checked only when the next option or operand
comes, or at the end, so a request for help wins over a value that a command in front of it was
given.

Arguments are texts of the system. Those that name files may be any bytes; the others have to be texts.

| here | there |
|---|---|
| `Arguments` | `Cli` |
| `Command` | `Commands` |
| `ScanArguments` | `ScanArgs` |
| `Arguments.parse` | `Cli.parse` |
-/

namespace ApiSurface

/-! ## What is asked for -/

/-- What `scan` is asked for. -/
structure ScanArguments where
  artifacts : List OsString
  classpath : List OsString
  outputDir : Option OsString
  strict : Bool
  excludeSynthetic : Bool
  jobs : Option Nat
  failOnSkip : Bool
  deriving DecidableEq, Repr

inductive Command
  | scan (args : ScanArguments)
  | validateSettings
  | showSettings (section? : Option String)
  deriving DecidableEq, Repr

/-- How answers are written. -/
inductive OutputFormat
  | text
  | json
  deriving DecidableEq, Repr

structure Arguments where
  /-- The path of the settings file. -/
  config : OsString
  /-- The log filter. -/
  logLevel : Option String
  output : OutputFormat
  command : Command
  deriving DecidableEq, Repr

/-- Why there is no command to run. -/
inductive Refusal
  /-- The arguments make no sense. -/
  | usage
  /-- They ask for help or for the version. -/
  | display
  deriving DecidableEq, Repr

def Refusal.exitCode : Refusal → Nat
  | .usage => 2
  | .display => 0

def OutputFormat.parse? : String → Option OutputFormat
  | "text" => some .text
  | "json" => some .json
  | _ => none

namespace Arguments

/-! ## Commands and options -/

/-- A command of which options and operands are read. -/
inductive Level
  | program
  | scan
  | config
  | validate
  | showing
  deriving DecidableEq, Repr

/-- What an argument list can say with a `-`. -/
inductive Switch
  | config
  | logLevel
  | output
  | classpath
  | outputDir
  | jobs
  | strict
  | excludeSynthetic
  | failOnSkip
  | onlySection
  | help
  | version
  deriving DecidableEq, Repr

namespace Level

/-- The sub-commands, by name. -/
def subcommands : Level → List (String × Level)
  | .program => [("scan", .scan), ("config", .config)]
  | .config => [("validate", .validate), ("show", .showing)]
  | .scan | .validate | .showing => []

/-- The command itself and those it is part of, from the inside. -/
def chain : Level → List Level
  | .program => [.program]
  | .scan => [.scan, .program]
  | .config => [.config, .program]
  | .validate => [.validate, .config, .program]
  | .showing => [.showing, .config, .program]

/-- The options of this command alone, by long name and letter. -/
def ownSwitches : Level → List (String × Option Char × Switch)
  | .program => [("config", some 'c', .config), ("version", some 'V', .version)]
  | .scan => [
    ("classpath", some 'p', .classpath),
    ("output-dir", some 'd', .outputDir),
    ("strict", none, .strict),
    ("exclude-synthetic", none, .excludeSynthetic),
    ("jobs", some 'j', .jobs),
    ("fail-on-skip", none, .failOnSkip)]
  | .showing => [("section", none, .onlySection)]
  | .config | .validate => []

/-- All options that can stand behind this command. -/
def switches (level : Level) : List (String × Option Char × Switch) :=
  level.ownSwitches ++ [
    ("log-level", none, .logLevel), ("output", none, .output), ("help", some 'h', .help)]

def long? (level : Level) (name : Bytes) : Option Switch :=
  (level.switches.find? fun (long, _) => Bytes.ofText long = name).map (·.2.2)

def short? (level : Level) (letter : UInt8) : Option Switch :=
  (level.switches.find? fun (_, short, _) => short.map String.utf8EncodeChar = some [letter]).map (·.2.2)

end Level

namespace Switch

def takesValue : Switch → Bool
  | .config | .logLevel | .output | .classpath | .outputDir | .jobs | .onlySection => true
  | .strict | .excludeSynthetic | .failOnSkip | .help | .version => false

/-- Ends the reading at once. -/
def isRequest : Switch → Bool
  | .help | .version => true
  | _ => false

/-- May be given several times to one command. -/
def isRepeatable : Switch → Bool
  | .classpath => true
  | _ => false

def accepts (value : OsString) : Switch → Bool
  | .config | .classpath | .outputDir => value ≠ ""
  | .logLevel | .onlySection => value.text?.isSome
  | .output => (value.text?.bind OutputFormat.parse?).isSome
  | .jobs => (value.text?.bind parseCount?).isSome
  | .strict | .excludeSynthetic | .failOnSkip | .help | .version => true

end Switch

/-! ## Reading -/

/-- An option that has been given to a command. -/
structure Given where
  level : Level
  switch : Switch
  /-- Empty for an option that takes none. -/
  value : OsString
  deriving DecidableEq, Repr

/-- How the next argument is read. -/
inductive Mode
  /-- As a sub-command, an option or an operand. -/
  | any
  /-- As the value of an option. -/
  | value (switch : Switch)
  /-- As an operand, whatever it looks like. -/
  | operand
  /-- As the name of a command about which help is asked for; nothing is part of `help` itself. -/
  | topic (level : Option Level)
  deriving DecidableEq, Repr

structure State where
  level : Level
  mode : Mode
  /-- The options that count, in order. -/
  given : List Given
  /-- The last option of this command, if it is not yet checked. -/
  pending : Option Given
  /-- The like for the commands that this one is part of. -/
  deferred : List Given
  /-- The operands in order. -/
  operands : List OsString
  deriving DecidableEq, Repr

/-- Before the first argument. -/
def start : State where
  level := .program
  mode := .any
  given := []
  pending := none
  deferred := []
  operands := []

/-- What follows an argument list as far as it has been read. -/
abbrev Reading := Except Refusal

namespace State

/-- Lets an option count, unless its value is wrong or it counts already. -/
def settleOne (s : State) (g : Given) : Reading State :=
  let isTwice := !g.switch.isRepeatable
    && s.given.any fun h => h.level = g.level && h.switch = g.switch
  if g.switch.accepts g.value && !isTwice then .ok { s with given := s.given ++ [g] }
  else .error .usage

/-- Lets the pending option count. -/
def settle (s : State) : Reading State :=
  match s.pending with
  | some g => { s with pending := none }.settleOne g
  | none => .ok s

/-- Takes an option with the value that is attached to it, if there is one. -/
def takeSwitch (s : State) (attached : Option OsString) (switch : Switch) : Reading State := do
  if attached.isSome && !switch.takesValue then
    throw .usage
  let s ← s.settle
  if switch.isRequest then
    throw .display
  match attached with
  | some value => s.settleOne ⟨s.level, switch, value⟩
  | none =>
    if switch.takesValue then return { s with mode := .value switch }
    else s.settleOne ⟨s.level, switch, ""⟩

/-- Takes an option that may not be known. -/
def takeKnown (s : State) (attached : Option OsString) : Option Switch → Reading State
  | some switch => s.takeSwitch attached switch
  | none => .error .usage

/-- Takes what stands behind `--`. -/
def takeLong (s : State) (text : Bytes) : Reading State :=
  match text.span (· ≠ OsString.equals) with
  | (name, []) => s.takeKnown none (s.level.long? name)
  | (name, _ :: value) => s.takeKnown (some (.ofList value)) (s.level.long? name)

/-- The value that is attached to a letter. -/
def attachedTo : Bytes → Option OsString
  | [] => none
  | OsString.equals :: value => some (.ofList value)
  | value => some (.ofList value)

/-- Takes a letter behind `-` and what follows it. Behind a letter that asks for help or for the
version nothing is read any more. -/
def takeShort (s : State) (letter : UInt8) (text : Bytes) : Reading State :=
  match s.level.short? letter with
  | some switch => s.takeSwitch (if switch.isRequest then none else attachedTo text) switch
  | none => .error .usage

/-- Takes an operand. Only `scan` has any. -/
def takeOperand (s : State) (arg : OsString) : Reading State := do
  let s ← s.settle
  if s.level = .scan && arg ≠ "" then return { s with operands := s.operands ++ [arg] }
  else throw .usage

/-- Goes on with a sub-command. -/
def enter (s : State) (level : Level) : State :=
  { s with level, mode := .any, pending := none, deferred := s.deferred ++ s.pending.toList }

/-- Takes an argument that is no option. -/
def takePlain (s : State) (arg : OsString) : Reading State :=
  match arg.text?.bind (List.lookup · s.level.subcommands) with
  | some level => .ok (s.enter level)
  | none =>
    if arg = "help" && !s.level.subcommands.isEmpty then
      .ok { s with mode := .topic (some s.level) }
    else s.takeOperand arg

/-- Takes the name of a command about which help is asked for. -/
def takeTopic (s : State) (arg : OsString) (level : Level) : Reading State :=
  match arg.text?.bind (List.lookup · level.subcommands) with
  | some level => .ok { s with mode := .topic (some level) }
  | none =>
    if arg = "help" && !level.subcommands.isEmpty then .ok { s with mode := .topic none }
    else .error .usage

/-- Takes the next argument. -/
def take (s : State) (arg : OsString) : Reading State :=
  match s.mode, arg.toList with
  | .topic none, _ => .error .usage
  | .topic (some level), _ => s.takeTopic arg level
  | .operand, _ => s.takeOperand arg
  | .value _, OsString.dash :: _ :: _ => .error .usage
  | .value switch, _ => .ok { s with mode := .any, pending := some ⟨s.level, switch, arg⟩ }
  | .any, [OsString.dash, OsString.dash] => .ok { s with mode := .operand }
  | .any, OsString.dash :: OsString.dash :: text => s.takeLong text
  | .any, OsString.dash :: letter :: text => s.takeShort letter text
  | .any, _ => s.takePlain arg

/-- The value of an option at the innermost command that it was given to. -/
def valueOf? (s : State) (switch : Switch) : Option OsString :=
  s.level.chain.findSome? fun level =>
    (s.given.find? fun g => g.level = level && g.switch = switch).map (·.value)

/-- The same for an option whose value is a text. -/
def textOf? (s : State) (switch : Switch) : Option String :=
  (s.valueOf? switch).bind (·.text?)

/-- All values of an option. -/
def valuesOf (s : State) (switch : Switch) : List OsString :=
  (s.given.filter (·.switch = switch)).map (·.value)

def isGiven (s : State) (switch : Switch) : Bool :=
  s.given.any (·.switch = switch)

/-- The command that has been read, if there is one. -/
def command? (s : State) : Option Command :=
  match s.level with
  | .scan => some <| .scan {
      artifacts := s.operands
      classpath := s.valuesOf .classpath
      outputDir := s.valueOf? .outputDir
      strict := s.isGiven .strict
      excludeSynthetic := s.isGiven .excludeSynthetic
      jobs := (s.textOf? .jobs).bind parseCount?
      failOnSkip := s.isGiven .failOnSkip }
  | .validate => some .validateSettings
  | .showing => some (.showSettings (s.textOf? .onlySection))
  | .program | .config => none

/-- What the arguments come to when there are no more of them. -/
def finish (s : State) : Reading Arguments := do
  match s.mode with
  | .topic _ => throw .display
  | .value _ => throw .usage
  | .any | .operand =>
    let s ← s.settle
    let s ← s.deferred.foldlM settleOne s
    match s.command? with
    | some command => return {
        config := (s.valueOf? .config).getD "apiscan.toml"
        logLevel := s.textOf? .logLevel
        output := ((s.textOf? .output).bind OutputFormat.parse?).getD .text
        command }
    | none => throw .usage

end State

/-- The arguments in a list of them, without the name of the program. -/
def parse (args : List OsString) : Except Refusal Arguments := do
  (← args.foldlM State.take start).finish

end Arguments

end ApiSurface
