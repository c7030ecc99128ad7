import ApiSurface.Settings.Environment
import ApiSurface.Settings.Format
import ApiSurface.Settings.Validation
import ApiSurface.Storage.FileSystem

/-!
Loading settings: from a file, then from the environment.

| here | there |
|---|---|
| `Settings.parse` | `ApiScanConfig.parse` |
| `Settings.ofFile` | `ApiScanConfig.from_file` |
| `Settings.load` | `ApiScanConfig.load` |
| `Settings.loadOrDefault` | `ApiScanConfig.load_or_default` |
-/

namespace ApiSurface.Settings

/-- The settings in a text. -/
def parse (text : String) : Except Failure Settings :=
  match Settings.parse? text with
  | some s => .ok s
  | none => .error (.config (.parseFailed "the text is not a table of settings"))

/-- The failure to read the settings file at `path`. -/
def readFailure (path : Path) : IoError → Failure
  | .os .notFound => .config (.fileNotFound path.shown)
  | e => .io e

/-- The settings of a file on their own, which have to be valid. -/
def ofFile (fs : FileSystem) (path : Path) : Except Failure Settings := do
  let text ← (fs.readText path).mapError (readFailure path)
  let s ← parse text
  s.validate
  return s

/-- The settings with the variables over them, which have to be valid. -/
def withEnvironment (env : Environment) (s : Settings) : Except Failure Settings := do
  let s := s.overriddenBy env
  s.validate
  return s

/-- The settings of a file and of the environment. -/
def load (fs : FileSystem) (env : Environment) (path : Path) : Except Failure Settings := do
  withEnvironment env (← ofFile fs path)

/-- The same, with the defaults in place of a file that is not there. -/
def loadOrDefault (fs : FileSystem) (env : Environment) (path : Path) : Except Failure Settings :=
  match load fs env path with
  | .error (.config (.fileNotFound _)) => withEnvironment env default
  | result => result

end ApiSurface.Settings
