import ApiSurface.Scan.Error

/-!
Failures as the program tells them apart: of the settings, of the scan, of reading and writing.

| here | there |
|---|---|
| `Failure` | `ApiScanError` |
| `ScanFailure` | `ScanError` |
| `Failure.isFatal` | `ApiScanError.is_fatal` |
| `ScanError.toFailure` | `ApiScanError.from` |
-/

namespace ApiSurface

/-- Why there are no settings to work with. -/
inductive ConfigError
  | fileNotFound (path : String)
  | parseFailed (reason : String)
  | invalidValue (field reason : String)
  deriving DecidableEq, Repr

def ConfigError.message : ConfigError → String
  | .fileNotFound path => s!"config file not found: {path}"
  | .parseFailed reason => s!"failed to parse config: {reason}"
  | .invalidValue field reason => s!"invalid config value for '{field}': {reason}"

/-- A failed scan, told by its text. -/
inductive ScanFailure
  | directory (text : String)
  | resolution (text : String)
  | write (text : String)
  | failed (text : String)
  deriving DecidableEq, Repr

def ScanFailure.message : ScanFailure → String
  | .directory text => s!"output directory error: {text}"
  | .resolution text => s!"resolution failed: {text}"
  | .write text => s!"report write failed: {text}"
  | .failed text => s!"scan failed: {text}"

inductive Failure
  | config (e : ConfigError)
  | scan (e : ScanFailure)
  | io (e : IoError)
  deriving DecidableEq, Repr

namespace Failure

def message : Failure → String
  | .config e => s!"config error: {e.message}"
  | .scan e => s!"scan error: {e.message}"
  | .io e => s!"io error: {e.message}"

/-- Nothing can be done about it without a change to the settings or the folders. -/
def isFatal : Failure → Bool
  | .config _ | .scan (.directory _) => true
  | _ => false

end Failure

/-- The failure that an error of a scan amounts to. -/
def ScanError.toFailure (e : ScanError) : Failure :=
  match e with
  | .directory path source => .scan (.directory s!"{path}: {source.message}")
  | .resolution .. | .unresolvedType .. | .fileTooBig .. => .scan (.resolution e.message)
  | .write .. | .outputCollision .. => .scan (.write e.message)
  | .config field reason => .config (.invalidValue field reason)
  | .io .. | .task .. => .scan (.failed e.message)

end ApiSurface
