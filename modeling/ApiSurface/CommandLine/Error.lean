import ApiSurface.Failure

/-!
How a command fails, and the exit code that says so.

| here | there |
|---|---|
| `CommandError` | `CliError` |
| `CommandError.exitCode` | `CliError.exit_code` |
| `CommandError.ofScanError` | `CliError.from` |
-/

namespace ApiSurface

/-- Why a command did not do all that it was asked for. -/
inductive CommandError
  | config (text : String)
  | command (text : String)
  /-- The batch could not start. -/
  | aborted (text : String)
  /-- That many artifacts gave no report, and the caller wants to know. -/
  | skipped (count : Nat)
  /-- The answer cannot be written as JSON. -/
  | unwritable (text : String)
  | io (e : IoError)
  | failure (e : Failure)
  deriving DecidableEq, Repr

namespace CommandError

def message : CommandError → String
  | .config text => s!"configuration error: {text}"
  | .command text => text
  | .aborted text => s!"scan aborted: {text}"
  | .skipped count => s!"{count} artifact(s) skipped"
  | .unwritable text => s!"json output error: {text}"
  | .io e => s!"io error: {e.message}"
  | .failure e => e.message

def exitCode : CommandError → Nat
  | .config _ | .failure (.config _) => 2
  | .aborted _ | .failure (.scan (.directory _)) => 3
  | .skipped _ => 4
  | .io _ | .failure (.io _) => 10
  | .unwritable _ | .command _ | .failure (.scan _) => 1

/-- How a command fails because of an error of the scan. -/
def ofScanError (e : ScanError) : CommandError :=
  match e with
  | .config .. => .config e.message
  | .directory .. => .aborted e.message
  | _ => .command e.message

end CommandError

end ApiSurface
