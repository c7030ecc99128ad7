import ApiSurface.Storage.IoError

/-!
What can go wrong when artifacts are scanned.

Two of the errors are about the whole batch; every other one is about a single artifact, which is then
skipped while the batch goes on.

| here | there |
|---|---|
| `ScanError` | `ApiScannerError` |
| `ScanError.kind` | `ApiScannerError.kind` |
| `ScanError.isFatal` | `ApiScannerError.is_fatal` |
-/

namespace ApiSurface

/-- Why a location gives no container, or no place for a report. -/
inductive ResolutionFault
  | io (e : IoError)
  /-- The entries below a folder could not be listed. -/
  | listing (folder : String) (e : IoError)
  | notFileOrFolder
  | noReportName
  | other (text : String)
  deriving DecidableEq, Repr

def ResolutionFault.message : ResolutionFault → String
  | .io e => e.message
  | .listing folder e => s!"IO error for operation on {folder}: {e.message}"
  | .notFileOrFolder => "not a regular file or directory"
  | .noReportName => "cannot derive report file name"
  | .other text => text

/-- Why a scan, or a batch of them, failed. -/
inductive ScanError
  /-- The folder for the reports cannot be made. -/
  | directory (path : String) (source : IoError)
  | resolution (artifact : String) (fault : ResolutionFault)
  /-- A supertype of a reported type is nowhere to be found. -/
  | unresolvedType (artifact typeName referencedBy : String)
  | fileTooBig (path : String) (size max : Nat)
  | write (path : String) (source : IoError)
  /-- An earlier artifact has its report in the same place. -/
  | outputCollision (path : String)
  | config (field reason : String)
  | io (path : String) (source : IoError)
  | task (text : String)
  deriving DecidableEq, Repr

/-- The classes of errors that are counted apart. -/
inductive ErrorKind
  | directory
  | resolution
  | write
  | config
  | io
  | task
  deriving DecidableEq, Repr

def ErrorKind.name : ErrorKind → String
  | .directory => "directory"
  | .resolution => "resolution"
  | .write => "write"
  | .config => "config"
  | .io => "io"
  | .task => "task"

namespace ScanError

def message : ScanError → String
  | .directory path source => s!"output directory error: {path}: {source.message}"
  | .resolution artifact fault => s!"resolution error: {artifact}: {fault.message}"
  | .unresolvedType artifact typeName referencedBy =>
    s!"unresolved type in {artifact}: {typeName} (referenced by {referencedBy})"
  | .fileTooBig path size max => s!"file too large: {path}: {size} bytes (max: {max})"
  | .write path source => s!"write error: {path}: {source.message}"
  | .outputCollision path => s!"output collision: {path} is already produced by another artifact"
  | .config field reason => s!"config error: {field}: {reason}"
  | .io path source => s!"io error: {path}: {source.message}"
  | .task text => s!"task error: {text}"

def kind : ScanError → ErrorKind
  | .directory .. => .directory
  | .resolution .. | .unresolvedType .. | .fileTooBig .. => .resolution
  | .write .. | .outputCollision .. => .write
  | .config .. => .config
  | .io .. => .io
  | .task .. => .task

/-- The error ends the batch and not only the work on one artifact. -/
def isFatal : ScanError → Bool
  | .directory .. | .config .. => true
  | _ => false

end ScanError

end ApiSurface
