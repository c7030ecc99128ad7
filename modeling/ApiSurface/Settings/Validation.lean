import ApiSurface.Failure
import ApiSurface.Settings.Basic
import ApiSurface.Storage.Path

/-!
Which settings can be worked with.

The settings of a file and those of a scanner are checked on their own, each with its own words. The
first rule that is broken is the one that is reported.

| here | there |
|---|---|
| `ScanSettings.validate` | `ScannerConfig.validate` |
| `Settings.validate` | `ApiScanConfig.validate` |
| `ScannerSettings.validate` | `ApiScannerConfig.validate` |
| `Violation.toFailure` | `invalid` |
-/

namespace ApiSurface

/-- A broken rule: the setting and what is wrong with it. -/
structure Violation where
  field : String
  reason : String
  deriving DecidableEq, Repr

/-- The violation if `broken` says that there is one. -/
def violationIf (broken : Bool) (field reason : String) : Option Violation :=
  if broken then some ⟨field, reason⟩ else none

/-- The first violation that was found. -/
def firstViolation (checks : List (Option Violation)) : Option Violation :=
  checks.findSome? id

/-! ## Rules -/

def logLevels : List String :=
  ["trace", "debug", "info", "warn", "error"]

def logFormats : List String :=
  ["json", "pretty"]

/-- The longest path of a setting, in bytes. -/
def maxPathLength : Nat := 4096

def maxParallelScansLimit : Nat := 256

def maxClassFileSizeLimit : Nat := 64 * 1024 * 1024

/-- The path goes up at some point. -/
def goesUp (path : String) : Bool :=
  (Path.mk path).components.contains .up

/-- More than one segment of a package name. -/
def isCompound (marker : String) : Bool :=
  marker.toList.any fun c => c = '.' || c = '/'

def isTooLong (path : String) : Bool :=
  maxPathLength < path.utf8ByteSize

/-! ## Settings of a file -/

namespace ScanSettings

/-- What is wrong with the path of a location. -/
def locationViolation (field path : String) : Option Violation :=
  firstViolation [
    violationIf path.isEmpty field "path must not be empty",
    violationIf (isTooLong path) field s!"path '{path}' exceeds maximum length {maxPathLength}"]

def violation? (s : ScanSettings) : Option Violation :=
  firstViolation <| [
    violationIf s.outputDir.isEmpty "scanner.output_dir" "must not be empty",
    violationIf (goesUp s.outputDir) "scanner.output_dir" "contains path traversal pattern '..'",
    violationIf (isTooLong s.outputDir) "scanner.output_dir" s!"exceeds maximum length {maxPathLength}",
    violationIf s.internalMarker.isEmpty "scanner.internal_marker" "must not be empty",
    violationIf (isCompound s.internalMarker) "scanner.internal_marker"
      "must be a single package segment (no '.' or '/')",
    violationIf (s.maxParallelScans = 0 || maxParallelScansLimit < s.maxParallelScans)
      "scanner.max_parallel_scans" s!"must be 1-{maxParallelScansLimit}"]
    ++ s.artifacts.map (locationViolation "scanner.artifacts")
    ++ s.classpath.map (locationViolation "scanner.classpath")

end ScanSettings

namespace GeneralSettings

/-- A choice from a list of words. -/
def choiceViolation (field : String) (words : List String) (value : String) : Option Violation :=
  violationIf (!words.contains value) field ("must be one of: " ++ ", ".intercalate words)

def violation? (s : GeneralSettings) : Option Violation :=
  firstViolation [
    choiceViolation "general.log_level" logLevels s.logLevel,
    choiceViolation "general.log_format" logFormats s.logFormat]

end GeneralSettings

def Settings.violation? (s : Settings) : Option Violation :=
  firstViolation [s.general.violation?, s.scan.violation?]

/-- The failure that a broken rule of a settings file is. -/
def Violation.toFailure (v : Violation) : Failure :=
  .config (.invalidValue v.field v.reason)

def ScanSettings.validate (s : ScanSettings) : Except Failure Unit :=
  match s.violation? with
  | some v => .error v.toFailure
  | none => .ok ()

def Settings.validate (s : Settings) : Except Failure Unit :=
  match s.violation? with
  | some v => .error v.toFailure
  | none => .ok ()

/-! ## Settings of a scanner -/

namespace ScannerSettings

/-- What is wrong with the path of a location. -/
def locationViolation (field path : String) : Option Violation :=
  firstViolation [
    violationIf path.isEmpty field "path must not be empty",
    violationIf (isTooLong path) field s!"path exceeds maximum length {maxPathLength}"]

def violation? (s : ScannerSettings) : Option Violation :=
  firstViolation <| [
    violationIf s.outputDir.isEmpty "output_dir" "must not be empty",
    violationIf (goesUp s.outputDir) "output_dir" "contains path traversal pattern '..'",
    violationIf (s.internalMarker.isEmpty || isCompound s.internalMarker) "internal_marker"
      "must be a single non-empty package segment",
    violationIf (s.maxParallelScans = 0 || maxParallelScansLimit < s.maxParallelScans)
      "max_parallel_scans" s!"must be 1-{maxParallelScansLimit}",
    violationIf (s.maxClassFileSize = 0 || maxClassFileSizeLimit < s.maxClassFileSize)
      "max_class_file_size" s!"must be 1-{maxClassFileSizeLimit}"]
    ++ s.artifacts.map (locationViolation "artifacts")
    ++ s.classpath.map (locationViolation "classpath")

def validate (s : ScannerSettings) : Except ScanError Unit :=
  match s.violation? with
  | some v => .error (.config v.field v.reason)
  | none => .ok ()

end ScannerSettings

end ApiSurface
