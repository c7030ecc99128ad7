import ApiSurface.Settings.Basic
import ApiSurface.Text.Characters

/-!
Settings from environment variables.

A variable that is set wins over the file. A truth value or a number that cannot be read is passed
over, as if the variable were not set.

| here | there |
|---|---|
| `Settings.overriddenBy` | `ApiScanConfig.apply_env_overrides` |
| `parseBool?` | `override_bool` |
| `parseList` | `override_csv` |
| `parseCount?` | `override_usize` |
-/

namespace ApiSurface

/-- The values of the variables that are set. A variable whose value is no text counts as not set. -/
abbrev Environment := String → Option String

/-- Exactly one of the two words. -/
def parseBool? (s : String) : Option Bool :=
  if s = "true" then some true else if s = "false" then some false else none

/-- The parts between commas, without white space around them and without those that are then
empty. -/
def parseList (s : String) : List String :=
  ((s.toList.splitOn ',').map fun part => trimmed (String.ofList part)).filter (· ≠ "")

namespace Environment

/-- The value of a variable that can be read, or else `fallback`. -/
def valueOr (env : Environment) (name : String) (read : String → Option α) (fallback : α) : α :=
  ((env name).bind read).getD fallback

end Environment

/-- The variables that settings are taken from. -/
def Settings.variables : List String := [
  "APISCAN_GENERAL_LOG_LEVEL",
  "APISCAN_GENERAL_LOG_FORMAT",
  "APISCAN_SCANNER_ARTIFACTS",
  "APISCAN_SCANNER_CLASSPATH",
  "APISCAN_SCANNER_OUTPUT_DIR",
  "APISCAN_SCANNER_INTERNAL_MARKER",
  "APISCAN_SCANNER_INCLUDE_SYNTHETIC",
  "APISCAN_SCANNER_STRICT_RESOLUTION",
  "APISCAN_SCANNER_MAX_PARALLEL_SCANS"]

/-- The settings with the variables put over them. -/
def Settings.overriddenBy (env : Environment) (s : Settings) : Settings where
  general := {
    logLevel := env.valueOr "APISCAN_GENERAL_LOG_LEVEL" some s.general.logLevel
    logFormat := env.valueOr "APISCAN_GENERAL_LOG_FORMAT" some s.general.logFormat }
  scan := {
    artifacts := env.valueOr "APISCAN_SCANNER_ARTIFACTS" (some ∘ parseList) s.scan.artifacts
    classpath := env.valueOr "APISCAN_SCANNER_CLASSPATH" (some ∘ parseList) s.scan.classpath
    outputDir := env.valueOr "APISCAN_SCANNER_OUTPUT_DIR" some s.scan.outputDir
    internalMarker := env.valueOr "APISCAN_SCANNER_INTERNAL_MARKER" some s.scan.internalMarker
    includeSynthetic :=
      env.valueOr "APISCAN_SCANNER_INCLUDE_SYNTHETIC" parseBool? s.scan.includeSynthetic
    strictResolution :=
      env.valueOr "APISCAN_SCANNER_STRICT_RESOLUTION" parseBool? s.scan.strictResolution
    maxParallelScans :=
      env.valueOr "APISCAN_SCANNER_MAX_PARALLEL_SCANS" parseCount? s.scan.maxParallelScans }

end ApiSurface
