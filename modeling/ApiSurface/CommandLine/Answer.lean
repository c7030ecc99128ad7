import ApiSurface.Failure
import ApiSurface.Json
import ApiSurface.Scan.Batch
import ApiSurface.Settings.Format

/-!
What commands answer, as text for people and as JSON.

| here | there |
|---|---|
| `Answer.scanned` | `ScanReport` |
| `Answer.validated` | `ConfigValidationReport` |
| `Answer.settings` | `ConfigReport` |
| `Answer.text` | `Render.render_text` |
-/

namespace ApiSurface

/-- A section of the settings. -/
inductive SettingsSection
  | general
  | scanner
  deriving DecidableEq, Repr

namespace SettingsSection

def all : List SettingsSection :=
  [.general, .scanner]

def name : SettingsSection → String
  | .general => "general"
  | .scanner => "scanner"

def parse? (name : String) : Option SettingsSection :=
  all.find? (·.name = name)

/-- The entries of the section. -/
def text (s : Settings) : SettingsSection → String
  | .general => s.general.text
  | .scanner => s.scan.text

end SettingsSection

/-- What a command has to say. -/
inductive Answer
  | scanned (outputDir : String) (summary : BatchSummary)
  /-- Whether the settings at `source` can be worked with, and if not, why. -/
  | validated (source : String) (failure : Option Failure)
  | settings (source : String) (onlySection : Option SettingsSection) (s : Settings)
  deriving DecidableEq, Repr

namespace Answer

/-! ## As text -/

def outcomeText : Outcome → String
  | .written artifact report types members =>
    s!"  WRITTEN {artifact.shown} -> {report.shown} ({types} types, {members} members)\n"
  | .skipped artifact e => s!"  SKIPPED {artifact.shown} [{e.kind.name}] {e.message}\n"

def text : Answer → String
  | .scanned outputDir summary =>
    s!"API Scan: {outputDir}\n\n"
      ++ String.join (summary.outcomes.map outcomeText)
      ++ s!"\nSummary: {summary.written} written, {summary.skipped} skipped\n"
  | .validated source none => s!"Config Validation: {source}\n  Result: VALID\n"
  | .validated source (some e) =>
    s!"Config Validation: {source}\n  Result: INVALID\n  Error: {e.message}\n"
  | .settings source none s => s!"Configuration (source: {source})\n\n{s.text}"
  | .settings source (some sec) s =>
    s!"Configuration [{sec.name}] (source: {source})\n\n{sec.text s}"

/-! ## As JSON -/

def outcomeJson : Outcome → Json
  | .written artifact report types members => .object [
    ("status", .text "written"),
    ("artifact", .path artifact.text),
    ("report", .path report.text),
    ("types", .count types),
    ("members", .count members)]
  | .skipped artifact e => .object [
    ("status", .text "skipped"),
    ("artifact", .path artifact.text),
    ("kind", .text e.kind.name),
    ("reason", .text e.message)]

def json : Answer → Json
  | .scanned outputDir summary => .object [
    ("output_dir", .text outputDir),
    ("written", .count summary.written),
    ("skipped", .count summary.skipped),
    ("artifacts", .array (summary.outcomes.map outcomeJson))]
  | .validated source failure => .object [
    ("source", .text source),
    ("valid", .boolean failure.isNone),
    ("errors", .array (failure.toList.map fun e => .text e.message))]
  | .settings source onlySection _ => .object <|
    ("source", .text source) :: onlySection.toList.map fun sec => ("section", .text sec.name)

end Answer

end ApiSurface
