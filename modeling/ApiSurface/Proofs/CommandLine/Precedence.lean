import ApiSurface.Proofs.CommandLine.ExitCode
import ApiSurface.Proofs.Settings.Environment
import ApiSurface.Proofs.Settings.Fields
import ApiSurface.Proofs.Settings.Layers
import ApiSurface.Proofs.Text.OsString

/-!
The layers that the settings for a scan come from: the arguments, the environment, the file and the
defaults.

Each layer says something about a setting or nothing, and the first layer that says something has it. What a
layer says about a setting hangs on the argument, the variable or the field of that setting and on no
other one.
-/

namespace ApiSurface

/-- A setting for the scan, by the type of its values. -/
inductive ScanSetting : Type → Type
  | artifacts : ScanSetting (List String)
  | classpath : ScanSetting (List String)
  | outputDir : ScanSetting String
  | internalMarker : ScanSetting String
  | includeSynthetic : ScanSetting Bool
  | strictResolution : ScanSetting Bool
  | maxParallelScans : ScanSetting Nat

namespace ScanSetting

variable {α : Type}

def get : ScanSetting α → ScanSettings → α
  | .artifacts => ScanSettings.artifacts
  | .classpath => ScanSettings.classpath
  | .outputDir => ScanSettings.outputDir
  | .internalMarker => ScanSettings.internalMarker
  | .includeSynthetic => ScanSettings.includeSynthetic
  | .strictResolution => ScanSettings.strictResolution
  | .maxParallelScans => ScanSettings.maxParallelScans

/-! ## What a layer says -/

/-- The variable of the setting. -/
def variableName : ScanSetting α → String
  | .artifacts => "APISCAN_SCANNER_ARTIFACTS"
  | .classpath => "APISCAN_SCANNER_CLASSPATH"
  | .outputDir => "APISCAN_SCANNER_OUTPUT_DIR"
  | .internalMarker => "APISCAN_SCANNER_INTERNAL_MARKER"
  | .includeSynthetic => "APISCAN_SCANNER_INCLUDE_SYNTHETIC"
  | .strictResolution => "APISCAN_SCANNER_STRICT_RESOLUTION"
  | .maxParallelScans => "APISCAN_SCANNER_MAX_PARALLEL_SCANS"

/-- The text says that this is the value of the setting. Every text says a list, if only one without
elements. -/
def IsWrittenAs : ScanSetting α → String → α → Prop
  | .artifacts | .classpath => IsListIn
  | .outputDir | .internalMarker => Eq
  | .includeSynthetic | .strictResolution => fun text b => text = "true" ∧ b = true ∨ text = "false" ∧ b = false
  | .maxParallelScans => IsCountIn

/-- This is what the environment says: the value that the variable of the setting says, or nothing if it is
not set or says none. -/
def IsInEnvironment (x : ScanSetting α) (env : Environment) (said : Option α) : Prop :=
  ∀ value, said = some value ↔ ∃ text, env x.variableName = some text ∧ x.IsWrittenAs text value

/-- The key of the setting in its section of a file. -/
def key : ScanSetting α → String
  | .artifacts => "artifacts"
  | .classpath => "classpath"
  | .outputDir => "output_dir"
  | .internalMarker => "internal_marker"
  | .includeSynthetic => "include_synthetic"
  | .strictResolution => "strict_resolution"
  | .maxParallelScans => "max_parallel_scans"

end ScanSetting

section Layers

variable {α : Type} {args : ScanArguments} {env : Environment} {fs : FileSystem} {path : Path}
  {s t : Settings} {entries : List (String × Toml.Value)}

namespace ScanSetting

theorem IsInEnvironment.unique {x : ScanSetting α} {said said' : Option α} (h : x.IsInEnvironment env said)
    (h' : x.IsInEnvironment env said') : said = said' :=
  Option.ext fun value => (h value).trans (h' value).symm

end ScanSetting

end Layers

/-! ## Loading -/

namespace Settings

variable {fs : FileSystem} {env : Environment} {path : Path} {t : Settings}

/-- These are the entries of the file at `path`. A file that is not there counts as one without any. -/
def AreEntriesOf (fs : FileSystem) (path : Path) (entries : List (String × Toml.Value)) : Prop :=
  fs.readText path = .error (.os .notFound) ∧ entries = [] ∨
    ∃ text, fs.readText path = .ok text ∧ Toml.parse? text = some entries

theorem AreEntriesOf.unique {entries entries' : List (String × Toml.Value)}
    (h : AreEntriesOf fs path entries) (h' : AreEntriesOf fs path entries') : entries' = entries := by
  obtain ⟨hmissing, rfl⟩ | ⟨text, hread, hparse⟩ := h
  · obtain ⟨-, rfl⟩ | ⟨text', hread', -⟩ := h'
    · rfl
    · rw [hmissing] at hread'
      cases hread'
  · obtain ⟨hmissing', -⟩ | ⟨text', hread', hparse'⟩ := h'
    · rw [hread] at hmissing'
      cases hmissing'
    · obtain rfl := Except.ok.inj (hread'.symm.trans hread)
      exact Option.some.inj (hparse'.symm.trans hparse)

end Settings

/-! ## The settings for a scan -/

section Scan

variable {args : ScanArguments} {fs : FileSystem} {env : Environment} {config : Path} {loaded : Settings}

end Scan

/-! ### Four layers -/

namespace Settings

end Settings

end ApiSurface
