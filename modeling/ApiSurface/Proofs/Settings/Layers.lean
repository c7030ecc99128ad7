import ApiSurface.Proofs.Settings.Validation
import ApiSurface.Settings.Loading

/-!
The layers of settings: what a file says, and the variables over it.

The variables win wherever they can be read. But a file is checked before the variables are put over
it, and again afterwards: a value that is not valid is an error of the file even if a variable takes
its place.
-/

namespace ApiSurface

namespace Environment

/-- There is a value of the variable that can be read. -/
def Sets (env : Environment) (name : String) (read : String → Option α) : Prop :=
  (env name).bind read ≠ none

theorem valueOr_congr {env : Environment} {name : String} {read : String → Option α} {a b : α}
    (h : ¬ env.Sets name read → a = b) : env.valueOr name read a = env.valueOr name read b := by
  unfold valueOr
  cases hvalue : (env name).bind read with
  | none => exact h fun hset => hset hvalue
  | some value => rfl

end Environment

namespace Settings

/-- The settings are the same but for what the variables set. -/
structure AgreesOutside (env : Environment) (s t : Settings) : Prop where
  logLevel : ¬ env.Sets "APISCAN_GENERAL_LOG_LEVEL" some → s.general.logLevel = t.general.logLevel
  logFormat : ¬ env.Sets "APISCAN_GENERAL_LOG_FORMAT" some → s.general.logFormat = t.general.logFormat
  artifacts : ¬ env.Sets "APISCAN_SCANNER_ARTIFACTS" (some ∘ parseList) →
    s.scan.artifacts = t.scan.artifacts
  classpath : ¬ env.Sets "APISCAN_SCANNER_CLASSPATH" (some ∘ parseList) →
    s.scan.classpath = t.scan.classpath
  outputDir : ¬ env.Sets "APISCAN_SCANNER_OUTPUT_DIR" some → s.scan.outputDir = t.scan.outputDir
  internalMarker : ¬ env.Sets "APISCAN_SCANNER_INTERNAL_MARKER" some →
    s.scan.internalMarker = t.scan.internalMarker
  includeSynthetic : ¬ env.Sets "APISCAN_SCANNER_INCLUDE_SYNTHETIC" parseBool? →
    s.scan.includeSynthetic = t.scan.includeSynthetic
  strictResolution : ¬ env.Sets "APISCAN_SCANNER_STRICT_RESOLUTION" parseBool? →
    s.scan.strictResolution = t.scan.strictResolution
  maxParallelScans : ¬ env.Sets "APISCAN_SCANNER_MAX_PARALLEL_SCANS" parseCount? →
    s.scan.maxParallelScans = t.scan.maxParallelScans

variable {fs : FileSystem} {env : Environment} {path : Path} {text : String} {s t : Settings}

/-- What the variables set cannot be told from the settings that they are put over. -/
theorem AgreesOutside.overriddenBy_eq (h : s.AgreesOutside env t) :
    s.overriddenBy env = t.overriddenBy env := by
  unfold overriddenBy
  rw [Environment.valueOr_congr h.logLevel, Environment.valueOr_congr h.logFormat,
    Environment.valueOr_congr h.artifacts, Environment.valueOr_congr h.classpath,
    Environment.valueOr_congr h.outputDir, Environment.valueOr_congr h.internalMarker,
    Environment.valueOr_congr h.includeSynthetic, Environment.valueOr_congr h.strictResolution,
    Environment.valueOr_congr h.maxParallelScans]

theorem withEnvironment_of_violation {v : Violation} (h : (s.overriddenBy env).violation? = some v) :
    withEnvironment env s = .error v.toFailure := by
  simp only [withEnvironment, validate_of_violation h]
  rfl

theorem withEnvironment_of_isValid (h : (s.overriddenBy env).IsValid) :
    withEnvironment env s = .ok (s.overriddenBy env) := by
  simp only [withEnvironment, validate_eq_ok_iff.2 h]
  rfl

theorem withEnvironment_eq_ok_iff :
    withEnvironment env s = .ok t ↔ (s.overriddenBy env).IsValid ∧ t = s.overriddenBy env := by
  constructor
  · intro h
    cases hv : (s.overriddenBy env).violation? with
    | some v =>
      rw [withEnvironment_of_violation hv] at h
      cases h
    | none =>
      have hvalid := violation?_eq_none_iff.1 hv
      rw [withEnvironment_of_isValid hvalid] at h
      exact ⟨hvalid, (Except.ok.inj h).symm⟩
  · rintro ⟨hvalid, rfl⟩
    exact withEnvironment_of_isValid hvalid

/-- Settings that have been loaded are valid. -/
theorem isValid_of_loadOrDefault (h : loadOrDefault fs env path = .ok t) : t.IsValid := by
  have hlayered : ∀ s, withEnvironment env s = .ok t → t.IsValid := by
    intro s hs
    obtain ⟨hvalid, rfl⟩ := withEnvironment_eq_ok_iff.1 hs
    exact hvalid
  unfold loadOrDefault at h
  split at h
  · exact hlayered default h
  · unfold load at h
    cases hfile : ofFile fs path with
    | error f =>
      rw [hfile] at h
      cases h
    | ok s =>
      rw [hfile] at h
      exact hlayered s h

/-- A file that can be read is taken for what it says if that is valid. -/
theorem ofFile_of_parse (hread : fs.readText path = .ok text) (hparse : Settings.parse? text = some s) :
    ofFile fs path = s.validate.map fun _ => s := by
  have hparsed : parse text = .ok s := by
    rw [parse, hparse]
  unfold ofFile
  rw [hread]
  change (parse text >>= fun s => s.validate >>= fun _ => .ok s) = _
  rw [hparsed]
  change (s.validate >>= fun _ => .ok s) = _
  cases s.validate <;> rfl

theorem load_of_violation {v : Violation} (hread : fs.readText path = .ok text)
    (hparse : Settings.parse? text = some s) (h : s.violation? = some v) :
    load fs env path = .error v.toFailure := by
  rw [load, ofFile_of_parse hread hparse, validate_of_violation h]
  rfl

theorem load_of_isValid (hread : fs.readText path = .ok text) (hparse : Settings.parse? text = some s)
    (h : s.IsValid) : load fs env path = withEnvironment env s := by
  rw [load, ofFile_of_parse hread hparse, validate_eq_ok_iff.2 h]
  rfl

/-- A file that can be read is loaded exactly when it is valid both as it is and with the variables over
it. The file is checked first. What the variables set of a valid file leaves no trace. -/
theorem load_checks_both_layers (hread : fs.readText path = .ok text)
    (hparse : Settings.parse? text = some s) :
    (∀ t, load fs env path = .ok t ↔
      s.IsValid ∧ (s.overriddenBy env).IsValid ∧ t = s.overriddenBy env) ∧
      (∀ v, s.violation? = some v → load fs env path = .error v.toFailure) ∧
      (∀ v, s.IsValid → (s.overriddenBy env).violation? = some v →
        load fs env path = .error v.toFailure) ∧
      ∀ fs' path' text' t, FileSystem.readText fs' path' = .ok text' → Settings.parse? text' = some t →
        s.IsValid → t.IsValid → s.AgreesOutside env t → load fs' env path' = load fs env path := by
  refine ⟨fun t => ⟨fun hload => ?_, ?_⟩, fun v hv => load_of_violation hread hparse hv,
    fun v hs hv => ?_, fun fs' path' text' t hread' hparse' hs ht hagrees => ?_⟩
  · cases hs : s.violation? with
    | some v =>
      rw [load_of_violation hread hparse hs] at hload
      cases hload
    | none =>
      have hs := violation?_eq_none_iff.1 hs
      rw [load_of_isValid hread hparse hs] at hload
      exact ⟨hs, withEnvironment_eq_ok_iff.1 hload⟩
  · rintro ⟨hs, ht⟩
    rw [load_of_isValid hread hparse hs]
    exact withEnvironment_eq_ok_iff.2 ht
  · rw [load_of_isValid hread hparse hs, withEnvironment_of_violation hv]
  · rw [load_of_isValid hread hparse hs, load_of_isValid hread' hparse' ht]
    unfold withEnvironment
    rw [hagrees.overriddenBy_eq]

/-! ### A file with a number out of range -/

/-- The text of a file in which no artifact may be scanned at a time. -/
def idleText : String := "[scanner]\nmax_parallel_scans = 0\n"

def idleFiles : FileSystem where
  root := .folder [("apiscan.toml", .file 0)]
  current := []
  contents := #[(Bytes.ofText idleText).toByteArray]

def idleSettings : Settings :=
  { default with scan := { defaultScan with maxParallelScans := 0 } }

/-- A variable that says that two artifacts may be scanned at a time. -/
def pairEnvironment : Environment := fun name =>
  if name = "APISCAN_SCANNER_MAX_PARALLEL_SCANS" then some "2" else none

/-- The number in the file is what the failure is about. -/
theorem load_idle :
    idleFiles.readText ⟨"apiscan.toml"⟩ = .ok idleText ∧ Settings.parse? idleText = some idleSettings ∧
      load idleFiles pairEnvironment ⟨"apiscan.toml"⟩ =
        .error (.config (.invalidValue "scanner.max_parallel_scans" "must be 1-256")) := by
  have hread : idleFiles.readText ⟨"apiscan.toml"⟩ = .ok idleText := by decide +kernel
  have hparse : Settings.parse? idleText = some idleSettings := by decide +kernel
  refine ⟨hread, hparse, ?_⟩
  exact (@load_checks_both_layers idleFiles pairEnvironment ⟨"apiscan.toml"⟩ idleText idleSettings hread
    hparse).2.1 ⟨"scanner.max_parallel_scans", "must be 1-256"⟩ (by decide +kernel)

/-- It is not enough that the settings are valid with the variables over them: a number that a variable
takes the place of makes loading fail. -/
theorem not_load_iff_overridden_isValid :
    ¬ ∀ fs env path text s, FileSystem.readText fs path = .ok text → Settings.parse? text = some s →
      (s.overriddenBy env).IsValid → load fs env path = .ok (s.overriddenBy env) := by
  intro hall
  have hload := hall idleFiles pairEnvironment ⟨"apiscan.toml"⟩ idleText idleSettings (by decide +kernel)
    (by decide +kernel) (violation?_eq_none_iff.1 (by decide +kernel))
  have hfails : load idleFiles pairEnvironment ⟨"apiscan.toml"⟩ =
      .error (.config (.invalidValue "scanner.max_parallel_scans" "must be 1-256")) := by
    decide +kernel
  rw [hfails] at hload
  cases hload

end Settings

end ApiSurface
