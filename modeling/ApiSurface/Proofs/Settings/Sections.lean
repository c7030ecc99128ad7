import ApiSurface.Proofs.Settings.Validation
import ApiSurface.Proofs.Text.OsString

/-!
The rules for the scan, checked twice.

The settings of a file and those of a scanner that takes them over have a check each, with the same rules
in the same order and words of their own. The check of a file has one rule more: the path of the folder
for the reports must not be too long. But for that rule both checks name the same setting.
-/

namespace ApiSurface

/-! ## Checks that name the same setting -/

/-- What is found in a file and in the settings of a scanner is about the same setting, or nothing is
found in either. -/
def Violation.IsAlike (inFile inScanner : Option Violation) : Prop :=
  inFile.map (·.field) = inScanner.map fun v => "scanner." ++ v.field

namespace Violation.IsAlike

variable {v v' w w' : Option Violation}

theorem none : IsAlike none none := rfl

theorem violationIf (broken : Bool) (field reason reason' : String) :
    IsAlike (violationIf broken ("scanner." ++ field) reason) (violationIf broken field reason') := by
  cases broken <;> rfl

/-- What is found first, or else what is found next. -/
theorem or (h : IsAlike v v') (h' : IsAlike w w') : IsAlike (v.or w) (v'.or w') := by
  unfold IsAlike at h h' ⊢
  cases v <;> cases v' <;> simp_all

end Violation.IsAlike

theorem firstViolation_nil : firstViolation [] = none := rfl

theorem firstViolation_cons (check : Option Violation) (rest : List (Option Violation)) :
    firstViolation (check :: rest) = check.or (firstViolation rest) := by
  unfold firstViolation
  cases check <;> rfl

theorem firstViolation_append (front back : List (Option Violation)) :
    firstViolation (front ++ back) = (firstViolation front).or (firstViolation back) := by
  simp [firstViolation, List.findSome?_append]

/-! ## Errors -/

theorem ScannerSettings.exists_validate_eq_error_iff {s : ScannerSettings} {field : String} :
    (∃ reason, s.validate = .error (.config field reason)) ↔ s.violation?.map (·.field) = some field := by
  unfold ScannerSettings.validate
  cases s.violation? <;> simp

/-! ## Paths -/

namespace ScanSettings

theorem isAlike_locationViolation (field path : String) :
    Violation.IsAlike (locationViolation ("scanner." ++ field) path)
      (ScannerSettings.locationViolation field path) := by
  unfold locationViolation ScannerSettings.locationViolation
  simp only [firstViolation_cons]
  exact (Violation.IsAlike.violationIf ..).or ((Violation.IsAlike.violationIf ..).or .none)

theorem isAlike_locations (field : String) (paths : List String) :
    Violation.IsAlike (firstViolation (paths.map (locationViolation ("scanner." ++ field))))
      (firstViolation (paths.map (ScannerSettings.locationViolation field))) := by
  induction paths with
  | nil => exact .none
  | cons path rest ih =>
    simp only [List.map_cons, firstViolation_cons]
    exact (isAlike_locationViolation field path).or ih

/-! ## Settings -/

/-- The path of the folder for the reports breaks no rule but that it is too long. -/
structure HasLongFolder (s : ScanSettings) : Prop where
  ne : s.outputDir ≠ ""
  staysBelow : StaysBelow s.outputDir
  long : maxPathLength < s.outputDir.utf8ByteSize

variable {s : ScanSettings}

theorem violation?_of_hasLongFolder (h : s.HasLongFolder) :
    s.violation? = some ⟨"scanner.output_dir", s!"exceeds maximum length {maxPathLength}"⟩ := by
  have hne := isEmpty_eq_false_iff.2 h.ne
  have hbelow := goesUp_eq_false_iff.2 h.staysBelow
  have hlong : isTooLong s.outputDir = true := decide_eq_true h.long
  simp [violation?, firstViolation_cons, hne, hbelow, hlong, violationIf]

/-- The rules for the folder, of which a file has one more. -/
theorem isAlike_folder (h : ¬ s.HasLongFolder) :
    Violation.IsAlike
      (firstViolation [
        violationIf s.outputDir.isEmpty "scanner.output_dir" "must not be empty",
        violationIf (goesUp s.outputDir) "scanner.output_dir" "contains path traversal pattern '..'",
        violationIf (isTooLong s.outputDir) "scanner.output_dir"
          s!"exceeds maximum length {maxPathLength}"])
      (firstViolation [
        violationIf s.outputDir.isEmpty "output_dir" "must not be empty",
        violationIf (goesUp s.outputDir) "output_dir" "contains path traversal pattern '..'"]) := by
  cases hempty : s.outputDir.isEmpty with
  | true => rfl
  | false =>
    cases hup : goesUp s.outputDir with
    | true => rfl
    | false =>
      have hshort : isTooLong s.outputDir = false := by
        rw [isTooLong_eq_false_iff]
        by_contra hlong
        exact h ⟨isEmpty_eq_false_iff.1 hempty, goesUp_eq_false_iff.1 hup, Nat.lt_of_not_le hlong⟩
      rw [hshort]
      rfl

/-- The rules for the name of internal packages, which are one rule in the settings of a scanner. -/
theorem isAlike_marker (marker : String) :
    Violation.IsAlike
      (firstViolation [
        violationIf marker.isEmpty "scanner.internal_marker" "must not be empty",
        violationIf (isCompound marker) "scanner.internal_marker"
          "must be a single package segment (no '.' or '/')"])
      (firstViolation [
        violationIf (marker.isEmpty || isCompound marker) "internal_marker"
          "must be a single non-empty package segment"]) := by
  cases marker.isEmpty <;> cases isCompound marker <;> rfl

theorem isAlike_violation? (h : ¬ s.HasLongFolder) :
    Violation.IsAlike s.violation? (ScannerSettings.ofScan s).violation? := by
  have hfolder := isAlike_folder h
  have hmarker := isAlike_marker s.internalMarker
  have hparallel : Violation.IsAlike
      (violationIf (s.maxParallelScans = 0 || maxParallelScansLimit < s.maxParallelScans)
        "scanner.max_parallel_scans" s!"must be 1-{maxParallelScansLimit}")
      (violationIf (s.maxParallelScans = 0 || maxParallelScansLimit < s.maxParallelScans)
        "max_parallel_scans" s!"must be 1-{maxParallelScansLimit}") :=
    .violationIf _ "max_parallel_scans" _ _
  have hsize (reason : String) : violationIf ((ScannerSettings.ofScan s).maxClassFileSize = 0 ||
      maxClassFileSizeLimit < (ScannerSettings.ofScan s).maxClassFileSize) "max_class_file_size" reason = none :=
    rfl
  have hartifacts : Violation.IsAlike (firstViolation (s.artifacts.map (locationViolation "scanner.artifacts")))
      (firstViolation (s.artifacts.map (ScannerSettings.locationViolation "artifacts"))) :=
    isAlike_locations "artifacts" s.artifacts
  have hclasspath : Violation.IsAlike (firstViolation (s.classpath.map (locationViolation "scanner.classpath")))
      (firstViolation (s.classpath.map (ScannerSettings.locationViolation "classpath"))) :=
    isAlike_locations "classpath" s.classpath
  have hrules := hfolder.or (hmarker.or (hparallel.or (hartifacts.or hclasspath)))
  unfold violation? ScannerSettings.violation?
  simp only [List.cons_append, List.nil_append, firstViolation_nil, firstViolation_cons,
    firstViolation_append, hsize, Option.or_assoc, Option.none_or] at hrules ⊢
  exact hrules

/-! ## Both checks -/

theorem validate_eq_ok_iff : s.validate = .ok () ↔ s.IsValid := by
  rw [← violation?_eq_none_iff]
  unfold validate
  cases s.violation? <;> simp

theorem isValid_iff_ofScan :
    s.IsValid ↔ (ScannerSettings.ofScan s).IsValid ∧ s.outputDir.utf8ByteSize ≤ maxPathLength := by
  constructor
  · intro h
    have hsize : 1 ≤ ScannerSettings.defaultMaxClassFileSize ∧
        ScannerSettings.defaultMaxClassFileSize ≤ maxClassFileSizeLimit := by decide
    exact ⟨⟨h.outputDir_ne, h.outputDir_staysBelow, h.internalMarker, h.maxParallelScans, hsize, h.artifacts,
      h.classpath⟩, h.outputDir_short⟩
  · rintro ⟨h, hshort⟩
    exact ⟨h.outputDir_ne, h.outputDir_staysBelow, hshort, h.internalMarker, h.maxParallelScans, h.artifacts,
      h.classpath⟩

theorem exists_validate_eq_error_iff {field : String} :
    (∃ reason, s.validate = .error (.config (.invalidValue field reason))) ↔
      s.violation?.map (·.field) = some field := by
  unfold validate
  cases s.violation? <;> simp [Violation.toFailure]

/-- **The section of a file and the settings that a scanner takes from it are checked alike, but for one
rule.** A section is valid exactly when the settings taken from it are valid and the path of the folder
for the reports is not too long. Where this path breaks that rule and no other one, it is what the check
of the section names. Otherwise both checks name the same setting. -/
theorem validate_section (s : ScanSettings) :
    (s.validate = .ok () ↔ (ScannerSettings.ofScan s).validate = .ok () ∧
      s.outputDir.utf8ByteSize ≤ maxPathLength) ∧
    (s.HasLongFolder → s.validate = .error
      (.config (.invalidValue "scanner.output_dir" s!"exceeds maximum length {maxPathLength}"))) ∧
    (¬ s.HasLongFolder → ∀ field,
      (∃ reason, s.validate = .error (.config (.invalidValue ("scanner." ++ field) reason))) ↔
        ∃ reason, (ScannerSettings.ofScan s).validate = .error (.config field reason)) := by
  refine ⟨?valid, fun hlong => ?long, fun hfolder field => ?field⟩
  case valid =>
    rw [validate_eq_ok_iff, isValid_iff_ofScan, ScannerSettings.validate_eq_ok_iff]
  case long =>
    unfold validate
    rw [violation?_of_hasLongFolder hlong]
    rfl
  case field =>
    have halike := isAlike_violation? hfolder
    unfold Violation.IsAlike at halike
    rw [exists_validate_eq_error_iff, ScannerSettings.exists_validate_eq_error_iff, halike]
    cases (ScannerSettings.ofScan s).violation? <;> simp

/-! ### A long name -/

theorem staysBelow_of_noSlash {path : String} (h : '/' ∉ path.toList) (hup : path ≠ "..") : StaysBelow path := by
  have hslash : OsString.slash ∉ (OsString.ofText path).toList := by rwa [OsString.slash_mem_ofText_iff]
  have hrelative : (Path.mk path).isAbsolute = false :=
    decide_eq_false fun hhead => hslash (List.mem_of_mem_head? hhead)
  have hsegments : (Path.mk path).segments = [OsString.ofText path] := by
    rw [Path.segments, List.splitOn_eq_singleton hslash, List.map_singleton, OsString.ofList_toList]
  unfold StaysBelow Path.components
  rw [hrelative, hsegments]
  simp [Path.componentOf?, hup]

theorem utf8ByteSize_replicate (n : Nat) (c : Char) :
    (String.ofList (List.replicate n c)).utf8ByteSize = n * c.utf8Size := by
  induction n with
  | zero => simp
  | succ n ih =>
    rw [List.replicate_succ, String.ofList_cons, String.utf8ByteSize_append, String.utf8ByteSize_singleton, ih,
      Nat.succ_mul, Nat.add_comm]

/-- A folder whose name is one byte too long. -/
def longNamed : ScanSettings :=
  { Settings.defaultScan with outputDir := String.ofList (List.replicate (maxPathLength + 1) 'a') }

theorem hasLongFolder_longNamed : longNamed.HasLongFolder := by
  have hsize : longNamed.outputDir.utf8ByteSize = maxPathLength + 1 := utf8ByteSize_replicate _ 'a'
  have hletters : ∀ c ∈ longNamed.outputDir.toList, c = 'a' := by
    intro c hc
    rw [longNamed, String.toList_ofList] at hc
    exact List.eq_of_mem_replicate hc
  refine ⟨fun hempty => ?_, staysBelow_of_noSlash (fun hslash => ?_) fun hup => ?_, by omega⟩
  · rw [hempty] at hsize
    cases hsize
  · exact absurd (hletters '/' hslash) (by decide)
  · exact absurd (hletters '.' (by rw [hup]; decide)) (by decide)

/-- The section is refused for the long name. Another section is refused for the number of scans, as are
the settings taken from it. -/
theorem validate_section_longNamed :
    longNamed.HasLongFolder ∧ longNamed.validate =
      .error (.config (.invalidValue "scanner.output_dir" "exceeds maximum length 4096")) ∧
    ∃ reason, ScanSettings.validate { Settings.defaultScan with maxParallelScans := 0 } =
      .error (.config (.invalidValue ("scanner." ++ "max_parallel_scans") reason)) := by
  have hshort : ¬ HasLongFolder { Settings.defaultScan with maxParallelScans := 0 } :=
    fun h => absurd h.long (by decide +kernel)
  exact ⟨hasLongFolder_longNamed, (validate_section longNamed).2.1 hasLongFolder_longNamed,
    ((validate_section _).2.2 hshort "max_parallel_scans").2 ⟨"must be 1-256", by decide +kernel⟩⟩

/-- Settings may be valid for a scanner in whose file they are not. -/
theorem not_validate_iff_ofScan :
    ¬ ∀ s : ScanSettings, s.validate = .ok () ↔ (ScannerSettings.ofScan s).validate = .ok () := by
  intro hall
  have hmarker : IsMarker longNamed.internalMarker := ⟨by decide, by decide, by decide⟩
  have hvalid : (ScannerSettings.ofScan longNamed).IsValid :=
    ⟨hasLongFolder_longNamed.ne, hasLongFolder_longNamed.staysBelow, hmarker, by decide, by decide,
      List.forall_mem_nil _, List.forall_mem_nil _⟩
  have hsection := validate_eq_ok_iff.1 ((hall longNamed).2 (ScannerSettings.validate_eq_ok_iff.2 hvalid))
  exact absurd hsection.outputDir_short (Nat.not_le.2 hasLongFolder_longNamed.long)

end ScanSettings

end ApiSurface
