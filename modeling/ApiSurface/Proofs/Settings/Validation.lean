import ApiSurface.Settings.Validation
import Mathlib.Data.List.Basic

/-!
Valid settings, said without an order of rules.

A check looks for the first rule that is broken. Here the rules stand side by side, and a check finds
nothing exactly when all of them hold.
-/

namespace ApiSurface

/-! ## Checks -/

theorem violationIf_eq_none_iff {broken : Bool} {field reason : String} :
    violationIf broken field reason = none ↔ broken = false := by
  cases broken <;> simp [violationIf]

theorem firstViolation_eq_none_iff {checks : List (Option Violation)} :
    firstViolation checks = none ↔ ∀ check ∈ checks, check = none := by
  simp [firstViolation, List.findSome?_eq_none_iff]

/-- A path of an artifact or of the classpath that a setting may hold. -/
def IsLocation (path : String) : Prop :=
  path ≠ "" ∧ path.utf8ByteSize ≤ maxPathLength

/-- A segment of a package name. -/
def IsMarker (marker : String) : Prop :=
  marker ≠ "" ∧ '.' ∉ marker.toList ∧ '/' ∉ marker.toList

/-- A path without a component that goes up. -/
def StaysBelow (path : String) : Prop :=
  .up ∉ (Path.mk path).components

theorem isEmpty_eq_false_iff {text : String} : text.isEmpty = false ↔ text ≠ "" := by
  rw [← Bool.not_eq_true, String.isEmpty_iff]

theorem isTooLong_eq_false_iff {path : String} :
    isTooLong path = false ↔ path.utf8ByteSize ≤ maxPathLength := by
  simp [isTooLong]

theorem goesUp_eq_false_iff {path : String} : goesUp path = false ↔ StaysBelow path := by
  simp [goesUp, StaysBelow]

theorem isCompound_eq_false_iff {marker : String} :
    isCompound marker = false ↔ '.' ∉ marker.toList ∧ '/' ∉ marker.toList := by
  simp only [isCompound, List.any_eq_false, Bool.or_eq_true, decide_eq_true_eq, not_or]
  constructor
  · intro h
    exact ⟨fun hmem => (h '.' hmem).1 rfl, fun hmem => (h '/' hmem).2 rfl⟩
  · rintro ⟨hdot, hslash⟩ c hc
    exact ⟨fun heq => hdot (heq ▸ hc), fun heq => hslash (heq ▸ hc)⟩

theorem outOfRange_eq_false_iff {n limit : Nat} :
    (n = 0 || limit < n) = false ↔ 1 ≤ n ∧ n ≤ limit := by
  simp only [Bool.or_eq_false_iff, decide_eq_false_iff_not]
  omega

/-! ## Settings of a file -/

structure GeneralSettings.IsValid (s : GeneralSettings) : Prop where
  logLevel : s.logLevel ∈ logLevels
  logFormat : s.logFormat ∈ logFormats

namespace GeneralSettings

theorem choiceViolation_eq_none_iff {field : String} {words : List String} {value : String} :
    choiceViolation field words value = none ↔ value ∈ words := by
  simp [choiceViolation, violationIf_eq_none_iff]

theorem violation?_eq_none_iff {s : GeneralSettings} : s.violation? = none ↔ s.IsValid := by
  unfold violation?
  simp only [firstViolation_eq_none_iff, List.forall_mem_cons, List.not_mem_nil, false_implies,
    implies_true, choiceViolation_eq_none_iff, and_true]
  exact ⟨fun h => ⟨h.1, h.2⟩, fun h => ⟨h.logLevel, h.logFormat⟩⟩

end GeneralSettings

structure ScanSettings.IsValid (s : ScanSettings) : Prop where
  outputDir_ne : s.outputDir ≠ ""
  outputDir_staysBelow : StaysBelow s.outputDir
  outputDir_short : s.outputDir.utf8ByteSize ≤ maxPathLength
  internalMarker : IsMarker s.internalMarker
  maxParallelScans : 1 ≤ s.maxParallelScans ∧ s.maxParallelScans ≤ maxParallelScansLimit
  artifacts : ∀ path ∈ s.artifacts, IsLocation path
  classpath : ∀ path ∈ s.classpath, IsLocation path

namespace ScanSettings

theorem locationViolation_eq_none_iff {field path : String} :
    locationViolation field path = none ↔ IsLocation path := by
  simp only [locationViolation, firstViolation_eq_none_iff, List.forall_mem_cons, List.not_mem_nil,
    false_implies, implies_true, violationIf_eq_none_iff, isEmpty_eq_false_iff, isTooLong_eq_false_iff,
    and_true, IsLocation]

theorem violation?_eq_none_iff {s : ScanSettings} : s.violation? = none ↔ s.IsValid := by
  unfold violation?
  simp only [firstViolation_eq_none_iff, List.forall_mem_append, List.forall_mem_cons, List.not_mem_nil,
    false_implies, implies_true, List.forall_mem_map, locationViolation_eq_none_iff,
    violationIf_eq_none_iff, isEmpty_eq_false_iff, goesUp_eq_false_iff, isTooLong_eq_false_iff,
    isCompound_eq_false_iff, outOfRange_eq_false_iff, and_true]
  constructor
  · rintro ⟨⟨⟨hne, hbelow, hshort, hmarker, hsegment, hparallel⟩, hartifacts⟩, hclasspath⟩
    exact ⟨hne, hbelow, hshort, ⟨hmarker, hsegment⟩, hparallel, hartifacts, hclasspath⟩
  · intro h
    exact ⟨⟨⟨h.outputDir_ne, h.outputDir_staysBelow, h.outputDir_short, h.internalMarker.1,
      h.internalMarker.2, h.maxParallelScans⟩, h.artifacts⟩, h.classpath⟩

end ScanSettings

structure Settings.IsValid (s : Settings) : Prop where
  general : s.general.IsValid
  scan : s.scan.IsValid

namespace Settings

theorem violation?_eq_none_iff {s : Settings} : s.violation? = none ↔ s.IsValid := by
  unfold violation?
  simp only [firstViolation_eq_none_iff, List.forall_mem_cons, List.not_mem_nil, false_implies,
    implies_true, GeneralSettings.violation?_eq_none_iff, ScanSettings.violation?_eq_none_iff, and_true]
  exact ⟨fun h => ⟨h.1, h.2⟩, fun h => ⟨h.general, h.scan⟩⟩

theorem validate_of_violation {s : Settings} {v : Violation} (h : s.violation? = some v) :
    s.validate = .error v.toFailure := by
  unfold validate
  rw [h]

theorem validate_eq_ok_iff {s : Settings} : s.validate = .ok () ↔ s.IsValid := by
  rw [← violation?_eq_none_iff]
  unfold validate
  cases s.violation? <;> simp

end Settings

/-! ## Settings of a scanner -/

structure ScannerSettings.IsValid (s : ScannerSettings) : Prop where
  outputDir_ne : s.outputDir ≠ ""
  outputDir_staysBelow : StaysBelow s.outputDir
  internalMarker : IsMarker s.internalMarker
  maxParallelScans : 1 ≤ s.maxParallelScans ∧ s.maxParallelScans ≤ maxParallelScansLimit
  maxClassFileSize : 1 ≤ s.maxClassFileSize ∧ s.maxClassFileSize ≤ maxClassFileSizeLimit
  artifacts : ∀ path ∈ s.artifacts, IsLocation path
  classpath : ∀ path ∈ s.classpath, IsLocation path

namespace ScannerSettings

theorem locationViolation_eq_none_iff {field path : String} :
    locationViolation field path = none ↔ IsLocation path := by
  simp only [locationViolation, firstViolation_eq_none_iff, List.forall_mem_cons, List.not_mem_nil,
    false_implies, implies_true, violationIf_eq_none_iff, isEmpty_eq_false_iff, isTooLong_eq_false_iff,
    and_true, IsLocation]

theorem violation?_eq_none_iff {s : ScannerSettings} : s.violation? = none ↔ s.IsValid := by
  unfold violation?
  simp only [firstViolation_eq_none_iff, List.forall_mem_append, List.forall_mem_cons, List.not_mem_nil,
    false_implies, implies_true, List.forall_mem_map, locationViolation_eq_none_iff,
    violationIf_eq_none_iff, Bool.or_eq_false_iff (x := String.isEmpty _), isEmpty_eq_false_iff,
    goesUp_eq_false_iff, isCompound_eq_false_iff, outOfRange_eq_false_iff, and_true]
  constructor
  · rintro ⟨⟨⟨hne, hbelow, hmarker, hparallel, hsize⟩, hartifacts⟩, hclasspath⟩
    exact ⟨hne, hbelow, hmarker, hparallel, hsize, hartifacts, hclasspath⟩
  · intro h
    exact ⟨⟨⟨h.outputDir_ne, h.outputDir_staysBelow, h.internalMarker, h.maxParallelScans,
      h.maxClassFileSize⟩, h.artifacts⟩, h.classpath⟩

theorem validate_eq_ok_iff {s : ScannerSettings} : s.validate = .ok () ↔ s.IsValid := by
  rw [← violation?_eq_none_iff]
  unfold validate
  cases s.violation? <;> simp

/-- A check of scanner settings fails as a matter of the settings. -/
theorem validate_eq_error {s : ScannerSettings} {e : ScanError} (h : s.validate = .error e) :
    ∃ field reason, e = .config field reason := by
  unfold validate at h
  split at h
  · rename_i v _
    exact ⟨v.field, v.reason, (Except.error.inj h).symm⟩
  · cases h

end ScannerSettings

end ApiSurface
