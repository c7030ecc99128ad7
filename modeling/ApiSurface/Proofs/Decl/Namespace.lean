import ApiSurface.Decl.Basic
import Mathlib.Data.List.TakeWhile

/-!
Internal packages, going by the names of the classes in them.
-/

namespace ApiSurface

/-- The segments of the package in the name of a class: all but the last part of the name. -/
def packageSegments (name : String) : List (List Char) :=
  (name.toList.splitOn '.').dropLast

/-- One of the segments of the package is the marker. -/
def IsInternalName (marker name : String) : Prop :=
  marker.toList ∈ packageSegments name

instance (marker name : String) : Decidable (IsInternalName marker name) :=
  inferInstanceAs (Decidable (_ ∈ _))

/-- A name is in no package, or consists of the package and of a last part behind a `.`. -/
theorem packageOf_cases (name : String) :
    ('.' ∉ name.toList ∧ TypeDecl.packageOf name = "") ∨
      ∃ last, '.' ∉ last ∧ name.toList = (TypeDecl.packageOf name).toList ++ '.' :: last := by
  let backwards := name.toList.reverse
  let last := backwards.takeWhile (· ≠ '.')
  have hlast : '.' ∉ last := fun h => by simpa using List.mem_takeWhile_imp h
  have hname : name.toList = (backwards.dropWhile (· ≠ '.')).reverse ++ last.reverse := by
    rw [← List.reverse_append, List.takeWhile_append_dropWhile, List.reverse_reverse]
  cases hfront : backwards.dropWhile (· ≠ '.') with
  | nil =>
    refine .inl ⟨?_, ?_⟩
    · rw [hname, hfront]
      simpa using hlast
    · rw [TypeDecl.packageOf, hfront]
      rfl
  | cons c front =>
    obtain rfl : c = '.' := by
      have hstop := List.head?_dropWhile_not (· ≠ '.') backwards
      rw [hfront] at hstop
      simpa using hstop
    refine .inr ⟨last.reverse, by simpa using hlast, ?_⟩
    rw [TypeDecl.packageOf, hfront, String.toList_ofList]
    rw [hname, hfront]
    simp

theorem packageSegments_eq (name : String) : packageSegments name =
    if '.' ∈ name.toList then (TypeDecl.packageOf name).toList.splitOn '.' else [] := by
  obtain ⟨hnone, -⟩ | ⟨last, hlast, hname⟩ := packageOf_cases name
  · rw [packageSegments, if_neg hnone, List.splitOn_eq_singleton hnone, List.dropLast_singleton]
  · rw [packageSegments, if_pos (by simp [hname]), hname, List.splitOn_append_cons_self,
      List.splitOn_eq_singleton hlast, List.dropLast_concat]

/-- The package is internal when one of its segments is the marker, which is not empty. -/
theorem isInternal_iff {marker : String} (hmarker : marker ≠ "") (t : TypeDecl) :
    t.isInternal marker = true ↔ IsInternalName marker t.name := by
  rw [IsInternalName, packageSegments_eq]
  simp only [TypeDecl.isInternal, isInternalPackage, TypeDecl.package, Bool.and_eq_true,
    Bool.not_eq_true', List.contains_iff_mem]
  obtain ⟨hnone, hpackage⟩ | ⟨last, -, hname⟩ := packageOf_cases t.name
  · simp [hnone, hpackage]
  · rw [if_pos (by rw [hname]; simp)]
    refine and_iff_right_of_imp fun hmem => ?_
    by_contra hempty
    have hpackage : TypeDecl.packageOf t.name = "" := by simpa using hempty
    rw [hpackage] at hmem
    exact hmarker (by simpa using hmem)

end ApiSurface
