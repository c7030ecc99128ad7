import ApiSurface.Proofs.Decl.Namespace
import ApiSurface.Scan.Universe

/-!
The surface of an artifact: which of the types that its entries declare are reported.

The entries are given by their contents, in the order in which they were found. Of two types with one
name the first counts; content that cannot be decoded declares nothing and hides nothing.
-/

namespace ApiSurface

namespace Scan

/-! ## Declarations -/

/-- The type that the content of an entry declares, if it can be decoded. -/
def declared? (content : Bytes) : Option TypeDecl :=
  (TypeDecl.ofBytes content).toOption

/-- The names that contents declare. -/
def declaredNames (contents : List Bytes) : List String :=
  (contents.filterMap declared?).map (·.name)

/-- The types that contents declare for the first time, where the names `seen` have been declared. -/
def declarations (seen : List String) : List Bytes → List TypeDecl
  | [] => []
  | content :: rest =>
    match declared? content with
    | some t => if t.name ∈ seen then declarations seen rest else t :: declarations (seen ++ [t.name]) rest
    | none => declarations seen rest

/-- The declarations that are not internal. -/
def surfaceAfter (marker : String) (seen : List String) (contents : List Bytes) : List TypeDecl :=
  (declarations seen contents).filter fun t => ¬IsInternalName marker t.name

/-- The types that are reported for an artifact whose entries have these contents. -/
def surface (marker : String) (contents : List Bytes) : List TypeDecl :=
  surfaceAfter marker [] contents

/-- An entry that adds nothing to the surface: it cannot be decoded, or it declares a type again, or the
type is internal. -/
def IsIdle (marker : String) (before : List Bytes) (content : Bytes) : Prop :=
  ∀ t, declared? content = some t → t.name ∈ declaredNames before ∨ IsInternalName marker t.name

variable {marker : String} {seen seen' : List String} {contents : List Bytes} {content : Bytes}
  {t : TypeDecl}

theorem declarations_undecodable (h : declared? content = none) (rest : List Bytes) :
    declarations seen (content :: rest) = declarations seen rest := by
  rw [declarations, h]

theorem declarations_known (h : declared? content = some t) (hseen : t.name ∈ seen)
    (rest : List Bytes) : declarations seen (content :: rest) = declarations seen rest := by
  rw [declarations, h]
  exact if_pos hseen

theorem declarations_new (h : declared? content = some t) (hnew : t.name ∉ seen) (rest : List Bytes) :
    declarations seen (content :: rest) = t :: declarations (seen ++ [t.name]) rest := by
  rw [declarations, h]
  exact if_neg hnew

/-- A type is declared when it is the first one of its name. -/
theorem mem_declarations : t ∈ declarations seen contents ↔
    t.name ∉ seen ∧ (contents.filterMap declared?).find? (·.name = t.name) = some t := by
  induction contents generalizing seen with
  | nil => simp [declarations]
  | cons content rest ih =>
    cases hdeclared : declared? content with
    | none => rw [declarations_undecodable hdeclared, ih, List.filterMap_cons_none hdeclared]
    | some first =>
      rw [List.filterMap_cons_some hdeclared]
      by_cases hseen : first.name ∈ seen
      · rw [declarations_known hdeclared hseen, ih]
        refine and_congr_right fun hnew => ?_
        have hother : first.name ≠ t.name := fun heq => hnew (heq ▸ hseen)
        rw [List.find?_cons_of_neg (by simpa using hother)]
      · rw [declarations_new hdeclared hseen, List.mem_cons, ih]
        by_cases hname : first.name = t.name
        · rw [List.find?_cons_of_pos (by simpa using hname)]
          simp [← hname, hseen, eq_comm]
        · have hother : t ≠ first := fun heq => hname (heq ▸ rfl)
          rw [List.find?_cons_of_neg (by simpa using hname)]
          simp [hother, Ne.symm hname]

theorem nodup_declarations : ((declarations seen contents).map (·.name)).Nodup := by
  induction contents generalizing seen with
  | nil => exact List.nodup_nil
  | cons content rest ih =>
    cases hdeclared : declared? content with
    | none => exact declarations_undecodable hdeclared rest ▸ ih
    | some first =>
      by_cases hseen : first.name ∈ seen
      · exact declarations_known hdeclared hseen rest ▸ ih
      · rw [declarations_new hdeclared hseen, List.map_cons, List.nodup_cons]
        refine ⟨fun hmem => ?_, ih⟩
        obtain ⟨t, ht, hname⟩ := List.mem_map.1 hmem
        exact (mem_declarations.1 ht).1 (by simp [hname])

theorem declarations_append (before after : List Bytes) : declarations seen (before ++ after) =
    declarations seen before
      ++ declarations (seen ++ (declarations seen before).map (·.name)) after := by
  induction before generalizing seen with
  | nil => simp [declarations]
  | cons content before ih =>
    rw [List.cons_append]
    cases hdeclared : declared? content with
    | none => rw [declarations_undecodable hdeclared, declarations_undecodable hdeclared, ih]
    | some first =>
      by_cases hseen : first.name ∈ seen
      · rw [declarations_known hdeclared hseen, declarations_known hdeclared hseen, ih]
      · rw [declarations_new hdeclared hseen, declarations_new hdeclared hseen, ih]
        simp

theorem mem_names_declarations {name : String} :
    name ∈ (declarations seen contents).map (·.name) ↔ name ∉ seen ∧ name ∈ declaredNames contents := by
  simp only [List.mem_map, mem_declarations, declaredNames]
  constructor
  · rintro ⟨t, ⟨hnew, hfind⟩, rfl⟩
    exact ⟨hnew, t, List.mem_of_find?_eq_some hfind, rfl⟩
  · rintro ⟨hnew, t, ht, rfl⟩
    cases hfind : (contents.filterMap declared?).find? (·.name = t.name) with
    | none => exact absurd (List.find?_eq_none.1 hfind t ht) (by simp)
    | some first =>
      have hname : first.name = t.name := by simpa using List.find?_some hfind
      exact ⟨first, ⟨by rwa [hname], by rwa [hname]⟩, hname⟩

/-- What earlier entries add comes first. -/
theorem surface_append (before after : List Bytes) : surface marker (before ++ after) =
    surface marker before ++ surfaceAfter marker ((declarations [] before).map (·.name)) after := by
  rw [surface, surfaceAfter, declarations_append, List.filter_append, List.nil_append]
  rfl

/-! ## Idle entries -/

/-- A type that is internal hides only names that are internal too. -/
theorem surfaceAfter_internal (h : declared? content = some t)
    (hinternal : IsInternalName marker t.name) (seen : List String) (rest : List Bytes) :
    ∃ seen', (∀ n, ¬IsInternalName marker n → (n ∈ seen' ↔ n ∈ seen)) ∧
      surfaceAfter marker seen (content :: rest) = surfaceAfter marker seen' rest := by
  by_cases hseen : t.name ∈ seen
  · exact ⟨seen, fun _ _ => Iff.rfl, by rw [surfaceAfter, declarations_known h hseen, surfaceAfter]⟩
  · refine ⟨seen ++ [t.name], fun n hn => ?_, ?_⟩
    · have hother : n ≠ t.name := fun heq => hn (heq ▸ hinternal)
      simp [hother]
    · rw [surfaceAfter, declarations_new h hseen, List.filter_cons_of_neg (by simpa using hinternal),
        surfaceAfter]

/-- Only the names seen that are not internal matter. -/
theorem surfaceAfter_congr (h : ∀ n, ¬IsInternalName marker n → (n ∈ seen ↔ n ∈ seen')) :
    surfaceAfter marker seen contents = surfaceAfter marker seen' contents := by
  induction contents generalizing seen seen' with
  | nil => rfl
  | cons content rest ih =>
    cases hdeclared : declared? content with
    | none =>
      have hrest := ih h
      rw [surfaceAfter, surfaceAfter] at hrest ⊢
      rwa [declarations_undecodable hdeclared, declarations_undecodable hdeclared]
    | some t =>
      by_cases hinternal : IsInternalName marker t.name
      · obtain ⟨more, hmore, heq⟩ := surfaceAfter_internal hdeclared hinternal seen rest
        obtain ⟨more', hmore', heq'⟩ := surfaceAfter_internal hdeclared hinternal seen' rest
        rw [heq, heq']
        exact ih fun n hn => ((hmore n hn).trans (h n hn)).trans (hmore' n hn).symm
      · have hiff := h t.name hinternal
        by_cases hseen : t.name ∈ seen
        · have hrest := ih h
          rw [surfaceAfter, surfaceAfter] at hrest ⊢
          rwa [declarations_known hdeclared hseen, declarations_known hdeclared (hiff.1 hseen)]
        · have hrest : surfaceAfter marker (seen ++ [t.name]) rest
              = surfaceAfter marker (seen' ++ [t.name]) rest := ih fun n hn => by simp [h n hn]
          rw [surfaceAfter, surfaceAfter] at hrest ⊢
          rw [declarations_new hdeclared hseen,
            declarations_new hdeclared fun hseen' => hseen (hiff.2 hseen'),
            List.filter_cons_of_pos (by simpa using hinternal),
            List.filter_cons_of_pos (by simpa using hinternal), hrest]

/-- An entry that is idle can be left out. -/
theorem surface_without_idle {before after : List Bytes} (h : IsIdle marker before content) :
    surface marker (before ++ content :: after) = surface marker (before ++ after) := by
  rw [surface_append, surface_append]
  congr 1
  cases hdeclared : declared? content with
  | none => rw [surfaceAfter, declarations_undecodable hdeclared, surfaceAfter]
  | some t =>
    obtain hseen | hinternal := h t hdeclared
    · have hknown : t.name ∈ (declarations [] before).map (·.name) :=
        mem_names_declarations.2 ⟨by simp, hseen⟩
      rw [surfaceAfter, declarations_known hdeclared hknown, surfaceAfter]
    · obtain ⟨more, hmore, heq⟩ := surfaceAfter_internal hdeclared hinternal _ after
      rw [heq]
      exact surfaceAfter_congr hmore

end Scan

end ApiSurface
