import ApiSurface.Proofs.Scan.Classpath

/-!
A classpath that grows at its end.

Every search goes to the first location that has an entry, and a location that is put behind the others is
not the first one for a name that led somewhere before. So what has been found is found again, and a
report that could be made can still be made. What leads to nothing may lead to something now.
-/

namespace ApiSurface

open Scan

variable {fs : FileSystem} {max : Nat} {artifact : Path} {classpath extra : List Path}
  {u u' v v' : Universe} {name : String}

namespace Universe

/-! ## Questions -/

/-- What a universe becomes by questions: for types, and for the supertypes of a type. -/
inductive IsAsked (fs : FileSystem) (u : Universe) : Universe → Prop
  | fresh : IsAsked fs u u
  | load {v : Universe} (name : String) (h : IsAsked fs u v) : IsAsked fs u (v.load fs name).2
  | check {v : Universe} (strict : Bool) (t : TypeDecl) (h : IsAsked fs u v) :
      IsAsked fs u (v.checkSupertypes fs strict t).2

/-- An artifact's own type is always at hand. -/
theorem load_of_artifactType? {t : TypeDecl} (h : u.artifactType? name = some t) :
    u.load fs name = (.ok (some t), u) := by
  rw [load, h]

theorem IsVisitOf.loaded (h : IsVisitOf fs u v) (name : String) :
    IsVisitOf fs u (v.load fs name).2 := by
  cases hartifact : u.artifactType? name with
  | none => exact (h.load hartifact).2
  | some t => rwa [load_of_artifactType? ((h.artifactType? name).trans hartifact)]

theorem IsVisitOf.searched (h : IsVisitOf fs u v) (strict : Bool) (names : List String) :
    IsVisitOf fs u (v.unresolvedAmong fs strict names).2 := by
  induction names generalizing v with
  | nil => exact h
  | cons name rest ih =>
    have hloaded := h.loaded name
    rw [Universe.unresolvedAmong]
    split
    · exact ih h
    · cases hload : v.load fs name with
      | mk result visited =>
        rw [hload] at hloaded
        rcases result with e | _ | t
        · cases strict
          · exact ih hloaded
          · exact hloaded
        · cases strict
          · exact ih hloaded
          · exact hloaded
        · exact ih hloaded

theorem IsVisitOf.checked (h : IsVisitOf fs u v) (strict : Bool) (t : TypeDecl) :
    IsVisitOf fs u (v.checkSupertypes fs strict t).2 := by
  have hsearched := h.searched strict t.supertypes
  rw [Universe.checkSupertypes]
  cases hsearch : v.unresolvedAmong fs strict t.supertypes with
  | mk found visited =>
    rw [hsearch] at hsearched
    cases found <;> exact hsearched

theorem IsAsked.isVisitOf (h : IsAsked fs u v) (hfresh : u.answers = []) : IsVisitOf fs u v := by
  induction h with
  | fresh => exact isVisitOf_refl hfresh
  | load name _ ih => exact ih.loaded name
  | check strict t _ ih => exact ih.checked strict t

/-! ## More locations -/

/-- `u'` knows what `u` knows, and has more locations behind those of `u`. -/
structure IsExtendedBy (u u' : Universe) : Prop where
  artifact : u'.artifact = u.artifact
  definitions : u'.definitions = u.definitions
  maxClassFileSize : u'.maxClassFileSize = u.maxClassFileSize
  dependencies : u.dependencies <+: u'.dependencies

theorem dependenciesOf_append (fs : FileSystem) (classpath extra : List Path) :
    dependenciesOf fs (classpath ++ extra) =
      (dependenciesOf fs classpath).bind fun front =>
        (dependenciesOf fs extra).map fun back => front ++ back := by
  rw [dependenciesOf, List.filter_append, List.mapM_append]
  rfl

/-- Locations that open, put behind a classpath that opens, extend the universe. -/
theorem resolve_append (h : resolve fs max ⟨artifact, classpath⟩ = .ok u) (hextra : Opens fs extra) :
    ∃ u', resolve fs max ⟨artifact, classpath ++ extra⟩ = .ok u' ∧ u.IsExtendedBy u' ∧
      u.answers = [] ∧ u'.answers = [] := by
  obtain ⟨back, hback⟩ := dependenciesOf_eq_ok hextra
  rw [resolve_eq] at h ⊢
  cases hdefinitions : definitionsAt fs max artifact with
  | error e => rw [hdefinitions] at h; cases h
  | ok definitions =>
    cases hfront : dependenciesOf fs classpath with
    | error e => rw [hdefinitions, hfront] at h; cases h
    | ok front =>
      rw [hdefinitions, hfront] at h
      obtain rfl := Except.ok.inj h
      refine ⟨⟨artifact, definitions, front ++ back, [], max⟩, ?_,
        ⟨rfl, rfl, rfl, List.prefix_append front back⟩, rfl, rfl⟩
      simp only [dependenciesOf_append, hfront, hback]
      rfl

namespace IsExtendedBy

theorem artifactType? (h : u.IsExtendedBy u') (name : String) :
    u'.artifactType? name = u.artifactType? name := by
  rw [Universe.artifactType?, Universe.artifactType?, h.definitions]

theorem reported (h : u.IsExtendedBy u') (marker : String) : u'.reported marker = u.reported marker := by
  rw [Universe.reported, Universe.reported, h.definitions]

/-- The first location that has an entry stays the first. -/
theorem holder? (h : u.IsExtendedBy u') {c : Container} (hholder : u.holder? fs name = some c) :
    u'.holder? fs name = some c := by
  obtain ⟨back, hdependencies⟩ := h.dependencies
  rw [Universe.holder?] at hholder ⊢
  rw [← hdependencies, List.find?_append, hholder]
  rfl

theorem origin? (h : u.IsExtendedBy u') {origin : TypeOrigin}
    (horigin : u.origin? fs name = some origin) : u'.origin? fs name = some origin := by
  rw [Universe.origin?] at horigin ⊢
  rw [h.artifactType?]
  split at horigin
  · next hartifact => rwa [if_pos hartifact]
  · next hartifact =>
    obtain ⟨c, hholder, rfl⟩ := Option.map_eq_some_iff.1 horigin
    rw [if_neg hartifact, h.holder? hholder]
    rfl

/-- A type that has been found is found in the same place, so it is the same type. -/
theorem lookUp (h : u.IsExtendedBy u') {t : TypeDecl} (ht : (u.lookUp fs name).1 = .ok (some t)) :
    (u'.lookUp fs name).1 = .ok (some t) := by
  rw [Universe.lookUp] at ht ⊢
  simp only [readFirst_eq, h.maxClassFileSize] at ht ⊢
  cases hholder : u.holder? fs name with
  | none =>
    rw [Universe.holder?] at hholder
    rw [hholder] at ht
    cases ht
  | some c =>
    have hholder' := h.holder? hholder
    rw [Universe.holder?] at hholder hholder'
    rw [hholder] at ht
    rw [hholder']
    exact ht

theorem not_isUnresolved (h : u.IsExtendedBy u') (hname : ¬ IsUnresolved fs u name) :
    ¬ IsUnresolved fs u' name := by
  rintro ⟨hplatform, hartifact, hclass⟩
  rw [h.definitions] at hartifact
  refine hname ⟨hplatform, hartifact, fun hfound => hclass ?_⟩
  obtain ⟨t, ht⟩ := hasClass_iff.1 hfound
  exact hasClass_iff.2 ⟨t, h.lookUp ht⟩

/-- Whatever has been asked before, a type that is loaded from the one is loaded from the other. -/
theorem load (h : u.IsExtendedBy u') (hv : IsVisitOf fs u v) (hv' : IsVisitOf fs u' v') {t : TypeDecl}
    (hload : (v.load fs name).1 = .ok (some t)) : (v'.load fs name).1 = .ok (some t) := by
  cases hartifact : u.artifactType? name with
  | some own =>
    rw [load_of_artifactType? ((hv.artifactType? name).trans hartifact)] at hload
    have hartifact' := ((hv'.artifactType? name).trans (h.artifactType? name)).trans hartifact
    rwa [load_of_artifactType? hartifact']
  | none =>
    rw [(hv.load hartifact).1] at hload
    rw [(hv'.load ((h.artifactType? name).trans hartifact)).1]
    exact h.lookUp hload

end IsExtendedBy

/-- Questions change no answer about where a type is defined. -/
theorem IsVisitOf.origin? (h : IsVisitOf fs u v) (name : String) :
    v.origin? fs name = u.origin? fs name := by
  have hholder : ∀ {cs cs' : List Container}, List.Forall₂ (Container.IsVisitOf fs) cs cs' →
      (cs'.find? (·.contains fs (EntryName.ofBinaryName name))).map Container.path =
        (cs.find? (·.contains fs (EntryName.ofBinaryName name))).map Container.path := by
    intro cs cs' hcs
    induction hcs with
    | nil => rfl
    | @cons c c' rest rest' hc _ ih =>
      rw [List.find?_cons, List.find?_cons, hc.contains]
      split
      · cases hc <;> rfl
      · exact ih
  have hpath := congrArg (Option.map TypeOrigin.dependency) (hholder h.dependencies)
  rw [Option.map_map, Option.map_map] at hpath
  rw [Universe.origin?, Universe.origin?, h.artifactType?, Universe.holder?, Universe.holder?]
  exact congrArg _ hpath

end Universe

namespace Scan

variable {s : ScannerSettings}

/-- **A classpath that grows at its end breaks no scan.** The report stays the same, and so does every type
that can be loaded and every place where a type is found, whatever has been asked in between. -/
theorem scan_append_classpath (hextra : Opens fs extra) :
    (∀ report, ApiSurface.scan fs s ⟨artifact, classpath⟩ = .ok report →
      ApiSurface.scan fs s ⟨artifact, classpath ++ extra⟩ = .ok report) ∧
    ∀ max u, Universe.resolve fs max ⟨artifact, classpath⟩ = .ok u →
      ∃ u', Universe.resolve fs max ⟨artifact, classpath ++ extra⟩ = .ok u' ∧
        ∀ v v', u.IsAsked fs v → u'.IsAsked fs v' → ∀ name,
          (∀ t, (v.load fs name).1 = .ok (some t) → (v'.load fs name).1 = .ok (some t)) ∧
          ∀ origin, v.origin? fs name = some origin → v'.origin? fs name = some origin := by
  refine ⟨fun report hscan => ?_, fun max u hresolve => ?_⟩
  · cases hresolve : Universe.resolve fs s.maxClassFileSize ⟨artifact, classpath⟩ with
    | error e =>
      rw [scan_of_resolve_error hresolve] at hscan
      cases hscan
    | ok u =>
      obtain ⟨u', hresolve', hextended, hfresh, hfresh'⟩ := Universe.resolve_append hresolve hextra
      rw [scan_of_resolve_ok hresolve] at hscan
      rw [scan_of_resolve_ok hresolve', hextended.reported]
      cases hstrict : s.strictResolution with
      | false =>
        rw [blocks_lenient hstrict] at hscan ⊢
        exact hscan
      | true =>
        rw [blocks_strict hstrict _ (Universe.isVisitOf_refl hfresh)] at hscan
        rw [blocks_strict hstrict _ (Universe.isVisitOf_refl hfresh')]
        cases hfirst : u.firstUnresolved? fs (u.reported s.internalMarker) with
        | some found => rw [hfirst] at hscan; cases hscan
        | none =>
          have hnone := Universe.firstUnresolved?_eq_none.1 hfirst
          have hnone' : u'.firstUnresolved? fs (u.reported s.internalMarker) = none :=
            Universe.firstUnresolved?_eq_none.2 fun t ht name hname =>
              hextended.not_isUnresolved (hnone t ht name hname)
          rw [hfirst] at hscan
          rw [hnone']
          exact hscan
  · obtain ⟨u', hresolve', hextended, hfresh, hfresh'⟩ := Universe.resolve_append hresolve hextra
    refine ⟨u', hresolve', fun v v' hasked hasked' name => ⟨fun t hload => ?_, fun origin horigin => ?_⟩⟩
    · exact hextended.load (hasked.isVisitOf hfresh) (hasked'.isVisitOf hfresh') hload
    · rw [(hasked.isVisitOf hfresh).origin?] at horigin
      rw [(hasked'.isVisitOf hfresh').origin?]
      exact hextended.origin? horigin

/-- The class `B` without members and without a superclass. -/
def parentClass : Bytes :=
  [0xCA, 0xFE, 0xBA, 0xBE, 0, 0, 0, 61, 0, 3, 7, 0, 2, 1, 0, 1, 66, 0, 0x21, 0, 1, 0, 0,
    0, 0, 0, 0, 0, 0, 0, 0]

/-- The class `A` in one folder and its superclass in another. -/
def adoptedFiles : FileSystem where
  root := .folder [("classes", .folder [("A.class", .file 0)]), ("lib", .folder [("B.class", .file 1)])]
  current := []
  contents := #[orphanClass.toByteArray, parentClass.toByteArray]

theorem scan_append_adopted :
    Opens adoptedFiles [⟨"missing.jar"⟩, ⟨"classes"⟩] ∧
    ApiSurface.scan adoptedFiles (sampleSettings.withStrict true)
        ⟨⟨"classes"⟩, [⟨"lib"⟩] ++ [⟨"missing.jar"⟩, ⟨"classes"⟩]⟩
      = .ok ⟨"classes", [⟨.type, "class A extends B"⟩]⟩ ∧
    ∃ u', Universe.resolve adoptedFiles 1024
        ⟨⟨"classes"⟩, [⟨"lib"⟩] ++ [⟨"missing.jar"⟩, ⟨"classes"⟩]⟩ = .ok u' ∧
      u'.origin? adoptedFiles "B" = some (.dependency ⟨"lib"⟩) ∧
      ∃ t, t.name = "B" ∧ (u'.load adoptedFiles "B").1 = .ok (some t) := by
  have hmissing : adoptedFiles.has ⟨"missing.jar"⟩ = false := by decide +kernel
  have hclasses : Container.ofPath adoptedFiles ⟨"classes"⟩ = .ok (.folder ⟨"classes"⟩) := by
    decide +kernel
  have hopens : Opens adoptedFiles [⟨"missing.jar"⟩, ⟨"classes"⟩] := by
    simp [Opens, hmissing, hclasses]
  have hscan : ApiSurface.scan adoptedFiles (sampleSettings.withStrict true) ⟨⟨"classes"⟩, [⟨"lib"⟩]⟩
      = .ok ⟨"classes", [⟨.type, "class A extends B"⟩]⟩ := by decide +kernel
  have hfound : (Universe.resolve adoptedFiles 1024 ⟨⟨"classes"⟩, [⟨"lib"⟩]⟩).toOption.any (fun u =>
      u.origin? adoptedFiles "B" = some (.dependency ⟨"lib"⟩) ∧
        (u.load adoptedFiles "B").1.toOption.any (fun t => t.any fun t => t.name = "B")) := by
    decide +kernel
  obtain ⟨hreport, hlonger⟩ :=
    @scan_append_classpath _ ⟨"classes"⟩ [⟨"lib"⟩] _ (sampleSettings.withStrict true) hopens
  refine ⟨hopens, hreport _ hscan, ?_⟩
  cases hresolve : Universe.resolve adoptedFiles 1024 ⟨⟨"classes"⟩, [⟨"lib"⟩]⟩ with
  | error e => rw [hresolve] at hfound; cases hfound
  | ok u =>
    rw [hresolve] at hfound
    obtain ⟨horigin, hload⟩ := of_decide_eq_true hfound
    obtain ⟨u', hresolve', hkept⟩ := hlonger 1024 u hresolve
    obtain ⟨hkeptType, hkeptOrigin⟩ := hkept u u' .fresh .fresh "B"
    refine ⟨u', hresolve', hkeptOrigin _ horigin, ?_⟩
    cases htype : (u.load adoptedFiles "B").1 with
    | error e => rw [htype] at hload; cases hload
    | ok found =>
      rw [htype] at hload
      cases found with
      | none => cases hload
      | some t => exact ⟨t, of_decide_eq_true hload, hkeptType t htype⟩

end Scan

end ApiSurface
