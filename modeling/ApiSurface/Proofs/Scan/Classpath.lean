import ApiSurface.Proofs.Scan.Lookup
import ApiSurface.Proofs.Scan.Report

/-!
What the classpath can do to a scan.

Without strict resolution it does nothing: two classpaths that open give the same result. With strict
resolution it can only refuse a report, never change one, and it refuses for the first supertype that
leads to nothing.
-/

namespace ApiSurface

variable {fs : FileSystem} {s : ScannerSettings} {r : ScanRequest} {u u' : Universe}

/-- The same settings, with or without strict resolution. -/
def ScannerSettings.withStrict (strict : Bool) (s : ScannerSettings) : ScannerSettings :=
  { s with strictResolution := strict }

namespace Universe

/-- The first type with a supertype that leads to nothing, and the first such supertype of it. -/
def firstUnresolved? (fs : FileSystem) (u : Universe) (types : List TypeDecl) :
    Option (TypeDecl × String) :=
  types.findSome? fun t => (t.supertypes.find? (u.isUnresolved fs)).map (t, ·)

/-- `t` is the first of the types with a supertype that leads to nothing, and `name` is the first such
supertype of it. -/
structure IsFirstUnresolved (fs : FileSystem) (u : Universe) (types : List TypeDecl) (t : TypeDecl)
    (name : String) : Prop where
  firstType : ∃ before after, types = before ++ t :: after ∧
    ∀ earlier ∈ before, ∀ n ∈ earlier.supertypes, ¬IsUnresolved fs u n
  firstName : ∃ before after, t.supertypes = before ++ name :: after ∧
    ∀ n ∈ before, ¬IsUnresolved fs u n
  unresolved : IsUnresolved fs u name

theorem firstUnresolved?_eq_none {types : List TypeDecl} : u.firstUnresolved? fs types = none ↔
    ∀ t ∈ types, ∀ name ∈ t.supertypes, ¬IsUnresolved fs u name := by
  rw [firstUnresolved?, List.findSome?_eq_none_iff]
  simp only [Option.map_eq_none_iff, List.find?_eq_none, isUnresolved_iff]

theorem isFirstUnresolved_of_eq_some {types : List TypeDecl} {t : TypeDecl} {name : String}
    (h : u.firstUnresolved? fs types = some (t, name)) : IsFirstUnresolved fs u types t name := by
  rw [firstUnresolved?, List.findSome?_eq_some_iff] at h
  obtain ⟨before, found, after, htypes, hfound, hbefore⟩ := h
  obtain ⟨n, hn, hpair⟩ := Option.map_eq_some_iff.1 hfound
  obtain ⟨rfl, rfl⟩ := Prod.mk.inj hpair
  obtain ⟨hunresolved, namesBefore, namesAfter, hnames, hresolved⟩ :=
    List.find?_eq_some_iff_append.1 hn
  refine ⟨⟨before, after, htypes, fun earlier hearlier n hn => ?_⟩,
    ⟨namesBefore, namesAfter, hnames, fun n hn => ?_⟩, isUnresolved_iff.1 hunresolved⟩
  · have hnone := hbefore earlier hearlier
    rw [Option.map_eq_none_iff, List.find?_eq_none] at hnone
    exact fun hunresolved => hnone n hn (isUnresolved_iff.2 hunresolved)
  · intro hunresolved
    have hfalse := hresolved n hn
    rw [isUnresolved_iff.2 hunresolved] at hfalse
    cases hfalse

/-- Strict resolution refuses a type for the first of its supertypes that leads to nothing. -/
theorem IsVisitOf.checkSupertypes (h : IsVisitOf fs u u') (t : TypeDecl) :
    (u'.checkSupertypes fs true t).1 = (match t.supertypes.find? (u.isUnresolved fs) with
      | some name => .error (.unresolvedType u.artifact.shown name t.name)
      | none => .ok ()) ∧
      IsVisitOf fs u (u'.checkSupertypes fs true t).2 := by
  obtain ⟨hfound, hvisited⟩ := h.unresolvedAmong t.supertypes
  rw [Universe.checkSupertypes, ← hfound]
  cases hsearch : u'.unresolvedAmong fs true t.supertypes with
  | mk found visited =>
    rw [hsearch] at hvisited
    cases found with
    | none => exact ⟨rfl, hvisited⟩
    | some name => exact ⟨by rw [← hvisited.artifact], hvisited⟩

/-- What the entries of an artifact give, each read with at most `max` bytes. -/
def definitionsAt (fs : FileSystem) (max : Nat) (artifact : Path) :
    Except ScanError (List Definition) := do
  let c ← Container.ofPath fs artifact
  let (entries, c) := c.classEntries fs
  definitionsOf fs max c (← entries)

/-- The artifact comes first and the classpath behind it. -/
theorem resolve_eq (fs : FileSystem) (max : Nat) (r : ScanRequest) : resolve fs max r =
    (definitionsAt fs max r.artifact).bind fun definitions =>
      (dependenciesOf fs r.classpath).map fun dependencies =>
        ⟨r.artifact, definitions, dependencies, [], max⟩ := by
  rw [resolve, definitionsAt]
  cases Container.ofPath fs r.artifact with
  | error e => rfl
  | ok c =>
    cases hlist : c.classEntries fs with
    | mk entries c =>
      cases entries with
      | error e => simp only [hlist, bind, Except.bind]
      | ok entries =>
        simp only [hlist, bind, Except.bind]
        cases definitionsOf fs max c entries with
        | error e => rfl
        | ok definitions => cases dependenciesOf fs r.classpath <;> rfl

/-- A new universe has the artifact of the request, and nobody has asked it anything. -/
theorem asked_resolve {max : Nat} (h : resolve fs max r = .ok u) :
    u.artifact = r.artifact ∧ u.answers = [] := by
  rw [resolve_eq] at h
  cases hdefinitions : definitionsAt fs max r.artifact with
  | error e => rw [hdefinitions] at h; cases h
  | ok definitions =>
    cases hdependencies : dependenciesOf fs r.classpath with
    | error e => rw [hdefinitions, hdependencies] at h; cases h
    | ok dependencies =>
      rw [hdefinitions, hdependencies] at h
      obtain rfl := Except.ok.inj h
      exact ⟨rfl, rfl⟩

end Universe

namespace Scan

/-! ## Strict resolution -/

/-- Strict resolution gives all blocks, or refuses the first type that has a supertype which leads to
nothing. -/
theorem blocks_strict (hstrict : s.strictResolution = true) (types : List TypeDecl)
    (h : u.IsVisitOf fs u') : blocks fs s types u' = match u.firstUnresolved? fs types with
      | some (t, name) => .error (.unresolvedType u.artifact.shown name t.name)
      | none => .ok (types.flatMap (·.block s.includeSynthetic)) := by
  induction types generalizing u' with
  | nil => rfl
  | cons t rest ih =>
    obtain ⟨hresult, hvisited⟩ := h.checkSupertypes t
    rw [blocks, hstrict]
    cases hcheck : u'.checkSupertypes fs true t with
    | mk result visited =>
      rw [hcheck] at hresult hvisited
      obtain rfl := hresult
      rw [Universe.firstUnresolved?, List.findSome?_cons]
      cases t.supertypes.find? (u.isUnresolved fs) with
      | some name => rfl
      | none =>
        dsimp only [Option.map_none]
        rw [ih hvisited, Universe.firstUnresolved?]
        cases rest.findSome? fun t => (t.supertypes.find? (u.isUnresolved fs)).map (t, ·) with
        | some found => rfl
        | none => rfl

theorem scan_of_resolve_error {e : ScanError}
    (h : Universe.resolve fs s.maxClassFileSize r = .error e) : ApiSurface.scan fs s r = .error e := by
  rw [ApiSurface.scan, h]
  rfl

theorem scan_of_resolve_ok (h : Universe.resolve fs s.maxClassFileSize r = .ok u) :
    ApiSurface.scan fs s r =
      (blocks fs s (u.reported s.internalMarker) u).map (Report.mk r.artifact.shown) := by
  rw [ApiSurface.scan, h]
  simp only [bind, Except.bind]
  cases blocks fs s (u.reported s.internalMarker) u <;> rfl

/-- **Strict resolution is a pure guard.** It leaves a result as it is or refuses it, and it refuses a
report exactly when a reported type has a supertype that leads to nothing: the first such type for the
first such supertype. -/
theorem scan_strict (fs : FileSystem) (s : ScannerSettings) (r : ScanRequest) :
    (ApiSurface.scan fs (s.withStrict true) r = ApiSurface.scan fs (s.withStrict false) r ∨
      ∃ name referencedBy, ApiSurface.scan fs (s.withStrict true) r
        = .error (.unresolvedType r.artifact.shown name referencedBy)) ∧
    ∀ report, ApiSurface.scan fs (s.withStrict false) r = .ok report →
      ∃ u, Universe.resolve fs s.maxClassFileSize r = .ok u ∧
        ((∃ artifact name referencedBy, ApiSurface.scan fs (s.withStrict true) r
            = .error (.unresolvedType artifact name referencedBy)) ↔
          ∃ t ∈ u.reported s.internalMarker, ∃ name ∈ t.supertypes, u.IsUnresolved fs name) ∧
        ∀ artifact name referencedBy, ApiSurface.scan fs (s.withStrict true) r
            = .error (.unresolvedType artifact name referencedBy) →
          artifact = r.artifact.shown ∧ ∃ t, referencedBy = t.name ∧
            u.IsFirstUnresolved fs (u.reported s.internalMarker) t name := by
  cases hresolve : Universe.resolve fs s.maxClassFileSize r with
  | error e =>
    have hstrict := scan_of_resolve_error (s := s.withStrict true) hresolve
    have hlenient := scan_of_resolve_error (s := s.withStrict false) hresolve
    refine ⟨.inl (hstrict.trans hlenient.symm), fun report hreport => ?_⟩
    rw [hlenient] at hreport
    cases hreport
  | ok u =>
    obtain ⟨hartifact, hanswers⟩ := Universe.asked_resolve hresolve
    have hlenient := scan_of_resolve_ok (s := s.withStrict false) hresolve
    have hstrict := scan_of_resolve_ok (s := s.withStrict true) hresolve
    rw [blocks_lenient rfl] at hlenient
    rw [blocks_strict rfl _ (Universe.isVisitOf_refl hanswers), hartifact] at hstrict
    have hsame : (s.withStrict true).internalMarker = s.internalMarker := rfl
    rw [hsame] at hstrict
    cases hfirst : u.firstUnresolved? fs (u.reported s.internalMarker) with
    | none =>
      rw [hfirst] at hstrict
      refine ⟨.inl (hstrict.trans hlenient.symm), fun report _ => ⟨u, rfl, ?_, ?_⟩⟩
      · rw [hstrict]
        have hnone := Universe.firstUnresolved?_eq_none.1 hfirst
        constructor
        · rintro ⟨artifact, name, referencedBy, h⟩
          cases h
        · rintro ⟨t, ht, name, hname, hunresolved⟩
          exact absurd hunresolved (hnone t ht name hname)
      · intro artifact name referencedBy h
        rw [hstrict] at h
        cases h
    | some found =>
      obtain ⟨t, name⟩ := found
      rw [hfirst] at hstrict
      have hunresolved := Universe.isFirstUnresolved_of_eq_some hfirst
      refine ⟨.inr ⟨name, t.name, hstrict⟩, fun report _ => ⟨u, rfl, ?_, ?_⟩⟩
      · obtain ⟨before, after, htypes, -⟩ := hunresolved.firstType
        obtain ⟨namesBefore, namesAfter, hnames, -⟩ := hunresolved.firstName
        have ht : t ∈ u.reported s.internalMarker := by simp [htypes]
        have hname : name ∈ t.supertypes := by simp [hnames]
        exact iff_of_true ⟨_, _, _, hstrict⟩ ⟨t, ht, name, hname, hunresolved.unresolved⟩
      · intro artifact other referencedBy h
        rw [hstrict] at h
        obtain ⟨rfl, rfl, rfl⟩ := ScanError.unresolvedType.inj (Except.error.inj h)
        exact ⟨rfl, t, rfl, hunresolved⟩

/-- A class without members that extends the class `B` of the same package. -/
def orphanClass : Bytes :=
  [0xCA, 0xFE, 0xBA, 0xBE, 0, 0, 0, 61, 0, 5, 7, 0, 2, 1, 0, 1, 65, 7, 0, 4, 1, 0, 1, 66,
    0, 0x21, 0, 1, 0, 3, 0, 0, 0, 0, 0, 0, 0, 0]

/-- A folder with the class alone, and one with something under the name of its superclass that is no
class. -/
def orphanFiles : FileSystem where
  root := .folder [("classes", .folder [("A.class", .file 0)]), ("lib", .folder [("B.class", .file 1)])]
  current := []
  contents := #[orphanClass.toByteArray, .empty]

theorem scan_strict_orphan : ∃ u,
    Universe.resolve orphanFiles sampleSettings.maxClassFileSize ⟨⟨"classes"⟩, [⟨"lib"⟩]⟩ = .ok u ∧
      ApiSurface.scan orphanFiles (sampleSettings.withStrict true) ⟨⟨"classes"⟩, [⟨"lib"⟩]⟩
        = .error (.unresolvedType "classes" "B" "A") ∧
      ∃ t, "A" = t.name ∧ u.IsFirstUnresolved orphanFiles
        (u.reported sampleSettings.internalMarker) t "B" := by
  have hlenient : ApiSurface.scan orphanFiles (sampleSettings.withStrict false)
      ⟨⟨"classes"⟩, [⟨"lib"⟩]⟩ = .ok ⟨"classes", [⟨.type, "class A extends B"⟩]⟩ := by decide +kernel
  have hstrict : ApiSurface.scan orphanFiles (sampleSettings.withStrict true)
      ⟨⟨"classes"⟩, [⟨"lib"⟩]⟩ = .error (.unresolvedType "classes" "B" "A") := by decide +kernel
  obtain ⟨u, hresolve, -, hfirst⟩ :=
    (scan_strict orphanFiles sampleSettings ⟨⟨"classes"⟩, [⟨"lib"⟩]⟩).2 _ hlenient
  exact ⟨u, hresolve, hstrict, (hfirst _ _ _ hstrict).2⟩

/-! ## Without strict resolution -/

/-- Every location of the classpath that exists opens as a container. -/
def Opens (fs : FileSystem) (classpath : List Path) : Prop :=
  ∀ path ∈ classpath, fs.has path → ∃ c, Container.ofPath fs path = .ok c

/-- A scan whose classpath opens and that is not strict goes by the artifact alone. -/
theorem scan_lenient (hstrict : s.strictResolution = false) (hclasspath : Opens fs r.classpath) :
    ApiSurface.scan fs s r =
      (Universe.definitionsAt fs s.maxClassFileSize r.artifact).map fun definitions =>
        ⟨r.artifact.shown, ((Universe.typesOf definitions).filter fun t =>
          !t.isInternal s.internalMarker).flatMap (·.block s.includeSynthetic)⟩ := by
  obtain ⟨dependencies, hdependencies⟩ := Universe.dependenciesOf_eq_ok hclasspath
  have hresolve := Universe.resolve_eq fs s.maxClassFileSize r
  rw [hdependencies] at hresolve
  cases hdefinitions : Universe.definitionsAt fs s.maxClassFileSize r.artifact with
  | error e =>
    rw [hdefinitions] at hresolve
    exact scan_of_resolve_error hresolve
  | ok definitions =>
    rw [hdefinitions] at hresolve
    rw [scan_of_resolve_ok hresolve, blocks_lenient hstrict]
    rfl

/-- **Dependencies are an aid to resolution only.** Without strict resolution two classpaths that open
give the same result, the same report or the same error. -/
theorem scan_eq_of_opens {artifact : Path} {classpath classpath' : List Path}
    (hstrict : s.strictResolution = false) (h : Opens fs classpath) (h' : Opens fs classpath') :
    ApiSurface.scan fs s ⟨artifact, classpath⟩ = ApiSurface.scan fs s ⟨artifact, classpath'⟩ := by
  rw [scan_lenient hstrict h, scan_lenient hstrict h']

/-- A folder as it is, or a location that is not there and the folder twice. -/
theorem scan_orphan_classpaths : sampleSettings.strictResolution = false ∧
    Opens orphanFiles [⟨"lib"⟩] ∧ Opens orphanFiles [⟨"missing.jar"⟩, ⟨"lib"⟩, ⟨"lib"⟩] ∧
    ApiSurface.scan orphanFiles sampleSettings ⟨⟨"classes"⟩, [⟨"lib"⟩]⟩ =
      ApiSurface.scan orphanFiles sampleSettings
        ⟨⟨"classes"⟩, [⟨"missing.jar"⟩, ⟨"lib"⟩, ⟨"lib"⟩]⟩ := by
  have hmissing : orphanFiles.has ⟨"missing.jar"⟩ = false := by decide +kernel
  have hlib : Container.ofPath orphanFiles ⟨"lib"⟩ = .ok (.folder ⟨"lib"⟩) := by decide +kernel
  have hopens : Opens orphanFiles [⟨"lib"⟩] := by
    simp [Opens, hlib]
  have hopens' : Opens orphanFiles [⟨"missing.jar"⟩, ⟨"lib"⟩, ⟨"lib"⟩] := by
    simp [Opens, hlib, hmissing]
  exact ⟨rfl, hopens, hopens', scan_eq_of_opens rfl hopens hopens'⟩

end Scan

end ApiSurface
