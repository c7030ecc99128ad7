import ApiSurface.Proofs.Container.Unpacked
import ApiSurface.Proofs.Scan.LongerClasspath
import ApiSurface.Proofs.Scan.ReadBack

/-!
Scans of an archive, and of the folder that it has been unpacked into.

As an artifact both give the same lines or fail alike. As a location of the classpath both give the same
result, as long as the names that are looked up have no empty package in them: below a folder such a name
leads to the same file as the name without it.
-/

namespace ApiSurface

open FileSystem

/-! ## Errors -/

/-- The errors are alike: the same, or the same about two locations. -/
inductive ScanError.Alike (p p' : Path) : ScanError → ScanError → Prop
  | refl (e : ScanError) : Alike p p' e e
  | fileTooBig (name : String) (size max : Nat) :
      Alike p p' (.fileTooBig (Container.location p name) size max)
        (.fileTooBig (Container.location p' name) size max)
  | unresolvedType (typeName referencedBy : String) :
      Alike p p' (.unresolvedType p.shown typeName referencedBy) (.unresolvedType p'.shown typeName referencedBy)

theorem ScanError.Alike.kind {p p' : Path} {e e' : ScanError} (h : ScanError.Alike p p' e e') :
    e'.kind = e.kind := by
  cases h <;> rfl

/-- Two results of scans with the same lines, or errors that are alike. -/
inductive Report.Alike (p p' : Path) : Except ScanError Report → Except ScanError Report → Prop
  | report (lines : List Report.Line) : Alike p p' (.ok ⟨p.shown, lines⟩) (.ok ⟨p'.shown, lines⟩)
  | error {e e' : ScanError} (h : ScanError.Alike p p' e e') : Alike p p' (.error e) (.error e')

namespace Universe

variable {fs fs' : FileSystem} {max : Nat} {c c' : Container} {p p' : Path} {files : List ContainedFile}
  {s : ScannerSettings}

/-! ## The artifact -/

theorem foldlM_define_alike {entries : List ClassEntry}
    (h : ∀ e ∈ entries, ∃ content,
      (c.read fs e.name max).1 = Container.within (Container.location p e.name) max content ∧
      (c'.read fs' e.name max).1 = Container.within (Container.location p' e.name) max content)
    (ds : List Definition) :
    (∃ ds', entries.foldlM (fun ds e => do return define ds e.name (← (c.read fs e.name max).1)) ds = .ok ds' ∧
      entries.foldlM (fun ds e => do return define ds e.name (← (c'.read fs' e.name max).1)) ds = .ok ds') ∨
    ∃ e e', entries.foldlM (fun ds e => do return define ds e.name (← (c.read fs e.name max).1)) ds = .error e ∧
      entries.foldlM (fun ds e => do return define ds e.name (← (c'.read fs' e.name max).1)) ds = .error e' ∧
      ScanError.Alike p p' e e' := by
  induction entries generalizing ds with
  | nil => exact .inl ⟨ds, rfl, rfl⟩
  | cons e rest ih =>
    obtain ⟨⟨content, hread, hread'⟩, hrest⟩ := List.forall_mem_cons.1 h
    rw [List.foldlM_cons, List.foldlM_cons, hread, hread', Container.within, Container.within]
    by_cases hbig : max < content.length
    · rw [if_pos hbig, if_pos hbig]
      exact .inr ⟨_, _, rfl, rfl, .fileTooBig e.name content.length max⟩
    · rw [if_neg hbig, if_neg hbig]
      exact ih hrest (define ds e.name content)

/-- An archive and its folder give the same definitions, or have the same file that is too long. -/
theorem definitionsAt_alike (hsound : fs.isSound) (hfiles : AreFiles files) (hpacked : IsPacked fs p files)
    (hunpacked : IsUnpacked fs p' files) (hreach : AreInReach p' files) (max : Nat) :
    (∃ ds, definitionsAt fs max p = .ok ds ∧ definitionsAt fs max p' = .ok ds) ∨
      ∃ e e', definitionsAt fs max p = .error e ∧ definitionsAt fs max p' = .error e' ∧
        ScanError.Alike p p' e e' := by
  obtain ⟨id, a, hopen, hentries⟩ := hpacked
  rw [definitionsAt, definitionsAt, hopen, hunpacked.ofPath]
  simp only [bind, Except.bind, classEntries_packed hentries, classEntries_unpacked hsound hunpacked hfiles]
  refine foldlM_define_alike (fun e he => ?_) []
  obtain ⟨file, hfile, rfl⟩ := List.mem_map.1 (List.mem_filter.1 he).1
  refine ⟨file.2, ?_, read_unpacked hsound hunpacked hfiles hreach hfile max⟩
  rw [((isVisitOf_map_visit fs p id a).read _ _).1]
  exact read_packed hfiles hentries hfile max

/-- The classpaths fail alike, or lead to the same classes. Which ones they lead to makes a difference to
strict settings only. -/
inductive LeadAlike (fs fs' : FileSystem) (s : ScannerSettings) (classpath classpath' : List Path) : Prop
  | error {e : ScanError} (failed : dependenciesOf fs classpath = .error e)
      (failed' : dependenciesOf fs' classpath' = .error e)
  | ok {dependencies dependencies' : List Container} (opened : dependenciesOf fs classpath = .ok dependencies)
      (opened' : dependenciesOf fs' classpath' = .ok dependencies')
      (same : s.strictResolution = true → ∀ entry,
        (readFirst fs' s.maxClassFileSize entry dependencies').1.toOption =
          (readFirst fs s.maxClassFileSize entry dependencies).1.toOption)

theorem leadAlike_refl (fs : FileSystem) (s : ScannerSettings) (classpath : List Path) :
    LeadAlike fs fs s classpath classpath := by
  cases hdependencies : dependenciesOf fs classpath with
  | error e => exact .error hdependencies hdependencies
  | ok dependencies => exact .ok hdependencies hdependencies fun _ _ => rfl

/-- What an entry of the classpath is taken for. -/
theorem toOption_lookUp (fs : FileSystem) (u : Universe) (name : String) :
    (u.lookUp fs name).1.toOption =
      (readFirst fs u.maxClassFileSize (EntryName.ofBinaryName name) u.dependencies).1.toOption.map
        fun content => content.bind fun bytes => (TypeDecl.ofBytes bytes).toOption := by
  rw [lookUp]
  cases readFirst fs u.maxClassFileSize (EntryName.ofBinaryName name) u.dependencies with
  | mk result dependencies => cases result <;> rfl

end Universe

namespace Scan

variable {fs fs' : FileSystem} {p p' : Path} {files : List ContainedFile} {s : ScannerSettings}

/-- Artifacts with the same definitions lead to the same lines, where the classpaths lead to the same
classes. -/
theorem scan_alike {classpath classpath' : List Path}
    (hdefinitions : (∃ ds, Universe.definitionsAt fs s.maxClassFileSize p = .ok ds ∧
        Universe.definitionsAt fs' s.maxClassFileSize p' = .ok ds) ∨
      ∃ e e', Universe.definitionsAt fs s.maxClassFileSize p = .error e ∧
        Universe.definitionsAt fs' s.maxClassFileSize p' = .error e' ∧ ScanError.Alike p p' e e')
    (hclasspaths : Universe.LeadAlike fs fs' s classpath classpath') :
    Report.Alike p p' (ApiSurface.scan fs s ⟨p, classpath⟩) (ApiSurface.scan fs' s ⟨p', classpath'⟩) := by
  have hresolve := Universe.resolve_eq fs s.maxClassFileSize ⟨p, classpath⟩
  have hresolve' := Universe.resolve_eq fs' s.maxClassFileSize ⟨p', classpath'⟩
  dsimp only at hresolve hresolve'
  obtain ⟨ds, hds, hds'⟩ | ⟨e, e', he, he', halike⟩ := hdefinitions
  · rw [hds] at hresolve
    rw [hds'] at hresolve'
    cases hclasspaths with
    | @error e hdependencies hdependencies' =>
      rw [hdependencies] at hresolve
      rw [hdependencies'] at hresolve'
      rw [scan_of_resolve_error hresolve, scan_of_resolve_error hresolve']
      exact .error (.refl e)
    | @ok dependencies dependencies' hdependencies hdependencies' hsame =>
      rw [hdependencies] at hresolve
      rw [hdependencies'] at hresolve'
      rw [scan_of_resolve_ok hresolve, scan_of_resolve_ok hresolve']
      have hreported : Universe.reported s.internalMarker ⟨p', ds, dependencies', [], s.maxClassFileSize⟩ =
          Universe.reported s.internalMarker ⟨p, ds, dependencies, [], s.maxClassFileSize⟩ := rfl
      rw [hreported]
      cases hstrict : s.strictResolution with
      | false =>
        rw [blocks_lenient hstrict, blocks_lenient hstrict]
        exact .report _
      | true =>
        rw [blocks_strict hstrict _ (Universe.isVisitOf_refl rfl),
          blocks_strict hstrict _ (Universe.isVisitOf_refl rfl)]
        -- What is resolved does not hang on the path of the artifact.
        have hunresolved : Universe.isUnresolved fs' ⟨p', ds, dependencies', [], s.maxClassFileSize⟩ =
            Universe.isUnresolved fs ⟨p, ds, dependencies, [], s.maxClassFileSize⟩ := by
          funext name
          rw [Universe.isUnresolved, Universe.isUnresolved, Universe.toOption_lookUp,
            Universe.toOption_lookUp, hsame hstrict]
          rfl
        have hfirst (types : List TypeDecl) :
            Universe.firstUnresolved? fs' ⟨p', ds, dependencies', [], s.maxClassFileSize⟩ types =
              Universe.firstUnresolved? fs ⟨p, ds, dependencies, [], s.maxClassFileSize⟩ types := by
          rw [Universe.firstUnresolved?, Universe.firstUnresolved?, hunresolved]
        rw [hfirst]
        cases Universe.firstUnresolved? fs ⟨p, ds, dependencies, [], s.maxClassFileSize⟩
          (Universe.reported s.internalMarker ⟨p, ds, dependencies, [], s.maxClassFileSize⟩) with
        | some found => exact .error (.unresolvedType found.2 found.1.name)
        | none => exact .report _
  · rw [he] at hresolve
    rw [he'] at hresolve'
    rw [scan_of_resolve_error hresolve, scan_of_resolve_error hresolve']
    exact .error halike

theorem scan_artifact_alike (hsound : fs.isSound) (hfiles : AreFiles files) (hpacked : IsPacked fs p files)
    (hunpacked : IsUnpacked fs p' files) (hreach : AreInReach p' files) (s : ScannerSettings)
    (classpath : List Path) :
    Report.Alike p p' (ApiSurface.scan fs s ⟨p, classpath⟩) (ApiSurface.scan fs s ⟨p', classpath⟩) :=
  scan_alike (Universe.definitionsAt_alike hsound hfiles hpacked hunpacked hreach s.maxClassFileSize)
    (Universe.leadAlike_refl fs s classpath)

end Scan

/-! ## A location of the classpath -/

section Classpath

open Scan

variable {fs : FileSystem} {s : ScannerSettings} {max : Nat} {u u' : Universe} {c c' : Container}
  {p p' artifact : Path} {files : List ContainedFile} {front back : List Path} {name : String}

theorem map_dots_of_notMem {chars : List Char} (h : '.' ∉ chars) :
    (chars.map fun c => if c = '.' then '/' else c) = chars := by
  calc
    chars.map (fun c => if c = '.' then '/' else c)
    _ = chars.map id := List.map_congr_left fun c hc => if_neg (ne_of_mem_of_not_mem hc h)
    _ = chars := List.map_id chars

/-- Slashes in the place of dots part a name where the dots did. -/
theorem splitOn_map_dots {chars : List Char} (hslash : '/' ∉ chars) :
    (chars.map fun c => if c = '.' then '/' else c).splitOn '/' = chars.splitOn '.' := by
  induction hlength : chars.length using Nat.strong_induction_on generalizing chars with
  | _ n ih =>
    by_cases hdot : '.' ∈ chars
    · obtain ⟨front, rest, rfl, -⟩ := List.eq_append_cons_of_mem hdot
      simp only [List.mem_append, List.mem_cons, not_or] at hslash
      simp only [List.length_append, List.length_cons] at hlength
      rw [List.map_append, List.map_cons, if_pos rfl, List.splitOn_append_cons_self,
        List.splitOn_append_cons_self, ih front.length (by omega) hslash.1 rfl,
        ih rest.length (by omega) hslash.2.2 rfl]
    · rw [map_dots_of_notMem hdot, List.splitOn_eq_singleton hslash, List.splitOn_eq_singleton hdot]

/-- The entry for a name without empty packages has a proper name. -/
theorem isProper_ofBinaryName (hslash : '/' ∉ name.toList) (h : [] ∉ packageSegments name) :
    EntryName.IsProper (EntryName.ofBinaryName name) := by
  let slashes := fun c => if c = '.' then '/' else c
  have hchars : (EntryName.ofBinaryName name).toList = name.toList.map slashes ++ ".class".toList := by
    rw [EntryName.ofBinaryName, String.toList_append, String.toList_map]
    rfl
  -- The last part ends like a class, and the parts in front of it are the packages.
  have hlast : ∀ last : List Char, '.' ∉ last → '/' ∉ last →
      (last.map slashes ++ ".class".toList).splitOn '/' = [last ++ ".class".toList] := by
    intro last hdot hslash
    rw [map_dots_of_notMem hdot, List.splitOn_eq_singleton (by simpa using hslash)]
  have hparts : ∃ last, (EntryName.ofBinaryName name).toList.splitOn '/' =
      packageSegments name ++ [last ++ ".class".toList] := by
    rw [hchars, packageSegments_eq]
    obtain ⟨hnone, -⟩ | ⟨last, hdot, hname⟩ := packageOf_cases name
    · exact ⟨name.toList, by rw [if_neg hnone, hlast _ hnone hslash, List.nil_append]⟩
    · rw [hname] at hslash
      simp only [List.mem_append, List.mem_cons, not_or] at hslash
      refine ⟨last, ?_⟩
      rw [if_pos (by rw [hname]; simp), hname, List.map_append, List.map_cons, List.append_assoc,
        show slashes '.' = '/' from rfl, List.cons_append, List.splitOn_append_cons_self,
        hlast _ hdot hslash.2.2, splitOn_map_dots hslash.1]
  obtain ⟨last, hparts⟩ := hparts
  intro part hpart
  rw [Path.segments, OsString.splitOn_slash_ofText, hparts, List.map_append, List.mem_append, List.mem_map] at hpart
  obtain ⟨chars, hchars, rfl⟩ | hpart := hpart
  · have hdot : '.' ∉ chars := notMem_of_mem_splitOn (List.mem_of_mem_dropLast hchars)
    refine ⟨fun hempty => ?_, fun hhere => ?_, fun hup => ?_⟩
    · obtain rfl : chars = [] := by simpa using OsString.ofText_inj.1 hempty
      exact h hchars
    · obtain rfl : chars = ['.'] := by simpa using congrArg String.toList (OsString.ofText_inj.1 hhere)
      simp at hdot
    · obtain rfl : chars = ['.', '.'] := by simpa using congrArg String.toList (OsString.ofText_inj.1 hup)
      simp at hdot
  · obtain rfl := List.mem_singleton.1 hpart
    have hlong : ".class".length ≤ (String.ofList (last ++ ".class".toList)).length := by simp
    refine ⟨fun heq => ?_, fun heq => ?_, fun heq => ?_⟩ <;>
    · rw [OsString.ofText_inj.1 heq] at hlong
      exact absurd hlong (by decide)

theorem slash_notMem_binaryName (internal : String) : '/' ∉ (binaryName internal).toList := by
  rw [binaryName, String.toList_map]
  intro hmem
  obtain ⟨c, -, hc⟩ := List.mem_map.1 hmem
  split at hc
  · exact absurd hc (by decide)
  · next hne => exact hne hc

/-- Supertypes are named with dots between the packages. -/
theorem slash_notMem_supertypes {t : TypeDecl} {cf : ClassFile} (h : TypeDecl.ofClassFile cf = .ok t) :
    ∀ name ∈ t.supertypes, '/' ∉ name.toList := by
  intro name hname
  rw [TypeDecl.ofClassFile] at h
  cases hmethods : cf.methods.mapM (MethodDecl.ofMember (binaryName cf.name)) with
  | error e => simp only [hmethods, bind, Except.bind] at h; cases h
  | ok methods =>
    cases hfields : cf.fields.mapM (FieldDecl.ofMember (binaryName cf.name)) with
    | error e => simp only [hmethods, hfields, bind, Except.bind] at h; cases h
    | ok fields =>
      simp only [hmethods, hfields, bind, Except.bind] at h
      obtain rfl := Except.ok.inj h
      simp only [TypeDecl.supertypes, List.mem_append, Option.mem_toList, List.mem_map] at hname
      obtain hsuper | ⟨internal, -, rfl⟩ := hname
      · split at hsuper
        · obtain ⟨internal, -, rfl⟩ := Option.map_eq_some_iff.1 hsuper
          exact slash_notMem_binaryName internal
        · cases hsuper
      · exact slash_notMem_binaryName internal

/-- So are those of all types of the artifact. -/
theorem slash_notMem_lookups {r : ScanRequest} (h : Universe.resolve fs max r = .ok u) :
    ∀ t ∈ Universe.typesOf u.definitions, ∀ name ∈ t.supertypes, '/' ∉ name.toList := by
  obtain ⟨-, -, -, contents, -, -, -, htypes⟩ := Universe.exists_contents_of_resolve h
  intro t ht
  rw [htypes, mem_declarations] at ht
  obtain ⟨content, -, hdeclared⟩ := List.mem_filterMap.1 (List.mem_of_find?_eq_some ht.2)
  obtain ⟨cf, -, hof⟩ := exists_classFile_of_declared? hdeclared
  exact slash_notMem_supertypes hof

namespace Universe

/-- The universes differ in one location of the classpath at most. -/
structure IsReplaced (c c' : Container) (u u' : Universe) : Prop where
  artifact : u'.artifact = u.artifact
  definitions : u'.definitions = u.definitions
  maxClassFileSize : u'.maxClassFileSize = u.maxClassFileSize
  dependencies : ∃ front back, u.dependencies = front ++ c :: back ∧ u'.dependencies = front ++ c' :: back

/-- The names among `names` that a strict search looks up. It ends with the first one that leads to
nothing. -/
def lookedUp (fs : FileSystem) (u : Universe) : List String → List String
  | [] => []
  | name :: rest =>
    if u.isKnown name then lookedUp fs u rest
    else if u.isUnresolved fs name then [name]
    else name :: lookedUp fs u rest

theorem IsReplaced.isKnown (h : IsReplaced c c' u u') (name : String) : u'.isKnown name = u.isKnown name := by
  rw [Universe.isKnown, Universe.isKnown, Universe.artifactType?, Universe.artifactType?, h.definitions]

/-- A name leads to a class from both or from none, if both locations have the same entry for it or
none. -/
theorem IsReplaced.isUnresolved (h : IsReplaced c c' u u')
    (hcontains : c'.contains fs (EntryName.ofBinaryName name) = c.contains fs (EntryName.ofBinaryName name))
    (hread : c.contains fs (EntryName.ofBinaryName name) →
      (c'.read fs (EntryName.ofBinaryName name) u.maxClassFileSize).1.toOption =
        (c.read fs (EntryName.ofBinaryName name) u.maxClassFileSize).1.toOption) :
    u'.isUnresolved fs name = u.isUnresolved fs name := by
  obtain ⟨front, back, hdependencies, hdependencies'⟩ := h.dependencies
  rw [Universe.isUnresolved, Universe.isUnresolved, h.isKnown, Universe.lookUp, Universe.lookUp]
  simp only [readFirst_eq, h.maxClassFileSize, hdependencies, hdependencies', List.find?_append]
  cases front.find? (·.contains fs (EntryName.ofBinaryName name)) with
  | some d => rfl
  | none =>
    simp only [Option.none_or, List.find?_cons, hcontains]
    cases hentry : c.contains fs (EntryName.ofBinaryName name) with
    | false => rfl
    | true =>
      have hsame : ∀ {result result' : Except ScanError Bytes}, result'.toOption = result.toOption →
          ((result'.map some).map fun content =>
            content.bind fun bytes => (TypeDecl.ofBytes bytes).toOption).toOption =
          ((result.map some).map fun content =>
            content.bind fun bytes => (TypeDecl.ofBytes bytes).toOption).toOption := by
        intro result result' h
        cases result <;> cases result' <;> simp_all [Except.toOption, Except.map]
      exact congrArg (fun answer => !u.isKnown name && !(Option.join answer).isSome) (hsame (hread hentry))

/-- Strict searches that agree about the names they look up find the same. -/
theorem IsReplaced.find?_isUnresolved (h : IsReplaced c c' u u') {α : Type} (nameOf : α → String) (xs : List α)
    (hnames : ∀ name ∈ u.lookedUp fs (xs.map nameOf), u'.isUnresolved fs name = u.isUnresolved fs name) :
    xs.find? (fun x => u'.isUnresolved fs (nameOf x)) = xs.find? fun x => u.isUnresolved fs (nameOf x) := by
  induction xs with
  | nil => rfl
  | cons x rest ih =>
    rw [List.map_cons, lookedUp] at hnames
    rw [List.find?_cons, List.find?_cons]
    by_cases hknown : u.isKnown (nameOf x)
    · rw [if_pos hknown] at hnames
      have hfound : u.isUnresolved fs (nameOf x) = false := by simp [Universe.isUnresolved, hknown]
      have hfound' : u'.isUnresolved fs (nameOf x) = false := by
        simp [Universe.isUnresolved, h.isKnown, hknown]
      rw [hfound, hfound']
      exact ih hnames
    · rw [if_neg hknown] at hnames
      by_cases hfound : u.isUnresolved fs (nameOf x)
      · rw [if_pos hfound] at hnames
        rw [hnames _ (List.mem_singleton.2 rfl), hfound]
      · rw [if_neg hfound] at hnames
        obtain ⟨hfirst, hrest⟩ := List.forall_mem_cons.1 hnames
        rw [hfirst, ih hrest]

/-- The supertypes of the types, one after the other. -/
theorem firstUnresolved?_eq (fs : FileSystem) (u : Universe) (types : List TypeDecl) :
    u.firstUnresolved? fs types =
      (types.flatMap fun t => t.supertypes.map (t, ·)).find? fun x => u.isUnresolved fs x.2 := by
  rw [firstUnresolved?, List.find?_flatMap]
  congr 1
  funext t
  rw [List.find?_map]
  rfl

theorem IsReplaced.firstUnresolved? (h : IsReplaced c c' u u') (types : List TypeDecl)
    (hnames : ∀ name ∈ u.lookedUp fs (types.flatMap TypeDecl.supertypes),
      u'.isUnresolved fs name = u.isUnresolved fs name) :
    u'.firstUnresolved? fs types = u.firstUnresolved? fs types := by
  rw [firstUnresolved?_eq, firstUnresolved?_eq]
  refine h.find?_isUnresolved Prod.snd _ ?_
  simpa [List.map_flatMap, Function.comp_def] using hnames

theorem mem_of_mem_lookedUp {names : List String} (h : name ∈ u.lookedUp fs names) : name ∈ names := by
  induction names with
  | nil => exact h
  | cons first rest ih =>
    rw [lookedUp] at h
    split at h
    · exact List.mem_cons_of_mem _ (ih h)
    · split at h
      · rw [List.mem_singleton.1 h]
        exact List.mem_cons_self
      · obtain rfl | hrest := List.mem_cons.1 h
        · exact List.mem_cons_self
        · exact List.mem_cons_of_mem _ (ih hrest)

/-- A location that opens is one of the containers. -/
theorem dependenciesOf_insert (h : Container.ofPath fs p = .ok c) (front back : List Path) :
    dependenciesOf fs (front ++ p :: back) = (dependenciesOf fs front).bind fun before =>
      (dependenciesOf fs back).map fun after => before ++ c :: after := by
  have hhas : fs.has p = true := by
    rw [Container.ofPath] at h
    rw [FileSystem.has]
    cases hstat : fs.stat p with
    | error e => rw [hstat] at h; cases h
    | ok node => rfl
  have hcons : dependenciesOf fs (p :: back) = (dependenciesOf fs back).map (c :: ·) := by
    rw [dependenciesOf, List.filter_cons_of_pos hhas, List.mapM_cons, h]
    rfl
  rw [dependenciesOf_append, hcons]
  cases dependenciesOf fs front with
  | error e => rfl
  | ok before => cases dependenciesOf fs back <;> rfl

end Universe

namespace Scan

/-- Two locations that have the same entries for all names that are looked up. -/
theorem scan_replaced (hopen : Container.ofPath fs p = .ok c) (hopen' : Container.ofPath fs p' = .ok c')
    (hsame : s.strictResolution = true → ∀ u,
      Universe.resolve fs s.maxClassFileSize ⟨artifact, front ++ p :: back⟩ = .ok u →
      ∀ name ∈ u.lookedUp fs ((u.reported s.internalMarker).flatMap TypeDecl.supertypes),
        c'.contains fs (EntryName.ofBinaryName name) = c.contains fs (EntryName.ofBinaryName name) ∧
        (c.contains fs (EntryName.ofBinaryName name) →
          (c'.read fs (EntryName.ofBinaryName name) s.maxClassFileSize).1.toOption =
            (c.read fs (EntryName.ofBinaryName name) s.maxClassFileSize).1.toOption)) :
    ApiSurface.scan fs s ⟨artifact, front ++ p' :: back⟩ =
      ApiSurface.scan fs s ⟨artifact, front ++ p :: back⟩ := by
  have hresolve := Universe.resolve_eq fs s.maxClassFileSize ⟨artifact, front ++ p :: back⟩
  have hresolve' := Universe.resolve_eq fs s.maxClassFileSize ⟨artifact, front ++ p' :: back⟩
  dsimp only at hresolve hresolve'
  rw [Universe.dependenciesOf_insert hopen] at hresolve
  rw [Universe.dependenciesOf_insert hopen'] at hresolve'
  cases hdefinitions : Universe.definitionsAt fs s.maxClassFileSize artifact with
  | error e =>
    rw [hdefinitions] at hresolve hresolve'
    rw [scan_of_resolve_error hresolve, scan_of_resolve_error hresolve']
  | ok ds =>
    rw [hdefinitions] at hresolve hresolve'
    cases hfront : Universe.dependenciesOf fs front with
    | error e =>
      rw [hfront] at hresolve hresolve'
      rw [scan_of_resolve_error hresolve, scan_of_resolve_error hresolve']
    | ok before =>
      rw [hfront] at hresolve hresolve'
      cases hback : Universe.dependenciesOf fs back with
      | error e =>
        rw [hback] at hresolve hresolve'
        rw [scan_of_resolve_error hresolve, scan_of_resolve_error hresolve']
      | ok after =>
        rw [hback] at hresolve hresolve'
        rw [scan_of_resolve_ok hresolve, scan_of_resolve_ok hresolve']
        cases hstrict : s.strictResolution with
        | false => rw [blocks_lenient hstrict, blocks_lenient hstrict]; rfl
        | true =>
          have hreplaced : Universe.IsReplaced c c'
              ⟨artifact, ds, before ++ c :: after, [], s.maxClassFileSize⟩
              ⟨artifact, ds, before ++ c' :: after, [], s.maxClassFileSize⟩ :=
            ⟨rfl, rfl, rfl, before, after, rfl, rfl⟩
          have hfirst := hreplaced.firstUnresolved? _ fun name hname =>
            hreplaced.isUnresolved (hsame hstrict _ hresolve name hname).1 (hsame hstrict _ hresolve name hname).2
          rw [blocks_strict hstrict _ (Universe.isVisitOf_refl rfl),
            blocks_strict hstrict _ (Universe.isVisitOf_refl rfl)]
          have hreported : Universe.reported s.internalMarker
              ⟨artifact, ds, before ++ c' :: after, [], s.maxClassFileSize⟩ =
            Universe.reported s.internalMarker
              ⟨artifact, ds, before ++ c :: after, [], s.maxClassFileSize⟩ := rfl
          rw [hreported, hfirst]

/-- The names that a strict scan looks up in the dependencies have no empty package in them. -/
def LooksUpPackages (fs : FileSystem) (s : ScannerSettings) (r : ScanRequest) : Prop :=
  s.strictResolution = true → ∀ u, Universe.resolve fs s.maxClassFileSize r = .ok u →
    ∀ name ∈ u.lookedUp fs ((u.reported s.internalMarker).flatMap TypeDecl.supertypes),
      [] ∉ packageSegments name

theorem scan_classpath_unpacked (hsound : fs.isSound) (hfiles : AreFiles files) (hpacked : IsPacked fs p files)
    (hunpacked : IsUnpacked fs p' files) (hreach : AreInReach p' files)
    (hnames : LooksUpPackages fs s ⟨artifact, front ++ p :: back⟩) :
    ApiSurface.scan fs s ⟨artifact, front ++ p' :: back⟩ =
      ApiSurface.scan fs s ⟨artifact, front ++ p :: back⟩ := by
  obtain ⟨id, a, hopen, hentries⟩ := hpacked
  refine scan_replaced hopen hunpacked.ofPath fun hstrict u hresolve name hname => ?_
  have hslash : '/' ∉ name.toList := by
    obtain ⟨t, ht, hsuper⟩ := List.mem_flatMap.1 (Universe.mem_of_mem_lookedUp hname)
    exact slash_notMem_lookups hresolve t (List.mem_filter.1 ht).1 name hsuper
  have hproper := isProper_ofBinaryName hslash (hnames hstrict u hresolve name hname)
  rw [contains_unpacked hsound hunpacked hfiles hreach hproper, contains_packed hentries]
  refine ⟨rfl, fun hany => ?_⟩
  obtain ⟨file, hfile, heq⟩ := List.any_eq_true.1 hany
  rw [← of_decide_eq_true heq, read_packed hfiles hentries hfile,
    read_unpacked hsound hunpacked hfiles hreach hfile, Container.within, Container.within]
  split <;> rfl

/-- **An archive and the folder that it has been unpacked into are told apart by their paths only.** Both
list the same entries, have an entry for the same proper names and give the same content for each. So as an
artifact they lead to the same lines or to the same error but for the path, and as a location of the
classpath to the same result. -/
theorem unpacked_like_packed (hsound : fs.isSound) (hfiles : AreFiles files) (hpacked : IsPacked fs p files)
    (hunpacked : IsUnpacked fs p' files) (hreach : AreInReach p' files) :
    (∃ c c', Container.ofPath fs p = .ok c ∧ Container.ofPath fs p' = .ok c' ∧
      (c.classEntries fs).1 = .ok (candidateEntries files) ∧
      (c'.classEntries fs).1 = .ok (candidateEntries files) ∧
      ∀ v v', c.IsVisitOf fs v → c'.IsVisitOf fs v' →
        (∀ name, EntryName.IsProper name → v'.contains fs name = v.contains fs name) ∧
        ∀ file ∈ files, ∀ max,
          (v.read fs file.entryName max).1 =
            Container.within (Container.location p file.entryName) max file.2 ∧
          (v'.read fs file.entryName max).1 =
            Container.within (Container.location p' file.entryName) max file.2) ∧
    ∀ s : ScannerSettings,
      (∀ classpath, Report.Alike p p' (ApiSurface.scan fs s ⟨p, classpath⟩)
        (ApiSurface.scan fs s ⟨p', classpath⟩)) ∧
      ∀ artifact front back, LooksUpPackages fs s ⟨artifact, front ++ p :: back⟩ →
        ApiSurface.scan fs s ⟨artifact, front ++ p' :: back⟩ =
          ApiSurface.scan fs s ⟨artifact, front ++ p :: back⟩ := by
  refine ⟨?_, fun s => ⟨fun classpath => ?_, fun artifact front back hnames => ?_⟩⟩
  · obtain ⟨id, a, hopen, hentries⟩ := id hpacked
    refine ⟨_, _, hopen, hunpacked.ofPath, congrArg Prod.fst (classEntries_packed hentries),
      congrArg Prod.fst (classEntries_unpacked hsound hunpacked hfiles), fun v v' hv hv' => ⟨?_, ?_⟩⟩
    · intro name hname
      rw [hv.contains, hv'.contains, contains_packed hentries,
        contains_unpacked hsound hunpacked hfiles hreach hname]
    · intro file hfile max
      rw [(hv.read _ _).1, (hv'.read _ _).1]
      exact ⟨read_packed hfiles hentries hfile max, read_unpacked hsound hunpacked hfiles hreach hfile max⟩
  · exact scan_artifact_alike hsound hfiles hpacked hunpacked hreach s classpath
  · exact scan_classpath_unpacked hsound hfiles hpacked hunpacked hreach hnames

/-- An archive of files that are not packed. -/
def packedBytes (files : List (String × Bytes)) : Bytes :=
  let records := files.map fun file => storedRecord 0 file.1 file.2
  let starts := records.scanl (fun start record => start + record.length) 0
  let directory := (files.zip starts).flatMap fun (file, start) => storedDescription start 0 file.1 file.2
  records.flatten ++ directory ++ [(4, Archive.endMark), (4, 0), (2, files.length), (2, files.length),
    (4, directory.length), (4, records.flatten.length), (2, 0)].flatMap fun (n, v) => littleEndianDigits n v

def libraryFiles : List ContainedFile := [(["B.class"], parentClass), (["p", "A.class"], orphanClass)]

def libraryFolder : List (OsString × Node) :=
  [("B.class", .file 1), ("p", .folder [("A.class", .file 0)])]

def twiceFiles : FileSystem where
  root := .folder [("classes", .folder [("A.class", .file 0)]), ("lib", .folder libraryFolder),
    ("lib.jar", .file 2)]
  current := []
  contents := #[orphanClass.toByteArray, parentClass.toByteArray,
    (packedBytes [("B.class", parentClass), ("p/A.class", orphanClass)]).toByteArray]

def libraryArchive : Archive where
  entries := [
    { name := "B.class", isFile := true, isEncrypted := false, packing := .stored, size := 31,
      packedSize := 31, checksum := Crc32.ofBytes parentClass, start := 0, contentStart := none },
    { name := "p/A.class", isFile := true, isEncrypted := false, packing := .stored, size := 38,
      packedSize := 38, checksum := Crc32.ofBytes orphanClass, start := 68, contentStart := none }]

theorem ofPath_libraryArchive :
    Container.ofPath twiceFiles ⟨"lib.jar"⟩ = .ok (.archive ⟨"lib.jar"⟩ 2 libraryArchive) :=
  ofPath_archive rfl (by decide +kernel)

theorem isPacked_libraryFiles : IsPacked twiceFiles ⟨"lib.jar"⟩ libraryFiles := by
  refine ⟨2, libraryArchive, ofPath_libraryArchive, .cons ?_ (.cons ?_ .nil)⟩
  · exact @Archive.Entry.isFor_stored _ _ _ 37 rfl (by decide +kernel) (by decide +kernel)
      (by decide +kernel) (by decide +kernel) (by decide +kernel) (by decide +kernel)
  · exact @Archive.Entry.isFor_stored _ _ _ 107 rfl (by decide +kernel) (by decide +kernel)
      (by decide +kernel) (by decide +kernel) (by decide +kernel) (by decide +kernel)

/-- What stands below the folder: a file, and a folder with another one. -/
theorem get?_libraryFolder {place : Location} {node : Node}
    (h : (Node.folder libraryFolder).get? place = some node) :
    node.isFolder ∨ (place, node) ∈
      ([(["B.class"], .file 1), (["p", "A.class"], .file 0)] : List (Location × Node)) := by
  have hfile : ∀ {id : FileId} {rest : Location}, (Node.file id).get? rest = some node →
      rest = [] ∧ node = .file id := by
    intro id rest h
    obtain ⟨hrest, hnode⟩ := (Node.get?_eq_some_of_not_isFolder rfl).1 h
    exact ⟨hrest, hnode.symm⟩
  have hnothing : ∀ {name : OsString} {rest : Location}, (Node.folder []).get? (name :: rest) ≠ some node := nofun
  cases place with
  | nil => exact .inl (by rw [← Option.some.inj h]; rfl)
  | cons name rest =>
    obtain ⟨rfl, hfirst⟩ | hothers := Node.get?_folder_cons h
    · obtain ⟨rfl, rfl⟩ := hfile hfirst
      exact .inr (by simp)
    obtain ⟨rfl, hinside⟩ | hothers := Node.get?_folder_cons hothers
    · cases rest with
      | nil => exact .inl (by rw [← Option.some.inj hinside]; rfl)
      | cons next rest =>
        obtain ⟨rfl, hfirst⟩ | hothers := Node.get?_folder_cons hinside
        · obtain ⟨rfl, rfl⟩ := hfile hfirst
          exact .inr (by simp)
        · exact absurd hothers hnothing
    · exact absurd hothers hnothing

theorem isUnpacked_libraryFiles {path : Path} (h : twiceFiles.stat path = .ok (.folder libraryFolder)) :
    IsUnpacked twiceFiles path libraryFiles := by
  refine ⟨libraryFolder, h, fun place node hget => ?_, fun place content => ⟨fun hmem => ?_, ?_⟩⟩
  · obtain hfolder | hfile := get?_libraryFolder hget
    · exact .inl hfolder
    · simp only [List.mem_cons, Prod.mk.injEq, List.not_mem_nil, or_false] at hfile
      obtain ⟨-, rfl⟩ | ⟨-, rfl⟩ := hfile
      · exact .inr ⟨1, rfl⟩
      · exact .inr ⟨0, rfl⟩
  · simp only [libraryFiles, List.mem_cons, List.not_mem_nil, or_false, Prod.mk.injEq] at hmem
    obtain ⟨rfl, rfl⟩ | ⟨rfl, rfl⟩ := hmem
    · exact ⟨1, rfl, by decide +kernel⟩
    · exact ⟨0, rfl, by decide +kernel⟩
  · rintro ⟨id, hget, rfl⟩
    obtain hfolder | hfile := get?_libraryFolder hget
    · cases hfolder
    · simp only [List.mem_cons, Prod.mk.injEq, List.not_mem_nil, or_false, Node.file.injEq] at hfile
      obtain ⟨rfl, rfl⟩ | ⟨rfl, rfl⟩ := hfile
      · decide +kernel
      · decide +kernel

theorem isSound_twiceFiles : twiceFiles.isSound := by decide +kernel

theorem areFiles_libraryFiles : AreFiles libraryFiles :=
  ⟨by decide +kernel, by decide +kernel, by decide +kernel⟩

def strictSettings : ScannerSettings :=
  sampleSettings.withStrict true

/-- A class that stands in a library finds its superclass in either form of it. -/
theorem library_alike :
    twiceFiles.isSound ∧ AreFiles libraryFiles ∧ IsPacked twiceFiles ⟨"lib.jar"⟩ libraryFiles ∧
      IsUnpacked twiceFiles ⟨"lib"⟩ libraryFiles ∧ AreInReach ⟨"lib"⟩ libraryFiles ∧
      LooksUpPackages twiceFiles strictSettings
        ⟨⟨"classes"⟩, [⟨"missing.jar"⟩] ++ ⟨"lib.jar"⟩ :: []⟩ ∧
      ApiSurface.scan twiceFiles strictSettings
          ⟨⟨"classes"⟩, [⟨"missing.jar"⟩] ++ ⟨"lib.jar"⟩ :: []⟩ =
        .ok ⟨"classes", [⟨.type, "class A extends B"⟩]⟩ := by
  have hunpacked : IsUnpacked twiceFiles ⟨"lib"⟩ libraryFiles := isUnpacked_libraryFiles rfl
  have hreach : AreInReach ⟨"lib"⟩ libraryFiles := by
    unfold AreInReach AreShort
    decide +kernel
  have hpackages : LooksUpPackages twiceFiles strictSettings
      ⟨⟨"classes"⟩, [⟨"missing.jar"⟩] ++ ⟨"lib.jar"⟩ :: []⟩ := by
    have hdefinitions : (Universe.definitionsAt twiceFiles strictSettings.maxClassFileSize
        ⟨"classes"⟩).toOption.all fun ds =>
          let u : Universe := ⟨⟨"classes"⟩, ds, [.archive ⟨"lib.jar"⟩ 2 libraryArchive], [],
            strictSettings.maxClassFileSize⟩
          u.lookedUp twiceFiles ((u.reported strictSettings.internalMarker).flatMap
            TypeDecl.supertypes) = ["B"] := by decide +kernel
    have hmissing : Universe.dependenciesOf twiceFiles [⟨"missing.jar"⟩] = .ok [] := by decide +kernel
    intro _ u hresolve name hname
    rw [Universe.resolve_eq, Universe.dependenciesOf_insert ofPath_libraryArchive, hmissing] at hresolve
    dsimp only at hresolve
    cases hds : Universe.definitionsAt twiceFiles strictSettings.maxClassFileSize ⟨"classes"⟩ with
    | error e => rw [hds] at hresolve; cases hresolve
    | ok ds =>
      rw [hds] at hresolve hdefinitions
      obtain rfl := Except.ok.inj hresolve
      have hlookedUp := of_decide_eq_true hdefinitions
      have hB : name ∈ ["B"] := by
        rw [← hlookedUp]
        exact hname
      rw [List.mem_singleton.1 hB]
      decide +kernel
  have hscan : ApiSurface.scan twiceFiles strictSettings
      ⟨⟨"classes"⟩, [⟨"missing.jar"⟩] ++ ⟨"lib"⟩ :: []⟩ =
        .ok ⟨"classes", [⟨.type, "class A extends B"⟩]⟩ := by decide +kernel
  obtain ⟨-, hscans⟩ :=
    unpacked_like_packed isSound_twiceFiles areFiles_libraryFiles isPacked_libraryFiles hunpacked hreach
  exact ⟨isSound_twiceFiles, areFiles_libraryFiles, isPacked_libraryFiles, hunpacked, hreach, hpackages,
    ((hscans _).2 _ _ _ hpackages).symm.trans hscan⟩

/-! ### Out of reach -/

/-- The folder `lib`, with slashes at the end. -/
def slashedPath (n : Nat) : Path :=
  ⟨.ofList (("lib" : OsString).toList ++ List.replicate n OsString.slash)⟩

theorem length_slashedPath (n : Nat) : (slashedPath n).text.length = 3 + n := by
  rw [slashedPath, OsString.length, OsString.toList_ofList, List.length_append, List.length_replicate]
  rfl

theorem stat_slashedPath {n : Nat} (h : n + 3 < maxPathBytes) :
    twiceFiles.stat (slashedPath n) = .ok (.folder libraryFolder) := by
  have hfolder : twiceFiles.IsFolderAt twiceFiles.current := ⟨_, rfl, rfl⟩
  have hreach : twiceFiles.reach (slashedPath n) = .ok (.present ["lib"] (.folder libraryFolder)) := by
    have hlib : twiceFiles.reach ⟨"lib"⟩ = .ok (.present ["lib"] (.folder libraryFolder)) := rfl
    refine reach_of_withoutDots ?_ ?_ hlib
    · simp [startOf, slashedPath]
    · rw [slashedPath, namesOf_slashes]
  have hrefusal : refusal? (slashedPath n) = none := by
    refine refusal?_eq_none_iff.2 ⟨fun hnul => ?_, fun hempty => ?_, ?_⟩
    · rw [slashedPath, OsString.toList_ofList, List.mem_append, List.mem_replicate] at hnul
      obtain hlib | ⟨-, hslash⟩ := hnul
      · exact absurd hlib (by decide)
      · exact absurd hslash (by decide)
    · have hlength := length_slashedPath n
      rw [hempty, show ("" : OsString).length = 0 from rfl] at hlength
      omega
    · rw [length_slashedPath]
      omega
  rw [FileSystem.stat, locate_of_reach hfolder hrefusal hreach]
  rfl

/-- A path that is just short enough, with nothing to spare for names behind it. -/
theorem library_out_of_reach :
    twiceFiles.isSound ∧ AreFiles libraryFiles ∧ IsPacked twiceFiles ⟨"lib.jar"⟩ libraryFiles ∧
      IsUnpacked twiceFiles (slashedPath 4090) libraryFiles ∧ EntryName.IsProper "B.class" ∧
      ∃ c, Container.ofPath twiceFiles ⟨"lib.jar"⟩ = .ok c ∧ c.contains twiceFiles "B.class" = true ∧
        (Container.folder (slashedPath 4090)).contains twiceFiles "B.class" = false := by
  have hunpacked : IsUnpacked twiceFiles (slashedPath 4090) libraryFiles :=
    isUnpacked_libraryFiles (stat_slashedPath (by decide))
  have hproper : EntryName.IsProper "B.class" := by
    unfold EntryName.IsProper
    decide +kernel
  obtain ⟨id, a, hopen, hentries⟩ := isPacked_libraryFiles
  refine ⟨isSound_twiceFiles, areFiles_libraryFiles, ⟨id, a, hopen, hentries⟩, hunpacked, hproper, _, hopen, ?_, ?_⟩
  · rw [contains_packed hentries]
    decide +kernel
  · rw [Container.contains, ← Bool.not_eq_true, isFile_iff]
    rintro ⟨id, hstat⟩
    obtain ⟨hrefusal, -⟩ := (hunpacked.stat_iff isSound_twiceFiles hproper.leadsAlong).1 hstat
    have hlength := (refusal?_eq_none_iff.1 hrefusal).2.2
    have hlong : 4093 + 7 ≤ ((slashedPath 4090).join ⟨"B.class"⟩).text.length := by
      have hseven : ("B.class" : OsString).length = 7 := by decide
      rw [Path.join, show Path.isAbsolute ⟨"B.class"⟩ = false by decide, if_neg Bool.false_ne_true]
      split <;>
      · simp only [OsString.length_append, length_slashedPath, hseven]
        omega
    exact absurd hlength (Nat.not_lt.2 (Nat.le_trans (by decide) hlong))

end Scan

end Classpath

end ApiSurface
