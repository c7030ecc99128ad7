import ApiSurface.Proofs.Scan.Holders
import ApiSurface.Proofs.Scan.Index
import ApiSurface.Proofs.Scan.ReadBack

/-!
What the questions about one name say together.

A type can be asked for in the artifact alone, it can be asked where it is defined, and it can be loaded.
As long as the files stay as they are, the three answers come from one place: the first entry of the
artifact that declares the name, or else the first location of the classpath that has an entry for it.
-/

namespace ApiSurface

open Scan

namespace Universe

variable {fs : FileSystem} {max : Nat} {r : ScanRequest} {u v : Universe} {name : String} {t : TypeDecl}
  {artifact location : Path} {before after : List Path}

/-! ## The artifact -/

/-- `t` stands in the first entry of the artifact that declares a type of its name. -/
def IsDeclaredFirst (fs : FileSystem) (max : Nat) (artifact : Path) (t : TypeDecl) : Prop :=
  ∃ c c' before e after content, Container.ofPath fs artifact = .ok c ∧
    c.classEntries fs = (.ok (before ++ e :: after), c') ∧
    (c'.read fs e.name max).1 = .ok content ∧ TypeDecl.ofBytes content = .ok t ∧
    ∀ earlier ∈ before, ∀ content' t', (c'.read fs earlier.name max).1 = .ok content' →
      TypeDecl.ofBytes content' = .ok t' → t'.name ≠ t.name

/-- A table that is kept up while the entries of the artifact come says about every name what `u` says. -/
def IsIndexed (fs : FileSystem) (max : Nat) (artifact : Path) (u : Universe) : Prop :=
  ∃ c c' entries x, Container.ofPath fs artifact = .ok c ∧ c.classEntries fs = (.ok entries, c') ∧
    Index.ofEntries fs max c' entries = .ok x ∧ x.IsExact ∧ x.definitions = u.definitions ∧
    ∀ name, x.type? name = u.artifactType? name ∧ x.knows name = (u.artifactType? name).isSome

/-- What a new universe is made of. -/
theorem resolve_eq_ok_iff : resolve fs max r = .ok u ↔
    definitionsAt fs max r.artifact = .ok u.definitions ∧
      dependenciesOf fs r.classpath = .ok u.dependencies ∧
      u.artifact = r.artifact ∧ u.answers = [] ∧ u.maxClassFileSize = max := by
  rw [resolve_eq]
  cases definitionsAt fs max r.artifact with
  | error e => simp [Except.bind]
  | ok definitions =>
    cases dependenciesOf fs r.classpath with
    | error e => simp [Except.bind, Except.map]
    | ok dependencies =>
      simp only [Except.bind, Except.map, Except.ok.injEq]
      constructor
      · rintro rfl
        exact ⟨rfl, rfl, rfl, rfl, rfl⟩
      · obtain ⟨artifact, definitions', dependencies', answers, max'⟩ := u
        rintro ⟨rfl, rfl, rfl, rfl, rfl⟩
        rfl

theorem exists_entries_of_definitionsAt {ds : List Definition}
    (h : definitionsAt fs max artifact = .ok ds) : ∃ c c' entries, Container.ofPath fs artifact = .ok c ∧ c.classEntries fs = (.ok entries, c') ∧
      definitionsOf fs max c' entries = .ok ds := by
  rw [definitionsAt] at h
  cases hopen : Container.ofPath fs artifact with
  | error e => rw [hopen] at h; cases h
  | ok c =>
    rw [hopen] at h
    cases hlist : c.classEntries fs with
    | mk result c' =>
      simp only [hlist, bind, Except.bind] at h
      cases result with
      | error e => cases h
      | ok entries => exact ⟨c, c', entries, rfl, hlist, h⟩

theorem isIndexed_of_definitionsAt (h : definitionsAt fs max artifact = .ok u.definitions) :
    IsIndexed fs max artifact u := by
  obtain ⟨c, c', entries, hopen, hlist, hdefinitions⟩ := exists_entries_of_definitionsAt h
  rw [← Index.definitions_ofEntries] at hdefinitions
  cases hindex : Index.ofEntries fs max c' entries with
  | error e => rw [hindex] at hdefinitions; cases hdefinitions
  | ok x =>
    rw [hindex] at hdefinitions
    have hsame : x.definitions = u.definitions := Except.ok.inj hdefinitions
    have hexact := Index.isExact_ofEntries hindex
    have htype : ∀ name, x.type? name = u.artifactType? name := fun name => by
      rw [Index.type?_eq_find? hexact, hsame, artifactType?]
    refine ⟨c, c', entries, x, hopen, hlist, hindex, hexact, hsame, fun name => ⟨htype name, ?_⟩⟩
    rw [Index.knows_eq hexact, htype]

theorem IsIndexed.artifactType?_eq_some (h : IsIndexed fs max artifact u) :
    u.artifactType? name = some t ↔ .loaded t ∈ u.definitions ∧ t.name = name := by
  obtain ⟨c, c', entries, x, -, -, -, hexact, hsame, hnames⟩ := h
  rw [← (hnames name).1, Index.type?_eq_some hexact, hsame]

theorem IsIndexed.artifactType?_eq_none (h : IsIndexed fs max artifact u) :
    u.artifactType? name = none ↔ ∀ t, .loaded t ∈ u.definitions → t.name ≠ name := by
  simp only [Option.eq_none_iff_forall_ne_some, ne_eq, h.artifactType?_eq_some, not_and]

/-- A search through the contents of the entries ends at the first entry with a type of that name. -/
theorem exists_entry_of_find? {c : Container} {entries : List ClassEntry} {contents : List Bytes}
    (hread : List.Forall₂ (fun e content => (c.read fs e.name max).1 = .ok content) entries contents)
    (hfind : (contents.filterMap declared?).find? (·.name = t.name) = some t) :
    ∃ before e after content, entries = before ++ e :: after ∧
      (c.read fs e.name max).1 = .ok content ∧ TypeDecl.ofBytes content = .ok t ∧
      ∀ earlier ∈ before, ∀ content' t', (c.read fs earlier.name max).1 = .ok content' →
        TypeDecl.ofBytes content' = .ok t' → t'.name ≠ t.name := by
  induction hread with
  | nil => cases hfind
  | @cons e content entries contents hcontent hread ih =>
    -- An entry that does not declare the name is passed by.
    have hpass (hother : ∀ t', TypeDecl.ofBytes content = .ok t' → t'.name ≠ t.name)
        (hrest : (contents.filterMap declared?).find? (·.name = t.name) = some t) :
        ∃ before e' after content', e :: entries = before ++ e' :: after ∧
          (c.read fs e'.name max).1 = .ok content' ∧ TypeDecl.ofBytes content' = .ok t ∧
          ∀ earlier ∈ before, ∀ content' t', (c.read fs earlier.name max).1 = .ok content' →
            TypeDecl.ofBytes content' = .ok t' → t'.name ≠ t.name := by
      obtain ⟨before, e', after, content', rfl, hcontent', ht, hbefore⟩ := ih hrest
      refine ⟨e :: before, e', after, content', rfl, hcontent', ht, List.forall_mem_cons.2 ⟨?_, hbefore⟩⟩
      intro found t' hfound ht'
      obtain rfl := Except.ok.inj (hcontent.symm.trans hfound)
      exact hother t' ht'
    cases hdecoded : TypeDecl.ofBytes content with
    | error failure =>
      have hdeclared : declared? content = none := by rw [declared?, hdecoded]; rfl
      rw [List.filterMap_cons_none hdeclared] at hfind
      exact hpass (by simp [hdecoded]) hfind
    | ok first =>
      have hdeclared : declared? content = some first := by rw [declared?, hdecoded]; rfl
      rw [List.filterMap_cons_some hdeclared] at hfind
      by_cases hname : first.name = t.name
      · rw [List.find?_cons_of_pos (by simpa using hname)] at hfind
        obtain rfl := Option.some.inj hfind
        exact ⟨[], e, entries, content, rfl, hcontent, hdecoded, by simp⟩
      · rw [List.find?_cons_of_neg (by simpa using hname)] at hfind
        exact hpass (by simpa [hdecoded] using hname) hfind

theorem nodup_names_of_resolve (h : resolve fs max r = .ok u) :
    ((typesOf u.definitions).map (·.name)).Nodup := by
  obtain ⟨c, c', entries, contents, -, -, -, htypes⟩ := exists_contents_of_resolve h
  rw [htypes]
  exact nodup_declarations

theorem isDeclaredFirst_of_resolve (h : resolve fs max r = .ok u) (ht : .loaded t ∈ u.definitions) :
    IsDeclaredFirst fs max r.artifact t := by
  obtain ⟨c, c', entries, contents, hopen, hlist, hread, htypes⟩ := exists_contents_of_resolve h
  have hmem : t ∈ declarations [] contents := htypes ▸ Index.mem_typesOf.2 ht
  obtain ⟨before, e, after, content, rfl, hfirst⟩ :=
    exists_entry_of_find? hread (mem_declarations.1 hmem).2
  exact ⟨c, c', before, e, after, content, hopen, hlist, hfirst⟩

/-! ## The classpath -/

/-- A load decodes what the entry of the location has in it. It asks nothing that it would not ask if the
classpath ended there. -/
structure IsLoadedFrom (fs : FileSystem) (max : Nat) (artifact : Path) (v : Universe) (name : String)
    (before : List Path) (location : Path) : Prop where
  result : ∃ c, Container.ofPath fs location = .ok c ∧
    (v.load fs name).1 = (c.read fs (EntryName.ofBinaryName name) max).1.map fun bytes =>
      (TypeDecl.ofBytes bytes).toOption
  asked : ∃ u', resolve fs max ⟨artifact, before ++ [location]⟩ = .ok u' ∧
    (v.loading name).asked fs ⊆ (u'.loading name).asked fs

theorem lookUp_eq (fs : FileSystem) (name : String) (u : Universe) :
    (u.lookUp fs name).1 = match u.holder? fs name with
      | some c => (c.read fs (EntryName.ofBinaryName name) u.maxClassFileSize).1.map fun bytes =>
          (TypeDecl.ofBytes bytes).toOption
      | none => .ok none := by
  rw [lookUp, holder?]
  dsimp only
  rw [readFirst_eq]
  cases u.dependencies.find? (·.contains fs (EntryName.ofBinaryName name)) with
  | none => rfl
  | some c =>
    dsimp only
    cases (c.read fs (EntryName.ofBinaryName name) u.maxClassFileSize).1 <;> rfl

/-- The container of the first location that has the entry is the one that a search goes to. -/
theorem IsFirstHolder.holder? (hfirst : IsFirstHolder fs name before location)
    (h : dependenciesOf fs (before ++ location :: after) = .ok u.dependencies) :
    ∃ c, Container.ofPath fs location = .ok c ∧ u.holder? fs name = some c := by
  obtain ⟨front, c, back, hdependencies, hopen, -, hcontains, hfront⟩ := hfirst.dependenciesOf_eq h
  refine ⟨c, hopen, ?_⟩
  rw [Universe.holder?, hdependencies]
  exact List.find?_eq_some_iff_append.2 ⟨hcontains, front, back, rfl, by simpa using hfront⟩

theorem holder?_eq_none_iff (h : dependenciesOf fs r.classpath = .ok u.dependencies) :
    u.holder? fs name = none ↔ ∀ location ∈ r.classpath, ¬ Holds fs name location :=
  find?_dependenciesOf_eq_none h

theorem origin?_eq_artifact_iff :
    u.origin? fs name = some .artifact ↔ (u.artifactType? name).isSome := by
  rw [origin?]
  split <;> simp_all

theorem origin?_of_artifactType? (hartifact : u.artifactType? name = none) :
    u.origin? fs name = (u.holder? fs name).map fun c => .dependency c.path := by
  rw [origin?, hartifact]
  rfl

theorem origin?_eq_dependency_iff (h : dependenciesOf fs r.classpath = .ok u.dependencies)
    (hartifact : u.artifactType? name = none) :
    u.origin? fs name = some (.dependency location) ↔
      ∃ before after, r.classpath = before ++ location :: after ∧
        IsFirstHolder fs name before location := by
  have horigin := @origin?_of_artifactType? fs u name hartifact
  -- The first location with the entry, wherever it stands, is the one that the answer names.
  have hfound {before location after} (hclasspath : r.classpath = before ++ location :: after)
      (hfirst : IsFirstHolder fs name before location) :
      u.origin? fs name = some (.dependency location) := by
    obtain ⟨c, hopen, hholder⟩ := hfirst.holder? (hclasspath ▸ h)
    rw [horigin, hholder, ← Container.path_of_ofPath hopen]
    rfl
  constructor
  · intro heq
    have hholder : u.holder? fs name ≠ none := by
      intro hnone
      rw [horigin, hnone] at heq
      cases heq
    obtain ⟨place, hmem, hholds⟩ : ∃ place ∈ r.classpath, Holds fs name place := by
      by_contra hnone
      refine hholder ((holder?_eq_none_iff h).2 fun place hmem hholds => ?_)
      exact hnone ⟨place, hmem, hholds⟩
    obtain ⟨before, first, after, hclasspath, hfirst⟩ := exists_isFirstHolder hmem hholds
    obtain rfl := TypeOrigin.dependency.inj (Option.some.inj ((hfound hclasspath hfirst).symm.trans heq))
    exact ⟨before, after, hclasspath, hfirst⟩
  · rintro ⟨before, after, hclasspath, hfirst⟩
    exact hfound hclasspath hfirst

theorem IsFirstHolder.isLoadedFrom (hfirst : IsFirstHolder fs name before location)
    (hresolve : resolve fs max ⟨artifact, before ++ location :: after⟩ = .ok u) (hv : IsVisitOf fs u v)
    (hartifact : u.artifactType? name = none) : IsLoadedFrom fs max artifact v name before location := by
  obtain ⟨hdefinitions, hdependencies, -, -, hmax⟩ := resolve_eq_ok_iff.1 hresolve
  obtain ⟨front, c, back, hcontainers, hopen, hshort, hcontains, hfront⟩ :=
    hfirst.dependenciesOf_eq hdependencies
  constructor
  · obtain ⟨c, hopen, hholder⟩ := hfirst.holder? hdependencies
    refine ⟨c, hopen, ?_⟩
    rw [(hv.load hartifact).1, lookUp_eq, hholder, hmax]
  · let short : Universe := ⟨artifact, u.definitions, front ++ [c], [], max⟩
    have hsubset := hv.asked_loading_subset hartifact
    rw [hcontainers, asked_readingFirst_append hfront hcontains, hmax] at hsubset
    refine ⟨short, resolve_eq_ok_iff.2 ⟨hdefinitions, hshort, rfl, rfl, rfl⟩, ?_⟩
    rwa [@asked_loading fs short name hartifact rfl]

/-! ## All questions -/

/-- **All questions about a name agree.** A name of the artifact leads to the first entry that declares it.
Any other name leads to the first location that has an entry for it and to what this entry has in it, or
to nothing when no location has one. -/
theorem load_agrees (hresolve : resolve fs max r = .ok u) (hasked : u.IsAsked fs v) :
    IsIndexed fs max r.artifact v ∧ ((typesOf v.definitions).map (·.name)).Nodup ∧
    ∀ name,
      (v.origin? fs name = some .artifact ↔ ∃ t, .loaded t ∈ v.definitions ∧ t.name = name) ∧
      (∀ t, .loaded t ∈ v.definitions → t.name = name →
        v.artifactType? name = some t ∧ (v.load fs name).1 = .ok (some t) ∧
          IsDeclaredFirst fs max r.artifact t) ∧
      ((∀ t, .loaded t ∈ v.definitions → t.name ≠ name) →
        v.artifactType? name = none ∧
        (∀ location, v.origin? fs name = some (.dependency location) ↔
          ∃ before after, r.classpath = before ++ location :: after ∧
            IsFirstHolder fs name before location) ∧
        (∀ before location after, r.classpath = before ++ location :: after →
          IsFirstHolder fs name before location →
            IsLoadedFrom fs max r.artifact v name before location) ∧
        (v.origin? fs name = none ↔ ∀ location ∈ r.classpath, ¬ Holds fs name location) ∧
        (v.origin? fs name = none → (v.load fs name).1 = .ok none)) := by
  obtain ⟨hdefinitions, hdependencies, -, hfresh, -⟩ := resolve_eq_ok_iff.1 hresolve
  have hv := hasked.isVisitOf hfresh
  have hindexed : IsIndexed fs max r.artifact v :=
    isIndexed_of_definitionsAt (hdefinitions.trans (congrArg _ hv.definitions.symm))
  have hnodup := hv.definitions ▸ nodup_names_of_resolve hresolve
  refine ⟨hindexed, hnodup, fun name => ⟨?_, fun t ht hname => ?_, fun hnone => ?_⟩⟩
  · rw [origin?_eq_artifact_iff, Option.isSome_iff_exists]
    exact exists_congr fun t => hindexed.artifactType?_eq_some
  · have htype := hindexed.artifactType?_eq_some.2 ⟨ht, hname⟩
    have hfirst := isDeclaredFirst_of_resolve hresolve (hv.definitions ▸ ht)
    exact ⟨htype, congrArg Prod.fst (load_of_artifactType? htype), hfirst⟩
  · have htype := hindexed.artifactType?_eq_none.2 hnone
    have htype' := (hv.artifactType? name).symm.trans htype
    have hnowhere : v.origin? fs name = none ↔ u.holder? fs name = none := by
      rw [hv.origin?, origin?_of_artifactType? htype', Option.map_eq_none_iff]
    refine ⟨htype, fun location => ?_, fun before location after hclasspath hholder => ?_, ?_, fun h => ?_⟩
    · rw [hv.origin?]
      exact origin?_eq_dependency_iff hdependencies htype'
    · obtain ⟨artifact, classpath⟩ := r
      obtain rfl := hclasspath
      exact hholder.isLoadedFrom hresolve hv htype'
    · rw [hnowhere]
      exact holder?_eq_none_iff hdependencies
    · rw [(hv.load htype').1, lookUp_eq, hnowhere.1 h]

/-- The class `A` comes from the artifact and its superclass from the second location, as the first one is
not there. -/
theorem load_agrees_adopted : ∃ u v,
    resolve adoptedFiles 1024 ⟨⟨"classes"⟩, [⟨"missing.jar"⟩, ⟨"lib"⟩]⟩ = .ok u ∧
      u.IsAsked adoptedFiles v ∧
      (∃ t, v.artifactType? "A" = some t ∧ (v.load adoptedFiles "A").1 = .ok (some t) ∧
        IsDeclaredFirst adoptedFiles 1024 ⟨"classes"⟩ t) ∧
      v.origin? adoptedFiles "B" = some (.dependency ⟨"lib"⟩) ∧
      IsLoadedFrom adoptedFiles 1024 ⟨"classes"⟩ v "B" [⟨"missing.jar"⟩] ⟨"lib"⟩ ∧
      v.origin? adoptedFiles "C" = none ∧ (v.load adoptedFiles "C").1 = .ok none := by
  have hnames : (resolve adoptedFiles 1024 ⟨⟨"classes"⟩, [⟨"missing.jar"⟩, ⟨"lib"⟩]⟩).toOption.any
      (fun u => (typesOf u.definitions).map (·.name) = ["A"]) := by decide +kernel
  have hlib : Holds adoptedFiles "B" ⟨"lib"⟩ := ⟨.folder ⟨"lib"⟩, by decide +kernel, by decide +kernel⟩
  have hmissing : ∀ name, ¬ Holds adoptedFiles name ⟨"missing.jar"⟩ := by
    rintro name ⟨c, hopen, -⟩
    have hhas := Container.has_of_ofPath hopen
    exact absurd hhas (by decide +kernel)
  have hopen : Container.ofPath adoptedFiles ⟨"lib"⟩ = .ok (.folder ⟨"lib"⟩) := by decide +kernel
  have hnowhere : ∀ location ∈ [⟨"missing.jar"⟩, ⟨"lib"⟩], ¬ Holds adoptedFiles "C" location := by
    refine List.forall_mem_cons.2 ⟨hmissing "C", List.forall_mem_singleton.2 ?_⟩
    rintro ⟨c, hopen', hcontains⟩
    obtain rfl := Except.ok.inj (hopen.symm.trans hopen')
    exact absurd hcontains (by decide +kernel)
  have hfirst : IsFirstHolder adoptedFiles "B" [⟨"missing.jar"⟩] ⟨"lib"⟩ :=
    ⟨hlib, List.forall_mem_singleton.2 (hmissing "B")⟩
  cases hresolve : resolve adoptedFiles 1024 ⟨⟨"classes"⟩, [⟨"missing.jar"⟩, ⟨"lib"⟩]⟩ with
  | error e => rw [hresolve] at hnames; cases hnames
  | ok u =>
    rw [hresolve] at hnames
    have hnames : (typesOf u.definitions).map (·.name) = ["A"] := of_decide_eq_true hnames
    have hasked : u.IsAsked adoptedFiles (u.load adoptedFiles "B").2 := .load "B" .fresh
    have hsame := (hasked.isVisitOf (asked_resolve hresolve).2).definitions
    have hdefined {t : TypeDecl} (ht : .loaded t ∈ (u.load adoptedFiles "B").2.definitions) :
        t.name = "A" := by
      have hmem := List.mem_map_of_mem (f := TypeDecl.name) (Index.mem_typesOf.2 (hsame ▸ ht))
      exact List.mem_singleton.1 (hnames ▸ hmem)
    obtain ⟨t, ht, hname⟩ := List.mem_map.1 (hnames ▸ List.mem_singleton_self "A")
    obtain ⟨-, -, hagree⟩ := load_agrees hresolve hasked
    obtain ⟨-, hdependency, hloaded, -, -⟩ :=
      (hagree "B").2.2 fun t ht => by rw [hdefined ht]; decide
    obtain ⟨-, -, -, hnone, hempty⟩ := (hagree "C").2.2 fun t ht => by rw [hdefined ht]; decide
    have hown := (hagree "A").2.1 t (hsame ▸ Index.mem_typesOf.1 ht) hname
    have hfound := (hdependency ⟨"lib"⟩).2 ⟨[⟨"missing.jar"⟩], [], rfl, hfirst⟩
    have horigin := hnone.2 hnowhere
    exact ⟨u, _, rfl, hasked, ⟨t, hown⟩, hfound, hloaded _ _ [] rfl hfirst, horigin, hempty horigin⟩

end Universe

end ApiSurface
