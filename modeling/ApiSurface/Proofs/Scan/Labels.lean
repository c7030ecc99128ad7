import ApiSurface.Proofs.Scan.Agreement
import ApiSurface.Proofs.Scan.Unpacked

/-!
The name that a type was asked for by, and its own name.

A type of the artifact is known by the name in its class file. A type of the classpath is found by the
name of an entry, and whatever class stands there is taken for it. The two names are the same exactly if
the class stands in the entry that is meant for it, so they are the same throughout only if every class
of the location does.
-/

namespace ApiSurface

open Scan

/-! ## Names of entries -/

namespace TypeDecl

variable {bytes : Bytes} {t : TypeDecl}

theorem exists_classFile_of_ofBytes (h : ofBytes bytes = .ok t) : ∃ c, ofClassFile c = .ok t := by
  have hdeclared : Scan.declared? bytes = some t := by rw [Scan.declared?, h]; rfl
  obtain ⟨c, -, hof⟩ := Scan.exists_classFile_of_declared? hdeclared
  exact ⟨c, hof⟩

/-- Types are named with dots between the packages. -/
theorem slash_notMem_name (h : ofBytes bytes = .ok t) : '/' ∉ t.name.toList := by
  obtain ⟨c, hof⟩ := exists_classFile_of_ofBytes h
  rw [(isDeclaredBy_of_ofClassFile hof).name]
  exact slash_notMem_binaryName c.name

end TypeDecl

namespace EntryName

/-- Names without slashes differ in their entries. -/
theorem ofBinaryName_injective {name name' : String} (h : '/' ∉ name.toList) (h' : '/' ∉ name'.toList)
    (heq : ofBinaryName name = ofBinaryName name') : name = name' := by
  -- Dots for slashes give the name back, as it has no slash of its own.
  have hback : ∀ {chars : List Char}, '/' ∉ chars →
      (chars.map fun c => if c = '.' then '/' else c).map (fun c => if c = '/' then '.' else c) = chars := by
    intro chars hslash
    rw [List.map_map, List.map_congr_left (g := id) fun c hc => ?_, List.map_id]
    have hne : c ≠ '/' := ne_of_mem_of_not_mem hc hslash
    by_cases hdot : c = '.' <;> simp [hdot, hne]
  have hchars := congrArg String.toList heq
  rw [ofBinaryName, ofBinaryName, String.toList_append, String.toList_append, String.toList_map,
    String.toList_map] at hchars
  have hdots := congrArg (List.map fun c => if c = '/' then '.' else c) (List.append_cancel_right hchars)
  rw [hback h, hback h'] at hdots
  exact String.toList_injective hdots

end EntryName

namespace Universe

variable {fs : FileSystem} {max : Nat} {r : ScanRequest} {u v : Universe} {name : String} {t : TypeDecl}
  {location : Path}

/-! ## Classes in their places -/

/-- The location has the class `t` in the entry for `name`. -/
def IsFoundAs (fs : FileSystem) (max : Nat) (location : Path) (name : String) (t : TypeDecl) : Prop :=
  ∃ c content, Container.ofPath fs location = .ok c ∧
    (c.read fs (EntryName.ofBinaryName name) max).1 = .ok content ∧ TypeDecl.ofBytes content = .ok t

/-- Every class that the location has in an entry with a proper name is named for this entry. -/
def IsLabelled (fs : FileSystem) (max : Nat) (location : Path) : Prop :=
  ∀ c, Container.ofPath fs location = .ok c → ∀ entry, EntryName.IsProper entry → ∀ content t,
    (c.read fs entry max).1 = .ok content → TypeDecl.ofBytes content = .ok t →
      entry = EntryName.ofBinaryName t.name

/-- The name that a class is found by is its own, if it stands in its own entry. -/
theorem IsFoundAs.name_eq_iff (h : IsFoundAs fs max location name t) :
    t.name = name ↔ '/' ∉ name.toList ∧ EntryName.ofBinaryName name = EntryName.ofBinaryName t.name := by
  obtain ⟨c, content, -, -, hdecoded⟩ := h
  have hslash := TypeDecl.slash_notMem_name hdecoded
  constructor
  · rintro rfl
    exact ⟨hslash, rfl⟩
  · rintro ⟨hname, hentry⟩
    exact (EntryName.ofBinaryName_injective hname hslash hentry).symm

theorem IsFoundAs.name_eq (h : IsFoundAs fs max location name t) (hlabelled : IsLabelled fs max location)
    (hslash : '/' ∉ name.toList) (hpackages : [] ∉ packageSegments name) : t.name = name := by
  obtain ⟨c, content, hopen, hread, hdecoded⟩ := id h
  exact h.name_eq_iff.2 ⟨hslash,
    hlabelled c hopen _ (isProper_ofBinaryName hslash hpackages) content t hread hdecoded⟩

/-- What is read below a folder is the content of what the path leads to. -/
theorem contentOf_of_read {path : Path} {entry : String} {content : Bytes}
    (h : ((Container.folder path).read fs entry max).1 = .ok content) :
    ∃ node, fs.stat (path.join ⟨entry⟩) = .ok node ∧ fs.contentOf node = .ok content := by
  rw [Container.read, Container.readUnpacked] at h
  cases hstat : fs.stat (path.join ⟨entry⟩) with
  | error e => rw [hstat] at h; cases h
  | ok node =>
    refine ⟨node, rfl, ?_⟩
    simp only [hstat, Except.mapError, bind, Except.bind] at h
    split at h
    · cases h
    · cases hcontent : fs.contentOf node with
      | error e => rw [hcontent] at h; cases h
      | ok bytes =>
        rw [hcontent] at h
        dsimp only at h
        rw [Container.within] at h
        split at h
        · cases h
        · rw [Except.ok.inj h]

/-- A folder has each class in its own entry if each file with a class in it is where the class belongs. -/
theorem isLabelled_of_isUnpacked {files : List ContainedFile} (hsound : fs.isSound)
    (h : IsUnpacked fs location files)
    (hfiles : ∀ file ∈ files, ∀ t, TypeDecl.ofBytes file.2 = .ok t →
      file.entryName = EntryName.ofBinaryName t.name) : IsLabelled fs max location := by
  intro c hopen entry hproper content t hread hdecoded
  obtain rfl := Except.ok.inj (h.ofPath.symm.trans hopen)
  obtain ⟨node, hstat, hcontent⟩ := contentOf_of_read hread
  cases node with
  | folder children => cases hcontent
  | link | device =>
    -- There is no class in nothing.
    obtain rfl := Except.ok.inj hcontent
    cases hdecoded
  | file id =>
    obtain rfl := Except.ok.inj hcontent
    obtain ⟨-, -, children, hfolder, hget⟩ := (h.stat_iff hsound hproper.leadsAlong).1 hstat
    obtain ⟨children', hfolder', -, hmem⟩ := h
    obtain rfl := Node.folder.inj (Except.ok.inj (hfolder.symm.trans hfolder'))
    have hentry := hfiles _ ((hmem _ _).2 ⟨id, hget, rfl⟩) t hdecoded
    rwa [ContainedFile.entryName, ContainedFile.path, intercalate_segments, OsString.shown_ofText] at hentry

/-! ## Loads -/

/-- What a search of the classpath finds is what the first holder has in the entry. -/
theorem exists_isFoundAs_of_lookUp (h : dependenciesOf fs r.classpath = .ok u.dependencies)
    (hlookUp : (u.lookUp fs name).1 = .ok (some t)) :
    ∃ before location after, r.classpath = before ++ location :: after ∧
      IsFirstHolder fs name before location ∧ IsFoundAs fs u.maxClassFileSize location name t := by
  have hholder : u.holder? fs name ≠ none := by
    intro hnone
    rw [lookUp_eq, hnone] at hlookUp
    cases hlookUp
  obtain ⟨place, hmem, hholds⟩ : ∃ place ∈ r.classpath, Holds fs name place := by
    by_contra hnone
    exact hholder ((holder?_eq_none_iff h).2 fun place hmem hholds => hnone ⟨place, hmem, hholds⟩)
  obtain ⟨before, location, after, hclasspath, hfirst⟩ := exists_isFirstHolder hmem hholds
  obtain ⟨c, hopen, hfound⟩ := hfirst.holder? (hclasspath ▸ h)
  refine ⟨before, location, after, hclasspath, hfirst, ?_⟩
  rw [lookUp_eq, hfound] at hlookUp
  dsimp only at hlookUp
  cases hread : (c.read fs (EntryName.ofBinaryName name) u.maxClassFileSize).1 with
  | error e => rw [hread] at hlookUp; cases hlookUp
  | ok content =>
    rw [hread] at hlookUp
    have hdecoded : (TypeDecl.ofBytes content).toOption = some t := Except.ok.inj hlookUp
    cases hresult : TypeDecl.ofBytes content with
    | error e => rw [hresult] at hdecoded; cases hdecoded
    | ok t' =>
      rw [hresult] at hdecoded
      obtain rfl := Option.some.inj hdecoded
      exact ⟨c, content, hopen, hread, hresult⟩

/-- A loaded type is one of the artifact or what the first holder has in the entry for the name. -/
theorem isFoundAs_of_load (hresolve : resolve fs max r = .ok u) (hasked : u.IsAsked fs v)
    (hload : (v.load fs name).1 = .ok (some t)) :
    (t.name = name ∧ IsDeclaredFirst fs max r.artifact t) ∨
      ∃ before location after, r.classpath = before ++ location :: after ∧
        IsFirstHolder fs name before location ∧ IsFoundAs fs max location name t := by
  obtain ⟨hdefinitions, hdependencies, -, hfresh, hmax⟩ := resolve_eq_ok_iff.1 hresolve
  have hv := hasked.isVisitOf hfresh
  cases hartifact : u.artifactType? name with
  | some own =>
    rw [load_of_artifactType? ((hv.artifactType? name).trans hartifact)] at hload
    obtain rfl := Option.some.inj (Except.ok.inj hload)
    obtain ⟨hmem, heq⟩ := (isIndexed_of_definitionsAt hdefinitions).artifactType?_eq_some.1 hartifact
    exact .inl ⟨heq, isDeclaredFirst_of_resolve hresolve hmem⟩
  | none =>
    rw [(hv.load hartifact).1] at hload
    exact .inr (hmax ▸ exists_isFoundAs_of_lookUp hdependencies hload)

/-- A strict check finds something for each supertype. -/
theorem not_isUnresolved_of_checkSupertypes (hresolve : resolve fs max r = .ok u) (hasked : u.IsAsked fs v)
    (hcheck : (v.checkSupertypes fs true t).1 = .ok ()) : ∀ name ∈ t.supertypes, ¬ IsUnresolved fs u name := by
  obtain ⟨-, -, -, hfresh, -⟩ := resolve_eq_ok_iff.1 hresolve
  rw [((hasked.isVisitOf hfresh).checkSupertypes t).1] at hcheck
  cases hfind : t.supertypes.find? (u.isUnresolved fs) with
  | some other => rw [hfind] at hcheck; cases hcheck
  | none => exact fun name hname h => List.find?_eq_none.1 hfind name hname (isUnresolved_iff.2 h)

/-- What a name leads to is a type of the platform, one of the artifact or one that a location has in the
entry for the name. -/
theorem exists_of_not_isUnresolved (hresolve : resolve fs max r = .ok u) (h : ¬ IsUnresolved fs u name) :
    isPlatformName name = true ∨ (∃ d, d.name = name ∧ IsDeclaredFirst fs max r.artifact d) ∨
      ∃ d, ∃ location ∈ r.classpath, IsFoundAs fs max location name d := by
  obtain ⟨-, hdependencies, -, -, hmax⟩ := resolve_eq_ok_iff.1 hresolve
  by_cases hplatform : isPlatformName name = true
  · exact .inl hplatform
  by_cases hown : ∃ d ∈ typesOf u.definitions, d.name = name
  · obtain ⟨d, hd, heq⟩ := hown
    exact .inr (.inl ⟨d, heq, isDeclaredFirst_of_resolve hresolve (Index.mem_typesOf.1 hd)⟩)
  · have hclass : HasClass fs u name := by
      by_contra hnone
      exact h ⟨by simpa using hplatform, fun d hd heq => hown ⟨d, hd, heq⟩, hnone⟩
    obtain ⟨d, hd⟩ := hasClass_iff.1 hclass
    obtain ⟨before, location, after, hclasspath, -, hfound⟩ := exists_isFoundAs_of_lookUp hdependencies hd
    exact .inr (.inr ⟨d, location, by rw [hclasspath]; simp, hmax ▸ hfound⟩)

/-- **A loaded type has the name that it was asked for by if it stands where this name belongs.** A type
of the artifact always has this name. A type of the classpath has it exactly if its own name leads to the
same entry, which is so for every proper name as long as the location has each class in its own entry.
Then a strict check accepts a supertype only if there is a class of its name. -/
theorem load_name (hresolve : resolve fs max r = .ok u) (hasked : u.IsAsked fs v) :
    (∀ name t, (v.load fs name).1 = .ok (some t) →
      (t.name = name ∧ IsDeclaredFirst fs max r.artifact t) ∨
      ∃ before location after, r.classpath = before ++ location :: after ∧
        IsFirstHolder fs name before location ∧ IsFoundAs fs max location name t ∧
        (t.name = name ↔
          '/' ∉ name.toList ∧ EntryName.ofBinaryName name = EntryName.ofBinaryName t.name) ∧
        (IsLabelled fs max location → '/' ∉ name.toList → [] ∉ packageSegments name → t.name = name)) ∧
    ∀ bytes t, TypeDecl.ofBytes bytes = .ok t → (∀ name ∈ t.supertypes, [] ∉ packageSegments name) →
      (∀ location ∈ r.classpath, IsLabelled fs max location) →
      (v.checkSupertypes fs true t).1 = .ok () →
      ∀ name ∈ t.supertypes, isPlatformName name = true ∨ ∃ d, d.name = name ∧
        (IsDeclaredFirst fs max r.artifact d ∨ ∃ location ∈ r.classpath, IsFoundAs fs max location name d) := by
  refine ⟨fun name t hload => ?_, fun bytes t hdecoded hpackages hlabelled hcheck name hname => ?_⟩
  · obtain hown | ⟨before, location, after, hclasspath, hfirst, hfound⟩ :=
      isFoundAs_of_load hresolve hasked hload
    · exact .inl hown
    · exact .inr ⟨before, location, after, hclasspath, hfirst, hfound, hfound.name_eq_iff, hfound.name_eq⟩
  · have hslash : '/' ∉ name.toList := by
      obtain ⟨c, hof⟩ := TypeDecl.exists_classFile_of_ofBytes hdecoded
      exact slash_notMem_supertypes hof name hname
    have hresolved := not_isUnresolved_of_checkSupertypes hresolve hasked hcheck name hname
    obtain hplatform | ⟨d, heq, hd⟩ | ⟨d, location, hmem, hfound⟩ :=
      exists_of_not_isUnresolved hresolve hresolved
    · exact .inl hplatform
    · exact .inr ⟨d, heq, .inl hd⟩
    · have heq := hfound.name_eq (hlabelled location hmem) hslash (hpackages name hname)
      exact .inr ⟨d, heq, .inr ⟨location, hmem, hfound⟩⟩

/-- A folder with the class `B` and nothing else. -/
theorem isUnpacked_parentClass {path : Path} {id : FileId}
    (hstat : fs.stat path = .ok (.folder [("B.class", .file id)]))
    (hcontent : Bytes.ofByteArray (fs.content id) = parentClass) :
    IsUnpacked fs path [(["B.class"], parentClass)] := by
  have hbelow : ∀ {place : Location} {node : Node},
      (Node.folder [("B.class", .file id)]).get? place = some node →
        node.isFolder ∨ place = [("B.class" : OsString)] ∧ node = .file id := by
    intro place node h
    cases place with
    | nil => exact .inl (by rw [← Option.some.inj h]; rfl)
    | cons name rest =>
      obtain ⟨rfl, hfile⟩ | hothers := Node.get?_folder_cons h
      · obtain ⟨hrest, hnode⟩ := (Node.get?_eq_some_of_not_isFolder rfl).1 hfile
        exact .inr ⟨by rw [hrest], hnode.symm⟩
      · cases hothers
  refine ⟨[("B.class", .file id)], hstat, fun place node hget => ?_, fun place content => ⟨fun hmem => ?_, ?_⟩⟩
  · exact (hbelow hget).imp_right fun h => ⟨id, h.2⟩
  · obtain ⟨rfl, rfl⟩ := Prod.mk.inj (List.mem_singleton.1 hmem)
    exact ⟨id, rfl, hcontent⟩
  · rintro ⟨other, hget, rfl⟩
    obtain hfolder | ⟨rfl, hnode⟩ := hbelow hget
    · cases hfolder
    · obtain rfl := Node.file.inj hnode
      rw [hcontent]
      exact List.mem_singleton_self _

/-- The class `A` of the artifact has its superclass in a folder where `B` is in its own entry. -/
theorem load_name_adopted : ∃ u b t,
    resolve adoptedFiles 1024 ⟨⟨"classes"⟩, [⟨"missing.jar"⟩, ⟨"lib"⟩]⟩ = .ok u ∧
      IsLabelled adoptedFiles 1024 ⟨"missing.jar"⟩ ∧ IsLabelled adoptedFiles 1024 ⟨"lib"⟩ ∧
      (u.load adoptedFiles "B").1 = .ok (some b) ∧ b.name = "B" ∧
      TypeDecl.ofBytes orphanClass = .ok t ∧ t.supertypes = ["B"] ∧
      (u.checkSupertypes adoptedFiles true t).1 = .ok () ∧
      ∃ d, d.name = "B" ∧ (IsDeclaredFirst adoptedFiles 1024 ⟨"classes"⟩ d ∨
        ∃ location ∈ [⟨"missing.jar"⟩, ⟨"lib"⟩], IsFoundAs adoptedFiles 1024 location "B" d) := by
  have hmissing : IsLabelled adoptedFiles 1024 ⟨"missing.jar"⟩ := by
    intro c hopen
    exact absurd (Container.has_of_ofPath hopen) (by decide +kernel)
  have hlib : IsLabelled adoptedFiles 1024 ⟨"lib"⟩ := by
    refine isLabelled_of_isUnpacked (by decide +kernel)
      (isUnpacked_parentClass rfl (by decide +kernel)) fun file hfile t hdecoded => ?_
    obtain rfl := List.mem_singleton.1 hfile
    have hname : (TypeDecl.ofBytes parentClass).toOption.all (·.name = "B") := by decide +kernel
    rw [hdecoded] at hname
    rw [of_decide_eq_true hname]
    decide +kernel
  have hlabelled : ∀ location ∈ [⟨"missing.jar"⟩, ⟨"lib"⟩], IsLabelled adoptedFiles 1024 location :=
    List.forall_mem_cons.2 ⟨hmissing, List.forall_mem_singleton.2 hlib⟩
  have hfacts : (resolve adoptedFiles 1024 ⟨⟨"classes"⟩, [⟨"missing.jar"⟩, ⟨"lib"⟩]⟩).toOption.any fun u =>
      ((u.load adoptedFiles "B").1.toOption.any Option.isSome) ∧
        (TypeDecl.ofBytes orphanClass).toOption.any fun t => t.supertypes = ["B"] ∧
          (u.checkSupertypes adoptedFiles true t).1.toOption.isSome := by decide +kernel
  obtain ⟨u, hresolve, hu⟩ := exists_of_any hfacts
  obtain ⟨hanswer, hclass⟩ := of_decide_eq_true hu
  obtain ⟨answer, hload, hsome⟩ := exists_of_any hanswer
  obtain ⟨b, rfl⟩ := Option.isSome_iff_exists.1 hsome
  obtain ⟨t, hdecoded, ht⟩ := exists_of_any hclass
  obtain ⟨hsupertypes, hchecked⟩ := of_decide_eq_true ht
  have hcheck : (u.checkSupertypes adoptedFiles true t).1 = .ok () := by
    cases hresult : (u.checkSupertypes adoptedFiles true t).1 with
    | error e => rw [hresult] at hchecked; cases hchecked
    | ok => rfl
  obtain ⟨hnames, hstrict⟩ := load_name hresolve .fresh
  have hname : b.name = "B" := by
    obtain ⟨hname, -⟩ | ⟨before, location, after, hclasspath, -, -, -, hname⟩ := hnames "B" b hload
    · exact hname
    · have hmem : location ∈ [⟨"missing.jar"⟩, ⟨"lib"⟩] := by
        rw [show [⟨"missing.jar"⟩, ⟨"lib"⟩] = before ++ location :: after from hclasspath]
        simp
      exact hname (hlabelled location hmem) (by decide) (by decide)
  have hexists := hstrict orphanClass t hdecoded (by rw [hsupertypes]; decide) hlabelled hcheck "B"
    (by rw [hsupertypes]; exact List.mem_singleton_self "B")
  exact ⟨u, b, t, hresolve, hmissing, hlib, hload, hname, hdecoded, hsupertypes, hcheck,
    hexists.resolve_left (by decide)⟩

/-- A class that stands in the entry of another one is loaded by the name of that one. -/
theorem not_load_name : ¬ ∀ (fs : FileSystem) (max : Nat) (r : ScanRequest) (u : Universe) (name : String)
    (t : TypeDecl), resolve fs max r = .ok u → (u.load fs name).1 = .ok (some t) → t.name = name := by
  intro hall
  have hfacts : (resolve twiceFiles 1024 ⟨⟨"classes"⟩, [⟨"lib"⟩]⟩).toOption.any fun u =>
      (u.load twiceFiles "p.A").1.toOption.any fun answer => answer.any fun t => t.name = "A" := by
    decide +kernel
  obtain ⟨u, hresolve, hanswer⟩ := exists_of_any hfacts
  obtain ⟨answer, hload, hsome⟩ := exists_of_any hanswer
  obtain ⟨t, rfl, hname⟩ := (Option.any_eq_true ..).1 hsome
  exact absurd ((of_decide_eq_true hname).symm.trans (hall _ _ _ u "p.A" t hresolve hload)) (by decide)

end Universe

end ApiSurface
