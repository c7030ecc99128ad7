import ApiSurface.Proofs.Scan.Labels
import ApiSurface.Proofs.Scan.Snapshot

/-!
Where a name can lead to.

The name of a type becomes a path when it is looked up below a folder. Every dot becomes a slash, so there
is no way up in it. But a name that begins with a dot becomes an absolute path, and that is seen in the same
way from everywhere. Any other name stays below the folders of the classpath: nothing else is asked for,
and what else there is makes no difference.
-/

namespace ApiSurface

open FileSystem Asking Scan

/-! ## Names -/

namespace EntryName

/-- The name begins neither with a dot nor with a slash. -/
def IsRootless (name : String) : Prop :=
  name.toList.head? ≠ some '.' ∧ name.toList.head? ≠ some '/'

theorem toList_ofBinaryName (name : String) : (ofBinaryName name).toList =
    (name.toList.map fun c => if c = '.' then '/' else c) ++ ".class".toList := by
  rw [ofBinaryName, String.toList_append, String.toList_map]
  rfl

theorem IsRootless.isAbsolute_eq_false {name : String} (h : IsRootless name) :
    Path.isAbsolute ⟨ofBinaryName name⟩ = false := by
  obtain ⟨hdot, hslash⟩ := h
  refine decide_eq_false fun hhead => absurd (OsString.head?_ofText_eq_slash hhead) ?_
  rw [toList_ofBinaryName]
  cases hchars : name.toList with
  | nil => decide
  | cons c rest =>
    rw [hchars] at hdot hslash
    have hc : c ≠ '.' := fun heq => hdot (congrArg some heq)
    simpa [hc] using hslash

/-- Only the last part of the name of an entry has a dot. -/
theorem splitOn_withExtension {chars : List Char} (h : '.' ∉ chars) :
    ∃ front last, (chars ++ ".class".toList).splitOn '/' = front ++ [last ++ ".class".toList] ∧
      ∀ part ∈ front, '.' ∉ part := by
  induction hlength : chars.length using Nat.strong_induction_on generalizing chars with
  | _ n ih =>
    by_cases hslash : '/' ∈ chars
    · obtain ⟨first, rest, rfl, hfirst⟩ := List.eq_append_cons_of_mem hslash
      simp only [List.mem_append, List.mem_cons, not_or] at h
      simp only [List.length_append, List.length_cons] at hlength
      obtain ⟨front, last, hsplit, hfront⟩ := ih rest.length (by omega) h.2.2 rfl
      refine ⟨first :: front, last, ?_, List.forall_mem_cons.2 ⟨h.1, hfront⟩⟩
      rw [List.append_assoc, List.cons_append, List.splitOn_append_cons_self,
        List.splitOn_eq_singleton hfirst, hsplit]
      rfl
    · refine ⟨[], chars, List.splitOn_eq_singleton ?_, List.forall_mem_nil _⟩
      simpa using hslash

/-- Below a folder the name of an entry leads along its parts. There are no dots among them. -/
theorem IsRootless.leadsAlong {name : String} (h : IsRootless name) :
    LeadsAlong (ofBinaryName name) (namesOf (ofBinaryName name)) := by
  have hnone : '.' ∉ name.toList.map fun c => if c = '.' then '/' else c := by
    intro hmem
    obtain ⟨c, -, hc⟩ := List.mem_map.1 hmem
    split at hc
    · exact absurd hc (by decide)
    · next hne => exact hne hc
  obtain ⟨front, last, hsplit, hfront⟩ := splitOn_withExtension hnone
  rw [← toList_ofBinaryName] at hsplit
  let text := fun chars : List Char => OsString.ofText (String.ofList chars)
  have htexts : ((ofBinaryName name : OsString).toList.splitOn OsString.slash).map OsString.ofList =
      front.map text ++ [text (last ++ ".class".toList)] := by
    rw [OsString.splitOn_slash_ofText, hsplit, List.map_append, List.map_singleton]
  have hlast : text (last ++ ".class".toList) ≠ "" := by
    intro hempty
    have hchars := congrArg String.toList (OsString.ofText_inj.1 hempty)
    simp at hchars
  have hnames : namesOf (ofBinaryName name) =
      (front.map text).filter (· ≠ ("" : OsString)) ++ [text (last ++ ".class".toList)] := by
    unfold namesOf
    have hkeeps : ([text (last ++ ".class".toList)].filter (· ≠ ("" : OsString))) = [text (last ++ ".class".toList)] :=
      List.filter_cons_of_pos (decide_eq_true hlast)
    rw [htexts, List.filter_append, hkeeps]
  refine ⟨h.isAbsolute_eq_false, ?_, fun part hpart => ?_, by simp [hnames]⟩
  · unfold segmentsOf
    dsimp only
    rw [htexts, List.getLast?_concat, if_neg (fun heq => hlast (Option.some.inj heq)), List.append_nil, ← htexts]
    rfl
  · have hpart' := isPart_of_mem_namesOf hpart
    rw [hnames, List.mem_append, List.mem_filter, List.mem_map, List.mem_singleton] at hpart
    refine Node.isName_iff.2 ⟨hpart', ?_⟩
    obtain ⟨⟨chars, hchars, rfl⟩, -⟩ | rfl := hpart
    · have hdot := hfront chars hchars
      refine ⟨fun heq => hdot ?_, fun heq => hdot ?_⟩ <;>
      · rw [← String.toList_ofList (l := chars), OsString.ofText_inj.1 heq]
        decide
    · have hlong : ".class".length ≤ (String.ofList (last ++ ".class".toList)).length := by simp
      refine ⟨fun heq => ?_, fun heq => ?_⟩ <;>
      · rw [OsString.ofText_inj.1 heq] at hlong
        exact absurd hlong (by decide)

end EntryName

open EntryName (IsRootless)

/-! ## Sites -/

/-- Where a container has its entries: in the file of an archive or below a folder. -/
inductive Site
  | file (id : FileId)
  | folder (path : Path)

def Container.site : Container → Site
  | .archive _ file _ => .file file
  | .folder path => .folder path

/-- Below a folder of the classpath are files, and but for folders nothing else. -/
def Site.IsPlain (fs : FileSystem) : Site → Prop
  | .file _ => True
  | .folder path => ∃ files, IsUnpacked fs path files

/-- Both file systems have the same there. -/
def Site.IsAlike (fs fs' : FileSystem) : Site → Prop
  | .file id => fs'.content id = fs.content id
  | .folder path => ∃ files, IsUnpacked fs path files ∧ IsUnpacked fs' path files

section

variable {fs : FileSystem} {max : Nat} {entry : String} {cs : List Container}

theorem Container.site_read (c : Container) : (c.read fs entry max).2.site = c.site := by
  cases c <;> rfl

theorem map_site_readFirst :
    (Universe.readFirst fs max entry cs).2.map Container.site = cs.map Container.site := by
  induction cs with
  | nil => rfl
  | cons c rest ih =>
    rw [Universe.readFirst]
    split
    · rw [List.map_cons, Container.site_read, List.map_cons]
    · rw [List.map_cons, ih, List.map_cons]

end

/-- The sites of the dependencies, in the order of the classpath. -/
def Universe.sites (u : Universe) : List Site :=
  u.dependencies.map Container.site

/-- Loads leave the sites as they are. -/
theorem Universe.sites_load (fs : FileSystem) (name : String) (u : Universe) :
    (u.load fs name).2.sites = u.sites := by
  have hload := isLoad_load fs name u
  generalize u.load fs name = p at hload ⊢
  cases hload with
  | own | kept => rfl
  | failed | found => exact map_site_readFirst

/-! ## Questions -/

/-- The node stands below the folder that the path leads to. -/
def FileSystem.StandsBelow (fs : FileSystem) (path : Path) (node : Node) : Prop :=
  ∃ children place, fs.stat path = .ok (.folder children) ∧
    (Node.folder children).get? place = some node

/-- What is asked for is below one of the folders or is the content of one of the archives. -/
def Question.StaysWithin (fs : FileSystem) (sites : List Site) : Question → Prop
  | .node path => ∃ folder text, .folder folder ∈ sites ∧ path = folder.join ⟨text⟩ ∧
      Path.isAbsolute ⟨text⟩ = false ∧ ∀ node, fs.stat path = .ok node → fs.StandsBelow folder node
  | .classFiles _ => False
  | .content id => .file id ∈ sites ∨
      ∃ folder, .folder folder ∈ sites ∧ fs.StandsBelow folder (.file id)

/-- A question of `x` is one of either part. -/
theorem Asking.mem_asked_bind {α β : Type} {fs : FileSystem} {x : Asking α} {f : α → Asking β} {q : Question} :
    q ∈ (x >>= f).asked fs ↔ q ∈ x.asked fs ∨ q ∈ (f (x.run fs)).asked fs := by
  rw [asked_bind, List.mem_append]

namespace Container

variable {fs : FileSystem} {sites : List Site} {c : Container} {name : String} {max : Nat} {q : Question}

/-- A path below a folder without links leads to what is below this folder. -/
theorem staysWithin_node {folder : Path} (hsound : fs.isSound) (hmem : .folder folder ∈ sites)
    (hplain : (Site.folder folder).IsPlain fs) (hname : IsRootless name) :
    (Question.node (folder.join ⟨EntryName.ofBinaryName name⟩)).StaysWithin fs sites := by
  refine ⟨folder, _, hmem, rfl, hname.isAbsolute_eq_false, fun node hnode => ?_⟩
  obtain ⟨files, children, hstat, honly, -⟩ := hplain
  obtain ⟨-, -, hget⟩ := (stat_join_below (isSound_iff.1 hsound).2 hstat (isLinkFree_of_files honly)
    hname.leadsAlong).1 hnode
  exact ⟨children, _, hstat, hget⟩

theorem staysWithin_having (hsound : fs.isSound) (hmem : c.site ∈ sites) (hplain : c.site.IsPlain fs)
    (hname : IsRootless name) (hq : q ∈ (c.having (EntryName.ofBinaryName name)).asked fs) :
    q.StaysWithin fs sites := by
  cases c with
  | archive => cases hq
  | folder folder =>
    obtain hnode | hrest := mem_asked_bind.1 hq
    · obtain rfl := List.mem_singleton.1 hnode
      exact staysWithin_node hsound hmem hplain hname
    · rw [run_node] at hrest
      cases hstat : fs.stat (folder.join ⟨EntryName.ofBinaryName name⟩) <;>
      · rw [hstat] at hrest
        cases hrest

theorem staysWithin_reading (hsound : fs.isSound) (hmem : c.site ∈ sites) (hplain : c.site.IsPlain fs)
    (hname : IsRootless name) (hq : q ∈ (c.reading (EntryName.ofBinaryName name) max).asked fs) :
    q.StaysWithin fs sites := by
  cases c with
  | archive =>
    obtain hcontent | hrest := mem_asked_bind.1 hq
    · obtain rfl := List.mem_singleton.1 hcontent
      exact .inl hmem
    · cases hrest
  | folder folder =>
    have hwithin := staysWithin_node hsound hmem hplain hname
    obtain hread | hrest := mem_asked_bind.1 hq
    · obtain hnode | hrest := mem_asked_bind.1 hread
      · obtain rfl := List.mem_singleton.1 hnode
        exact hwithin
      · rw [run_node] at hrest
        cases hstat : fs.stat (folder.join ⟨EntryName.ofBinaryName name⟩) with
        | error e => rw [hstat] at hrest; cases hrest
        | ok node =>
          rw [hstat] at hrest
          cases node with
          | folder | link | device => cases hrest
          | file id =>
            obtain hcontent | hrest := mem_asked_bind.1 hrest
            · obtain rfl := List.mem_singleton.1 hcontent
              obtain ⟨folder', text, hmem', heq, -, hbelow⟩ := hwithin
              exact .inr ⟨folder', hmem', hbelow _ hstat⟩
            · cases hrest
    · cases hrest

end Container

namespace Universe

variable {fs : FileSystem} {max : Nat} {entry name : String} {cs : List Container} {u : Universe} {q : Question}

/-- A search through containers asks only what one of them is asked. -/
theorem exists_of_asked_readingFirst (hq : q ∈ (readingFirst max entry cs).asked fs) :
    ∃ c ∈ cs, q ∈ (c.having entry).asked fs ∨ q ∈ (c.reading entry max).asked fs := by
  induction cs with
  | nil => cases hq
  | cons c rest ih =>
    rw [asked_readingFirst_cons, List.mem_append] at hq
    obtain hhaving | hq := hq
    · exact ⟨c, List.mem_cons_self, .inl hhaving⟩
    · split at hq
      · exact ⟨c, List.mem_cons_self, .inr hq⟩
      · obtain ⟨d, hd, hasked⟩ := ih hq
        exact ⟨d, List.mem_cons_of_mem _ hd, hasked⟩

theorem staysWithin_loading (hsound : fs.isSound) (hplain : ∀ site ∈ u.sites, site.IsPlain fs)
    (hname : IsRootless name) (hq : q ∈ (u.loading name).asked fs) : q.StaysWithin fs u.sites := by
  cases hartifact : u.artifactType? name with
  | some t =>
    rw [loading, hartifact] at hq
    cases hq
  | none =>
    cases hanswers : u.answers.lookup name with
    | some answer =>
      rw [loading, hartifact] at hq
      dsimp only at hq
      rw [hanswers] at hq
      cases hq
    | none =>
      rw [asked_loading hartifact hanswers] at hq
      obtain ⟨c, hc, hasked⟩ := exists_of_asked_readingFirst hq
      have hmem : c.site ∈ u.sites := List.mem_map_of_mem hc
      exact hasked.elim (Container.staysWithin_having hsound hmem (hplain _ hmem) hname)
        (Container.staysWithin_reading hsound hmem (hplain _ hmem) hname)

/-- A search for supertypes asks only what a load of one of them asks. -/
theorem exists_of_asked_searching {strict : Bool} {names : List String}
    (hq : q ∈ (u.searching strict names).asked fs) :
    ∃ name ∈ names, ∃ u' : Universe, u'.sites = u.sites ∧ q ∈ (u'.loading name).asked fs := by
  induction names generalizing u with
  | nil => cases hq
  | cons first rest ih =>
    -- What is asked behind the load of the first name is asked by a search for the others.
    have hlater {v : Universe} (hsites : v.sites = u.sites) (hasked : q ∈ (v.searching strict rest).asked fs) :
        ∃ name ∈ first :: rest, ∃ u' : Universe, u'.sites = u.sites ∧ q ∈ (u'.loading name).asked fs := by
      obtain ⟨name, hname, u', hsites', hload⟩ := ih hasked
      exact ⟨name, List.mem_cons_of_mem _ hname, u', hsites'.trans hsites, hload⟩
    unfold searching at hq
    split at hq
    · exact hlater rfl hq
    · obtain hload | hrest := mem_asked_bind.1 hq
      · exact ⟨first, List.mem_cons_self, u, rfl, hload⟩
      · have hsites := sites_load fs first u
        rw [run_loading] at hrest
        rcases hresult : u.load fs first with ⟨e | _ | t, v⟩ <;> rw [hresult] at hrest hsites
        · cases strict with
          | true => cases hrest
          | false => exact hlater hsites hrest
        · cases strict with
          | true => cases hrest
          | false => exact hlater hsites hrest
        · exact hlater hsites hrest

theorem staysWithin_checking {strict : Bool} {t : TypeDecl} (hsound : fs.isSound)
    (hplain : ∀ site ∈ u.sites, site.IsPlain fs) (hnames : ∀ name ∈ t.supertypes, IsRootless name)
    (hq : q ∈ (u.checking strict t).asked fs) : q.StaysWithin fs u.sites := by
  obtain hsearch | hrest := mem_asked_bind.1 hq
  · obtain ⟨name, hname, u', hsites, hload⟩ := exists_of_asked_searching hsearch
    rw [← hsites] at hplain ⊢
    exact staysWithin_loading hsound hplain (hnames name hname) hload
  · rw [run_searching] at hrest
    rcases hsearch : u.unresolvedAmong fs strict t.supertypes with ⟨_ | found, u'⟩ <;>
    · rw [hsearch] at hrest
      cases hrest

/-- Asks for the first container with an entry for the type. -/
def findingHolder (name : String) : List Container → Asking (Option Container)
  | [] => return none
  | c :: rest => do
    if ← c.having (EntryName.ofBinaryName name) then return some c else findingHolder name rest

/-- Asks where the type is defined. -/
def originating (name : String) (u : Universe) : Asking (Option TypeOrigin) :=
  if (u.artifactType? name).isSome then return some .artifact
  else do return (← findingHolder name u.dependencies).map fun c => .dependency c.path

theorem run_originating (fs : FileSystem) (name : String) (u : Universe) :
    (originating name u).run fs = u.origin? fs name := by
  have hholder : ∀ cs, (findingHolder name cs).run fs =
      cs.find? (·.contains fs (EntryName.ofBinaryName name)) := by
    intro cs
    induction cs with
    | nil => rfl
    | cons c rest ih =>
      rw [findingHolder, run_bind, Container.run_having, List.find?_cons]
      cases c.contains fs (EntryName.ofBinaryName name) with
      | true => rfl
      | false => exact ih
  unfold originating origin?
  split
  · rfl
  · rw [run_bind, hholder]
    rfl

theorem staysWithin_originating (hsound : fs.isSound) (hplain : ∀ site ∈ u.sites, site.IsPlain fs)
    (hname : IsRootless name) (hq : q ∈ (u.originating name).asked fs) : q.StaysWithin fs u.sites := by
  have hholder : ∀ cs, (∀ c ∈ cs, c.site ∈ u.sites) → q ∈ (findingHolder name cs).asked fs →
      q.StaysWithin fs u.sites := by
    intro cs hcs hq
    induction cs with
    | nil => cases hq
    | cons c rest ih =>
      obtain ⟨hc, hrest⟩ := List.forall_mem_cons.1 hcs
      obtain hhaving | hq := mem_asked_bind.1 hq
      · exact Container.staysWithin_having hsound hc (hplain _ hc) hname hhaving
      · split at hq
        · cases hq
        · exact ih hrest hq
  unfold originating at hq
  split at hq
  · cases hq
  · obtain hfind | hrest := mem_asked_bind.1 hq
    · exact hholder _ (fun c hc => List.mem_map_of_mem hc) hfind
    · cases hrest

end Universe

/-! ## What makes no difference -/

section Alike

variable {fs fs' : FileSystem} {c : Container} {cs : List Container} {name : String} {max : Nat} {u : Universe}

theorem Container.contains_alike (hsound : fs.isSound) (hsound' : fs'.isSound) (h : c.site.IsAlike fs fs')
    (hname : IsRootless name) :
    c.contains fs' (EntryName.ofBinaryName name) = c.contains fs (EntryName.ofBinaryName name) := by
  cases c with
  | archive => rfl
  | folder path =>
    obtain ⟨files, hfiles, hfiles'⟩ := h
    rw [Bool.eq_iff_iff, hfiles.contains_iff hsound hname.leadsAlong,
      hfiles'.contains_iff hsound' hname.leadsAlong]

theorem Container.read_alike (hsound : fs.isSound) (hsound' : fs'.isSound) (h : c.site.IsAlike fs fs')
    (hname : IsRootless name) (hcontains : c.contains fs (EntryName.ofBinaryName name)) (max : Nat) :
    c.read fs' (EntryName.ofBinaryName name) max = c.read fs (EntryName.ofBinaryName name) max := by
  cases c with
  | archive path file a =>
    have hcontent : fs'.content file = fs.content file := h
    rw [Container.read, Container.read, hcontent]
  | folder path =>
    obtain ⟨files, hfiles, hfiles'⟩ := h
    obtain ⟨hrefusal, hshort, content, hmem⟩ := (hfiles.contains_iff hsound hname.leadsAlong).1 hcontains
    refine Prod.ext ?_ rfl
    rw [hfiles.read_eq hsound hname.leadsAlong hrefusal hshort hmem,
      hfiles'.read_eq hsound' hname.leadsAlong hrefusal hshort hmem]

namespace Universe

theorem readFirst_alike (hsound : fs.isSound) (hsound' : fs'.isSound)
    (h : ∀ c ∈ cs, c.site.IsAlike fs fs') (hname : IsRootless name) :
    readFirst fs' max (EntryName.ofBinaryName name) cs = readFirst fs max (EntryName.ofBinaryName name) cs := by
  induction cs with
  | nil => rfl
  | cons c rest ih =>
    obtain ⟨hc, hrest⟩ := List.forall_mem_cons.1 h
    rw [readFirst, readFirst, Container.contains_alike hsound hsound' hc hname, ih hrest]
    by_cases hcontains : c.contains fs (EntryName.ofBinaryName name)
    · rw [if_pos hcontains, if_pos hcontains, Container.read_alike hsound hsound' hc hname hcontains]
    · rw [if_neg hcontains, if_neg hcontains]

theorem origin?_alike (hsound : fs.isSound) (hsound' : fs'.isSound)
    (h : ∀ site ∈ u.sites, site.IsAlike fs fs') (hname : IsRootless name) :
    u.origin? fs' name = u.origin? fs name := by
  have hholder : u.holder? fs' name = u.holder? fs name := by
    refine List.find?_congr fun c hc => ?_
    exact Container.contains_alike hsound hsound' (h _ (List.mem_map_of_mem hc)) hname
  rw [origin?, origin?, hholder]

theorem load_alike (hsound : fs.isSound) (hsound' : fs'.isSound)
    (h : ∀ site ∈ u.sites, site.IsAlike fs fs') (hname : IsRootless name) :
    u.load fs' name = u.load fs name := by
  have hlookUp : u.lookUp fs' name = u.lookUp fs name := by
    rw [lookUp, lookUp, readFirst_alike hsound hsound' (fun c hc => h _ (List.mem_map_of_mem hc)) hname]
  rw [load, load, hlookUp]

theorem unresolvedAmong_alike {strict : Bool} {names : List String} (hsound : fs.isSound)
    (hsound' : fs'.isSound) (h : ∀ site ∈ u.sites, site.IsAlike fs fs')
    (hnames : ∀ name ∈ names, IsRootless name) :
    u.unresolvedAmong fs' strict names = u.unresolvedAmong fs strict names := by
  induction names generalizing u with
  | nil => rfl
  | cons first rest ih =>
    obtain ⟨hfirst, hrest⟩ := List.forall_mem_cons.1 hnames
    have hsites := sites_load fs first u
    rw [unresolvedAmong, unresolvedAmong, load_alike hsound hsound' h hfirst, ih h hrest]
    rcases hload : u.load fs first with ⟨e | _ | t, v⟩ <;>
    · rw [hload] at hsites
      have hv := ih (u := v) (by rwa [hsites]) hrest
      simp only [hv]

theorem checkSupertypes_alike {strict : Bool} {t : TypeDecl} (hsound : fs.isSound) (hsound' : fs'.isSound)
    (h : ∀ site ∈ u.sites, site.IsAlike fs fs') (hnames : ∀ name ∈ t.supertypes, IsRootless name) :
    u.checkSupertypes fs' strict t = u.checkSupertypes fs strict t := by
  rw [checkSupertypes, checkSupertypes, unresolvedAmong_alike hsound hsound' h hnames]

end Universe

end Alike

namespace Universe

variable {fs : FileSystem} {u : Universe}

/-- **A name that begins neither with a dot nor with a slash stays within the classpath.** If there are no
links below its folders, such a name is looked for below these folders and in the archives only, whatever
is asked about it: the questions that lead to the answers ask for nothing else. And what else there is in the files makes no difference: as long as the archives and the
folders have the same in them, the answers are the same. -/
theorem rootless_confined (hsound : fs.isSound) (hplain : ∀ site ∈ u.sites, site.IsPlain fs) :
    (∀ name, IsRootless name →
      (u.originating name).run fs = u.origin? fs name ∧ (u.loading name).run fs = u.load fs name ∧
      ∀ q, q ∈ (u.originating name).asked fs ∨ q ∈ (u.loading name).asked fs → q.StaysWithin fs u.sites) ∧
    (∀ strict t, (∀ name ∈ t.supertypes, IsRootless name) →
      (u.checking strict t).run fs = u.checkSupertypes fs strict t ∧
      ∀ q ∈ (u.checking strict t).asked fs, q.StaysWithin fs u.sites) ∧
    ∀ fs' : FileSystem, fs'.isSound → (∀ site ∈ u.sites, site.IsAlike fs fs') →
      (∀ name, IsRootless name →
        u.origin? fs' name = u.origin? fs name ∧ u.load fs' name = u.load fs name) ∧
      ∀ strict t, (∀ name ∈ t.supertypes, IsRootless name) →
        u.checkSupertypes fs' strict t = u.checkSupertypes fs strict t := by
  refine ⟨fun name hname => ⟨run_originating fs name u, run_loading fs name u, fun q hq => ?_⟩,
    fun strict t hnames => ⟨run_checking fs strict t u, fun q hq => ?_⟩, fun fs' hsound' halike => ⟨?_, ?_⟩⟩
  · exact hq.elim (staysWithin_originating hsound hplain hname) (staysWithin_loading hsound hplain hname)
  · exact staysWithin_checking hsound hplain hnames hq
  · exact fun name hname =>
      ⟨origin?_alike hsound hsound' halike hname, load_alike hsound hsound' halike hname⟩
  · exact fun strict t hnames => checkSupertypes_alike hsound hsound' halike hnames

/-- The files of a library with a class elsewhere. -/
def crowdedFiles : FileSystem :=
  { adoptedFiles with root := .folder [("classes", .folder [("A.class", .file 0)]),
    ("elsewhere", .folder [("B.class", .file 1)]), ("lib", .folder [("B.class", .file 1)])] }

theorem sites_adopted (h : resolve adoptedFiles 1024 ⟨⟨"classes"⟩, [⟨"lib"⟩]⟩ = .ok u) :
    u.sites = [.folder ⟨"lib"⟩] := by
  have hdependencies : dependenciesOf adoptedFiles [⟨"lib"⟩] = .ok [.folder ⟨"lib"⟩] := by decide +kernel
  obtain ⟨-, hopened, -⟩ := resolve_eq_ok_iff.1 h
  rw [sites, Except.ok.inj (hopened.symm.trans hdependencies)]
  rfl

theorem isAlike_crowded (h : resolve adoptedFiles 1024 ⟨⟨"classes"⟩, [⟨"lib"⟩]⟩ = .ok u) :
    ∀ site ∈ u.sites, site.IsAlike adoptedFiles crowdedFiles := by
  rw [sites_adopted h]
  exact List.forall_mem_singleton.2 ⟨_, isUnpacked_parentClass rfl (by decide +kernel),
    isUnpacked_parentClass rfl (by decide +kernel)⟩

/-- A class elsewhere makes no difference for the class of that name in the library. -/
theorem rootless_confined_crowded : ∃ u, resolve adoptedFiles 1024 ⟨⟨"classes"⟩, [⟨"lib"⟩]⟩ = .ok u ∧
    adoptedFiles.isSound ∧ (∀ site ∈ u.sites, site.IsPlain adoptedFiles) ∧ crowdedFiles.isSound ∧
    (∀ site ∈ u.sites, site.IsAlike adoptedFiles crowdedFiles) ∧ IsRootless "B" ∧
    u.origin? adoptedFiles "B" = some (.dependency ⟨"lib"⟩) ∧
    u.origin? crowdedFiles "B" = some (.dependency ⟨"lib"⟩) ∧
    ∀ q ∈ (u.loading "B").asked adoptedFiles, q.StaysWithin adoptedFiles [.folder ⟨"lib"⟩] := by
  have hsound : adoptedFiles.isSound := by decide +kernel
  have hsound' : crowdedFiles.isSound := by decide +kernel
  have hB : IsRootless "B" := ⟨by decide, by decide⟩
  have hfacts : (resolve adoptedFiles 1024 ⟨⟨"classes"⟩, [⟨"lib"⟩]⟩).toOption.any fun u =>
      u.origin? adoptedFiles "B" = some (.dependency ⟨"lib"⟩) := by decide +kernel
  obtain ⟨u, hresolve, hfound⟩ := exists_of_any hfacts
  have horigin : u.origin? adoptedFiles "B" = some (.dependency ⟨"lib"⟩) := of_decide_eq_true hfound
  have halike := isAlike_crowded hresolve
  have hplain : ∀ site ∈ u.sites, site.IsPlain adoptedFiles := by
    rw [sites_adopted hresolve]
    exact List.forall_mem_singleton.2 ⟨_, isUnpacked_parentClass rfl (by decide +kernel)⟩
  obtain ⟨hwithin, -, hanswers⟩ := rootless_confined hsound hplain
  refine ⟨u, hresolve, hsound, hplain, hsound', halike, hB, horigin, ?_, fun q hq => ?_⟩
  · exact ((hanswers crowdedFiles hsound' halike).1 "B" hB).1.trans horigin
  · exact sites_adopted hresolve ▸ (hwithin "B" hB).2.2 q (.inr hq)

/-- A name that begins with a dot is found elsewhere. -/
theorem not_confined : ¬ ∀ (fs fs' : FileSystem) (max : Nat) (r : ScanRequest) (u : Universe) (name : String),
    fs.isSound → fs'.isSound → resolve fs max r = .ok u → (∀ site ∈ u.sites, site.IsAlike fs fs') →
      u.origin? fs' name = u.origin? fs name := by
  intro hall
  have hfacts : (resolve adoptedFiles 1024 ⟨⟨"classes"⟩, [⟨"lib"⟩]⟩).toOption.any fun u =>
      u.origin? crowdedFiles ".elsewhere.B" ≠ u.origin? adoptedFiles ".elsewhere.B" := by decide +kernel
  obtain ⟨u, hresolve, hdiffers⟩ := exists_of_any hfacts
  exact of_decide_eq_true hdiffers
    (hall _ _ _ _ u _ (by decide +kernel) (by decide +kernel) hresolve (isAlike_crowded hresolve))

end Universe

end ApiSurface
