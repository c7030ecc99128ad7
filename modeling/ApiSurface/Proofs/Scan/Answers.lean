import ApiSurface.Proofs.Decl.Exports
import ApiSurface.Proofs.Scan.Classpath
import ApiSurface.Proofs.Scan.Questions
import ApiSurface.Proofs.Storage.Effects
import ApiSurface.Proofs.Storage.Listing

/-!
Answers that stay the same.

A scan that asks nothing about the places where files change has the result that it would have had at
the start. Its questions name paths, whose ways and ends are elsewhere; the files of class folders, which
the changed ones are not; and the content of files that were there before, which stays whatever becomes
of their names.
-/

namespace ApiSurface

namespace FileSystem

/-- The way to what a path leads to, links followed, goes through a place or ends there. -/
def Meets (fs : FileSystem) (path : Path) (place : Location) : Prop :=
  place ∈ fs.way true path ∨ ∃ t, fs.locate true path = .ok t ∧ t.place = place

/-- All these places, in a list. -/
def met (fs : FileSystem) (path : Path) : List Location :=
  fs.way true path ++ (fs.placeOf? true path).toList

theorem meets_iff {fs : FileSystem} {path : Path} {place : Location} :
    fs.Meets path place ↔ place ∈ fs.met path := by
  rw [Meets, met, List.mem_append, Option.mem_toList, placeOf?_eq_some_iff]

/-! ## What a path leads to -/

theorem get?_of_stat {fs : FileSystem} {path : Path} {node : Node} {t : Target} (h : fs.isSound)
    (ht : fs.locate true path = .ok t) (hnode : t.node? = some node) : fs.get? t.place = some node :=
  (isFound_of_locate (isSound_iff.1 h).2 ht).get?.trans hnode

/-- What a path leads to is sound. -/
theorem isSound_of_stat {fs : FileSystem} {path : Path} {node : Node} (h : fs.isSound)
    (hstat : fs.stat path = .ok node) : node.isSound fs.contents.size := by
  obtain ⟨t, ht, hnode⟩ := exists_target_of_stat hstat
  exact Node.isSound_get? (isSound_iff.1 h).1 (get?_of_stat h ht hnode)

/-- Whoever looks only at some places sees the same in both, and the files of `start` have kept what is in
them. -/
structure SeenAlike (seen : Location → Prop) (start fs : FileSystem) : Prop where
  start_sound : start.isSound
  sound : fs.isSound
  current : fs.current = start.current
  bare? : ∀ place, seen place → fs.bare? place = start.bare? place
  content : ∀ id, id < start.contents.size → fs.content id = start.content id

/-- Nothing has changed where no place is hot. -/
theorem ChangedAt.seenAlike {hot : Location → Prop} {start fs : FileSystem} (h : ChangedAt hot start fs) :
    SeenAlike (fun place => ¬ hot place) start fs :=
  ⟨h.start_sound, h.sound, h.current, h.bare?, h.content⟩

namespace SeenAlike

variable {seen : Location → Prop} {start fs : FileSystem} {path : Path}

theorem trans {fs' : FileSystem} (h : SeenAlike seen start fs) (h' : SeenAlike seen fs fs')
    (hsize : start.contents.size ≤ fs.contents.size) : SeenAlike seen start fs' where
  start_sound := h.start_sound
  sound := h'.sound
  current := h'.current.trans h.current
  bare? place hplace := (h'.bare? place hplace).trans (h.bare? place hplace)
  content id hid := (h'.content id (Nat.lt_of_lt_of_le hid hsize)).trans (h.content id hid)

theorem endsAt (h : SeenAlike seen start fs) (hseen : ∀ place, start.Meets path place → seen place)
    (t : Target) (ht : start.locate true path = .ok t) (hnode : ∀ node ∈ t.node?, node.isFolder = false) :
    fs.EndsAt true t.place := by
  intro node hget
  have hstart := (isFound_of_locate (isSound_iff.1 h.start_sound).2 ht).get?
  have hbare := h.bare? t.place (hseen t.place (.inr ⟨t, ht, rfl⟩))
  have hsame := get?_eq_of_bare? hbare fun old hold => hnode old (hstart.symm.trans hold)
  rw [hsame, hstart] at hget
  refine ⟨hnode node hget, fun _ target hlink => ?_⟩
  exact ne_link_of_locate (isSound_iff.1 h.start_sound).2 ht target (hget.trans (congrArg some hlink))

theorem locate_true_place (h : SeenAlike seen start fs)
    (hseen : ∀ place, start.Meets path place → seen place) :
    (fs.locate true path).map Target.place = (start.locate true path).map Target.place :=
  locate_congr h.current (fun l hl => kind?_congr (h.bare? l (hseen l (.inl hl)))) (h.endsAt hseen)

/-- A path that meets only such places leads to the same thing at the same place. -/
theorem locate_true_cases (h : SeenAlike seen start fs)
    (hseen : ∀ place, start.Meets path place → seen place) :
    (∃ e, fs.locate true path = .error e ∧ start.locate true path = .error e) ∨
      ∃ t' t, fs.locate true path = .ok t' ∧ start.locate true path = .ok t ∧ t'.place = t.place ∧
        t'.node?.map Node.bare = t.node?.map Node.bare := by
  obtain herror | ⟨t', t, hfs, hstart, heq⟩ := cases_of_map_eq_map (h.locate_true_place hseen)
  · exact .inl herror
  · refine .inr ⟨t', t, hfs, hstart, heq, ?_⟩
    rw [← (isFound_of_locate (isSound_iff.1 h.sound).2 hfs).get?, heq,
      ← (isFound_of_locate (isSound_iff.1 h.start_sound).2 hstart).get?]
    exact h.bare? t.place (hseen t.place (.inr ⟨t, hstart, rfl⟩))

/-- And it meets the same places. -/
theorem met_eq (h : SeenAlike seen start fs) (hseen : ∀ place, start.Meets path place → seen place) :
    fs.met path = start.met path := by
  have hway : fs.way true path = start.way true path :=
    way_congr h.current (fun l hl => kind?_congr (h.bare? l (hseen l (.inl hl)))) (h.endsAt hseen)
  rw [met, met, hway, placeOf?, placeOf?]
  obtain ⟨e, hfs, hstart⟩ | ⟨t', t, hfs, hstart, heq⟩ := cases_of_map_eq_map (h.locate_true_place hseen)
  · rw [hfs, hstart]
  · rw [hfs, hstart]
    simp only [heq]

theorem stat_bare (h : SeenAlike seen start fs) (hseen : ∀ place, start.Meets path place → seen place) :
    (fs.stat path).map Node.bare = (start.stat path).map Node.bare := by
  rw [stat_eq, stat_eq]
  obtain ⟨e, hfs, hstart⟩ | ⟨t', t, hfs, hstart, -, hbare⟩ := h.locate_true_cases hseen
  · rw [hfs, hstart]
  · rw [hfs, hstart]
    simp only [Except.bind]
    cases hnode : t.node? with
    | none =>
      rw [hnode, Option.map_none, Option.map_eq_none_iff] at hbare
      rw [hbare]
    | some node =>
      rw [hnode, Option.map_some] at hbare
      obtain ⟨node', hnode', hsame⟩ := Option.map_eq_some_iff.1 hbare
      rw [hnode']
      exact congrArg Except.ok hsame

end SeenAlike

end FileSystem

open FileSystem

/-! ## The files of class folders -/

namespace Container

/-- An entry has the names on the way to it as its parts. -/
theorem intercalate_of_entryName? {place : Location} {name : String} (h : entryName? place = some name) :
    OsString.intercalate "/" place = name := by
  obtain ⟨parts, hparts, rfl⟩ := Option.map_eq_some_iff.1 h
  rw [OsString.mapM_text?_eq_some_iff.1 hparts, OsString.ofText_intercalate]

/-- The file at a place below a folder may hold a class. -/
def mayHoldClass (place : Location) : Bool :=
  (entryName? place).any EntryName.isCandidate

theorem mayHoldClass_iff {place : Location} : mayHoldClass place = true ↔
    ∃ name, entryName? place = some name ∧ EntryName.isCandidate name = true := by
  rw [mayHoldClass, Option.any_eq_true]

/-- The entries that the files below a node give. -/
def entriesOf (fs : FileSystem) (files : List (Location × FileId)) : List ClassEntry :=
  files.filterMap fun file => (entryName? file.1).map fun name => ⟨name, (fs.content file.2).size⟩

theorem filter_entriesOf (fs : FileSystem) (files : List (Location × FileId)) :
    ((entriesOf fs files).filter fun e => EntryName.isCandidate e.name) =
      entriesOf fs (files.filter fun file => mayHoldClass file.1) := by
  rw [entriesOf, entriesOf, List.filter_filterMap, List.filterMap_filter]
  refine List.filterMap_congr fun file _ => ?_
  cases h : entryName? file.1 with
  | none => simp
  | some name => simp [mayHoldClass, h, Option.filter]

theorem folderEntries_eq (fs : FileSystem) (path : Path) : folderEntries fs path =
    match fs.stat path with
    | .error e => .error (unresolved path (.listing path.shown e))
    | .ok node => .ok (entriesOf fs (node.filesBelow.filter fun file => mayHoldClass file.1)) := by
  rw [folderEntries, FileSystem.filesBelow]
  cases fs.stat path with
  | error e => rfl
  | ok node => exact congrArg Except.ok (filter_entriesOf fs node.filesBelow)

end Container

/-- A name ends the way the names of class files do. -/
def IsClassFileName (name : OsString) : Prop :=
  (EntryName.classExtension : OsString).toList <:+ name.toList

/-- Only what has the name of a class file may hold a class. -/
theorem Container.isClassFileName_of_mayHoldClass {place : Location} (h : mayHoldClass place = true) :
    ∃ name, place.getLast? = some name ∧ IsClassFileName name := by
  obtain ⟨entry, hentry, hcandidate⟩ := mayHoldClass_iff.1 h
  rw [EntryName.isCandidate, Bool.and_eq_true, Bool.and_eq_true, List.isSuffixOf_iff_suffix] at hcandidate
  refine isSuffix_last (by decide) (by decide) ?_
  rw [intercalate_of_entryName? hentry]
  exact OsString.isSuffix_ofText hcandidate.1.1

/-- The same files stand where class files can. -/
def SameClasses (start fs : FileSystem) : Prop :=
  ∀ place name id, place.getLast? = some name → IsClassFileName name →
    (fs.get? place = some (.file id) ↔ start.get? place = some (.file id))

theorem SameClasses.trans {start fs fs' : FileSystem} (h : SameClasses start fs) (h' : SameClasses fs fs') :
    SameClasses start fs' :=
  fun place name id hlast hclass => (h' place name id hlast hclass).trans (h place name id hlast hclass)

/-- No class file has its place among the hot ones. -/
def HoldsNoClass (hot : Location → Prop) : Prop :=
  ∀ place name, hot place → place.getLast? = some name → ¬ IsClassFileName name

theorem FileSystem.ChangedAt.sameClasses {hot : Location → Prop} {start fs : FileSystem}
    (h : ChangedAt hot start fs) (hclass : HoldsNoClass hot) : SameClasses start fs := by
  intro place name id hlast hsuffix
  have hcold : ¬ hot place := fun hhot => hclass place name hhot hlast hsuffix
  rw [← bare?_eq_some_iff rfl, h.bare? place hcold, bare?_eq_some_iff rfl]

namespace FileSystem.SeenAlike

variable {seen : Location → Prop} {start fs : FileSystem} {path : Path}

theorem folderEntries_eq (h : SeenAlike seen start fs)
    (hseen : ∀ place, start.Meets path place → seen place) (hclasses : SameClasses start fs) :
    Container.folderEntries fs path = Container.folderEntries start path := by
  rw [Container.folderEntries_eq, Container.folderEntries_eq]
  obtain ⟨e, hfs, hstart⟩ | ⟨node', node, hfs, hstart, -⟩ := cases_of_map_eq_map (h.stat_bare hseen)
  · rw [hfs, hstart]
  · rw [hfs, hstart]
    obtain ⟨t, ht, hnode⟩ := exists_target_of_stat hstart
    obtain ⟨t', ht', hnode'⟩ := exists_target_of_stat hfs
    have hplace := h.locate_true_place hseen
    rw [ht, ht'] at hplace
    have heq : t'.place = t.place := Except.ok.inj hplace
    have hget := get?_of_stat h.start_sound ht hnode
    have hget' := get?_of_stat h.sound ht' hnode'
    rw [heq] at hget'
    have hfiles : (node'.filesBelow.filter fun file => Container.mayHoldClass file.1) =
        node.filesBelow.filter fun file => Container.mayHoldClass file.1 := by
      refine Node.filter_filesBelow_congr (isSound_of_stat h.sound hfs)
        (isSound_of_stat h.start_sound hstart) fun place id hcandidate => ?_
      -- Both say what stands at one place of the whole tree, where the name is that of a class file.
      obtain ⟨name, hlast, hsuffix⟩ := Container.isClassFileName_of_mayHoldClass hcandidate
      have hlast' : (t.place ++ place).getLast? = some name := by
        rw [List.getLast?_append, hlast]
        rfl
      have hwhole : fs.get? (t.place ++ place) = node'.get? place := by
        rw [get?, Node.get?_append, show fs.root.get? t.place = some node' from hget']
        rfl
      have hwhole' : start.get? (t.place ++ place) = node.get? place := by
        rw [get?, Node.get?_append, show start.root.get? t.place = some node from hget]
        rfl
      rw [← hwhole, ← hwhole']
      exact hclasses _ name id hlast' hsuffix
    show Except.ok (Container.entriesOf fs _) = Except.ok (Container.entriesOf start _)
    rw [hfiles]
    refine congrArg Except.ok (List.filterMap_congr fun file hmem => ?_)
    obtain ⟨place, id⟩ := file
    have hfile : node.get? place = some (.file id) :=
      (Node.mem_filesBelow (isSound_of_stat h.start_sound hstart)).1 (List.mem_filter.1 hmem).1
    have hid := Node.isSound_get? (isSound_of_stat h.start_sound hstart) hfile
    rw [Node.isSound] at hid
    simp only [h.content id (of_decide_eq_true hid)]

end FileSystem.SeenAlike

/-! ## Contents that are asked for -/

namespace Asking

/-- Every file whose content is asked for is one of the table. -/
def AsksKnown (fs : FileSystem) (x : Asking α) : Prop :=
  ∀ id, .content id ∈ x.asked fs → id < fs.contents.size

theorem asked_bind (fs : FileSystem) (x : Asking α) (f : α → Asking β) :
    (x >>= f).asked fs = x.asked fs ++ (f (x.run fs)).asked fs := by
  induction x with
  | done a => rfl
  | ask q next ih => exact congrArg (q :: ·) (ih (fs.answer q))

theorem asksKnown_pure (fs : FileSystem) (a : α) : AsksKnown fs (pure a) := nofun

theorem asksKnown_node (fs : FileSystem) (path : Path) : AsksKnown fs (node path) := by
  rintro id (_ | ⟨_, ⟨⟩⟩)

theorem asksKnown_classFiles (fs : FileSystem) (path : Path) : AsksKnown fs (classFiles path) := by
  rintro id (_ | ⟨_, ⟨⟩⟩)

theorem asksKnown_content {fs : FileSystem} {id : FileId} (h : id < fs.contents.size) :
    AsksKnown fs (content id) := by
  rintro other (_ | ⟨_, ⟨⟩⟩)
  exact h

theorem asksKnown_bind {fs : FileSystem} {x : Asking α} {f : α → Asking β} (hx : AsksKnown fs x)
    (hf : AsksKnown fs (f (x.run fs))) : AsksKnown fs (x >>= f) := by
  intro id hid
  rw [asked_bind, List.mem_append] at hid
  exact hid.elim (hx id) (hf id)

end Asking

open Asking

namespace Container

variable {fs : FileSystem} {c : Container}

/-- The file of an archive is one of the table. -/
def IsKnown (fs : FileSystem) : Container → Prop
  | .archive _ file _ => file < fs.contents.size
  | .folder _ => True

theorem lt_size_of_stat (h : fs.isSound) {path : Path} {id : FileId} (hstat : fs.stat path = .ok (.file id)) :
    id < fs.contents.size := by
  have hnode := isSound_of_stat h hstat
  rw [Node.isSound] at hnode
  exact of_decide_eq_true hnode

theorem asksKnown_opening (h : fs.isSound) (path : Path) : (opening path).AsksKnown fs := by
  refine asksKnown_bind (asksKnown_node fs path) ?_
  rw [run_node]
  cases hstat : fs.stat path with
  | error e => exact asksKnown_pure fs _
  | ok node =>
    cases node with
    | file id =>
      refine asksKnown_bind (asksKnown_content (lt_size_of_stat h hstat)) ?_
      rw [run_content]
      cases Archive.ofData? (fs.content id) <;> exact asksKnown_pure fs _
    | folder children => exact asksKnown_pure fs _
    | link target => exact asksKnown_pure fs _
    | device => exact asksKnown_pure fs _

theorem isKnown_of_ofPath (h : fs.isSound) {path : Path} (hopen : ofPath fs path = .ok c) :
    c.IsKnown fs := by
  rw [ofPath] at hopen
  cases hstat : fs.stat path with
  | error e =>
    rw [hstat] at hopen
    cases hopen
  | ok node =>
    rw [hstat] at hopen
    simp only [Except.mapError, bind, Except.bind] at hopen
    cases node with
    | file id =>
      cases harchive : Archive.ofData? (fs.content id) with
      | none => simp only [harchive] at hopen; cases hopen
      | some a =>
        simp only [harchive] at hopen
        obtain rfl := Except.ok.inj hopen
        exact lt_size_of_stat h hstat
    | folder children =>
      obtain rfl := Except.ok.inj hopen
      trivial
    | link target => cases hopen
    | device => cases hopen

theorem asksKnown_listing (h : c.IsKnown fs) : c.listing.AsksKnown fs := by
  cases c with
  | archive path file a =>
    refine asksKnown_bind (asksKnown_content h) ?_
    rw [run_content]
    obtain ⟨a', e?⟩ := a.visitAll (fs.content file)
    cases e? <;> exact asksKnown_pure fs _
  | folder path => exact asksKnown_bind (asksKnown_classFiles fs path) (asksKnown_pure fs _)

theorem isKnown_classEntries (h : c.IsKnown fs) : (c.classEntries fs).2.IsKnown fs := by
  cases c with
  | archive path file a =>
    rw [classEntries]
    obtain ⟨a', e?⟩ := a.visitAll (fs.content file)
    cases e? <;> exact h
  | folder path => trivial

theorem asksKnown_having (name : String) : (c.having name).AsksKnown fs := by
  cases c with
  | archive path file a => exact asksKnown_pure fs _
  | folder path =>
    refine asksKnown_bind (asksKnown_node fs _) ?_
    rw [run_node]
    cases fs.stat (path.join ⟨name⟩) <;> exact asksKnown_pure fs _

theorem asksKnown_reading (h : fs.isSound) (hc : c.IsKnown fs) (name : String) (max : Nat) :
    (c.reading name max).AsksKnown fs := by
  cases c with
  | archive path file a => exact asksKnown_bind (asksKnown_content hc) (asksKnown_pure fs _)
  | folder path =>
    refine asksKnown_bind (asksKnown_bind (asksKnown_node fs _) ?_) (asksKnown_pure fs _)
    rw [run_node]
    cases hstat : fs.stat (path.join ⟨name⟩) with
    | error e => exact asksKnown_pure fs _
    | ok node =>
      cases node with
      | file id => exact asksKnown_bind (asksKnown_content (lt_size_of_stat h hstat)) (asksKnown_pure fs _)
      | folder children => exact asksKnown_pure fs _
      | link target => exact asksKnown_pure fs _
      | device => exact asksKnown_pure fs _

theorem IsVisitOf.isKnown {c' : Container} (h : IsVisitOf fs c c') (hc : c.IsKnown fs) : c'.IsKnown fs := by
  cases h <;> exact hc

end Container

namespace Universe

variable {fs : FileSystem} {u : Universe} {max : Nat}

/-- The files of the archives among the dependencies are of the table. -/
def KnowsFiles (fs : FileSystem) (u : Universe) : Prop :=
  ∀ c ∈ u.dependencies, c.IsKnown fs

theorem asksKnown_defining (h : fs.isSound) {c : Container} (hc : c.IsKnown fs)
    (entries : List ClassEntry) (definitions : List Definition) :
    (defining max c entries definitions).AsksKnown fs := by
  induction entries generalizing definitions with
  | nil => exact asksKnown_pure fs _
  | cons e rest ih =>
    refine asksKnown_bind (Container.asksKnown_reading h hc e.name max) ?_
    rw [Container.run_reading]
    cases (c.read fs e.name max).1 with
    | error error => exact asksKnown_pure fs _
    | ok content => exact ih _

theorem asksKnown_openingAll (h : fs.isSound) (classpath : List Path) :
    (openingAll classpath).AsksKnown fs := by
  induction classpath with
  | nil => exact asksKnown_pure fs _
  | cons path rest ih =>
    refine asksKnown_bind (asksKnown_node fs path) ?_
    rw [run_node]
    cases fs.stat path with
    | error e => exact ih
    | ok node =>
      refine asksKnown_bind (Container.asksKnown_opening h path) ?_
      rw [Container.run_opening]
      cases Container.ofPath fs path with
      | error e => exact asksKnown_pure fs _
      | ok c => exact asksKnown_bind ih (asksKnown_pure fs _)

theorem isKnown_of_dependenciesOf (h : fs.isSound) {classpath : List Path} {cs : List Container}
    (hopen : dependenciesOf fs classpath = .ok cs) : ∀ c ∈ cs, c.IsKnown fs := by
  intro c hc
  obtain ⟨path, -, hpath⟩ := (mem_of_mapM_eq_ok hopen c).1 hc
  exact Container.isKnown_of_ofPath h hpath

theorem asksKnown_resolving (h : fs.isSound) (r : ScanRequest) : (resolving max r).AsksKnown fs := by
  refine asksKnown_bind (Container.asksKnown_opening h r.artifact) ?_
  rw [Container.run_opening]
  cases hopen : Container.ofPath fs r.artifact with
  | error e => exact asksKnown_pure fs _
  | ok c =>
    have hc := Container.isKnown_of_ofPath h hopen
    refine asksKnown_bind (Container.asksKnown_listing hc) ?_
    rw [Container.run_listing]
    have hc' := Container.isKnown_classEntries hc
    cases hentries : c.classEntries fs with
    | mk entries c' =>
      rw [hentries] at hc'
      cases entries with
      | error e => exact asksKnown_pure fs _
      | ok entries =>
        refine asksKnown_bind (asksKnown_defining h hc' entries []) ?_
        cases (defining max c' entries []).run fs with
        | error e => exact asksKnown_pure fs _
        | ok definitions =>
          exact asksKnown_bind (asksKnown_openingAll h r.classpath) (asksKnown_pure fs _)

theorem knowsFiles_resolve (h : fs.isSound) {r : ScanRequest} (hresolve : resolve fs max r = .ok u) :
    u.KnowsFiles fs := by
  rw [resolve_eq] at hresolve
  cases hdefinitions : definitionsAt fs max r.artifact with
  | error e => rw [hdefinitions] at hresolve; cases hresolve
  | ok definitions =>
    cases hdependencies : dependenciesOf fs r.classpath with
    | error e => rw [hdefinitions, hdependencies] at hresolve; cases hresolve
    | ok dependencies =>
      rw [hdefinitions, hdependencies] at hresolve
      obtain rfl := Except.ok.inj hresolve
      exact isKnown_of_dependenciesOf h hdependencies

theorem asksKnown_readingFirst (h : fs.isSound) (entry : String) {cs : List Container}
    (hcs : ∀ c ∈ cs, c.IsKnown fs) : (readingFirst max entry cs).AsksKnown fs ∧
      ∀ c ∈ (readFirst fs max entry cs).2, c.IsKnown fs := by
  induction cs with
  | nil => exact ⟨asksKnown_pure fs _, hcs⟩
  | cons c rest ih =>
    obtain ⟨hc, hrest⟩ := List.forall_mem_cons.1 hcs
    obtain ⟨ihAsks, ihKnown⟩ := ih hrest
    rw [readFirst]
    by_cases hcontains : c.contains fs entry
    · rw [if_pos hcontains]
      have hread : (c.read fs entry max).2.IsKnown fs :=
        ((Container.isVisitOf_refl fs c).read entry max).2.isKnown hc
      refine ⟨asksKnown_bind (Container.asksKnown_having entry) ?_,
        List.forall_mem_cons.2 ⟨hread, hrest⟩⟩
      rw [Container.run_having, if_pos hcontains]
      exact asksKnown_bind (Container.asksKnown_reading h hc entry max) (asksKnown_pure fs _)
    · rw [if_neg hcontains]
      refine ⟨asksKnown_bind (Container.asksKnown_having entry) ?_,
        List.forall_mem_cons.2 ⟨hc, ihKnown⟩⟩
      rw [Container.run_having, if_neg hcontains]
      exact asksKnown_bind ihAsks (asksKnown_pure fs _)

theorem asksKnown_loading (h : fs.isSound) (hu : u.KnowsFiles fs) (name : String) :
    (u.loading name).AsksKnown fs ∧ (u.load fs name).2.KnowsFiles fs := by
  unfold loading load
  cases u.artifactType? name with
  | some t => exact ⟨asksKnown_pure fs _, hu⟩
  | none =>
    cases u.answers.lookup name with
    | some answer => exact ⟨asksKnown_pure fs _, hu⟩
    | none =>
      have hfirst := @asksKnown_readingFirst fs u.maxClassFileSize h (EntryName.ofBinaryName name) _ hu
      have hknows : (u.lookUp fs name).2.KnowsFiles fs := hfirst.2
      have hasks : (u.lookingUp name).AsksKnown fs :=
        asksKnown_bind hfirst.1 (asksKnown_pure fs _)
      cases hlookUp : u.lookUp fs name with
      | mk result u' =>
        rw [hlookUp] at hknows
        cases result with
        | error e =>
          refine ⟨asksKnown_bind hasks ?_, hknows⟩
          rw [run_lookingUp, hlookUp]
          exact asksKnown_pure fs _
        | ok answer =>
          refine ⟨asksKnown_bind hasks ?_, hknows⟩
          rw [run_lookingUp, hlookUp]
          exact asksKnown_pure fs _

theorem asksKnown_searching (h : fs.isSound) (hu : u.KnowsFiles fs) (strict : Bool) (names : List String) :
    (u.searching strict names).AsksKnown fs ∧ (u.unresolvedAmong fs strict names).2.KnowsFiles fs := by
  induction names generalizing u with
  | nil => exact ⟨asksKnown_pure fs _, hu⟩
  | cons name rest ih =>
    unfold searching unresolvedAmong
    by_cases hknown : u.isKnown name
    · rw [if_pos hknown, if_pos hknown]
      exact ih hu
    · rw [if_neg hknown, if_neg hknown]
      obtain ⟨hasks, hknows⟩ := asksKnown_loading h hu name
      cases hload : u.load fs name with
      | mk result u' =>
        rw [hload] at hknows
        -- Behind the answer a strict search may end, and every other one goes on.
        have hrest := ih hknows
        cases result with
        | error e =>
          cases strict with
          | true =>
            refine ⟨asksKnown_bind hasks ?_, hknows⟩
            rw [run_loading, hload]
            exact asksKnown_pure fs _
          | false =>
            refine ⟨asksKnown_bind hasks ?_, hrest.2⟩
            rw [run_loading, hload]
            exact hrest.1
        | ok answer =>
          cases answer with
          | some t =>
            refine ⟨asksKnown_bind hasks ?_, hrest.2⟩
            rw [run_loading, hload]
            exact hrest.1
          | none =>
            cases strict with
            | true =>
              refine ⟨asksKnown_bind hasks ?_, hknows⟩
              rw [run_loading, hload]
              exact asksKnown_pure fs _
            | false =>
              refine ⟨asksKnown_bind hasks ?_, hrest.2⟩
              rw [run_loading, hload]
              exact hrest.1

theorem asksKnown_checking (h : fs.isSound) (hu : u.KnowsFiles fs) (strict : Bool) (t : TypeDecl) :
    (u.checking strict t).AsksKnown fs ∧ (u.checkSupertypes fs strict t).2.KnowsFiles fs := by
  obtain ⟨hasks, hknows⟩ := asksKnown_searching h hu strict t.supertypes
  unfold checking checkSupertypes
  cases hsearch : u.unresolvedAmong fs strict t.supertypes with
  | mk found u' =>
    rw [hsearch] at hknows
    cases found with
    | none =>
      refine ⟨asksKnown_bind hasks ?_, hknows⟩
      rw [run_searching, hsearch]
      exact asksKnown_pure fs _
    | some name =>
      refine ⟨asksKnown_bind hasks ?_, hknows⟩
      rw [run_searching, hsearch]
      exact asksKnown_pure fs _

end Universe

theorem Scan.asksKnown_emitting {fs : FileSystem} (h : fs.isSound) (s : ScannerSettings)
    (types : List TypeDecl) {u : Universe} (hu : u.KnowsFiles fs) :
    (Scan.emitting s types u).AsksKnown fs := by
  induction types generalizing u with
  | nil => exact asksKnown_pure fs _
  | cons t rest ih =>
    obtain ⟨hasks, hknows⟩ := Universe.asksKnown_checking h hu s.strictResolution t
    refine asksKnown_bind hasks ?_
    rw [Universe.run_checking]
    cases hcheck : u.checkSupertypes fs s.strictResolution t with
    | mk result u' =>
      rw [hcheck] at hknows
      cases result with
      | error e => exact asksKnown_pure fs _
      | ok _ => exact asksKnown_bind (ih hknows) (asksKnown_pure fs _)

theorem asksKnown_scanning {fs : FileSystem} (h : fs.isSound) (s : ScannerSettings) (r : ScanRequest) :
    (scanning s r).AsksKnown fs := by
  refine asksKnown_bind (Universe.asksKnown_resolving h r) ?_
  rw [Universe.run_resolving]
  cases hresolve : Universe.resolve fs s.maxClassFileSize r with
  | error e => exact asksKnown_pure fs _
  | ok u =>
    have hknows := Universe.knowsFiles_resolve h hresolve
    exact asksKnown_bind (Scan.asksKnown_emitting h s _ hknows) (asksKnown_pure fs _)

/-! ## The same answers -/

namespace FileSystem.SeenAlike

variable {seen : Location → Prop} {start fs : FileSystem}

/-- A question about paths that meet only places seen alike, or about the content of a file that was there
before, has the answer that it had at the start. -/
theorem answer_eq (h : SeenAlike seen start fs) (hclasses : SameClasses start fs) {q : Question}
    (hseen : ∀ path, q.path? = some path → ∀ place, start.Meets path place → seen place)
    (hknown : ∀ id, q = .content id → id < start.contents.size) : fs.answer q = start.answer q := by
  cases q with
  | node path => exact h.stat_bare (hseen path rfl)
  | classFiles path => exact h.folderEntries_eq (hseen path rfl) hclasses
  | content id => exact h.content id (hknown id rfl)

/-- So the same is asked, and the same comes out. -/
theorem run_eq (h : SeenAlike seen start fs) (hclasses : SameClasses start fs) {x : Asking α}
    (hseen : ∀ q ∈ x.asked start, ∀ path, q.path? = some path → ∀ place, start.Meets path place → seen place)
    (hknown : x.AsksKnown start) : x.run fs = x.run start ∧ x.asked fs = x.asked start := by
  induction x with
  | done a => exact ⟨rfl, rfl⟩
  | ask q next ih =>
    have hanswer : fs.answer q = start.answer q :=
      h.answer_eq hclasses (hseen q List.mem_cons_self) fun id hid => hknown id (hid ▸ List.mem_cons_self)
    obtain ⟨hrun, hasked⟩ := ih (start.answer q)
      (fun q' hq' => hseen q' (List.mem_cons_of_mem _ hq')) fun id hid => hknown id (List.mem_cons_of_mem _ hid)
    rw [run, run, asked, asked, hanswer]
    exact ⟨hrun, congrArg _ hasked⟩

end FileSystem.SeenAlike

end ApiSurface
