import ApiSurface.Proofs.Decl.Ordering
import ApiSurface.Proofs.Scan.Resolution
import ApiSurface.Settings.Validation

/-!
What a report is: one block for each type of the surface.

Without strict resolution the lines depend on nothing but the contents of the entries that may hold
classes. Each entry adds one block or nothing, and what adds nothing can be left out.
-/

namespace ApiSurface

/-- The container's entries that may hold classes, as they are listed, are named like classes. -/
theorem Container.isCandidate_of_classEntries {fs : FileSystem} {c c' : Container}
    {entries : List ClassEntry} (h : c.classEntries fs = (.ok entries, c')) :
    ∀ e ∈ entries, EntryName.isCandidate e.name := by
  intro e he
  cases c with
  | archive path file a =>
    rw [classEntries] at h
    split at h
    · simp at h
    · obtain ⟨hentries, -⟩ := Prod.mk.inj h
      obtain rfl := Except.ok.inj hentries
      obtain ⟨entry, hentry, rfl⟩ := List.mem_map.1 he
      simp only [List.mem_filter, Bool.and_eq_true] at hentry
      exact hentry.2.2
  | folder path =>
    obtain ⟨hentries, -⟩ := Prod.mk.inj h
    rw [folderEntries] at hentries
    cases hfiles : fs.filesBelow path with
    | error failure => simp [hfiles, Except.mapError] at hentries
    | ok files =>
      rw [hfiles] at hentries
      obtain rfl := Except.ok.inj hentries
      exact (List.mem_filter.1 he).2

/-- The marker of settings that can be worked with is not empty. -/
theorem ScannerSettings.internalMarker_ne_empty (s : ScannerSettings) (h : s.validate = .ok ()) :
    s.internalMarker ≠ "" := by
  intro hempty
  have hviolation : s.violation? = none := by
    rw [validate] at h
    cases hv : s.violation? with
    | none => rfl
    | some v => simp [hv] at h
  rw [violation?, firstViolation, List.findSome?_eq_none_iff] at hviolation
  have hrule := hviolation (violationIf (s.internalMarker.isEmpty || isCompound s.internalMarker)
    "internal_marker" "must be a single non-empty package segment") (by simp)
  simp [violationIf, hempty] at hrule

namespace Scan

/-- A line for a type, then lines for methods and lines for fields, both in order. -/
def IsBlock (lines : List Report.Line) : Prop :=
  ∃ header methods fields, lines = ⟨.type, header⟩
      :: (methods.map (Report.Line.mk .method) ++ fields.map (Report.Line.mk .field)) ∧
    StrictlyIncreasing methods ∧ StrictlyIncreasing fields

theorem isBlock_block (synthetic : Bool) (t : TypeDecl) : IsBlock (t.block synthetic) := by
  let methods := (t.exportedMethods synthetic).map (·.entry t.kind)
  let fields := (t.exportedFields synthetic).map (·.entry)
  refine ⟨t.header, (Entry.ordered methods).map (·.text), (Entry.ordered fields).map (·.text), ?_,
    Entry.strictlyIncreasing_ordered methods, Entry.strictlyIncreasing_ordered fields⟩
  rw [TypeDecl.block, List.map_map, List.map_map]
  rfl

/-- The lines report on an artifact whose entries have these contents. -/
structure IsReport (s : ScannerSettings) (contents : List Bytes) (lines : List Report.Line) :
    Prop where
  /-- The blocks of the surface, one after the other. -/
  blocks : lines = (surface s.internalMarker contents).flatMap (·.block s.includeSynthetic)
  isBlock : ∀ t ∈ surface s.internalMarker contents, IsBlock (t.block s.includeSynthetic)
  /-- There is one block for each name whose package is not internal, and it is that of the first entry
  that declares the name. -/
  mem_surface : ∀ t, t ∈ surface s.internalMarker contents ↔
    (contents.filterMap declared?).find? (·.name = t.name) = some t ∧
      ¬IsInternalName s.internalMarker t.name
  nodup : ((surface s.internalMarker contents).map (·.name)).Nodup
  /-- The types come in the order in which the entries were found. -/
  inOrder : ∀ before after, contents = before ++ after →
    surface s.internalMarker before <+: surface s.internalMarker contents
  /-- The entry alone would give the same block. -/
  alone : ∀ t ∈ surface s.internalMarker contents,
    ∃ content ∈ contents, surface s.internalMarker [content] = [t]
  /-- An entry that is idle could as well be missing. -/
  withoutIdle : ∀ before content after, contents = before ++ content :: after →
    IsIdle s.internalMarker before content →
    lines = (surface s.internalMarker (before ++ after)).flatMap (·.block s.includeSynthetic)

theorem isReport_blocks (s : ScannerSettings) (contents : List Bytes) :
    IsReport s contents
      ((surface s.internalMarker contents).flatMap (·.block s.includeSynthetic)) where
  blocks := rfl
  isBlock t _ := isBlock_block _ t
  mem_surface t := by
    rw [surface, surfaceAfter, List.mem_filter, mem_declarations]
    simp
  nodup := nodup_declarations.sublist ((List.filter_sublist).map _)
  inOrder before after hsplit := by
    rw [hsplit, surface_append]
    exact List.prefix_append _ _
  alone t ht := by
    obtain ⟨hmem, hinternal⟩ := List.mem_filter.1 ht
    obtain ⟨-, hfind⟩ := mem_declarations.1 hmem
    obtain ⟨content, hcontent, hdeclared⟩ := List.mem_filterMap.1 (List.mem_of_find?_eq_some hfind)
    refine ⟨content, hcontent, ?_⟩
    rw [surface, surfaceAfter, declarations_new hdeclared List.not_mem_nil, declarations]
    exact List.filter_cons_of_pos hinternal
  withoutIdle before content after hsplit hidle := by
    rw [hsplit, surface_without_idle hidle]

/-- **A scan reports one block for each type that is not internal, that of the first entry declaring
it.** The artifact has to open, its entries have to be listed, and those that may hold classes have to
be read; locations of the classpath that exist have to open. -/
theorem scan_isReport {fs : FileSystem} {s : ScannerSettings} {r : ScanRequest} {c c' : Container}
    {entries : List ClassEntry} {contents : List Bytes}
    (hvalid : s.validate = .ok ()) (hstrict : s.strictResolution = false)
    (hopen : Container.ofPath fs r.artifact = .ok c)
    (hlist : c.classEntries fs = (.ok entries, c'))
    (hread : List.Forall₂ (fun e content => (c'.read fs e.name s.maxClassFileSize).1 = .ok content)
      entries contents)
    (hclasspath : ∀ path ∈ r.classpath, fs.has path → ∃ d, Container.ofPath fs path = .ok d) :
    (∀ e ∈ entries, EntryName.isCandidate e.name) ∧
      ∃ lines, scan fs s r = .ok ⟨r.artifact.shown, lines⟩ ∧ IsReport s contents lines := by
  refine ⟨Container.isCandidate_of_classEntries hlist, _, ?_, isReport_blocks s contents⟩
  obtain ⟨u, hresolve, htypes⟩ := Universe.resolve_eq_ok hopen hlist hread hclasspath
  have hreported : u.reported s.internalMarker = surface s.internalMarker contents := by
    rw [Universe.reported, htypes, surface, surfaceAfter]
    refine List.filter_congr fun t _ => ?_
    have hinternal := isInternal_iff (s.internalMarker_ne_empty hvalid) t
    rw [Bool.eq_iff_iff]
    simpa using not_congr hinternal
  simp only [ApiSurface.scan, hresolve, blocks_lenient hstrict, hreported, bind, Except.bind]
  rfl

/-- A class without members and without a superclass. -/
def plainClass : Bytes :=
  [0xCA, 0xFE, 0xBA, 0xBE, 0, 0, 0, 61, 0, 3, 7, 0, 2, 1, 0, 1, 65,
    0, 0x21, 0, 1, 0, 0, 0, 0, 0, 0, 0, 0, 0, 0]

def sampleSettings : ScannerSettings :=
  .ofScan Settings.defaultScan

/-- A folder with the class, a copy of it, a file that is no class and one that is not named like one. -/
def unpackedFiles : FileSystem where
  root := .folder [("classes", .folder [("A.class", .file 0), ("Broken.class", .file 1),
    ("Copy.class", .file 0), ("notes.txt", .file 1)])]
  current := []
  contents := #[plainClass.toByteArray, .empty]

theorem filesBelow_unpacked : unpackedFiles.filesBelow ⟨"classes"⟩ =
    .ok [(["A.class"], 0), (["Broken.class"], 1), (["Copy.class"], 0), (["notes.txt"], 1)] := by
  have hstat : unpackedFiles.stat ⟨"classes"⟩ = .ok (.folder [("A.class", .file 0),
    ("Broken.class", .file 1), ("Copy.class", .file 0), ("notes.txt", .file 1)]) := rfl
  rw [FileSystem.filesBelow, hstat]
  show Except.ok (Node.filesBelow _) = _
  rw [Node.filesBelow, List.mergeSort_of_pairwise (by decide +kernel)]
  rfl

theorem scan_unpacked : ∃ lines,
    ApiSurface.scan unpackedFiles sampleSettings ⟨⟨"classes"⟩, []⟩ = .ok ⟨"classes", lines⟩ ∧
      IsReport sampleSettings [plainClass, [], plainClass] lines := by
  have hread : List.Forall₂
      (fun (e : ClassEntry) content => ((Container.folder ⟨"classes"⟩).read unpackedFiles e.name
        sampleSettings.maxClassFileSize).1 = .ok content)
      [⟨"A.class", 31⟩, ⟨"Broken.class", 0⟩, ⟨"Copy.class", 31⟩] [plainClass, [], plainClass] :=
    .cons (by decide +kernel) (.cons (by decide +kernel) (.cons (by decide +kernel) .nil))
  have hlist : (Container.folder ⟨"classes"⟩).classEntries unpackedFiles =
      (.ok [⟨"A.class", 31⟩, ⟨"Broken.class", 0⟩, ⟨"Copy.class", 31⟩], .folder ⟨"classes"⟩) := by
    rw [Container.classEntries, Container.folderEntries, filesBelow_unpacked]
    decide +kernel
  have hopen : Container.ofPath unpackedFiles ⟨"classes"⟩ = .ok (.folder ⟨"classes"⟩) := by
    decide +kernel
  exact (scan_isReport (by decide +kernel) rfl hopen hlist hread (by simp)).2

/-! ## An artifact that opens and is not reported -/

theorem ofPath_archive {fs : FileSystem} {path : Path} {file : FileId} {a : Archive}
    (hstat : fs.stat path = .ok (.file file)) (harchive : Archive.ofData? (fs.content file) = some a) :
    Container.ofPath fs path = .ok (.archive path file a) := by
  rw [Container.ofPath, hstat]
  simp only [Except.mapError, bind, Except.bind, harchive]
  rfl

/-- Nothing is reported when the entries cannot be listed. -/
theorem scan_eq_error {fs : FileSystem} {s : ScannerSettings} {r : ScanRequest} {c : Container}
    {e : ScanError} (hopen : Container.ofPath fs r.artifact = .ok c)
    (hlist : (c.classEntries fs).1 = .error e) : ApiSurface.scan fs s r = .error e := by
  have hresolve : Universe.resolve fs s.maxClassFileSize r = .error e := by
    simp only [Universe.resolve, hopen, hlist, bind, Except.bind]
  rw [ApiSurface.scan, hresolve]
  rfl

/-- The `n` low digits of `v` in base 256, least significant first. -/
def littleEndianDigits (n v : Nat) : Bytes :=
  (Bytes.ofNatBigEndian n v).reverse

/-- What the record of an entry and its description in the directory have in common. -/
def storedFields (flags : Nat) (name : String) (content : Bytes) : Bytes :=
  [(2, 20), (2, flags), (2, 0), (4, 0), (4, (Crc32.ofBytes content).toNat), (4, content.length),
    (4, content.length), (2, name.length), (2, 0)].flatMap fun (n, v) => littleEndianDigits n v

def storedRecord (flags : Nat) (name : String) (content : Bytes) : Bytes :=
  littleEndianDigits 4 Archive.localMark ++ storedFields flags name content ++ Bytes.ofText name
    ++ content

def storedDescription (start flags : Nat) (name : String) (content : Bytes) : Bytes :=
  littleEndianDigits 4 Archive.directoryMark ++ littleEndianDigits 2 20 ++ storedFields flags name content
    ++ littleEndianDigits 10 0 ++ littleEndianDigits 4 start ++ Bytes.ofText name

/-- An archive of the class and of a text that needs a password. -/
def lockedBytes : Bytes :=
  let records := storedRecord 0 "A.class" plainClass ++ storedRecord 1 "readme.txt" []
  let directory := storedDescription 0 0 "A.class" plainClass ++ storedDescription 68 1 "readme.txt" []
  records ++ directory ++ [(4, Archive.endMark), (4, 0), (2, 2), (2, 2), (4, directory.length),
    (4, records.length), (2, 0)].flatMap fun (n, v) => littleEndianDigits n v

def lockedFiles : FileSystem where
  root := .folder [("app.jar", .file 0)]
  current := []
  contents := #[lockedBytes.toByteArray]

def lockedArchive : Archive where
  entries := [
    { name := "A.class", isFile := true, isEncrypted := false, packing := .stored, size := 31,
      packedSize := 31, checksum := 870537297, start := 0, contentStart := none },
    { name := "readme.txt", isFile := true, isEncrypted := true, packing := .stored, size := 0,
      packedSize := 0, checksum := 0, start := 68, contentStart := none }]

/-- The one entry that may hold a class can be read and decoded, and still there is no report: listing
the entries visits the other one too. -/
theorem scan_locked :
    sampleSettings.validate = .ok () ∧ sampleSettings.strictResolution = false ∧
      Container.ofPath lockedFiles ⟨"app.jar"⟩ = .ok (.archive ⟨"app.jar"⟩ 0 lockedArchive) ∧
      Container.archiveEntries lockedArchive = [⟨"A.class", 31⟩] ∧
      ((Container.archive ⟨"app.jar"⟩ 0 lockedArchive).read lockedFiles "A.class"
        sampleSettings.maxClassFileSize).1 = .ok plainClass ∧
      (declared? plainClass).map (·.name) = some "A" ∧
      ∀ report, ApiSurface.scan lockedFiles sampleSettings ⟨⟨"app.jar"⟩, []⟩ ≠ .ok report := by
  have harchive : Archive.ofData? (lockedFiles.content 0) = some lockedArchive := by decide +kernel
  have hopen : Container.ofPath lockedFiles ⟨"app.jar"⟩ = .ok (.archive ⟨"app.jar"⟩ 0 lockedArchive) := by
    have hstat : lockedFiles.stat ⟨"app.jar"⟩ = .ok (.file 0) := rfl
    exact ofPath_archive hstat harchive
  have hlist : ((Container.archive ⟨"app.jar"⟩ 0 lockedArchive).classEntries lockedFiles).1
      = .error (.resolution "app.jar" (.io (.archive .unsupportedEntry))) := by decide +kernel
  have hscan : ApiSurface.scan lockedFiles sampleSettings ⟨⟨"app.jar"⟩, []⟩
      = .error (.resolution "app.jar" (.io (.archive .unsupportedEntry))) :=
    scan_eq_error hopen hlist
  refine ⟨by decide +kernel, rfl, hopen, by decide +kernel, by decide +kernel, by decide +kernel,
    fun report h => ?_⟩
  rw [hscan] at h
  cases h

end Scan

end ApiSurface
