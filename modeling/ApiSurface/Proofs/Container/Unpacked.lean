import ApiSurface.Proofs.Container.Visits
import ApiSurface.Proofs.Storage.Below
import ApiSurface.Proofs.Storage.Listing

/-!
An archive and the folder that it has been unpacked into.

Both hold the same files, the archive in the order in which the folder is listed. Then both list the same
entries, have an entry for the same names and give the same content for each of them. They are told apart
only by the location that errors name.
-/

namespace ApiSurface

open FileSystem

/-- Files of a container: the names on the way to each, and what is in it. -/
abbrev ContainedFile := Location × Bytes

/-- The path of a file as it is seen from the top. -/
def ContainedFile.path (file : ContainedFile) : OsString :=
  OsString.intercalate "/" file.1

/-- The name of the entry for a file. -/
def ContainedFile.entryName (file : ContainedFile) : String :=
  file.path.shown

/-- Files with different names, which are texts, in the order of the names on the way to them. -/
structure AreFiles (files : List ContainedFile) : Prop where
  named : ∀ file ∈ files, file.1 ≠ [] ∧ ∀ name ∈ file.1, Node.isName name
  areTexts : ∀ file ∈ files, ∀ name ∈ file.1, name.text?.isSome
  ordered : files.Pairwise fun a b => placeKey a.1 < placeKey b.1

/-- The entry has the name of the file and states its true length, and the content of the file can be
unpacked from the data. -/
structure Archive.Entry.IsFor (data : ByteArray) (e : Archive.Entry) (file : ContainedFile) : Prop where
  name : e.name = file.entryName
  isFile : e.isFile = true
  size : e.size = file.2.length
  visit : (e.visit data).2 = none
  content : ∀ cap, file.2.length < cap → (e.visit data).1.content data cap = .ok file.2

/-- An archive at `path` holds the files, one after the other. -/
def IsPacked (fs : FileSystem) (path : Path) (files : List ContainedFile) : Prop :=
  ∃ id a, Container.ofPath fs path = .ok (.archive path id a) ∧
    List.Forall₂ (Archive.Entry.IsFor (fs.content id)) a.entries files

/-- Below the folder at `path` are the files, and but for folders nothing else. -/
def IsUnpacked (fs : FileSystem) (path : Path) (files : List ContainedFile) : Prop :=
  ∃ children, fs.stat path = .ok (.folder children) ∧
    (∀ place node, (Node.folder children).get? place = some node → node.isFolder ∨ ∃ id, node = .file id) ∧
    ∀ place content, (place, content) ∈ files ↔
      ∃ id, (Node.folder children).get? place = some (.file id) ∧
        Bytes.ofByteArray (fs.content id) = content

/-- The system takes the paths of the files as they are seen from the folder at `path`. -/
def AreInReach (path : Path) (files : List ContainedFile) : Prop :=
  ∀ file ∈ files, refusal? (path.join ⟨file.path⟩) = none ∧ AreShort file.1

/-- A name without parts that are empty or dots. -/
def EntryName.IsProper (name : String) : Prop :=
  ∀ part ∈ Path.segments ⟨name⟩, part ≠ "" ∧ part ≠ "." ∧ part ≠ ".."

/-! ## Names -/

section Names

variable {files : List ContainedFile} {file : ContainedFile} {name : String} {names : List OsString}

theorem EntryName.IsProper.isName (h : EntryName.IsProper name) :
    ∀ part ∈ Path.segments ⟨name⟩, Node.isName part := by
  intro part hpart
  obtain ⟨chars, hchars, rfl⟩ := List.mem_map.1 hpart
  obtain ⟨hne, hhere, hup⟩ := h _ hpart
  exact Node.isName_iff.2 ⟨⟨hne, by simpa using notMem_of_mem_splitOn hchars⟩, hhere, hup⟩

theorem segments_ne_nil (name : OsString) : Path.segments ⟨name⟩ ≠ [] := by
  simp [Path.segments]

/-- A name is its parts with slashes between them. -/
theorem intercalate_segments (name : OsString) : OsString.intercalate "/" (Path.segments ⟨name⟩) = name := by
  rw [← OsString.toList_inj, OsString.toList_intercalate, Path.segments, List.map_map]
  have hid : (OsString.toList ∘ OsString.ofList) = id := funext OsString.toList_ofList
  rw [hid, List.map_id]
  exact List.intercalate_splitOn OsString.slash

theorem EntryName.IsProper.leadsAlong (h : EntryName.IsProper name) :
    LeadsAlong name (Path.segments ⟨name⟩) := by
  have hname := leadsAlong_intercalate h.isName (segments_ne_nil name)
  rwa [intercalate_segments] at hname

theorem segments_intercalate (h : ∀ name ∈ names, IsPart name) (hne : names ≠ []) :
    Path.segments ⟨OsString.intercalate "/" names⟩ = names := by
  rw [Path.segments, splitOn_intercalate h hne, List.map_map]
  exact List.map_id names

theorem AreFiles.isPart (h : AreFiles files) (hfile : file ∈ files) : ∀ name ∈ file.1, IsPart name :=
  fun name hname => (Node.isName_iff.1 ((h.named file hfile).2 name hname)).1

/-- A file whose names are texts is listed under its name. -/
theorem AreFiles.entryName?_eq (h : AreFiles files) (hfile : file ∈ files) :
    Container.entryName? file.1 = some file.entryName ∧ file.path = file.entryName := by
  obtain ⟨texts, htexts⟩ := OsString.exists_texts (h.areTexts file hfile)
  rw [ContainedFile.entryName, ContainedFile.path, htexts, ← OsString.ofText_intercalate, OsString.shown_ofText,
    Container.entryName?, OsString.mapM_text?_map_ofText]
  exact ⟨rfl, rfl⟩

theorem AreFiles.segments_entryName (h : AreFiles files) (hfile : file ∈ files) :
    Path.segments ⟨file.entryName⟩ = file.1 := by
  rw [← (h.entryName?_eq hfile).2]
  exact segments_intercalate (h.isPart hfile) (h.named file hfile).1

theorem AreFiles.inReach {path : Path} (h : AreFiles files) (hreach : AreInReach path files)
    (hfile : file ∈ files) : refusal? (path.join ⟨file.entryName⟩) = none ∧ AreShort file.1 := by
  rw [← (h.entryName?_eq hfile).2]
  exact hreach file hfile

/-- No two files have one name. -/
theorem AreFiles.unique (h : AreFiles files) {other : ContainedFile} (hfile : file ∈ files)
    (hother : other ∈ files) (hname : other.entryName = file.entryName) : other = file := by
  have hplace : other.1 = file.1 := by
    rw [← h.segments_entryName hother, hname, h.segments_entryName hfile]
  have hnodup : (files.map Prod.fst).Nodup := by
    refine List.pairwise_map.2 (h.ordered.imp fun {a b} hlt heq => ?_)
    rw [heq] at hlt
    exact List.lt_irrefl _ hlt
  exact List.inj_on_of_nodup_map hnodup hother hfile hplace

end Names

/-! ## Entries -/

/-- The entries that may hold classes, as both list them. -/
def candidateEntries (files : List ContainedFile) : List ClassEntry :=
  (files.map fun file => ⟨file.entryName, file.2.length⟩).filter fun e => EntryName.isCandidate e.name

section Packed

variable {fs : FileSystem} {path : Path} {files : List ContainedFile} {file : ContainedFile}
  {data : ByteArray} {e : Archive.Entry} {entries : List Archive.Entry} {id : FileId} {a : Archive}

theorem Archive.Entry.IsFor.visited (h : e.IsFor data file) : (e.visit data).1.name = file.entryName ∧
    (e.visit data).1.isFile = true ∧ (e.visit data).1.size = file.2.length := by
  rw [← h.name, ← h.isFile, ← h.size]
  obtain heq | ⟨place, -, -, heq⟩ := Archive.Entry.isVisitOf_visit data e <;> simp [heq]

/-- An entry whose content stands in the archive as it is. -/
theorem Archive.Entry.isFor_stored {start : Nat} (hname : e.name = file.entryName) (hisFile : e.isFile = true)
    (hsize : e.size = file.2.length) (hvisit : e.visit data = ({ e with contentStart := some start }, none))
    (hpacking : e.packing = .stored) (hpacked : Bytes.ofByteArray (e.packed data start) = file.2)
    (hchecksum : Crc32.ofBytes file.2 = e.checksum) : e.IsFor data file := by
  refine ⟨hname, hisFile, hsize, by rw [hvisit], fun cap hcap => ?_⟩
  have hcontent : ∀ visited : Archive.Entry, visited.contentStart = some start → visited.packing = .stored →
      visited.packed data start = e.packed data start → visited.checksum = e.checksum →
      visited.content data cap = .ok file.2 := by
    intro visited hstart hpacking hsame hsum
    rw [Archive.Entry.content, hstart]
    simp only [Archive.Entry.unpack?, hpacking, hsame, hpacked, if_neg (Nat.not_le.2 hcap), hsum, hchecksum]
    rfl
  rw [hvisit]
  exact hcontent _ rfl hpacking rfl rfl

/-- All entries can be visited. -/
theorem visitEntries_of_isFor (h : List.Forall₂ (Archive.Entry.IsFor data) entries files) :
    Archive.visitEntries data entries = (entries.map fun e => (e.visit data).1, none) := by
  induction h with
  | nil => rfl
  | @cons e file entries files he _ ih =>
    have hvisit := he.visit
    rw [Archive.visitEntries]
    cases hresult : e.visit data with
    | mk visited error =>
      rw [hresult] at hvisit
      obtain rfl : error = none := hvisit
      simp only [ih, List.map_cons, hresult]

theorem archiveEntries_of_isFor (h : List.Forall₂ (Archive.Entry.IsFor data) entries files) :
    Container.archiveEntries ⟨entries.map fun e => (e.visit data).1⟩ = candidateEntries files := by
  rw [Container.archiveEntries, candidateEntries]
  induction h with
  | nil => rfl
  | cons he _ ih =>
    obtain ⟨hname, hisFile, hsize⟩ := he.visited
    simp only [List.map_cons, List.filter_cons, hname, hisFile, Bool.true_and]
    split
    · rw [List.map_cons, ih, hname, hsize]
    · exact ih

/-- Listing the entries visits all of them. -/
theorem classEntries_packed (h : List.Forall₂ (Archive.Entry.IsFor (fs.content id)) a.entries files) :
    (Container.archive path id a).classEntries fs = (.ok (candidateEntries files),
      .archive path id ⟨a.entries.map fun e => (e.visit (fs.content id)).1⟩) := by
  rw [Container.classEntries, Archive.visitAll, visitEntries_of_isFor h]
  dsimp only
  rw [archiveEntries_of_isFor h]

theorem find?_map_visit (data : ByteArray) (entries : List Archive.Entry) (name : String) :
    Archive.find? ⟨entries.map fun e => (e.visit data).1⟩ name =
      (Archive.find? ⟨entries⟩ name).map fun e => (e.visit data).1 := by
  rw [Archive.find?, Archive.find?, List.find?_map]
  congr 2
  funext e
  simp [(Archive.Entry.isVisitOf_visit data e).name]

/-- Visits are all that has happened to the archive. -/
theorem isVisitOf_map_visit (fs : FileSystem) (path : Path) (id : FileId) (a : Archive) :
    Container.IsVisitOf fs (.archive path id a)
      (.archive path id ⟨a.entries.map fun e => (e.visit (fs.content id)).1⟩) := by
  refine .archive path id fun name => ?_
  rw [find?_map_visit]
  show Option.Rel _ (a.find? name) ((a.find? name).map _)
  cases a.find? name with
  | none => exact .none
  | some e => exact .some (Archive.Entry.isVisitOf_visit _ e)

/-- The entry of a name is for the file of that name. -/
theorem find?_isFor (h : List.Forall₂ (Archive.Entry.IsFor data) entries files) (name : String) :
    Option.Rel (Archive.Entry.IsFor data) (Archive.find? ⟨entries⟩ name)
      (files.find? (·.entryName = name)) := by
  rw [Archive.find?]
  induction h with
  | nil => exact .none
  | cons he _ ih =>
    rw [List.find?_cons, List.find?_cons, he.name]
    split
    · exact .some he
    · exact ih

theorem contains_packed (h : List.Forall₂ (Archive.Entry.IsFor (fs.content id)) a.entries files)
    (name : String) :
    (Container.archive path id a).contains fs name = files.any (·.entryName = name) := by
  have hfind := find?_isFor h name
  rw [Container.contains, List.any_eq]
  show (a.find? name).isSome = _
  rw [show Archive.find? ⟨a.entries⟩ name = a.find? name from rfl] at hfind
  cases hfound : files.find? (·.entryName = name) with
  | none =>
    rw [hfound] at hfind
    cases ha : a.find? name with
    | some e => rw [ha] at hfind; cases hfind
    | none => simpa using hfound
  | some file =>
    rw [hfound] at hfind
    cases ha : a.find? name with
    | none => rw [ha] at hfind; cases hfind
    | some e =>
      have hmem := List.mem_of_find?_eq_some hfound
      have hname := List.find?_some hfound
      simpa using ⟨file.1, file.2, hmem, by simpa using hname⟩

/-- What is read of an entry is the content of its file, unless that is too long. -/
theorem read_packed (hfiles : AreFiles files)
    (h : List.Forall₂ (Archive.Entry.IsFor (fs.content id)) a.entries files) (hfile : file ∈ files)
    (max : Nat) : ((Container.archive path id a).read fs file.entryName max).1 =
      Container.within (Container.location path file.entryName) max file.2 := by
  have hfound : files.find? (·.entryName = file.entryName) = some file := by
    cases hfind : files.find? (·.entryName = file.entryName) with
    | none => exact absurd (List.find?_eq_none.1 hfind file hfile) (by simp)
    | some other =>
      have hname : other.entryName = file.entryName := by simpa using List.find?_some hfind
      rw [hfiles.unique hfile (List.mem_of_find?_eq_some hfind) hname]
  have hfind := find?_isFor h file.entryName
  rw [hfound, show Archive.find? ⟨a.entries⟩ file.entryName = a.find? file.entryName from rfl] at hfind
  cases ha : a.find? file.entryName with
  | none => rw [ha] at hfind; cases hfind
  | some e =>
    rw [ha] at hfind
    obtain ⟨hfor⟩ := hfind
    rw [Container.read]
    dsimp only
    rw [Container.readArchived_eq path max ha, hfor.visit]
    dsimp only
    rw [Container.readVisited, hfor.visited.2.2]
    by_cases hbig : max < file.2.length
    · rw [if_pos hbig, Container.within, if_pos hbig]
      rfl
    · rw [if_neg hbig, hfor.content (max + 1) (by omega)]
      rfl

end Packed

/-! ## Files below the folder -/

section Unpacked

variable {fs : FileSystem} {path : Path} {files : List ContainedFile} {file : ContainedFile}

theorem IsUnpacked.ofPath (h : IsUnpacked fs path files) :
    Container.ofPath fs path = .ok (.folder path) := by
  obtain ⟨children, hstat, -⟩ := h
  rw [Container.ofPath, hstat]
  rfl

theorem isLinkFree_of_files {node : Node}
    (h : ∀ place found, node.get? place = some found → found.isFolder ∨ ∃ id, found = .file id) :
    node.IsLinkFree := by
  intro place target hlink
  obtain hfolder | ⟨id, heq⟩ := h place _ hlink
  · cases hfolder
  · cases heq

/-- Along names a file is reached exactly if it is one of those that are in reach. -/
theorem IsUnpacked.stat_iff (h : IsUnpacked fs path files) (hsound : fs.isSound) {text : String}
    {place : Location} (htext : LeadsAlong text place) {id : FileId} :
    fs.stat (path.join ⟨text⟩) = .ok (.file id) ↔ refusal? (path.join ⟨text⟩) = none ∧ AreShort place ∧
      ∃ children, fs.stat path = .ok (.folder children) ∧
        (Node.folder children).get? place = some (.file id) := by
  obtain ⟨children, hstat, honly, -⟩ := h
  rw [stat_join_below (isSound_iff.1 hsound).2 hstat (isLinkFree_of_files honly) htext, hstat]
  simp

theorem isFile_iff {fs : FileSystem} {path : Path} :
    fs.isFile path = true ↔ ∃ id, fs.stat path = .ok (.file id) := by
  unfold isFile
  cases fs.stat path with
  | error e => simp
  | ok node => cases node <;> simp [Node.isFile]

/-- The folder has an entry of that name exactly if there is a file at the names that it leads along. -/
theorem IsUnpacked.contains_iff (h : IsUnpacked fs path files) (hsound : fs.isSound) {text : String}
    {place : Location} (htext : LeadsAlong text place) :
    (Container.folder path).contains fs text = true ↔
      refusal? (path.join ⟨text⟩) = none ∧ AreShort place ∧ ∃ content, (place, content) ∈ files := by
  have hiff : ∀ id, _ := fun id => @IsUnpacked.stat_iff _ _ _ h hsound _ _ htext id
  obtain ⟨children, hstat, -, hmem⟩ := h
  rw [Container.contains, isFile_iff]
  constructor
  · rintro ⟨id, hid⟩
    obtain ⟨hrefusal, hshort, children', hstat', hget⟩ := (hiff id).1 hid
    obtain rfl := Node.folder.inj (Except.ok.inj (hstat.symm.trans hstat'))
    exact ⟨hrefusal, hshort, _, (hmem _ _).2 ⟨id, hget, rfl⟩⟩
  · rintro ⟨hrefusal, hshort, content, hfile⟩
    obtain ⟨id, hget, -⟩ := (hmem _ _).1 hfile
    exact ⟨id, (hiff id).2 ⟨hrefusal, hshort, children, hstat, hget⟩⟩

/-- What is read of the entry is the content of the file, unless that is too long. -/
theorem IsUnpacked.read_eq (h : IsUnpacked fs path files) (hsound : fs.isSound) {text : String}
    {place : Location} {content : Bytes} (htext : LeadsAlong text place)
    (hrefusal : refusal? (path.join ⟨text⟩) = none) (hshort : AreShort place)
    (hfile : (place, content) ∈ files) (max : Nat) :
    ((Container.folder path).read fs text max).1 =
      Container.within (Container.location path text) max content := by
  obtain ⟨children, hstat, honly, hmem⟩ := id h
  obtain ⟨id, hget, hcontent⟩ := (hmem _ _).1 hfile
  have hnode : fs.stat (path.join ⟨text⟩) = .ok (.file id) :=
    (h.stat_iff hsound htext).2 ⟨hrefusal, hshort, children, hstat, hget⟩
  have hsize : fs.sizeOf (.file id) = content.length := by
    rw [← hcontent]
    rfl
  rw [Container.read, Container.readUnpacked, hnode]
  simp only [Except.mapError, bind, Except.bind, hsize, contentOf, hcontent]
  by_cases hbig : max < content.length
  · rw [if_pos hbig, Container.within, if_pos hbig]
    rfl
  · rw [if_neg hbig]

/-- A proper name leads to a file exactly if there is a file of that name. -/
theorem contains_unpacked (hsound : fs.isSound) (h : IsUnpacked fs path files)
    (hfiles : AreFiles files) (hreach : AreInReach path files) {name : String}
    (hname : EntryName.IsProper name) :
    (Container.folder path).contains fs name = files.any (·.entryName = name) := by
  rw [Bool.eq_iff_iff, h.contains_iff hsound hname.leadsAlong, List.any_eq_true]
  constructor
  · rintro ⟨-, -, content, hfile⟩
    have hpath := (hfiles.entryName?_eq hfile).2
    rw [ContainedFile.path, intercalate_segments] at hpath
    exact ⟨_, hfile, decide_eq_true (OsString.ofText_injective hpath).symm⟩
  · rintro ⟨file, hfile, heq⟩
    obtain rfl : file.entryName = name := by simpa using heq
    obtain ⟨hrefusal, hshort⟩ := hfiles.inReach hreach hfile
    rw [hfiles.segments_entryName hfile]
    exact ⟨hrefusal, hshort, file.2, hfile⟩

/-- What is read of a file is its content, unless that is too long. -/
theorem read_unpacked (hsound : fs.isSound) (h : IsUnpacked fs path files)
    (hfiles : AreFiles files) (hreach : AreInReach path files) (hfile : file ∈ files) (max : Nat) :
    ((Container.folder path).read fs file.entryName max).1 =
      Container.within (Container.location path file.entryName) max file.2 := by
  obtain ⟨hne, hnames⟩ := hfiles.named file hfile
  obtain ⟨hrefusal, hshort⟩ := hfiles.inReach hreach hfile
  refine h.read_eq hsound ?_ hrefusal hshort hfile max
  rw [← (hfiles.entryName?_eq hfile).2]
  exact leadsAlong_intercalate hnames hne

/-- The listing is in the order of the files. -/
theorem IsUnpacked.filesBelow (hsound : fs.isSound) (h : IsUnpacked fs path files)
    (hfiles : AreFiles files) : ∃ listed, fs.filesBelow path = .ok listed ∧
      listed.map (fun (place, id) => (place, Bytes.ofByteArray (fs.content id))) = files := by
  obtain ⟨children, hstat, honly, hmem⟩ := h
  obtain ⟨t, ht, hnode⟩ := exists_target_of_stat hstat
  have hget : fs.root.get? t.place = some (.folder children) :=
    (isFound_of_locate (isSound_iff.1 hsound).2 ht).get?.trans hnode
  have hnodeSound := Node.isSound_get? (isSound_iff.1 hsound).1 hget
  refine ⟨(Node.folder children).filesBelow, by rw [FileSystem.filesBelow, hstat]; rfl, ?_⟩
  refine eq_of_pairwise_lt (fun file : ContainedFile => placeKey file.1) ?_ hfiles.ordered
    fun ⟨place, content⟩ => ?_
  · exact List.pairwise_map.2 (Node.pairwise_filesBelow hnodeSound)
  · rw [hmem, List.mem_map]
    simp only [Prod.exists, Prod.mk.injEq, Node.mem_filesBelow hnodeSound]
    constructor
    · rintro ⟨place, id, hfile, rfl, rfl⟩
      exact ⟨id, hfile, rfl⟩
    · rintro ⟨id, hfile, rfl⟩
      exact ⟨place, id, hfile, rfl, rfl⟩

theorem classEntries_unpacked (hsound : fs.isSound) (h : IsUnpacked fs path files)
    (hfiles : AreFiles files) :
    (Container.folder path).classEntries fs = (.ok (candidateEntries files), .folder path) := by
  obtain ⟨listed, hlisted, rfl⟩ := h.filesBelow hsound hfiles
  have hnames : listed.filterMap (fun (place, id) =>
      (Container.entryName? place).map fun name => ClassEntry.mk name (fs.content id).size) =
      listed.map fun (place, id) => ⟨ContainedFile.entryName (place, .ofByteArray (fs.content id)),
        (fs.content id).size⟩ := by
    refine List.filterMap_eq_map_iff_forall_eq_some.2 fun (place, id) hmem => ?_
    have hname : Container.entryName? place = some (ContainedFile.entryName (place, _)) :=
      (hfiles.entryName?_eq (List.mem_map_of_mem hmem)).1
    dsimp only
    rw [hname]
    rfl
  rw [Container.classEntries, Container.folderEntries, hlisted, candidateEntries, List.map_map]
  simp only [Except.mapError, bind, Except.bind, hnames]
  rfl

end Unpacked

end ApiSurface
