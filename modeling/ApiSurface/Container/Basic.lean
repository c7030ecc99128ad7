import ApiSurface.Archive.Directory
import ApiSurface.Container.EntryName
import ApiSurface.Scan.Error
import ApiSurface.Storage.Listing

/-!
Containers: the places that hold classes, each either an archive or a folder.

Which entries an archive has is settled when it is opened. Their content is read from the file that
was opened, also when another one has its name by then. A folder is looked at again with every
question.

| here | there |
|---|---|
| `Container.ofPath` | `ClassContainer.open` |
| `Container.classEntries` | `ClassContainer.class_entries` |
| `Container.contains` | `ClassContainer.contains` |
| `Container.read` | `ClassContainer.read` |
| `Container.entryName?` | `relative_entry_name` |
| `ClassEntry.binaryName` | `ClassEntry.binary_name` |
-/

namespace ApiSurface

/-- An entry that may hold a class. -/
structure ClassEntry where
  name : String
  /-- The length of the content, as far as that is known before it is read. -/
  size : Nat
  deriving DecidableEq, Repr

/-- The class that the entry is named for. -/
def ClassEntry.binaryName (e : ClassEntry) : String :=
  EntryName.toBinaryName e.name

/-- A place that holds classes. -/
inductive Container
  | archive (path : Path) (file : FileId) (content : Archive)
  | folder (path : Path)
  deriving DecidableEq, Repr

namespace Container

def path : Container → Path
  | .archive path .. => path
  | .folder path => path

def isArchive : Container → Bool
  | .archive .. => true
  | .folder _ => false

/-- Puts an error down to the location at `path`. -/
def unresolved (path : Path) (fault : ResolutionFault) : ScanError :=
  .resolution path.shown fault

/-- Puts an error in an archive down to its location. -/
def unreadable (path : Path) (e : ArchiveError) : ScanError :=
  unresolved path (.io (.archive e))

/-- The container at `path`. -/
def ofPath (fs : FileSystem) (path : Path) : Except ScanError Container := do
  match ← (fs.stat path).mapError fun e => unresolved path (.io e) with
  | .folder _ => return .folder path
  | .file id =>
    match Archive.ofData? (fs.content id) with
    | some a => return .archive path id a
    | none => throw (unreadable path .notAnArchive)
  | .link _ | .device => throw (unresolved path .notFileOrFolder)

/-- The entries of an archive that may hold classes. -/
def archiveEntries (a : Archive) : List ClassEntry :=
  (a.entries.filter fun e => e.isFile && EntryName.isCandidate e.name).map fun e => ⟨e.name, e.size⟩

/-- The name of the entry at a place below a folder, if the names on the way are texts. -/
def entryName? (place : Location) : Option String :=
  (place.mapM OsString.text?).map "/".intercalate

/-- The files below a folder that may hold classes. -/
def folderEntries (fs : FileSystem) (path : Path) : Except ScanError (List ClassEntry) := do
  let files ← (fs.filesBelow path).mapError fun e => unresolved path (.listing path.shown e)
  let entries := files.filterMap fun (place, id) =>
    (entryName? place).map fun name => ClassEntry.mk name (fs.content id).size
  return entries.filter fun e => EntryName.isCandidate e.name

/-- The entries that may hold classes, in the order of the archive or of the names in the folder. Every
entry of an archive is visited, also those that hold no class, and has to be one that can be read. -/
def classEntries (fs : FileSystem) : Container → Except ScanError (List ClassEntry) × Container
  | .archive path file a =>
    match a.visitAll (fs.content file) with
    | (a, some e) => (.error (unreadable path e), .archive path file a)
    | (a, none) => (.ok (archiveEntries a), .archive path file a)
  | .folder path => (folderEntries fs path, .folder path)

/-- There is an entry of that name. -/
def contains (fs : FileSystem) (name : String) : Container → Bool
  | .archive _ _ a => (a.find? name).isSome
  | .folder path => fs.isFile (path.join ⟨name⟩)

/-- How an entry is named in messages. -/
def location (path : Path) (name : String) : String :=
  s!"{path.shown}!{name}"

/-- Bytes that are no more than may be read. -/
def within (location : String) (max : Nat) (bytes : Bytes) : Except ScanError Bytes :=
  if max < bytes.length then .error (.fileTooBig location bytes.length max) else .ok bytes

/-- The content of an entry that has been visited, of at most `max` bytes. What is stated about its
length is not relied on: one byte more is asked for, and if there is one the content is too long. -/
def readVisited (data : ByteArray) (location : String) (max : Nat) (e : Archive.Entry) :
    Except ScanError Bytes := do
  if max < e.size then
    throw (.fileTooBig location e.size max)
  within location max
    (← (e.content data (max + 1)).mapError fun e => .io location (.archive e))

/-- The content of an entry of an archive. -/
def readArchived (data : ByteArray) (path : Path) (name : String) (max : Nat) (a : Archive) :
    Except ScanError Bytes × Archive :=
  match a.find? name with
  | none => (.error (unreadable path .noSuchEntry), a)
  | some e =>
    match e.visit data with
    | (e, some error) => (.error (unreadable path error), a.replace e)
    | (e, none) => (readVisited data (location path name) max e, a.replace e)

/-- The content of a file below a folder, of at most `max` bytes. -/
def readUnpacked (fs : FileSystem) (path : Path) (name : String) (max : Nat) :
    Except ScanError Bytes := do
  let location := location path name
  let node ← (fs.stat (path.join ⟨name⟩)).mapError (.io location)
  if max < fs.sizeOf node then
    throw (.fileTooBig location (fs.sizeOf node) max)
  within location max (← (fs.contentOf node).mapError (.io location))

/-- The content of an entry, of at most `max` bytes. -/
def read (fs : FileSystem) (name : String) (max : Nat) :
    Container → Except ScanError Bytes × Container
  | .archive path file a =>
    let (result, a) := readArchived (fs.content file) path name max a
    (result, .archive path file a)
  | .folder path => (readUnpacked fs path name max, .folder path)

end Container

end ApiSurface
