import ApiSurface.Archive.Deflate
import ApiSurface.Archive.Field
import ApiSurface.Storage.IoError

/-!
Archives: named entries with packed content.

The directory of an archive is read when the archive is opened. What stands at an entry itself, its
own record and its content, is read from the file whenever it is needed, and by then the file may have
been changed. Only where the content of an entry starts is not read twice.
-/

namespace ApiSurface

namespace Archive

/-- How the content of an entry is packed. -/
inductive Packing
  | stored
  | deflated
  /-- In a way that is not known. -/
  | unknown
  deriving DecidableEq, Repr

/-- An entry as the directory of the archive describes it. -/
structure Entry where
  name : String
  /-- Neither a folder nor a symbolic link. -/
  isFile : Bool
  /-- A password is needed. -/
  isEncrypted : Bool
  packing : Packing
  /-- The length of the content, going by the directory. -/
  size : Nat
  packedSize : Nat
  checksum : UInt32
  /-- Where the record of the entry itself starts. -/
  start : Nat
  /-- Where its content starts, once that has been read. -/
  contentStart : Option Nat
  deriving DecidableEq, Repr

end Archive

/-- The entries in the order of the directory; no name stands twice. -/
structure Archive where
  entries : List Archive.Entry
  deriving DecidableEq, Repr

namespace Archive

def find? (a : Archive) (name : String) : Option Entry :=
  a.entries.find? (·.name = name)

/-- Puts an entry in the place of the one with its name. -/
def replace (e : Entry) (a : Archive) : Archive :=
  ⟨a.entries.map fun old => if old.name = e.name then e else old⟩

/-! ## Visiting entries -/

/-- Where content starts, going by the record of its entry at `start`. -/
def contentStart? (data : ByteArray) (start : Nat) : Option Nat := do
  guard (isMarked data localMark start)
  let name ← number? data (start + 26) 2
  let extra ← number? data (start + 28) 2
  return start + 30 + name + extra

/-- Goes to the content of an entry, as reading it does. The entry knows its place from then on. -/
def Entry.visit (data : ByteArray) (e : Entry) : Entry × Option ArchiveError :=
  if e.isEncrypted then
    (e, some .unsupportedEntry)
  else
    match e.contentStart.or (contentStart? data e.start) with
    | none => (e, some .badEntry)
    | some place =>
      ({ e with contentStart := some place },
        if e.packing = .unknown then some .unsupportedEntry else none)

/-- Visits entries up to the first that cannot be read. -/
def visitEntries (data : ByteArray) : List Entry → List Entry × Option ArchiveError
  | [] => ([], none)
  | e :: rest =>
    match e.visit data with
    | (e, some error) => (e :: rest, some error)
    | (e, none) =>
      let (rest, error) := visitEntries data rest
      (e :: rest, error)

/-- Visits all entries in order, up to the first that cannot be read. -/
def visitAll (data : ByteArray) (a : Archive) : Archive × Option ArchiveError :=
  let (entries, error) := visitEntries data a.entries
  (⟨entries⟩, error)

/-! ## Content -/

namespace Entry

/-- The packed content, as much of it as is there. -/
def packed (data : ByteArray) (start : Nat) (e : Entry) : ByteArray :=
  data.extract start (min (start + e.packedSize) data.size)

/-- What unpacking gives, of which the first `cap` bytes matter, or nothing if a fault comes before
them. -/
def unpack? (packed : ByteArray) (cap : Nat) (e : Entry) : Option Bytes :=
  match e.packing with
  | .stored => some (.ofByteArray packed)
  | .deflated => Deflate.unpack? cap packed
  | .unknown => none

/-- The first `cap` bytes of the content, which starts at a place that has been read. Where the
content is shorter, its checksum is compared. -/
def content (data : ByteArray) (cap : Nat) (e : Entry) : Except ArchiveError Bytes := do
  let some start := e.contentStart | throw .badEntry
  let some bytes := e.unpack? (e.packed data start) cap | throw .badData
  if cap ≤ bytes.length then
    return bytes.take cap
  else if Crc32.ofBytes bytes = e.checksum then
    return bytes
  else
    throw .badChecksum

end Entry

end Archive

end ApiSurface
