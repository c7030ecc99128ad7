import ApiSurface.Archive.Basic
import ApiSurface.Archive.ExtraData
import ApiSurface.Archive.Field
import ApiSurface.Archive.Outline
import ApiSurface.Text.Utf8

/-!
Finding the entries of an archive in its bytes.

An archive is described at its end: a record there says where the directory is, and the directory
says where each entry is. Other bytes may stand in front of the archive, whether the places count
them or not, and behind it. The records that look like the last one are tried from the end on, and the
first one that leads to a directory without faults is taken. The entries themselves are not looked at,
but they have to start in front of the directory.
-/

namespace ApiSurface.Archive

/-- A name that ends in a slash of either kind. -/
def isFolderName (name : String) : Bool :=
  match name.toList.getLast? with
  | some c => c = '/' || c = '\\'
  | none => false

/-- The attributes are those of a symbolic link on a system that has such links. -/
def isLink (madeBy attributes : Nat) : Bool :=
  madeBy / 256 = 3 && (attributes / 65536) &&& 0xA000 = 0xA000

/-- How content is packed, going by the details of its entry. -/
def Details.packing (d : Details) : Packing :=
  if d.hasCipher then .unknown
  else if d.method = 0 then .stored
  else if d.method = 8 then .deflated
  else .unknown

/-- The method of content that is encrypted in a way which extra data has to tell. -/
def cipherMethod : Nat := 99

/-- A name or comment, which is in UTF-8 if a flag says so. -/
def textOf (flags : Nat) (raw : Bytes) : String :=
  if flags / 2048 % 2 = 1 then Utf8.decode raw else CodePage437.decode raw

/-- The entry that is described at `place` of the directory, and the place behind. -/
def readEntry? (data : ByteArray) (outline : Outline) (place : Nat) : Option (Entry × Nat) := do
  guard (isMarked data directoryMark place)
  let madeBy ← number? data (place + 4) 2
  let flags ← number? data (place + 8) 2
  let method ← number? data (place + 10) 2
  let checksum ← number? data (place + 16) 4
  let packedSize ← number? data (place + 20) 4
  let size ← number? data (place + 24) 4
  let nameLength ← number? data (place + 28) 2
  let extraLength ← number? data (place + 30) 2
  let commentLength ← number? data (place + 32) 2
  let attributes ← number? data (place + 38) 4
  let start ← number? data (place + 42) 4
  let nameStop := place + 46 + nameLength
  let extraStop := nameStop + extraLength
  let stop := extraStop + commentLength
  let rawName ← slice? data (place + 46) nameStop
  let extra ← slice? data nameStop extraStop
  let rawComment ← slice? data extraStop stop
  let plain : Details := {
    name := textOf flags rawName
    rawName
    comment := textOf flags rawComment
    size
    packedSize
    start
    method
    hasCipher := false }
  let d ← plain.withExtra extra
  guard (d.hasCipher || d.method ≠ cipherMethod)
  let start := d.start + outline.shift
  guard (start < outline.directoryStart)
  return ({
    name := d.name
    isFile := !isFolderName d.name && !isLink madeBy attributes
    isEncrypted := flags % 2 = 1
    packing := d.packing
    size := d.size
    packedSize := d.packedSize
    checksum := UInt32.ofNat checksum
    start
    contentStart := none }, stop)

/-- Adds an entry. Of two with one name the first gives the place and the last all else. -/
def insert (entries : List Entry) (e : Entry) : List Entry :=
  if entries.any (·.name = e.name) then
    entries.map fun old => if old.name = e.name then e else old
  else
    entries ++ [e]

/-- Reads `n` entries from `place` on. -/
def readEntries? (data : ByteArray) (outline : Outline) :
    Nat → Nat → List Entry → Option (List Entry)
  | 0, _, entries => some entries
  | n + 1, place, entries => do
    let (e, place) ← readEntry? data outline place
    readEntries? data outline n place (insert entries e)

/-- The archive to which the record at `start` leads. -/
def openAt? (data : ByteArray) (start : Nat) : Option Archive := do
  let outline ← outlineAt? data start
  let entries ← readEntries? data outline outline.entryCount outline.directoryStart []
  return ⟨entries⟩

/-- The archive to which a record before `stop` leads, the last such record first. -/
def openBefore? (data : ByteArray) : Nat → Option Archive
  | 0 => none
  | start + 1 =>
    match openAt? data start with
    | some a => some a
    | none => openBefore? data start

/-- The archive in the bytes of a file. -/
def ofData? (data : ByteArray) : Option Archive :=
  openBefore? data data.size

end ApiSurface.Archive
