import ApiSurface.Archive.Field

/-!
The end of an archive, where a record says where its directory is.

A number that is too large for its field has all its bits set, and then the true one stands in a
record of its own, to which a locator points.
-/

namespace ApiSurface.Archive

/-- Where the directory is. -/
structure Outline where
  /-- What has to be added to places to find them in the bytes. -/
  shift : Nat
  directoryStart : Nat
  entryCount : Nat
  deriving DecidableEq, Repr

/-! ## The last record -/

/-- The record at the end: disk numbers, entry counts and the place of the directory. -/
structure EndRecord where
  disk : Nat
  directoryDisk : Nat
  entriesHere : Nat
  entries : Nat
  directoryStart : Nat
  deriving DecidableEq, Repr

def EndRecord.read? (data : ByteArray) (start : Nat) : Option EndRecord := do
  guard (isMarked data endMark start)
  let comment ← number? data (start + 20) 2
  guard (start + 22 + comment ≤ data.size)
  return {
    disk := ← number? data (start + 4) 2
    directoryDisk := ← number? data (start + 6) 2
    entriesHere := ← number? data (start + 8) 2
    entries := ← number? data (start + 10) 2
    directoryStart := ← number? data (start + 16) 4 }

/-- A field of the record is too small for its number. -/
def EndRecord.mayBeLarge (r : EndRecord) : Bool :=
  r.entries = 0xFFFF || r.directoryStart = 0xFFFFFFFF

/-- The outline that the record at `start` gives on its own. What stands in front of an archive can
only move the directory on, so that is where it is looked for. -/
def EndRecord.outline? (data : ByteArray) (start : Nat) (r : EndRecord) : Option Outline := do
  guard (r.disk = r.directoryDisk)
  if r.entries = 0 then
    let shift := start - r.directoryStart
    return ⟨shift, r.directoryStart + shift, r.entriesHere⟩
  else
    guard (r.directoryStart < start)
    let found ← findMarkBetween? data directoryMark r.directoryStart start
    return ⟨found - r.directoryStart, found, r.entriesHere⟩

/-! ## The record for large numbers -/

/-- The record for large numbers, and where it starts. -/
structure LargeRecord where
  start : Nat
  size : Nat
  madeBy : Nat
  needed : Nat
  disk : Nat
  directoryDisk : Nat
  entriesHere : Nat
  entries : Nat
  directoryStart : Nat
  deriving DecidableEq, Repr

def LargeRecord.read? (data : ByteArray) (start : Nat) : Option LargeRecord := do
  guard (isMarked data largeEndMark start)
  return {
    start
    size := ← number? data (start + 4) 8
    madeBy := ← number? data (start + 12) 2
    needed := ← number? data (start + 14) 2
    disk := ← number? data (start + 16) 4
    directoryDisk := ← number? data (start + 20) 4
    entriesHere := ← number? data (start + 24) 8
    entries := ← number? data (start + 32) 8
    directoryStart := ← number? data (start + 48) 8 }

/-- The record is the one that belongs to the locator at `stop`, which names the disk of the
directory: it ends there, and the directory has room in front of it. -/
def LargeRecord.belongsTo (locatorDisk stop : Nat) (r : LargeRecord) : Bool :=
  44 ≤ r.size && r.start + r.size + 12 = stop && r.directoryDisk = locatorDisk &&
    r.entries * 46 + r.directoryStart ≤ r.start

/-- The outline that the record gives, which by its own account starts at `stated`. -/
def LargeRecord.outline? (stated : Nat) (r : LargeRecord) : Option Outline := do
  guard (r.entriesHere ≤ r.entries && r.needed ≤ r.madeBy && r.disk = r.directoryDisk)
  let shift := r.start - stated
  return ⟨shift, r.directoryStart + shift, r.entries⟩

/-- The first of the next `n` places from `start` on that holds the record of a locator. -/
def findLarge? (data : ByteArray) (locatorDisk stop : Nat) : Nat → Nat → Option LargeRecord
  | 0, _ => none
  | n + 1, start =>
    match (LargeRecord.read? data start).filter (·.belongsTo locatorDisk stop) with
    | some r => some r
    | none => findLarge? data locatorDisk stop n (start + 1)

/-- The outline in the records for large numbers, which the record at `start` follows. There are none
when nothing points to them. -/
def locatedOutline? (data : ByteArray) (start : Nat) : Option (Option Outline) := do
  guard (20 ≤ start)
  let locator := start - 20
  guard (isMarked data locatorMark locator)
  let disk ← number? data (locator + 4) 4
  let stated ← number? data (locator + 8) 8
  let disks ← number? data (locator + 16) 4
  return do
    guard (stated < locator && disks ≤ 1)
    let r ← findLarge? data disk locator (locator - stated - 3) stated
    r.outline? stated

/-- The outline that the record at `start` leads to. -/
def outlineAt? (data : ByteArray) (start : Nat) : Option Outline := do
  let r ← EndRecord.read? data start
  let located := if r.mayBeLarge then locatedOutline? data start else none
  match located with
  | some outline => outline
  | none => r.outline? data start

end ApiSurface.Archive
