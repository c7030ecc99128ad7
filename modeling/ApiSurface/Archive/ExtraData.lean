import ApiSurface.Archive.Field

/-!
The extra data of an entry: records that complete or replace what its fields say.

Each record has a kind and a length. Some kinds are known; a record of a known kind with a fault makes
the whole entry unusable. Where the data ends in the middle of a record, what has been read counts and
the rest is not missed.
-/

namespace ApiSurface.Archive

/-- What extra data can change about an entry. -/
structure Details where
  name : String
  /-- The name as it is written in the archive. -/
  rawName : Bytes
  comment : String
  size : Nat
  packedSize : Nat
  start : Nat
  /-- The number of the way in which the content is packed. -/
  method : Nat
  /-- The content is encrypted in a way that a record tells. -/
  hasCipher : Bool
  deriving DecidableEq, Repr

/-! ## Reading -/

/-- Why reading comes to an end before the data does. -/
inductive ExtraFault
  | cutShort
  | refused
  deriving DecidableEq, Repr

/-- What has been found out, and the data that is still to be read. -/
structure ExtraState where
  details : Details
  rest : Bytes

/-- A reader of extra data. A fault leaves what has been found out before. -/
abbrev ExtraReader := EStateM ExtraFault ExtraState

namespace ExtraReader

/-- The next `n` bytes. -/
def bytes (n : Nat) : ExtraReader Bytes := fun s =>
  let front := s.rest.take n
  if front.length < n then .error .cutShort s
  else .ok front { s with rest := s.rest.drop n }

/-- The number in the next `width` bytes. -/
def number (width : Nat) : ExtraReader Nat :=
  Bytes.littleEndian <$> bytes width

/-- Goes on only if the condition holds. -/
def check (condition : Bool) : ExtraReader Unit :=
  if condition then return else throw .refused

def details : ExtraReader Details :=
  return (← get).details

def change (f : Details → Details) : ExtraReader Unit :=
  modify fun s => { s with details := f s.details }

end ExtraReader

open ExtraReader

/-! ## Records -/

/-- A number that does not fit its field, if it has been left out there or all are given. The length
that it takes up. -/
def readLargeNumber (always : Bool) (field : Nat) (put : Nat → Details → Details) :
    ExtraReader Nat :=
  if always || field = 0xFFFFFFFF then do
    change (put (← number 8))
    return 8
  else
    return 0

/-- Sizes and the place of the entry, where they are large. -/
def readLargeNumbers (length : Nat) : ExtraReader Unit := do
  let always : Bool := 24 ≤ length
  let d ← details
  let size ← readLargeNumber always d.size fun n d => { d with size := n }
  let packed ← readLargeNumber always d.packedSize fun n d => { d with packedSize := n }
  let start ← readLargeNumber always d.start fun n d => { d with start := n }
  let used := size + packed + start
  check (used ≤ length)
  discard (bytes (length - used))

/-- Three times in the form of one system. -/
def readFileTimes (length : Nat) : ExtraReader Unit := do
  check (length = 32)
  discard (number 4)
  check ((← number 2) = 1)
  check ((← number 2) = 24)
  discard (bytes 24)

/-- The number of flags that are set. -/
def flagCount (flags : Nat) : Nat :=
  ((List.range 8).filter fun i => flags >>> i % 2 = 1).length

/-- Up to three times, as flags say. Where there is room for one time, that one is there. -/
def readTimestamps (length : Nat) : ExtraReader Unit := do
  let flags ← number 1
  check (length = 5 || length = 1 + 4 * flagCount flags)
  check (flags < 8)
  if flags % 2 = 1 || length = 5 then
    discard (number 4)
  if flags / 2 % 2 = 1 && 5 < length then
    discard (number 4)
  if flags / 4 % 2 = 1 && 5 < length then
    discard (number 4)

/-- How the content is encrypted, and how it was packed before. -/
def readCipher (length : Nat) : ExtraReader Unit := do
  check (length = 7)
  let version ← number 2
  let vendor ← number 2
  let strength ← number 1
  let method ← number 2
  check (vendor = 0x4541)
  check (version = 1 || version = 2)
  check (1 ≤ strength && strength ≤ 3)
  change fun d => { d with method, hasCipher := true }

/-- A text in UTF-8 that comes with a checksum of what it stands for. -/
def readReplacement (length : Nat) (replaced : Bytes) : ExtraReader (Bytes × String) := do
  discard (number 1)
  let checksum ← number 4
  check (5 ≤ length)
  let raw ← bytes (length - 5)
  check (checksum = (Crc32.ofBytes replaced).toNat)
  match Bytes.toText? raw with
  | some text => return (raw, text)
  | none => throw .refused

def readComment (length : Nat) : ExtraReader Unit := do
  let (_, comment) ← readReplacement length (Bytes.ofText (← details).comment)
  change fun d => { d with comment }

def readName (length : Nat) : ExtraReader Unit := do
  let (rawName, name) ← readReplacement length (← details).rawName
  change fun d => { d with rawName, name }

/-- A record of any kind. -/
def readRecord : ExtraReader Unit := do
  let kind ← number 2
  let length ← number 2
  match kind with
  | 0x0001 => readLargeNumbers length
  | 0x000a => readFileTimes length
  | 0x5455 => readTimestamps length
  | 0x6375 => readComment length
  | 0x7075 => readName length
  | 0x9901 => readCipher length
  | _ => discard (bytes length)

/-- All records. Each takes four bytes or more, so as many steps as there are bytes are enough. -/
def readRecords : Nat → ExtraReader Unit
  | 0 => return
  | steps + 1 => do
    if (← get).rest.isEmpty then
      return
    else
      readRecord
      readRecords steps

/-- The details with extra data taken into account. -/
def Details.withExtra (extra : Bytes) (d : Details) : Option Details :=
  match readRecords extra.length ⟨d, extra⟩ with
  | .ok _ s => some s.details
  | .error .cutShort s => some s.details
  | .error .refused _ => none

end ApiSurface.Archive
