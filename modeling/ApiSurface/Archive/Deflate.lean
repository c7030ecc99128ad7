import ApiSurface.Bytes

/-!
Unpacking the deflate format.

The data is a sequence of bits, the low bits of each byte first. It consists of blocks, and each block
of literal bytes and of references to bytes that have been unpacked before. Each of them is written
as a symbol of a prefix code.

The data may break the rules of the format, or end too early. What is unpacked is handed over in
portions, and a fault spoils the portion it stands in: a portion ends where the window is full, and
where the data comes to the end of a chunk. So bytes in front of a fault are lost unless their portion
has ended before; the end of the data is the end of a chunk, so nothing that stands before it is lost.
Unpacking stops as soon as as many bytes as are asked for have been handed over.
-/

namespace ApiSurface.Deflate

/-- How unpacking comes to an end. -/
inductive Ending
  /-- At the end of the last block. -/
  | finished
  /-- At the end of the data, in the middle of a block. -/
  | cutShort
  | broken
  /-- With as many bytes as were asked for. -/
  | full
  deriving DecidableEq, Repr

/-! ## Bits -/

/-- Reads at a place of the data, which is counted in bits. Where reading fails it has come to a place
too. -/
abbrev BitReader := ReaderT ByteArray (EStateM Ending Nat)

namespace BitReader

def bit : BitReader Nat := fun data place =>
  match data[place / 8]? with
  | some b => .ok (b.toNat >>> (place % 8) % 2) (place + 1)
  | none => .error .cutShort place

/-- A number of `n` bits, the lowest first. -/
def bits : Nat → BitReader Nat
  | 0 => return 0
  | n + 1 => do
    let low ← bit
    let high ← bits n
    return low + 2 * high

/-- Goes on to the start of a byte. -/
def align : BitReader Unit := fun _ place =>
  .ok () ((place + 7) / 8 * 8)

end BitReader

/-! ## Prefix codes -/

/-- A prefix code, bit by bit. -/
inductive PrefixCode
  /-- No symbol is written like this. -/
  | unused
  | symbol (n : Nat)
  | split (zero one : PrefixCode)

namespace PrefixCode

/-- The longest code of a symbol, in bits. -/
def maxLength : Nat := 15

/-- The part of a code in canonical form that begins at a depth, with at most `more` bits below. The
symbols that still have no place come with their lengths, the shorter ones first; those of the part
are taken from the front. -/
def build : Nat → Nat → List (Nat × Nat) → PrefixCode × List (Nat × Nat)
  | _, _, [] => (.unused, [])
  | 0, _, (_, n) :: rest => (.symbol n, rest)
  | more + 1, depth, (length, n) :: rest =>
    if length ≤ depth then
      (.symbol n, rest)
    else
      let (zero, rest) := build more (depth + 1) ((length, n) :: rest)
      let (one, rest) := build more (depth + 1) rest
      (.split zero one, rest)

/-- The symbols that have a code, with its length, the shorter ones first. -/
def ordered (lengths : List Nat) : List (Nat × Nat) :=
  (List.range maxLength).flatMap fun n => lengths.zipIdx.filter (·.1 = n + 1)

/-- The code in which symbol `i` has a code of the length `lengths[i]`; zero means none. Codes of one
length are consecutive numbers, and shorter codes come first. -/
def ofLengths (lengths : List Nat) : PrefixCode :=
  let (zero, rest) := build (maxLength - 1) 1 (ordered lengths)
  let (one, _) := build (maxLength - 1) 1 rest
  .split zero one

/-- The share of all sequences of bits that codes of these lengths begin, in parts of `wholeShare`. -/
def share (lengths : List Nat) : Nat :=
  (lengths.filter (· ≠ 0)).foldl (fun total length => total + 1 <<< (maxLength - length)) 0

def wholeShare : Nat := 1 <<< maxLength

/-- The symbol of the code that the next bits make up. -/
def read : PrefixCode → BitReader Nat
  | .unused => throw .broken
  | .symbol n => return n
  | .split zero one => do
    if (← BitReader.bit) = 0 then read zero else read one

end PrefixCode

/-- The two codes of a block. -/
structure BlockCodes where
  /-- Of literal bytes, the end of the block and the lengths of references. -/
  literal : PrefixCode
  /-- Of the distances of references. -/
  distance : PrefixCode

namespace BlockCodes

/-- The symbol that ends a block. -/
def endOfBlock : Nat := 256

/-- The codes of blocks that bring none. -/
def fixed : BlockCodes where
  literal := .ofLengths <| List.replicate 144 8 ++ List.replicate 112 9 ++ List.replicate 24 7
    ++ List.replicate 8 8
  distance := .ofLengths <| List.replicate 32 5

/-- The order in which the lengths of the code for lengths are written. -/
def lengthOrder : List Nat :=
  [16, 17, 18, 0, 8, 7, 9, 6, 10, 5, 11, 4, 12, 3, 13, 2, 14, 1, 15]

/-- Lengths behind `done`, which is kept last first, until there are `total`. Symbols from 16 on
repeat the length before or zero. Each step adds a length, so `steps` of them are enough. -/
def readLengths (code : PrefixCode) (total : Nat) : Nat → List Nat → BitReader (List Nat)
  | 0, done => if done.length = total then return done.reverse else throw .broken
  | steps + 1, done => do
    if total < done.length then
      throw .broken
    else if done.length = total then
      return done.reverse
    else
      let symbol ← code.read
      if symbol < 16 then
        readLengths code total steps (symbol :: done)
      else if symbol = 16 then
        match done with
        | [] => throw .broken
        | last :: _ =>
          let n ← BitReader.bits 2
          readLengths code total steps (List.replicate (n + 3) last ++ done)
      else if symbol = 17 then
        let n ← BitReader.bits 3
        readLengths code total steps (List.replicate (n + 3) 0 ++ done)
      else
        let n ← BitReader.bits 7
        readLengths code total steps (List.replicate (n + 11) 0 ++ done)

/-- The codes of several symbols have to begin all sequences of bits, each of them once. A symbol on its
own has a code of one bit, and there may be no symbol at all. -/
def isUsable (lengths : List Nat) : Bool :=
  let given := lengths.filter (· ≠ 0)
  PrefixCode.share lengths = PrefixCode.wholeShare || given = [] || given = [1]

/-- The codes that a block brings. -/
def read : BitReader BlockCodes := do
  let literals := (← BitReader.bits 5) + 257
  let distances := (← BitReader.bits 5) + 1
  let given := (← BitReader.bits 4) + 4
  if 286 < literals || 30 < distances then
    throw .broken
  let written ← (List.range given).mapM fun _ => BitReader.bits 3
  let pairs := lengthOrder.zip written
  let lengths := (List.range 19).map fun symbol => (pairs.lookup symbol).getD 0
  if PrefixCode.share lengths ≠ PrefixCode.wholeShare then
    throw .broken
  let total := literals + distances
  let lengths ← readLengths (.ofLengths lengths) total (total + 1) []
  let (ofLiterals, ofDistances) := lengths.splitAt literals
  if isUsable ofLiterals && isUsable ofDistances then
    return ⟨.ofLengths ofLiterals, .ofLengths ofDistances⟩
  else
    throw .broken

end BlockCodes

/-! ## References -/

/-- For each length symbol the least length and the number of bits to be added. -/
def lengthBases : Array (Nat × Nat) := #[
  (3, 0), (4, 0), (5, 0), (6, 0), (7, 0), (8, 0), (9, 0), (10, 0), (11, 1), (13, 1), (15, 1),
  (17, 1), (19, 2), (23, 2), (27, 2), (31, 2), (35, 3), (43, 3), (51, 3), (59, 3), (67, 4), (83, 4),
  (99, 4), (115, 4), (131, 5), (163, 5), (195, 5), (227, 5), (258, 0)]

/-- For each distance symbol the least distance and the number of bits to be added. -/
def distanceBases : Array (Nat × Nat) := #[
  (1, 0), (2, 0), (3, 0), (4, 0), (5, 1), (7, 1), (9, 2), (13, 2), (17, 3), (25, 3), (33, 4),
  (49, 4), (65, 5), (97, 5), (129, 6), (193, 6), (257, 7), (385, 7), (513, 8), (769, 8), (1025, 9),
  (1537, 9), (2049, 10), (3073, 10), (4097, 11), (6145, 11), (8193, 12), (12289, 12), (16385, 13),
  (24577, 13)]

/-- The number that a symbol and the bits behind it stand for. -/
def readFrom (bases : Array (Nat × Nat)) (symbol : Nat) : BitReader Nat :=
  match bases[symbol]? with
  | some (base, extra) => do return base + (← BitReader.bits extra)
  | none => throw .broken

/-- The byte `distance` places back. In front of the first byte there are zeros. -/
def byteBack (distance : Nat) (out : ByteArray) : UInt8 :=
  if distance ≤ out.size then (out[out.size - distance]?).getD 0 else 0

/-- Adds the byte `distance` places back, `n` times. The bytes that are added count too. -/
def copyBack (distance : Nat) : Nat → ByteArray → ByteArray
  | 0, out => out
  | n + 1, out => copyBack distance n (out.push (byteBack distance out))

/-! ## Portions -/

/-- The bytes of a chunk of data. -/
def chunkSize : Nat := 8192

/-- The bytes of a full window. -/
def windowSize : Nat := 32768

/-- What has been unpacked, and where in the data that has come to. -/
structure Progress where
  out : ByteArray
  /-- The place of the next bit. -/
  place : Nat
  /-- How much had been unpacked when reading came to the last chunk it has come to. -/
  handed : Nat

namespace Progress

/-- The number of chunks in which the bits before a place stand. -/
def chunksBefore (place : Nat) : Nat :=
  (place + (8 * chunkSize - 1)) / (8 * chunkSize)

/-- Reads on to a place without unpacking anything. -/
def moveTo (place : Nat) (s : Progress) : Progress :=
  { s with
    place
    handed := if chunksBefore s.place < chunksBefore place then s.out.size else s.handed }

/-- Takes over plain bytes from place `start` to place `stop`, both counted in bytes. -/
def takePlain (data : ByteArray) (start stop : Nat) (s : Progress) : Progress where
  out := s.out ++ data.extract start stop
  place := 8 * stop
  handed :=
    let chunks := chunksBefore (8 * stop)
    if chunksBefore (8 * start) < chunks then s.out.size + ((chunks - 1) * chunkSize - start)
    else s.handed

/-- How much has been handed over: all portions but the last. A byte that finds the window full starts
a portion. -/
def settled (s : Progress) : Nat :=
  max s.handed ((s.out.size - 1) / windowSize * windowSize)

end Progress

/-! ## Blocks -/

/-- What a symbol of a block stands for. -/
inductive Item
  | literal (b : UInt8)
  | reference (length distance : Nat)
  | blockEnd

/-- The next item of a block. -/
def BlockCodes.readItem (codes : BlockCodes) : BitReader Item := do
  let symbol ← codes.literal.read
  if symbol < endOfBlock then
    return .literal (UInt8.ofNat symbol)
  else if symbol = endOfBlock then
    return .blockEnd
  else
    let length ← readFrom lengthBases (symbol - 257)
    let distance ← readFrom distanceBases (← codes.distance.read)
    return .reference length distance

/-- What has been done, and how it came to an end, if not at the end of a block. -/
abbrev BlockResult := Progress × Option Ending

/-- Unpacks items until the end of the block. Each item takes a bit, so as many steps as there are
bits are enough. -/
def unpackItems (data : ByteArray) (codes : BlockCodes) (cap : Nat) :
    Nat → Progress → BlockResult
  | 0, s => (s, some .cutShort)
  | steps + 1, s =>
    if cap ≤ s.settled then
      (s, some .full)
    else
      match codes.readItem data s.place with
      | .error ending place => (s.moveTo place, some ending)
      | .ok item place =>
        let s := s.moveTo place
        match item with
        | .blockEnd => (s, none)
        | .literal b => unpackItems data codes cap steps { s with out := s.out.push b }
        | .reference length distance =>
          unpackItems data codes cap steps { s with out := copyBack distance length s.out }

/-- The length of a block of plain bytes, which is written twice, once with all bits changed. -/
def readPlainLength : BitReader Nat := do
  BitReader.align
  let length ← BitReader.bits 16
  let check ← BitReader.bits 16
  if length + check = 0xFFFF then
    return length
  else
    throw .broken

/-- Unpacks a block of plain bytes. -/
def unpackPlain (data : ByteArray) (s : Progress) : BlockResult :=
  match readPlainLength data s.place with
  | .error ending place => (s.moveTo place, some ending)
  | .ok length place =>
    let start := place / 8
    let stop := min (start + length) data.size
    ((s.moveTo place).takePlain data start stop,
      if stop < start + length then some .cutShort else none)

/-- The three bits at the start of a block: whether it is the last one, and its kind. -/
def readBlockHead : BitReader (Bool × Nat) := do
  let last ← BitReader.bit
  let kind ← BitReader.bits 2
  return (last = 1, kind)

/-- Unpacks a block of the given kind. -/
def unpackBlock (data : ByteArray) (kind cap : Nat) (s : Progress) : BlockResult :=
  match kind with
  | 0 => unpackPlain data s
  | 1 => unpackItems data BlockCodes.fixed cap (8 * data.size + 1) s
  | 2 =>
    match BlockCodes.read data s.place with
    | .error ending place => (s.moveTo place, some ending)
    | .ok codes place => unpackItems data codes cap (8 * data.size + 1) (s.moveTo place)
  | _ => (s, some .broken)

/-- Unpacks blocks until the end of the last one. Each block takes a bit, so as many steps as there
are bits are enough. -/
def unpackBlocks (data : ByteArray) (cap : Nat) : Nat → Progress → Progress × Ending
  | 0, s => (s, .cutShort)
  | steps + 1, s =>
    match readBlockHead data s.place with
    | .error ending place => (s.moveTo place, ending)
    | .ok (isLast, kind) place =>
      match unpackBlock data kind cap (s.moveTo place) with
      | (s, some ending) => (s, ending)
      | (s, none) => if isLast then (s, .finished) else unpackBlocks data cap steps s

/-- Unpacks `cap` bytes, or all if there are less; there may also be more. Nothing comes of data in
which a fault is met before. -/
def unpack? (cap : Nat) (data : ByteArray) : Option Bytes :=
  let (s, ending) := unpackBlocks data cap (8 * data.size + 1) ⟨.empty, 0, 0⟩
  let isReached := match ending with
    | .finished | .full => true
    | .cutShort => cap ≤ s.out.size
    | .broken => false
  if isReached then some (.ofByteArray s.out) else none

end ApiSurface.Deflate
