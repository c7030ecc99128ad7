import ApiSurface.Bytes

/-!
What the bytes of an archive are made of: records with their fields, the names in them and the checksums
of the contents.

A record starts with a mark of four bytes. Numbers are written with the low byte first.
-/

namespace ApiSurface

/-! ## Records and fields -/

namespace Archive

/-- The bytes from `start` up to `stop`, if there are as many. -/
def slice? (data : ByteArray) (start stop : Nat) : Option Bytes :=
  if start ≤ stop && stop ≤ data.size then some (.ofByteArray (data.extract start stop)) else none

/-- The number in `width` bytes. -/
def number? (data : ByteArray) (start width : Nat) : Option Nat :=
  (slice? data start (start + width)).map Bytes.littleEndian

/-- The four bytes at `start` are the mark of a record. -/
def isMarked (data : ByteArray) (mark start : Nat) : Bool :=
  number? data start 4 = some mark

def endMark : Nat := 0x06054b50
def largeEndMark : Nat := 0x06064b50
def locatorMark : Nat := 0x07064b50
def directoryMark : Nat := 0x02014b50
def localMark : Nat := 0x04034b50

/-- The first of the next `n` places from `start` on that has the mark. -/
def findMark? (data : ByteArray) (mark : Nat) : Nat → Nat → Option Nat
  | 0, _ => none
  | n + 1, start =>
    if isMarked data mark start then some start else findMark? data mark n (start + 1)

/-- The first place of the mark between `start` and `stop`. -/
def findMarkBetween? (data : ByteArray) (mark start stop : Nat) : Option Nat :=
  findMark? data mark (stop - start - 3) start

end Archive

/-! ## Names

Names that are not marked as UTF-8 are written in the code page 437. -/

namespace CodePage437

/-- The characters of the bytes from 128 on. The bytes below are those of ASCII. -/
def upperHalf : String :=
  "ÇüéâäàåçêëèïîìÄÅÉæÆôöòûùÿÖÜ¢£¥₧ƒáíóúñÑªº¿⌐¬½¼¡«»" ++
  "░▒▓│┤╡╢╖╕╣║╗╝╜╛┐└┴┬├─┼╞╟╚╔╩╦╠═╬╧╨╤╥╙╘╒╓╫╪┘┌█▄▌▐▀" ++
  "αßΓπΣσµτΦΘΩδ∞φε∩≡±≥≤⌠⌡÷≈°∙·√ⁿ²■\u00a0"

/-- The character of a byte. -/
def charOf (b : UInt8) : Char :=
  if b < 128 then Char.ofNat b.toNat
  else (upperHalf.toList[b.toNat - 128]?).getD '\ufffd'

/-- The text of a name. -/
def decode (bs : Bytes) : String :=
  String.ofList (bs.map charOf)

end CodePage437

/-! ## Checksums

The checksum is the remainder of the content, taken as a polynomial over two elements. -/

namespace Crc32

/-- The divisor, with the highest power left out and the lowest bit first. -/
def divisor : UInt32 := 0xEDB88320

/-- Divides by one more power. -/
def shift (r : UInt32) : UInt32 :=
  if r &&& 1 = 1 then (r >>> 1) ^^^ divisor else r >>> 1

/-- The remainder after one more byte. -/
def step (r : UInt32) (b : UInt8) : UInt32 :=
  Nat.repeat shift 8 (r ^^^ b.toUInt32)

/-- The checksum of a content. -/
def ofBytes (bs : Bytes) : UInt32 :=
  bs.foldl step 0xFFFFFFFF ^^^ 0xFFFFFFFF

end Crc32

end ApiSurface
