/-!
Byte sequences, and the numbers written in them.

What is read from front to back is a plain list of bytes, so that a reader is a function on the bytes
not yet read and splitting is splitting of lists. What is read here and there is an array of bytes.
Class files write numbers with the most significant byte first, archives with the least significant
byte first.
-/

namespace ApiSurface

/-- The content of a file, or any part of it. -/
abbrev Bytes := List UInt8

namespace Bytes

/-- The bytes of an array in order. -/
def ofByteArray (data : ByteArray) : Bytes :=
  data.data.toList

/-- The array of the bytes. -/
def toByteArray (bs : Bytes) : ByteArray :=
  ⟨bs.toArray⟩

@[simp] theorem ofByteArray_toByteArray (bs : Bytes) : ofByteArray bs.toByteArray = bs := rfl

/-- The number whose digits in base 256 are `bs`, most significant first. -/
def bigEndian (bs : Bytes) : Nat :=
  bs.foldl (fun n b => n * 256 + b.toNat) 0

/-- The number whose digits in base 256 are `bs`, least significant first. -/
def littleEndian (bs : Bytes) : Nat :=
  bs.foldr (fun b n => b.toNat + 256 * n) 0

/-- The `n` low digits of `v` in base 256, most significant first. -/
def ofNatBigEndian : Nat → Nat → Bytes
  | 0, _ => []
  | n + 1, v => ofNatBigEndian n (v / 256) ++ [UInt8.ofNat v]

theorem length_ofNatBigEndian (n v : Nat) : (ofNatBigEndian n v).length = n := by
  induction n generalizing v with
  | zero => rfl
  | succ n ih => simp [ofNatBigEndian, ih]

theorem bigEndian_append_singleton (bs : Bytes) (b : UInt8) :
    bigEndian (bs ++ [b]) = bigEndian bs * 256 + b.toNat := by
  simp [bigEndian]

/-- The least number that has more than `n` digits in base 256. -/
def limit : Nat → Nat
  | 0 => 1
  | n + 1 => 256 * limit n

/-- Reading undoes writing when the number has no more than `n` digits. -/
theorem bigEndian_ofNatBigEndian {n v : Nat} (h : v < limit n) :
    bigEndian (ofNatBigEndian n v) = v := by
  induction n generalizing v with
  | zero => simp [limit] at h; simp [ofNatBigEndian, bigEndian, h]
  | succ n ih =>
    rw [ofNatBigEndian, bigEndian_append_singleton, ih]
    · simp; omega
    · rw [limit] at h; omega

/-- A text as bytes, in UTF-8. -/
def ofText (s : String) : Bytes :=
  s.toList.flatMap String.utf8EncodeChar

theorem ofText_append (s t : String) : ofText (s ++ t) = ofText s ++ ofText t := by
  simp [ofText, List.flatMap_append]

/-- The text whose UTF-8 form is `bs`, or nothing when there is none. -/
def toText? (bs : Bytes) : Option String :=
  String.fromUTF8? bs.toByteArray

end Bytes

end ApiSurface
