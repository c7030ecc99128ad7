import ApiSurface.Bytes
import ApiSurface.Text.Utf16

/-!
Modified UTF-8, the text encoding of class files.

Each UTF-16 code unit of the text is written by itself: one byte for `0x01` to `0x7F`, two bytes
below `0x800` and for `0x00`, three bytes for the rest. A character above `0xFFFF` is therefore two
surrogates of three bytes each, and the byte `0x00` occurs nowhere.

A reader accepts every two-byte and three-byte form, also one that is longer than needed.

| here | there |
|---|---|
| `decode?` | `decode_modified_utf8` |
| `continuation?` | `continuation` |
-/

namespace ApiSurface.ModifiedUtf8

/-- The six bits that a continuation byte carries. -/
def continuation? (b : UInt8) : Option Nat :=
  if 0x80 ≤ b ∧ b < 0xC0 then some (b.toNat - 0x80) else none

/-- Reads the code units of `bytes` behind the units `done`, which are kept last first. -/
def unitsAfter (done : List UInt16) : Bytes → Option (List UInt16)
  | [] => some done.reverse
  | a :: rest =>
    if a = 0x00 then
      none
    else if a < 0x80 then
      unitsAfter (UInt16.ofNat a.toNat :: done) rest
    else if a < 0xC0 then
      none
    else if a < 0xE0 then
      match rest with
      | b :: rest =>
        match continuation? b with
        | some x => unitsAfter (UInt16.ofNat ((a.toNat - 0xC0) * 0x40 + x) :: done) rest
        | none => none
      | [] => none
    else if a < 0xF0 then
      match rest with
      | b :: c :: rest =>
        match continuation? b, continuation? c with
        | some x, some y =>
          unitsAfter (UInt16.ofNat ((a.toNat - 0xE0) * 0x1000 + x * 0x40 + y) :: done) rest
        | _, _ => none
      | _ => none
    else
      none

/-- The code units of `bytes`, or nothing when a form is cut short or has no meaning. -/
def units? (bytes : Bytes) : Option (List UInt16) :=
  unitsAfter [] bytes

/-- The text of `bytes`. -/
def decode? (bytes : Bytes) : Option String :=
  ((units? bytes).bind Utf16.decode?).map String.ofList

/-- The shortest form of one code unit, except that zero takes two bytes. -/
def encodeUnit (u : UInt16) : Bytes :=
  let n := u.toNat
  if 0 < n ∧ n < 0x80 then
    [UInt8.ofNat n]
  else if n < 0x800 then
    [UInt8.ofNat (0xC0 + n / 0x40), UInt8.ofNat (0x80 + n % 0x40)]
  else
    [UInt8.ofNat (0xE0 + n / 0x1000), UInt8.ofNat (0x80 + n / 0x40 % 0x40),
      UInt8.ofNat (0x80 + n % 0x40)]

/-- The bytes of a text. -/
def encode (s : String) : Bytes :=
  (Utf16.encode s.toList).flatMap encodeUnit

end ApiSurface.ModifiedUtf8
