import ApiSurface.Bytes

/-!
UTF-8 with faults.

Bytes that begin no character are replaced by a mark. As many bytes as could still begin one
character share a mark.
-/

namespace ApiSurface.Utf8

/-- What stands for bytes that are no text. -/
def replacement : Char := '\ufffd'

/-- A byte inside a character. -/
def isContinuation (b : UInt8) : Bool :=
  0x80 ≤ b && b ≤ 0xBF

/-- The number of bytes behind the first byte `b` of a character. -/
def tailLength? (b : UInt8) : Option Nat :=
  if b < 0x80 then some 0
  else if 0xC2 ≤ b && b ≤ 0xDF then some 1
  else if 0xE0 ≤ b && b ≤ 0xEF then some 2
  else if 0xF0 ≤ b && b ≤ 0xF4 then some 3
  else none

/-- The bytes that can be second behind `b`: no overlong form, no half of a pair and nothing beyond
the last character. -/
def isSecond (b c : UInt8) : Bool :=
  if b = 0xE0 then 0xA0 ≤ c && c ≤ 0xBF
  else if b = 0xED then 0x80 ≤ c && c ≤ 0x9F
  else if b = 0xF0 then 0x90 ≤ c && c ≤ 0xBF
  else if b = 0xF4 then 0x80 ≤ c && c ≤ 0x8F
  else isContinuation c

/-- The front part of `rest` that can belong to a character which starts with `b` and has `n` more
bytes. -/
def tailOf (b : UInt8) (n : Nat) (rest : Bytes) : Bytes :=
  match rest with
  | [] => []
  | c :: more => if n ≠ 0 && isSecond b c then c :: (more.take (n - 1)).takeWhile isContinuation else []

/-- The character of a first byte and all of its tail. -/
def charOf (b : UInt8) (tail : Bytes) : Char :=
  let lead := match tail.length with
    | 0 => b.toNat
    | 1 => b.toNat % 32
    | 2 => b.toNat % 16
    | _ => b.toNat % 8
  Char.ofNat (tail.foldl (fun n c => n * 64 + c.toNat % 64) lead)

/-- Decodes with `skip` bytes of the last character still to be passed. -/
def decodeFrom : Nat → Bytes → List Char
  | _, [] => []
  | skip + 1, _ :: rest => decodeFrom skip rest
  | 0, b :: rest =>
    match tailLength? b with
    | none => replacement :: decodeFrom 0 rest
    | some n =>
      let tail := tailOf b n rest
      (if tail.length = n then charOf b tail else replacement) :: decodeFrom tail.length rest

/-- The text of bytes, with marks where they are no text. -/
def decode (bs : Bytes) : String :=
  String.ofList (decodeFrom 0 bs)

end ApiSurface.Utf8
