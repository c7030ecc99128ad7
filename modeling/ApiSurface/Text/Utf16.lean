/-!
UTF-16: scalar values as 16-bit code units.

A scalar value below `0x10000` is one unit. Any other is a high surrogate followed by a low one,
which carry ten bits each. A surrogate that is not part of such a pair stands for no text.
-/

namespace ApiSurface.Utf16

/-- The first unit of a pair. -/
def isHighSurrogate (u : UInt16) : Bool :=
  0xD800 ≤ u && u < 0xDC00

/-- The second unit of a pair. -/
def isLowSurrogate (u : UInt16) : Bool :=
  0xDC00 ≤ u && u < 0xE000

/-- The scalar value that a high and a low surrogate stand for. -/
def pair (high low : UInt16) : Char :=
  Char.ofNat (0x10000 + (high.toNat - 0xD800) * 0x400 + (low.toNat - 0xDC00))

/-- The units of one scalar value. -/
def encodeChar (c : Char) : List UInt16 :=
  if c.toNat < 0x10000 then
    [UInt16.ofNat c.toNat]
  else
    [UInt16.ofNat (0xD800 + (c.toNat - 0x10000) / 0x400),
      UInt16.ofNat (0xDC00 + (c.toNat - 0x10000) % 0x400)]

/-- The units of a text. -/
def encode (s : List Char) : List UInt16 :=
  s.flatMap encodeChar

/-- Decodes `units` behind the scalar values `done`, which are kept last first. -/
def decodeAfter (done : List Char) : List UInt16 → Option (List Char)
  | [] => some done.reverse
  | u :: rest =>
    if isHighSurrogate u then
      match rest with
      | v :: rest => if isLowSurrogate v then decodeAfter (pair u v :: done) rest else none
      | [] => none
    else if isLowSurrogate u then
      none
    else
      decodeAfter (Char.ofNat u.toNat :: done) rest

/-- The text that `units` encode; nothing when a surrogate stands alone. -/
def decode? (units : List UInt16) : Option (List Char) :=
  decodeAfter [] units

end ApiSurface.Utf16
