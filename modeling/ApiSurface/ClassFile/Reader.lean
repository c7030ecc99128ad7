import ApiSurface.Bytes
import ApiSurface.ClassFile.Basic

/-!
Reading a class file from its front.

A reader takes the bytes not yet read and gives a value and the bytes after it. Bytes that end too
early are the only way in which the readers of this module fail.

| here | there |
|---|---|
| `Reader.bytes` | `ClassReader.read_slice` |
| `Reader.byte` | `ClassReader.read_u1` |
| `Reader.word` | `ClassReader.read_u2` |
| `Reader.long` | `ClassReader.read_u4` |
-/

namespace ApiSurface.ClassFile

/-- What can be read from the front of a byte sequence. -/
abbrev Reader := StateT Bytes (Except Error)

namespace Reader

/-- The next `n` bytes. -/
def bytes (n : Nat) : Reader Bytes := fun input =>
  let (front, rest) := input.splitAt n
  if front.length = n then .ok (front, rest) else .error .endOfInput

/-- One byte. -/
def byte : Reader UInt8
  | b :: rest => .ok (b, rest)
  | [] => .error .endOfInput

/-- A number of two bytes. -/
def word : Reader UInt16
  | a :: b :: rest => .ok (UInt16.ofNat (a.toNat * 256 + b.toNat), rest)
  | _ => .error .endOfInput

/-- A number of four bytes. -/
def long : Reader Nat := do
  return (← bytes 4).bigEndian

/-- Reads `n` values behind the values `done`, which are kept last first. -/
def timesAfter (item : Reader α) : List α → Nat → Reader (List α)
  | done, 0 => fun input => .ok (done.reverse, input)
  | done, n + 1 => fun input =>
    match item input with
    | .ok (a, rest) => timesAfter item (a :: done) n rest
    | .error e => .error e

/-- `n` values, one after the other. -/
def times (n : Nat) (item : Reader α) : Reader (List α) :=
  timesAfter item [] n

/-- A count of two bytes and as many values. -/
def counted (item : Reader α) : Reader (List α) := do
  let n ← word
  times n.toNat item

/-- What stands at the front of `body`; the bytes after it are ignored. -/
def front (item : Reader α) (body : Bytes) : Except Error α :=
  (item body).map (·.1)

end Reader

end ApiSurface.ClassFile
