import ApiSurface.ClassFile.Reader
import ApiSurface.Text.ModifiedUtf8

/-!
The constant pool: the table through which a class file names texts and classes.

Entries are numbered from one. A constant of eight bytes takes two numbers, of which the second names
nothing. Only texts and class references matter here; the other kinds are skipped by their length.

| here | there |
|---|---|
| `ConstantPool.read` | `ConstantPool.parse` |
| `ConstantPool.text` | `ConstantPool.utf8` |
| `ConstantPool.className` | `ConstantPool.class_name` |
-/

namespace ApiSurface.ClassFile

/-- What stands at one index of the pool. -/
inductive Constant
  | text (value : String)
  /-- A class, named by the text at `nameIndex`. -/
  | classRef (nameIndex : UInt16)
  /-- A constant of eight bytes, which takes the next index too. -/
  | wide
  /-- A constant of any other kind. -/
  | other
  /-- Index zero, or the index after a constant of eight bytes. -/
  | unusable
  deriving DecidableEq, Repr

namespace Constant

/-- The entries that a constant fills, itself first. -/
def slots : Constant → List Constant
  | .wide => [.wide, .unusable]
  | c => [c]

theorem slots_length_pos (c : Constant) : 0 < c.slots.length := by
  cases c <;> simp [slots]

/-- The number of bytes after the tag, for the kinds that are skipped and take one index. -/
def skippedLength? (tag : UInt8) : Option Nat :=
  if tag = 15 then some 3
  else if tag ∈ [8, 16, 19, 20] then some 2
  else if tag ∈ [3, 4, 9, 10, 11, 12, 17, 18] then some 4
  else none

/-- A text, without its tag. -/
def readText : Reader Constant := do
  let length ← Reader.word
  match ModifiedUtf8.decode? (← Reader.bytes length.toNat) with
  | some value => return .text value
  | none => throw .badText

/-- One constant with its tag. -/
def read : Reader Constant := do
  let tag ← Reader.byte
  if tag = 1 then
    readText
  else if tag = 7 then
    return .classRef (← Reader.word)
  else if tag = 5 ∨ tag = 6 then
    let _ ← Reader.bytes 8
    return .wide
  else
    match skippedLength? tag with
    | some n =>
      let _ ← Reader.bytes n
      return .other
    | none => throw (.unsupportedConstant tag)

end Constant

/-- The entries of a class file by index. -/
structure ConstantPool where
  entries : Array Constant
  deriving DecidableEq, Repr

namespace ConstantPool

/-- Reads constants behind `entries` until `n` more indices are filled. A wide constant in the last
place fills one index more. -/
def readAfter (entries : Array Constant) (n : Nat) : Reader ConstantPool := fun input =>
  if n = 0 then
    .ok (⟨entries⟩, input)
  else
    match Constant.read input with
    | .ok (c, rest) => readAfter (entries.appendList c.slots) (n - c.slots.length) rest
    | .error e => .error e
termination_by n
decreasing_by
  have := c.slots_length_pos
  omega

/-- The pool, which starts with one more than the number of its usable indices. -/
def read : Reader ConstantPool := do
  let count ← Reader.word
  readAfter #[.unusable] (count.toNat - 1)

/-- The text at `index`. -/
def text (pool : ConstantPool) (index : UInt16) : Except Error String :=
  match pool.entries[index.toNat]? with
  | some (.text value) => .ok value
  | _ => .error (.badConstantIndex index)

/-- The name of the class at `index`. -/
def className (pool : ConstantPool) (index : UInt16) : Except Error String :=
  match pool.entries[index.toNat]? with
  | some (.classRef nameIndex) => pool.text nameIndex
  | _ => .error (.badConstantIndex index)

/-- Reads an index and gives the text there. -/
def readTextRef (pool : ConstantPool) : Reader String := do
  pool.text (← Reader.word)

/-- Reads an index and gives the name of the class there. -/
def readClassRef (pool : ConstantPool) : Reader String := do
  pool.className (← Reader.word)

end ConstantPool

end ApiSurface.ClassFile
