import ApiSurface.ClassFile.ConstantPool

/-!
Decoding a class file.

The parts are read in the order of the format: magic, version, constant pool, flags, names, fields,
methods, attributes. What follows the last attribute is ignored. An attribute is looked into as soon
as its body has been read, so the first fault in the file is the one that is reported.

| here | there |
|---|---|
| `decode` | `parse_class` |
| `readMember` | `read_members` |
| `readMagic` | `ClassReader.expect_magic` |
| `Attribute.signature?` | `read_signature_attribute` |
-/

namespace ApiSurface.ClassFile

/-- A named piece of data about a class or a member. -/
structure RawAttribute where
  name : String
  body : Bytes
  deriving DecidableEq, Repr

/-- An attribute: its name, the length of its body and the body. -/
def RawAttribute.read (pool : ConstantPool) : Reader RawAttribute := do
  let name ← pool.readTextRef
  let length ← Reader.long
  return { name, body := ← Reader.bytes length }

/-- What an attribute says about the surface. -/
inductive Attribute
  | signature (text : String)
  | exceptions (classes : List String)
  | other
  deriving DecidableEq, Repr

namespace Attribute

/-- The meaning of an attribute of a field or a method. -/
def ofMember (pool : ConstantPool) (raw : RawAttribute) : Except Error Attribute :=
  if raw.name = "Signature" then
    (Reader.front pool.readTextRef raw.body).map .signature
  else if raw.name = "Exceptions" then
    (Reader.front (Reader.counted pool.readClassRef) raw.body).map .exceptions
  else
    .ok .other

/-- The meaning of an attribute of a class, where `Exceptions` has none. -/
def ofClass (pool : ConstantPool) (raw : RawAttribute) : Except Error Attribute :=
  if raw.name = "Signature" then
    (Reader.front pool.readTextRef raw.body).map .signature
  else
    .ok .other

/-- Reads attributes, each with `meaning` taken as soon as its body is there. -/
def readAll (pool : ConstantPool) (meaning : RawAttribute → Except Error Attribute) :
    Reader (List Attribute) :=
  Reader.counted do
    meaning (← RawAttribute.read pool)

/-- The signature that counts is the last one. -/
def signature? (attributes : List Attribute) : Option String :=
  attributes.foldl (fun found a => match a with | .signature text => some text | _ => found) none

/-- The classes of every `Exceptions` attribute, in order. -/
def exceptionClasses (attributes : List Attribute) : List String :=
  attributes.flatMap fun a => match a with | .exceptions classes => classes | _ => []

end Attribute

/-- A field or a method. -/
def readMember (pool : ConstantPool) : Reader Member := do
  let access ← Reader.word
  let name ← pool.readTextRef
  let descriptor ← pool.readTextRef
  let attributes ← Attribute.readAll pool (Attribute.ofMember pool)
  return {
    access := ⟨access⟩
    name
    descriptor
    signature := Attribute.signature? attributes
    exceptions := Attribute.exceptionClasses attributes }

/-- The name of the superclass; index zero says that there is none. -/
def readSuperclass (pool : ConstantPool) : Reader (Option String) := do
  let index ← Reader.word
  if index = 0 then
    return none
  else
    return some (← pool.className index)

/-- The first four bytes of every class file. -/
def magic : Nat := 0xCAFEBABE

def readMagic : Reader Unit := do
  if (← Reader.long) ≠ magic then
    throw .badMagic

/-- A class file, up to its last attribute. -/
def read : Reader ClassFile := do
  readMagic
  let minorVersion ← Reader.word
  let majorVersion ← Reader.word
  let pool ← ConstantPool.read
  let access ← Reader.word
  let name ← pool.readClassRef
  let superclass ← readSuperclass pool
  let interfaces ← Reader.counted pool.readClassRef
  let fields ← Reader.counted (readMember pool)
  let methods ← Reader.counted (readMember pool)
  let attributes ← Attribute.readAll pool (Attribute.ofClass pool)
  return {
    minorVersion
    majorVersion
    access := ⟨access⟩
    name
    superclass
    interfaces
    signature := Attribute.signature? attributes
    fields
    methods }

/-- Decodes a class file; bytes after its end are ignored. -/
def decode (bytes : Bytes) : Except Error ClassFile :=
  (read bytes).map (·.1)

end ApiSurface.ClassFile
