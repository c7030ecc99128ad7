import ApiSurface.ClassFile.Decoder
import Mathlib.Data.List.Forall2

/-!
How a class is laid out in a class file.

The relation says nothing about reading. A class has many layouts: its constants may stand in any
order, more than once and among constants that nothing refers to, and attributes that say nothing
about the surface may stand between those that do.
-/

namespace ApiSurface.ClassFile

/-- A number of two bytes. -/
def word (n : Nat) : Bytes :=
  Bytes.ofNatBigEndian 2 n

/-- A number of four bytes. -/
def long (n : Nat) : Bytes :=
  Bytes.ofNatBigEndian 4 n

/-! ## The constant pool -/

/-- A constant as it is written. -/
inductive PoolEntry
  | text (value : String)
  | classRef (nameIndex : UInt16)
  /-- A number of eight bytes. -/
  | wide (tag : UInt8) (body : Bytes)
  /-- A constant of any other kind. -/
  | plain (tag : UInt8) (body : Bytes)

namespace PoolEntry

def written : PoolEntry → Bytes
  | .text value =>
    1 :: (word (ModifiedUtf8.encode value).length ++ ModifiedUtf8.encode value)
  | .classRef nameIndex => 7 :: word nameIndex.toNat
  | .wide tag body => tag :: body
  | .plain tag body => tag :: body

/-- The tags of the other constants and the lengths of their bodies. -/
def plainKinds : List (UInt8 × Nat) :=
  [(3, 4), (4, 4), (8, 2), (9, 4), (10, 4), (11, 4), (12, 4), (15, 3), (16, 2), (17, 4), (18, 4),
    (19, 2), (20, 2)]

/-- The constant is one that the format knows, and it has the length that it says. -/
def Valid : PoolEntry → Prop
  | .text value => (ModifiedUtf8.encode value).length < UInt16.size
  | .classRef _ => True
  | .wide tag body => (tag = 5 ∨ tag = 6) ∧ body.length = 8
  | .plain tag body => (tag, body.length) ∈ plainKinds

/-- The indices that a constant takes. -/
def slotCount : PoolEntry → Nat
  | .wide .. => 2
  | _ => 1

end PoolEntry

/-- Constants in the order in which they are written. -/
abbrev Pool := List PoolEntry

namespace Pool

def written (pool : Pool) : Bytes :=
  pool.flatMap PoolEntry.written

/-- The indices that the constants take together. -/
def slotCount : Pool → Nat
  | [] => 0
  | e :: rest => e.slotCount + slotCount rest

/-- The constants are known, and their indices are numbers of two bytes; the first of them is 1. -/
structure Valid (pool : Pool) : Prop where
  entries : ∀ e ∈ pool, e.Valid
  slots : pool.slotCount + 1 < UInt16.size

/-- The constant `e` has the index `i`. -/
def HasAt (pool : Pool) (i : UInt16) (e : PoolEntry) : Prop :=
  ∃ front back : Pool, pool = front ++ e :: back ∧ i.toNat = front.slotCount + 1

/-- The text `s`, by the index of one of its constants. -/
inductive TextRef (pool : Pool) (s : String) : Bytes → Prop
  | intro {i : UInt16} : pool.HasAt i (.text s) → TextRef pool s (word i.toNat)

/-- The class called `name`, by the index of one of its constants. -/
inductive ClassRef (pool : Pool) (name : String) : Bytes → Prop
  | intro {i nameIndex : UInt16} : pool.HasAt i (.classRef nameIndex) →
      pool.HasAt nameIndex (.text name) → ClassRef pool name (word i.toNat)

end Pool

/-! ## Lists -/

/-- The values one after the other, behind their number. -/
inductive Counted {α : Type} (item : α → Bytes → Prop) (values : List α) : Bytes → Prop
  | intro {parts : List Bytes} : values.length < UInt16.size → List.Forall₂ item values parts →
      Counted item values (word values.length ++ parts.flatten)

/-! ## Attributes -/

namespace Attribute

/-- An attribute in the file. One that says nothing about the surface has any other name and any
body. -/
inductive LaidOut (pool : Pool) : Attribute → Bytes → Prop
  | signature {text : String} {name body : Bytes} : pool.TextRef "Signature" name →
      pool.TextRef text body → LaidOut pool (.signature text) (name ++ long 2 ++ body)
  | exceptions {classes : List String} {name body : Bytes} : pool.TextRef "Exceptions" name →
      Counted pool.ClassRef classes body →
      LaidOut pool (.exceptions classes) (name ++ long body.length ++ body)
  | other {text : String} {name body : Bytes} : pool.TextRef text name →
      text ≠ "Signature" → text ≠ "Exceptions" → body.length < UInt32.size →
      LaidOut pool .other (name ++ long body.length ++ body)

def signatureText? : Attribute → Option String
  | .signature text => some text
  | _ => none

def exceptionList? : Attribute → Option (List String)
  | .exceptions classes => some classes
  | _ => none

end Attribute

/-! ## Members and classes -/

/-- A member in the file. At most one attribute gives the signature; the exceptions may be spread over
several attributes. -/
inductive LaidOutMember (pool : Pool) (m : Member) : Bytes → Prop
  | intro {name descriptor attributes : Bytes} {meanings : List Attribute} :
      pool.TextRef m.name name → pool.TextRef m.descriptor descriptor →
      Counted (Attribute.LaidOut pool) meanings attributes →
      meanings.filterMap Attribute.signatureText? = m.signature.toList →
      (meanings.filterMap Attribute.exceptionList?).flatten = m.exceptions →
      LaidOutMember pool m (word m.access.bits.toNat ++ name ++ descriptor ++ attributes)

/-- The superclass by its index; zero says that there is none. -/
inductive LaidOutSuperclass (pool : Pool) : Option String → Bytes → Prop
  | none : LaidOutSuperclass pool none (word 0)
  | some {name : String} {bytes : Bytes} : pool.ClassRef name bytes →
      LaidOutSuperclass pool (some name) bytes

/-- The bytes `0xCAFEBABE`. -/
def magicBytes : Bytes := [0xCA, 0xFE, 0xBA, 0xBE]

/-- `bytes` are a class file that says `c`. -/
inductive LaidOut (c : ClassFile) : Bytes → Prop
  | intro {pool : Pool} {name superclass interfaces fields methods attributes : Bytes}
      {meanings : List Attribute} :
      pool.Valid → pool.ClassRef c.name name → LaidOutSuperclass pool c.superclass superclass →
      Counted pool.ClassRef c.interfaces interfaces →
      Counted (LaidOutMember pool) c.fields fields →
      Counted (LaidOutMember pool) c.methods methods →
      Counted (Attribute.LaidOut pool) meanings attributes →
      meanings.filterMap Attribute.signatureText? = c.signature.toList →
      meanings.filterMap Attribute.exceptionList? = [] →
      LaidOut c (magicBytes ++ word c.minorVersion.toNat ++ word c.majorVersion.toNat
        ++ word (pool.slotCount + 1) ++ pool.written ++ word c.access.bits.toNat ++ name
        ++ superclass ++ interfaces ++ fields ++ methods ++ attributes)

end ApiSurface.ClassFile
