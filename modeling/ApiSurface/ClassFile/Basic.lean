import ApiSurface.ClassFile.Access

/-!
What a class file says about the surface of a class.

Code, line tables and every attribute other than `Signature` and `Exceptions` are left out. Names are
kept in the form they have in the file, with `/` between the packages.

| here | there |
|---|---|
| `Member` | `MemberInfo` |
| `ClassFile` | `ClassFile` |
| `ClassFile.Error` | `ClassParseError` |
-/

namespace ApiSurface

/-- A field or a method as the class file declares it. -/
structure Member where
  access : AccessFlags
  name : String
  /-- The type with its arguments erased, in written form. -/
  descriptor : String
  /-- The generic type in written form, if the file has one. -/
  signature : Option String
  /-- The declared exceptions of a method. -/
  exceptions : List String
  deriving DecidableEq, Repr

/-- A decoded class file. -/
structure ClassFile where
  minorVersion : UInt16
  majorVersion : UInt16
  access : AccessFlags
  name : String
  /-- Absent from the root of the class hierarchy and from module descriptions. -/
  superclass : Option String
  interfaces : List String
  /-- The generic form of the supertypes and the type parameters, if the file has one. -/
  signature : Option String
  fields : List Member
  methods : List Member
  deriving DecidableEq, Repr

namespace ClassFile

/-- Why bytes are not a class file. -/
inductive Error
  /-- The bytes end where something was due. -/
  | endOfInput
  /-- The first four bytes are not those of a class file. -/
  | badMagic
  /-- A constant of a kind that does not exist. -/
  | unsupportedConstant (tag : UInt8)
  /-- A reference to no constant, or to one of another kind. -/
  | badConstantIndex (index : UInt16)
  /-- A text constant that is not modified UTF-8. -/
  | badText
  deriving DecidableEq, Repr

def Error.message : Error → String
  | .endOfInput => "unexpected end of class file"
  | .badMagic => "invalid class file magic header"
  | .unsupportedConstant tag => s!"unsupported constant pool tag {tag}"
  | .badConstantIndex index => s!"invalid constant pool index {index}"
  | .badText => "invalid modified UTF-8 in constant pool"

end ClassFile

end ApiSurface
