/-!
Types as descriptors and generic signatures write them.

A descriptor is the type of a member with all type arguments erased; a signature keeps them. Both
denote the values of this module. A method may return nothing, and nothing else can be void, so
that case belongs to the return type and not to the types.

| here | there |
|---|---|
| `Primitive` | `BaseType` |
| `Primitive.ofTag?` | `BaseType.from_tag` |
| `JavaType` | `JavaType` |
| `Segment` | `ClassSegment` |
| `MethodType` | `MethodSignature` |
| `ClassType` | `ClassSignature` |
| `binaryName` | `internal_to_binary` |
| `JavaType.ofName` | `JavaType.class` |
| `JavaType.ofInternalName` | `JavaType.from_internal_name` |
| `JavaType.erasedName?` | `JavaType.erased_class_name` |
| `JavaType.isRoot` | `JavaType.is_object` |
-/

namespace ApiSurface

/-- The types that are not references. -/
inductive Primitive
  | byte
  | char
  | double
  | float
  | int
  | long
  | short
  | boolean
  deriving DecidableEq, Repr

namespace Primitive

/-- The keyword of the source language. -/
def keyword : Primitive → String
  | .byte => "byte"
  | .char => "char"
  | .double => "double"
  | .float => "float"
  | .int => "int"
  | .long => "long"
  | .short => "short"
  | .boolean => "boolean"

/-- The letter that stands for the type in a descriptor. -/
def tag : Primitive → Char
  | .byte => 'B'
  | .char => 'C'
  | .double => 'D'
  | .float => 'F'
  | .int => 'I'
  | .long => 'J'
  | .short => 'S'
  | .boolean => 'Z'

def ofTag? : Char → Option Primitive
  | 'B' => some .byte
  | 'C' => some .char
  | 'D' => some .double
  | 'F' => some .float
  | 'I' => some .int
  | 'J' => some .long
  | 'S' => some .short
  | 'Z' => some .boolean
  | _ => none

@[simp] theorem ofTag?_tag (p : Primitive) : ofTag? p.tag = some p := by
  cases p <;> rfl

theorem tag_of_ofTag? {c : Char} {p : Primitive} (h : ofTag? c = some p) : p.tag = c := by
  unfold ofTag? at h
  split at h <;> first | contradiction | (cases h; rfl)

end Primitive

mutual

/-- A type of a value. -/
inductive JavaType
  | primitive (type : Primitive)
  /-- A class, with the classes that it is nested in when their type arguments are known. -/
  | object (outermost : Segment) (inner : List Segment)
  | variable (name : String)
  | array (element : JavaType)

/-- One class of a nest with its type arguments. The outermost one has its package in its name. -/
inductive Segment
  | mk (name : String) (args : List TypeArg)

/-- What stands in one place of a list of type arguments. -/
inductive TypeArg
  /-- Any type at all. -/
  | any
  /-- Any type that has `bound` as a supertype. -/
  | upper (bound : JavaType)
  /-- Any type that has `bound` as a subtype. -/
  | lower (bound : JavaType)
  | exactly (type : JavaType)

end

def Segment.name : Segment → String
  | .mk name _ => name

def Segment.args : Segment → List TypeArg
  | .mk _ args => args

/-- What a method returns. -/
inductive ReturnType
  | void
  | value (type : JavaType)

/-- The declaration of a type variable. -/
structure TypeParam where
  name : String
  /-- Absent when only interfaces bound the variable. -/
  classBound : Option JavaType
  interfaceBounds : List JavaType

/-- The type of a method. -/
structure MethodType where
  typeParams : List TypeParam
  params : List JavaType
  result : ReturnType
  throws : List JavaType

/-- The type parameters and supertypes of a class. -/
structure ClassType where
  typeParams : List TypeParam
  superclass : JavaType
  interfaces : List JavaType

/-! ## Names -/

/-- A name of a class file with the packages separated by `.` and not by `/`. -/
def binaryName (internal : String) : String :=
  internal.map fun c => if c = '/' then '.' else c

namespace JavaType

/-- The class of the given name, without type arguments. -/
def ofName (name : String) : JavaType :=
  .object (.mk name []) []

/-- The class that a class file calls `internal`. -/
def ofInternalName (internal : String) : JavaType :=
  ofName (binaryName internal)

/-- The name of the class without its type arguments: the nested names joined by `$`. -/
def erasedName? : JavaType → Option String
  | .object outermost inner => some ("$".intercalate ((outermost :: inner).map Segment.name))
  | _ => none

/-- The root of the class hierarchy. -/
def isRoot : JavaType → Bool
  | .object (.mk name _) [] => name = "java.lang.Object"
  | _ => false

end JavaType

end ApiSurface
