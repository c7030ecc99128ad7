import ApiSurface.ClassFile.Decoder
import ApiSurface.Signature.Parser

/-!
Declarations: the classes, methods and fields of a class file with their types read.

The descriptor of a member has to be readable, or the whole class is refused. A generic signature is
an addition: one that cannot be read, or that disagrees with the descriptor about the number of
parameters, is passed over and the descriptor stands.

| here | there |
|---|---|
| `MethodDecl.ofMember` | `MethodDescriptor.from_member` |
| `FieldDecl.ofMember` | `FieldDescriptor.from_member` |
| `TypeDecl.ofClassFile` | `TypeDescriptor.from_class_file` |
| `TypeDecl.package` | `TypeDescriptor.package` |
| `TypeDecl.supertypes` | `TypeDescriptor.supertypes` |
| `isPlatformName` | `is_platform_type` |
| `isInternalPackage` | `is_internal_package` |
| `TypeDecl.isInternal` | `ArtifactWalker.is_internal` |
-/

namespace ApiSurface

/-- Why bytes give no declaration. -/
inductive DeclError
  | classFile (e : ClassFile.Error)
  | signature (e : Signature.Error)
  deriving DecidableEq, Repr

def DeclError.message : DeclError → String
  | .classFile e => e.message
  | .signature e => e.message

/-! ## Methods -/

/-- A method of a class. -/
structure MethodDecl where
  declaringType : String
  access : AccessFlags
  name : String
  descriptor : String
  typeParams : List TypeParam
  params : List JavaType
  result : ReturnType
  throws : List JavaType

namespace MethodDecl

/-- The generic type, if there is a signature that can be read and has `arity` parameters. A compiler
may leave parameters that it adds out of the signature. -/
def genericType? (arity : Nat) (signature : Option String) : Option MethodType :=
  match signature.map (Signature.parseMethodType .generic) with
  | some (.ok type) => if type.params.length = arity then some type else none
  | _ => none

/-- The declaration in `declaringType` that `m` gives. Exceptions that the signature names win over
those of the attribute. -/
def ofMember (declaringType : String) (m : Member) : Except Signature.Error MethodDecl := do
  let erased ← Signature.parseMethodType .descriptor m.descriptor
  let type := (genericType? erased.params.length m.signature).getD erased
  return {
    declaringType
    access := m.access
    name := m.name
    descriptor := m.descriptor
    typeParams := type.typeParams
    params := type.params
    result := type.result
    throws :=
      if type.throws.isEmpty then m.exceptions.map JavaType.ofInternalName else type.throws }

def visibility (m : MethodDecl) : Visibility :=
  .ofFlags m.access

/-- Constructors go by the name `<init>`. -/
def isConstructor (m : MethodDecl) : Bool :=
  m.name = "<init>"

/-- Made by a compiler; a bridge counts as such. -/
def isSynthetic (m : MethodDecl) : Bool :=
  m.access.has AccessFlags.syntheticBit || m.access.has AccessFlags.bridgeBit

end MethodDecl

/-! ## Fields -/

/-- A field of a class. -/
structure FieldDecl where
  declaringType : String
  access : AccessFlags
  name : String
  descriptor : String
  type : JavaType

namespace FieldDecl

/-- The generic type, if there is a signature that can be read. -/
def genericType? (signature : Option String) : Option JavaType :=
  match signature.map (Signature.parseFieldType .generic) with
  | some (.ok type) => some type
  | _ => none

/-- The declaration in `declaringType` that `m` gives. -/
def ofMember (declaringType : String) (m : Member) : Except Signature.Error FieldDecl := do
  let erased ← Signature.parseFieldType .descriptor m.descriptor
  return {
    declaringType
    access := m.access
    name := m.name
    descriptor := m.descriptor
    type := (genericType? m.signature).getD erased }

def visibility (f : FieldDecl) : Visibility :=
  .ofFlags f.access

/-- Made by a compiler. The bit of a bridge means `volatile` here. -/
def isSynthetic (f : FieldDecl) : Bool :=
  f.access.has AccessFlags.syntheticBit

end FieldDecl

/-! ## Types -/

inductive TypeKind
  | classType
  | interfaceType
  | annotationType
  deriving DecidableEq, Repr

def TypeKind.name : TypeKind → String
  | .classType => "class"
  | .interfaceType => "interface"
  | .annotationType => "annotation"

/-- Every annotation is an interface too. -/
def TypeKind.ofFlags (flags : AccessFlags) : TypeKind :=
  if flags.has AccessFlags.annotationBit then .annotationType
  else if flags.has AccessFlags.interfaceBit then .interfaceType
  else .classType

/-- Whether a class can be instantiated or extended. -/
inductive ClassModifier
  | abstract
  | final
  | plain
  deriving DecidableEq, Repr

def ClassModifier.name : ClassModifier → String
  | .abstract => "abstract"
  | .final => "final"
  | .plain => "none"

/-- Only classes have a modifier. -/
def ClassModifier.ofFlags (flags : AccessFlags) : ClassModifier :=
  if TypeKind.ofFlags flags ≠ .classType then .plain
  else if flags.has AccessFlags.abstractBit then .abstract
  else if flags.has AccessFlags.finalBit then .final
  else .plain

/-- A class, an interface or an annotation type. -/
structure TypeDecl where
  /-- With `.` between the packages and `$` before a nested class. -/
  name : String
  kind : TypeKind
  modifier : ClassModifier
  access : AccessFlags
  typeParams : List TypeParam
  /-- Classes only. -/
  superclass : Option String
  interfaces : List String
  methods : List MethodDecl
  fields : List FieldDecl

namespace TypeDecl

/-- The type parameters, if there is a signature that can be read. -/
def typeParamsOf (signature : Option String) : List TypeParam :=
  match signature.map Signature.parseClassType with
  | some (.ok type) => type.typeParams
  | _ => []

/-- The declaration that a class file gives. Methods are read before fields. -/
def ofClassFile (c : ClassFile) : Except Signature.Error TypeDecl := do
  let name := binaryName c.name
  let methods ← c.methods.mapM (MethodDecl.ofMember name)
  let fields ← c.fields.mapM (FieldDecl.ofMember name)
  return {
    name
    kind := .ofFlags c.access
    modifier := .ofFlags c.access
    access := c.access
    typeParams := typeParamsOf c.signature
    superclass :=
      if TypeKind.ofFlags c.access = .classType then c.superclass.map binaryName else none
    interfaces := c.interfaces.map binaryName
    methods
    fields }

/-- The declaration in the bytes of a class file. -/
def ofBytes (bytes : Bytes) : Except DeclError TypeDecl := do
  let c ← (ClassFile.decode bytes).mapError .classFile
  (ofClassFile c).mapError .signature

/-- The part of a name in front of its last `.`. -/
def packageOf (name : String) : String :=
  String.ofList (name.toList.reverse.dropWhile (· ≠ '.')).tail.reverse

/-- The package, which is empty for a name without `.`. -/
def package (t : TypeDecl) : String :=
  packageOf t.name

/-- The direct supertypes, the superclass first. -/
def supertypes (t : TypeDecl) : List String :=
  t.superclass.toList ++ t.interfaces

end TypeDecl

/-! ## Packages

Those of the platform, whose classes are always there, and the internal ones of an artifact, whose
classes are no part of its surface. -/

/-- What the names of the classes of the platform start with. -/
def platformNamespaces : List String :=
  ["java.", "javax.", "jdk.", "sun."]

/-- A class of the platform, going by its name. -/
def isPlatformName (name : String) : Bool :=
  platformNamespaces.any fun start => start.toList.isPrefixOf name.toList

/-- One of the segments of the package is the marker. The package without a name has no segment. -/
def isInternalPackage (marker package : String) : Bool :=
  !package.isEmpty && (package.toList.splitOn '.').contains marker.toList

/-- The type is in an internal package. -/
def TypeDecl.isInternal (marker : String) (t : TypeDecl) : Bool :=
  isInternalPackage marker t.package

end ApiSurface
