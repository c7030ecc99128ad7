import ApiSurface.Decl.Basic

/-!
Declarations in source form: the text that a reader of the source language would write for them.

A class is named as in its header, with `$` before a nested class, so a type reads the same wherever
it is mentioned. Bodies, parameter names and annotations have no place here.

| here | there |
|---|---|
| `JavaType.source` | `render_java_type` |
| `sourceOfTypeParams` | `render_type_params` |
| `TypeDecl.header` | `render_type_header` |
| `MethodDecl.modifiers` | `method_modifiers` |
| `MethodDecl.source` | `render_method` |
| `FieldDecl.source` | `render_field` |
| `commaSeparated` | `write_list` |
-/

namespace ApiSurface

/-- Texts with `, ` between them. -/
def commaSeparated (texts : List String) : String :=
  ", ".intercalate texts

/-! ## Types -/

mutual

/-- A type in source form. -/
def JavaType.source : JavaType → String
  | .primitive type => type.keyword
  | .variable name => name
  | .array element => element.source ++ "[]"
  | .object outermost inner => outermost.source ++ sourceOfInner inner

/-- A class of a nest with its type arguments. -/
def Segment.source : Segment → String
  | .mk name [] => name
  | .mk name (arg :: args) => name ++ "<" ++ arg.source ++ sourceOfMoreArgs args ++ ">"

/-- A type argument, where `?` stands for the types it leaves open. -/
def TypeArg.source : TypeArg → String
  | .any => "?"
  | .upper bound => "? extends " ++ bound.source
  | .lower bound => "? super " ++ bound.source
  | .exactly type => type.source

/-- The nested classes behind the outermost one. -/
def sourceOfInner : List Segment → String
  | [] => ""
  | s :: rest => "$" ++ s.source ++ sourceOfInner rest

/-- The arguments behind the first one. -/
def sourceOfMoreArgs : List TypeArg → String
  | [] => ""
  | a :: rest => ", " ++ a.source ++ sourceOfMoreArgs rest

end

def ReturnType.source : ReturnType → String
  | .void => "void"
  | .value type => type.source

/-- The bounds that say something; a class bound by the root of the hierarchy does not. -/
def TypeParam.bounds (p : TypeParam) : List JavaType :=
  (p.classBound.filter (!·.isRoot)).toList ++ p.interfaceBounds

def TypeParam.source (p : TypeParam) : String :=
  match p.bounds with
  | [] => p.name
  | bounds => p.name ++ " extends " ++ " & ".intercalate (bounds.map JavaType.source)

/-- A list of type parameters in its brackets. -/
def sourceOfTypeParams (params : List TypeParam) : String :=
  "<" ++ commaSeparated (params.map TypeParam.source) ++ ">"

/-! ## Headers -/

def ClassModifier.keywords : ClassModifier → String
  | .abstract => "abstract class"
  | .final => "final class"
  | .plain => "class"

/-- The header of a type: its kind, its name and what it extends. The root of the hierarchy is not
mentioned, nor are the interfaces of a class. -/
def TypeDecl.header (t : TypeDecl) : String :=
  match t.kind with
  | .annotationType => "@interface " ++ t.name
  | .interfaceType =>
    if t.interfaces.isEmpty then
      "interface " ++ t.name
    else
      "interface " ++ t.name ++ " extends " ++ commaSeparated t.interfaces
  | .classType =>
    match t.superclass.filter (· ≠ "java.lang.Object") with
    | some superclass => t.modifier.keywords ++ " " ++ t.name ++ " extends " ++ superclass
    | none => t.modifier.keywords ++ " " ++ t.name

/-! ## Methods -/

/-- The keywords whose bits are set, in the order of the table. -/
def keywordsOf (table : List (UInt16 × String)) (flags : AccessFlags) : List String :=
  (table.filter fun (mask, _) => flags.has mask).map (·.2)

namespace MethodDecl

/-- The one keyword for the visibility, if it has one. -/
def visibilityKeyword (m : MethodDecl) : List String :=
  match m.visibility with
  | .inPackage => []
  | v => [v.name]

/-- A method of an interface that has a body and belongs to the instances. -/
def isDefault (owner : TypeKind) (m : MethodDecl) : Bool :=
  owner ≠ .classType
    && m.access.has AccessFlags.publicBit
    && !m.access.has AccessFlags.abstractBit
    && !m.access.has AccessFlags.staticBit
    && !m.isConstructor

/-- The modifiers in source order. -/
def modifiers (owner : TypeKind) (m : MethodDecl) : List String :=
  m.visibilityKeyword
    ++ keywordsOf [(AccessFlags.abstractBit, "abstract")] m.access
    ++ (if m.isDefault owner then ["default"] else [])
    ++ keywordsOf [
      (AccessFlags.staticBit, "static"),
      (AccessFlags.finalBit, "final"),
      (AccessFlags.synchronizedBit, "synchronized"),
      (AccessFlags.nativeBit, "native"),
      (AccessFlags.strictBit, "strictfp")] m.access

/-- The last parameter of a method that takes any number of arguments. -/
def sourceOfVarargs : JavaType → String
  | .array element => element.source ++ "..."
  | type => type.source

/-- The parameters, each by its type. -/
def paramSources (varargs : Bool) : List JavaType → List String
  | [] => []
  | [last] => [if varargs then sourceOfVarargs last else last.source]
  | param :: rest => param.source :: paramSources varargs rest

/-- The result and the name; a constructor has only the name of its class. -/
def subject (m : MethodDecl) : String :=
  if m.isConstructor then m.declaringType else m.result.source ++ " " ++ m.name

/-- The method in source form, as a member of a type of the kind `owner`. -/
def source (owner : TypeKind) (m : MethodDecl) : String :=
  let params := paramSources (m.access.has AccessFlags.varargsBit) m.params
  String.join ((m.modifiers owner).map (· ++ " "))
    ++ (if m.typeParams.isEmpty then "" else sourceOfTypeParams m.typeParams ++ " ")
    ++ m.subject
    ++ "(" ++ commaSeparated params ++ ")"
    ++ (if m.throws.isEmpty then "" else
      " throws " ++ commaSeparated (m.throws.map JavaType.source))

end MethodDecl

/-! ## Fields -/

namespace FieldDecl

/-- The modifiers in source order; every visibility bit that is set shows. -/
def modifiers (f : FieldDecl) : List String :=
  keywordsOf [
    (AccessFlags.publicBit, "public"),
    (AccessFlags.protectedBit, "protected"),
    (AccessFlags.privateBit, "private"),
    (AccessFlags.staticBit, "static"),
    (AccessFlags.finalBit, "final"),
    (AccessFlags.transientBit, "transient"),
    (AccessFlags.volatileBit, "volatile")] f.access

/-- The field in source form. -/
def source (f : FieldDecl) : String :=
  String.join (f.modifiers.map (· ++ " ")) ++ f.type.source ++ " " ++ f.name

end FieldDecl

end ApiSurface
