import ApiSurface.Signature.Basic

/-!
Reading descriptors and generic signatures.

One grammar serves both forms; a descriptor has no type variables, type arguments, nested classes,
type parameters or exceptions. A parser takes the characters not yet read. When it fails it keeps the
characters it stopped at, which is what the offset in the message is computed from.

Two limits hold on every path from the whole type to one of its parts: at most 255 array dimensions
in all, and at most 64 type argument lists inside each other. Hence the calls of the four recursive
parsers nest no deeper than a constant, `callBudget`, however long the text is.

| here | there |
|---|---|
| `parseFieldType` | `parse_field_descriptor`, `parse_field_signature` |
| `parseMethodType` | `parse_method_descriptor`, `parse_method_signature` |
| `parseClassType` | `parse_class_signature` |
| `methodType` | `Cursor.parse_method` |
| `typeParams` | `Cursor.parse_type_params` |
| `valueType` | `Cursor.parse_value_type` |
| `referenceType` | `Cursor.parse_reference_type` |
| `classType` | `Cursor.parse_class_type` |
| `typeArgs` | `Cursor.parse_type_args` |
| `typeArgList` | `Cursor.parse_type_arg_list` |
| `identifier` | `Cursor.identifier` |
| `Error.message` | `Cursor.error` |
-/

namespace ApiSurface.Signature

/-- The two written forms of a type. -/
inductive Form
  /-- With type arguments erased. -/
  | descriptor
  /-- With type arguments. -/
  | generic
  deriving DecidableEq, Repr

/-! ## Faults -/

/-- What is wrong at the place where reading stopped. -/
inductive Fault
  | expected (c : Char)
  | trailingCharacters
  | unterminatedParameters
  | throwsInDescriptor
  | typeParamsInDescriptor
  | noTypeParams
  | unexpectedEnd
  | tooManyDimensions
  | expectedReference
  | illegalInClassName
  | emptyClassName
  | packageInInnerName
  | typeArgsInDescriptor
  | unterminatedClass
  | nestingTooDeep
  | noTypeArgs
  | illegalInIdentifier
  | malformedIdentifier
  /-- The calls nest deeper than the budget; `callBudget` is never spent. -/
  | callBudgetSpent
  deriving DecidableEq, Repr

def Fault.text : Fault → String
  | .expected c => s!"expected '{c}'"
  | .trailingCharacters => "trailing characters"
  | .unterminatedParameters => "unterminated parameter list"
  | .throwsInDescriptor => "throws clause in descriptor"
  | .typeParamsInDescriptor => "type parameters in descriptor"
  | .noTypeParams => "empty type parameter list"
  | .unexpectedEnd => "unexpected end"
  | .tooManyDimensions => "too many array dimensions"
  | .expectedReference => "expected reference type"
  | .illegalInClassName => "illegal character in class name"
  | .emptyClassName => "empty class name"
  | .packageInInnerName => "package separator in inner class name"
  | .typeArgsInDescriptor => "type arguments in descriptor"
  | .unterminatedClass => "unterminated class type"
  | .nestingTooDeep => "nesting too deep"
  | .noTypeArgs => "empty type argument list"
  | .illegalInIdentifier => "illegal character in identifier"
  | .malformedIdentifier => "malformed identifier"
  | .callBudgetSpent => "call budget spent"

/-- A fault and the characters that were still to be read. -/
structure Failure where
  fault : Fault
  rest : List Char
  deriving DecidableEq, Repr

/-- What can be read from the front of a text. -/
abbrev Parser := StateT (List Char) (Except Failure)

namespace Parser

/-! ## Steps -/

def fail (fault : Fault) : Parser α := fun rest =>
  .error ⟨fault, rest⟩

/-- The next character, which stays. -/
def peek : Parser (Option Char) := fun rest =>
  .ok (rest.head?, rest)

/-- Drops one character. -/
def skip : Parser Unit := fun rest =>
  .ok ((), rest.tail)

/-- Drops the character `c`, which has to be next. -/
def expect (c : Char) : Parser Unit := fun rest =>
  if rest.head? = some c then .ok ((), rest.tail) else .error ⟨.expected c, rest⟩

/-- The longest run of characters that satisfy `p`. -/
def run (p : Char → Bool) : Parser (List Char) := fun rest =>
  .ok (rest.span p)

/-- Fails unless everything has been read. -/
def finish : Parser Unit := fun rest =>
  if rest.isEmpty then .ok ((), rest) else .error ⟨.trailingCharacters, rest⟩

/-! ## Repetition

Every item that is repeated takes at least one character. The loop therefore recurses on the text it
starts with, dropping one character of it for each item, and never finds it used up.
-/

/-- Items behind `done`, which is kept last first, as long as `more` holds of the rest. -/
def repeatAfter (more : List Char → Bool) (item : Parser α) :
    List Char → List α → Parser (List α)
  | clock, done => fun rest =>
    if more rest then
      match item rest with
      | .error failure => .error failure
      | .ok (a, rest) =>
        match clock with
        | [] => .error ⟨.unexpectedEnd, rest⟩
        | _ :: clock => repeatAfter more item clock (a :: done) rest
    else
      .ok (done.reverse, rest)

/-- Items as long as `more` holds of the rest. -/
def repeatWhile (more : List Char → Bool) (item : Parser α) : Parser (List α) := fun rest =>
  repeatAfter more item rest [] rest

/-- Items up to the character `close`, which is dropped. -/
def repeatUntil (close : Char) (item : Parser α) : Parser (List α) := do
  let items ← repeatWhile (·.head? ≠ some close) item
  expect close
  return items

/-- Items that each follow the character `mark`. -/
def repeatMarked (mark : Char) (item : Parser α) : Parser (List α) :=
  repeatWhile (·.head? = some mark) do
    skip
    item

/-! ## Names -/

/-- Ends or separates names and hence stands in no identifier. -/
def isReserved (c : Char) : Bool :=
  c ∈ ['.', ';', '[', '/', '<', '>', ':']

/-- An identifier, which ends before `stop`. -/
def identifier (stop : Char) : Parser String := do
  let name ← run fun c => c ≠ stop && !isReserved c
  match ← peek with
  | none => fail .malformedIdentifier
  | some c =>
    if c ≠ stop then
      fail .illegalInIdentifier
    else if name.isEmpty then
      fail .malformedIdentifier
    else
      return String.ofList name

/-- The name of a class of a nest, which ends before `;`, `<` or `.`. -/
def className : Parser (List Char) := do
  let name ← run fun c => c ∉ [';', '<', '.', '[', '>', ':']
  match ← peek with
  | some '[' | some '>' | some ':' => fail .illegalInClassName
  | _ =>
    if name.isEmpty then
      fail .emptyClassName
    else
      return name

/-! ## Types -/

/-- The most array dimensions on a path. -/
def maxDimensions : Nat := 255

/-- The most type argument lists on a path. -/
def maxNesting : Nat := 64

/-- What has been entered on the path to the place where a parser stands. -/
structure Path where
  dimensions : Nat
  nesting : Nat
  deriving DecidableEq, Repr

/-- The path to the whole type. -/
def Path.top : Path := ⟨0, 0⟩

/-- One class of a nest, given how type arguments are read. Only the outermost has a package. -/
def segment (form : Form) (isOutermost : Bool) (typeArgs : Parser (List TypeArg)) :
    Parser Segment := do
  let raw ← className
  if !isOutermost && raw.contains '/' then
    fail .packageInInnerName
  else
    let name := binaryName (String.ofList raw)
    if (← peek) = some '<' then
      match form with
      | .descriptor => fail .typeArgsInDescriptor
      | .generic => return .mk name (← typeArgs)
    else
      return .mk name []

/-- A class with the classes it is nested in, up to and with the `;`. -/
def objectType (form : Form) (typeArgs : Parser (List TypeArg)) : Parser JavaType := do
  expect 'L'
  let outermost ← segment form true typeArgs
  let inner ← repeatUntil ';' do
    if (← peek) = some '.' ∧ form = .generic then
      skip
      segment form false typeArgs
    else
      fail .unterminatedClass
  return .object outermost inner

/-- A list of type arguments in its brackets, given how the types in it are read. -/
def typeArgList (reference : Parser JavaType) : Parser (List TypeArg) := do
  expect '<'
  let args ← repeatUntil '>' do
    match ← peek with
    | some '*' =>
      skip
      return .any
    | some '+' =>
      skip
      return .upper (← reference)
    | some '-' =>
      skip
      return .lower (← reference)
    | _ => return .exactly (← reference)
  if args.isEmpty then
    fail .noTypeArgs
  else
    return args

/-- `type` as the element of an array of `n` dimensions. -/
def arrayOf : Nat → JavaType → JavaType
  | 0, type => type
  | n + 1, type => .array (arrayOf n type)

mutual

/-- A type of a value. -/
def valueType (form : Form) : Nat → Path → Parser JavaType
  | 0, _ => fail .callBudgetSpent
  | budget + 1, path => do
    match ← peek with
    | none => fail .unexpectedEnd
    | some c =>
      match Primitive.ofTag? c with
      | some type =>
        skip
        return .primitive type
      | none => referenceType form budget path

/-- A type of a value that is not primitive. -/
def referenceType (form : Form) : Nat → Path → Parser JavaType
  | 0, _ => fail .callBudgetSpent
  | budget + 1, path => do
    match ← peek with
    | some 'L' => classType form budget path
    | some '[' =>
      let dimensions := (← run (· = '[')).length
      if path.dimensions + dimensions > maxDimensions then
        fail .tooManyDimensions
      else
        let element ← valueType form budget
          { path with dimensions := path.dimensions + dimensions }
        return arrayOf dimensions element
    | some 'T' =>
      match form with
      | .descriptor => fail .expectedReference
      | .generic =>
        skip
        let name ← identifier ';'
        expect ';'
        return .variable name
    | _ => fail .expectedReference

/-- A class type. -/
def classType (form : Form) : Nat → Path → Parser JavaType
  | 0, _ => fail .callBudgetSpent
  | budget + 1, path =>
    objectType form (typeArgs form budget path)

/-- The type arguments of a class. -/
def typeArgs (form : Form) : Nat → Path → Parser (List TypeArg)
  | 0, _ => fail .callBudgetSpent
  | budget + 1, path =>
    if path.nesting ≥ maxNesting then
      fail .nestingTooDeep
    else
      typeArgList (referenceType form budget { path with nesting := path.nesting + 1 })

end

/-- A level of nesting takes at most five calls: the reference, the array's element, its reference,
the class and its arguments. -/
def callBudget : Nat := 5 * (maxNesting + 2)

/-! ## Parameters, methods and classes -/

/-- The declaration of a type variable. -/
def typeParam (form : Form) (budget : Nat) : Parser TypeParam := do
  let name ← identifier ':'
  expect ':'
  let classBound ←
    match ← peek with
    | some 'L' | some 'T' | some '[' => some <$> referenceType form budget .top
    | _ => pure none
  let interfaceBounds ← repeatMarked ':' (referenceType form budget .top)
  return { name, classBound, interfaceBounds }

/-- The type parameters of a method or a class, if there are any. -/
def typeParams (form : Form) (budget : Nat) : Parser (List TypeParam) := do
  if (← peek) = some '<' then
    match form with
    | .descriptor => fail .typeParamsInDescriptor
    | .generic =>
      skip
      let params ← repeatUntil '>' (typeParam form budget)
      if params.isEmpty then
        fail .noTypeParams
      else
        return params
  else
    return []

def returnType (form : Form) (budget : Nat) : Parser ReturnType := do
  if (← peek) = some 'V' then
    skip
    return .void
  else
    return .value (← valueType form budget .top)

def methodType (form : Form) (budget : Nat) : Parser MethodType := do
  let typeParams ← typeParams form budget
  expect '('
  let params ← repeatUntil ')' do
    if (← peek).isNone then
      fail .unterminatedParameters
    else
      valueType form budget .top
  let result ← returnType form budget
  let throws ←
    match form with
    | .descriptor =>
      if (← peek) = some '^' then
        fail .throwsInDescriptor
      else
        pure []
    | .generic => repeatMarked '^' (referenceType form budget .top)
  return { typeParams, params, result, throws }

def classSignature (budget : Nat) : Parser ClassType := do
  let typeParams ← typeParams .generic budget
  let superclass ← classType .generic budget .top
  let interfaces ← repeatWhile (!·.isEmpty) (classType .generic budget .top)
  return { typeParams, superclass, interfaces }

end Parser

/-! ## Whole texts -/

/-- Why a text is not a descriptor or not a signature. -/
structure Error where
  form : Form
  fault : Fault
  source : String
  /-- The number of bytes of `source` in front of the fault. -/
  offset : Nat
  deriving DecidableEq, Repr

namespace Error

/-- The most characters of the source that a message shows. -/
def excerptLength : Nat := 120

/-- The beginning of the source, with a mark when something follows. -/
def excerpt (source : String) : String :=
  let shown := source.toList.take excerptLength
  if shown.length < source.toList.length then
    String.ofList shown ++ "..."
  else
    source

def message (e : Error) : String :=
  let kind := match e.form with
    | .descriptor => "malformed descriptor"
    | .generic => "malformed signature"
  s!"{kind}: {e.fault.text} at offset {e.offset} in '{excerpt e.source}'"

end Error

/-- Runs a parser on a whole text. -/
def parse (form : Form) (parser : Parser α) (source : String) : Except Error α :=
  match parser source.toList with
  | .ok (a, _) => .ok a
  | .error failure =>
    .error {
      form
      fault := failure.fault
      source
      offset := source.utf8ByteSize - (String.ofList failure.rest).utf8ByteSize }

/-- Reads the type of a field. -/
def parseFieldType (form : Form) (source : String) : Except Error JavaType :=
  parse form (Parser.valueType form Parser.callBudget .top <* Parser.finish) source

/-- Reads the type of a method. -/
def parseMethodType (form : Form) (source : String) : Except Error MethodType :=
  parse form (Parser.methodType form Parser.callBudget <* Parser.finish) source

/-- Reads the type parameters and supertypes of a class. -/
def parseClassType (source : String) : Except Error ClassType :=
  parse .generic (Parser.classSignature Parser.callBudget) source

end ApiSurface.Signature
