import ApiSurface.Container.Basic
import ApiSurface.Decl.Basic

/-!
The types that one scan knows: those of the artifact, which are all read at the start, and those of
its dependencies, which are read when they are asked for.

Of two classes of the artifact with one name the first counts. A type of a dependency comes from the
first location that has an entry for it, and the answer is kept: the same question is not put to the
files again. An error is not kept.

| here | there |
|---|---|
| `Universe` | `ResolutionContext` |
| `Universe.resolve` | `ResolutionContext.resolve` |
| `Universe.artifactType?` | `ResolutionContext.artifact_type` |
| `Universe.reported` | `ArtifactWalker.enumerate` |
| `Universe.origin?` | `ResolutionContext.resolve_name` |
| `Universe.load` | `ResolutionContext.load` |
| `Universe.checkSupertypes` | `ResolutionContext.check_supertypes` |
-/

namespace ApiSurface

/-- What is to be scanned, and where the types are that it refers to. -/
structure ScanRequest where
  artifact : Path
  classpath : List Path
  deriving DecidableEq, Repr

/-- What an entry of the artifact gives. -/
inductive Definition
  | loaded (t : TypeDecl)
  /-- The entry holds no class that can be decoded. -/
  | unloadable (entry : String) (reason : DeclError)

def Definition.type? : Definition → Option TypeDecl
  | .loaded t => some t
  | .unloadable .. => none

/-- Where a type is defined. -/
inductive TypeOrigin
  | artifact
  | dependency (location : Path)
  deriving DecidableEq, Repr

structure Universe where
  artifact : Path
  /-- In the order in which the entries were found. -/
  definitions : List Definition
  /-- In the order of the classpath. -/
  dependencies : List Container
  /-- The answers that have been given for types of dependencies. -/
  answers : List (String × Option TypeDecl)
  maxClassFileSize : Nat

namespace Universe

/-! ## The artifact -/

/-- The types among definitions. -/
def typesOf (definitions : List Definition) : List TypeDecl :=
  definitions.filterMap Definition.type?

/-- The definitions with what one more entry gives. A type that is defined already is left out. -/
def define (definitions : List Definition) (entry : String) (content : Bytes) : List Definition :=
  match TypeDecl.ofBytes content with
  | .error e => definitions ++ [.unloadable entry e]
  | .ok t =>
    if (typesOf definitions).any (·.name = t.name) then definitions
    else definitions ++ [.loaded t]

/-- The definitions that entries give, each read with at most `max` bytes. -/
def definitionsOf (fs : FileSystem) (max : Nat) (c : Container) (entries : List ClassEntry) :
    Except ScanError (List Definition) :=
  entries.foldlM (fun definitions e => do
    return define definitions e.name (← (c.read fs e.name max).1)) []

/-- The containers at those locations that exist. -/
def dependenciesOf (fs : FileSystem) (classpath : List Path) : Except ScanError (List Container) :=
  (classpath.filter fs.has).mapM (Container.ofPath fs)

/-- The types that a scan of the request knows. -/
def resolve (fs : FileSystem) (max : Nat) (r : ScanRequest) : Except ScanError Universe := do
  let c ← Container.ofPath fs r.artifact
  let (entries, c) := c.classEntries fs
  let definitions ← definitionsOf fs max c (← entries)
  let dependencies ← dependenciesOf fs r.classpath
  return {
    artifact := r.artifact
    definitions
    dependencies
    answers := []
    maxClassFileSize := max }

/-- The type of that name in the artifact. -/
def artifactType? (u : Universe) (name : String) : Option TypeDecl :=
  (typesOf u.definitions).find? (·.name = name)

/-- The types of the artifact that are part of its surface. -/
def reported (marker : String) (u : Universe) : List TypeDecl :=
  (typesOf u.definitions).filter fun t => !t.isInternal marker

/-! ## The dependencies -/

/-- The first location that has an entry for the type. -/
def holder? (fs : FileSystem) (u : Universe) (name : String) : Option Container :=
  u.dependencies.find? (·.contains fs (EntryName.ofBinaryName name))

/-- Where the type of that name is defined. -/
def origin? (fs : FileSystem) (u : Universe) (name : String) : Option TypeOrigin :=
  if (u.artifactType? name).isSome then some .artifact
  else (u.holder? fs name).map fun c => .dependency c.path

/-- Reads an entry from the first container that has it; nothing if none has. -/
def readFirst (fs : FileSystem) (max : Nat) (entry : String) :
    List Container → Except ScanError (Option Bytes) × List Container
  | [] => (.ok none, [])
  | c :: rest =>
    if c.contains fs entry then
      let (result, c) := c.read fs entry max
      (result.map some, c :: rest)
    else
      let (result, rest) := readFirst fs max entry rest
      (result, c :: rest)

/-- What the dependencies have for a name; nothing if the entry holds no class. -/
def lookUp (fs : FileSystem) (name : String) (u : Universe) :
    Except ScanError (Option TypeDecl) × Universe :=
  let (result, dependencies) :=
    readFirst fs u.maxClassFileSize (EntryName.ofBinaryName name) u.dependencies
  (result.map fun content => content.bind fun bytes => (TypeDecl.ofBytes bytes).toOption,
    { u with dependencies })

/-- The type of that name, if there is one that can be decoded. An answer is kept; an error is not. -/
def load (fs : FileSystem) (name : String) (u : Universe) :
    Except ScanError (Option TypeDecl) × Universe :=
  match u.artifactType? name with
  | some t => (.ok (some t), u)
  | none =>
    match u.answers.lookup name with
    | some answer => (.ok answer, u)
    | none =>
      match u.lookUp fs name with
      | (.error e, u) => (.error e, u)
      | (.ok answer, u) => (.ok answer, { u with answers := (name, answer) :: u.answers })

/-! ## Supertypes -/

/-- A supertype that needs no search: one of the platform or of the artifact. -/
def isKnown (u : Universe) (name : String) : Bool :=
  isPlatformName name || (u.artifactType? name).isSome

/-- The first of the names that leads to no type. Names after it are not searched if `strict` says
that one is enough. -/
def unresolvedAmong (fs : FileSystem) (strict : Bool) :
    List String → Universe → Option String × Universe
  | [], u => (none, u)
  | name :: rest, u =>
    if u.isKnown name then
      unresolvedAmong fs strict rest u
    else
      match u.load fs name with
      | (.ok (some _), u) => unresolvedAmong fs strict rest u
      | (_, u) => if strict then (some name, u) else unresolvedAmong fs strict rest u

/-- Searches the direct supertypes of a type. One that is not found is an error only if `strict` says
so. -/
def checkSupertypes (fs : FileSystem) (strict : Bool) (t : TypeDecl) (u : Universe) :
    Except ScanError Unit × Universe :=
  match u.unresolvedAmong fs strict t.supertypes with
  | (none, u) => (.ok (), u)
  | (some name, u) => (.error (.unresolvedType u.artifact.shown name t.name), u)

end Universe

end ApiSurface
