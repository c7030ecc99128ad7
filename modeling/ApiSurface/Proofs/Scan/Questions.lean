import ApiSurface.Proofs.Storage.Tree
import ApiSurface.Scan.Basic

/-!
A scan, question by question.

While a scan is under way the files may change, so it matters when it asks for what. Here a scan is a
tree: it asks one question after the other, and each answer says how it goes on. Files that do not
change while it asks give the answers that make up the scan.
-/

namespace ApiSurface

/-- What is asked of the files at one moment. -/
inductive Question
  /-- What a path leads to; of a folder only that it is one. -/
  | node (path : Path)
  /-- The files below a folder that may hold classes. -/
  | classFiles (path : Path)
  | content (id : FileId)

def Question.Answer : Question → Type
  | .node _ => Except IoError Node
  | .classFiles _ => Except ScanError (List ClassEntry)
  | .content _ => ByteArray

/-- The path that a question is about. -/
def Question.path? : Question → Option Path
  | .node path | .classFiles path => some path
  | .content _ => none

/-- The answer that the files give. -/
def FileSystem.answer (fs : FileSystem) : (q : Question) → q.Answer
  | .node path => (fs.stat path).map Node.bare
  | .classFiles path => Container.folderEntries fs path
  | .content id => fs.content id

/-- A computation that asks the files for what it needs. -/
inductive Asking (α : Type)
  | done (result : α)
  | ask (q : Question) (next : q.Answer → Asking α)

namespace Asking

protected def bind : Asking α → (α → Asking β) → Asking β
  | .done a, f => f a
  | .ask q next, f => .ask q fun answer => (next answer).bind f

instance : Monad Asking where
  pure := .done
  bind := Asking.bind

def node (path : Path) : Asking (Except IoError Node) :=
  .ask (.node path) .done

def classFiles (path : Path) : Asking (Except ScanError (List ClassEntry)) :=
  .ask (.classFiles path) .done

def content (id : FileId) : Asking ByteArray :=
  .ask (.content id) .done

/-- What comes out when the files answer all questions as they are. -/
def run (fs : FileSystem) : Asking α → α
  | .done a => a
  | .ask q next => (next (fs.answer q)).run fs

/-- The questions that are asked when the files answer all of them as they are. -/
def asked (fs : FileSystem) : Asking α → List Question
  | .done _ => []
  | .ask q next => q :: (next (fs.answer q)).asked fs

@[simp] theorem run_pure (fs : FileSystem) (a : α) : run fs (pure a) = a := rfl

@[simp] theorem run_node (fs : FileSystem) (path : Path) :
    (node path).run fs = (fs.stat path).map Node.bare := rfl

@[simp] theorem run_content (fs : FileSystem) (id : FileId) :
    (content id).run fs = fs.content id := rfl

@[simp] theorem run_bind (fs : FileSystem) (x : Asking α) (f : α → Asking β) :
    (x >>= f).run fs = (f (x.run fs)).run fs := by
  induction x with
  | done a => rfl
  | ask q next ih => exact ih (fs.answer q)

/-- How far a computation can have got when each of its questions has been answered at one of the moments,
and not all of them at the same one. -/
inductive ComesTo (moment : FileSystem → Prop) (x : Asking α) : Asking α → Prop
  | start : ComesTo moment x x
  | answered {fs : FileSystem} {q : Question} {next : q.Answer → Asking α} (hmoment : moment fs)
      (h : ComesTo moment x (.ask q next)) : ComesTo moment x (next (fs.answer q))

theorem ComesTo.mono {moment moment' : FileSystem → Prop} {x y : Asking α} (h : ComesTo moment x y)
    (hle : ∀ fs, moment fs → moment' fs) : ComesTo moment' x y := by
  induction h with
  | start => exact .start
  | answered hmoment _ ih => exact .answered (hle _ hmoment) ih

/-- If there is only one moment, it comes to what comes out at that moment. -/
theorem comesTo_run {moment : FileSystem → Prop} {fs : FileSystem} (hmoment : moment fs) (x : Asking α) :
    ComesTo moment x (.done (x.run fs)) := by
  have hfrom : ∀ y, ComesTo moment x y → ComesTo moment x (.done (y.run fs)) := by
    intro y
    induction y with
    | done a => exact id
    | ask q next ih => exact fun h => ih _ (.answered hmoment h)
  exact hfrom x .start

end Asking

open Asking

/-! ## Containers -/

namespace Container

def opening (path : Path) : Asking (Except ScanError Container) := do
  match ← Asking.node path with
  | .error e => return .error (unresolved path (.io e))
  | .ok (.folder _) => return .ok (.folder path)
  | .ok (.file id) =>
    match Archive.ofData? (← Asking.content id) with
    | some a => return .ok (.archive path id a)
    | none => return .error (unreadable path .notAnArchive)
  | .ok (.link _) | .ok .device => return .error (unresolved path .notFileOrFolder)

def listing : Container → Asking (Except ScanError (List ClassEntry) × Container)
  | .archive path file a => do
    match a.visitAll (← Asking.content file) with
    | (a, some e) => return (.error (unreadable path e), .archive path file a)
    | (a, none) => return (.ok (archiveEntries a), .archive path file a)
  | .folder path => do
    return (← Asking.classFiles path, .folder path)

def having (name : String) : Container → Asking Bool
  | .archive _ _ a => return (a.find? name).isSome
  | .folder path => do
    match ← Asking.node (path.join ⟨name⟩) with
    | .ok node => return node.isFile
    | .error _ => return false

def readingUnpacked (path : Path) (name : String) (max : Nat) : Asking (Except ScanError Bytes) := do
  let location := location path name
  match ← Asking.node (path.join ⟨name⟩) with
  | .error e => return .error (.io location e)
  | .ok (.file id) =>
    let data ← Asking.content id
    return if max < data.size then .error (.fileTooBig location data.size max)
      else within location max (.ofByteArray data)
  | .ok (.folder _) =>
    return if max < Node.folderSize then .error (.fileTooBig location Node.folderSize max)
      else .error (.io location (.os .isFolder))
  | .ok (.link _) | .ok .device => return within location max []

def reading (name : String) (max : Nat) : Container → Asking (Except ScanError Bytes × Container)
  | .archive path file a => do
    let (result, a) := readArchived (← Asking.content file) path name max a
    return (result, .archive path file a)
  | .folder path => return (← readingUnpacked path name max, .folder path)

theorem run_opening (fs : FileSystem) (path : Path) : (opening path).run fs = ofPath fs path := by
  unfold opening ofPath
  simp only [run_bind, run_node]
  cases hstat : fs.stat path with
  | error e => rfl
  | ok node =>
    cases node with
    | file id =>
      simp only [Except.map, Node.bare, run_bind, run_content]
      simp only [Except.mapError, bind, Except.bind]
      cases Archive.ofData? (fs.content id) <;> rfl
    | folder children => rfl
    | link target => rfl
    | device => rfl

theorem run_listing (fs : FileSystem) (c : Container) : c.listing.run fs = c.classEntries fs := by
  cases c with
  | archive path file a =>
    simp only [listing, classEntries, run_bind, run_content]
    obtain ⟨a', e?⟩ := a.visitAll (fs.content file)
    cases e? <;> rfl
  | folder path => rfl

theorem run_having (fs : FileSystem) (name : String) (c : Container) :
    (c.having name).run fs = c.contains fs name := by
  cases c with
  | archive path file a => rfl
  | folder path =>
    simp only [having, contains, run_bind, run_node, FileSystem.isFile]
    cases fs.stat (path.join ⟨name⟩) with
    | error e => rfl
    | ok node => cases node <;> rfl

theorem run_readingUnpacked (fs : FileSystem) (path : Path) (name : String) (max : Nat) :
    (readingUnpacked path name max).run fs = readUnpacked fs path name max := by
  simp only [readingUnpacked, readUnpacked, run_bind, run_node]
  cases fs.stat (path.join ⟨name⟩) with
  | error e => rfl
  | ok node =>
    cases node with
    | file id =>
      simp only [Except.map, Node.bare, run_bind, run_content, run_pure]
      simp only [Except.mapError, bind, Except.bind]
      by_cases hsize : max < (fs.content id).size
      · simp only [FileSystem.sizeOf, hsize, if_true]
        rfl
      · simp only [FileSystem.sizeOf, FileSystem.contentOf, hsize, if_false]
    | folder children =>
      simp only [Except.map, Node.bare, run_pure]
      simp only [Except.mapError, bind, Except.bind]
      by_cases hsize : max < Node.folderSize
      · simp only [FileSystem.sizeOf, hsize, if_true]
        rfl
      · simp only [FileSystem.sizeOf, FileSystem.contentOf, hsize, if_false]
    | link target => rfl
    | device => rfl

theorem run_reading (fs : FileSystem) (name : String) (max : Nat) (c : Container) :
    (c.reading name max).run fs = c.read fs name max := by
  cases c with
  | archive path file a => rfl
  | folder path =>
    simp only [reading, read, run_bind, run_readingUnpacked]
    rfl

end Container

/-! ## Types -/

namespace Universe

def defining (max : Nat) (c : Container) :
    List ClassEntry → List Definition → Asking (Except ScanError (List Definition))
  | [], definitions => return .ok definitions
  | e :: rest, definitions => do
    match (← c.reading e.name max).1 with
    | .error error => return .error error
    | .ok content => defining max c rest (define definitions e.name content)

def openingAll : List Path → Asking (Except ScanError (List Container))
  | [] => return .ok []
  | path :: rest => do
    match ← Asking.node path with
    | .error _ => openingAll rest
    | .ok _ =>
      match ← Container.opening path with
      | .error e => return .error e
      | .ok c => return (← openingAll rest).map (c :: ·)

def resolving (max : Nat) (r : ScanRequest) : Asking (Except ScanError Universe) := do
  match ← Container.opening r.artifact with
  | .error e => return .error e
  | .ok c =>
    match ← c.listing with
    | (.error e, _) => return .error e
    | (.ok entries, c) =>
      match ← defining max c entries [] with
      | .error e => return .error e
      | .ok definitions =>
        return (← openingAll r.classpath).map fun dependencies =>
          ⟨r.artifact, definitions, dependencies, [], max⟩

def readingFirst (max : Nat) (entry : String) :
    List Container → Asking (Except ScanError (Option Bytes) × List Container)
  | [] => return (.ok none, [])
  | c :: rest => do
    if ← c.having entry then
      let (result, c) ← c.reading entry max
      return (result.map some, c :: rest)
    else
      let (result, rest) ← readingFirst max entry rest
      return (result, c :: rest)

def lookingUp (name : String) (u : Universe) : Asking (Except ScanError (Option TypeDecl) × Universe) := do
  let (result, dependencies) ←
    readingFirst u.maxClassFileSize (EntryName.ofBinaryName name) u.dependencies
  return (result.map fun content => content.bind fun bytes => (TypeDecl.ofBytes bytes).toOption,
    { u with dependencies })

def loading (name : String) (u : Universe) : Asking (Except ScanError (Option TypeDecl) × Universe) :=
  match u.artifactType? name with
  | some t => return (.ok (some t), u)
  | none =>
    match u.answers.lookup name with
    | some answer => return (.ok answer, u)
    | none => do
      match ← u.lookingUp name with
      | (.error e, u) => return (.error e, u)
      | (.ok answer, u) => return (.ok answer, { u with answers := (name, answer) :: u.answers })

def searching (strict : Bool) : List String → Universe → Asking (Option String × Universe)
  | [], u => return (none, u)
  | name :: rest, u =>
    if u.isKnown name then
      searching strict rest u
    else do
      match ← u.loading name with
      | (.ok (some _), u) => searching strict rest u
      | (_, u) => if strict then return (some name, u) else searching strict rest u

def checking (strict : Bool) (t : TypeDecl) (u : Universe) : Asking (Except ScanError Unit × Universe) := do
  match ← u.searching strict t.supertypes with
  | (none, u) => return (.ok (), u)
  | (some name, u) => return (.error (.unresolvedType u.artifact.shown name t.name), u)

theorem run_defining (fs : FileSystem) (max : Nat) (c : Container) (entries : List ClassEntry)
    (definitions : List Definition) : (defining max c entries definitions).run fs =
      entries.foldlM (fun definitions e => do
        return define definitions e.name (← (c.read fs e.name max).1)) definitions := by
  induction entries generalizing definitions with
  | nil => rfl
  | cons e rest ih =>
    simp only [defining, run_bind, Container.run_reading, List.foldlM_cons]
    cases (c.read fs e.name max).1 with
    | error error => rfl
    | ok content => exact ih _

theorem run_openingAll (fs : FileSystem) (classpath : List Path) :
    (openingAll classpath).run fs = dependenciesOf fs classpath := by
  unfold dependenciesOf
  induction classpath with
  | nil => rfl
  | cons path rest ih =>
    simp only [openingAll, run_bind, run_node]
    cases hstat : fs.stat path with
    | error e =>
      have hhas : fs.has path = false := by rw [FileSystem.has, hstat]; rfl
      rw [List.filter_cons_of_neg (by simp [hhas])]
      exact ih
    | ok node =>
      have hhas : fs.has path = true := by rw [FileSystem.has, hstat]; rfl
      rw [List.filter_cons_of_pos hhas, List.mapM_cons]
      simp only [Except.map, run_bind, Container.run_opening]
      cases Container.ofPath fs path with
      | error e => rfl
      | ok c =>
        simp only [run_bind, run_pure, ih]
        cases (rest.filter fs.has).mapM (Container.ofPath fs) <;> rfl

theorem run_resolving (fs : FileSystem) (max : Nat) (r : ScanRequest) :
    (resolving max r).run fs = resolve fs max r := by
  simp only [resolving, resolve, run_bind, Container.run_opening]
  cases Container.ofPath fs r.artifact with
  | error e => rfl
  | ok c =>
    simp only [run_bind, Container.run_listing]
    show _ = (c.classEntries fs).1.bind fun entries =>
      (definitionsOf fs max (c.classEntries fs).2 entries).bind fun definitions =>
        (dependenciesOf fs r.classpath).bind fun dependencies =>
          .ok (Universe.mk r.artifact definitions dependencies [] max)
    obtain ⟨entries, c⟩ := c.classEntries fs
    cases entries with
    | error e => rfl
    | ok entries =>
      have hdefining : (defining max c entries []).run fs = definitionsOf fs max c entries :=
        run_defining fs max c entries []
      simp only [run_bind, hdefining]
      show _ = (definitionsOf fs max c entries).bind _
      cases definitionsOf fs max c entries with
      | error e => rfl
      | ok definitions =>
        simp only [run_bind, run_pure, run_openingAll]
        show _ = (dependenciesOf fs r.classpath).bind _
        cases dependenciesOf fs r.classpath <;> rfl

theorem run_readingFirst (fs : FileSystem) (max : Nat) (entry : String) (cs : List Container) :
    (readingFirst max entry cs).run fs = readFirst fs max entry cs := by
  induction cs with
  | nil => rfl
  | cons c rest ih =>
    simp only [readingFirst, readFirst, run_bind, Container.run_having]
    split
    · simp only [run_bind, Container.run_reading]
      rfl
    · simp only [run_bind, ih]
      rfl

theorem run_lookingUp (fs : FileSystem) (name : String) (u : Universe) :
    (u.lookingUp name).run fs = u.lookUp fs name := by
  simp only [lookingUp, lookUp, run_bind, run_readingFirst]
  rfl

theorem run_loading (fs : FileSystem) (name : String) (u : Universe) :
    (u.loading name).run fs = u.load fs name := by
  unfold loading load
  cases u.artifactType? name with
  | some t => rfl
  | none =>
    cases u.answers.lookup name with
    | some answer => rfl
    | none =>
      simp only [run_bind, run_lookingUp]
      obtain ⟨result, u'⟩ := u.lookUp fs name
      cases result <;> rfl

theorem run_searching (fs : FileSystem) (strict : Bool) (names : List String) (u : Universe) :
    (u.searching strict names).run fs = u.unresolvedAmong fs strict names := by
  induction names generalizing u with
  | nil => rfl
  | cons name rest ih =>
    unfold searching unresolvedAmong
    split
    · exact ih u
    · simp only [run_bind, run_loading]
      obtain ⟨result, u'⟩ := u.load fs name
      cases result with
      | error e =>
        cases strict with
        | true => rfl
        | false => exact ih u'
      | ok answer =>
        cases answer with
        | some t => exact ih u'
        | none =>
          cases strict with
          | true => rfl
          | false => exact ih u'

theorem run_checking (fs : FileSystem) (strict : Bool) (t : TypeDecl) (u : Universe) :
    (u.checking strict t).run fs = u.checkSupertypes fs strict t := by
  unfold checking checkSupertypes
  simp only [run_bind, run_searching]
  obtain ⟨name?, u'⟩ := u.unresolvedAmong fs strict t.supertypes
  cases name? <;> rfl

end Universe

/-! ## Scans -/

namespace Scan

def emitting (s : ScannerSettings) : List TypeDecl → Universe → Asking (Except ScanError (List Report.Line))
  | [], _ => return .ok []
  | t :: rest, u => do
    match ← u.checking s.strictResolution t with
    | (.error e, _) => return .error e
    | (.ok (), u) => return (← emitting s rest u).map (t.block s.includeSynthetic ++ ·)

theorem run_emitting (fs : FileSystem) (s : ScannerSettings) (types : List TypeDecl) (u : Universe) :
    (emitting s types u).run fs = blocks fs s types u := by
  induction types generalizing u with
  | nil => rfl
  | cons t rest ih =>
    unfold emitting blocks
    simp only [run_bind, Universe.run_checking]
    obtain ⟨result, u'⟩ := u.checkSupertypes fs s.strictResolution t
    cases result with
    | error e => rfl
    | ok _ => simp only [run_bind, run_pure, ih]

end Scan

/-- The scan of an artifact as a computation that asks. -/
def scanning (s : ScannerSettings) (r : ScanRequest) : Asking (Except ScanError Report) := do
  match ← Universe.resolving s.maxClassFileSize r with
  | .error e => return .error e
  | .ok u => return (← Scan.emitting s (u.reported s.internalMarker) u).map (⟨r.artifact.shown, ·⟩)

/-- Files that stay as they are while a scan asks make the scan of these files. -/
theorem run_scanning (fs : FileSystem) (s : ScannerSettings) (r : ScanRequest) :
    (scanning s r).run fs = scan fs s r := by
  unfold scanning scan
  simp only [run_bind, Universe.run_resolving]
  cases Universe.resolve fs s.maxClassFileSize r with
  | error e => rfl
  | ok u =>
    simp only [run_bind, run_pure, Scan.run_emitting]
    simp only [bind, Except.bind]
    cases Scan.blocks fs s (u.reported s.internalMarker) u <;> rfl

end ApiSurface
