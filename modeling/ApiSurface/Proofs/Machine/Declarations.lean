import ApiSurface.Proofs.Decl.Exports
import ApiSurface.Proofs.Machine.Decoder
import ApiSurface.Proofs.Machine.Rendering
import ApiSurface.Proofs.Machine.Signature
import ApiSurface.Proofs.Signature.RoundTrip

/-!
From bytes to the block of a type, all of it on a machine.

The texts of a class file are short, so a machine holds them, and so are the types that are read from them:
a text is the written form of what is read from it.
-/

namespace ApiSurface.Machine

open Rendering (IsWritable IsWritableParam IsHeld IsHeldMethod IsHeldDecl)

/-! ## Declarations -/

/-- What may be refused and may trap. -/
abbrev Declaring := ExceptT Signature.Error (Except Trap)

namespace Declaring

/-- What is read from a signature, if there is one and it can be read. -/
def readSignature? {α : Type} (parse : String → Except Trap (Except Signature.Error α)) :
    Option String → Except Trap (Option α)
  | none => return none
  | some text => do
    let read ← parse text
    return read.toOption

def method (declaringType : String) (m : Member) : Declaring MethodDecl := do
  let erased ← ExceptT.mk (Scanner.parseMethodType .descriptor m.descriptor)
  let read ← liftM (readSignature? (Scanner.parseMethodType .generic) m.signature)
  let type := (read.filter (·.params.length = erased.params.length)).getD erased
  return {
    declaringType
    access := m.access
    name := m.name
    descriptor := m.descriptor
    typeParams := type.typeParams
    params := type.params
    result := type.result
    throws :=
      if type.throws.isEmpty then m.exceptions.map JavaType.ofInternalName else type.throws }

def field (declaringType : String) (m : Member) : Declaring FieldDecl := do
  let erased ← ExceptT.mk (Scanner.parseFieldType .descriptor m.descriptor)
  let read ← liftM (readSignature? (Scanner.parseFieldType .generic) m.signature)
  return {
    declaringType
    access := m.access
    name := m.name
    descriptor := m.descriptor
    type := read.getD erased }

/-- The declaration that a class file gives. -/
def type (c : ClassFile) : Declaring TypeDecl := do
  let name := binaryName c.name
  let read ← liftM (readSignature? Scanner.parseClassType c.signature)
  let methods ← c.methods.mapM (method name)
  let fields ← c.fields.mapM (field name)
  return {
    name
    kind := .ofFlags c.access
    modifier := .ofFlags c.access
    access := c.access
    typeParams := (read.map (·.typeParams)).getD []
    superclass :=
      if TypeKind.ofFlags c.access = .classType then c.superclass.map binaryName else none
    interfaces := c.interfaces.map binaryName
    methods
    fields }

end Declaring

/-- The block of the type that the bytes of a class file declare. -/
def blockOfBytes (synthetic : Bool) (bytes : Bytes) : Except Trap (Except DeclError (List Report.Line)) := do
  match ← Decoder.decode bytes with
  | .error e => return .error (.classFile e)
  | .ok c =>
    match ← (Declaring.type c).run with
    | .error e => return .error (.signature e)
    | .ok t =>
      let lines ← Rendering.writeBlock synthetic t
      return .ok lines

namespace Declaring

/-! ## Signatures that can be read -/

/-- What a reader gives for a signature, if there is one and it can be read. -/
def read? {α : Type} (parse : String → Except Signature.Error α) (signature : Option String) : Option α :=
  signature.bind fun text => (parse text).toOption

theorem genericMethodType?_eq (arity : Nat) (signature : Option String) :
    MethodDecl.genericType? arity signature =
      (read? (Signature.parseMethodType .generic) signature).filter (·.params.length = arity) := by
  cases signature with
  | none => rfl
  | some text =>
    rw [MethodDecl.genericType?, Option.map_some, read?, Option.bind_some]
    cases Signature.parseMethodType .generic text with
    | error e => rfl
    | ok type => simp [Except.toOption, Option.filter]

theorem genericFieldType?_eq (signature : Option String) :
    FieldDecl.genericType? signature = read? (Signature.parseFieldType .generic) signature := by
  cases signature with
  | none => rfl
  | some text =>
    rw [FieldDecl.genericType?, Option.map_some, read?, Option.bind_some]
    cases Signature.parseFieldType .generic text <;> rfl

theorem typeParamsOf_eq (signature : Option String) :
    TypeDecl.typeParamsOf signature = ((read? Signature.parseClassType signature).map (·.typeParams)).getD [] := by
  cases signature with
  | none => rfl
  | some text =>
    rw [TypeDecl.typeParamsOf, Option.map_some, read?, Option.bind_some]
    cases Signature.parseClassType text <;> rfl

/-! ## Declaring without a trap -/

section
variable {α β : Type}

/-- The machine answers what the reader answers. -/
def Answers (x : Declaring α) (p : Except Signature.Error α) : Prop :=
  x.run = .ok p

theorem answers_pure (a : α) : Answers (pure a) (pure a) :=
  rfl

theorem Answers.bind {x : Declaring α} {p : Except Signature.Error α} {f : α → Declaring β}
    {g : α → Except Signature.Error β} (hx : Answers x p) (hf : ∀ a, Answers (f a) (g a)) :
    Answers (x >>= f) (p >>= g) := by
  show (x.run >>= ExceptT.bindCont f) = _
  rw [bind_ok hx]
  cases p with
  | error e => rfl
  | ok a => exact hf a

/-- What a reader finds without reading on, a machine may have to look for. -/
theorem answers_liftM_bind {x : Except Trap α} {a : α} {f : α → Declaring β} {p : Except Signature.Error β}
    (hx : x = .ok a) (hf : Answers (f a) p) : Answers (liftM x >>= f) p := by
  rw [hx]
  exact hf

theorem answers_mapM {f : α → Declaring β} {g : α → Except Signature.Error β} {as : List α}
    (h : ∀ a ∈ as, Answers (f a) (g a)) : Answers (as.mapM f) (as.mapM g) := by
  induction as with
  | nil => exact answers_pure []
  | cons a as ih =>
    obtain ⟨ha, has⟩ := List.forall_mem_cons.1 h
    rw [List.mapM_cons, List.mapM_cons]
    exact ha.bind fun _ => (ih has).bind fun _ => answers_pure _

end

theorem utf8ByteSize_le {text : String} (h : ClassFile.IsShort text) : text.utf8ByteSize ≤ maxBytes :=
  Nat.le_trans h (by decide)

theorem readSignature?_eq {α : Type} {parse : String → Except Trap (Except Signature.Error α)}
    {parse' : String → Except Signature.Error α} {signature : Option String}
    (hparse : ∀ text, text.utf8ByteSize ≤ maxBytes → parse text = .ok (parse' text))
    (h : ∀ text ∈ signature, ClassFile.IsShort text) :
    readSignature? parse signature = .ok (read? parse' signature) := by
  cases signature with
  | none => rfl
  | some text =>
    rw [readSignature?, bind_ok (hparse text (utf8ByteSize_le (h text rfl)))]
    rfl

theorem answers_method {m : Member} (h : m.IsBounded) (declaringType : String) :
    Answers (method declaringType m) (MethodDecl.ofMember declaringType m) := by
  have hread := readSignature?_eq (fun _ => @Scanner.parseMethodType_eq .generic _) h.signature
  refine Answers.bind (Scanner.parseMethodType_eq (utf8ByteSize_le h.descriptor)) fun erased => ?_
  rw [genericMethodType?_eq]
  exact answers_liftM_bind hread (answers_pure _)

theorem answers_field {m : Member} (h : m.IsBounded) (declaringType : String) :
    Answers (field declaringType m) (FieldDecl.ofMember declaringType m) := by
  have hread := readSignature?_eq (fun _ => @Scanner.parseFieldType_eq .generic _) h.signature
  refine Answers.bind (Scanner.parseFieldType_eq (utf8ByteSize_le h.descriptor)) fun erased => ?_
  rw [genericFieldType?_eq]
  exact answers_liftM_bind hread (answers_pure _)

/-- **Declaring a class never traps.** -/
theorem answers_type {c : ClassFile} (h : c.IsBounded) : Answers (type c) (TypeDecl.ofClassFile c) := by
  rw [TypeDecl.ofClassFile, typeParamsOf_eq]
  refine answers_liftM_bind (readSignature?_eq (fun _ => Scanner.parseClassType_eq) h.signature) ?_
  refine (answers_mapM fun m hm => answers_method (h.methods m hm) _).bind fun methods => ?_
  exact (answers_mapM fun m hm => answers_field (h.fields m hm) _).bind fun fields => answers_pure _

/-! ## The size of a declaration -/

section
variable {α : Type} {written : α → List Char} {as : List α}

variable (written) in
theorem length_written_le {a : α} (ha : a ∈ as) : (written a).length ≤ (as.flatMap written).length := by
  obtain ⟨front, back, rfl⟩ := List.append_of_mem ha
  rw [List.flatMap_append, List.flatMap_cons, List.length_append, List.length_append]
  omega

/-- Where everything takes at least a character, there are as many characters as there are things. -/
theorem length_le_length_written (h : ∀ a, written a ≠ []) : as.length ≤ (as.flatMap written).length := by
  induction as with
  | nil => exact Nat.le_refl 0
  | cons a as ih =>
    have hsome := List.length_pos_of_ne_nil (h a)
    rw [List.length_cons, List.flatMap_cons, List.length_append]
    omega

end

/-- A text is the written form of what is read from it, and no shorter in bytes than in characters. -/
theorem length_written_le_of_text {written : List Char} {text : String} (h : String.ofList written = text)
    (hshort : ClassFile.IsShort text) : written.length ≤ maxBytes := by
  rw [← h, ClassFile.IsShort, utf8ByteSize_ofList] at hshort
  have hmax : 3 * ClassFile.maxCount ≤ maxBytes := by decide
  exact Nat.le_trans (length_le_length_bytesOf written) (Nat.le_trans hshort hmax)

theorem written_ne_nil (t : JavaType) : t.written ≠ [] := by
  obtain ⟨cs, hcs⟩ := t.exists_written
  simp [hcs]

theorem isWritableParam {p : TypeParam} (h : p.written.length ≤ maxBytes) : IsWritableParam p := by
  rw [TypeParam.written, List.length_append, List.length_cons, List.length_append] at h
  have hinterfaces := @length_le_length_written _ (fun t : JavaType => ':' :: t.written) p.interfaceBounds
    fun _ => List.cons_ne_nil _ _
  constructor
  · have hclass : (p.classBound.filter (!·.isRoot)).toList.length ≤ 1 := by
      cases p.classBound.filter (!·.isRoot) <;> simp
    rw [TypeParam.bounds, List.length_append]
    omega
  · intro t ht
    refine IsHeld.isWritable ?_
    rw [TypeParam.bounds, List.mem_append, Option.mem_toList] at ht
    obtain hclass | hinterface := ht
    · rw [Option.eq_some_of_filter_eq_some hclass, Option.map_some, Option.getD_some] at h
      exact Nat.le_trans (by omega) h
    · have hone := length_written_le (fun t : JavaType => ':' :: t.written) hinterface
      rw [List.length_cons] at hone
      exact Nat.le_trans (by omega) h

/-- The type parameters of a type that is read from a text. -/
theorem isWritable_typeParams {params : List TypeParam} (h : (writtenTypeParams params).length ≤ maxBytes) :
    params.length ≤ maxBytes ∧ ∀ p ∈ params, IsWritableParam p := by
  rw [writtenTypeParams] at h
  split at h
  · next hnone =>
    obtain rfl := List.isEmpty_iff.1 hnone
    exact ⟨Nat.zero_le _, List.forall_mem_nil _⟩
  · rw [List.length_cons, List.length_append] at h
    have hcount := @length_le_length_written _ TypeParam.written params fun p => by simp [TypeParam.written]
    refine ⟨by omega, fun p hp => isWritableParam ?_⟩
    have hone := length_written_le TypeParam.written hp
    omega

/-- A method with the type that is read from a text, except that it may have other exceptions. -/
theorem isHeldMethod {declaringType name descriptor : String} {access : AccessFlags} {type : MethodType}
    {throws : List JavaType} (h : type.written.length ≤ maxBytes) (hcount : throws.length ≤ maxBytes)
    (hthrows : ∀ t ∈ throws, IsWritable t) : IsHeldMethod
      ⟨declaringType, access, name, descriptor, type.typeParams, type.params, type.result, throws⟩ := by
  rw [MethodType.written, List.length_append, List.length_cons, List.length_append, List.length_cons,
    List.length_append] at h
  obtain ⟨htypeParamCount, htypeParams⟩ := @isWritable_typeParams type.typeParams (by omega)
  have hparamCount := @length_le_length_written _ _ type.params written_ne_nil
  refine ⟨htypeParamCount, htypeParams, ?_, ?_, ?_, hcount, hthrows⟩
  · show type.params.length ≤ maxBytes
    omega
  · intro t (ht : t ∈ type.params)
    have hone := length_written_le JavaType.written ht
    exact Nat.le_trans (by omega) h
  · intro t ht
    have hresult : type.result.written.length = t.written.length := by
      rw [show type.result = .value t from ht, ReturnType.written]
    exact Nat.le_trans (by omega) h

/-- The exceptions of a type that is read from a text. -/
theorem isWritable_throws {type : MethodType} (h : type.written.length ≤ maxBytes) :
    type.throws.length ≤ maxBytes ∧ ∀ t ∈ type.throws, IsWritable t := by
  rw [MethodType.written, List.length_append, List.length_cons, List.length_append, List.length_cons,
    List.length_append] at h
  have hcount := @length_le_length_written _ (fun t : JavaType => '^' :: t.written) type.throws
    fun _ => List.cons_ne_nil _ _
  refine ⟨by omega, fun t ht => IsHeld.isWritable ?_⟩
  have hone := length_written_le (fun t : JavaType => '^' :: t.written) ht
  rw [List.length_cons] at hone
  exact Nat.le_trans (by omega) h

/-- The type of a method stands in its descriptor or in its signature. -/
theorem isHeldMethod_of_ofMember {owner : String} {m : Member} {d : MethodDecl} (hm : m.IsBounded)
    (h : MethodDecl.ofMember owner m = .ok d) : IsHeldMethod d := by
  obtain ⟨erased, herased, type, htype, rfl⟩ := MethodDecl.ofMember_eq_ok.1 h
  have hread : ∃ form text, Signature.parseMethodType form text = .ok type ∧ ClassFile.IsShort text := by
    cases hgeneric : MethodDecl.genericType? erased.params.length m.signature with
    | none =>
      rw [hgeneric] at htype
      exact ⟨.descriptor, m.descriptor, htype ▸ herased, hm.descriptor⟩
    | some found =>
      rw [hgeneric] at htype
      obtain ⟨text, htext, hparse, -⟩ := MethodDecl.genericType?_eq_some.1 hgeneric
      exact ⟨.generic, text, htype ▸ hparse, hm.signature text htext⟩
  obtain ⟨form, text, hparse, hshort⟩ := hread
  have hheld := length_written_le_of_text (Signature.parseMethodType_eq_ok.1 hparse).2 hshort
  obtain ⟨hcount, hthrows⟩ := isWritable_throws hheld
  split
  · have hmax : ClassFile.maxCount * ClassFile.maxCount ≤ maxBytes := by decide
    refine isHeldMethod hheld ?_ fun t ht => ?_
    · rw [List.length_map]
      exact Nat.le_trans hm.exceptions hmax
    · obtain ⟨name, -, rfl⟩ := List.mem_map.1 ht
      rfl
  · exact isHeldMethod hheld hcount hthrows

/-- The type of a field stands in its descriptor or in its signature. -/
theorem isHeld_of_ofMember {owner : String} {m : Member} {d : FieldDecl} (hm : m.IsBounded)
    (h : FieldDecl.ofMember owner m = .ok d) : IsHeld d.type := by
  obtain ⟨erased, herased, rfl⟩ := FieldDecl.ofMember_eq_ok.1 h
  cases hgeneric : FieldDecl.genericType? m.signature with
  | none => exact length_written_le_of_text (Signature.parseFieldType_eq_ok.1 herased).2 hm.descriptor
  | some found =>
    obtain ⟨text, htext, hparse⟩ := FieldDecl.genericType?_eq_some.1 hgeneric
    exact length_written_le_of_text (Signature.parseFieldType_eq_ok.1 hparse).2 (hm.signature text htext)

/-- What a bounded class declares can be written. -/
theorem isHeldDecl {c : ClassFile} {t : TypeDecl} (hc : c.IsBounded) (h : TypeDecl.ofClassFile c = .ok t) :
    IsHeldDecl t := by
  have hdeclared := TypeDecl.isDeclaredBy_of_ofClassFile h
  refine ⟨?_, fun d hd => ?_, ?_, fun d hd => ?_⟩
  · rw [length_of_mapM_eq_ok hdeclared.methods]
    exact hc.methodCount
  · obtain ⟨m, hm, hdecl⟩ := (mem_of_mapM_eq_ok hdeclared.methods d).1 hd
    exact isHeldMethod_of_ofMember (hc.methods m hm) hdecl
  · rw [length_of_mapM_eq_ok hdeclared.fields]
    exact hc.fieldCount
  · obtain ⟨m, hm, hdecl⟩ := (mem_of_mapM_eq_ok hdeclared.fields d).1 hd
    exact isHeld_of_ofMember (hc.fields m hm) hdecl

end Declaring

/-! ## From bytes to a block -/

theorem blockOfBytes_eq {bytes : Bytes} (hheld : bytes.length ≤ maxBytes) (synthetic : Bool) :
    blockOfBytes synthetic bytes = .ok ((TypeDecl.ofBytes bytes).map (·.block synthetic)) := by
  rw [blockOfBytes, bind_ok (Decoder.decode_eq hheld), TypeDecl.ofBytes]
  cases hdecode : ClassFile.decode bytes with
  | error e => rfl
  | ok c =>
    have hc := ClassFile.isBounded_of_decode hdecode
    show ((Declaring.type c).run >>= _) =
      .ok (((TypeDecl.ofClassFile c).mapError DeclError.signature).map (·.block synthetic))
    rw [bind_ok (Declaring.answers_type hc)]
    cases hdeclare : TypeDecl.ofClassFile c with
    | error e => rfl
    | ok t =>
      show (Rendering.writeBlock synthetic t >>= _) = _
      rw [bind_ok (Rendering.writeBlock_eq (Declaring.isHeldDecl hc hdeclare))]
      rfl

/-- **On a machine nothing traps, whatever the input: the bytes of a class are decoded, its declaration is
made and its block is written, and descriptors and signatures are read, with the same answers as without
limits.** -/
theorem never_traps :
    (∀ bytes : HeldBytes, Decoder.decode bytes = .ok (ClassFile.decode bytes) ∧
      ∀ synthetic, blockOfBytes synthetic bytes =
        .ok ((TypeDecl.ofBytes bytes).map (·.block synthetic))) ∧
    (∀ (form : Signature.Form) (source : HeldText),
      Scanner.parseFieldType form source = .ok (Signature.parseFieldType form source) ∧
      Scanner.parseMethodType form source = .ok (Signature.parseMethodType form source)) ∧
    ∀ source : HeldText, Scanner.parseClassType source = .ok (Signature.parseClassType source) := by
  refine ⟨fun bytes => ⟨?_, fun synthetic => ?_⟩, fun form source => ⟨?_, ?_⟩, fun source => ?_⟩
  · exact Decoder.decode_eq bytes.property
  · exact blockOfBytes_eq bytes.property synthetic
  · exact Scanner.parseFieldType_eq source.property
  · exact Scanner.parseMethodType_eq source.property
  · exact Scanner.parseClassType_eq source.property

end ApiSurface.Machine
