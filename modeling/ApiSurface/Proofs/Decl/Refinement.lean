import ApiSurface.Proofs.Decl.Exports
import ApiSurface.Proofs.Signature.RoundTrip

/-!
What the signature of a member can change in its declaration.

A descriptor is a signature too, and as one it has the same type. A signature that cannot be read, or that
has another number of parameters, is passed over. So whether a class is declared at all is up to the
descriptors of its members, and a signature replaces the types of a member one for one
(`signature_only_refines`).
-/

namespace ApiSurface

/-! ## Descriptors are signatures -/

theorem JavaType.Proper.generic : ∀ {t : JavaType}, t.Proper .descriptor → t.Proper .generic
  | .primitive type, _ => .primitive type
  | .object (.mk name args) inner, h => by
    cases h with
    | object houter hinner _ =>
      cases houter with
      | mk hname hargs _ =>
        have hnoArgs (a : TypeArg) (ha : a ∈ args) : False := nomatch hargs (List.ne_nil_of_mem ha)
        have hnoInner (s : Segment) (hs : s ∈ inner) : False := nomatch hinner (List.ne_nil_of_mem hs)
        refine .object (.mk hname (fun _ => rfl) fun a ha => (hnoArgs a ha).elim) (fun _ => rfl) ?_
        exact fun s hs => (hnoInner s hs).elim
  | .variable _, h => by
    cases h with
    | typeVariable hform => exact nomatch hform
  | .array element, h => by
    cases h with
    | array helement => exact .array helement.generic

/-- The limits are the same for both forms. -/
theorem JavaType.WellFormed.generic {t : JavaType} (h : t.WellFormed .descriptor) : t.WellFormed .generic :=
  ⟨h.1.generic, h.2⟩

theorem MethodType.WellFormed.generic {m : MethodType} (h : m.WellFormed .descriptor) :
    m.WellFormed .generic where
  typeParams := h.typeParams
  params t ht := (h.params t ht).generic
  result t ht := (h.result t ht).generic
  throws t ht := ⟨(h.throws t ht).1, (h.throws t ht).2.generic⟩
  erased := nofun

/-- What is read from a descriptor is read from the same text as a signature. -/
theorem Signature.parseMethodType_generic {source : String} {type : MethodType}
    (h : parseMethodType .descriptor source = .ok type) : parseMethodType .generic source = .ok type := by
  obtain ⟨⟨htype, hparted⟩, htext⟩ := parseMethodType_eq_ok.1 h
  exact parseMethodType_eq_ok.2 ⟨⟨htype.generic, hparted⟩, htext⟩

/-! ## Members -/

/-- The member with this signature, or with none, in place of its own. -/
def Member.signed (m : Member) (signature : Option String) : Member :=
  { m with signature }

namespace MethodDecl

variable {owner : String} {m : Member} {erased : MethodType} {text : String}

theorem exists_ofMember_iff : (∃ d, ofMember owner m = .ok d) ↔
    ∃ type, Signature.parseMethodType .descriptor m.descriptor = .ok type := by
  constructor
  · rintro ⟨d, h⟩
    obtain ⟨erased, herased, -⟩ := ofMember_eq_ok.1 h
    exact ⟨erased, herased⟩
  · rintro ⟨erased, herased⟩
    exact ⟨_, ofMember_eq_ok.2 ⟨erased, herased, _, rfl, rfl⟩⟩

/-- The type that a signature leads to where the descriptor says `erased`. -/
def chosenType (erased : MethodType) (signature : Option String) : MethodType :=
  (genericType? erased.params.length signature).getD erased

theorem chosenType_of_error {e : Signature.Error} (h : Signature.parseMethodType .generic text = .error e) :
    chosenType erased (some text) = erased := by
  simp [chosenType, genericType?, h]

theorem chosenType_of_ok {type : MethodType} (h : Signature.parseMethodType .generic text = .ok type) :
    chosenType erased (some text) = if type.params.length = erased.params.length then type else erased := by
  rw [chosenType, genericType?, Option.map_some, h]
  dsimp only
  split <;> rfl

/-- It has as many parameters as the descriptor, whatever the signature is. -/
theorem length_params_chosenType (signature : Option String) :
    (chosenType erased signature).params.length = erased.params.length := by
  cases hgeneric : genericType? erased.params.length signature with
  | none => rw [chosenType, hgeneric, Option.getD_none]
  | some type =>
    obtain ⟨_, -, -, hcount⟩ := genericType?_eq_some.1 hgeneric
    rw [chosenType, hgeneric, Option.getD_some, hcount]

/-- The declaration of a method of this type. -/
def ofType (owner : String) (m : Member) (type : MethodType) : MethodDecl :=
  ⟨owner, m.access, m.name, m.descriptor, type.typeParams, type.params, type.result,
    if type.throws.isEmpty then m.exceptions.map JavaType.ofInternalName else type.throws⟩

/-- Only the type is up to the signature. -/
theorem ofMember_signed (h : Signature.parseMethodType .descriptor m.descriptor = .ok erased)
    (signature : Option String) :
    ofMember owner (m.signed signature) = .ok (ofType owner m (chosenType erased signature)) :=
  ofMember_eq_ok.2 ⟨erased, h, _, rfl, rfl⟩

end MethodDecl

namespace FieldDecl

theorem exists_ofMember_iff {owner : String} {m : Member} : (∃ d, ofMember owner m = .ok d) ↔
    ∃ type, Signature.parseFieldType .descriptor m.descriptor = .ok type := by
  constructor
  · rintro ⟨d, h⟩
    obtain ⟨erased, herased, -⟩ := ofMember_eq_ok.1 h
    exact ⟨erased, herased⟩
  · rintro ⟨erased, herased⟩
    exact ⟨_, ofMember_eq_ok.2 ⟨erased, herased, rfl⟩⟩

end FieldDecl

/-! ## Classes -/

namespace TypeDecl

theorem exists_ofClassFile_iff {c : ClassFile} : (∃ t, ofClassFile c = .ok t) ↔
    (∀ m ∈ c.methods, ∃ d, MethodDecl.ofMember (binaryName c.name) m = .ok d) ∧
      ∀ m ∈ c.fields, ∃ d, FieldDecl.ofMember (binaryName c.name) m = .ok d := by
  rw [← exists_mapM_eq_ok_iff, ← exists_mapM_eq_ok_iff]
  constructor
  · rintro ⟨t, h⟩
    have hdeclared := isDeclaredBy_of_ofClassFile h
    exact ⟨⟨t.methods, hdeclared.methods⟩, t.fields, hdeclared.fields⟩
  · rintro ⟨⟨methods, hmethods⟩, fields, hfields⟩
    rw [ofClassFile]
    simp only [hmethods, hfields, bind, Except.bind]
    exact ⟨_, rfl⟩

end TypeDecl

/-- A signature refines and never breaks: a class is declared exactly when the descriptors of its members
can be read. A method with a readable descriptor is declared whatever its signature is, with the name,
the flags, the descriptor and the number of parameters that it has without. A signature that cannot be
read, that has another number of parameters or that is the descriptor itself makes no difference, and any
other gives its own type parameters, parameters and result. -/
theorem signature_only_refines :
    (∀ c : ClassFile, (∃ t, TypeDecl.ofClassFile c = .ok t) ↔
      (∀ m ∈ c.methods, ∃ type, Signature.parseMethodType .descriptor m.descriptor = .ok type) ∧
        ∀ m ∈ c.fields, ∃ type, Signature.parseFieldType .descriptor m.descriptor = .ok type) ∧
    ∀ (owner : String) (m : Member) (erased : MethodType) (text : String),
      Signature.parseMethodType .descriptor m.descriptor = .ok erased →
      ∃ d plain, MethodDecl.ofMember owner (m.signed (some text)) = .ok d ∧
        MethodDecl.ofMember owner (m.signed none) = .ok plain ∧
        d.params.length = erased.params.length ∧ d.name = m.name ∧ d.access = m.access ∧
        d.descriptor = m.descriptor ∧
        ((∃ e, Signature.parseMethodType .generic text = .error e) → d = plain) ∧
        (∀ type, Signature.parseMethodType .generic text = .ok type →
          if type.params.length = erased.params.length then
            d.typeParams = type.typeParams ∧ d.params = type.params ∧ d.result = type.result
          else d = plain) ∧
        (text = m.descriptor → d = plain) := by
  refine ⟨fun c => ?_, fun owner m erased text h => ?_⟩
  · simp only [TypeDecl.exists_ofClassFile_iff, MethodDecl.exists_ofMember_iff,
      FieldDecl.exists_ofMember_iff]
  · refine ⟨.ofType owner m (MethodDecl.chosenType erased (some text)), .ofType owner m erased,
      MethodDecl.ofMember_signed h (some text), MethodDecl.ofMember_signed h none,
      MethodDecl.length_params_chosenType (some text), rfl, rfl, rfl, ?_, fun type htype => ?_, ?_⟩
    · rintro ⟨e, hrejected⟩
      rw [MethodDecl.chosenType_of_error hrejected]
    · rw [MethodDecl.chosenType_of_ok htype]
      split
      · exact ⟨rfl, rfl, rfl⟩
      · rfl
    · rintro rfl
      rw [MethodDecl.chosenType_of_ok (Signature.parseMethodType_generic h), if_pos rfl]

/-- A method with a signature and without exceptions of its own. -/
def sampleSorter : Member where
  access := ⟨1⟩
  name := "least"
  descriptor := "([Ljava/lang/Comparable;I)Ljava/lang/Comparable;"
  signature := some Signature.sampleMethodText
  exceptions := []

theorem signature_only_refines_sampleSorter :
    ∃ erased, Signature.parseMethodType .descriptor sampleSorter.descriptor = .ok erased ∧
    ∃ d plain, MethodDecl.ofMember "Sorter" (sampleSorter.signed sampleSorter.signature) = .ok d ∧
      MethodDecl.ofMember "Sorter" (sampleSorter.signed none) = .ok plain ∧
      d.params.length = erased.params.length ∧ d.typeParams = Signature.sampleMethod.typeParams := by
  have hdescriptor : Signature.parseMethodType .descriptor sampleSorter.descriptor = .ok
      ⟨[], [.array (.ofName "java.lang.Comparable"), .primitive .int],
        .value (.ofName "java.lang.Comparable"), []⟩ := by cbv
  have hsignature : Signature.parseMethodType .generic Signature.sampleMethodText =
      .ok Signature.sampleMethod := by cbv
  obtain ⟨d, plain, hd, hplain, hcount, -, -, -, -, hrefined, -⟩ :=
    signature_only_refines.2 "Sorter" sampleSorter _ Signature.sampleMethodText hdescriptor
  exact ⟨_, hdescriptor, d, plain, hd, hplain, hcount, (hrefined _ hsignature).1⟩

end ApiSurface
