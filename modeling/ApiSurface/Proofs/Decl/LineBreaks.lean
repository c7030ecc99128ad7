import ApiSurface.Proofs.Decl.Overloads

/-!
Line feeds in the lines of a block.

What the source form adds to the names of a class file has no line feed. So a line of a block can have
one only if some text of the class file has one: the name of the class, of a supertype or of a member, a
descriptor, a signature or the name of an exception.
-/

namespace ApiSurface

/-- The text has no line feed. -/
def IsOneLine (text : String) : Prop :=
  '\n' ∉ text.toList

instance (text : String) : Decidable (IsOneLine text) :=
  inferInstanceAs (Decidable (_ ∉ _))

@[simp] theorem isOneLine_append {a b : String} :
    IsOneLine (a ++ b) ↔ IsOneLine a ∧ IsOneLine b := by
  simp [IsOneLine, not_or]

theorem isOneLine_intercalate {separator : String} {texts : List String}
    (hseparator : IsOneLine separator) (h : ∀ text ∈ texts, IsOneLine text) :
    IsOneLine (separator.intercalate texts) :=
  notMem_texts hseparator h

theorem isOneLine_join {texts : List String} (h : ∀ text ∈ texts, IsOneLine text) :
    IsOneLine (String.join texts) := by
  rw [IsOneLine, String.toList_join]
  intro hmem
  obtain ⟨text, htext, hbreak⟩ := List.mem_flatMap.1 hmem
  exact h text htext hbreak

theorem isOneLine_commaSeparated {texts : List String} (h : ∀ text ∈ texts, IsOneLine text) :
    IsOneLine (commaSeparated texts) :=
  isOneLine_intercalate (by decide) h

theorem isOneLine_binaryName {internal : String} (h : IsOneLine internal) :
    IsOneLine (binaryName internal) := by
  rw [IsOneLine, binaryName, String.toList_map]
  intro hmem
  obtain ⟨c, hc, heq⟩ := List.mem_map.1 hmem
  split at heq
  · cases heq
  · exact h (heq ▸ hc)

/-! ## Types -/

theorem isOneLine_of_writtenName {isOutermost : Bool} {name : String}
    (h : '\n' ∉ writtenName isOutermost name) : IsOneLine name :=
  fun hmem => h (mem_writtenName hmem (by decide))

theorem Primitive.isOneLine_keyword (type : Primitive) : IsOneLine type.keyword := by
  cases type <;> decide

mutual

/-- The source form of a type has no line feed that its written form does not have. -/
theorem JavaType.isOneLine_source : ∀ t : JavaType, '\n' ∉ t.written → IsOneLine t.source
  | .primitive type, _ => type.isOneLine_keyword
  | .variable name, h => by
    simp only [JavaType.written, List.mem_cons, List.mem_append, not_or] at h
    rw [JavaType.source]
    exact h.2.1
  | .array element, h => by
    simp only [JavaType.written, List.mem_cons, not_or] at h
    rw [JavaType.source, isOneLine_append]
    exact ⟨element.isOneLine_source h.2, by decide⟩
  | .object outermost inner, h => by
    simp only [JavaType.written, List.mem_cons, List.mem_append, not_or] at h
    rw [JavaType.source, isOneLine_append]
    exact ⟨outermost.isOneLine_source true h.2.1, isOneLine_sourceOfInner inner h.2.2.1⟩

theorem Segment.isOneLine_source : ∀ (s : Segment) (isOutermost : Bool),
    '\n' ∉ s.written isOutermost → IsOneLine s.source
  | .mk name [], isOutermost, h => by
    rw [Segment.written] at h
    rw [Segment.source]
    exact isOneLine_of_writtenName h
  | .mk name (arg :: args), isOutermost, h => by
    simp only [Segment.written, List.mem_cons, List.mem_append, not_or] at h
    simp only [Segment.source, isOneLine_append]
    exact ⟨⟨⟨⟨isOneLine_of_writtenName h.1, by decide⟩, arg.isOneLine_source h.2.2.1⟩,
      isOneLine_sourceOfMoreArgs args h.2.2.2.1⟩, by decide⟩

theorem TypeArg.isOneLine_source : ∀ a : TypeArg, '\n' ∉ a.written → IsOneLine a.source
  | .any, _ => by simp [TypeArg.source, IsOneLine]
  | .upper bound, h => by
    simp only [TypeArg.written, List.mem_cons, not_or] at h
    rw [TypeArg.source, isOneLine_append]
    exact ⟨by decide, bound.isOneLine_source h.2⟩
  | .lower bound, h => by
    simp only [TypeArg.written, List.mem_cons, not_or] at h
    rw [TypeArg.source, isOneLine_append]
    exact ⟨by decide, bound.isOneLine_source h.2⟩
  | .exactly type, h => by
    rw [TypeArg.written] at h
    rw [TypeArg.source]
    exact type.isOneLine_source h

theorem isOneLine_sourceOfInner : ∀ inner : List Segment,
    '\n' ∉ writtenInner inner → IsOneLine (sourceOfInner inner)
  | [], _ => by simp [sourceOfInner, IsOneLine]
  | s :: rest, h => by
    simp only [writtenInner, List.mem_cons, List.mem_append, not_or] at h
    simp only [sourceOfInner, isOneLine_append]
    exact ⟨⟨by decide, s.isOneLine_source false h.2.1⟩, isOneLine_sourceOfInner rest h.2.2⟩

theorem isOneLine_sourceOfMoreArgs : ∀ args : List TypeArg,
    '\n' ∉ writtenArgs args → IsOneLine (sourceOfMoreArgs args)
  | [], _ => by simp [sourceOfMoreArgs, IsOneLine]
  | a :: rest, h => by
    simp only [writtenArgs, List.mem_append, not_or] at h
    simp only [sourceOfMoreArgs, isOneLine_append]
    exact ⟨⟨by decide, a.isOneLine_source h.1⟩, isOneLine_sourceOfMoreArgs rest h.2⟩

end

theorem ReturnType.isOneLine_source (r : ReturnType) (h : '\n' ∉ r.written) : IsOneLine r.source := by
  cases r with
  | void => simp [source, IsOneLine]
  | value t => exact t.isOneLine_source h

/-- A bound that shows is one that is written. -/
theorem TypeParam.isOneLine_source (p : TypeParam) (h : '\n' ∉ p.written) : IsOneLine p.source := by
  simp only [written, List.mem_append, List.mem_cons, List.mem_flatMap, not_or, not_exists, not_and] at h
  obtain ⟨hname, -, hclass, hinterfaces⟩ := h
  have hbounds : ∀ t ∈ p.bounds, IsOneLine t.source := by
    intro t ht
    rw [bounds, List.mem_append] at ht
    obtain ht | ht := ht
    · obtain ⟨hclassBound, -⟩ := Option.mem_filter_iff.1 (Option.mem_toList.1 ht)
      exact t.isOneLine_source (by simpa [Option.mem_def.1 hclassBound] using hclass)
    · exact t.isOneLine_source (hinterfaces t ht).2
  rw [source]
  cases hb : p.bounds with
  | nil => exact hname
  | cons first rest =>
    simp only [isOneLine_append]
    refine ⟨⟨hname, by decide⟩, isOneLine_intercalate (by decide) fun text htext => ?_⟩
    obtain ⟨t, ht, rfl⟩ := List.mem_map.1 htext
    exact hbounds t (by rw [hb]; exact ht)

theorem isOneLine_sourceOfTypeParams {params : List TypeParam}
    (h : ∀ p ∈ params, IsOneLine p.source) : IsOneLine (sourceOfTypeParams params) := by
  simp only [sourceOfTypeParams, isOneLine_append]
  exact ⟨⟨by decide, isOneLine_commaSeparated (by simpa using h)⟩, by decide⟩

/-- The source forms of the parts of a type without a line feed. -/
structure MethodType.HasOneLineParts (m : MethodType) : Prop where
  typeParams : ∀ p ∈ m.typeParams, IsOneLine p.source
  params : ∀ t ∈ m.params, IsOneLine t.source
  result : IsOneLine m.result.source
  throws : ∀ t ∈ m.throws, IsOneLine t.source

theorem MethodType.hasOneLineParts {m : MethodType} (h : IsOneLine m.text) : m.HasOneLineParts := by
  rw [IsOneLine, text, String.toList_ofList] at h
  simp only [written, List.mem_append, List.mem_cons, List.mem_flatMap, not_or, not_exists, not_and] at h
  obtain ⟨htypeParams, -, hparams, -, hresult, hthrows⟩ := h
  refine ⟨fun p hp => p.isOneLine_source fun hmem => htypeParams ?_,
    fun t ht => t.isOneLine_source (hparams t ht), m.result.isOneLine_source hresult,
    fun t ht => t.isOneLine_source (hthrows t ht).2⟩
  rw [writtenTypeParams, if_neg (by simpa using List.ne_nil_of_mem hp)]
  exact List.mem_cons_of_mem _ (List.mem_append_left _ (List.mem_flatMap.2 ⟨p, hp, hmem⟩))

/-! ## Members -/

/-- The texts of a member in its class file. -/
def Member.texts (m : Member) : List String :=
  m.name :: m.descriptor :: (m.signature.toList ++ m.exceptions)

variable {owner : String} {kind : TypeKind} {m : Member}

namespace MethodDecl

variable {d : MethodDecl}

/-- The type of a method is read from its descriptor or from its signature. -/
theorem exists_type_of_ofMember (h : ofMember owner m = .ok d) : ∃ type : MethodType,
    type.text ∈ m.texts ∧ d = ⟨owner, m.access, m.name, m.descriptor, type.typeParams, type.params,
      type.result, if type.throws.isEmpty then m.exceptions.map JavaType.ofInternalName else type.throws⟩ := by
  obtain ⟨erased, hparse, type, htype, rfl⟩ := ofMember_eq_ok.1 h
  refine ⟨type, ?_, rfl⟩
  cases hgeneric : genericType? erased.params.length m.signature with
  | none =>
    rw [hgeneric, Option.getD_none] at htype
    rw [htype, (Signature.parseMethodType_eq_ok.1 hparse).2]
    simp [Member.texts]
  | some generic =>
    rw [hgeneric, Option.getD_some] at htype
    obtain ⟨text, htext, hread, -⟩ := genericType?_eq_some.1 hgeneric
    rw [htype, (Signature.parseMethodType_eq_ok.1 hread).2]
    simp [Member.texts, Option.mem_def.1 htext]

theorem isOneLine_paramSources (varargs : Bool) : ∀ {ts : List JavaType},
    (∀ t ∈ ts, IsOneLine t.source) → ∀ text ∈ paramSources varargs ts, IsOneLine text
  | [], _ => by simp [paramSources]
  | [last], h => by
    have hlast := h last List.mem_cons_self
    rw [paramSources_singleton]
    simp only [List.mem_singleton, forall_eq]
    obtain heq | ⟨element, rfl, heq⟩ := sourceOfLast_cases varargs last
    · rwa [heq]
    · rw [JavaType.source, isOneLine_append] at hlast
      rw [heq, isOneLine_append]
      exact ⟨hlast.1, by decide⟩
  | param :: next :: rest, h => by
    obtain ⟨hparam, hrest⟩ := List.forall_mem_cons.1 h
    rw [paramSources_cons_cons]
    exact List.forall_mem_cons.2 ⟨hparam, isOneLine_paramSources varargs hrest⟩

/-- What a method is put together from has no line feed. -/
structure HasOneLineParts (d : MethodDecl) : Prop where
  declaringType : IsOneLine d.declaringType
  name : IsOneLine d.name
  typeParams : ∀ p ∈ d.typeParams, IsOneLine p.source
  params : ∀ t ∈ d.params, IsOneLine t.source
  result : IsOneLine d.result.source
  throws : ∀ t ∈ d.throws, IsOneLine t.source

theorem HasOneLineParts.source (h : d.HasOneLineParts) : IsOneLine (d.source kind) := by
  have hmodifiers : ∀ modifier ∈ methodModifiers, IsOneLine (modifier ++ " ") := by decide
  simp only [MethodDecl.source, isOneLine_append]
  refine ⟨⟨⟨⟨⟨⟨?modifiers, ?typeParams⟩, ?subject⟩, by decide⟩, ?params⟩, by decide⟩, ?throws⟩
  case modifiers =>
    refine isOneLine_join fun text htext => ?_
    obtain ⟨modifier, hmodifier, rfl⟩ := List.mem_map.1 htext
    exact hmodifiers modifier (modifiers_subset _ _ hmodifier)
  case typeParams =>
    split
    · decide
    · exact isOneLine_append.2 ⟨isOneLine_sourceOfTypeParams h.typeParams, by decide⟩
  case subject =>
    rw [subject]
    split
    · exact h.declaringType
    · exact isOneLine_append.2 ⟨isOneLine_append.2 ⟨h.result, by decide⟩, h.name⟩
  case params => exact isOneLine_commaSeparated (isOneLine_paramSources _ h.params)
  case throws =>
    split
    · decide
    · exact isOneLine_append.2
        ⟨by decide, isOneLine_commaSeparated (List.forall_mem_map.2 h.throws)⟩

theorem hasOneLineParts_of_ofMember (howner : IsOneLine owner) (hm : ∀ text ∈ m.texts, IsOneLine text)
    (h : ofMember owner m = .ok d) : d.HasOneLineParts := by
  obtain ⟨type, htext, rfl⟩ := exists_type_of_ofMember h
  have hparts := MethodType.hasOneLineParts (hm _ htext)
  refine ⟨howner, hm _ List.mem_cons_self, hparts.typeParams, hparts.params, hparts.result, ?_⟩
  dsimp only
  split
  · rintro t ht
    obtain ⟨internal, hinternal, rfl⟩ := List.mem_map.1 ht
    rw [JavaType.ofInternalName, JavaType.source_ofName]
    exact isOneLine_binaryName (hm _ (by simp [Member.texts, hinternal]))
  · exact hparts.throws

end MethodDecl

namespace FieldDecl

variable {d : FieldDecl}

/-- The type of a field is read from its descriptor or from its signature. -/
theorem exists_type_of_ofMember (h : ofMember owner m = .ok d) :
    d.type.text ∈ m.texts ∧ d.name = m.name := by
  obtain ⟨erased, hparse, rfl⟩ := ofMember_eq_ok.1 h
  refine ⟨?_, rfl⟩
  cases hgeneric : genericType? m.signature with
  | none =>
    rw [Option.getD_none, (Signature.parseFieldType_eq_ok.1 hparse).2]
    simp [Member.texts]
  | some found =>
    obtain ⟨text, htext, hread⟩ := genericType?_eq_some.1 hgeneric
    rw [Option.getD_some, (Signature.parseFieldType_eq_ok.1 hread).2]
    simp [Member.texts, Option.mem_def.1 htext]

theorem isOneLine_source (hm : ∀ text ∈ m.texts, IsOneLine text) (h : ofMember owner m = .ok d) :
    IsOneLine d.source := by
  obtain ⟨htext, hname⟩ := exists_type_of_ofMember h
  have htype := hm _ htext
  rw [IsOneLine, JavaType.text, String.toList_ofList] at htype
  have hmodifiers : ∀ modifier ∈ reservedWords, IsOneLine (modifier ++ " ") := by decide
  simp only [source, isOneLine_append]
  refine ⟨⟨⟨isOneLine_join fun text htext => ?_, d.type.isOneLine_source htype⟩, by decide⟩, ?_⟩
  · obtain ⟨modifier, hmodifier, rfl⟩ := List.mem_map.1 htext
    exact hmodifiers modifier (d.modifiers_subset hmodifier)
  · rw [hname]
    exact hm _ List.mem_cons_self

end FieldDecl

/-! ## Types -/

/-- The texts of a class file that reach the lines of its block. -/
def ClassFile.texts (c : ClassFile) : List String :=
  c.name :: (c.superclass.toList ++ (c.interfaces ++ (c.methods ++ c.fields).flatMap Member.texts))

namespace TypeDecl

variable {c : ClassFile} {t : TypeDecl}

theorem isOneLine_header (hname : IsOneLine t.name)
    (hsuperclass : ∀ name ∈ t.superclass, IsOneLine name)
    (hinterfaces : ∀ name ∈ t.interfaces, IsOneLine name) : IsOneLine t.header := by
  have hmodifier : IsOneLine t.modifier.keywords := by cases t.modifier <;> decide
  rw [header]
  split
  · exact isOneLine_append.2 ⟨by decide, hname⟩
  · split
    · exact isOneLine_append.2 ⟨by decide, hname⟩
    · simp only [isOneLine_append]
      exact ⟨⟨⟨by decide, hname⟩, by decide⟩, isOneLine_commaSeparated hinterfaces⟩
  · split
    · next hfound =>
      simp only [isOneLine_append]
      exact ⟨⟨⟨⟨hmodifier, by decide⟩, hname⟩, by decide⟩,
        hsuperclass _ (Option.mem_filter_iff.1 (Option.mem_def.2 hfound)).1⟩
    · simp only [isOneLine_append]
      exact ⟨⟨hmodifier, by decide⟩, hname⟩

/-- **A line of a block has no line feed unless a text of the class file has one.** -/
theorem isOneLine_of_mem_block (ht : ofClassFile c = .ok t) (hc : ∀ text ∈ c.texts, IsOneLine text)
    {synthetic : Bool} : ∀ line ∈ t.block synthetic, IsOneLine line.text := by
  have hdeclared := isDeclaredBy_of_ofClassFile ht
  have hname : IsOneLine (binaryName c.name) := isOneLine_binaryName (hc _ List.mem_cons_self)
  have hmember {m : Member} (hm : m ∈ c.methods ++ c.fields) : ∀ text ∈ m.texts, IsOneLine text :=
    fun text htext => hc text (by
      simp only [ClassFile.texts, List.mem_cons, List.mem_append, List.mem_flatMap]
      exact .inr (.inr (.inr ⟨m, List.mem_append.1 hm, htext⟩)))
  intro line hline
  obtain rfl | ⟨d, hd, rfl⟩ | ⟨d, hd, rfl⟩ := mem_block_iff.1 hline
  · refine isOneLine_header (by rw [hdeclared.name]; exact hname) ?_ ?_
    · intro name hmem
      rw [hdeclared.superclass] at hmem
      split at hmem
      · obtain ⟨internal, hinternal, rfl⟩ := Option.map_eq_some_iff.1 (Option.mem_def.1 hmem)
        exact isOneLine_binaryName (hc _ (by simp [ClassFile.texts, hinternal]))
      · cases hmem
    · rw [hdeclared.interfaces]
      exact List.forall_mem_map.2 fun internal hinternal =>
        isOneLine_binaryName (hc _ (by simp [ClassFile.texts, hinternal]))
  · obtain ⟨m, hm, hof⟩ := (mem_of_mapM_eq_ok hdeclared.methods d).1 (List.mem_of_mem_filter hd)
    exact (MethodDecl.hasOneLineParts_of_ofMember hname
      (hmember (List.mem_append_left _ hm)) hof).source
  · obtain ⟨m, hm, hof⟩ := (mem_of_mapM_eq_ok hdeclared.fields d).1 (List.mem_of_mem_filter hd)
    exact FieldDecl.isOneLine_source (hmember (List.mem_append_right _ hm)) hof

end TypeDecl

end ApiSurface
