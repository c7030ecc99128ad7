import ApiSurface.Proofs.Decl.Exports
import ApiSurface.Proofs.Decl.SourceNames
import ApiSurface.Proofs.Signature.RoundTrip

/-!
Members that the report keeps apart.

A report shows a text once, so a member would be lost if another one had the same text. Among members
whose names can be spelled and that have no generic signature this does not happen: a method is cut at
its first `(` and `)`, what stands in front are words with blanks between them, and the modifiers are
those words in front that no type and no member can be called. The parameters are words again.
-/

namespace ApiSurface

/-! ## Words in a text -/

/-- Words with separators between them have no sign in them that stands around words. -/
theorem notMem_intercalate {separator : String} {words : List String} {c : Char}
    (h : ∀ word ∈ words, IsWord word) (hc : c ∈ [' ', '(', ')', ','])
    (hseparator : c ∉ separator.toList) : c ∉ (separator.intercalate words).toList :=
  notMem_texts hseparator fun word hword => (h word hword).notMem c hc

/-- Words can be read off a text that has them with a separator between them. -/
theorem words_injective {separator : String} {words words' : List String} {c : Char}
    (h : ∀ word ∈ words, IsWord word) (h' : ∀ word ∈ words', IsWord word)
    (hc : c ∈ [' ', '(', ')', ',']) (hseparator : separator.toList.head? = some c)
    (heq : separator.intercalate words = separator.intercalate words') : words = words' :=
  texts_injective hseparator (fun word hword => ⟨(h word hword).ne_empty, (h word hword).notMem c hc⟩)
    (fun word hword => ⟨(h' word hword).ne_empty, (h' word hword).notMem c hc⟩) heq

/-! ## Modifiers in front of a member -/

/-- The modifiers of methods. -/
def methodModifiers : List String :=
  ["public", "protected", "private", "abstract", "default", "static", "final", "synchronized",
  "native", "strictfp"]

theorem methodModifiers_subset : methodModifiers ⊆ reservedWords := by
  decide

/-- Modifiers, each with a blank behind it, in front of other words. -/
theorem join_append_words {words : List String} (h : words ≠ []) (modifiers : List String) :
    String.join (modifiers.map (· ++ " ")) ++ " ".intercalate words =
      " ".intercalate (modifiers ++ words) := by
  induction modifiers with
  | nil => simp [String.join]
  | cons modifier rest ih =>
    rw [List.cons_append, String.intercalate_cons_of_ne_nil (by simp [h]), ← ih]
    simp [← String.toList_inj, String.toList_join]

theorem mem_keywordsOf {table : List (UInt16 × String)} {flags : AccessFlags} {word : String}
    (h : word ∈ keywordsOf table flags) : word ∈ table.map (·.2) := by
  obtain ⟨row, hrow, rfl⟩ := List.mem_map.1 h
  exact List.mem_map_of_mem (List.mem_filter.1 hrow).1

theorem MethodDecl.modifiers_subset (owner : TypeKind) (m : MethodDecl) :
    m.modifiers owner ⊆ methodModifiers := by
  have hvisibility : m.visibilityKeyword ⊆ methodModifiers := by
    rw [visibilityKeyword]
    cases m.visibility <;> decide
  have hdefault : (if m.isDefault owner then ["default"] else []) ⊆ methodModifiers := by
    split <;> decide
  have hkeywords {table : List (UInt16 × String)} (h : table.map (·.2) ⊆ methodModifiers) :
      keywordsOf table m.access ⊆ methodModifiers :=
    fun _ hword => h (mem_keywordsOf hword)
  simp only [modifiers, List.append_subset]
  exact ⟨⟨⟨hvisibility, hkeywords (by decide)⟩, hdefault⟩, hkeywords (by decide)⟩

/-- Words that are no modifiers, found behind the modifiers. -/
theorem words_eq_of_append_eq {modifiers modifiers' words words' : List String}
    (hmodifiers : modifiers ⊆ methodModifiers) (hmodifiers' : modifiers' ⊆ methodModifiers)
    (hwords : ∀ word ∈ words, word ∉ methodModifiers)
    (hwords' : ∀ word ∈ words', word ∉ methodModifiers)
    (heq : modifiers ++ words = modifiers' ++ words') : words = words' := by
  have hfilter {modifiers words : List String} (hmodifiers : modifiers ⊆ methodModifiers)
      (hwords : ∀ word ∈ words, word ∉ methodModifiers) :
      (modifiers ++ words).filter (· ∉ methodModifiers) = words := by
    rw [List.filter_append, List.filter_eq_nil_iff.2 (by simpa using fun _ h => hmodifiers h), List.nil_append,
      List.filter_eq_self.2 (by simpa using hwords)]
  rw [← hfilter hmodifiers hwords, heq, hfilter hmodifiers' hwords']

/-! ## Results and parameters -/

/-- The source form of a result that can be spelled is a word and no modifier. -/
def ReturnType.IsSpelled (r : ReturnType) : Prop :=
  ∀ t, r = .value t → t.IsSpelled

namespace ReturnType

variable {r r' : ReturnType}

theorem isWord_source (h : r.IsSpelled) : IsWord r.source := by
  cases r with
  | void => exact isWord_of_mem_reserved (by decide)
  | value t => exact JavaType.isWord_source (h t rfl)

theorem notMem_methodModifiers (h : r.IsSpelled) : r.source ∉ methodModifiers := by
  cases r with
  | void => decide
  | value t =>
    cases h t rfl with
    | primitive p => cases p <;> decide
    | ofName hname =>
      exact fun hmem => JavaType.notMem_reservedWords_of_isReference (.ofName hname) trivial
        (methodModifiers_subset hmem)
    | array helement =>
      exact fun hmem => JavaType.notMem_reservedWords_of_isReference (.array helement) trivial
        (methodModifiers_subset hmem)

/-- No type is called `void`. -/
theorem source_value_ne_void {t : JavaType} (h : t.IsSpelled) : t.source ≠ "void" := by
  have hreference (href : t.IsReference) : t.source ≠ "void" := fun heq =>
    JavaType.notMem_reservedWords_of_isReference h href (by rw [heq]; decide)
  cases h with
  | primitive p => cases p <;> decide
  | ofName => exact hreference trivial
  | array => exact hreference trivial

theorem source_injective (h : r.IsSpelled) (h' : r'.IsSpelled) (heq : r.source = r'.source) :
    r = r' := by
  cases r with
  | void =>
    cases r' with
    | void => rfl
    | value t' => exact absurd heq.symm (source_value_ne_void (h' t' rfl))
  | value t =>
    cases r' with
    | void => exact absurd heq (source_value_ne_void (h t rfl))
    | value t' => exact congrArg value (JavaType.source_injective (h t rfl) (h' t' rfl) heq)

end ReturnType

namespace MethodDecl

/-- The last parameter of a method. -/
def sourceOfLast (varargs : Bool) (t : JavaType) : String :=
  if varargs then sourceOfVarargs t else t.source

/-- The last parameter reads like any other one, or is an array with dots for one dimension. -/
theorem sourceOfLast_cases (varargs : Bool) (t : JavaType) :
    sourceOfLast varargs t = t.source ∨
      ∃ element, t = .array element ∧ sourceOfLast varargs t = element.source ++ "..." := by
  cases varargs with
  | false => exact .inl rfl
  | true =>
    cases t with
    | array element => exact .inr ⟨element, rfl, rfl⟩
    | primitive | object | «variable» => exact .inl rfl

theorem isWord_sourceOfLast {t : JavaType} (varargs : Bool) (h : t.IsSpelled) :
    IsWord (sourceOfLast varargs t) := by
  obtain heq | ⟨element, rfl, heq⟩ := sourceOfLast_cases varargs t
  · rw [heq]
    exact JavaType.isWord_source h
  · rw [heq]
    cases h with
    | array helement =>
      refine isWord_of_parts (by simp) fun c hc => ?_
      rw [String.toList_append, List.mem_append] at hc
      obtain helement' | hdot := hc
      · exact JavaType.mem_source helement helement'
      · exact .inr (by simp_all)

theorem sourceOfLast_injective {varargs varargs' : Bool} {t t' : JavaType} (h : t.IsSpelled)
    (h' : t'.IsSpelled) (heq : sourceOfLast varargs t = sourceOfLast varargs' t') : t = t' := by
  -- No type ends in a dot.
  have hdots {t : JavaType} (h : t.IsSpelled) (element : JavaType) :
      element.source ++ "..." ≠ t.source := fun heq =>
    JavaType.getLast?_source_ne h (by rw [← heq]; simp)
  obtain hlast | ⟨element, rfl, hlast⟩ := sourceOfLast_cases varargs t <;>
    obtain hlast' | ⟨element', rfl, hlast'⟩ := sourceOfLast_cases varargs' t' <;>
    rw [hlast, hlast'] at heq
  · exact JavaType.source_injective h h' heq
  · exact absurd heq.symm (hdots h element')
  · exact absurd heq (hdots h' element)
  · cases h with
    | array helement =>
      cases h' with
      | array helement' =>
        have hchars := congrArg String.toList heq
        rw [String.toList_append, String.toList_append] at hchars
        exact congrArg JavaType.array (JavaType.source_injective helement helement'
          (String.toList_inj.1 (List.append_cancel_right hchars)))

theorem paramSources_singleton (varargs : Bool) (last : JavaType) :
    paramSources varargs [last] = [sourceOfLast varargs last] := rfl

theorem paramSources_cons_cons (varargs : Bool) (param next : JavaType) (rest : List JavaType) :
    paramSources varargs (param :: next :: rest) =
      param.source :: paramSources varargs (next :: rest) := rfl

theorem paramSources_ne_nil (varargs : Bool) (param : JavaType) (rest : List JavaType) :
    paramSources varargs (param :: rest) ≠ [] := by
  cases rest with
  | nil => rw [paramSources_singleton]; exact List.cons_ne_nil _ _
  | cons => rw [paramSources_cons_cons]; exact List.cons_ne_nil _ _

theorem isWord_of_mem_paramSources (varargs : Bool) : ∀ {ts : List JavaType},
    (∀ t ∈ ts, t.IsSpelled) → ∀ text ∈ paramSources varargs ts, IsWord text
  | [], _ => by simp [paramSources]
  | [last], h => by
    simpa [paramSources_singleton] using isWord_sourceOfLast varargs (h last List.mem_cons_self)
  | param :: next :: rest, h => by
    obtain ⟨hparam, hrest⟩ := List.forall_mem_cons.1 h
    rw [paramSources_cons_cons]
    exact List.forall_mem_cons.2
      ⟨JavaType.isWord_source hparam, isWord_of_mem_paramSources varargs hrest⟩

/-- The parameters can be read off their texts, whether or not the last ones have dots. -/
theorem paramSources_injective {varargs varargs' : Bool} : ∀ {ts ts' : List JavaType},
    (∀ t ∈ ts, t.IsSpelled) → (∀ t ∈ ts', t.IsSpelled) →
    paramSources varargs ts = paramSources varargs' ts' → ts = ts'
  | [], [], _, _, _ => rfl
  | [], param :: rest, _, _, heq => absurd heq.symm (paramSources_ne_nil _ param rest)
  | param :: rest, [], _, _, heq => absurd heq (paramSources_ne_nil _ param rest)
  | [last], [last'], h, h', heq => by
    rw [paramSources_singleton, paramSources_singleton, List.cons.injEq] at heq
    rw [sourceOfLast_injective (h last List.mem_cons_self) (h' last' List.mem_cons_self) heq.1]
  | [_], _ :: next :: rest, _, _, heq => by
    rw [paramSources_singleton, paramSources_cons_cons, List.cons.injEq] at heq
    exact absurd heq.2.symm (paramSources_ne_nil _ next rest)
  | _ :: next :: rest, [_], _, _, heq => by
    rw [paramSources_singleton, paramSources_cons_cons, List.cons.injEq] at heq
    exact absurd heq.2 (paramSources_ne_nil _ next rest)
  | param :: next :: rest, param' :: next' :: rest', h, h', heq => by
    obtain ⟨hparam, hrest⟩ := List.forall_mem_cons.1 h
    obtain ⟨hparam', hrest'⟩ := List.forall_mem_cons.1 h'
    rw [paramSources_cons_cons, paramSources_cons_cons, List.cons.injEq] at heq
    rw [JavaType.source_injective hparam hparam' heq.1, paramSources_injective hrest hrest' heq.2]

/-! ## Methods -/

/-- A method that can be spelled in source without type parameters. -/
structure IsSpelled (m : MethodDecl) : Prop where
  declaringType : isQualifiedName '.' m.declaringType
  name : m.isConstructor = false → isQualifiedName '/' m.name
  typeParams : m.typeParams = []
  params : ∀ t ∈ m.params, t.IsSpelled
  result : m.result.IsSpelled
  constructed : m.isConstructor → m.result = .void

/-- The words between the modifiers and the parameters. -/
def subjectWords (m : MethodDecl) : List String :=
  if m.isConstructor then [m.declaringType] else [m.result.source, m.name]

theorem subjectWords_ne_nil (m : MethodDecl) : m.subjectWords ≠ [] := by
  rw [subjectWords]
  split <;> exact List.cons_ne_nil _ _

theorem subject_eq (m : MethodDecl) : m.subject = " ".intercalate m.subjectWords := by
  rw [subject, subjectWords]
  split <;> simp [String.intercalate_cons_cons, String.append_assoc]

variable {m m' : MethodDecl} {owner : TypeKind}

theorem subjectWords_spelled (h : m.IsSpelled) :
    ∀ word ∈ m.subjectWords, IsWord word ∧ word ∉ methodModifiers := by
  have hqualified {separator : Char} {name : String} (hseparator : separator ∈ ['.', '/'])
      (hname : isQualifiedName separator name) : IsWord name ∧ name ∉ methodModifiers := by
    have hpart : isNamePart separator = false :=
      not_isNamePart_of_mem (List.mem_append_right [' ', '(', ')', ',']
        (List.mem_append_left ['[', ']'] hseparator))
    exact ⟨isWord_of_isQualifiedName (List.mem_append_left ['[', ']'] hseparator) hname,
      fun hmem => notMem_reservedWords hpart hname (methodModifiers_subset hmem)⟩
  cases hc : m.isConstructor with
  | true => simpa [subjectWords, hc] using hqualified (by simp) h.declaringType
  | false =>
    simpa [subjectWords, hc] using
      ⟨⟨ReturnType.isWord_source h.result, ReturnType.notMem_methodModifiers h.result⟩,
        hqualified (by simp) (h.name hc)⟩

/-- The parts that the text of a method is cut into. -/
theorem toList_source (owner : TypeKind) (h : m.typeParams = []) : ∃ exceptions, (m.source owner).toList =
    (" ".intercalate (m.modifiers owner ++ m.subjectWords)).toList ++ '(' ::
      ((commaSeparated (paramSources (m.access.has AccessFlags.varargsBit) m.params)).toList ++ ')' ::
        exceptions) := by
  let exceptions := if m.throws.isEmpty then "" else
    " throws " ++ commaSeparated (m.throws.map JavaType.source)
  refine ⟨exceptions.toList, ?_⟩
  rw [source, h, subject_eq, ← join_append_words m.subjectWords_ne_nil]
  simp [exceptions]

/-- **The name, the parameters and the result of a method can be read off its text.** -/
theorem source_determines (h : m.IsSpelled) (h' : m'.IsSpelled)
    (heq : m.source owner = m'.source owner) :
    m.name = m'.name ∧ m.params = m'.params ∧ m.result = m'.result := by
  have hfront {m : MethodDecl} (h : m.IsSpelled) :
      ∀ word ∈ m.modifiers owner ++ m.subjectWords, IsWord word := by
    intro word hword
    obtain hmodifier | hsubject := List.mem_append.1 hword
    · exact isWord_of_mem_reserved (methodModifiers_subset (m.modifiers_subset owner hmodifier))
    · exact (subjectWords_spelled h word hsubject).1
  have hparams {m : MethodDecl} (h : m.IsSpelled) :=
    isWord_of_mem_paramSources (m.access.has AccessFlags.varargsBit) h.params
  -- The text is cut at its first `(` and at its first `)`.
  obtain ⟨exceptions, htext⟩ := toList_source owner h.typeParams
  obtain ⟨exceptions', htext'⟩ := toList_source owner h'.typeParams
  have hchars := congrArg String.toList heq
  rw [htext, htext'] at hchars
  obtain ⟨hwords, hrest⟩ := eq_of_append_cons_eq
    (notMem_intercalate (hfront h) (by simp) (by simp))
    (notMem_intercalate (hfront h') (by simp) (by simp)) hchars
  obtain ⟨htexts, -⟩ := eq_of_append_cons_eq
    (notMem_intercalate (hparams h) (by simp) (by simp))
    (notMem_intercalate (hparams h') (by simp) (by simp)) hrest
  have hsubject : m.subjectWords = m'.subjectWords :=
    words_eq_of_append_eq (m.modifiers_subset owner) (m'.modifiers_subset owner)
      (fun word hword => (subjectWords_spelled h word hword).2)
      (fun word hword => (subjectWords_spelled h' word hword).2)
      (words_injective (c := ' ') (hfront h) (hfront h') (by simp) (by simp)
        (String.toList_inj.1 hwords))
  have hlists : m.params = m'.params :=
    paramSources_injective h.params h'.params
      (words_injective (c := ',') (hparams h) (hparams h') (by simp) (by simp)
        (String.toList_inj.1 htexts))
  cases hc : m.isConstructor <;> cases hc' : m'.isConstructor <;>
    simp only [subjectWords, hc, hc', if_true, Bool.false_eq_true, if_false] at hsubject
  case false.false =>
    simp only [List.cons.injEq, and_true] at hsubject
    exact ⟨hsubject.2, hlists, ReturnType.source_injective h.result h'.result hsubject.1⟩
  case false.true => simp at hsubject
  case true.false => simp at hsubject
  case true.true =>
    have hname {m : MethodDecl} (h : m.isConstructor = true) : m.name = "<init>" := by
      simpa [isConstructor] using h
    exact ⟨by rw [hname hc, hname hc'], hlists, by rw [h.constructed hc, h'.constructed hc']⟩

end MethodDecl

/-! ## Fields -/

namespace FieldDecl

theorem source_eq (f : FieldDecl) :
    f.source = " ".intercalate (f.modifiers ++ [f.type.source, f.name]) := by
  rw [source, String.append_assoc, String.append_assoc, ← join_append_words (by simp)]
  simp [String.intercalate_cons_cons, String.append_assoc]

theorem modifiers_subset (f : FieldDecl) : f.modifiers ⊆ reservedWords := fun _ hword =>
  (by decide : ["public", "protected", "private", "static", "final", "transient", "volatile"] ⊆
    reservedWords) (mem_keywordsOf hword)

/-- **The name and the type of a field can be read off its text.** -/
theorem source_determines {f f' : FieldDecl} (hname : isQualifiedName '/' f.name)
    (hname' : isQualifiedName '/' f'.name) (htype : f.type.IsSpelled) (htype' : f'.type.IsSpelled)
    (heq : f.source = f'.source) : f.name = f'.name ∧ f.type = f'.type := by
  have hwords {f : FieldDecl} (hname : isQualifiedName '/' f.name) (htype : f.type.IsSpelled) :
      ∀ word ∈ f.modifiers ++ [f.type.source, f.name], IsWord word := by
    intro word hword
    obtain hmodifier | hrest := List.mem_append.1 hword
    · exact isWord_of_mem_reserved (f.modifiers_subset hmodifier)
    · simp only [List.mem_cons, List.not_mem_nil, or_false] at hrest
      obtain rfl | rfl := hrest
      · exact JavaType.isWord_source htype
      · exact isWord_of_isQualifiedName (by simp) hname
  rw [source_eq, source_eq] at heq
  have hlists := words_injective (c := ' ') (hwords hname htype) (hwords hname' htype') (by simp)
    (by simp) heq
  obtain ⟨-, hlast⟩ := List.append_inj' hlists rfl
  simp only [List.cons.injEq, and_true] at hlast
  exact ⟨hlast.2, JavaType.source_injective htype htype' hlast.1⟩

end FieldDecl

/-! ## Members of a class file -/

/-- The types in the type of a method: those of its parameters and that of its result. -/
def MethodType.types (m : MethodType) : List JavaType :=
  m.params ++ match m.result with
    | .void => []
    | .value t => [t]

namespace Member

/-- A method without a generic signature, where every name can be spelled in source. The text of a
constructor does not show what it returns, so that has to be nothing. -/
structure IsSpelledMethod (m : Member) : Prop where
  signature : m.signature = none
  name : m.name = "<init>" ∨ isQualifiedName '/' m.name
  classNames : ∀ type, Signature.parseMethodType .descriptor m.descriptor = .ok type →
    ∀ t ∈ type.types, ∀ name ∈ t.className?, isQualifiedName '.' name
  constructed : m.name = "<init>" →
    ∀ type, Signature.parseMethodType .descriptor m.descriptor = .ok type → type.result = .void

/-- A field without a generic signature, where every name can be spelled in source. -/
structure IsSpelledField (m : Member) : Prop where
  signature : m.signature = none
  name : isQualifiedName '/' m.name
  className : ∀ type, Signature.parseFieldType .descriptor m.descriptor = .ok type →
    ∀ name ∈ type.className?, isQualifiedName '.' name

/-- A descriptor is read as one type, so it is enough to look at that one. -/
theorem isSpelledMethod_of_parse {m : Member} {type : MethodType}
    (hparse : Signature.parseMethodType .descriptor m.descriptor = .ok type)
    (hsignature : m.signature = none) (hname : m.name = "<init>" ∨ isQualifiedName '/' m.name)
    (hclasses : ∀ t ∈ type.types, ∀ name ∈ t.className?, isQualifiedName '.' name)
    (hconstructed : m.name = "<init>" → type.result = .void) : m.IsSpelledMethod where
  signature := hsignature
  name := hname
  classNames _ h := by
    obtain rfl := Except.ok.inj (hparse.symm.trans h)
    exact hclasses
  constructed hinit _ h := by
    obtain rfl := Except.ok.inj (hparse.symm.trans h)
    exact hconstructed hinit

end Member

variable {owner : String} {kind : TypeKind} {m m' : Member}

namespace MethodDecl

variable {d d' : MethodDecl}

/-- Without a signature the descriptor says it all. -/
theorem isSpelled_of_ofMember (howner : isQualifiedName '.' owner) (hm : m.IsSpelledMethod)
    (h : ofMember owner m = .ok d) : d.IsSpelled ∧ d.name = m.name ∧
      m.descriptor = (MethodType.mk [] d.params d.result []).text := by
  obtain ⟨erased, hparse, _, rfl, rfl⟩ := ofMember_eq_ok.1 h
  obtain ⟨⟨hwell, -⟩, htext⟩ := Signature.parseMethodType_eq_ok.1 hparse
  have herased : (genericType? erased.params.length m.signature).getD erased = erased := by
    rw [hm.signature]
    rfl
  rw [herased]
  have hspelled {t : JavaType} (ht : t ∈ erased.types) (hproper : t.WellFormed .descriptor) :
      t.IsSpelled :=
    JavaType.isSpelled_of_proper hproper.1 (hm.classNames erased hparse t ht)
  obtain ⟨hparams, hthrows⟩ := hwell.erased rfl
  refine ⟨⟨howner, fun hname => ?_, hparams, fun t ht => ?_, fun t ht => ?_, fun hname => ?_⟩, rfl, ?_⟩
  · exact hm.name.resolve_left (by simpa [isConstructor] using hname)
  · exact hspelled (List.mem_append_left _ ht) (hwell.params t ht)
  · exact hspelled (List.mem_append_right _ (by simp [show erased.result = _ from ht]))
      (hwell.result t ht)
  · exact hm.constructed (by simpa [isConstructor] using hname) erased hparse
  · rw [← htext, ← hparams, ← hthrows]

/-- Two methods that can be spelled and that have the same text are called the same and have the same
descriptor. -/
theorem eq_of_source_eq (howner : isQualifiedName '.' owner) (hm : m.IsSpelledMethod)
    (hm' : m'.IsSpelledMethod) (h : ofMember owner m = .ok d) (h' : ofMember owner m' = .ok d')
    (heq : d.source kind = d'.source kind) : m.name = m'.name ∧ m.descriptor = m'.descriptor := by
  obtain ⟨hd, hname, htext⟩ := isSpelled_of_ofMember howner hm h
  obtain ⟨hd', hname', htext'⟩ := isSpelled_of_ofMember howner hm' h'
  obtain ⟨hnames, hparams, hresult⟩ := source_determines hd hd' heq
  exact ⟨by rw [← hname, hnames, hname'], by rw [htext, hparams, hresult, htext']⟩

end MethodDecl

namespace FieldDecl

variable {d d' : FieldDecl}

theorem isSpelled_of_ofMember (hm : m.IsSpelledField) (h : ofMember owner m = .ok d) :
    d.type.IsSpelled ∧ d.name = m.name ∧ m.descriptor = d.type.text := by
  obtain ⟨erased, hparse, rfl⟩ := ofMember_eq_ok.1 h
  obtain ⟨hwell, htext⟩ := Signature.parseFieldType_eq_ok.1 hparse
  have herased : (genericType? m.signature).getD erased = erased := by
    rw [hm.signature]
    rfl
  rw [herased]
  exact ⟨JavaType.isSpelled_of_proper hwell.1 (hm.className erased hparse), rfl, htext.symm⟩

theorem eq_of_source_eq (hm : m.IsSpelledField) (hm' : m'.IsSpelledField)
    (h : ofMember owner m = .ok d) (h' : ofMember owner m' = .ok d') (heq : d.source = d'.source) :
    m.name = m'.name ∧ m.descriptor = m'.descriptor := by
  obtain ⟨htype, hname, htext⟩ := isSpelled_of_ofMember hm h
  obtain ⟨htype', hname', htext'⟩ := isSpelled_of_ofMember hm' h'
  obtain ⟨hnames, htypes⟩ :=
    source_determines (by rw [hname]; exact hm.name) (by rw [hname']; exact hm'.name) htype htype' heq
  exact ⟨by rw [← hname, hnames, hname'], by rw [htext, htypes, htext']⟩

end FieldDecl

/-! ## Lines of a block -/

namespace TypeDecl

variable {c : ClassFile} {t : TypeDecl}

/-- **Texts tell the members of a type apart that can be spelled in source without a generic
signature.** Two such methods, or two such fields, with the same text have the same name and the same
descriptor. So when all methods or all fields of a type are like this, each exported one has a line, and
no other name and descriptor has that line. -/
theorem members_told_apart (ht : ofClassFile c = .ok t) (hname : isQualifiedName '.' t.name) :
    (∀ m ∈ c.methods, ∀ m' ∈ c.methods, m.IsSpelledMethod → m'.IsSpelledMethod →
      ∃ d d', MethodDecl.ofMember t.name m = .ok d ∧ MethodDecl.ofMember t.name m' = .ok d' ∧
        (d.source t.kind = d'.source t.kind → m.name = m'.name ∧ m.descriptor = m'.descriptor)) ∧
    (∀ m ∈ c.fields, ∀ m' ∈ c.fields, m.IsSpelledField → m'.IsSpelledField →
      ∃ d d', FieldDecl.ofMember t.name m = .ok d ∧ FieldDecl.ofMember t.name m' = .ok d' ∧
        (d.source = d'.source → m.name = m'.name ∧ m.descriptor = m'.descriptor)) ∧
    ((∀ m ∈ c.methods, m.IsSpelledMethod) → ∀ synthetic, ∀ d ∈ t.exportedMethods synthetic,
      ⟨.method, d.source t.kind⟩ ∈ t.block synthetic ∧
        ∀ d' ∈ t.exportedMethods synthetic, d.source t.kind = d'.source t.kind →
          d.name = d'.name ∧ d.descriptor = d'.descriptor) ∧
    ((∀ m ∈ c.fields, m.IsSpelledField) → ∀ synthetic, ∀ d ∈ t.exportedFields synthetic,
      ⟨.field, d.source⟩ ∈ t.block synthetic ∧
        ∀ d' ∈ t.exportedFields synthetic, d.source = d'.source →
          d.name = d'.name ∧ d.descriptor = d'.descriptor) := by
  have hdeclared := isDeclaredBy_of_ofClassFile ht
  have hmethods := hdeclared.methods
  have hfields := hdeclared.fields
  rw [← hdeclared.name] at hmethods hfields
  have hmethod {synthetic : Bool} {d : MethodDecl} (hd : d ∈ t.exportedMethods synthetic) :
      ∃ m ∈ c.methods, MethodDecl.ofMember t.name m = .ok d ∧ d.name = m.name ∧
        d.descriptor = m.descriptor := by
    obtain ⟨m, hm, hof⟩ := (mem_of_mapM_eq_ok hmethods d).1 (List.mem_of_mem_filter hd)
    obtain ⟨_, -, _, -, rfl⟩ := MethodDecl.ofMember_eq_ok.1 hof
    exact ⟨m, hm, hof, rfl, rfl⟩
  have hfield {synthetic : Bool} {d : FieldDecl} (hd : d ∈ t.exportedFields synthetic) :
      ∃ m ∈ c.fields, FieldDecl.ofMember t.name m = .ok d ∧ d.name = m.name ∧
        d.descriptor = m.descriptor := by
    obtain ⟨m, hm, hof⟩ := (mem_of_mapM_eq_ok hfields d).1 (List.mem_of_mem_filter hd)
    obtain ⟨_, -, rfl⟩ := FieldDecl.ofMember_eq_ok.1 hof
    exact ⟨m, hm, hof, rfl, rfl⟩
  refine ⟨fun m hm m' hm' hspelled hspelled' => ?_, fun m hm m' hm' hspelled hspelled' => ?_,
    fun hall synthetic d hd => ⟨mem_block_iff.2 (.inr (.inl ⟨d, hd, rfl⟩)), fun d' hd' heq => ?_⟩,
    fun hall synthetic d hd => ⟨mem_block_iff.2 (.inr (.inr ⟨d, hd, rfl⟩)), fun d' hd' heq => ?_⟩⟩
  · obtain ⟨d, hof⟩ := exists_of_mapM_eq_ok hmethods hm
    obtain ⟨d', hof'⟩ := exists_of_mapM_eq_ok hmethods hm'
    exact ⟨d, d', hof, hof', MethodDecl.eq_of_source_eq hname hspelled hspelled' hof hof'⟩
  · obtain ⟨d, hof⟩ := exists_of_mapM_eq_ok hfields hm
    obtain ⟨d', hof'⟩ := exists_of_mapM_eq_ok hfields hm'
    exact ⟨d, d', hof, hof', FieldDecl.eq_of_source_eq hspelled hspelled' hof hof'⟩
  · obtain ⟨m, hm, hof, hdname, hdescriptor⟩ := hmethod hd
    obtain ⟨m', hm', hof', hdname', hdescriptor'⟩ := hmethod hd'
    rw [hdname, hdescriptor, hdname', hdescriptor']
    exact MethodDecl.eq_of_source_eq hname (hall m hm) (hall m' hm') hof hof' heq
  · obtain ⟨m, hm, hof, hdname, hdescriptor⟩ := hfield hd
    obtain ⟨m', hm', hof', hdname', hdescriptor'⟩ := hfield hd'
    rw [hdname, hdescriptor, hdname', hdescriptor']
    exact FieldDecl.eq_of_source_eq (hall m hm) (hall m' hm') hof hof' heq

/-- A class whose constructors and methods come in pairs that differ in little: a number or any number
of them, a text or an array of texts. -/
def sampleShop : ClassFile where
  minorVersion := 0
  majorVersion := 61
  access := ⟨0x21⟩
  name := "a/Shop"
  superclass := some "java/lang/Object"
  interfaces := []
  signature := none
  fields := [⟨⟨0x1⟩, "stock", "I", none, []⟩, ⟨⟨0x19⟩, "stocks", "[I", none, []⟩]
  methods := [⟨⟨0x1⟩, "<init>", "(I)V", none, []⟩, ⟨⟨0x81⟩, "<init>", "([I)V", none, []⟩,
    ⟨⟨0x1⟩, "find", "(La/Item;)I", none, ["a/Missing"]⟩,
    ⟨⟨0x81⟩, "find", "([La/Item;)I", none, []⟩]

theorem isSpelledMethod_sampleShop : ∀ m ∈ sampleShop.methods, m.IsSpelledMethod := by
  have hitem : isQualifiedName '.' "a.Item" := by decide +kernel
  have hfind : isQualifiedName '/' "find" := by decide +kernel
  have hone : Signature.parseMethodType .descriptor "(I)V" =
      .ok ⟨[], [.primitive .int], .void, []⟩ := by cbv
  have hmany : Signature.parseMethodType .descriptor "([I)V" =
      .ok ⟨[], [.array (.primitive .int)], .void, []⟩ := by cbv
  have hfound : Signature.parseMethodType .descriptor "(La/Item;)I" =
      .ok ⟨[], [.ofName "a.Item"], .value (.primitive .int), []⟩ := by cbv
  have hfoundMany : Signature.parseMethodType .descriptor "([La/Item;)I" =
      .ok ⟨[], [.array (.ofName "a.Item")], .value (.primitive .int), []⟩ := by cbv
  simp only [sampleShop, List.forall_mem_cons]
  refine ⟨?constructor, ?constructorOfMany, ?find, ?findMany, by simp⟩
  case constructor =>
    exact Member.isSpelledMethod_of_parse hone rfl (.inl rfl)
      (by simp [MethodType.types, JavaType.className?, JavaType.erasedName?]) fun _ => rfl
  case constructorOfMany =>
    exact Member.isSpelledMethod_of_parse hmany rfl (.inl rfl)
      (by simp [MethodType.types, JavaType.className?, JavaType.erasedName?]) fun _ => rfl
  case find =>
    refine Member.isSpelledMethod_of_parse hfound rfl (.inr hfind) ?_ (by simp)
    simpa [MethodType.types, JavaType.className?, JavaType.erasedName?, JavaType.ofName, Segment.name]
      using hitem
  case findMany =>
    refine Member.isSpelledMethod_of_parse hfoundMany rfl (.inr hfind) ?_ (by simp)
    simpa [MethodType.types, JavaType.className?, JavaType.erasedName?, JavaType.ofName, Segment.name]
      using hitem

theorem members_told_apart_sampleShop : ∃ t, ofClassFile sampleShop = .ok t ∧
    ∀ d ∈ t.exportedMethods true, ⟨.method, d.source t.kind⟩ ∈ t.block true ∧
      ∀ d' ∈ t.exportedMethods true, d.source t.kind = d'.source t.kind →
        d.name = d'.name ∧ d.descriptor = d'.descriptor := by
  have hread : (ofClassFile sampleShop).isOk := by decide +kernel
  cases ht : ofClassFile sampleShop with
  | error e => rw [ht] at hread; cases hread
  | ok t =>
    have hname : isQualifiedName '.' t.name := by
      rw [(isDeclaredBy_of_ofClassFile ht).name]
      decide +kernel
    obtain ⟨-, -, hmethods, -⟩ := members_told_apart ht hname
    exact ⟨t, rfl, hmethods isSpelledMethod_sampleShop true⟩

end TypeDecl

end ApiSurface
