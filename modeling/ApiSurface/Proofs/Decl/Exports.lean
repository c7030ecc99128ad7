import ApiSurface.Proofs.Decl.Ordering
import ApiSurface.Proofs.Reading
import Mathlib.Data.List.Sort
import Mathlib.Data.List.TakeWhile

/-!
Which part of a class file shows in the block of its type.

A class file is converted member by member, and only members that are exported reach the block. There
their texts are put in order and stand once each, so a block tells which texts there are and not where,
or how often, their members were declared.
-/

namespace ApiSurface

/-! ## The texts of ordered entries -/

namespace Entry

/-- Dropping neighbours with the same text loses no text. -/
theorem mem_texts_dedup {entries : List Entry} {text : String} :
    text ∈ (dedup entries).map (·.text) ↔ text ∈ entries.map (·.text) := by
  induction entries with
  | nil => rfl
  | cons first rest ih =>
    let dropped := (dedup rest).takeWhile (·.text = first.text)
    let kept := (dedup rest).dropWhile (·.text = first.text)
    have hrest : text ∈ rest.map (·.text) ↔ text ∈ (dropped ++ kept).map (·.text) := by
      rw [← ih, List.takeWhile_append_dropWhile]
    have hdropped : text ∈ dropped.map (·.text) → text = first.text := by
      intro h
      obtain ⟨e, he, rfl⟩ := List.mem_map.1 h
      simpa using List.mem_takeWhile_imp he
    show text ∈ first.text :: kept.map (·.text) ↔ text ∈ first.text :: rest.map (·.text)
    rw [List.mem_cons, List.mem_cons, hrest, List.map_append, List.mem_append]
    constructor
    · rintro (h | h)
      · exact .inl h
      · exact .inr (.inr h)
    · rintro (h | h | h)
      · exact .inl h
      · exact .inl (hdropped h)
      · exact .inr h

theorem mem_texts_ordered {entries : List Entry} {text : String} :
    text ∈ (ordered entries).map (·.text) ↔ text ∈ entries.map (·.text) := by
  rw [ordered, mem_texts_dedup]
  simp only [List.mem_map, List.mem_mergeSort]

/-- There is one strictly increasing list of given texts. -/
theorem texts_eq_of_mem_iff {texts texts' : List String} (h : StrictlyIncreasing texts)
    (h' : StrictlyIncreasing texts') (hmem : ∀ text, text ∈ texts ↔ text ∈ texts') :
    texts = texts' :=
  eq_of_pairwise_lt Bytes.ofText h h' hmem

/-- Which texts the entries have decides which texts stand in order. -/
theorem texts_ordered_congr {entries entries' : List Entry}
    (h : ∀ text, text ∈ entries.map (·.text) ↔ text ∈ entries'.map (·.text)) :
    (ordered entries).map (·.text) = (ordered entries').map (·.text) := by
  refine texts_eq_of_mem_iff (strictlyIncreasing_ordered _) (strictlyIncreasing_ordered _) ?_
  intro text
  rw [mem_texts_ordered, mem_texts_ordered, h]

end Entry

/-! ## From members to declarations -/

/-- Public or protected. -/
def Member.isExported (m : Member) : Bool :=
  m.access.has AccessFlags.publicBit || m.access.has AccessFlags.protectedBit

theorem Visibility.isExported_ofFlags (flags : AccessFlags) : (ofFlags flags).isExported =
    (flags.has AccessFlags.publicBit || flags.has AccessFlags.protectedBit) := by
  rw [ofFlags]
  split
  · next hpublic => simp [hpublic, isExported]
  · next hpublic =>
    split
    · next hprotected => simp [hprotected, isExported]
    · next hprotected => split <;> simp [hpublic, hprotected, isExported]

namespace MethodDecl

/-- The generic type stands in a signature that can be read and has as many parameters. -/
theorem genericType?_eq_some {arity : Nat} {signature : Option String} {type : MethodType} :
    genericType? arity signature = some type ↔ ∃ text ∈ signature,
      Signature.parseMethodType .generic text = .ok type ∧ type.params.length = arity := by
  cases signature with
  | none => simp [genericType?]
  | some text =>
    cases hread : Signature.parseMethodType .generic text with
    | error e => simp [genericType?, hread]
    | ok found =>
      simp only [genericType?, Option.map_some, hread, Option.ite_none_right_eq_some, Option.some.injEq,
        Option.mem_some, exists_eq_left', Except.ok.injEq]
      constructor
      · rintro ⟨hcount, rfl⟩
        exact ⟨rfl, hcount⟩
      · rintro ⟨rfl, hcount⟩
        exact ⟨hcount, rfl⟩

/-- A method is declared when its descriptor can be read; then only its type takes reading. -/
theorem ofMember_eq_ok {owner : String} {m : Member} {d : MethodDecl} :
    ofMember owner m = .ok d ↔ ∃ erased, Signature.parseMethodType .descriptor m.descriptor = .ok erased ∧
      ∃ type, type = (genericType? erased.params.length m.signature).getD erased ∧
        d = ⟨owner, m.access, m.name, m.descriptor, type.typeParams, type.params, type.result,
          if type.throws.isEmpty then m.exceptions.map JavaType.ofInternalName else type.throws⟩ := by
  rw [ofMember]
  cases Signature.parseMethodType .descriptor m.descriptor with
  | error e => exact ⟨nofun, nofun⟩
  | ok erased =>
    constructor
    · intro h
      exact ⟨erased, rfl, _, rfl, (Except.ok.inj h).symm⟩
    · rintro ⟨_, herased, _, rfl, rfl⟩
      obtain rfl := Except.ok.inj herased
      rfl

theorem access_of_ofMember {owner : String} {m : Member} {d : MethodDecl}
    (h : ofMember owner m = .ok d) : d.access = m.access := by
  obtain ⟨_, -, _, -, rfl⟩ := ofMember_eq_ok.1 h
  rfl

theorem isExported_of_ofMember {owner : String} {m : Member} {d : MethodDecl}
    (h : ofMember owner m = .ok d) : d.visibility.isExported = m.isExported := by
  rw [visibility, Visibility.isExported_ofFlags, access_of_ofMember h, Member.isExported]

end MethodDecl

namespace FieldDecl

theorem genericType?_eq_some {signature : Option String} {type : JavaType} :
    genericType? signature = some type ↔ ∃ text ∈ signature,
      Signature.parseFieldType .generic text = .ok type := by
  cases signature with
  | none => simp [genericType?]
  | some text =>
    cases hread : Signature.parseFieldType .generic text with
    | error e => simp [genericType?, hread]
    | ok found => simp [genericType?, hread]

theorem ofMember_eq_ok {owner : String} {m : Member} {d : FieldDecl} :
    ofMember owner m = .ok d ↔ ∃ erased, Signature.parseFieldType .descriptor m.descriptor = .ok erased ∧
      d = ⟨owner, m.access, m.name, m.descriptor, (genericType? m.signature).getD erased⟩ := by
  rw [ofMember]
  cases Signature.parseFieldType .descriptor m.descriptor with
  | error e => exact ⟨nofun, nofun⟩
  | ok erased =>
    constructor
    · intro h
      exact ⟨erased, rfl, (Except.ok.inj h).symm⟩
    · rintro ⟨_, herased, rfl⟩
      obtain rfl := Except.ok.inj herased
      rfl

theorem access_of_ofMember {owner : String} {m : Member} {d : FieldDecl}
    (h : ofMember owner m = .ok d) : d.access = m.access := by
  obtain ⟨_, -, rfl⟩ := ofMember_eq_ok.1 h
  rfl

theorem isExported_of_ofMember {owner : String} {m : Member} {d : FieldDecl}
    (h : ofMember owner m = .ok d) : d.visibility.isExported = m.isExported := by
  rw [visibility, Visibility.isExported_ofFlags, access_of_ofMember h, Member.isExported]

end FieldDecl

namespace TypeDecl

/-- The declaration of a class file, part by part. -/
structure IsDeclaredBy (t : TypeDecl) (c : ClassFile) : Prop where
  name : t.name = binaryName c.name
  kind : t.kind = .ofFlags c.access
  modifier : t.modifier = .ofFlags c.access
  superclass : t.superclass =
    if TypeKind.ofFlags c.access = .classType then c.superclass.map binaryName else none
  interfaces : t.interfaces = c.interfaces.map binaryName
  methods : c.methods.mapM (MethodDecl.ofMember (binaryName c.name)) = .ok t.methods
  fields : c.fields.mapM (FieldDecl.ofMember (binaryName c.name)) = .ok t.fields

theorem isDeclaredBy_of_ofClassFile {c : ClassFile} {t : TypeDecl} (h : ofClassFile c = .ok t) :
    t.IsDeclaredBy c := by
  rw [ofClassFile] at h
  cases hmethods : c.methods.mapM (MethodDecl.ofMember (binaryName c.name)) with
  | error e => simp only [hmethods, bind, Except.bind] at h; cases h
  | ok methods =>
    cases hfields : c.fields.mapM (FieldDecl.ofMember (binaryName c.name)) with
    | error e => simp only [hmethods, hfields, bind, Except.bind] at h; cases h
    | ok fields =>
      simp only [hmethods, hfields, bind, Except.bind] at h
      obtain rfl := Except.ok.inj h
      exact ⟨rfl, rfl, rfl, rfl, rfl, hmethods, hfields⟩

end TypeDecl

/-! ## The lines of a block -/

namespace TypeDecl

/-- A block has the header and the texts of the exported members, and nothing else. -/
theorem mem_block_iff {t : TypeDecl} {synthetic : Bool} {line : Report.Line} :
    line ∈ t.block synthetic ↔ line = ⟨.type, t.header⟩ ∨
      (∃ d ∈ t.exportedMethods synthetic, line = ⟨.method, d.source t.kind⟩) ∨
      ∃ d ∈ t.exportedFields synthetic, line = ⟨.field, d.source⟩ := by
  have hlines (kind : Report.LineKind) (entries : List Entry) :
      line ∈ (Entry.ordered entries).map (Report.Line.mk kind ·.text) ↔
        ∃ e ∈ entries, line = ⟨kind, e.text⟩ := by
    rw [← Function.comp_def (Report.Line.mk kind) Entry.text, ← List.map_map, List.mem_map]
    simp only [Entry.mem_texts_ordered]
    simp only [List.mem_map]
    constructor
    · rintro ⟨_, ⟨e, he, rfl⟩, rfl⟩
      exact ⟨e, he, rfl⟩
    · rintro ⟨e, he, rfl⟩
      exact ⟨_, ⟨e, he, rfl⟩, rfl⟩
  simp only [block, List.cons_append, List.mem_cons, List.mem_append, hlines, List.mem_map,
    exists_exists_and_eq_and]
  rfl

end TypeDecl

/-! ## The exported part -/

/-- The members that are exported are the same in both lists, whatever else stands there. How often a
member stands in a list, and where, makes no difference. -/
def SameExported (members members' : List Member) : Prop :=
  ∀ m, m.isExported → (m ∈ members ↔ m ∈ members')

/-- Each list has the exported members of the other one. -/
theorem sameExported_iff {members members' : List Member} : SameExported members members' ↔
    (∀ m ∈ members, m.isExported → m ∈ members') ∧ ∀ m ∈ members', m.isExported → m ∈ members := by
  constructor
  · exact fun h => ⟨fun m hm hexported => (h m hexported).1 hm, fun m hm hexported =>
      (h m hexported).2 hm⟩
  · exact fun ⟨h, h'⟩ m hexported => ⟨fun hm => h m hm hexported, fun hm => h' m hm hexported⟩

/-- Conversion keeps the exported members of two lists the same: what a declaration is exported by are
the flags of its member. -/
theorem SameExported.declarations {δ ε : Type} {ofMember : Member → Except ε δ}
    {isExported : δ → Bool} (hexported : ∀ m d, ofMember m = .ok d → isExported d = m.isExported)
    {members members' : List Member} {ds ds' : List δ} (h : SameExported members members')
    (hds : members.mapM ofMember = .ok ds) (hds' : members'.mapM ofMember = .ok ds')
    {d : δ} (hd : isExported d) : d ∈ ds ↔ d ∈ ds' := by
  rw [mem_of_mapM_eq_ok hds, mem_of_mapM_eq_ok hds']
  constructor
  · rintro ⟨m, hm, hmd⟩
    exact ⟨m, (h m (hexported m d hmd ▸ hd)).1 hm, hmd⟩
  · rintro ⟨m, hm, hmd⟩
    exact ⟨m, (h m (hexported m d hmd ▸ hd)).2 hm, hmd⟩

/-- Two class files agree in what is exported: they declare the same type with the same members that
are public or protected. -/
structure ClassFile.SameExports (c c' : ClassFile) : Prop where
  name : c.name = c'.name
  access : c.access = c'.access
  superclass : c.superclass = c'.superclass
  interfaces : c.interfaces = c'.interfaces
  methods : SameExported c.methods c'.methods
  fields : SameExported c.fields c'.fields

namespace TypeDecl

variable {c c' : ClassFile} {t t' : TypeDecl}

theorem header_congr (h : c.SameExports c') (ht : t.IsDeclaredBy c) (ht' : t'.IsDeclaredBy c') :
    t.header = t'.header := by
  have hkind : t.kind = t'.kind := by rw [ht.kind, ht'.kind, h.access]
  have hname : t.name = t'.name := by rw [ht.name, ht'.name, h.name]
  have hmodifier : t.modifier = t'.modifier := by rw [ht.modifier, ht'.modifier, h.access]
  have hsuperclass : t.superclass = t'.superclass := by
    rw [ht.superclass, ht'.superclass, h.access, h.superclass]
  have hinterfaces : t.interfaces = t'.interfaces := by
    rw [ht.interfaces, ht'.interfaces, h.interfaces]
  rw [header, header, hkind, hname, hmodifier, hsuperclass, hinterfaces]

theorem exportedMethods_congr (h : c.SameExports c') (ht : t.IsDeclaredBy c)
    (ht' : t'.IsDeclaredBy c') (synthetic : Bool) (d : MethodDecl) :
    d ∈ t.exportedMethods synthetic ↔ d ∈ t'.exportedMethods synthetic := by
  have hmethods' := ht'.methods
  rw [← h.name] at hmethods'
  simp only [exportedMethods, List.mem_filter, Bool.and_eq_true]
  refine and_congr_left fun ⟨hexported, _⟩ => ?_
  exact h.methods.declarations (fun _ _ => MethodDecl.isExported_of_ofMember) ht.methods hmethods'
    hexported

theorem exportedFields_congr (h : c.SameExports c') (ht : t.IsDeclaredBy c)
    (ht' : t'.IsDeclaredBy c') (synthetic : Bool) (d : FieldDecl) :
    d ∈ t.exportedFields synthetic ↔ d ∈ t'.exportedFields synthetic := by
  have hfields' := ht'.fields
  rw [← h.name] at hfields'
  simp only [exportedFields, List.mem_filter, Bool.and_eq_true]
  refine and_congr_left fun ⟨hexported, _⟩ => ?_
  exact h.fields.declarations (fun _ _ => FieldDecl.isExported_of_ofMember) ht.fields hfields'
    hexported

/-- **The block of a type depends on nothing but what the type exports.** The order of the members, those
that are private or in their package, the version of the class file and its generic signature do not
show. -/
theorem block_eq_of_sameExports (h : c.SameExports c') (ht : ofClassFile c = .ok t)
    (ht' : ofClassFile c' = .ok t') (synthetic : Bool) : t.block synthetic = t'.block synthetic := by
  have hdeclared := isDeclaredBy_of_ofClassFile ht
  have hdeclared' := isDeclaredBy_of_ofClassFile ht'
  have hkind : t.kind = t'.kind := by rw [hdeclared.kind, hdeclared'.kind, h.access]
  have hmethods : (Entry.ordered ((t.exportedMethods synthetic).map (·.entry t.kind))).map (·.text) =
      (Entry.ordered ((t'.exportedMethods synthetic).map (·.entry t'.kind))).map (·.text) := by
    refine Entry.texts_ordered_congr fun text => ?_
    simp only [hkind, List.mem_map, exportedMethods_congr h hdeclared hdeclared']
  have hfields : (Entry.ordered ((t.exportedFields synthetic).map (·.entry))).map (·.text) =
      (Entry.ordered ((t'.exportedFields synthetic).map (·.entry))).map (·.text) := by
    refine Entry.texts_ordered_congr fun text => ?_
    simp only [List.mem_map, exportedFields_congr h hdeclared hdeclared']
  have hlines (kind : Report.LineKind) (entries : List Entry) :
      entries.map (Report.Line.mk kind ·.text) = (entries.map (·.text)).map (Report.Line.mk kind) := by
    rw [List.map_map]
    rfl
  simp only [block, hlines, header_congr h hdeclared hdeclared', hmethods, hfields]

/-- A class with a method that overloads another one, and a private field. -/
def sampleCounter : ClassFile where
  minorVersion := 0
  majorVersion := 61
  access := ⟨0x21⟩
  name := "a/Counter"
  superclass := some "java/lang/Object"
  interfaces := []
  signature := none
  fields := [⟨⟨0x2⟩, "count", "I", none, []⟩, ⟨⟨0x4⟩, "step", "I", none, []⟩]
  methods := [⟨⟨0x1⟩, "add", "(I)V", none, []⟩, ⟨⟨0x1⟩, "add", "()V", none, []⟩]

/-- The same class, compiled again with a type parameter: the methods have changed places, one stands
twice, and private members have come and gone. -/
def sampleCounterAgain : ClassFile where
  minorVersion := 3
  majorVersion := 52
  access := ⟨0x21⟩
  name := "a/Counter"
  superclass := some "java/lang/Object"
  interfaces := []
  signature := some "<T:Ljava/lang/Object;>Ljava/lang/Object;"
  fields := [⟨⟨0x4⟩, "step", "I", none, []⟩]
  methods := [⟨⟨0x1⟩, "add", "()V", none, []⟩, ⟨⟨0x0⟩, "reset", "()V", none, []⟩,
    ⟨⟨0x1⟩, "add", "(I)V", none, []⟩, ⟨⟨0x1⟩, "add", "()V", none, []⟩]

theorem sameExports_sampleCounter : sampleCounter.SameExports sampleCounterAgain where
  name := rfl
  access := rfl
  superclass := rfl
  interfaces := rfl
  methods := sameExported_iff.2 (by decide)
  fields := sameExported_iff.2 (by decide)

theorem block_sampleCounter : ∃ t t', ofClassFile sampleCounter = .ok t ∧
    ofClassFile sampleCounterAgain = .ok t' ∧ t.block true = t'.block true := by
  have hread : (ofClassFile sampleCounter).isOk := by decide +kernel
  have hread' : (ofClassFile sampleCounterAgain).isOk := by decide +kernel
  cases ht : ofClassFile sampleCounter with
  | error e => rw [ht] at hread; cases hread
  | ok t =>
    cases ht' : ofClassFile sampleCounterAgain with
    | error e => rw [ht'] at hread'; cases hread'
    | ok t' =>
      exact ⟨t, t', rfl, rfl, block_eq_of_sameExports sameExports_sampleCounter ht ht' true⟩

end TypeDecl

end ApiSurface
