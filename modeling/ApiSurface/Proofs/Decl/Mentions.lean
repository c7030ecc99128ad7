import ApiSurface.Proofs.Decl.Erasure

/-!
The names of the classes that a text mentions.

Every class in a type that has been read, however deep it stands among arrays, type arguments and bounds,
has a source form whose brackets are balanced. Without what stands in brackets this is the name of the
class, with which its own header begins.
-/

namespace ApiSurface

/-! ## Types in types -/

/-- The type that an argument names, if it names one. -/
def TypeArg.type? : TypeArg → Option JavaType
  | .any => none
  | .upper bound => some bound
  | .lower bound => some bound
  | .exactly type => some type

/-- The other type is this one or stands in it. -/
inductive JavaType.Mentions : JavaType → JavaType → Prop
  | self (t : JavaType) : Mentions t t
  | element {element u : JavaType} (h : Mentions element u) : Mentions (.array element) u
  | argument {outermost s : Segment} {inner : List Segment} {a : TypeArg} {t u : JavaType}
      (hs : s ∈ outermost :: inner) (ha : a ∈ s.args) (ht : a.type? = some t) (h : Mentions t u) :
      Mentions (.object outermost inner) u

/-- The type stands in a bound of the variable. -/
def TypeParam.Mentions (p : TypeParam) (u : JavaType) : Prop :=
  ∃ t ∈ p.classBound.toList ++ p.interfaceBounds, t.Mentions u

/-- The type stands in the type of the method. -/
inductive MethodType.Mentions (m : MethodType) (u : JavaType) : Prop
  | typeParam {p : TypeParam} (hp : p ∈ m.typeParams) (h : p.Mentions u)
  | param {t : JavaType} (ht : t ∈ m.params) (h : t.Mentions u)
  | result {t : JavaType} (ht : m.result = .value t) (h : t.Mentions u)
  | throws {t : JavaType} (ht : t ∈ m.throws) (h : t.Mentions u)

/-- The type stands in a bound or in a supertype of the class. -/
inductive ClassType.Mentions (c : ClassType) (u : JavaType) : Prop
  | typeParam {p : TypeParam} (hp : p ∈ c.typeParams) (h : p.Mentions u)
  | superclass (h : c.superclass.Mentions u)
  | interfaces {t : JavaType} (ht : t ∈ c.interfaces) (h : t.Mentions u)

section Proper

variable {form : Signature.Form} {t u : JavaType}

theorem TypeArg.Proper.type? {a : TypeArg} (h : a.Proper form) (ht : a.type? = some t) : t.Proper form := by
  cases h with
  | any => cases ht
  | upper _ hbound => exact Option.some.inj ht ▸ hbound
  | lower _ hbound => exact Option.some.inj ht ▸ hbound
  | exactly _ htype => exact Option.some.inj ht ▸ htype

theorem Segment.Proper.args {isOutermost : Bool} {s : Segment} (h : s.Proper form isOutermost) :
    ∀ a ∈ s.args, a.Proper form := by
  cases h with
  | mk _ _ hargs => exact hargs

theorem JavaType.Proper.exists_segment {outermost s : Segment} {inner : List Segment}
    (h : (JavaType.object outermost inner).Proper form) (hs : s ∈ outermost :: inner) :
    ∃ isOutermost, s.Proper form isOutermost := by
  cases h with
  | object houtermost _ hinner =>
    obtain rfl | hmem := List.mem_cons.1 hs
    · exact ⟨true, houtermost⟩
    · exact ⟨false, hinner s hmem⟩

/-- What stands in a proper type is proper. -/
theorem JavaType.Mentions.proper (h : t.Mentions u) (ht : t.Proper form) : u.Proper form := by
  induction h with
  | self => exact ht
  | element _ ih =>
    cases ht with
    | array helement => exact ih helement
  | argument hs ha htype _ ih =>
    obtain ⟨_, hsegment⟩ := ht.exists_segment hs
    exact ih ((hsegment.args _ ha).type? htype)

theorem TypeParam.Mentions.proper {p : TypeParam} (h : p.Mentions u) (hp : p.WellFormed) :
    u.Proper .generic := by
  obtain ⟨t, ht, hmentions⟩ := h
  obtain hclass | hinterface := List.mem_append.1 ht
  · exact hmentions.proper (hp.classBound t (Option.mem_toList.1 hclass)).2.1
  · exact hmentions.proper (hp.interfaceBounds t hinterface).2.1

theorem MethodType.Mentions.exists_proper {m : MethodType} (h : m.Mentions u) (hm : m.WellFormed form) :
    ∃ form, u.Proper form := by
  cases h with
  | typeParam hp h => exact ⟨_, h.proper (hm.typeParams _ hp)⟩
  | param ht h => exact ⟨_, h.proper (hm.params _ ht).1⟩
  | result ht h => exact ⟨_, h.proper (hm.result _ ht).1⟩
  | throws ht h => exact ⟨_, h.proper (hm.throws _ ht).2.1⟩

theorem ClassType.Mentions.proper {c : ClassType} (h : c.Mentions u) (hc : c.WellFormed) :
    u.Proper .generic := by
  cases h with
  | typeParam hp h => exact h.proper (hc.typeParams _ hp)
  | superclass h => exact h.proper hc.superclass.2.1
  | interfaces ht h => exact h.proper (hc.interfaces _ ht).2.1

end Proper

/-! ## Names -/

/-- What stands in front of the name in a header. -/
def declarationKinds : List String :=
  ["@interface", "interface", "abstract class", "final class", "class"]

/-- The text is that of a header in which the name is declared. -/
def Declares (header name : String) : Prop :=
  ∃ kind ∈ declarationKinds, ∃ back, header = kind ++ " " ++ name ++ back ∧
    (back = "" ∨ ∃ supertypes, back = " extends " ++ supertypes)

theorem TypeDecl.declares_header (d : TypeDecl) : Declares d.header d.name := by
  have hplain {kind : String} (hkind : kind ∈ declarationKinds) : Declares (kind ++ " " ++ d.name) d.name :=
    ⟨kind, hkind, "", String.append_empty.symm, .inl rfl⟩
  have hextends {kind : String} (hkind : kind ∈ declarationKinds) (supertypes : String) :
      Declares (kind ++ " " ++ d.name ++ " extends " ++ supertypes) d.name :=
    ⟨kind, hkind, _, String.append_assoc .., .inr ⟨supertypes, rfl⟩⟩
  have hclass : d.modifier.keywords ∈ declarationKinds := by
    cases d.modifier <;> decide
  unfold header
  cases d.kind with
  | annotationType => exact @hplain "@interface" (by decide)
  | interfaceType =>
    dsimp only
    split
    · exact @hplain "interface" (by decide)
    · exact @hextends "interface" (by decide) _
  | classType =>
    dsimp only
    split
    · exact hextends hclass _
    · exact hplain hclass

/-- The source form of a type, from which what stands in brackets can be left out. Then it is a name, which
is the one in the header of every declaration of that name. -/
structure JavaType.ReadsAs (t : JavaType) (name : String) : Prop where
  balanced : IsBalanced t.source
  outside_eq : String.ofList (outside 0 t.source.toList) = name
  declared : ∀ d : TypeDecl, d.name = name → Declares d.header (String.ofList (outside 0 t.source.toList))

theorem JavaType.Proper.readsAs {form : Signature.Form} {t : JavaType} {name : String} (h : t.Proper form)
    (hname : t.erasedName? = some name) : t.ReadsAs name := by
  have hshows := t.shows_source h
  have herased : t.erasedSource = name := by
    cases t with
    | object outermost inner => exact Option.some.inj hname
    | primitive | «variable» | array => cases hname
  have hname : String.ofList (outside 0 t.source.toList) = name := by
    rw [hshows.outside_eq, herased, String.ofList_toList]
  refine ⟨hshows.isBalanced, hname, ?_⟩
  rintro d rfl
  rw [hname]
  exact d.declares_header

/-- **The source form of a class and its erased name agree.** Wherever a class stands in a field type, a
method type or a class type that has been read from a descriptor or a signature, the brackets of its source
form are balanced, and its source form without what stands in brackets is its erased name, the name in the
header of the class. -/
theorem erasedName_of_source :
    (∀ form source t, Signature.parseFieldType form source = .ok t →
      ∀ u name, t.Mentions u → u.erasedName? = some name → u.ReadsAs name) ∧
    (∀ form source m, Signature.parseMethodType form source = .ok m →
      ∀ u name, m.Mentions u → u.erasedName? = some name → u.ReadsAs name) ∧
    ∀ source c, Signature.parseClassType source = .ok c →
      ∀ u name, c.Mentions u → u.erasedName? = some name → u.ReadsAs name := by
  refine ⟨fun form source t h u name hmentions hname => ?_, fun form source m h u name hmentions hname => ?_,
    fun source c h u name hmentions hname => ?_⟩
  · obtain ⟨ht, -⟩ := Signature.parseFieldType_eq_ok.1 h
    exact (hmentions.proper ht.1).readsAs hname
  · obtain ⟨⟨hm, -⟩, -⟩ := Signature.parseMethodType_eq_ok.1 h
    obtain ⟨_, hproper⟩ := hmentions.exists_proper hm
    exact hproper.readsAs hname
  · obtain ⟨⟨hc, -⟩, -⟩ := Signature.parseClassType_eq_ok.1 h
    exact (hmentions.proper hc).readsAs hname

/-! ### A nested class whose type arguments have type arguments -/

def sampleBox : JavaType :=
  .object (.mk "b.Box" [.upper (.variable "T")]) []

def sampleNest : JavaType :=
  .object (.mk "a.Outer" [.exactly (.variable "T")]) [.mk "Inner" [.exactly (.array sampleBox), .any]]

theorem erasedName_of_source_nest :
    Signature.parseMethodType .generic "(La/Outer<TT;>.Inner<[Lb/Box<+TT;>;*>;)V" =
      .ok ⟨[], [sampleNest], .void, []⟩ ∧
    sampleNest.source = "a.Outer<T>$Inner<b.Box<? extends T>[], ?>" ∧ sampleNest.ReadsAs "a.Outer$Inner" ∧
    sampleBox.ReadsAs "b.Box" := by
  have hread : Signature.parseMethodType .generic "(La/Outer<TT;>.Inner<[Lb/Box<+TT;>;*>;)V" =
      .ok ⟨[], [sampleNest], .void, []⟩ := by cbv
  obtain ⟨-, hmethod, -⟩ := erasedName_of_source
  have hbox : sampleNest.Mentions sampleBox :=
    .argument (s := .mk "Inner" [.exactly (.array sampleBox), .any]) (List.mem_cons_of_mem _ List.mem_cons_self)
      List.mem_cons_self rfl (.element (.self sampleBox))
  exact ⟨hread, by decide,
    hmethod _ _ _ hread _ _ (.param List.mem_cons_self (.self sampleNest)) (by decide),
    hmethod _ _ _ hread _ _ (.param List.mem_cons_self hbox) (by decide)⟩

end ApiSurface
