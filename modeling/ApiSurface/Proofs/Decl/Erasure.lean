import ApiSurface.Proofs.Decl.SourceNames
import ApiSurface.Proofs.Signature.RoundTrip
import ApiSurface.Proofs.Text.Brackets

/-!
What the source form of type parameters says of their erasure.

A variable is erased to its class bound, or else to its first interface, or else to the root. Its source
form has the bounds with their type arguments, so the erasure can be read off it once the arguments are
left out. Two things cannot. A variable reads like a class of its name without a package. And the root
does not show as a class bound, whether or not there are interfaces behind it.
-/

namespace ApiSurface

/-! ## Erasures -/

/-- A type in source form without its type arguments. -/
def JavaType.erasedSource : JavaType → String
  | .primitive type => type.keyword
  | .variable name => name
  | .array element => element.erasedSource ++ "[]"
  | .object outermost inner => "$".intercalate ((outermost :: inner).map Segment.name)

namespace TypeParam

/-- What the variable is erased to. -/
def erasureBound (p : TypeParam) : JavaType :=
  p.classBound.getD (p.interfaceBounds.headD (.ofName "java.lang.Object"))

/-- The class bound is the root, and there are interfaces behind it. -/
def HidesRoot (p : TypeParam) : Prop :=
  p.classBound.any (·.isRoot) = true ∧ p.interfaceBounds ≠ []

/-- A type parameter in source form without the type arguments of its bounds. -/
def erasedSource (p : TypeParam) : String :=
  match p.bounds with
  | [] => p.name
  | bounds => p.name ++ " extends " ++ " & ".intercalate (bounds.map JavaType.erasedSource)

end TypeParam

/-- A type variable reads like the class of its name that is in no package. -/
def JavaType.IsMistakable (t t' : JavaType) : Prop :=
  ∃ name, t = .variable name ∧ t'.erasedName? = some name

/-! ## What shows of a type -/

theorem JavaType.source_object (outermost : Segment) (inner : List Segment) :
    (JavaType.object outermost inner).source = "$".intercalate ((outermost :: inner).map Segment.source) := by
  rw [JavaType.source]
  induction inner generalizing outermost with
  | nil => simp [sourceOfInner]
  | cons s rest ih =>
    rw [sourceOfInner, List.map_cons, List.map_cons, String.intercalate_cons_cons, ← List.map_cons, ← ih]
    simp only [String.append_assoc]

theorem IsNestName.notMem {isOutermost : Bool} {name : String} {c : Char} (h : IsNestName isOutermost name)
    (hc : c ∈ [';', '[', '/', '<', '>', ':']) : c ∉ name.toList := by
  intro hmem
  cases isOutermost with
  | false => exact h.2 c hmem (List.mem_cons_of_mem _ hc)
  | true => exact h.2 c hmem hc

/-- The name of a class of a nest has no brackets. -/
theorem IsNestName.shows {isOutermost : Bool} {name : String} (h : IsNestName isOutermost name) :
    Shows name name :=
  .plain (h.notMem (by decide)) (h.notMem (by decide))

section Shown

variable {form : Signature.Form}

mutual

/-- Outside of brackets a type shows without its type arguments. -/
theorem JavaType.shows_source : ∀ t : JavaType, t.Proper form → Shows t.source t.erasedSource
  | .primitive type, _ => by
    rw [JavaType.source, JavaType.erasedSource]
    cases type <;> exact .plain (by decide) (by decide)
  | .variable name, h => by
    cases h with
    | typeVariable _ hname =>
      rw [JavaType.source, JavaType.erasedSource]
      exact @IsNestName.shows false _ hname
  | .array element, h => by
    cases h with
    | array helement =>
      rw [JavaType.source, JavaType.erasedSource]
      exact (element.shows_source helement).append (.plain (by decide) (by decide))
  | .object outermost inner, h => by
    cases h with
    | object houtermost _ hinner =>
      rw [JavaType.source_object, JavaType.erasedSource]
      exact .intercalate (.plain (by decide) (by decide))
        (List.forall_mem_cons.2 ⟨outermost.shows_source houtermost, shows_sources inner hinner⟩)

theorem Segment.shows_source {isOutermost : Bool} :
    ∀ s : Segment, s.Proper form isOutermost → Shows s.source s.name
  | .mk name [], h => by
    cases h with
    | mk hname =>
      rw [Segment.source]
      exact hname.shows
  | .mk name (arg :: args), h => by
    cases h with
    | mk hname _ hargs =>
      obtain ⟨harg, hmore⟩ := List.forall_mem_cons.1 hargs
      obtain ⟨_, hfirst⟩ := arg.shows_source harg
      obtain ⟨_, hrest⟩ := shows_sourceOfMoreArgs args hmore
      have hsource : (Segment.mk name (arg :: args)).source =
          name ++ ("<" ++ (arg.source ++ sourceOfMoreArgs args) ++ ">") := by
        simp only [Segment.source, String.append_assoc]
      rw [hsource]
      have hshown := hname.shows.append (hfirst.append hrest).bracketed
      rwa [String.append_empty] at hshown

/-- What a type argument shows as does not matter in its brackets. -/
theorem TypeArg.shows_source : ∀ a : TypeArg, a.Proper form → ∃ shown, Shows a.source shown
  | .any, _ => ⟨_, by rw [TypeArg.source]; exact .plain (by decide) (by decide)⟩
  | .upper bound, h => by
    cases h with
    | upper _ hbound =>
      rw [TypeArg.source]
      exact ⟨_, Shows.append (.plain (by decide) (by decide)) (bound.shows_source hbound)⟩
  | .lower bound, h => by
    cases h with
    | lower _ hbound =>
      rw [TypeArg.source]
      exact ⟨_, Shows.append (.plain (by decide) (by decide)) (bound.shows_source hbound)⟩
  | .exactly type, h => by
    cases h with
    | exactly _ htype =>
      rw [TypeArg.source]
      exact ⟨_, type.shows_source htype⟩

theorem shows_sources : ∀ inner : List Segment,
    (∀ s ∈ inner, s.Proper form false) → ∀ s ∈ inner, Shows s.source s.name
  | [], _ => List.forall_mem_nil _
  | s :: rest, h =>
    List.forall_mem_cons.2 ⟨s.shows_source (h s List.mem_cons_self),
      shows_sources rest fun s hs => h s (List.mem_cons_of_mem _ hs)⟩

theorem shows_sourceOfMoreArgs : ∀ args : List TypeArg,
    (∀ a ∈ args, a.Proper form) → ∃ shown, Shows (sourceOfMoreArgs args) shown
  | [], _ => ⟨_, by rw [sourceOfMoreArgs]; exact .empty⟩
  | a :: rest, h => by
    obtain ⟨_, hfirst⟩ := a.shows_source (h a List.mem_cons_self)
    obtain ⟨_, hrest⟩ := shows_sourceOfMoreArgs rest fun a ha => h a (List.mem_cons_of_mem _ ha)
    rw [sourceOfMoreArgs]
    exact ⟨_, (Shows.append (.plain (by decide) (by decide)) hfirst).append hrest⟩

end

end Shown

/-! ## Type parameters -/

namespace TypeParam

variable {p q : TypeParam}

/-- A bound that shows is one of the bounds. -/
theorem WellFormed.bounds (hp : p.WellFormed) : ∀ t ∈ p.bounds, t.IsReference ∧ t.Proper .generic := by
  intro t ht
  obtain hclass | hinterface := List.mem_append.1 ht
  · obtain ⟨hmem, -⟩ := Option.mem_filter_iff.1 (Option.mem_toList.1 hclass)
    exact ⟨(hp.classBound t hmem).1, (hp.classBound t hmem).2.1⟩
  · exact ⟨(hp.interfaceBounds t hinterface).1, (hp.interfaceBounds t hinterface).2.1⟩

/-- Outside of brackets a type parameter shows without the type arguments of its bounds. -/
theorem shows_source (hp : p.WellFormed) : Shows p.source p.erasedSource := by
  have hname : Shows p.name p.name := @IsNestName.shows false _ hp.name
  have hbounds : Shows (" & ".intercalate (p.bounds.map JavaType.source))
      (" & ".intercalate (p.bounds.map JavaType.erasedSource)) :=
    .intercalate (.plain (by decide) (by decide)) fun t ht => t.shows_source (hp.bounds t ht).2
  unfold source erasedSource
  cases h : p.bounds with
  | nil => exact hname
  | cons first rest =>
    rw [h] at hbounds
    exact (hname.append (.plain (by decide) (by decide))).append hbounds

end TypeParam

/-! ## Characters -/

namespace JavaType

theorem erasedSource_ne_empty {form : Signature.Form} :
    ∀ t : JavaType, t.Proper form → t.erasedSource ≠ ""
  | .primitive type, _ => by cases type <;> decide
  | .variable name, h => by
    cases h with
    | typeVariable _ hname => exact fun hempty => hname.1 (congrArg String.toList hempty)
  | .array element, _ => by simp [erasedSource]
  | .object (.mk name _) inner, h => by
    cases h with
    | object houtermost _ _ =>
      cases houtermost with
      | mk hname =>
        have hne : name ≠ "" := fun hempty => hname.1 (congrArg String.toList hempty)
        cases inner <;> simp [erasedSource, Segment.name, String.intercalate_cons_cons, hne]

/-- A character of no name does not show of a class either. -/
theorem notMem_erasedSource_object {outermost : Segment} {inner : List Segment} {c : Char}
    (hc : c ≠ '$') (h : ∀ s ∈ outermost :: inner, c ∉ s.name.toList) :
    c ∉ (JavaType.object outermost inner).erasedSource.toList :=
  notMem_texts (by simpa using hc) (List.forall_mem_map.2 h)

theorem notMem_name_of_written {isOutermost : Bool} {s : Segment} {c : Char} (hc : c ≠ '.')
    (h : c ∉ s.written isOutermost) : c ∉ s.name.toList := by
  obtain ⟨name, args⟩ := s
  refine fun hmem => h ?_
  cases args with
  | nil => rw [Segment.written]; exact mem_writtenName hmem hc
  | cons a rest => rw [Segment.written]; exact List.mem_append_left _ (mem_writtenName hmem hc)

/-- A blank or a comma that shows of a type is in its written form. -/
theorem notMem_erasedSource {c : Char} (hc : c = ' ' ∨ c = ',') :
    ∀ t : JavaType, c ∉ t.written → c ∉ t.erasedSource.toList
  | .primitive type, _ => by
    obtain rfl | rfl := hc <;> cases type <;> decide
  | .variable name, h => by
    simp only [written, List.mem_cons, List.mem_append, not_or] at h
    exact h.2.1
  | .array element, h => by
    simp only [written, List.mem_cons, not_or] at h
    rw [erasedSource, String.toList_append, List.mem_append, not_or]
    refine ⟨element.notMem_erasedSource hc h.2, ?_⟩
    obtain rfl | rfl := hc <;> decide
  | .object outermost inner, h => by
    have hsigns : c ≠ '.' ∧ c ≠ '$' := by obtain rfl | rfl := hc <;> decide
    simp only [written, List.mem_cons, List.mem_append, not_or, writtenInner_eq, List.mem_flatMap,
      not_exists, not_and] at h
    refine notMem_erasedSource_object hsigns.2 (List.forall_mem_cons.2 ⟨?_, fun s hs => ?_⟩)
    · exact notMem_name_of_written hsigns.1 h.2.1
    · exact notMem_name_of_written hsigns.1 (h.2.2.1 s hs).2

end JavaType

/-! ## What can be read off type parameters -/

namespace TypeParam

variable {p q : TypeParam}

/-- Neither the name nor what shows of the bounds has the character `c`. -/
structure IsFree (c : Char) (p : TypeParam) : Prop where
  name : c ∉ p.name.toList
  bounds : ∀ t ∈ p.bounds, c ∉ t.erasedSource.toList

theorem isFree_of_written {c : Char} (hc : c = ' ' ∨ c = ',') (h : c ∉ p.written) : p.IsFree c := by
  simp only [written, List.mem_append, List.mem_cons, List.mem_flatMap, not_or, not_exists, not_and] at h
  obtain ⟨hname, -, hclass, hinterfaces⟩ := h
  refine ⟨hname, fun t ht => t.notMem_erasedSource hc ?_⟩
  obtain ht | ht := List.mem_append.1 ht
  · obtain ⟨hmem, -⟩ := Option.mem_filter_iff.1 (Option.mem_toList.1 ht)
    simpa [Option.mem_def.1 hmem] using hclass
  · exact (hinterfaces t ht).2

theorem erasedSource_ne_empty (hp : p.WellFormed) : p.erasedSource ≠ "" := by
  have hne : p.name ≠ "" := fun hempty => hp.name.1 (congrArg String.toList hempty)
  unfold erasedSource
  split <;> simp [hne]

/-- A comma in front of another type parameter is not part of what shows of this one. -/
theorem IsFree.comma_notMem (h : p.IsFree ',') : ',' ∉ p.erasedSource.toList := by
  unfold erasedSource
  split
  · exact h.name
  · have hbounds : ',' ∉ (" & ".intercalate (p.bounds.map JavaType.erasedSource)).toList :=
      notMem_texts (by decide) (List.forall_mem_map.2 h.bounds)
    simp only [String.toList_append, List.mem_append, not_or]
    exact ⟨⟨h.name, by decide⟩, hbounds⟩

theorem erasedSource_of_nil (h : p.bounds = []) : p.erasedSource = p.name := by
  rw [erasedSource, h]

theorem erasedSource_of_ne_nil (h : p.bounds ≠ []) : p.erasedSource.toList =
    p.name.toList ++ ' ' :: ("extends ".toList ++
      (" & ".intercalate (p.bounds.map JavaType.erasedSource)).toList) := by
  unfold erasedSource
  split
  · exact absurd ‹p.bounds = []› h
  · simp [String.toList_append]

/-- There is a blank where there are bounds. -/
theorem IsFree.blank_mem_iff (h : p.IsFree ' ') : ' ' ∈ p.erasedSource.toList ↔ p.bounds ≠ [] := by
  constructor
  · intro hblank hnil
    rw [erasedSource_of_nil hnil] at hblank
    exact h.name hblank
  · intro hne
    rw [erasedSource_of_ne_nil hne]
    exact List.mem_append_right _ List.mem_cons_self

/-- The name ends at the first blank, and the first bound at the next one but one. -/
theorem eq_of_erasedSource_eq (hp : p.WellFormed) (hq : q.WellFormed) (hpfree : p.IsFree ' ')
    (hqfree : q.IsFree ' ') (heq : p.erasedSource = q.erasedSource) :
    p.name = q.name ∧ p.bounds.map JavaType.erasedSource = q.bounds.map JavaType.erasedSource := by
  have htexts {p : TypeParam} (hp : p.WellFormed) (hfree : p.IsFree ' ') :
      ∀ text ∈ p.bounds.map JavaType.erasedSource, text ≠ "" ∧ ' ' ∉ text.toList :=
    List.forall_mem_map.2 fun t ht => ⟨t.erasedSource_ne_empty (hp.bounds t ht).2, hfree.bounds t ht⟩
  have hnil : p.bounds = [] ↔ q.bounds = [] := by
    rw [← not_iff_not, ← ne_eq, ← ne_eq, ← hpfree.blank_mem_iff, ← hqfree.blank_mem_iff, heq]
  by_cases h : p.bounds = []
  · rw [erasedSource_of_nil h, erasedSource_of_nil (hnil.1 h)] at heq
    exact ⟨heq, by rw [h, hnil.1 h]⟩
  · have hchars := congrArg String.toList heq
    rw [erasedSource_of_ne_nil h, erasedSource_of_ne_nil (mt hnil.2 h)] at hchars
    obtain ⟨hname, hrest⟩ := eq_of_append_cons_eq hpfree.name hqfree.name hchars
    have hbounds := String.toList_injective (List.append_cancel_left hrest)
    exact ⟨String.toList_injective hname,
      texts_injective (c := ' ') rfl (htexts hp hpfree) (htexts hq hqfree) hbounds⟩

end TypeParam

/-! ## Erasure -/

namespace JavaType

theorem erasedSource_of_isRoot : ∀ {t : JavaType}, t.isRoot = true → t.erasedSource = "java.lang.Object"
  | .object (.mk name _) [], h => by
    simpa [erasedSource, Segment.name] using of_decide_eq_true h

/-- The dimensions of an array show. -/
theorem erasedSource_array_ne {element : JavaType} {outermost : Segment} {inner : List Segment}
    (h : (JavaType.object outermost inner).Proper .generic) :
    (JavaType.array element).erasedSource ≠ (JavaType.object outermost inner).erasedSource := by
  cases h with
  | object houtermost _ hinner =>
    have hname {isOutermost : Bool} {s : Segment} (hs : s.Proper .generic isOutermost) :
        '[' ∉ s.name.toList := by
      cases hs with
      | mk hname => exact hname.notMem (by decide)
    have hobject : '[' ∉ (JavaType.object outermost inner).erasedSource.toList :=
      notMem_erasedSource_object (by decide)
        (List.forall_mem_cons.2 ⟨hname houtermost, fun s hs => hname (hinner s hs)⟩)
    intro heq
    rw [← heq] at hobject
    exact hobject (by simp [erasedSource])

/-- References that read alike have one name, but for a variable and a class. -/
theorem erasedName?_eq_or {t t' : JavaType} (ht : t.IsReference ∧ t.Proper .generic)
    (ht' : t'.IsReference ∧ t'.Proper .generic) (heq : t.erasedSource = t'.erasedSource) :
    t.erasedName? = t'.erasedName? ∨ t.IsMistakable t' ∨ t'.IsMistakable t := by
  cases t with
  | primitive => exact ht.1.elim
  | «variable» name =>
    cases t' with
    | object => exact .inr (.inl ⟨name, rfl, congrArg some heq.symm⟩)
    | primitive | «variable» | array => exact .inl rfl
  | array element =>
    cases t' with
    | object => exact absurd heq (erasedSource_array_ne ht'.2)
    | primitive | «variable» | array => exact .inl rfl
  | object outermost inner =>
    cases t' with
    | primitive => exact ht'.1.elim
    | «variable» name => exact .inr (.inr ⟨name, rfl, congrArg some heq⟩)
    | array => exact absurd heq.symm (erasedSource_array_ne ht.2)
    | object => exact .inl (congrArg some heq)

end JavaType

namespace TypeParam

variable {p q : TypeParam}

theorem WellFormed.erasureBound (hp : p.WellFormed) :
    p.erasureBound.IsReference ∧ p.erasureBound.Proper .generic := by
  have hroot : (JavaType.ofName "java.lang.Object").Proper .generic :=
    (JavaType.wellFormed_ofName ⟨by simp, by simp⟩).1
  unfold TypeParam.erasureBound
  cases hclass : p.classBound with
  | some t => exact ⟨(hp.classBound t hclass).1, (hp.classBound t hclass).2.1⟩
  | none =>
    cases hinterfaces : p.interfaceBounds with
    | nil => exact ⟨trivial, hroot⟩
    | cons t rest =>
      have ht := hp.interfaceBounds t (by rw [hinterfaces]; exact List.mem_cons_self)
      exact ⟨ht.1, ht.2.1⟩

theorem erasedSource_of_hidesRoot (h : p.HidesRoot) : p.erasureBound.erasedSource = "java.lang.Object" := by
  obtain ⟨hroot, -⟩ := h
  unfold erasureBound
  cases hclass : p.classBound with
  | none => rw [hclass] at hroot; cases hroot
  | some t => exact t.erasedSource_of_isRoot (by rwa [hclass] at hroot)

/-- The erasure is the first bound that shows, or the root if none does. -/
theorem erasedSource_of_not_hidesRoot (h : ¬ p.HidesRoot) :
    p.erasureBound.erasedSource = (p.bounds.map JavaType.erasedSource).headD "java.lang.Object" := by
  have hroot : (JavaType.ofName "java.lang.Object").erasedSource = "java.lang.Object" := rfl
  unfold erasureBound bounds
  cases hclass : p.classBound with
  | none => cases p.interfaceBounds <;> simp [hroot]
  | some t =>
    by_cases ht : t.isRoot = true
    · have hnone : p.interfaceBounds = [] := by
        by_contra hne
        exact h ⟨by simpa [hclass] using ht, hne⟩
      simp [Option.filter_some, hnone, ht, JavaType.erasedSource_of_isRoot ht]
    · simp [Option.filter_some, ht]

/-- What a list of type parameters says of two of them that are in the same place. -/
structure ErasesLike (p q : TypeParam) : Prop where
  name : p.name = q.name
  bound : (p.HidesRoot ↔ q.HidesRoot) → p.erasureBound.erasedSource = q.erasureBound.erasedSource
  className : (p.HidesRoot ↔ q.HidesRoot) →
    p.erasureBound.erasedName? = q.erasureBound.erasedName? ∨
      p.erasureBound.IsMistakable q.erasureBound ∨ q.erasureBound.IsMistakable p.erasureBound

/-- A type parameter that can be read off its source form. -/
structure IsReadable (p : TypeParam) : Prop where
  wellFormed : p.WellFormed
  blank : p.IsFree ' '
  comma : p.IsFree ','

theorem IsReadable.erasesLike (hp : p.IsReadable) (hq : q.IsReadable)
    (heq : p.erasedSource = q.erasedSource) : p.ErasesLike q := by
  obtain ⟨hname, hbounds⟩ := eq_of_erasedSource_eq hp.wellFormed hq.wellFormed hp.blank hq.blank heq
  have hbound (h : p.HidesRoot ↔ q.HidesRoot) :
      p.erasureBound.erasedSource = q.erasureBound.erasedSource := by
    by_cases hhides : p.HidesRoot
    · rw [erasedSource_of_hidesRoot hhides, erasedSource_of_hidesRoot (h.1 hhides)]
    · rw [erasedSource_of_not_hidesRoot hhides, erasedSource_of_not_hidesRoot (mt h.2 hhides), hbounds]
  exact ⟨hname, hbound, fun h =>
    JavaType.erasedName?_eq_or hp.wellFormed.erasureBound hq.wellFormed.erasureBound (hbound h)⟩

theorem forall₂_erasesLike {ps qs : List TypeParam} (hps : ∀ p ∈ ps, p.IsReadable)
    (hqs : ∀ q ∈ qs, q.IsReadable) (heq : ps.map erasedSource = qs.map erasedSource) :
    List.Forall₂ ErasesLike ps qs := by
  induction ps generalizing qs with
  | nil =>
    rw [List.map_eq_nil_iff.1 heq.symm]
    exact .nil
  | cons p ps ih =>
    obtain ⟨q, qs, rfl, hq, hmore⟩ := List.map_eq_cons_iff.1 heq.symm
    obtain ⟨hp, hps⟩ := List.forall_mem_cons.1 hps
    obtain ⟨hq', hqs⟩ := List.forall_mem_cons.1 hqs
    exact .cons (hp.erasesLike hq' hq.symm) (ih hps hqs hmore.symm)

end TypeParam

/-! ## Lists of type parameters -/

theorem MethodType.isReadable {m : MethodType} (hm : m.WellFormed .generic)
    (hblank : ' ' ∉ m.text.toList) (hcomma : ',' ∉ m.text.toList) : ∀ p ∈ m.typeParams, p.IsReadable := by
  intro p hp
  have hwritten {c : Char} (hc : c ∉ m.text.toList) : c ∉ p.written := by
    intro hmem
    refine hc ?_
    rw [text, String.toList_ofList, written, writtenTypeParams, if_neg (by simpa using List.ne_nil_of_mem hp)]
    exact List.mem_append_left _ (List.mem_cons_of_mem _
      (List.mem_append_left _ (List.mem_flatMap.2 ⟨p, hp, hmem⟩)))
  exact ⟨hm.typeParams p hp, TypeParam.isFree_of_written (.inl rfl) (hwritten hblank),
    TypeParam.isFree_of_written (.inr rfl) (hwritten hcomma)⟩

/-- The type parameters without the arguments of their bounds are what shows of a list. -/
theorem map_erasedSource_eq {ps qs : List TypeParam} (hps : ∀ p ∈ ps, p.IsReadable)
    (hqs : ∀ q ∈ qs, q.IsReadable) (heq : sourceOfTypeParams ps = sourceOfTypeParams qs) :
    ps.map TypeParam.erasedSource = qs.map TypeParam.erasedSource := by
  have hshows {ps : List TypeParam} (hps : ∀ p ∈ ps, p.IsReadable) :
      Shows (commaSeparated (ps.map TypeParam.source)) (commaSeparated (ps.map TypeParam.erasedSource)) :=
    .intercalate (.plain (by decide) (by decide)) fun p hp => TypeParam.shows_source (hps p hp).wellFormed
  have hparts {ps : List TypeParam} (hps : ∀ p ∈ ps, p.IsReadable) :
      ∀ text ∈ ps.map TypeParam.erasedSource, text ≠ "" ∧ ',' ∉ text.toList :=
    List.forall_mem_map.2 fun p hp =>
      ⟨TypeParam.erasedSource_ne_empty (hps p hp).wellFormed, (hps p hp).comma.comma_notMem⟩
  have hinside : commaSeparated (ps.map TypeParam.source) = commaSeparated (qs.map TypeParam.source) := by
    have hchars := congrArg String.toList heq
    simp only [sourceOfTypeParams, String.toList_append] at hchars
    exact String.toList_injective (List.append_cancel_left (List.append_cancel_right hchars))
  have hshown := (hshows hps).unique (hinside ▸ hshows hqs)
  exact texts_injective (c := ',') rfl (hparts hps) (hparts hqs) hshown

/-- **Type parameters that read alike are erased alike, but for two exceptions.** If two signatures of
methods, in whose names there is neither a blank nor a comma, have type parameters with the same source
form, then the variables have the same names one by one. If in addition a class bound by the root stands
in front of interfaces in both declarations of a variable or in neither of them, then the bounds that the
variable is erased to read alike without their type arguments. They are of the same class, or else one of
them is a variable and the other one is a class with the name of this variable. -/
theorem erasure_of_source {source source' : String} {m m' : MethodType}
    (h : Signature.parseMethodType .generic source = .ok m)
    (h' : Signature.parseMethodType .generic source' = .ok m')
    (hsource : ' ' ∉ source.toList ∧ ',' ∉ source.toList)
    (hsource' : ' ' ∉ source'.toList ∧ ',' ∉ source'.toList)
    (heq : sourceOfTypeParams m.typeParams = sourceOfTypeParams m'.typeParams) :
    List.Forall₂ TypeParam.ErasesLike m.typeParams m'.typeParams := by
  obtain ⟨⟨hm, -⟩, rfl⟩ := Signature.parseMethodType_eq_ok.1 h
  obtain ⟨⟨hm', -⟩, rfl⟩ := Signature.parseMethodType_eq_ok.1 h'
  have hreadable := MethodType.isReadable hm hsource.1 hsource.2
  have hreadable' := MethodType.isReadable hm' hsource'.1 hsource'.2
  exact TypeParam.forall₂_erasesLike hreadable hreadable' (map_erasedSource_eq hreadable hreadable' heq)

/-- A method with a variable of one bound. -/
def boundedMethod (bound : JavaType) : MethodType :=
  ⟨[⟨"U", some bound, []⟩], [], .void, []⟩

/-- A class may be written as the nested class of another one or by its whole name. It reads the same,
and it is the same class. -/
theorem erasure_of_source_nested :
    Signature.parseMethodType .generic "<U:LA.B;>()V" = .ok (boundedMethod (.object (.mk "A" []) [.mk "B" []])) ∧
    Signature.parseMethodType .generic "<U:LA$B;>()V" = .ok (boundedMethod (.ofName "A$B")) ∧
    sourceOfTypeParams (boundedMethod (.ofName "A$B")).typeParams = "<U extends A$B>" ∧
    List.Forall₂ TypeParam.ErasesLike
      (boundedMethod (.object (.mk "A" []) [.mk "B" []])).typeParams (boundedMethod (.ofName "A$B")).typeParams := by
  have hnested : Signature.parseMethodType .generic "<U:LA.B;>()V" =
    .ok (boundedMethod (.object (.mk "A" []) [.mk "B" []])) := by cbv
  have hwhole : Signature.parseMethodType .generic "<U:LA$B;>()V" = .ok (boundedMethod (.ofName "A$B")) := by cbv
  exact ⟨hnested, hwhole, rfl, erasure_of_source hnested hwhole (by decide) (by decide) rfl⟩

/-- A variable whose bound is a variable reads like one whose bound is a class of that name. -/
theorem not_erasure_of_source :
    ¬ ∀ (source source' : String) (m m' : MethodType),
      Signature.parseMethodType .generic source = .ok m → Signature.parseMethodType .generic source' = .ok m' →
      (' ' ∉ source.toList ∧ ',' ∉ source.toList) → (' ' ∉ source'.toList ∧ ',' ∉ source'.toList) →
      sourceOfTypeParams m.typeParams = sourceOfTypeParams m'.typeParams →
      List.Forall₂ (fun p q => p.erasureBound.erasedName? = q.erasureBound.erasedName?)
        m.typeParams m'.typeParams := by
  have hvariable : Signature.parseMethodType .generic "<U:TT;>()V" = .ok (boundedMethod (.variable "T")) := by cbv
  have hclass : Signature.parseMethodType .generic "<U:LT;>()V" = .ok (boundedMethod (.ofName "T")) := by cbv
  intro hall
  obtain _ | ⟨hname, _⟩ := hall _ _ _ _ hvariable hclass (by decide) (by decide) rfl
  cases hname

/-- A method with a variable that is bounded by an interface. -/
def interfaceMethod (classBound : Option JavaType) : MethodType :=
  ⟨[⟨"T", classBound, [.ofName "I"]⟩], [], .void, []⟩

/-- Where only one of two declarations hides the root, the bounds that the variable is erased to do not read
alike: it is the root in the first one and the interface in the second. -/
theorem not_erasedSource_of_source :
    ¬ ∀ (source source' : String) (m m' : MethodType),
      Signature.parseMethodType .generic source = .ok m → Signature.parseMethodType .generic source' = .ok m' →
      (' ' ∉ source.toList ∧ ',' ∉ source.toList) → (' ' ∉ source'.toList ∧ ',' ∉ source'.toList) →
      sourceOfTypeParams m.typeParams = sourceOfTypeParams m'.typeParams →
      List.Forall₂ (fun p q => p.erasureBound.erasedSource = q.erasureBound.erasedSource)
        m.typeParams m'.typeParams := by
  have hroot : Signature.parseMethodType .generic "<T:Ljava/lang/Object;:LI;>()V" =
      .ok (interfaceMethod (some (.ofName "java.lang.Object"))) := by cbv
  have hnone : Signature.parseMethodType .generic "<T::LI;>()V" = .ok (interfaceMethod none) := by cbv
  intro hall
  obtain _ | ⟨hsource, _⟩ := hall _ _ _ _ hroot hnone (by decide) (by decide) (by decide)
  exact absurd hsource (by decide)

end ApiSurface
