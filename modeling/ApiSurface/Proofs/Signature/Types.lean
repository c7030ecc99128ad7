import ApiSurface.Proofs.Signature.Steps

/-!
What the parsers of types accept: exactly the written forms of the types that fit.

Classes and lists of type arguments are treated with the parser of their parts as a parameter. The
recursion is then closed once, in `reads_typeArgs`, by induction on the number of lists of type
arguments that may still be entered. Every level takes at most five calls, so the budget lasts
(`reads_valueType`, `reads_referenceType`, `reads_classType`).
-/

namespace ApiSurface.Signature.Parser

open Reading

variable {form : Form} {path : Path} {input rest : List Char}

/-! ## Names -/

theorem map_eq_self {f : Char → Char} {cs : List Char} (h : ∀ c ∈ cs, f c = c) : cs.map f = cs :=
  (List.map_congr_left h).trans (List.map_id' cs)

theorem internalName_binaryName {raw : List Char} (h : '.' ∉ raw) :
    internalName (binaryName (String.ofList raw)) = raw := by
  rw [internalName, binaryName, String.toList_map, String.toList_ofList, List.map_map]
  refine map_eq_self fun c hc => ?_
  by_cases hslash : c = '/'
  · simp [hslash]
  · have hdot : c ≠ '.' := fun heq => h (heq ▸ hc)
    simp [hslash, hdot]

theorem binaryName_internalName {name : String} (h : '/' ∉ name.toList) :
    binaryName (String.ofList (internalName name)) = name := by
  rw [← String.toList_inj, binaryName, String.toList_map, String.toList_ofList, internalName,
    List.map_map]
  refine map_eq_self fun c hc => ?_
  by_cases hdot : c = '.'
  · simp [hdot]
  · have hslash : c ≠ '/' := fun heq => h (heq ▸ hc)
    simp [hslash, hdot]

theorem binaryName_of_noSlash {raw : List Char} (h : '/' ∉ raw) :
    binaryName (String.ofList raw) = String.ofList raw := by
  rw [← String.toList_inj, binaryName, String.toList_map, String.toList_ofList]
  refine map_eq_self fun c hc => ?_
  have hslash : c ≠ '/' := fun heq => h (heq ▸ hc)
  simp [hslash]

theorem isIdentifier_iff {name : String} {raw : List Char} :
    IsIdentifier name ∧ raw = name.toList ↔
      raw ≠ [] ∧ (∀ c ∈ raw, c ∉ [';', '<', '.', '[', '>', ':']) ∧ '/' ∉ raw ∧
        name = binaryName (String.ofList raw) := by
  constructor
  · rintro ⟨⟨hne, hname⟩, rfl⟩
    have hslash : '/' ∉ name.toList := fun h => by simpa using hname _ h
    refine ⟨hne, fun c hc => ?_, hslash, by rw [binaryName_of_noSlash hslash, String.ofList_toList]⟩
    have hc' := hname c hc
    simp only [List.mem_cons, List.not_mem_nil, or_false, not_or] at hc' ⊢
    tauto
  · rintro ⟨hne, hraw, hslash, rfl⟩
    rw [binaryName_of_noSlash hslash, IsIdentifier, String.toList_ofList]
    refine ⟨⟨hne, fun c hc => ?_⟩, rfl⟩
    have hc' := hraw c hc
    have hslash' : c ≠ '/' := fun heq => hslash (heq ▸ hc)
    simp only [List.mem_cons, List.not_mem_nil, or_false, not_or] at hc' ⊢
    tauto

theorem isClassName_iff {name : String} {raw : List Char} :
    IsClassName name ∧ raw = internalName name ↔
      raw ≠ [] ∧ (∀ c ∈ raw, c ∉ [';', '<', '.', '[', '>', ':']) ∧
        name = binaryName (String.ofList raw) := by
  constructor
  · rintro ⟨⟨hne, hname⟩, rfl⟩
    have hslash : '/' ∉ name.toList := fun h => by simpa using hname _ h
    refine ⟨by simpa [internalName] using hne, ?_, (binaryName_internalName hslash).symm⟩
    intro c hc
    obtain ⟨d, hd, rfl⟩ := List.mem_map.1 hc
    have hd' := hname d hd
    simp only [List.mem_cons, List.not_mem_nil, or_false, not_or] at hd' ⊢
    by_cases hdot : d = '.'
    · simp [hdot]
    · simp only [hdot, ↓reduceIte]
      tauto
  · rintro ⟨hne, hraw, rfl⟩
    have hdot : '.' ∉ raw := fun h => by simpa using hraw _ h
    refine ⟨⟨?_, ?_⟩, (internalName_binaryName hdot).symm⟩
    · simpa [binaryName, String.toList_map] using hne
    · intro c hc
      rw [binaryName, String.toList_map, String.toList_ofList] at hc
      obtain ⟨d, hd, rfl⟩ := List.mem_map.1 hc
      have hd' := hraw d hd
      simp only [List.mem_cons, List.not_mem_nil, or_false, not_or] at hd' ⊢
      by_cases hslash : d = '/'
      · simp [hslash]
      · simp only [hslash, ↓reduceIte]
        tauto

/-- The names whose written forms are runs of characters that end no name of a class. -/
theorem isNestName_iff {isOutermost : Bool} {name : String} {raw : List Char} :
    IsNestName isOutermost name ∧ raw = writtenName isOutermost name ↔
      raw ≠ [] ∧ (∀ c ∈ raw, c ∉ [';', '<', '.', '[', '>', ':']) ∧
        (!isOutermost && raw.contains '/') = false ∧ name = binaryName (String.ofList raw) := by
  cases isOutermost with
  | false => simpa [IsNestName, writtenName] using isIdentifier_iff
  | true => simpa [IsNestName, writtenName] using isClassName_iff

/-! ## Classes, given a parser of type arguments -/

section
variable {typeArgs : Parser (List TypeArg)}

/-- What may follow a class of a nest whose type arguments are missing. -/
def MayFollowSegment (s : Segment) (rest : List Char) : Prop :=
  s.args = [] → ∀ c, rest.head? = some c → c = ';' ∨ c = '.'

theorem reads_segment {isOutermost : Bool} (hargs : ReadsExactly typeArgs
      (fun args => args ≠ [] ∧ ∀ a ∈ args, a.Fits form path.enterArgs) writtenArgList) :
    ReadsBefore (segment form isOutermost typeArgs) (·.Fits form path isOutermost)
      (Segment.written isOutermost) MayFollowSegment := by
  rintro input ⟨name, args⟩ rest
  rw [segment, bind_eq_ok]
  simp only [className_eq_ok, Segment.fits_mk]
  constructor
  · rintro ⟨raw, mid, ⟨hne, hraw, rfl, hmid⟩, h⟩
    cases hinner : !isOutermost && raw.contains '/' with
    | true =>
      rw [if_pos hinner] at h
      exact absurd h (fail_ne_ok _ _)
    | false =>
      obtain ⟨hname, hwritten⟩ := isNestName_iff.2 ⟨hne, hraw, hinner, rfl⟩
      simp only [hinner, Bool.false_eq_true, ↓reduceIte, peek_bind] at h
      by_cases hopen : mid.head? = some '<'
      · rw [if_pos hopen] at h
        cases form with
        | descriptor => simp at h
        | generic =>
          obtain ⟨found, after, hread, hpure⟩ := bind_eq_ok.1 h
          obtain ⟨hseg, rfl⟩ := pure_eq_ok.1 hpure
          obtain ⟨rfl, rfl⟩ := Segment.mk.inj hseg
          obtain ⟨⟨hargsne, hfits⟩, rfl⟩ := (hargs _ _ _).1 hread
          refine ⟨⟨hname, fun _ => rfl, hfits⟩, ?_, fun hnil => absurd hnil hargsne⟩
          rw [Segment.written_args _ _ hargsne, ← hwritten, List.append_assoc]
      · rw [if_neg hopen] at h
        obtain ⟨hseg, rfl⟩ := pure_eq_ok.1 h
        obtain ⟨rfl, rfl⟩ := Segment.mk.inj hseg
        refine ⟨⟨hname, fun hnil => absurd rfl hnil, by simp⟩, ?_, fun _ c hc => ?_⟩
        · rw [Segment.written_nil, ← hwritten]
        · have hc' := hmid c hc
          simp only [List.mem_cons, List.not_mem_nil, or_false] at hc'
          rcases hc' with rfl | rfl | rfl
          · exact .inl rfl
          · exact absurd hc hopen
          · exact .inr rfl
  · rintro ⟨⟨hname, hform, hfits⟩, rfl, hfollow⟩
    obtain ⟨hne, hraw, hinner, hback⟩ := isNestName_iff.1 ⟨hname, rfl⟩
    by_cases hargsne : args = []
    · subst hargsne
      have hends := hfollow rfl
      refine ⟨writtenName isOutermost name, rest, ⟨hne, hraw, ?_, fun c hc => ?_⟩, ?_⟩
      · rw [Segment.written_nil]
      · rcases hends c hc with rfl | rfl <;> simp
      · have hclosed : rest.head? ≠ some '<' := fun hc => by simpa using hends _ hc
        simp only [hinner, Bool.false_eq_true, ↓reduceIte, peek_bind, if_neg hclosed, pure_eq_ok,
          ← hback, true_and]
    · refine ⟨writtenName isOutermost name, writtenArgList args ++ rest, ⟨hne, hraw, ?_, ?_⟩, ?_⟩
      · rw [Segment.written_args _ _ hargsne, List.append_assoc]
      · simp [writtenArgList]
      · have hopen : (writtenArgList args ++ rest).head? = some '<' := rfl
        obtain rfl := hform hargsne
        simp only [hinner, Bool.false_eq_true, ↓reduceIte, peek_bind, if_pos hopen]
        rw [bind_of_ok ((hargs _ _ _).2 ⟨⟨hargsne, hfits⟩, rfl⟩), ← hback]
        rfl

/-- The class that follows the mark of a nested class. -/
theorem reads_nested (hargs : ReadsExactly typeArgs
      (fun args => args ≠ [] ∧ ∀ a ∈ args, a.Fits form path.enterArgs) writtenArgList) :
    ReadsBefore
      (do
        if (← peek) = some '.' ∧ form = .generic then
          skip
          segment form false typeArgs
        else
          fail .unterminatedClass)
      (fun s => form = .generic ∧ s.Fits form path false) (fun s => '.' :: s.written false)
      MayFollowSegment := by
  intro input s rest
  rw [peek_bind]
  constructor
  · intro h
    split at h
    · next hdot =>
      obtain ⟨hdot, hform⟩ := hdot
      rw [skip_bind] at h
      obtain ⟨hfits, htail, hfollow⟩ := (reads_segment hargs _ _ _).1 h
      refine ⟨⟨hform, hfits⟩, ?_, hfollow⟩
      cases input with
      | nil => simp at hdot
      | cons c input =>
        obtain rfl : c = '.' := by simpa using hdot
        rw [List.cons_append, ← htail, List.tail_cons]
    · simp at h
  · rintro ⟨⟨hform, hfits⟩, rfl, hfollow⟩
    rw [if_pos ⟨rfl, hform⟩, skip_bind]
    exact (reads_segment hargs _ _ _).2 ⟨hfits, rfl, hfollow⟩

/-- A class of a nest is followed by the next one or by the end. -/
theorem mayFollowSegment_nested (s : Segment) (inner : List Segment) (rest : List Char) :
    MayFollowSegment s (inner.flatMap (fun s => '.' :: s.written false) ++ ';' :: rest) := by
  intro _ c hc
  cases inner with
  | nil => exact .inl (Option.some.inj hc).symm
  | cons next inner => exact .inr (Option.some.inj hc).symm

theorem chained_nested (rest : List Char) (inner : List Segment) :
    Chained (·.head? ≠ some ';') (fun s => '.' :: Segment.written false s) MayFollowSegment
      (';' :: rest) inner := by
  induction inner with
  | nil => simp [Chained]
  | cons s inner ih => exact ⟨by simp, mayFollowSegment_nested s inner rest, ih⟩

theorem reads_objectType (hpath : path.Within) (hargs : ReadsExactly typeArgs
      (fun args => args ≠ [] ∧ ∀ a ∈ args, a.Fits form path.enterArgs) writtenArgList) :
    ReadsExactly (objectType form typeArgs) (fun t => t.IsObject ∧ t.Fits form path)
      JavaType.written := by
  intro input t rest
  simp only [objectType, bind_eq_ok, expect_eq_ok, reads_segment hargs _ _ _,
    repeatUntil_eq_ok (reads_nested hargs) (by simp), pure_eq_ok]
  constructor
  · rintro ⟨_, _, rfl, outermost, _, ⟨houter, rfl, -⟩, inner, _, ⟨hinner, rfl, -⟩, rfl, rfl⟩
    refine ⟨⟨trivial, JavaType.fits_object.2 ⟨hpath, houter, ?_, fun s hs => (hinner s hs).2⟩⟩, ?_⟩
    · intro hne
      obtain ⟨s, hs⟩ := List.exists_mem_of_ne_nil _ hne
      exact (hinner s hs).1
    · simp [JavaType.written, writtenInner_eq]
  · rintro ⟨⟨hobject, hfits⟩, rfl⟩
    cases t with
    | object outermost inner =>
      obtain ⟨-, houter, hform, hinner⟩ := JavaType.fits_object.1 hfits
      exact ⟨(), _, rfl, outermost, inner.flatMap (fun s => '.' :: s.written false) ++ ';' :: rest,
        ⟨houter, by simp [writtenInner_eq], mayFollowSegment_nested outermost inner rest⟩, inner, rest,
        ⟨fun s hs => ⟨hform (List.ne_nil_of_mem hs), hinner s hs⟩, rfl, chained_nested rest inner⟩,
        rfl, rfl⟩
    | _ => exact hobject.elim

end

/-! ## Type arguments, given a parser of references -/

section
variable {reference : Parser JavaType}

theorem reads_typeArg (hpath : path.Within)
    (href : ReadsExactly reference (fun t => t.IsReference ∧ t.Fits form path) JavaType.written) :
    ReadsExactly
      (do
        match ← peek with
        | some '*' =>
          skip
          return .any
        | some '+' =>
          skip
          return .upper (← reference)
        | some '-' =>
          skip
          return .lower (← reference)
        | _ => return .exactly (← reference))
      (·.Fits form path) TypeArg.written := by
  intro input a rest
  rw [peek_bind]
  constructor
  · intro h
    have hexactly (h : (do return .exactly (← reference) : Parser TypeArg) input = .ok (a, rest)) :
        a.Fits form path ∧ input = a.written ++ rest := by
      obtain ⟨type, htype, rfl⟩ := mapped_eq_ok.1 h
      obtain ⟨hfits, hinput⟩ := (href _ _ _).1 htype
      exact ⟨TypeArg.fits_exactly.2 hfits, hinput⟩
    cases input with
    | nil => exact hexactly h
    | cons c input =>
      by_cases hany : c = '*'
      · subst hany
        obtain ⟨rfl, rfl⟩ := pure_eq_ok.1 h
        exact ⟨TypeArg.fits_any.2 hpath, rfl⟩
      by_cases hupper : c = '+'
      · subst hupper
        obtain ⟨bound, hbound, rfl⟩ := mapped_eq_ok.1 h
        obtain ⟨hfits, hinput⟩ := (href _ _ _).1 hbound
        exact ⟨TypeArg.fits_upper.2 hfits, congrArg ('+' :: ·) hinput⟩
      by_cases hlower : c = '-'
      · subst hlower
        obtain ⟨bound, hbound, rfl⟩ := mapped_eq_ok.1 h
        obtain ⟨hfits, hinput⟩ := (href _ _ _).1 hbound
        exact ⟨TypeArg.fits_lower.2 hfits, congrArg ('-' :: ·) hinput⟩
      · refine hexactly ((congrFun ?_ _).trans h)
        rw [List.head?_cons]
        split
        · next heq => exact absurd (Option.some.inj heq) hany
        · next heq => exact absurd (Option.some.inj heq) hupper
        · next heq => exact absurd (Option.some.inj heq) hlower
        · rfl
  · rintro ⟨hfits, rfl⟩
    cases a with
    | any => rfl
    | upper bound => exact mapped_eq_ok.2 ⟨bound, (href _ _ _).2 ⟨TypeArg.fits_upper.1 hfits, rfl⟩, rfl⟩
    | lower bound => exact mapped_eq_ok.2 ⟨bound, (href _ _ _).2 ⟨TypeArg.fits_lower.1 hfits, rfl⟩, rfl⟩
    | exactly type =>
      have hread := (href (type.written ++ rest) type rest).2 ⟨TypeArg.fits_exactly.1 hfits, rfl⟩
      have hmark := type.mark_of_isReference (TypeArg.fits_exactly.1 hfits).1
      simp only [List.mem_cons, List.not_mem_nil, or_false] at hmark
      rw [TypeArg.written, type.head?_written]
      rcases hmark with hmark | hmark | hmark <;> rw [hmark] <;>
        exact mapped_eq_ok.2 ⟨type, hread, rfl⟩

theorem reads_typeArgList (hpath : path.Within)
    (href : ReadsExactly reference (fun t => t.IsReference ∧ t.Fits form path) JavaType.written) :
    ReadsExactly (typeArgList reference) (fun args => args ≠ [] ∧ ∀ a ∈ args, a.Fits form path)
      writtenArgList := by
  have hfirst (a : TypeArg) (ha : a.Fits form path) : ∃ c cs, a.written = c :: cs ∧ c ≠ '>' := by
    cases a with
    | any => exact ⟨_, _, rfl, by decide⟩
    | upper bound => exact ⟨_, _, rfl, by decide⟩
    | lower bound => exact ⟨_, _, rfl, by decide⟩
    | exactly type =>
      obtain ⟨cs, h⟩ := type.exists_written
      refine ⟨type.mark, cs, h, fun heq => ?_⟩
      simpa [heq] using type.mark_of_isReference (TypeArg.fits_exactly.1 ha).1
  intro input args rest
  have hitems := reads_repeatUntil (reads_typeArg hpath href) hfirst
  rw [typeArgList, bind_eq_ok]
  simp only [expect_eq_ok]
  constructor
  · rintro ⟨_, _, rfl, h⟩
    obtain ⟨found, _, hfound, hresult⟩ := bind_eq_ok.1 h
    obtain ⟨hfits, rfl⟩ := (hitems _ _ _).1 hfound
    split at hresult
    · exact absurd hresult (fail_ne_ok _ _)
    · next hne =>
      obtain ⟨rfl, rfl⟩ := pure_eq_ok.1 hresult
      exact ⟨⟨by simpa using hne, hfits⟩, by simp [writtenArgList]⟩
  · rintro ⟨⟨hne, hfits⟩, rfl⟩
    refine ⟨(), _, rfl, bind_eq_ok.2 ⟨args, rest, (hitems _ _ _).2 ⟨hfits, rfl⟩, ?_⟩⟩
    rw [if_neg (by simpa using hne)]
    rfl

end

/-! ## Arrays -/

theorem exists_arrayOf : ∀ t : JavaType, ∃ n element, t = arrayOf n element ∧ element.mark ≠ '['
  | .primitive type => ⟨0, _, rfl, fun h => absurd (by rw [← h]; simp [JavaType.mark]) type.tag_notMem⟩
  | .object .. => ⟨0, _, rfl, by simp [JavaType.mark]⟩
  | .variable _ => ⟨0, _, rfl, by simp [JavaType.mark]⟩
  | .array element => by
    obtain ⟨n, innermost, rfl, h⟩ := exists_arrayOf element
    exact ⟨n + 1, innermost, rfl, h⟩

theorem written_arrayOf (n : Nat) (t : JavaType) :
    (arrayOf n t).written = List.replicate n '[' ++ t.written := by
  induction n with
  | zero => rfl
  | succ n ih => rw [arrayOf, JavaType.written, ih, List.replicate_succ, List.cons_append]

theorem fits_arrayOf {n : Nat} {t : JavaType} : (arrayOf n t).Fits form path ↔
    t.Fits form { path with dimensions := path.dimensions + n } := by
  induction n generalizing path with
  | zero => rfl
  | succ n ih =>
    rw [arrayOf, JavaType.fits_array, ih, Path.enterArray, Nat.add_assoc, Nat.add_comm 1]

/-- What a descriptor denotes has no part that is erased: it is a primitive type or the name of a class,
or an array of these. -/
theorem exists_arrayOf_of_descriptor : ∀ {t : JavaType}, t.Proper .descriptor → ∃ n,
    (∃ type, t = arrayOf n (.primitive type)) ∨ ∃ name, t = arrayOf n (.ofName name)
  | .primitive type, _ => ⟨0, .inl ⟨type, rfl⟩⟩
  | .object (.mk name args) inner, h => by
    cases h with
    | object houter hinner _ =>
      cases houter with
      | mk _ hargs _ =>
        obtain rfl : args = [] := by
          by_contra hne
          exact absurd (hargs hne) (by decide)
        obtain rfl : inner = [] := by
          by_contra hne
          exact absurd (hinner hne) (by decide)
        exact ⟨0, .inr ⟨name, rfl⟩⟩
  | .variable _, h => by
    cases h with
    | typeVariable hform => exact absurd hform (by decide)
  | .array element, h => by
    cases h with
    | array helement =>
      obtain ⟨n, ⟨type, rfl⟩ | ⟨name, rfl⟩⟩ := exists_arrayOf_of_descriptor helement
      · exact ⟨n + 1, .inl ⟨type, rfl⟩⟩
      · exact ⟨n + 1, .inr ⟨name, rfl⟩⟩

/-! ## Types, given the parsers that they call -/

/-- The parser gives exactly the types whose written form `input` begins with. -/
def ReadsTypesAt (x : Parser JavaType) (allowed : JavaType → Prop) (input : List Char) : Prop :=
  ∀ t rest, x input = .ok (t, rest) ↔ allowed t ∧ input = t.written ++ rest

variable {budget : Nat}

theorem reads_arrayType (hopen : input.head? = some '[')
    (helement : ∀ n rest, path.dimensions + n ≤ maxDimensions → rest.head? ≠ some '[' →
      ReadsTypesAt (valueType form budget { path with dimensions := path.dimensions + n })
        (·.Fits form { path with dimensions := path.dimensions + n }) rest) :
    ReadsTypesAt (referenceType form (budget + 1) path) (fun t => t.IsReference ∧ t.Fits form path)
      input := by
  intro t rest
  rw [referenceType.eq_def]
  dsimp only
  rw [peek_bind, hopen]
  constructor
  · intro h
    obtain ⟨cs, mid, hrun, hlimit⟩ := bind_eq_ok.1 h
    obtain ⟨hcs, rfl, hmid⟩ := run_eq_ok.1 hrun
    obtain ⟨n, rfl⟩ : ∃ n, cs = List.replicate n '[' :=
      ⟨_, List.eq_replicate_iff.2 ⟨rfl, by simpa using hcs⟩⟩
    have hclosed : mid.head? ≠ some '[' := fun hc => by simpa using hmid _ hc
    rw [List.length_replicate] at hlimit
    split at hlimit
    · exact absurd hlimit (fail_ne_ok _ _)
    · next hdimensions =>
      obtain ⟨element, hread, rfl⟩ := mapped_eq_ok.1 hlimit
      obtain ⟨hfits, rfl⟩ := (helement n mid (by omega) hclosed _ _).1 hread
      refine ⟨⟨?_, fits_arrayOf.2 hfits⟩, by rw [written_arrayOf, List.append_assoc]⟩
      cases n with
      | zero => exact absurd hopen hclosed
      | succ n => trivial
  · rintro ⟨⟨-, hfits⟩, rfl⟩
    obtain ⟨n, element, rfl, hmark⟩ := exists_arrayOf t
    rw [fits_arrayOf] at hfits
    have hdimensions : path.dimensions + n ≤ maxDimensions := hfits.within.dimensions
    have hclosed : (element.written ++ rest).head? ≠ some '[' := by
      rw [element.head?_written]
      exact fun h => hmark (Option.some.inj h)
    rw [written_arrayOf, List.append_assoc]
    refine bind_eq_ok.2 ⟨List.replicate n '[', element.written ++ rest, run_eq_ok.2 ⟨?_, rfl, ?_⟩, ?_⟩
    · simp
    · intro c hc
      exact decide_eq_false fun heq => hclosed (heq ▸ hc)
    · rw [List.length_replicate, if_neg (Nat.not_lt.2 hdimensions)]
      exact mapped_eq_ok.2 ⟨element, (helement n _ hdimensions hclosed _ _).2 ⟨hfits, rfl⟩, rfl⟩

theorem reads_variableType (hpath : path.Within) (hmark : input.head? = some 'T') :
    ReadsTypesAt (referenceType form (budget + 1) path) (fun t => t.IsReference ∧ t.Fits form path)
      input := by
  intro t rest
  have hvariable (hinput : input = t.written ++ rest) : ∃ name, t = .variable name := by
    rw [hinput, t.head?_written] at hmark
    exact t.exists_variable_of_mark (Option.some.inj hmark)
  rw [referenceType.eq_def]
  dsimp only
  rw [peek_bind, hmark]
  cases form with
  | descriptor =>
    simp only [fail_ne_ok, false_iff, not_and]
    rintro ⟨-, hfits⟩ hinput
    obtain ⟨name, rfl⟩ := hvariable hinput
    exact absurd (JavaType.fits_variable.1 hfits).2.1 (by decide)
  | generic =>
    obtain ⟨input, rfl⟩ : ∃ cs, input = 'T' :: cs := List.head?_eq_some_iff.1 hmark
    simp only [skip_bind, List.tail_cons, bind_eq_ok, identifier_eq_ok ';' (by simp),
      expect_eq_ok, pure_eq_ok]
    constructor
    · rintro ⟨name, _, ⟨hname, rfl, -⟩, _, _, rfl, rfl, rfl⟩
      exact ⟨⟨trivial, JavaType.fits_variable.2 ⟨hpath, rfl, hname⟩⟩, by simp [JavaType.written]⟩
    · rintro ⟨⟨-, hfits⟩, hinput⟩
      obtain ⟨name, rfl⟩ := hvariable hinput
      obtain ⟨-, -, hname⟩ := JavaType.fits_variable.1 hfits
      refine ⟨name, ';' :: rest, ⟨hname, ?_, rfl⟩, (), rest, rfl, rfl, rfl⟩
      simpa [JavaType.written] using hinput

theorem referenceType_eq_fail (hmark : ∀ c, input.head? = some c → c ∉ ['L', 'T', '[']) :
    referenceType form (budget + 1) path input = fail .expectedReference input := by
  rw [referenceType.eq_def]
  dsimp only
  rw [peek_bind]
  refine congrFun ?_ input
  split
  · next heq => exact absurd (hmark _ heq) (by simp)
  · next heq => exact absurd (hmark _ heq) (by simp)
  · next heq => exact absurd (hmark _ heq) (by simp)
  · rfl

/-- References that are no arrays. -/
theorem reads_plainReference (hpath : path.Within) (hclosed : input.head? ≠ some '[')
    (hclass : ReadsExactly (classType form budget path) (fun t => t.IsObject ∧ t.Fits form path)
      JavaType.written) :
    ReadsTypesAt (referenceType form (budget + 1) path) (fun t => t.IsReference ∧ t.Fits form path)
      input := by
  by_cases hvariable : input.head? = some 'T'
  · exact reads_variableType hpath hvariable
  intro t rest
  have hmark (hinput : input = t.written ++ rest) : input.head? = some t.mark := by
    rw [hinput, t.head?_written]
  by_cases hobject : input.head? = some 'L'
  · rw [referenceType.eq_def]
    dsimp only
    rw [peek_bind, hobject]
    simp only [hclass input t rest]
    constructor
    · rintro ⟨⟨hobject, hfits⟩, hinput⟩
      exact ⟨⟨JavaType.isReference_of_isObject hobject, hfits⟩, hinput⟩
    · rintro ⟨⟨-, hfits⟩, hinput⟩
      rw [hmark hinput] at hobject
      exact ⟨⟨t.isObject_of_mark (Option.some.inj hobject), hfits⟩, hinput⟩
  · have hother : ∀ c, input.head? = some c → c ∉ ['L', 'T', '['] := by
      intro c hc
      simp only [hc, ne_eq, Option.some.injEq] at hclosed hvariable hobject
      simp [hclosed, hvariable, hobject]
    rw [referenceType_eq_fail hother]
    simp only [fail_ne_ok, false_iff, not_and]
    rintro ⟨href, -⟩ hinput
    exact hother _ (hmark hinput) (t.mark_of_isReference href)

theorem reads_valueType_of_reference (hpath : path.Within)
    (href : ReadsTypesAt (referenceType form budget path)
      (fun t => t.IsReference ∧ t.Fits form path) input) :
    ReadsTypesAt (valueType form (budget + 1) path) (·.Fits form path) input := by
  intro t rest
  rw [valueType.eq_def]
  dsimp only
  rw [peek_bind]
  cases input with
  | nil =>
    simp only [List.head?_nil, fail_ne_ok, false_iff, not_and]
    intro _ hinput
    simpa [← hinput] using t.head?_written rest
  | cons c input =>
    rw [List.head?_cons]
    dsimp only
    cases htag : Primitive.ofTag? c with
    | none =>
      dsimp only
      rw [href t rest]
      constructor
      · rintro ⟨⟨-, hfits⟩, hinput⟩
        exact ⟨hfits, hinput⟩
      · rintro ⟨hfits, hinput⟩
        refine ⟨⟨?_, hfits⟩, hinput⟩
        cases t with
        | primitive type =>
          obtain rfl : c = type.tag := (List.cons.inj hinput).1
          simp at htag
        | object | «variable» | array => trivial
    | some type =>
      obtain rfl := Primitive.tag_of_ofTag? htag
      dsimp only
      rw [skip_bind, pure_eq_ok, List.tail_cons]
      constructor
      · rintro ⟨rfl, rfl⟩
        exact ⟨JavaType.fits_primitive.2 hpath, rfl⟩
      · rintro ⟨-, hinput⟩
        have hmark := t.head?_written rest
        rw [← hinput] at hmark
        obtain rfl := t.eq_primitive_of_mark (Option.some.inj hmark).symm
        exact ⟨rfl, (List.cons.inj hinput).2⟩

/-! ## All types -/

section
variable {n : Nat}

/-- Five calls for each list of type arguments that may still be entered are enough. -/
def ReadsTypeArgs (form : Form) (n : Nat) : Prop :=
  ∀ ⦃budget path⦄, path.Within → maxNesting ≤ path.nesting + n → 5 * n ≤ budget →
    ReadsExactly (typeArgs form budget path)
      (fun args => args ≠ [] ∧ ∀ a ∈ args, a.Fits form path.enterArgs) writtenArgList

theorem reads_classType_of (hargs : ReadsTypeArgs form n) (hpath : path.Within)
    (hn : maxNesting ≤ path.nesting + n) (hbudget : 5 * n + 1 ≤ budget) :
    ReadsExactly (classType form budget path) (fun t => t.IsObject ∧ t.Fits form path)
      JavaType.written := by
  obtain ⟨budget, rfl⟩ := Nat.exists_eq_add_of_le' (Nat.le_of_add_left_le hbudget)
  rw [classType]
  exact reads_objectType hpath (hargs hpath hn (by omega))

theorem reads_plainValue_of (hargs : ReadsTypeArgs form n) (hpath : path.Within)
    (hn : maxNesting ≤ path.nesting + n) (hbudget : 5 * n + 3 ≤ budget)
    (hclosed : input.head? ≠ some '[') :
    ReadsTypesAt (valueType form budget path) (·.Fits form path) input := by
  obtain ⟨budget, rfl⟩ := Nat.exists_eq_add_of_le' (Nat.le_of_add_left_le hbudget)
  exact reads_valueType_of_reference hpath <|
    reads_plainReference hpath hclosed (reads_classType_of hargs hpath hn (by omega))

theorem reads_referenceType_of (hargs : ReadsTypeArgs form n) (hpath : path.Within)
    (hn : maxNesting ≤ path.nesting + n) (hbudget : 5 * n + 4 ≤ budget) :
    ReadsExactly (referenceType form budget path) (fun t => t.IsReference ∧ t.Fits form path)
      JavaType.written := by
  obtain ⟨budget, rfl⟩ := Nat.exists_eq_add_of_le' (Nat.le_of_add_left_le hbudget)
  intro input
  by_cases hopen : input.head? = some '['
  · refine reads_arrayType hopen fun k rest hk hclosed => ?_
    exact reads_plainValue_of hargs ⟨hk, hpath.nesting⟩ hn (by omega) hclosed
  · exact reads_plainReference hpath hopen (reads_classType_of hargs hpath hn (by omega))

theorem reads_valueType_of (hargs : ReadsTypeArgs form n) (hpath : path.Within)
    (hn : maxNesting ≤ path.nesting + n) (hbudget : 5 * n + 5 ≤ budget) :
    ReadsExactly (valueType form budget path) (·.Fits form path) JavaType.written := by
  obtain ⟨budget, rfl⟩ := Nat.exists_eq_add_of_le' (Nat.le_of_add_left_le hbudget)
  intro input
  exact reads_valueType_of_reference hpath (reads_referenceType_of hargs hpath hn (by omega) input)

/-- Where no more lists of type arguments may be entered, nothing can be read and nothing fits. -/
theorem reads_typeArgs_full (hfull : maxNesting ≤ path.nesting) :
    ReadsExactly (typeArgs form budget path)
      (fun args => args ≠ [] ∧ ∀ a ∈ args, a.Fits form path.enterArgs) writtenArgList := by
  intro input args rest
  have hleft : typeArgs form budget path input ≠ .ok (args, rest) := by
    cases budget with
    | zero => exact fail_ne_ok _ _
    | succ budget =>
      rw [typeArgs.eq_def]
      dsimp only
      rw [if_pos hfull]
      exact fail_ne_ok _ _
  simp only [hleft, false_iff, not_and]
  rintro ⟨hne, hargs⟩ -
  obtain ⟨a, ha⟩ := List.exists_mem_of_ne_nil args hne
  have hnesting : path.nesting + 1 ≤ maxNesting := (hargs a ha).within.nesting
  omega

theorem reads_typeArgs (form : Form) (n : Nat) : ReadsTypeArgs form n := by
  induction n with
  | zero => exact fun _ _ _ hn _ => reads_typeArgs_full hn
  | succ n ih =>
    intro budget path hpath hn hbudget
    by_cases hfull : maxNesting ≤ path.nesting
    · exact reads_typeArgs_full hfull
    · obtain ⟨budget, rfl⟩ := Nat.exists_eq_add_of_le' (Nat.le_of_add_left_le hbudget)
      have hmore : path.enterArgs.Within := ⟨hpath.dimensions, Nat.lt_of_not_le hfull⟩
      have hless : maxNesting ≤ path.nesting + 1 + n := by omega
      rw [typeArgs.eq_def]
      dsimp only
      rw [if_neg hfull]
      exact reads_typeArgList hmore (reads_referenceType_of ih hmore hless (by omega))

theorem within_top : Path.top.Within :=
  ⟨Nat.zero_le _, Nat.zero_le _⟩

theorem reads_classType (form : Form) : ReadsExactly (classType form callBudget .top)
    (fun t => t.IsObject ∧ t.WellFormed form) JavaType.written :=
  reads_classType_of (reads_typeArgs form maxNesting) within_top (Nat.le_add_left _ _) (by decide)

theorem reads_referenceType (form : Form) : ReadsExactly (referenceType form callBudget .top)
    (fun t => t.IsReference ∧ t.WellFormed form) JavaType.written :=
  reads_referenceType_of (reads_typeArgs form maxNesting) within_top (Nat.le_add_left _ _) (by decide)

theorem reads_valueType (form : Form) : ReadsExactly (valueType form callBudget .top)
    (·.WellFormed form) JavaType.written :=
  reads_valueType_of (reads_typeArgs form maxNesting) within_top (Nat.le_add_left _ _) (by decide)

end

end ApiSurface.Signature.Parser
