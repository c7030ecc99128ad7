import ApiSurface.Proofs.Signature.Types

/-!
What the parsers of type parameters, methods and classes accept.

Every part but one is recognized by the character in front of it or by the one behind the part before.
The exception is a type parameter without a bound: what follows it is taken for its class bound when
it begins like one. `AreParted` says that this does not happen, and `typeParams_unparted` that nothing
is read when it does.
-/

namespace ApiSurface.Signature.Parser

open Reading

variable {form : Form} {input rest : List Char}

/-! ## Type parameters -/

/-- The class bound, if there is one, is written in front of `rest`, and if there is none, `rest` does
not begin like one. -/
def StartsWithBound (input : List Char) (bound : Option JavaType) (rest : List Char) : Prop :=
  (∀ t ∈ bound, t.IsReference ∧ t.WellFormed .generic) ∧
    input = (bound.map JavaType.written).getD [] ++ rest ∧
    (bound = none → ∀ c, rest.head? = some c → c ∉ ['L', 'T', '['])

theorem bind_classBound_eq_ok {β : Type} {f : Option JavaType → Parser β} {r : β × List Char} :
    (match input.head? with
      | some 'L' => do f (← some <$> referenceType .generic callBudget .top)
      | some 'T' => do f (← some <$> referenceType .generic callBudget .top)
      | some '[' => do f (← some <$> referenceType .generic callBudget .top)
      | _ => do f (← pure none)) input = .ok r ↔
    ∃ bound rest, StartsWithBound input bound rest ∧ f bound rest = .ok r := by
  by_cases hmark : ∃ c ∈ ['L', 'T', '['], input.head? = some c
  · obtain ⟨c, hc, hhead⟩ := hmark
    have hread : (do f (← some <$> referenceType .generic callBudget .top)) input = .ok r ↔
        ∃ bound rest, StartsWithBound input bound rest ∧ f bound rest = .ok r := by
      simp only [bind_eq_ok, map_eq_ok, reads_referenceType .generic _ _ _]
      constructor
      · rintro ⟨_, rest, ⟨t, ⟨ht, rfl⟩, rfl⟩, hf⟩
        exact ⟨some t, rest, ⟨by simpa using ht, rfl, by simp⟩, hf⟩
      · rintro ⟨bound, rest, ⟨hbound, rfl, hnone⟩, hf⟩
        cases bound with
        | none => exact absurd hc (hnone rfl c hhead)
        | some t => exact ⟨some t, rest, ⟨t, ⟨hbound t rfl, rfl⟩, rfl⟩, hf⟩
    rw [hhead]
    simp only [List.mem_cons, List.not_mem_nil, or_false] at hc
    rcases hc with rfl | rfl | rfl <;> exact hread
  · have hskip : (do f (← pure none)) input = .ok r ↔
        ∃ bound rest, StartsWithBound input bound rest ∧ f bound rest = .ok r := by
      constructor
      · exact fun h => ⟨none, input, ⟨by simp, rfl, fun _ c hc hmem => hmark ⟨c, hmem, hc⟩⟩, h⟩
      · rintro ⟨bound, rest, ⟨hbound, rfl, -⟩, hf⟩
        cases bound with
        | none => exact hf
        | some t =>
          exact absurd ⟨t.mark, t.mark_of_isReference (hbound t rfl).1, t.head?_written rest⟩ hmark
    rw [← hskip]
    refine iff_of_eq (congrArg (· = Except.ok r) (congrFun ?_ input))
    split
    · next heq => exact absurd ⟨_, by simp, heq⟩ hmark
    · next heq => exact absurd ⟨_, by simp, heq⟩ hmark
    · next heq => exact absurd ⟨_, by simp, heq⟩ hmark
    · rfl

/-- What may follow a type parameter: no further bound. -/
def MayFollowTypeParam (p : TypeParam) (rest : List Char) : Prop :=
  rest.head? ≠ some ':' ∧ (p.classBound = none → p.interfaceBounds = [] →
    ∀ c, rest.head? = some c → c ∉ ['L', 'T', '['])

theorem reads_typeParam : ReadsBefore (typeParam .generic callBudget) TypeParam.WellFormed
    TypeParam.written MayFollowTypeParam := by
  have hbounds := reads_repeatMarked ':' (reads_referenceType .generic)
  intro input p rest
  simp only [typeParam, bind_eq_ok, identifier_eq_ok ':' (by simp), expect_eq_ok, peek_bind]
  constructor
  · rintro ⟨name, _, ⟨hname, rfl, -⟩, _, mid, rfl, h⟩
    obtain ⟨bound, after, ⟨hbound, rfl, hnone⟩, hafter⟩ := bind_classBound_eq_ok.1 h
    obtain ⟨bounds, hread, rfl⟩ := mapped_eq_ok.1 hafter
    obtain ⟨hall, rfl, hcolon⟩ := (hbounds _ _ _).1 hread
    refine ⟨⟨hname, hbound, hall⟩, by simp [TypeParam.written], hcolon, fun hc hi => ?_⟩
    obtain rfl : bounds = [] := hi
    exact hnone hc
  · rintro ⟨hp, rfl, hcolon, hnone⟩
    let after := p.interfaceBounds.flatMap (fun t => ':' :: t.written) ++ rest
    let mid := (p.classBound.map JavaType.written).getD [] ++ after
    have hread := (hbounds after p.interfaceBounds rest).2 ⟨hp.interfaceBounds, rfl, hcolon⟩
    refine ⟨p.name, ':' :: mid, ⟨hp.name, ?_, rfl⟩, (), mid, rfl, bind_classBound_eq_ok.2
      ⟨p.classBound, after, ⟨hp.classBound, rfl, fun hc c hhead => ?_⟩, ?_⟩⟩
    · simp [TypeParam.written, mid, after]
    · cases hi : p.interfaceBounds with
      | nil => exact hnone hc hi c (by simpa [after, hi] using hhead)
      | cons t bounds =>
        obtain rfl : c = ':' := by simpa [after, hi] using hhead.symm
        simp
    · exact mapped_eq_ok.2 ⟨p.interfaceBounds, hread, rfl⟩

/-- The first character of a type parameter can end no list, and can begin a class bound. -/
theorem TypeParam.head?_written {p : TypeParam} (hp : p.WellFormed) : ∃ c,
    p.name.toList.head? = some c ∧ (∀ rest, (p.written ++ rest).head? = some c) ∧
      c ∉ ['.', ';', '[', '/', '<', '>', ':'] := by
  obtain ⟨hne, hname⟩ := hp.name
  obtain ⟨c, cs, h⟩ := List.exists_cons_of_ne_nil hne
  exact ⟨c, by rw [h]; rfl, fun rest => by simp [TypeParam.written, h], hname c (by simp [h])⟩

theorem mayFollowTypeParam_iff {p q : TypeParam} (hq : q.WellFormed) :
    MayFollowTypeParam p (q.written ++ rest) ↔ p.Parted q := by
  obtain ⟨c, hname, hhead, hc⟩ := TypeParam.head?_written hq
  simp only [List.mem_cons, List.not_mem_nil, or_false, not_or] at hc
  simp only [MayFollowTypeParam, TypeParam.Parted, hname, hhead, ne_eq, Option.some.injEq]
  constructor
  · rintro ⟨-, hnone⟩ hclass hbounds _ rfl
    simpa [hc] using hnone hclass hbounds c rfl
  · intro hparted
    refine ⟨hc.2.2.2.2.2.2, fun hclass hbounds d hd => ?_⟩
    obtain rfl := hd
    simpa [hc] using hparted hclass hbounds c rfl

/-- Every type parameter of a list is followed by what may follow it if the parameters are parted. -/
theorem chained_typeParam {params : List TypeParam} (hall : ∀ p ∈ params, p.WellFormed) :
    Chained (·.head? ≠ some '>') TypeParam.written MayFollowTypeParam ('>' :: rest) params ↔
      AreParted params := by
  induction params with
  | nil => simp [Chained, AreParted]
  | cons p params ih =>
    obtain ⟨hp, hall⟩ := List.forall_mem_cons.1 hall
    obtain ⟨c, -, hhead, hc⟩ := TypeParam.head?_written hp
    have hopen : c ≠ '>' := fun heq => by simp [heq] at hc
    rw [Chained, ih hall, hhead]
    cases params with
    | nil => simp [hopen, MayFollowTypeParam, AreParted]
    | cons q params =>
      rw [List.flatMap_cons, List.append_assoc, mayFollowTypeParam_iff (hall q (by simp)), AreParted,
        AreParted, List.isChain_cons_cons]
      simp [hopen]

/-- Type parameters in their brackets, or none. -/
theorem reads_typeParams (form : Form) : ReadsBefore (typeParams form callBudget)
    (fun params => (∀ p ∈ params, p.WellFormed) ∧ AreParted params ∧ (params ≠ [] → form = .generic))
    writtenTypeParams fun params rest => params = [] → rest.head? ≠ some '<' := by
  have hne (p : TypeParam) (_ : p.WellFormed) : p.written ≠ [] := by simp [TypeParam.written]
  have hlist (input : List Char) (params : List TypeParam) (rest : List Char) :
      repeatUntil '>' (typeParam .generic callBudget) input = .ok (params, rest) ↔
        (∀ p ∈ params, p.WellFormed) ∧ input = params.flatMap TypeParam.written ++ '>' :: rest ∧
          AreParted params := by
    rw [repeatUntil_eq_ok reads_typeParam hne]
    constructor
    · rintro ⟨hall, rfl, hchain⟩
      exact ⟨hall, rfl, (chained_typeParam hall).1 hchain⟩
    · rintro ⟨hall, rfl, hparted⟩
      exact ⟨hall, rfl, (chained_typeParam hall).2 hparted⟩
  intro input params rest
  rw [typeParams.eq_def, peek_bind]
  by_cases hopen : input.head? = some '<'
  · rw [if_pos hopen]
    obtain ⟨input, rfl⟩ : ∃ cs, input = '<' :: cs := List.head?_eq_some_iff.1 hopen
    cases form with
    | descriptor =>
      simp only [fail_ne_ok, false_iff, not_and]
      rintro ⟨-, -, hform⟩ hinput hclosed
      obtain rfl : params = [] := by
        by_contra hnil
        exact absurd (hform hnil) (by decide)
      rw [writtenTypeParams, List.isEmpty_nil, if_pos rfl, List.nil_append] at hinput
      exact absurd hopen (hinput ▸ hclosed rfl)
    | generic =>
      dsimp only
      rw [skip_bind, List.tail_cons, bind_eq_ok]
      simp only [hlist]
      constructor
      · rintro ⟨found, _, ⟨hall, rfl, hparted⟩, h⟩
        split at h
        · exact absurd h (fail_ne_ok _ _)
        · next hsome =>
          obtain ⟨rfl, rfl⟩ := pure_eq_ok.1 h
          have hnil : params ≠ [] := by simpa using hsome
          exact ⟨⟨hall, hparted, by simp⟩, by simp [writtenTypeParams, hnil], fun h => absurd h hnil⟩
      · rintro ⟨⟨hall, hparted, -⟩, hinput, hclosed⟩
        by_cases hnil : params = []
        · subst hnil
          obtain rfl : '<' :: input = rest := hinput
          exact absurd rfl (hclosed rfl)
        · refine ⟨params, rest, ⟨hall, ?_, hparted⟩, ?_⟩
          · simpa [writtenTypeParams, hnil] using hinput
          · rw [if_neg (by simpa using hnil)]
            rfl
  · rw [if_neg hopen, pure_eq_ok]
    constructor
    · rintro ⟨rfl, rfl⟩
      exact ⟨⟨by simp, by simp [AreParted], by simp⟩, rfl, fun _ => hopen⟩
    · rintro ⟨-, rfl, -⟩
      by_cases hnil : params = []
      · subst hnil
        exact ⟨rfl, rfl⟩
      · exact absurd (by simp [writtenTypeParams, hnil]) hopen

/-! ## Type parameters that are not parted -/

section
variable {word : List Char}

/-- The name of a type parameter is no name of a class, since `:` stands behind it. -/
theorem className_colon (hword : ∀ c ∈ word, c ∉ ['.', ';', '[', '/', '<', '>', ':']) :
    className (word ++ ':' :: rest) = fail .illegalInClassName (':' :: rest) := by
  have hrun : run (· ∉ [';', '<', '.', '[', '>', ':']) (word ++ ':' :: rest)
      = .ok (word, ':' :: rest) := by
    refine run_stop (fun c hc => ?_) (by decide)
    have hc' := hword c hc
    simp only [List.mem_cons, List.not_mem_nil, or_false, not_or] at hc'
    simp [hc']
  rw [className, bind_of_ok hrun]
  rfl

theorem identifier_colon (hword : ∀ c ∈ word, c ∉ ['.', ';', '[', '/', '<', '>', ':']) :
    identifier ';' (word ++ ':' :: rest) = fail .illegalInIdentifier (':' :: rest) := by
  have hrun : run (fun c => c ≠ ';' && !isReserved c) (word ++ ':' :: rest)
      = .ok (word, ':' :: rest) := by
    refine run_stop (fun c hc => ?_) (by decide)
    have hc' := hword c hc
    simp only [List.mem_cons, List.not_mem_nil, or_false, not_or] at hc'
    simp [hc', isReserved]
  rw [identifier, bind_of_ok hrun]
  rfl

theorem referenceType_colon {c : Char} (hc : c = 'L' ∨ c = 'T')
    (hword : ∀ c ∈ word, c ∉ ['.', ';', '[', '/', '<', '>', ':']) (r : JavaType × List Char) :
    referenceType .generic callBudget .top (c :: (word ++ ':' :: rest)) ≠ .ok r := by
  rcases hc with rfl | rfl
  · have hsegment (args : Parser (List TypeArg)) :
        segment .generic true args (word ++ ':' :: rest) = .error ⟨.illegalInClassName, ':' :: rest⟩ :=
      bind_of_error (className_colon hword)
    have hobject (args : Parser (List TypeArg)) :
        objectType .generic args ('L' :: (word ++ ':' :: rest))
          = .error ⟨.illegalInClassName, ':' :: rest⟩ := by
      rw [objectType, bind_of_ok (expect_cons _ _), bind_of_error (hsegment args)]
    intro hread
    cases (hobject _).symm.trans hread
  · have hvariable : (do
          let name ← identifier ';'
          expect ';'
          return .variable name : Parser JavaType) (word ++ ':' :: rest)
        = .error ⟨.illegalInIdentifier, ':' :: rest⟩ :=
      bind_of_error (identifier_colon hword)
    intro hread
    cases hvariable.symm.trans hread

end

theorem typeParam_unparted {p q : TypeParam} (hp : p.WellFormed) (hq : q.WellFormed)
    (h : ¬p.Parted q) (r : TypeParam × List Char) :
    typeParam .generic callBudget (p.written ++ (q.written ++ rest)) ≠ .ok r := by
  simp only [TypeParam.Parted, Classical.not_imp, not_forall] at h
  obtain ⟨hclass, hbounds, c, hhead, hc⟩ := h
  have hmark : c = 'L' ∨ c = 'T' := by tauto
  obtain ⟨word, hname⟩ := List.head?_eq_some_iff.1 hhead
  obtain ⟨after, hq'⟩ : ∃ after, q.written ++ rest = c :: (word ++ ':' :: after) := by
    simp [TypeParam.written, hname]
  have hp' : p.written ++ (q.written ++ rest) = p.name.toList ++ ':' :: (q.written ++ rest) := by
    simp [TypeParam.written, hclass, hbounds]
  have hidentifier := (identifier_eq_ok ':' (by simp)).2 ⟨hp.name, hp', rfl⟩
  intro hread
  rw [typeParam, bind_of_ok hidentifier, bind_of_ok (expect_cons _ _), peek_bind] at hread
  obtain ⟨bound, mid, ⟨hbound, hmid, hnone⟩, -⟩ := bind_classBound_eq_ok.1 hread
  cases bound with
  | none =>
    refine hnone rfl c ?_ (by rcases hmark with rfl | rfl <;> simp)
    rw [← show q.written ++ rest = mid from hmid, hq', List.head?_cons]
  | some t =>
    have ht := (reads_referenceType .generic _ _ _).2 ⟨hbound t rfl, hmid⟩
    rw [hq'] at ht
    refine referenceType_colon hmark (fun d hd => hq.name.2 d ?_) _ ht
    rw [hname]
    exact List.mem_cons_of_mem c hd

theorem not_items_unparted {params found : List TypeParam} (hall : ∀ p ∈ params, p.WellFormed)
    (h : ¬AreParted params) {after : List Char} :
    ¬Items (·.head? ≠ some '>') (typeParam .generic callBudget)
      (params.flatMap TypeParam.written ++ '>' :: rest) found after := by
  induction params generalizing found with
  | nil => simp [AreParted] at h
  | cons p params ih =>
    obtain ⟨hp, hall⟩ := List.forall_mem_cons.1 hall
    cases params with
    | nil => simp [AreParted] at h
    | cons q params =>
      have hq := hall q (by simp)
      intro hitems
      rw [List.flatMap_cons, List.append_assoc] at hitems
      cases hitems with
      | nil hstop =>
        obtain ⟨c, -, hhead, hc⟩ := TypeParam.head?_written hp
        obtain rfl : c = '>' := by simpa [hhead] using hstop
        simp at hc
      | cons _ hread hitems =>
        by_cases hparted : p.Parted q
        · rw [AreParted, List.isChain_cons_cons] at h
          have hnext : ¬AreParted (q :: params) := fun hchain => h ⟨hparted, hchain⟩
          have hfollow : MayFollowTypeParam p ((q :: params).flatMap TypeParam.written ++ '>' :: rest) := by
            rw [List.flatMap_cons, List.append_assoc]
            exact (mayFollowTypeParam_iff hq).2 hparted
          rw [(reads_typeParam _ _ _).2 ⟨hp, rfl, hfollow⟩] at hread
          obtain ⟨-, rfl⟩ := Prod.mk.inj (Except.ok.inj hread)
          exact ih hall hnext hitems
        · rw [List.flatMap_cons, List.append_assoc] at hread
          exact typeParam_unparted hp hq hparted _ hread

/-- Nothing is read where type parameters are not parted, not even something else. -/
theorem typeParams_unparted {params : List TypeParam} (hall : ∀ p ∈ params, p.WellFormed)
    (h : ¬AreParted params) (r : List TypeParam × List Char) :
    typeParams .generic callBudget (writtenTypeParams params ++ rest) ≠ .ok r := by
  have hne (p : TypeParam) (_ : p.WellFormed) : p.written ≠ [] := by simp [TypeParam.written]
  have hsome : params ≠ [] := by
    rintro rfl
    simp [AreParted] at h
  have hwritten : writtenTypeParams params ++ rest
      = '<' :: (params.flatMap TypeParam.written ++ '>' :: rest) := by
    simp [writtenTypeParams, hsome]
  rw [hwritten, typeParams.eq_def, peek_bind, List.head?_cons, if_pos rfl]
  dsimp only
  rw [skip_bind, List.tail_cons]
  intro hread
  obtain ⟨_, _, hlist, -⟩ := bind_eq_ok.1 hread
  obtain ⟨found, after, hwhile, -⟩ := bind_eq_ok.1 hlist
  exact not_items_unparted hall h ((repeatWhile_eq_ok_items reads_typeParam hne).1 hwhile)

/-! ## Methods -/

theorem reads_returnType (form : Form) : ReadsExactly (returnType form callBudget)
    (fun r => ∀ t, r = .value t → t.WellFormed form) ReturnType.written := by
  intro input r rest
  rw [returnType, peek_bind]
  by_cases hvoid : input.head? = some 'V'
  · rw [if_pos hvoid, skip_bind, pure_eq_ok]
    obtain ⟨input, rfl⟩ : ∃ cs, input = 'V' :: cs := List.head?_eq_some_iff.1 hvoid
    constructor
    · rintro ⟨rfl, rfl⟩
      exact ⟨by simp, rfl⟩
    · rintro ⟨-, hinput⟩
      cases r with
      | void => exact ⟨rfl, (List.cons.inj hinput).2⟩
      | value t =>
        rw [hinput, ReturnType.written, t.head?_written] at hvoid
        exact absurd (Option.some.inj hvoid) (t.mark_ne (by decide) (by decide))
  · rw [if_neg hvoid, mapped_eq_ok]
    simp only [reads_valueType form _ _ _]
    constructor
    · rintro ⟨t, ⟨ht, rfl⟩, rfl⟩
      exact ⟨by simpa using ht, rfl⟩
    · rintro ⟨hr, rfl⟩
      cases r with
      | void => exact absurd rfl hvoid
      | value t => exact ⟨t, ⟨hr t rfl, rfl⟩, rfl⟩

/-- Parameters up to the end of their list. -/
theorem reads_params (form : Form) : ReadsExactly
    (repeatUntil ')' do
      if (← peek).isNone then
        fail .unterminatedParameters
      else
        valueType form callBudget .top)
    (fun params => ∀ t ∈ params, t.WellFormed form)
    fun params => params.flatMap JavaType.written ++ [')'] := by
  refine reads_repeatUntil ?_ fun t _ => ?_
  · intro input t rest
    rw [peek_bind]
    cases input with
    | nil =>
      simp only [List.head?_nil, Option.isNone_none, ↓reduceIte, fail_ne_ok, false_iff, not_and]
      intro _ hinput
      simpa [← hinput] using t.head?_written rest
    | cons c input => exact reads_valueType form (c :: input) t rest
  · obtain ⟨cs, h⟩ := t.exists_written
    exact ⟨t.mark, cs, h, t.mark_ne (by decide) (by decide)⟩

/-- Exceptions are read from a signature only. -/
theorem bind_throws_eq_ok {β : Type} {f : List JavaType → Parser β} {r : β × List Char} :
    (match form with
      | .descriptor => do
        if (← peek) = some '^' then
          f (← fail .throwsInDescriptor)
        else
          f (← pure [])
      | .generic => do f (← repeatMarked '^' (referenceType form callBudget .top))) input = .ok r ↔
    ∃ throws rest, ((∀ t ∈ throws, t.IsReference ∧ t.WellFormed form) ∧
        input = (throws.flatMap fun t => '^' :: t.written) ++ rest ∧ rest.head? ≠ some '^') ∧
      (form = .descriptor → throws = []) ∧ f throws rest = .ok r := by
  cases form with
  | descriptor =>
    dsimp only
    rw [peek_bind]
    by_cases hmark : input.head? = some '^'
    · rw [if_pos hmark]
      simp only [bind_eq_ok, fail_ne_ok, false_and, exists_false, false_iff]
      rintro ⟨throws, rest, ⟨-, rfl, hrest⟩, hnil, -⟩
      rw [hnil trivial] at hmark
      exact hrest hmark
    · rw [if_neg hmark]
      constructor
      · exact fun h => ⟨[], input, ⟨by simp, rfl, hmark⟩, fun _ => rfl, h⟩
      · rintro ⟨throws, rest, ⟨-, rfl, -⟩, hnil, h⟩
        rw [hnil rfl] at h ⊢
        exact h
  | generic =>
    have hread := reads_repeatMarked '^' (reads_referenceType .generic)
    simp only [bind_eq_ok, hread _ _ _, reduceCtorEq, false_implies, true_and]

theorem reads_methodType (form : Form) : ReadsBefore (methodType form callBudget)
    (fun m => m.WellFormed form ∧ AreParted m.typeParams) MethodType.written
    fun _ rest => rest.head? ≠ some '^' := by
  intro input m rest
  rw [methodType]
  simp only [bind_eq_ok (x := typeParams form callBudget), bind_eq_ok (x := expect '('),
    reads_typeParams form _ _ _, expect_eq_ok]
  constructor
  · rintro ⟨tps, _, ⟨⟨hall, hparted, hgeneric⟩, rfl, -⟩, _, _, rfl, hparams⟩
    obtain ⟨params, _, hread, hresult⟩ := bind_eq_ok.1 hparams
    obtain ⟨hpall, rfl⟩ := (reads_params form _ _ _).1 hread
    obtain ⟨result, _, hread', hthrows⟩ := bind_eq_ok.1 hresult
    obtain ⟨hr, rfl⟩ := (reads_returnType form _ _ _).1 hread'
    obtain ⟨throws, _, ⟨htall, rfl, hend⟩, hnone, hpure⟩ := bind_throws_eq_ok.1 hthrows
    obtain ⟨rfl, rfl⟩ := pure_eq_ok.1 hpure
    refine ⟨⟨⟨hall, hpall, hr, htall, fun hform => ⟨?_, hnone hform⟩⟩, hparted⟩, ?_, hend⟩
    · by_contra hnil
      exact absurd (hform.symm.trans (hgeneric hnil)) (by decide)
    · simp [MethodType.written]
  · rintro ⟨⟨hm, hparted⟩, rfl, hend⟩
    have hgeneric (hne : m.typeParams ≠ []) : form = .generic := by
      cases form with
      | descriptor => exact absurd (hm.erased rfl).1 hne
      | generic => rfl
    let throws := (m.throws.flatMap fun t => '^' :: t.written) ++ rest
    let result := m.result.written ++ throws
    let params := m.params.flatMap JavaType.written ++ [')'] ++ result
    refine ⟨m.typeParams, '(' :: params, ⟨⟨hm.typeParams, hparted, hgeneric⟩, ?_, by simp⟩,
      (), params, rfl, bind_eq_ok.2 ⟨m.params, result, (reads_params form _ _ _).2 ⟨hm.params, rfl⟩,
      bind_eq_ok.2 ⟨m.result, throws, (reads_returnType form _ _ _).2 ⟨hm.result, rfl⟩,
      bind_throws_eq_ok.2 ⟨m.throws, rest, ⟨hm.throws, rfl, hend⟩, fun h => (hm.erased h).2, rfl⟩⟩⟩⟩
    simp [MethodType.written, params, result, throws]

/-! ## Classes -/

theorem reads_classSignature : ReadsBefore (classSignature callBudget)
    (fun c => c.WellFormed ∧ AreParted c.typeParams) ClassType.written fun _ rest => rest = [] := by
  have hne (t : JavaType) (_ : t.IsObject ∧ t.WellFormed .generic) : t.written ≠ [] := by
    obtain ⟨cs, h⟩ := t.exists_written
    simp [h]
  have hmore (interfaces : List JavaType) (rest : List Char) :
      Chained (!·.isEmpty) JavaType.written (fun _ _ => True) rest interfaces ↔ rest = [] := by
    rw [chained_iff]
    · simp
    · intro t _ rest
      obtain ⟨cs, h⟩ := t.exists_written
      simp [h]
  intro input c rest
  simp only [classSignature, bind_eq_ok, reads_typeParams .generic _ _ _, reads_classType .generic _ _ _,
    repeatWhile_eq_ok (reads_classType .generic).before hne, hmore, pure_eq_ok]
  constructor
  · rintro ⟨tps, _, ⟨⟨hall, hparted, -⟩, rfl, -⟩, superclass, _, ⟨hsuper, rfl⟩, interfaces, _,
      ⟨hinterfaces, rfl, rfl⟩, rfl, rfl⟩
    exact ⟨⟨⟨hall, hsuper, hinterfaces⟩, hparted⟩, by simp [ClassType.written], rfl⟩
  · rintro ⟨⟨hc, hparted⟩, rfl, rfl⟩
    let interfaces := c.interfaces.flatMap JavaType.written
    refine ⟨c.typeParams, c.superclass.written ++ interfaces, ⟨⟨hc.typeParams, hparted, by simp⟩, ?_,
      fun _ => ?_⟩, c.superclass, interfaces, ⟨hc.superclass, rfl⟩, c.interfaces, [],
      ⟨hc.interfaces, ?_, rfl⟩, rfl, rfl⟩
    · simp [ClassType.written, interfaces]
    · rw [c.superclass.head?_written]
      exact fun h => c.superclass.mark_ne (by decide) (by decide) (Option.some.inj h)
    · simp [interfaces]

end ApiSurface.Signature.Parser
