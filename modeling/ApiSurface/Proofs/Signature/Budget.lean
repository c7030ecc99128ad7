import ApiSurface.Proofs.Signature.Choices
import ApiSurface.Proofs.Signature.Steps

/-!
How deep the calls of the parsers of types nest.

Brackets of arrays are read in one go, so between two lists of type arguments there are at most five
calls inside each other. The path counts the lists, and no more than 64 are entered. So a constant number
of calls is enough for every text, also for one that is rejected: `callBudget` is never spent, and with a
larger budget the parsers do the same (`parse_with_larger_budget`).
-/

namespace ApiSurface.Signature

namespace Parser

open Reading

variable {α β : Type} {form : Form} {path : Path} {input : List Char}

/-! ## Parsers that do the same -/

/-- With this text left both parsers do the same, and they do not run out of calls. -/
structure AgreeAt (p q : Parser α) (input : List Char) : Prop where
  same : p input = q input
  unspent : ∀ rest, p input ≠ .error ⟨.callBudgetSpent, rest⟩

/-- They do so whatever text is left. -/
def Agree (p q : Parser α) : Prop :=
  ∀ input, AgreeAt p q input

section
variable {p q : Parser α} {f g : α → Parser β}

theorem AgreeAt.pure (a : α) : AgreeAt (pure a) (pure a) input :=
  ⟨rfl, fun _ => nofun⟩

theorem AgreeAt.fail {fault : Fault} (h : fault ≠ .callBudgetSpent) :
    AgreeAt (fail fault : Parser α) (fail fault) input :=
  ⟨rfl, fun _ heq => h (congrArg Failure.fault (Except.error.inj heq))⟩

theorem AgreeAt.bind (h : AgreeAt p q input)
    (hf : ∀ a rest, p input = .ok (a, rest) → AgreeAt (f a) (g a) rest) :
    AgreeAt (p >>= f) (q >>= g) input := by
  cases hp : p input with
  | error failure =>
    have hq : q input = .error failure := h.same ▸ hp
    refine ⟨by rw [bind_of_error hp, bind_of_error hq], fun rest => ?_⟩
    rw [bind_of_error hp]
    exact fun heq => h.unspent rest (hp.trans (congrArg Except.error (Except.error.inj heq)))
  | ok r =>
    obtain ⟨a, mid⟩ := r
    have hq : q input = .ok (a, mid) := h.same ▸ hp
    have ha := hf a mid hp
    refine ⟨by rw [bind_of_ok hp, bind_of_ok hq, ha.same], fun rest => ?_⟩
    rw [bind_of_ok hp]
    exact ha.unspent rest

theorem AgreeAt.peek {f g : Option Char → Parser β} (h : AgreeAt (f input.head?) (g input.head?) input) :
    AgreeAt (peek >>= f) (peek >>= g) input :=
  ⟨h.same, h.unspent⟩

theorem AgreeAt.ite {c : Prop} [Decidable c] {p' q' : Parser α} (h : c → AgreeAt p q input)
    (h' : ¬c → AgreeAt p' q' input) : AgreeAt (if c then p else p') (if c then q else q') input := by
  by_cases hc : c
  · rw [if_pos hc, if_pos hc]
    exact h hc
  · rw [if_neg hc, if_neg hc]
    exact h' hc

theorem AgreeAt.congr {p' q' : Parser α} (h : AgreeAt p' q' input) (hp : p input = p' input)
    (hq : q input = q' input) : AgreeAt p q input :=
  ⟨by rw [hp, hq, h.same], fun rest => hp ▸ h.unspent rest⟩

/-- A value that is read and then put into a larger one. -/
theorem Agree.mapped (h : Agree p q) (f : α → β) : Agree (do return f (← p)) (do return f (← q)) :=
  fun input => (h input).bind fun _ _ _ => .pure _

end

/-! ## Steps that call nothing -/

theorem agree_skip : Agree skip skip :=
  fun _ => ⟨rfl, fun _ => nofun⟩

theorem agree_run (p : Char → Bool) : Agree (run p) (run p) :=
  fun _ => ⟨rfl, fun _ => nofun⟩

theorem agree_expect (c : Char) : Agree (expect c) (expect c) := by
  refine fun input => ⟨rfl, fun rest => ?_⟩
  rw [expect]
  split
  · intro heq
    cases heq
  · intro heq
    cases heq

theorem agree_finish : Agree finish finish := by
  refine fun input => ⟨rfl, fun rest => ?_⟩
  rw [finish]
  split
  · intro heq
    cases heq
  · intro heq
    cases heq

theorem agree_identifier (stop : Char) : Agree (identifier stop) (identifier stop) := by
  refine fun input => (agree_run _ input).bind fun name rest _ => AgreeAt.peek ?_
  cases rest.head? with
  | none => exact .fail nofun
  | some c =>
    refine .ite (fun _ => .fail nofun) fun _ => ?_
    exact .ite (fun _ => .fail nofun) fun _ => .pure _

theorem agree_className : Agree className className := by
  refine fun input => (agree_run _ input).bind fun name rest _ => AgreeAt.peek ?_
  split
  · exact .fail nofun
  · exact .fail nofun
  · exact .fail nofun
  · exact .ite (fun _ => .fail nofun) fun _ => .pure _

/-! ## Repetition -/

section
variable {more : List Char → Bool} {item item' : Parser α}

theorem repeatAfter_stop (h : more input = false) (clock : List Char) (done : List α) :
    repeatAfter more item clock done input = .ok (done.reverse, input) := by
  rw [repeatAfter.eq_def]
  simp [h]

theorem repeatAfter_go (h : more input = true) (clock : List Char) (done : List α) :
    repeatAfter more item clock done input = (item >>= fun a =>
      match clock with
      | [] => fail .unexpectedEnd
      | _ :: clock => repeatAfter more item clock (a :: done)) input := by
  rw [repeatAfter.eq_def]
  dsimp only
  rw [if_pos h]
  cases hitem : item input with
  | error failure => rw [bind_of_error hitem]
  | ok r =>
    rw [bind_of_ok hitem]
    cases clock <;> rfl

/-- One turn of the loop, given the turns behind it. -/
theorem agree_turn (h : Agree item item') (clock : List Char) (done : List α)
    (hnext : ∀ tick clock', clock = tick :: clock' → ∀ a,
      Agree (repeatAfter more item clock' (a :: done)) (repeatAfter more item' clock' (a :: done))) :
    Agree (repeatAfter more item clock done) (repeatAfter more item' clock done) := by
  intro input
  cases hmore : more input with
  | false =>
    exact (AgreeAt.pure done.reverse).congr (repeatAfter_stop hmore _ _) (repeatAfter_stop hmore _ _)
  | true =>
    refine AgreeAt.congr ((h input).bind fun a rest _ => ?_) (repeatAfter_go hmore _ _)
      (repeatAfter_go hmore _ _)
    cases clock with
    | nil => exact .fail nofun
    | cons tick clock => exact hnext tick clock rfl a rest

theorem agree_repeatAfter (h : Agree item item') (clock : List Char) (done : List α) :
    Agree (repeatAfter more item clock done) (repeatAfter more item' clock done) := by
  induction clock generalizing done with
  | nil => exact agree_turn h [] done nofun
  | cons tick clock ih => exact agree_turn h _ done fun _ _ heq a => (List.cons.inj heq).2 ▸ ih (a :: done)

theorem agree_repeatWhile (h : Agree item item') :
    Agree (repeatWhile more item) (repeatWhile more item') := by
  intro input
  have hloop : AgreeAt (repeatAfter more item input []) (repeatAfter more item' input []) input :=
    agree_repeatAfter h input [] input
  exact ⟨hloop.same, hloop.unspent⟩

theorem agree_repeatUntil (close : Char) (h : Agree item item') :
    Agree (repeatUntil close item) (repeatUntil close item') :=
  fun input => (agree_repeatWhile h input).bind fun _ rest _ =>
    (agree_expect close rest).bind fun _ _ _ => .pure _

theorem agree_repeatMarked (mark : Char) (h : Agree item item') :
    Agree (repeatMarked mark item) (repeatMarked mark item') :=
  agree_repeatWhile fun input => (agree_skip input).bind fun _ rest _ => h rest

end

/-! ## Classes and type arguments, given the parsers of their parts -/

section
variable {args args' : Parser (List TypeArg)}

theorem agree_segment (isOutermost : Bool) (h : Agree args args') :
    Agree (segment form isOutermost args) (segment form isOutermost args') := by
  refine fun input => (agree_className input).bind fun raw rest _ => ?_
  refine .ite (fun _ => .fail nofun) fun _ => AgreeAt.peek (.ite (fun _ => ?_) fun _ => .pure _)
  cases form with
  | descriptor => exact .fail nofun
  | generic => exact h.mapped _ rest

theorem agree_objectType (h : Agree args args') : Agree (objectType form args) (objectType form args') := by
  have hnested : Agree
      (do if (← peek) = some '.' ∧ form = .generic then skip; segment form false args
          else fail .unterminatedClass)
      (do if (← peek) = some '.' ∧ form = .generic then skip; segment form false args'
          else fail .unterminatedClass) :=
    fun input => AgreeAt.peek <| .ite
      (fun _ => (agree_skip input).bind fun _ rest _ => agree_segment false h rest) fun _ => .fail nofun
  refine fun input => (agree_expect 'L' input).bind fun _ rest _ => ?_
  refine (agree_segment true h rest).bind fun outermost rest _ => ?_
  exact (agree_repeatUntil ';' hnested rest).bind fun _ _ _ => .pure _

end

theorem agree_typeArgList {reference reference' : Parser JavaType} (h : Agree reference reference') :
    Agree (typeArgList reference) (typeArgList reference') := by
  refine fun input => (agree_expect '<' input).bind fun _ rest _ => ?_
  refine (agree_repeatUntil '>' ?_ rest).bind fun args rest _ => .ite (fun _ => .fail nofun) fun _ => .pure _
  -- `rw` does not see that the two matches are the same.
  refine (typeArg_eq reference).symm ▸ (typeArg_eq reference').symm ▸ fun input => AgreeAt.peek ?_
  refine .ite (fun _ => (agree_skip input).bind fun _ _ _ => .pure _) fun _ => ?_
  refine .ite (fun _ => (agree_skip input).bind fun _ rest _ => h.mapped _ rest) fun _ => ?_
  refine .ite (fun _ => (agree_skip input).bind fun _ rest _ => h.mapped _ rest) fun _ => ?_
  exact h.mapped _ input

/-! ## How many calls are enough -/

/-- From this need on the budget changes nothing where this text is left. -/
def SufficesAt (need : Nat) (p : Nat → Parser α) (input : List Char) : Prop :=
  ∀ ⦃budget budget'⦄, need ≤ budget → need ≤ budget' → AgreeAt (p budget) (p budget') input

/-- So it is whatever text is left. -/
def Suffices (need : Nat) (p : Nat → Parser α) : Prop :=
  ∀ input, SufficesAt need p input

theorem SufficesAt.mono {need more : Nat} {p : Nat → Parser α} (h : SufficesAt need p input)
    (hle : need ≤ more) : SufficesAt more p input :=
  fun _ _ hb hb' => h (hle.trans hb) (hle.trans hb')

theorem Suffices.mono {need more : Nat} {p : Nat → Parser α} (h : Suffices need p) (hle : need ≤ more) :
    Suffices more p :=
  fun input => (h input).mono hle

/-- One call is spent on the parser itself. -/
theorem SufficesAt.call {need : Nat} {p : Nat → Parser α}
    (h : ∀ budget budget', need ≤ budget → need ≤ budget' →
      AgreeAt (p (budget + 1)) (p (budget' + 1)) input) : SufficesAt (need + 1) p input := by
  intro budget budget' hb hb'
  obtain ⟨budget, rfl⟩ := Nat.exists_eq_add_of_le' (Nat.le_of_add_left_le hb)
  obtain ⟨budget', rfl⟩ := Nat.exists_eq_add_of_le' (Nat.le_of_add_left_le hb')
  exact h budget budget' (Nat.le_of_succ_le_succ hb) (Nat.le_of_succ_le_succ hb')

theorem Suffices.call_classType {need : Nat} (h : Suffices need (typeArgs form · path)) :
    Suffices (need + 1) (classType form · path) := by
  refine fun input => .call fun budget budget' hb hb' => ?_
  rw [classType, classType]
  exact agree_objectType (fun rest => h rest hb hb') input

/-- The element of an array is read behind all its brackets, hence where none is next. -/
theorem Suffices.call_referenceType {need : Nat} (hclass : Suffices need (classType form · path))
    (helement : input.head? = some '[' → ∀ n rest, rest.head? ≠ some '[' →
      SufficesAt need (valueType form · { path with dimensions := path.dimensions + n }) rest) :
    SufficesAt (need + 1) (referenceType form · path) input := by
  refine .call fun budget budget' hb hb' => ?_
  rw [referenceType_succ, referenceType_succ]
  refine AgreeAt.peek ?_
  refine .ite (fun _ => ?_) fun _ => .ite (fun hopen => ?_) fun _ => .ite (fun _ => ?_) fun _ => ?_
  · exact hclass input hb hb'
  · -- All brackets are taken before the element is read.
    refine (agree_run _ input).bind fun brackets rest hrun => ?_
    refine .ite (fun _ => .fail nofun) fun _ => ?_
    have hrest : rest.head? ≠ some '[' := by
      intro hnext
      obtain ⟨-, -, hstop⟩ := run_eq_ok.1 hrun
      simpa using hstop '[' hnext
    exact (helement hopen brackets.length rest hrest hb hb').bind fun _ _ _ => .pure _
  · refine (agree_skip input).bind fun _ rest _ => ?_
    refine (agree_identifier ';' rest).bind fun _ rest _ => ?_
    exact (agree_expect ';' rest).bind fun _ _ _ => .pure _
  · exact .fail nofun

theorem SufficesAt.call_valueType {need : Nat} (h : SufficesAt need (referenceType form · path) input) :
    SufficesAt (need + 1) (valueType form · path) input := by
  refine .call fun budget budget' hb hb' => ?_
  rw [valueType, valueType]
  refine AgreeAt.peek ?_
  cases input.head? with
  | none => exact .fail nofun
  | some c =>
    dsimp only
    cases Primitive.ofTag? c with
    | some type => exact (agree_skip input).bind fun _ _ _ => .pure _
    | none => exact h hb hb'

theorem Suffices.call_typeArgs {need : Nat}
    (h : path.nesting < maxNesting →
      Suffices need (referenceType form · { path with nesting := path.nesting + 1 })) :
    Suffices (need + 1) (typeArgs form · path) := by
  refine fun input => .call fun budget budget' hb hb' => ?_
  rw [typeArgs, typeArgs]
  refine .ite (fun _ => .fail nofun) fun hopen => ?_
  exact agree_typeArgList (fun rest => h (Nat.lt_of_not_le hopen) rest hb hb') input

/-! ## Types -/

/-- The brackets of an array cost two calls, on top of what its element costs. -/
theorem suffices_referenceType_of_classType {need : Nat}
    (h : ∀ path' : Path, path'.nesting = path.nesting → Suffices need (classType form · path')) :
    Suffices (need + 3) (referenceType form · path) := by
  intro input
  refine Suffices.call_referenceType ((h path rfl).mono (Nat.le_add_right _ 2)) fun _ n rest hrest => ?_
  refine SufficesAt.call_valueType (Suffices.call_referenceType (h _ rfl) ?_)
  exact fun hnext => absurd hnext hrest

/-- Five calls for each of the `n` lists of type arguments that can still be entered, and one for the
list that is one too many. -/
theorem suffices_typeArgs (n : Nat) (path : Path) (h : maxNesting ≤ path.nesting + n) :
    Suffices (5 * n + 1) (typeArgs form · path) := by
  induction n generalizing path with
  | zero => exact .call_typeArgs fun hopen => absurd h (Nat.not_le_of_lt hopen)
  | succ n ih =>
    refine .call_typeArgs fun _ => suffices_referenceType_of_classType fun path' hnesting => ?_
    have hentered : path'.nesting = path.nesting + 1 := hnesting
    exact .call_classType (ih path' (by omega))

theorem suffices_classType (n : Nat) (path : Path) (h : maxNesting ≤ path.nesting + n) :
    Suffices (5 * n + 2) (classType form · path) :=
  .call_classType (suffices_typeArgs n path h)

theorem suffices_referenceType (n : Nat) (path : Path) (h : maxNesting ≤ path.nesting + n) :
    Suffices (5 * n + 5) (referenceType form · path) :=
  suffices_referenceType_of_classType fun path' hnesting => suffices_classType n path' (hnesting ▸ h)

theorem suffices_valueType (n : Nat) (path : Path) (h : maxNesting ≤ path.nesting + n) :
    Suffices (5 * n + 6) (valueType form · path) :=
  fun input => .call_valueType (suffices_referenceType n path h input)

/-! ## Whole types, methods and classes -/

/-- Read as a whole text, a type has all lists of type arguments still to enter. -/
theorem suffices_top :
    Suffices callBudget (valueType form · .top) ∧ Suffices callBudget (referenceType form · .top) ∧
      Suffices callBudget (classType form · .top) :=
  ⟨(suffices_valueType maxNesting .top (Nat.le_add_left _ _)).mono (by decide),
    (suffices_referenceType maxNesting .top (Nat.le_add_left _ _)).mono (by decide),
    (suffices_classType maxNesting .top (Nat.le_add_left _ _)).mono (by decide)⟩

variable {budget budget' : Nat}

theorem agree_typeParam (hb : callBudget ≤ budget) (hb' : callBudget ≤ budget') :
    Agree (typeParam form budget) (typeParam form budget') := by
  have hreference : Agree (referenceType form budget .top) (referenceType form budget' .top) :=
    fun input => suffices_top.2.1 input hb hb'
  rw [typeParam_eq, typeParam_eq]
  refine fun input => (agree_identifier ':' input).bind fun name rest _ => ?_
  refine (agree_expect ':' rest).bind fun _ rest _ => ?_
  refine AgreeAt.bind (AgreeAt.peek (.ite (fun _ => hreference.mapped _ rest) fun _ => .pure _)) ?_
  exact fun _ rest _ => (agree_repeatMarked ':' hreference rest).bind fun _ _ _ => .pure _

theorem agree_typeParams (hb : callBudget ≤ budget) (hb' : callBudget ≤ budget') :
    Agree (typeParams form budget) (typeParams form budget') := by
  refine fun input => AgreeAt.peek (.ite (fun _ => ?_) fun _ => .pure _)
  cases form with
  | descriptor => exact .fail nofun
  | generic =>
    refine (agree_skip input).bind fun _ rest _ => ?_
    refine (agree_repeatUntil '>' (agree_typeParam hb hb') rest).bind fun _ _ _ => ?_
    exact .ite (fun _ => .fail nofun) fun _ => .pure _

theorem agree_returnType (hb : callBudget ≤ budget) (hb' : callBudget ≤ budget') :
    Agree (returnType form budget) (returnType form budget') := by
  refine fun input => AgreeAt.peek (.ite (fun _ => (agree_skip input).bind fun _ _ _ => .pure _) fun _ => ?_)
  exact (suffices_top.1 input hb hb').bind fun _ _ _ => .pure _

theorem agree_methodType (hb : callBudget ≤ budget) (hb' : callBudget ≤ budget') :
    Agree (methodType form budget) (methodType form budget') := by
  have hparam : Agree
      (do if (← peek).isNone then fail .unterminatedParameters else valueType form budget .top)
      (do if (← peek).isNone then fail .unterminatedParameters else valueType form budget' .top) :=
    fun input => AgreeAt.peek (.ite (fun _ => .fail nofun) fun _ => suffices_top.1 input hb hb')
  rw [methodType_eq, methodType_eq]
  refine fun input => (agree_typeParams hb hb' input).bind fun typeParams rest _ => ?_
  refine (agree_expect '(' rest).bind fun _ rest _ => ?_
  refine (agree_repeatUntil ')' hparam rest).bind fun _ rest _ => ?_
  refine (agree_returnType hb hb' rest).bind fun _ rest _ => AgreeAt.bind ?_ fun _ _ _ => .pure _
  cases form with
  | descriptor => exact AgreeAt.peek (.ite (fun _ => .fail nofun) fun _ => .pure _)
  | generic => exact agree_repeatMarked '^' (fun rest => suffices_top.2.1 rest hb hb') rest

theorem agree_classSignature (hb : callBudget ≤ budget) (hb' : callBudget ≤ budget') :
    Agree (classSignature budget) (classSignature budget') := by
  have hclass : Agree (classType .generic budget .top) (classType .generic budget' .top) :=
    fun input => suffices_top.2.2 input hb hb'
  refine fun input => (agree_typeParams hb hb' input).bind fun _ rest _ => ?_
  refine (hclass rest).bind fun _ rest _ => ?_
  exact (agree_repeatWhile hclass rest).bind fun _ _ _ => .pure _

end Parser

/-! ## Whole texts -/

/-- Reads the type of a field with no more than `budget` calls inside each other. -/
def fieldTypeWithin (budget : Nat) (form : Form) (source : String) : Except Error JavaType :=
  parse form (Parser.valueType form budget .top <* Parser.finish) source

/-- Reads the type of a method with no more than `budget` calls inside each other. -/
def methodTypeWithin (budget : Nat) (form : Form) (source : String) : Except Error MethodType :=
  parse form (Parser.methodType form budget <* Parser.finish) source

/-- Reads the type parameters and supertypes of a class with no more than `budget` calls inside each
other. -/
def classTypeWithin (budget : Nat) (source : String) : Except Error ClassType :=
  parse .generic (Parser.classSignature budget) source

/-- Two answers are the same, and neither is that the calls ran out. -/
structure SameAnswer (answer answer' : Except Error α) : Prop where
  same : answer = answer'
  unspent : ∀ e, answer = .error e → e.fault ≠ .callBudgetSpent

theorem Parser.AgreeAt.parse {form : Form} {p q : Parser α} {source : String}
    (h : Parser.AgreeAt p q source.toList) : SameAnswer (parse form p source) (parse form q source) := by
  refine ⟨by rw [Signature.parse, Signature.parse, h.same], fun e he => ?_⟩
  rw [Signature.parse] at he
  split at he
  · exact nomatch he
  · next failure hfailure =>
    obtain rfl := Except.error.inj he
    exact fun hspent => h.unspent failure.rest (hfailure.trans (congrArg _ (hspent ▸ rfl)))

theorem Parser.Agree.parse {form : Form} {p q : Parser α} (h : Parser.Agree p q) (source : String) :
    SameAnswer (Signature.parse form (p <* Parser.finish) source)
      (Signature.parse form (q <* Parser.finish) source) := by
  refine Parser.AgreeAt.parse ?_
  rw [seqLeft_eq_bind, seqLeft_eq_bind]
  exact (h _).bind fun _ rest _ => (Parser.agree_finish rest).bind fun _ _ _ => .pure _

/-- Whatever a text holds and however long it is, `callBudget` calls inside each other are enough to
read it or to reject it: with any larger budget the answer is the same, fault and place included. -/
theorem parse_with_larger_budget (budget : Nat) (h : Parser.callBudget ≤ budget) (source : String) :
    (∀ form, SameAnswer (fieldTypeWithin budget form source) (parseFieldType form source)) ∧
      (∀ form, SameAnswer (methodTypeWithin budget form source) (parseMethodType form source)) ∧
      SameAnswer (classTypeWithin budget source) (parseClassType source) :=
  ⟨fun _ => Parser.Agree.parse (fun input => Parser.suffices_top.1 input h le_rfl) source,
    fun _ => Parser.Agree.parse (Parser.agree_methodType h le_rfl) source,
    (Parser.agree_classSignature h le_rfl source.toList).parse⟩

theorem parse_with_larger_budget_lists :
    let lists := String.join (List.replicate 20000 "Ljava/util/List<" ++ "TT;" :: List.replicate 20000 ">;")
    Parser.callBudget ≤ 100000 ∧
      (∀ form, SameAnswer (fieldTypeWithin 100000 form lists) (parseFieldType form lists)) ∧
      (∀ form, SameAnswer (methodTypeWithin 100000 form lists) (parseMethodType form lists)) ∧
      SameAnswer (classTypeWithin 100000 lists) (parseClassType lists) :=
  ⟨by decide, parse_with_larger_budget 100000 (by decide) _⟩

/-- A budget that is too small shows: the element of this array is read by a fourth call. -/
example : fieldTypeWithin 3 .descriptor "[La;" = .error ⟨.descriptor, .callBudgetSpent, "[La;", 1⟩ ∧
    fieldTypeWithin 5 .descriptor "[La;" = .ok (.array (.object (.mk "a" []) [])) := by
  cbv

end ApiSurface.Signature
