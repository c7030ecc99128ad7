import ApiSurface.Proofs.Machine.Scanner
import ApiSurface.Proofs.Signature.Choices

/-!
Descriptors and signatures as a machine reads them: with the array dimensions and the type argument
lists that it is in counted up and down.

A place that is entered is left again, also when something in it is wrong. So the counters are those of
the path wherever the scanner stands, and none of them passes its limit.
-/

namespace ApiSurface.Machine

open Program Signature

/-! ## Entering and leaving -/

namespace Cursor

/-- Into an array of `n` dimensions. -/
def enterArray (n : Nat) (cursor : Cursor) : Except Trap Cursor := do
  let dimensions ← add cursor.dimensions n
  return { cursor with dimensions }

def leaveArray (n : Nat) (cursor : Cursor) : Except Trap Cursor := do
  let dimensions ← sub cursor.dimensions n
  return { cursor with dimensions }

/-- Into a list of type arguments. -/
def enterArgs (cursor : Cursor) : Except Trap Cursor := do
  let nesting ← add cursor.nesting 1
  return { cursor with nesting }

def leaveArgs (cursor : Cursor) : Except Trap Cursor := do
  let nesting ← sub cursor.nesting 1
  return { cursor with nesting }

end Cursor

namespace Scanner

/-- Does `m` in a place that is entered before and left afterwards. -/
def inside (enter leave : Cursor → Except Trap Cursor) (m : Scanner α) : Scanner α := do
  let cursor ← get
  let entered ← check (enter cursor)
  set entered
  afterwards m leave

section
variable (bytes : Bytes)

/-! ## Types -/

/-- One class of a nest, given how type arguments are read. -/
def segment (form : Form) (isOutermost : Bool) (typeArgs : Scanner (List TypeArg)) : Scanner Segment := do
  let raw ← className bytes
  if !isOutermost && raw.contains '/' then
    fail .packageInInnerName
  else
    let seen ← peek bytes
    if seen = some '<' then
      match form with
      | .descriptor => fail .typeArgsInDescriptor
      | .generic =>
        let args ← typeArgs
        return .mk (binaryName (String.ofList raw)) args
    else
      return .mk (binaryName (String.ofList raw)) []

/-- The class that follows the mark of a nested class. -/
def nested (form : Form) (typeArgs : Scanner (List TypeArg)) : Scanner Segment := do
  let seen ← peek bytes
  if seen = some '.' ∧ form = .generic then
    skip bytes
    segment bytes form false typeArgs
  else
    fail .unterminatedClass

/-- A class with the classes it is nested in, up to and with the `;`. -/
def objectType (form : Form) (typeArgs : Scanner (List TypeArg)) : Scanner JavaType := do
  expect bytes 'L'
  let outermost ← segment bytes form true typeArgs
  let inner ← repeatUntil bytes ';' (nested bytes form typeArgs)
  return .object outermost inner

/-- One type argument, given how the types in it are read. -/
def typeArg (reference : Scanner JavaType) : Scanner TypeArg := do
  let seen ← peek bytes
  if seen = some '*' then
    skip bytes
    return .any
  else if seen = some '+' then
    skip bytes
    let bound ← reference
    return .upper bound
  else if seen = some '-' then
    skip bytes
    let bound ← reference
    return .lower bound
  else
    let type ← reference
    return .exactly type

/-- A list of type arguments in its brackets. -/
def typeArgList (reference : Scanner JavaType) : Scanner (List TypeArg) := do
  expect bytes '<'
  let args ← repeatUntil bytes '>' (typeArg bytes reference)
  if args.isEmpty then
    fail .noTypeArgs
  else
    return args

/-- Drops the brackets of an array and counts them, behind the `n` that were counted. -/
def brackets (n : Nat) : Scanner Nat :=
  loop (fun _ => left bytes) (fun _ cursor => decide (next? bytes cursor = some '['))
    (fun n => do
      skip bytes
      check (add n 1)) n

mutual

/-- A type of a value. The calls may not nest deeper than the budget. -/
def valueType (form : Form) : Nat → Scanner JavaType
  | 0 => check (.error .endless)
  | budget + 1 => do
    let seen ← peek bytes
    match seen with
    | none => fail .unexpectedEnd
    | some b =>
      match Primitive.ofTag? b with
      | some type =>
        skip bytes
        return .primitive type
      | none => referenceType form budget

/-- A type of a value that is not primitive. -/
def referenceType (form : Form) : Nat → Scanner JavaType
  | 0 => check (.error .endless)
  | budget + 1 => do
    let seen ← peek bytes
    if seen = some 'L' then
      classType form budget
    else if seen = some '[' then
      let n ← brackets bytes 0
      let cursor ← get
      let dimensions ← check (add cursor.dimensions n)
      if dimensions > Parser.maxDimensions then
        fail .tooManyDimensions
      else
        let element ← inside (Cursor.enterArray n) (Cursor.leaveArray n) (valueType form budget)
        return Parser.arrayOf n element
    else if seen = some 'T' ∧ form = .generic then
      skip bytes
      let name ← identifier bytes ';'
      expect bytes ';'
      return .variable name
    else
      fail .expectedReference

/-- A class type. -/
def classType (form : Form) : Nat → Scanner JavaType
  | 0 => check (.error .endless)
  | budget + 1 => objectType bytes form (typeArgs form budget)

/-- The type arguments of a class. -/
def typeArgs (form : Form) : Nat → Scanner (List TypeArg)
  | 0 => check (.error .endless)
  | budget + 1 => do
    let cursor ← get
    if cursor.nesting ≥ Parser.maxNesting then
      fail .nestingTooDeep
    else
      inside Cursor.enterArgs Cursor.leaveArgs (typeArgList bytes (referenceType form budget))

end

/-! ## Parameters, methods and classes -/

/-- The bound of a type variable by a class, if there is one. -/
def classBound (form : Form) (budget : Nat) : Scanner (Option JavaType) := do
  let seen ← peek bytes
  if seen = some 'L' ∨ seen = some 'T' ∨ seen = some '[' then
    let bound ← referenceType bytes form budget
    return some bound
  else
    return none

/-- The declaration of a type variable. -/
def typeParam (form : Form) (budget : Nat) : Scanner TypeParam := do
  let name ← identifier bytes ':'
  expect bytes ':'
  let classBound ← classBound bytes form budget
  let interfaceBounds ← repeatMarked bytes ':' (referenceType bytes form budget)
  return { name, classBound, interfaceBounds }

/-- The type parameters of a method or a class, if there are any. -/
def typeParams (form : Form) (budget : Nat) : Scanner (List TypeParam) := do
  let seen ← peek bytes
  if seen = some '<' then
    match form with
    | .descriptor => fail .typeParamsInDescriptor
    | .generic =>
      skip bytes
      let params ← repeatUntil bytes '>' (typeParam bytes .generic budget)
      if params.isEmpty then
        fail .noTypeParams
      else
        return params
  else
    return []

def returnType (form : Form) (budget : Nat) : Scanner ReturnType := do
  let seen ← peek bytes
  if seen = some 'V' then
    skip bytes
    return .void
  else
    let type ← valueType bytes form budget
    return .value type

def param (form : Form) (budget : Nat) : Scanner JavaType := do
  let seen ← peek bytes
  if seen.isNone then
    fail .unterminatedParameters
  else
    valueType bytes form budget

/-- The exceptions of a method, which a descriptor does not have. -/
def throwsClause (form : Form) (budget : Nat) : Scanner (List JavaType) :=
  match form with
  | .descriptor => do
    let seen ← peek bytes
    if seen = some '^' then
      fail .throwsInDescriptor
    else
      return []
  | .generic => repeatMarked bytes '^' (referenceType bytes .generic budget)

def methodType (form : Form) (budget : Nat) : Scanner MethodType := do
  let typeParams ← typeParams bytes form budget
  expect bytes '('
  let params ← repeatUntil bytes ')' (param bytes form budget)
  let result ← returnType bytes form budget
  let throws ← throwsClause bytes form budget
  return { typeParams, params, result, throws }

def classSignature (budget : Nat) : Scanner ClassType := do
  let typeParams ← typeParams bytes .generic budget
  let superclass ← classType bytes .generic budget
  let interfaces ← repeatWhile bytes Option.isSome (classType bytes .generic budget)
  return { typeParams, superclass, interfaces }

end

/-! ## Whole texts -/

/-- Runs a scanner on a whole text, from its first byte on and with nothing entered. -/
def parse (form : Form) (scanner : Bytes → Scanner α) (source : String) :
    Except Trap (Except Signature.Error α) := do
  let (result, _) ← scanner (Bytes.ofText source) ⟨0, 0, 0⟩
  return result.mapError fun stop => { form, fault := stop.fault, source, offset := stop.offset }

/-- Reads the type of a field. -/
def parseFieldType (form : Form) : String → Except Trap (Except Signature.Error JavaType) :=
  parse form fun bytes => do
    let type ← valueType bytes form Parser.callBudget
    finish bytes
    return type

/-- Reads the type of a method. -/
def parseMethodType (form : Form) : String → Except Trap (Except Signature.Error MethodType) :=
  parse form fun bytes => do
    let type ← methodType bytes form Parser.callBudget
    finish bytes
    return type

/-- Reads the type parameters and supertypes of a class. -/
def parseClassType : String → Except Trap (Except Signature.Error ClassType) :=
  parse .generic fun bytes => classSignature bytes Parser.callBudget

/-! ## On the path -/

section
variable {src rest : List Char} {path path' : Parser.Path} {form : Form} {α : Type}

/-- The counters of a cursor are those of the path. -/
def OnPath (path : Parser.Path) (cursor : Cursor) : Prop :=
  cursor.dimensions = path.dimensions ∧ cursor.nesting = path.nesting

/-- A cursor that has come to `path` from another one. -/
def goTo (path : Parser.Path) (cursor : Cursor) : Cursor :=
  { cursor with dimensions := path.dimensions, nesting := path.nesting }

/-- What is done in a place further down the path. -/
theorem mirrorsAt_inside {enter leave : Cursor → Except Trap Cursor} {m : Scanner α} {p : Parser α}
    (henter : ∀ cursor, OnPath path cursor → enter cursor = .ok (goTo path' cursor))
    (hleave : ∀ cursor, OnPath path' cursor → leave cursor = .ok (goTo path cursor))
    (hm : MirrorsAt src path' m p rest) : MirrorsAt src path (inside enter leave m) p rest := by
  intro cursor h
  have hentered : At src path' (goTo path' cursor) rest := ⟨h.pos, rfl, rfl⟩
  have hinside := hm _ hentered
  have hrun : inside enter leave m cursor = afterwards m leave (goTo path' cursor) := by
    rw [inside, get_bind, check_bind (henter cursor ⟨h.dimensions, h.nesting⟩), set_bind]
  rw [hrun]
  cases hp : p rest with
  | error failure =>
    rw [hp] at hinside
    obtain ⟨stop, cursor', hrun', htells⟩ := hinside
    have hback := hleave cursor' ⟨htells.dimensions, htells.nesting⟩
    exact ⟨stop, _, afterwards_eq hrun' hback, htells.fault, htells.offset, rfl, rfl⟩
  | ok r =>
    rw [hp] at hinside
    obtain ⟨cursor', hrun', h'⟩ := hinside
    have hback := hleave cursor' ⟨h'.dimensions, h'.nesting⟩
    exact ⟨_, afterwards_eq hrun' hback, h'.pos, rfl, rfl⟩

/-- The path in an array of `n` dimensions. -/
theorem enterArray_eq {n : Nat} (h : path.dimensions + n ≤ Parser.maxDimensions) {cursor : Cursor}
    (hcursor : OnPath path cursor) : cursor.enterArray n =
      .ok (goTo { path with dimensions := path.dimensions + n } cursor) := by
  have hmax : Parser.maxDimensions ≤ maxBytes + maxBytes := by decide
  rw [Cursor.enterArray, hcursor.1, add_eq_ok (lt_sizeValues (Nat.le_trans h hmax))]
  show Except.ok _ = _
  rw [goTo, ← hcursor.2]

theorem leaveArray_eq {n : Nat} {cursor : Cursor}
    (hcursor : OnPath { path with dimensions := path.dimensions + n } cursor) :
    cursor.leaveArray n = .ok (goTo path cursor) := by
  rw [Cursor.leaveArray, hcursor.1, sub_eq_ok (Nat.le_add_left ..)]
  show Except.ok _ = _
  rw [goTo, hcursor.2, Nat.add_sub_cancel]

theorem enterArgs_eq (h : path.nesting < Parser.maxNesting) {cursor : Cursor}
    (hcursor : OnPath path cursor) :
    cursor.enterArgs = .ok (goTo { path with nesting := path.nesting + 1 } cursor) := by
  have hmax : Parser.maxNesting ≤ maxBytes + maxBytes := by decide
  rw [Cursor.enterArgs, hcursor.2, add_eq_ok (lt_sizeValues (by omega))]
  show Except.ok _ = _
  rw [goTo, ← hcursor.1]

theorem leaveArgs_eq {cursor : Cursor} (hcursor : OnPath { path with nesting := path.nesting + 1 } cursor) :
    cursor.leaveArgs = .ok (goTo path cursor) := by
  rw [Cursor.leaveArgs, hcursor.2, sub_eq_ok (Nat.le_add_left ..)]
  show Except.ok _ = _
  rw [goTo, hcursor.1, Nat.add_sub_cancel]

/-! ## Types, given how type arguments are read -/

theorem shortens_of_reads {p : Parser α} {allowed : α → Prop} {written : α → List Char}
    {mayFollow : α → List Char → Prop} (h : Reading.ReadsBefore p allowed written mayFollow)
    (hne : ∀ a, allowed a → written a ≠ []) : Shortens p := by
  intro input a rest hread
  obtain ⟨ha, rfl, -⟩ := (h _ _ _).1 hread
  have := List.length_pos_of_ne_nil (hne a ha)
  rw [List.length_append]
  omega

variable (hheld : (bytesOf src).length ≤ maxBytes)
include hheld

section
variable {args : Scanner (List TypeArg)} {args' : Parser (List TypeArg)}
  (hargs : Mirrors src path args args')
include hargs

theorem mirrors_segment (isOutermost : Bool) :
    Mirrors src path (segment (bytesOf src) form isOutermost args) (Parser.segment form isOutermost args') := by
  intro rest
  refine (mirrors_className hheld rest).bind fun raw rest' _ => ?_
  refine mirrorsAt_ite Iff.rfl (fun _ => mirrors_fail _ rest') fun _ => ?_
  refine mirrors_peek fun seen halike => mirrorsAt_ite (halike.eq_iff (by decide)) (fun _ => ?_) fun _ =>
    follows_pure _
  cases form with
  | descriptor => exact mirrors_fail _ rest'
  | generic => exact (hargs rest').bind fun found _ _ => follows_pure _

theorem mirrors_nested : Mirrors src path (nested (bytesOf src) form args) (do
    if (← Parser.peek) = some '.' ∧ form = .generic then
      Parser.skip
      Parser.segment form false args'
    else
      Parser.fail .unterminatedClass) := by
  intro rest
  refine mirrors_peek fun seen halike => mirrorsAt_ite (and_congr_left' (halike.eq_iff (by decide)))
    (fun h => ?_) fun _ => mirrors_fail _ rest
  exact (mirrors_skip hheld (by decide) h.1).bind fun _ rest' _ => mirrors_segment hheld hargs false rest'

theorem mirrors_objectType (hreads : Reading.ReadsExactly args'
      (fun args => args ≠ [] ∧ ∀ a ∈ args, a.Fits form path.enterArgs) writtenArgList) :
    Mirrors src path (objectType (bytesOf src) form args) (Parser.objectType form args') := by
  have hshort := shortens_of_reads (Parser.reads_nested hreads) (by simp)
  intro rest
  refine (mirrors_expect hheld (by decide) rest).bind fun _ rest _ => ?_
  refine (mirrors_segment hheld hargs true rest).bind fun outermost rest _ => ?_
  refine (mirrors_repeatUntil hheld (by decide) (mirrors_nested hheld hargs) hshort rest).bind ?_
  exact fun inner rest _ => follows_pure _

end

section
variable {reference : Scanner JavaType} {reference' : Parser JavaType}
  (href : Mirrors src path reference reference')
include href

theorem mirrors_typeArg : Mirrors src path (typeArg (bytesOf src) reference) (do
    match ← Parser.peek with
    | some '*' =>
      Parser.skip
      return .any
    | some '+' =>
      Parser.skip
      return .upper (← reference')
    | some '-' =>
      Parser.skip
      return .lower (← reference')
    | _ => return .exactly (← reference')) := by
  have hmap (f : JavaType → TypeArg) : Mirrors src path (do return f (← reference)) (do return f (← reference')) :=
    fun rest => (href rest).bind fun _ _ _ => follows_pure _
  have hchoice := congrArg (MirrorsAt src path (typeArg (bytesOf src) reference)) (Parser.typeArg_eq reference')
  intro rest
  refine (congrFun hchoice rest).mpr (mirrors_peek fun seen halike => ?_)
  refine mirrorsAt_ite (halike.eq_iff (by decide)) (fun h => ?_) fun _ => ?_
  · exact (mirrors_skip hheld (by decide) h).bind fun _ rest' _ => follows_pure _
  refine mirrorsAt_ite (halike.eq_iff (by decide)) (fun h => ?_) fun _ => ?_
  · exact (mirrors_skip hheld (by decide) h).bind fun _ rest' _ => hmap .upper rest'
  refine mirrorsAt_ite (halike.eq_iff (by decide)) (fun h => ?_) fun _ => hmap .exactly rest
  exact (mirrors_skip hheld (by decide) h).bind fun _ rest' _ => hmap .lower rest'

theorem mirrors_typeArgList (hpath : path.Within) (hreads : Reading.ReadsExactly reference'
      (fun t => t.IsReference ∧ t.Fits form path) JavaType.written) :
    Mirrors src path (typeArgList (bytesOf src) reference) (Parser.typeArgList reference') := by
  have hshort := shortens_of_reads (Parser.reads_typeArg hpath hreads).before fun a _ => a.written_ne_nil
  intro rest
  refine (mirrors_expect hheld (by decide) rest).bind fun _ rest _ => ?_
  refine (mirrors_repeatUntil hheld (by decide) (mirrors_typeArg hheld href) hshort rest).bind ?_
  exact fun args rest _ => mirrorsAt_ite Iff.rfl (fun _ => mirrors_fail _ rest) fun _ => follows_pure _

end

/-! ## Arrays -/

/-- The brackets are as many as are in front of something else. -/
theorem brackets_eq {cs : List Char} (hcs : ∀ c ∈ cs, c = '[') (hend : rest.head? ≠ some '[') {n : Nat}
    (hn : n + cs.length ≤ maxBytes) {cursor : Cursor} (h : At src path cursor (cs ++ rest)) :
    brackets (bytesOf src) n cursor = .ok (.ok (n + cs.length), cursor.past cs) := by
  induction cs generalizing n cursor with
  | nil => exact loop_stop (decide_eq_false (mt (h.alike.eq_iff (by decide)).1 hend))
  | cons c cs ih =>
    obtain ⟨rfl, hothers⟩ := List.forall_mem_cons.1 hcs
    rw [List.length_cons] at hn
    have hgoes := (h.alike.eq_iff (show '['.toNat < 0x80 by decide)).2 rfl
    have hnext := @At.forward src (cs ++ rest) path cursor ['['] h
    have hlt : cursor.pos < (bytesOf src).length := by
      have := hnext.length_eq
      simp only [Cursor.past, show (bytesOf ['[']).length = 1 from rfl] at this
      omega
    have hturn : brackets (bytesOf src) n cursor = brackets (bytesOf src) (n + 1) (cursor.past ['[']) := by
      refine loop_turn (decide_eq_true hgoes) ?_ (h.left_lt hnext (Nat.lt_succ_self _))
      rw [bind_of_ok (skip_eq hheld hlt), check, add_eq_ok (lt_sizeValues (by omega))]
      rfl
    rw [hturn, ih hothers (by omega) hnext, cursor.past_cons '[' cs, List.length_cons, Nat.add_assoc, Nat.add_comm 1]

/-- An array, given how its element is read. -/
theorem mirrorsAt_array (hpath : path.Within) {element : Scanner JavaType}
    {element' : Parser.Path → Parser JavaType}
    (helement : ∀ n after, path.dimensions + n ≤ Parser.maxDimensions → after.head? ≠ some '[' →
      MirrorsAt src { path with dimensions := path.dimensions + n } element
        (element' { path with dimensions := path.dimensions + n }) after) :
    MirrorsAt src path (do
      let n ← brackets (bytesOf src) 0
      let cursor ← get
      let dimensions ← check (add cursor.dimensions n)
      if dimensions > Parser.maxDimensions then
        fail .tooManyDimensions
      else
        let element ← inside (Cursor.enterArray n) (Cursor.leaveArray n) element
        return Parser.arrayOf n element) (do
      let n := (← Parser.run (· = '[')).length
      if path.dimensions + n > Parser.maxDimensions then
        Parser.fail .tooManyDimensions
      else
        let element ← element' { path with dimensions := path.dimensions + n }
        return Parser.arrayOf n element) rest := by
  intro cursor h
  obtain ⟨cs, after, hrun⟩ : ∃ cs after, Parser.run (· = '[') rest = .ok (cs, after) := ⟨_, _, rfl⟩
  obtain ⟨hcs, rfl, hend⟩ := Parser.run_eq_ok.1 hrun
  have hclosed : after.head? ≠ some '[' := fun hhead => absurd rfl (of_decide_eq_false (hend _ hhead))
  have hfew : 0 + cs.length ≤ maxBytes := by
    have hbytes := length_le_length_bytesOf cs
    have hlength := h.length_eq
    rw [bytesOf_append, List.length_append] at hlength
    omega
  have hbrackets := brackets_eq hheld (fun c hc => of_decide_eq_true (hcs c hc)) hclosed hfew h
  rw [Nat.zero_add] at hbrackets
  have hafter := h.forward
  have hsum : add (cursor.past cs).dimensions cs.length = .ok (path.dimensions + cs.length) := by
    have hmax : 255 ≤ maxBytes := by decide
    have := hpath.dimensions
    rw [hafter.dimensions]
    exact add_eq_ok (lt_sizeValues (by omega))
  rw [Reading.bind_of_ok hrun, bind_of_ok hbrackets, get_bind, check_bind hsum]
  refine mirrorsAt_ite Iff.rfl (fun _ => mirrors_fail _ after) (fun hfits => ?_) _ hafter
  have hdimensions := Nat.le_of_not_lt hfits
  refine (mirrorsAt_inside (fun _ => enterArray_eq hdimensions) (fun _ => leaveArray_eq)
    (helement _ after hdimensions hclosed)).bind fun _ _ _ => follows_pure _

theorem mirrorsAt_referenceType {budget : Nat} (hpath : path.Within)
    (hclass : MirrorsAt src path (classType (bytesOf src) form budget) (Parser.classType form budget path) rest)
    (helement : rest.head? = some '[' → ∀ n after, path.dimensions + n ≤ Parser.maxDimensions →
      after.head? ≠ some '[' →
      MirrorsAt src { path with dimensions := path.dimensions + n } (valueType (bytesOf src) form budget)
        (Parser.valueType form budget { path with dimensions := path.dimensions + n }) after) :
    MirrorsAt src path (referenceType (bytesOf src) form (budget + 1))
      (Parser.referenceType form (budget + 1) path) rest := by
  rw [Parser.referenceType_succ, referenceType]
  refine mirrors_peek fun seen halike => mirrorsAt_ite (halike.eq_iff (by decide)) (fun _ => hclass) fun _ => ?_
  refine mirrorsAt_ite (halike.eq_iff (by decide)) (fun hopen => mirrorsAt_array hheld hpath (helement hopen)) ?_
  refine fun _ => mirrorsAt_ite (and_congr_left' (halike.eq_iff (by decide))) (fun h => ?_) fun _ =>
    mirrors_fail _ rest
  refine (mirrors_skip hheld (by decide) h.1).bind fun _ rest _ => ?_
  refine (mirrors_identifier hheld (by decide) rest).bind fun name rest _ => ?_
  exact (mirrors_expect hheld (by decide) rest).bind fun _ rest _ => follows_pure _

omit hheld in
theorem toNat_of_ofTag? {c : Char} {type : Primitive} (h : Primitive.ofTag? c = some type) : c.toNat < 0x80 := by
  rw [← Primitive.tag_of_ofTag? h]
  cases type <;> decide

theorem mirrorsAt_valueType {budget : Nat}
    (href : MirrorsAt src path (referenceType (bytesOf src) form budget)
      (Parser.referenceType form budget path) rest) :
    MirrorsAt src path (valueType (bytesOf src) form (budget + 1)) (Parser.valueType form (budget + 1) path)
      rest := by
  rw [Parser.valueType, valueType]
  refine mirrors_peek fun seen halike => ?_
  obtain rfl | ⟨b, c, rfl, hhead, hb, hc⟩ := halike
  · cases hhead : rest.head? with
    | none => exact mirrors_fail _ rest
    | some c =>
      dsimp only
      cases htag : Primitive.ofTag? c with
      | none => exact href
      | some type => exact (mirrors_skip hheld (toNat_of_ofTag? htag) hhead).bind fun _ _ _ => follows_pure _
  · have hnone {d : Char} (hd : 0x80 ≤ d.toNat) : Primitive.ofTag? d = none := by
      cases htag : Primitive.ofTag? d with
      | none => rfl
      | some type => exact absurd hd (Nat.not_le_of_lt (toNat_of_ofTag? htag))
    rw [hhead]
    dsimp only
    rw [hnone hb, hnone hc]
    exact href

/-! ## Types -/

variable {n budget : Nat}

omit hheld in
/-- Where `n` more type argument lists can be entered, their calls stay within the budget. -/
def MirrorsTypeArgs (src : List Char) (form : Form) (n : Nat) : Prop :=
  ∀ ⦃budget path⦄, path.Within → Parser.maxNesting ≤ path.nesting + n → 5 * n + 1 ≤ budget →
    Mirrors src path (typeArgs (bytesOf src) form budget) (Parser.typeArgs form budget path)

section
variable (hargs : MirrorsTypeArgs src form n) (hpath : path.Within) (hn : Parser.maxNesting ≤ path.nesting + n)
include hargs hpath hn

theorem mirrors_classType_of (hbudget : 5 * n + 2 ≤ budget) :
    Mirrors src path (classType (bytesOf src) form budget) (Parser.classType form budget path) := by
  obtain ⟨budget, rfl⟩ := Nat.exists_eq_add_of_le' (Nat.le_of_add_left_le hbudget)
  rw [classType, Parser.classType]
  exact mirrors_objectType hheld (hargs hpath hn (by omega)) (Parser.reads_typeArgs form n hpath hn (by omega))

theorem mirrorsAt_plainValue_of (hbudget : 5 * n + 4 ≤ budget) (hclosed : rest.head? ≠ some '[') :
    MirrorsAt src path (valueType (bytesOf src) form budget) (Parser.valueType form budget path) rest := by
  obtain ⟨budget, rfl⟩ := Nat.exists_eq_add_of_le' (Nat.le_of_add_left_le hbudget)
  exact mirrorsAt_valueType hheld <| mirrorsAt_referenceType hheld hpath
    (mirrors_classType_of hheld hargs hpath hn (by omega) rest) fun hopen => absurd hopen hclosed

theorem mirrors_referenceType_of (hbudget : 5 * n + 5 ≤ budget) :
    Mirrors src path (referenceType (bytesOf src) form budget) (Parser.referenceType form budget path) := by
  obtain ⟨budget, rfl⟩ := Nat.exists_eq_add_of_le' (Nat.le_of_add_left_le hbudget)
  intro rest
  refine mirrorsAt_referenceType hheld hpath (mirrors_classType_of hheld hargs hpath hn (by omega) rest) ?_
  intro _ dimensions after hdimensions hclosed
  exact mirrorsAt_plainValue_of hheld hargs ⟨hdimensions, hpath.nesting⟩ hn (by omega) hclosed

theorem mirrors_valueType_of (hbudget : 5 * n + 6 ≤ budget) :
    Mirrors src path (valueType (bytesOf src) form budget) (Parser.valueType form budget path) := by
  obtain ⟨budget, rfl⟩ := Nat.exists_eq_add_of_le' (Nat.le_of_add_left_le hbudget)
  exact fun rest => mirrorsAt_valueType hheld (mirrors_referenceType_of hheld hargs hpath hn (by omega) rest)

end

omit hheld in
theorem mirrors_typeArgs_full (hfull : Parser.maxNesting ≤ path.nesting) :
    Mirrors src path (typeArgs (bytesOf src) form (budget + 1)) (Parser.typeArgs form (budget + 1) path) := by
  intro rest cursor h
  have hcursor : cursor.nesting ≥ Parser.maxNesting := h.nesting ▸ hfull
  rw [Parser.typeArgs.eq_def, typeArgs, get_bind]
  dsimp only
  rw [if_pos hfull, if_pos hcursor]
  exact mirrors_fail _ rest cursor h

/-- Every list of type arguments that is entered leaves fewer to enter. -/
theorem mirrors_typeArgs (form : Form) (n : Nat) : MirrorsTypeArgs src form n := by
  induction n with
  | zero =>
    intro budget path _ hn hbudget
    obtain ⟨budget, rfl⟩ := Nat.exists_eq_add_of_le' (Nat.le_of_add_left_le hbudget)
    exact mirrors_typeArgs_full hn
  | succ n ih =>
    intro budget path hpath hn hbudget
    obtain ⟨budget, rfl⟩ := Nat.exists_eq_add_of_le' (Nat.le_of_add_left_le hbudget)
    by_cases hfull : Parser.maxNesting ≤ path.nesting
    · exact mirrors_typeArgs_full hfull
    have hmore : path.enterArgs.Within := ⟨hpath.dimensions, Nat.lt_of_not_le hfull⟩
    have hless : Parser.maxNesting ≤ path.nesting + 1 + n := by omega
    have href := mirrors_referenceType_of hheld ih hmore hless (show 5 * n + 5 ≤ budget by omega)
    have hreads := Parser.reads_referenceType_of (Parser.reads_typeArgs form n) hmore hless
      (show 5 * n + 4 ≤ budget by omega)
    have hlist := mirrors_typeArgList hheld href hmore hreads
    intro rest cursor h
    have hcursor : ¬cursor.nesting ≥ Parser.maxNesting := h.nesting ▸ hfull
    rw [Parser.typeArgs.eq_def, typeArgs, get_bind]
    dsimp only
    rw [if_neg hfull, if_neg hcursor]
    exact mirrorsAt_inside (fun _ => enterArgs_eq (Nat.lt_of_not_le hfull)) (fun _ => leaveArgs_eq)
      (hlist rest) cursor h

/-- At the start the budget is enough for every type. -/
theorem mirrors_classType (form : Form) : Mirrors src .top (classType (bytesOf src) form Parser.callBudget)
    (Parser.classType form Parser.callBudget .top) :=
  mirrors_classType_of hheld (mirrors_typeArgs hheld form Parser.maxNesting) Parser.within_top
    (Nat.le_add_left _ _) (by decide)

theorem mirrors_referenceType (form : Form) :
    Mirrors src .top (referenceType (bytesOf src) form Parser.callBudget)
      (Parser.referenceType form Parser.callBudget .top) :=
  mirrors_referenceType_of hheld (mirrors_typeArgs hheld form Parser.maxNesting) Parser.within_top
    (Nat.le_add_left _ _) (by decide)

theorem mirrors_valueType (form : Form) : Mirrors src .top (valueType (bytesOf src) form Parser.callBudget)
    (Parser.valueType form Parser.callBudget .top) :=
  mirrors_valueType_of hheld (mirrors_typeArgs hheld form Parser.maxNesting) Parser.within_top
    (Nat.le_add_left _ _) (by decide)

/-! ## Parameters, methods and classes -/

omit hheld in
theorem shortens_of_exactly {p : Parser JavaType} {allowed : JavaType → Prop}
    (h : Reading.ReadsExactly p allowed JavaType.written) : Shortens p := by
  refine shortens_of_reads h.before fun t _ => ?_
  obtain ⟨cs, hcs⟩ := t.exists_written
  simp [hcs]

theorem mirrors_typeParam (form : Form) : Mirrors src .top (typeParam (bytesOf src) form Parser.callBudget)
    (Parser.typeParam form Parser.callBudget) := by
  have href := mirrors_referenceType hheld form
  have hshort := shortens_of_exactly (Parser.reads_referenceType form)
  intro rest
  rw [Parser.typeParam_eq]
  refine (mirrors_identifier hheld (by decide) rest).bind fun name rest _ => ?_
  refine (mirrors_expect hheld (by decide) rest).bind fun _ rest _ => ?_
  refine Follows.bind ?_ fun classBound rest _ => ?_
  · refine mirrors_peek fun seen halike => mirrorsAt_ite ?_ (fun _ => ?_) fun _ => follows_pure _
    · rw [halike.eq_iff (by decide), halike.eq_iff (by decide), halike.eq_iff (by decide)]
    · exact (href rest).bind fun _ _ _ => follows_pure _
  · exact (mirrors_repeatMarked hheld (by decide) href hshort rest).bind fun _ _ _ => follows_pure _

theorem mirrors_typeParams (form : Form) : Mirrors src .top (typeParams (bytesOf src) form Parser.callBudget)
    (Parser.typeParams form Parser.callBudget) := by
  intro rest
  refine mirrors_peek fun seen halike => mirrorsAt_ite (halike.eq_iff (by decide)) (fun hopen => ?_) fun _ =>
    follows_pure _
  cases form with
  | descriptor => exact mirrors_fail _ rest
  | generic =>
    have hshort := shortens_of_reads Parser.reads_typeParam fun p _ => by simp [TypeParam.written]
    refine (mirrors_skip hheld (by decide) hopen).bind fun _ rest _ => ?_
    refine (mirrors_repeatUntil hheld (by decide) (mirrors_typeParam hheld .generic) hshort rest).bind ?_
    exact fun params rest _ => mirrorsAt_ite Iff.rfl (fun _ => mirrors_fail _ rest) fun _ => follows_pure _

theorem mirrors_returnType (form : Form) : Mirrors src .top (returnType (bytesOf src) form Parser.callBudget)
    (Parser.returnType form Parser.callBudget) := by
  intro rest
  refine mirrors_peek fun seen halike => mirrorsAt_ite (halike.eq_iff (by decide)) (fun hvoid => ?_) fun _ => ?_
  · exact (mirrors_skip hheld (by decide) hvoid).bind fun _ _ _ => follows_pure _
  · exact (mirrors_valueType hheld form rest).bind fun _ _ _ => follows_pure _

theorem mirrors_param (form : Form) : Mirrors src .top (param (bytesOf src) form Parser.callBudget) (do
    if (← Parser.peek).isNone then
      Parser.fail .unterminatedParameters
    else
      Parser.valueType form Parser.callBudget .top) := by
  intro rest
  refine mirrors_peek fun seen halike => mirrorsAt_ite ?_ (fun _ => mirrors_fail _ rest) fun _ =>
    mirrors_valueType hheld form rest
  rw [Option.isNone_iff_eq_none, Option.isNone_iff_eq_none, halike.eq_none_iff]

theorem mirrors_throwsClause (form : Form) :
    Mirrors src .top (throwsClause (bytesOf src) form Parser.callBudget) (match form with
      | .descriptor => do
        if (← Parser.peek) = some '^' then
          Parser.fail .throwsInDescriptor
        else
          pure []
      | .generic => Parser.repeatMarked '^' (Parser.referenceType form Parser.callBudget .top)) := by
  cases form with
  | descriptor =>
    exact fun rest => mirrors_peek fun seen halike => mirrorsAt_ite (halike.eq_iff (by decide))
      (fun _ => mirrors_fail _ rest) fun _ => follows_pure _
  | generic =>
    exact mirrors_repeatMarked hheld (by decide) (mirrors_referenceType hheld .generic)
      (shortens_of_exactly (Parser.reads_referenceType .generic))

theorem mirrors_methodType (form : Form) : Mirrors src .top (methodType (bytesOf src) form Parser.callBudget)
    (Parser.methodType form Parser.callBudget) := by
  have hshort : Shortens (do
      if (← Parser.peek).isNone then
        Parser.fail .unterminatedParameters
      else
        Parser.valueType form Parser.callBudget .top) := by
    intro input t rest hread
    rw [Parser.peek_bind] at hread
    split at hread
    · exact absurd hread (Parser.fail_ne_ok _ _)
    · exact shortens_of_exactly (Parser.reads_valueType form) input t rest hread
  intro rest
  rw [Parser.methodType_eq]
  refine (mirrors_typeParams hheld form rest).bind fun typeParams rest _ => ?_
  refine (mirrors_expect hheld (by decide) rest).bind fun _ rest _ => ?_
  refine (mirrors_repeatUntil hheld (by decide) (mirrors_param hheld form) hshort rest).bind fun _ rest _ => ?_
  refine (mirrors_returnType hheld form rest).bind fun result rest _ => ?_
  exact (mirrors_throwsClause hheld form rest).bind fun throws _ _ => follows_pure _

theorem mirrors_classSignature : Mirrors src .top (classSignature (bytesOf src) Parser.callBudget)
    (Parser.classSignature Parser.callBudget) := by
  have hshort := shortens_of_exactly (Parser.reads_classType .generic)
  intro rest
  refine (mirrors_typeParams hheld .generic rest).bind fun typeParams rest _ => ?_
  refine (mirrors_classType hheld .generic rest).bind fun superclass rest _ => ?_
  refine (mirrors_repeatWhile ?_ (fun rest _ => mirrors_classType hheld .generic rest) hshort rest).bind
    fun interfaces rest _ => follows_pure _
  intro seen rest halike
  have hend := halike.eq_none_iff
  cases rest <;> cases seen <;> simp_all

/-! ## Whole texts -/

end

section
variable {α : Type} {form : Form} {source : String}

/-- A whole text is read as it is from its characters, and what is wrong is reported at the same place. -/
theorem parse_eq {scanner : Bytes → Scanner α} {parser : Parser α}
    (h : Mirrors source.toList .top (scanner (Bytes.ofText source)) parser) :
    parse form scanner source = .ok (Signature.parse form parser source) := by
  have hstart : At source.toList .top ⟨0, 0, 0⟩ source.toList := ⟨⟨[], rfl, rfl⟩, rfl, rfl⟩
  have hrun := h source.toList _ hstart
  rw [parse, Signature.parse]
  cases hp : parser source.toList with
  | ok r =>
    obtain ⟨a, rest⟩ := r
    rw [hp] at hrun
    obtain ⟨cursor, hrun, -⟩ := hrun
    rw [hrun]
    rfl
  | error failure =>
    rw [hp] at hrun
    obtain ⟨stop, cursor, hrun, htells⟩ := hrun
    obtain ⟨front, hsource, hoffset⟩ := htells.offset
    have hwhole : source.utf8ByteSize = (bytesOf front).length + (bytesOf failure.rest).length := by
      rw [← List.length_append, ← bytesOf_append, ← hsource, ← utf8ByteSize_ofList, String.ofList_toList]
    have hsize : stop.offset = source.utf8ByteSize - (String.ofList failure.rest).utf8ByteSize := by
      rw [hoffset, hwhole, utf8ByteSize_ofList, Nat.add_sub_cancel]
    rw [hrun]
    show Except.ok (Except.error (Signature.Error.mk form stop.fault source stop.offset)) = _
    rw [htells.fault, hsize]

variable (hheld : source.utf8ByteSize ≤ maxBytes)
include hheld

theorem length_ofText_le : (bytesOf source.toList).length ≤ maxBytes := by
  rwa [← utf8ByteSize_ofList, String.ofList_toList]

/-- **Reading descriptors and signatures never traps.** -/
theorem parseFieldType_eq : parseFieldType form source = .ok (Signature.parseFieldType form source) := by
  refine parse_eq fun rest => ?_
  rw [seqLeft_eq_bind]
  refine (mirrors_valueType (length_ofText_le hheld) form rest).bind fun type rest _ => ?_
  exact (mirrors_finish rest).bind fun _ _ _ => follows_pure _

theorem parseMethodType_eq : parseMethodType form source = .ok (Signature.parseMethodType form source) := by
  refine parse_eq fun rest => ?_
  rw [seqLeft_eq_bind]
  refine (mirrors_methodType (length_ofText_le hheld) form rest).bind fun type rest _ => ?_
  exact (mirrors_finish rest).bind fun _ _ _ => follows_pure _

theorem parseClassType_eq : parseClassType source = .ok (Signature.parseClassType source) :=
  parse_eq (mirrors_classSignature (length_ofText_le hheld))

end

end Scanner

end ApiSurface.Machine
