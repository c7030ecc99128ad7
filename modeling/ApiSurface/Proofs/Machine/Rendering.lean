import ApiSurface.Decl.Block
import ApiSurface.Proofs.ClassFile.Bounds
import ApiSurface.Proofs.Machine.Basic
import ApiSurface.Proofs.Signature.Written

/-!
Writing declarations as a machine does it: the items of a list are numbered, and the number says what
stands in front of an item and which one is the last.

Every item of a list stands somewhere in the text that the list was read from. So no list is so long that
its items could not be numbered.
-/

namespace ApiSurface.Machine

namespace Rendering

/-! ## Types -/

mutual

/-- A type in source form. -/
def writeType : JavaType → Except Trap String
  | .primitive type => return type.keyword
  | .variable name => return name
  | .array element => do
    let text ← writeType element
    return text ++ "[]"
  | .object outermost inner => do
    let next ← add 0 1
    let first ← writeSegment outermost
    let rest ← writeInner next inner
    return first ++ rest

def writeSegment : Segment → Except Trap String
  | .mk name [] => return name
  | .mk name (arg :: args) => do
    let next ← add 0 1
    let first ← writeArg arg
    let rest ← writeArgs next args
    return name ++ "<" ++ first ++ rest ++ ">"

def writeArg : TypeArg → Except Trap String
  | .any => return "?"
  | .upper bound => do
    let text ← writeType bound
    return "? extends " ++ text
  | .lower bound => do
    let text ← writeType bound
    return "? super " ++ text
  | .exactly type => writeType type

/-- The nested classes from the one with the number `i` on. -/
def writeInner (i : Nat) : List Segment → Except Trap String
  | [] => return ""
  | s :: rest => do
    let next ← add i 1
    let text ← writeSegment s
    let texts ← writeInner next rest
    return (if i = 0 then "" else "$") ++ text ++ texts

/-- The arguments from the one with the number `i` on. -/
def writeArgs (i : Nat) : List TypeArg → Except Trap String
  | [] => return ""
  | a :: rest => do
    let next ← add i 1
    let text ← writeArg a
    let texts ← writeArgs next rest
    return (if i = 0 then "" else ", ") ++ text ++ texts

end

/-! ## Lists -/

/-- Items from the one with the number `i` on, with `start` in front of the one with the number zero and
`separator` in front of the others. -/
def writeEach (start separator : String) (write : Nat → α → Except Trap String) (i : Nat) :
    List α → Except Trap String
  | [] => return ""
  | a :: as => do
    let next ← add i 1
    let text ← write i a
    let texts ← writeEach start separator write next as
    return (if i = 0 then start else separator) ++ text ++ texts

/-! ## Members -/

/-- The class with the number `i` of a nest. -/
def nthClass (classes : List Segment) (i : Nat) : Except Trap Segment :=
  match classes[i]? with
  | some s => .ok s
  | none => .error .outOfRange

/-- Whether a type is the root of the class hierarchy. A nest has more than one class and is not asked for
the first. -/
def isRoot : JavaType → Except Trap Bool
  | .object outermost inner =>
    if (outermost :: inner).length = 1 then do
      let only ← nthClass (outermost :: inner) 0
      return only.name = "java.lang.Object"
    else
      return false
  | _ => return false

/-- The bounds that say something. -/
def boundsOf (p : TypeParam) : Except Trap (List JavaType) :=
  match p.classBound with
  | none => return p.interfaceBounds
  | some bound => do
    let root ← isRoot bound
    return if root then p.interfaceBounds else bound :: p.interfaceBounds

def writeTypeParam (p : TypeParam) : Except Trap String := do
  let bounds ← boundsOf p
  let text ← writeEach " extends " " & " (fun _ => writeType) 0 bounds
  return p.name ++ text

def writeTypeParams (params : List TypeParam) : Except Trap String := do
  let texts ← writeEach "" ", " (fun _ => writeTypeParam) 0 params
  return "<" ++ texts ++ ">"

def writeResult : ReturnType → Except Trap String
  | .void => return "void"
  | .value type => writeType type

/-- The parameter with the number `i`. -/
def writeParam (varargs : Bool) (last i : Nat) (param : JavaType) : Except Trap String :=
  match param with
  | .array element =>
    if varargs && i = last then do
      let text ← writeType element
      return text ++ "..."
    else
      writeType param
  | _ => writeType param

/-- The type parameters of a method, in front of everything else that has a type. -/
def writeIntroduced (m : MethodDecl) : Except Trap String :=
  if m.typeParams.isEmpty then
    return ""
  else do
    let text ← writeTypeParams m.typeParams
    return text ++ " "

def writeSubject (m : MethodDecl) : Except Trap String :=
  if m.isConstructor then
    return m.declaringType
  else do
    let text ← writeResult m.result
    return text ++ " " ++ m.name

def writeThrows (m : MethodDecl) : Except Trap String :=
  if m.throws.isEmpty then
    return ""
  else do
    let texts ← writeEach "" ", " (fun _ => writeType) 0 m.throws
    return " throws " ++ texts

/-- The method in source form. Where it has no parameters, the number of the last one is zero. -/
def writeMethod (owner : TypeKind) (m : MethodDecl) : Except Trap String := do
  let introduced ← writeIntroduced m
  let subject ← writeSubject m
  let params ← writeEach "" ", "
    (writeParam (m.access.has AccessFlags.varargsBit) (m.params.length - 1)) 0 m.params
  let throws ← writeThrows m
  return String.join ((m.modifiers owner).map (· ++ " ")) ++ introduced ++ subject
    ++ "(" ++ params ++ ")" ++ throws

def writeField (f : FieldDecl) : Except Trap String := do
  let type ← writeType f.type
  return String.join (f.modifiers.map (· ++ " ")) ++ type ++ " " ++ f.name

/-! ## Blocks -/

def writeMethods (synthetic : Bool) (t : TypeDecl) : Except Trap (List Entry) :=
  (t.exportedMethods synthetic).mapM fun m => do
    let text ← writeMethod t.kind m
    return ⟨text, m.name, m.descriptor⟩

def writeFields (synthetic : Bool) (t : TypeDecl) : Except Trap (List Entry) :=
  (t.exportedFields synthetic).mapM fun f => do
    let text ← writeField f
    return ⟨text, f.name, f.descriptor⟩

/-- The lines of a type, for which there is room made before they are put together. -/
def writeBlock (synthetic : Bool) (t : TypeDecl) : Except Trap (List Report.Line) := do
  let methods ← writeMethods synthetic t
  let fields ← writeFields synthetic t
  let methodRoom ← add 1 (Entry.ordered methods).length
  let _room ← add methodRoom (Entry.ordered fields).length
  return ⟨.type, t.header⟩
    :: (Entry.ordered methods).map (⟨.method, ·.text⟩)
    ++ (Entry.ordered fields).map (⟨.field, ·.text⟩)

/-! ## Types that are written without a trap -/

mutual

theorem writeType_eq : ∀ t : JavaType, t.written.length ≤ maxBytes → writeType t = .ok t.source
  | .primitive _, _ => rfl
  | .variable _, _ => rfl
  | .array element, h => by
    rw [JavaType.written, List.length_cons] at h
    rw [writeType, bind_ok (writeType_eq element (by omega)), JavaType.source]
    rfl
  | .object outermost inner, h => by
    rw [JavaType.written, List.length_cons, List.length_append, List.length_append] at h
    rw [writeType, bind_ok (add_eq_ok (by decide)), bind_ok (writeSegment_eq true outermost (by omega)),
      bind_ok (writeInner_eq inner 0 (by omega)), JavaType.source]
    rfl

theorem writeSegment_eq (isOutermost : Bool) : ∀ s : Segment, (s.written isOutermost).length ≤ maxBytes →
    writeSegment s = .ok s.source
  | .mk name [], _ => by
    rw [writeSegment, Segment.source]
    rfl
  | .mk name (arg :: args), h => by
    rw [Segment.written, List.length_append, List.length_cons, List.length_append, List.length_append] at h
    rw [writeSegment, bind_ok (add_eq_ok (by decide)), bind_ok (writeArg_eq arg (by omega)),
      bind_ok (writeArgs_eq args 0 (by omega)), Segment.source]
    rfl

theorem writeArg_eq : ∀ a : TypeArg, a.written.length ≤ maxBytes → writeArg a = .ok a.source
  | .any, _ => rfl
  | .upper bound, h => by
    rw [TypeArg.written, List.length_cons] at h
    rw [writeArg, bind_ok (writeType_eq bound (by omega)), TypeArg.source]
    rfl
  | .lower bound, h => by
    rw [TypeArg.written, List.length_cons] at h
    rw [writeArg, bind_ok (writeType_eq bound (by omega)), TypeArg.source]
    rfl
  | .exactly type, h => by
    rw [TypeArg.written] at h
    rw [writeArg, writeType_eq type h, TypeArg.source]

/-- Every class of a nest takes at least a character, so its number is no greater than the length. -/
theorem writeInner_eq : ∀ (inner : List Segment) (i : Nat), i + (writtenInner inner).length ≤ maxBytes →
    writeInner (i + 1) inner = .ok (sourceOfInner inner)
  | [], _, _ => by
    rw [writeInner, sourceOfInner]
    rfl
  | s :: rest, i, h => by
    have hone : 1 ≤ maxBytes := by decide
    rw [writtenInner, List.length_cons, List.length_append] at h
    rw [writeInner, bind_ok (add_eq_ok (lt_sizeValues (by omega))), bind_ok (writeSegment_eq false s (by omega)),
      bind_ok (writeInner_eq rest (i + 1) (by omega)), sourceOfInner, if_neg (Nat.succ_ne_zero i)]
    rfl

theorem writeArgs_eq : ∀ (args : List TypeArg) (i : Nat), i + (writtenArgs args).length ≤ maxBytes →
    writeArgs (i + 1) args = .ok (sourceOfMoreArgs args)
  | [], _, _ => by
    rw [writeArgs, sourceOfMoreArgs]
    rfl
  | a :: rest, i, h => by
    have hone : 1 ≤ maxBytes := by decide
    have hsome := List.length_pos_of_ne_nil a.written_ne_nil
    rw [writtenArgs, List.length_append] at h
    rw [writeArgs, bind_ok (add_eq_ok (lt_sizeValues (by omega))), bind_ok (writeArg_eq a (by omega)),
      bind_ok (writeArgs_eq rest (i + 1) (by omega)), sourceOfMoreArgs, if_neg (Nat.succ_ne_zero i)]
    rfl

end

/-! ## Lists that are written without a trap -/

theorem intercalate_cons (separator text : String) (texts : List String) :
    separator.intercalate (text :: texts) = text ++ String.join (texts.map (separator ++ ·)) := by
  induction texts generalizing text with
  | nil => simp
  | cons next texts ih =>
    rw [String.intercalate_cons_of_ne_nil (by simp), ih, List.map_cons, String.join_cons,
      String.append_assoc, String.append_assoc]

section
variable {start separator : String} {write : Nat → α → Except Trap String} {as : List α}

theorem writeEach_succ {f : Nat → α → String} {i : Nat} (hlength : i + as.length ≤ maxBytes)
    (h : ∀ k a, as[k]? = some a → write (i + 1 + k) a = .ok (f k a)) :
    writeEach start separator write (i + 1) as = .ok (String.join ((as.mapIdx f).map (separator ++ ·))) := by
  induction as generalizing i f with
  | nil => rfl
  | cons a as ih =>
    have hone : 1 ≤ maxBytes := by decide
    rw [List.length_cons] at hlength
    have hrest (k : Nat) (b : α) (hb : as[k]? = some b) : write (i + 1 + 1 + k) b = .ok (f (k + 1) b) := by
      rw [Nat.add_assoc, Nat.add_comm 1]
      exact h (k + 1) b (by simpa using hb)
    rw [writeEach, bind_ok (add_eq_ok (lt_sizeValues (by omega))), bind_ok (h 0 a rfl),
      bind_ok (ih (by omega) hrest), if_neg (Nat.succ_ne_zero i), List.mapIdx_cons, List.map_cons,
      String.join_cons]
    rfl

/-- The first item has `start` in front of it, the others have the separator. -/
theorem writeEach_cons {f : Nat → α → String} {a : α} (hlength : as.length ≤ maxBytes)
    (h : ∀ k b, (a :: as)[k]? = some b → write k b = .ok (f k b)) :
    writeEach start separator write 0 (a :: as) =
      .ok (start ++ separator.intercalate ((a :: as).mapIdx f)) := by
  have hrest (k : Nat) (b : α) (hb : as[k]? = some b) : write (0 + 1 + k) b = .ok (f (k + 1) b) := by
    rw [Nat.zero_add, Nat.add_comm 1]
    exact h (k + 1) b (by simpa using hb)
  rw [writeEach, bind_ok (add_eq_ok (by decide)), bind_ok (h 0 a rfl),
    bind_ok (writeEach_succ (by omega) hrest), List.mapIdx_cons, intercalate_cons, ← String.append_assoc]
  rfl

/-- Items with commas between them. -/
theorem writeEach_commas {f : Nat → α → String} (hlength : as.length ≤ maxBytes)
    (h : ∀ k a, as[k]? = some a → write k a = .ok (f k a)) :
    writeEach "" ", " write 0 as = .ok (commaSeparated (as.mapIdx f)) := by
  cases as with
  | nil => rfl
  | cons a as =>
    rw [writeEach_cons (by rw [List.length_cons] at hlength; omega) h, String.empty_append]
    rfl

end

theorem mapIdx_eq_map (f : α → β) (as : List α) : as.mapIdx (fun _ => f) = as.map f := by
  induction as with
  | nil => rfl
  | cons a as ih => rw [List.mapIdx_cons, ih, List.map_cons]

/-- The type is written without a trap. -/
def IsWritable (t : JavaType) : Prop :=
  writeType t = .ok t.source

theorem writeEach_types {ts : List JavaType} (hlength : ts.length ≤ maxBytes) (h : ∀ t ∈ ts, IsWritable t) :
    writeEach "" ", " (fun _ => writeType) 0 ts = .ok (commaSeparated (ts.map JavaType.source)) := by
  rw [← mapIdx_eq_map]
  exact writeEach_commas hlength fun k t ht => h t (List.mem_of_getElem? ht)

/-! ## Members that are written without a trap -/

/-- A type parameter whose bounds can be numbered and written. -/
structure IsWritableParam (p : TypeParam) : Prop where
  count : p.bounds.length ≤ maxBytes
  bounds : ∀ t ∈ p.bounds, IsWritable t

theorem isRoot_eq (t : JavaType) : isRoot t = .ok t.isRoot := by
  cases t with
  | object outermost inner =>
    obtain ⟨name, args⟩ := outermost
    cases inner with
    | nil => rfl
    | cons s inner =>
      have hmany : ¬(Segment.mk name args :: s :: inner).length = 1 := by simp
      rw [isRoot, if_neg hmany]
      rfl
  | _ => rfl

theorem boundsOf_eq (p : TypeParam) : boundsOf p = .ok p.bounds := by
  rw [boundsOf, TypeParam.bounds]
  cases p.classBound with
  | none => rfl
  | some bound =>
    dsimp only
    rw [bind_ok (isRoot_eq bound)]
    cases hroot : bound.isRoot with
    | true =>
      rw [Option.filter_some_neg (by simp [hroot])]
      rfl
    | false =>
      rw [Option.filter_some_pos (by simp [hroot])]
      rfl

theorem writeTypeParam_eq {p : TypeParam} (h : IsWritableParam p) : writeTypeParam p = .ok p.source := by
  obtain ⟨hcount, hbounds⟩ := h
  rw [writeTypeParam, bind_ok (boundsOf_eq p), TypeParam.source]
  cases hp : p.bounds with
  | nil =>
    show Except.ok (p.name ++ "") = _
    rw [String.append_empty]
  | cons b bs =>
    rw [hp] at hcount hbounds
    have heach := @writeEach_cons _ " extends " " & " (fun _ => writeType) bs (fun _ => JavaType.source) b
      (Nat.le_of_succ_le hcount) fun k t ht => hbounds t (List.mem_of_getElem? ht)
    rw [bind_ok heach, mapIdx_eq_map]
    show Except.ok (p.name ++ (" extends " ++ _)) = _
    rw [← String.append_assoc]

theorem writeTypeParams_eq {params : List TypeParam} (hlength : params.length ≤ maxBytes)
    (h : ∀ p ∈ params, IsWritableParam p) : writeTypeParams params = .ok (sourceOfTypeParams params) := by
  have heach := @writeEach_commas _ (fun _ => writeTypeParam) params (fun _ => TypeParam.source) hlength
    fun k p hp => writeTypeParam_eq (h p (List.mem_of_getElem? hp))
  rw [writeTypeParams, bind_ok heach, mapIdx_eq_map]
  rfl

/-- Only the last parameter is written in a form of its own. -/
theorem paramSources_eq (varargs : Bool) (params : List JavaType) :
    MethodDecl.paramSources varargs params = params.mapIdx fun i t =>
      if varargs && i = params.length - 1 then MethodDecl.sourceOfVarargs t else t.source := by
  induction params with
  | nil => rfl
  | cons t params ih =>
    cases params with
    | nil => simp [MethodDecl.paramSources]
    | cons u params =>
      rw [MethodDecl.paramSources, ih, List.mapIdx_cons]
      · simp
      · nofun

/-- The type takes no more characters than a machine can hold. -/
def IsHeld (t : JavaType) : Prop :=
  t.written.length ≤ maxBytes

theorem IsHeld.isWritable {t : JavaType} (h : IsHeld t) : IsWritable t :=
  writeType_eq t h

theorem writeParam_eq {varargs : Bool} {last i : Nat} {t : JavaType} (h : IsHeld t) :
    writeParam varargs last i t =
      .ok (if varargs && i = last then MethodDecl.sourceOfVarargs t else t.source) := by
  cases t with
  | array element =>
    rw [IsHeld, JavaType.written, List.length_cons] at h
    have helement : IsHeld element := Nat.le_of_succ_le h
    rw [writeParam]
    split
    · rw [bind_ok helement.isWritable]
      rfl
    · exact writeType_eq _ (by rw [JavaType.written, List.length_cons]; exact h)
  | _ =>
    rw [writeParam, h.isWritable]
    · simp [MethodDecl.sourceOfVarargs]
    · simp

theorem writeParams_eq {varargs : Bool} {params : List JavaType} (hlength : params.length ≤ maxBytes)
    (h : ∀ t ∈ params, IsHeld t) : writeEach "" ", " (writeParam varargs (params.length - 1)) 0 params =
      .ok (commaSeparated (MethodDecl.paramSources varargs params)) := by
  rw [paramSources_eq]
  exact writeEach_commas hlength fun k t ht => writeParam_eq (h t (List.mem_of_getElem? ht))

/-- A method all lists of which can be numbered, and all types of which can be written. -/
structure IsHeldMethod (m : MethodDecl) : Prop where
  typeParamCount : m.typeParams.length ≤ maxBytes
  typeParams : ∀ p ∈ m.typeParams, IsWritableParam p
  paramCount : m.params.length ≤ maxBytes
  params : ∀ t ∈ m.params, IsHeld t
  result : ∀ t, m.result = .value t → IsHeld t
  throwCount : m.throws.length ≤ maxBytes
  throws : ∀ t ∈ m.throws, IsWritable t

theorem writeIntroduced_eq {m : MethodDecl} (h : IsHeldMethod m) : writeIntroduced m =
    .ok (if m.typeParams.isEmpty then "" else sourceOfTypeParams m.typeParams ++ " ") := by
  rw [writeIntroduced]
  split
  · rfl
  · rw [bind_ok (writeTypeParams_eq h.typeParamCount h.typeParams)]
    rfl

theorem writeSubject_eq {m : MethodDecl} (h : IsHeldMethod m) : writeSubject m = .ok m.subject := by
  have hresult : writeResult m.result = .ok m.result.source := by
    cases hm : m.result with
    | void => rfl
    | value t => exact (h.result t hm).isWritable
  rw [writeSubject, MethodDecl.subject]
  split
  · rfl
  · rw [bind_ok hresult]
    rfl

theorem writeThrows_eq {m : MethodDecl} (h : IsHeldMethod m) : writeThrows m =
    .ok (if m.throws.isEmpty then "" else " throws " ++ commaSeparated (m.throws.map JavaType.source)) := by
  rw [writeThrows]
  split
  · rfl
  · rw [bind_ok (writeEach_types h.throwCount h.throws)]
    rfl

/-- **Writing a method never traps.** -/
theorem writeMethod_eq {owner : TypeKind} {m : MethodDecl} (h : IsHeldMethod m) :
    writeMethod owner m = .ok (m.source owner) := by
  rw [writeMethod, bind_ok (writeIntroduced_eq h), bind_ok (writeSubject_eq h),
    bind_ok (writeParams_eq h.paramCount h.params), bind_ok (writeThrows_eq h)]
  rfl

/-- **Writing a field never traps.** -/
theorem writeField_eq {f : FieldDecl} (h : IsHeld f.type) : writeField f = .ok f.source := by
  rw [writeField, bind_ok h.isWritable]
  rfl

/-! ## Blocks that are written without a trap -/

/-- A type of which everything that its block shows can be written and counted. -/
structure IsHeldDecl (t : TypeDecl) : Prop where
  methodCount : t.methods.length ≤ ClassFile.maxCount
  methods : ∀ m ∈ t.methods, IsHeldMethod m
  fieldCount : t.fields.length ≤ ClassFile.maxCount
  fields : ∀ f ∈ t.fields, IsHeld f.type

theorem mapM_eq_ok {write : α → Except Trap β} {f : α → β} {as : List α} (h : ∀ a ∈ as, write a = .ok (f a)) :
    as.mapM write = .ok (as.map f) := by
  induction as with
  | nil => rfl
  | cons a as ih =>
    obtain ⟨ha, has⟩ := List.forall_mem_cons.1 h
    rw [List.mapM_cons, bind_ok ha, bind_ok (ih has)]
    rfl

theorem length_dedup_le (entries : List Entry) : (Entry.dedup entries).length ≤ entries.length := by
  induction entries with
  | nil => exact Nat.le_refl 0
  | cons e entries ih =>
    have hkept := (List.dropWhile_sublist (·.text = e.text) (l := Entry.dedup entries)).length_le
    exact Nat.succ_le_succ (Nat.le_trans hkept ih)

theorem length_ordered_le (entries : List Entry) : (Entry.ordered entries).length ≤ entries.length := by
  have hsorted := length_dedup_le (entries.mergeSort Entry.le)
  rwa [List.length_mergeSort] at hsorted

/-- **Writing the block of a type never traps.** -/
theorem writeBlock_eq {synthetic : Bool} {t : TypeDecl} (h : IsHeldDecl t) :
    writeBlock synthetic t = .ok (t.block synthetic) := by
  have hmethods : writeMethods synthetic t = .ok ((t.exportedMethods synthetic).map (·.entry t.kind)) := by
    refine mapM_eq_ok fun m hm => ?_
    rw [bind_ok (writeMethod_eq (h.methods m (List.mem_of_mem_filter hm)))]
    rfl
  have hfields : writeFields synthetic t = .ok ((t.exportedFields synthetic).map (·.entry)) := by
    refine mapM_eq_ok fun f hf => ?_
    rw [bind_ok (writeField_eq (h.fields f (List.mem_of_mem_filter hf)))]
    rfl
  have hmethodCount := length_ordered_le ((t.exportedMethods synthetic).map (·.entry t.kind))
  have hfieldCount := length_ordered_le ((t.exportedFields synthetic).map (·.entry))
  rw [List.length_map] at hmethodCount hfieldCount
  have hexportedMethods : (t.exportedMethods synthetic).length ≤ t.methods.length := List.length_filter_le ..
  have hexportedFields : (t.exportedFields synthetic).length ≤ t.fields.length := List.length_filter_le ..
  have hmax : 1 + ClassFile.maxCount + ClassFile.maxCount ≤ maxBytes + maxBytes := by decide
  have := h.methodCount
  have := h.fieldCount
  rw [writeBlock, bind_ok hmethods, bind_ok hfields, bind_ok (add_eq_ok (lt_sizeValues (by omega))),
    bind_ok (add_eq_ok (lt_sizeValues (by omega)))]
  rfl

end Rendering

end ApiSurface.Machine
