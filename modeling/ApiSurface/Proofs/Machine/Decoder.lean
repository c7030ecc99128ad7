import ApiSurface.ClassFile.Decoder
import ApiSurface.Proofs.ClassFile.Bounds
import ApiSurface.Proofs.Machine.Units

/-!
Decoding a class file as a machine does it: with a position in the bytes, and with parts of them that
are cut out by their bounds.
-/

namespace ApiSurface.Machine

open Program ClassFile

namespace Decoder

/-! ## The decoder -/

section
variable (data : Bytes)

/-- Moves the position, which has to stay inside of the data or at its end. -/
def moveTo (pos : Nat) : Decoder Unit := do
  check (if pos ≤ data.length then .ok () else .error .behindEnd)
  set pos

/-- The next byte. -/
def byte : Decoder UInt8 := do
  let pos ← get
  match data[pos]? with
  | some b =>
    moveTo data (← check (add pos 1))
    return b
  | none => throw .endOfInput

/-- The next `n` bytes. That the sum is too large is no trap here, for it is looked at first. -/
def bytes (n : Nat) : Decoder Bytes := do
  let pos ← get
  if pos + n < sizeValues ∧ pos + n ≤ data.length then
    let part ← check (slice data pos (pos + n))
    moveTo data (pos + n)
    return part
  else
    throw .endOfInput

/-- A number of two bytes. -/
def word : Decoder UInt16 := do
  let part ← bytes data 2
  let a ← check (byteAt part 0)
  let b ← check (byteAt part 1)
  return UInt16.ofNat (a.toNat * 256 + b.toNat)

/-- A number of four bytes. -/
def long : Decoder Nat := do
  let part ← bytes data 4
  let a ← check (byteAt part 0)
  let b ← check (byteAt part 1)
  let c ← check (byteAt part 2)
  let d ← check (byteAt part 3)
  return Bytes.bigEndian [a, b, c, d]

/-- `n` values behind the values `done`, which are kept last first. -/
def timesAfter (item : Decoder α) : List α → Nat → Decoder (List α)
  | done, 0 => return done.reverse
  | done, n + 1 => do
    let a ← item
    timesAfter item (a :: done) n

/-- A count of two bytes and as many values. -/
def counted (item : Decoder α) : Decoder (List α) := do
  let n ← word data
  timesAfter item [] n.toNat

/-! ### The constant pool -/

/-- A text, without its tag. -/
def readText : Decoder Constant := do
  let length ← word data
  let part ← bytes data length.toNat
  let value ← within 0 (Units.decode part)
  return .text value

/-- One constant with its tag. -/
def readConstant : Decoder Constant := do
  let tag ← byte data
  if tag = 1 then
    readText data
  else if tag = 7 then
    let nameIndex ← word data
    return .classRef nameIndex
  else if tag = 5 ∨ tag = 6 then
    let _ ← bytes data 8
    return .wide
  else
    match Constant.skippedLength? tag with
    | some n =>
      let _ ← bytes data n
      return .other
    | none => throw (.unsupportedConstant tag)

/-- Puts constants behind the entries and counts each of them. -/
def fill : Array Constant × Nat → List Constant → Decoder (Array Constant × Nat)
  | filled, [] => return filled
  | (entries, index), c :: cs => do
    let next ← check (add index 1)
    fill (entries.push c, next) cs

/-- Reads constants as long as the next index is below `count`. -/
def readEntries (count : Nat) : Array Constant × Nat → Decoder (Array Constant × Nat) :=
  loop (fun filled _ => count - filled.2) (fun filled _ => decide (filled.2 < count)) fun filled => do
    let c ← readConstant data
    fill filled c.slots

def readPool : Decoder ConstantPool := do
  let count ← word data
  let filled ← readEntries data count.toNat (#[.unusable], 1)
  return ⟨filled.1⟩

variable (pool : ConstantPool)

/-- Reads an index and gives the text there. -/
def readTextRef : Decoder String := do
  let index ← word data
  ofExcept (pool.text index)

/-- Reads an index and gives the name of the class there. -/
def readClassRef : Decoder String := do
  let index ← word data
  ofExcept (pool.className index)

/-! ### Attributes and members -/

/-- An attribute: its name, the length of its body and the body. -/
def readRaw : Decoder RawAttribute := do
  let name ← readTextRef data pool
  let length ← long data
  let body ← bytes data length
  return ⟨name, body⟩

end

section
variable (data : Bytes) (pool : ConstantPool)

/-- The meaning of an attribute of a member, whose body is read from its first byte on. -/
def ofMember (raw : RawAttribute) : Decoder Attribute :=
  if raw.name = "Signature" then do
    let text ← within 0 (readTextRef raw.body pool)
    return .signature text
  else if raw.name = "Exceptions" then do
    let classes ← within 0 (counted raw.body (readClassRef raw.body pool))
    return .exceptions classes
  else
    return .other

/-- The meaning of an attribute of a class. -/
def ofClass (raw : RawAttribute) : Decoder Attribute :=
  if raw.name = "Signature" then do
    let text ← within 0 (readTextRef raw.body pool)
    return .signature text
  else
    return .other

/-- Reads attributes, each with `meaning` taken as soon as its body is there. -/
def readAttributes (meaning : RawAttribute → Decoder Attribute) : Decoder (List Attribute) :=
  counted data do
    let raw ← readRaw data pool
    meaning raw

/-- A field or a method. -/
def readMember : Decoder Member := do
  let access ← word data
  let name ← readTextRef data pool
  let descriptor ← readTextRef data pool
  let attributes ← readAttributes data pool (ofMember pool)
  return {
    access := ⟨access⟩
    name
    descriptor
    signature := Attribute.signature? attributes
    exceptions := Attribute.exceptionClasses attributes }

/-- The name of the superclass; index zero says that there is none. -/
def readSuperclass : Decoder (Option String) := do
  let index ← word data
  if index = 0 then
    return none
  else
    let name ← ofExcept (pool.className index)
    return some name

def readMagic : Decoder Unit := do
  let found ← long data
  if found ≠ magic then
    throw .badMagic

/-- A class file, up to its last attribute. -/
def read : Decoder ClassFile := do
  readMagic data
  let minorVersion ← word data
  let majorVersion ← word data
  let pool ← readPool data
  let access ← word data
  let name ← readClassRef data pool
  let superclass ← readSuperclass data pool
  let interfaces ← counted data (readClassRef data pool)
  let fields ← counted data (readMember data pool)
  let methods ← counted data (readMember data pool)
  let attributes ← readAttributes data pool (ofClass pool)
  return {
    minorVersion
    majorVersion
    access := ⟨access⟩
    name
    superclass
    interfaces
    signature := Attribute.signature? attributes
    fields
    methods }

/-- Decodes a class file. -/
def decode : Except Trap (Except ClassFile.Error ClassFile) :=
  (read data 0).map (·.1)

end

/-! ## What it is about -/

/-- The position is where `rest` begins, or the end of the data. -/
def At (data : Bytes) (pos : Nat) (rest : Bytes) : Prop :=
  pos ≤ data.length ∧ data.drop pos = rest

/-- The program does on the data what the reader does on what is left of them. -/
def Mirrors (data : Bytes) (m : Decoder α) (p : Reader α) : Prop :=
  ∀ rest, Follows (At data) (fun _ e d => e = d) m p rest

namespace Mirrors

variable {data : Bytes} {α β : Type}

theorem pure (a : α) : Mirrors data (pure a) (pure a) :=
  fun _ => follows_pure a

theorem throw (e : ClassFile.Error) : Mirrors data (throw e : Decoder α) (throw e) :=
  fun _ pos _ => ⟨e, pos, rfl, rfl⟩

/-- What comes second is only looked at for values that the first reader can give. -/
theorem bind_of {m : Decoder α} {p : Reader α} {f : α → Decoder β} {g : α → Reader β}
    (hm : Mirrors data m p)
    (hf : ∀ a, (∃ rest rest', p rest = .ok (a, rest')) → Mirrors data (f a) (g a)) :
    Mirrors data (m >>= f) (p >>= g) :=
  fun rest => (hm rest).bind fun a rest' h => hf a ⟨rest, rest', h⟩ rest'

theorem bind {m : Decoder α} {p : Reader α} {f : α → Decoder β} {g : α → Reader β}
    (hm : Mirrors data m p) (hf : ∀ a, Mirrors data (f a) (g a)) :
    Mirrors data (m >>= f) (p >>= g) :=
  hm.bind_of fun a _ => hf a

theorem ofExcept (x : Except ClassFile.Error α) : Mirrors data (ofExcept x) (liftM x) := by
  cases x with
  | error e => exact throw e
  | ok a => exact pure a

/-- What stands at the front of some other bytes, which the program reads with a position in them. -/
theorem within {body : Bytes} {m : Decoder α} {p : Reader α} (hm : Mirrors body m p) :
    Mirrors data (within 0 m) (liftM (Reader.front p body)) := by
  intro rest pos hpos
  have hinside := hm body 0 ⟨Nat.zero_le _, List.drop_zero⟩
  rw [Reader.front]
  cases hp : p body with
  | error e =>
    rw [hp] at hinside
    obtain ⟨_, pos', hrun, rfl⟩ := hinside
    exact ⟨_, pos, by rw [Program.within, hrun]; rfl, rfl⟩
  | ok r =>
    obtain ⟨a, body'⟩ := r
    rw [hp] at hinside
    obtain ⟨pos', hrun, -⟩ := hinside
    exact ⟨pos, by rw [Program.within, hrun]; rfl, hpos⟩

end Mirrors

/-! ## Bytes and numbers -/

section
variable {data : Bytes} {pos : Nat} {rest : Bytes}

theorem moveTo_eq (h : pos ≤ data.length) (old : Nat) :
    moveTo data pos old = .ok (.ok (), pos) := by
  rw [moveTo, check_bind (if_pos h)]
  rfl

theorem At.length_eq (h : At data pos rest) : pos + rest.length = data.length := by
  rw [← h.2, List.length_drop]
  exact Nat.add_sub_cancel' h.1

theorem At.forward (h : At data pos rest) {n : Nat} (hn : n ≤ rest.length) :
    At data (pos + n) (rest.drop n) := by
  have := h.length_eq
  refine ⟨by omega, ?_⟩
  rw [← h.2, List.drop_drop]

variable (hheld : data.length ≤ maxBytes)
include hheld

theorem At.add_eq_ok (h : At data pos rest) {n : Nat} (hn : n ≤ rest.length) :
    add pos n = .ok (pos + n) := by
  have := h.length_eq
  exact Machine.add_eq_ok (lt_sizeValues (by omega))

theorem mirrors_byte : Mirrors data (byte data) Reader.byte := by
  intro rest pos hpos
  rw [byte, get_bind]
  cases rest with
  | nil =>
    have hend : data[pos]? = none := by
      have := hpos.length_eq
      exact List.getElem?_eq_none (by simp at this; omega)
    rw [hend]
    exact ⟨.endOfInput, pos, rfl, rfl⟩
  | cons b rest =>
    have hb : data[pos]? = some b := by
      rw [← Nat.add_zero pos, ← List.getElem?_drop, hpos.2]
      rfl
    have hnext := hpos.forward (show 1 ≤ (b :: rest).length by simp)
    rw [hb]
    refine ⟨pos + 1, ?_, hnext⟩
    dsimp only
    rw [check_bind (hpos.add_eq_ok hheld (by simp)), bind_of_ok (moveTo_eq hnext.1 pos)]
    rfl

theorem mirrors_bytes (n : Nat) : Mirrors data (bytes data n) (Reader.bytes n) := by
  intro rest pos hpos
  have hlength := hpos.length_eq
  rw [bytes, get_bind]
  by_cases hn : n ≤ rest.length
  · have hnext := hpos.forward hn
    have hpart : (data.drop pos).take (pos + n - pos) = rest.take n := by
      rw [hpos.2, Nat.add_sub_cancel_left]
    rw [bytes_of_le hn, if_pos ⟨lt_sizeValues (by omega), hnext.1⟩,
      check_bind (slice_eq_ok (Nat.le_add_right pos n) hnext.1), bind_of_ok (moveTo_eq hnext.1 pos), hpart]
    exact ⟨pos + n, rfl, hnext⟩
  · rw [bytes_of_gt (Nat.lt_of_not_le hn), if_neg (by omega)]
    exact ⟨.endOfInput, pos, rfl, rfl⟩

theorem mirrors_word : Mirrors data (word data) Reader.word := by
  intro rest pos hpos
  have htwo := mirrors_bytes hheld 2 rest pos hpos
  rw [word]
  match rest with
  | a :: b :: rest =>
    rw [bytes_of_le (by simp)] at htwo
    obtain ⟨pos', hrun, hpos'⟩ := htwo
    rw [bind_of_ok hrun]
    exact ⟨pos', rfl, hpos'⟩
  | [_] | [] =>
    rw [bytes_of_gt (by simp)] at htwo
    obtain ⟨e, pos', hrun, he⟩ := htwo
    exact ⟨e, pos', bind_of_error hrun, he⟩

theorem mirrors_long : Mirrors data (long data) Reader.long := by
  refine (mirrors_bytes hheld 4).bind_of fun part ⟨rest, rest', hpart⟩ => ?_
  match part, length_of_bytes hpart with
  | [a, b, c, d], _ => exact .pure _

omit hheld in
theorem mirrors_timesAfter {item : Decoder α} {read : Reader α} (hitem : Mirrors data item read)
    (done : List α) (n : Nat) :
    Mirrors data (timesAfter item done n) (Reader.timesAfter read done n) := by
  induction n generalizing done with
  | zero => exact .pure _
  | succ n ih =>
    rw [timesAfter_succ]
    exact hitem.bind fun a => ih (a :: done)

theorem mirrors_counted {item : Decoder α} {read : Reader α} (hitem : Mirrors data item read) :
    Mirrors data (counted data item) (Reader.counted read) :=
  (mirrors_word hheld).bind fun n => mirrors_timesAfter hitem [] n.toNat

/-! ## The constant pool -/

theorem mirrors_readText : Mirrors data (readText data) Constant.readText := by
  refine (mirrors_word hheld).bind fun length => (mirrors_bytes hheld length.toNat).bind_of ?_
  intro part ⟨rest, rest', hpart⟩ rest'' pos hpos
  have hsmall : part.length ≤ maxBytes := by
    rw [length_of_bytes hpart]
    exact Nat.le_trans (Nat.le_of_lt length.toNat_lt) (by decide)
  obtain ⟨stop, hdecode⟩ := Units.decode_eq hsmall
  cases htext : ModifiedUtf8.decode? part with
  | none =>
    rw [htext] at hdecode
    exact ⟨.badText, pos, bind_of_error (by rw [within, hdecode]; rfl), rfl⟩
  | some value =>
    rw [htext] at hdecode
    exact ⟨pos, bind_of_ok (by rw [within, hdecode]; rfl), hpos⟩

theorem mirrors_readConstant : Mirrors data (readConstant data) Constant.read := by
  refine (mirrors_byte hheld).bind fun tag => ?_
  by_cases htext : tag = 1
  · rw [if_pos htext, if_pos htext]
    exact mirrors_readText hheld
  rw [if_neg htext, if_neg htext]
  by_cases hclass : tag = 7
  · rw [if_pos hclass, if_pos hclass]
    exact (mirrors_word hheld).bind fun nameIndex => .pure _
  rw [if_neg hclass, if_neg hclass]
  by_cases hwide : tag = 5 ∨ tag = 6
  · rw [if_pos hwide, if_pos hwide]
    exact (mirrors_bytes hheld 8).bind fun _ => .pure _
  rw [if_neg hwide, if_neg hwide]
  cases Constant.skippedLength? tag with
  | none => exact .throw _
  | some n => exact (mirrors_bytes hheld n).bind fun _ => .pure _

omit hheld in
theorem fill_eq {entries : Array Constant} {index : Nat} {cs : List Constant}
    (h : index + cs.length < sizeValues) :
    fill (entries, index) cs = pure (entries.appendList cs, index + cs.length) := by
  induction cs generalizing entries index with
  | nil => rfl
  | cons c cs ih =>
    rw [List.length_cons] at h
    rw [fill, check_bind (Machine.add_eq_ok (by omega)), ih (by omega), List.length_cons,
      Nat.add_assoc, Nat.add_comm 1]
    rfl

/-- An entry fills one index or two, so the next one is at most one above the last. -/
theorem readEntries_follows {count : Nat} (hcount : count < 2 ^ 16) (entries : Array Constant)
    {index : Nat} (hindex : index ≤ count + 1) (hpos : At data pos rest) :
    match ConstantPool.readAfter entries (count - index) rest with
    | .ok (pool, rest') => ∃ index' pos',
      readEntries data count (entries, index) pos = .ok (.ok (pool.entries, index'), pos') ∧
        At data pos' rest'
    | .error e => ∃ pos', readEntries data count (entries, index) pos = .ok (.error e, pos') := by
  induction hleft : count - index using Nat.strongRecOn generalizing entries index pos rest with
  | _ left ih =>
    subst hleft
    rw [ConstantPool.readAfter]
    by_cases hlt : index < count
    · have hgoes : decide (index < count) = true := decide_eq_true hlt
      have hconstant := mirrors_readConstant hheld rest pos hpos
      rw [if_neg (by omega)]
      cases hread : Constant.read rest with
      | error e =>
        rw [hread] at hconstant
        obtain ⟨_, pos', hrun, rfl⟩ := hconstant
        exact ⟨pos', loop_fail hgoes (bind_of_error hrun)⟩
      | ok r =>
        obtain ⟨c, rest'⟩ := r
        rw [hread] at hconstant
        obtain ⟨pos', hrun, hpos'⟩ := hconstant
        have hfew : c.slots.length ≤ 2 := by cases c <;> simp [Constant.slots]
        have hsome := c.slots_length_pos
        have hsizes : 2 ^ 16 + 2 < sizeValues := by decide
        have hturn : readEntries data count (entries, index) pos =
            readEntries data count (entries.appendList c.slots, index + c.slots.length) pos' := by
          refine loop_turn hgoes ?_ (show count - (index + c.slots.length) < count - index by omega)
          rw [bind_of_ok hrun, fill_eq (by omega)]
          rfl
        dsimp only
        rw [hturn, Nat.sub_sub]
        exact ih _ (by omega) _ (by omega) hpos' rfl
    · rw [if_pos (by omega)]
      exact ⟨index, pos, loop_stop (decide_eq_false hlt), hpos⟩

theorem mirrors_readPool : Mirrors data (readPool data) ConstantPool.read := by
  refine (mirrors_word hheld).bind fun count rest pos hpos => ?_
  have hfill := readEntries_follows hheld count.toNat_lt #[.unusable] (Nat.le_add_left 1 _) hpos
  cases hread : ConstantPool.readAfter #[.unusable] (count.toNat - 1) rest with
  | error e =>
    rw [hread] at hfill
    obtain ⟨pos', hrun⟩ := hfill
    exact ⟨e, pos', bind_of_error hrun, rfl⟩
  | ok r =>
    rw [hread] at hfill
    obtain ⟨_, pos', hrun, hpos'⟩ := hfill
    exact ⟨pos', bind_of_ok hrun, hpos'⟩

variable (pool : ConstantPool)

theorem mirrors_readTextRef : Mirrors data (readTextRef data pool) pool.readTextRef :=
  (mirrors_word hheld).bind fun index => .ofExcept (pool.text index)

theorem mirrors_readClassRef : Mirrors data (readClassRef data pool) pool.readClassRef :=
  (mirrors_word hheld).bind fun index => .ofExcept (pool.className index)

/-! ## Attributes, members and the whole file -/

theorem mirrors_readRaw : Mirrors data (readRaw data pool) (RawAttribute.read pool) :=
  (mirrors_readTextRef hheld pool).bind fun _ => (mirrors_long hheld).bind fun length =>
    (mirrors_bytes hheld length).bind fun _ => .pure _

omit hheld in
theorem mirrors_map_within {body : Bytes} {m : Decoder α} {p : Reader α} (hm : Mirrors body m p)
    (f : α → β) :
    Mirrors data (within 0 m >>= fun a => pure (f a)) (liftM ((Reader.front p body).map f)) := by
  have hread : Mirrors data _ _ := (Mirrors.within hm).bind fun a => .pure (f a)
  cases hfront : Reader.front p body <;> rw [hfront] at hread <;> exact hread

omit hheld in
theorem mirrors_ofMember {raw : RawAttribute} (h : raw.body.length ≤ maxBytes) :
    Mirrors data (ofMember pool raw) (liftM (Attribute.ofMember pool raw)) := by
  rw [ofMember, Attribute.ofMember]
  by_cases hsignature : raw.name = "Signature"
  · rw [if_pos hsignature, if_pos hsignature]
    exact mirrors_map_within (mirrors_readTextRef h pool) Attribute.signature
  rw [if_neg hsignature, if_neg hsignature]
  by_cases hexceptions : raw.name = "Exceptions"
  · rw [if_pos hexceptions, if_pos hexceptions]
    exact mirrors_map_within (mirrors_counted h (mirrors_readClassRef h pool)) Attribute.exceptions
  rw [if_neg hexceptions, if_neg hexceptions]
  exact .pure _

omit hheld in
theorem mirrors_ofClass {raw : RawAttribute} (h : raw.body.length ≤ maxBytes) :
    Mirrors data (ofClass pool raw) (liftM (Attribute.ofClass pool raw)) := by
  rw [ofClass, Attribute.ofClass]
  by_cases hsignature : raw.name = "Signature"
  · rw [if_pos hsignature, if_pos hsignature]
    exact mirrors_map_within (mirrors_readTextRef h pool) Attribute.signature
  · rw [if_neg hsignature, if_neg hsignature]
    exact .pure _

omit hheld in
/-- The length of a body is a number of four bytes. -/
theorem length_body {raw : RawAttribute} {rest rest' : Bytes}
    (h : RawAttribute.read pool rest = .ok (raw, rest')) : raw.body.length ≤ maxBytes := by
  obtain ⟨name, _, -, h⟩ := Reading.bind_eq_ok.1 h
  obtain ⟨length, _, hlength, h⟩ := Reading.bind_eq_ok.1 h
  obtain ⟨body, _, hbody, h⟩ := Reading.bind_eq_ok.1 h
  obtain ⟨rfl, -⟩ := Prod.mk.inj (Except.ok.inj h)
  obtain ⟨part, _, hpart, h⟩ := Reading.bind_eq_ok.1 hlength
  obtain ⟨rfl, -⟩ := Prod.mk.inj (Except.ok.inj h)
  rw [show body.length = _ from length_of_bytes hbody]
  match part, length_of_bytes hpart with
  | [a, b, c, d], _ =>
    have ha := a.toNat_lt
    have hb := b.toNat_lt
    have hc := c.toNat_lt
    have hd := d.toNat_lt
    have hmax : 2 ^ 32 ≤ maxBytes := by decide
    simp only [Bytes.bigEndian, List.foldl_cons, List.foldl_nil]
    omega

theorem mirrors_readAttributes {meaning : RawAttribute → Decoder Attribute}
    {meaning' : RawAttribute → Except ClassFile.Error Attribute}
    (h : ∀ raw : RawAttribute, raw.body.length ≤ maxBytes →
      Mirrors data (meaning raw) (liftM (meaning' raw))) :
    Mirrors data (readAttributes data pool meaning) (Attribute.readAll pool meaning') :=
  mirrors_counted hheld ((mirrors_readRaw hheld pool).bind_of fun raw ⟨_, _, hraw⟩ =>
    h raw (length_body pool hraw))

theorem mirrors_readMember : Mirrors data (readMember data pool) (ClassFile.readMember pool) :=
  (mirrors_word hheld).bind fun _ => (mirrors_readTextRef hheld pool).bind fun _ =>
    (mirrors_readTextRef hheld pool).bind fun _ =>
      (mirrors_readAttributes hheld pool fun _ => mirrors_ofMember pool).bind fun _ => .pure _

theorem mirrors_readSuperclass :
    Mirrors data (readSuperclass data pool) (ClassFile.readSuperclass pool) := by
  refine (mirrors_word hheld).bind fun index => ?_
  by_cases hnone : index = 0
  · rw [if_pos hnone, if_pos hnone]
    exact .pure _
  · rw [if_neg hnone, if_neg hnone]
    exact (Mirrors.ofExcept _).bind fun _ => .pure _

theorem mirrors_readMagic : Mirrors data (readMagic data) ClassFile.readMagic := by
  refine (mirrors_long hheld).bind fun found => ?_
  by_cases hmagic : found ≠ magic
  · rw [if_pos hmagic, if_pos hmagic]
    exact .throw _
  · rw [if_neg hmagic, if_neg hmagic]
    exact .pure _

theorem mirrors_read : Mirrors data (read data) ClassFile.read :=
  (mirrors_readMagic hheld).bind fun _ => (mirrors_word hheld).bind fun _ =>
    (mirrors_word hheld).bind fun _ => (mirrors_readPool hheld).bind fun pool =>
      (mirrors_word hheld).bind fun _ => (mirrors_readClassRef hheld pool).bind fun _ =>
        (mirrors_readSuperclass hheld pool).bind fun _ =>
          (mirrors_counted hheld (mirrors_readClassRef hheld pool)).bind fun _ =>
            (mirrors_counted hheld (mirrors_readMember hheld pool)).bind fun _ =>
              (mirrors_counted hheld (mirrors_readMember hheld pool)).bind fun _ =>
                (mirrors_readAttributes hheld pool fun _ => mirrors_ofClass pool).bind fun _ => .pure _

/-- **Decoding a class file never traps.** -/
theorem decode_eq : decode data = .ok (ClassFile.decode data) := by
  have hread := mirrors_read hheld data 0 ⟨Nat.zero_le _, List.drop_zero⟩
  rw [decode, ClassFile.decode]
  cases hfile : ClassFile.read data with
  | error e =>
    rw [hfile] at hread
    obtain ⟨_, _, hrun, rfl⟩ := hread
    rw [hrun]
    rfl
  | ok r =>
    rw [hfile] at hread
    obtain ⟨_, hrun, -⟩ := hread
    rw [hrun]
    rfl

end

end Decoder

end ApiSurface.Machine
