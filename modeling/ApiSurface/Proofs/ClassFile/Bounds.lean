import ApiSurface.ClassFile.Decoder
import ApiSurface.Proofs.Reading
import ApiSurface.Proofs.Text.ModifiedUtf8

/-!
How large a decoded class can be, whatever the bytes are.

Counts and the lengths of texts are numbers of two bytes. So no list of members is longer than such a
number, and no text is longer than its code units are in UTF-8.
-/

namespace ApiSurface.ClassFile

/-! ## Values of readers -/

theorem bytes_of_le {n : Nat} {rest : Bytes} (h : n ≤ rest.length) :
    Reader.bytes n rest = .ok (rest.take n, rest.drop n) := by
  rw [Reader.bytes, List.splitAt_eq]
  exact if_pos (List.length_take_of_le h)

theorem bytes_of_gt {n : Nat} {rest : Bytes} (h : rest.length < n) :
    Reader.bytes n rest = .error .endOfInput := by
  rw [Reader.bytes, List.splitAt_eq]
  exact if_neg (by rw [List.length_take]; omega)

theorem length_of_bytes {n : Nat} {rest rest' part : Bytes}
    (h : Reader.bytes n rest = .ok (part, rest')) : part.length = n := by
  by_cases hn : n ≤ rest.length
  · rw [bytes_of_le hn] at h
    obtain ⟨rfl, -⟩ := Prod.mk.inj (Except.ok.inj h)
    exact List.length_take_of_le hn
  · rw [bytes_of_gt (Nat.lt_of_not_le hn)] at h
    cases h

theorem timesAfter_succ {α : Type} (item : Reader α) (done : List α) (n : Nat) :
    Reader.timesAfter item done (n + 1) = item >>= fun a => Reader.timesAfter item (a :: done) n := by
  funext rest
  cases hread : item rest with
  | error e =>
    rw [Reading.bind_of_error hread, Reader.timesAfter]
    dsimp only
    rw [hread]
  | ok r =>
    rw [Reading.bind_of_ok hread, Reader.timesAfter]
    dsimp only
    rw [hread]

/-- The greatest number of two bytes. -/
def maxCount : Nat := 65535

/-- Whatever the reader gives has the property. -/
def Gives (p : Reader α) (P : α → Prop) : Prop :=
  ∀ ⦃rest a rest'⦄, p rest = .ok (a, rest') → P a

namespace Gives

variable {α β : Type} {P Q : α → Prop}

theorem pure {a : α} (h : P a) : Gives (pure a) P := by
  intro rest b rest' hread
  obtain ⟨rfl, -⟩ := Prod.mk.inj (Except.ok.inj hread)
  exact h

theorem throw (e : Error) : Gives (throw e : Reader α) P :=
  fun _ _ _ hread => nomatch hread

theorem bind {p : Reader α} {f : α → Reader β} {R : β → Prop} (hp : Gives p P)
    (hf : ∀ a, P a → Gives (f a) R) : Gives (p >>= f) R := by
  intro rest b rest' hread
  obtain ⟨a, mid, hfirst, hsecond⟩ := Reading.bind_eq_ok.1 hread
  exact hf a (hp hfirst) hsecond

theorem any (p : Reader α) : Gives p fun _ => True :=
  fun _ _ _ _ => trivial

theorem ofExcept {x : Except Error α} (h : ∀ a, x = .ok a → P a) : Gives (liftM x) P := by
  cases x with
  | error e => exact throw e
  | ok a => exact pure (h a rfl)

theorem front {p : Reader α} {f : α → β} {R : β → Prop} (hp : Gives p P) (hf : ∀ a, P a → R (f a))
    {body : Bytes} {b : β} (h : (Reader.front p body).map f = .ok b) : R b := by
  rw [Reader.front] at h
  cases hread : p body with
  | error e =>
    rw [hread] at h
    cases h
  | ok r =>
    rw [hread] at h
    obtain rfl := Except.ok.inj h
    exact hf _ (hp hread)

theorem timesAfter {item : Reader α} (hitem : Gives item P) {done : List α} (hdone : ∀ a ∈ done, P a)
    (n : Nat) : Gives (Reader.timesAfter item done n) fun as =>
      as.length = done.length + n ∧ ∀ a ∈ as, P a := by
  induction n generalizing done with
  | zero => exact pure ⟨by simp, by simpa using hdone⟩
  | succ n ih =>
    intro rest as rest' hread
    rw [timesAfter_succ] at hread
    obtain ⟨a, mid, hfirst, hothers⟩ := Reading.bind_eq_ok.1 hread
    obtain ⟨hlength, has⟩ := ih (List.forall_mem_cons.2 ⟨hitem hfirst, hdone⟩) hothers
    exact ⟨by rw [hlength, List.length_cons]; omega, has⟩

theorem word : Gives Reader.word fun n => n.toNat ≤ maxCount :=
  fun _ n _ _ => Nat.le_of_lt_succ n.toNat_lt

theorem counted {item : Reader α} (hitem : Gives item P) :
    Gives (Reader.counted item) fun as => as.length ≤ maxCount ∧ ∀ a ∈ as, P a :=
  word.bind fun n hn _ _ _ hread => by
    obtain ⟨hlength, has⟩ := timesAfter hitem (List.forall_mem_nil P) n.toNat hread
    exact ⟨by rwa [hlength, List.length_nil, Nat.zero_add], has⟩

end Gives

/-! ## Texts -/

/-- A text of as many code units as a constant can have. -/
def IsShort (text : String) : Prop :=
  text.utf8ByteSize ≤ 3 * maxCount

theorem utf8Size_le (c : Char) : c.utf8Size ≤ 3 * (Utf16.encodeChar c).length := by
  have hfour := c.utf8Size_le_four
  rw [Utf16.encodeChar]
  split
  · next hsmall =>
    have hthree : c.utf8Size ≠ 4 := fun heq => by
      have hlarge : 65535 < c.toNat := UInt32.lt_iff_toNat_lt.1 (Char.utf8Size_eq_four_iff.1 heq)
      omega
    rw [List.length_singleton]
    omega
  · rw [List.length_cons, List.length_singleton]
    omega

theorem utf8ByteSize_le (cs : List Char) :
    (String.ofList cs).utf8ByteSize ≤ 3 * (Utf16.encode cs).length := by
  induction cs with
  | nil => simp [Utf16.encode]
  | cons c cs ih =>
    have hc := utf8Size_le c
    rw [String.ofList_cons, String.utf8ByteSize_append, String.utf8ByteSize_singleton, Utf16.encode,
      List.flatMap_cons, List.length_append, ← Utf16.encode]
    omega

/-- A form of a code unit takes at least one byte. -/
theorem length_unitsAfter {bytes : Bytes} {done units : List UInt16}
    (h : ModifiedUtf8.unitsAfter done bytes = some units) : units.length ≤ done.length + bytes.length := by
  fun_induction ModifiedUtf8.unitsAfter done bytes with
  | case1 done =>
    obtain rfl := Option.some.inj h
    simp
  | case3 _ _ _ _ _ ih => 
    have hrest := ih h
    simp only [List.length_cons] at hrest ⊢
    omega
  | case5 _ _ _ _ _ _ _ _ _ _ ih => 
    have hrest := ih h
    simp only [List.length_cons] at hrest ⊢
    omega
  | case8 _ _ _ _ _ _ _ _ _ _ _ _ _ _ ih => 
    have hrest := ih h
    simp only [List.length_cons] at hrest ⊢
    omega
  | _ => cases h

theorem isShort_of_decode? {bytes : Bytes} {text : String} (h : ModifiedUtf8.decode? bytes = some text)
    (hbytes : bytes.length ≤ maxCount) : IsShort text := by
  rw [ModifiedUtf8.decode?, Option.map_eq_some_iff] at h
  obtain ⟨cs, h, rfl⟩ := h
  obtain ⟨units, hunits, hcs⟩ := Option.bind_eq_some_iff.1 h
  have hlength := length_unitsAfter hunits
  have hsize := utf8ByteSize_le cs
  rw [Utf16.decode?_eq_some.1 hcs] at hsize
  rw [List.length_nil, Nat.zero_add] at hlength
  rw [IsShort]
  omega

/-! ## The constant pool -/

/-- Every text of the entries is short. -/
def HasShortTexts (entries : Array Constant) : Prop :=
  ∀ text, .text text ∈ entries → IsShort text

theorem gives_readText : Gives Constant.readText fun c => ∀ text, c = .text text → IsShort text := by
  refine Gives.word.bind fun n hn => ?_
  intro rest c rest' hread
  obtain ⟨part, mid, hpart, hread⟩ := Reading.bind_eq_ok.1 hread
  have hlength := length_of_bytes hpart
  cases hdecode : ModifiedUtf8.decode? part with
  | none =>
    rw [hdecode] at hread
    cases hread
  | some value =>
    rw [hdecode] at hread
    obtain ⟨rfl, -⟩ := Prod.mk.inj (Except.ok.inj hread)
    intro text htext
    obtain rfl := Constant.text.inj htext
    exact isShort_of_decode? hdecode (hlength ▸ hn)

theorem gives_constant : Gives Constant.read fun c => ∀ text, c = .text text → IsShort text := by
  refine (Gives.any _).bind fun tag _ => ?_
  split
  · exact gives_readText
  split
  · exact (Gives.any _).bind fun _ _ => .pure nofun
  split
  · exact (Gives.any _).bind fun _ _ => .pure nofun
  split
  · exact (Gives.any _).bind fun _ _ => .pure nofun
  · exact .throw _

theorem gives_readAfter {entries : Array Constant} (hentries : HasShortTexts entries) (n : Nat) :
    Gives (ConstantPool.readAfter entries n) fun pool => HasShortTexts pool.entries := by
  induction n using Nat.strongRecOn generalizing entries with
  | _ n ih =>
    intro rest pool rest' hread
    rw [ConstantPool.readAfter] at hread
    split at hread
    · obtain ⟨rfl, -⟩ := Prod.mk.inj (Except.ok.inj hread)
      exact hentries
    · split at hread
      · next hzero c mid hc =>
        have hless := c.slots_length_pos
        refine ih _ (by omega) (fun text htext => ?_) hread
        rw [Array.appendList_eq_append, ← Array.mem_toList_iff, Array.toList_appendList, List.mem_append,
          Array.mem_toList_iff] at htext
        obtain hold | hnew := htext
        · exact hentries text hold
        · refine gives_constant hc text ?_
          cases c <;> simp_all [Constant.slots]
      · cases hread

theorem gives_pool : Gives ConstantPool.read fun pool => HasShortTexts pool.entries :=
  Gives.word.bind fun _ _ => gives_readAfter (by simp [HasShortTexts]) _

/-! ## Members and classes -/

/-- An attribute as it can be: its text is short, and it names no more classes than can be counted. -/
def Attribute.IsBounded : Attribute → Prop
  | .signature text => IsShort text
  | .exceptions classes => classes.length ≤ maxCount
  | .other => True

end ApiSurface.ClassFile

namespace ApiSurface

open ClassFile

/-- A member as it can be in a class file. -/
structure Member.IsBounded (m : Member) : Prop where
  descriptor : IsShort m.descriptor
  signature : ∀ text ∈ m.signature, IsShort text
  exceptions : m.exceptions.length ≤ maxCount * maxCount

/-- A class as it can be in a class file. -/
structure ClassFile.IsBounded (c : ClassFile) : Prop where
  signature : ∀ text ∈ c.signature, IsShort text
  fieldCount : c.fields.length ≤ maxCount
  fields : ∀ m ∈ c.fields, m.IsBounded
  methodCount : c.methods.length ≤ maxCount
  methods : ∀ m ∈ c.methods, m.IsBounded

namespace ClassFile

variable {pool : ConstantPool}

section
variable (hpool : HasShortTexts pool.entries)
include hpool

theorem isShort_text {index : UInt16} {text : String} (h : pool.text index = .ok text) : IsShort text := by
  rw [ConstantPool.text] at h
  split at h
  · next hentry =>
    obtain rfl := Except.ok.inj h
    exact hpool _ (Array.mem_of_getElem? hentry)
  · cases h

theorem gives_textRef : Gives pool.readTextRef IsShort :=
  (Gives.any _).bind fun _ _ => .ofExcept fun _ => isShort_text hpool

theorem isBounded_ofMember {raw : RawAttribute} {a : Attribute} (h : Attribute.ofMember pool raw = .ok a) :
    a.IsBounded := by
  rw [Attribute.ofMember] at h
  split at h
  · have hbounded (text : String) (ht : IsShort text) : (Attribute.signature text).IsBounded := ht
    exact (gives_textRef hpool).front hbounded h
  split at h
  · exact (Gives.counted (Gives.any _)).front (fun _ hcs => hcs.1) h
  · obtain rfl := Except.ok.inj h
    trivial

theorem isBounded_ofClass {raw : RawAttribute} {a : Attribute} (h : Attribute.ofClass pool raw = .ok a) :
    a.IsBounded := by
  rw [Attribute.ofClass] at h
  split at h
  · have hbounded (text : String) (ht : IsShort text) : (Attribute.signature text).IsBounded := ht
    exact (gives_textRef hpool).front hbounded h
  · obtain rfl := Except.ok.inj h
    trivial

omit hpool in
theorem gives_attributes {meaning : RawAttribute → Except Error Attribute}
    (h : ∀ raw a, meaning raw = .ok a → a.IsBounded) :
    Gives (Attribute.readAll pool meaning) fun as => as.length ≤ maxCount ∧ ∀ a ∈ as, a.IsBounded :=
  Gives.counted ((Gives.any _).bind fun raw _ => .ofExcept (h raw))

end

theorem isShort_signature? {attributes : List Attribute} (h : ∀ a ∈ attributes, a.IsBounded) :
    ∀ text ∈ Attribute.signature? attributes, IsShort text := by
  refine List.foldlRecOn (motive := fun found : Option String => ∀ text ∈ found, IsShort text)
    attributes _ (by simp) ?_
  intro found hfound a ha text htext
  cases a with
  | signature signature =>
    obtain rfl := Option.some.inj htext
    exact h _ ha
  | exceptions _ => exact hfound text htext
  | other => exact hfound text htext

theorem length_exceptionClasses {attributes : List Attribute} (h : ∀ a ∈ attributes, a.IsBounded) :
    (Attribute.exceptionClasses attributes).length ≤ attributes.length * maxCount := by
  induction attributes with
  | nil => simp [Attribute.exceptionClasses]
  | cons a attributes ih =>
    obtain ⟨ha, hrest⟩ := List.forall_mem_cons.1 h
    have hless := ih hrest
    have hfirst : (Attribute.exceptionClasses [a]).length ≤ maxCount := by
      cases a with
      | exceptions classes =>
        have hcount : classes.length ≤ maxCount := ha
        simpa [Attribute.exceptionClasses] using hcount
      | signature _ => exact Nat.zero_le _
      | other => exact Nat.zero_le _
    have hparts : Attribute.exceptionClasses (a :: attributes) =
        Attribute.exceptionClasses [a] ++ Attribute.exceptionClasses attributes := by
      simp [Attribute.exceptionClasses]
    rw [hparts, List.length_append, List.length_cons, Nat.add_mul, Nat.one_mul, Nat.add_comm]
    exact Nat.add_le_add hless hfirst

theorem gives_member (hpool : HasShortTexts pool.entries) : Gives (readMember pool) Member.IsBounded := by
  refine (Gives.any _).bind fun access _ => (Gives.any _).bind fun name _ => ?_
  refine (gives_textRef hpool).bind fun descriptor hdescriptor => ?_
  refine (gives_attributes fun _ _ => isBounded_ofMember hpool).bind fun attributes ⟨hcount, hall⟩ => ?_
  exact .pure ⟨hdescriptor, isShort_signature? hall,
    Nat.le_trans (length_exceptionClasses hall) (Nat.mul_le_mul_right _ hcount)⟩

theorem gives_read : Gives read ClassFile.IsBounded := by
  refine (Gives.any _).bind fun _ _ => (Gives.any _).bind fun _ _ => (Gives.any _).bind fun _ _ => ?_
  refine gives_pool.bind fun pool hpool => ?_
  refine (Gives.any _).bind fun _ _ => (Gives.any _).bind fun _ _ => (Gives.any _).bind fun _ _ => ?_
  refine (Gives.any _).bind fun _ _ => ?_
  refine (Gives.counted (gives_member hpool)).bind fun fields ⟨hfieldCount, hfields⟩ => ?_
  refine (Gives.counted (gives_member hpool)).bind fun methods ⟨hmethodCount, hmethods⟩ => ?_
  refine (gives_attributes fun _ _ => isBounded_ofClass hpool).bind fun attributes ⟨_, hall⟩ => ?_
  exact .pure ⟨isShort_signature? hall, hfieldCount, hfields, hmethodCount, hmethods⟩

/-- **A decoded class is no larger than its format lets it be.** -/
theorem isBounded_of_decode {bytes : Bytes} {c : ClassFile} (h : decode bytes = .ok c) : c.IsBounded := by
  rw [decode] at h
  cases hread : read bytes with
  | error e =>
    rw [hread] at h
    cases h
  | ok r =>
    rw [hread] at h
    obtain rfl := Except.ok.inj h
    exact gives_read hread

end ClassFile

end ApiSurface
