import ApiSurface.Proofs.ClassFile.Bounds
import ApiSurface.Proofs.ClassFile.RoundTrip

/-!
Class files that are cut short, and class files with something behind them.

A reader is local when what it does depends on the bytes that it takes and on nothing behind them. Only
the end of the input is an exception: there, more bytes may help. All readers of a class file are local
(`isLocal_read`), also those that look texts up in the constants. So a class file has one length
(`decode_cut_and_extended`): with fewer bytes the end comes too early, and it makes no difference what
stands behind as many.
-/

namespace ApiSurface.ClassFile

open Reading

/-! ## Local readers -/

/-- What the reader does is settled by the bytes that it takes, unless it comes to the end of them. -/
structure IsLocal (p : Reader α) : Prop where
  ok : ∀ ⦃input a rest⦄, p input = .ok (a, rest) →
    ∃ taken, input = taken ++ rest ∧ ∀ more, p (taken ++ more) = .ok (a, more)
  error : ∀ ⦃input e⦄, p input = .error e → e ≠ .endOfInput → ∀ more, p (input ++ more) = .error e

namespace IsLocal

variable {α β : Type} {p : Reader α}

theorem pure (a : α) : IsLocal (pure a) where
  ok input b rest h := by
    obtain ⟨rfl, rfl⟩ := Prod.mk.inj (Except.ok.inj h)
    exact ⟨[], rfl, fun _ => rfl⟩
  error _ _ h := nomatch h

theorem throw (e : Error) : IsLocal (throw e : Reader α) where
  ok _ _ _ h := nomatch h
  error _ _ h _ _ := h

theorem bind {f : α → Reader β} (hp : IsLocal p) (hf : ∀ a, IsLocal (f a)) : IsLocal (p >>= f) where
  ok input b rest h := by
    obtain ⟨a, mid, hfirst, hsecond⟩ := bind_eq_ok.1 h
    obtain ⟨front, rfl, hfront⟩ := hp.ok hfirst
    obtain ⟨back, rfl, hback⟩ := (hf a).ok hsecond
    refine ⟨front ++ back, (List.append_assoc ..).symm, fun more => ?_⟩
    rw [List.append_assoc, bind_of_ok (hfront _)]
    exact hback more
  error input e h hne more := by
    cases hfirst : p input with
    | error other =>
      rw [bind_of_error hfirst] at h
      obtain rfl := Except.error.inj h
      exact bind_of_error (hp.error hfirst hne more)
    | ok r =>
      obtain ⟨a, mid⟩ := r
      rw [bind_of_ok hfirst] at h
      obtain ⟨front, rfl, hfront⟩ := hp.ok hfirst
      rw [List.append_assoc, bind_of_ok (hfront _)]
      exact (hf a).error h hne more

/-- What is looked up and not read, such as a constant by its index. -/
theorem ofExcept (x : Except Error α) : IsLocal (liftM x : Reader α) := by
  cases x with
  | error e => exact throw e
  | ok a => exact pure a

/-- A local reader that is given fewer bytes than it takes finds their end, and no other fault. -/
theorem truncated (hp : IsLocal p) {input rest : Bytes} {a : α} (h : p input = .ok (a, rest)) {k : Nat}
    (hk : k + rest.length < input.length) : p (input.take k) = .error .endOfInput := by
  cases hcut : p (input.take k) with
  | error e =>
    by_contra hne
    have hsame := hp.error hcut (fun heq => hne (congrArg Except.error heq)) (input.drop k)
    rw [List.take_append_drop, h] at hsame
    cases hsame
  | ok r =>
    -- More bytes would be left than there are.
    obtain ⟨b, left⟩ := r
    obtain ⟨taken, hsplit, htaken⟩ := hp.ok hcut
    have hwhole : input = taken ++ (left ++ input.drop k) := by
      rw [← List.append_assoc, ← hsplit, List.take_append_drop]
    rw [hwhole, htaken] at h
    obtain ⟨-, rfl⟩ := Prod.mk.inj (Except.ok.inj h)
    rw [List.length_append, List.length_drop] at hk
    omega

/-! ## Numbers, bytes and lists -/

theorem bytes (n : Nat) : IsLocal (Reader.bytes n) where
  ok input part rest h := by
    have hlength := length_of_bytes h
    by_cases hn : n ≤ input.length
    · rw [bytes_of_le hn] at h
      obtain ⟨rfl, rfl⟩ := Prod.mk.inj (Except.ok.inj h)
      refine ⟨input.take n, (List.take_append_drop n input).symm, fun more => ?_⟩
      have hread := read_bytes (input.take n) more
      rwa [hlength] at hread
    · rw [bytes_of_gt (Nat.lt_of_not_le hn)] at h
      cases h
  error input e h hne := by
    by_cases hn : n ≤ input.length
    · rw [bytes_of_le hn] at h
      cases h
    · rw [bytes_of_gt (Nat.lt_of_not_le hn)] at h
      exact absurd (Except.error.inj h).symm hne

theorem byte : IsLocal Reader.byte where
  ok input b rest h := by
    cases input with
    | nil => cases h
    | cons a input =>
      obtain ⟨rfl, rfl⟩ := Prod.mk.inj (Except.ok.inj h)
      exact ⟨[a], rfl, fun _ => rfl⟩
  error input e h hne := by
    cases input with
    | nil => exact absurd (Except.error.inj h).symm hne
    | cons a input => cases h

theorem word : IsLocal Reader.word where
  ok input n rest h := by
    match input, h with
    | a :: b :: input, h =>
      obtain ⟨rfl, rfl⟩ := Prod.mk.inj (Except.ok.inj h)
      exact ⟨[a, b], rfl, fun _ => rfl⟩
  error input e h hne := by
    match input, h with
    | [], h => exact absurd (Except.error.inj h).symm hne
    | [a], h => exact absurd (Except.error.inj h).symm hne

theorem long : IsLocal Reader.long :=
  (bytes 4).bind fun _ => pure _

theorem timesAfter {item : Reader α} (hitem : IsLocal item) (done : List α) (n : Nat) :
    IsLocal (Reader.timesAfter item done n) := by
  induction n generalizing done with
  | zero => exact pure done.reverse
  | succ n ih =>
    rw [timesAfter_succ]
    exact hitem.bind fun a => ih (a :: done)

theorem counted {item : Reader α} (hitem : IsLocal item) : IsLocal (Reader.counted item) :=
  word.bind fun n => hitem.timesAfter [] n.toNat

end IsLocal

/-! ## The constant pool -/

theorem isLocal_readText : IsLocal Constant.readText := by
  refine IsLocal.word.bind fun length => (IsLocal.bytes _).bind fun content => ?_
  cases ModifiedUtf8.decode? content with
  | none => exact .throw _
  | some value => exact .pure _

theorem isLocal_constant : IsLocal Constant.read := by
  refine IsLocal.byte.bind fun tag => ?_
  split
  · exact isLocal_readText
  split
  · exact IsLocal.word.bind fun _ => .pure _
  split
  · exact (IsLocal.bytes 8).bind fun _ => .pure _
  split
  · exact (IsLocal.bytes _).bind fun _ => .pure _
  · exact .throw _

theorem readAfter_of_ne_zero (entries : Array Constant) {n : Nat} (hn : n ≠ 0) :
    ConstantPool.readAfter entries n = Constant.read >>= fun c =>
      ConstantPool.readAfter (entries.appendList c.slots) (n - c.slots.length) := by
  funext rest
  rw [ConstantPool.readAfter.eq_def, if_neg hn]
  cases hread : Constant.read rest with
  | error e => rw [bind_of_error hread]
  | ok r => rw [bind_of_ok hread]

theorem isLocal_readAfter (entries : Array Constant) (n : Nat) :
    IsLocal (ConstantPool.readAfter entries n) := by
  induction n using Nat.strongRecOn generalizing entries with
  | _ n ih =>
    by_cases hn : n = 0
    · have hfull : ConstantPool.readAfter entries n = pure ⟨entries⟩ := by
        funext rest
        rw [ConstantPool.readAfter.eq_def, if_pos hn]
        rfl
      rw [hfull]
      exact .pure _
    · rw [readAfter_of_ne_zero entries hn]
      refine isLocal_constant.bind fun c => ih _ ?_ _
      have hslots := c.slots_length_pos
      omega

theorem isLocal_pool : IsLocal ConstantPool.read :=
  IsLocal.word.bind fun _ => isLocal_readAfter _ _

/-! ## Members and classes -/

section
variable (pool : ConstantPool)

theorem isLocal_textRef : IsLocal pool.readTextRef :=
  IsLocal.word.bind fun _ => .ofExcept _

theorem isLocal_classRef : IsLocal pool.readClassRef :=
  IsLocal.word.bind fun _ => .ofExcept _

theorem isLocal_rawAttribute : IsLocal (RawAttribute.read pool) :=
  (isLocal_textRef pool).bind fun _ => IsLocal.long.bind fun _ => (IsLocal.bytes _).bind fun _ => .pure _

/-- The body of an attribute is read apart, so a body that is too short is no end of the input. -/
theorem isLocal_attributes (meaning : RawAttribute → Except Error Attribute) :
    IsLocal (Attribute.readAll pool meaning) :=
  ((isLocal_rawAttribute pool).bind fun _ => .ofExcept _).counted

theorem isLocal_member : IsLocal (readMember pool) :=
  IsLocal.word.bind fun _ => (isLocal_textRef pool).bind fun _ => (isLocal_textRef pool).bind fun _ =>
    (isLocal_attributes pool _).bind fun _ => .pure _

theorem isLocal_superclass : IsLocal (readSuperclass pool) := by
  refine IsLocal.word.bind fun index => ?_
  split
  · exact .pure _
  · exact (IsLocal.ofExcept _).bind fun _ => .pure _

end

theorem isLocal_magic : IsLocal readMagic := by
  refine IsLocal.long.bind fun n => ?_
  split
  · exact .throw _
  · exact .pure _

theorem isLocal_read : IsLocal read := by
  refine isLocal_magic.bind fun _ => IsLocal.word.bind fun _ => IsLocal.word.bind fun _ => ?_
  refine isLocal_pool.bind fun pool => IsLocal.word.bind fun _ => (isLocal_classRef pool).bind fun _ => ?_
  refine (isLocal_superclass pool).bind fun _ => (isLocal_classRef pool).counted.bind fun _ => ?_
  refine (isLocal_member pool).counted.bind fun _ => (isLocal_member pool).counted.bind fun _ => ?_
  exact (isLocal_attributes pool _).bind fun _ => .pure _

/-! ## The length of a class file -/

theorem decode_eq_ok {bytes : Bytes} {c : ClassFile} :
    decode bytes = .ok c ↔ ∃ rest, read bytes = .ok (c, rest) := by
  rw [decode]
  cases read bytes with
  | error e => simp [Except.map]
  | ok r => cases r; simp [Except.map, eq_comm]

theorem decode_eq_error {bytes : Bytes} {e : Error} : decode bytes = .error e ↔ read bytes = .error e := by
  rw [decode]
  cases read bytes <;> simp [Except.map]

/-- **A class file ends where its last attribute ends.** With fewer bytes the end comes too early and
nothing else is wrong; with any bytes behind it the same class is read. A fault other than a missing end
stays, whatever is added. -/
theorem decode_cut_and_extended :
    (∀ bytes c, decode bytes = .ok c → ∃! n, n ≤ bytes.length ∧
      (∀ k < n, decode (bytes.take k) = .error .endOfInput) ∧
      ∀ more, decode (bytes.take n ++ more) = .ok c) ∧
    ∀ bytes e, decode bytes = .error e → e ≠ .endOfInput →
      ∀ more, decode (bytes ++ more) = .error e := by
  constructor
  · intro bytes c h
    obtain ⟨rest, hread⟩ := decode_eq_ok.1 h
    obtain ⟨taken, rfl, htaken⟩ := isLocal_read.ok hread
    have hless : ∀ k < taken.length, decode ((taken ++ rest).take k) = .error .endOfInput := by
      intro k hk
      refine decode_eq_error.2 (isLocal_read.truncated hread ?_)
      rw [List.length_append]
      omega
    have hmore (more : Bytes) : decode ((taken ++ rest).take taken.length ++ more) = .ok c := by
      rw [List.take_left]
      exact decode_eq_ok.2 ⟨more, htaken more⟩
    -- What is enough for the class is not less than what it takes.
    have hle {m n : Nat} (hmore : ∀ more, decode ((taken ++ rest).take m ++ more) = .ok c)
        (hless : ∀ k < n, decode ((taken ++ rest).take k) = .error .endOfInput) : n ≤ m := by
      by_contra hlt
      have hfull := hmore []
      rw [List.append_nil, hless m (Nat.lt_of_not_le hlt)] at hfull
      cases hfull
    exact ⟨taken.length, ⟨by simp, hless, hmore⟩, fun n ⟨_, hless', hmore'⟩ =>
      Nat.le_antisymm (hle hmore hless') (hle hmore' hless)⟩
  · intro bytes e h hne more
    exact decode_eq_error.2 (isLocal_read.error (decode_eq_error.1 h) hne more)

/-- A file with one constant, of a kind that does not exist. -/
def unknownConstant : Bytes :=
  magicBytes ++ [0, 0, 0, 61, 0, 2, 2]

theorem decode_cut_sampleBytes :
    (decode sampleBytes = .ok sampleClass ∧ ∃! n, n ≤ sampleBytes.length ∧
      (∀ k < n, decode (sampleBytes.take k) = .error .endOfInput) ∧
      ∀ more, decode (sampleBytes.take n ++ more) = .ok sampleClass) ∧
    decode unknownConstant = .error (.unsupportedConstant 2) ∧
      ∀ more, decode (unknownConstant ++ more) = .error (.unsupportedConstant 2) := by
  obtain ⟨hcut, hextended⟩ := decode_cut_and_extended
  have hsample : decode sampleBytes = .ok sampleClass := by decide +kernel
  have hunknown : decode unknownConstant = .error (.unsupportedConstant 2) := by decide +kernel
  exact ⟨⟨hsample, hcut _ _ hsample⟩, hunknown, hextended _ _ hunknown (by decide)⟩

end ApiSurface.ClassFile
