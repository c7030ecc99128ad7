import ApiSurface.ClassFile.Basic
import ApiSurface.Proofs.Machine.Basic
import ApiSurface.Proofs.Text.ModifiedUtf8
import Mathlib

/-!
Modified UTF-8 as a machine decodes it: with an index into the bytes, and with masks and shifts.
-/

namespace ApiSurface.Machine

open Program ModifiedUtf8

/-! ## Code units -/

/-- The value moved up by `k` bits, none of which may get lost. -/
def shiftLeft (v : UInt16) (k : Nat) : Except Trap UInt16 :=
  if v.toNat * 2 ^ k < UInt16.size then .ok (v <<< UInt16.ofNat k) else .error .overflow

/-- What a machine has when it decodes: its position in the bytes. -/
abbrev Decoder := Program Nat ClassFile.Error

namespace Units

/-- The six bits of the byte at an index, which has to be there and to be a continuation byte. -/
def continuationAt (bytes : Bytes) (i : Nat) : Decoder UInt16 :=
  match bytes[i]? with
  | some b => if b &&& 0xC0 = 0x80 then return (b &&& 0x3F).toUInt16 else throw .badText
  | none => throw .badText

/-- Reads one code unit in front of which `units` were read, the last first. -/
def turn (bytes : Bytes) (units : List UInt16) : Decoder (List UInt16) := do
  let i ← get
  let a ← check (byteAt bytes i)
  if 0x01 ≤ a ∧ a ≤ 0x7F then
    set (← check (add i 1))
    return a.toUInt16 :: units
  else if 0xC0 ≤ a ∧ a ≤ 0xDF then
    let b ← continuationAt bytes (← check (add i 1))
    let high ← check (shiftLeft (a &&& 0x1F).toUInt16 6)
    set (← check (add i 2))
    return (high ||| b) :: units
  else if 0xE0 ≤ a ∧ a ≤ 0xEF then
    let b ← continuationAt bytes (← check (add i 1))
    let c ← continuationAt bytes (← check (add i 2))
    let high ← check (shiftLeft (a &&& 0x0F).toUInt16 12)
    let middle ← check (shiftLeft b 6)
    set (← check (add i 3))
    return (high ||| middle ||| c) :: units
  else
    throw .badText

/-- The code units of bytes, the last first. -/
def readAll (bytes : Bytes) : List UInt16 → Decoder (List UInt16) :=
  loop (fun _ i => bytes.length - i) (fun _ i => decide (i < bytes.length)) (turn bytes)

/-- The text of bytes that are read from the first one on. -/
def decode (bytes : Bytes) : Decoder String := do
  let units ← readAll bytes []
  match Utf16.decode? units.reverse with
  | some chars => return String.ofList chars
  | none => throw .badText

end Units

/-! ## Masks and shifts -/

theorem maskTable : ∀ i : Fin 256, let a := UInt8.ofNat i.val
    (0xC0 ≤ a ∧ a ≤ 0xDF → (a &&& 0x1F).toNat = i.val - 0xC0) ∧
      (0xE0 ≤ a ∧ a ≤ 0xEF → (a &&& 0x0F).toNat = i.val - 0xE0) ∧
      (a &&& 0xC0 = 0x80 ↔ 0x80 ≤ a ∧ a < 0xC0) ∧
      (0x80 ≤ a ∧ a < 0xC0 → (a &&& 0x3F).toNat = i.val - 0x80) := by
  decide +kernel

theorem mask (a : UInt8) : (0xC0 ≤ a ∧ a ≤ 0xDF → (a &&& 0x1F).toNat = a.toNat - 0xC0) ∧
    (0xE0 ≤ a ∧ a ≤ 0xEF → (a &&& 0x0F).toNat = a.toNat - 0xE0) ∧
    (a &&& 0xC0 = 0x80 ↔ 0x80 ≤ a ∧ a < 0xC0) ∧
    (0x80 ≤ a ∧ a < 0xC0 → (a &&& 0x3F).toNat = a.toNat - 0x80) := by
  simpa using maskTable ⟨a.toNat, a.toNat_lt⟩

theorem shiftLeft_eq_ok {v : UInt16} {k : Nat} (hk : k < 16) (h : v.toNat * 2 ^ k < UInt16.size) :
    shiftLeft v k = .ok (UInt16.ofNat (v.toNat * 2 ^ k)) := by
  rw [shiftLeft, if_pos h]
  congr 1
  rw [← UInt16.toNat_inj, UInt16.toNat_shiftLeft, UInt16.toNat_ofNat_of_lt' h,
    UInt16.toNat_ofNat_of_lt' (by simp [UInt16.size]; omega), Nat.mod_eq_of_lt hk, Nat.shiftLeft_eq]
  exact Nat.mod_eq_of_lt h

theorem toUInt16_eq (a : UInt8) : a.toUInt16 = UInt16.ofNat a.toNat := by
  rw [← UInt16.toNat_inj, UInt8.toNat_toUInt16, UInt16.toNat_ofNat_of_lt']
  exact Nat.lt_trans (UInt8.toNat_lt _) (by decide)

/-- A part of a byte, moved up. -/
theorem shiftLeft_toUInt16 {a : UInt8} {n k : Nat} (hk : k < 16) (ha : a.toNat = n)
    (h : n * 2 ^ k < UInt16.size) : shiftLeft a.toUInt16 k = .ok (UInt16.ofNat (n * 2 ^ k)) := by
  subst ha
  rw [shiftLeft_eq_ok hk (by rwa [UInt8.toNat_toUInt16]), UInt8.toNat_toUInt16]

/-- Below the bits that have been moved up there is room. -/
theorem ofNat_or {n x k : Nat} (hx : x < 2 ^ k) (h : n * 2 ^ k + x < UInt16.size) :
    UInt16.ofNat (n * 2 ^ k) ||| UInt16.ofNat x = UInt16.ofNat (n * 2 ^ k + x) := by
  rw [← UInt16.toNat_inj, UInt16.toNat_or, UInt16.toNat_ofNat_of_lt' h,
    UInt16.toNat_ofNat_of_lt' (Nat.lt_of_le_of_lt (Nat.le_add_right _ _) h),
    UInt16.toNat_ofNat_of_lt' (Nat.lt_of_le_of_lt (Nat.le_add_left _ _) h),
    ← Nat.shiftLeft_eq, Nat.shiftLeft_add_eq_or_of_lt hx]

/-! ## Decoding -/

namespace Units

variable {bytes : Bytes} {i : Nat} {a : UInt8}

theorem continuation?_lt {b : UInt8} {x : Nat} (h : continuation? b = some x) : x < 0x40 := by
  rw [continuation?] at h
  split at h
  · next hb =>
    obtain rfl := Option.some.inj h
    have hlt := UInt8.lt_iff_toNat_lt.1 hb.2
    simp at hlt
    omega
  · cases h

theorem continuationAt_eq (bytes : Bytes) (i s : Nat) : continuationAt bytes i s =
    match (bytes[i]?).bind continuation? with
    | some x => .ok (.ok (UInt16.ofNat x), s)
    | none => .ok (.error .badText, s) := by
  rw [continuationAt]
  cases bytes[i]? with
  | none => rfl
  | some b =>
    obtain ⟨-, -, hmask, hvalue⟩ := mask b
    dsimp only [Option.bind]
    by_cases hb : 0x80 ≤ b ∧ b < 0xC0
    · rw [if_pos (hmask.2 hb), continuation?, if_pos hb, ← hvalue hb]
      dsimp only
      rw [pure_eq]
      rw [toUInt16_eq]
    · rw [if_neg (fun h => hb (hmask.1 h)), continuation?, if_neg hb]
      rfl

/-- A byte that begins a form of two or three bytes. -/
theorem unitsAfter_two (ha : 0xC0 ≤ a ∧ a ≤ 0xDF) (done : List UInt16) (rest : Bytes)
    (h : (rest[0]?).bind continuation? = none) : unitsAfter done (a :: rest) = none := by
  rw [unitsAfter.eq_def]
  dsimp only
  rw [if_neg, if_neg, if_neg, if_pos]
  · cases rest with
    | nil => rfl
    | cons b rest =>
      have hb : continuation? b = none := h
      simp only [hb]
  all_goals
    simp only [UInt8.le_iff_toNat_le, UInt8.lt_iff_toNat_lt, ← UInt8.toNat_inj] at *
    simp at *
    omega

theorem unitsAfter_three (ha : 0xE0 ≤ a ∧ a ≤ 0xEF) (done : List UInt16) (rest : Bytes)
    (h : (rest[0]?).bind continuation? = none ∨ (rest[1]?).bind continuation? = none) :
    unitsAfter done (a :: rest) = none := by
  rw [unitsAfter.eq_def]
  dsimp only
  rw [if_neg, if_neg, if_neg, if_neg, if_pos]
  · cases rest with
    | nil => rfl
    | cons b rest =>
      cases rest with
      | nil => rfl
      | cons c rest =>
        have hbc : continuation? b = none ∨ continuation? c = none := h
        obtain hb | hc := hbc
        · simp only [hb]
        · simp only [hc]
          cases continuation? b <;> rfl
  all_goals
    simp only [UInt8.le_iff_toNat_le, UInt8.lt_iff_toNat_lt, ← UInt8.toNat_inj] at *
    simp at *
    omega

theorem unitsAfter_none (h1 : ¬(0x01 ≤ a ∧ a ≤ 0x7F)) (h2 : ¬(0xC0 ≤ a ∧ a ≤ 0xDF))
    (h3 : ¬(0xE0 ≤ a ∧ a ≤ 0xEF)) (done : List UInt16) (rest : Bytes) :
    unitsAfter done (a :: rest) = none := by
  have hrange : a = 0x00 ∨ (0x80 ≤ a ∧ a < 0xC0) ∨ 0xF0 ≤ a := by
    simp only [UInt8.le_iff_toNat_le, UInt8.lt_iff_toNat_lt, ← UInt8.toNat_inj] at *
    simp at *
    omega
  rw [unitsAfter.eq_def]
  dsimp only
  split
  · rfl
  split
  · simp only [UInt8.le_iff_toNat_le, UInt8.lt_iff_toNat_lt, ← UInt8.toNat_inj] at *
    simp at *
    omega
  split
  · rfl
  split
  · simp only [UInt8.le_iff_toNat_le, UInt8.lt_iff_toNat_lt, ← UInt8.toNat_inj] at *
    simp at *
    omega
  split
  · simp only [UInt8.le_iff_toNat_le, UInt8.lt_iff_toNat_lt, ← UInt8.toNat_inj] at *
    simp at *
    omega
  · rfl

/-- One turn reads a form of a code unit, or there is none. -/
def ReadsForm (bytes : Bytes) (i : Nat) : Prop :=
  ∀ units, (∃ form u, IsForm u form ∧ bytes.drop i = form ++ bytes.drop (i + form.length) ∧
      turn bytes units i = .ok (.ok (u :: units), i + form.length)) ∨
    ((∀ done, unitsAfter done (bytes.drop i) = none) ∧
      turn bytes units i = .ok (.error .badText, i))

theorem drop_eq (h : bytes[i]? = some a) : bytes.drop i = a :: bytes.drop (i + 1) := by
  obtain ⟨hlt, rfl⟩ := List.getElem?_eq_some_iff.1 h
  exact List.drop_eq_getElem_cons hlt

theorem add_index (hheld : bytes.length ≤ maxBytes) (h : bytes[i]? = some a) {k : Nat} (hk : k ≤ 3) :
    add i k = .ok (i + k) := by
  obtain ⟨hlt, -⟩ := List.getElem?_eq_some_iff.1 h
  have : 3 ≤ maxBytes := by decide
  exact add_eq_ok (lt_sizeValues (by omega))

theorem readsForm_one (hheld : bytes.length ≤ maxBytes) (ha : bytes[i]? = some a)
    (h : 0x01 ≤ a ∧ a ≤ 0x7F) : ReadsForm bytes i := by
  refine fun units => .inl ⟨[a], _, .one ?_ ?_, drop_eq ha, ?_⟩
  · exact UInt8.lt_iff_toNat_lt.2 (UInt8.le_iff_toNat_le.1 h.1)
  · exact UInt8.lt_iff_toNat_lt.2 (Nat.lt_succ_of_le (UInt8.le_iff_toNat_le.1 h.2))
  · rw [turn, get_bind, check_bind (by rw [byteAt, ha]), if_pos h, check_bind (add_index hheld ha (by decide)),
      set_bind, pure_eq, toUInt16_eq]
    rfl

theorem readsForm_two (hheld : bytes.length ≤ maxBytes) (ha : bytes[i]? = some a)
    (h1 : ¬(0x01 ≤ a ∧ a ≤ 0x7F)) (h : 0xC0 ≤ a ∧ a ≤ 0xDF) : ReadsForm bytes i := by
  intro units
  rw [turn, get_bind, check_bind (by rw [byteAt, ha]), if_neg h1, if_pos h,
    check_bind (add_index hheld ha (by decide))]
  cases hb : (bytes[i + 1]?).bind continuation? with
  | none =>
    refine .inr ⟨fun done => ?_, bind_of_error (by rw [continuationAt_eq, hb])⟩
    rw [drop_eq ha]
    exact unitsAfter_two h done _ (by rwa [List.getElem?_drop])
  | some x =>
    obtain ⟨b, hbyte, hx⟩ := Option.bind_eq_some_iff.1 hb
    have hsmall := continuation?_lt hx
    have hle : a.toNat ≤ 0xDF := UInt8.le_iff_toNat_le.1 h.2
    have hhigh := shiftLeft_toUInt16 (show 6 < 16 by decide) ((mask a).1 h)
      (by simp only [UInt16.size]; omega)
    refine .inl ⟨[a, b], _, .two h.1 (UInt8.lt_iff_toNat_lt.2 (Nat.lt_succ_of_le hle)) hx, ?_, ?_⟩
    · rw [drop_eq ha, drop_eq hbyte]
      rfl
    · rw [bind_of_ok (by rw [continuationAt_eq, hb]), check_bind hhigh,
        check_bind (add_index hheld ha (by decide)), set_bind, pure_eq,
        ofNat_or (show x < 2 ^ 6 from hsmall) (by simp only [UInt16.size]; omega)]
      rfl

theorem readsForm_three (hheld : bytes.length ≤ maxBytes) (ha : bytes[i]? = some a)
    (h1 : ¬(0x01 ≤ a ∧ a ≤ 0x7F)) (h2 : ¬(0xC0 ≤ a ∧ a ≤ 0xDF)) (h : 0xE0 ≤ a ∧ a ≤ 0xEF) :
    ReadsForm bytes i := by
  intro units
  rw [turn, get_bind, check_bind (by rw [byteAt, ha]), if_neg h1, if_neg h2, if_pos h,
    check_bind (add_index hheld ha (by decide))]
  cases hb : (bytes[i + 1]?).bind continuation? with
  | none =>
    refine .inr ⟨fun done => ?_, bind_of_error (by rw [continuationAt_eq, hb])⟩
    rw [drop_eq ha]
    exact unitsAfter_three h done _ (.inl (by rwa [List.getElem?_drop]))
  | some x =>
    rw [bind_of_ok (by rw [continuationAt_eq, hb]), check_bind (add_index hheld ha (by decide))]
    cases hc : (bytes[i + 2]?).bind continuation? with
    | none =>
      refine .inr ⟨fun done => ?_, bind_of_error (by rw [continuationAt_eq, hc])⟩
      rw [drop_eq ha]
      exact unitsAfter_three h done _ (.inr (by rwa [List.getElem?_drop]))
    | some y =>
      obtain ⟨b, hbyte, hx⟩ := Option.bind_eq_some_iff.1 hb
      obtain ⟨c, hcbyte, hy⟩ := Option.bind_eq_some_iff.1 hc
      have hsmall := continuation?_lt hx
      have hsmaller := continuation?_lt hy
      have hle : a.toNat ≤ 0xEF := UInt8.le_iff_toNat_le.1 h.2
      have hhigh := shiftLeft_toUInt16 (show 12 < 16 by decide) ((mask a).2.1 h)
        (by simp only [UInt16.size]; omega)
      have hxvalue : (UInt16.ofNat x).toNat = x :=
        UInt16.toNat_ofNat_of_lt' (by simp only [UInt16.size]; omega)
      have hmiddle := @shiftLeft_eq_ok (UInt16.ofNat x) 6 (by decide)
        (by rw [hxvalue]; simp only [UInt16.size]; omega)
      rw [hxvalue] at hmiddle
      have hsum : (a.toNat - 0xE0) * 2 ^ 12 + x * 2 ^ 6 = ((a.toNat - 0xE0) * 2 ^ 6 + x) * 2 ^ 6 := by
        omega
      refine .inl ⟨[a, b, c], _,
        .three h.1 (UInt8.lt_iff_toNat_lt.2 (Nat.lt_succ_of_le hle)) hx hy, ?_, ?_⟩
      · rw [drop_eq ha, drop_eq hbyte, drop_eq hcbyte]
        rfl
      · rw [bind_of_ok (by rw [continuationAt_eq, hc]), check_bind hhigh, check_bind hmiddle,
          check_bind (add_index hheld ha (by decide)), set_bind, pure_eq,
          ofNat_or (show x * 2 ^ 6 < 2 ^ 12 by omega) (by simp only [UInt16.size]; omega), hsum,
          ofNat_or (show y < 2 ^ 6 from hsmaller) (by simp only [UInt16.size]; omega), ← hsum]
        rfl

theorem readsForm (hheld : bytes.length ≤ maxBytes) (hi : i < bytes.length) : ReadsForm bytes i := by
  have ha := List.getElem?_eq_getElem hi
  by_cases h1 : 0x01 ≤ bytes[i] ∧ bytes[i] ≤ 0x7F
  · exact readsForm_one hheld ha h1
  by_cases h2 : 0xC0 ≤ bytes[i] ∧ bytes[i] ≤ 0xDF
  · exact readsForm_two hheld ha h1 h2
  by_cases h3 : 0xE0 ≤ bytes[i] ∧ bytes[i] ≤ 0xEF
  · exact readsForm_three hheld ha h1 h2 h3
  · refine fun units => .inr ⟨fun done => ?_, ?_⟩
    · rw [drop_eq ha]
      exact unitsAfter_none h1 h2 h3 done _
    · rw [turn, get_bind, check_bind (by rw [byteAt, ha]), if_neg h1, if_neg h2, if_neg h3]
      rfl

/-- The loop reads all forms, up to one that there is not. -/
theorem readAll_eq (hheld : bytes.length ≤ maxBytes) (units : List UInt16) : ∃ stop,
    readAll bytes units i =
      match unitsAfter units (bytes.drop i) with
      | some us => .ok (.ok us.reverse, stop)
      | none => .ok (.error .badText, stop) := by
  induction hleft : bytes.length - i using Nat.strongRecOn generalizing i units with
  | _ n ih =>
    by_cases hi : i < bytes.length
    · have hgoes : decide (i < bytes.length) = true := decide_eq_true hi
      obtain ⟨form, u, hform, hdrop, hturn⟩ | ⟨hnone, hturn⟩ := readsForm hheld hi units
      · have hpos : 0 < form.length := by cases hform <;> simp
        obtain ⟨stop, hstop⟩ := ih (bytes.length - (i + form.length)) (by omega) (u :: units) rfl
        have hnext : readAll bytes units i = readAll bytes (u :: units) (i + form.length) :=
          loop_turn hgoes hturn (by omega)
        exact ⟨stop, by rw [hnext, hstop, hdrop, unitsAfter_form hform]⟩
      · have hfail : readAll bytes units i = .ok (.error .badText, i) := loop_fail hgoes hturn
        exact ⟨i, by rw [hfail, hnone]⟩
    · have hstop : readAll bytes units i = .ok (.ok units, i) := loop_stop (decide_eq_false hi)
      refine ⟨i, ?_⟩
      rw [hstop, List.drop_eq_nil_of_le (Nat.le_of_not_lt hi), unitsAfter]
      simp

/-- **Decoding modified UTF-8 never traps.** -/
theorem decode_eq (hheld : bytes.length ≤ maxBytes) : ∃ stop, decode bytes 0 =
    match decode? bytes with
    | some text => .ok (.ok text, stop)
    | none => .ok (.error .badText, stop) := by
  obtain ⟨stop, hread⟩ := @readAll_eq bytes 0 hheld []
  refine ⟨stop, ?_⟩
  rw [decode, decode?, units?]
  rw [List.drop_zero] at hread
  cases hunits : unitsAfter [] bytes with
  | none =>
    rw [hunits] at hread
    exact bind_of_error hread
  | some us =>
    rw [hunits] at hread
    rw [bind_of_ok hread, List.reverse_reverse, Option.bind_some]
    cases Utf16.decode? us <;> rfl

end Units

end ApiSurface.Machine
