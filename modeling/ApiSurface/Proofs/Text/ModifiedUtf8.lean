import ApiSurface.Text.ModifiedUtf8

/-!
Reading modified UTF-8 undoes writing it.

A code unit has several forms, of which only the shortest is written. The reader passes each form in
one step (`unitsAfter_form`), so the text of the written bytes is the text that was written
(`decode?_encode`). Units that are no text, because a surrogate stands alone in them, are not read.
-/

namespace ApiSurface

/-! ## UTF-16 -/

namespace Utf16

theorem decodeAfter_encodeChar (c : Char) (done : List Char) (rest : List UInt16) :
    decodeAfter done (encodeChar c ++ rest) = decodeAfter (c :: done) rest := by
  have hvalid : c.toNat < 0xD800 ∨ 0xDFFF < c.toNat ∧ c.toNat < 0x110000 := c.valid
  by_cases hsmall : c.toNat < 0x10000
  · have hunit : (UInt16.ofNat c.toNat).toNat = c.toNat := UInt16.toNat_ofNat_of_lt' hsmall
    have hhigh : isHighSurrogate (UInt16.ofNat c.toNat) = false := by
      simp only [isHighSurrogate, Bool.and_eq_false_iff, decide_eq_false_iff_not,
        UInt16.le_iff_toNat_le, UInt16.lt_iff_toNat_lt, hunit]
      simp; omega
    have hlow : isLowSurrogate (UInt16.ofNat c.toNat) = false := by
      simp only [isLowSurrogate, Bool.and_eq_false_iff, decide_eq_false_iff_not,
        UInt16.le_iff_toNat_le, UInt16.lt_iff_toNat_lt, hunit]
      simp; omega
    simp only [encodeChar, hsmall, ↓reduceIte, List.cons_append, List.nil_append]
    rw [decodeAfter.eq_def]
    simp [hhigh, hlow, hunit, -UInt16.toNat_ofNat']
  · -- The two units carry ten bits each of the distance from `0x10000`.
    generalize hx : (c.toNat - 0x10000) / 0x400 = x
    generalize hy : (c.toNat - 0x10000) % 0x400 = y
    have hu : (UInt16.ofNat (0xD800 + x)).toNat = 0xD800 + x := UInt16.toNat_ofNat_of_lt' (by
      simp [UInt16.size]; omega)
    have hv : (UInt16.ofNat (0xDC00 + y)).toNat = 0xDC00 + y := UInt16.toNat_ofNat_of_lt' (by
      simp [UInt16.size]; omega)
    have hhigh : isHighSurrogate (UInt16.ofNat (0xD800 + x)) = true := by
      simp only [isHighSurrogate, Bool.and_eq_true, decide_eq_true_eq,
        UInt16.le_iff_toNat_le, UInt16.lt_iff_toNat_lt, hu]
      simp; omega
    have hlow : isLowSurrogate (UInt16.ofNat (0xDC00 + y)) = true := by
      simp only [isLowSurrogate, Bool.and_eq_true, decide_eq_true_eq,
        UInt16.le_iff_toNat_le, UInt16.lt_iff_toNat_lt, hv]
      simp; omega
    have hpair : pair (UInt16.ofNat (0xD800 + x)) (UInt16.ofNat (0xDC00 + y)) = c := by
      rw [pair, hu, hv, show 0x10000 + (0xD800 + x - 0xD800) * 0x400 + (0xDC00 + y - 0xDC00)
        = c.toNat by omega, Char.ofNat_toNat]
    simp only [encodeChar, hsmall, ↓reduceIte, hx, hy, List.cons_append, List.nil_append]
    rw [decodeAfter, if_pos hhigh, if_pos hlow, hpair]

theorem decodeAfter_encode (s done : List Char) :
    decodeAfter done (encode s) = some (done.reverse ++ s) := by
  induction s generalizing done with
  | nil => simp [encode, decodeAfter]
  | cons c s ih =>
    have hcons : encode (c :: s) = encodeChar c ++ encode s := rfl
    rw [hcons, decodeAfter_encodeChar, ih]
    simp

theorem decode?_encode (s : List Char) : decode? (encode s) = some s :=
  decodeAfter_encode s []

theorem toNat_ofNat {n : Nat} (h : n.isValidChar) : (Char.ofNat n).toNat = n := by
  rw [Char.ofNat, dif_pos h]
  rfl

/-- A high and a low surrogate stand for a character with these units. -/
theorem encodeChar_pair {high low : UInt16} (hhigh : isHighSurrogate high) (hlow : isLowSurrogate low) :
    encodeChar (pair high low) = [high, low] := by
  simp only [isHighSurrogate, isLowSurrogate, Bool.and_eq_true, decide_eq_true_eq,
    UInt16.le_iff_toNat_le, UInt16.lt_iff_toNat_lt] at hhigh hlow
  simp at hhigh hlow
  have hchar : (pair high low).toNat =
      0x10000 + (high.toNat - 0xD800) * 0x400 + (low.toNat - 0xDC00) := by
    rw [pair]
    exact toNat_ofNat (.inr (by omega))
  have hsmall : ¬(pair high low).toNat < 0x10000 := by omega
  rw [encodeChar, if_neg hsmall, hchar,
    show 0xD800 + (0x10000 + (high.toNat - 0xD800) * 0x400 + (low.toNat - 0xDC00) - 0x10000) / 0x400
      = high.toNat by omega,
    show 0xDC00 + (0x10000 + (high.toNat - 0xD800) * 0x400 + (low.toNat - 0xDC00) - 0x10000) % 0x400
      = low.toNat by omega, UInt16.ofNat_toNat, UInt16.ofNat_toNat]

theorem encodeChar_ofNat {u : UInt16} (hhigh : isHighSurrogate u = false)
    (hlow : isLowSurrogate u = false) : encodeChar (Char.ofNat u.toNat) = [u] := by
  have hu := u.toNat_lt
  simp only [isHighSurrogate, isLowSurrogate, Bool.and_eq_false_iff, decide_eq_false_iff_not,
    UInt16.le_iff_toNat_le, UInt16.lt_iff_toNat_lt] at hhigh hlow
  simp at hhigh hlow
  have hchar : (Char.ofNat u.toNat).toNat = u.toNat :=
    toNat_ofNat (by rw [Nat.isValidChar]; omega)
  rw [encodeChar, if_pos (by omega), hchar, UInt16.ofNat_toNat]

/-- What is decoded was encoded. -/
theorem encode_of_decodeAfter {units : List UInt16} {done s : List Char}
    (h : decodeAfter done units = some s) : ∃ t, s = done.reverse ++ t ∧ encode t = units := by
  fun_induction decodeAfter done units with
  | case1 done => exact ⟨[], by simpa using h.symm, rfl⟩
  | case2 done u hhigh v rest hlow ih =>
    obtain ⟨t, rfl, rfl⟩ := ih h
    exact ⟨pair u v :: t, by simp, by simp [encode, encodeChar_pair hhigh hlow]⟩
  | case3 => cases h
  | case4 => cases h
  | case5 => cases h
  | case6 done u rest hhigh hlow ih =>
    obtain ⟨t, rfl, rfl⟩ := ih h
    exact ⟨Char.ofNat u.toNat :: t, by simp, by
      simp [encode, encodeChar_ofNat (by simpa using hhigh) (by simpa using hlow)]⟩

theorem decode?_eq_some {units : List UInt16} {s : List Char} :
    decode? units = some s ↔ encode s = units := by
  constructor
  · intro h
    obtain ⟨t, rfl, ht⟩ := encode_of_decodeAfter h
    exact ht
  · rintro rfl
    exact decode?_encode s

end Utf16

/-! ## Forms of code units -/

namespace ModifiedUtf8

/-- `bs` is a form of the code unit `u`, maybe longer than needed. -/
inductive IsForm : UInt16 → Bytes → Prop
  | one {a : UInt8} : 0 < a → a < 0x80 → IsForm (UInt16.ofNat a.toNat) [a]
  | two {a b : UInt8} {x : Nat} : 0xC0 ≤ a → a < 0xE0 → continuation? b = some x →
      IsForm (UInt16.ofNat ((a.toNat - 0xC0) * 0x40 + x)) [a, b]
  | three {a b c : UInt8} {x y : Nat} : 0xE0 ≤ a → a < 0xF0 → continuation? b = some x →
      continuation? c = some y →
      IsForm (UInt16.ofNat ((a.toNat - 0xE0) * 0x1000 + x * 0x40 + y)) [a, b, c]

/-- The reader passes a form in one step. -/
theorem unitsAfter_form {u : UInt16} {bs : Bytes} (h : IsForm u bs) (done : List UInt16)
    (rest : Bytes) : unitsAfter done (bs ++ rest) = unitsAfter (u :: done) rest := by
  cases h with
  | one hpos hlt =>
    rw [List.singleton_append, unitsAfter.eq_def]
    dsimp only
    rw [if_neg, if_pos hlt]
    rintro rfl
    exact absurd hpos (by decide)
  | two hge hlt hb =>
    rw [List.cons_append, List.singleton_append, unitsAfter.eq_def]
    dsimp only
    rw [if_neg, if_neg, if_neg, if_pos hlt]
    · simp only [hb]
    all_goals
      simp only [UInt8.le_iff_toNat_le, UInt8.lt_iff_toNat_lt, ← UInt8.toNat_inj] at *
      simp at *
      omega
  | three hge hlt hb hc =>
    rw [List.cons_append, List.cons_append, List.singleton_append, unitsAfter.eq_def]
    dsimp only
    rw [if_neg, if_neg, if_neg, if_neg, if_pos hlt]
    · simp only [hb, hc]
    all_goals
      simp only [UInt8.le_iff_toNat_le, UInt8.lt_iff_toNat_lt, ← UInt8.toNat_inj] at *
      simp at *
      omega

theorem continuation?_ofNat {x : Nat} (h : x < 0x40) :
    continuation? (UInt8.ofNat (0x80 + x)) = some x := by
  have hx : (UInt8.ofNat (0x80 + x)).toNat = 0x80 + x :=
    UInt8.toNat_ofNat_of_lt' (by simp [UInt8.size]; omega)
  have hbounds : 0x80 ≤ UInt8.ofNat (0x80 + x) ∧ UInt8.ofNat (0x80 + x) < 0xC0 := by
    simp only [UInt8.le_iff_toNat_le, UInt8.lt_iff_toNat_lt, hx]
    simp; omega
  rw [continuation?, if_pos hbounds, hx, Nat.add_sub_cancel_left]

/-- What is written for a unit is one of its forms. -/
theorem isForm_encodeUnit (u : UInt16) : IsForm u (encodeUnit u) := by
  have hu := u.toNat_lt
  generalize hn : u.toNat = n at hu
  have hback : UInt16.ofNat n = u := by rw [← hn, UInt16.ofNat_toNat]
  simp only [encodeUnit, hn]
  split
  next hone =>
    have ha : (UInt8.ofNat n).toNat = n := UInt8.toNat_ofNat_of_lt' (by simp [UInt8.size]; omega)
    have h := IsForm.one (a := UInt8.ofNat n)
      (by rw [UInt8.lt_iff_toNat_lt, ha]; exact hone.1)
      (by rw [UInt8.lt_iff_toNat_lt, ha]; exact hone.2)
    rwa [ha, hback] at h
  next hone =>
  split
  next htwo =>
    have ha : (UInt8.ofNat (0xC0 + n / 0x40)).toNat = 0xC0 + n / 0x40 :=
      UInt8.toNat_ofNat_of_lt' (by simp [UInt8.size]; omega)
    have h := IsForm.two (a := UInt8.ofNat (0xC0 + n / 0x40))
      (by rw [UInt8.le_iff_toNat_le, ha]; simp)
      (by rw [UInt8.lt_iff_toNat_lt, ha]; simp; omega)
      (continuation?_ofNat (x := n % 0x40) (by omega))
    rwa [ha, show (0xC0 + n / 0x40 - 0xC0) * 0x40 + n % 0x40 = n by omega, hback] at h
  next htwo =>
    have ha : (UInt8.ofNat (0xE0 + n / 0x1000)).toNat = 0xE0 + n / 0x1000 :=
      UInt8.toNat_ofNat_of_lt' (by simp [UInt8.size]; omega)
    have h := IsForm.three (a := UInt8.ofNat (0xE0 + n / 0x1000))
      (by rw [UInt8.le_iff_toNat_le, ha]; simp)
      (by rw [UInt8.lt_iff_toNat_lt, ha]; simp; omega)
      (continuation?_ofNat (x := n / 0x40 % 0x40) (by omega))
      (continuation?_ofNat (x := n % 0x40) (by omega))
    rwa [ha, show (0xE0 + n / 0x1000 - 0xE0) * 0x1000 + n / 0x40 % 0x40 * 0x40 + n % 0x40 = n by
      omega, hback] at h

/-! ## Texts -/

theorem unitsAfter_flatMap (us done : List UInt16) :
    unitsAfter done (us.flatMap encodeUnit) = some (done.reverse ++ us) := by
  induction us generalizing done with
  | nil => simp [unitsAfter]
  | cons u us ih =>
    rw [List.flatMap_cons, unitsAfter_form (isForm_encodeUnit u), ih]
    simp

/-- Forms of code units, one after the other. -/
inductive IsWritten : List UInt16 → Bytes → Prop
  | nil : IsWritten [] []
  | cons {u : UInt16} {us : List UInt16} {form bytes : Bytes} : IsForm u form → IsWritten us bytes →
      IsWritten (u :: us) (form ++ bytes)

theorem unitsAfter_of_isWritten {us : List UInt16} {bytes : Bytes} (h : IsWritten us bytes)
    (done : List UInt16) : unitsAfter done bytes = some (done.reverse ++ us) := by
  induction h generalizing done with
  | nil => simp [unitsAfter]
  | cons hform _ ih =>
    rw [unitsAfter_form hform, ih]
    simp

/-- Which units are written decides what is read, whatever the forms that they are written in. -/
theorem decode?_of_isWritten {us : List UInt16} {bytes : Bytes} (h : IsWritten us bytes) :
    decode? bytes = (Utf16.decode? us).map String.ofList := by
  rw [decode?, units?, unitsAfter_of_isWritten h]
  rfl

/-- **The bytes of a text are read as that text.** -/
theorem decode?_encode (s : String) : decode? (encode s) = some s := by
  have hunits : units? (encode s) = some (Utf16.encode s.toList) :=
    unitsAfter_flatMap (Utf16.encode s.toList) []
  simp [decode?, hunits, Utf16.decode?_encode]

end ModifiedUtf8

end ApiSurface
