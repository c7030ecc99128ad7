import ApiSurface.Proofs.ClassFile.Bounds
import ApiSurface.Proofs.ClassFile.RoundTrip

/-!
Which bytes are modified UTF-8, and of which text.

Bytes spell a text when they can be cut into forms whose values, in order, are the UTF-16 code units of
the text. A form may be longer than its code unit needs, and the two surrogates of a pair are forms of
their own. The reader gives a text for exactly these bytes (`decode?_exact`) and refuses all others.
-/

namespace ApiSurface.ModifiedUtf8

open Reading

/-! ## Forms and their values -/

/-- A byte inside a form, which begins with the bits `10` and carries six more. -/
def Continues (b : UInt8) : Prop :=
  0x80 ≤ b ∧ b ≤ 0xBF

instance (b : UInt8) : Decidable (Continues b) :=
  inferInstanceAs (Decidable (_ ∧ _))

/-- The code unit that the bytes are a form of. The first byte carries the highest bits. -/
def formValue? : Bytes → Option UInt16
  | [a] => if 0x01 ≤ a ∧ a ≤ 0x7F then some (.ofNat a.toNat) else none
  | [a, b] =>
    if (0xC0 ≤ a ∧ a ≤ 0xDF) ∧ Continues b then
      some (.ofNat (a.toNat % 0x20 * 0x40 + b.toNat % 0x40))
    else
      none
  | [a, b, c] =>
    if (0xE0 ≤ a ∧ a ≤ 0xEF) ∧ Continues b ∧ Continues c then
      some (.ofNat (a.toNat % 0x10 * 0x1000 + b.toNat % 0x40 * 0x40 + c.toNat % 0x40))
    else
      none
  | _ => none

/-- The bytes are forms of the code units of the text, one after the other. -/
def Spells (bytes : Bytes) (s : String) : Prop :=
  ∃ forms : List Bytes, bytes = forms.flatten ∧
    forms.map formValue? = (Utf16.encode s.toList).map some

theorem continuation?_eq_some {b : UInt8} {x : Nat} :
    continuation? b = some x ↔ Continues b ∧ x = b.toNat % 0x40 := by
  have hrange : (0x80 ≤ b ∧ b < 0xC0) ↔ Continues b := by
    simp only [Continues, UInt8.le_iff_toNat_le, UInt8.lt_iff_toNat_lt]
    simp
    omega
  have hbits (h : Continues b) : b.toNat - 0x80 = b.toNat % 0x40 := by
    simp only [Continues, UInt8.le_iff_toNat_le] at h
    simp at h
    omega
  rw [continuation?]
  split
  · next h => simp [hrange.1 h, hbits (hrange.1 h), eq_comm]
  · next h => simp [mt hrange.2 h]

theorem leads_one {a : UInt8} : 0x01 ≤ a ∧ a ≤ 0x7F ↔ 0 < a ∧ a < 0x80 := by
  simp only [UInt8.le_iff_toNat_le, UInt8.lt_iff_toNat_lt]
  simp
  omega

theorem leads_two {a : UInt8} : 0xC0 ≤ a ∧ a ≤ 0xDF ↔ 0xC0 ≤ a ∧ a < 0xE0 := by
  simp only [UInt8.le_iff_toNat_le, UInt8.lt_iff_toNat_lt]
  simp
  omega

theorem leads_three {a : UInt8} : 0xE0 ≤ a ∧ a ≤ 0xEF ↔ 0xE0 ≤ a ∧ a < 0xF0 := by
  simp only [UInt8.le_iff_toNat_le, UInt8.lt_iff_toNat_lt]
  simp
  omega

/-- The first byte of a form of two bytes carries five bits. -/
theorem bits_two {a : UInt8} (h : 0xC0 ≤ a ∧ a ≤ 0xDF) : a.toNat - 0xC0 = a.toNat % 0x20 := by
  simp only [UInt8.le_iff_toNat_le] at h
  simp at h
  omega

/-- The first byte of a form of three bytes carries four bits. -/
theorem bits_three {a : UInt8} (h : 0xE0 ≤ a ∧ a ≤ 0xEF) : a.toNat - 0xE0 = a.toNat % 0x10 := by
  simp only [UInt8.le_iff_toNat_le] at h
  simp at h
  omega

theorem isForm_of_formValue? {u : UInt16} {bytes : Bytes} (h : formValue? bytes = some u) :
    IsForm u bytes := by
  match bytes, h with
  | [a], h =>
    obtain ⟨ha, hu⟩ := Option.ite_none_right_eq_some.1 h
    obtain rfl := Option.some.inj hu
    obtain ⟨hpos, hlt⟩ := leads_one.1 ha
    exact .one hpos hlt
  | [a, b], h =>
    obtain ⟨⟨ha, hb⟩, hu⟩ := Option.ite_none_right_eq_some.1 h
    obtain rfl := Option.some.inj hu
    obtain ⟨hge, hlt⟩ := leads_two.1 ha
    rw [← bits_two ha]
    exact .two hge hlt (continuation?_eq_some.2 ⟨hb, rfl⟩)
  | [a, b, c], h =>
    obtain ⟨⟨ha, hb, hc⟩, hu⟩ := Option.ite_none_right_eq_some.1 h
    obtain rfl := Option.some.inj hu
    obtain ⟨hge, hlt⟩ := leads_three.1 ha
    rw [← bits_three ha]
    exact .three hge hlt (continuation?_eq_some.2 ⟨hb, rfl⟩) (continuation?_eq_some.2 ⟨hc, rfl⟩)

theorem formValue?_of_isForm {u : UInt16} {bytes : Bytes} (h : IsForm u bytes) :
    formValue? bytes = some u := by
  cases h with
  | one hpos hlt => exact if_pos (leads_one.2 ⟨hpos, hlt⟩)
  | two hge hlt hx =>
    obtain ⟨hb, rfl⟩ := continuation?_eq_some.1 hx
    have ha := leads_two.2 ⟨hge, hlt⟩
    rw [formValue?, if_pos ⟨ha, hb⟩, bits_two ha]
  | three hge hlt hx hy =>
    obtain ⟨hb, rfl⟩ := continuation?_eq_some.1 hx
    obtain ⟨hc, rfl⟩ := continuation?_eq_some.1 hy
    have ha := leads_three.2 ⟨hge, hlt⟩
    rw [formValue?, if_pos ⟨ha, hb, hc⟩, bits_three ha]

theorem isForm_iff {u : UInt16} {bytes : Bytes} : IsForm u bytes ↔ formValue? bytes = some u :=
  ⟨formValue?_of_isForm, isForm_of_formValue?⟩

/-! ## Several forms -/

theorem isWritten_iff {us : List UInt16} {bytes : Bytes} : IsWritten us bytes ↔
    ∃ forms : List Bytes, bytes = forms.flatten ∧ forms.map formValue? = us.map some := by
  constructor
  · intro h
    induction h with
    | nil => exact ⟨[], rfl, rfl⟩
    | @cons u us form _ hform _ ih =>
      obtain ⟨forms, rfl, hvalues⟩ := ih
      exact ⟨form :: forms, rfl, by simp [isForm_iff.1 hform, hvalues]⟩
  · rintro ⟨forms, rfl, hvalues⟩
    induction forms generalizing us with
    | nil =>
      obtain rfl := List.map_eq_nil_iff.1 hvalues.symm
      exact .nil
    | cons form forms ih =>
      obtain ⟨u, us, rfl, hfirst, hothers⟩ := List.map_eq_cons_iff.1 hvalues.symm
      exact .cons (isForm_iff.2 hfirst.symm) (ih hothers.symm)

/-- What is read was written. -/
theorem isWritten_of_unitsAfter {bytes : Bytes} {done units : List UInt16}
    (h : unitsAfter done bytes = some units) :
    ∃ us, units = done.reverse ++ us ∧ IsWritten us bytes := by
  fun_induction unitsAfter done bytes with
  | case1 done => exact ⟨[], by simpa using h.symm, .nil⟩
  | case3 done a rest hzero hone ih =>
    obtain ⟨us, rfl, hus⟩ := ih h
    exact ⟨_, by simp, .cons (.one (UInt8.pos_iff_ne_zero.2 hzero) hone) hus⟩
  | case5 done a _ _ hlow hhigh b rest x hb ih =>
    obtain ⟨us, rfl, hus⟩ := ih h
    exact ⟨_, by simp, .cons (.two (UInt8.not_lt.1 hlow) hhigh hb) hus⟩
  | case8 done a _ _ _ hlow hhigh b c rest x y hc hb ih =>
    obtain ⟨us, rfl, hus⟩ := ih h
    exact ⟨_, by simp, .cons (.three (UInt8.not_lt.1 hlow) hhigh hb hc) hus⟩
  | _ => cases h

theorem decode?_eq_some {bytes : Bytes} {s : String} : decode? bytes = some s ↔ Spells bytes s := by
  rw [Spells, ← isWritten_iff]
  constructor
  · intro h
    obtain ⟨chars, hchars, rfl⟩ := Option.map_eq_some_iff.1 h
    obtain ⟨units, hunits, hdecoded⟩ := Option.bind_eq_some_iff.1 hchars
    obtain ⟨us, rfl, hus⟩ := isWritten_of_unitsAfter hunits
    rwa [String.toList_ofList, Utf16.decode?_eq_some.1 hdecoded]
  · intro h
    rw [decode?_of_isWritten h, Utf16.decode?_encode, Option.map_some, String.ofList_toList]

theorem decode?_eq_none {bytes : Bytes} (h : ∀ s, ¬Spells bytes s) : decode? bytes = none :=
  Option.eq_none_iff_forall_ne_some.2 fun s hs => h s (decode?_eq_some.1 hs)

/-- A text constant is refused when its bytes are no text. -/
theorem readText_eq_error {bytes : Bytes} (h : decode? bytes = none) (hlen : bytes.length < UInt16.size)
    (rest : Bytes) :
    ClassFile.Constant.readText (ClassFile.word bytes.length ++ (bytes ++ rest)) = .error .badText := by
  rw [ClassFile.Constant.readText, bind_of_ok (ClassFile.read_word hlen _),
    UInt16.toNat_ofNat_of_lt' hlen, bind_of_ok (ClassFile.read_bytes _ _), h]
  rfl

/-! ## The shortest forms -/

theorem encode_append (s t : String) : encode (s ++ t) = encode s ++ encode t := by
  simp [encode, Utf16.encode]

theorem length_encodeUnit {u : UInt16} (h : 0x800 ≤ u.toNat) : (encodeUnit u).length = 3 := by
  rw [encodeUnit, if_neg (by omega), if_neg (by omega)]
  rfl

/-- A character beyond the first plane is written as two surrogates of three bytes each. -/
theorem encode_supplementary {c : Char} (hc : 0x10000 ≤ c.toNat) :
    ∃ high low, Utf16.encodeChar c = [high, low] ∧
      encode (String.singleton c) = encodeUnit high ++ encodeUnit low ∧
      (encodeUnit high).length = 3 ∧ (encodeUnit low).length = 3 := by
  have hvalid : c.toNat < 0xD800 ∨ 0xDFFF < c.toNat ∧ c.toNat < 0x110000 := c.valid
  have hunit {n : Nat} (hlow : 0x800 ≤ n) (hhigh : n < UInt16.size) :
      (encodeUnit (UInt16.ofNat n)).length = 3 :=
    length_encodeUnit (by rwa [UInt16.toNat_ofNat_of_lt' hhigh])
  have hpair : Utf16.encodeChar c = [.ofNat (0xD800 + (c.toNat - 0x10000) / 0x400),
      .ofNat (0xDC00 + (c.toNat - 0x10000) % 0x400)] := if_neg (Nat.not_lt.2 hc)
  refine ⟨_, _, hpair, ?_, hunit (by omega) ?_, hunit (by omega) ?_⟩
  · simp [encode, Utf16.encode, hpair]
  all_goals
    simp only [UInt16.size]
    omega

/-- **The reader gives a text for the bytes that spell it and refuses all others.** The shortest forms
are among them: two bytes for NUL and six for a character beyond the first plane. -/
theorem decode?_exact :
    (∀ bytes s, decode? bytes = some s ↔ Spells bytes s) ∧
    (∀ bytes, (∀ s, ¬Spells bytes s) → decode? bytes = none ∧ (bytes.length < UInt16.size → ∀ rest,
      ClassFile.Constant.readText (ClassFile.word bytes.length ++ (bytes ++ rest)) =
        .error .badText)) ∧
    (∀ s, decode? (encode s) = some s) ∧
    (∀ s t, encode (s ++ t) = encode s ++ encode t) ∧
    encode (String.singleton '\x00') = [0xC0, 0x80] ∧
    ∀ c : Char, 0x10000 ≤ c.toNat → ∃ high low, Utf16.encodeChar c = [high, low] ∧
      encode (String.singleton c) = encodeUnit high ++ encodeUnit low ∧
      (encodeUnit high).length = 3 ∧ (encodeUnit low).length = 3 := by
  refine ⟨fun _ _ => decode?_eq_some, fun bytes h => ?_, decode?_encode, encode_append, by decide,
    fun _ => encode_supplementary⟩
  have hnone := decode?_eq_none h
  exact ⟨hnone, readText_eq_error hnone⟩

/-- A raw zero, a lone continuation, a form of four bytes, a form that is cut short, half of a pair. -/
example : [[0x00], [0x80], [0xF0, 0x9F, 0x98, 0x80], [0xE0, 0xA0], [0xED, 0xA0, 0x80]].map decode? =
    [none, none, none, none, none] := by
  decide

/-- Two forms of the letter, of one byte and of two, then NUL and a pair of surrogates. -/
def sampleForms : List Bytes :=
  [[0x41], [0xC1, 0x81], [0xC0, 0x80], [0xED, 0xA0, 0xBD], [0xED, 0xB8, 0x80]]

theorem decode?_exact_sample :
    decode? sampleForms.flatten = some "AA\x00😀" ∧
    decode? [0xED, 0xA0, 0xBD] = none ∧
    ClassFile.Constant.readText [0, 3, 0xED, 0xA0, 0xBD] = .error .badText ∧
    decode? (encode "😀") = some "😀" ∧ (encode "😀").length = 6 := by
  obtain ⟨hexact, hrefused, hencode, -, -, hpair⟩ := decode?_exact
  have hlone (s : String) : ¬Spells [0xED, 0xA0, 0xBD] s := by
    rw [← hexact, show decode? [0xED, 0xA0, 0xBD] = none by decide]
    exact nofun
  obtain ⟨hnone, hread⟩ := hrefused _ hlone
  obtain ⟨high, low, -, hwritten, hhigh, hlow⟩ := hpair '😀' (by decide)
  refine ⟨(hexact _ _).2 ⟨sampleForms, rfl, by decide⟩, hnone, hread (by decide) [], hencode _, ?_⟩
  rw [show "😀" = String.singleton '😀' from rfl, hwritten, List.length_append, hhigh, hlow]

end ApiSurface.ModifiedUtf8
