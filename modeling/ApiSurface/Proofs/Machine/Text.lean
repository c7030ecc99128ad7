import ApiSurface.Proofs.Machine.Basic
import ApiSurface.Proofs.Text.OsString

/-!
Texts as a machine holds them: as bytes in UTF-8, of which parts are taken from one position to another.

A character that takes more than one byte takes only bytes from `0x80` on, and only the first of them is
from `0xC0` on. So a byte below `0x80` is a character by itself, wherever it stands.
-/

namespace ApiSurface.Machine

/-! ## Parts of a text -/

/-- A byte that goes on with a character. -/
def isContinuation (b : UInt8) : Bool :=
  0x80 ≤ b && b < 0xC0

/-- No character is cut in front of the byte at `i`. -/
def isBoundary (bytes : Bytes) (i : Nat) : Bool :=
  i = 0 || match bytes[i]? with
    | some b => !isContinuation b
    | none => i = bytes.length

/-- The text of the bytes from one position up to another. -/
def textBetween (bytes : Bytes) (start stop : Nat) : Except Trap String := do
  let part ← slice bytes start stop
  if isBoundary bytes start && isBoundary bytes stop then
    match part.toText? with
    | some text => .ok text
    | none => .error .splitCharacter
  else
    .error .splitCharacter

/-- The bytes of some characters. -/
def bytesOf (cs : List Char) : Bytes :=
  cs.flatMap String.utf8EncodeChar

/-- A byte taken for a character. -/
def charOf (b : UInt8) : Char :=
  Char.ofNat b.toNat

/-! ## The bytes of a character -/

theorem charOf_ofNat {c : Char} (h : c.toNat < 0x80) : charOf (UInt8.ofNat c.toNat) = c := by
  rw [charOf, UInt8.toNat_ofNat_of_lt' (Nat.lt_trans h (by decide)), Char.ofNat_toNat]

theorem toNat_charOf (b : UInt8) : (charOf b).toNat = b.toNat := by
  have hlt := b.toNat_lt
  have hvalid : b.toNat.isValidChar := .inl (by omega)
  rw [charOf, Char.ofNat, dif_pos hvalid]
  rfl

/-- What is true of a character below `0x80` and of no other is true of its only byte, and of no byte of
another character. -/
theorem charOf_of_mem {c : Char} {b : UInt8} (h : b ∈ String.utf8EncodeChar c) :
    charOf b = c ∧ c.toNat < 0x80 ∨ 0x80 ≤ (charOf b).toNat ∧ 0x80 ≤ c.toNat := by
  rw [toNat_charOf]
  obtain ⟨hlt, hbytes⟩ | ⟨hge, first, others, hbytes, hfirst, hothers⟩ := Utf8.utf8EncodeChar_cases c
  · rw [hbytes, List.mem_singleton] at h
    exact .inl ⟨h ▸ charOf_ofNat hlt, hlt⟩
  · refine .inr ⟨?_, hge⟩
    rw [hbytes, List.mem_cons] at h
    obtain rfl | h := h
    · exact Nat.le_trans (show 0x80 ≤ 0xC0 by decide) (UInt8.le_iff_toNat_le.1 hfirst)
    · exact UInt8.le_iff_toNat_le.1 (hothers b h).1

/-! ## Boundaries -/

@[simp] theorem bytesOf_nil : bytesOf [] = [] := rfl

@[simp] theorem bytesOf_append (cs ds : List Char) : bytesOf (cs ++ ds) = bytesOf cs ++ bytesOf ds :=
  List.flatMap_append

theorem bytesOf_cons (c : Char) (cs : List Char) :
    bytesOf (c :: cs) = String.utf8EncodeChar c ++ bytesOf cs :=
  List.flatMap_cons

theorem utf8ByteSize_ofList (cs : List Char) : (String.ofList cs).utf8ByteSize = (bytesOf cs).length := by
  induction cs with
  | nil => rfl
  | cons c cs ih =>
    rw [String.ofList_cons, String.utf8ByteSize_append, String.utf8ByteSize_singleton, ih, bytesOf_cons,
      List.length_append, String.length_utf8EncodeChar]

theorem length_le_length_bytesOf (cs : List Char) : cs.length ≤ (bytesOf cs).length := by
  induction cs with
  | nil => exact Nat.le_refl _
  | cons c cs ih =>
    have := c.utf8Size_pos
    rw [bytesOf_cons, List.length_append, String.length_utf8EncodeChar, List.length_cons]
    omega

/-- The first byte of a character in front of other ones. -/
theorem head?_bytesOf (c : Char) (cs : List Char) : ∃ b, (bytesOf (c :: cs)).head? = some b ∧
    b ∈ String.utf8EncodeChar c ∧ isContinuation b = false := by
  rw [bytesOf_cons]
  obtain ⟨hlt, hbytes⟩ | ⟨-, first, others, hbytes, hfirst, -⟩ := Utf8.utf8EncodeChar_cases c
  · refine ⟨_, by rw [hbytes]; rfl, by rw [hbytes]; exact List.mem_singleton_self _, ?_⟩
    have hbyte : (UInt8.ofNat c.toNat).toNat = c.toNat :=
      UInt8.toNat_ofNat_of_lt' (Nat.lt_trans hlt (by decide))
    rw [isContinuation, Bool.and_eq_false_iff, decide_eq_false_iff_not, UInt8.le_iff_toNat_le, hbyte]
    exact .inl (Nat.not_le_of_lt hlt)
  · refine ⟨first, by rw [hbytes]; rfl, by rw [hbytes]; exact List.mem_cons_self, ?_⟩
    rw [isContinuation, Bool.and_eq_false_iff, decide_eq_false_iff_not, decide_eq_false_iff_not,
      UInt8.not_lt]
    exact .inr hfirst

theorem isBoundary_bytesOf (front rest : List Char) :
    isBoundary (bytesOf (front ++ rest)) (bytesOf front).length = true := by
  rw [isBoundary, Bool.or_eq_true]
  refine .inr ?_
  rw [bytesOf_append, List.getElem?_append_right (Nat.le_refl _), Nat.sub_self]
  cases rest with
  | nil => simp
  | cons c rest =>
    obtain ⟨b, hhead, -, hfirst⟩ := head?_bytesOf c rest
    rw [List.head?_eq_getElem?] at hhead
    simp [hhead, hfirst]

theorem toText?_bytesOf (cs : List Char) : (bytesOf cs).toText? = some (String.ofList cs) := by
  have hbytes : Bytes.toByteArray (bytesOf cs) = (String.ofList cs).toByteArray := by
    rw [String.toByteArray_ofList, List.utf8Encode]
    exact ByteArray.ext List.data_toByteArray.symm
  rw [Bytes.toText?, hbytes, String.fromUTF8?, dif_pos (String.ofList cs).isValidUTF8]
  rfl

/-- **What lies between two characters is cut out without cutting a character.** -/
theorem textBetween_bytesOf (front part rest : List Char) :
    textBetween (bytesOf (front ++ part ++ rest)) (bytesOf front).length (bytesOf (front ++ part)).length =
      .ok (String.ofList part) := by
  have hstart := isBoundary_bytesOf front (part ++ rest)
  rw [← List.append_assoc] at hstart
  have hpart : slice (bytesOf (front ++ part ++ rest)) (bytesOf front).length (bytesOf (front ++ part)).length =
      .ok (bytesOf part) := by
    rw [slice_eq_ok (by simp) (by simp)]
    simp
  rw [textBetween, hpart]
  show (if isBoundary _ _ && isBoundary _ _ then _ else _) = _
  rw [hstart, isBoundary_bytesOf (front ++ part) rest, Bool.and_self, if_pos rfl, toText?_bytesOf]

/-- The first character takes two bytes. -/
example : textBetween (bytesOf ['ß', ';']) 1 2 = .error .splitCharacter := rfl

end ApiSurface.Machine
