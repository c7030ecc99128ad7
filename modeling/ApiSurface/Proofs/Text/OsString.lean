import ApiSurface.Proofs.Text.Separated
import ApiSurface.Text.OsString

/-!
Texts of the system that are texts.

A text that is written in UTF-8 is got back from its bytes, and it is shown as it is. Nothing else is read
as a text. A byte below `0x80` is a character by itself, so where a text has such a character its bytes have
that byte, and where it is cut at them they are.
-/

namespace ApiSurface

/-! ## Texts as bytes -/

theorem Bytes.toByteArray_ofText (s : String) : (ofText s).toByteArray = s.toByteArray := by
  rw [← String.utf8Encode_toList, List.utf8Encode]
  exact ByteArray.ext List.data_toByteArray.symm

/-- A text is what is read from its bytes, and nothing else has them. -/
theorem Bytes.toText?_eq_some_iff {bs : Bytes} {s : String} : bs.toText? = some s ↔ bs = ofText s := by
  rw [toText?, String.fromUTF8?]
  constructor
  · intro h
    split at h
    · obtain rfl := Option.some.inj h
      have hbytes : (ofText (String.fromUTF8 bs.toByteArray ‹_›)).toByteArray = bs.toByteArray :=
        toByteArray_ofText _
      simpa using (congrArg ofByteArray hbytes).symm
    · cases h
  · rintro rfl
    rw [toByteArray_ofText, dif_pos s.isValidUTF8]
    rfl

@[simp] theorem Bytes.toText?_ofText (s : String) : (ofText s).toText? = some s :=
  toText?_eq_some_iff.2 rfl

/-! ## The bytes of a character -/

namespace Utf8

/-- One byte, or several with a first one that shows that it is the first. -/
theorem utf8EncodeChar_cases (c : Char) :
    (c.toNat < 0x80 ∧ String.utf8EncodeChar c = [UInt8.ofNat c.toNat]) ∨
      (0x80 ≤ c.toNat ∧ ∃ b bs, String.utf8EncodeChar c = b :: bs ∧ 0xC0 ≤ b ∧
        ∀ d ∈ bs, 0x80 ≤ d ∧ d < 0xC0) := by
  have hfirst (n : Nat) (h : 0xC0 ≤ n) (hlt : n < 256) : 0xC0 ≤ UInt8.ofNat n := by
    rw [UInt8.le_iff_toNat_le, UInt8.toNat_ofNat_of_lt' hlt]
    exact h
  have hcontinues (n : Nat) :
      0x80 ≤ UInt8.ofNat (n % 64 + 128) ∧ UInt8.ofNat (n % 64 + 128) < 0xC0 := by
    rw [UInt8.le_iff_toNat_le, UInt8.lt_iff_toNat_lt,
      UInt8.toNat_ofNat_of_lt' (show n % 64 + 128 < UInt8.size by simp only [UInt8.size]; omega)]
    exact ⟨show 128 ≤ n % 64 + 128 by omega, show n % 64 + 128 < 192 by omega⟩
  rw [String.utf8EncodeChar, show c.val.toNat = c.toNat from rfl]
  split
  · next h => exact .inl ⟨Nat.lt_succ_of_le h, rfl⟩
  next h1 =>
  refine .inr ⟨Nat.lt_of_not_le h1, ?_⟩
  split
  · refine ⟨_, _, rfl, hfirst _ (by omega) (by omega), ?_⟩
    simp only [List.forall_mem_cons]
    exact ⟨hcontinues _, by simp⟩
  split
  · refine ⟨_, _, rfl, hfirst _ (by omega) (by omega), ?_⟩
    simp only [List.forall_mem_cons]
    exact ⟨hcontinues _, hcontinues _, by simp⟩
  · refine ⟨_, _, rfl, hfirst _ (by omega) (by omega), ?_⟩
    simp only [List.forall_mem_cons]
    exact ⟨hcontinues _, hcontinues _, hcontinues _, by simp⟩

/-- A byte below `0x80` is a character by itself. -/
theorem mem_utf8EncodeChar_iff {c : Char} {b : UInt8} (hb : b.toNat < 0x80) :
    b ∈ String.utf8EncodeChar c ↔ c.toNat = b.toNat := by
  obtain ⟨hlt, hbytes⟩ | ⟨hge, first, others, hbytes, hfirst, hothers⟩ := utf8EncodeChar_cases c
  · have hbyte : (UInt8.ofNat c.toNat).toNat = c.toNat :=
      UInt8.toNat_ofNat_of_lt' (Nat.lt_trans hlt (by decide))
    rw [hbytes, List.mem_singleton, ← UInt8.toNat_inj, hbyte, eq_comm]
  · have hfirst : 0xC0 ≤ first.toNat := UInt8.le_iff_toNat_le.1 hfirst
    refine iff_of_false (fun hmem => ?_) (by omega)
    obtain rfl | hmem := List.mem_cons.1 (hbytes ▸ hmem)
    · omega
    · have : 0x80 ≤ b.toNat := UInt8.le_iff_toNat_le.1 (hothers b hmem).1
      omega

theorem flatMap_intercalate {α β : Type} (f : α → List β) (separator : List α) (parts : List (List α)) :
    (separator.intercalate parts).flatMap f =
      (separator.flatMap f).intercalate (parts.map (·.flatMap f)) := by
  induction parts with
  | nil => rfl
  | cons part rest ih =>
    cases rest with
    | nil => simp
    | cons next rest =>
      rw [List.intercalate_cons_cons, List.flatMap_append, List.flatMap_append, ih]
      simp only [List.map_cons, List.intercalate_cons_cons]

/-- The bytes of a text are cut at a byte below `0x80` where the text is cut at that character. -/
theorem splitOn_flatMap {c : Char} (hc : c.toNat < 0x80) (cs : List Char) :
    (cs.flatMap String.utf8EncodeChar).splitOn (UInt8.ofNat c.toNat) =
      (cs.splitOn c).map (·.flatMap String.utf8EncodeChar) := by
  have hbyte : (UInt8.ofNat c.toNat).toNat = c.toNat :=
    UInt8.toNat_ofNat_of_lt' (Nat.lt_trans hc (by decide))
  have hself : String.utf8EncodeChar c = [UInt8.ofNat c.toNat] := by
    obtain ⟨-, h⟩ | ⟨hge, -⟩ := utf8EncodeChar_cases c
    · exact h
    · omega
  have hjoined : [c].intercalate (cs.splitOn c) = cs := List.intercalate_splitOn c
  have hcs := congrArg (·.flatMap String.utf8EncodeChar) hjoined
  simp only [flatMap_intercalate, List.flatMap_singleton, hself] at hcs
  rw [← hcs]
  refine List.splitOn_intercalate _ (fun part hpart hmem => ?_) (by simp)
  obtain ⟨own, hown, rfl⟩ := List.mem_map.1 hpart
  obtain ⟨d, hd, hbytes⟩ := List.mem_flatMap.1 hmem
  rw [mem_utf8EncodeChar_iff (by omega), hbyte] at hbytes
  obtain rfl : d = c := Char.toNat_inj.1 hbytes
  exact notMem_of_mem_splitOn hown hd

end Utf8

/-! ## Reading what may be no text -/

namespace Utf8

theorem tailLength?_eq {b : UInt8} : tailLength? b =
    if b.toNat < 0x80 then some 0
    else if 0xC2 ≤ b.toNat ∧ b.toNat ≤ 0xDF then some 1
    else if 0xE0 ≤ b.toNat ∧ b.toNat ≤ 0xEF then some 2
    else if 0xF0 ≤ b.toNat ∧ b.toNat ≤ 0xF4 then some 3
    else none := by
  simp only [tailLength?, UInt8.lt_iff_toNat_lt, UInt8.le_iff_toNat_le, UInt8.reduceToNat, Bool.and_eq_true,
    decide_eq_true_eq]

theorem isSecond_iff {b c : UInt8} : isSecond b c = true ↔ 0x80 ≤ c.toNat ∧ c.toNat ≤ 0xBF ∧
    (b.toNat = 0xE0 → 0xA0 ≤ c.toNat) ∧ (b.toNat = 0xED → c.toNat ≤ 0x9F) ∧
    (b.toNat = 0xF0 → 0x90 ≤ c.toNat) ∧ (b.toNat = 0xF4 → c.toNat ≤ 0x8F) := by
  simp only [isSecond, isContinuation, UInt8.le_iff_toNat_le, ← UInt8.toNat_inj, UInt8.reduceToNat]
  repeat' split
  all_goals
    simp only [Bool.and_eq_true, decide_eq_true_eq]
    omega

theorem isContinuation_low (n : Nat) : isContinuation (UInt8.ofNat (n % 64 + 128)) = true := by
  have hbyte : (UInt8.ofNat (n % 64 + 128)).toNat = n % 64 + 128 :=
    UInt8.toNat_ofNat_of_lt' (show n % 64 + 128 < 256 by omega)
  simp only [isContinuation, UInt8.le_iff_toNat_le, hbyte, UInt8.reduceToNat, Bool.and_eq_true,
    decide_eq_true_eq]
  omega

theorem tailOf_append {b c : UInt8} {tail : Bytes} (hsecond : isSecond b c = true)
    (hothers : ∀ d ∈ tail, isContinuation d = true) (rest : Bytes) :
    tailOf b (tail.length + 1) (c :: tail ++ rest) = c :: tail := by
  have htake : tail.takeWhile isContinuation = tail := by
    simpa using @List.takeWhile_append_of_pos _ _ tail [] hothers
  rw [List.cons_append, tailOf, hsecond]
  simp [htake]

theorem decodeFrom_append {tail rest : Bytes} : decodeFrom tail.length (tail ++ rest) = decodeFrom 0 rest := by
  induction tail with
  | nil => rfl
  | cons b tail ih => exact ih

/-- A first byte with a tail that belongs to it is a character. -/
theorem decodeFrom_cons {b : UInt8} {tail rest : Bytes} (hlead : tailLength? b = some tail.length)
    (htail : tailOf b tail.length (tail ++ rest) = tail) :
    decodeFrom 0 (b :: tail ++ rest) = charOf b tail :: decodeFrom 0 rest := by
  rw [List.cons_append, decodeFrom, hlead]
  simp only [htail, if_pos, decodeFrom_append]

/-- The bytes of a character are read as that character. -/
theorem decodeFrom_utf8EncodeChar (c : Char) (rest : Bytes) :
    decodeFrom 0 (String.utf8EncodeChar c ++ rest) = c :: decodeFrom 0 rest := by
  have hvalid : c.toNat < 0xD800 ∨ 0xDFFF < c.toNat ∧ c.toNat < 0x110000 := c.valid
  have hchar : ∀ {m : Nat}, m = c.toNat → Char.ofNat m = c := by
    rintro m rfl
    exact c.ofNat_toNat
  have hbyte : ∀ {m : Nat}, m < 256 → (UInt8.ofNat m).toNat = m := UInt8.toNat_ofNat_of_lt'
  have hlow (m : Nat) : (UInt8.ofNat (m % 64 + 128)).toNat = m % 64 + 128 := hbyte (by omega)
  rw [String.utf8EncodeChar, show c.val.toNat = c.toNat from rfl]
  generalize c.toNat = n at hvalid hchar
  split
  · have hlead : (UInt8.ofNat n).toNat = n := hbyte (by omega)
    rw [decodeFrom_cons]
    · rw [charOf, hchar]
      simp only [List.length_nil, List.foldl_nil, hlead]
    · rw [tailLength?_eq, hlead, if_pos (by omega)]
      rfl
    · cases rest <;> rfl
  split
  · have hlead : (UInt8.ofNat (n / 64 % 32 + 192)).toNat = n / 64 + 192 := by rw [hbyte] <;> omega
    rw [decodeFrom_cons]
    · rw [charOf, hchar]
      simp only [List.length_cons, List.length_nil, List.foldl_cons, List.foldl_nil, hlead, hlow]
      omega
    · rw [tailLength?_eq, hlead, if_neg (by omega), if_pos (by omega)]
      rfl
    · refine tailOf_append ?_ (List.forall_mem_nil _) rest
      rw [isSecond_iff, hlead, hlow]
      omega
  split
  · have hlead : (UInt8.ofNat (n / 4096 % 16 + 224)).toNat = n / 4096 + 224 := by rw [hbyte] <;> omega
    rw [decodeFrom_cons]
    · rw [charOf, hchar]
      simp only [List.length_cons, List.length_nil, List.foldl_cons, List.foldl_nil, hlead, hlow]
      omega
    · rw [tailLength?_eq, hlead, if_neg (by omega), if_neg (by omega), if_pos (by omega)]
      rfl
    · refine tailOf_append ?_ (List.forall_mem_singleton.2 (isContinuation_low _)) rest
      rw [isSecond_iff, hlead, hlow]
      omega
  · have hlead : (UInt8.ofNat (n / 262144 % 8 + 240)).toNat = n / 262144 + 240 := by rw [hbyte] <;> omega
    rw [decodeFrom_cons]
    · rw [charOf, hchar]
      simp only [List.length_cons, List.length_nil, List.foldl_cons, List.foldl_nil, hlead, hlow]
      omega
    · rw [tailLength?_eq, hlead, if_neg (by omega), if_neg (by omega), if_neg (by omega), if_pos (by omega)]
      rfl
    · refine tailOf_append ?_ (List.forall_mem_cons.2 ⟨isContinuation_low _,
        List.forall_mem_singleton.2 (isContinuation_low _)⟩) rest
      rw [isSecond_iff, hlead, hlow]
      omega

@[simp] theorem decode_ofText (s : String) : decode (Bytes.ofText s) = s := by
  have hall : ∀ cs : List Char, decodeFrom 0 (cs.flatMap String.utf8EncodeChar) = cs := by
    intro cs
    induction cs with
    | nil => rfl
    | cons c cs ih => rw [List.flatMap_cons, decodeFrom_utf8EncodeChar, ih]
  rw [decode, Bytes.ofText, hall, String.ofList_toList]

/-- If bytes belong to a character that starts with `b`, the first of them can be second. -/
theorem isSecond_of_tailOf {b c : UInt8} {n : Nat} {rest more : Bytes} (h : tailOf b n rest = c :: more) :
    isSecond b c = true := by
  cases rest with
  | nil => cases h
  | cons d others =>
    rw [tailOf] at h
    split at h
    · next hsecond =>
      rw [← (List.cons.inj h).1]
      exact (Bool.and_eq_true_iff.1 hsecond).2
    · cases h

theorem lt_of_tailLength?_zero {b : UInt8} (h : tailLength? b = some 0) : b.toNat < 0x80 := by
  by_contra hb
  rw [tailLength?_eq, if_neg hb] at h
  split_ifs at h <;> cases h

theorem toNat_charOf_nil {b : UInt8} (h : b.toNat < 0x80) : (charOf b []).toNat = b.toNat := by
  rw [charOf, List.foldl_nil, Char.ofNat, dif_pos (.inl (Nat.lt_trans h (by decide)))]
  rfl

/-- A character of more than one byte is none of those that are bytes by themselves. -/
theorem le_toNat_charOf_cons {b c : UInt8} {more : Bytes} (hlead : tailLength? b = some (more.length + 1))
    (hsecond : isSecond b c = true) : 0x80 ≤ (charOf b (c :: more)).toNat := by
  obtain ⟨hlow, hhigh, hE0, hED, hF0, hF4⟩ := isSecond_iff.1 hsecond
  have hchar : ∀ {n : Nat}, 0x80 ≤ n ∧ (n < 0xD800 ∨ 0xDFFF < n ∧ n < 0x110000) →
      0x80 ≤ (Char.ofNat n).toNat := by
    rintro n ⟨hn, hvalid⟩
    rw [Char.ofNat, dif_pos hvalid]
    exact hn
  rw [tailLength?_eq] at hlead
  refine hchar ?_
  split_ifs at hlead with h0 h1 h2 h3
  · cases hlead
  · obtain rfl := List.length_eq_zero_iff.1 (Nat.succ.inj (Option.some.inj hlead)).symm
    simp only [List.length_cons, List.length_nil, List.foldl_cons, List.foldl_nil]
    omega
  · obtain ⟨d, rfl⟩ := List.length_eq_one_iff.1 (Nat.succ.inj (Option.some.inj hlead)).symm
    simp only [List.length_cons, List.length_nil, List.foldl_cons, List.foldl_nil]
    omega
  · obtain ⟨d, e, rfl⟩ := List.length_eq_two.1 (Nat.succ.inj (Option.some.inj hlead)).symm
    simp only [List.length_cons, List.length_nil, List.foldl_cons, List.foldl_nil]
    omega

/-- Of the characters that are bytes by themselves, only those are read whose bytes are there. -/
theorem mem_of_mem_decodeFrom {c : Char} (hc : c.toNat < 0x80) {skip : Nat} {bs : Bytes}
    (h : c ∈ decodeFrom skip bs) : UInt8.ofNat c.toNat ∈ bs := by
  induction skip, bs using decodeFrom.induct with
  | case1 skip => cases h
  | case2 skip b rest ih => exact List.mem_cons_of_mem b (ih h)
  | case3 b rest hlead ih =>
    rw [decodeFrom, hlead] at h
    obtain rfl | h := List.mem_cons.1 h
    · exact absurd hc (by decide)
    · exact List.mem_cons_of_mem b (ih h)
  | case4 b rest n hlead tail ih =>
    rw [decodeFrom, hlead] at h
    obtain rfl | h := List.mem_cons.1 h
    · by_cases hlength : (tailOf b n rest).length = n
      · rw [if_pos hlength] at hc ⊢
        cases htail : tailOf b n rest with
        | nil =>
          rw [htail] at hlength
          rw [← hlength] at hlead
          rw [toNat_charOf_nil (lt_of_tailLength?_zero hlead), UInt8.ofNat_toNat]
          exact List.mem_cons_self
        | cons d more =>
          rw [htail] at hlength hc
          rw [← hlength] at hlead
          exact absurd (le_toNat_charOf_cons hlead (isSecond_of_tailOf htail)) (Nat.not_le.2 hc)
      · rw [if_neg hlength] at hc
        exact absurd hc (by decide)
    · exact List.mem_cons_of_mem b (ih h)

theorem mem_of_mem_decode {c : Char} (hc : c.toNat < 0x80) {bs : Bytes} (h : c ∈ (decode bs).toList) :
    UInt8.ofNat c.toNat ∈ bs := by
  rw [decode, String.toList_ofList] at h
  exact mem_of_mem_decodeFrom hc h

end Utf8

/-! ## Texts of the system -/

namespace OsString

variable {s t : OsString}

@[simp] theorem toList_ofList (bs : Bytes) : (ofList bs).toList = bs := rfl

@[simp] theorem ofList_toList (s : OsString) : ofList s.toList = s := rfl

@[simp] theorem toList_empty : ("" : OsString).toList = [] := rfl

@[simp] theorem ofList_nil : ofList [] = "" := rfl

theorem toList_injective : Function.Injective toList :=
  fun _ _ h => congrArg ofList h

theorem toList_inj : s.toList = t.toList ↔ s = t :=
  toList_injective.eq_iff

@[simp] theorem toList_eq_nil_iff : s.toList = [] ↔ s = "" :=
  toList_inj (t := "")

theorem length_toList (s : OsString) : s.toList.length = s.length := rfl

@[simp] theorem toList_append (s t : OsString) : (s ++ t).toList = s.toList ++ t.toList := rfl

theorem ofList_append (bs more : Bytes) : ofList (bs ++ more) = ofList bs ++ ofList more := rfl

@[simp] theorem length_append (s t : OsString) : (s ++ t).length = s.length + t.length :=
  List.length_append

theorem append_assoc (s t u : OsString) : s ++ t ++ u = s ++ (t ++ u) :=
  toList_injective (List.append_assoc ..)

@[simp] theorem empty_append (s : OsString) : ("" : OsString) ++ s = s := rfl

@[simp] theorem append_empty (s : OsString) : s ++ ("" : OsString) = s :=
  toList_injective (List.append_nil _)

theorem toList_intercalate (separator : OsString) (parts : List OsString) :
    (intercalate separator parts).toList = separator.toList.intercalate (parts.map toList) := rfl

@[simp] theorem intercalate_nil (separator : OsString) : intercalate separator [] = "" := rfl

@[simp] theorem intercalate_singleton (separator part : OsString) : intercalate separator [part] = part := by
  rw [intercalate, List.map_singleton, List.intercalate_singleton, ofList_toList]

theorem intercalate_cons_cons (separator first second : OsString) (rest : List OsString) :
    intercalate separator (first :: second :: rest) =
      first ++ separator ++ intercalate separator (second :: rest) :=
  toList_injective List.intercalate_cons_cons

/-! ### Texts that are texts -/

theorem toList_ofText (s : String) : (ofText s).toList = Bytes.ofText s := rfl

@[simp] theorem toList_slash : ("/" : OsString).toList = [slash] := rfl

/-- Of characters that are bytes by themselves, a text has those whose bytes it has. -/
theorem mem_toList_ofText_iff {s : String} {c : Char} (hc : c.toNat < 0x80) :
    UInt8.ofNat c.toNat ∈ (ofText s).toList ↔ c ∈ s.toList := by
  have hbyte : (UInt8.ofNat c.toNat).toNat = c.toNat :=
    UInt8.toNat_ofNat_of_lt' (Nat.lt_trans hc (by decide))
  have hmem (d : Char) : UInt8.ofNat c.toNat ∈ String.utf8EncodeChar d ↔ d = c := by
    rw [Utf8.mem_utf8EncodeChar_iff (by omega), hbyte, Char.toNat_inj]
  rw [toList_ofText, Bytes.ofText, List.mem_flatMap]
  simp only [hmem, exists_eq_right]

@[simp] theorem slash_mem_ofText_iff {s : String} : slash ∈ (ofText s).toList ↔ '/' ∈ s.toList :=
  mem_toList_ofText_iff (c := '/') (by decide)

theorem nul_mem_ofText_iff {s : String} : nul ∈ (ofText s).toList ↔ '\x00' ∈ s.toList :=
  mem_toList_ofText_iff (c := '\x00') (by decide)

/-- A text begins with a slash if its bytes do. -/
theorem head?_ofText_eq_slash {s : String} (h : (ofText s).toList.head? = some slash) :
    s.toList.head? = some '/' := by
  rw [toList_ofText, Bytes.ofText] at h
  cases hchars : s.toList with
  | nil =>
    rw [hchars] at h
    cases h
  | cons c rest =>
    rw [hchars, List.flatMap_cons, List.head?_append_of_ne_nil _ String.utf8EncodeChar_ne_nil] at h
    have hc := (Utf8.mem_utf8EncodeChar_iff (by decide)).1 (List.mem_of_mem_head? h)
    exact congrArg some (Char.toNat_inj.1 hc)

theorem splitOn_slash_ofText (s : String) : ((ofText s).toList.splitOn slash).map ofList =
    (s.toList.splitOn '/').map fun part => ofText (String.ofList part) := by
  have hsplit : (ofText s).toList.splitOn slash = _ := Utf8.splitOn_flatMap (c := '/') (by decide) s.toList
  rw [hsplit, List.map_map]
  congr 1
  funext part
  simp [ofText, Bytes.ofText]

theorem ofText_append (s t : String) : ofText (s ++ t) = ofText s ++ ofText t :=
  toList_injective (Bytes.ofText_append s t)

theorem isSuffix_ofText {s ending : String} (h : ending.toList <:+ s.toList) :
    (ofText ending).toList <:+ (ofText s).toList := by
  obtain ⟨front, hfront⟩ := h
  refine ⟨front.flatMap String.utf8EncodeChar, ?_⟩
  rw [toList_ofText, toList_ofText, Bytes.ofText, Bytes.ofText, ← List.flatMap_append, hfront]

/-- What is shown has a slash only where one is. -/
theorem slash_mem_of_shown (h : '/' ∈ s.shown.toList) : slash ∈ s.toList :=
  Utf8.mem_of_mem_decode (c := '/') (by decide) h

@[simp] theorem shown_ofText (s : String) : (ofText s).shown = s :=
  Utf8.decode_ofText s

theorem text?_eq_some_iff {s : OsString} {text : String} : s.text? = some text ↔ s = ofText text := by
  rw [text?, Bytes.toText?_eq_some_iff, ofText]
  exact ⟨fun h => by rw [← h], fun h => by rw [h]⟩

@[simp] theorem text?_ofText (s : String) : (ofText s).text? = some s :=
  text?_eq_some_iff.2 rfl

theorem ofText_intercalate (separator : String) (texts : List String) :
    ofText (separator.intercalate texts) = intercalate separator (texts.map ofText) := by
  apply toList_injective
  rw [toList_intercalate, toList_ofText, Bytes.ofText, String.toList_intercalate, Utf8.flatMap_intercalate,
    List.map_map, List.map_map]
  rfl

theorem exists_texts {names : List OsString} (h : ∀ name ∈ names, name.text?.isSome) :
    ∃ texts : List String, names = texts.map ofText := by
  induction names with
  | nil => exact ⟨[], rfl⟩
  | cons name rest ih =>
    obtain ⟨hname, hrest⟩ := List.forall_mem_cons.1 h
    obtain ⟨text, htext⟩ := Option.isSome_iff_exists.1 hname
    obtain ⟨texts, rfl⟩ := ih hrest
    obtain rfl := text?_eq_some_iff.1 htext
    exact ⟨text :: texts, rfl⟩

@[simp] theorem mapM_text?_map_ofText (texts : List String) : (texts.map ofText).mapM text? = some texts := by
  induction texts with
  | nil => rfl
  | cons text rest ih => simp [ih]

theorem mapM_text?_eq_some_iff {names : List OsString} {texts : List String} :
    names.mapM text? = some texts ↔ names = texts.map ofText := by
  refine ⟨fun h => ?_, fun h => h ▸ mapM_text?_map_ofText texts⟩
  induction names generalizing texts with
  | nil => exact (Option.some.inj h) ▸ rfl
  | cons name rest ih =>
    rw [List.mapM_cons] at h
    obtain ⟨text, htext, h⟩ := Option.bind_eq_some_iff.1 h
    obtain ⟨others, hothers, h⟩ := Option.bind_eq_some_iff.1 h
    rw [← Option.some.inj h, List.map_cons, ← ih hothers, ← text?_eq_some_iff.1 htext]

/-- Different texts are different for the system, too. -/
theorem ofText_injective : Function.Injective ofText := by
  intro s t h
  rw [← shown_ofText s, h, shown_ofText]

@[simp] theorem ofText_inj {s t : String} : ofText s = ofText t ↔ s = t :=
  ofText_injective.eq_iff

/-- A byte that begins no character. -/
example : (ofList [0x61, 0xE9]).text? = none ∧ (ofList [0x61, 0xE9]).shown = "a\ufffd" := by
  decide +kernel

end OsString

end ApiSurface
