import ApiSurface.Proofs.ClassFile.Layout
import ApiSurface.Proofs.Reading
import ApiSurface.Proofs.Text.ModifiedUtf8
import Mathlib.Data.List.Induction

/-!
Decoding a class file undoes laying it out.

Each reader is shown to read what the matching relation of `Layout` allows, with anything behind it.
The constant pool comes first: the table that is read has, at every index, the constant that the
layout has there (`Pool.HasAt.entry`). The parts of the class follow the order of the format.
-/

namespace ApiSurface.ClassFile

open Reading

/-! ## Numbers and bytes -/

theorem read_word {n : Nat} (h : n < UInt16.size) (rest : Bytes) :
    Reader.word (word n ++ rest) = .ok (UInt16.ofNat n, rest) := by
  have hhigh : (UInt8.ofNat (n / 256)).toNat = n / 256 :=
    UInt8.toNat_ofNat_of_lt' (by simp only [UInt16.size, UInt8.size] at *; omega)
  have hlow : (UInt8.ofNat n).toNat = n % 256 := by simp
  simp only [word, Bytes.ofNatBigEndian, List.nil_append, List.cons_append, Reader.word, hhigh, hlow]
  rw [show n / 256 * 256 + n % 256 = n by omega]

theorem read_word_toNat (v : UInt16) (rest : Bytes) :
    Reader.word (word v.toNat ++ rest) = .ok (v, rest) := by
  rw [read_word v.toNat_lt_size, UInt16.ofNat_toNat]

theorem read_bytes (bs rest : Bytes) : Reader.bytes bs.length (bs ++ rest) = .ok (bs, rest) := by
  simp [Reader.bytes]

theorem read_long {n : Nat} (h : n < UInt32.size) (rest : Bytes) :
    Reader.long (long n ++ rest) = .ok (n, rest) := by
  have hfour : Reader.bytes 4 (long n ++ rest) = .ok (long n, rest) := by
    have hread := read_bytes (long n) rest
    rwa [long, Bytes.length_ofNatBigEndian] at hread
  rw [Reader.long, bind_of_ok hfour, long, Bytes.bigEndian_ofNatBigEndian (by simpa [Bytes.limit] using h)]
  rfl

/-! ## Lists -/

section
variable {α : Type} {item : Reader α} {written : α → Bytes → Prop}

theorem read_timesAfter (hitem : Reads item written) {values : List α} {parts : List Bytes}
    (h : List.Forall₂ written values parts) (done : List α) (rest : Bytes) :
    Reader.timesAfter item done values.length (parts.flatten ++ rest)
      = .ok (done.reverse ++ values, rest) := by
  induction h generalizing done with
  | nil => simp [Reader.timesAfter]
  | cons ha _ ih =>
    rw [List.flatten_cons, List.append_assoc, List.length_cons, Reader.timesAfter]
    dsimp only
    rw [hitem ha]
    dsimp only
    rw [ih, List.reverse_cons, List.append_assoc, List.singleton_append]

/-- A counted list is read when those items are read that are in it. -/
theorem Counted.read {values : List α} {bs : Bytes} (h : Counted written values bs)
    (hitem : Reads item fun a part => a ∈ values ∧ written a part) (rest : Bytes) :
    Reader.counted item (bs ++ rest) = .ok (values, rest) := by
  obtain ⟨hlen, hparts⟩ := h
  have hmem := (List.forall₂_and_left _ _).2 ⟨fun a (ha : a ∈ values) => ha, hparts⟩
  rw [List.append_assoc, Reader.counted, bind_of_ok (read_word hlen _),
    UInt16.toNat_ofNat_of_lt' hlen]
  exact read_timesAfter hitem hmem [] rest

theorem reads_counted (hitem : Reads item written) :
    Reads (Reader.counted item) (Counted written) :=
  fun _ _ h rest => h.read (fun _ _ ha => hitem ha.2) rest

end

/-! ## The constant pool -/

namespace PoolEntry

/-- What a reader makes of a constant. -/
def constant : PoolEntry → Constant
  | .text value => .text value
  | .classRef nameIndex => .classRef nameIndex
  | .wide .. => .wide
  | .plain .. => .other

theorem length_slots (e : PoolEntry) : e.constant.slots.length = e.slotCount := by
  cases e <;> rfl

theorem skippedLength?_of_plainKinds {kind : UInt8 × Nat} (h : kind ∈ plainKinds) :
    Constant.skippedLength? kind.1 = some kind.2 ∧ kind.1 ∉ [1, 5, 6, 7] := by
  revert kind
  decide

theorem read_written {e : PoolEntry} (h : e.Valid) (rest : Bytes) :
    Constant.read (e.written ++ rest) = .ok (e.constant, rest) := by
  have hbyte (tag : UInt8) (bs : Bytes) : Reader.byte (tag :: bs) = .ok (tag, bs) := rfl
  cases e with
  | text value =>
    rw [written, List.cons_append, List.append_assoc, Constant.read, bind_of_ok (hbyte _ _),
      if_pos rfl, Constant.readText, bind_of_ok (read_word h _), UInt16.toNat_ofNat_of_lt' h,
      bind_of_ok (read_bytes _ _)]
    simp only [ModifiedUtf8.decode?_encode]
    rfl
  | classRef nameIndex =>
    rw [written, List.cons_append, Constant.read, bind_of_ok (hbyte _ _), if_neg (by decide),
      if_pos rfl, bind_of_ok (read_word_toNat _ _)]
    rfl
  | wide tag body =>
    obtain ⟨htag, hlen⟩ := h
    have hbody := read_bytes body rest
    rw [hlen] at hbody
    rw [written, List.cons_append, Constant.read, bind_of_ok (hbyte _ _),
      if_neg (by rintro rfl; simp at htag), if_neg (by rintro rfl; simp at htag), if_pos htag,
      bind_of_ok hbody]
    rfl
  | plain tag body =>
    obtain ⟨hskip, hnot⟩ := skippedLength?_of_plainKinds h
    simp only [List.mem_cons, List.not_mem_nil, or_false, not_or] at hnot hskip
    obtain ⟨h1, h5, h6, h7⟩ := hnot
    rw [written, List.cons_append, Constant.read, bind_of_ok (hbyte _ _), if_neg h1, if_neg h7,
      if_neg (not_or.2 ⟨h5, h6⟩)]
    simp only [hskip]
    rw [bind_of_ok (read_bytes body rest)]
    rfl

end PoolEntry

namespace Pool

/-- The table that a reader makes of the constants. -/
def table (pool : Pool) : ConstantPool :=
  ⟨#[.unusable] ++ (pool.flatMap fun e => e.constant.slots).toArray⟩

theorem length_slots (pool : Pool) :
    (pool.flatMap fun e => e.constant.slots).length = pool.slotCount := by
  induction pool with
  | nil => rfl
  | cons e pool ih => rw [List.flatMap_cons, List.length_append, ih, PoolEntry.length_slots, slotCount]

theorem readAfter_written {pool : Pool} (h : ∀ e ∈ pool, e.Valid) (entries : Array Constant)
    (rest : Bytes) : ConstantPool.readAfter entries pool.slotCount (pool.written ++ rest)
      = .ok (⟨entries ++ (pool.flatMap fun e => e.constant.slots).toArray⟩, rest) := by
  induction pool generalizing entries with
  | nil =>
    rw [ConstantPool.readAfter.eq_def]
    simp [slotCount, written]
  | cons e pool ih =>
    obtain ⟨he, hpool⟩ := List.forall_mem_cons.1 h
    have hpos : slotCount (e :: pool) ≠ 0 := by
      have := e.constant.slots_length_pos
      rw [PoolEntry.length_slots] at this
      rw [slotCount]
      omega
    have hwritten : written (e :: pool) = e.written ++ written pool := rfl
    rw [ConstantPool.readAfter.eq_def, if_neg hpos, hwritten, List.append_assoc, e.read_written he]
    dsimp only
    rw [PoolEntry.length_slots, slotCount, Nat.add_sub_cancel_left, ih hpool, List.flatMap_cons]
    congr 3
    simp [← Array.toList_inj]

theorem Valid.read {pool : Pool} (h : pool.Valid) (rest : Bytes) :
    ConstantPool.read (word (pool.slotCount + 1) ++ (pool.written ++ rest))
      = .ok (pool.table, rest) := by
  rw [ConstantPool.read, bind_of_ok (read_word h.slots _), UInt16.toNat_ofNat_of_lt' h.slots,
    Nat.add_sub_cancel]
  exact readAfter_written h.entries _ rest

/-- **The table agrees with the layout on what stands at an index**, however many constants of two
indices come before it. -/
theorem HasAt.entry {pool : Pool} {i : UInt16} {e : PoolEntry} (h : pool.HasAt i e) :
    pool.table.entries[i.toNat]? = some e.constant := by
  obtain ⟨front, back, rfl, hi⟩ := h
  have hslots : e.constant.slots.head? = some e.constant := by cases e <;> rfl
  have htable : (table (front ++ e :: back)).entries.toList
      = (.unusable :: front.flatMap fun e => e.constant.slots)
        ++ (e.constant.slots ++ back.flatMap fun e => e.constant.slots) := by
    simp [table]
  rw [← Array.getElem?_toList, htable, List.getElem?_append_right (by simp [hi, ← length_slots])]
  simp only [List.length_cons, length_slots, hi, Nat.sub_self, ← List.head?_eq_getElem?,
    List.head?_append, hslots, Option.some_or]

variable {pool : Pool}

theorem HasAt.text {i : UInt16} {s : String} (h : pool.HasAt i (.text s)) :
    pool.table.text i = .ok s := by
  simp [ConstantPool.text, h.entry, PoolEntry.constant]

theorem reads_textRef : Reads pool.table.readTextRef pool.TextRef := by
  rintro s _ ⟨h⟩ rest
  rw [ConstantPool.readTextRef, bind_of_ok (read_word_toNat _ _), h.text]
  rfl

theorem className_of_hasAt {name : String} {i nameIndex : UInt16}
    (h : pool.HasAt i (.classRef nameIndex)) (hname : pool.HasAt nameIndex (.text name)) :
    pool.table.className i = .ok name := by
  simp [ConstantPool.className, h.entry, PoolEntry.constant, hname.text]

theorem reads_classRef : Reads pool.table.readClassRef pool.ClassRef := by
  rintro name _ ⟨h, hname⟩ rest
  rw [ConstantPool.readClassRef, bind_of_ok (read_word_toNat _ _), className_of_hasAt h hname]
  rfl

end Pool

/-! ## Attributes -/

namespace Attribute

variable {pool : Pool}

/-- What is read of an attribute before its meaning is asked for. -/
inductive LaidOutRaw (pool : Pool) (raw : RawAttribute) : Bytes → Prop
  | intro {name : Bytes} : pool.TextRef raw.name name → raw.body.length < UInt32.size →
      LaidOutRaw pool raw (name ++ long raw.body.length ++ raw.body)

theorem reads_raw : Reads (RawAttribute.read pool.table) (LaidOutRaw pool) := by
  rintro raw _ ⟨hname, hlen⟩ rest
  rw [List.append_assoc, List.append_assoc, RawAttribute.read, bind_of_ok (Pool.reads_textRef hname _),
    bind_of_ok (read_long hlen _), bind_of_ok (read_bytes _ _)]
  rfl

theorem length_classRefs {classes : List String} {parts : List Bytes}
    (h : List.Forall₂ pool.ClassRef classes parts) : parts.flatten.length = 2 * classes.length := by
  induction h with
  | nil => rfl
  | cons ha _ ih =>
    cases ha
    simp only [List.flatten_cons, List.length_append, word, Bytes.length_ofNatBigEndian, ih,
      List.length_cons]
    omega

/-- The body of a list of exceptions is short enough for its length to be written. -/
theorem length_exceptions_lt {classes : List String} {body : Bytes}
    (h : Counted pool.ClassRef classes body) : body.length < UInt32.size := by
  obtain ⟨hlen, hparts⟩ := h
  simp only [List.length_append, word, Bytes.length_ofNatBigEndian, length_classRefs hparts,
    UInt16.size, UInt32.size] at *
  omega

/-- An attribute is laid out as some raw one, whose meaning it is. -/
theorem LaidOut.raw {a : Attribute} {bs : Bytes} (h : LaidOut pool a bs) :
    ∃ raw, LaidOutRaw pool raw bs ∧ ofMember pool.table raw = .ok a ∧
      (a.exceptionList? = none → ofClass pool.table raw = .ok a) := by
  cases h with
  | @signature text name body hname hbody =>
    have hread := Pool.reads_textRef hbody []
    rw [List.append_nil] at hread
    have hlen : body.length = 2 := by
      cases hbody
      exact Bytes.length_ofNatBigEndian 2 _
    have hraw : LaidOutRaw pool ⟨"Signature", body⟩ (name ++ long body.length ++ body) :=
      .intro hname (by rw [hlen]; decide)
    rw [hlen] at hraw
    refine ⟨_, hraw, ?_, ?_⟩
    · simp [ofMember, Reader.front, hread, Except.map]
    · simp [ofClass, Reader.front, hread, Except.map]
  | exceptions hname hbody =>
    have hread := reads_counted Pool.reads_classRef hbody []
    rw [List.append_nil] at hread
    refine ⟨⟨"Exceptions", _⟩, .intro hname (length_exceptions_lt hbody), ?_, ?_⟩
    · simp [ofMember, Reader.front, hread, Except.map]
    · simp [exceptionList?]
  | other hname hsig hexc hlen =>
    refine ⟨⟨_, _⟩, .intro hname hlen, ?_, fun _ => ?_⟩
    · simp [ofMember, hsig, hexc]
    · simp [ofClass, hsig]

theorem read_meaning {meaning : RawAttribute → Except Error Attribute} {raw : RawAttribute}
    {a : Attribute} {bs : Bytes} (hraw : LaidOutRaw pool raw bs) (hmeaning : meaning raw = .ok a)
    (rest : Bytes) : (do meaning (← RawAttribute.read pool.table) : Reader Attribute) (bs ++ rest)
      = .ok (a, rest) := by
  rw [bind_of_ok (reads_raw hraw rest), hmeaning]
  rfl

theorem reads_memberAttributes :
    Reads (readAll pool.table (ofMember pool.table)) (Counted (LaidOut pool)) :=
  reads_counted fun _ _ h rest =>
    have ⟨_, hraw, hmeaning, _⟩ := h.raw
    read_meaning hraw hmeaning rest

/-- Attributes of a class are read in the same way, as long as none of them lists exceptions. -/
theorem read_classAttributes {meanings : List Attribute} {bs : Bytes}
    (h : Counted (LaidOut pool) meanings bs) (hnone : meanings.filterMap exceptionList? = [])
    (rest : Bytes) :
    readAll pool.table (ofClass pool.table) (bs ++ rest) = .ok (meanings, rest) := by
  refine h.read (fun a part ha rest => ?_) rest
  obtain ⟨raw, hraw, -, hmeaning⟩ := ha.2.raw
  exact read_meaning hraw (hmeaning (List.filterMap_eq_nil_iff.1 hnone a ha.1)) rest

theorem signature?_eq (attributes : List Attribute) :
    signature? attributes = (attributes.filterMap signatureText?).getLast? := by
  induction attributes using List.reverseRecOn with
  | nil => rfl
  | append_singleton front a ih =>
    rw [signature?, List.foldl_append, ← signature?, ih, List.filterMap_append, List.getLast?_append]
    cases a <;> simp [signatureText?]

theorem exceptionClasses_eq (attributes : List Attribute) :
    exceptionClasses attributes = (attributes.filterMap exceptionList?).flatten := by
  induction attributes with
  | nil => rfl
  | cons a rest ih =>
    rw [exceptionClasses, List.flatMap_cons, ← exceptionClasses, ih]
    cases a <;> simp [List.filterMap_cons, exceptionList?]

theorem signature?_of_toList {attributes : List Attribute} {signature : Option String}
    (h : attributes.filterMap signatureText? = signature.toList) :
    signature? attributes = signature := by
  rw [signature?_eq, h]
  cases signature <;> rfl

end Attribute

/-! ## Members and classes -/

theorem reads_member {pool : Pool} : Reads (readMember pool.table) (LaidOutMember pool) := by
  rintro m _ ⟨hname, hdescriptor, hattributes, hsignature, hexceptions⟩ rest
  simp only [List.append_assoc]
  rw [readMember, bind_of_ok (read_word_toNat _ _), bind_of_ok (Pool.reads_textRef hname _),
    bind_of_ok (Pool.reads_textRef hdescriptor _),
    bind_of_ok (Attribute.reads_memberAttributes hattributes _),
    Attribute.signature?_of_toList hsignature, Attribute.exceptionClasses_eq, hexceptions]
  rfl

theorem reads_superclass {pool : Pool} :
    Reads (readSuperclass pool.table) (LaidOutSuperclass pool) := by
  rintro _ _ h rest
  cases h with
  | none =>
    rw [readSuperclass, bind_of_ok (read_word (by decide) _)]
    rfl
  | some href =>
    obtain ⟨h, hname⟩ := href
    rename_i i nameIndex
    have hne : i ≠ 0 := by
      rintro rfl
      obtain ⟨_, _, -, hzero⟩ := h
      simp at hzero
    rw [readSuperclass, bind_of_ok (read_word_toNat _ _), if_neg hne,
      Pool.className_of_hasAt h hname]
    rfl

theorem read_magic (rest : Bytes) : readMagic (magicBytes ++ rest) = .ok ((), rest) := by
  have hbytes : magicBytes = long magic := by decide
  rw [hbytes, readMagic, bind_of_ok (read_long (by decide) rest)]
  rfl

/-- **Decoding undoes laying out.** Whatever the layout of a class and whatever stands behind it, the
class that was laid out is read. -/
theorem decode_of_laidOut {c : ClassFile} {bytes : Bytes} (h : LaidOut c bytes) (rest : Bytes) :
    decode (bytes ++ rest) = .ok c := by
  obtain ⟨hpool, hname, hsuperclass, hinterfaces, hfields, hmethods, hattributes, hsignature,
    hexceptions⟩ := h
  simp only [List.append_assoc]
  rw [decode, read, bind_of_ok (read_magic _), bind_of_ok (read_word_toNat _ _),
    bind_of_ok (read_word_toNat _ _), bind_of_ok (hpool.read _), bind_of_ok (read_word_toNat _ _),
    bind_of_ok (Pool.reads_classRef hname _), bind_of_ok (reads_superclass hsuperclass _),
    bind_of_ok (reads_counted Pool.reads_classRef hinterfaces _),
    bind_of_ok (reads_counted reads_member hfields _),
    bind_of_ok (reads_counted reads_member hmethods _),
    bind_of_ok (Attribute.read_classAttributes hattributes hexceptions _),
    Attribute.signature?_of_toList hsignature]
  rfl

/-- A pool whose first constant takes two indices; `A` stands in it twice. -/
def samplePool : Pool :=
  [.wide 5 [0, 0, 0, 0, 0, 0, 0, 1], .text "A", .classRef 3, .text "Signature", .text "TT;",
    .text "😀", .text "Exceptions", .text "Code", .text "A", .classRef 10, .plain 15 [6, 0, 1]]

/-- A class with one method, called by a character of two surrogates. -/
def sampleClass : ClassFile where
  minorVersion := 0
  majorVersion := 61
  access := ⟨0x21⟩
  name := "A"
  superclass := none
  interfaces := ["A"]
  signature := some "TT;"
  fields := []
  methods := [⟨⟨1⟩, "😀", "A", some "TT;", ["A", "A"]⟩]

/-- Some attribute that is not looked into, then the exceptions, then the signature. -/
def sampleBytes : Bytes :=
  [0xCA, 0xFE, 0xBA, 0xBE, 0, 0, 0, 61, 0, 13]
    ++ [5, 0, 0, 0, 0, 0, 0, 0, 1, 1, 0, 1, 65, 7, 0, 3]
    ++ [1, 0, 9, 83, 105, 103, 110, 97, 116, 117, 114, 101, 1, 0, 3, 84, 84, 59]
    ++ [1, 0, 6, 0xED, 0xA0, 0xBD, 0xED, 0xB8, 0x80]
    ++ [1, 0, 10, 69, 120, 99, 101, 112, 116, 105, 111, 110, 115, 1, 0, 4, 67, 111, 100, 101]
    ++ [1, 0, 1, 65, 7, 0, 10, 15, 6, 0, 1]
    ++ [0, 0x21, 0, 4, 0, 0, 0, 1, 0, 11, 0, 0]
    ++ [0, 1, 0, 1, 0, 7, 0, 10, 0, 3]
    ++ [0, 9, 0, 0, 0, 2, 8, 8] ++ [0, 8, 0, 0, 0, 6, 0, 2, 0, 4, 0, 11] ++ [0, 5, 0, 0, 0, 2, 0, 6]
    ++ [0, 1, 0, 5, 0, 0, 0, 2, 0, 6]

theorem laidOut_sample : LaidOut sampleClass sampleBytes := by
  have hentries : ∀ e ∈ samplePool, e.Valid := by
    simp only [samplePool, List.forall_mem_cons, List.not_mem_nil, false_imp_iff, implies_true,
      PoolEntry.Valid]
    decide +kernel
  have hpool : samplePool.Valid := ⟨hentries, by decide⟩
  have hname : samplePool.HasAt 3 (.text "A") := ⟨samplePool.take 1, _, rfl, rfl⟩
  have hagain : samplePool.HasAt 10 (.text "A") := ⟨samplePool.take 8, _, rfl, rfl⟩
  have hfirst : samplePool.HasAt 4 (.classRef 3) := ⟨samplePool.take 2, _, rfl, rfl⟩
  have hsecond : samplePool.HasAt 11 (.classRef 10) := ⟨samplePool.take 9, _, rfl, rfl⟩
  have hkey : samplePool.HasAt 5 (.text "Signature") := ⟨samplePool.take 3, _, rfl, rfl⟩
  have htype : samplePool.HasAt 6 (.text "TT;") := ⟨samplePool.take 4, _, rfl, rfl⟩
  have hmethod : samplePool.HasAt 7 (.text "😀") := ⟨samplePool.take 5, _, rfl, rfl⟩
  have hlist : samplePool.HasAt 8 (.text "Exceptions") := ⟨samplePool.take 6, _, rfl, rfl⟩
  have hcode : samplePool.HasAt 9 (.text "Code") := ⟨samplePool.take 7, _, rfl, rfl⟩
  have hsignature := Attribute.LaidOut.signature (.intro hkey) (.intro htype)
  have hexceptions := Attribute.LaidOut.exceptions (.intro hlist)
    (.intro (by decide) (.cons (.intro hfirst hname) (.cons (.intro hsecond hagain) .nil)))
  have hother := @Attribute.LaidOut.other samplePool "Code" _ [8, 8] (.intro hcode) (by decide)
    (by decide) (by decide)
  have hm := LaidOutMember.intro (m := ⟨⟨1⟩, "😀", "A", some "TT;", ["A", "A"]⟩) (.intro hmethod)
    (.intro hagain)
    (.intro (by decide) (.cons hother (.cons hexceptions (.cons hsignature .nil)))) rfl rfl
  have h := LaidOut.intro (c := sampleClass) hpool (.intro hfirst hname) .none
    (.intro (by decide) (.cons (.intro hsecond hagain) .nil)) (.intro (by decide) .nil)
    (.intro (by decide) (.cons hm .nil)) (.intro (by decide) (.cons hsignature .nil)) rfl rfl
  exact (congrArg (LaidOut sampleClass) (by decide +kernel)).mp h

theorem decode_sampleBytes : LaidOut sampleClass sampleBytes ∧
    decode (sampleBytes ++ [0xCA]) = .ok sampleClass :=
  ⟨laidOut_sample, decode_of_laidOut laidOut_sample [0xCA]⟩

end ApiSurface.ClassFile
