import ApiSurface.Proofs.ClassFile.RoundTrip

/-!
Text constants that nothing refers to.

The format lets a text constant hold any code units in any of their forms; a string literal may hold one
surrogate of a pair. The reader decodes every text constant when it comes to it. So a class is read when
all of its text constants are Unicode, and then those that nothing refers to make no difference. When one
of them is not, the class is refused, whether or not something refers to that one.
-/

namespace ApiSurface.ClassFile

open Reading

/-! ## Constants as they are stored -/

/-- A constant in the file. A text goes by its code units and by the bytes that they are written in. -/
inductive StoredEntry
  | text (units : List UInt16) (bytes : Bytes)
  | other (entry : PoolEntry)

namespace StoredEntry

def written : StoredEntry → Bytes
  | .text _ bytes => 1 :: (word bytes.length ++ bytes)
  | .other entry => entry.written

def slotCount : StoredEntry → Nat
  | .text .. => 1
  | .other entry => entry.slotCount

/-- The constant is one that the format knows. A text is a sequence of forms of code units. -/
def Valid : StoredEntry → Prop
  | .text units bytes => ModifiedUtf8.IsWritten units bytes ∧ bytes.length < UInt16.size
  | .other entry => entry.Valid ∧ ∀ s, entry ≠ .text s

/-- The code units of a text are those of characters. -/
def IsUnicode : StoredEntry → Prop
  | .text units _ => ∃ s, Utf16.encode s = units
  | .other _ => True

/-- The constant that a reader finds, where the code units are those of characters. -/
def entry : StoredEntry → PoolEntry
  | .text units _ => .text (String.ofList ((Utf16.decode? units).getD []))
  | .other entry => entry

end StoredEntry

/-- What stands in a pool for a text that nothing refers to. -/
def unusedText : PoolEntry :=
  .plain 0 []

/-- How a layout looks at a constant. Any text may be one that nothing refers to, and then it does not
matter what it holds. -/
inductive StoredEntry.Shows : StoredEntry → PoolEntry → Prop
  | text {s : String} {bytes : Bytes} : Shows (.text (Utf16.encode s.toList) bytes) (.text s)
  | unused {units : List UInt16} {bytes : Bytes} : Shows (.text units bytes) unusedText
  | other {entry : PoolEntry} : Shows (.other entry) entry

/-- The constants of a class file in the order in which they are stored. -/
abbrev StoredPool := List StoredEntry

namespace StoredPool

def written (stored : StoredPool) : Bytes :=
  stored.flatMap StoredEntry.written

def slotCount : StoredPool → Nat
  | [] => 0
  | e :: rest => e.slotCount + slotCount rest

structure Valid (stored : StoredPool) : Prop where
  entries : ∀ e ∈ stored, e.Valid
  slots : stored.slotCount + 1 < UInt16.size

/-- Every text constant is Unicode. -/
def IsUnicode (stored : StoredPool) : Prop :=
  ∀ e ∈ stored, e.IsUnicode

/-- The constants that a reader finds. -/
def pool (stored : StoredPool) : Pool :=
  stored.map StoredEntry.entry

end StoredPool

/-! ## Class files -/

/-- What stands behind the constants of a class file that says `c`. -/
inductive LaidOutBody (pool : Pool) (c : ClassFile) : Bytes → Prop
  | intro {name superclass interfaces fields methods attributes : Bytes}
      {meanings : List Attribute} :
      pool.ClassRef c.name name → LaidOutSuperclass pool c.superclass superclass →
      Counted pool.ClassRef c.interfaces interfaces →
      Counted (LaidOutMember pool) c.fields fields →
      Counted (LaidOutMember pool) c.methods methods →
      Counted (Attribute.LaidOut pool) meanings attributes →
      meanings.filterMap Attribute.signatureText? = c.signature.toList →
      meanings.filterMap Attribute.exceptionList? = [] →
      LaidOutBody pool c (word c.access.bits.toNat ++ name ++ superclass ++ interfaces ++ fields
        ++ methods ++ attributes)

/-- A class file that says `c`, with its constants and what stands behind them. -/
def fileOf (c : ClassFile) (stored : StoredPool) (body : Bytes) : Bytes :=
  magicBytes ++ word c.minorVersion.toNat ++ word c.majorVersion.toNat
    ++ word (stored.slotCount + 1) ++ stored.written ++ body

/-! ## A layout in a pool that says more -/

/-- What has an index in `pool` has it in `full`, unless it is a text that nothing refers to. -/
def Pool.IsPartOf (pool full : Pool) : Prop :=
  ∀ i e, e ≠ unusedText → pool.HasAt i e → full.HasAt i e

section
variable {pool full : Pool}

theorem Pool.TextRef.mono (h : pool.IsPartOf full) {s : String} {bytes : Bytes}
    (href : pool.TextRef s bytes) : full.TextRef s bytes := by
  obtain ⟨hs⟩ := href
  exact .intro (h _ _ (by simp [unusedText]) hs)

theorem Pool.ClassRef.mono (h : pool.IsPartOf full) {name : String} {bytes : Bytes}
    (href : pool.ClassRef name bytes) : full.ClassRef name bytes := by
  obtain ⟨hclass, hname⟩ := href
  exact .intro (h _ _ (by simp [unusedText]) hclass) (h _ _ (by simp [unusedText]) hname)

theorem Counted.mono {α : Type} {item item' : α → Bytes → Prop}
    (hitem : ∀ a bytes, item a bytes → item' a bytes) {values : List α} {bytes : Bytes}
    (h : Counted item values bytes) : Counted item' values bytes := by
  obtain ⟨hlen, hparts⟩ := h
  exact .intro hlen (hparts.imp hitem)

theorem Attribute.LaidOut.mono (h : pool.IsPartOf full) {a : Attribute} {bytes : Bytes}
    (ha : Attribute.LaidOut pool a bytes) : Attribute.LaidOut full a bytes := by
  cases ha with
  | signature hname htext => exact .signature (hname.mono h) (htext.mono h)
  | exceptions hname hclasses =>
    exact .exceptions (hname.mono h) (hclasses.mono fun _ _ hclass => hclass.mono h)
  | other hname hsignature hexceptions hlen =>
    exact .other (hname.mono h) hsignature hexceptions hlen

theorem LaidOutMember.mono (h : pool.IsPartOf full) {m : Member} {bytes : Bytes}
    (hm : LaidOutMember pool m bytes) : LaidOutMember full m bytes := by
  obtain ⟨hname, hdescriptor, hattributes, hsignature, hexceptions⟩ := hm
  exact .intro (hname.mono h) (hdescriptor.mono h) (hattributes.mono fun _ _ ha => ha.mono h)
    hsignature hexceptions

theorem LaidOutSuperclass.mono (h : pool.IsPartOf full) {superclass : Option String} {bytes : Bytes}
    (hsuperclass : LaidOutSuperclass pool superclass bytes) :
    LaidOutSuperclass full superclass bytes := by
  cases hsuperclass with
  | none => exact .none
  | some href => exact .some (href.mono h)

theorem LaidOutBody.mono (h : pool.IsPartOf full) {c : ClassFile} {bytes : Bytes}
    (hbody : LaidOutBody pool c bytes) : LaidOutBody full c bytes := by
  obtain ⟨hname, hsuperclass, hinterfaces, hfields, hmethods, hattributes, hsignature, hexceptions⟩ :=
    hbody
  exact .intro (hname.mono h) (hsuperclass.mono h) (hinterfaces.mono fun _ _ href => href.mono h)
    (hfields.mono fun _ _ hm => hm.mono h) (hmethods.mono fun _ _ hm => hm.mono h)
    (hattributes.mono fun _ _ ha => ha.mono h) hsignature hexceptions

end

/-! ## What a layout sees of the stored constants -/

namespace StoredEntry

variable {stored : StoredEntry} {shown : PoolEntry}

theorem Shows.slotCount_eq (h : stored.Shows shown) : stored.entry.slotCount = shown.slotCount := by
  cases h <;> rfl

theorem Shows.entry_eq (h : stored.Shows shown) (hused : shown ≠ unusedText) :
    stored.entry = shown := by
  cases h with
  | text => simp [entry, Utf16.decode?_encode]
  | unused => exact absurd rfl hused
  | other => rfl

end StoredEntry

namespace StoredPool

variable {stored : StoredPool} {shown : Pool}

/-- The constants that a layout refers to are found where it has them. -/
theorem isPartOf_pool (h : List.Forall₂ StoredEntry.Shows stored shown) :
    shown.IsPartOf stored.pool := by
  have hfound {e : PoolEntry} (hused : e ≠ unusedText) {front back : Pool} {stored : StoredPool}
      (h : List.Forall₂ StoredEntry.Shows stored (front ++ e :: back)) :
      ∃ front' back' : Pool, stored.pool = front' ++ e :: back' ∧
        front'.slotCount = front.slotCount := by
    induction front generalizing stored with
    | nil =>
      obtain ⟨first, rest, hfirst, -, rfl⟩ := List.forall₂_cons_right_iff.1 h
      refine ⟨[], pool rest, ?_, rfl⟩
      rw [pool, List.map_cons, hfirst.entry_eq hused]
      rfl
    | cons other front ih =>
      obtain ⟨first, rest, hfirst, hrest, rfl⟩ := List.forall₂_cons_right_iff.1 h
      obtain ⟨front', back', hpool, hslots⟩ := ih hrest
      refine ⟨first.entry :: front', back', ?_, ?_⟩
      · rw [pool, List.map_cons, ← pool, hpool]
        rfl
      · rw [Pool.slotCount, Pool.slotCount, hslots, hfirst.slotCount_eq]
  rintro i e hused ⟨front, back, rfl, hi⟩
  obtain ⟨front', back', hpool, hslots⟩ := hfound hused h
  exact ⟨front', back', hpool, by rw [hi, hslots]⟩

end StoredPool

/-! ## Reading the stored constants -/

namespace StoredEntry

theorem slotCount_entry (e : StoredEntry) : e.entry.slotCount = e.slotCount := by
  cases e <;> rfl

theorem read_text {units : List UInt16} {bytes : Bytes} (hvalid : (text units bytes).Valid)
    (rest : Bytes) : Constant.read ((text units bytes).written ++ rest) =
      match Utf16.decode? units with
      | some s => .ok (.text (String.ofList s), rest)
      | none => .error .badText := by
  obtain ⟨hwritten, hlen⟩ := hvalid
  have hbyte (bs : Bytes) : Reader.byte (1 :: bs) = .ok (1, bs) := rfl
  rw [written, List.cons_append, List.append_assoc, Constant.read, bind_of_ok (hbyte _), if_pos rfl,
    Constant.readText, bind_of_ok (read_word hlen _), UInt16.toNat_ofNat_of_lt' hlen,
    bind_of_ok (read_bytes _ _), ModifiedUtf8.decode?_of_isWritten hwritten]
  cases Utf16.decode? units <;> rfl

theorem read_written {e : StoredEntry} (hvalid : e.Valid) (h : e.IsUnicode) (rest : Bytes) :
    Constant.read (e.written ++ rest) = .ok (e.entry.constant, rest) := by
  cases e with
  | text units bytes =>
    obtain ⟨s, rfl⟩ := h
    rw [read_text hvalid, entry, Utf16.decode?_encode]
    rfl
  | other entry => exact PoolEntry.read_written hvalid.1 rest

theorem read_written_error {e : StoredEntry} (hvalid : e.Valid) (h : ¬e.IsUnicode) (rest : Bytes) :
    Constant.read (e.written ++ rest) = .error .badText := by
  cases e with
  | text units bytes =>
    have hnone : Utf16.decode? units = none :=
      Option.eq_none_iff_forall_ne_some.2 fun s hs => h ⟨s, Utf16.decode?_eq_some.1 hs⟩
    rw [read_text hvalid, hnone]
  | other entry => exact absurd trivial h

end StoredEntry

namespace StoredPool

variable {stored : StoredPool}

/-- The first constant is read, and then the others behind it. -/
theorem readAfter_cons (e : StoredEntry) (stored : StoredPool) (entries : Array Constant)
    (rest : Bytes) :
    ConstantPool.readAfter entries (slotCount (e :: stored)) (written (e :: stored) ++ rest) =
      match Constant.read (e.written ++ (written stored ++ rest)) with
      | .ok (c, rest) => ConstantPool.readAfter (entries.appendList c.slots)
          (slotCount (e :: stored) - c.slots.length) rest
      | .error error => .error error := by
  have hpos : slotCount (e :: stored) ≠ 0 := by
    have := e.entry.constant.slots_length_pos
    rw [PoolEntry.length_slots, e.slotCount_entry] at this
    rw [slotCount]
    omega
  have hwritten : written (e :: stored) = e.written ++ written stored := rfl
  rw [hwritten, List.append_assoc, ConstantPool.readAfter.eq_def]
  exact if_neg hpos

theorem readAfter_written (hvalid : ∀ e ∈ stored, e.Valid) (h : stored.IsUnicode)
    (entries : Array Constant) (rest : Bytes) :
    ConstantPool.readAfter entries stored.slotCount (stored.written ++ rest) =
      .ok (⟨entries ++ (stored.pool.flatMap fun e => e.constant.slots).toArray⟩, rest) := by
  induction stored generalizing entries with
  | nil =>
    rw [ConstantPool.readAfter.eq_def]
    simp [slotCount, written, pool]
  | cons e stored ih =>
    obtain ⟨he, hrest⟩ := List.forall_mem_cons.1 hvalid
    obtain ⟨hunicode, hothers⟩ := List.forall_mem_cons.1 h
    rw [readAfter_cons, StoredEntry.read_written he hunicode]
    dsimp only
    rw [PoolEntry.length_slots, e.slotCount_entry, slotCount, Nat.add_sub_cancel_left,
      ih hrest hothers]
    congr 3
    simp [← Array.toList_inj, pool]

theorem readAfter_written_error (hvalid : ∀ e ∈ stored, e.Valid) (h : ¬stored.IsUnicode)
    (entries : Array Constant) (rest : Bytes) :
    ConstantPool.readAfter entries stored.slotCount (stored.written ++ rest) =
      .error .badText := by
  induction stored generalizing entries with
  | nil => exact absurd (List.forall_mem_nil _) h
  | cons e stored ih =>
    obtain ⟨he, hrest⟩ := List.forall_mem_cons.1 hvalid
    rw [readAfter_cons]
    by_cases hunicode : e.IsUnicode
    · rw [StoredEntry.read_written he hunicode]
      dsimp only
      rw [PoolEntry.length_slots, e.slotCount_entry, slotCount, Nat.add_sub_cancel_left]
      exact ih hrest (fun hothers => h (List.forall_mem_cons.2 ⟨hunicode, hothers⟩)) _
    · rw [StoredEntry.read_written_error he hunicode]

theorem read_written (hvalid : stored.Valid) (h : stored.IsUnicode) (rest : Bytes) :
    ConstantPool.read (word (stored.slotCount + 1) ++ (stored.written ++ rest)) =
      .ok (stored.pool.table, rest) := by
  rw [ConstantPool.read, bind_of_ok (read_word hvalid.slots _),
    UInt16.toNat_ofNat_of_lt' hvalid.slots, Nat.add_sub_cancel]
  exact readAfter_written hvalid.entries h _ rest

theorem read_written_error (hvalid : stored.Valid) (h : ¬stored.IsUnicode) (rest : Bytes) :
    ConstantPool.read (word (stored.slotCount + 1) ++ (stored.written ++ rest)) =
      .error .badText := by
  rw [ConstantPool.read, bind_of_ok (read_word hvalid.slots _),
    UInt16.toNat_ofNat_of_lt' hvalid.slots, Nat.add_sub_cancel]
  exact readAfter_written_error hvalid.entries h _ rest

end StoredPool

/-! ## Decoding -/

/-- **Texts that nothing refers to have to be Unicode like the others, and make no other difference.**
A class file whose text constants are all Unicode is read as the class that it says, whatever stands in
those that nothing refers to. When one of them is not, the file is refused. -/
theorem decode_fileOf {c : ClassFile} {stored : StoredPool} {shown : Pool} {body : Bytes}
    (hvalid : stored.Valid) (hshown : List.Forall₂ StoredEntry.Shows stored shown)
    (hbody : LaidOutBody shown c body) (rest : Bytes) :
    (stored.IsUnicode → decode (fileOf c stored body ++ rest) = .ok c) ∧
      (¬stored.IsUnicode → decode (fileOf c stored body ++ rest) = .error .badText) := by
  constructor
  · intro h
    obtain ⟨hname, hsuperclass, hinterfaces, hfields, hmethods, hattributes, hsignature, hexceptions⟩ :=
      hbody.mono (StoredPool.isPartOf_pool hshown)
    simp only [fileOf, List.append_assoc]
    rw [decode, read, bind_of_ok (read_magic _), bind_of_ok (read_word_toNat _ _),
      bind_of_ok (read_word_toNat _ _), bind_of_ok (StoredPool.read_written hvalid h _),
      bind_of_ok (read_word_toNat _ _), bind_of_ok (Pool.reads_classRef hname _),
      bind_of_ok (reads_superclass hsuperclass _),
      bind_of_ok (reads_counted Pool.reads_classRef hinterfaces _),
      bind_of_ok (reads_counted reads_member hfields _),
      bind_of_ok (reads_counted reads_member hmethods _),
      bind_of_ok (Attribute.read_classAttributes hattributes hexceptions _),
      Attribute.signature?_of_toList hsignature]
    rfl
  · intro h
    simp only [fileOf, List.append_assoc]
    rw [decode, read, bind_of_ok (read_magic _), bind_of_ok (read_word_toNat _ _),
      bind_of_ok (read_word_toNat _ _), bind_of_error (StoredPool.read_written_error hvalid h _)]
    rfl

/-- A class with one public method. -/
def sampleSpeaker : ClassFile where
  minorVersion := 0
  majorVersion := 61
  access := ⟨0x21⟩
  name := "A"
  superclass := none
  interfaces := []
  signature := none
  fields := []
  methods := [⟨⟨1⟩, "m", "()V", none, []⟩]

/-- The constants of that class, and behind them the text of a string literal, which is one code
unit. -/
def sampleConstants (literal : UInt16) : StoredPool :=
  [.text [0x41] [0x41], .other (.classRef 1), .text [0x6D] [0x6D],
    .text [0x28, 0x29, 0x56] [0x28, 0x29, 0x56], .text [literal] (ModifiedUtf8.encodeUnit literal)]

def sampleShown : Pool :=
  [.text "A", .classRef 1, .text "m", .text "()V", unusedText]

def sampleBody : Bytes :=
  [0, 0x21, 0, 2, 0, 0, 0, 0, 0, 0, 0, 1, 0, 1, 0, 3, 0, 4, 0, 0, 0, 0]

theorem valid_sampleConstants (literal : UInt16) : (sampleConstants literal).Valid where
  entries := by
    have hletter {a : UInt8} (hpos : 0 < a) (hlt : a < 0x80) {us : List UInt16} {bytes : Bytes}
        (hrest : ModifiedUtf8.IsWritten us bytes) :
        ModifiedUtf8.IsWritten (UInt16.ofNat a.toNat :: us) (a :: bytes) :=
      .cons (.one hpos hlt) hrest
    have hlen : (ModifiedUtf8.encodeUnit literal).length < UInt16.size := by
      simp only [ModifiedUtf8.encodeUnit]
      split
      · simp [UInt16.size]
      · split <;> simp [UInt16.size]
    simp only [sampleConstants, List.forall_mem_cons, List.not_mem_nil, false_imp_iff, implies_true,
      and_true, StoredEntry.Valid, PoolEntry.Valid]
    refine ⟨⟨hletter (a := 0x41) (by decide) (by decide) .nil, by decide⟩, by simp,
      ⟨hletter (a := 0x6D) (by decide) (by decide) .nil, by decide⟩, ⟨?_, by decide⟩, ?_, hlen⟩
    · exact hletter (a := 0x28) (by decide) (by decide) (hletter (a := 0x29) (by decide) (by decide)
        (hletter (a := 0x56) (by decide) (by decide) .nil))
    · simpa using ModifiedUtf8.IsWritten.cons (ModifiedUtf8.isForm_encodeUnit literal) .nil
  slots := by
    show 6 < UInt16.size
    decide

theorem shows_sampleConstants (literal : UInt16) :
    List.Forall₂ StoredEntry.Shows (sampleConstants literal) sampleShown :=
  .cons (.text (s := "A")) (.cons .other (.cons (.text (s := "m")) (.cons (.text (s := "()V"))
    (.cons .unused .nil))))

theorem laidOut_sampleBody : LaidOutBody sampleShown sampleSpeaker sampleBody := by
  have hname : sampleShown.HasAt 1 (.text "A") := ⟨[], _, rfl, rfl⟩
  have hclass : sampleShown.HasAt 2 (.classRef 1) := ⟨sampleShown.take 1, _, rfl, rfl⟩
  have hmethod : sampleShown.HasAt 3 (.text "m") := ⟨sampleShown.take 2, _, rfl, rfl⟩
  have htype : sampleShown.HasAt 4 (.text "()V") := ⟨sampleShown.take 3, _, rfl, rfl⟩
  have hnone : Counted (Attribute.LaidOut sampleShown) [] (word 0 ++ [].flatten) :=
    .intro (by decide) .nil
  have hm := LaidOutMember.intro (m := ⟨⟨1⟩, "m", "()V", none, []⟩) (.intro hmethod) (.intro htype)
    hnone rfl rfl
  have h := LaidOutBody.intro (c := sampleSpeaker) (.intro hclass hname) .none
    (.intro (by decide) .nil) (.intro (by decide) .nil) (.intro (by decide) (.cons hm .nil)) hnone
    rfl rfl
  exact (congrArg (LaidOutBody sampleShown sampleSpeaker) (by decide +kernel)).mp h

/-- A literal that is a letter makes no difference. -/
theorem decode_letterLiteral :
    decode (fileOf sampleSpeaker (sampleConstants 0x42) sampleBody) = .ok sampleSpeaker := by
  have hunicode : (sampleConstants 0x42).IsUnicode := by
    simp only [StoredPool.IsUnicode, sampleConstants, List.forall_mem_cons, List.not_mem_nil,
      false_imp_iff, implies_true, and_true, StoredEntry.IsUnicode]
    exact ⟨⟨['A'], by decide⟩, trivial, ⟨['m'], by decide⟩, ⟨['(', ')', 'V'], by decide⟩,
      ⟨['B'], by decide⟩⟩
  have h := (decode_fileOf (valid_sampleConstants 0x42) (shows_sampleConstants 0x42)
    laidOut_sampleBody []).1 hunicode
  rwa [List.append_nil] at h

/-- **A class is lost because of a string literal.** The text that nothing refers to is modified UTF-8,
one surrogate in three bytes. -/
theorem decode_surrogateLiteral :
    (sampleConstants 0xD800).Valid ∧
      List.Forall₂ StoredEntry.Shows (sampleConstants 0xD800) sampleShown ∧
      LaidOutBody sampleShown sampleSpeaker sampleBody ∧
      decode (fileOf sampleSpeaker (sampleConstants 0xD800) sampleBody) = .error .badText :=
  ⟨valid_sampleConstants _, shows_sampleConstants _, laidOut_sampleBody, by decide +kernel⟩

end ApiSurface.ClassFile
