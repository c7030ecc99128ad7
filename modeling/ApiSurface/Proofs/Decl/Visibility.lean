import ApiSurface.Proofs.Decl.Overloads

/-!
Which visibility the text of a member shows.

A member that is exported has one visibility, the widest that its flags name. The text of a method shows
this one and no other. The text of a field shows every visibility whose bit is set, the widest first, so it
shows one alone exactly when its flags name no other.
-/

namespace ApiSurface

open AccessFlags (publicBit protectedBit privateBit)

/-! ## Keywords -/

/-- The bits that name a visibility, the widest first, with their keywords. -/
def visibilityTable : List (UInt16 × String) :=
  [(publicBit, "public"), (protectedBit, "protected"), (privateBit, "private")]

/-- The keywords for visibilities among the modifiers. -/
def visibilityWords (modifiers : List String) : List String :=
  modifiers.filter (· ∈ visibilityTable.map (·.2))

/-- No more than one of the bits for visibilities is set. -/
def AccessFlags.NamesOneVisibility (flags : AccessFlags) : Prop :=
  ∀ row ∈ visibilityTable, ∀ row' ∈ visibilityTable, flags.has row.1 → flags.has row'.1 → row = row'

theorem keywordsOf_append (front back : List (UInt16 × String)) (flags : AccessFlags) :
    keywordsOf (front ++ back) flags = keywordsOf front flags ++ keywordsOf back flags := by
  rw [keywordsOf, List.filter_append, List.map_append]
  rfl

theorem keywordsOf_cons (mask : UInt16) (word : String) (table : List (UInt16 × String))
    (flags : AccessFlags) : keywordsOf ((mask, word) :: table) flags =
      if flags.has mask then word :: keywordsOf table flags else keywordsOf table flags := by
  cases h : flags.has mask <;> simp [keywordsOf, h]

theorem visibilityWords_append (front back : List String) :
    visibilityWords (front ++ back) = visibilityWords front ++ visibilityWords back :=
  List.filter_append ..

theorem visibilityWords_eq_nil {words : List String}
    (h : ∀ word ∈ words, word ∉ visibilityTable.map (·.2)) : visibilityWords words = [] :=
  List.filter_eq_nil_iff.2 fun word hword => by simpa using h word hword

/-- A table of other keywords shows no visibility. -/
theorem visibilityWords_keywordsOf {table : List (UInt16 × String)} (flags : AccessFlags)
    (h : ∀ word ∈ table.map (·.2), word ∉ visibilityTable.map (·.2)) :
    visibilityWords (keywordsOf table flags) = [] :=
  visibilityWords_eq_nil fun word hword => h word (mem_keywordsOf hword)

theorem visibilityWords_keywordsOf_visibilityTable (flags : AccessFlags) :
    visibilityWords (keywordsOf visibilityTable flags) = keywordsOf visibilityTable flags :=
  List.filter_eq_self.2 fun _ hword => by simpa using mem_keywordsOf hword

/-! ## Flags of exported members -/

section Exported

variable {flags : AccessFlags} {visibility : Visibility}

theorem name_of_isExported (h : visibility.isExported) : visibility.name ∈ ["public", "protected"] := by
  cases visibility <;> first | decide | cases h

/-- The widest visibility is the first of those that are set. -/
theorem exists_keywordsOf_visibilityTable (h : (Visibility.ofFlags flags).isExported) :
    ∃ others, keywordsOf visibilityTable flags = (Visibility.ofFlags flags).name :: others := by
  unfold Visibility.ofFlags at h ⊢
  rw [visibilityTable, keywordsOf_cons, keywordsOf_cons]
  by_cases hpublic : flags.has publicBit
  · rw [if_pos hpublic, if_pos hpublic]
    exact ⟨_, rfl⟩
  rw [if_neg hpublic] at h
  rw [if_neg hpublic, if_neg hpublic]
  by_cases hprotected : flags.has protectedBit
  · rw [if_pos hprotected, if_pos hprotected]
    exact ⟨_, rfl⟩
  rw [if_neg hprotected] at h
  split at h <;> cases h

/-- It is the only one exactly when no other is set. -/
theorem keywordsOf_visibilityTable_iff (h : (Visibility.ofFlags flags).isExported) :
    keywordsOf visibilityTable flags = [(Visibility.ofFlags flags).name] ↔ flags.NamesOneVisibility := by
  unfold AccessFlags.NamesOneVisibility
  unfold Visibility.ofFlags at h ⊢
  cases hpublic : flags.has publicBit <;> cases hprotected : flags.has protectedBit <;>
    cases hprivate : flags.has privateBit <;>
    simp_all [visibilityTable, keywordsOf, Visibility.name, Visibility.isExported]

end Exported

/-! ## Texts of exported members -/

/-- The modifiers stand in front of the text, and the first of them is the visibility, which is one that is
seen from outside the artifact. -/
structure IsIntroduced (visibility : Visibility) (modifiers : List String) (text : String) : Prop where
  front : ∃ rest, text = String.join (modifiers.map (· ++ " ")) ++ rest
  exported : visibility.name ∈ ["public", "protected"]
  first : modifiers.head? = some visibility.name

namespace MethodDecl

variable {m : MethodDecl}

theorem visibilityKeyword_of_isExported (h : m.visibility.isExported) :
    m.visibilityKeyword = [m.visibility.name] := by
  unfold visibilityKeyword
  cases hvisibility : m.visibility with
  | inPackage =>
    rw [hvisibility] at h
    cases h
  | everywhere | inSubclasses | inClass => rfl

/-- The visibility of a method has a place of its own among the modifiers. -/
theorem visibilityWords_modifiers (owner : TypeKind) (h : m.visibility.isExported) :
    visibilityWords (m.modifiers owner) = [m.visibility.name] := by
  have hown : visibilityWords m.visibilityKeyword = [m.visibility.name] := by
    rw [visibilityKeyword_of_isExported h]
    refine List.filter_eq_self.2 (List.forall_mem_singleton.2 (decide_eq_true ?_))
    have hsubset : ["public", "protected"] ⊆ visibilityTable.map (·.2) := by decide
    exact hsubset (name_of_isExported h)
  have hdefault : visibilityWords (if m.isDefault owner then ["default"] else []) = [] := by
    split <;> decide
  simp only [modifiers, visibilityWords_append, hown, hdefault, List.append_nil]
  rw [visibilityWords_keywordsOf _ (by decide), visibilityWords_keywordsOf _ (by decide)]
  rfl

theorem isIntroduced_source (owner : TypeKind) (h : m.visibility.isExported) :
    IsIntroduced m.visibility (m.modifiers owner) (m.source owner) where
  front := ⟨_, by simp only [source, String.append_assoc]; rfl⟩
  exported := name_of_isExported h
  first := by simp [modifiers, visibilityKeyword_of_isExported h]

end MethodDecl

namespace FieldDecl

variable {f : FieldDecl}

theorem modifiers_eq (f : FieldDecl) : f.modifiers = keywordsOf visibilityTable f.access ++
    keywordsOf [(AccessFlags.staticBit, "static"), (AccessFlags.finalBit, "final"),
      (AccessFlags.transientBit, "transient"), (AccessFlags.volatileBit, "volatile")] f.access :=
  keywordsOf_append visibilityTable _ f.access

/-- A field shows every visibility that is set. -/
theorem visibilityWords_modifiers (f : FieldDecl) :
    visibilityWords f.modifiers = keywordsOf visibilityTable f.access := by
  rw [modifiers_eq, visibilityWords_append, visibilityWords_keywordsOf_visibilityTable,
    visibilityWords_keywordsOf _ (by decide), List.append_nil]

theorem isIntroduced_source (h : f.visibility.isExported) :
    IsIntroduced f.visibility f.modifiers f.source where
  front := ⟨_, by simp only [source, String.append_assoc]; rfl⟩
  exported := name_of_isExported h
  first := by
    obtain ⟨others, hwords⟩ := exists_keywordsOf_visibilityTable h
    rw [modifiers_eq, hwords]
    rfl

end FieldDecl

theorem TypeDecl.isExported_of_mem_exportedMethods {t : TypeDecl} {synthetic : Bool} {m : MethodDecl}
    (h : m ∈ t.exportedMethods synthetic) : m.visibility.isExported :=
  (Bool.and_eq_true_iff.1 (List.mem_filter.1 h).2).1

theorem TypeDecl.isExported_of_mem_exportedFields {t : TypeDecl} {synthetic : Bool} {f : FieldDecl}
    (h : f ∈ t.exportedFields synthetic) : f.visibility.isExported :=
  (Bool.and_eq_true_iff.1 (List.mem_filter.1 h).2).1

/-- **An exported method shows its visibility and no other one, an exported field shows it before all
others that are set.** The text of an exported member begins with its modifiers, of which its visibility is
the first. For a method this is the only keyword of a visibility there. For a field there is one for each of
the three bits that is set, so it is the only one if and only if no other of these bits is set. -/
theorem exported_show_visibility (t : TypeDecl) (synthetic : Bool) :
    (∀ m ∈ t.exportedMethods synthetic,
      IsIntroduced m.visibility (m.modifiers t.kind) (m.source t.kind) ∧
        visibilityWords (m.modifiers t.kind) = [m.visibility.name]) ∧
    ∀ f ∈ t.exportedFields synthetic,
      IsIntroduced f.visibility f.modifiers f.source ∧
        visibilityWords f.modifiers = keywordsOf visibilityTable f.access ∧
        (visibilityWords f.modifiers = [f.visibility.name] ↔ f.access.NamesOneVisibility) := by
  refine ⟨fun m hm => ?_, fun f hf => ?_⟩
  · have hexported := TypeDecl.isExported_of_mem_exportedMethods hm
    exact ⟨m.isIntroduced_source t.kind hexported, m.visibilityWords_modifiers t.kind hexported⟩
  · have hexported := TypeDecl.isExported_of_mem_exportedFields hf
    refine ⟨f.isIntroduced_source hexported, f.visibilityWords_modifiers, ?_⟩
    rw [f.visibilityWords_modifiers]
    exact keywordsOf_visibilityTable_iff hexported

/-! ### A class whose members are public and protected -/

/-- The class `A` with a field `f` and a method `m`, both with two visibilities. -/
def twiceVisibleClass : Bytes :=
  [0xCA, 0xFE, 0xBA, 0xBE, 0, 0, 0, 61, 0, 7, 7, 0, 2, 1, 0, 1, 65, 1, 0, 1, 102, 1, 0, 1, 73, 1, 0, 1, 109,
    1, 0, 3, 40, 41, 86, 0, 0x21, 0, 1, 0, 0, 0, 0, 0, 1, 0, 5, 0, 3, 0, 4, 0, 0, 0, 1, 0, 5, 0, 5, 0, 6, 0, 0,
    0, 0]

def twiceVisibleMethod : MethodDecl :=
  ⟨"A", ⟨5⟩, "m", "()V", [], [], .void, []⟩

def twiceVisibleField : FieldDecl :=
  ⟨"A", ⟨5⟩, "f", "I", .primitive .int⟩

def twiceVisibleType : TypeDecl :=
  ⟨"A", .classType, .plain, ⟨0x21⟩, [], none, [], [twiceVisibleMethod], [twiceVisibleField]⟩

theorem ofBytes_twiceVisibleClass : TypeDecl.ofBytes twiceVisibleClass = .ok twiceVisibleType := by
  cbv

/-- The method shows the wider visibility, the field shows both. -/
theorem exported_show_visibility_twice :
    TypeDecl.ofBytes twiceVisibleClass = .ok twiceVisibleType ∧
    (twiceVisibleMethod ∈ twiceVisibleType.exportedMethods true ∧
      twiceVisibleMethod.source .classType = "public void m()" ∧
      visibilityWords (twiceVisibleMethod.modifiers .classType) = [twiceVisibleMethod.visibility.name]) ∧
    twiceVisibleField ∈ twiceVisibleType.exportedFields true ∧
      twiceVisibleField.source = "public protected int f" ∧
      visibilityWords twiceVisibleField.modifiers = ["public", "protected"] ∧
      ¬ twiceVisibleField.access.NamesOneVisibility := by
  have hmethod : twiceVisibleMethod ∈ twiceVisibleType.exportedMethods true := List.mem_cons_self
  have hfield : twiceVisibleField ∈ twiceVisibleType.exportedFields true := List.mem_cons_self
  obtain ⟨hmethods, hfields⟩ := exported_show_visibility twiceVisibleType true
  obtain ⟨-, hwords, hone⟩ := hfields twiceVisibleField hfield
  have hboth : visibilityWords twiceVisibleField.modifiers = ["public", "protected"] :=
    hwords.trans (by decide)
  refine ⟨ofBytes_twiceVisibleClass, ⟨hmethod, by decide, (hmethods twiceVisibleMethod hmethod).2⟩,
    hfield, by decide, hboth, fun hnames => ?_⟩
  exact absurd (hboth.symm.trans (hone.2 hnames)) (by decide)

/-- So it is not true that an exported field shows one visibility, whatever bits the class file sets. -/
theorem not_exported_show_visibility :
    ¬ ∀ (bytes : Bytes) (t : TypeDecl), TypeDecl.ofBytes bytes = .ok t → ∀ synthetic,
      ∀ f ∈ t.exportedFields synthetic, visibilityWords f.modifiers = [f.visibility.name] := by
  intro hall
  have hone := hall twiceVisibleClass twiceVisibleType ofBytes_twiceVisibleClass true twiceVisibleField
    List.mem_cons_self
  exact absurd hone (by decide)

end ApiSurface
