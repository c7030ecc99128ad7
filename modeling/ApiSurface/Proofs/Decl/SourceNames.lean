import ApiSurface.Decl.Source
import ApiSurface.Proofs.Signature.Written
import ApiSurface.Proofs.Text.Separated
import ApiSurface.Text.Characters
import Mathlib.Data.List.Basic

/-!
Names that can be spelled in the source language, and the types that are made of them.

A class file may call a class and a member almost anything. With names that a source can spell, a type
of a descriptor can be read off its source form: no name has a sign of the form in it, and none is the
keyword of a primitive type.
-/

namespace ApiSurface

/-! ## Names -/

/-- The words that the source language keeps to itself. -/
def reservedWords : List String :=
  ["abstract", "assert", "boolean", "break", "byte", "case", "catch", "char", "class", "const",
  "continue", "default", "do", "double", "else", "enum", "extends", "final", "finally", "float",
  "for", "goto", "if", "implements", "import", "instanceof", "int", "interface", "long", "native",
  "new", "package", "private", "protected", "public", "return", "short", "static", "strictfp",
  "super", "switch", "synchronized", "this", "throw", "throws", "transient", "try", "void",
  "volatile", "while"]

/-- Letters, digits, `_` and `$`. -/
def isNamePart (c : Char) : Bool :=
  isAlphanumeric c || c = '_' || c = '$'

/-- A name of the source language. -/
def isSimpleName (name : String) : Bool :=
  name ≠ "" && name.toList.all isNamePart && !reservedWords.contains name

/-- Simple names with `separator` between them: `.` in the name of a class, and `/` where a class file
has that form. -/
def isQualifiedName (separator : Char) (name : String) : Bool :=
  (name.toList.splitOn separator).all fun part => isSimpleName (String.ofList part)

/-- The signs that stand around names. -/
theorem not_isNamePart_of_mem {c : Char} (h : c ∈ [' ', '(', ')', ',', '.', '/', '[', ']']) :
    isNamePart c = false := by
  have hall : [' ', '(', ')', ',', '.', '/', '[', ']'].all (!isNamePart ·) = true := by
    decide +kernel
  simpa using List.all_eq_true.1 hall c h

theorem isSimpleName_iff {name : String} : isSimpleName name = true ↔
    name ≠ "" ∧ (∀ c ∈ name.toList, isNamePart c = true) ∧ name ∉ reservedWords := by
  simp [isSimpleName, and_assoc]

section Qualified

variable {separator : Char} {name : String} {c : Char}

/-- A qualified name consists of the characters of simple names and of the separator. -/
theorem isNamePart_of_mem (h : isQualifiedName separator name) (hc : c ∈ name.toList) :
    isNamePart c = true ∨ c = separator := by
  have hjoined : [separator].intercalate (name.toList.splitOn separator) = name.toList :=
    List.intercalate_splitOn separator
  rw [← hjoined] at hc
  obtain hseparator | ⟨part, hpart, hc⟩ := mem_intercalate hc
  · exact .inr (List.mem_singleton.1 hseparator)
  · have hname := isSimpleName_iff.1 (List.all_eq_true.1 h part hpart)
    exact .inl (hname.2.1 c (by simpa using hc))

/-- A qualified name does not end in the separator. -/
theorem isNamePart_getLast (h : isQualifiedName separator name) (hc : name.toList.getLast? = some c) :
    isNamePart c = true := by
  obtain hpart | rfl := isNamePart_of_mem h (List.mem_of_getLast? hc)
  · exact hpart
  · obtain ⟨front, hfront⟩ := List.getLast?_eq_some_iff.1 hc
    -- Behind a separator at the end stands a part without a character.
    have hempty : [] ∈ name.toList.splitOn c := by
      rw [hfront, List.splitOn_append_cons_self]
      simp
    exact absurd (List.all_eq_true.1 h [] hempty) (by decide)

theorem ne_empty_of_isQualifiedName (h : isQualifiedName separator name) : name ≠ "" := by
  rintro rfl
  have hempty : [] ∈ "".toList.splitOn separator := by simp
  exact absurd (List.all_eq_true.1 h [] hempty) (by decide)

/-- The letters that reserved words consist of. -/
theorem isNamePart_of_mem_reserved {word : String} (h : word ∈ reservedWords)
    (hc : c ∈ word.toList) : isNamePart c = true := by
  have hall : reservedWords.all (·.toList.all Char.isAlphanum) = true := by decide
  have hletter := List.all_eq_true.1 (List.all_eq_true.1 hall word h) c hc
  simp [isNamePart, isAlphanumeric_of_isAlphanum hletter]

/-- No reserved word is a qualified name. -/
theorem notMem_reservedWords (hseparator : isNamePart separator = false)
    (h : isQualifiedName separator name) : name ∉ reservedWords := by
  intro hword
  have hnone : separator ∉ name.toList := fun hmem =>
    absurd (isNamePart_of_mem_reserved hword hmem) (by simp [hseparator])
  have hparts := List.splitOn_eq_singleton hnone
  have hname := List.all_eq_true.1 h name.toList (by rw [hparts]; exact List.mem_singleton_self _)
  rw [String.ofList_toList] at hname
  exact (isSimpleName_iff.1 hname).2.2 hword

end Qualified

/-! ## Words -/

/-- A text that can be told from what stands around it in a declaration. -/
structure IsWord (text : String) : Prop where
  ne_empty : text ≠ ""
  notMem : ∀ c ∈ [' ', '(', ')', ','], c ∉ text.toList

/-- The characters of names and the signs inside of types are none that stand around a word. -/
theorem isWord_of_parts {text : String} (hne : text ≠ "")
    (h : ∀ c ∈ text.toList, isNamePart c = true ∨ c ∈ ['.', '/', '[', ']']) : IsWord text where
  ne_empty := hne
  notMem c hc hmem := by
    have hpart : isNamePart c = false :=
      not_isNamePart_of_mem (List.mem_append_left ['.', '/', '[', ']'] hc)
    obtain hname | hsign := h c hmem
    · exact absurd hname (by simp [hpart])
    · have hapart : List.Disjoint [' ', '(', ')', ','] ['.', '/', '[', ']'] := by simp
      exact hapart hc hsign

theorem isWord_of_isQualifiedName {separator : Char} {name : String}
    (hseparator : separator ∈ ['.', '/', '[', ']']) (h : isQualifiedName separator name) :
    IsWord name := by
  refine isWord_of_parts (ne_empty_of_isQualifiedName h) fun c hc => ?_
  obtain hpart | rfl := isNamePart_of_mem h hc
  · exact .inl hpart
  · exact .inr hseparator

theorem isWord_of_mem_reserved {word : String} (h : word ∈ reservedWords) : IsWord word := by
  have hne : ∀ word ∈ reservedWords, word ≠ "" := by decide
  exact isWord_of_parts (hne word h) fun c hc => .inl (isNamePart_of_mem_reserved h hc)

/-! ## Types -/

theorem Primitive.keyword_mem (p : Primitive) : p.keyword ∈ reservedWords := by
  cases p <;> decide

theorem Primitive.keyword_injective {p q : Primitive} (h : p.keyword = q.keyword) : p = q := by
  cases p <;> cases q <;> first | rfl | (revert h; decide)

namespace JavaType

/-- The name of the class that a type of a descriptor mentions; an array mentions that of its
elements. -/
def className? : JavaType → Option String
  | .array element => element.className?
  | type => type.erasedName?

/-- A type as a descriptor writes it, where a class has a name that can be spelled. -/
inductive IsSpelled : JavaType → Prop
  | primitive (type : Primitive) : IsSpelled (.primitive type)
  | ofName {name : String} : isQualifiedName '.' name → IsSpelled (.ofName name)
  | array {element : JavaType} : IsSpelled element → IsSpelled (.array element)

theorem isSpelled_of_proper {t : JavaType} (h : t.Proper .descriptor)
    (hname : ∀ name ∈ t.className?, isQualifiedName '.' name) : t.IsSpelled := by
  match t, h with
  | _, .primitive type => exact .primitive type
  | _, .object (.mk _ hargs _) hinner _ =>
    obtain rfl : _ = [] := by simpa using hargs
    obtain rfl : _ = [] := by simpa using hinner
    exact .ofName (hname _ (by simp [className?, erasedName?, Segment.name]))
  | _, .array helement => exact .array (isSpelled_of_proper helement hname)

variable {t t' : JavaType}

@[simp] theorem source_ofName (name : String) : (JavaType.ofName name).source = name := by
  simp [ofName, source, Segment.source, sourceOfInner]

/-- The characters of a type in source form. -/
theorem mem_source (h : t.IsSpelled) {c : Char} (hc : c ∈ t.source.toList) :
    isNamePart c = true ∨ c ∈ ['.', '/', '[', ']'] := by
  induction h with
  | primitive type =>
    rw [source] at hc
    exact .inl (isNamePart_of_mem_reserved type.keyword_mem hc)
  | ofName hname =>
    rw [source_ofName] at hc
    obtain hpart | rfl := isNamePart_of_mem hname hc
    · exact .inl hpart
    · exact .inr List.mem_cons_self
  | array _ ih =>
    rw [source, String.toList_append, List.mem_append] at hc
    obtain helement | hdimension := hc
    · exact ih helement
    · exact .inr (List.mem_append_right ['.', '/'] hdimension)

theorem source_ne_empty (h : t.IsSpelled) : t.source ≠ "" := by
  cases h with
  | primitive type => cases type <;> decide
  | ofName hname => rw [source_ofName]; exact ne_empty_of_isQualifiedName hname
  | array => simp [source]

theorem isWord_source (h : t.IsSpelled) : IsWord t.source :=
  isWord_of_parts (source_ne_empty h) fun _ hc => mem_source h hc

/-- Types end in the last letter of a name or in a bracket. -/
theorem getLast?_source_ne (h : t.IsSpelled) : t.source.toList.getLast? ≠ some '.' := by
  intro hlast
  have hdot : isNamePart '.' = false := not_isNamePart_of_mem (by simp)
  cases h with
  | primitive type =>
    have hpart := isNamePart_of_mem_reserved type.keyword_mem (List.mem_of_getLast? hlast)
    exact absurd hpart (by simp [hdot])
  | ofName hname =>
    rw [source_ofName] at hlast
    exact absurd (isNamePart_getLast hname hlast) (by simp [hdot])
  | array => simp [source] at hlast

/-- Among the types only the primitive ones are called by a word of the source language. -/
theorem notMem_reservedWords_of_isReference (h : t.IsSpelled) (href : t.IsReference) :
    t.source ∉ reservedWords := by
  cases h with
  | primitive => exact href.elim
  | ofName hname => rw [source_ofName]; exact notMem_reservedWords (not_isNamePart_of_mem (by simp)) hname
  | array =>
    intro hword
    have hbracket : isNamePart ']' = true :=
      isNamePart_of_mem_reserved hword (by simp [source])
    exact absurd hbracket (by rw [not_isNamePart_of_mem (by simp)]; simp)

/-- No name of a class ends like an array. -/
theorem source_array_ne {element : JavaType} {name : String} (h : isQualifiedName '.' name) :
    (JavaType.array element).source ≠ name := by
  rintro rfl
  have hbracket : isNamePart ']' = false := not_isNamePart_of_mem (by simp)
  have hlast : ((JavaType.array element).source).toList.getLast? = some ']' := by simp [source]
  exact absurd (isNamePart_getLast h hlast) (by simp [hbracket])

/-- **A type can be read off its source form.** -/
theorem source_injective (h : t.IsSpelled) (h' : t'.IsSpelled) (heq : t.source = t'.source) :
    t = t' := by
  -- The source form of a primitive type is a reserved word, and that of a reference is not.
  have hkind {t : JavaType} (p : Primitive) (h : t.IsSpelled) (href : t.IsReference) :
      (JavaType.primitive p).source ≠ t.source := fun heq =>
    notMem_reservedWords_of_isReference h href (by rw [← heq, source]; exact p.keyword_mem)
  induction h generalizing t' with
  | primitive p =>
    cases h' with
    | primitive q => exact congrArg primitive (Primitive.keyword_injective (by simpa [source] using heq))
    | ofName hname => exact absurd heq (hkind p (.ofName hname) trivial)
    | array helement => exact absurd heq (hkind p (.array helement) trivial)
  | ofName hname =>
    cases h' with
    | primitive q => exact absurd heq.symm (hkind q (.ofName hname) trivial)
    | ofName => exact congrArg ofName (by simpa using heq)
    | array => exact absurd heq.symm (by rw [source_ofName]; exact source_array_ne hname)
  | array helement ih =>
    cases h' with
    | primitive q => exact absurd heq.symm (hkind q (.array helement) trivial)
    | ofName hname => exact absurd heq (by rw [source_ofName]; exact source_array_ne hname)
    | array helement' =>
      have hchars := congrArg String.toList heq
      simp only [source, String.toList_append] at hchars
      exact congrArg array (ih helement' (String.toList_inj.1 (List.append_cancel_right hchars)))

end JavaType

end ApiSurface
