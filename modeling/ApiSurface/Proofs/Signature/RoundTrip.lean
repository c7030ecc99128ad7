import ApiSurface.Proofs.Signature.Declarations
import Mathlib

/-!
Reading descriptors and signatures undoes writing them, and nothing else is accepted.

A text is read as a value exactly when the value is well formed and the text is its written form. The
only well-formed values that are not read back are methods and classes whose type parameters are not
parted; their written forms are rejected.
-/

namespace ApiSurface

open Reading
open Signature.Parser

/-! ## Texts -/

def JavaType.text (t : JavaType) : String :=
  String.ofList t.written

def MethodType.text (m : MethodType) : String :=
  String.ofList m.written

def ClassType.text (c : ClassType) : String :=
  String.ofList c.written

namespace Signature

variable {α : Type} {form : Form} {parser : Parser α} {source : String}

/-! ## Whole texts -/

theorem parse_eq_ok {a : α} :
    parse form parser source = .ok a ↔ ∃ rest, parser source.toList = .ok (a, rest) := by
  rw [parse]
  cases h : parser source.toList with
  | error failure => simp
  | ok p =>
    obtain ⟨b, rest⟩ := p
    simp

/-- A text that is not read as anything is rejected as a text of its form. -/
theorem parse_eq_error (h : ∀ r, parser source.toList ≠ .ok r) :
    ∃ e, parse form parser source = .error e ∧ e.form = form := by
  rw [parse]
  cases hread : parser source.toList with
  | error failure => exact ⟨_, rfl, rfl⟩
  | ok p => exact absurd hread (h p)

theorem finish_eq_ok {input rest : List Char} {u : Unit} :
    finish input = .ok (u, rest) ↔ input = [] ∧ rest = [] := by
  cases input with
  | nil => simp [finish, eq_comm]
  | cons c input => simp [finish]

theorem andThen_finish_eq_ok {input rest : List Char} {a : α} :
    (parser <* finish) input = .ok (a, rest) ↔ parser input = .ok (a, []) ∧ rest = [] := by
  simp only [seqLeft_eq_bind, bind_eq_ok, finish_eq_ok, pure_eq_ok]
  constructor
  · rintro ⟨_, _, h, _, _, ⟨rfl, rfl⟩, rfl, rfl⟩
    exact ⟨h, rfl⟩
  · rintro ⟨h, rfl⟩
    exact ⟨a, [], h, (), [], ⟨rfl, rfl⟩, rfl, rfl⟩

theorem text_eq_iff {cs : List Char} : String.ofList cs = source ↔ source.toList = cs := by
  rw [← String.toList_inj, String.toList_ofList, eq_comm]

theorem parseFieldType_eq_ok {t : JavaType} :
    parseFieldType form source = .ok t ↔ t.WellFormed form ∧ t.text = source := by
  simp only [parseFieldType, parse_eq_ok, andThen_finish_eq_ok, reads_valueType form _ _ _,
    exists_eq_right, List.append_nil, JavaType.text, text_eq_iff]

theorem parseMethodType_eq_ok {m : MethodType} : parseMethodType form source = .ok m ↔
    (m.WellFormed form ∧ AreParted m.typeParams) ∧ m.text = source := by
  simp only [parseMethodType, parse_eq_ok, andThen_finish_eq_ok, reads_methodType form _ _ _,
    exists_eq_right, List.append_nil, MethodType.text, text_eq_iff]
  simp

theorem parseClassType_eq_ok {c : ClassType} : parseClassType source = .ok c ↔
    (c.WellFormed ∧ AreParted c.typeParams) ∧ c.text = source := by
  simp only [parseClassType, parse_eq_ok, reads_classSignature _ _ _, ClassType.text, text_eq_iff]
  constructor
  · rintro ⟨_, hc, hsource, rfl⟩
    exact ⟨hc, by rwa [List.append_nil] at hsource⟩
  · rintro ⟨hc, hsource⟩
    exact ⟨[], hc, by rwa [List.append_nil], rfl⟩

/-- The written form of a method whose type parameters are not parted is no signature at all. -/
theorem parseMethodType_unparted {m : MethodType} (hm : m.WellFormed form)
    (h : ¬AreParted m.typeParams) :
    ∃ e, parseMethodType form m.text = .error e ∧ e.form = .generic := by
  cases form with
  | descriptor => exact absurd (by simp [AreParted, (hm.erased rfl).1]) h
  | generic =>
    refine parse_eq_error fun _ hread => ?_
    obtain ⟨hmethod, -⟩ := andThen_finish_eq_ok.1 hread
    obtain ⟨_, _, hparams, -⟩ := bind_eq_ok.1 hmethod
    rw [MethodType.text, String.toList_ofList, MethodType.written] at hparams
    exact typeParams_unparted hm.typeParams h _ hparams

theorem parseClassType_unparted {c : ClassType} (hc : c.WellFormed) (h : ¬AreParted c.typeParams) :
    ∃ e, parseClassType c.text = .error e ∧ e.form = .generic := by
  refine parse_eq_error fun _ hread => ?_
  obtain ⟨_, _, hparams, -⟩ := bind_eq_ok.1 hread
  rw [ClassType.text, String.toList_ofList, ClassType.written] at hparams
  exact typeParams_unparted hc.typeParams h _ hparams

/-! ## The round trip -/

/-- **What is read is well formed and was written like that, so no value is read from two texts.** -/
theorem parse_sound :
    (∀ form source t, parseFieldType form source = .ok t → t.text = source ∧ t.WellFormed form) ∧
    (∀ form source m, parseMethodType form source = .ok m → m.text = source ∧ m.WellFormed form) ∧
    (∀ source c, parseClassType source = .ok c → c.text = source ∧ c.WellFormed) ∧
    (∀ form source source' t, parseFieldType form source = .ok t →
      parseFieldType form source' = .ok t → source = source') ∧
    (∀ form source source' m, parseMethodType form source = .ok m →
      parseMethodType form source' = .ok m → source = source') ∧
    ∀ source source' c, parseClassType source = .ok c → parseClassType source' = .ok c →
      source = source' := by
  refine ⟨fun form source t h => ?_, fun form source m h => ?_, fun source c h => ?_,
    fun form source source' t h h' => ?_, fun form source source' m h h' => ?_,
    fun source source' c h h' => ?_⟩
  · exact (parseFieldType_eq_ok.1 h).symm
  · obtain ⟨⟨hm, -⟩, htext⟩ := parseMethodType_eq_ok.1 h
    exact ⟨htext, hm⟩
  · obtain ⟨⟨hc, -⟩, htext⟩ := parseClassType_eq_ok.1 h
    exact ⟨htext, hc⟩
  · rw [← (parseFieldType_eq_ok.1 h).2, (parseFieldType_eq_ok.1 h').2]
  · rw [← (parseMethodType_eq_ok.1 h).2, (parseMethodType_eq_ok.1 h').2]
  · rw [← (parseClassType_eq_ok.1 h).2, (parseClassType_eq_ok.1 h').2]

/-- A method that sorts an array of comparable values and gives one of them back. -/
def sampleMethod : MethodType where
  typeParams := [⟨"T", none, [.object (.mk "java.lang.Comparable" [.lower (.variable "T")]) []]⟩]
  params := [.array (.variable "T"), .primitive .int]
  result := .value (.variable "T")
  throws := [.ofName "java.io.IOException"]

def sampleMethodText : String :=
  "<T::Ljava/lang/Comparable<-TT;>;>([TT;I)TT;^Ljava/io/IOException;"

theorem parse_sound_sample : parseMethodType .generic sampleMethodText = .ok sampleMethod ∧
    sampleMethod.text = sampleMethodText ∧ sampleMethod.WellFormed .generic := by
  have h : parseMethodType .generic sampleMethodText = .ok sampleMethod := by cbv
  obtain ⟨-, hmethod, -⟩ := parse_sound
  exact ⟨h, hmethod _ _ _ h⟩

/-- **Every well-formed value is read back from its text, unless a type parameter without a bound stands
in front of one whose name begins like a bound. Such a text is rejected.** -/
theorem parse_complete :
    (∀ form t, t.WellFormed form → parseFieldType form t.text = .ok t) ∧
    (∀ form m, m.WellFormed form →
      (AreParted m.typeParams → parseMethodType form m.text = .ok m) ∧
      (¬AreParted m.typeParams →
        ∃ e, parseMethodType form m.text = .error e ∧ e.form = .generic)) ∧
    ∀ c, c.WellFormed →
      (AreParted c.typeParams → parseClassType c.text = .ok c) ∧
      (¬AreParted c.typeParams → ∃ e, parseClassType c.text = .error e ∧ e.form = .generic) := by
  refine ⟨fun form t ht => ?_, fun form m hm => ⟨fun h => ?_, parseMethodType_unparted hm⟩,
    fun c hc => ⟨fun h => ?_, parseClassType_unparted hc⟩⟩
  · exact parseFieldType_eq_ok.2 ⟨ht, rfl⟩
  · exact parseMethodType_eq_ok.2 ⟨⟨hm, h⟩, rfl⟩
  · exact parseClassType_eq_ok.2 ⟨⟨hc, h⟩, rfl⟩

/-- A class with two type parameters, the first one without a bound. -/
def sampleGenericClass (second : String) : ClassType where
  typeParams := [⟨"K", none, []⟩, ⟨second, none, []⟩]
  superclass := .ofName "java.lang.Object"
  interfaces := []

theorem wellFormed_sampleGenericClass {second : String} (h : IsIdentifier second) :
    (sampleGenericClass second).WellFormed where
  typeParams := by
    intro p hp
    simp only [sampleGenericClass, List.mem_cons, List.not_mem_nil, or_false] at hp
    rcases hp with rfl | rfl
    · exact ⟨⟨by simp, by simp⟩, by simp, by simp⟩
    · exact ⟨h, by simp, by simp⟩
  superclass := ⟨trivial, JavaType.wellFormed_ofName ⟨by simp, by simp⟩⟩
  interfaces := by simp [sampleGenericClass]

theorem parse_complete_sample :
    parseClassType "<K:V:>Ljava/lang/Object;" = .ok (sampleGenericClass "V") ∧
      ∃ e, parseClassType "<K:T:>Ljava/lang/Object;" = .error e ∧ e.form = .generic := by
  obtain ⟨-, -, hclass⟩ := parse_complete
  have hparted : AreParted (sampleGenericClass "V").typeParams := by
    simp [AreParted, sampleGenericClass, TypeParam.Parted]
  have hunparted : ¬AreParted (sampleGenericClass "T").typeParams := by
    simp [AreParted, sampleGenericClass, TypeParam.Parted]
  have hread : "<K:V:>Ljava/lang/Object;" = (sampleGenericClass "V").text := by decide
  have hrejected : "<K:T:>Ljava/lang/Object;" = (sampleGenericClass "T").text := by decide
  rw [hread, hrejected]
  exact ⟨(hclass _ (wellFormed_sampleGenericClass ⟨by simp, by simp⟩)).1 hparted,
    (hclass _ (wellFormed_sampleGenericClass ⟨by simp, by simp⟩)).2 hunparted⟩

end Signature

end ApiSurface
