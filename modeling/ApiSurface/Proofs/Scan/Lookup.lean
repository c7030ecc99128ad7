import ApiSurface.Proofs.Container.Visits
import ApiSurface.Scan.Universe
import Mathlib.Data.List.Forall2

/-!
What a universe says about names, however often it has been asked before.

Asking fills the store of answers and makes archives remember places. Both hold only what the files
would say again, so every search has the result that it would have in a universe nobody has asked.
-/

namespace ApiSurface

/-- What a check of the result says of it says that there is one. -/
theorem exists_of_any {ε α : Type} {x : Except ε α} {p : α → Bool} (h : x.toOption.any p) :
    ∃ a, x = .ok a ∧ p a := by
  cases x with
  | error e => cases h
  | ok a => exact ⟨a, rfl, h⟩

namespace Universe

variable {fs : FileSystem} {u u' : Universe} {name : String}

/-! ## Reading from the first container -/

/-- The first container that has the entry is read, and no other. -/
theorem readFirst_eq (fs : FileSystem) (max : Nat) (entry : String) (cs : List Container) :
    (readFirst fs max entry cs).1 = match cs.find? (·.contains fs entry) with
      | some c => (c.read fs entry max).1.map some
      | none => .ok none := by
  induction cs with
  | nil => rfl
  | cons c rest ih =>
    rw [readFirst]
    by_cases hentry : c.contains fs entry
    · rw [if_pos hentry, List.find?_cons_of_pos hentry]
    · rw [if_neg hentry, List.find?_cons_of_neg hentry]
      exact ih

theorem readFirst_visited {cs cs' : List Container}
    (h : List.Forall₂ (Container.IsVisitOf fs) cs cs') (max : Nat) (entry : String) :
    (readFirst fs max entry cs').1 = (readFirst fs max entry cs).1 ∧
      List.Forall₂ (Container.IsVisitOf fs) cs (readFirst fs max entry cs').2 := by
  induction h with
  | nil => exact ⟨rfl, .nil⟩
  | @cons c c' rest rest' hc hrest ih =>
    obtain ⟨hresult, hvisited⟩ := ih
    obtain ⟨hread, hvisit⟩ := hc.read entry max
    rw [readFirst, readFirst, hc.contains entry]
    split
    · exact ⟨by dsimp only; rw [hread], .cons hvisit hrest⟩
    · exact ⟨hresult, .cons hc hvisited⟩

/-! ## Questions -/

/-- `u'` is `u` after any number of questions. What it has in store is what a look-up in `u` gives. -/
structure IsVisitOf (fs : FileSystem) (u u' : Universe) : Prop where
  artifact : u'.artifact = u.artifact
  definitions : u'.definitions = u.definitions
  maxClassFileSize : u'.maxClassFileSize = u.maxClassFileSize
  dependencies : List.Forall₂ (Container.IsVisitOf fs) u.dependencies u'.dependencies
  answers : ∀ name answer, u'.answers.lookup name = some answer → (u.lookUp fs name).1 = .ok answer

theorem isVisitOf_refl (h : u.answers = []) : IsVisitOf fs u u where
  artifact := rfl
  definitions := rfl
  maxClassFileSize := rfl
  dependencies := by
    induction u.dependencies with
    | nil => exact .nil
    | cons c rest ih => exact .cons (Container.isVisitOf_refl fs c) ih
  answers name answer hanswer := by
    rw [h] at hanswer
    cases hanswer

theorem IsVisitOf.artifactType? (h : IsVisitOf fs u u') (name : String) :
    u'.artifactType? name = u.artifactType? name := by
  rw [Universe.artifactType?, Universe.artifactType?, h.definitions]

theorem IsVisitOf.isKnown (h : IsVisitOf fs u u') (name : String) :
    u'.isKnown name = u.isKnown name := by
  rw [Universe.isKnown, Universe.isKnown, h.artifactType?]

theorem IsVisitOf.lookUp (h : IsVisitOf fs u u') (name : String) :
    (u'.lookUp fs name).1 = (u.lookUp fs name).1 ∧ IsVisitOf fs u (u'.lookUp fs name).2 := by
  obtain ⟨hresult, hdependencies⟩ :=
    readFirst_visited h.dependencies u.maxClassFileSize (EntryName.ofBinaryName name)
  rw [Universe.lookUp, Universe.lookUp, h.maxClassFileSize]
  refine ⟨by dsimp only; rw [hresult], ?_⟩
  exact ⟨h.artifact, h.definitions, rfl, hdependencies, h.answers⟩

/-- An answer that is kept is the one that was given. -/
theorem IsVisitOf.keep (h : IsVisitOf fs u u') {answer : Option TypeDecl}
    (hanswer : (u.lookUp fs name).1 = .ok answer) :
    IsVisitOf fs u { u' with answers := (name, answer) :: u'.answers } where
  artifact := h.artifact
  definitions := h.definitions
  maxClassFileSize := h.maxClassFileSize
  dependencies := h.dependencies
  answers other found hfound := by
    by_cases hname : other = name
    · subst hname
      rw [List.lookup_cons_self] at hfound
      obtain rfl := Option.some.inj hfound
      exact hanswer
    · have hother : (other == name) = false := by simpa using hname
      rw [List.lookup_cons, hother] at hfound
      exact h.answers other found hfound

/-- A name that is not one of the artifact is looked up, or the answer is one that a look-up gave. -/
theorem IsVisitOf.load (h : IsVisitOf fs u u') (hname : u.artifactType? name = none) :
    (u'.load fs name).1 = (u.lookUp fs name).1 ∧ IsVisitOf fs u (u'.load fs name).2 := by
  obtain ⟨hresult, hvisited⟩ := h.lookUp name
  rw [Universe.load, h.artifactType?, hname]
  dsimp only
  cases hstored : u'.answers.lookup name with
  | some answer => exact ⟨(h.answers name answer hstored).symm, h⟩
  | none =>
    dsimp only
    cases hlookUp : u'.lookUp fs name with
    | mk result visited =>
      rw [hlookUp] at hresult hvisited
      rw [← hresult]
      cases result with
      | error e => exact ⟨rfl, hvisited⟩
      | ok answer => exact ⟨rfl, hvisited.keep hresult.symm⟩

/-! ## Names that lead to nothing -/

/-- The first location of the classpath that has an entry for the name holds a class there, which can
be read and decoded. -/
def HasClass (fs : FileSystem) (u : Universe) (name : String) : Prop :=
  ∃ c bytes t, u.holder? fs name = some c ∧
    (c.read fs (EntryName.ofBinaryName name) u.maxClassFileSize).1 = .ok bytes ∧
    TypeDecl.ofBytes bytes = .ok t

/-- The name is not one of the platform, the artifact does not define it and the classpath has no class
for it. -/
def IsUnresolved (fs : FileSystem) (u : Universe) (name : String) : Prop :=
  isPlatformName name = false ∧ (∀ t ∈ typesOf u.definitions, t.name ≠ name) ∧ ¬HasClass fs u name

theorem artifactType?_eq_none : u.artifactType? name = none ↔
    ∀ t ∈ typesOf u.definitions, t.name ≠ name := by
  rw [artifactType?, List.find?_eq_none]
  simp

theorem hasClass_iff : HasClass fs u name ↔ ∃ t, (u.lookUp fs name).1 = .ok (some t) := by
  rw [HasClass, lookUp, holder?]
  dsimp only
  rw [readFirst_eq]
  cases u.dependencies.find? (·.contains fs (EntryName.ofBinaryName name)) with
  | none => simp [Except.map]
  | some c =>
    dsimp only
    cases hread : (c.read fs (EntryName.ofBinaryName name) u.maxClassFileSize).1 with
    | error e => simp [Except.map, hread]
    | ok bytes =>
      cases hdecoded : TypeDecl.ofBytes bytes <;>
        simp [Except.map, hread, hdecoded, Except.toOption]

/-- The test for names that lead to nothing. -/
def isUnresolved (fs : FileSystem) (u : Universe) (name : String) : Bool :=
  !u.isKnown name && !((u.lookUp fs name).1.toOption.join).isSome

theorem isUnresolved_iff : u.isUnresolved fs name = true ↔ IsUnresolved fs u name := by
  have hclass : ((u.lookUp fs name).1.toOption.join).isSome = true ↔ HasClass fs u name := by
    rw [hasClass_iff]
    cases (u.lookUp fs name).1 with
    | error e => simp [Except.toOption]
    | ok answer => cases answer <;> simp [Except.toOption]
  rw [isUnresolved, IsUnresolved, isKnown, ← hclass, ← artifactType?_eq_none]
  simp [and_assoc]

/-- A strict search stops at the first name that leads to nothing. -/
theorem IsVisitOf.unresolvedAmong (h : IsVisitOf fs u u') (names : List String) :
    (u'.unresolvedAmong fs true names).1 = names.find? (u.isUnresolved fs) ∧
      IsVisitOf fs u (u'.unresolvedAmong fs true names).2 := by
  induction names generalizing u' with
  | nil => exact ⟨rfl, h⟩
  | cons name rest ih =>
    rw [Universe.unresolvedAmong, h.isKnown]
    by_cases hknown : u.isKnown name
    · rw [if_pos hknown, List.find?_cons_of_neg (by simp [isUnresolved, hknown])]
      exact ih h
    · have hartifact : u.artifactType? name = none := by
        simp only [Universe.isKnown, Bool.or_eq_true, not_or] at hknown
        simpa using hknown.2
      obtain ⟨hresult, hvisited⟩ := h.load hartifact
      rw [if_neg hknown]
      cases hload : u'.load fs name with
      | mk result visited =>
        rw [hload] at hresult hvisited
        have hfound : u.isUnresolved fs name = !(result.toOption.join).isSome := by
          rw [isUnresolved, ← hresult]
          simp [hknown]
        rcases result with e | _ | t
        · rw [List.find?_cons_of_pos (by simp [hfound, Except.toOption])]
          exact ⟨rfl, hvisited⟩
        · rw [List.find?_cons_of_pos (by simp [hfound, Except.toOption])]
          exact ⟨rfl, hvisited⟩
        · rw [List.find?_cons_of_neg (by simp [hfound, Except.toOption])]
          exact ih hvisited

end Universe

end ApiSurface
