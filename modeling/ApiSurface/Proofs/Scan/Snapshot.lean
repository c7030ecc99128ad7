import ApiSurface.Proofs.Scan.Answers
import ApiSurface.Proofs.Scan.LongerClasspath

/-!
The answers that a universe keeps while the files change.

An answer that has been given once is given again, whatever has become of the files since. It is the one
that the files gave then. An error is not kept, so the name is looked up again in the files as they are
by that time.
-/

namespace ApiSurface

namespace Container

variable {fs fs' : FileSystem} {c c' : Container}

/-- The file of an archive holds the same in both. What a folder holds is not asked for. -/
def KeepsContent (fs fs' : FileSystem) : Container → Prop
  | .archive _ file _ => fs'.content file = fs.content file
  | .folder _ => True

theorem KeepsContent.symm (h : c.KeepsContent fs fs') : c.KeepsContent fs' fs := by
  cases c with
  | archive path file a => exact Eq.symm h
  | folder path => trivial

theorem IsVisitOf.transfer (h : IsVisitOf fs c c') (hkeeps : c.KeepsContent fs fs') :
    IsVisitOf fs' c c' := by
  cases h with
  | @archive path file a a' h =>
    have hcontent : fs'.content file = fs.content file := hkeeps
    exact .archive path file (hcontent ▸ h)
  | folder path => exact .folder path

end Container

namespace Universe

variable {fs fs' : FileSystem} {u u' v w : Universe} {name : String}
  {answer : Option TypeDecl}

/-! ## Inquiries -/

/-- What a universe can be asked. -/
inductive Inquiry
  | load (name : String)
  | check (strict : Bool) (t : TypeDecl)
  | origin (name : String)
  | artifactType (name : String)

inductive Reply
  | load (result : Except ScanError (Option TypeDecl))
  | check (result : Except ScanError Unit)
  | origin (result : Option TypeOrigin)
  | artifactType (result : Option TypeDecl)

def ask (fs : FileSystem) (inquiry : Inquiry) (u : Universe) : Reply × Universe :=
  match inquiry with
  | .load name => let (result, u) := u.load fs name; (.load result, u)
  | .check strict t => let (result, u) := u.checkSupertypes fs strict t; (.check result, u)
  | .origin name => (.origin (u.origin? fs name), u)
  | .artifactType name => (.artifactType (u.artifactType? name), u)

/-- One inquiry after the other, each with the files as they are when it is made. -/
def askAll : List (FileSystem × Inquiry) → Universe → List Reply × Universe
  | [], u => ([], u)
  | (fs, inquiry) :: rest, u =>
    let (reply, u) := u.ask fs inquiry
    let (replies, u) := u.askAll rest
    (reply :: replies, u)

/-! ## Loads -/

/-- A load of a name, by itself or in a search for supertypes. -/
structure Loading where
  files : FileSystem
  start : Universe
  name : String

namespace Loading

def result (l : Loading) : Except ScanError (Option TypeDecl) :=
  (l.start.load l.files l.name).1

def finish (l : Loading) : Universe :=
  (l.start.load l.files l.name).2

end Loading

/-- The loads of a search for names that lead to no type. -/
def loadsAmong (fs : FileSystem) (strict : Bool) : List String → Universe → List Loading
  | [], _ => []
  | name :: rest, u =>
    if u.isKnown name then
      loadsAmong fs strict rest u
    else
      ⟨fs, u, name⟩ :: match u.load fs name with
        | (.ok (some _), u) => loadsAmong fs strict rest u
        | (_, u) => if strict then [] else loadsAmong fs strict rest u

/-- The loads that an inquiry makes. -/
def loadsOf (fs : FileSystem) (inquiry : Inquiry) (u : Universe) : List Loading :=
  match inquiry with
  | .load name => [⟨fs, u, name⟩]
  | .check strict t => loadsAmong fs strict t.supertypes u
  | .origin _ | .artifactType _ => []

/-- The loads of all inquiries, in their order. -/
def loadsOfAll : List (FileSystem × Inquiry) → Universe → List Loading
  | [], _ => []
  | (fs, inquiry) :: rest, u => loadsOf fs inquiry u ++ loadsOfAll rest (u.ask fs inquiry).2

/-- Each load starts with the universe that the one before has left, and no universe changes in
between. -/
inductive IsTrail : Universe → List Loading → Universe → Prop
  | nil (u : Universe) : IsTrail u [] u
  | cons (l : Loading) {ls : List Loading} {v : Universe} (h : IsTrail l.finish ls v) :
      IsTrail l.start (l :: ls) v

variable {l : Loading} {ls before after : List Loading}

theorem isTrail_nil : IsTrail u [] v ↔ v = u := by
  constructor
  · rintro ⟨⟩
    rfl
  · rintro rfl
    exact .nil v

theorem isTrail_cons : IsTrail u (l :: ls) v ↔ u = l.start ∧ IsTrail l.finish ls v := by
  constructor
  · rintro (_ | ⟨_, h⟩)
    exact ⟨rfl, h⟩
  · rintro ⟨rfl, h⟩
    exact .cons l h

theorem isTrail_append : IsTrail u (before ++ after) v ↔ ∃ w, IsTrail u before w ∧ IsTrail w after v := by
  induction before generalizing u with
  | nil => simp [isTrail_nil]
  | cons first rest ih => simp [isTrail_cons, ih, and_assoc]

theorem isTrail_loadsAmong (fs : FileSystem) (strict : Bool) (names : List String) (u : Universe) :
    IsTrail u (loadsAmong fs strict names u) (u.unresolvedAmong fs strict names).2 := by
  induction names generalizing u with
  | nil => exact .nil u
  | cons name rest ih =>
    rw [loadsAmong, unresolvedAmong]
    split
    · exact ih u
    · refine .cons ⟨fs, u, name⟩ ?_
      rw [Loading.finish]
      obtain ⟨result, v⟩ := u.load fs name
      rcases result with e | _ | t
      · cases strict
        · exact ih v
        · exact .nil v
      · cases strict
        · exact ih v
        · exact .nil v
      · exact ih v

theorem isTrail_loadsOf (fs : FileSystem) (inquiry : Inquiry) (u : Universe) :
    IsTrail u (loadsOf fs inquiry u) (u.ask fs inquiry).2 := by
  cases inquiry with
  | load name => exact .cons ⟨fs, u, name⟩ (.nil _)
  | check strict t =>
    have htrail := isTrail_loadsAmong fs strict t.supertypes u
    rw [loadsOf, ask, checkSupertypes]
    cases hsearch : u.unresolvedAmong fs strict t.supertypes with
    | mk found v =>
      rw [hsearch] at htrail
      cases found <;> exact htrail
  | origin name => exact .nil u
  | artifactType name => exact .nil u

/-- An inquiry with one load leaves what that load leaves. -/
theorem ask_of_loadsOf {inquiry : Inquiry} (hloads : loadsOf fs inquiry u = [l]) :
    (u.ask fs inquiry).2 = l.finish := by
  have htrail := isTrail_loadsOf fs inquiry u
  rw [hloads] at htrail
  exact isTrail_nil.1 (isTrail_cons.1 htrail).2

/-- A check of a type whose only supertype is not known loads that supertype. -/
theorem loadsOf_check {t : TypeDecl} (hsupertypes : t.supertypes = [name])
    (hunknown : u.isKnown name = false) (fs : FileSystem) (strict : Bool) :
    loadsOf fs (.check strict t) u = [⟨fs, u, name⟩] := by
  rw [loadsOf, hsupertypes, loadsAmong, if_neg (by simp [hunknown])]
  split
  · rfl
  · split <;> rfl

/-- The universe changes by loads and by nothing else. -/
theorem isTrail_loadsOfAll (run : List (FileSystem × Inquiry)) (u : Universe) :
    IsTrail u (loadsOfAll run u) (u.askAll run).2 := by
  induction run generalizing u with
  | nil => exact .nil u
  | cons step rest ih =>
    obtain ⟨fs, inquiry⟩ := step
    exact isTrail_append.2 ⟨_, isTrail_loadsOf fs inquiry u, ih _⟩

/-! ## One load -/

theorem load_of_answer (hartifact : u.artifactType? name = none)
    (hkept : u.answers.lookup name = some answer) : u.load fs name = (.ok answer, u) := by
  rw [load, hartifact]
  dsimp only
  rw [hkept]

theorem load_of_error {e : ScanError} (hartifact : u.artifactType? name = none)
    (hnew : u.answers.lookup name = none) (hlookUp : (u.lookUp fs name).1 = .error e) :
    u.load fs name = (.error e, (u.lookUp fs name).2) := by
  rw [load, hartifact]
  dsimp only
  rw [hnew]
  dsimp only
  split
  · next hpair =>
    rw [hpair] at hlookUp ⊢
    exact congrArg (·, _) hlookUp
  · next hpair =>
    rw [hpair] at hlookUp
    cases hlookUp

theorem load_of_ok (hartifact : u.artifactType? name = none) (hnew : u.answers.lookup name = none)
    (hlookUp : (u.lookUp fs name).1 = .ok answer) : u.load fs name =
      (.ok answer, { (u.lookUp fs name).2 with answers := (name, answer) :: u.answers }) := by
  rw [load, hartifact]
  dsimp only
  rw [hnew]
  dsimp only
  split
  · next hpair =>
    rw [hpair] at hlookUp
    cases hlookUp
  · next found v hpair =>
    have hkept : u.answers = v.answers := congrArg (fun p => p.2.answers) hpair
    rw [hpair] at hlookUp ⊢
    obtain rfl : found = answer := Except.ok.inj hlookUp
    rw [hkept]

/-- What a load can do. -/
inductive IsLoad (fs : FileSystem) (name : String) (u : Universe) :
    Except ScanError (Option TypeDecl) × Universe → Prop
  | own {t : TypeDecl} (hartifact : u.artifactType? name = some t) : IsLoad fs name u (.ok (some t), u)
  | kept {answer : Option TypeDecl} (hartifact : u.artifactType? name = none)
      (hkept : u.answers.lookup name = some answer) : IsLoad fs name u (.ok answer, u)
  | failed {e : ScanError} (hartifact : u.artifactType? name = none)
      (hnew : u.answers.lookup name = none) (hlookUp : (u.lookUp fs name).1 = .error e) :
      IsLoad fs name u (.error e, (u.lookUp fs name).2)
  | found {answer : Option TypeDecl} (hartifact : u.artifactType? name = none)
      (hnew : u.answers.lookup name = none) (hlookUp : (u.lookUp fs name).1 = .ok answer) :
      IsLoad fs name u
        (.ok answer, { (u.lookUp fs name).2 with answers := (name, answer) :: u.answers })

theorem isLoad_load (fs : FileSystem) (name : String) (u : Universe) :
    IsLoad fs name u (u.load fs name) := by
  cases hartifact : u.artifactType? name with
  | some t => exact load_of_artifactType? hartifact ▸ .own hartifact
  | none =>
    cases hstored : u.answers.lookup name with
    | some answer => exact load_of_answer hartifact hstored ▸ .kept hartifact hstored
    | none =>
      cases hlookUp : (u.lookUp fs name).1 with
      | error e => exact load_of_error hartifact hstored hlookUp ▸ .failed hartifact hstored hlookUp
      | ok answer => exact load_of_ok hartifact hstored hlookUp ▸ .found hartifact hstored hlookUp

/-- `v` knows what `u` knows and gives every answer that `u` keeps. -/
structure IsGrownInto (u v : Universe) : Prop where
  artifact : v.artifact = u.artifact
  definitions : v.definitions = u.definitions
  maxClassFileSize : v.maxClassFileSize = u.maxClassFileSize
  answers : ∀ name answer, u.answers.lookup name = some answer → v.answers.lookup name = some answer

theorem isGrownInto_refl (u : Universe) : u.IsGrownInto u := ⟨rfl, rfl, rfl, fun _ _ h => h⟩

theorem IsGrownInto.trans (h : u.IsGrownInto v) (h' : v.IsGrownInto w) : u.IsGrownInto w where
  artifact := h'.artifact.trans h.artifact
  definitions := h'.definitions.trans h.definitions
  maxClassFileSize := h'.maxClassFileSize.trans h.maxClassFileSize
  answers name answer hkept := h'.answers name answer (h.answers name answer hkept)

theorem IsGrownInto.artifactType? (h : u.IsGrownInto v) (name : String) :
    v.artifactType? name = u.artifactType? name := by
  rw [Universe.artifactType?, Universe.artifactType?, h.definitions]

theorem IsGrownInto.isKnown (h : u.IsGrownInto v) (name : String) : v.isKnown name = u.isKnown name := by
  rw [Universe.isKnown, Universe.isKnown, h.artifactType?]

theorem isGrownInto_load (fs : FileSystem) (name : String) (u : Universe) :
    u.IsGrownInto (u.load fs name).2 := by
  have hload := isLoad_load fs name u
  generalize u.load fs name = p at hload ⊢
  cases hload with
  | own | kept => exact isGrownInto_refl u
  | failed => exact ⟨rfl, rfl, rfl, fun _ _ h => h⟩
  | found hartifact hnew hlookUp =>
    refine ⟨rfl, rfl, rfl, fun other answer hkept => ?_⟩
    have hother : (other == name) = false := by
      rw [beq_eq_false_iff_ne]
      rintro rfl
      rw [hnew] at hkept
      cases hkept
    rwa [List.lookup_cons, hother]

/-- An answer that has been given is given again. -/
theorem Loading.result_again (hok : l.result = .ok answer) (hgrown : l.finish.IsGrownInto v)
    (fs : FileSystem) : (v.load fs l.name).1 = .ok answer := by
  have hload := isLoad_load l.files l.name l.start
  rw [Loading.result] at hok
  rw [Loading.finish] at hgrown
  generalize l.start.load l.files l.name = p at hload hok hgrown
  have hartifact := hgrown.artifactType? l.name
  cases hload with
  | own htype =>
    rw [load_of_artifactType? (hartifact.trans htype)]
    exact hok
  | kept htype hkept =>
    rw [load_of_answer (hartifact.trans htype) (hgrown.answers _ _ hkept)]
    exact hok
  | failed => cases hok
  | found htype =>
    rw [load_of_answer (hartifact.trans htype) (hgrown.answers _ _ List.lookup_cons_self)]
    exact hok

theorem IsTrail.isGrownInto (h : IsTrail u ls v) : u.IsGrownInto v := by
  induction h with
  | nil u => exact isGrownInto_refl u
  | cons l h ih => exact (isGrownInto_load l.files l.name l.start).trans ih

/-- As long as no load of the name has succeeded, there is no answer for it. -/
theorem IsTrail.lookup_eq_none (h : IsTrail u ls v) (hnew : u.answers.lookup name = none)
    (hfailed : ∀ l ∈ ls, l.name = name → ∀ answer, l.result ≠ .ok answer) :
    v.answers.lookup name = none := by
  induction h with
  | nil u => exact hnew
  | @cons l ls v h ih =>
    obtain ⟨hl, hls⟩ := List.forall_mem_cons.1 hfailed
    refine ih ?_ hls
    have hload := isLoad_load l.files l.name l.start
    rw [Loading.result] at hl
    rw [Loading.finish]
    generalize l.start.load l.files l.name = p at hload hl ⊢
    cases hload with
    | own | kept | failed => exact hnew
    | found hartifact hunknown hlookUp =>
      have hother : (name == l.name) = false := by
        rw [beq_eq_false_iff_ne]
        exact fun heq => hl heq.symm _ rfl
      rwa [List.lookup_cons, hother]

/-! ## Looking at the files -/

/-- The universe as it would be if it kept other answers. -/
def withAnswers (answers : List (String × Option TypeDecl)) (u : Universe) : Universe :=
  { u with answers }

/-- The universe without the answers that it keeps. -/
def unanswered (u : Universe) : Universe :=
  u.withAnswers []

/-- A name without an answer is looked up. -/
theorem load_unanswered (hnew : u.answers.lookup name = none) (fs : FileSystem) :
    (u.unanswered.load fs name).1 = (u.load fs name).1 := by
  have hload := isLoad_load fs name u
  generalize u.load fs name = p at hload ⊢
  have hempty : u.unanswered.answers.lookup name = none := rfl
  cases hload with
  | own htype => rw [@load_of_artifactType? fs u.unanswered name _ htype]
  | kept _ hkept =>
    rw [hnew] at hkept
    cases hkept
  | failed htype _ hlookUp => rw [@load_of_error fs u.unanswered name _ htype hempty hlookUp]
  | found htype _ hlookUp => rw [@load_of_ok fs u.unanswered name _ htype hempty hlookUp]

/-- The archives among the dependencies hold the same in both. -/
def KeepsArchives (u : Universe) (fs fs' : FileSystem) : Prop :=
  ∀ c ∈ u.dependencies, c.KeepsContent fs fs'

theorem KeepsArchives.symm (h : u.KeepsArchives fs fs') : u.KeepsArchives fs' fs :=
  fun c hc => (h c hc).symm

/-- Archives hold the same whatever happens to names, to new files and to files that none of them is. -/
theorem keepsArchives_elsewhere (hknown : u.KnowsFiles fs) :
    (∀ place value, u.KeepsArchives fs (fs.set place value)) ∧
    (∀ place content, u.KeepsArchives fs (fs.setNewFile place content)) ∧
    ∀ id content, (∀ path a, .archive path id a ∉ u.dependencies) →
      u.KeepsArchives fs (fs.setContent id content) := by
  refine ⟨fun place value c hc => ?_, fun place content c hc => ?_, fun id content hother c hc => ?_⟩
  · cases c <;> trivial
  · cases c with
    | archive path file a => exact FileSystem.content_push_of_lt (hknown _ hc)
    | folder path => trivial
  · cases c with
    | archive path file a =>
      refine FileSystem.content_setContent_of_ne ?_
      rintro rfl
      exact hother path a hc
    | folder path => trivial

theorem forall₂_transfer {cs cs' : List Container} (h : List.Forall₂ (Container.IsVisitOf fs) cs cs')
    (hkeeps : ∀ c ∈ cs, c.KeepsContent fs fs') : List.Forall₂ (Container.IsVisitOf fs') cs cs' := by
  induction h with
  | nil => exact .nil
  | cons hc hrest ih =>
    obtain ⟨hfirst, hkeeps⟩ := List.forall_mem_cons.1 hkeeps
    exact .cons (hc.transfer hfirst) (ih hkeeps)

/-- What archives remember goes by their files alone. -/
theorem IsVisitOf.transfer (h : IsVisitOf fs w u.unanswered) (hkeeps : w.KeepsArchives fs fs') :
    IsVisitOf fs' w u.unanswered where
  artifact := h.artifact
  definitions := h.definitions
  maxClassFileSize := h.maxClassFileSize
  dependencies := forall₂_transfer h.dependencies hkeeps
  answers := nofun

/-- A load goes by the answers that are kept and by the files. What archives remember does not show. -/
theorem IsVisitOf.load_answers (h : IsVisitOf fs w u.unanswered) (name : String) :
    (u.load fs name).1 = ((w.withAnswers u.answers).load fs name).1 ∧
      (u.load fs name).2.answers = ((w.withAnswers u.answers).load fs name).2.answers ∧
      IsVisitOf fs w (u.load fs name).2.unanswered := by
  have hsame : (w.withAnswers u.answers).artifactType? name = u.artifactType? name :=
    (h.artifactType? name).symm
  obtain ⟨hresult, hvisited⟩ := h.lookUp name
  have hsearch : ((w.withAnswers u.answers).lookUp fs name).1 = (u.lookUp fs name).1 := hresult.symm
  have hload := isLoad_load fs name u
  generalize u.load fs name = p at hload ⊢
  cases hload with
  | own htype =>
    rw [load_of_artifactType? (hsame.trans htype)]
    exact ⟨rfl, rfl, h⟩
  | kept htype hkept =>
    rw [@load_of_answer fs (w.withAnswers u.answers) name _ (hsame.trans htype) hkept]
    exact ⟨rfl, rfl, h⟩
  | failed htype hnew hlookUp =>
    rw [@load_of_error fs (w.withAnswers u.answers) name _ (hsame.trans htype) hnew (hsearch.trans hlookUp)]
    exact ⟨rfl, rfl, hvisited⟩
  | found htype hnew hlookUp =>
    rw [@load_of_ok fs (w.withAnswers u.answers) name _ (hsame.trans htype) hnew (hsearch.trans hlookUp)]
    exact ⟨rfl, rfl, hvisited⟩

/-- What has been found out since shows in no load. -/
theorem IsVisitOf.load_eq (h : IsVisitOf fs u v) (hfresh : u.answers = []) (name : String) :
    (v.load fs name).1 = (u.load fs name).1 := by
  cases hartifact : u.artifactType? name with
  | some t =>
    rw [load_of_artifactType? hartifact, load_of_artifactType? ((h.artifactType? name).trans hartifact)]
  | none => exact (h.load hartifact).1.trans ((isVisitOf_refl hfresh).load hartifact).1.symm

theorem IsTrail.visited (h : IsTrail u ls v) (hstart : IsVisitOf fs w u.unanswered)
    (hkeeps : ∀ l ∈ ls, w.KeepsArchives fs l.files) : IsVisitOf fs w v.unanswered := by
  induction h with
  | nil u => exact hstart
  | cons l h ih =>
    obtain ⟨hfirst, hkeeps⟩ := List.forall_mem_cons.1 hkeeps
    have hfinish := ((hstart.transfer hfirst).load_answers l.name).2.2
    exact ih (hfinish.transfer hfirst.symm) hkeeps

/-! ## What archives remember -/

/-- Both are `w` after any number of questions, and they keep the same answers. -/
structure IsAlike (fs : FileSystem) (w u u' : Universe) : Prop where
  left : IsVisitOf fs w u.unanswered
  right : IsVisitOf fs w u'.unanswered
  answers : u'.answers = u.answers

namespace IsAlike

theorem transfer (h : IsAlike fs w u u') (hkeeps : w.KeepsArchives fs fs') : IsAlike fs' w u u' :=
  ⟨h.left.transfer hkeeps, h.right.transfer hkeeps, h.answers⟩

theorem artifactType? (h : IsAlike fs w u u') (name : String) :
    u'.artifactType? name = u.artifactType? name :=
  (h.right.artifactType? name).trans (h.left.artifactType? name).symm

theorem origin? (h : IsAlike fs w u u') (name : String) : u'.origin? fs name = u.origin? fs name :=
  (h.right.origin? name).trans (h.left.origin? name).symm

theorem load (h : IsAlike fs w u u') (name : String) :
    (u'.load fs name).1 = (u.load fs name).1 ∧ IsAlike fs w (u.load fs name).2 (u'.load fs name).2 := by
  obtain ⟨hresult, hanswers, hvisited⟩ := h.left.load_answers name
  obtain ⟨hresult', hanswers', hvisited'⟩ := h.right.load_answers name
  rw [h.answers] at hresult' hanswers'
  exact ⟨hresult'.trans hresult.symm, hvisited, hvisited', hanswers'.trans hanswers.symm⟩

theorem unresolvedAmong (h : IsAlike fs w u u') (strict : Bool) (names : List String) :
    (u'.unresolvedAmong fs strict names).1 = (u.unresolvedAmong fs strict names).1 ∧
      IsAlike fs w (u.unresolvedAmong fs strict names).2 (u'.unresolvedAmong fs strict names).2 := by
  induction names generalizing u u' with
  | nil => exact ⟨rfl, h⟩
  | cons name rest ih =>
    have hknown : u'.isKnown name = u.isKnown name := by
      rw [isKnown, isKnown, h.artifactType?]
    obtain ⟨hresult, halike⟩ := h.load name
    rw [Universe.unresolvedAmong, Universe.unresolvedAmong, hknown]
    split
    · exact ih h
    · generalize u.load fs name = p at hresult halike ⊢
      generalize u'.load fs name = p' at hresult halike ⊢
      obtain ⟨result, v⟩ := p
      obtain ⟨result', v'⟩ := p'
      obtain rfl : result' = result := hresult
      rcases result' with e | _ | t
      · cases strict
        · exact ih halike
        · exact ⟨rfl, halike⟩
      · cases strict
        · exact ih halike
        · exact ⟨rfl, halike⟩
      · exact ih halike

theorem checkSupertypes (h : IsAlike fs w u u') (strict : Bool) (t : TypeDecl) :
    (u'.checkSupertypes fs strict t).1 = (u.checkSupertypes fs strict t).1 ∧
      IsAlike fs w (u.checkSupertypes fs strict t).2 (u'.checkSupertypes fs strict t).2 := by
  obtain ⟨hfound, halike⟩ := h.unresolvedAmong strict t.supertypes
  rw [Universe.checkSupertypes, Universe.checkSupertypes]
  generalize u.unresolvedAmong fs strict t.supertypes = p at hfound halike ⊢
  generalize u'.unresolvedAmong fs strict t.supertypes = p' at hfound halike ⊢
  obtain ⟨found, v⟩ := p
  obtain ⟨found', v'⟩ := p'
  obtain rfl : found' = found := hfound
  have hartifact : v'.artifact = v.artifact := halike.right.artifact.trans halike.left.artifact.symm
  cases found' with
  | none => exact ⟨rfl, halike⟩
  | some name => exact ⟨by dsimp only; rw [hartifact], halike⟩

theorem ask (h : IsAlike fs w u u') (inquiry : Inquiry) :
    (u'.ask fs inquiry).1 = (u.ask fs inquiry).1 ∧
      IsAlike fs w (u.ask fs inquiry).2 (u'.ask fs inquiry).2 := by
  cases inquiry with
  | load name =>
    obtain ⟨hresult, halike⟩ := h.load name
    exact ⟨congrArg Reply.load hresult, halike⟩
  | check strict t =>
    obtain ⟨hresult, halike⟩ := h.checkSupertypes strict t
    exact ⟨congrArg Reply.check hresult, halike⟩
  | origin name => exact ⟨congrArg Reply.origin (h.origin? name), h⟩
  | artifactType name => exact ⟨congrArg Reply.artifactType (h.artifactType? name), h⟩

/-- What archives remember shows in no reply, as long as they hold the same. -/
theorem askAll (h : IsAlike fs w u u') {run : List (FileSystem × Inquiry)}
    (hkeeps : ∀ step ∈ run, w.KeepsArchives fs step.1) : (u'.askAll run).1 = (u.askAll run).1 := by
  induction run generalizing u u' with
  | nil => rfl
  | cons step rest ih =>
    obtain ⟨hfirst, hrest⟩ := List.forall_mem_cons.1 hkeeps
    obtain ⟨fs', inquiry⟩ := step
    obtain ⟨hreply, halike⟩ := (h.transfer hfirst).ask inquiry
    exact congrArg₂ List.cons hreply (ih (halike.transfer hfirst.symm) hrest)

end IsAlike

/-! ## Errors -/

/-- The load leaves the universe as it was. Only an archive may remember more about its own file, and that
shows in no later reply as long as archives hold the same. -/
structure Loading.LeavesAsItWas (l : Loading) : Prop where
  same : l.finish = { l.start with dependencies := l.finish.dependencies }
  dependencies : List.Forall₂ (Container.IsVisitOf l.files) l.start.dependencies l.finish.dependencies
  folder : ∀ path, l.start.holder? l.files l.name = some (.folder path) → l.finish = l.start
  replies : ∀ run : List (FileSystem × Inquiry), (∀ step ∈ run, l.start.KeepsArchives l.files step.1) →
    (l.finish.askAll run).1 = (l.start.askAll run).1

/-- Reading from a folder changes no container. -/
theorem readFirst_of_folder {cs : List Container} {entry : String} {path : Path}
    (h : cs.find? (·.contains fs entry) = some (.folder path)) (max : Nat) :
    (readFirst fs max entry cs).2 = cs := by
  induction cs with
  | nil => rfl
  | cons c rest ih =>
    rw [readFirst]
    by_cases hentry : c.contains fs entry
    · rw [List.find?_cons_of_pos hentry] at h
      obtain rfl := Option.some.inj h
      rw [if_pos hentry]
      rfl
    · rw [List.find?_cons_of_neg hentry] at h
      rw [if_neg hentry]
      exact congrArg (c :: ·) (ih h)

theorem Loading.leavesAsItWas {e : ScanError} (hfailed : l.result = .error e) : l.LeavesAsItWas := by
  have hstart : IsVisitOf l.files l.start.unanswered l.start.unanswered := isVisitOf_refl rfl
  have hvisited := (hstart.lookUp l.name).2
  have hfinish : l.finish = (l.start.lookUp l.files l.name).2 := by
    have hload := isLoad_load l.files l.name l.start
    rw [Loading.result] at hfailed
    rw [Loading.finish]
    generalize l.start.load l.files l.name = p at hload hfailed ⊢
    cases hload with
    | own | kept | found => cases hfailed
    | failed => rfl
  have halike : IsAlike l.files l.start.unanswered l.start l.finish :=
    ⟨hstart, hfinish ▸ hvisited, hfinish ▸ rfl⟩
  constructor
  case same => exact hfinish ▸ rfl
  case dependencies => exact hfinish ▸ hvisited.dependencies
  case folder =>
    intro path hholder
    rw [hfinish, lookUp]
    dsimp only
    rw [readFirst_of_folder hholder]
  case replies => exact fun run => halike.askAll

/-! ## Runs -/

/-- **The answers that are kept are a snapshot.** Whatever the files become from one inquiry to the next:
the first load of a name that succeeds gives what a look-up without answers gives at that moment, and every
later load of the name gives the same. A load that fails leaves everything as it was. -/
theorem load_snapshot {max : Nat} {r : ScanRequest} (hresolve : resolve fs max r = .ok u)
    (run : List (FileSystem × Inquiry)) :
    IsTrail u (loadsOfAll run u) (u.askAll run).2 ∧
    ∀ before l after, loadsOfAll run u = before ++ l :: after →
      (∀ answer, l.result = .ok answer →
        ∀ later ∈ after, later.name = l.name → later.result = .ok answer) ∧
      ((∀ earlier ∈ before, earlier.name = l.name → ∀ answer, earlier.result ≠ .ok answer) →
        l.result = (l.start.unanswered.load l.files l.name).1 ∧
        ((∀ other ∈ before ++ [l], u.KeepsArchives fs other.files) →
          l.result = (u.load l.files l.name).1)) ∧
      ∀ e, l.result = .error e → l.LeavesAsItWas := by
  have hfresh := (asked_resolve hresolve).2
  have htrail := isTrail_loadsOfAll run u
  refine ⟨htrail, fun before l after hsplit => ?_⟩
  rw [hsplit] at htrail
  obtain ⟨w, hbefore, hrest⟩ := isTrail_append.1 htrail
  obtain ⟨rfl, hafter⟩ := isTrail_cons.1 hrest
  refine ⟨fun answer hok later hlater hname => ?_, fun hfirst => ?_, fun e => Loading.leavesAsItWas⟩
  · obtain ⟨between, others, rfl⟩ := List.append_of_mem hlater
    obtain ⟨w, hbetween, hlast⟩ := isTrail_append.1 hafter
    obtain ⟨rfl, -⟩ := isTrail_cons.1 hlast
    rw [Loading.result, hname]
    exact l.result_again hok hbetween.isGrownInto later.files
  · have hnew : l.start.answers.lookup l.name = none :=
      hbefore.lookup_eq_none (by rw [hfresh]; rfl) hfirst
    have hlooked := (load_unanswered hnew l.files).symm
    refine ⟨hlooked, fun hkeeps => hlooked.trans ?_⟩
    have hstart : IsVisitOf fs u u.unanswered := by
      rw [unanswered, withAnswers, ← hfresh]
      exact isVisitOf_refl hfresh
    have hvisited := hbefore.visited hstart fun other hother => hkeeps other (List.mem_append_left _ hother)
    exact (hvisited.transfer (hkeeps l List.mem_concat_self)).load_eq hfresh l.name

/-- The class `B` with more bytes behind it than may be read. -/
def overlongFiles : FileSystem :=
  Scan.adoptedFiles.setContent 1 (Scan.parentClass ++ List.replicate 1024 0).toByteArray

/-- The class `B` taken away. -/
def strippedFiles : FileSystem :=
  Scan.adoptedFiles.set ["lib", "B.class"] none

/-- A load of `B` while it is too long. -/
def overlongLoad (u : Universe) : Loading :=
  ⟨overlongFiles, u, "B"⟩

/-- The next load, with `B` as it should be. -/
def adoptedLoad (u : Universe) : Loading :=
  ⟨Scan.adoptedFiles, (overlongLoad u).finish, "B"⟩

/-- The load after it, without `B`. -/
def strippedLoad (u : Universe) : Loading :=
  ⟨strippedFiles, (adoptedLoad u).finish, "B"⟩

/-- What is known of the classes `A` and `B` before anything is asked. -/
theorem resolve_adoptedFiles : ∃ u t t',
    resolve Scan.adoptedFiles 1024 ⟨⟨"classes"⟩, [⟨"lib"⟩]⟩ = .ok u ∧ u.dependencies = [.folder ⟨"lib"⟩] ∧
    u.artifactType? "A" = some t ∧ t.supertypes = ["B"] ∧ u.isKnown "B" = false ∧
    (∃ e, (overlongLoad u).result = .error e) ∧
    t'.name = "B" ∧ (u.load Scan.adoptedFiles "B").1 = .ok (some t') := by
  have hfacts : (resolve Scan.adoptedFiles 1024 ⟨⟨"classes"⟩, [⟨"lib"⟩]⟩).toOption.any (fun u =>
      u.dependencies = [.folder ⟨"lib"⟩] ∧
      (u.artifactType? "A").any (fun t => t.supertypes = ["B"]) ∧ u.isKnown "B" = false ∧
      (overlongLoad u).result.toOption = none ∧
      (u.load Scan.adoptedFiles "B").1.toOption.any (fun t => t.any fun t => t.name = "B")) := by
    decide +kernel
  obtain ⟨u, hresolve, hu⟩ := exists_of_any hfacts
  obtain ⟨hdependencies, hartifact, hunknown, hoverlong, hclass⟩ := of_decide_eq_true hu
  obtain ⟨t, ht, hsupertypes⟩ := Option.any_eq_true _ _ |>.1 hartifact
  obtain ⟨answer, hanswer, hnamed⟩ := exists_of_any hclass
  obtain ⟨t', rfl, hname⟩ := Option.any_eq_true _ _ |>.1 hnamed
  have hfailed : ∃ e, (overlongLoad u).result = .error e := by
    cases hresult : (overlongLoad u).result with
    | error e => exact ⟨e, rfl⟩
    | ok answer =>
      rw [hresult] at hoverlong
      cases hoverlong
  exact ⟨u, t, t', hresolve, hdependencies, ht, of_decide_eq_true hsupertypes, hunknown, hfailed,
    of_decide_eq_true hname, hanswer⟩

/-- The loads of the three inquiries about `B`. -/
theorem loadsOfAll_adopted {t : TypeDecl} (hsupertypes : t.supertypes = ["B"])
    (hunknown : u.isKnown "B" = false) :
    loadsOfAll [(overlongFiles, .load "B"), (Scan.adoptedFiles, .check true t),
      (strippedFiles, .load "B")] u = [overlongLoad u, adoptedLoad u, strippedLoad u] := by
  have hknown : (overlongLoad u).finish.isKnown "B" = false :=
    ((isGrownInto_load overlongFiles "B" u).isKnown "B").trans hunknown
  have hcheck : loadsOf Scan.adoptedFiles (.check true t) (overlongLoad u).finish = [adoptedLoad u] :=
    loadsOf_check hsupertypes hknown Scan.adoptedFiles true
  show overlongLoad u :: (loadsOf Scan.adoptedFiles (.check true t) (overlongLoad u).finish ++
    [⟨strippedFiles, ((overlongLoad u).finish.ask Scan.adoptedFiles (.check true t)).2, "B"⟩]) = _
  rw [hcheck, ask_of_loadsOf hcheck]
  rfl

/-- The first two loads read no archive. -/
theorem keepsArchives_adopted (hdependencies : u.dependencies = [.folder ⟨"lib"⟩]) :
    ∀ other ∈ [overlongLoad u] ++ [adoptedLoad u], u.KeepsArchives Scan.adoptedFiles other.files := by
  have hfolders : ∀ c ∈ u.dependencies, c = .folder ⟨"lib"⟩ := by simp [hdependencies]
  intro other hother
  obtain rfl | rfl := List.mem_pair.1 hother
  · have hknown : u.KnowsFiles Scan.adoptedFiles := fun c hc => by rw [hfolders c hc]; trivial
    refine (keepsArchives_elsewhere hknown).2.2 1 _ fun path a hmem => ?_
    cases hfolders _ hmem
  · exact fun c hc => by rw [hfolders c hc]; trivial

/-- The superclass of `A` is too long at first. When it has been found in a search for supertypes it can
be taken away. -/
theorem load_snapshot_adopted : ∃ u t,
    resolve Scan.adoptedFiles 1024 ⟨⟨"classes"⟩, [⟨"lib"⟩]⟩ = .ok u ∧ u.artifactType? "A" = some t ∧
    ∃ failed found again,
      loadsOfAll [(overlongFiles, .load "B"), (Scan.adoptedFiles, .check true t),
        (strippedFiles, .load "B")] u = [failed, found, again] ∧
      (∃ e, failed.result = .error e) ∧ failed.LeavesAsItWas ∧
      ∃ t', t'.name = "B" ∧ found.result = .ok (some t') ∧ again.result = .ok (some t') := by
  obtain ⟨u, t, t', hresolve, hdependencies, ht, hsupertypes, hunknown, ⟨e, he⟩, hname, hclass⟩ :=
    resolve_adoptedFiles
  have hloads := loadsOfAll_adopted hsupertypes hunknown
  obtain ⟨-, hrun⟩ := load_snapshot hresolve
    [(overlongFiles, .load "B"), (Scan.adoptedFiles, .check true t), (strippedFiles, .load "B")]
  obtain ⟨-, -, hleaves⟩ := hrun [] (overlongLoad u) [adoptedLoad u, strippedLoad u] hloads
  obtain ⟨hagain, hfirst, -⟩ := hrun [overlongLoad u] (adoptedLoad u) [strippedLoad u] hloads
  have hunanswered : ∀ earlier ∈ [overlongLoad u], earlier.name = "B" →
      ∀ answer, earlier.result ≠ .ok answer := by
    intro earlier hearlier _ answer hok
    obtain rfl := List.mem_singleton.1 hearlier
    cases he.symm.trans hok
  have hok : (adoptedLoad u).result = .ok (some t') :=
    ((hfirst hunanswered).2 (keepsArchives_adopted hdependencies)).trans hclass
  exact ⟨u, t, hresolve, ht, overlongLoad u, adoptedLoad u, strippedLoad u, hloads, ⟨e, he⟩, hleaves e he,
    t', hname, hok, hagain _ hok (strippedLoad u) (List.mem_singleton_self _) rfl⟩

end Universe

end ApiSurface
