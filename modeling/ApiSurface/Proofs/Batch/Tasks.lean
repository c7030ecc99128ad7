import ApiSurface.Proofs.Batch.Plan
import ApiSurface.Proofs.Batch.Sequential

/-!
One task among others.

A scan asks nothing about the places at which files change, and it has two places of its own for what it
writes. So whatever the other tasks do in between, it takes the steps that it would take by itself, and
what comes of it hangs on how the files stood at the start.
-/

namespace ApiSurface

open FileSystem

/-- No question that is asked is about a hot place. -/
def Asking.AsksCold (hot : Location → Prop) (start : FileSystem) (x : Asking α) : Prop :=
  ∀ q ∈ x.asked start, ∀ path, q.path? = some path → ∀ place, start.Meets path place → ¬ hot place

namespace Batch

open Replacement (temporary fault? IsOwn Stands Effect Left)

/-- What comes of a scan, and what is in its report if that is written, by how the files stood at the
start. -/
def fate (w : Workshop) (start : FileSystem) (i : Nat) (r : ScanRequest) (report : Path) :
    Outcome × Option Bytes :=
  match ApiSurface.scan start w.settings r with
  | .error e => (.skipped r.artifact e, none)
  | .ok found =>
    match fault? start (temporary (w.token i) report) report with
    | some e => (.skipped r.artifact (.write report.shown e), none)
    | none => (.written r.artifact report found.typeCount found.memberCount,
        some (Bytes.ofText found.text))

/-- What comes of a job. -/
def outcomeOf (w : Workshop) (start : FileSystem) (i : Nat) : Job → Outcome
  | .scan r report => (fate w start i r report).1
  | .skip artifact e => .skipped artifact e

namespace Task

/-- A task is what it can be for its job, and its two places show how far it has got. -/
inductive Fits (hot : Location → Prop) (start : FileSystem) (w : Workshop) (i : Nat) (fs : FileSystem) :
    Job → Task → Prop
  | skipped {artifact : Path} {e : ScanError} :
      Fits hot start w i fs (.skip artifact e) (.done (.skipped artifact e))
  | waiting {r : ScanRequest} {report : Path}
      (hstands : Stands start fs (temporary (w.token i) report) report none none) :
      Fits hot start w i fs (.scan r report) (.waiting r report)
  | reading {r : ScanRequest} {report : Path} {rest : Asking (Except ScanError Report)}
      (hresult : rest.run start = ApiSurface.scan start w.settings r)
      (hcold : rest.AsksCold hot start) (hknown : rest.AsksKnown start)
      (hstands : Stands start fs (temporary (w.token i) report) report none none) :
      Fits hot start w i fs (.scan r report) (.reading r report rest)
  | writing {r : ScanRequest} {report : Path} {found : Report} {held given : Option Bytes}
      {steps : List WriteStep} (hscan : ApiSurface.scan start w.settings r = .ok found)
      (hleft : Left start (temporary (w.token i) report) report (Bytes.ofText found.text) held given
        steps)
      (hstands : Stands start fs (temporary (w.token i) report) report held given) :
      Fits hot start w i fs (.scan r report) (.writing r report found steps)
  | clearing {r : ScanRequest} {report : Path} {found : Report} {held : Option Bytes} {e : IoError}
      (hscan : ApiSurface.scan start w.settings r = .ok found)
      (hfault : fault? start (temporary (w.token i) report) report = some e)
      (hstands : Stands start fs (temporary (w.token i) report) report held none) :
      Fits hot start w i fs (.scan r report) (.clearing r report e)
  | done {r : ScanRequest} {report : Path} {outcome : Outcome} {given : Option Bytes}
      (hfate : fate w start i r report = (outcome, given))
      (hstands : Stands start fs (temporary (w.token i) report) report none given) :
      Fits hot start w i fs (.scan r report) (.done outcome)

/-- How many steps a task still takes, at most. -/
def stepsLeft (w : Workshop) (start : FileSystem) : Task → Nat
  | .waiting r _ => ((scanning w.settings r).asked start).length + 9
  | .reading _ _ rest => (rest.asked start).length + 8
  | .writing _ _ _ steps => steps.length + 3
  | .clearing .. => 1
  | .done _ => 0

section Fits

variable {hot : Location → Prop} {start fs fs' : FileSystem} {w : Workshop} {i : Nat} {r : ScanRequest}
  {report : Path} {job : Job} {t t' : Task}

/-- The two places of a job are its own. -/
def OwnsPlaces (hot : Location → Prop) (start : FileSystem) (w : Workshop) (i : Nat) (job : Job) : Prop :=
  ∀ report, job.claim? = some report → IsOwn hot start (temporary (w.token i) report) report

/-- A place of the job, at which it may change something. -/
def IsPlaceOf (start : FileSystem) (w : Workshop) (i : Nat) (job : Job) (place : Location) : Prop :=
  ∃ report, job.claim? = some report ∧ ¬ start.IsFolderAt place ∧
    (start.LeadsTo (temporary (w.token i) report) place ∨ start.LeadsTo report place)

/-- Before anything is done for a job. -/
theorem Fits.of_job (hown : OwnsPlaces hot start w i job) : Fits hot start w i start job (.ofJob job) := by
  cases job with
  | skip artifact e => exact .skipped
  | scan r report => exact .waiting (Replacement.stands_start (hown report rfl))

/-- A finished task shows what comes of its job. -/
theorem Fits.outcome_eq {outcome : Outcome} (h : Fits hot start w i fs job (.done outcome)) :
    outcome = outcomeOf w start i job := by
  cases h with
  | skipped => rfl
  | done hfate _ => rw [outcomeOf, hfate]

/-- A task does not see what happens at other places. -/
theorem Fits.congr (h : Fits hot start w i fs job t) (hown : OwnsPlaces hot start w i job)
    (hkeeps : ∀ place, IsPlaceOf start w i job place → Keeps fs fs' place) :
    Fits hot start w i fs' job t := by
  have hstay : ∀ {r report held given}, job = .scan r report →
      Stands start fs (temporary (w.token i) report) report held given →
      Stands start fs' (temporary (w.token i) report) report held given := by
    rintro r report held given rfl hstands
    refine hstands.congr (hown report rfl) (fun place hplace hno => ?_) fun place hplace hno => ?_
    · exact hkeeps place ⟨report, rfl, hno, .inl hplace⟩
    · exact hkeeps place ⟨report, rfl, hno, .inr hplace⟩
  cases h with
  | skipped => exact .skipped
  | waiting hstands => exact .waiting (hstay rfl hstands)
  | reading hresult hcold hknown hstands => exact .reading hresult hcold hknown (hstay rfl hstands)
  | writing hscan hleft hstands => exact .writing hscan hleft (hstay rfl hstands)
  | clearing hscan hfault hstands => exact .clearing hscan hfault (hstay rfl hstands)
  | done hfate hstands => exact .done hfate (hstay rfl hstands)

/-- A step of one task changes single files at its own places, the task stays what it can be, and it has
less to do. -/
structure Advances (hot : Location → Prop) (start : FileSystem) (w : Workshop) (i : Nat) (job : Job)
    (fs fs' : FileSystem) (t t' : Task) : Prop where
  changed : ChangedAt hot start fs'
  keeps : ∀ place, ¬ start.IsFolderAt place → ¬ IsPlaceOf start w i job place → Keeps fs fs' place
  fits : Fits hot start w i fs' job t'
  less : t'.stepsLeft w start < t.stepsLeft w start

/-- A step that changes no file. -/
theorem Advances.of_same (h : ChangedAt hot start fs) (hfits : Fits hot start w i fs job t')
    (hless : t'.stepsLeft w start < t.stepsLeft w start) : Advances hot start w i job fs fs t t' :=
  ⟨h, fun place _ _ => Keeps.refl fs place, hfits, hless⟩

theorem Advances.of_effect (h : Effect hot start (temporary (w.token i) report) report fs fs')
    (hfits : Fits hot start w i fs' (.scan r report) t')
    (hless : t'.stepsLeft w start < t.stepsLeft w start) :
    Advances hot start w i (.scan r report) fs fs' t t' := by
  refine ⟨h.changed, fun place hno hplace => h.keeps place ?_ ?_, hfits, hless⟩
  · exact fun hleads => hplace ⟨report, rfl, hno, .inl hleads⟩
  · exact fun hleads => hplace ⟨report, rfl, hno, .inr hleads⟩

/-- Asking the next question, or beginning to write when there is none. -/
theorem advances_reading (hclass : HoldsNoClass hot) (h : ChangedAt hot start fs)
    {rest : Asking (Except ScanError Report)}
    (hresult : rest.run start = ApiSurface.scan start w.settings r) (hcold : rest.AsksCold hot start)
    (hknown : rest.AsksKnown start)
    (hstands : Stands start fs (temporary (w.token i) report) report none none)
    (hstep : Task.step w i fs (.reading r report rest) = some (fs', t')) :
    Advances hot start w i (.scan r report) fs fs' (.reading r report rest) t' := by
  cases rest with
  | ask q next =>
    obtain ⟨rfl, rfl⟩ := Prod.mk.inj (Option.some.inj hstep)
    have hanswer : fs.answer q = start.answer q :=
      h.seenAlike.answer_eq (h.sameClasses hclass) (hcold q List.mem_cons_self) fun id hid =>
        hknown id (hid ▸ List.mem_cons_self)
    rw [hanswer]
    refine .of_same h (.reading hresult (fun q' hq' => ?_) (fun id hid => ?_) hstands) ?_
    · exact hcold q' (List.mem_cons_of_mem _ hq')
    · exact hknown id (List.mem_cons_of_mem _ hid)
    · simp [stepsLeft, Asking.asked]
  | done result =>
    cases result with
    | error e =>
      obtain ⟨rfl, rfl⟩ := Prod.mk.inj (Option.some.inj hstep)
      have hfate : fate w start i r report = (.skipped r.artifact e, none) := by
        rw [fate, ← hresult, Asking.run]
      exact .of_same h (.done hfate hstands) (by simp [stepsLeft])
    | ok found =>
      obtain ⟨rfl, rfl⟩ := Prod.mk.inj (Option.some.inj hstep)
      exact .of_same h (.writing hresult.symm .all hstands) (by simp [stepsLeft, Replacement.steps])

/-- Doing the next step of writing, or being done when there is none. -/
theorem advances_writing (hdevice : w.device = perform) (h : ChangedAt hot start fs)
    (hown : IsOwn hot start (temporary (w.token i) report) report) {found : Report}
    {held given : Option Bytes} {steps : List WriteStep}
    (hscan : ApiSurface.scan start w.settings r = .ok found)
    (hleft : Left start (temporary (w.token i) report) report (Bytes.ofText found.text) held given steps)
    (hstands : Stands start fs (temporary (w.token i) report) report held given)
    (hstep : Task.step w i fs (.writing r report found steps) = some (fs', t')) :
    Advances hot start w i (.scan r report) fs fs' (.writing r report found steps) t' := by
  cases steps with
  | nil =>
    obtain ⟨rfl, rfl⟩ := Prod.mk.inj (Option.some.inj hstep)
    cases hleft with
    | moved hfault =>
      have hfate : fate w start i r report =
          (.written r.artifact report found.typeCount found.memberCount,
            some (Bytes.ofText found.text)) := by
        rw [fate, hscan]
        simp only [hfault]
      exact .of_same h (.done hfate hstands) (by simp [stepsLeft])
  | cons s rest =>
    rw [Task.step, hdevice] at hstep
    obtain ⟨fs₁, held', given', hperform, heffect, hleft', hstands'⟩ | ⟨e, hperform, hfault, rfl⟩ :=
      hleft.perform h hown hstands
    · rw [hperform] at hstep
      obtain ⟨rfl, rfl⟩ := Prod.mk.inj (Option.some.inj hstep)
      exact .of_effect heffect (.writing hscan hleft' hstands') (by simp [stepsLeft])
    · rw [hperform] at hstep
      obtain ⟨rfl, rfl⟩ := Prod.mk.inj (Option.some.inj hstep)
      exact .of_same h (.clearing hscan hfault hstands) (by simp [stepsLeft])

/-- Taking the temporary file away. -/
theorem advances_clearing (hdevice : w.device = perform) (h : ChangedAt hot start fs)
    (hown : IsOwn hot start (temporary (w.token i) report) report) {found : Report}
    {held : Option Bytes} {e : IoError} (hscan : ApiSurface.scan start w.settings r = .ok found)
    (hfault : fault? start (temporary (w.token i) report) report = some e)
    (hstands : Stands start fs (temporary (w.token i) report) report held none)
    (hstep : Task.step w i fs (.clearing r report e) = some (fs', t')) :
    Advances hot start w i (.scan r report) fs fs' (.clearing r report e) t' := by
  obtain ⟨fs₁, e?, hperform, heffect, hstands'⟩ := Replacement.perform_remove h hown hstands
  rw [Task.step, hdevice, hperform] at hstep
  obtain ⟨rfl, rfl⟩ := Prod.mk.inj (Option.some.inj hstep)
  have hfate : fate w start i r report = (.skipped r.artifact (.write report.shown e), none) := by
    rw [fate, hscan]
    simp only [hfault]
  exact .of_effect heffect (.done hfate hstands') (by simp [stepsLeft])

/-- Every step of a task brings it on, and is what it would be at the start. -/
theorem Fits.step (hdevice : w.device = perform) (hclass : HoldsNoClass hot) (h : ChangedAt hot start fs)
    (hown : OwnsPlaces hot start w i job) (hfits : Fits hot start w i fs job t)
    (hstep : t.step w i fs = some (fs', t')) : Advances hot start w i job fs fs' t t' := by
  cases hfits with
  | skipped => cases hstep
  | waiting _ => cases hstep
  | done _ _ => cases hstep
  | reading hresult hcold hknown hstands =>
    exact advances_reading hclass h hresult hcold hknown hstands hstep
  | @writing r report _ _ _ _ hscan hleft hstands =>
    exact advances_writing hdevice h (hown report rfl) hscan hleft hstands hstep
  | @clearing r report _ _ _ hscan hfault hstands =>
    exact advances_clearing hdevice h (hown report rfl) hscan hfault hstands hstep

/-- A task by itself stays what it can be for its job. -/
theorem Fits.alone (hdevice : w.device = perform) (hclass : HoldsNoClass hot)
    (hown : OwnsPlaces hot start w i job) {before after : FileSystem × Task}
    (hsteps : Relation.ReflTransGen (Alone w i) before after) (h : ChangedAt hot start before.1)
    (hfits : Fits hot start w i before.1 job before.2) : Fits hot start w i after.1 job after.2 := by
  suffices ChangedAt hot start after.1 ∧ Fits hot start w i after.1 job after.2 from this.2
  induction hsteps with
  | refl => exact ⟨h, hfits⟩
  | tail _ hstep ih =>
    have hadvances := ih.2.step hdevice hclass ih.1 hown hstep
    exact ⟨hadvances.changed, hadvances.fits⟩

/-- What comes of a scan is what comes of it when it is the only one. -/
theorem scanTo_eq_fate {s : State} (hdevice : w.device = perform) (hclass : HoldsNoClass hot)
    (h : ChangedAt hot s.files s.files) (hown : OwnsPlaces hot s.files w i (.scan r report))
    (hcold : (scanning w.settings r).AsksCold hot s.files) :
    (scanTo w i r report s).2 = (fate w s.files i r report).1 := by
  have hbegin : Fits hot s.files w i s.files (.scan r report) (.reading r report (scanning w.settings r)) :=
    .reading (run_scanning s.files w.settings r) hcold (asksKnown_scanning h.sound w.settings r)
      (Replacement.stands_start (hown report rfl))
  have hend := hbegin.alone hdevice hclass hown (scanTo_alone s) h
  cases hend with
  | done hfate _ => rw [hfate]

end Fits

end Task

end Batch

end ApiSurface
