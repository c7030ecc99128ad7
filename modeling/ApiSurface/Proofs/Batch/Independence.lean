import ApiSurface.Proofs.Batch.Places
import Mathlib.Algebra.Ring.Nat

/-!
What comes of a batch does not hang on its schedule.

At every moment of every schedule each task is what it can be for its job, and what the jobs are, and
what comes of each, hangs only on how the files stood at the start. So all schedules that come to an end
have the same outcomes and leave the same files, and none goes on for ever.
-/

namespace ApiSurface

open FileSystem

namespace Batch

namespace Course

/-- The course of a batch has kept to its plan so far. A request that is not planned yet counts as one
that waits. -/
structure IsOnPlan (w : Workshop) (outputDir : Path) (start : FileSystem) (requests : List ScanRequest)
    (c : Course) : Prop where
  changed : ChangedAt (· ∈ workplaces start w (jobs start outputDir requests)) start c.files
  coming : ∀ r ∈ c.coming, r ∈ requests
  planned : ∃ planned, planned.length = c.tasks.length ∧
    planned ++ plan start outputDir c.claimed c.coming = jobs start outputDir requests
  fits : ∀ i job, (jobs start outputDir requests)[i]? = some job →
    Task.Fits (· ∈ workplaces start w (jobs start outputDir requests)) start w i c.files job
      (c.tasks[i]?.getD (.ofJob job))

/-- How many steps a batch still takes, at most. -/
def stepsLeft (w : Workshop) (start : FileSystem) (c : Course) : Nat :=
  (c.tasks.map (Task.stepsLeft w start)).sum +
    (c.coming.map fun r => ((scanning w.settings r).asked start).length + 10).sum

section Plan

variable {w : Workshop} {outputDir : Path} {start : FileSystem} {requests : List ScanRequest}
  {c c' : Course}

/-- A task takes the place of one that takes more steps. -/
theorem sum_set_lt {f : Task → Nat} {tasks : List Task} {i : Nat} {t t' : Task}
    (h : tasks[i]? = some t) (hlt : f t' < f t) : ((tasks.set i t').map f).sum < (tasks.map f).sum := by
  induction tasks generalizing i with
  | nil => cases h
  | cons first rest ih =>
    cases i with
    | zero =>
      obtain rfl := Option.some.inj h
      simpa using hlt
    | succ i =>
      have hrest := ih h
      simpa using hrest

theorem stepsLeft_ofJob_lt (outputDir : Path) (r : ScanRequest) (claimed : List Path) (fs : FileSystem) :
    (Task.ofJob (jobOf fs outputDir claimed r)).stepsLeft w start <
      ((scanning w.settings r).asked start).length + 10 := by
  unfold jobOf
  split
  · simp [Task.ofJob, Task.stepsLeft]
  · split <;> simp [Task.ofJob, Task.stepsLeft]

/-- Planning the next request. -/
theorem IsOnPlan.plan (hundisturbed : IsUndisturbed w outputDir start requests)
    (h : c.IsOnPlan w outputDir start requests) {r : ScanRequest} {rest : List ScanRequest}
    (hcoming : c.coming = r :: rest) :
    IsOnPlan w outputDir start requests
      { c with
        coming := rest
        claimed := (jobOf c.files outputDir c.claimed r).claim?.toList ++ c.claimed
        tasks := c.tasks ++ [.ofJob (jobOf c.files outputDir c.claimed r)] } := by
  obtain ⟨planned, hlength, hplanned⟩ := h.planned
  have hr : r ∈ requests := h.coming r (by simp [hcoming])
  have hjobOf : jobOf c.files outputDir c.claimed r = jobOf start outputDir c.claimed r :=
    jobOf_eq h.changed.seenAlike (fun _ => hundisturbed.artifact hr) c.claimed
  rw [hcoming, Batch.plan] at hplanned
  rw [hjobOf]
  refine ⟨h.changed, fun other hother => h.coming other (by simp [hcoming, hother]), ?_, ?_⟩
  · refine ⟨planned ++ [jobOf start outputDir c.claimed r], by simp [hlength], ?_⟩
    rw [List.append_assoc]
    exact hplanned
  · intro i job hjob
    -- What stands for a request is the same before and after it is planned.
    have hsame : (c.tasks ++ [Task.ofJob (jobOf start outputDir c.claimed r)])[i]?.getD (.ofJob job)
        = c.tasks[i]?.getD (.ofJob job) := by
      obtain hlt | heq | hgt := Nat.lt_trichotomy i c.tasks.length
      · rw [List.getElem?_append_left hlt]
      · subst heq
        rw [← hplanned, ← hlength, List.getElem?_append_right (Nat.le_refl _), Nat.sub_self] at hjob
        obtain rfl := Option.some.inj hjob
        simp
      · rw [List.getElem?_eq_none (by simp; omega), List.getElem?_eq_none (by omega)]
    rw [hsame]
    exact h.fits i job hjob

variable (hundisturbed : IsUndisturbed w outputDir start requests) (hsound : start.isSound)
include hundisturbed hsound

theorem isOnPlan_start : (Course.start start requests).IsOnPlan w outputDir start requests where
  changed := changedAt_start hsound _
  coming _ hr := hr
  planned := ⟨[], rfl, rfl⟩
  fits _ _ hjob := .of_job (hundisturbed.ownsPlaces hsound hjob)

/-- Beginning a request that waits. -/
theorem IsOnPlan.begin (h : c.IsOnPlan w outputDir start requests) {i : Nat} {r : ScanRequest}
    {report : Path} (htask : c.tasks[i]? = some (.waiting r report)) :
    IsOnPlan w outputDir start requests
      { c with tasks := c.tasks.set i (.reading r report (scanning w.settings r)) } := by
  obtain ⟨planned, hlength, hplanned⟩ := h.planned
  refine ⟨h.changed, h.coming, ⟨planned, by simp [hlength], hplanned⟩, fun j job hjob => ?_⟩
  have hfits := h.fits j job hjob
  by_cases heq : i = j
  · subst heq
    rw [htask, Option.getD_some] at hfits
    rw [List.getElem?_set_self (List.getElem?_eq_some_iff.1 htask).1, Option.getD_some]
    cases hfits with
    | waiting hstands =>
      exact .reading (run_scanning start w.settings r) (hundisturbed.asksCold hjob)
        (asksKnown_scanning hsound w.settings r) hstands
  · rwa [List.getElem?_set_ne heq]

/-- A step of one task: the others do not see it. -/
theorem IsOnPlan.work (hdevice : w.device = perform) (h : c.IsOnPlan w outputDir start requests)
    {i : Nat} {t t' : Task} {files : FileSystem} (htask : c.tasks[i]? = some t)
    (hstep : t.step w i c.files = some (files, t')) :
    IsOnPlan w outputDir start requests { c with files, tasks := c.tasks.set i t' } ∧
      t'.stepsLeft w start < t.stepsLeft w start := by
  obtain ⟨planned, hlength, hplanned⟩ := h.planned
  have hlt : i < c.tasks.length := (List.getElem?_eq_some_iff.1 htask).1
  obtain ⟨job, hjob⟩ : ∃ job, (jobs start outputDir requests)[i]? = some job := by
    rw [← hplanned, List.getElem?_append_left (by omega)]
    exact ⟨_, List.getElem?_eq_getElem (by omega)⟩
  have hfits := h.fits i job hjob
  rw [htask, Option.getD_some] at hfits
  have hadvances := hfits.step hdevice (hundisturbed.holdsNoClass hsound) h.changed
    (hundisturbed.ownsPlaces hsound hjob) hstep
  refine ⟨⟨hadvances.changed, h.coming, ⟨planned, by simp [hlength], hplanned⟩, ?_⟩, hadvances.less⟩
  intro j other hother
  by_cases heq : i = j
  · subst heq
    obtain rfl := Option.some.inj (hjob.symm.trans hother)
    rw [List.getElem?_set_self hlt, Option.getD_some]
    exact hadvances.fits
  · rw [List.getElem?_set_ne heq]
    refine (h.fits j other hother).congr (hundisturbed.ownsPlaces hsound hother) fun place hplace => ?_
    have hno : ¬ start.IsFolderAt place := hplace.choose_spec.2.1
    refine hadvances.keeps place hno fun hplace' => heq ?_
    exact hundisturbed.eq_of_place hsound hjob hother hplace' hplace

/-- Every step keeps to the plan and brings the batch nearer to its end. -/
theorem IsOnPlan.step (hdevice : w.device = perform) (h : c.IsOnPlan w outputDir start requests)
    (hstep : Step w outputDir c c') :
    c'.IsOnPlan w outputDir start requests ∧ c'.stepsLeft w start < c.stepsLeft w start := by
  cases hstep with
  | @plan r rest hcoming hroom =>
    refine ⟨h.plan hundisturbed hcoming, ?_⟩
    have hjob := @stepsLeft_ofJob_lt w start outputDir r c.claimed c.files
    simp only [stepsLeft, hcoming, List.map_append, List.map_cons, List.map_nil, List.sum_append,
      List.sum_cons, List.sum_nil]
    omega
  | begin htask hroom =>
    refine ⟨h.begin hundisturbed hsound htask, Nat.add_lt_add_right (sum_set_lt htask ?_) _⟩
    exact Nat.lt_succ_self _
  | work htask hstep =>
    obtain ⟨honPlan, hless⟩ := h.work hundisturbed hsound hdevice htask hstep
    exact ⟨honPlan, Nat.add_lt_add_right (sum_set_lt htask hless) _⟩

theorem IsOnPlan.of_reaches (hdevice : w.device = perform)
    (h : Reaches w outputDir (.start start requests) c) : c.IsOnPlan w outputDir start requests := by
  induction h with
  | refl => exact isOnPlan_start hundisturbed hsound
  | tail _ hstep ih => exact (ih.step hundisturbed hsound hdevice hstep).1

/-- No schedule goes on for ever. -/
theorem not_forever (hdevice : w.device = perform) {course : Nat → Course}
    (hstart : course 0 = .start start requests) :
    ¬ ∀ n, Step w outputDir (course n) (course (n + 1)) := by
  intro hsteps
  have honPlan : ∀ n, (course n).IsOnPlan w outputDir start requests := by
    intro n
    induction n with
    | zero => exact hstart ▸ isOnPlan_start hundisturbed hsound
    | succ n ih => exact (ih.step hundisturbed hsound hdevice (hsteps n)).1
  have hless : ∀ n, (course n).stepsLeft w start + n ≤ (course 0).stepsLeft w start := by
    intro n
    induction n with
    | zero => exact Nat.le_refl _
    | succ n ih =>
      have hlt := ((honPlan n).step hundisturbed hsound hdevice (hsteps n)).2
      omega
  have hend := hless ((course 0).stepsLeft w start + 1)
  omega

end Plan

/-! ## At the end -/

section Finished

variable {w : Workshop} {outputDir : Path} {start : FileSystem} {requests : List ScanRequest}
  {c c' : Course}

variable (h : c.IsOnPlan w outputDir start requests) (hfinished : c.IsFinished)
include h hfinished

theorem IsOnPlan.length_tasks : c.tasks.length = (jobs start outputDir requests).length := by
  obtain ⟨planned, hlength, hplanned⟩ := h.planned
  rw [hfinished.1, Batch.plan, List.append_nil] at hplanned
  rw [← hlength, hplanned]

theorem IsOnPlan.exists_done {i : Nat} {job : Job}
    (hjob : (jobs start outputDir requests)[i]? = some job) : ∃ outcome, c.tasks[i]? = some (.done outcome) ∧
      Task.Fits (· ∈ workplaces start w (jobs start outputDir requests)) start w i c.files job
        (.done outcome) := by
  have hlt : i < c.tasks.length := by
    rw [h.length_tasks hfinished]
    exact (List.getElem?_eq_some_iff.1 hjob).1
  have htask : c.tasks[i]? = some c.tasks[i] := List.getElem?_eq_getElem hlt
  have hfits := h.fits i job hjob
  obtain ⟨outcome, hdone⟩ := hfinished.2 c.tasks[i] (List.getElem_mem hlt)
  rw [htask, Option.getD_some, hdone] at hfits
  exact ⟨outcome, htask.trans (congrArg some hdone), hfits⟩

/-- What has come of the requests, in their order. -/
theorem IsOnPlan.outcomes_eq : c.outcomes = (jobs start outputDir requests).mapIdx (outcomeOf w start) := by
  have htasks : c.tasks = ((jobs start outputDir requests).mapIdx (outcomeOf w start)).map .done := by
    refine List.ext_getElem? fun i => ?_
    rw [List.getElem?_map, List.getElem?_mapIdx]
    cases hjob : (jobs start outputDir requests)[i]? with
    | none =>
      rw [List.getElem?_eq_none_iff, ← h.length_tasks hfinished, ← List.getElem?_eq_none_iff] at hjob
      exact hjob
    | some job =>
      obtain ⟨outcome, htask, hfits⟩ := h.exists_done hfinished hjob
      rw [htask, hfits.outcome_eq]
      rfl
  rw [outcomes, htasks, List.filterMap_map]
  exact List.filterMap_some

/-- Every schedule that comes to an end leaves the same at every place. -/
theorem IsOnPlan.sameAt (h' : c'.IsOnPlan w outputDir start requests) (hfinished' : c'.IsFinished)
    (place : Location) : SameAt c.files c'.files place := by
  by_cases hplace : place ∈ workplaces start w (jobs start outputDir requests)
  · obtain ⟨i, job, hjob, report, hclaim, hno, hleads⟩ := mem_workplaces.1 hplace
    obtain ⟨r, rfl⟩ := eq_scan_of_claim? hclaim
    obtain ⟨outcome, -, hfits⟩ := h.exists_done hfinished hjob
    obtain ⟨outcome', -, hfits'⟩ := h'.exists_done hfinished' hjob
    cases hfits with
    | done hfate hstands =>
      cases hfits' with
      | done hfate' hstands' =>
        obtain ⟨-, rfl⟩ := Prod.mk.inj (hfate.symm.trans hfate')
        exact hstands.sameAt hstands' hno hleads
  · exact (h.changed.keeps_start hplace).sameAt (h'.changed.keeps_start hplace)

end Finished

end Course

/-! ## Batches -/

/-- What has to come of the request at place `i` when nothing but the earlier requests counts. -/
structure IsOutcome (w : Workshop) (outputDir : Path) (s : State) (requests : List ScanRequest) (i : Nat)
    (r : ScanRequest) (outcome : Outcome) : Prop where
  /-- There is no path for the report. -/
  nameless : ∀ e, reportPath s.files outputDir r.artifact = .error e → outcome = .skipped r.artifact e
  /-- An earlier request has the path, whatever came of it. -/
  collision : ∀ path, reportPath s.files outputDir r.artifact = .ok path →
    AskedBefore s.files outputDir requests i path → ∃ e, outcome = .skipped r.artifact e ∧
      e = .outputCollision path.shown ∧ e.kind = .write
  /-- What making and writing the report gives when there is nothing else to be done. -/
  alone : ∀ path, reportPath s.files outputDir r.artifact = .ok path →
    ¬ AskedBefore s.files outputDir requests i path → outcome = (scanTo w i r path s).2

section Batch

variable {w : Workshop} {outputDir : Path} {s : State} {files : FileSystem} {requests : List ScanRequest}

/-- What the plan says is what has to come of each request. -/
theorem isOutcome_outcomeOf (hdevice : w.device = perform) (hsound : s.files.isSound)
    (hundisturbed : IsUndisturbed w outputDir s.files requests) {i : Nat} {r : ScanRequest}
    (hr : requests[i]? = some r) :
    ∃ outcome, ((jobs s.files outputDir requests).mapIdx (outcomeOf w s.files))[i]? = some outcome ∧
      IsOutcome w outputDir s requests i r outcome := by
  obtain ⟨herror, hok⟩ := @getElem?_plan s.files outputDir [] requests i r hr
  rw [List.getElem?_mapIdx]
  cases hpath : reportPath s.files outputDir r.artifact with
  | error e =>
    refine ⟨.skipped r.artifact e, by rw [herror e hpath]; rfl, fun e' he' => ?_, fun path h => ?_,
      fun path h => ?_⟩
    · rw [Except.error.inj (hpath.symm.trans he')]
    · cases hpath.symm.trans h
    · cases hpath.symm.trans h
  | ok path =>
    obtain ⟨hgiven, hfree⟩ := hok path hpath
    by_cases hasked : AskedBefore s.files outputDir requests i path
    · refine ⟨.skipped r.artifact (.outputCollision path.shown), by rw [hgiven (.inr hasked)]; rfl,
        fun e h => ?_, fun path' h _ => ?_, fun path' h hnot => ?_⟩
      · cases hpath.symm.trans h
      · obtain rfl := Except.ok.inj (hpath.symm.trans h)
        exact ⟨_, rfl, rfl, rfl⟩
      · obtain rfl := Except.ok.inj (hpath.symm.trans h)
        exact absurd hasked hnot
    · have hjob : (jobs s.files outputDir requests)[i]? = some (.scan r path) :=
        hfree fun h => h.elim nofun hasked
      refine ⟨(fate w s.files i r path).1, by rw [hjob]; rfl, fun e h => ?_, fun path' h hbefore => ?_,
        fun path' h _ => ?_⟩
      · cases hpath.symm.trans h
      · obtain rfl := Except.ok.inj (hpath.symm.trans h)
        exact absurd hbefore hasked
      · obtain rfl := Except.ok.inj (hpath.symm.trans h)
        exact (Task.scanTo_eq_fate hdevice (hundisturbed.holdsNoClass hsound) (changedAt_start hsound _)
          (hundisturbed.ownsPlaces hsound hjob) (hundisturbed.asksCold hjob)).symm

/-- **The result of a batch does not hang on its schedule.** -/
theorem scanBatch_of_schedule (hdevice : w.device = perform) (hmax : 1 ≤ w.settings.maxParallelScans)
    (hfolder : s.files.createFolders outputDir = (files, none)) (hsound : files.isSound)
    (hundisturbed : IsUndisturbed w outputDir files requests) :
    ∃ outcomes, (scanBatch w requests outputDir s).2 = .ok ⟨outcomes⟩ ∧
      outcomes.length = requests.length ∧
      (∀ i r, requests[i]? = some r → ∃ outcome, outcomes[i]? = some outcome ∧
        IsOutcome w outputDir { s with files } requests i r outcome) ∧
      (∀ course : Nat → Course, course 0 = .start files requests →
        ¬ ∀ n, Course.Step w outputDir (course n) (course (n + 1))) ∧
      ∀ c, Course.Reaches w outputDir (.start files requests) c →
        (c.IsFinished ∨ ∃ c', Course.Step w outputDir c c') ∧
        (c.IsFinished → c.outcomes = outcomes ∧
          ∀ path, c.files.readFile path = (scanBatch w requests outputDir s).1.files.readFile path) := by
  have hbatch : scanBatch w requests outputDir s =
      ((runFrom w outputDir 0 [] [] requests { s with files }).1,
        .ok ⟨(runFrom w outputDir 0 [] [] requests { s with files }).2⟩) := by
    simp only [scanBatch, hfolder]
  obtain ⟨own, hreaches, hfinished, hfiles, houtcomes⟩ :=
    @Course.reaches_sequential w outputDir hmax requests { s with files }
  have hown : own.IsOnPlan w outputDir files requests :=
    .of_reaches hundisturbed hsound hdevice hreaches
  have hall := hown.outcomes_eq hfinished
  refine ⟨(jobs files outputDir requests).mapIdx (outcomeOf w files), ?_, by simp, fun i r hr => ?_,
    fun course hstart => Course.not_forever hundisturbed hsound hdevice hstart, fun c hc => ⟨?_, ?_⟩⟩
  · rw [hbatch, ← houtcomes, hall]
  · exact isOutcome_outcomeOf (s := { s with files }) hdevice hsound hundisturbed hr
  · by_cases hend : c.IsFinished
    · exact .inl hend
    · exact .inr (Course.exists_step hmax hend)
  · intro hend
    have honPlan := Course.IsOnPlan.of_reaches hundisturbed hsound hdevice hc
    refine ⟨honPlan.outcomes_eq hend, fun path => ?_⟩
    rw [hbatch, ← hfiles]
    refine readFile_congr hown.changed.isFolderAt_current ?_ (hown.sameAt hfinished honPlan hend) path
    rw [honPlan.changed.current, hown.changed.current]

end Batch

/-! ### A batch of three requests -/

/-- A folder with a class, and one for reports. -/
def sampleFiles : FileSystem where
  root := .folder [("core", .folder [("A.class", .file 0)]), ("out", .folder [])]
  current := []
  contents := #[Scan.plainClass.toByteArray]

def sampleWorkshop : Workshop where
  settings := Scan.sampleSettings
  device := perform
  token i := if i = 0 then "first" else "other"

/-- A folder, an archive that is not there, and the folder again. -/
def sampleRequests : List ScanRequest :=
  [⟨⟨"core"⟩, []⟩, ⟨⟨"gone.jar"⟩, [⟨"core"⟩]⟩, ⟨⟨"core"⟩, []⟩]

def sampleOutcomes : List Outcome :=
  [.written ⟨"core"⟩ ⟨"out/core.txt"⟩ 1 0,
    .skipped ⟨"gone.jar"⟩ (.resolution "gone.jar" (.io (.os .notFound))),
    .skipped ⟨"core"⟩ (.outputCollision "out/core.txt")]

theorem isUndisturbed_sample : IsUndisturbed sampleWorkshop ⟨"out"⟩ sampleFiles sampleRequests where
  apart := by decide +kernel
  new := by decide +kernel
  distinct := by decide +kernel
  token i := by
    show '/' ∉ (if i = 0 then "first" else "other").toList
    split <;> decide

/-- The folder is reported, whatever comes of the other requests and whenever they are worked on. -/
theorem scanBatch_sample :
    (scanBatch sampleWorkshop sampleRequests ⟨"out"⟩ ⟨sampleFiles, .zero⟩).2 = .ok ⟨sampleOutcomes⟩ ∧
      ∀ c, Course.Reaches sampleWorkshop ⟨"out"⟩ (.start sampleFiles sampleRequests) c → c.IsFinished →
        c.outcomes = sampleOutcomes ∧
          c.files.readFile ⟨"out/core.txt"⟩ = .ok (Bytes.ofText "C: class A\n") := by
  have hsample : (scanBatch sampleWorkshop sampleRequests ⟨"out"⟩ ⟨sampleFiles, .zero⟩).2 =
      .ok ⟨sampleOutcomes⟩ := by
    decide +kernel
  obtain ⟨outcomes, hbatch, -, -, -, hall⟩ :=
    @scanBatch_of_schedule sampleWorkshop ⟨"out"⟩ ⟨sampleFiles, .zero⟩ sampleFiles sampleRequests rfl
      (by decide +kernel) rfl (by decide +kernel) isUndisturbed_sample
  obtain rfl : outcomes = sampleOutcomes :=
    BatchSummary.mk.inj (Except.ok.inj (hbatch.symm.trans hsample))
  refine ⟨hsample, fun c hc hfinished => ?_⟩
  obtain ⟨houtcomes, hread⟩ := (hall c hc).2 hfinished
  refine ⟨houtcomes, (hread ⟨"out/core.txt"⟩).trans ?_⟩
  decide +kernel

/-! ### A batch that gets in its own way -/

/-- No artifact and no place of the classpath is the path of a report. -/
def NamesNoReport (start : FileSystem) (outputDir : Path) (requests : List ScanRequest) : Prop :=
  ∀ r ∈ requests, ∀ path ∈ r.artifact :: r.classpath, ∀ r' ∈ requests,
    reportPath start outputDir r'.artifact ≠ .ok path

/-- Where the report on one folder is to stand, a link leads to the folder with the other one. -/
def linkedFiles : FileSystem where
  root := .folder [("core", .folder []), ("libs", .folder [("lib", .folder [])]),
    ("out", .folder [("core.txt", .link "../libs")])]
  current := []
  contents := #[]

def linkedWorkshop : Workshop :=
  { sampleWorkshop with settings := { Scan.sampleSettings with maxParallelScans := 1 } }

def linkedRequests : List ScanRequest :=
  [⟨⟨"core"⟩, []⟩, ⟨⟨"out/core.txt/lib"⟩, []⟩]

/-- It is not enough that nothing that is named is the path of a report: the path of the second artifact
leads through that of the first report. By itself the second artifact is reported, but in the batch its
path leads nowhere any more. -/
theorem scanBatch_linked :
    linkedFiles.isSound ∧ linkedFiles.createFolders ⟨"out"⟩ = (linkedFiles, none) ∧
      NamesNoReport linkedFiles ⟨"out"⟩ linkedRequests ∧
      ∃ outcomes outcome, (scanBatch linkedWorkshop linkedRequests ⟨"out"⟩ ⟨linkedFiles, .zero⟩).2 =
          .ok ⟨outcomes⟩ ∧ outcomes[1]? = some outcome ∧
        ¬ IsOutcome linkedWorkshop ⟨"out"⟩ ⟨linkedFiles, .zero⟩ linkedRequests 1
          ⟨⟨"out/core.txt/lib"⟩, []⟩ outcome := by
  have hbatch : (scanBatch linkedWorkshop linkedRequests ⟨"out"⟩ ⟨linkedFiles, .zero⟩).2 =
      .ok ⟨[.written ⟨"core"⟩ ⟨"out/core.txt"⟩ 0 0, .skipped ⟨"out/core.txt/lib"⟩
        (.resolution "out/core.txt/lib" (.io (.os .notFolder)))]⟩ := by
    decide +kernel
  have halone : (scanTo linkedWorkshop 1 ⟨⟨"out/core.txt/lib"⟩, []⟩ ⟨"out/lib.txt"⟩
      ⟨linkedFiles, .zero⟩).2 = .written ⟨"out/core.txt/lib"⟩ ⟨"out/lib.txt"⟩ 0 0 := by
    decide +kernel
  have hnames : NamesNoReport linkedFiles ⟨"out"⟩ linkedRequests := by
    unfold NamesNoReport
    decide +kernel
  refine ⟨by decide +kernel, rfl, hnames, _, _, hbatch, rfl, fun houtcome => ?_⟩
  have hnot : ¬ AskedBefore linkedFiles ⟨"out"⟩ linkedRequests 1 ⟨"out/lib.txt"⟩ := by
    rintro ⟨j, r, hj, hr, hpath⟩
    obtain rfl : j = 0 := by omega
    obtain rfl := Option.some.inj hr
    revert hpath
    decide +kernel
  have hwritten := houtcome.alone ⟨"out/lib.txt"⟩ (by decide +kernel) hnot
  rw [halone] at hwritten
  cases hwritten

end Batch

end ApiSurface
