import ApiSurface.Proofs.Batch.Schedule

/-!
A batch that works on one scan after the other is a schedule.

Its scans are begun in the order of the requests. The oldest one is brought to its end when there has to
be room for one more, and the others at the end of the batch, so each scan does all its steps in a row.
-/

namespace ApiSurface

namespace Batch

open Relation (ReflTransGen)

/-! ## One task by itself -/

namespace Task

/-- A task takes a step, and nothing else happens. -/
def Alone (w : Workshop) (i : Nat) (before after : FileSystem × Task) : Prop :=
  before.2.step w i before.1 = some after

/-- The task for a job that nothing keeps from being done. -/
def begun (w : Workshop) : Job → Task
  | .scan r report => .reading r report (scanning w.settings r)
  | .skip artifact e => .done (.skipped artifact e)

section Alone

variable {w : Workshop} {i : Nat} {r : ScanRequest} {report : Path}

theorem isRunning_begun (job : Job) : (begun w job).isRunning = job.isScan := by
  cases job <;> rfl

theorem isWaiting_begun (job : Job) : (begun w job).isWaiting = false := by
  cases job <;> rfl

/-- A scan to which files answer that do not change comes to its result. -/
theorem reads (fs : FileSystem) (rest : Asking (Except ScanError Report)) :
    ReflTransGen (Alone w i) (fs, .reading r report rest)
      (fs, .reading r report (.done (rest.run fs))) := by
  induction rest with
  | done result => exact .refl
  | ask q next ih => exact .head rfl (ih (fs.answer q))

/-- Writing goes on to its end, or up to the first step that fails. -/
theorem writes {found : Report} (steps : List WriteStep) (fs : FileSystem) :
    ReflTransGen (Alone w i) (fs, .writing r report found steps)
      (match w.device.run steps fs with
      | (fs, none) => (fs, .writing r report found [])
      | (fs, some e) => (fs, .clearing r report e)) := by
  induction steps generalizing fs with
  | nil => exact .refl
  | cons s rest ih =>
    rw [WriteDevice.run]
    cases hdevice : w.device fs s with
    | mk fs' e? =>
      cases e? with
      | none =>
        refine .head ?_ (ih fs')
        simp only [Alone, step, hdevice]
      | some e =>
        refine .single ?_
        simp only [Alone, step, hdevice]

/-- A scan that has been begun does what making and writing a report does. -/
theorem scanTo_alone (s : State) : ReflTransGen (Alone w i)
    (s.files, .reading r report (scanning w.settings r))
    ((scanTo w i r report s).1.files, .done (scanTo w i r report s).2) := by
  refine (reads s.files _).trans ?_
  rw [run_scanning, scanTo]
  cases hscan : ApiSurface.scan s.files w.settings r with
  | error e => exact .single rfl
  | ok found =>
    refine .head rfl ((writes _ s.files).trans ?_)
    simp only [replaceFile]
    obtain ⟨fs', e?⟩ := w.device.run
      (Replacement.steps (w.token i) report (Bytes.ofText found.text)) s.files
    cases e? <;> exact .single rfl

theorem work_alone (job : Job) (s : State) : ReflTransGen (Alone w i) (s.files, begun w job)
    ((work w i job s).1.files, .done (work w i job s).2) := by
  cases job with
  | scan r report => exact scanTo_alone s
  | skip artifact e => exact .refl

end Alone

end Task

/-! ## Queues -/

section Queues

/-- The jobs have their places in the batch from `n` on. -/
def IsNumbered : Nat → Queue → Prop
  | _, [] => True
  | n, (i, _) :: rest => i = n ∧ IsNumbered (n + 1) rest

theorem isNumbered_append {n : Nat} {front back : Queue} :
    IsNumbered n (front ++ back) ↔ IsNumbered n front ∧ IsNumbered (n + front.length) back := by
  induction front generalizing n with
  | nil => simp [IsNumbered]
  | cons first rest ih =>
    have hlength : n + (first :: rest).length = n + 1 + rest.length := by simp; omega
    rw [List.cons_append, IsNumbered, IsNumbered, ih, and_assoc, hlength]

theorem length_workAll (w : Workshop) (queue : Queue) (s : State) :
    (workAll w queue s).2.length = queue.length := by
  induction queue generalizing s with
  | nil => rfl
  | cons first rest ih => simp [workAll, ih]

theorem splitAtScan_append (queue : Queue) : (splitAtScan queue).1 ++ (splitAtScan queue).2 = queue := by
  induction queue with
  | nil => rfl
  | cons first rest ih =>
    rw [splitAtScan]
    split
    · rfl
    · rw [List.cons_append, ih]

/-- Of the jobs that may wait, there is one scan less. -/
theorem countP_splitAtScan {queue : Queue} (h : 0 < queue.countP (·.2.isScan)) :
    (splitAtScan queue).2.countP (·.2.isScan) + 1 = queue.countP (·.2.isScan) := by
  induction queue with
  | nil => simp at h
  | cons first rest ih =>
    rw [splitAtScan]
    by_cases hscan : first.2.isScan = true
    · simp [hscan]
    · rw [List.countP_cons_of_neg (by simpa using hscan)] at h ⊢
      simpa [hscan] using ih h

/-- The jobs that are due and those that may wait are all of them, and then there is room for one more
scan. -/
theorem makeRoom_spec {maxScans : Nat} {waiting : Queue} (hmax : 1 ≤ maxScans)
    (h : waiting.countP (·.2.isScan) ≤ maxScans) :
    (makeRoom maxScans waiting).1 ++ (makeRoom maxScans waiting).2 = waiting ∧
      (makeRoom maxScans waiting).2.countP (·.2.isScan) < maxScans := by
  unfold makeRoom
  split
  · have hsplit := @countP_splitAtScan waiting (by omega)
    exact ⟨splitAtScan_append waiting, by omega⟩
  · exact ⟨rfl, Nat.lt_of_not_ge ‹_›⟩

/-- The jobs are split for a further one, which finds room if it is a scan. -/
theorem split_spec {maxScans : Nat} {waiting due later : Queue} {job : Job} (hmax : 1 ≤ maxScans)
    (h : waiting.countP (·.2.isScan) ≤ maxScans)
    (hsplit : (if job.isScan then makeRoom maxScans waiting else ([], waiting)) = (due, later)) :
    due ++ later = waiting ∧ (job.isScan → later.countP (·.2.isScan) < maxScans) ∧
      ∀ i, (later ++ [(i, job)] : Queue).countP (·.2.isScan) ≤ maxScans := by
  cases hscan : job.isScan with
  | true =>
    obtain ⟨happend, hroom⟩ := makeRoom_spec hmax h
    rw [hscan, if_pos rfl] at hsplit
    rw [hsplit] at happend hroom
    refine ⟨happend, fun _ => hroom, fun i => ?_⟩
    rw [List.countP_append, List.countP_singleton, if_pos hscan]
    exact hroom
  | false =>
    rw [hscan, if_neg Bool.false_ne_true] at hsplit
    obtain ⟨rfl, rfl⟩ := Prod.mk.inj hsplit
    refine ⟨rfl, fun hno => absurd hno Bool.false_ne_true, fun i => ?_⟩
    rw [List.countP_append, List.countP_singleton, if_neg (by simp [hscan])]
    exact h

end Queues

/-! ## Batches -/

namespace Course

variable {w : Workshop} {outputDir : Path} {coming : List ScanRequest} {claimed : List Path}

/-- What a task does by itself can happen in the course of a batch. -/
theorem reaches_of_alone {before after : FileSystem × Task} {front back : List Task}
    (h : ReflTransGen (Task.Alone w front.length) before after) :
    Reaches w outputDir ⟨before.1, coming, claimed, front ++ before.2 :: back⟩
      ⟨after.1, coming, claimed, front ++ after.2 :: back⟩ := by
  refine h.lift (fun state => (⟨state.1, coming, claimed, front ++ state.2 :: back⟩ : Course)) ?_
  rintro ⟨fs, t⟩ ⟨fs', t'⟩ hstep
  have hwork : Step w outputDir ⟨fs, coming, claimed, front ++ t :: back⟩ _ :=
    .work (t := t) (i := front.length) (by simp) hstep
  simpa using hwork

theorem reaches_workAll {front back : List Task} {queue : Queue} (s : State)
    (hnumbered : IsNumbered front.length queue) :
    Reaches w outputDir ⟨s.files, coming, claimed, front ++ queue.map (Task.begun w ·.2) ++ back⟩
      ⟨(workAll w queue s).1.files, coming, claimed,
        front ++ (workAll w queue s).2.map .done ++ back⟩ := by
  induction queue generalizing front s with
  | nil => exact .refl
  | cons first rest ih =>
    obtain ⟨i, job⟩ := first
    obtain ⟨rfl, hrest⟩ := hnumbered
    have hfirst := @reaches_of_alone w outputDir coming claimed _ _ front
      (rest.map (Task.begun w ·.2) ++ back) (Task.work_alone job s)
    have hothers := @ih (front ++ [.done (work w front.length job s).2])
      (work w front.length job s).1 (by simpa using hrest)
    simp only [List.append_assoc, List.cons_append, List.nil_append] at hothers
    simpa [workAll] using hfirst.trans hothers

/-- A request that has its path can be begun when there is room. -/
theorem reaches_begun {files : FileSystem} {front : List Task} {job : Job}
    (hroom : job.isScan → front.countP (·.isRunning) < w.settings.maxParallelScans) :
    Reaches w outputDir ⟨files, coming, claimed, front ++ [.ofJob job]⟩
      ⟨files, coming, claimed, front ++ [Task.begun w job]⟩ := by
  cases job with
  | skip artifact e => exact .refl
  | scan r report =>
    have htask : (front ++ [.waiting r report])[front.length]? = some (.waiting r report) := by simp
    have hbegin : Step w outputDir ⟨files, coming, claimed, front ++ [.waiting r report]⟩ _ :=
      .begin htask (by simpa [Task.isRunning] using hroom rfl)
    simpa [Task.ofJob, Task.begun] using Relation.ReflTransGen.single hbegin

/-- Finished tasks and begun ones, as they stand while a batch is worked on in order. -/
def inOrder (w : Workshop) (outcomes : List Outcome) (waiting : Queue) : List Task :=
  outcomes.map .done ++ waiting.map (Task.begun w ·.2)

theorem isWaiting_inOrder {outcomes : List Outcome} {waiting : Queue} {t : Task}
    (h : t ∈ inOrder w outcomes waiting) : t.isWaiting = false := by
  obtain hdone | hbegun := List.mem_append.1 h
  · obtain ⟨outcome, -, rfl⟩ := List.mem_map.1 hdone
    rfl
  · obtain ⟨job, -, rfl⟩ := List.mem_map.1 hbegun
    exact Task.isWaiting_begun job.2

theorem countP_inOrder (outcomes : List Outcome) (waiting : Queue) :
    (inOrder w outcomes waiting).countP (·.isRunning) = waiting.countP (·.2.isScan) := by
  have hdone : (outcomes.map Task.done).countP (·.isRunning) = 0 := by
    refine List.countP_eq_zero.2 fun t ht => ?_
    obtain ⟨outcome, -, rfl⟩ := List.mem_map.1 ht
    exact Bool.false_ne_true
  rw [inOrder, List.countP_append, hdone, Nat.zero_add, List.countP_map]
  exact List.countP_congr fun job _ => by simp [Task.isRunning_begun]

/-- One request more is planned, the scans that are due are brought to their ends, and the request is
begun. -/
theorem reaches_next {outcomes : List Outcome}
    {due later : Queue} {r : ScanRequest} (s : State) {job : Job}
    (hjob : jobOf s.files outputDir claimed r = job)
    (hnumbered : IsNumbered outcomes.length due)
    (hroom : job.isScan → later.countP (·.2.isScan) < w.settings.maxParallelScans) (i : Nat) :
    Reaches w outputDir ⟨s.files, r :: coming, claimed, inOrder w outcomes (due ++ later)⟩
      ⟨(workAll w due s).1.files, coming, job.claim?.toList ++ claimed,
        inOrder w (outcomes ++ (workAll w due s).2) (later ++ [(i, job)])⟩ := by
  have hplan : Step w outputDir ⟨s.files, r :: coming, claimed, inOrder w outcomes (due ++ later)⟩ _ :=
    .plan rfl fun t ht => isWaiting_inOrder ht
  rw [hjob] at hplan
  refine .head hplan ?_
  have hdue := @reaches_workAll w outputDir coming (job.claim?.toList ++ claimed) (outcomes.map .done)
    (later.map (Task.begun w ·.2) ++ [.ofJob job]) due s (by simpa using hnumbered)
  have hbegun := @reaches_begun w outputDir coming (job.claim?.toList ++ claimed)
    (workAll w due s).1.files (inOrder w (outcomes ++ (workAll w due s).2) later) job
    (by rwa [countP_inOrder])
  simp only [inOrder, List.map_append, List.append_assoc] at hdue hbegun ⊢
  exact hdue.trans hbegun

theorem reaches_runFrom (hmax : 1 ≤ w.settings.maxParallelScans) (requests : List ScanRequest)
    {outcomes : List Outcome} {waiting : Queue} (i : Nat) (s : State)
    (hnumbered : IsNumbered outcomes.length waiting) (hi : i = outcomes.length + waiting.length)
    (hcount : waiting.countP (·.2.isScan) ≤ w.settings.maxParallelScans) :
    ∃ claimed', Reaches w outputDir ⟨s.files, requests, claimed, inOrder w outcomes waiting⟩
      ⟨(runFrom w outputDir i waiting claimed requests s).1.files, [], claimed',
        (outcomes ++ (runFrom w outputDir i waiting claimed requests s).2).map .done⟩ := by
  induction requests generalizing outcomes waiting claimed i s with
  | nil =>
    have hall := @reaches_workAll w outputDir [] claimed (outcomes.map .done) [] waiting s
      (by simpa using hnumbered)
    refine ⟨claimed, ?_⟩
    simpa [inOrder, runFrom] using hall
  | cons r rest ih =>
    rw [runFrom]
    generalize hjob : jobOf s.files outputDir claimed r = job
    generalize hsplit : (if job.isScan then makeRoom w.settings.maxParallelScans waiting
      else ([], waiting)) = split
    obtain ⟨due, later⟩ := split
    obtain ⟨rfl, hroom, hcountNext⟩ := split_spec hmax hcount hsplit
    obtain ⟨hdue, hlater⟩ := isNumbered_append.1 hnumbered
    have hlength := length_workAll w due s
    have hnext := @reaches_next w outputDir rest claimed outcomes due later r s job hjob hdue hroom i
    obtain ⟨claimed', hrest⟩ := @ih (job.claim?.toList ++ claimed)
      (outcomes ++ (workAll w due s).2) (later ++ [(i, job)]) (i + 1) (workAll w due s).1
      (by
        rw [isNumbered_append, List.length_append, hlength]
        refine ⟨hlater, ?_, trivial⟩
        rw [hi, List.length_append]
        omega)
      (by simp only [hi, List.length_append, hlength, List.length_singleton]; omega)
      (hcountNext i)
    refine ⟨claimed', hnext.trans ?_⟩
    rw [List.append_assoc] at hrest
    exact hrest

/-- A batch that works on one scan after the other is a schedule that comes to an end. -/
theorem reaches_sequential (hmax : 1 ≤ w.settings.maxParallelScans) (requests : List ScanRequest)
    (s : State) : ∃ c, Reaches w outputDir (.start s.files requests) c ∧ c.IsFinished ∧
      c.files = (runFrom w outputDir 0 [] [] requests s).1.files ∧
      c.outcomes = (runFrom w outputDir 0 [] [] requests s).2 := by
  obtain ⟨claimed', hreaches⟩ := @reaches_runFrom w outputDir [] hmax requests [] [] 0 s trivial rfl
    (Nat.zero_le _)
  refine ⟨_, hreaches, ⟨rfl, fun t ht => ?_⟩, rfl, ?_⟩
  · obtain ⟨outcome, -, rfl⟩ := List.mem_map.1 ht
    exact ⟨outcome, rfl⟩
  · simp [outcomes, List.filterMap_map, Function.comp_def, Task.outcome?]

end Course

end Batch

end ApiSurface
