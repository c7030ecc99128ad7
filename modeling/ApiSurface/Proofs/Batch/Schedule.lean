import ApiSurface.Proofs.Scan.Questions
import ApiSurface.Scan.Batch
import Mathlib.Logic.Relation

/-!
A batch as a system of tasks, of which any may take the next step.

Requests are planned in their order. One that has got a path waits until fewer scans are under way than
may be, and until then no other request is planned. From then on it is a task of its own: it asks its
questions one by one, writes its report step by step and is done. Which of the tasks goes on is open at
every moment, so a schedule is any sequence of steps.

A batch that works on one scan after the other, the oldest first, is one of these schedules.

| here | there |
|---|---|
| `Course` | `ApiScanner.scan_batch`, with its tasks under way at once |
| `Task` | `ApiScanner.scan_to_path` |
-/

namespace ApiSurface

namespace Batch

/-! ## Tasks -/

/-- How far the work on a request has got. -/
inductive Task
  /-- The request has its path and waits for room. -/
  | waiting (request : ScanRequest) (report : Path)
  /-- The scan is under way; `rest` is what it still asks. -/
  | reading (request : ScanRequest) (report : Path) (rest : Asking (Except ScanError Report))
  /-- The report is being written; `steps` are still to be done. -/
  | writing (request : ScanRequest) (report : Path) (found : Report) (steps : List WriteStep)
  /-- Writing failed, and what has been written is to be taken away. -/
  | clearing (request : ScanRequest) (report : Path) (e : IoError)
  | done (outcome : Outcome)

namespace Task

def isWaiting : Task → Bool
  | .waiting .. => true
  | _ => false

/-- The task counts among the scans that are under way. -/
def isRunning : Task → Bool
  | .reading .. | .writing .. | .clearing .. => true
  | .waiting .. | .done _ => false

def outcome? : Task → Option Outcome
  | .done outcome => some outcome
  | _ => none

/-- The task for a job, when it has been planned. -/
def ofJob : Job → Task
  | .scan r report => .waiting r report
  | .skip artifact e => .done (.skipped artifact e)

/-- The next step of the task at place `i` of the batch. A task that waits or is done has none. -/
def step (w : Workshop) (i : Nat) (fs : FileSystem) : Task → Option (FileSystem × Task)
  | .reading r report (.ask q next) => some (fs, .reading r report (next (fs.answer q)))
  | .reading r _ (.done (.error e)) => some (fs, .done (.skipped r.artifact e))
  | .reading r report (.done (.ok found)) =>
    some (fs, .writing r report found
      (Replacement.steps (w.token i) report (Bytes.ofText found.text)))
  | .writing r report found (s :: rest) =>
    match w.device fs s with
    | (fs, none) => some (fs, .writing r report found rest)
    | (fs, some e) => some (fs, .clearing r report e)
  | .writing r report found [] =>
    some (fs, .done (.written r.artifact report found.typeCount found.memberCount))
  | .clearing r report e =>
    some ((w.device fs (.remove (Replacement.temporary (w.token i) report))).1,
      .done (.skipped r.artifact (.write report.shown e)))
  | .waiting .. | .done _ => none

/-- A scan that is under way can always go on. -/
theorem exists_step_of_isRunning (w : Workshop) (i : Nat) (fs : FileSystem) {t : Task}
    (h : t.isRunning) : ∃ fs' t', t.step w i fs = some (fs', t') := by
  cases t with
  | waiting r report => cases h
  | reading r report rest =>
    cases rest with
    | ask q next => exact ⟨_, _, rfl⟩
    | done result => cases result <;> exact ⟨_, _, rfl⟩
  | writing r report found steps =>
    cases steps with
    | nil => exact ⟨_, _, rfl⟩
    | cons s rest =>
      rw [step]
      cases w.device fs s with
      | mk fs' e? => cases e? <;> exact ⟨_, _, rfl⟩
  | clearing r report e => exact ⟨_, _, rfl⟩
  | done outcome => cases h

end Task

/-! ## Batches under way -/

/-- A batch under way. -/
structure Course where
  files : FileSystem
  /-- The requests that are not planned yet. -/
  coming : List ScanRequest
  /-- The paths that are given away. -/
  claimed : List Path
  /-- One task for each planned request, in the order of the requests. -/
  tasks : List Task

namespace Course

/-- Before anything is planned. -/
def start (files : FileSystem) (requests : List ScanRequest) : Course :=
  ⟨files, requests, [], []⟩

def IsFinished (c : Course) : Prop :=
  c.coming = [] ∧ ∀ t ∈ c.tasks, ∃ outcome, t = .done outcome

def outcomes (c : Course) : List Outcome :=
  c.tasks.filterMap Task.outcome?

/-- What may happen next. -/
inductive Step (w : Workshop) (outputDir : Path) : Course → Course → Prop
  /-- The next request is planned, if none waits for room. -/
  | plan {c : Course} {r : ScanRequest} {rest : List ScanRequest} (hcoming : c.coming = r :: rest)
      (hroom : ∀ t ∈ c.tasks, t.isWaiting = false) :
      Step w outputDir c
        { c with
          coming := rest
          claimed := (jobOf c.files outputDir c.claimed r).claim?.toList ++ c.claimed
          tasks := c.tasks ++ [.ofJob (jobOf c.files outputDir c.claimed r)] }
  /-- A request that waits is begun, if fewer scans are under way than may be. -/
  | begin {c : Course} {i : Nat} {r : ScanRequest} {report : Path}
      (htask : c.tasks[i]? = some (.waiting r report))
      (hroom : c.tasks.countP (·.isRunning) < w.settings.maxParallelScans) :
      Step w outputDir c { c with tasks := c.tasks.set i (.reading r report (scanning w.settings r)) }
  /-- A scan that is under way goes on. -/
  | work {c : Course} {i : Nat} {t t' : Task} {files : FileSystem} (htask : c.tasks[i]? = some t)
      (hstep : t.step w i c.files = some (files, t')) :
      Step w outputDir c { c with files, tasks := c.tasks.set i t' }

/-- What may happen in the course of a schedule. -/
abbrev Reaches (w : Workshop) (outputDir : Path) : Course → Course → Prop :=
  Relation.ReflTransGen (Step w outputDir)

/-- There is always something to be done before a batch is finished. -/
theorem exists_step {w : Workshop} {outputDir : Path} {c : Course}
    (hmax : 1 ≤ w.settings.maxParallelScans) (h : ¬ c.IsFinished) :
    ∃ c', Step w outputDir c c' := by
  by_cases hrunning : ∃ t ∈ c.tasks, t.isRunning = true
  · obtain ⟨t, ht, hrun⟩ := hrunning
    obtain ⟨i, hi⟩ := List.mem_iff_getElem?.1 ht
    obtain ⟨files, t', hstep⟩ := Task.exists_step_of_isRunning w i c.files hrun
    exact ⟨_, .work hi hstep⟩
  · by_cases hwaiting : ∃ t ∈ c.tasks, t.isWaiting = true
    · obtain ⟨t, ht, hwait⟩ := hwaiting
      obtain ⟨i, hi⟩ := List.mem_iff_getElem?.1 ht
      have hcount : c.tasks.countP (·.isRunning) = 0 :=
        List.countP_eq_zero.2 fun t ht hrun => hrunning ⟨t, ht, hrun⟩
      cases t with
      | waiting r report => exact ⟨_, .begin hi (by omega)⟩
      | _ => cases hwait
    · cases hcoming : c.coming with
      | cons r rest =>
        refine ⟨_, .plan hcoming fun t ht => Bool.eq_false_iff.2 fun hwait => hwaiting ⟨t, ht, hwait⟩⟩
      | nil =>
        refine absurd ⟨hcoming, fun t ht => ?_⟩ h
        cases t with
        | waiting r report => exact absurd ⟨_, ht, rfl⟩ hwaiting
        | done outcome => exact ⟨outcome, rfl⟩
        | _ => exact absurd ⟨_, ht, rfl⟩ hrunning

end Course

end Batch

end ApiSurface
