import ApiSurface.Proofs.Batch.Reports
import Mathlib.Algebra.Ring.Nat

/-!
What a batch counts.

Every outcome is recorded once: that of a request without a path for its report when it is planned, that of
a report when the report has been written, and that of a scan without a report when all requests have been
planned and its result is taken, in the order of the requests. So in which order the tasks take their steps
does not matter to the counts, and they grow by what the outcomes say.
-/

namespace ApiSurface

/-- All kinds of errors. -/
def ErrorKind.all : List ErrorKind :=
  [.directory, .resolution, .write, .config, .io, .task]

namespace Outcome

/-- The kind of the error, if there is no report. -/
def kind? : Outcome → Option ErrorKind
  | .written .. => none
  | .skipped _ e => some e.kind

/-- The types in the report. -/
def types : Outcome → Nat
  | .written _ _ types _ => types
  | .skipped .. => 0

/-- The methods and fields in the report. -/
def members : Outcome → Nat
  | .written _ _ _ members => members
  | .skipped .. => 0

end Outcome

/-! ## Recording outcomes -/

namespace Metrics

/-- Counts what has come of a request. -/
def record (m : Metrics) : Outcome → Metrics
  | .written _ _ types members => m.written types members
  | .skipped _ e => m.failed e.kind

/-- Counts what has come of requests, one after the other. -/
def recordAll (m : Metrics) (outcomes : List Outcome) : Metrics :=
  outcomes.foldl record m

/-- The number of requests that have been counted: completed ones, and failed ones of all kinds. -/
def total (m : Metrics) : Nat :=
  m.scansCompleted + (ErrorKind.all.map (failuresOf · m)).sum

/-- The counts have grown by what the outcomes say. Only a report that has been written counts as completed,
and only its types and members count. -/
structure IsGrownBy (before : Metrics) (outcomes : List Outcome) (after : Metrics) : Prop where
  scansCompleted : after.scansCompleted = before.scansCompleted + outcomes.countP (·.isWritten)
  failures : ∀ kind,
    after.failuresOf kind = before.failuresOf kind + outcomes.countP (·.kind? = some kind)
  typesEmitted : after.typesEmitted = before.typesEmitted + (outcomes.map (·.types)).sum
  membersEmitted : after.membersEmitted = before.membersEmitted + (outcomes.map (·.members)).sum
  durations : after.durations = before.durations + outcomes.countP (·.isWritten)
  total : after.total = before.total + outcomes.length

section Grown

variable {before after m : Metrics} {outcomes order : List Outcome}

theorem total_record (m : Metrics) (outcome : Outcome) : (m.record outcome).total = m.total + 1 := by
  cases outcome with
  | written artifact report types members => simp only [record, written, total, failuresOf]; omega
  | skipped artifact e =>
    simp only [record, failed, total, failuresOf, List.count_append, ErrorKind.all, List.map_cons, List.map_nil,
      List.sum_cons, List.sum_nil]
    cases e.kind <;> simp <;> omega

theorem isGrownBy_record (m : Metrics) (outcome : Outcome) : m.IsGrownBy [outcome] (m.record outcome) := by
  have htotal := m.total_record outcome
  cases outcome with
  | written artifact report types members =>
    refine ⟨rfl, fun kind => ?_, ?_, ?_, rfl, htotal⟩ <;>
      simp [record, written, failuresOf, Outcome.kind?, Outcome.types, Outcome.members]
  | skipped artifact e =>
    refine ⟨rfl, fun kind => ?_, rfl, rfl, rfl, htotal⟩
    show (m.failures ++ [e.kind]).count kind = _
    by_cases hkind : e.kind = kind <;> simp [failuresOf, List.count_append, Outcome.kind?, hkind]

theorem IsGrownBy.append (h : before.IsGrownBy outcomes m) (h' : m.IsGrownBy order after) :
    before.IsGrownBy (outcomes ++ order) after where
  scansCompleted := by rw [h'.scansCompleted, h.scansCompleted, List.countP_append, Nat.add_assoc]
  failures kind := by rw [h'.failures, h.failures, List.countP_append, Nat.add_assoc]
  typesEmitted := by
    rw [h'.typesEmitted, h.typesEmitted, List.map_append, List.sum_append, Nat.add_assoc]
  membersEmitted := by
    rw [h'.membersEmitted, h.membersEmitted, List.map_append, List.sum_append, Nat.add_assoc]
  durations := by rw [h'.durations, h.durations, List.countP_append, Nat.add_assoc]
  total := by rw [h'.total, h.total, List.length_append, Nat.add_assoc]

theorem isGrownBy_recordAll (outcomes : List Outcome) (m : Metrics) :
    m.IsGrownBy outcomes (m.recordAll outcomes) := by
  induction outcomes generalizing m with
  | nil => constructor <;> simp [recordAll]
  | cons outcome rest ih => exact (m.isGrownBy_record outcome).append (ih (m.record outcome))

/-- The order in which outcomes have been recorded does not show. -/
theorem IsGrownBy.perm (h : before.IsGrownBy order after) (hperm : order.Perm outcomes) :
    before.IsGrownBy outcomes after where
  scansCompleted := by rw [h.scansCompleted, hperm.countP_eq]
  failures kind := by rw [h.failures, hperm.countP_eq]
  typesEmitted := by rw [h.typesEmitted, (hperm.map _).sum_nat]
  membersEmitted := by rw [h.membersEmitted, (hperm.map _).sum_nat]
  durations := by rw [h.durations, hperm.countP_eq]
  total := by rw [h.total, hperm.length_eq]

end Grown

end Metrics

namespace Batch

/-! ## One job after the other -/

section Sequential

variable {w : Workshop} {outputDir : Path}

/-- Work on a job records its outcome. -/
theorem metrics_work (i : Nat) (job : Job) (s : State) :
    (work w i job s).1.metrics = s.metrics.record (work w i job s).2 := by
  cases job with
  | skip artifact e => rfl
  | scan r report =>
    simp only [work, scanTo]
    cases ApiSurface.scan s.files w.settings r with
    | error e => rfl
    | ok found =>
      dsimp only
      generalize replaceFile w.device (w.token i) report (Bytes.ofText found.text) s.files = result
      obtain ⟨files, e?⟩ := result
      cases e? <;> rfl

theorem metrics_workAll (queue : Queue) (s : State) :
    (workAll w queue s).1.metrics = s.metrics.recordAll (workAll w queue s).2 := by
  induction queue generalizing s with
  | nil => rfl
  | cons first rest ih =>
    obtain ⟨i, job⟩ := first
    rw [workAll, ih, metrics_work]
    rfl

theorem Planned.length_eq {s : State} {before queue : Queue} {i : Nat} {claimed : List Path}
    {requests : List ScanRequest} (h : Planned w outputDir s before i claimed requests queue) :
    queue.length = requests.length := by
  induction h with
  | nil => rfl
  | cons _ _ _ ih => rw [List.length_cons, List.length_cons, ih]

/-- One outcome for each request, and all of them are recorded. -/
theorem metrics_runFrom (requests : List ScanRequest) (s : State) :
    (runFrom w outputDir 0 [] [] requests s).2.length = requests.length ∧
      (runFrom w outputDir 0 [] [] requests s).1.metrics =
        s.metrics.recordAll (runFrom w outputDir 0 [] [] requests s).2 := by
  obtain ⟨queue, hplanned, hrun⟩ := @exists_planned w outputDir requests 0 [] [] s
  rw [hrun, List.nil_append, length_workAll, hplanned.length_eq]
  exact ⟨rfl, metrics_workAll queue s⟩

end Sequential

/-! ## Tasks in any order -/

/-- A request that is refused has its outcome when it is planned. -/
def Job.refusal? : Job → Option Outcome
  | .scan .. => none
  | .skip artifact e => some (.skipped artifact e)

theorem Job.exists_skip {job : Job} (h : job.isScan = false) : ∃ artifact e, job = .skip artifact e := by
  cases job with
  | skip artifact e => exact ⟨artifact, e, rfl⟩
  | scan => cases h

/-- The outcome of a task that has written its report. -/
def Task.written? (t : Task) : Option Outcome :=
  t.outcome?.filter (·.isWritten)

/-- The task at place `i` is done. -/
def IsDoneAt (tasks : List Task) (i : Nat) : Prop :=
  ∃ outcome, tasks[i]? = some (.done outcome)

section DoneAt

variable {tasks : List Task} {i j : Nat}

theorem IsDoneAt.append (h : IsDoneAt tasks i) (more : List Task) : IsDoneAt (tasks ++ more) i := by
  obtain ⟨outcome, hdone⟩ := h
  exact ⟨outcome, (List.getElem?_append_left (List.getElem?_eq_some_iff.1 hdone).1).trans hdone⟩

theorem not_isDoneAt {task : Task} (htask : tasks[i]? = some task) (hopen : task.outcome? = none) :
    ¬ IsDoneAt tasks i := by
  rintro ⟨outcome, hdone⟩
  obtain rfl := Option.some.inj (htask.symm.trans hdone)
  cases hopen

theorem IsDoneAt.set (h : IsDoneAt tasks j) (hopen : ¬ IsDoneAt tasks i) (task : Task) :
    IsDoneAt (tasks.set i task) j := by
  obtain rfl | hne := eq_or_ne i j
  · exact absurd h hopen
  · rwa [IsDoneAt, List.getElem?_set_ne hne]

end DoneAt

/-- A batch under way with what it has counted. -/
structure Counting where
  course : Course
  /-- For each planned request, whether it has a path for its report. -/
  accepted : List Bool
  /-- The number of results that have been taken, in the order of the requests. -/
  taken : Nat
  metrics : Metrics

namespace Counting

/-- Before anything is planned. -/
def start (files : FileSystem) (requests : List ScanRequest) (metrics : Metrics) : Counting :=
  ⟨.start files requests, [], 0, metrics⟩

/-- All tasks are done, and their results have been taken. -/
def IsFinished (t : Counting) : Prop :=
  t.course.IsFinished ∧ t.taken = t.course.tasks.length

/-- The outcome at place `i` if it is recorded when the result is taken: that of a scan without a report. -/
def failure? (t : Counting) (i : Nat) (outcome : Outcome) : Option Outcome :=
  if outcome.isWritten ∨ t.accepted[i]? = some false then none else some outcome

/-- What may happen next, and what is recorded then. -/
inductive Step (w : Workshop) (outputDir : Path) : Counting → Counting → Prop
  | plan {t : Counting} {r : ScanRequest} {rest : List ScanRequest} {job : Job}
      (hcoming : t.course.coming = r :: rest) (hroom : ∀ task ∈ t.course.tasks, task.isWaiting = false)
      (hjob : jobOf t.course.files outputDir t.course.claimed r = job) :
      Step w outputDir t
        { t with
          course := { t.course with
            coming := rest
            claimed := job.claim?.toList ++ t.course.claimed
            tasks := t.course.tasks ++ [.ofJob job] }
          accepted := t.accepted ++ [job.isScan]
          metrics := t.metrics.recordAll job.refusal?.toList }
  | begin {t : Counting} {i : Nat} {r : ScanRequest} {report : Path}
      (htask : t.course.tasks[i]? = some (.waiting r report))
      (hroom : t.course.tasks.countP (·.isRunning) < w.settings.maxParallelScans) :
      Step w outputDir t
        { t with course := { t.course with
            tasks := t.course.tasks.set i (.reading r report (scanning w.settings r)) } }
  | work {t : Counting} {i : Nat} {task task' : Task} {files : FileSystem}
      (htask : t.course.tasks[i]? = some task) (hstep : task.step w i t.course.files = some (files, task')) :
      Step w outputDir t
        { t with
          course := { t.course with files, tasks := t.course.tasks.set i task' }
          metrics := t.metrics.recordAll task'.written?.toList }
  /-- When no request is left to be planned or begun, the next result is taken. -/
  | take {t : Counting} {outcome : Outcome} (hcoming : t.course.coming = [])
      (hbegun : ∀ task ∈ t.course.tasks, task.isWaiting = false)
      (htask : t.course.tasks[t.taken]? = some (.done outcome)) :
      Step w outputDir t
        { t with
          taken := t.taken + 1
          metrics := t.metrics.recordAll (t.failure? t.taken outcome).toList }

/-- What may happen in the course of a schedule. -/
abbrev Reaches (w : Workshop) (outputDir : Path) : Counting → Counting → Prop :=
  Relation.ReflTransGen (Step w outputDir)

/-! ### Every schedule can be counted -/

section Schedules

variable {w : Workshop} {outputDir : Path}

/-- Counting goes along with whatever happens in a batch. -/
theorem exists_step {c c' : Course} (h : Course.Step w outputDir c c') (accepted : List Bool)
    (metrics : Metrics) :
    ∃ accepted' metrics', Step w outputDir ⟨c, accepted, 0, metrics⟩ ⟨c', accepted', 0, metrics'⟩ := by
  cases h with
  | plan hcoming hroom => exact ⟨_, _, .plan hcoming hroom rfl⟩
  | begin htask hroom => exact ⟨_, _, .begin htask hroom⟩
  | work htask hstep => exact ⟨_, _, .work htask hstep⟩

theorem exists_reaches {c c' : Course} (h : Course.Reaches w outputDir c c') (accepted : List Bool)
    (metrics : Metrics) : ∃ accepted' metrics',
      Reaches w outputDir ⟨c, accepted, 0, metrics⟩ ⟨c', accepted', 0, metrics'⟩ := by
  induction h with
  | refl => exact ⟨_, _, .refl⟩
  | tail _ hstep ih =>
    obtain ⟨accepted', metrics', hreaches⟩ := ih
    obtain ⟨_, _, hnext⟩ := exists_step hstep accepted' metrics'
    exact ⟨_, _, hreaches.tail hnext⟩

/-- When all tasks are done, their results can be taken. -/
theorem exists_taken {c : Course} (hfinished : c.IsFinished) (accepted : List Bool) {n : Nat}
    (hn : n ≤ c.tasks.length) (metrics : Metrics) :
    ∃ metrics', Reaches w outputDir ⟨c, accepted, 0, metrics⟩ ⟨c, accepted, n, metrics'⟩ := by
  induction n with
  | zero => exact ⟨_, .refl⟩
  | succ n ih =>
    obtain ⟨metrics', hreaches⟩ := ih (Nat.le_of_succ_le hn)
    have hget := List.getElem?_eq_getElem hn
    obtain ⟨outcome, hdone⟩ := hfinished.2 _ (List.getElem_mem hn)
    refine ⟨_, hreaches.tail (.take hfinished.1 (fun task htask => ?_) (hget.trans (congrArg some hdone)))⟩
    obtain ⟨_, rfl⟩ := hfinished.2 task htask
    rfl

/-- A schedule that comes to its end does so when it is counted, too. -/
theorem exists_finished {files : FileSystem} {requests : List ScanRequest} {c : Course}
    (h : Course.Reaches w outputDir (.start files requests) c) (hfinished : c.IsFinished) (metrics : Metrics) :
    ∃ t, Reaches w outputDir (.start files requests metrics) t ∧ t.IsFinished ∧ t.course = c := by
  obtain ⟨accepted, planned, hreaches⟩ := exists_reaches h [] metrics
  obtain ⟨metrics', htaken⟩ := @exists_taken w outputDir c hfinished accepted _ le_rfl planned
  exact ⟨_, hreaches.trans htaken, ⟨hfinished, rfl⟩, rfl⟩

/-- And what is counted is a schedule. -/
theorem Reaches.course {t t' : Counting} (h : Reaches w outputDir t t') :
    Course.Reaches w outputDir t.course t'.course := by
  induction h with
  | refl => exact .refl
  | tail _ hstep ih =>
    cases hstep with
    | plan hcoming hroom hjob =>
      subst hjob
      exact ih.tail (.plan hcoming hroom)
    | begin htask hroom => exact ih.tail (.begin htask hroom)
    | work htask hstep => exact ih.tail (.work htask hstep)
    | take _ _ _ => exact ih

end Schedules

/-! ### What has been recorded -/

/-- The outcome at place `i`, if it has been recorded. -/
def recorded? (tasks : List Task) (accepted : List Bool) (taken i : Nat) : Option Outcome :=
  (tasks[i]?.bind Task.outcome?).filter fun outcome =>
    outcome.isWritten ∨ accepted[i]? = some false ∨ i < taken

/-- The outcomes that have been recorded, in the order of the requests. -/
def recorded (t : Counting) : List Outcome :=
  (List.range t.course.tasks.length).filterMap (recorded? t.course.tasks t.accepted t.taken)

/-- The books are right: `requests` are planned or coming, a request that has been refused is done, results
have been taken of tasks that are done, and each recorded outcome has been counted once. -/
structure IsRight (requests : List ScanRequest) (before : Metrics) (t : Counting) : Prop where
  length : t.course.tasks.length + t.course.coming.length = requests.length
  accepted : t.accepted.length = t.course.tasks.length
  refused : ∀ i : Nat, t.accepted[i]? = some false → IsDoneAt t.course.tasks i
  taken : ∀ i < t.taken, IsDoneAt t.course.tasks i
  counted : ∃ order, order.Perm t.recorded ∧ t.metrics = before.recordAll order

end Counting

theorem filterMap_getElem?_range {α : Type} (xs : List α) :
    (List.range xs.length).filterMap (xs[·]?) = xs := by
  induction xs with
  | nil => rfl
  | cons x xs ih =>
    rw [List.length_cons, List.range_succ_eq_map, List.filterMap_cons, List.filterMap_map]
    exact congrArg (x :: ·) ih

/-- Where one place has got a value, there is one more. -/
theorem perm_filterMap_range {α : Type} {n i : Nat} {f g : Nat → Option α} (hi : i < n) (hnone : f i = none)
    (hother : ∀ j, j ≠ i → g j = f j) :
    ((List.range n).filterMap g).Perm ((List.range n).filterMap f ++ (g i).toList) := by
  obtain ⟨front, back, hrange⟩ := List.append_of_mem (List.mem_range.2 hi)
  have hnodup := hrange ▸ @List.nodup_range n
  have hfront : front.filterMap g = front.filterMap f := by
    refine List.filterMap_congr fun j hj => hother j ?_
    rintro rfl
    exact (List.nodup_append.1 hnodup).2.2 j hj j List.mem_cons_self rfl
  have hback : back.filterMap g = back.filterMap f := by
    refine List.filterMap_congr fun j hj => hother j ?_
    rintro rfl
    exact (List.nodup_cons.1 (List.nodup_append.1 hnodup).2.1).1 hj
  rw [hrange, List.filterMap_append, List.filterMap_append, hfront, List.filterMap_cons_none hnone,
    List.append_assoc]
  refine List.Perm.append_left _ ?_
  cases hgi : g i with
  | none => rw [List.filterMap_cons_none hgi, hback, Option.toList_none, List.append_nil]
  | some a =>
    rw [List.filterMap_cons_some hgi, hback, Option.toList_some]
    exact (List.perm_append_singleton a _).symm

namespace Counting

section Right

variable {w : Workshop} {outputDir : Path} {requests : List ScanRequest} {before : Metrics} {t t' : Counting}

/-- What is recorded has been counted when it is counted now. -/
theorem IsRight.exists_order (h : t.IsRight requests before) {new : List Outcome}
    (hrecorded : t'.recorded.Perm (t.recorded ++ new)) (hmetrics : t'.metrics = t.metrics.recordAll new) :
    ∃ order, order.Perm t'.recorded ∧ t'.metrics = before.recordAll order := by
  obtain ⟨order, hperm, hcounted⟩ := h.counted
  refine ⟨order ++ new, (hperm.append_right new).trans hrecorded.symm, ?_⟩
  rw [hmetrics, hcounted, Metrics.recordAll, Metrics.recordAll, Metrics.recordAll, List.foldl_append]

/-- A request is planned. -/
theorem IsRight.plan (h : t.IsRight requests before) {r : ScanRequest} {rest : List ScanRequest}
    (hcoming : t.course.coming = r :: rest) (claimed : List Path) (job : Job) :
    IsRight requests before
      { t with
        course := { t.course with coming := rest, claimed, tasks := t.course.tasks ++ [.ofJob job] }
        accepted := t.accepted ++ [job.isScan]
        metrics := t.metrics.recordAll job.refusal?.toList } where
  length := by
    have hlength := h.length
    rw [hcoming] at hlength
    simp only [List.length_append, List.length_cons, List.length_nil] at hlength ⊢
    omega
  accepted := by simp [h.accepted]
  refused i hi := by
    rw [List.getElem?_append] at hi
    split at hi
    · exact (h.refused i hi).append _
    next hlt =>
      have hjob : i = t.course.tasks.length ∧ job.isScan = false := by
        rw [h.accepted, List.getElem?_singleton] at hi
        rw [h.accepted] at hlt
        split at hi
        · exact ⟨by omega, Option.some.inj hi⟩
        · cases hi
      obtain ⟨rfl, hskip⟩ := hjob
      obtain ⟨artifact, e, rfl⟩ := Job.exists_skip hskip
      exact ⟨.skipped artifact e, List.getElem?_concat_length⟩
  taken i hi := (h.taken i hi).append _
  counted := by
    have hlast : recorded? (t.course.tasks ++ [.ofJob job]) (t.accepted ++ [job.isScan]) t.taken
        t.course.tasks.length = job.refusal? := by
      have haccepted : (t.accepted ++ [job.isScan])[t.course.tasks.length]? = some job.isScan := by
        rw [← h.accepted, List.getElem?_concat_length]
      rw [recorded?, List.getElem?_concat_length, haccepted]
      cases job <;> simp [Task.ofJob, Task.outcome?, Job.refusal?, Job.isScan, Option.filter]
    refine h.exists_order (.of_eq ?_) rfl
    rw [recorded, List.length_append, List.length_singleton, List.range_succ, List.filterMap_append]
    congr 1
    · refine List.filterMap_congr fun i hi => ?_
      have hlt := List.mem_range.1 hi
      rw [recorded?, recorded?, List.getElem?_append_left hlt, List.getElem?_append_left (h.accepted ▸ hlt)]
    · rw [List.filterMap_cons, hlast]
      cases job.refusal? <;> rfl

/-- A task that is not done goes on. -/
theorem IsRight.set (h : t.IsRight requests before) {i : Nat} {task : Task}
    (htask : t.course.tasks[i]? = some task) (hopen : task.outcome? = none) (files : FileSystem)
    (task' : Task) :
    IsRight requests before
      { t with
        course := { t.course with files, tasks := t.course.tasks.set i task' }
        metrics := t.metrics.recordAll task'.written?.toList } := by
  have hnot := not_isDoneAt htask hopen
  have hlt := (List.getElem?_eq_some_iff.1 htask).1
  constructor
  case length => simpa using h.length
  case accepted => simpa using h.accepted
  case refused => exact fun j hj => (h.refused j hj).set hnot task'
  case taken => exact fun j hj => (h.taken j hj).set hnot task'
  case counted =>
    -- Nothing else makes the outcome count: the request is not refused, and its result is not taken yet.
    have haccepted : t.accepted[i]? ≠ some false := fun hi => hnot (h.refused i hi)
    have htaken : ¬ i < t.taken := fun hi => hnot (h.taken i hi)
    have hwritten : recorded? (t.course.tasks.set i task') t.accepted t.taken i = task'.written? := by
      rw [recorded?, List.getElem?_set_self hlt]
      simp [Task.written?, haccepted, htaken]
    have hother (j : Nat) (hj : j ≠ i) : recorded? (t.course.tasks.set i task') t.accepted t.taken j =
        recorded? t.course.tasks t.accepted t.taken j := by
      rw [recorded?, recorded?, List.getElem?_set_ne hj.symm]
    refine h.exists_order ?_ rfl
    rw [recorded, ← hwritten, List.length_set]
    exact perm_filterMap_range hlt (by simp [recorded?, htask, hopen]) hother

/-- A result is taken. -/
theorem IsRight.take (h : t.IsRight requests before) {outcome : Outcome}
    (htask : t.course.tasks[t.taken]? = some (.done outcome)) :
    IsRight requests before
      { t with taken := t.taken + 1, metrics := t.metrics.recordAll (t.failure? t.taken outcome).toList } where
  length := h.length
  accepted := h.accepted
  refused := h.refused
  taken i hi := by
    obtain hlt | rfl := Nat.lt_succ_iff_lt_or_eq.1 hi
    · exact h.taken i hlt
    · exact ⟨outcome, htask⟩
  counted := by
    have hother (j : Nat) (hj : j ≠ t.taken) : recorded? t.course.tasks t.accepted (t.taken + 1) j =
        recorded? t.course.tasks t.accepted t.taken j := by
      have hiff : j < t.taken + 1 ↔ j < t.taken := by omega
      simp only [recorded?, hiff]
    refine h.exists_order ?_ rfl
    by_cases hknown : outcome.isWritten ∨ t.accepted[t.taken]? = some false
    · rw [failure?, if_pos hknown, Option.toList_none, List.append_nil]
      refine .of_eq (List.filterMap_congr fun j _ => ?_)
      obtain rfl | hj := eq_or_ne j t.taken
      · rw [recorded?, recorded?, htask]
        simp [Task.outcome?, Option.filter, hknown]
      · exact hother j hj
    · have hnew : recorded? t.course.tasks t.accepted (t.taken + 1) t.taken =
          t.failure? t.taken outcome := by
        rw [recorded?, htask, failure?, if_neg hknown]
        simp [Task.outcome?, Option.filter]
      rw [recorded, ← hnew]
      refine perm_filterMap_range (List.getElem?_eq_some_iff.1 htask).1 ?_ hother
      rw [recorded?, htask]
      simpa [Task.outcome?, Option.filter] using hknown

theorem outcome?_of_step {i : Nat} {fs files : FileSystem} {task task' : Task}
    (h : task.step w i fs = some (files, task')) : task.outcome? = none := by
  cases task with
  | done outcome => cases h
  | waiting | reading | writing | clearing => rfl

theorem IsRight.step (h : t.IsRight requests before) (hstep : Step w outputDir t t') :
    t'.IsRight requests before := by
  cases hstep with
  | plan hcoming _ _ => exact h.plan hcoming _ _
  | begin htask _ => exact h.set htask rfl t.course.files _
  | work htask hstep => exact h.set htask (outcome?_of_step hstep) _ _
  | take _ _ htask => exact h.take htask

theorem isRight_start (files : FileSystem) (requests : List ScanRequest) (metrics : Metrics) :
    IsRight requests metrics (start files requests metrics) where
  length := Nat.zero_add _
  accepted := rfl
  refused _ hi := nomatch hi
  taken _ hi := absurd hi (Nat.not_lt_zero _)
  counted := ⟨[], .refl _, rfl⟩

/-- The books stay right. -/
theorem IsRight.reaches (h : t.IsRight requests before) (hreaches : Reaches w outputDir t t') :
    t'.IsRight requests before := by
  induction hreaches with
  | refl => exact h
  | tail _ hstep ih => exact ih.step hstep

/-- In the end every outcome has been recorded. -/
theorem recorded_of_isFinished (h : t.IsFinished) : t.recorded = t.course.outcomes := by
  have hall (i : Nat) (hi : i ∈ List.range t.course.tasks.length) :
      recorded? t.course.tasks t.accepted t.taken i = t.course.tasks[i]?.bind Task.outcome? := by
    rw [recorded?, h.2]
    cases t.course.tasks[i]?.bind Task.outcome? with
    | none => rfl
    | some outcome => exact Option.filter_some_pos (by simp [List.mem_range.1 hi])
  rw [recorded, List.filterMap_congr hall, ← List.filterMap_filterMap, filterMap_getElem?_range,
    Course.outcomes]

/-- In the end there is one outcome for each request. -/
theorem IsRight.length_outcomes (h : t.IsRight requests before) (hfinished : t.course.IsFinished) :
    t.course.outcomes.length = requests.length := by
  have hall : t.course.outcomes.length = t.course.tasks.length := by
    refine List.filterMap_length_eq_length.2 fun task htask => ?_
    obtain ⟨outcome, rfl⟩ := hfinished.2 task htask
    rfl
  rw [hall, ← h.length, hfinished.1, List.length_nil, Nat.add_zero]

/-- In the end each outcome has been counted once. -/
theorem IsRight.isGrownBy (h : t.IsRight requests before) (hfinished : t.IsFinished) :
    before.IsGrownBy t.course.outcomes t.metrics := by
  obtain ⟨order, hperm, hmetrics⟩ := h.counted
  rw [recorded_of_isFinished hfinished] at hperm
  rw [hmetrics]
  exact (Metrics.isGrownBy_recordAll order before).perm hperm

end Right

end Counting

/-- Each request of a batch is counted once: a report that has been written as completed, with its types and
members, and an artifact that has been skipped as a failure of its kind. A batch without its folder counts
nothing. This is so for every schedule, since every schedule can be counted to its end. -/
theorem isGrownBy_scanBatch (w : Workshop) (requests : List ScanRequest) (outputDir : Path) (s : State) :
    (∀ summary, (scanBatch w requests outputDir s).2 = .ok summary →
      summary.outcomes.length = requests.length ∧
        s.metrics.IsGrownBy summary.outcomes (scanBatch w requests outputDir s).1.metrics) ∧
      (∀ e, (scanBatch w requests outputDir s).2 = .error e →
        (scanBatch w requests outputDir s).1.metrics = s.metrics) ∧
      (∀ files c, Course.Reaches w outputDir (.start files requests) c → c.IsFinished →
        ∃ t, Counting.Reaches w outputDir (.start files requests s.metrics) t ∧ t.IsFinished ∧ t.course = c) ∧
      ∀ files t, Counting.Reaches w outputDir (.start files requests s.metrics) t → t.IsFinished →
        Course.Reaches w outputDir (.start files requests) t.course ∧
          t.course.outcomes.length = requests.length ∧ s.metrics.IsGrownBy t.course.outcomes t.metrics := by
  unfold scanBatch
  obtain ⟨files, e?⟩ := s.files.createFolders outputDir
  refine ⟨fun summary hsummary => ?_, fun e herror => ?_, fun files c hreaches hfinished => ?_,
    fun files t hreaches hfinished => ?_⟩
  · cases e? with
    | some e => cases hsummary
    | none =>
      obtain ⟨hlength, hmetrics⟩ := @metrics_runFrom w outputDir requests { s with files }
      obtain rfl := Except.ok.inj hsummary
      refine ⟨hlength, ?_⟩
      show s.metrics.IsGrownBy _ (runFrom w outputDir 0 [] [] requests { s with files }).1.metrics
      rw [hmetrics]
      exact Metrics.isGrownBy_recordAll _ _
  · cases e? with
    | some _ => rfl
    | none => cases herror
  · exact Counting.exists_finished hreaches hfinished s.metrics
  · have hright := (Counting.isRight_start files requests s.metrics).reaches hreaches
    exact ⟨Counting.Reaches.course hreaches, hright.length_outcomes hfinished.1, hright.isGrownBy hfinished⟩

/-- One report, a full disk, a path that is given away and an archive that is not there. -/
theorem isGrownBy_scanBatch_cramped :
    (∃ after, (scanBatch crampedWorkshop crampedRequests ⟨"out"⟩ ⟨crampedFiles, .zero⟩).1.metrics = after ∧
      after.scansCompleted = 1 ∧ after.failuresOf .write = 2 ∧ after.failuresOf .resolution = 1 ∧
      after.typesEmitted = 1 ∧ after.membersEmitted = 0 ∧ after.total = 4) ∧
      ∃ t, Counting.Reaches crampedWorkshop ⟨"out"⟩ (.start crampedFiles crampedRequests .zero) t ∧
        t.IsFinished ∧ t.metrics.total = 4 := by
  obtain ⟨hbatch, -, hexists, hcounted⟩ :=
    isGrownBy_scanBatch crampedWorkshop crampedRequests ⟨"out"⟩ ⟨crampedFiles, .zero⟩
  refine ⟨⟨_, rfl, ?_⟩, ?_⟩
  · obtain ⟨-, hgrown⟩ := hbatch ⟨crampedOutcomes⟩ (by decide +kernel)
    exact ⟨hgrown.scansCompleted, hgrown.failures _, hgrown.failures _, hgrown.typesEmitted,
      hgrown.membersEmitted, hgrown.total⟩
  · obtain ⟨c, hreaches, hfinished, -⟩ := @Course.reaches_sequential crampedWorkshop ⟨"out"⟩ (by decide)
      crampedRequests ⟨crampedFiles, .zero⟩
    obtain ⟨t, hcounting, hend, -⟩ := hexists crampedFiles c hreaches hfinished
    obtain ⟨-, hlength, hgrown⟩ := hcounted crampedFiles t hcounting hend
    exact ⟨t, hcounting, hend, by rw [hgrown.total, hlength]; rfl⟩

end Batch

end ApiSurface
