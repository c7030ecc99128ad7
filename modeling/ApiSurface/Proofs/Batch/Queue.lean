import ApiSurface.Proofs.Batch.Sequential

/-!
A batch as the work on one queue.

What is due stands at the front of what is waiting, and a new job comes behind it. So the jobs are done
in the order of the requests, whatever the room for scans is. The room only says how many of them are
done when the next one is planned.
-/

namespace ApiSurface

namespace Batch

variable {w : Workshop} {outputDir : Path} {s : State}

/-! ## Queues in two parts -/

theorem workAll_append (w : Workshop) (front back : Queue) (s : State) :
    workAll w (front ++ back) s = ((workAll w back (workAll w front s).1).1,
      (workAll w front s).2 ++ (workAll w back (workAll w front s).1).2) := by
  induction front generalizing s with
  | nil => rfl
  | cons first rest ih => simp only [List.cons_append, workAll, ih]

theorem makeRoom_append (maxScans : Nat) (waiting : Queue) :
    (makeRoom maxScans waiting).1 ++ (makeRoom maxScans waiting).2 = waiting := by
  unfold makeRoom
  split
  · exact splitAtScan_append waiting
  · rfl

/-- The files when some jobs are done. -/
def filesAfter (w : Workshop) (queue : Queue) (s : State) : FileSystem :=
  (workAll w queue s).1.files

theorem filesAfter_append (front back : Queue) :
    filesAfter w (front ++ back) s = filesAfter w back (workAll w front s).1 := by
  rw [filesAfter, workAll_append, filesAfter]

/-! ## The queue of a batch -/

/-- Requests have been planned from place `i` on, behind the jobs `before`. Each one was planned when some
of the jobs before it were done. -/
inductive Planned (w : Workshop) (outputDir : Path) (s : State) :
    Queue → Nat → List Path → List ScanRequest → Queue → Prop
  | nil {before : Queue} {i : Nat} {claimed : List Path} : Planned w outputDir s before i claimed [] []
  | cons {before front queue : Queue} {i : Nat} {claimed : List Path} {r : ScanRequest}
      {rest : List ScanRequest} {job : Job} (hfront : front <+: before)
      (hjob : jobOf (filesAfter w front s) outputDir claimed r = job)
      (hrest : Planned w outputDir s (before ++ [(i, job)]) (i + 1) (job.claim?.toList ++ claimed) rest
        queue) :
      Planned w outputDir s before i claimed (r :: rest) ((i, job) :: queue)

/-- What is planned when some jobs are done has been planned all the same when these are counted among
the jobs before it. -/
theorem Planned.after {done before queue : Queue} {i : Nat} {claimed : List Path}
    {requests : List ScanRequest}
    (h : Planned w outputDir (workAll w done s).1 before i claimed requests queue) :
    Planned w outputDir s (done ++ before) i claimed requests queue := by
  induction h with
  | nil => exact .nil
  | @cons before front queue i claimed r rest job hfront hjob hrest ih =>
    have hfront' : done ++ front <+: done ++ before := (List.prefix_append_right_inj done).2 hfront
    refine .cons hfront' ?_ ?_
    · rw [filesAfter_append, hjob]
    · rw [List.append_assoc]
      exact ih

/-- A batch is the work on one queue. -/
theorem exists_planned (requests : List ScanRequest) (i : Nat) (waiting : Queue) (claimed : List Path)
    (s : State) : ∃ queue, Planned w outputDir s waiting i claimed requests queue ∧
      runFrom w outputDir i waiting claimed requests s = workAll w (waiting ++ queue) s := by
  induction requests generalizing i waiting claimed s with
  | nil => exact ⟨[], .nil, by rw [runFrom, List.append_nil]⟩
  | cons r rest ih =>
    rw [runFrom]
    generalize hjob : jobOf s.files outputDir claimed r = job
    generalize hsplit : (if job.isScan then makeRoom w.settings.maxParallelScans waiting
      else ([], waiting)) = split
    obtain ⟨due, later⟩ := split
    have hwaiting : due ++ later = waiting := by
      split at hsplit
      · rw [← makeRoom_append w.settings.maxParallelScans waiting, hsplit]
      · obtain ⟨rfl, rfl⟩ := Prod.mk.inj hsplit
        rfl
    obtain ⟨queue, hplanned, hrun⟩ := ih (i + 1) (later ++ [(i, job)]) (job.claim?.toList ++ claimed)
      (workAll w due s).1
    refine ⟨(i, job) :: queue, .cons List.nil_prefix hjob ?_, ?_⟩
    · rw [← hwaiting, List.append_assoc]
      exact hplanned.after
    · simp only [hrun]
      rw [← hwaiting, List.append_assoc due, workAll_append w due, List.append_cons later (i, job) queue]

/-! ## Paths that are given away -/

/-- The paths that jobs have for their reports. -/
def claims (queue : Queue) : List Path :=
  queue.filterMap (·.2.claim?)

theorem claims_cons (i : Nat) (job : Job) (queue : Queue) :
    claims ((i, job) :: queue) = job.claim?.toList ++ claims queue := by
  rw [claims, claims, List.filterMap_cons]
  cases job.claim? <;> rfl

theorem claims_append (front back : Queue) : claims (front ++ back) = claims front ++ claims back :=
  List.filterMap_append

/-- A request is skipped, or it has a path for its report that is not given away. -/
theorem jobOf_cases (fs : FileSystem) (outputDir : Path) (claimed : List Path) (r : ScanRequest) :
    (∃ e, jobOf fs outputDir claimed r = .skip r.artifact e) ∨
      ∃ path, jobOf fs outputDir claimed r = .scan r path ∧
        reportPath fs outputDir r.artifact = .ok path ∧ path ∉ claimed := by
  unfold jobOf
  cases hpath : reportPath fs outputDir r.artifact with
  | error e => exact .inl ⟨e, rfl⟩
  | ok path =>
    by_cases hclaimed : path ∈ claimed
    · exact .inl ⟨.outputCollision path.shown, by simp [hclaimed]⟩
    · exact .inr ⟨path, by simp [hclaimed], rfl, hclaimed⟩

/-- No path is given away twice. -/
theorem Planned.nodup {before queue : Queue} {i : Nat} {claimed : List Path} {requests : List ScanRequest}
    (h : Planned w outputDir s before i claimed requests queue) :
    (claims queue).Nodup ∧ ∀ path ∈ claims queue, path ∉ claimed := by
  induction h with
  | nil => exact ⟨List.nodup_nil, nofun⟩
  | @cons before front queue i claimed r rest job hfront hjob hrest ih =>
    obtain ⟨hnodup, hfree⟩ := ih
    rw [claims_cons]
    obtain ⟨e, hskip⟩ | ⟨own, hscan, -, hown⟩ :=
      jobOf_cases (filesAfter w front s) outputDir claimed r
    · obtain rfl := hskip.symm.trans hjob
      exact ⟨hnodup, hfree⟩
    · obtain rfl := hscan.symm.trans hjob
      refine ⟨List.nodup_cons.2 ⟨fun hmem => hfree own hmem List.mem_cons_self, hnodup⟩, ?_⟩
      refine List.forall_mem_cons.2 ⟨hown, fun path hmem hclaimed => ?_⟩
      exact hfree path hmem (List.mem_cons_of_mem _ hclaimed)

end Batch

end ApiSurface
