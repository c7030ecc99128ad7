import ApiSurface.Proofs.Batch.Serving

/-!
A batch writes its reports and nothing else, whatever its schedule.

Every task serves its request at every moment, for the steps of the others touch other places. So when a
schedule has come to its end, what is new stands at the places of reports that have been written, each with
the text of its report, or it is a temporary file whose deletion has failed. Every report has an ordinary
name, but for a file whose name is two dots and an extension. Its report would take the place of the folder
above, so it is never written.
-/

namespace ApiSurface

open FileSystem

namespace Batch

open Replacement (temporary Holds)

/-- The files have stood so at some moment on the way from one course to the other. -/
def Course.Passes (w : Workshop) (outputDir : Path) (c c' : Course) (fs : FileSystem) : Prop :=
  ∃ between, Reaches w outputDir c between ∧ Reaches w outputDir between c' ∧ between.files = fs

/-- A step in which no temporary file that is there fails to be deleted. -/
def Course.ClearsUp (w : Workshop) (start : FileSystem) (c c' : Course) : Prop :=
  ∀ (i : Nat) (r : ScanRequest) (report : Path) (e : IoError) (outcome : Outcome),
    c.tasks[i]? = some (.clearing r report e) → c'.tasks[i]? = some (.done outcome) →
    ∀ place, start.LeadsTo (temporary (w.token i) report) place → c.files.get? place ≠ none →
      (w.device c.files (.remove (temporary (w.token i) report))).2 = none

/-- What may happen in the course of a schedule in which every deletion of a temporary file succeeds. -/
abbrev Course.ReachesCleanly (w : Workshop) (outputDir : Path) (start : FileSystem) : Course → Course → Prop :=
  Relation.ReflTransGen fun c c' => Step w outputDir c c' ∧ c.ClearsUp w start c'

namespace Course

/-- Every task serves its request, and has a path that no other one has. -/
structure IsServing (w : Workshop) (outputDir : Path) (start : FileSystem) (requests : List ScanRequest)
    (moment : FileSystem → Prop) (c : Course) : Prop where
  tidy : c.IsTidy w outputDir start
  coming : c.coming = requests.drop c.tasks.length
  serves : ∀ (i : Nat) (t : Task), c.tasks[i]? = some t →
    ∃ r, requests[i]? = some r ∧ t.Serves w outputDir start moment c.files i r
  claimed : ∀ (i : Nat) (t : Task) (report : Path), c.tasks[i]? = some t → t.report? = some report →
    report ∈ c.claimed
  apart : ∀ (i j : Nat) (t t' : Task) (report : Path), c.tasks[i]? = some t → c.tasks[j]? = some t' →
    t.report? = some report → t'.report? = some report → i = j

/-- What stands at the place of a temporary file is one, and belongs to a task that has not given it up. -/
def HasNoStrays (w : Workshop) (start : FileSystem) (c : Course) : Prop :=
  ∀ place, IsDraftPlace w start place → c.files.get? place ≠ none →
    ∃ (i : Nat) (t : Task) (report : Path), c.tasks[i]? = some t ∧ t.draft? = some report ∧
      start.LeadsTo (temporary (w.token i) report) place

section Step

variable {w : Workshop} {outputDir : Path} {start : FileSystem} {requests : List ScanRequest}
  {moment moment' : FileSystem → Prop} {c c' : Course}

theorem isServing_start (h : start.isSound) :
    (Course.start start requests).IsServing w outputDir start requests moment where
  tidy := isTidy_start h
  coming := rfl
  serves _ _ ht := by cases ht
  claimed _ _ _ ht := by cases ht
  apart _ _ _ _ _ ht := by cases ht

theorem IsServing.mono (h : c.IsServing w outputDir start requests moment)
    (hle : ∀ fs, moment fs → moment' fs) : c.IsServing w outputDir start requests moment' := by
  refine ⟨h.tidy, h.coming, fun i t ht => ?_, h.claimed, h.apart⟩
  obtain ⟨r, hr, hserves⟩ := h.serves i t ht
  exact ⟨r, hr, hserves.mono hle⟩

theorem getElem?_concat_cases {tasks : List Task} {task t : Task} {i : Nat}
    (h : (tasks ++ [task])[i]? = some t) : tasks[i]? = some t ∨ i = tasks.length ∧ t = task := by
  rw [List.getElem?_append] at h
  split at h
  · exact .inl h
  · obtain ⟨hlt, rfl⟩ := List.getElem?_eq_some_iff.1 h
    have hzero : i - tasks.length = 0 := by simpa using hlt
    exact .inr ⟨by omega, by simp⟩

theorem IsServing.plan (h : c.IsServing w outputDir start requests moment) (hmoment : moment c.files)
    {r : ScanRequest} {rest : List ScanRequest} (hcoming : c.coming = r :: rest) :
    IsServing w outputDir start requests moment
      { c with
        coming := rest
        claimed := (jobOf c.files outputDir c.claimed r).claim?.toList ++ c.claimed
        tasks := c.tasks ++ [.ofJob (jobOf c.files outputDir c.claimed r)] } := by
  have hdrop := h.coming.symm.trans hcoming
  have hr : requests[c.tasks.length]? = some r := by
    rw [← List.head?_drop, hdrop, List.head?_cons]
  have hrest : rest = requests.drop (c.tasks.length + 1) := by
    rw [← List.tail_drop, hdrop, List.tail_cons]
  -- The path of the new task is one that has not been given away.
  have hnew : (Task.ofJob (jobOf c.files outputDir c.claimed r)).Serves w outputDir start moment c.files
        c.tasks.length r ∧
      ∀ report, (Task.ofJob (jobOf c.files outputDir c.claimed r)).report? = some report →
        report ∈ (jobOf c.files outputDir c.claimed r).claim?.toList ∧ report ∉ c.claimed := by
    obtain ⟨hot, hfilled, -⟩ := h.tidy.filled
    obtain ⟨e, hskip⟩ | ⟨path, hscan, hpath, hfree⟩ := jobOf_cases c.files outputDir c.claimed r
    · rw [hskip]
      exact ⟨.skipped e, nofun⟩
    · rw [hscan]
      refine ⟨.waiting ⟨exists_reportName hfilled.sound hpath, _, hmoment, hpath⟩, fun report hreport => ?_⟩
      obtain rfl := Option.some.inj hreport
      exact ⟨List.mem_singleton.2 rfl, hfree⟩
  refine ⟨h.tidy.plan r rest, ?_, fun i t ht => ?_, fun i t report ht hreport => ?_,
    fun i j t t' report ht ht' hreport hreport' => ?_⟩
  · rw [List.length_append]
    exact hrest
  · obtain hold | ⟨rfl, rfl⟩ := getElem?_concat_cases ht
    · exact h.serves i t hold
    · exact ⟨r, hr, hnew.1⟩
  · obtain hold | ⟨rfl, rfl⟩ := getElem?_concat_cases ht
    · exact List.mem_append_right _ (h.claimed i t report hold hreport)
    · exact List.mem_append_left _ (hnew.2 report hreport).1
  · obtain hold | ⟨rfl, rfl⟩ := getElem?_concat_cases ht <;>
      obtain hold' | ⟨rfl, rfl⟩ := getElem?_concat_cases ht'
    · exact h.apart i j t t' report hold hold' hreport hreport'
    · exact absurd (h.claimed i t report hold hreport) (hnew.2 report hreport').2
    · exact absurd (h.claimed j t' report hold' hreport') (hnew.2 report hreport).2
    · rfl

/-- One task goes on, and the others stay where they are. -/
theorem IsServing.set (h : c.IsServing w outputDir start requests moment) {i : Nat} {t t' : Task}
    {files : FileSystem} {r : ScanRequest} (ht : c.tasks[i]? = some t) (hr : requests[i]? = some r)
    (htidy : IsTidy w outputDir start { c with files, tasks := c.tasks.set i t' })
    (hserves : t'.Serves w outputDir start moment files i r)
    (hreport : t'.report? = t.report? ∨ t'.report? = none)
    (hothers : ∀ (j : Nat) (task : Task), j ≠ i → c.tasks[j]? = some task → ∀ report,
      task.report? = some report → ∀ place, ¬ start.IsFolderAt place →
      start.LeadsTo (temporary (w.token j) report) place ∨ start.LeadsTo report place →
      Keeps c.files files place) :
    IsServing w outputDir start requests moment { c with files, tasks := c.tasks.set i t' } := by
  have hself : (c.tasks.set i t')[i]? = some t' :=
    List.getElem?_set_self (List.getElem?_eq_some_iff.1 ht).1
  -- Each task has the path that it had, or none.
  have hbefore : ∀ {j : Nat} {task : Task} {report : Path}, (c.tasks.set i t')[j]? = some task → task.report? = some report →
      ∃ old, c.tasks[j]? = some old ∧ old.report? = some report := by
    intro j task report hj htask
    obtain rfl | hne := eq_or_ne i j
    · obtain rfl := Option.some.inj (hself.symm.trans hj)
      obtain hsame | hnone := hreport
      · exact ⟨t, ht, hsame.symm.trans htask⟩
      · cases hnone.symm.trans htask
    · exact ⟨task, (List.getElem?_set_ne hne).symm.trans hj, htask⟩
  refine ⟨htidy, ?_, fun j task hj => ?_, fun j task report hj htask => ?_,
    fun j k task task' report hj hk htask htask' => ?_⟩
  · rw [List.length_set]
    exact h.coming
  · obtain rfl | hne := eq_or_ne i j
    · obtain rfl := Option.some.inj (hself.symm.trans hj)
      exact ⟨r, hr, hserves⟩
    · have hold := (List.getElem?_set_ne hne).symm.trans hj
      obtain ⟨own, hown, htask⟩ := h.serves j task hold
      exact ⟨own, hown, htask.congr (hothers j task hne.symm hold)⟩
  · obtain ⟨old, hold, holdReport⟩ := hbefore hj htask
    exact h.claimed j old report hold holdReport
  · obtain ⟨old, hold, holdReport⟩ := hbefore hj htask
    obtain ⟨old', hold', holdReport'⟩ := hbefore hk htask'
    exact h.apart j k old old' report hold hold' holdReport holdReport'

variable (hdevice : WriteDevice.IsFaithful w.device) (hsound : start.isSound)
  (hfresh : ∀ i, IsFresh start (w.token i)) (htoken : ∀ i, IsToken (w.token i))
  (hdistinct : ∀ i j, i < j → j < requests.length → w.token i ≠ w.token j)

include hsound hfresh htoken hdistinct in
/-- What one task touches is no place of another. -/
theorem IsServing.keeps_other (h : c.IsServing w outputDir start requests moment) {i j : Nat} {t task : Task}
    {files : FileSystem} (hne : j ≠ i) (ht : c.tasks[i]? = some t) (hj : c.tasks[j]? = some task)
    (hstill : t.draft? = none → files = c.files)
    (hkeeps : ∀ report, t.draft? = some report → ∀ place,
      ¬ start.LeadsTo (temporary (w.token i) report) place → ¬ start.LeadsTo report place →
      Keeps c.files files place) {report : Path} (hreport : task.report? = some report) {place : Location}
    (hno : ¬ start.IsFolderAt place)
    (hplace : start.LeadsTo (temporary (w.token j) report) place ∨ start.LeadsTo report place) :
    Keeps c.files files place := by
  cases hdraft : t.draft? with
  | none =>
    rw [hstill hdraft]
    exact Keeps.refl _ place
  | some own =>
    obtain ⟨r, hr, hserves⟩ := h.serves i t ht
    obtain ⟨r', hr', hserves'⟩ := h.serves j task hj
    have hown : t.report? = some own := Task.report?_of_draft? hdraft
    have hnamed := hserves.named hown
    have hnamed' := hserves'.named hreport
    have htokens : w.token j ≠ w.token i := by
      obtain hlt | hlt := Nat.lt_or_gt_of_ne hne
      · exact hdistinct j i hlt (List.getElem?_eq_some_iff.1 hr).1
      · exact (hdistinct i j hlt (List.getElem?_eq_some_iff.1 hr').1).symm
    refine hkeeps own hdraft place (fun htemp => ?_) fun hleads => ?_
    · obtain htemp' | hleads' := hplace
      · exact htokens ((htoken j).eq_of_leadsTo (htoken i) htemp' htemp)
      · exact (hfresh i).not_leadsTo hsound htemp hnamed' hleads'
    · obtain htemp' | hleads' := hplace
      · exact (hfresh j).not_leadsTo hsound htemp' hnamed hleads
      · obtain rfl := hnamed.unique hsound hnamed' hno hleads hleads'
        exact hne (h.apart j i task t own hj ht hreport hown)

include hdevice hsound hfresh htoken hdistinct

theorem IsServing.step (h : c.IsServing w outputDir start requests moment) (hmoment : moment c.files)
    (hstep : Step w outputDir c c') : c'.IsServing w outputDir start requests moment := by
  have htidy := h.tidy.step hdevice hsound hfresh hstep
  cases hstep with
  | plan hcoming _ => exact h.plan hmoment hcoming
  | @begin i r report htask hroom =>
    obtain ⟨r', hr, hserves⟩ := h.serves i _ htask
    cases hserves with
    | waiting hplanned =>
      exact h.set htask hr htidy (.reading hplanned .start) (.inl rfl) fun _ _ _ _ _ _ place _ _ =>
        Keeps.refl _ place
  | @work i t t' files htask hstep =>
    obtain ⟨r, hr, hserves⟩ := h.serves i t htask
    have hproceeds := hserves.step hdevice (hfresh i) (h.tidy.filled.mono fun _ _ => trivial) hmoment hstep
    exact h.set htask hr htidy hproceeds.serves hproceeds.report? fun j task hne hj report hreport place =>
      h.keeps_other hsound hfresh htoken hdistinct hne htask hj hproceeds.still hproceeds.keeps hreport

/-- Whatever the schedule, every request is served. -/
theorem isServing_of_reaches (hreaches : Reaches w outputDir (.start start requests) c) :
    c.IsServing w outputDir start requests (Passes w outputDir (.start start requests) c) := by
  induction hreaches with
  | refl => exact isServing_start hsound
  | @tail c c' hreaches hstep ih =>
    have hpasses : Passes w outputDir (.start start requests) c' c.files := ⟨c, hreaches, .single hstep, rfl⟩
    refine (ih.mono fun fs hfs => ?_).step hdevice hsound hfresh htoken hdistinct hpasses hstep
    obtain ⟨between, hbefore, hbehind, hfiles⟩ := hfs
    exact ⟨between, hbefore, hbehind.tail hstep, hfiles⟩

omit hdevice hsound hfresh htoken hdistinct in
/-- What was there before belongs to a task that is still there, unless that is the one that goes on. -/
theorem HasNoStrays.set (h : c.HasNoStrays w start) {i : Nat} {t : Task} (htask : c.tasks[i]? = some t)
    {place : Location} (hplace : IsDraftPlace w start place) (hthere : c.files.get? place ≠ none)
    (hother : ∀ report, t.draft? = some report → ¬ start.LeadsTo (temporary (w.token i) report) place)
    (t' : Task) : ∃ (j : Nat) (task : Task) (report : Path), (c.tasks.set i t')[j]? = some task ∧
      task.draft? = some report ∧ start.LeadsTo (temporary (w.token j) report) place := by
  obtain ⟨j, task, report, hj, hdraft, hleads⟩ := h place hplace hthere
  refine ⟨j, task, report, (List.getElem?_set_ne ?_).trans hj, hdraft, hleads⟩
  rintro rfl
  obtain rfl := Option.some.inj (htask.symm.trans hj)
  exact hother report hdraft hleads

omit htoken hdistinct in
/-- While every deletion succeeds, no temporary file is left behind. -/
theorem HasNoStrays.step (h : c.HasNoStrays w start) (hserving : c.IsServing w outputDir start requests moment)
    (hmoment : moment c.files) (hstep : Step w outputDir c c') (hclears : c.ClearsUp w start c') :
    c'.HasNoStrays w start := by
  intro place hplace hthere
  cases hstep with
  | plan _ _ =>
    obtain ⟨j, task, report, hj, hdraft, hleads⟩ := h place hplace hthere
    refine ⟨j, task, report, ?_, hdraft, hleads⟩
    rw [List.getElem?_append_left (List.getElem?_eq_some_iff.1 hj).1]
    exact hj
  | @begin i r report htask _ => exact h.set htask hplace hthere (fun _ hdraft => by cases hdraft) _
  | @work i t t' files htask hstep =>
    obtain ⟨r, hr, hserves⟩ := hserving.serves i t htask
    have hfilled := hserving.tidy.filled.mono fun _ _ => trivial
    have hproceeds := hserves.step hdevice (hfresh i) hfilled hmoment hstep
    have hself : (c.tasks.set i t')[i]? = some t' :=
      List.getElem?_set_self (List.getElem?_eq_some_iff.1 htask).1
    cases hdraft : t.draft? with
    | none =>
      rw [show files = c.files from hproceeds.still hdraft] at hthere
      exact h.set htask hplace hthere (fun report hreport => by cases hdraft.symm.trans hreport) t'
    | some report =>
      by_cases hleads : start.LeadsTo (temporary (w.token i) report) place
      · refine ⟨i, t', report, hself, ?_, hleads⟩
        by_cases hclearing : ∃ e, t = .clearing r report e
        · obtain ⟨e, rfl⟩ := hclearing
          obtain ⟨rfl, rfl⟩ := Prod.mk.inj (Option.some.inj hstep)
          exact absurd (Task.get?_of_remove hdevice (hfresh i) hfilled
            (fun place hplace hold => hclears i r report e _ htask hself place hplace hold) hleads) hthere
        · obtain hstill | hgone := hproceeds.draft report hdraft fun e he => hclearing ⟨e, he⟩
          · exact hstill
          · exact absurd (hgone place hleads) hthere
      · have hnamed : IsReportIn outputDir report := hserves.named (Task.report?_of_draft? hdraft)
        have hkeeps := hproceeds.keeps report hdraft place hleads (hplace.not_leadsTo hfresh hsound hnamed)
        refine h.set htask hplace (fun hnone => hthere (hkeeps.get?_none hnone)) (fun other hother => ?_) t'
        obtain rfl := Option.some.inj (hdraft.symm.trans hother)
        exact hleads

/-- So at the end of such a schedule there is none. -/
theorem hasNoStrays_of_reachesCleanly (hreaches : ReachesCleanly w outputDir start (.start start requests) c) :
    Reaches w outputDir (.start start requests) c ∧ c.HasNoStrays w start := by
  induction hreaches with
  | refl => exact ⟨.refl, fun place hplace hthere => absurd (hplace.get?_eq_none hfresh) hthere⟩
  | @tail c c' _ hstep ih =>
    obtain ⟨hreaches, hstrays⟩ := ih
    have hserving := isServing_of_reaches hdevice hsound hfresh htoken hdistinct hreaches
    exact ⟨hreaches.tail hstep.1, hstrays.step hdevice hsound hfresh hserving
      ⟨c, hreaches, .refl, rfl⟩ hstep.1 hstep.2⟩

end Step

/-! ## The end of a schedule -/

section Finished

variable {w : Workshop} {outputDir : Path} {start : FileSystem} {requests : List ScanRequest}
  {moment : FileSystem → Prop} {mayLeave : Location → Prop} {c : Course}

theorem tasks_eq_map (h : c.IsFinished) : c.tasks = c.outcomes.map .done := by
  have hall : ∀ tasks : List Task, (∀ t ∈ tasks, ∃ outcome, t = .done outcome) →
      tasks = (tasks.filterMap Task.outcome?).map .done := by
    intro tasks
    induction tasks with
    | nil => exact fun _ => rfl
    | cons t rest ih =>
      intro htasks
      obtain ⟨⟨outcome, rfl⟩, hrest⟩ := List.forall_mem_cons.1 htasks
      exact congrArg (Task.done outcome :: ·) (ih hrest)
  exact hall c.tasks h.2

theorem getElem?_tasks (hfinished : c.IsFinished) {i : Nat} {outcome : Outcome}
    (h : c.outcomes[i]? = some outcome) : c.tasks[i]? = some (.done outcome) := by
  rw [tasks_eq_map hfinished, List.getElem?_map, h, Option.map_some]

theorem IsServing.served (h : c.IsServing w outputDir start requests moment) (hfinished : c.IsFinished) :
    List.Forall₂ (IsServed w outputDir start moment c.files) requests c.outcomes := by
  have hlength : c.tasks.length = c.outcomes.length := by
    rw [tasks_eq_map hfinished, List.length_map]
  have hle : requests.length ≤ c.tasks.length := by
    rw [← List.drop_eq_nil_iff, ← h.coming, hfinished.1]
  refine List.forall₂_iff_get.2 ⟨Nat.le_antisymm (hle.trans hlength.le) ?_, fun i hi hi' => ?_⟩
  · by_contra hmore
    have hlast : requests.length < c.tasks.length := by omega
    obtain ⟨r, hr, -⟩ := h.serves _ _ (List.getElem?_eq_getElem hlast)
    exact absurd (List.getElem?_eq_some_iff.1 hr).1 (Nat.lt_irrefl _)
  · obtain ⟨r, hr, hserves⟩ := h.serves i _ (getElem?_tasks hfinished (List.getElem?_eq_getElem hi'))
    obtain rfl := Option.some.inj ((List.getElem?_eq_getElem hi).symm.trans hr)
    simp only [List.get_eq_getElem]
    generalize c.outcomes[i] = outcome at hserves
    obtain ⟨hot, hfilled, -⟩ := h.tidy.filled
    cases hserves with
    | skipped e => exact .skipped e
    | @written report found hplanned hfound hholds =>
      obtain ⟨⟨name, rfl, hname⟩, planned, hmoment, hpath⟩ := hplanned
      have ⟨place, _, hplace, hno, _⟩ := hholds
      have hordinary := hname.isOrdinary (hname.getLast? hfilled.start_sound hplace hno).2
      exact .written hordinary hmoment hpath hfound hholds fun bytes => hholds.readFile hfilled

/-- No two outcomes have one report. -/
theorem IsServing.nodup (h : c.IsServing w outputDir start requests moment) (hfinished : c.IsFinished) :
    (reports c.outcomes).Nodup := by
  refine List.pairwise_filterMap.2 (List.pairwise_iff_getElem.2 fun i j hi hj hlt report hreport other hother => ?_)
  rintro rfl
  exact Nat.ne_of_lt hlt (h.apart i j _ _ report (getElem?_tasks hfinished (List.getElem?_eq_getElem hi))
    (getElem?_tasks hfinished (List.getElem?_eq_getElem hj)) hreport hother)

/-- What has been put in its place has a name and a place of its own. -/
theorem IsTidy.isSettled (h : c.IsTidy w outputDir start) {report : Path} (hreport : report ∈ c.placed) :
    Task.IsSettled outputDir start report := by
  obtain ⟨i, t, ht, hplaced⟩ := mem_placed.1 hreport
  exact (h.orderly i t ht).isSettled hplaced

/-- All that differs at any moment. -/
theorem IsTidy.sameAt (h : c.IsTidy w outputDir start) {place : Location}
    (hno : ¬ IsTaken start c.placed place) (hdraft : ¬ IsDraftPlace w start place) :
    SameAt start c.files place := by
  obtain ⟨hot, hfilled, hhot⟩ := h.filled
  exact (Keeps.refl start place).sameAt
    (hfilled.keeps_start fun hplace => (hhot place hplace).elim hdraft hno)

variable (hfresh : ∀ i, IsFresh start (w.token i))
include hfresh

theorem IsServing.writesReports (h : c.IsServing w outputDir start requests moment) (hfinished : c.IsFinished)
    (hmoment : ∀ fs, moment fs → ∃ between : Course, between.IsTidy w outputDir start ∧
      between.placed ⊆ c.placed ∧ between.files = fs)
    (hleft : ∀ place, IsDraftPlace w start place → ¬ mayLeave place → c.files.get? place = none) :
    WritesReports w outputDir requests start moment mayLeave c.outcomes c.files := by
  have hplaced : c.placed = reports c.outcomes := placed_eq_reports hfinished
  have hsound : start.isSound := by
    obtain ⟨hot, hfilled, -⟩ := h.tidy.filled
    exact hfilled.start_sound
  have hsettled : ∀ report ∈ reports c.outcomes, Task.IsSettled outputDir start report :=
    fun report hreport => h.tidy.isSettled (hplaced ▸ hreport)
  have hunique : ∀ path ∈ reports c.outcomes, ∀ path', IsReportIn outputDir path' → ∀ place,
      start.LeadsTo path place → start.LeadsTo path' place → path = path' := by
    intro path hpath path' hpath' place hplace hplace'
    obtain ⟨hnamed, own, hown, hno⟩ := hsettled path hpath
    obtain rfl := hown.unique hplace
    exact hnamed.unique hsound hpath' hno hplace hplace'
  have hsame : ∀ place, ¬ IsReportPlace start c.outcomes place → ¬ IsDraftPlace w start place →
      SameAt start c.files place := by
    intro place hno hdraft
    refine h.tidy.sameAt ?_ hdraft
    rwa [hplaced]
  constructor
  · intro place hno hclean
    by_cases hdraft : IsDraftPlace w start place
    · exact (Keeps.refl start place).sameAt
        (.of_none (hdraft.get?_eq_none hfresh) (hleft place hdraft hclean))
    · exact hsame place hno hdraft
  · exact h.served hfinished
  · intro fs hfs place hno hdraft
    obtain ⟨between, htidy, hsub, rfl⟩ := hmoment fs hfs
    refine htidy.sameAt (fun ⟨report, hreport, hleads⟩ => hno ⟨report, ?_, hleads⟩) hdraft
    rw [← hplaced]
    exact hsub hreport
  · exact h.nodup hfinished
  · exact fun path hpath path' hpath' => hunique path hpath path' (hsettled path' hpath').named
  · exact hleft
  · intro fs artifact path place hfs hpath hnot hplace
    have hnamed := exists_reportName hfs hpath
    refine hsame place (fun ⟨report, hreport, hleads⟩ => hnot ?_) fun hdraft =>
      hdraft.not_leadsTo hfresh hsound hnamed hplace
    rwa [← hunique report hreport path hnamed place hleads hplace]

end Finished

end Course

/-! ## All schedules -/

section Schedules

variable {w : Workshop} {outputDir : Path} {start : FileSystem} {requests : List ScanRequest} {c : Course}

/-- The task could not write its report. -/
inductive Task.GivesUp : Task → Prop
  | clearing (r : ScanRequest) (report : Path) (e : IoError) : GivesUp (.clearing r report e)
  | done (artifact : Path) (text : String) (e : IoError) : GivesUp (.done (.skipped artifact (.write text e)))

theorem Course.Step.givesUp {c c' : Course} (h : Course.Step w outputDir c c') {i : Nat} {t : Task}
    (ht : c.tasks[i]? = some t) (hgives : t.GivesUp) : ∃ t', c'.tasks[i]? = some t' ∧ t'.GivesUp := by
  cases h with
  | plan _ _ =>
    refine ⟨t, ?_, hgives⟩
    rw [List.getElem?_append_left (List.getElem?_eq_some_iff.1 ht).1]
    exact ht
  | @begin j r report htask _ =>
    refine ⟨t, (List.getElem?_set_ne ?_).trans ht, hgives⟩
    rintro rfl
    obtain rfl := Option.some.inj (htask.symm.trans ht)
    cases hgives
  | @work j task task' files htask hstep =>
    obtain rfl | hne := eq_or_ne j i
    · obtain rfl := Option.some.inj (htask.symm.trans ht)
      refine ⟨task', List.getElem?_set_self (List.getElem?_eq_some_iff.1 ht).1, ?_⟩
      cases hgives with
      | clearing r report e =>
        obtain ⟨-, rfl⟩ := Prod.mk.inj (Option.some.inj hstep)
        exact .done _ _ _
      | done artifact text e => cases hstep
    · exact ⟨t, (List.getElem?_set_ne hne).trans ht, hgives⟩

/-- Where every report could be written, no temporary file had to be deleted. -/
theorem Course.reachesCleanly_of_reaches {c c' : Course} (h : Course.Reaches w outputDir c c')
    (hnone : ∀ (i : Nat) (t : Task), c'.tasks[i]? = some t → ¬ t.GivesUp) :
    Course.ReachesCleanly w outputDir start c c' := by
  induction h with
  | refl => exact .refl
  | @tail between c' _ hstep ih =>
    have hbefore : ∀ (i : Nat) (t : Task), between.tasks[i]? = some t → ¬ t.GivesUp := by
      intro i t ht hgives
      obtain ⟨t', ht', hgives'⟩ := hstep.givesUp ht hgives
      exact hnone i t' ht' hgives'
    exact (ih hbefore).tail ⟨hstep, fun i r report e _ ht => absurd (.clearing r report e) (hbefore i _ ht)⟩

variable (hdevice : WriteDevice.IsFaithful w.device) (hsound : start.isSound)
  (hfresh : ∀ i, IsFresh start (w.token i)) (htoken : ∀ i, IsToken (w.token i))
  (hdistinct : ∀ i j, i < j → j < requests.length → w.token i ≠ w.token j)
include hdevice hsound hfresh htoken hdistinct

/-- At the end of any schedule, nothing is new but reports, and temporary files where some may be left. -/
theorem writesReports_of_reaches (hreaches : Course.Reaches w outputDir (.start start requests) c)
    (hfinished : c.IsFinished) {mayLeave : Location → Prop}
    (hleft : ∀ place, IsDraftPlace w start place → ¬ mayLeave place → c.files.get? place = none) :
    WritesReports w outputDir requests start (Course.Passes w outputDir (.start start requests) c) mayLeave
      c.outcomes c.files := by
  have hserving := Course.isServing_of_reaches hdevice hsound hfresh htoken hdistinct hreaches
  refine hserving.writesReports hfresh hfinished ?_ hleft
  rintro fs ⟨between, hbefore, hbehind, hfiles⟩
  exact ⟨between, (Course.isTidy_start hsound).reaches hdevice hsound hfresh hbefore,
    Course.placed_subset_of_reaches hbehind, hfiles⟩

/-- When every deletion of a temporary file succeeds, none is left. -/
theorem writesReports_of_reachesCleanly
    (hreaches : Course.ReachesCleanly w outputDir start (.start start requests) c) (hfinished : c.IsFinished) :
    WritesReports w outputDir requests start (Course.Passes w outputDir (.start start requests) c)
      (fun _ => False) c.outcomes c.files := by
  obtain ⟨hreaches, hstrays⟩ :=
    Course.hasNoStrays_of_reachesCleanly hdevice hsound hfresh htoken hdistinct hreaches
  refine writesReports_of_reaches hdevice hsound hfresh htoken hdistinct hreaches hfinished
    fun place hplace _ => by_contra fun hthere => ?_
  obtain ⟨i, t, report, ht, hdraft, -⟩ := hstrays place hplace hthere
  obtain ⟨outcome, rfl⟩ := hfinished.2 t (List.mem_of_getElem? ht)
  cases hdraft

end Schedules

/-- **A batch writes its reports and nothing else, whatever its schedule.** A temporary file is left only
where its deletion has failed. When one scan follows the other, none is left at all. Every report has an
ordinary name that ends in `.txt`, but for a file whose name is two dots and an extension. -/
theorem scanBatch_writes_reports {w : Workshop} {requests : List ScanRequest} {outputDir : Path} {s : State}
    {made : FileSystem} {e? : Option IoError} (hfolder : s.files.createFolders outputDir = (made, e?))
    (hdevice : WriteDevice.IsFaithful w.device) (hsound : s.files.isSound)
    (hfresh : ∀ i, IsFresh made (w.token i)) (htoken : ∀ i, IsToken (w.token i))
    (hdistinct : ∀ i j, i < j → j < requests.length → w.token i ≠ w.token j) :
    FoldersMade outputDir s.files made ∧
      (∀ e, e? = some e → scanBatch w requests outputDir s =
        ({ s with files := made }, .error (.directory outputDir.shown e))) ∧
      (e? = none →
        (∀ c, Course.Reaches w outputDir (.start made requests) c → c.IsFinished →
          WritesReports w outputDir requests made (Course.Passes w outputDir (.start made requests) c)
            (IsDraftPlace w made) c.outcomes c.files) ∧
        (∀ c, Course.ReachesCleanly w outputDir made (.start made requests) c → c.IsFinished →
          WritesReports w outputDir requests made (Course.Passes w outputDir (.start made requests) c)
            (fun _ => False) c.outcomes c.files) ∧
        ∃ outcomes, (scanBatch w requests outputDir s).2 = .ok ⟨outcomes⟩ ∧
          WritesReports w outputDir requests made (IsMoment made outcomes) (fun _ => False) outcomes
            (scanBatch w requests outputDir s).1.files) ∧
      ∀ fs artifact path, fs.isSound → reportPath fs outputDir artifact = .ok path →
        IsReportPathOf fs outputDir artifact path := by
  have hmade : FoldersMade outputDir s.files made := .of_createFolders hsound hfolder
  unfold scanBatch
  rw [hfolder]
  refine ⟨hmade, ?_, ?_, fun fs artifact path hfs => isReportPathOf_of_reportPath hfs⟩
  · rintro e rfl
    rfl
  · rintro rfl
    refine ⟨fun c hreaches hfinished => ?_, fun c hreaches hfinished => ?_, ?_⟩
    · exact writesReports_of_reaches hdevice hmade.sound hfresh htoken hdistinct hreaches hfinished
        fun place hplace hno => absurd hplace hno
    · exact writesReports_of_reachesCleanly hdevice hmade.sound hfresh htoken hdistinct hreaches hfinished
    · exact ⟨_, rfl, (@settled_runFrom w outputDir requests { s with files := made } hdevice hmade.sound hfresh).2⟩

/-! ### A batch on a small disk -/

/-- A disk that takes no more than `room` bytes at a time. -/
def smallDisk (room : Nat) : WriteDevice := fun fs step =>
  match step with
  | .append path bytes =>
    if bytes.length ≤ room then perform fs step
    else ((perform fs (.append path (bytes.take room))).1, some (.other "No space left on device"))
  | _ => perform fs step

theorem isFaithful_smallDisk (room : Nat) : WriteDevice.IsFaithful (smallDisk room) where
  step fs step := by
    cases step with
    | append path bytes =>
      rw [smallDisk]
      split
      · exact .performed
      · exact .inPart rfl (List.take_prefix room bytes) _
    | _ => exact .performed
  remove _ _ := rfl

/-- Two folders, of which one has a class with a longer name. -/
def crampedFiles : FileSystem where
  root := .folder [("core", .folder [("A.class", .file 0)]), ("wide", .folder [("AB.class", .file 1)])]
  current := []
  contents := #[Scan.plainClass.toByteArray,
    ⟨#[0xCA, 0xFE, 0xBA, 0xBE, 0, 0, 0, 61, 0, 3, 7, 0, 2, 1, 0, 2, 65, 66,
      0, 0x21, 0, 1, 0, 0, 0, 0, 0, 0, 0, 0, 0, 0]⟩]

def crampedWorkshop : Workshop where
  settings := Scan.sampleSettings
  device := smallDisk 11
  token i := ["0a1b2c3d-0000-4000-8000-000000000000", "0a1b2c3d-0000-4000-8000-000000000001",
    "0a1b2c3d-0000-4000-8000-000000000002"].getD i "0a1b2c3d-0000-4000-8000-000000000003"

/-- Both folders, one of them again, and an archive that is not there. -/
def crampedRequests : List ScanRequest :=
  [⟨⟨"core"⟩, []⟩, ⟨⟨"wide"⟩, []⟩, ⟨⟨"core/."⟩, []⟩, ⟨⟨"gone.jar"⟩, []⟩]

def crampedOutcomes : List Outcome :=
  [.written ⟨"core"⟩ ⟨"out/core.txt"⟩ 1 0,
    .skipped ⟨"wide"⟩ (.write "out/wide.txt" (.other "No space left on device")),
    .skipped ⟨"core/."⟩ (.outputCollision "out/core.txt"),
    .skipped ⟨"gone.jar"⟩ (.resolution "gone.jar" (.io (.os .notFound)))]

/-- The files with the folder for the reports. -/
def crampedStart : FileSystem :=
  (crampedFiles.createFolders ⟨"out"⟩).1

theorem token_cramped (i : Nat) : crampedWorkshop.token i ∈
    ["0a1b2c3d-0000-4000-8000-000000000000", "0a1b2c3d-0000-4000-8000-000000000001",
      "0a1b2c3d-0000-4000-8000-000000000002", "0a1b2c3d-0000-4000-8000-000000000003"] := by
  match i with
  | 0 | 1 | 2 | _ + 3 => simp [crampedWorkshop]

theorem isToken_cramped (i : Nat) : IsToken (crampedWorkshop.token i) := by
  have hall : ∀ token ∈ ["0a1b2c3d-0000-4000-8000-000000000000", "0a1b2c3d-0000-4000-8000-000000000001",
      "0a1b2c3d-0000-4000-8000-000000000002", "0a1b2c3d-0000-4000-8000-000000000003"], IsToken token := by
    unfold IsToken
    decide +kernel
  exact hall _ (token_cramped i)

theorem isFresh_cramped (i : Nat) : IsFresh crampedStart (crampedWorkshop.token i) := by
  have hall : ∀ token ∈ ["0a1b2c3d-0000-4000-8000-000000000000", "0a1b2c3d-0000-4000-8000-000000000001",
      "0a1b2c3d-0000-4000-8000-000000000002", "0a1b2c3d-0000-4000-8000-000000000003"],
      ∀ name ∈ crampedStart.root.names, ¬ (OsString.ofText ("." ++ token ++ ".tmp")).toList <:+ name.toList := by
    decide +kernel
  exact ⟨(isToken_cramped i).noSlash, hall _ (token_cramped i)⟩

theorem token_cramped_ne {i j : Nat} (hlt : i < j) (hj : j < 4) :
    crampedWorkshop.token i ≠ crampedWorkshop.token j := by
  have hall : ∀ j < 4, ∀ i < j, crampedWorkshop.token i ≠ crampedWorkshop.token j := by decide +kernel
  exact hall j hj i hlt

/-- One report is written. The other one does not fit on the disk, and nothing of it is left. Where only the
first one is asked for, no deletion can fail. -/
theorem scanBatch_cramped :
    crampedFiles.createFolders ⟨"out"⟩ = (crampedStart, none) ∧
      (scanBatch crampedWorkshop crampedRequests ⟨"out"⟩ ⟨crampedFiles, .zero⟩).2 = .ok ⟨crampedOutcomes⟩ ∧
      WritesReports crampedWorkshop ⟨"out"⟩ crampedRequests crampedStart (IsMoment crampedStart crampedOutcomes)
        (fun _ => False) crampedOutcomes
        (scanBatch crampedWorkshop crampedRequests ⟨"out"⟩ ⟨crampedFiles, .zero⟩).1.files ∧
      (∃ c, Course.Reaches crampedWorkshop ⟨"out"⟩ (.start crampedStart crampedRequests) c ∧
        c.outcomes = crampedOutcomes ∧
        WritesReports crampedWorkshop ⟨"out"⟩ crampedRequests crampedStart
          (Course.Passes crampedWorkshop ⟨"out"⟩ (.start crampedStart crampedRequests) c)
          (IsDraftPlace crampedWorkshop crampedStart) crampedOutcomes c.files) ∧
      ∃ c, Course.ReachesCleanly crampedWorkshop ⟨"out"⟩ crampedStart
          (.start crampedStart [⟨⟨"core"⟩, []⟩]) c ∧
        c.outcomes = [.written ⟨"core"⟩ ⟨"out/core.txt"⟩ 1 0] ∧
        WritesReports crampedWorkshop ⟨"out"⟩ [⟨⟨"core"⟩, []⟩] crampedStart
          (Course.Passes crampedWorkshop ⟨"out"⟩ (.start crampedStart [⟨⟨"core"⟩, []⟩]) c) (fun _ => False)
          [.written ⟨"core"⟩ ⟨"out/core.txt"⟩ 1 0] c.files := by
  have hsound : crampedFiles.isSound := by decide +kernel
  have hfolder : crampedFiles.createFolders ⟨"out"⟩ = (crampedStart, none) :=
    Prod.ext rfl (by decide +kernel)
  have hcramped : (scanBatch crampedWorkshop crampedRequests ⟨"out"⟩ ⟨crampedFiles, .zero⟩).2 =
      .ok ⟨crampedOutcomes⟩ := by
    decide +kernel
  obtain ⟨-, -, hbatch, -⟩ := @scanBatch_writes_reports crampedWorkshop crampedRequests ⟨"out"⟩
    ⟨crampedFiles, .zero⟩ crampedStart none hfolder (isFaithful_smallDisk 11) hsound isFresh_cramped
    isToken_cramped fun _ _ hlt hj => token_cramped_ne hlt hj
  obtain ⟨hcourse, -, outcomes, hresult, hwrites⟩ := hbatch rfl
  obtain rfl : outcomes = crampedOutcomes :=
    BatchSummary.mk.inj (Except.ok.inj (hresult.symm.trans hcramped))
  refine ⟨hfolder, hcramped, hwrites, ?_, ?_⟩
  · obtain ⟨c, hreaches, hfinished, -, houtcomes⟩ := @Course.reaches_sequential crampedWorkshop ⟨"out"⟩
      (by decide) crampedRequests ⟨crampedStart, .zero⟩
    have hsame : c.outcomes = crampedOutcomes := houtcomes.trans (by decide +kernel)
    exact ⟨c, hreaches, hsame, hsame ▸ hcourse c hreaches hfinished⟩
  · obtain ⟨-, -, hsingle, -⟩ := @scanBatch_writes_reports crampedWorkshop [⟨⟨"core"⟩, []⟩] ⟨"out"⟩
      ⟨crampedFiles, .zero⟩ crampedStart none hfolder (isFaithful_smallDisk 11) hsound isFresh_cramped
      isToken_cramped fun _ _ hlt hj => token_cramped_ne hlt (hj.trans (by decide))
    obtain ⟨c, hreaches, hfinished, -, houtcomes⟩ := @Course.reaches_sequential crampedWorkshop ⟨"out"⟩
      (by decide) [⟨⟨"core"⟩, []⟩] ⟨crampedStart, .zero⟩
    have hsame : c.outcomes = [.written ⟨"core"⟩ ⟨"out/core.txt"⟩ 1 0] := houtcomes.trans (by decide +kernel)
    have hclean : Course.ReachesCleanly crampedWorkshop ⟨"out"⟩ crampedStart
        (.start crampedStart [⟨⟨"core"⟩, []⟩]) c := by
      refine Course.reachesCleanly_of_reaches hreaches fun i t ht hgives => ?_
      rw [Course.tasks_eq_map hfinished, hsame] at ht
      obtain rfl := List.mem_singleton.1 (List.mem_of_getElem? ht)
      cases hgives
    exact ⟨c, hclean, hsame, hsame ▸ (hsingle rfl).2.1 c hclean hfinished⟩

/-! ### A file whose name is two dots and an extension -/

def dotsFiles : FileSystem where
  root := .folder [("..jar", .file 0)]
  current := []
  contents := #[.empty]

/-- The report on it would take the place of the folder above. -/
theorem not_isOrdinary_dots : ¬ ∀ (fs : FileSystem) (outputDir artifact path : Path), fs.isSound →
    reportPath fs outputDir artifact = .ok path → ∃ name, path = outputDir.join ⟨name⟩ ∧ IsOrdinary name := by
  intro hall
  obtain ⟨name, hpath, hname⟩ := hall dotsFiles ⟨"out"⟩ ⟨"..jar"⟩ ⟨"out/.."⟩ (by decide +kernel)
    (by decide +kernel)
  obtain ⟨front, htext, -⟩ := Path.exists_front_of_join ⟨"out"⟩ (Node.isName_iff.1 hname.isName).1
  have hsuffix : name.toList <:+ ("out/.." : OsString).toList := ⟨front, by rw [← htext, ← hpath]⟩
  exact absurd (hname.ending.trans hsuffix) (by decide)

end Batch

end ApiSurface
