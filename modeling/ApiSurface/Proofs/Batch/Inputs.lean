import ApiSurface.Proofs.Batch.FreshFolder
import ApiSurface.Proofs.Report.Saving
import ApiSurface.Proofs.Storage.SingleSteps

/-!
What becomes of the inputs of a batch.

A batch looks out for reports that would get in each other's way, but not for reports that take the place of
an artifact or of a location on a classpath. In whatever order its tasks take their steps, at every moment
nothing has come to stand anywhere but reports at the places to which their paths lead and temporary files
where nothing stood. So an input has what it had, unless the path of a report that has been written leads to
its place. Such a place has a name that ends like a report.
-/

namespace ApiSurface

open FileSystem

/-- What can be read along a path hangs on what is seen on its way and at its end. -/
theorem FileSystem.SeenAlike.readFile_eq {seen : Location → Prop} {start fs : FileSystem} {path : Path}
    (h : SeenAlike seen start fs) (hseen : ∀ place, start.Meets path place → seen place) :
    fs.readFile path = start.readFile path := by
  rw [readFile, readFile]
  obtain ⟨e, hfs, hstart⟩ | ⟨node', node, hfs, hstart, hbare⟩ := cases_of_map_eq_map (h.stat_bare hseen)
  · rw [hfs, hstart]
    rfl
  · rw [hfs, hstart]
    show fs.contentOf node' = start.contentOf node
    refine contentOf_congr ?_ fun id id' hid hid' => ?_
    · rw [← Node.kind_bare, hbare, Node.kind_bare]
    · subst hid hid'
      obtain rfl : id' = id := Node.file.inj hbare
      have hsound := isSound_of_stat h.start_sound hstart
      rw [Node.isSound] at hsound
      exact h.content id' (of_decide_eq_true hsound)

/-- All that a scan is about: its artifact, and the locations of its classpath. -/
def ScanRequest.inputs (r : ScanRequest) : List Path :=
  r.artifact :: r.classpath

namespace Batch

open Replacement (temporary IsDraftStep touches_of_isDraftStep cases_of_move)

/-- The path of one of the reports led to the place. -/
def IsTaken (start : FileSystem) (written : List Path) (place : Location) : Prop :=
  ∃ report ∈ written, start.LeadsTo report place

/-- `after` is what has become of `before` when folders have been made, as in `made`, and reports have been
written: each input has what it had, unless a report has taken its place. -/
structure KeepsInputs (requests : List ScanRequest) (before made after : FileSystem) (written : List Path) :
    Prop where
  /-- What an input leads to is there, and so is everything in it. -/
  kept : ∀ r ∈ requests, ∀ path ∈ r.inputs, ∀ place, before.placeOf? true path = some place →
    ∀ inner, place <+: inner → before.get? inner ≠ none → ¬ IsTaken made written inner →
      SameAt before after inner
  /-- And it can be read along the path of the input, unless a report has come to stand on the way. -/
  read : ∀ r ∈ requests, ∀ path ∈ r.inputs, ∀ bytes, before.readFile path = .ok bytes →
    (∀ place, before.Meets path place → ¬ IsTaken made written place) → after.readFile path = .ok bytes
  /-- Reports have taken no places but those with the names of reports. -/
  named : ∀ place, IsTaken made written place →
    ∃ name, place.getLast? = some name ∧ reportEnding <:+ name.toList

section Kept

variable {requests : List ScanRequest} {before made after : FileSystem} {written : List Path}

/-- On the way to what can be read, and at its end, something stands. -/
theorem get?_of_meets {fs : FileSystem} {path : Path} {place : Location} {bytes : Bytes} (hsound : fs.isSound)
    (hread : fs.readFile path = .ok bytes) (hmeets : fs.Meets path place) : fs.get? place ≠ none := by
  cases hstat : fs.stat path with
  | error e =>
    rw [readFile, hstat] at hread
    cases hread
  | ok node =>
    obtain ⟨t, ht, hnode⟩ := exists_target_of_stat hstat
    obtain hway | ⟨t', ht', rfl⟩ := hmeets
    · intro hnone
      exact kind?_of_mem_way ht place hway (by rw [kind?, hnone]; rfl)
    · obtain rfl := Except.ok.inj (ht.symm.trans ht')
      rw [get?_of_stat hsound ht hnode]
      exact Option.some_ne_none node

/-- Where nothing has come to stand but reports, and other files where nothing stood, the inputs are kept. -/
theorem keepsInputs_of_filledWithin (hsound : before.isSound) (hgrown : Grown before made)
    (h : FilledWithin (fun l => made.get? l = none ∨ IsTaken made written l) made after)
    (hnamed : ∀ place, IsTaken made written place →
      ∃ name, place.getLast? = some name ∧ reportEnding <:+ name.toList) :
    KeepsInputs requests before made after written := by
  obtain ⟨hot, hfilled, hhot⟩ := h
  have hcold : ∀ place, before.get? place ≠ none → ¬ IsTaken made written place → ¬ hot place := by
    intro place hsome hfree hplace
    obtain hnone | htaken := hhot place hplace
    · refine hsome (bare?_eq_none_iff.1 ?_)
      rw [← hgrown.kept place hsome, bare?_of_none hnone]
    · exact hfree htaken
  refine ⟨fun r _ path _ place _ inner _ hsome hfree => ?_, fun r _ path _ bytes hread hfree => ?_, hnamed⟩
  · have hkeeps := (hgrown.keeps hsome).trans (hfilled.keeps_start (hcold inner hsome hfree))
    exact (Keeps.refl before inner).sameAt hkeeps
  · -- New folders and temporary files come where nothing stood, so they are not on the way.
    have hthere : ∀ place, before.Meets path place → before.get? place ≠ none :=
      fun place => get?_of_meets hsound hread
    have hmade : SeenAlike (before.Meets path) before made :=
      hgrown.seenAlike hsound fun place hmeets hnone => absurd hnone (hthere place hmeets)
    have hafter : SeenAlike (before.Meets path) made after :=
      hfilled.toChangedAt.seenAlike.mono fun place hmeets => hcold place (hthere place hmeets) (hfree place hmeets)
    rw [(hmade.trans hafter (by rw [hgrown.contents])).readFile_eq fun _ => id, hread]

end Kept

/-! ## One task among any others -/

namespace Task

/-- The path of the report that the task has put in its place. -/
def placed? : Task → Option Path
  | .writing _ report _ [] => some report
  | .done outcome => outcome.report?
  | .writing _ _ _ (_ :: _) | .waiting .. | .reading .. | .clearing .. => none

/-- The path is that of a report, and it leads to a place where no folder stands. -/
structure IsSettled (outputDir : Path) (start : FileSystem) (report : Path) : Prop where
  named : IsReportIn outputDir report
  place : ∃ place, start.LeadsTo report place ∧ ¬ start.IsFolderAt place

/-- What is known of a task whatever others do: it does the steps of its own replacement, and when it has
done the last of them, its report has a place. -/
inductive IsOrderly (w : Workshop) (outputDir : Path) (start : FileSystem) (i : Nat) : Task → Prop
  | waiting {r : ScanRequest} {report : Path} (hreport : IsReportIn outputDir report) :
      IsOrderly w outputDir start i (.waiting r report)
  | reading {r : ScanRequest} {report : Path} {rest : Asking (Except ScanError Report)}
      (hreport : IsReportIn outputDir report) : IsOrderly w outputDir start i (.reading r report rest)
  | writing {r : ScanRequest} {report : Path} {found : Report} {s : WriteStep} {rest : List WriteStep}
      {content : Bytes} (hreport : IsReportIn outputDir report)
      (hsteps : s :: rest <:+ Replacement.steps (w.token i) report content) :
      IsOrderly w outputDir start i (.writing r report found (s :: rest))
  | placed {r : ScanRequest} {report : Path} {found : Report} (hsettled : IsSettled outputDir start report) :
      IsOrderly w outputDir start i (.writing r report found [])
  | clearing {r : ScanRequest} {report : Path} {e : IoError} :
      IsOrderly w outputDir start i (.clearing r report e)
  | skipped {artifact : Path} {e : ScanError} : IsOrderly w outputDir start i (.done (.skipped artifact e))
  | written {artifact report : Path} {types members : Nat} (hsettled : IsSettled outputDir start report) :
      IsOrderly w outputDir start i (.done (.written artifact report types members))

/-- The last step of a replacement is the one that gives the file its name. -/
theorem cases_of_steps {token : String} {report : Path} {content : Bytes} {s : WriteStep}
    {rest : List WriteStep} (h : s :: rest <:+ Replacement.steps token report content) :
    IsDraftStep (temporary token report) s ∧ rest ≠ [] ∨
      s = .move (temporary token report) report ∧ rest = [] := by
  simp only [Replacement.steps, List.suffix_cons_iff, List.cons.injEq, List.suffix_nil,
    List.cons_ne_nil, or_false] at h
  obtain ⟨rfl, rfl⟩ | ⟨rfl, rfl⟩ | ⟨rfl, rfl⟩ | ⟨rfl, rfl⟩ := h
  · exact .inl ⟨.create, List.cons_ne_nil _ _⟩
  · exact .inl ⟨.append content, List.cons_ne_nil _ _⟩
  · exact .inl ⟨.sync, List.cons_ne_nil _ _⟩
  · exact .inr ⟨rfl, rfl⟩

section Step

variable {w : Workshop} {outputDir report : Path} {start fs fs' : FileSystem} {i : Nat} {t t' : Task}
  {allowed : Location → Prop}

/-- A report that has been put in its place is not taken back. -/
theorem placed?_of_step (hstep : t.step w i fs = some (fs', t')) : t.placed? = none ∨ t'.placed? = t.placed? := by
  cases t with
  | writing r report found steps =>
    cases steps with
    | cons s rest => exact .inl rfl
    | nil =>
      obtain ⟨rfl, rfl⟩ := Prod.mk.inj (Option.some.inj hstep)
      exact .inr rfl
  | done outcome => cases hstep
  | waiting | reading | clearing => exact .inl rfl

theorem IsOrderly.isSettled (h : t.IsOrderly w outputDir start i) (hplaced : t.placed? = some report) :
    IsSettled outputDir start report := by
  cases h with
  | placed hsettled =>
    obtain rfl := Option.some.inj hplaced
    exact hsettled
  | written hsettled =>
    obtain rfl := Option.some.inj hplaced
    exact hsettled
  | waiting | reading | writing | clearing | skipped => cases hplaced

/-- After a step of one task, new files stand at allowed places and where its report has been put, and the
task is still orderly. -/
structure Goes (w : Workshop) (outputDir : Path) (start : FileSystem) (i : Nat) (allowed : Location → Prop)
    (t' : Task) (fs' : FileSystem) : Prop where
  filled : FilledWithin (fun l => allowed l ∨ ∃ report, t'.placed? = some report ∧ start.LeadsTo report l)
    start fs'
  orderly : t'.IsOrderly w outputDir start i

/-- A step that puts no report in its place. -/
theorem Goes.of_filledWithin (h : FilledWithin allowed start fs') (horderly : t'.IsOrderly w outputDir start i) :
    Goes w outputDir start i allowed t' fs' :=
  ⟨h.mono fun _ => .inl, horderly⟩

theorem IsOrderly.step (hdevice : WriteDevice.IsFaithful w.device) (hsound : start.isSound)
    (hfresh : IsFresh start (w.token i))
    (hallowed : ∀ path place, start.LeadsTo (temporary (w.token i) path) place → allowed place)
    (horderly : t.IsOrderly w outputDir start i) (h : FilledWithin allowed start fs)
    (hstep : t.step w i fs = some (fs', t')) : Goes w outputDir start i allowed t' fs' := by
  have hnew : ∀ path place, start.LeadsTo (temporary (w.token i) path) place → start.get? place = none :=
    fun path place hplace => hfresh.get?_temporary hplace
  cases horderly with
  | waiting => cases hstep
  | skipped => cases hstep
  | written => cases hstep
  | @reading r report rest hreport =>
    cases rest with
    | ask q next =>
      obtain ⟨rfl, rfl⟩ := Prod.mk.inj (Option.some.inj hstep)
      exact .of_filledWithin h (.reading hreport)
    | done result =>
      cases result with
      | error e =>
        obtain ⟨rfl, rfl⟩ := Prod.mk.inj (Option.some.inj hstep)
        exact .of_filledWithin h .skipped
      | ok found =>
        obtain ⟨rfl, rfl⟩ := Prod.mk.inj (Option.some.inj hstep)
        exact .of_filledWithin h (.writing hreport List.suffix_rfl)
  | @writing r report found s rest content hreport hsteps =>
    rw [Task.step] at hstep
    obtain ⟨hdraft, hrest⟩ | ⟨rfl, rfl⟩ := cases_of_steps hsteps
    · have hfilled := (touches_of_isDraftStep (hnew report) (hallowed report) h hdevice hdraft).filled
      generalize w.device fs s = result at hstep hfilled
      obtain ⟨fs₁, e?⟩ := result
      cases e? with
      | some e =>
        obtain ⟨rfl, rfl⟩ := Prod.mk.inj (Option.some.inj hstep)
        exact .of_filledWithin hfilled .clearing
      | none =>
        obtain ⟨rfl, rfl⟩ := Prod.mk.inj (Option.some.inj hstep)
        cases rest with
        | nil => exact absurd rfl hrest
        | cons s' rest' =>
          exact .of_filledWithin hfilled (.writing hreport ((List.suffix_cons s _).trans hsteps))
    -- The one step that can change what stood there before.
    · obtain ⟨e, hmove⟩ | ⟨fs₁, goal, hmove, hgoal, hno, htouches, -⟩ :=
        cases_of_move (hnew report) h hdevice fun place hplace => hfresh.not_leadsTo hsound hplace hreport
      · rw [hmove] at hstep
        obtain ⟨rfl, rfl⟩ := Prod.mk.inj (Option.some.inj hstep)
        exact .of_filledWithin h .clearing
      · rw [hmove] at hstep
        obtain ⟨rfl, rfl⟩ := Prod.mk.inj (Option.some.inj hstep)
        refine ⟨htouches.filled.mono fun l hl => hl.imp_right ?_, .placed ⟨hreport, goal, hgoal, hno⟩⟩
        rintro rfl
        exact ⟨report, rfl, hgoal⟩
  | @placed r report found hsettled =>
    obtain ⟨rfl, rfl⟩ := Prod.mk.inj (Option.some.inj hstep)
    exact .of_filledWithin h (.written hsettled)
  | @clearing r report e =>
    obtain ⟨rfl, rfl⟩ := Prod.mk.inj (Option.some.inj hstep)
    exact .of_filledWithin (touches_of_isDraftStep (hnew report) (hallowed report) h hdevice .remove).filled
      .skipped

end Step

end Task

/-! ## A batch at any moment -/

namespace Course

/-- The paths of the reports that have been put in their places. -/
def placed (c : Course) : List Path :=
  c.tasks.filterMap Task.placed?

theorem mem_placed {c : Course} {report : Path} :
    report ∈ c.placed ↔ ∃ (i : Nat) (t : Task), c.tasks[i]? = some t ∧ t.placed? = some report := by
  rw [placed, List.mem_filterMap]
  simp only [List.mem_iff_getElem?]
  constructor
  · rintro ⟨t, ⟨i, hi⟩, hplaced⟩
    exact ⟨i, t, hi, hplaced⟩
  · rintro ⟨i, t, hi, hplaced⟩
    exact ⟨t, ⟨i, hi⟩, hplaced⟩

/-- In the end these are the reports that have been written. -/
theorem placed_eq_reports {c : Course} (h : c.IsFinished) : c.placed = reports c.outcomes := by
  rw [placed, reports, outcomes, List.filterMap_filterMap]
  refine List.filterMap_congr fun t ht => ?_
  obtain ⟨outcome, rfl⟩ := h.2 t ht
  rfl

/-- Nothing has come to stand anywhere but reports and temporary files, and all tasks are orderly. -/
structure IsTidy (w : Workshop) (outputDir : Path) (start : FileSystem) (c : Course) : Prop where
  filled : FilledWithin (fun l => IsDraftPlace w start l ∨ IsTaken start c.placed l) start c.files
  orderly : ∀ (i : Nat) (t : Task), c.tasks[i]? = some t → t.IsOrderly w outputDir start i

section Reached

variable {w : Workshop} {outputDir : Path} {start : FileSystem} {requests : List ScanRequest} {c c' : Course}

theorem isTidy_start (h : start.isSound) : (Course.start start requests).IsTidy w outputDir start :=
  ⟨.refl h _, nofun⟩

theorem IsTidy.plan (h : c.IsTidy w outputDir start) (r : ScanRequest) (rest : List ScanRequest) :
    IsTidy w outputDir start
      { c with
        coming := rest
        claimed := (jobOf c.files outputDir c.claimed r).claim?.toList ++ c.claimed
        tasks := c.tasks ++ [.ofJob (jobOf c.files outputDir c.claimed r)] } := by
  have hplaced : ∀ job, Task.placed? (.ofJob job) = none := by
    intro job
    cases job <;> rfl
  have horderly : ∀ i, (Task.ofJob (jobOf c.files outputDir c.claimed r)).IsOrderly w outputDir start i := by
    intro i
    obtain ⟨hot, hfilled, -⟩ := h.filled
    obtain ⟨e, hskip⟩ | ⟨path, hscan, hpath, -⟩ := jobOf_cases c.files outputDir c.claimed r
    · rw [hskip]
      exact .skipped
    · rw [hscan]
      exact .waiting (exists_reportName hfilled.sound hpath)
  refine ⟨?_, fun i t ht => ?_⟩
  · rw [placed, List.filterMap_append, List.filterMap_cons_none (hplaced _), List.filterMap_nil,
      List.append_nil]
    exact h.filled
  · rw [List.getElem?_append] at ht
    split at ht
    · exact h.orderly i t ht
    · obtain rfl := List.mem_singleton.1 (List.mem_of_getElem? ht)
      exact horderly i

/-- When a task goes on, the reports that are in their places stay among them. -/
theorem placed_set {i : Nat} {t t' : Task} (files : FileSystem) (ht : c.tasks[i]? = some t)
    (hplaced : t.placed? = none ∨ t'.placed? = t.placed?) :
    c.placed ⊆ Course.placed { c with files, tasks := c.tasks.set i t' } := by
  intro report hreport
  obtain ⟨j, task, hj, htask⟩ := mem_placed.1 hreport
  obtain rfl | hne := eq_or_ne i j
  · obtain rfl := Option.some.inj (ht.symm.trans hj)
    obtain hnone | hsame := hplaced
    · cases hnone.symm.trans htask
    · exact mem_placed.2 ⟨i, t', List.getElem?_set_self (List.getElem?_eq_some_iff.1 ht).1, hsame.trans htask⟩
  · exact mem_placed.2 ⟨j, task, (List.getElem?_set_ne hne).trans hj, htask⟩

/-- One task goes on. -/
theorem IsTidy.set (h : c.IsTidy w outputDir start) {i : Nat} {t t' : Task} {files : FileSystem}
    (ht : c.tasks[i]? = some t) (hplaced : t.placed? = none ∨ t'.placed? = t.placed?)
    (hgoes : Task.Goes w outputDir start i (fun l => IsDraftPlace w start l ∨ IsTaken start c.placed l) t' files) :
    IsTidy w outputDir start { c with files, tasks := c.tasks.set i t' } := by
  have hself : (c.tasks.set i t')[i]? = some t' :=
    List.getElem?_set_self (List.getElem?_eq_some_iff.1 ht).1
  refine ⟨hgoes.filled.mono fun l hl => ?_, fun j task hj => ?_⟩
  · obtain (hdraft | ⟨report, hreport, hleads⟩) | ⟨report, hreport, hleads⟩ := hl
    · exact .inl hdraft
    · exact .inr ⟨report, placed_set files ht hplaced hreport, hleads⟩
    · exact .inr ⟨report, mem_placed.2 ⟨i, t', hself, hreport⟩, hleads⟩
  · obtain rfl | hne := eq_or_ne i j
    · obtain rfl := Option.some.inj (hself.symm.trans hj)
      exact hgoes.orderly
    · exact h.orderly j task ((List.getElem?_set_ne hne).symm.trans hj)

/-- Whatever the schedule, reports that are in their places stay there. -/
theorem placed_subset_of_reaches (h : Course.Reaches w outputDir c c') : c.placed ⊆ c'.placed := by
  induction h with
  | refl => exact List.Subset.refl _
  | tail _ hstep ih =>
    refine List.Subset.trans ih ?_
    cases hstep with
    | plan _ _ =>
      rw [placed, placed, List.filterMap_append]
      exact List.subset_append_left _ _
    | begin htask _ => exact placed_set _ htask (.inl rfl)
    | work htask hstep => exact placed_set _ htask (Task.placed?_of_step hstep)

variable (hdevice : WriteDevice.IsFaithful w.device) (hsound : start.isSound)
  (hfresh : ∀ i, IsFresh start (w.token i))
include hdevice hsound hfresh

theorem IsTidy.step (h : c.IsTidy w outputDir start) (hstep : Course.Step w outputDir c c') :
    c'.IsTidy w outputDir start := by
  cases hstep with
  | plan _ _ => exact h.plan _ _
  | begin htask _ =>
    refine h.set htask (.inl rfl) (.of_filledWithin h.filled ?_)
    cases h.orderly _ _ htask with
    | waiting hreport => exact .reading hreport
  | @work i t t' files htask hstep =>
    refine h.set htask (Task.placed?_of_step hstep) ((h.orderly i t htask).step hdevice hsound (hfresh i)
      (fun path place hplace => ?_) h.filled hstep)
    exact .inl ⟨i, path, hplace⟩

/-- Whatever the schedule. -/
theorem IsTidy.reaches (h : c.IsTidy w outputDir start) (hreaches : Course.Reaches w outputDir c c') :
    c'.IsTidy w outputDir start := by
  induction hreaches with
  | refl => exact h
  | tail _ hstep ih => exact ih.step hdevice hsound hfresh hstep

omit hdevice in
/-- At every moment the inputs are kept, but for those that reports have replaced. -/
theorem IsTidy.keepsInputs {before : FileSystem} (h : c.IsTidy w outputDir start)
    (hbefore : before.isSound) (hgrown : Grown before start) :
    KeepsInputs requests before start c.files c.placed := by
  refine keepsInputs_of_filledWithin hbefore hgrown (h.filled.mono fun l hl => hl.imp_left ?_) ?_
  · exact fun hdraft => hdraft.get?_eq_none hfresh
  · rintro place ⟨report, hreport, hplace⟩
    obtain ⟨i, t, ht, hplaced⟩ := mem_placed.1 hreport
    obtain ⟨⟨name, rfl, hname⟩, goal, hgoal, hno⟩ := (h.orderly i t ht).isSettled hplaced
    obtain rfl := hplace.unique hgoal
    exact ⟨name, hname.getLast? hsound hplace hno⟩

end Reached

end Course

/-- When the work on a batch is done job by job, the inputs are kept, too. -/
theorem Ledger.keepsInputs {before start files : FileSystem} {outputDir : Path} {requests : List ScanRequest}
    {outcomes : List Outcome} (h : Ledger start outputDir outcomes files) (hbefore : before.isSound)
    (hgrown : Grown before start) : KeepsInputs requests before start files (reports outcomes) := by
  refine keepsInputs_of_filledWithin hbefore hgrown ⟨_, h.filled, fun place => .inr⟩ ?_
  rintro place ⟨report, hreport, hplace⟩
  obtain ⟨name, rfl, hname⟩ := h.named report hreport
  exact ⟨name, hname.getLast? h.filled.start_sound hplace
    (h.filled.start_not_isFolder place ⟨_, hreport, hplace⟩)⟩

/-- **A batch keeps its inputs, but for those that stand at the place of a report.** Each artifact and each
location of a classpath has what it had, and so has everything in it, unless the path of a report that has
been written leads to its place; and it can be read along its path, unless such a report stands on the way.
This is so at every moment of every schedule. A batch without its folder changes no input at all. -/
theorem keepsInputs_scanBatch {w : Workshop} {requests : List ScanRequest} {outputDir : Path} {s : State}
    (hdevice : WriteDevice.IsFaithful w.device) (hsound : s.files.isSound)
    (hfresh : ∀ i, IsFresh (s.files.createFolders outputDir).1 (w.token i)) :
    (∀ e, (scanBatch w requests outputDir s).2 = .error e →
      KeepsInputs requests s.files (s.files.createFolders outputDir).1
        (scanBatch w requests outputDir s).1.files []) ∧
      (∀ summary, (scanBatch w requests outputDir s).2 = .ok summary →
        KeepsInputs requests s.files (s.files.createFolders outputDir).1
          (scanBatch w requests outputDir s).1.files (reports summary.outcomes)) ∧
      ∀ c, Course.Reaches w outputDir (.start (s.files.createFolders outputDir).1 requests) c →
        KeepsInputs requests s.files (s.files.createFolders outputDir).1 c.files c.placed ∧
          (c.IsFinished → c.placed = reports c.outcomes) := by
  have hmade := foldersMade_createFolders hsound outputDir
  refine ⟨?_, ?_, fun c hreaches => ⟨?_, Course.placed_eq_reports⟩⟩
  · unfold scanBatch
    generalize s.files.createFolders outputDir = result at hmade ⊢
    obtain ⟨files, e?⟩ := result
    intro e herror
    cases e? with
    | some _ => exact (ledger_start hmade.sound outputDir).keepsInputs hsound hmade.toGrown
    | none => cases herror
  · unfold scanBatch
    generalize s.files.createFolders outputDir = result at hmade hfresh ⊢
    obtain ⟨files, e?⟩ := result
    intro summary hsummary
    cases e? with
    | some _ => cases hsummary
    | none =>
      obtain rfl := Except.ok.inj hsummary
      have hledger := (@settled_runFrom w outputDir requests { s with files } hdevice hmade.sound hfresh).1
      exact hledger.keepsInputs hsound hmade.toGrown
  · have htidy := (Course.isTidy_start hmade.sound).reaches hdevice hmade.sound hfresh hreaches
    exact htidy.keepsInputs hmade.sound hfresh hsound hmade.toGrown

/-! ### An archive with the name of a report -/

/-- A class folder, and an archive with nothing in it. -/
def crowdedFiles : FileSystem where
  root := .folder [("core", .folder [("A.class", .file 0)]), ("lib", .folder [("core.txt", .file 1)])]
  current := []
  contents := #[Scan.plainClass.toByteArray,
    ⟨#[0x50, 0x4B, 5, 6, 0, 0, 0, 0, 0, 0, 0, 0, 0, 0, 0, 0, 0, 0, 0, 0, 0, 0]⟩]

def crowdedWorkshop : Workshop where
  settings := Scan.sampleSettings
  device := perform
  token _ := "token"

/-- The archive is on the classpath of the folder. -/
def crowdedRequests : List ScanRequest :=
  [⟨⟨"core"⟩, [⟨"lib/core.txt"⟩]⟩]

theorem isFresh_crowded (i : Nat) :
    IsFresh (crowdedFiles.createFolders ⟨"lib"⟩).1 (crowdedWorkshop.token i) where
  noSlash := by
    show '/' ∉ "token".toList
    decide
  new := by
    show ∀ name ∈ (crowdedFiles.createFolders ⟨"lib"⟩).1.root.names,
      ¬ (OsString.ofText ("." ++ "token" ++ ".tmp")).toList <:+ name.toList
    decide +kernel

/-- The class in the folder is kept at every moment, though a report is written. -/
theorem keepsInputs_crowded : crowdedFiles.isSound ∧
    (scanBatch crowdedWorkshop crowdedRequests ⟨"lib"⟩ ⟨crowdedFiles, .zero⟩).2 =
      .ok ⟨[.written ⟨"core"⟩ ⟨"lib/core.txt"⟩ 1 0]⟩ ∧
    SameAt crowdedFiles (scanBatch crowdedWorkshop crowdedRequests ⟨"lib"⟩ ⟨crowdedFiles, .zero⟩).1.files
      ["core", "A.class"] ∧
    ∀ c, Course.Reaches crowdedWorkshop ⟨"lib"⟩
        (.start (crowdedFiles.createFolders ⟨"lib"⟩).1 crowdedRequests) c →
      SameAt crowdedFiles c.files ["core", "A.class"] := by
  have hsound : crowdedFiles.isSound := by decide +kernel
  have hwritten : (scanBatch crowdedWorkshop crowdedRequests ⟨"lib"⟩ ⟨crowdedFiles, .zero⟩).2 =
      .ok ⟨[.written ⟨"core"⟩ ⟨"lib/core.txt"⟩ 1 0]⟩ := by
    decide +kernel
  have hclass : ∀ after written, KeepsInputs crowdedRequests crowdedFiles
      (crowdedFiles.createFolders ⟨"lib"⟩).1 after written →
      SameAt crowdedFiles after ["core", "A.class"] := by
    intro after written hkeeps
    refine hkeeps.kept ⟨⟨"core"⟩, [⟨"lib/core.txt"⟩]⟩ List.mem_cons_self ⟨"core"⟩ List.mem_cons_self ["core"]
      (by decide +kernel) _ (List.prefix_append [("core" : OsString)] ["A.class"]) nofun fun htaken => ?_
    obtain ⟨name, hlast, hending⟩ := hkeeps.named _ htaken
    obtain rfl := Option.some.inj hlast
    exact absurd hending (by decide)
  obtain ⟨-, hbatch, hcourse⟩ := @keepsInputs_scanBatch crowdedWorkshop crowdedRequests ⟨"lib"⟩
    ⟨crowdedFiles, .zero⟩ isFaithful_perform hsound isFresh_crowded
  exact ⟨hsound, hwritten, hclass _ _ (hbatch _ hwritten), fun c hreaches => hclass _ _ (hcourse c hreaches).1⟩

/-- The report on the folder takes the place of the archive. -/
theorem not_readFile_scanBatch : ¬ ∀ (w : Workshop) (requests : List ScanRequest) (outputDir : Path) (s : State),
    WriteDevice.IsFaithful w.device → s.files.isSound →
    (∀ i, IsFresh (s.files.createFolders outputDir).1 (w.token i)) →
    ∀ r ∈ requests, ∀ path ∈ r.inputs, ∀ bytes, s.files.readFile path = .ok bytes →
      (scanBatch w requests outputDir s).1.files.readFile path = .ok bytes := by
  intro hall
  have hread := hall crowdedWorkshop crowdedRequests ⟨"lib"⟩ ⟨crowdedFiles, .zero⟩ isFaithful_perform
    (by decide +kernel) isFresh_crowded ⟨⟨"core"⟩, [⟨"lib/core.txt"⟩]⟩ List.mem_cons_self ⟨"lib/core.txt"⟩
    (List.mem_cons_of_mem _ List.mem_cons_self)
    [0x50, 0x4B, 5, 6, 0, 0, 0, 0, 0, 0, 0, 0, 0, 0, 0, 0, 0, 0, 0, 0, 0, 0] (by decide +kernel)
  have hreport : (scanBatch crowdedWorkshop crowdedRequests ⟨"lib"⟩ ⟨crowdedFiles, .zero⟩).1.files.readFile
      ⟨"lib/core.txt"⟩ = .ok (Bytes.ofText "C: class A\n") := by
    decide +kernel
  exact absurd (Except.ok.inj (hreport.symm.trans hread)) (by decide +kernel)

end Batch

end ApiSurface
