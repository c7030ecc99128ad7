import ApiSurface.Proofs.Batch.Inputs

/-!
What the work on one request has come to, whatever the others do.

Between any two questions of a scan the files may change, so the report is what the scan comes to when each
question is answered at some moment. Then its text stands in the temporary file, as far as it has been
written, and at last at the place of the report. Nobody else has one of the two places: a temporary file is
none of another task, for no two tokens are the same and all of them have one length, and it is no report.
-/

namespace ApiSurface

open FileSystem

namespace Batch

open Replacement (temporary Holds IsDraftStep Left touches_of_isDraftStep cases_of_move)

/-- Temporary files with different tokens have different places. -/
theorem IsToken.eq_of_leadsTo {token token' : String} {start : FileSystem} {path path' : Path}
    {place : Location} (h : IsToken token) (h' : IsToken token')
    (hplace : start.LeadsTo (temporary token path) place)
    (hplace' : start.LeadsTo (temporary token' path') place) : token = token' := by
  have hlast := (isTemporaryName h.noSlash path).getLast? hplace
  have hlast' := (isTemporaryName h'.noSlash path').getLast? hplace'
  have hchars := congrArg String.toList (OsString.ofText_injective (Option.some.inj (hlast.symm.trans hlast')))
  simp only [String.toList_append] at hchars
  have htokens : token.toList.length = token'.toList.length := by
    rw [String.length_toList, String.length_toList, h.1, h'.1]
  obtain ⟨hfront, -⟩ := List.append_inj' hchars rfl
  exact String.toList_inj.1 (List.append_inj' hfront htokens).2

namespace Task

/-- The path that the task has for its report. -/
def report? : Task → Option Path
  | .waiting _ report | .reading _ report _ | .writing _ report _ _ | .clearing _ report _ => some report
  | .done outcome => outcome.report?

/-- The report for which the task may have a temporary file. -/
def draft? : Task → Option Path
  | .writing _ report _ (_ :: _) | .clearing _ report _ => some report
  | .writing _ _ _ [] | .waiting .. | .reading .. | .done _ => none

theorem report?_of_draft? {t : Task} {report : Path} (h : t.draft? = some report) : t.report? = some report := by
  cases t with
  | writing r own found steps =>
    cases steps with
    | cons step rest => exact h
    | nil => cases h
  | clearing r own e => exact h
  | waiting | reading | done => cases h

/-- The path has been given to the request, by how the files stood at some moment. -/
structure IsPlanned (moment : FileSystem → Prop) (outputDir : Path) (r : ScanRequest) (report : Path) : Prop where
  named : IsReportIn outputDir report
  path : ∃ planned, moment planned ∧ reportPath planned outputDir r.artifact = .ok report

/-- How far the task at place `i` has got with its request. -/
inductive Serves (w : Workshop) (outputDir : Path) (start : FileSystem) (moment : FileSystem → Prop)
    (files : FileSystem) (i : Nat) (r : ScanRequest) : Task → Prop
  | skipped (e : ScanError) : Serves w outputDir start moment files i r (.done (.skipped r.artifact e))
  | waiting {report : Path} (hplanned : IsPlanned moment outputDir r report) :
      Serves w outputDir start moment files i r (.waiting r report)
  | reading {report : Path} {rest : Asking (Except ScanError Report)}
      (hplanned : IsPlanned moment outputDir r report) (hasked : (scanning w.settings r).ComesTo moment rest) :
      Serves w outputDir start moment files i r (.reading r report rest)
  | writing {report : Path} {found : Report} {held : Option Bytes} {step : WriteStep} {rest : List WriteStep}
      (hplanned : IsPlanned moment outputDir r report)
      (hfound : (scanning w.settings r).ComesTo moment (.done (.ok found)))
      (hleft : Left start (temporary (w.token i) report) report (Bytes.ofText found.text) held none
        (step :: rest))
      (hheld : ∀ bytes, held = some bytes → Holds start files (temporary (w.token i) report) bytes) :
      Serves w outputDir start moment files i r (.writing r report found (step :: rest))
  | placed {report : Path} {found : Report} (hplanned : IsPlanned moment outputDir r report)
      (hfound : (scanning w.settings r).ComesTo moment (.done (.ok found)))
      (hholds : Holds start files report (Bytes.ofText found.text)) :
      Serves w outputDir start moment files i r (.writing r report found [])
  | clearing {report : Path} (e : IoError) (hplanned : IsPlanned moment outputDir r report) :
      Serves w outputDir start moment files i r (.clearing r report e)
  | written {report : Path} {found : Report} (hplanned : IsPlanned moment outputDir r report)
      (hfound : (scanning w.settings r).ComesTo moment (.done (.ok found)))
      (hholds : Holds start files report (Bytes.ofText found.text)) :
      Serves w outputDir start moment files i r
        (.done (.written r.artifact report found.typeCount found.memberCount))

section Serves

variable {w : Workshop} {outputDir report : Path} {start files files' : FileSystem}
  {moment moment' : FileSystem → Prop} {i : Nat} {r : ScanRequest} {t t' : Task}

theorem IsPlanned.mono (h : IsPlanned moment outputDir r report) (hle : ∀ fs, moment fs → moment' fs) :
    IsPlanned moment' outputDir r report := by
  obtain ⟨hnamed, planned, hplanned, hpath⟩ := h
  exact ⟨hnamed, planned, hle planned hplanned, hpath⟩

/-- What came of earlier moments came of more of them. -/
theorem Serves.mono (h : t.Serves w outputDir start moment files i r) (hle : ∀ fs, moment fs → moment' fs) :
    t.Serves w outputDir start moment' files i r := by
  cases h with
  | skipped e => exact .skipped e
  | waiting hplanned => exact .waiting (hplanned.mono hle)
  | reading hplanned hasked => exact .reading (hplanned.mono hle) (hasked.mono hle)
  | writing hplanned hfound hleft hheld => exact .writing (hplanned.mono hle) (hfound.mono hle) hleft hheld
  | placed hplanned hfound hholds => exact .placed (hplanned.mono hle) (hfound.mono hle) hholds
  | clearing e hplanned => exact .clearing e (hplanned.mono hle)
  | written hplanned hfound hholds => exact .written (hplanned.mono hle) (hfound.mono hle) hholds

theorem Serves.named (h : t.Serves w outputDir start moment files i r) (hreport : t.report? = some report) :
    IsReportIn outputDir report := by
  cases h with
  | skipped e => cases hreport
  | waiting hplanned | reading hplanned | writing hplanned | placed hplanned | clearing e hplanned
  | written hplanned =>
    obtain rfl := Option.some.inj hreport
    exact hplanned.named

/-- What happens at other places is nothing to the task. -/
theorem Serves.congr (h : t.Serves w outputDir start moment files i r)
    (hkeeps : ∀ report, t.report? = some report → ∀ place, ¬ start.IsFolderAt place →
      start.LeadsTo (temporary (w.token i) report) place ∨ start.LeadsTo report place →
      Keeps files files' place) : t.Serves w outputDir start moment files' i r := by
  cases h with
  | skipped e => exact .skipped e
  | waiting hplanned => exact .waiting hplanned
  | reading hplanned hasked => exact .reading hplanned hasked
  | writing hplanned hfound hleft hheld =>
    exact .writing hplanned hfound hleft fun bytes hbytes =>
      (hheld bytes hbytes).congr fun place hplace hno => hkeeps _ rfl place hno (.inl hplace)
  | placed hplanned hfound hholds =>
    exact .placed hplanned hfound (hholds.congr fun place hplace hno => hkeeps _ rfl place hno (.inr hplace))
  | clearing e hplanned => exact .clearing e hplanned
  | written hplanned hfound hholds =>
    exact .written hplanned hfound (hholds.congr fun place hplace hno => hkeeps _ rfl place hno (.inr hplace))

/-- What a step of the task does: it touches nothing but the two places of the task, and before the task has
a temporary file, nothing at all. -/
structure Proceeds (w : Workshop) (outputDir : Path) (start : FileSystem) (moment : FileSystem → Prop) (i : Nat)
    (r : ScanRequest) (t t' : Task) (files files' : FileSystem) : Prop where
  serves : t'.Serves w outputDir start moment files' i r
  report? : t'.report? = t.report? ∨ t'.report? = none
  still : t.draft? = none → files' = files
  keeps : ∀ report, t.draft? = some report → ∀ place, ¬ start.LeadsTo (temporary (w.token i) report) place →
    ¬ start.LeadsTo report place → Keeps files files' place
  /-- The task goes on with its temporary file, or that is gone. -/
  draft : ∀ report, t.draft? = some report → (∀ e, t ≠ .clearing r report e) → t'.draft? = some report ∨
    ∀ place, start.LeadsTo (temporary (w.token i) report) place → files'.get? place = none

/-- Without a temporary file the task changes nothing. -/
theorem Proceeds.of_still (hserves : t'.Serves w outputDir start moment files i r) (hdraft : t.draft? = none)
    (hreport : t'.report? = t.report? ∨ t'.report? = none) :
    Proceeds w outputDir start moment i r t t' files files where
  serves := hserves
  report? := hreport
  still _ := rfl
  keeps _ hsome := by cases hdraft.symm.trans hsome
  draft _ hsome := by cases hdraft.symm.trans hsome

/-- A task that goes on with its temporary file touches nothing else. -/
theorem Proceeds.of_drafting (hserves : t'.Serves w outputDir start moment files' i r)
    (hdraft : t.draft? = some report) (hdraft' : t'.draft? = some report)
    (hkeeps : ∀ place, ¬ start.LeadsTo (temporary (w.token i) report) place → Keeps files files' place) :
    Proceeds w outputDir start moment i r t t' files files' where
  serves := hserves
  report? := .inl ((report?_of_draft? hdraft').trans (report?_of_draft? hdraft).symm)
  still hnone := by cases hdraft.symm.trans hnone
  keeps report' hreport place hplace _ := by
    obtain rfl := Option.some.inj (hdraft.symm.trans hreport)
    exact hkeeps place hplace
  draft report' hreport _ := by
    obtain rfl := Option.some.inj (hdraft.symm.trans hreport)
    exact .inl hdraft'

variable (hdevice : WriteDevice.IsFaithful w.device) (hfresh : IsFresh start (w.token i))
  (hfilled : FilledWithin (fun _ => True) start files)
include hdevice hfresh hfilled

/-- A step of writing. -/
theorem Serves.step_writing {found : Report} {step : WriteStep} {rest : List WriteStep} {held : Option Bytes}
    (hplanned : IsPlanned moment outputDir r report)
    (hfound : (scanning w.settings r).ComesTo moment (.done (.ok found)))
    (hleft : Left start (temporary (w.token i) report) report (Bytes.ofText found.text) held none (step :: rest))
    (hheld : ∀ bytes, held = some bytes → Holds start files (temporary (w.token i) report) bytes)
    (hstep : Task.step w i files (.writing r report found (step :: rest)) = some (files', t')) :
    Proceeds w outputDir start moment i r (.writing r report found (step :: rest)) t' files files' := by
  have hsound : start.isSound := by
    obtain ⟨hot, hat, -⟩ := hfilled
    exact hat.start_sound
  have hnew : ∀ place, start.LeadsTo (temporary (w.token i) report) place → start.get? place = none :=
    fun place hplace => hfresh.get?_temporary hplace
  rw [Task.step] at hstep
  obtain ⟨hdraft, hrest⟩ | ⟨rfl, rfl, rfl⟩ := hleft.step_cases
  · have htouches := touches_of_isDraftStep hnew (fun _ _ => trivial) hfilled hdevice hdraft
    rcases hresult : w.device files step with ⟨after, _ | e⟩ <;> rw [hresult] at hstep htouches
    · obtain ⟨rfl, rfl⟩ := Prod.mk.inj (Option.some.inj hstep)
      obtain ⟨held', hleft', hheld'⟩ :=
        hleft.next hnew (fun _ _ => trivial) hfilled hdevice hrest hheld hresult
      cases rest with
      | nil => exact absurd rfl hrest
      | cons step' rest' =>
        exact .of_drafting (.writing hplanned hfound hleft' hheld') rfl rfl htouches.keeps
    · obtain ⟨rfl, rfl⟩ := Prod.mk.inj (Option.some.inj hstep)
      exact .of_drafting (.clearing e hplanned) rfl rfl htouches.keeps
  -- The file gets its other name.
  · obtain ⟨e, hmove⟩ | ⟨after, goal, hmove, -, -, htouches, hgone, hholds⟩ :=
      cases_of_move hnew hfilled hdevice fun place hplace => hfresh.not_leadsTo hsound hplace hplanned.named
    · rw [hmove] at hstep
      obtain ⟨rfl, rfl⟩ := Prod.mk.inj (Option.some.inj hstep)
      exact .of_drafting (.clearing e hplanned) rfl rfl fun place _ => Keeps.refl _ place
    · rw [hmove] at hstep
      obtain ⟨rfl, rfl⟩ := Prod.mk.inj (Option.some.inj hstep)
      refine ⟨.placed hplanned hfound (hholds _ (hheld _ rfl)), .inl rfl, fun hnone => (by cases hnone),
        fun report' hreport place htemp hplace => ?_, fun report' hreport _ => .inr ?_⟩
      · obtain rfl := Option.some.inj hreport
        exact htouches.keeps place fun htouched => htouched.elim htemp hplace
      · obtain rfl := Option.some.inj hreport
        exact hgone

theorem Serves.step (h : t.Serves w outputDir start moment files i r) (hmoment : moment files)
    (hstep : t.step w i files = some (files', t')) :
    Proceeds w outputDir start moment i r t t' files files' := by
  cases h with
  | skipped => cases hstep
  | waiting => cases hstep
  | written => cases hstep
  | @reading report rest hplanned hasked =>
    cases rest with
    | ask q next =>
      obtain ⟨rfl, rfl⟩ := Prod.mk.inj (Option.some.inj hstep)
      exact .of_still (.reading hplanned (.answered hmoment hasked)) rfl (.inl rfl)
    | done result =>
      cases result with
      | error e =>
        obtain ⟨rfl, rfl⟩ := Prod.mk.inj (Option.some.inj hstep)
        exact .of_still (.skipped e) rfl (.inr rfl)
      | ok found =>
        obtain ⟨rfl, rfl⟩ := Prod.mk.inj (Option.some.inj hstep)
        exact .of_still (.writing hplanned hasked .all nofun) rfl (.inl rfl)
  | writing hplanned hfound hleft hheld =>
    exact step_writing hdevice hfresh hfilled hplanned hfound hleft hheld hstep
  | placed hplanned hfound hholds =>
    obtain ⟨rfl, rfl⟩ := Prod.mk.inj (Option.some.inj hstep)
    exact .of_still (.written hplanned hfound hholds) rfl (.inl rfl)
  | @clearing report e hplanned =>
    obtain ⟨rfl, rfl⟩ := Prod.mk.inj (Option.some.inj hstep)
    have htouches := touches_of_isDraftStep (fun place hplace => hfresh.get?_temporary hplace)
      (fun _ _ => trivial) hfilled hdevice (.remove : IsDraftStep (temporary (w.token i) report) _)
    refine ⟨.skipped _, .inr rfl, nofun, fun report' hreport place hplace _ => ?_,
      fun report' hreport hnot => ?_⟩
    · obtain rfl := Option.some.inj hreport
      exact htouches.keeps place hplace
    · obtain rfl := Option.some.inj hreport
      exact absurd rfl (hnot e)

/-- When the deletion of a temporary file that is there succeeds, it is gone. -/
theorem get?_of_remove (hclears : ∀ place, start.LeadsTo (temporary (w.token i) report) place →
      files.get? place ≠ none → (w.device files (.remove (temporary (w.token i) report))).2 = none)
    {place : Location} (hplace : start.LeadsTo (temporary (w.token i) report) place) :
    (w.device files (.remove (temporary (w.token i) report))).1.get? place = none := by
  rw [hdevice.remove] at hclears ⊢
  obtain ⟨e, hsame⟩ | ⟨after, hremoved, -, hgone⟩ :=
    Replacement.perform_remove_cases (fun place hplace => hfresh.get?_temporary hplace) hfilled
  · rw [hsame] at hclears ⊢
    by_contra hthere
    cases hclears place hplace hthere
  · rw [hremoved]
    exact hgone place hplace

end Serves

end Task

end Batch

end ApiSurface
