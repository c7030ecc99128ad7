import ApiSurface.Proofs.Batch.Plan
import ApiSurface.Proofs.Batch.Queue
import ApiSurface.Proofs.Storage.Faults

/-!
What the jobs of a batch do to the files, one after the other.

Each job keeps every place but one: that of its report, if the report is written. Reports have names that
end in one way and temporary files names that end in another, so no temporary file takes the place of a
report, and reports with different paths have different places.
-/

namespace ApiSurface

open FileSystem

/-- The path of the report that has been written. -/
def Outcome.report? : Outcome → Option Path
  | .written _ report _ _ => some report
  | .skipped .. => none

namespace Batch

open Replacement (temporary Holds IsSpare)

/-- The paths of the reports that have been written. -/
def reports (outcomes : List Outcome) : List Path :=
  outcomes.filterMap Outcome.report?

theorem reports_append (front back : List Outcome) :
    reports (front ++ back) = reports front ++ reports back :=
  List.filterMap_append

theorem reports_concat (outcomes : List Outcome) (outcome : Outcome) :
    reports (outcomes ++ [outcome]) = reports outcomes ++ outcome.report?.toList := by
  rw [reports_append]
  cases outcome <;> rfl

/-- A report that has been written stands at the place. -/
def IsReportPlace (start : FileSystem) (outcomes : List Outcome) (place : Location) : Prop :=
  ∃ report ∈ reports outcomes, start.LeadsTo report place

theorem IsReportPlace.append_right {start : FileSystem} {front : List Outcome} {place : Location}
    (h : IsReportPlace start front place) (back : List Outcome) :
    IsReportPlace start (front ++ back) place := by
  obtain ⟨report, hreport, hplace⟩ := h
  exact ⟨report, by rw [reports_append]; exact List.mem_append_left _ hreport, hplace⟩

/-- The files at some moment of a batch: only where reports have been written is anything else than at
the start. -/
def IsMoment (start : FileSystem) (outcomes : List Outcome) (fs : FileSystem) : Prop :=
  ∀ place, ¬ IsReportPlace start outcomes place → SameAt start fs place

theorem IsMoment.append_right {start fs : FileSystem} {front : List Outcome}
    (h : IsMoment start front fs) (back : List Outcome) : IsMoment start (front ++ back) fs :=
  fun place hno => h place fun hplace => hno (hplace.append_right back)

/-! ## Names -/

/-- A path that a report can have in the folder. -/
def IsReportIn (outputDir path : Path) : Prop :=
  ∃ name, path = outputDir.join ⟨name⟩ ∧ IsReportName name

/-- Nothing has the name of a temporary file with the token. -/
structure IsFresh (fs : FileSystem) (token : String) : Prop where
  noSlash : '/' ∉ token.toList
  new : ∀ name ∈ fs.root.names, ¬ (OsString.ofText ("." ++ token ++ ".tmp")).toList <:+ name.toList

section Names

variable {start : FileSystem} {outputDir path path' : Path} {token : String} {place : Location}

/-- Different reports have different places. -/
theorem IsReportIn.unique (hsound : start.isSound) (h : IsReportIn outputDir path)
    (h' : IsReportIn outputDir path') (hno : ¬ start.IsFolderAt place) (hplace : start.LeadsTo path place)
    (hplace' : start.LeadsTo path' place) : path = path' := by
  obtain ⟨name, rfl, hname⟩ := h
  obtain ⟨name', rfl, hname'⟩ := h'
  have hlast := (hname.getLast? hsound hplace hno).1
  have hlast' := (hname'.getLast? hsound hplace' hno).1
  rw [Option.some.inj (hlast.symm.trans hlast')]

theorem IsFresh.get?_temporary (h : IsFresh start token)
    (hplace : start.LeadsTo (temporary token path) place) :
    start.get? place = none := by
  have hlast := (isTemporaryName h.noSlash path).getLast? hplace
  cases hnode : start.get? place with
  | none => rfl
  | some node =>
    obtain ⟨folder, rfl⟩ := List.getLast?_eq_some_iff.1 hlast
    refine absurd ?_ (h.new _ (Node.mem_names hnode))
    simp only [OsString.ofText_append, OsString.toList_append, List.append_assoc]
    exact List.suffix_append_of_suffix (List.suffix_append _ _)

/-- No report takes the place of a temporary file. -/
theorem IsFresh.not_leadsTo (h : IsFresh start token) (hsound : start.isSound)
    (hplace : start.LeadsTo (temporary token path) place) (hreport : IsReportIn outputDir path') :
    ¬ start.LeadsTo path' place := by
  intro hplace'
  have hno : ¬ start.IsFolderAt place := by
    rintro ⟨node, hnode, -⟩
    rw [h.get?_temporary hplace] at hnode
    cases hnode
  obtain ⟨name, rfl, hname⟩ := hreport
  exact hname.not_temporary (isTemporaryName h.noSlash path) hsound hno hplace' hplace

end Names

/-- A temporary file may stand at the place. -/
def IsDraftPlace (w : Workshop) (start : FileSystem) (place : Location) : Prop :=
  ∃ i path, start.LeadsTo (temporary (w.token i) path) place

namespace IsDraftPlace

variable {w : Workshop} {start : FileSystem} {outputDir report : Path} {place : Location}

theorem get?_eq_none (h : IsDraftPlace w start place) (hfresh : ∀ i, IsFresh start (w.token i)) :
    start.get? place = none := by
  obtain ⟨i, path, hplace⟩ := h
  exact (hfresh i).get?_temporary hplace

theorem not_leadsTo (h : IsDraftPlace w start place) (hfresh : ∀ i, IsFresh start (w.token i))
    (hsound : start.isSound) (hreport : IsReportIn outputDir report) : ¬ start.LeadsTo report place := by
  obtain ⟨i, path, hplace⟩ := h
  exact (hfresh i).not_leadsTo hsound hplace hreport

end IsDraftPlace

/-! ## One job -/

/-- The books are right: the reports of some outcomes have been written, and nothing else has happened. -/
structure Ledger (start : FileSystem) (outputDir : Path) (outcomes : List Outcome) (fs : FileSystem) :
    Prop where
  filled : FilledAt (IsReportPlace start outcomes) start fs
  named : ∀ report ∈ reports outcomes, IsReportIn outputDir report

/-- What one job has done. -/
inductive Worked (w : Workshop) (start fs fs' : FileSystem) : Job → Outcome → Prop
  | refused {artifact : Path} {e : ScanError} (hkeeps : ∀ place, Keeps fs fs' place) :
      Worked w start fs fs' (.skip artifact e) (.skipped artifact e)
  | failed {r : ScanRequest} {report : Path} (e : ScanError) (hkeeps : ∀ place, Keeps fs fs' place) :
      Worked w start fs fs' (.scan r report) (.skipped r.artifact e)
  | written {r : ScanRequest} {report : Path} {found : Report}
      (hscan : ApiSurface.scan fs w.settings r = .ok found)
      (hkeeps : ∀ place, ¬ start.LeadsTo report place → Keeps fs fs' place)
      (hholds : Holds start fs' report (Bytes.ofText found.text)) :
      Worked w start fs fs' (.scan r report)
        (.written r.artifact report found.typeCount found.memberCount)

section Job

variable {w : Workshop} {start : FileSystem} {outputDir report : Path} {done : List Outcome} {s : State}
  {i : Nat} {r : ScanRequest}

theorem Ledger.isSpare {fs : FileSystem} {token : String} (h : Ledger start outputDir done fs)
    (hfresh : IsFresh start token) (hreport : IsReportIn outputDir report) :
    IsSpare (IsReportPlace start done) start (temporary token report) report where
  new _ hplace := hfresh.get?_temporary hplace
  cold _ hplace := fun ⟨other, hother, hleads⟩ =>
    hfresh.not_leadsTo h.filled.start_sound hplace (h.named other hother) hleads
  apart _ hplace := hfresh.not_leadsTo h.filled.start_sound hplace hreport

theorem Ledger.isMoment {fs : FileSystem} (h : Ledger start outputDir done fs) :
    IsMoment start done fs :=
  fun place hno => (Keeps.refl start place).sameAt (h.filled.keeps_start hno)

theorem Ledger.skipped {fs : FileSystem} (h : Ledger start outputDir done fs) (artifact : Path)
    (e : ScanError) : Ledger start outputDir (done ++ [.skipped artifact e]) fs := by
  have hreports : reports (done ++ [.skipped artifact e]) = reports done := by
    rw [reports_concat]
    exact List.append_nil _
  constructor
  · unfold IsReportPlace
    rw [hreports]
    exact h.filled
  · rw [hreports]
    exact h.named

theorem Ledger.written {fs : FileSystem} {goal : Location} (h : Ledger start outputDir done s.files)
    (hreport : IsReportIn outputDir report) (hgoal : start.LeadsTo report goal)
    (hfilled : FilledAt (fun l => IsReportPlace start done l ∨ l = goal) start fs) (artifact : Path)
    (types members : Nat) :
    Ledger start outputDir (done ++ [.written artifact report types members]) fs := by
  have hreports : reports (done ++ [.written artifact report types members]) = reports done ++ [report] :=
    reports_concat done _
  have hplaces : IsReportPlace start (done ++ [.written artifact report types members]) =
      fun l => IsReportPlace start done l ∨ l = goal := by
    funext place
    simp only [IsReportPlace, hreports, List.mem_append, List.mem_singleton, or_and_right, exists_or,
      exists_eq_left]
    exact propext (or_congr_right ⟨fun hplace => hplace.unique hgoal, fun heq => heq ▸ hgoal⟩)
  constructor
  · rw [hplaces]
    exact hfilled
  · rw [hreports]
    exact List.forall_mem_append.2 ⟨h.named, List.forall_mem_singleton.2 hreport⟩

variable (hdevice : WriteDevice.IsFaithful w.device) (hfresh : ∀ i, IsFresh start (w.token i))
  (h : Ledger start outputDir done s.files)
include hdevice hfresh h

theorem scanTo_worked (hreport : IsReportIn outputDir report) :
    Ledger start outputDir (done ++ [(scanTo w i r report s).2]) (scanTo w i r report s).1.files ∧
      Worked w start s.files (scanTo w i r report s).1.files (.scan r report) (scanTo w i r report s).2 := by
  unfold scanTo
  cases hscan : ApiSurface.scan s.files w.settings r with
  | error e => exact ⟨h.skipped r.artifact e, .failed e fun place => Keeps.refl s.files place⟩
  | ok found =>
    have hreplaced := Replacement.replaced hdevice h.filled (h.isSpare (hfresh i) hreport)
      (Bytes.ofText found.text)
    dsimp only
    generalize replaceFile w.device (w.token i) report (Bytes.ofText found.text) s.files = result
      at hreplaced ⊢
    cases hreplaced with
    | failed e hfilled hkeeps =>
      exact ⟨(Ledger.mk hfilled h.named).skipped r.artifact _, .failed _ hkeeps⟩
    | done hgoal hno hfilled hkeeps hholds =>
      refine ⟨h.written hreport hgoal hfilled _ _ _, .written hscan (fun place hplace => ?_) hholds⟩
      exact hkeeps place fun heq => hplace (heq ▸ hgoal)

theorem work_worked (i : Nat) (job : Job)
    (hjob : ∀ report, job.claim? = some report → IsReportIn outputDir report) :
    Ledger start outputDir (done ++ [(work w i job s).2]) (work w i job s).1.files ∧
      Worked w start s.files (work w i job s).1.files job (work w i job s).2 := by
  cases job with
  | skip artifact e => exact ⟨h.skipped artifact e, .refused fun place => Keeps.refl s.files place⟩
  | scan r report => exact scanTo_worked hdevice hfresh h (hjob report rfl)

end Job

/-! ## All jobs -/

/-- What has come of a job in the end. -/
inductive CameOf (w : Workshop) (start files : FileSystem) (outcomes : List Outcome) : Job → Outcome → Prop
  | refused {artifact : Path} {e : ScanError} :
      CameOf w start files outcomes (.skip artifact e) (.skipped artifact e)
  | failed {r : ScanRequest} {report : Path} (e : ScanError) :
      CameOf w start files outcomes (.scan r report) (.skipped r.artifact e)
  | written {r : ScanRequest} {report : Path} {scanned : FileSystem} {found : Report}
      (hscanned : IsMoment start outcomes scanned)
      (hscan : ApiSurface.scan scanned w.settings r = .ok found)
      (hholds : Holds start files report (Bytes.ofText found.text)) :
      CameOf w start files outcomes (.scan r report)
        (.written r.artifact report found.typeCount found.memberCount)

section Run

variable {w : Workshop} {start fs fs' files : FileSystem} {outputDir report : Path}
  {done outcomes : List Outcome} {s : State} {job : Job} {outcome : Outcome} {content : Bytes}

/-- A report that has been written stays when a job has another path. -/
theorem Worked.holds (h : Worked w start fs fs' job outcome) (hsound : start.isSound)
    (hjob : ∀ other, outcome.report? = some other → other ≠ report ∧ IsReportIn outputDir other)
    (hreport : IsReportIn outputDir report) (hholds : Holds start fs report content) :
    Holds start fs' report content := by
  cases h with
  | refused hkeeps => exact hholds.congr fun place _ _ => hkeeps place
  | failed e hkeeps => exact hholds.congr fun place _ _ => hkeeps place
  | written hscan hkeeps _ =>
    obtain ⟨hne, hother⟩ := hjob _ rfl
    exact hholds.congr fun place hplace hno =>
      hkeeps place fun hplace' => hne (hother.unique hsound hreport hno hplace' hplace)

theorem Worked.cameOf (h : Worked w start fs fs' job outcome) (hmoment : IsMoment start outcomes fs)
    (hholds : ∀ report content, outcome.report? = some report → Holds start fs' report content →
      Holds start files report content) : CameOf w start files outcomes job outcome := by
  cases h with
  | refused => exact .refused
  | failed e => exact .failed e
  | written hscan _ hheld => exact .written hmoment hscan (hholds _ _ rfl hheld)

/-- A job writes the report that it has the path for, or none. -/
theorem Worked.report? (h : Worked w start fs fs' job outcome) :
    outcome.report? = none ∨ outcome.report? = job.claim? := by
  cases h with
  | refused => exact .inl rfl
  | failed e => exact .inl rfl
  | written => exact .inr rfl

/-- When the work on a queue is done. -/
structure Settled (w : Workshop) (start : FileSystem) (outputDir : Path) (done : List Outcome) (s : State)
    (queue : Queue) (s' : State) (outcomes : List Outcome) : Prop where
  ledger : Ledger start outputDir (done ++ outcomes) s'.files
  nodup : (reports (done ++ outcomes)).Nodup
  came : List.Forall₂ (fun q => CameOf w start s'.files (done ++ outcomes) q.2) queue outcomes
  /-- What was written before is still there. -/
  holds : ∀ report ∈ reports done, ∀ content, Holds start s.files report content →
    Holds start s'.files report content

theorem settled_workAll (hdevice : WriteDevice.IsFaithful w.device) (hfresh : ∀ i, IsFresh start (w.token i))
    {queue : Queue} (hnamed : ∀ report ∈ claims queue, IsReportIn outputDir report)
    (hnodup : (reports done ++ claims queue).Nodup) (h : Ledger start outputDir done s.files) :
    Settled w start outputDir done s queue (workAll w queue s).1 (workAll w queue s).2 := by
  induction queue generalizing done s with
  | nil =>
    rw [claims, List.filterMap_nil, List.append_nil] at hnodup
    exact ⟨by rwa [workAll, List.append_nil], by rwa [workAll, List.append_nil], .nil, fun _ _ _ => id⟩
  | cons first rest ih =>
    obtain ⟨i, job⟩ := first
    rw [claims_cons] at hnamed hnodup
    obtain ⟨hledger, hworked⟩ := work_worked hdevice hfresh h i job
      fun report hclaim => hnamed report (by simp [hclaim])
    simp only [workAll]
    generalize work w i job s = result at hledger hworked ⊢
    obtain ⟨s', outcome⟩ := result
    have hrest : (reports (done ++ [outcome]) ++ claims rest).Nodup := by
      rw [reports_concat]
      obtain hnone | heq := hworked.report?
      · rw [hnone]
        exact hnodup.sublist (by simp)
      · rwa [heq, List.append_assoc]
    obtain ⟨hfinal, hnodupFinal, hcame, hholds⟩ :=
      ih (fun report hmem => hnamed report (List.mem_append_right _ hmem)) hrest hledger
    rw [← List.append_cons] at hfinal hnodupFinal hcame
    refine ⟨hfinal, hnodupFinal, .cons ?_ hcame, fun report hmem content hheld => ?_⟩
    · refine hworked.cameOf (h.isMoment.append_right _) fun report content hreport => hholds report ?_ content
      simp [reports_concat, hreport]
    · have hmem' : report ∈ reports (done ++ [outcome]) := by simp [reports_concat, hmem]
      refine hholds report hmem' content (hworked.holds h.filled.start_sound (fun other hother => ?_)
        (h.named report hmem) hheld)
      rw [reports_concat, hother] at hrest
      refine ⟨?_, hledger.named other (by simp [reports_concat, hother])⟩
      rintro rfl
      exact (List.nodup_append.1 (List.nodup_append.1 hrest).1).2.2 other hmem other
        List.mem_cons_self rfl

end Run

end Batch

end ApiSurface
