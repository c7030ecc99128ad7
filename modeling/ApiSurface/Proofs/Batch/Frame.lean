import ApiSurface.Proofs.Batch.Ledger
import ApiSurface.Proofs.Batch.Schedule
import ApiSurface.Proofs.Scan.Report
import ApiSurface.Proofs.Storage.Folders

/-!
A batch writes its reports and nothing else.

Requests may get in each other's way, steps of writing may fail, and the folder for reports may hold
anything: in the end, what is new stands at the places of reports that have been written, each with the
text of its report. Every report has an ordinary name, but for a file whose name is two dots and an
extension. Its report would take the place of the folder above, so it is never written.
-/

namespace ApiSurface

open FileSystem

/-! ## Names of reports -/

/-- A stem that is a dot is that of a name of two dots and an extension. -/
theorem Path.eq_dots_of_stem {name : OsString} (hname : name ≠ ".") (h : stem name = ".") :
    ∃ extension, name = (".." : OsString) ++ extension ∧ OsString.dot ∉ extension.toList := by
  unfold stem at h
  split at h
  · exact absurd h hname
  · exact absurd h hname
  · rename_i first front _ hdrop
    have hfront : front = [OsString.dot] := by
      have hreverse := congrArg OsString.toList h
      rw [OsString.toList_ofList] at hreverse
      exact List.reverse_eq_iff.1 hreverse
    have hfirst : first = OsString.dot := by
      have hhead := List.head?_dropWhile_not (· ≠ OsString.dot) name.toList.reverse
      rw [hdrop] at hhead
      simpa using hhead
    -- Read backwards, the name is its extension and then two dots.
    have hcut : name.toList.reverse.takeWhile (· ≠ OsString.dot) ++ [OsString.dot, OsString.dot] =
        name.toList.reverse := by
      have hcut := List.takeWhile_append_dropWhile (p := (· ≠ OsString.dot)) (l := name.toList.reverse)
      rwa [hdrop, hfirst, hfront] at hcut
    refine ⟨.ofList (name.toList.reverse.takeWhile (· ≠ OsString.dot)).reverse, ?_, ?_⟩
    · apply OsString.toList_injective
      rw [OsString.toList_append, OsString.toList_ofList]
      exact (List.reverse_eq_iff.1 hcut.symm).trans (by rw [List.reverse_append]; rfl)
    · rw [OsString.toList_ofList, List.mem_reverse]
      intro hmem
      have hnot := List.mem_takeWhile_imp hmem
      simp at hnot

namespace Batch

open Replacement (temporary Holds)

/-- An ordinary name that ends like a report. -/
structure IsOrdinary (name : OsString) : Prop where
  isName : Node.isName name
  ending : reportEnding <:+ name.toList

/-- The path that a batch has for the report on an artifact. -/
inductive IsReportPathOf (fs : FileSystem) (outputDir artifact : Path) : Path → Prop
  | ordinary {name : OsString} (hname : IsOrdinary name) :
      IsReportPathOf fs outputDir artifact (outputDir.join ⟨name⟩)
  /-- The artifact is a file whose name is two dots and an extension. -/
  | dots {extension : OsString} (hfile : fs.isFolder artifact = false)
      (hname : artifact.fileName?.or (fs.placeName? artifact) = some ((".." : OsString) ++ extension))
      (hextension : OsString.dot ∉ extension.toList) :
      IsReportPathOf fs outputDir artifact (outputDir.join ⟨".."⟩)

theorem IsReportName.isOrdinary {name : OsString} (h : IsReportName name)
    (hending : reportEnding <:+ name.toList) : IsOrdinary name := by
  refine ⟨Node.isName_iff.2 ⟨h.isPart, h.ne_here, ?_⟩, hending⟩
  rintro rfl
  exact absurd hending (by decide)

theorem isReportPathOf_of_reportPath {fs : FileSystem} {outputDir artifact path : Path} (hsound : fs.isSound)
    (h : reportPath fs outputDir artifact = .ok path) : IsReportPathOf fs outputDir artifact path := by
  unfold reportPath reportName? at h
  cases hbase : artifact.fileName?.or (fs.placeName? artifact) with
  | none =>
    rw [hbase] at h
    cases h
  | some base =>
    rw [hbase] at h
    obtain rfl := Except.ok.inj h
    obtain ⟨hpart, hhere, -⟩ := Node.isName_iff.1 (isName_of_base hsound hbase)
    dsimp only
    cases hfolder : fs.isFolder artifact with
    | true =>
      rw [if_pos rfl]
      exact .ordinary ((isReportName_append hpart).isOrdinary (by simp [reportEnding]))
    | false =>
      rw [if_neg Bool.false_ne_true]
      by_cases hstem : Path.stem base = "."
      · obtain ⟨extension, rfl, hextension⟩ := Path.eq_dots_of_stem hhere hstem
        rw [Path.withExtension, if_pos hstem]
        exact .dots hfolder hbase hextension
      · refine .ordinary ((isReportName_withExtension hpart).isOrdinary ?_)
        rw [Path.withExtension, if_neg hstem, OsString.toList_append, OsString.toList_append,
          List.append_assoc]
        exact List.suffix_append _ _

/-! ## What a batch does -/

/-- What has come of a request: its report has been written, or it has been skipped. The path of the report
is the one at some moment, and the report is what a scan comes to whose questions are answered at some
moments. -/
inductive IsServed (w : Workshop) (outputDir : Path) (start : FileSystem) (moment : FileSystem → Prop)
    (files : FileSystem) (r : ScanRequest) : Outcome → Prop
  | skipped (e : ScanError) : IsServed w outputDir start moment files r (.skipped r.artifact e)
  | written {planned : FileSystem} {name : OsString} {found : Report} (hname : IsOrdinary name)
      (hplanned : moment planned)
      (hpath : reportPath planned outputDir r.artifact = .ok (outputDir.join ⟨name⟩))
      (hfound : (scanning w.settings r).ComesTo moment (.done (.ok found)))
      (hholds : Holds start files (outputDir.join ⟨name⟩) (Bytes.ofText found.text))
      (hread : ∀ bytes, files.readFile (outputDir.join ⟨name⟩) = .ok bytes →
        bytes = Bytes.ofText found.text) :
      IsServed w outputDir start moment files r
        (.written r.artifact (outputDir.join ⟨name⟩) found.typeCount found.memberCount)

/-- A batch with these outcomes has made `files` of `start`, and it has done nothing but write its reports,
and leave something at places of temporary files, where it may have left something. -/
structure WritesReports (w : Workshop) (outputDir : Path) (requests : List ScanRequest)
    (start : FileSystem) (moment : FileSystem → Prop) (mayLeave : Location → Prop) (outcomes : List Outcome)
    (files : FileSystem) : Prop where
  /-- What differs stands where reports have been written, or where something may have been left. -/
  frame : ∀ place, ¬ IsReportPlace start outcomes place → ¬ mayLeave place → SameAt start files place
  /-- Each report is the one on its artifact, with all of its text. -/
  served : List.Forall₂ (IsServed w outputDir start moment files) requests outcomes
  /-- All the while nothing has differed but where reports have been written, and at the places of temporary
  files. -/
  meanwhile : ∀ fs, moment fs → ∀ place, ¬ IsReportPlace start outcomes place →
    ¬ IsDraftPlace w start place → SameAt start fs place
  nodup : (reports outcomes).Nodup
  /-- Nor is there one place for two reports. -/
  apart : ∀ path ∈ reports outcomes, ∀ path' ∈ reports outcomes, ∀ place, start.LeadsTo path place →
    start.LeadsTo path' place → path = path'
  /-- No temporary file is left, but where something may have been left. -/
  temporary : ∀ place, IsDraftPlace w start place → ¬ mayLeave place → files.get? place = none
  /-- A report that has not been written has what it had, or nothing. -/
  kept : ∀ fs artifact path place, fs.isSound → reportPath fs outputDir artifact = .ok path →
    path ∉ reports outcomes → start.LeadsTo path place → SameAt start files place

section Planned

variable {w : Workshop} {start files : FileSystem} {outputDir : Path} {s : State}
  {before queue front : Queue} {i : Nat} {claimed : List Path} {requests : List ScanRequest}
  {outcomes : List Outcome}

/-- At every moment the books are right. -/
theorem settled_front (hdevice : WriteDevice.IsFaithful w.device) (hfresh : ∀ i, IsFresh start (w.token i))
    (h : Ledger start outputDir [] s.files) (hnamed : ∀ report ∈ claims queue, IsReportIn outputDir report)
    (hnodup : (claims queue).Nodup) (hfront : front <+: queue) :
    Settled w start outputDir [] s front (workAll w front s).1 (workAll w front s).2 := by
  obtain ⟨back, rfl⟩ := hfront
  rw [claims_append] at hnamed hnodup
  exact settled_workAll hdevice hfresh (fun report hmem => hnamed report (List.mem_append_left _ hmem))
    (List.nodup_append.1 hnodup).1 h

theorem isMoment_front (hdevice : WriteDevice.IsFaithful w.device) (hfresh : ∀ i, IsFresh start (w.token i))
    (h : Ledger start outputDir [] s.files) (hnamed : ∀ report ∈ claims queue, IsReportIn outputDir report)
    (hnodup : (claims queue).Nodup) (hfront : front <+: queue) :
    IsMoment start (workAll w queue s).2 (filesAfter w front s) := by
  have hsettled := settled_front hdevice hfresh h hnamed hnodup hfront
  obtain ⟨back, rfl⟩ := hfront
  rw [workAll_append]
  exact hsettled.ledger.isMoment.append_right _

/-- Every job has the path of a report, for the files are sound when it is planned. -/
theorem Planned.named (hplanned : Planned w outputDir s before i claimed requests queue)
    (hdevice : WriteDevice.IsFaithful w.device) (hfresh : ∀ i, IsFresh start (w.token i))
    (h : Ledger start outputDir [] s.files) (hbefore : ∀ report ∈ claims before, IsReportIn outputDir report)
    (hnodup : (claims before ++ claims queue).Nodup) :
    ∀ report ∈ claims queue, IsReportIn outputDir report := by
  induction hplanned with
  | nil => nofun
  | @cons before front queue i claimed r rest job hfront hjob hrest ih =>
    have hsettled := settled_front hdevice hfresh h hbefore (List.nodup_append.1 hnodup).1 hfront
    have hown : ∀ report ∈ job.claim?.toList, IsReportIn outputDir report := by
      obtain ⟨e, hskip⟩ | ⟨own, hscan, hpath, -⟩ :=
        jobOf_cases (filesAfter w front s) outputDir claimed r
      · obtain rfl := hskip.symm.trans hjob
        nofun
      · obtain rfl := hscan.symm.trans hjob
        exact List.forall_mem_singleton.2 (exists_reportName hsettled.ledger.filled.sound hpath)
    rw [claims_cons] at hnodup ⊢
    refine List.forall_mem_append.2 ⟨hown, ih ?_ ?_⟩
    · rw [claims_append, claims_cons]
      exact List.forall_mem_append.2 ⟨hbefore, by simpa [claims] using hown⟩
    · rw [claims_append, claims_cons]
      simpa [claims] using hnodup

theorem Planned.served {outs : List Outcome}
    (hplanned : Planned w outputDir s before i claimed requests queue)
    (hledger : Ledger start outputDir outcomes files)
    (hmoment : ∀ front, front <+: before ++ queue → IsMoment start outcomes (filesAfter w front s))
    (hnamed : ∀ report ∈ claims queue, IsReportIn outputDir report)
    (hcame : List.Forall₂ (fun q => CameOf w start files outcomes q.2) queue outs) :
    List.Forall₂ (IsServed w outputDir start (IsMoment start outcomes) files) requests outs := by
  induction hplanned generalizing outs with
  | nil =>
    cases hcame
    exact .nil
  | @cons before front queue i claimed r rest job hfront hjob hrest ih =>
    cases hcame with
    | cons hfirst hothers =>
      rw [claims_cons] at hnamed
      rw [List.append_cons] at hmoment
      refine .cons ?_ (ih hmoment (fun report hmem => hnamed report (List.mem_append_right _ hmem)) hothers)
      have hplanned : IsMoment start outcomes (filesAfter w front s) :=
        hmoment front (hfront.trans (by simp))
      obtain ⟨e, hskip⟩ | ⟨own, hscan, hpath, -⟩ :=
        jobOf_cases (filesAfter w front s) outputDir claimed r
      · obtain rfl := hskip.symm.trans hjob
        cases hfirst
        exact .skipped e
      · obtain rfl := hscan.symm.trans hjob
        obtain ⟨name, rfl, hname⟩ := hnamed own (List.mem_append_left _ (List.mem_singleton.2 rfl))
        cases hfirst with
        | failed e => exact .skipped e
        | written hscanned hfound hholds =>
          have ⟨place, _, hplace, hno, _⟩ := hholds
          have hordinary := hname.isOrdinary (hname.getLast? hledger.filled.start_sound hplace hno).2
          have hcomes := Asking.comesTo_run hscanned (scanning w.settings r)
          rw [run_scanning, hfound] at hcomes
          exact .written hordinary hplanned hpath hcomes hholds fun bytes => hholds.readFile hledger.filled

end Planned

theorem ledger_start {start : FileSystem} (h : start.isSound) (outputDir : Path) :
    Ledger start outputDir [] start := by
  have hno : ∀ place, ¬ IsReportPlace start [] place := fun _ ⟨_, hmem, _⟩ => List.not_mem_nil hmem
  exact ⟨⟨.refl h fun place hplace => absurd hplace (hno place),
    fun place hplace => absurd hplace (hno place)⟩, nofun⟩

theorem Settled.writesReports {w : Workshop} {outputDir : Path} {requests : List ScanRequest} {s s' : State}
    {start : FileSystem} {queue : Queue} {outcomes : List Outcome} (hfresh : ∀ i, IsFresh start (w.token i))
    (h : Settled w start outputDir [] s queue s' outcomes)
    (hserved : List.Forall₂ (IsServed w outputDir start (IsMoment start outcomes) s'.files) requests outcomes) :
    WritesReports w outputDir requests start (IsMoment start outcomes) (fun _ => False) outcomes s'.files := by
  obtain ⟨hledger, hnodup, -, -⟩ := h
  rw [List.nil_append] at hledger hnodup
  have hsound := hledger.filled.start_sound
  have hunique : ∀ path ∈ reports outcomes, ∀ path', IsReportIn outputDir path' → ∀ place,
      start.LeadsTo path place → start.LeadsTo path' place → path = path' :=
    fun path hpath path' hpath' place hplace hplace' => (hledger.named path hpath).unique hsound hpath'
      (hledger.filled.start_not_isFolder place ⟨path, hpath, hplace⟩) hplace hplace'
  constructor
  · exact fun place hno _ => hledger.isMoment place hno
  · exact hserved
  · exact fun fs hmoment place hno _ => hmoment place hno
  · exact hnodup
  · exact fun path hpath path' hpath' => hunique path hpath path' (hledger.named path' hpath')
  · intro place hdraft _
    have hsame := hledger.isMoment place fun ⟨report, hreport, hleads⟩ =>
      hdraft.not_leadsTo hfresh hsound (hledger.named report hreport) hleads
    have hkind := hsame.kind?
    rw [kind?, kind?, hdraft.get?_eq_none hfresh] at hkind
    exact Option.map_eq_none_iff.1 hkind
  · intro fs artifact path place hfs hpath hnot hplace
    refine hledger.isMoment place fun ⟨report, hreport, hleads⟩ => hnot ?_
    rwa [← hunique report hreport path (exists_reportName hfs hpath) place hleads hplace]

/-- When the folder is there, the books of a batch are right. -/
theorem settled_runFrom {w : Workshop} {outputDir : Path} {requests : List ScanRequest} {s : State}
    (hdevice : WriteDevice.IsFaithful w.device) (hsound : s.files.isSound)
    (hfresh : ∀ i, IsFresh s.files (w.token i)) :
    Ledger s.files outputDir (runFrom w outputDir 0 [] [] requests s).2
        (runFrom w outputDir 0 [] [] requests s).1.files ∧
      WritesReports w outputDir requests s.files
        (IsMoment s.files (runFrom w outputDir 0 [] [] requests s).2) (fun _ => False)
        (runFrom w outputDir 0 [] [] requests s).2 (runFrom w outputDir 0 [] [] requests s).1.files := by
  obtain ⟨queue, hplanned, hrun⟩ := @exists_planned w outputDir requests 0 [] [] s
  rw [List.nil_append] at hrun
  rw [hrun]
  have hstart : Ledger s.files outputDir [] s.files := ledger_start hsound outputDir
  have hnodup := hplanned.nodup.1
  have hnamed := hplanned.named hdevice hfresh hstart nofun hnodup
  have hsettled : Settled w s.files outputDir [] s queue _ _ :=
    settled_front hdevice hfresh hstart hnamed hnodup List.prefix_rfl
  have hserved := hplanned.served hsettled.ledger
    (fun front hfront => isMoment_front hdevice hfresh hstart hnamed hnodup hfront) hnamed hsettled.came
  exact ⟨hsettled.ledger, hsettled.writesReports hfresh hserved⟩

end Batch

end ApiSurface
