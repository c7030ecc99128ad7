import ApiSurface.Proofs.Batch.Independence
import ApiSurface.Proofs.Storage.Faults

/-!
What is left of a batch, whatever its schedule.

The folder for the reports is made first, and then some schedule comes to its end. What comes of each
request, and which text is given to which report, is said by how the files stood when the folder was
there. So two batches that give the same texts to the same reports leave the same files.
-/

namespace ApiSurface

open FileSystem

/-! ## Clear paths -/

namespace FileSystem.ChangedAt

variable {hot : Location → Prop} {start fs : FileSystem} {path temp report : Path}

/-- A clear path goes the way that it went. -/
theorem way_eq (h : ChangedAt hot start fs) (hclear : IsClear hot start path) :
    fs.way false path = start.way false path := by
  refine way_congr h.current (fun l hl => h.kind?_of_cold (hclear.way l hl)) fun t ht hnode => ?_
  intro node hget
  refine ⟨h.not_isFolder t.place node (hclear.hot t.place ⟨t, ht, rfl⟩ ?_) hget, nofun⟩
  rintro ⟨old, hold, hfolder⟩
  rw [(isFound_of_locate (isSound_iff.1 h.start_sound).2 ht).get?] at hold
  rw [hnode old hold] at hfolder
  cases hfolder

theorem placeOf?_eq (h : ChangedAt hot start fs) (hclear : IsClear hot start path) :
    fs.placeOf? false path = start.placeOf? false path := by
  rw [placeOf?, placeOf?]
  obtain ⟨e, hfs, hstart⟩ | ⟨t', t, hfs, hstart, heq⟩ := cases_of_map_eq_map (h.locate_place hclear)
  · rw [hfs, hstart]
  · rw [hfs, hstart]
    simp only [heq]

theorem leadsTo_iff (h : ChangedAt hot start fs) (hclear : IsClear hot start path) {place : Location} :
    fs.LeadsTo path place ↔ start.LeadsTo path place := by
  unfold LeadsTo
  rw [← placeOf?_eq_some_iff, ← placeOf?_eq_some_iff, h.placeOf?_eq hclear]

/-- A replacement on clear paths has the fault that it would have had. -/
theorem fault?_eq (h : ChangedAt hot start fs) (htemp : IsClear hot start temp)
    (hreport : IsClear hot start report) :
    Replacement.fault? fs temp report = Replacement.fault? start temp report := by
  unfold Replacement.fault?
  obtain ⟨e, hfs, hstart⟩ | ⟨t', t, hfs, hstart, -⟩ := cases_of_map_eq_map (h.locate_place htemp)
  · rw [hfs, hstart]
  · rw [hfs, hstart]
    exact h.moveFault?_eq hreport

end FileSystem.ChangedAt

namespace Batch

open Replacement (temporary fault? Holds)
open ApiSurface.Batch.Task (OwnsPlaces)

/-! ## Texts of reports -/

/-- A job of the plan gives the text to the report. -/
def Gives (w : Workshop) (start : FileSystem) (planned : List Job) (report : Path) (text : Bytes) : Prop :=
  ∃ i r, planned[i]? = some (.scan r report) ∧ (fate w start i r report).2 = some text

/-- A report to which a text is given stands at the place. -/
def IsGivenPlace (start : FileSystem) (given : Path → Bytes → Prop) (place : Location) : Prop :=
  ∃ report text, given report text ∧ start.LeadsTo report place

/-- The texts have been given to their reports, and nothing else has happened. -/
structure Leaves (start : FileSystem) (given : Path → Bytes → Prop) (fs : FileSystem) : Prop where
  changed : ChangedAt (IsGivenPlace start given) start fs
  holds : ∀ report text, given report text → Holds start fs report text

section Leaves

variable {start start' fs fs' : FileSystem} {given : Path → Bytes → Prop} {place : Location}

/-- Where the same texts have been given to the same reports, the same stands everywhere. -/
theorem Leaves.sameAt (h : Leaves start given fs) (h' : Leaves start' given fs')
    (hleads : ∀ report text, given report text → ∀ place,
      start'.LeadsTo report place ↔ start.LeadsTo report place)
    (hkeeps : ∀ place, ¬ IsGivenPlace start given place → Keeps start start' place) (place : Location) :
    SameAt fs fs' place := by
  by_cases hplace : IsGivenPlace start given place
  · obtain ⟨report, text, hgiven, hreport⟩ := hplace
    obtain ⟨first, id, hfirst, -, hfile, -, hcontent⟩ := h.holds report text hgiven
    obtain ⟨second, id', hsecond, -, hfile', -, hcontent'⟩ := h'.holds report text hgiven
    obtain rfl := hreport.unique hfirst
    obtain rfl := hreport.unique ((hleads report text hgiven second).1 hsecond)
    refine ⟨by rw [kind?, kind?, hfile, hfile']; rfl, fun other other' hother hother' => ?_⟩
    obtain rfl := Node.file.inj (Option.some.inj (hfile.symm.trans hother))
    obtain rfl := Node.file.inj (Option.some.inj (hfile'.symm.trans hother'))
    rw [hcontent, hcontent']
  · have hplace' : ¬ IsGivenPlace start' given place := by
      rintro ⟨report, text, hgiven, hreport⟩
      exact hplace ⟨report, text, hgiven, (hleads report text hgiven place).1 hreport⟩
    exact (h.changed.keeps_start hplace).sameAt
      ((hkeeps place hplace).trans (h'.changed.keeps_start hplace'))

theorem Leaves.current (h : Leaves start given fs) : fs.current = start.current :=
  h.changed.current

/-- A report can be read along its path if no other one has come to stand on the way. -/
theorem Leaves.readFile {report : Path} {text : Bytes} (h : Leaves start given fs)
    (hgiven : given report text) (hway : ∀ place ∈ start.way false report, ¬ IsGivenPlace start given place) :
    fs.readFile report = .ok text :=
  (h.holds report text hgiven).readFile_of_isClear h.changed
    ⟨hway, fun _ hplace _ => ⟨report, text, hgiven, hplace⟩⟩

/-- The places of reports are among those at which jobs may change something. -/
theorem Leaves.mem_workplaces {w : Workshop} {planned : List Job} (h : Leaves start (Gives w start planned) fs)
    (hplace : IsGivenPlace start (Gives w start planned) place) : place ∈ workplaces start w planned := by
  have hno := h.changed.start_not_isFolder place hplace
  obtain ⟨report, text, ⟨i, r, hjob, -⟩, hreport⟩ := hplace
  exact Batch.mem_workplaces.2 ⟨i, _, hjob, report, rfl, hno, .inr hreport⟩

end Leaves

/-! ## What comes of a scan -/

section Fate

variable {hot : Location → Prop} {w : Workshop} {start fs : FileSystem} {i : Nat} {r : ScanRequest}
  {report : Path} {outputDir : Path} {requests : List ScanRequest}

/-- What comes of a scan is the same while files change that are no concern of it. -/
theorem fate_eq (h : ChangedAt hot start fs) (hclass : HoldsNoClass hot)
    (hown : OwnsPlaces hot start w i (.scan r report))
    (hcold : (scanning w.settings r).AsksCold hot start) :
    fate w fs i r report = fate w start i r report := by
  have hscan : ApiSurface.scan fs w.settings r = ApiSurface.scan start w.settings r := by
    rw [← run_scanning, ← run_scanning]
    exact (h.seenAlike.run_eq (h.sameClasses hclass) hcold (asksKnown_scanning h.start_sound _ r)).1
  have hpaths := hown report rfl
  unfold fate
  rw [hscan, h.fault?_eq hpaths.clearTemp hpaths.clearReport]

end Fate

/-! ## Ends of schedules -/

section Finished

variable {w : Workshop} {outputDir : Path} {start : FileSystem} {requests : List ScanRequest} {c : Course}

/-- A schedule that has come to its end has given the texts to the reports. -/
theorem Course.IsOnPlan.leaves (hsound : start.isSound)
    (hundisturbed : IsUndisturbed w outputDir start requests) (h : c.IsOnPlan w outputDir start requests)
    (hfinished : c.IsFinished) :
    Leaves start (Gives w start (jobs start outputDir requests)) c.files := by
  have hholds : ∀ report text, Gives w start (jobs start outputDir requests) report text →
      Holds start c.files report text := by
    rintro report text ⟨i, r, hjob, htext⟩
    obtain ⟨outcome, -, hfits⟩ := h.exists_done hfinished hjob
    cases hfits with
    | done hfate hstands =>
      rw [hfate] at htext
      exact hstands.given text htext
  refine ⟨h.changed.cool (fun place hplace => ?_) fun place hplace hnot => ?_, hholds⟩
  · obtain ⟨report, text, hgives, hreport⟩ := hplace
    obtain ⟨there, -, hthere, hno, -⟩ := hholds report text hgives
    obtain rfl := hreport.unique hthere
    obtain ⟨i, r, hjob, -⟩ := hgives
    exact mem_workplaces.2 ⟨i, _, hjob, report, rfl, hno, .inr hreport⟩
  · obtain ⟨i, job, hjob, report, hclaim, hno, hleads⟩ := mem_workplaces.1 hplace
    obtain ⟨r, rfl⟩ := eq_scan_of_claim? hclaim
    obtain ⟨outcome, -, hfits⟩ := h.exists_done hfinished hjob
    cases hfits with
    | @done _ _ _ given hfate hstands =>
      obtain htemp | hreport := hleads
      · have hnew := (hundisturbed.ownsPlaces hsound hjob report rfl).new place htemp
        rw [bare?_of_none (hstands.absent rfl place htemp), bare?_of_none hnew]
      · cases given with
        | none => exact (hstands.kept rfl place hreport hno).bare?
        | some text =>
          exact absurd ⟨report, text, ⟨i, r, hjob, by rw [hfate]⟩, hreport⟩ hnot

end Finished

/-! ## Ends of batches -/

/-- How a batch can end: without its folder, or at the end of some schedule. -/
inductive EndsIn (w : Workshop) (requests : List ScanRequest) (outputDir : Path) (before : FileSystem) :
    FileSystem → Except ScanError BatchSummary → Prop
  | refused {files : FileSystem} {e : IoError} (hfolder : before.createFolders outputDir = (files, some e)) :
      EndsIn w requests outputDir before files (.error (.directory outputDir.shown e))
  | finished {start : FileSystem} {c : Course} (hfolder : before.createFolders outputDir = (start, none))
      (hreaches : Course.Reaches w outputDir (.start start requests) c) (hfinished : c.IsFinished) :
      EndsIn w requests outputDir before c.files (.ok ⟨c.outcomes⟩)

section EndsIn

variable {w : Workshop} {outputDir : Path} {before start files : FileSystem} {requests : List ScanRequest}

/-- A batch that works on one scan after the other ends in one of these ways. -/
theorem endsIn_scanBatch (hmax : 1 ≤ w.settings.maxParallelScans) (s : State) :
    EndsIn w requests outputDir s.files (scanBatch w requests outputDir s).1.files
      (scanBatch w requests outputDir s).2 := by
  unfold scanBatch
  cases hfolder : s.files.createFolders outputDir with
  | mk start e? =>
    cases e? with
    | some e => exact .refused hfolder
    | none =>
      obtain ⟨c, hreaches, hfinished, hfiles, houtcomes⟩ :=
        @Course.reaches_sequential w outputDir hmax requests { s with files := start }
      simp only [← hfiles, ← houtcomes]
      exact .finished hfolder hreaches hfinished

theorem EndsIn.eq_error {result : Except ScanError BatchSummary} {e : IoError}
    (h : EndsIn w requests outputDir before files result)
    (hfolder : before.createFolders outputDir = (start, some e)) :
    files = start ∧ result = .error (.directory outputDir.shown e) := by
  cases h with
  | refused hfolder' =>
    obtain ⟨rfl, he⟩ := Prod.mk.inj (hfolder.symm.trans hfolder')
    obtain rfl := Option.some.inj he
    exact ⟨rfl, rfl⟩
  | finished hfolder' _ _ => cases (Prod.mk.inj (hfolder.symm.trans hfolder')).2

/-- A batch that has its folder and does not get in its own way comes to what its plan says. -/
theorem EndsIn.eq_ok {result : Except ScanError BatchSummary}
    (h : EndsIn w requests outputDir before files result)
    (hfolder : before.createFolders outputDir = (start, none)) (hdevice : w.device = perform)
    (hsound : start.isSound) (hundisturbed : IsUndisturbed w outputDir start requests) :
    result = .ok ⟨(jobs start outputDir requests).mapIdx (outcomeOf w start)⟩ ∧
      Leaves start (Gives w start (jobs start outputDir requests)) files := by
  cases h with
  | refused hfolder' => cases (Prod.mk.inj (hfolder.symm.trans hfolder')).2
  | finished hfolder' hreaches hfinished =>
    obtain ⟨rfl, -⟩ := Prod.mk.inj (hfolder.symm.trans hfolder')
    have honPlan := Course.IsOnPlan.of_reaches hundisturbed hsound hdevice hreaches
    exact ⟨by rw [honPlan.outcomes_eq hfinished], honPlan.leaves hsound hundisturbed hfinished⟩

end EndsIn

end Batch

end ApiSurface
