import ApiSurface.Proofs.Batch.Elsewhere
import ApiSurface.Proofs.Settings.Validation

/-!
The same batch once more.

Nothing that a batch writes stands where it looks, so with its reports there it does what it did without
them: the folder is there already, each request asks for the same report, and the same texts are given to
the same reports.
-/

namespace ApiSurface

open FileSystem

namespace Batch

open Replacement (temporary Holds)
open ApiSurface.Batch.Task (OwnsPlaces)

/-! ## Places once more -/

section Again

variable {w : Workshop} {outputDir : Path} {start fs : FileSystem} {requests : List ScanRequest}
  {given : Path → Bytes → Prop} {i : Nat} {job : Job} {place : Location}

variable (hundisturbed : IsUndisturbed w outputDir start requests)
  (h : ChangedAt (· ∈ workplaces start w (jobs start outputDir requests)) start fs)
include hundisturbed h

theorem jobs_again : jobs fs outputDir requests = jobs start outputDir requests := by
  refine plan_eq h.seenAlike (fun r hr place hmeets => ?_) []
  exact hundisturbed.artifact hr hmeets

theorem temporaryPlace?_again (hjob : (jobs start outputDir requests)[i]? = some job) :
    temporaryPlace? fs w i job = temporaryPlace? start w i job := by
  unfold temporaryPlace?
  cases job with
  | skip artifact e => simp only [Job.claim?, Option.bind_none]
  | scan r report =>
    simp only [Job.claim?, Option.bind_some]
    exact h.placeOf?_eq (hundisturbed.ownsPlaces h.start_sound hjob report rfl).clearTemp

theorem reportPlace?_again (hjob : (jobs start outputDir requests)[i]? = some job) :
    reportPlace? fs job = reportPlace? start job := by
  unfold reportPlace?
  cases job with
  | skip artifact e => simp only [Job.claim?, Option.bind_none]
  | scan r report =>
    simp only [Job.claim?, Option.bind_some]
    exact h.placeOf?_eq (hundisturbed.ownsPlaces h.start_sound hjob report rfl).clearReport

theorem placesOf_again (hjob : (jobs start outputDir requests)[i]? = some job) :
    placesOf fs w i job = placesOf start w i job := by
  have hfolder : ∀ place, (fs.get? place).any (·.isFolder) = (start.get? place).any (·.isFolder) := by
    intro place
    rw [Bool.eq_iff_iff, Option.any_eq_true, Option.any_eq_true]
    exact h.isFolderAt_iff
  unfold placesOf
  rw [temporaryPlace?_again hundisturbed h hjob, reportPlace?_again hundisturbed h hjob]
  simp only [hfolder]

theorem lookedAtBy_again (hjob : (jobs start outputDir requests)[i]? = some job) :
    lookedAtBy fs w i job = lookedAtBy start w i job := by
  cases job with
  | skip artifact e => rfl
  | scan r report =>
    have hpaths := hundisturbed.ownsPlaces h.start_sound hjob report rfl
    have hcold := hundisturbed.asksCold hjob
    have hasked : (scanning w.settings r).asked fs = (scanning w.settings r).asked start :=
      (h.seenAlike.run_eq (h.sameClasses (hundisturbed.holdsNoClass h.start_sound)) hcold
        (asksKnown_scanning h.start_sound _ r)).2
    simp only [lookedAtBy]
    rw [hasked, h.way_eq hpaths.clearTemp, h.way_eq hpaths.clearReport]
    have hmet : ∀ path ∈ ((scanning w.settings r).asked start).filterMap Question.path?,
        fs.met path = start.met path := by
      intro path hpath
      obtain ⟨q, hq, hqpath⟩ := List.mem_filterMap.1 hpath
      exact h.seenAlike.met_eq fun place hmeets => hcold q hq path hqpath place hmeets
    rw [List.flatMap_congr hmet]

theorem temporaryPlaces_again : temporaryPlaces fs w (jobs start outputDir requests) =
    temporaryPlaces start w (jobs start outputDir requests) :=
  List.filterMap_congr fun (_, _) hmem =>
    temporaryPlace?_again hundisturbed h (List.mem_zipIdx_iff_getElem?.1 hmem)

theorem workplaces_again : workplaces fs w (jobs start outputDir requests) =
    workplaces start w (jobs start outputDir requests) :=
  List.flatMap_congr fun (_, _) hmem =>
    placesOf_again hundisturbed h (List.mem_zipIdx_iff_getElem?.1 hmem)

theorem lookedAt_again : lookedAt fs w (jobs start outputDir requests) requests =
    lookedAt start w (jobs start outputDir requests) requests := by
  unfold lookedAt
  refine congrArg₂ (· ++ ·) (List.flatMap_congr fun r hr => ?_) (List.flatMap_congr fun (_, _) hmem => ?_)
  · exact h.seenAlike.met_eq fun place hmeets => hundisturbed.artifact hr hmeets
  · exact lookedAtBy_again hundisturbed h (List.mem_zipIdx_iff_getElem?.1 hmem)

/-- A batch that does not get in its own way does not get in the way of itself the next time. -/
theorem IsUndisturbed.again
    (hnew : ∀ place ∈ temporaryPlaces start w (jobs start outputDir requests), fs.get? place = none) :
    IsUndisturbed w outputDir fs requests where
  apart := by
    rw [jobs_again hundisturbed h, lookedAt_again hundisturbed h, workplaces_again hundisturbed h]
    exact hundisturbed.apart
  new := by
    rw [jobs_again hundisturbed h, temporaryPlaces_again hundisturbed h]
    exact fun place hplace => Option.isNone_iff_eq_none.2 (hnew place hplace)
  distinct := by
    rw [jobs_again hundisturbed h, temporaryPlaces_again hundisturbed h]
    exact hundisturbed.distinct
  token := hundisturbed.token

end Again

/-! ## Into the same folder -/

section SameFolder

variable {w w' : Workshop} {outputDir : Path} {before start files files' : FileSystem}
  {requests : List ScanRequest}

/-- When the reports are there, so is still their folder. -/
theorem createFolders_again (hsound : before.isSound)
    (hfolder : before.createFolders outputDir = (start, none))
    (hundisturbed : IsUndisturbed w outputDir start requests)
    (hleaves : Leaves start (Gives w start (jobs start outputDir requests)) files) :
    files.createFolders outputDir = (files, none) := by
  obtain ⟨hempty, -⟩ | hisFolder := isFolder_of_createFolders hsound hfolder
  · have hnothing : ∀ fs : FileSystem, fs.createFolders ⟨""⟩ = (fs, none) := fun _ => rfl
    obtain rfl : outputDir = ⟨""⟩ := congrArg Path.mk hempty
    exact hnothing files
  have hcurrent := (isSound_iff.1 hleaves.changed.start_sound).2
  refine createFolders_of_isFolder hleaves.changed.isFolderAt_current
    (isFolder_of_isFolder hcurrent hleaves.current
      (fun place hplace => hleaves.changed.isFolderAt_iff.2 hplace) (fun place hway hno => ?_) hisFolder)
  refine hleaves.changed.kind?_of_cold fun hgiven => ?_
  -- The way to a report goes the way to its folder, and there nothing is written.
  have hwork := hleaves.mem_workplaces hgiven
  obtain ⟨report, text, ⟨i, r, hjob, -⟩, t, ht, -⟩ := hgiven
  obtain ⟨name, rfl, hname⟩ :=
    exists_reportName hleaves.changed.start_sound (of_plan_scan hjob).2.1
  exact hundisturbed.way hjob
    (.inl (mem_way_join hcurrent hname.isPart (locate_eq_ok.1 ht).1 hway hno)) hwork

variable (hsound : start.isSound) (hsettings : w.settings.ScansAlike w'.settings)
  (htoken : ∀ i, IsToken (w.token i)) (htoken' : ∀ i, IsToken (w'.token i))
  (hleaves : Leaves start (Gives w start (jobs start outputDir requests)) files)
include hsound hsettings htoken htoken' hleaves

/-- For the next batch, with tokens of its own, only its own places have changed. -/
theorem changedAt_again :
    ChangedAt (· ∈ workplaces start w' (jobs start outputDir requests)) start files := by
  rw [← gives_congr hsound hsettings htoken htoken'] at hleaves
  exact hleaves.changed.mono (fun place hplace => hleaves.mem_workplaces hplace)
    (changedAt_start hsound _).start_not_isFolder

variable (hundisturbed' : IsUndisturbed w' outputDir start requests)
include hundisturbed'

theorem isUndisturbed_again : IsUndisturbed w' outputDir files requests := by
  have hchanged := changedAt_again hsound hsettings htoken htoken' hleaves
  refine hundisturbed'.again hchanged fun place hplace => ?_
  -- A report does not stand where the next temporary file is to be.
  obtain ⟨⟨job, i⟩, hmem, htemporary⟩ := List.mem_filterMap.1 hplace
  have hjob := List.mem_zipIdx_iff_getElem?.1 hmem
  have hnone := hundisturbed'.get?_temporary hjob htemporary
  refine (hleaves.changed.keeps_start ?_).get?_none hnone
  rintro ⟨report, text, ⟨j, r, hgiven, -⟩, hreport⟩
  obtain ⟨other, -, htemp⟩ := temporaryPlace?_eq_some_iff.1 htemporary
  refine not_report_and_temporary hsound (hundisturbed'.token i) hgiven ?_ hreport htemp
  rintro ⟨node, hnode, -⟩
  cases hnode.symm.trans hnone

/-- The next batch has the same outcomes, and it gives the same texts to the same reports. -/
theorem plan_again : (jobs files outputDir requests).mapIdx (outcomeOf w' files) =
      (jobs start outputDir requests).mapIdx (outcomeOf w start) ∧
    Gives w' files (jobs files outputDir requests) = Gives w start (jobs start outputDir requests) := by
  have hchanged := changedAt_again hsound hsettings htoken htoken' hleaves
  have hfate : ∀ {i r report}, (jobs start outputDir requests)[i]? = some (.scan r report) →
      fate w' files i r report = fate w start i r report := by
    intro i r report hjob
    rw [fate_eq hchanged (hundisturbed'.holdsNoClass hsound) (hundisturbed'.ownsPlaces hsound hjob)
      (hundisturbed'.asksCold hjob), fate_congr hsound hsettings (htoken i) (htoken' i)]
  rw [jobs_again hundisturbed' hchanged]
  constructor
  · refine List.ext_getElem? fun i => ?_
    rw [List.getElem?_mapIdx, List.getElem?_mapIdx]
    cases hjob : (jobs start outputDir requests)[i]? with
    | none => simp only [Option.map_none]
    | some job =>
      cases job with
      | skip artifact e => simp only [Option.map_some, outcomeOf]
      | scan r report => simp only [Option.map_some, outcomeOf, hfate hjob]
  · funext report text
    refine propext (exists_congr fun i => exists_congr fun r => and_congr_right fun hjob => ?_)
    rw [hfate hjob]

/-- So it leaves everything as it is. -/
theorem sameAt_again (hleaves' : Leaves files (Gives w' files (jobs files outputDir requests)) files')
    (place : Location) : SameAt files files' place := by
  have hchanged := changedAt_again hsound hsettings htoken htoken' hleaves
  rw [(plan_again hsound hsettings htoken htoken' hleaves hundisturbed').2] at hleaves'
  refine hleaves.sameAt hleaves' (fun report text hgives place => ?_)
    (fun place hplace => hleaves.changed.keeps_start hplace) place
  obtain ⟨i, r, hjob, -⟩ := hgives
  exact hchanged.leadsTo_iff (hundisturbed'.ownsPlaces hsound hjob report rfl).clearReport

end SameFolder

/-- **The next batch does what the first one did.** Into the same folder it has the same outcomes and leaves
every file as it is, and into a fresh folder it writes the same reports under the same names. -/
theorem scanBatch_again {w w' : Workshop} {requests : List ScanRequest} {outputDir : Path}
    {before start files : FileSystem} {summary : BatchSummary} (hdevice : w.device = perform)
    (hdevice' : w'.device = perform) (hsettings : w.settings.ScansAlike w'.settings)
    (hvalid : w'.settings.IsValid) (htoken : ∀ i, IsToken (w.token i)) (htoken' : ∀ i, IsToken (w'.token i))
    (hsound : before.isSound) (hfolder : before.createFolders outputDir = (start, none))
    (hundisturbed : IsUndisturbed w outputDir start requests)
    (hundisturbed' : IsUndisturbed w' outputDir start requests)
    (hends : EndsIn w requests outputDir before files (.ok summary)) :
    (∀ outputDir' metrics, EndsIn w' requests outputDir' files
      (scanBatch w' requests outputDir' ⟨files, metrics⟩).1.files
      (scanBatch w' requests outputDir' ⟨files, metrics⟩).2) ∧
    (∀ files' result, EndsIn w' requests outputDir files files' result →
      result = .ok summary ∧ files'.current = files.current ∧ (∀ place, SameAt files files' place) ∧
        ∀ path, files'.readFile path = files.readFile path) ∧
    ∀ outputDir' made, IsFreshFolder files made outputDir'
        (lookedAt start w (jobs start outputDir requests) requests) → AreToldApart w' start requests →
      ∀ files' result, EndsIn w' requests outputDir' files files' result →
        ∃ outcomes, result = .ok ⟨outcomes⟩ ∧ outcomes.length = summary.outcomes.length ∧
          ∀ i outcome outcome', summary.outcomes[i]? = some outcome → outcomes[i]? = some outcome' →
            Corresponds outputDir outputDir' files files' w' i outcome outcome' := by
  have hstart : start.isSound := (FoldersMade.of_createFolders hsound hfolder).sound
  obtain ⟨hsummary, hleaves⟩ := hends.eq_ok hfolder hdevice hstart hundisturbed
  obtain rfl := Except.ok.inj hsummary
  refine ⟨fun outputDir' metrics => endsIn_scanBatch hvalid.maxParallelScans.1 ⟨files, metrics⟩,
    fun files' result hends' => ?_, fun outputDir' made hfresh hapart files' result hends' => ?_⟩
  · have hagain := createFolders_again hsound hfolder hundisturbed hleaves
    have hundisturbedAgain := isUndisturbed_again hstart hsettings htoken htoken' hleaves hundisturbed'
    obtain ⟨rfl, hleaves'⟩ := hends'.eq_ok hagain hdevice' hleaves.changed.sound hundisturbedAgain
    have hsame := sameAt_again hstart hsettings htoken htoken' hleaves hundisturbed' hleaves'
    refine ⟨?_, hleaves'.current, hsame, ?_⟩
    · rw [(plan_again hstart hsettings htoken htoken' hleaves hundisturbed').1]
    · exact readFile_congr hleaves.changed.isFolderAt_current hleaves'.current hsame
  · obtain ⟨hseen, hclasses⟩ := seenAlike_fresh hundisturbed hleaves hfresh
    have hundisturbedFresh := isUndisturbed_fresh hseen hsettings hclasses htoken' hapart hfresh
    obtain ⟨rfl, hleaves'⟩ := hends'.eq_ok hfresh.made hdevice' hseen.sound hundisturbedFresh
    refine ⟨_, rfl, by simp, fun i outcome outcome' houtcome houtcome' => ?_⟩
    exact corresponds_outcomes hsettings htoken htoken' hseen hclasses hfresh.empty hundisturbed
      hundisturbedFresh hleaves hleaves' houtcome houtcome'

/-! ### A batch in the morning and in the evening -/

/-- The workshop of one batch, and of the next. -/
def morningWorkshop : Workshop where
  settings := Scan.sampleSettings
  device := perform
  token i := if i = 0 then "0a1b2c3d-0000-4000-8000-000000000000" else "0a1b2c3d-0000-4000-8000-000000000001"

def eveningWorkshop : Workshop where
  settings := Scan.sampleSettings
  device := perform
  token i := if i = 0 then "4e5f6a7b-0000-4000-8000-000000000000" else "4e5f6a7b-0000-4000-8000-000000000001"

/-- The same folder twice, once with a slash behind it. -/
def twiceRequests : List ScanRequest :=
  [⟨⟨"core"⟩, []⟩, ⟨⟨"core/"⟩, []⟩]

def twiceSummary : BatchSummary :=
  ⟨[.written ⟨"core"⟩ ⟨"out/core.txt"⟩ 1 0, .skipped ⟨"core/"⟩ (.outputCollision "out/core.txt")]⟩

theorem isToken_sample (i : Nat) : IsToken (morningWorkshop.token i) ∧ IsToken (eveningWorkshop.token i) := by
  show IsToken (if i = 0 then _ else _) ∧ IsToken (if i = 0 then _ else _)
  unfold IsToken
  split
  · decide +kernel
  · decide +kernel

theorem isUndisturbed_morning : IsUndisturbed morningWorkshop ⟨"out"⟩ sampleFiles twiceRequests where
  apart := by decide +kernel
  new := by decide +kernel
  distinct := by decide +kernel
  token i := (isToken_sample i).1.noSlash

theorem isUndisturbed_evening : IsUndisturbed eveningWorkshop ⟨"out"⟩ sampleFiles twiceRequests where
  apart := by decide +kernel
  new := by decide +kernel
  distinct := by decide +kernel
  token i := (isToken_sample i).2.noSlash

/-- The files behind the first batch. -/
def morningFiles : FileSystem :=
  (scanBatch morningWorkshop twiceRequests ⟨"out"⟩ ⟨sampleFiles, .zero⟩).1.files

theorem isFreshFolder_sample : IsFreshFolder morningFiles (morningFiles.createFolders ⟨"fresh/core.txt"⟩).1
    ⟨"fresh/core.txt"⟩ (lookedAt sampleFiles morningWorkshop
      (jobs sampleFiles ⟨"out"⟩ twiceRequests) twiceRequests) where
  made := Prod.ext rfl (by decide +kernel)
  empty := by
    have hempty : ((morningFiles.createFolders ⟨"fresh/core.txt"⟩).1.stat ⟨"fresh/core.txt"⟩).toOption.any
        (fun node => node.isFolder && node.children.isEmpty) = true := by
      decide +kernel
    cases hstat : (morningFiles.createFolders ⟨"fresh/core.txt"⟩).1.stat ⟨"fresh/core.txt"⟩ with
    | error e =>
      rw [hstat] at hempty
      cases hempty
    | ok node =>
      rw [hstat] at hempty
      have hboth : node.isFolder = true ∧ node.children.isEmpty = true := Bool.and_eq_true_iff.1 hempty
      obtain ⟨children, rfl⟩ := Node.exists_children_of_isFolder hboth.1
      obtain rfl : children = [] := List.isEmpty_iff.1 hboth.2
      rfl
  unseen := by decide +kernel
  outside := by decide +kernel

def freshSummary : BatchSummary :=
  ⟨[.written ⟨"core"⟩ ⟨"fresh/core.txt/core.txt"⟩ 1 0,
    .skipped ⟨"core/"⟩ (.outputCollision "fresh/core.txt/core.txt")]⟩

/-- In the evening nothing changes, and in a fresh folder the report is the same. -/
theorem scanBatch_evening :
    (scanBatch eveningWorkshop twiceRequests ⟨"out"⟩ ⟨morningFiles, .zero⟩).2 = .ok twiceSummary ∧
      (∀ path, (scanBatch eveningWorkshop twiceRequests ⟨"out"⟩ ⟨morningFiles, .zero⟩).1.files.readFile path =
        morningFiles.readFile path) ∧
      (scanBatch eveningWorkshop twiceRequests ⟨"fresh/core.txt"⟩ ⟨morningFiles, .zero⟩).2 =
        .ok freshSummary ∧
      ∀ i outcome outcome', twiceSummary.outcomes[i]? = some outcome →
        freshSummary.outcomes[i]? = some outcome' → Corresponds ⟨"out"⟩ ⟨"fresh/core.txt"⟩ morningFiles
          (scanBatch eveningWorkshop twiceRequests ⟨"fresh/core.txt"⟩ ⟨morningFiles, .zero⟩).1.files
          eveningWorkshop i outcome outcome' := by
  have hfirst : (scanBatch morningWorkshop twiceRequests ⟨"out"⟩ ⟨sampleFiles, .zero⟩).2 =
      .ok twiceSummary := by
    decide +kernel
  have hthird : (scanBatch eveningWorkshop twiceRequests ⟨"fresh/core.txt"⟩ ⟨morningFiles, .zero⟩).2 =
      .ok freshSummary := by
    decide +kernel
  have hvalid : Scan.sampleSettings.IsValid :=
    ScannerSettings.violation?_eq_none_iff.1 (by decide +kernel)
  have hends : EndsIn morningWorkshop twiceRequests ⟨"out"⟩ sampleFiles morningFiles (.ok twiceSummary) :=
    hfirst ▸ endsIn_scanBatch (by decide +kernel) ⟨sampleFiles, .zero⟩
  obtain ⟨hall, hagain, hfresh⟩ := @scanBatch_again morningWorkshop eveningWorkshop twiceRequests ⟨"out"⟩
    sampleFiles sampleFiles morningFiles twiceSummary rfl rfl rfl hvalid (fun i => (isToken_sample i).1)
    (fun i => (isToken_sample i).2) (by decide +kernel) rfl isUndisturbed_morning isUndisturbed_evening hends
  obtain ⟨hsecond, -, -, hread⟩ := hagain _ _ (hall ⟨"out"⟩ .zero)
  obtain ⟨outcomes, hresult, -, hcorresponds⟩ :=
    hfresh _ _ isFreshFolder_sample (areToldApart_of_texts (by decide +kernel)) _ _ (hall ⟨"fresh/core.txt"⟩ .zero)
  obtain rfl : outcomes = freshSummary.outcomes :=
    congrArg BatchSummary.outcomes (Except.ok.inj (hresult.symm.trans hthird))
  exact ⟨hsecond, hread, hthird, hcorresponds⟩

/-! ### A batch that cannot be done again -/

/-- First the folder by way of the link, and then the report that takes the place of the link. -/
def throughRequests : List ScanRequest :=
  [⟨⟨"out/core.txt/lib"⟩, []⟩, ⟨⟨"core"⟩, []⟩]

/-- It is not enough that nothing that is named is the path of a report: when the report has taken the place
of a link, the path of an artifact that goes by way of the link leads nowhere any more. -/
theorem not_scanBatch_again :
    ¬ ∀ (w : Workshop) (requests : List ScanRequest) (outputDir : Path) (s : State), w.device = perform →
      w.settings.IsValid → (∀ i, IsToken (w.token i)) → s.files.isSound →
      NamesNoReport (s.files.createFolders outputDir).1 outputDir requests →
      (scanBatch w requests outputDir (scanBatch w requests outputDir s).1).2 =
        (scanBatch w requests outputDir s).2 := by
  intro hall
  have hvalid : linkedWorkshop.settings.IsValid :=
    ScannerSettings.violation?_eq_none_iff.1 (by decide +kernel)
  have hnames : NamesNoReport (linkedFiles.createFolders ⟨"out"⟩).1 ⟨"out"⟩ throughRequests := by
    unfold NamesNoReport
    decide +kernel
  have hsame := hall { linkedWorkshop with token := morningWorkshop.token } throughRequests ⟨"out"⟩
    ⟨linkedFiles, .zero⟩ rfl hvalid (fun i => (isToken_sample i).1) (by decide +kernel) hnames
  revert hsame
  decide +kernel

end Batch

end ApiSurface
