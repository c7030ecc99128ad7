import ApiSurface.Proofs.Batch.Tasks

/-!
The places at which a batch changes files.

Each job has the place of its report and that of its temporary file, and no two jobs have one in common:
reports have different names, temporary files have names that end in something else, and their tokens
see to it that none is there already. So tasks that keep away from these places, as long as they are not
their own, do not disturb each other.
-/

namespace ApiSurface

open FileSystem

namespace Batch

open Replacement (temporary IsOwn)
open ApiSurface.Batch.Task (IsPlaceOf OwnsPlaces)

/-- The jobs of a batch, by how the files stand at the start. -/
abbrev jobs (start : FileSystem) (outputDir : Path) (requests : List ScanRequest) : List Job :=
  plan start outputDir [] requests

/-! ## Where something is changed -/

section Changed

variable (start : FileSystem) (w : Workshop) (planned : List Job)

/-- The place of the temporary file of a job. -/
def temporaryPlace? (i : Nat) (job : Job) : Option Location :=
  job.claim?.bind fun report => start.placeOf? false (temporary (w.token i) report)

/-- The place of the report of a job. -/
def reportPlace? (job : Job) : Option Location :=
  job.claim?.bind (start.placeOf? false)

/-- The places at which a job may change something: where its path leads to a folder, it does not. -/
def placesOf (i : Nat) (job : Job) : List Location :=
  ((temporaryPlace? start w i job).toList ++ (reportPlace? start job).toList).filter fun place =>
    !(start.get? place).any (·.isFolder)

def temporaryPlaces : List Location :=
  planned.zipIdx.filterMap fun (job, i) => temporaryPlace? start w i job

/-- All places at which jobs may change something. -/
def workplaces : List Location :=
  planned.zipIdx.flatMap fun (job, i) => placesOf start w i job

/-- The places at which a job looks, those of its own files apart. -/
def lookedAtBy (i : Nat) : Job → List Location
  | .scan r report =>
    (((scanning w.settings r).asked start).filterMap Question.path?).flatMap start.met
      ++ start.way false report ++ start.way false (temporary (w.token i) report)
  | .skip .. => []

/-- All places at which a batch looks. -/
def lookedAt (requests : List ScanRequest) : List Location :=
  requests.flatMap (start.met ·.artifact) ++ planned.zipIdx.flatMap fun (job, i) => lookedAtBy start w i job

end Changed

/-- The batch does not get in its own way. All of that is said about the files as they stand when the
folder for reports is there. -/
structure IsUndisturbed (w : Workshop) (outputDir : Path) (start : FileSystem)
    (requests : List ScanRequest) : Prop where
  /-- Nothing is changed where the batch looks: on the way to an artifact, to a place of the classpath
  or to the folder for reports, or at the end of one of the first two. -/
  apart : ∀ place ∈ lookedAt start w (jobs start outputDir requests) requests,
    place ∉ workplaces start w (jobs start outputDir requests)
  /-- Temporary files have names that nothing has yet. -/
  new : ∀ place ∈ temporaryPlaces start w (jobs start outputDir requests), (start.get? place).isNone
  /-- No two of them have the same one. -/
  distinct : (temporaryPlaces start w (jobs start outputDir requests)).Nodup
  token : ∀ i, '/' ∉ (w.token i).toList

section Places

variable {w : Workshop} {outputDir : Path} {start : FileSystem} {requests : List ScanRequest}
  {planned : List Job} {i j : Nat} {job job' : Job} {r : ScanRequest} {report : Path} {place : Location}

theorem temporaryPlace?_eq_some_iff : temporaryPlace? start w i job = some place ↔
    ∃ report, job.claim? = some report ∧ start.LeadsTo (temporary (w.token i) report) place := by
  simp only [temporaryPlace?, Option.bind_eq_some_iff, placeOf?_eq_some_iff, LeadsTo]

theorem reportPlace?_eq_some_iff : reportPlace? start job = some place ↔
    ∃ report, job.claim? = some report ∧ start.LeadsTo report place := by
  simp only [reportPlace?, Option.bind_eq_some_iff, placeOf?_eq_some_iff, LeadsTo]

theorem mem_placesOf : place ∈ placesOf start w i job ↔ IsPlaceOf start w i job place := by
  have hfolder : (start.get? place).any (·.isFolder) = true ↔ start.IsFolderAt place :=
    Option.any_eq_true _ _
  rw [placesOf, List.mem_filter, List.mem_append, Option.mem_toList, Option.mem_toList,
    temporaryPlace?_eq_some_iff, reportPlace?_eq_some_iff, Bool.not_eq_true', ← Bool.not_eq_true, hfolder]
  constructor
  · rintro ⟨⟨report, hclaim, hplace⟩ | ⟨report, hclaim, hplace⟩, hno⟩
    · exact ⟨report, hclaim, hno, .inl hplace⟩
    · exact ⟨report, hclaim, hno, .inr hplace⟩
  · rintro ⟨report, hclaim, hno, hplace | hplace⟩
    · exact ⟨.inl ⟨report, hclaim, hplace⟩, hno⟩
    · exact ⟨.inr ⟨report, hclaim, hplace⟩, hno⟩

theorem mem_workplaces : place ∈ workplaces start w planned ↔
    ∃ i job, planned[i]? = some job ∧ IsPlaceOf start w i job place := by
  simp only [workplaces, List.mem_flatMap, Prod.exists, List.mem_zipIdx_iff_getElem?, mem_placesOf]
  exact exists_comm

theorem mem_lookedAt_of_scan (hjob : planned[i]? = some (.scan r report))
    (h : place ∈ lookedAtBy start w i (.scan r report)) : place ∈ lookedAt start w planned requests :=
  List.mem_append_right _ (List.mem_flatMap.2 ⟨(.scan r report, i), List.mem_zipIdx_iff_getElem?.2 hjob, h⟩)

/-- Where a scan asks about something, the batch looks. -/
theorem mem_lookedAt_of_asked (hjob : planned[i]? = some (.scan r report)) {q : Question}
    (hq : q ∈ (scanning w.settings r).asked start) {path : Path} (hpath : q.path? = some path)
    (hmeets : start.Meets path place) : place ∈ lookedAt start w planned requests := by
  refine mem_lookedAt_of_scan hjob (List.mem_append_left _ (List.mem_append_left _ ?_))
  exact List.mem_flatMap.2 ⟨path, List.mem_filterMap.2 ⟨q, hq, hpath⟩, meets_iff.1 hmeets⟩

theorem eq_scan_of_claim? (h : job.claim? = some report) : ∃ r, job = .scan r report := by
  cases job with
  | scan r own =>
    obtain rfl := Option.some.inj h
    exact ⟨r, rfl⟩
  | skip artifact e => cases h

/-- The name of a report, and its place. -/
theorem exists_name_of_report (hsound : start.isSound)
    (hjob : (jobs start outputDir requests)[i]? = some (Job.scan r report)) :
    ∃ name, report = outputDir.join ⟨name⟩ ∧ ∀ place, start.LeadsTo report place →
      ¬ start.IsFolderAt place → place.getLast? = some name ∧ reportEnding <:+ name.toList := by
  obtain ⟨name, rfl, hname⟩ := exists_reportName hsound (of_plan_scan hjob).2.1
  exact ⟨name, rfl, fun place hplace hno => hname.getLast? hsound hplace hno⟩

theorem exists_name_of_temporary {token : String} (htoken : '/' ∉ token.toList)
    (hplace : start.LeadsTo (temporary token report) place) :
    ∃ name, place.getLast? = some name ∧ temporaryEnding <:+ name.toList := by
  obtain ⟨folder, name, heq, hname⟩ := exists_temporaryName htoken report
  rw [heq] at hplace
  exact ⟨name, hname.getLast? hplace, hname.ending⟩

/-- No report has the place of a temporary file. -/
theorem not_report_and_temporary {token : String} {other : Path} (hsound : start.isSound)
    (htoken : '/' ∉ token.toList)
    (hjob : (jobs start outputDir requests)[i]? = some (Job.scan r report))
    (hno : ¬ start.IsFolderAt place) (hreport : start.LeadsTo report place)
    (htemporary : start.LeadsTo (temporary token other) place) : False := by
  obtain ⟨name, rfl, hname⟩ := exists_reportName hsound (of_plan_scan hjob).2.1
  exact hname.not_temporary (isTemporaryName htoken other) hsound hno hreport htemporary

/-- The name of a place at which something is changed has one of two endings. -/
theorem exists_name_of_mem_workplaces (hsound : start.isSound) (htoken : ∀ i, '/' ∉ (w.token i).toList)
    (h : place ∈ workplaces start w (jobs start outputDir requests)) :
    ∃ name, place.getLast? = some name ∧
      (reportEnding <:+ name.toList ∨ temporaryEnding <:+ name.toList) := by
  obtain ⟨i, job, hjob, report, hclaim, hno, hplace⟩ := mem_workplaces.1 h
  obtain ⟨r, rfl⟩ := eq_scan_of_claim? hclaim
  obtain htemp | hreport := hplace
  · obtain ⟨name, hlast, hending⟩ := exists_name_of_temporary (htoken i) htemp
    exact ⟨name, hlast, .inr hending⟩
  · obtain ⟨name, -, hname⟩ := exists_name_of_report hsound hjob
    obtain ⟨hlast, hending⟩ := hname place hreport hno
    exact ⟨name, hlast, .inl hending⟩

/-- At the start nothing has changed. -/
theorem changedAt_start (hsound : start.isSound) (planned : List Job) :
    ChangedAt (· ∈ workplaces start w planned) start start := by
  refine .refl hsound fun place hplace => ?_
  obtain ⟨i, job, -, report, -, hno, -⟩ := mem_workplaces.1 hplace
  exact hno

/-! ## Batches that do not get in their own way -/

variable (hundisturbed : IsUndisturbed w outputDir start requests)
include hundisturbed

theorem IsUndisturbed.artifact (hr : r ∈ requests) (hmeets : start.Meets r.artifact place) :
    place ∉ workplaces start w (jobs start outputDir requests) :=
  hundisturbed.apart place
    (List.mem_append_left _ (List.mem_flatMap.2 ⟨r, hr, meets_iff.1 hmeets⟩))

/-- Nothing that a scan asks about is changed. -/
theorem IsUndisturbed.asksCold (hjob : (jobs start outputDir requests)[i]? = some (.scan r report)) :
    (scanning w.settings r).AsksCold (· ∈ workplaces start w (jobs start outputDir requests)) start := by
  intro q hq path hpath place hmeets
  exact hundisturbed.apart place (mem_lookedAt_of_asked hjob hq hpath hmeets)

/-- Nothing on the way to a report, or to its temporary file, is changed. -/
theorem IsUndisturbed.way (hjob : (jobs start outputDir requests)[i]? = some (.scan r report))
    (hplace : place ∈ start.way false report ∨ place ∈ start.way false (temporary (w.token i) report)) :
    place ∉ workplaces start w (jobs start outputDir requests) := by
  refine hundisturbed.apart place (mem_lookedAt_of_scan hjob ?_)
  obtain hreport | htemp := hplace
  · exact List.mem_append_left _ (List.mem_append_right _ hreport)
  · exact List.mem_append_right _ htemp

theorem IsUndisturbed.get?_temporary (hjob : (jobs start outputDir requests)[i]? = some job)
    (hplace : temporaryPlace? start w i job = some place) : start.get? place = none := by
  refine Option.isNone_iff_eq_none.1 (hundisturbed.new place (List.mem_filterMap.2 ⟨(job, i), ?_, hplace⟩))
  exact List.mem_zipIdx_iff_getElem?.2 hjob

theorem IsUndisturbed.eq_of_temporary (hi : (jobs start outputDir requests)[i]? = some job)
    (hj : (jobs start outputDir requests)[j]? = some job') (h : temporaryPlace? start w i job = some place)
    (h' : temporaryPlace? start w j job' = some place) : i = j := by
  -- Of two jobs, the earlier one has another place than the later one.
  have hdistinct := List.pairwise_iff_getElem.1 (List.pairwise_filterMap.1 hundisturbed.distinct)
  obtain ⟨hlti, rfl⟩ := List.getElem?_eq_some_iff.1 hi
  obtain ⟨hltj, rfl⟩ := List.getElem?_eq_some_iff.1 hj
  have hne : ∀ {a b : Nat} (ha : a < (jobs start outputDir requests).length)
      (hb : b < (jobs start outputDir requests).length), a < b →
      temporaryPlace? start w a (jobs start outputDir requests)[a] = some place →
      temporaryPlace? start w b (jobs start outputDir requests)[b] = some place → False := by
    intro a b ha hb hlt hfirst hsecond
    refine hdistinct a b (by simpa using ha) (by simpa using hb) hlt place ?_ place ?_ rfl
    · simpa using hfirst
    · simpa using hsecond
  obtain hlt | heq | hgt := Nat.lt_trichotomy i j
  · exact (hne hlti hltj hlt h h').elim
  · exact heq
  · exact (hne hltj hlti hgt h' h).elim

variable (hsound : start.isSound)
include hsound

/-- No two jobs have a place in common. -/
theorem IsUndisturbed.eq_of_place (hi : (jobs start outputDir requests)[i]? = some job)
    (hj : (jobs start outputDir requests)[j]? = some job') (h : IsPlaceOf start w i job place)
    (h' : IsPlaceOf start w j job' place) : i = j := by
  obtain ⟨report, hclaim, hno, hplace⟩ := h
  obtain ⟨report', hclaim', -, hplace'⟩ := h'
  obtain ⟨r, rfl⟩ := eq_scan_of_claim? hclaim
  obtain ⟨r', rfl⟩ := eq_scan_of_claim? hclaim'
  obtain htemp | hreport := hplace <;> obtain htemp' | hreport' := hplace'
  · exact hundisturbed.eq_of_temporary hi hj (temporaryPlace?_eq_some_iff.2 ⟨report, rfl, htemp⟩)
      (temporaryPlace?_eq_some_iff.2 ⟨report', rfl, htemp'⟩)
  · exact (not_report_and_temporary hsound (hundisturbed.token i) hj hno hreport' htemp).elim
  · exact (not_report_and_temporary hsound (hundisturbed.token j) hi hno hreport htemp').elim
  · obtain ⟨name, rfl, hname⟩ := exists_name_of_report hsound hi
    obtain ⟨name', rfl, hname'⟩ := exists_name_of_report hsound hj
    obtain rfl : name = name' :=
      Option.some.inj ((hname place hreport hno).1.symm.trans (hname' place hreport' hno).1)
    exact plan_injective hi hj

/-- Each job has its two places for itself. -/
theorem IsUndisturbed.ownsPlaces (hjob : (jobs start outputDir requests)[i]? = some job) :
    OwnsPlaces (· ∈ workplaces start w (jobs start outputDir requests)) start w i job := by
  intro report hclaim
  obtain ⟨r, rfl⟩ := eq_scan_of_claim? hclaim
  have hnew : ∀ place, start.LeadsTo (temporary (w.token i) report) place → start.get? place = none :=
    fun place hplace => hundisturbed.get?_temporary hjob (temporaryPlace?_eq_some_iff.2 ⟨report, rfl, hplace⟩)
  constructor
  · exact ⟨fun place hplace => hundisturbed.way hjob (.inr hplace),
      fun place hplace hno => mem_workplaces.2 ⟨i, _, hjob, report, rfl, hno, .inl hplace⟩⟩
  · exact ⟨fun place hplace => hundisturbed.way hjob (.inl hplace),
      fun place hplace hno => mem_workplaces.2 ⟨i, _, hjob, report, rfl, hno, .inr hplace⟩⟩
  · exact hnew
  · intro place htemp hreport
    refine not_report_and_temporary hsound (hundisturbed.token i) hjob ?_ hreport htemp
    rintro ⟨node, hnode, -⟩
    rw [hnew place htemp] at hnode
    cases hnode

/-- No class is read from one of the places. -/
theorem IsUndisturbed.holdsNoClass :
    HoldsNoClass (· ∈ workplaces start w (jobs start outputDir requests)) := by
  intro place name hplace hlast hclass
  obtain ⟨name', hlast', hending⟩ := exists_name_of_mem_workplaces hsound hundisturbed.token hplace
  obtain rfl := Option.some.inj (hlast.symm.trans hlast')
  -- The endings of classes are longer, so they would have to end in one of the others.
  obtain hending | hending := hending
  · exact absurd (List.suffix_of_suffix_length_le hending hclass (by decide)) (by decide)
  · exact absurd (List.suffix_of_suffix_length_le hending hclass (by decide)) (by decide)

end Places

end Batch

end ApiSurface
