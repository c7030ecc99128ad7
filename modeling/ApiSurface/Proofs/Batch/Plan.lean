import ApiSurface.Proofs.Scan.Answers
import ApiSurface.Proofs.Storage.Replacement
import ApiSurface.Scan.Batch

/-!
The plan of a batch: which request has which path for its report.

Paths are given away in the order of the requests, so a request goes without one exactly when an earlier
request asks for the same. The report of a request stands under a name that ends in `.txt`, or its path
ends in `..` and leads to a folder.
-/

namespace ApiSurface

open FileSystem

/-! ## Names of reports -/

/-- What the names of reports end in. -/
def reportEnding : Bytes := (".txt" : OsString).toList

theorem Path.mem_toList_of_stem {name : OsString} {c : UInt8} (h : c ∈ (stem name).toList) :
    c ∈ name.toList := by
  unfold stem at h
  split at h
  · exact h
  · exact h
  · rename_i first front _ hdrop
    have hfront : c ∈ front := by simpa using h
    have hsub := (List.dropWhile_sublist (· ≠ OsString.dot) (l := name.toList.reverse)).subset
    rw [hdrop] at hsub
    exact List.mem_reverse.1 (hsub (List.mem_cons_of_mem _ hfront))

namespace Batch

/-- A name that a report can have. -/
structure IsReportName (name : OsString) : Prop where
  isPart : IsPart name
  ending : name = ".." ∨ reportEnding <:+ name.toList

theorem IsReportName.ne_here {name : OsString} (h : IsReportName name) : name ≠ "." := by
  rintro rfl
  obtain heq | hsuffix := h.ending
  · exact absurd heq (by decide)
  · exact absurd hsuffix (by decide)

theorem isReportName_withExtension {name : OsString} (h : IsPart name) :
    IsReportName (Path.withExtension "txt" name) := by
  unfold Path.withExtension
  split
  · exact ⟨⟨by decide, by decide⟩, .inl rfl⟩
  · refine ⟨⟨?_, ?_⟩, .inr ?_⟩
    · intro hempty
      have hbytes := congrArg OsString.toList hempty
      simp at hbytes
    · simp only [OsString.toList_append, List.mem_append, not_or]
      exact ⟨⟨fun hmem => h.2 (Path.mem_toList_of_stem hmem), by decide⟩, by decide⟩
    · rw [OsString.toList_append, OsString.toList_append, List.append_assoc]
      exact List.suffix_append _ _

theorem isReportName_append {name : OsString} (h : IsPart name) :
    IsReportName (name ++ (".txt" : OsString)) := by
  refine ⟨⟨?_, ?_⟩, .inr ?_⟩
  · intro hempty
    have hbytes := congrArg OsString.toList hempty
    simp at hbytes
  · simp only [OsString.toList_append, List.mem_append, not_or]
    exact ⟨h.2, by decide⟩
  · rw [OsString.toList_append]
    exact List.suffix_append _ _

/-- The name of a place is that of a child. -/
theorem isName_of_placeName? {fs : FileSystem} {path : Path} {name : OsString} (h : fs.isSound)
    (hname : fs.placeName? path = some name) : Node.isName name := by
  unfold placeName? at hname
  split at hname
  · rename_i place node hlocate
    have hget : fs.get? place = some node :=
      (isFound_of_locate (isSound_iff.1 h).2 hlocate).get?
    obtain ⟨folder, rfl⟩ := List.getLast?_eq_some_iff.1 hname
    rw [get?, Node.get?_snoc] at hget
    obtain ⟨parent, hparent, hchild⟩ := Option.bind_eq_some_iff.1 hget
    have hsound := Node.isSound_get? (isSound_iff.1 h).1 hparent
    exact (Node.isSound_child hsound hchild).1
  · cases hname

/-- The name that a report is named after. -/
theorem isName_of_base {fs : FileSystem} {artifact : Path} {base : OsString} (h : fs.isSound)
    (hbase : artifact.fileName?.or (fs.placeName? artifact) = some base) : Node.isName base := by
  obtain hfile | ⟨-, hplace⟩ := Option.or_eq_some_iff.1 hbase
  · exact Path.isName_of_fileName? hfile
  · exact isName_of_placeName? h hplace

theorem isReportName_of_reportName? {fs : FileSystem} {artifact : Path} {name : OsString} (h : fs.isSound)
    (hname : reportName? fs artifact = some name) : IsReportName name := by
  unfold reportName? at hname
  obtain ⟨base, hbase, rfl⟩ := Option.map_eq_some_iff.1 hname
  have hpart : IsPart base := (Node.isName_iff.1 (isName_of_base h hbase)).1
  split
  · exact isReportName_append hpart
  · exact isReportName_withExtension hpart

/-- A path of a report: a name in the folder for reports. -/
theorem exists_reportName {fs : FileSystem} {outputDir artifact path : Path} (h : fs.isSound)
    (hpath : reportPath fs outputDir artifact = .ok path) :
    ∃ name, path = outputDir.join ⟨name⟩ ∧ IsReportName name := by
  unfold reportPath at hpath
  cases hname : reportName? fs artifact with
  | none =>
    rw [hname] at hpath
    cases hpath
  | some name =>
    rw [hname] at hpath
    exact ⟨name, (Except.ok.inj hpath).symm, isReportName_of_reportName? h hname⟩

/-! ### Temporary files -/

def temporaryEnding : Bytes := (".tmp" : OsString).toList

/-- A name that a temporary file can have. -/
structure IsTemporaryName (name : OsString) : Prop where
  isPart : IsPart name
  ending : temporaryEnding <:+ name.toList

theorem IsTemporaryName.ne_of_short {name : OsString} (h : IsTemporaryName name) {other : OsString}
    (hother : other.toList.length < 4) : name ≠ other := by
  rintro rfl
  have hlength : 4 ≤ name.toList.length := h.ending.length_le
  omega

theorem isTemporaryName {token : String} (h : '/' ∉ token.toList) (path : Path) :
    IsTemporaryName (.ofText ("." ++ (path.fileName?.map (·.shown)).getD "report" ++ "." ++ token ++ ".tmp")) := by
  refine ⟨⟨?_, ?_⟩, ?_⟩
  · intro hempty
    have hchars := congrArg String.toList (OsString.ofText_inj.1 hempty)
    simp at hchars
  · have hname : '/' ∉ ((path.fileName?.map (·.shown)).getD "report").toList := by
      cases hfile : path.fileName? with
      | none => decide
      | some name =>
        exact fun hslash => (Node.isName_iff.1 (Path.isName_of_fileName? hfile)).1.2
          (OsString.slash_mem_of_shown hslash)
    simp only [OsString.slash_mem_ofText_iff, String.toList_append, List.mem_append, not_or]
    exact ⟨⟨⟨⟨by decide, hname⟩, by decide⟩, h⟩, by decide⟩
  · rw [OsString.ofText_append]
    exact List.suffix_append _ _

theorem exists_temporaryName {token : String} (h : '/' ∉ token.toList) (path : Path) :
    ∃ folder name, Replacement.temporary token path = Path.join folder ⟨name⟩ ∧ IsTemporaryName name :=
  ⟨Replacement.folderOf path, _, rfl, isTemporaryName h path⟩

/-! ## Where reports and temporary files stand -/

section Places

variable {start : FileSystem} {folder : Path} {name : OsString} {place : Location}

/-- A path that ends in a name leads to a child of that name. -/
theorem getLast?_of_leadsTo (hpart : IsPart name) (hhere : name ≠ ".") (hup : name ≠ "..")
    (h : start.LeadsTo (folder.join ⟨name⟩) place) : place.getLast? = some name := by
  obtain ⟨t, ht, rfl⟩ := h
  exact getLast?_of_locate hhere hup (getLast?_segmentsOf_join folder hpart) ht

/-- A report that is to stand where no folder does has the name that its path gives it. -/
theorem IsReportName.getLast? (h : IsReportName name) (hsound : start.isSound)
    (hplace : start.LeadsTo (folder.join ⟨name⟩) place) (hfolder : ¬ start.IsFolderAt place) :
    place.getLast? = some name ∧ reportEnding <:+ name.toList := by
  obtain rfl | hending := h.ending
  · obtain ⟨t, ht, rfl⟩ := hplace
    have hcurrent := (isSound_iff.1 hsound).2
    obtain ⟨node, hnode, hnodeFolder⟩ :=
      isFolder_of_locate hcurrent (getLast?_segmentsOf_join folder h.isPart) ht
    exact absurd ⟨node, (isFound_of_locate hcurrent ht).get?.trans hnode, hnodeFolder⟩ hfolder
  · refine ⟨getLast?_of_leadsTo h.isPart h.ne_here ?_ hplace, hending⟩
    rintro rfl
    exact absurd hending (by decide)

theorem IsTemporaryName.getLast? (h : IsTemporaryName name)
    (hplace : start.LeadsTo (folder.join ⟨name⟩) place) : place.getLast? = some name :=
  getLast?_of_leadsTo h.isPart (h.ne_of_short (by decide)) (h.ne_of_short (by decide)) hplace

end Places

/-- No text has two endings of one length. -/
theorem not_both_endings {name : OsString} (hreport : reportEnding <:+ name.toList)
    (htemporary : temporaryEnding <:+ name.toList) : False := by
  have heq : reportEnding = temporaryEnding :=
    (List.suffix_of_suffix_length_le hreport htemporary (by decide)).eq_of_length (by decide)
  exact absurd heq (by decide)

/-- So no report has the place of a temporary file. -/
theorem IsReportName.not_temporary {start : FileSystem} {folder folder' : Path} {name name' : OsString}
    {place : Location} (h : IsReportName name) (h' : IsTemporaryName name') (hsound : start.isSound)
    (hno : ¬ start.IsFolderAt place) (hplace : start.LeadsTo (folder.join ⟨name⟩) place)
    (hplace' : start.LeadsTo (folder'.join ⟨name'⟩) place) : False := by
  obtain ⟨hlast, hending⟩ := h.getLast? hsound hplace hno
  obtain rfl := Option.some.inj (hlast.symm.trans (h'.getLast? hplace'))
  exact not_both_endings hending h'.ending

/-! ## The plan -/

/-- The jobs for requests, where the paths `claimed` are given away already. -/
def plan (fs : FileSystem) (outputDir : Path) : List Path → List ScanRequest → List Job
  | _, [] => []
  | claimed, r :: rest =>
    let job := jobOf fs outputDir claimed r
    job :: plan fs outputDir (job.claim?.toList ++ claimed) rest

section Plan

variable {fs : FileSystem} {outputDir : Path} {claimed : List Path} {requests : List ScanRequest}

@[simp] theorem length_plan (claimed : List Path) (requests : List ScanRequest) :
    (plan fs outputDir claimed requests).length = requests.length := by
  induction requests generalizing claimed with
  | nil => rfl
  | cons r rest ih => simp [plan, ih]

/-- An earlier request asks for the path. -/
def AskedBefore (fs : FileSystem) (outputDir : Path) (requests : List ScanRequest) (i : Nat) (path : Path) :
    Prop :=
  ∃ j r, j < i ∧ requests[j]? = some r ∧ reportPath fs outputDir r.artifact = .ok path

theorem askedBefore_cons {first : ScanRequest} {i : Nat} {path : Path} :
    AskedBefore fs outputDir (first :: requests) (i + 1) path ↔
      reportPath fs outputDir first.artifact = .ok path ∨ AskedBefore fs outputDir requests i path := by
  constructor
  · rintro ⟨j, r, hj, hr, hpath⟩
    cases j with
    | zero =>
      obtain rfl := Option.some.inj hr
      exact .inl hpath
    | succ j => exact .inr ⟨j, r, Nat.lt_of_succ_lt_succ hj, hr, hpath⟩
  · rintro (hpath | ⟨j, r, hj, hr, hpath⟩)
    · exact ⟨0, first, Nat.succ_pos i, rfl, hpath⟩
    · exact ⟨j + 1, r, Nat.succ_lt_succ hj, hr, hpath⟩

/-- What is given away behind a request: also the path that it asks for, whether it gets it or not. -/
theorem mem_claimed {first : ScanRequest} {path : Path} :
    path ∈ (jobOf fs outputDir claimed first).claim?.toList ++ claimed ↔
      path ∈ claimed ∨ reportPath fs outputDir first.artifact = .ok path := by
  unfold jobOf
  cases hreport : reportPath fs outputDir first.artifact with
  | error e => simp [Job.claim?]
  | ok own =>
    by_cases hclaimed : own ∈ claimed
    · simp only [List.contains_eq_mem, hclaimed, decide_true, if_true, Job.claim?, Option.toList_none,
        List.nil_append, Except.ok.injEq]
      constructor
      · exact .inl
      · rintro (h | rfl)
        · exact h
        · exact hclaimed
    · simp [hclaimed, Job.claim?, or_comm, eq_comm]

/-- A request has its path unless that is given away or an earlier request asks for it. -/
theorem getElem?_plan {i : Nat} {r : ScanRequest} (h : requests[i]? = some r) :
    (∀ e, reportPath fs outputDir r.artifact = .error e →
      (plan fs outputDir claimed requests)[i]? = some (.skip r.artifact e)) ∧
    (∀ path, reportPath fs outputDir r.artifact = .ok path →
      (path ∈ claimed ∨ AskedBefore fs outputDir requests i path →
        (plan fs outputDir claimed requests)[i]? = some (.skip r.artifact (.outputCollision path.shown))) ∧
      (¬ (path ∈ claimed ∨ AskedBefore fs outputDir requests i path) →
        (plan fs outputDir claimed requests)[i]? = some (.scan r path))) := by
  induction requests generalizing claimed i with
  | nil => cases h
  | cons first rest ih =>
    cases i with
    | zero =>
      obtain rfl := Option.some.inj h
      have hnobody : ∀ path, ¬ AskedBefore fs outputDir (first :: rest) 0 path :=
        fun _ ⟨_, _, hj, _⟩ => Nat.not_lt_zero _ hj
      show (∀ e, _ → some (jobOf fs outputDir claimed first) = _) ∧
        ∀ path, _ → (_ → some (jobOf fs outputDir claimed first) = _) ∧
          (_ → some (jobOf fs outputDir claimed first) = _)
      unfold jobOf
      constructor
      · intro e he
        rw [he]
      · intro path hpath
        rw [hpath]
        constructor
        · intro hgiven
          have hmem : path ∈ claimed := hgiven.resolve_right (hnobody path)
          simp [hmem]
        · intro hfree
          have hmem : path ∉ claimed := fun hmem => hfree (.inl hmem)
          simp [hmem]
    | succ i =>
      obtain ⟨herror, hok⟩ := @ih ((jobOf fs outputDir claimed first).claim?.toList ++ claimed) i h
      refine ⟨herror, fun path hpath => ?_⟩
      rw [askedBefore_cons, ← or_assoc, ← mem_claimed]
      exact hok path hpath

/-- A request that is to be scanned asks for its path as the first one. -/
theorem of_plan_scan {i : Nat} {r : ScanRequest} {path : Path}
    (h : (plan fs outputDir claimed requests)[i]? = some (.scan r path)) :
    requests[i]? = some r ∧ reportPath fs outputDir r.artifact = .ok path ∧
      ¬ AskedBefore fs outputDir requests i path := by
  have hlt : i < requests.length := by
    rw [← length_plan claimed requests]
    exact (List.getElem?_eq_some_iff.1 h).1
  have hr : requests[i]? = some requests[i] := List.getElem?_eq_getElem hlt
  obtain ⟨herror, hok⟩ := @getElem?_plan fs outputDir claimed requests i _ hr
  cases hreport : reportPath fs outputDir requests[i].artifact with
  | error e =>
    rw [herror e hreport] at h
    cases h
  | ok own =>
    by_cases hgiven : own ∈ claimed ∨ AskedBefore fs outputDir requests i own
    · rw [(hok own hreport).1 hgiven] at h
      cases h
    · rw [(hok own hreport).2 hgiven] at h
      obtain ⟨rfl, rfl⟩ := Job.scan.inj (Option.some.inj h)
      exact ⟨hr, hreport, fun hasked => hgiven (.inr hasked)⟩

/-- No two requests have one path. -/
theorem plan_injective {i j : Nat} {r r' : ScanRequest} {path : Path}
    (hi : (plan fs outputDir claimed requests)[i]? = some (.scan r path))
    (hj : (plan fs outputDir claimed requests)[j]? = some (.scan r' path)) : i = j := by
  obtain ⟨hri, hpathi, hnoti⟩ := of_plan_scan hi
  obtain ⟨hrj, hpathj, hnotj⟩ := of_plan_scan hj
  obtain hlt | heq | hgt := Nat.lt_trichotomy i j
  · exact absurd ⟨i, r, hlt, hri, hpathi⟩ hnotj
  · exact heq
  · exact absurd ⟨j, r', hgt, hrj, hpathj⟩ hnoti

end Plan

/-! ## The plan while files change -/

section SeenAlike

variable {seen : Location → Prop} {start fs : FileSystem} {outputDir artifact : Path}

theorem isFolder_eq (h : SeenAlike seen start fs) (hseen : ∀ place, start.Meets artifact place → seen place) :
    fs.isFolder artifact = start.isFolder artifact := by
  rw [FileSystem.isFolder, FileSystem.isFolder]
  obtain ⟨e, hfs, hstart⟩ | ⟨node', node, hfs, hstart, hbare⟩ := cases_of_map_eq_map (h.stat_bare hseen)
  · rw [hfs, hstart]
  · rw [hfs, hstart]
    show node'.isFolder = node.isFolder
    rw [← Node.isFolder_bare, hbare, Node.isFolder_bare]

theorem placeName?_eq (h : SeenAlike seen start fs)
    (hseen : ∀ place, start.Meets artifact place → seen place) :
    fs.placeName? artifact = start.placeName? artifact := by
  rw [placeName?, placeName?]
  obtain ⟨e, hfs, hstart⟩ | ⟨t', t, hfs, hstart, hplace, hbare⟩ := h.locate_true_cases hseen
  · rw [hfs, hstart]
  · rw [hfs, hstart]
    cases t <;> cases t' <;> simp_all [Target.place, Target.node?]

theorem reportName?_eq (h : SeenAlike seen start fs)
    (hseen : ∀ place, start.Meets artifact place → seen place) :
    reportName? fs artifact = reportName? start artifact := by
  rw [reportName?, reportName?, placeName?_eq h hseen, isFolder_eq h hseen]

theorem jobOf_eq (h : SeenAlike seen start fs) {r : ScanRequest}
    (hseen : ∀ place, start.Meets r.artifact place → seen place) (claimed : List Path) :
    jobOf fs outputDir claimed r = jobOf start outputDir claimed r := by
  rw [jobOf, jobOf, reportPath, reportPath, reportName?_eq h hseen]

theorem plan_eq (h : SeenAlike seen start fs) {requests : List ScanRequest}
    (hseen : ∀ r ∈ requests, ∀ place, start.Meets r.artifact place → seen place) (claimed : List Path) :
    plan fs outputDir claimed requests = plan start outputDir claimed requests := by
  induction requests generalizing claimed with
  | nil => rfl
  | cons r rest ih =>
    rw [plan, plan, jobOf_eq h (hseen r List.mem_cons_self)]
    exact congrArg _ (ih (fun r' hr' => hseen r' (List.mem_cons_of_mem _ hr')) _)

end SeenAlike

end Batch

end ApiSurface
