import ApiSurface.Proofs.Batch.Frame
import ApiSurface.Proofs.Batch.Tokens

/-!
Batches into a folder with nothing in it.

The folder has been made behind the back of a batch that is done, and it is nowhere where that one looked.
So the same requests ask for reports of the same names, and the next batch does not get in its own way
either: it writes to children of the folder, and nobody looks at them.
-/

namespace ApiSurface

open FileSystem

namespace FileSystem

/-! ## More folders, not seen -/

section Grown

variable {seen : Location → Prop} {start fs fs' : FileSystem}

theorem SeenAlike.mono {seen' : Location → Prop} (h : SeenAlike seen start fs)
    (hle : ∀ place, seen' place → seen place) : SeenAlike seen' start fs :=
  ⟨h.start_sound, h.sound, h.current, fun place hplace => h.bare? place (hle place hplace), h.content⟩

theorem Grown.seenAlike (h : Grown fs fs') (hsound : fs.isSound)
    (hunseen : ∀ place, seen place → fs.get? place = none → fs'.get? place = none) :
    SeenAlike seen fs fs' where
  start_sound := hsound
  sound := h.sound
  current := h.current
  bare? place hplace := by
    by_cases hnone : fs.get? place = none
    · rw [bare?_of_none hnone, bare?_of_none (hunseen place hplace hnone)]
    · exact h.kept place hnone
  content id _ := by rw [content, content, h.contents]

end Grown

end FileSystem

/-- New folders are no files. -/
theorem FileSystem.Grown.sameClasses {fs fs' : FileSystem} (h : Grown fs fs') : SameClasses fs fs' := by
  intro place name id hlast hclass
  by_cases hnone : fs.get? place = none
  · refine iff_of_false (fun hfile => ?_) (by simp [hnone])
    obtain hnone' | ⟨node, hnode, hfolder⟩ := h.new place hnone
    · cases hnone'.symm.trans hfile
    · obtain rfl := Option.some.inj (hnode.symm.trans hfile)
      cases hfolder
  · rw [← bare?_eq_some_iff rfl, h.kept place hnone, bare?_eq_some_iff rfl]

namespace FileSystem

/-! ## Names of children -/

section Child

variable {fs : FileSystem} {folder : Path} {name other : OsString} {t : Target}

/-- Names behind one path tell its children apart. -/
theorem join_injective (hname : IsPart name) (hother : IsPart other)
    (h : folder.join ⟨name⟩ = folder.join ⟨other⟩) : name = other := by
  obtain ⟨front, -, hfront⟩ := folder.exists_text_join
  have htext := congrArg Path.text h
  rw [hfront name hname, hfront other hother] at htext
  have hbytes := congrArg OsString.toList htext
  rw [OsString.toList_append, OsString.toList_append] at hbytes
  exact OsString.toList_inj.1 (List.append_cancel_left hbytes)

theorem fileName?_join (folder : Path) (hname : Node.isName name) :
    (folder.join ⟨name⟩).fileName? = some name := by
  obtain ⟨hpart, hhere, hup⟩ := Node.isName_iff.1 hname
  rw [Path.fileName?, components_join folder hpart hhere, List.getLast?_concat, componentOf, if_neg hup]

/-- A child is reached by a name that is not too long. -/
theorem size_le_of_locate_join (h : fs.IsFolderAt fs.current) (hname : Node.isName name)
    (ht : fs.locate false (folder.join ⟨name⟩) = .ok t) : name.length ≤ maxNameBytes := by
  obtain ⟨hrefusal, -⟩ := locate_eq_ok.1 ht
  rw [locate_join h hname hrefusal] at ht
  cases hreach : fs.reach folder with
  | error e =>
    rw [hreach] at ht
    cases ht
  | ok found =>
    rw [hreach] at ht
    cases found with
    | absent goal last => cases ht
    | present goal node =>
      cases node with
      | folder children =>
        obtain ⟨htoo, -⟩ | ⟨hshort, -⟩ := @andThen_child fs goal name hname children
        · simp only [Except.bind, htoo] at ht
          cases ht
        · exact Nat.le_of_not_lt hshort
      | _ => cases ht

/-- What has a name in a folder, when the name is not too long. -/
theorem locate_join_of_reach (h : fs.IsFolderAt fs.current) (hname : Node.isName name)
    (hsize : name.length ≤ maxNameBytes) (hrefusal : refusal? (folder.join ⟨name⟩) = none)
    {place : Location} {children : List (OsString × Node)}
    (hreach : fs.reach folder = .ok (.present place (.folder children))) :
    ∃ t, fs.locate false (folder.join ⟨name⟩) = .ok t ∧ t.place = place ++ [name] ∧
      t.node? = fs.get? (place ++ [name]) := by
  rw [locate_join h hname hrefusal, hreach]
  obtain ⟨-, hlong⟩ | ⟨-, t, ht, hplace⟩ := @andThen_child fs place name hname children
  · exact absurd hsize (Nat.not_le.2 hlong)
  · refine ⟨t, ?_, hplace⟩
    simp only [Except.bind, ht]
    rfl

end Child

end FileSystem

namespace Batch

open Replacement (temporary fault? folderOf Holds)
open ApiSurface.Batch.Task (IsPlaceOf)

/-! ## Requests for reports of one name -/

section Names

variable {start made : FileSystem} {outputDir outputDir' : Path} {requests : List ScanRequest}
  {name : OsString} {i : Nat}

theorem reportPath_eq_ok {fs : FileSystem} {artifact path : Path} :
    reportPath fs outputDir artifact = .ok path ↔
      ∃ name, reportName? fs artifact = some name ∧ path = outputDir.join ⟨name⟩ := by
  unfold reportPath
  cases reportName? fs artifact <;> simp [eq_comm]

/-- An earlier request asks for the name, whatever the folder. -/
theorem askedBefore_join_iff {fs : FileSystem} (hsound : fs.isSound) (hname : IsPart name) :
    AskedBefore fs outputDir requests i (outputDir.join ⟨name⟩) ↔
      ∃ j r, j < i ∧ requests[j]? = some r ∧ reportName? fs r.artifact = some name := by
  unfold AskedBefore
  simp only [reportPath_eq_ok]
  constructor
  · rintro ⟨j, r, hj, hr, other, hother, heq⟩
    obtain rfl := join_injective hname (isReportName_of_reportName? hsound hother).isPart heq
    exact ⟨j, r, hj, hr, hother⟩
  · rintro ⟨j, r, hj, hr, hother⟩
    exact ⟨j, r, hj, hr, name, hother, rfl⟩

variable (hsound : start.isSound) (hsound' : made.isSound)
  (hnames : ∀ r ∈ requests, reportName? made r.artifact = reportName? start r.artifact)
include hsound hsound' hnames

theorem askedBefore_iff (hname : IsPart name) :
    AskedBefore made outputDir' requests i (outputDir'.join ⟨name⟩) ↔
      AskedBefore start outputDir requests i (outputDir.join ⟨name⟩) := by
  rw [askedBefore_join_iff hsound' hname, askedBefore_join_iff hsound hname]
  refine exists_congr fun j => exists_congr fun r => and_congr_right fun _ => and_congr_right fun hr => ?_
  rw [hnames r (List.mem_of_getElem? hr)]

/-- For each request there are jobs of one kind in both plans. -/
theorem jobs_cases {r : ScanRequest} (hr : requests[i]? = some r) :
    (∃ e, (jobs start outputDir requests)[i]? = some (.skip r.artifact e) ∧
        (jobs made outputDir' requests)[i]? = some (.skip r.artifact e)) ∨
      (∃ name, (jobs start outputDir requests)[i]? =
          some (.skip r.artifact (.outputCollision (outputDir.join ⟨name⟩).shown)) ∧
        (jobs made outputDir' requests)[i]? =
          some (.skip r.artifact (.outputCollision (outputDir'.join ⟨name⟩).shown))) ∨
      ∃ name, IsReportName name ∧
        (jobs start outputDir requests)[i]? = some (.scan r (outputDir.join ⟨name⟩)) ∧
        (jobs made outputDir' requests)[i]? = some (.scan r (outputDir'.join ⟨name⟩)) := by
  obtain ⟨herror, hok⟩ := @getElem?_plan start outputDir [] requests i r hr
  obtain ⟨herror', hok'⟩ := @getElem?_plan made outputDir' [] requests i r hr
  have hsame := hnames r (List.mem_of_getElem? hr)
  cases hname : reportName? start r.artifact with
  | none =>
    rw [hname] at hsame
    refine .inl ⟨_, herror _ ?_, herror' (.resolution r.artifact.shown .noReportName) ?_⟩
    · rw [reportPath, hname]
    · rw [reportPath, hsame]
  | some name =>
    rw [hname] at hsame
    have hisName := isReportName_of_reportName? hsound hname
    obtain ⟨hgiven, hfree⟩ := hok _ (reportPath_eq_ok.2 ⟨name, hname, rfl⟩)
    obtain ⟨hgiven', hfree'⟩ := hok' _ (reportPath_eq_ok.2 ⟨name, hsame, rfl⟩)
    have hiff := @askedBefore_iff start made outputDir outputDir' requests name i hsound hsound' hnames
      hisName.isPart
    by_cases hasked : AskedBefore start outputDir requests i (outputDir.join ⟨name⟩)
    · exact .inr (.inl ⟨name, hgiven (.inr hasked), hgiven' (.inr (hiff.2 hasked))⟩)
    · refine .inr (.inr ⟨name, hisName, hfree fun h => ?_, hfree' fun h => ?_⟩)
      · exact h.elim List.not_mem_nil hasked
      · exact h.elim List.not_mem_nil fun h => hasked (hiff.1 h)

end Names

/-! ## Fresh folders -/

/-- A folder has been made that is empty. Nobody who looks only at the places on the list sees anything new,
and nobody looks into the folder. -/
structure IsFreshFolder (before after : FileSystem) (outputDir : Path) (looked : List Location) : Prop where
  made : before.createFolders outputDir = (after, none)
  empty : after.stat outputDir = .ok (.folder [])
  unseen : ∀ place ∈ looked, before.get? place = none → after.get? place = none
  outside : ∀ place ∈ looked, place ≠ [] → after.placeOf? true outputDir ≠ some place.dropLast

section Seen

variable {w : Workshop} {start made files : FileSystem} {outputDir outputDir' : Path}
  {requests : List ScanRequest}

/-- Who looks only where the batch looked sees no difference between the files at its start and those with
the reports and a new folder. -/
theorem seenAlike_fresh (hundisturbed : IsUndisturbed w outputDir start requests)
    (hleaves : Leaves start (Gives w start (jobs start outputDir requests)) files)
    (hfresh : IsFreshFolder files made outputDir'
      (lookedAt start w (jobs start outputDir requests) requests)) :
    SeenAlike (· ∈ lookedAt start w (jobs start outputDir requests) requests) start made ∧
      SameClasses start made := by
  have hsound := hleaves.changed.start_sound
  have hmade : Grown files made :=
    (FoldersMade.of_createFolders hleaves.changed.sound hfresh.made).toGrown
  have hcold : ∀ place ∈ lookedAt start w (jobs start outputDir requests) requests,
      ¬ IsGivenPlace start (Gives w start (jobs start outputDir requests)) place :=
    fun place hlooked hgiven => hundisturbed.apart place hlooked (hleaves.mem_workplaces hgiven)
  have hclass : HoldsNoClass (IsGivenPlace start (Gives w start (jobs start outputDir requests))) :=
    fun place other hgiven => hundisturbed.holdsNoClass hsound place other (hleaves.mem_workplaces hgiven)
  exact ⟨(hleaves.changed.seenAlike.mono hcold).trans
      (hmade.seenAlike hleaves.changed.sound hfresh.unseen) hleaves.changed.size_le,
    (hleaves.changed.sameClasses hclass).trans hmade.sameClasses⟩

end Seen

/-! ## Children of an empty folder -/

section Child

variable {fs : FileSystem} {folder : Path} {place other : Location} {name : OsString}

/-- In a folder every name leads somewhere, or it is too long. -/
theorem locate_join_ne_notFound (h : fs.IsFolderAt fs.current) (hpart : IsPart name) (hhere : name ≠ ".")
    {children : List (OsString × Node)} (hreach : fs.reach folder = .ok (.present place (.folder children)))
    (hrefusal : refusal? (folder.join ⟨name⟩) = none) :
    fs.locate false (folder.join ⟨name⟩) ≠ .error (.os .notFound) := by
  by_cases hup : name = ".."
  · subst hup
    have hfolder : fs.IsFolderAt place :=
      ⟨_, (isFound_walkOn (isFound_start h folder.text) hreach).get?, rfl⟩
    obtain ⟨node, hnode, -⟩ := hfolder.dropLast
    have hends : ∀ place goal target rest, fs.walk false place [(".." : OsString)] ≠ .link goal target rest := by
      intro place goal target rest
      rw [walk_up, walk]
      cases fs.get? place.dropLast <;> simp
    rw [locate_join_of_ends h hpart hends hrefusal, hreach]
    simp [Except.bind, Target.andThen, walk, hnode, walkOn, Except.mapError]
  · have hname : Node.isName name := Node.isName_iff.2 ⟨hpart, hhere, hup⟩
    rw [locate_join h hname hrefusal, hreach]
    obtain ⟨hlong, -⟩ | ⟨-, t, ht, -⟩ := @andThen_child fs place name hname children
    · simp [Except.bind, hlong, Except.mapError]
    · simp [Except.bind, ht, Except.mapError]

theorem get?_of_mem_way_join (h : fs.IsFolderAt fs.current) (hpart : IsPart name) (hhere : name ≠ ".")
    {children : List (OsString × Node)} (hreach : fs.reach folder = .ok (.present place (.folder children)))
    (hway : other ∈ fs.way false (folder.join ⟨name⟩)) : fs.get? other ≠ none := by
  obtain ⟨hrefusal, hthere | hnothing⟩ := get?_of_mem_way h hway
  · exact hthere
  · exact absurd hnothing (locate_join_ne_notFound h hpart hhere hreach hrefusal)

/-- A name in an empty folder leads to a place at which nothing is. -/
theorem place_of_fresh (h : fs.IsFolderAt fs.current) (hname : Node.isName name)
    (hreach : fs.reach folder = .ok (.present place (.folder [])))
    (hleads : fs.LeadsTo (folder.join ⟨name⟩) other) : other = place ++ [name] ∧ fs.get? other = none := by
  have hget : fs.get? place = some (.folder []) :=
    (isFound_walkOn (isFound_start h folder.text) hreach).get?
  obtain ⟨t, ht, rfl⟩ := hleads
  obtain ⟨t', ht', hplace, -⟩ := locate_join_of_reach h hname (size_le_of_locate_join h hname ht)
    (locate_eq_ok.1 ht).1 hreach
  obtain rfl := Except.ok.inj (ht.symm.trans ht')
  refine ⟨hplace, ?_⟩
  rw [hplace, get?, Node.get?_snoc, show fs.root.get? place = some (.folder []) from hget]
  rfl

end Child

/-! ## Names of temporary files -/

section Temporary

variable {outputDir : Path} {name name' : OsString} {token token' : String}

/-- What the temporary file for a report is named after. -/
theorem fileName?_report (outputDir : Path) (hname : IsReportName name) :
    ((outputDir.join ⟨name⟩).fileName?.map (·.shown)).getD "report" =
      if name = ".." then "report" else name.shown := by
  rw [Path.fileName?, components_join outputDir hname.isPart hname.ne_here, List.getLast?_concat, componentOf]
  by_cases hup : name = ".."
  · rw [if_pos hup, if_pos hup]
    rfl
  · rw [if_neg hup, if_neg hup]
    rfl

/-- Names with tokens of one length behind them tell reports apart, if these are named by texts. -/
theorem IsReportName.eq_of_temporary (hname : IsReportName name) (hname' : IsReportName name')
    (htoken : IsToken token) (htoken' : IsToken token')
    (htexts : token = token' → name.text?.isSome ∧ name'.text?.isSome)
    (h : "." ++ (if name = ".." then "report" else name.shown) ++ "." ++ token ++ ".tmp" =
      "." ++ (if name' = ".." then "report" else name'.shown) ++ "." ++ token' ++ ".tmp") : name = name' := by
  have hreport : ∀ {other : String}, IsReportName other → other ≠ "report" := by
    rintro other hother rfl
    exact hother.ending.elim (by decide) (by decide)
  have hchars := congrArg String.toList h
  simp only [String.toList_append] at hchars
  have htokens : token.toList.length = token'.toList.length := by
    rw [String.length_toList, String.length_toList, htoken.1, htoken'.1]
  obtain ⟨hfront, -⟩ := List.append_inj' hchars rfl
  obtain ⟨hfront, hsame⟩ := List.append_inj' hfront htokens
  have hbase := String.toList_inj.1 (List.append_cancel_left (List.append_cancel_right hfront))
  obtain ⟨htext, htext'⟩ := htexts (String.toList_inj.1 hsame)
  obtain ⟨text, htext⟩ := Option.isSome_iff_exists.1 htext
  obtain ⟨text', htext'⟩ := Option.isSome_iff_exists.1 htext'
  obtain rfl := OsString.text?_eq_some_iff.1 htext
  obtain rfl := OsString.text?_eq_some_iff.1 htext'
  rw [OsString.shown_ofText, OsString.shown_ofText] at hbase
  by_cases hup : (text : OsString) = ".." <;> by_cases hup' : (text' : OsString) = ".."
  · rw [hup, hup']
  · rw [if_pos hup, if_neg hup'] at hbase
    exact absurd hbase.symm (hreport hname')
  · rw [if_neg hup, if_pos hup'] at hbase
    exact absurd hbase (hreport hname)
  · rw [if_neg hup, if_neg hup'] at hbase
    rw [hbase]

end Temporary

/-- Two requests have different tokens for their temporary files, or the names of their reports are texts.
What is shown of other names need not tell them apart. -/
def AreToldApart (w : Workshop) (fs : FileSystem) (requests : List ScanRequest) : Prop :=
  ∀ i j r, i ≠ j → requests[i]? = some r → j < requests.length → w.token i = w.token j →
    ∀ name, reportName? fs r.artifact = some name → name.text?.isSome

section ToldApart

variable {w : Workshop} {fs made : FileSystem} {outputDir : Path} {requests : List ScanRequest}

theorem areToldApart_of_texts
    (h : ∀ r ∈ requests, ∀ name, reportName? fs r.artifact = some name → name.text?.isSome) :
    AreToldApart w fs requests :=
  fun _ _ r _ hr _ _ name hname => h r (List.mem_of_getElem? hr) name hname

theorem AreToldApart.congr (h : AreToldApart w fs requests)
    (hnames : ∀ r ∈ requests, reportName? made r.artifact = reportName? fs r.artifact) :
    AreToldApart w made requests :=
  fun i j r hne hr hj hsame name hname =>
    h i j r hne hr hj hsame name (hnames r (List.mem_of_getElem? hr) ▸ hname)

theorem AreToldApart.isSome_text? (h : AreToldApart w made requests) {i j : Nat} {r r' : ScanRequest}
    {name : OsString} {other : Path} (hne : i ≠ j)
    (hjob : (jobs made outputDir requests)[i]? = some (.scan r (outputDir.join ⟨name⟩)))
    (hjob' : (jobs made outputDir requests)[j]? = some (.scan r' other)) (hsame : w.token i = w.token j)
    (hsound : made.isSound) (hname : IsPart name) : name.text?.isSome := by
  obtain ⟨hr, hpath, -⟩ := of_plan_scan hjob
  obtain ⟨own, hown, heq⟩ := reportPath_eq_ok.1 hpath
  obtain rfl := join_injective hname (isReportName_of_reportName? hsound hown).isPart heq
  exact h i j r hne hr (List.getElem?_eq_some_iff.1 (of_plan_scan hjob').1).1 hsame name hown

end ToldApart

/-! ## Batches into a fresh folder -/

section Fresh

variable {w : Workshop} {made : FileSystem} {outputDir : Path} {requests : List ScanRequest} {i : Nat}
  {r : ScanRequest} {report : Path} {goal place : Location}

variable (hsound : made.isSound) (htoken : ∀ i, IsToken (w.token i))
  (hreach : made.reach outputDir = .ok (.present goal (.folder [])))
include hsound htoken hreach

/-- The temporary file of a report is to stand in the folder. -/
theorem temporary_of_fresh (hjob : (jobs made outputDir requests)[i]? = some (.scan r report)) :
    ∃ name, report = outputDir.join ⟨name⟩ ∧ IsReportName name ∧
      made.reach (folderOf report) = .ok (.present goal (.folder [])) ∧
      ∀ place, made.LeadsTo (temporary (w.token i) report) place →
        place = goal ++
            [.ofText ("." ++ (if name = ".." then "report" else name.shown) ++ "." ++ w.token i ++ ".tmp")] ∧
          made.get? place = none := by
  obtain ⟨name, rfl, hname⟩ := exists_reportName hsound (of_plan_scan hjob).2.1
  have habove := reach_folderOf hname.isPart hname.ne_here hreach
  refine ⟨name, rfl, hname, habove, fun place hleads => ?_⟩
  have htemporary := (isTemporaryName (htoken i).noSlash (outputDir.join ⟨name⟩)).isName
  unfold temporary at hleads
  rw [fileName?_report outputDir hname] at htemporary hleads
  exact place_of_fresh (isSound_iff.1 hsound).2 htemporary habove hleads

/-- What the batch may change are children of the folder. -/
theorem eq_child_of_mem_workplaces (h : place ∈ workplaces made w (jobs made outputDir requests)) :
    place ≠ [] ∧ place.dropLast = goal ∧ made.get? place = none := by
  obtain ⟨i, job, hjob, report, hclaim, hno, hleads⟩ := mem_workplaces.1 h
  obtain ⟨r, rfl⟩ := eq_scan_of_claim? hclaim
  obtain ⟨name, rfl, hname, -, htemporary⟩ := temporary_of_fresh hsound htoken hreach hjob
  obtain htemp | hreport := hleads
  · obtain ⟨rfl, hnone⟩ := htemporary place htemp
    exact ⟨List.concat_ne_nil _ _, List.dropLast_concat, hnone⟩
  · have hisName : Node.isName name :=
      (hname.isOrdinary (hname.getLast? hsound hreport hno).2).isName
    obtain ⟨rfl, hnone⟩ := place_of_fresh (isSound_iff.1 hsound).2 hisName hreach hreport
    exact ⟨List.concat_ne_nil _ _, List.dropLast_concat, hnone⟩

/-- The ways to reports and temporary files are there. -/
theorem get?_of_mem_way_fresh (hjob : (jobs made outputDir requests)[i]? = some (.scan r report))
    (hway : place ∈ made.way false report ∨ place ∈ made.way false (temporary (w.token i) report)) :
    made.get? place ≠ none := by
  have hcurrent := (isSound_iff.1 hsound).2
  obtain ⟨name, rfl, hname, habove, -⟩ := temporary_of_fresh hsound htoken hreach hjob
  obtain hreport | htemp := hway
  · exact get?_of_mem_way_join hcurrent hname.isPart hname.ne_here hreach hreport
  · have htemporary := isTemporaryName (htoken i).noSlash (outputDir.join ⟨name⟩)
    exact get?_of_mem_way_join hcurrent htemporary.isPart (htemporary.ne_of_short (by decide)) habove htemp

theorem get?_of_mem_temporaryPlaces
    (h : place ∈ temporaryPlaces made w (jobs made outputDir requests)) : made.get? place = none := by
  obtain ⟨⟨job, i⟩, hmem, htemporary⟩ := List.mem_filterMap.1 h
  obtain ⟨report, hclaim, hleads⟩ := temporaryPlace?_eq_some_iff.1 htemporary
  obtain ⟨r, rfl⟩ := eq_scan_of_claim? hclaim
  obtain ⟨name, -, -, -, hplace⟩ :=
    temporary_of_fresh hsound htoken hreach (List.mem_zipIdx_iff_getElem?.1 hmem)
  exact (hplace place hleads).2

theorem nodup_temporaryPlaces (hapart : AreToldApart w made requests) : (temporaryPlaces made w (jobs made outputDir requests)).Nodup := by
  refine List.pairwise_filterMap.2 (List.pairwise_iff_getElem.2 fun a b ha hb hlt => ?_)
  intro first hfirst second hsecond heq
  subst heq
  rw [List.getElem_zipIdx, Nat.zero_add] at hfirst hsecond
  obtain ⟨report, hclaim, hleads⟩ := temporaryPlace?_eq_some_iff.1 hfirst
  obtain ⟨report', hclaim', hleads'⟩ := temporaryPlace?_eq_some_iff.1 hsecond
  rw [List.length_zipIdx] at ha hb
  obtain ⟨r, hr⟩ := eq_scan_of_claim? hclaim
  obtain ⟨r', hr'⟩ := eq_scan_of_claim? hclaim'
  have hjob := (List.getElem?_eq_getElem ha).trans (congrArg some hr)
  have hjob' := (List.getElem?_eq_getElem hb).trans (congrArg some hr')
  obtain ⟨name, rfl, hname, -, hplace⟩ := temporary_of_fresh hsound htoken hreach hjob
  obtain ⟨name', rfl, hname', -, hplace'⟩ := temporary_of_fresh hsound htoken hreach hjob'
  have hlast := (hplace _ hleads).1.symm.trans (hplace' _ hleads').1
  have htexts : w.token a = w.token b → name.text?.isSome ∧ name'.text?.isSome := fun hsame =>
    ⟨hapart.isSome_text? (Nat.ne_of_lt hlt) hjob hjob' hsame hsound hname.isPart,
      hapart.isSome_text? (Nat.ne_of_gt hlt) hjob' hjob hsame.symm hsound hname'.isPart⟩
  obtain rfl := hname.eq_of_temporary hname' (htoken a) (htoken b) htexts
    (OsString.ofText_injective (List.singleton_inj.1 (List.append_cancel_left hlast)))
  exact Nat.ne_of_lt hlt (plan_injective hjob hjob')

end Fresh

section Undisturbed

variable {w w' : Workshop} {start made files : FileSystem} {outputDir outputDir' : Path}
  {requests : List ScanRequest} {place : Location}

variable (hseen : SeenAlike (· ∈ lookedAt start w (jobs start outputDir requests) requests) start made)
include hseen

theorem met_artifact_fresh {r : ScanRequest} (hr : r ∈ requests) :
    made.met r.artifact = start.met r.artifact :=
  hseen.met_eq fun _ hmeets => List.mem_append_left _ (List.mem_flatMap.2 ⟨r, hr, meets_iff.1 hmeets⟩)

theorem reportName?_fresh {r : ScanRequest} (hr : r ∈ requests) :
    reportName? made r.artifact = reportName? start r.artifact :=
  reportName?_eq hseen fun _ hmeets =>
    List.mem_append_left _ (List.mem_flatMap.2 ⟨r, hr, meets_iff.1 hmeets⟩)

variable (hsettings : w.settings.ScansAlike w'.settings) (hclasses : SameClasses start made)
include hsettings hclasses

/-- A scan finds and asks the same. -/
theorem run_fresh {i : Nat} {r : ScanRequest} {report : Path}
    (hjob : (jobs start outputDir requests)[i]? = some (.scan r report)) :
    ApiSurface.scan made w'.settings r = ApiSurface.scan start w.settings r ∧
      (scanning w'.settings r).asked made = (scanning w.settings r).asked start := by
  rw [← run_scanning, ← run_scanning, scanning_congr hsettings]
  exact hseen.run_eq hclasses (fun q hq path hpath place hmeets =>
    mem_lookedAt_of_asked hjob hq hpath hmeets) (asksKnown_scanning hseen.start_sound _ r)

/-- The batch looks where the first one looked, or on the ways to its own reports. -/
theorem mem_lookedAt_fresh (h : place ∈ lookedAt made w' (jobs made outputDir' requests) requests) :
    place ∈ lookedAt start w (jobs start outputDir requests) requests ∨
      ∃ i r report, (jobs made outputDir' requests)[i]? = some (.scan r report) ∧
        (place ∈ made.way false report ∨ place ∈ made.way false (temporary (w'.token i) report)) := by
  obtain hartifact | hjob := List.mem_append.1 h
  · obtain ⟨r, hr, hmet⟩ := List.mem_flatMap.1 hartifact
    rw [met_artifact_fresh hseen hr] at hmet
    exact .inl (List.mem_append_left _ (List.mem_flatMap.2 ⟨r, hr, hmet⟩))
  obtain ⟨⟨job, i⟩, hmem, hlooked⟩ := List.mem_flatMap.1 hjob
  have hjob := List.mem_zipIdx_iff_getElem?.1 hmem
  cases job with
  | skip artifact e => cases hlooked
  | scan r report =>
    obtain hasks | htemp := List.mem_append.1 hlooked
    swap
    · exact .inr ⟨i, r, report, hjob, .inr htemp⟩
    obtain hasks | hreport := List.mem_append.1 hasks
    swap
    · exact .inr ⟨i, r, report, hjob, .inl hreport⟩
    have hstart : ∃ own, (jobs start outputDir requests)[i]? = some (.scan r own) := by
      obtain ⟨e, -, h'⟩ | ⟨name, -, h'⟩ | ⟨name, -, h, h'⟩ :=
        @jobs_cases start made outputDir outputDir' requests i hseen.start_sound hseen.sound
          (fun r hr => reportName?_fresh hseen hr) r (of_plan_scan hjob).1
      · cases hjob.symm.trans h'
      · cases hjob.symm.trans h'
      · exact ⟨_, h⟩
    obtain ⟨own, hown⟩ := hstart
    obtain ⟨path, hpath, hmet⟩ := List.mem_flatMap.1 hasks
    rw [(run_fresh hseen hsettings hclasses hown).2] at hpath
    obtain ⟨q, hq, hqpath⟩ := List.mem_filterMap.1 hpath
    have hlook : ∀ place, start.Meets path place →
        place ∈ lookedAt start w (jobs start outputDir requests) requests :=
      fun place hmeets => mem_lookedAt_of_asked hown hq hqpath hmeets
    rw [hseen.met_eq hlook] at hmet
    exact .inl (hlook place (meets_iff.2 hmet))

/-- Into a fresh folder, a batch does not get in its own way. -/
theorem isUndisturbed_fresh (htoken : ∀ i, IsToken (w'.token i)) (hapart : AreToldApart w' start requests)
    (hfresh : IsFreshFolder files made outputDir'
      (lookedAt start w (jobs start outputDir requests) requests)) :
    IsUndisturbed w' outputDir' made requests := by
  have hsound := hseen.sound
  obtain ⟨goal, hreach, hlocate⟩ := reach_of_stat (isSound_iff.1 hsound).2 hfresh.empty
  have hgoal : made.placeOf? true outputDir' = some goal := placeOf?_eq_some_iff.2 ⟨_, hlocate, rfl⟩
  constructor
  · intro place hlooked hwork
    obtain ⟨hne, rfl, hnone⟩ := eq_child_of_mem_workplaces hsound htoken hreach hwork
    obtain hstart | ⟨i, r, report, hjob, hway⟩ := mem_lookedAt_fresh hseen hsettings hclasses hlooked
    · exact hfresh.outside place hstart hne hgoal
    · exact get?_of_mem_way_fresh hsound htoken hreach hjob hway hnone
  · intro place hplace
    exact Option.isNone_iff_eq_none.2 (get?_of_mem_temporaryPlaces hsound htoken hreach hplace)
  · exact nodup_temporaryPlaces hsound htoken hreach
      (hapart.congr fun r hr => reportName?_fresh hseen hr)
  · exact fun i => (htoken i).noSlash

end Undisturbed

end Batch

end ApiSurface
