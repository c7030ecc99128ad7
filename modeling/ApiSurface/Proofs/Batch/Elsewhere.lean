import ApiSurface.Proofs.Batch.FreshFolder

/-!
The same batch into another folder.

Each request asks for a report of the same name, and gets it if it got it before; and what was written is
written again, unless the new path is too long.
-/

namespace ApiSurface

open FileSystem

namespace Batch

open Replacement (temporary fault? folderOf Holds)

/-! ## Replacements in an empty folder -/

section Fresh

variable {start fs : FileSystem} {outputDir folder : Path} {name : OsString} {token : String}

/-- A report that can be written has an ordinary name, and names in its folder are short enough for it and
for its temporary file. -/
theorem isName_of_fault? (hsound : start.isSound) (hname : IsReportName name) (htoken : IsToken token)
    (hfault : fault? start (temporary token (outputDir.join ⟨name⟩)) (outputDir.join ⟨name⟩) = none) :
    Node.isName name ∧ name.length ≤ maxNameBytes ∧
      (OsString.ofText ("." ++ name.shown ++ "." ++ token ++ ".tmp")).length ≤ maxNameBytes := by
  have hcurrent := (isSound_iff.1 hsound).2
  unfold fault? at hfault
  cases htemp : start.locate false (temporary token (outputDir.join ⟨name⟩)) with
  | error e =>
    rw [htemp] at hfault
    cases hfault
  | ok t =>
    rw [htemp] at hfault
    obtain ⟨place, hplace, hno⟩ := Replacement.exists_leadsTo_of_moveFault? hsound hfault
    have hisName : Node.isName name :=
      (hname.isOrdinary (hname.getLast? hsound hplace hno).2).isName
    obtain ⟨t', ht', -⟩ := hplace
    have htempName := isTemporaryName htoken.noSlash (outputDir.join ⟨name⟩)
    rw [temporary] at htemp
    rw [fileName?_join outputDir hisName] at htempName htemp
    exact ⟨hisName, size_le_of_locate_join hcurrent hisName ht',
      size_le_of_locate_join hcurrent htempName.isName htemp⟩

/-- In an empty folder a report can be written, as long as the paths are not too long. -/
theorem fault?_of_fresh (hsound : fs.isSound) (hempty : fs.stat folder = .ok (.folder []))
    (hname : Node.isName name) (hsize : name.length ≤ maxNameBytes) (htoken : IsToken token)
    (htempSize : (OsString.ofText ("." ++ name.shown ++ "." ++ token ++ ".tmp")).length ≤ maxNameBytes)
    (htempRefusal : refusal? (temporary token (folder.join ⟨name⟩)) = none)
    (hrefusal : refusal? (folder.join ⟨name⟩) = none) :
    fault? fs (temporary token (folder.join ⟨name⟩)) (folder.join ⟨name⟩) = none := by
  have hcurrent := (isSound_iff.1 hsound).2
  obtain ⟨hpart, hhere, -⟩ := Node.isName_iff.1 hname
  obtain ⟨place, hreach, -⟩ := reach_of_stat hcurrent hempty
  have htempName := isTemporaryName htoken.noSlash (folder.join ⟨name⟩)
  unfold temporary at htempRefusal ⊢
  dsimp only at htempRefusal ⊢
  rw [fileName?_join folder hname] at htempName htempRefusal ⊢
  obtain ⟨t, ht, -⟩ := locate_join_of_reach hcurrent htempName.isName htempSize htempRefusal
    (reach_folderOf hpart hhere hreach)
  obtain ⟨t', ht', hplace, hnode⟩ := locate_join_of_reach hcurrent hname hsize hrefusal hreach
  have hnone : fs.get? t'.place = none :=
    (place_of_fresh hcurrent hname hreach ⟨t', ht', rfl⟩).2
  unfold fault?
  rw [ht]
  dsimp only
  unfold moveFault?
  rw [ht']
  simp [hnode, ← hplace, hnone]

end Fresh

/-! ## Requests for reports of one name -/

/-- How the outcomes of a request in two folders go together. -/
inductive Corresponds (outputDir outputDir' : Path) (files files' : FileSystem) (w' : Workshop) (i : Nat) :
    Outcome → Outcome → Prop
  /-- There is no report on the artifact, wherever it would stand. -/
  | refused (artifact : Path) (e : ScanError) :
      Corresponds outputDir outputDir' files files' w' i (.skipped artifact e) (.skipped artifact e)
  /-- An earlier request asks for the name. -/
  | collided (artifact : Path) (name : OsString) :
      Corresponds outputDir outputDir' files files' w' i
        (.skipped artifact (.outputCollision (outputDir.join ⟨name⟩).shown))
        (.skipped artifact (.outputCollision (outputDir'.join ⟨name⟩).shown))
  /-- The same report is written under the same name. -/
  | written (artifact : Path) (name : OsString) (types members : Nat) {text : Bytes}
      (hread : files.readFile (outputDir.join ⟨name⟩) = .ok text)
      (hread' : files'.readFile (outputDir'.join ⟨name⟩) = .ok text) :
      Corresponds outputDir outputDir' files files' w' i
        (.written artifact (outputDir.join ⟨name⟩) types members)
        (.written artifact (outputDir'.join ⟨name⟩) types members)
  /-- The new path cannot be followed: it is too long. -/
  | tooLong (artifact : Path) (name : OsString) (types members : Nat) (e : IoError)
      (hlong : refusal? (temporary (w'.token i) (outputDir'.join ⟨name⟩)) ≠ none ∨
        refusal? (outputDir'.join ⟨name⟩) ≠ none) :
      Corresponds outputDir outputDir' files files' w' i
        (.written artifact (outputDir.join ⟨name⟩) types members)
        (.skipped artifact (.write (outputDir'.join ⟨name⟩).shown e))
  /-- The first folder did not take the report. The other one may. -/
  | unwritten (artifact : Path) (name : OsString) (e : IoError) {outcome : Outcome}
      (houtcome : (∃ e', outcome = .skipped artifact (.write (outputDir'.join ⟨name⟩).shown e')) ∨
        ∃ types members, outcome = .written artifact (outputDir'.join ⟨name⟩) types members) :
      Corresponds outputDir outputDir' files files' w' i
        (.skipped artifact (.write (outputDir.join ⟨name⟩).shown e)) outcome

/-! ## Batches -/

section Batch

variable {w w' : Workshop} {start made files files' : FileSystem} {outputDir outputDir' : Path}
  {requests : List ScanRequest} {r : ScanRequest} {i : Nat} {name : OsString}

variable (hsettings : w.settings.ScansAlike w'.settings) (htoken : ∀ i, IsToken (w.token i))
  (htoken' : ∀ i, IsToken (w'.token i))
  (hseen : SeenAlike (· ∈ lookedAt start w (jobs start outputDir requests) requests) start made)
  (hclasses : SameClasses start made) (hempty : made.stat outputDir' = .ok (.folder []))
  (hundisturbed : IsUndisturbed w outputDir start requests)
  (hundisturbed' : IsUndisturbed w' outputDir' made requests)
  (hleaves : Leaves start (Gives w start (jobs start outputDir requests)) files)
  (hleaves' : Leaves made (Gives w' made (jobs made outputDir' requests)) files')
include hsettings htoken htoken' hseen hclasses hempty hundisturbed hundisturbed' hleaves hleaves'

/-- A report that is made for both folders. -/
theorem corresponds_fate (hname : IsReportName name)
    (hjob : (jobs start outputDir requests)[i]? = some (.scan r (outputDir.join ⟨name⟩)))
    (hjob' : (jobs made outputDir' requests)[i]? = some (.scan r (outputDir'.join ⟨name⟩))) :
    Corresponds outputDir outputDir' files files' w' i (fate w start i r (outputDir.join ⟨name⟩)).1
      (fate w' made i r (outputDir'.join ⟨name⟩)).1 := by
  have hsound := hseen.start_sound
  have hscan := (run_fresh hseen hsettings hclasses hjob).1
  cases hfound : ApiSurface.scan start w.settings r with
  | error e =>
    simp only [fate, hscan, hfound]
    exact .refused r.artifact e
  | ok found =>
    cases hfault : fault? start (temporary (w.token i) (outputDir.join ⟨name⟩)) (outputDir.join ⟨name⟩) with
    | some e =>
      simp only [fate, hscan, hfound, hfault]
      refine .unwritten r.artifact name e ?_
      cases fault? made (temporary (w'.token i) (outputDir'.join ⟨name⟩)) (outputDir'.join ⟨name⟩) with
      | some e' => exact .inl ⟨e', rfl⟩
      | none => exact .inr ⟨_, _, rfl⟩
    | none =>
      cases hfault' : fault? made (temporary (w'.token i) (outputDir'.join ⟨name⟩))
          (outputDir'.join ⟨name⟩) with
      | some e =>
        simp only [fate, hscan, hfound, hfault, hfault']
        refine .tooLong r.artifact name _ _ e ?_
        by_contra! hshort
        obtain ⟨hisName, hsize, htempSize⟩ := isName_of_fault? hsound hname (htoken i) hfault
        have hnone := fault?_of_fresh hseen.sound hempty hisName hsize (htoken' i)
          (by simpa only [OsString.ofText_append, OsString.length_append, (htoken i).length_ofText,
            (htoken' i).length_ofText] using htempSize) hshort.1 hshort.2
        cases hnone.symm.trans hfault'
      | none =>
        have hgiven : Gives w start (jobs start outputDir requests) (outputDir.join ⟨name⟩)
            (Bytes.ofText found.text) := ⟨i, r, hjob, by simp only [fate, hfound, hfault]⟩
        have hgiven' : Gives w' made (jobs made outputDir' requests) (outputDir'.join ⟨name⟩)
            (Bytes.ofText found.text) := ⟨i, r, hjob', by simp only [fate, hscan, hfound, hfault']⟩
        simp only [fate, hscan, hfound, hfault, hfault']
        exact .written r.artifact name _ _
          (hleaves.readFile hgiven fun place hway hplace =>
            hundisturbed.way hjob (.inl hway) (hleaves.mem_workplaces hplace))
          (hleaves'.readFile hgiven' fun place hway hplace =>
            hundisturbed'.way hjob' (.inl hway) (hleaves'.mem_workplaces hplace))

/-- What comes of the requests in both folders goes together, one by one. -/
theorem corresponds_outcomes {outcome outcome' : Outcome}
    (houtcome : ((jobs start outputDir requests).mapIdx (outcomeOf w start))[i]? = some outcome)
    (houtcome' : ((jobs made outputDir' requests).mapIdx (outcomeOf w' made))[i]? = some outcome') :
    Corresponds outputDir outputDir' files files' w' i outcome outcome' := by
  rw [List.getElem?_mapIdx] at houtcome houtcome'
  obtain ⟨job, hjob, rfl⟩ := Option.map_eq_some_iff.1 houtcome
  obtain ⟨job', hjob', rfl⟩ := Option.map_eq_some_iff.1 houtcome'
  obtain ⟨hlt, -⟩ := List.getElem?_eq_some_iff.1 hjob
  rw [length_plan] at hlt
  obtain ⟨e, h, h'⟩ | ⟨name, h, h'⟩ | ⟨name, hname, h, h'⟩ :=
    @jobs_cases start made outputDir outputDir' requests i hseen.start_sound hseen.sound
      (fun r hr => reportName?_fresh hseen hr) _
      (List.getElem?_eq_getElem hlt)
  · obtain rfl := Option.some.inj (hjob.symm.trans h)
    obtain rfl := Option.some.inj (hjob'.symm.trans h')
    exact .refused _ e
  · obtain rfl := Option.some.inj (hjob.symm.trans h)
    obtain rfl := Option.some.inj (hjob'.symm.trans h')
    exact .collided _ name
  · obtain rfl := Option.some.inj (hjob.symm.trans h)
    obtain rfl := Option.some.inj (hjob'.symm.trans h')
    exact corresponds_fate hsettings htoken htoken' hseen hclasses hempty hundisturbed hundisturbed' hleaves
      hleaves' hname h h'

end Batch

end Batch

end ApiSurface
