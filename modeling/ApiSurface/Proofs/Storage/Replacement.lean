import ApiSurface.Proofs.Storage.Effects
import ApiSurface.Storage.Replacement

/-!
One replacement of a file, while other files are replaced too.

The temporary file is a new one at a place that nobody else has, and the file to be replaced is nobody
else's either. Then each step has the answer that it would have if nothing else happened: it hangs on
how the files stood at the start.
-/

namespace ApiSurface

namespace FileSystem

/-! ## Single steps -/

section Step

variable {fs : FileSystem} {path source goal : Path} {t t' : Target} {id : FileId}

theorem node?_eq_none_iff : t.node? = none ↔ ∃ folder name, t = .absent folder name := by
  cases t <;> simp [Target.node?]

theorem node?_eq_some_iff {node : Node} : t.node? = some node ↔ t = .present t.place node := by
  cases t <;> simp [Target.node?, Target.place]

/-- Where there is no link at the end, it does not matter whether one would be followed. -/
theorem locate_true (h : fs.locate false path = .ok t) (hnode : ∀ target, t.node? ≠ some (.link target)) :
    fs.locate true path = .ok t := by
  rw [locate_follow, h]
  intro t' target ht'
  obtain rfl := Except.ok.inj (h.symm.trans ht')
  exact hnode target

theorem locate_true_of_error {e : IoError} (h : fs.locate false path = .error e) :
    fs.locate true path = .error e := by
  rw [locate_follow, h]
  intro t target ht
  rw [h] at ht
  cases ht

theorem createFile_of_error {e : IoError} (h : fs.locate false path = .error e) :
    fs.createFile path = .error e := by
  rw [createFile, locate_true_of_error h]
  rfl

theorem createFile_of_absent (h : fs.locate false path = .ok t) (hnone : t.node? = none) :
    fs.createFile path = .ok (fs.setNewFile t.place .empty) := by
  rw [createFile, locate_true h (by simp [hnone])]
  obtain ⟨folder, name, rfl⟩ := node?_eq_none_iff.1 hnone
  rfl

theorem appendFile_of_file (h : fs.locate false path = .ok t) (hfile : t.node? = some (.file id))
    (bytes : Bytes) :
    fs.appendFile path bytes = .ok (fs.setContent id (fs.content id ++ bytes.toByteArray)) := by
  rw [appendFile, locate_true h (by simp [hfile]), node?_eq_some_iff.1 hfile]
  rfl

theorem removeFile_of_file (h : fs.locate false path = .ok t) (hfile : t.node? = some (.file id)) :
    fs.removeFile path = .ok (fs.set t.place none) := by
  rw [removeFile, h, node?_eq_some_iff.1 hfile]
  rfl

theorem removeFile_of_error {e : IoError} (h : fs.locate false path = .error e) :
    fs.removeFile path = .error e := by
  rw [removeFile, h]
  rfl

theorem removeFile_of_absent (h : fs.locate false path = .ok t) (hnone : t.node? = none) :
    fs.removeFile path = .error (.os .notFound) := by
  rw [removeFile, h]
  obtain ⟨folder, name, rfl⟩ := node?_eq_none_iff.1 hnone
  rfl

/-- Why nothing can be moved to a path, as far as the path is the reason. -/
def moveFault? (fs : FileSystem) (goal : Path) : Option IoError :=
  match fs.locate false goal with
  | .error e => some e
  | .ok t =>
    if t.node?.any (·.isFolder) then some (.os (if endsInDots goal then .busy else .isFolder)) else none

theorem moveFile_of_fault {e : IoError} (h : fs.locate false source = .ok t)
    (hfile : t.node? = some (.file id)) (hfault : fs.moveFault? goal = some e) :
    fs.moveFile source goal = .error e := by
  rw [moveFile, h, node?_eq_some_iff.1 hfile]
  unfold moveFault? at hfault
  cases hgoal : fs.locate false goal with
  | error e' =>
    rw [hgoal] at hfault
    obtain rfl := Option.some.inj hfault
    simp only [bind, Except.bind]
  | ok t' =>
    rw [hgoal] at hfault
    simp only [bind, Except.bind]
    cases t' with
    | absent folder name => cases hfault
    | present place node =>
      cases node with
      | folder children =>
        obtain rfl := Option.some.inj hfault
        rfl
      | _ => cases hfault

theorem moveFile_of_file (h : fs.locate false source = .ok t) (hfile : t.node? = some (.file id))
    (h' : fs.locate false goal = .ok t') (hgoal : fs.moveFault? goal = none) :
    fs.moveFile source goal = .ok ((fs.set t.place none).set t'.place (some (.file id))) := by
  rw [moveFile, h, node?_eq_some_iff.1 hfile]
  unfold moveFault? at hgoal
  rw [h'] at hgoal
  simp only [bind, Except.bind, h']
  cases t' with
  | absent folder name => rfl
  | present place node =>
    cases node with
    | folder children => cases hgoal
    | _ => rfl

end Step

/-! ## Where paths lead while files change -/

/-- What stands at the end of a path, or would stand there, is at that place. A link at the end is not
followed. -/
def LeadsTo (fs : FileSystem) (path : Path) (place : Location) : Prop :=
  ∃ t, fs.locate false path = .ok t ∧ t.place = place

theorem LeadsTo.unique {fs : FileSystem} {path : Path} {place other : Location}
    (h : fs.LeadsTo path place) (h' : fs.LeadsTo path other) : place = other := by
  obtain ⟨t, ht, rfl⟩ := h
  obtain ⟨t', ht', rfl⟩ := h'
  rw [ht] at ht'
  rw [Except.ok.inj ht']

/-- A place that a path leads to is one in a folder, unless a folder stands there itself. -/
theorem LeadsTo.hasFolder {fs : FileSystem} {path : Path} {place : Location} (h : fs.LeadsTo path place)
    (hsound : fs.isSound) (hplace : ¬ fs.IsFolderAt place) : fs.HasFolder place := by
  obtain ⟨t, ht, rfl⟩ := h
  have hfound := isFound_of_locate (isSound_iff.1 hsound).2 ht
  refine hfound.hasFolder fun node hnode => Bool.eq_false_iff.2 fun hfolder => ?_
  exact hplace ⟨node, hfound.get?.trans hnode, hfolder⟩

/-- The way to a path is clear of hot places, and so is its end where that is a folder. -/
structure IsClear (hot : Location → Prop) (start : FileSystem) (path : Path) : Prop where
  way : ∀ place ∈ start.way false path, ¬ hot place
  hot : ∀ place, start.LeadsTo path place → ¬ start.IsFolderAt place → hot place

namespace ChangedAt

variable {hot : Location → Prop} {start fs : FileSystem} {path : Path} {place : Location}

/-- Whatever has happened at hot places, a clear path leads to where it led before. -/
theorem locate_place (h : ChangedAt hot start fs) (hclear : IsClear hot start path) :
    (fs.locate false path).map Target.place = (start.locate false path).map Target.place := by
  refine locate_congr h.current (fun l hl => h.kind?_of_cold (hclear.way l hl)) fun t ht hnode => ?_
  intro node hget
  refine ⟨h.not_isFolder t.place node (hclear.hot t.place ⟨t, ht, rfl⟩ ?_) hget, nofun⟩
  rintro ⟨old, hold, hfolder⟩
  rw [(isFound_of_locate (isSound_iff.1 h.start_sound).2 ht).get?] at hold
  rw [hnode old hold] at hfolder
  cases hfolder

theorem locate_of_error (h : ChangedAt hot start fs) (hclear : IsClear hot start path) {e : IoError}
    (he : start.locate false path = .error e) : fs.locate false path = .error e := by
  obtain ⟨e', hfs, hstart⟩ | ⟨t', t, hfs, hstart, -⟩ := cases_of_map_eq_map (h.locate_place hclear)
  · rw [hfs, ← hstart, he]
  · rw [he] at hstart
    cases hstart

theorem locate_of_leadsTo (h : ChangedAt hot start fs) (hclear : IsClear hot start path)
    (hplace : start.LeadsTo path place) :
    ∃ t, fs.locate false path = .ok t ∧ t.place = place ∧ t.node? = fs.get? place := by
  obtain ⟨t, ht, rfl⟩ := hplace
  obtain ⟨e', hfs, hstart⟩ | ⟨t', t₀, hfs, hstart, heq⟩ := cases_of_map_eq_map (h.locate_place hclear)
  · rw [ht] at hstart
    cases hstart
  · obtain rfl := Except.ok.inj (ht.symm.trans hstart)
    refine ⟨t', hfs, heq, ?_⟩
    rw [← heq]
    exact (isFound_of_locate h.isFolderAt_current hfs).get?.symm

theorem moveFault?_eq (h : ChangedAt hot start fs) (hclear : IsClear hot start path) :
    fs.moveFault? path = start.moveFault? path := by
  unfold moveFault?
  cases hstart : start.locate false path with
  | error e => rw [h.locate_of_error hclear hstart]
  | ok t =>
    obtain ⟨t', ht', hplace, hnode⟩ := h.locate_of_leadsTo hclear ⟨t, hstart, rfl⟩
    have hfolder : t'.node?.any (·.isFolder) = t.node?.any (·.isFolder) := by
      rw [Bool.eq_iff_iff, Option.any_eq_true, Option.any_eq_true, hnode,
        ← (isFound_of_locate (isSound_iff.1 h.start_sound).2 hstart).get?]
      exact h.isFolderAt_iff
    rw [ht']
    simp only [hfolder]

end ChangedAt

end FileSystem

namespace Replacement

open FileSystem

/-! ## A replacement among others -/

/-- Why a replacement fails, by how the files stood at the start. -/
def fault? (start : FileSystem) (temp report : Path) : Option IoError :=
  match start.locate false temp with
  | .error e => some e
  | .ok _ => start.moveFault? report

/-- The two paths of a replacement are clear, and nothing stands at the one for the temporary file. -/
structure IsOwn (hot : Location → Prop) (start : FileSystem) (temp report : Path) : Prop where
  clearTemp : IsClear hot start temp
  clearReport : IsClear hot start report
  new : ∀ place, start.LeadsTo temp place → start.get? place = none
  apart : ∀ place, start.LeadsTo temp place → ¬ start.LeadsTo report place

/-- A new file with that content stands where a path leads. -/
def Holds (start fs : FileSystem) (path : Path) (content : Bytes) : Prop :=
  ∃ place id, start.LeadsTo path place ∧ ¬ start.IsFolderAt place ∧
    fs.get? place = some (.file id) ∧ start.contents.size ≤ id ∧ fs.content id = content.toByteArray

/-- What stands at the two places: the temporary file with `held` in it, if there is one, and the new
content, if it is there already. -/
structure Stands (start fs : FileSystem) (temp report : Path) (held given : Option Bytes) : Prop where
  absent : held = none → ∀ place, start.LeadsTo temp place → fs.get? place = none
  held : ∀ content, held = some content → Holds start fs temp content
  kept : given = none → ∀ place, start.LeadsTo report place → ¬ start.IsFolderAt place →
    Keeps start fs place
  given : ∀ content, given = some content → Holds start fs report content

/-- A change for a replacement: at hot places, and of its own ones only. -/
structure Effect (hot : Location → Prop) (start : FileSystem) (temp report : Path)
    (fs fs' : FileSystem) : Prop where
  changed : ChangedAt hot start fs'
  keeps : ∀ place, ¬ start.LeadsTo temp place → ¬ start.LeadsTo report place → Keeps fs fs' place

section Steps

variable {hot : Location → Prop} {start fs fs' : FileSystem} {temp report path : Path}
  {held given : Option Bytes} {content : Bytes}

theorem IsOwn.not_isFolderAt_temp (hown : IsOwn hot start temp report) {place : Location}
    (hplace : start.LeadsTo temp place) : ¬ start.IsFolderAt place := by
  rintro ⟨node, hnode, -⟩
  rw [hown.new place hplace] at hnode
  cases hnode

theorem IsOwn.hot_temp (hown : IsOwn hot start temp report) {place : Location}
    (hplace : start.LeadsTo temp place) : hot place :=
  hown.clearTemp.hot place hplace (hown.not_isFolderAt_temp hplace)

theorem Holds.congr (h : Holds start fs path content)
    (hkeeps : ∀ place, start.LeadsTo path place → ¬ start.IsFolderAt place → Keeps fs fs' place) :
    Holds start fs' path content := by
  obtain ⟨place, id, hplace, hfolder, hfile, hid, hcontent⟩ := h
  have hkeep := hkeeps place hplace hfolder
  exact ⟨place, id, hplace, hfolder, hkeep.get?_file hfile, hid, (hkeep.content id hfile).trans hcontent⟩

/-- A replacement does not see what others do. -/
theorem Stands.congr (h : Stands start fs temp report held given) (hown : IsOwn hot start temp report)
    (htemp : ∀ place, start.LeadsTo temp place → ¬ start.IsFolderAt place → Keeps fs fs' place)
    (hreport : ∀ place, start.LeadsTo report place → ¬ start.IsFolderAt place → Keeps fs fs' place) :
    Stands start fs' temp report held given where
  absent hheld place hplace :=
    (htemp place hplace (hown.not_isFolderAt_temp hplace)).get?_none (h.absent hheld place hplace)
  held content hheld := (h.held content hheld).congr htemp
  kept hgiven place hplace hfolder :=
    (h.kept hgiven place hplace hfolder).trans (hreport place hplace hfolder)
  given content hgiven := (h.given content hgiven).congr hreport

/-- Where the same has been written, the same stands at both places. -/
theorem Stands.sameAt (h : Stands start fs temp report none given)
    (h' : Stands start fs' temp report none given) {place : Location} (hno : ¬ start.IsFolderAt place)
    (hplace : start.LeadsTo temp place ∨ start.LeadsTo report place) : SameAt fs fs' place := by
  obtain htemp | hreport := hplace
  · have hnone := h.absent rfl place htemp
    have hnone' := h'.absent rfl place htemp
    refine ⟨by rw [kind?, kind?, hnone, hnone'], fun id id' hid => ?_⟩
    rw [hnone] at hid
    cases hid
  · cases given with
    | none => exact (h.kept rfl place hreport hno).sameAt (h'.kept rfl place hreport hno)
    | some content =>
      obtain ⟨place₁, id, hplace₁, -, hfile, -, hcontent⟩ := h.given content rfl
      obtain ⟨place₂, id', hplace₂, -, hfile', -, hcontent'⟩ := h'.given content rfl
      obtain rfl := hreport.unique hplace₁
      obtain rfl := hreport.unique hplace₂
      refine ⟨by rw [kind?, kind?, hfile, hfile']; rfl, fun other other' hother hother' => ?_⟩
      obtain rfl := Node.file.inj (Option.some.inj (hfile.symm.trans hother))
      obtain rfl := Node.file.inj (Option.some.inj (hfile'.symm.trans hother'))
      rw [hcontent, hcontent']

/-- At the start nothing has happened. -/
theorem stands_start (hown : IsOwn hot start temp report) : Stands start start temp report none none where
  absent _ := hown.new
  held := nofun
  kept _ place _ _ := Keeps.refl start place
  given := nofun

theorem toByteArray_append (a b : Bytes) : a.toByteArray ++ b.toByteArray = (a ++ b).toByteArray := by
  apply ByteArray.ext
  simp [Bytes.toByteArray, ByteArray.data_append]

/-! ### Making the temporary file -/

theorem perform_create_of_error (h : ChangedAt hot start fs) (hown : IsOwn hot start temp report)
    {e : IoError} (he : start.locate false temp = .error e) :
    perform fs (.create temp) = (fs, some e) := by
  rw [perform, createFile_of_error (h.locate_of_error hown.clearTemp he)]
  rfl

theorem perform_create (h : ChangedAt hot start fs) (hown : IsOwn hot start temp report)
    (hstands : Stands start fs temp report none none) {place : Location}
    (hplace : start.LeadsTo temp place) : ∃ fs', perform fs (.create temp) = (fs', none) ∧
      Effect hot start temp report fs fs' ∧ Stands start fs' temp report (some []) none := by
  obtain ⟨t, ht, rfl, hnode⟩ := h.locate_of_leadsTo hown.clearTemp hplace
  have hnone : fs.get? t.place = none := hstands.absent rfl _ hplace
  have hhot : hot t.place := hown.hot_temp hplace
  have hfolder := LeadsTo.hasFolder ⟨t, ht, rfl⟩ h.sound (h.not_isFolderAt hhot)
  have hkeeps : ∀ other, other ≠ t.place → Keeps fs (fs.setNewFile t.place .empty) other :=
    fun other hne => h.keeps_setNewFile hfolder hhot .empty hne
  refine ⟨fs.setNewFile t.place .empty, ?_, ?_, ?_⟩
  · rw [perform, createFile_of_absent ht (hnode.trans hnone)]
    rfl
  · refine ⟨h.setNewFile hfolder hhot .empty, fun other hother _ => hkeeps other ?_⟩
    rintro rfl
    exact hother hplace
  · refine ⟨nofun, ?_, fun hgiven other hother hno => ?_, nofun⟩
    · rintro content hcontent
      obtain rfl := Option.some.inj hcontent
      exact ⟨t.place, fs.contents.size, hplace, hown.not_isFolderAt_temp hplace,
        get?_set_self h.sound hfolder, h.size_le, content_setNewFile_self⟩
    · refine (hstands.kept hgiven other hother hno).trans (hkeeps other ?_)
      rintro rfl
      exact hown.apart _ hplace hother

/-! ### Writing to it -/

theorem perform_append (h : ChangedAt hot start fs) (hown : IsOwn hot start temp report)
    (hstands : Stands start fs temp report (some content) none) (bytes : Bytes) :
    ∃ fs', perform fs (.append temp bytes) = (fs', none) ∧ Effect hot start temp report fs fs' ∧
      Stands start fs' temp report (some (content ++ bytes)) none := by
  obtain ⟨place, id, hplace, hno, hfile, hid, hcontent⟩ := hstands.held content rfl
  obtain ⟨t, ht, rfl, hnode⟩ := h.locate_of_leadsTo hown.clearTemp hplace
  have hkeeps : ∀ other, other ≠ t.place →
      Keeps fs (fs.setContent id (fs.content id ++ bytes.toByteArray)) other :=
    fun other hother => h.keeps_setContent hid hfile _ hother
  refine ⟨fs.setContent id (fs.content id ++ bytes.toByteArray), ?_, ?_, ?_⟩
  · rw [perform, appendFile_of_file ht (hnode.trans hfile)]
    rfl
  · refine ⟨h.setContent hid _, fun other hother _ => hkeeps other ?_⟩
    rintro rfl
    exact hother hplace
  · refine ⟨nofun, ?_, fun hgiven other hother hno => ?_, nofun⟩
    · rintro more hmore
      obtain rfl := Option.some.inj hmore
      refine ⟨t.place, id, hplace, hno, hfile, hid, ?_⟩
      rw [content_setContent_self (lt_size_of_get? h.sound hfile), hcontent, toByteArray_append]
    · refine (hstands.kept hgiven other hother hno).trans (hkeeps other ?_)
      rintro rfl
      exact hown.apart _ hplace hother

/-! ### Giving it the name of the old one -/

theorem perform_move_of_fault (h : ChangedAt hot start fs) (hown : IsOwn hot start temp report)
    (hstands : Stands start fs temp report (some content) none) {e : IoError}
    (hfault : start.moveFault? report = some e) : perform fs (.move temp report) = (fs, some e) := by
  obtain ⟨place, id, hplace, -, hfile, -⟩ := hstands.held content rfl
  obtain ⟨t, ht, rfl, hnode⟩ := h.locate_of_leadsTo hown.clearTemp hplace
  rw [← h.moveFault?_eq hown.clearReport] at hfault
  rw [perform, moveFile_of_fault ht (hnode.trans hfile) hfault]
  rfl

theorem exists_leadsTo_of_moveFault? (hsound : start.isSound) (hfault : start.moveFault? path = none) :
    ∃ place, start.LeadsTo path place ∧ ¬ start.IsFolderAt place := by
  unfold moveFault? at hfault
  cases hlocate : start.locate false path with
  | error e =>
    rw [hlocate] at hfault
    cases hfault
  | ok t =>
    rw [hlocate] at hfault
    refine ⟨t.place, ⟨t, hlocate, rfl⟩, ?_⟩
    rintro ⟨node, hnode, hfolder⟩
    rw [(isFound_of_locate (isSound_iff.1 hsound).2 hlocate).get?] at hnode
    simp [hnode, hfolder] at hfault

theorem perform_move (h : ChangedAt hot start fs) (hown : IsOwn hot start temp report)
    (hstands : Stands start fs temp report (some content) none)
    (hfault : start.moveFault? report = none) :
    ∃ fs', perform fs (.move temp report) = (fs', none) ∧ Effect hot start temp report fs fs' ∧
      Stands start fs' temp report none (some content) := by
  obtain ⟨place, id, hplace, hno, hfile, hid, hcontent⟩ := hstands.held content rfl
  obtain ⟨goal, hgoal, hgoalNo⟩ := exists_leadsTo_of_moveFault? h.start_sound hfault
  obtain ⟨t, ht, rfl, hnode⟩ := h.locate_of_leadsTo hown.clearTemp hplace
  obtain ⟨t', ht', rfl, -⟩ := h.locate_of_leadsTo hown.clearReport hgoal
  have hhot : hot t.place := hown.hot_temp hplace
  have hgoalHot : hot t'.place := hown.clearReport.hot _ hgoal hgoalNo
  have hne : t.place ≠ t'.place := fun heq => hown.apart _ hplace (heq ▸ hgoal)
  have hmoved := h.moved (LeadsTo.hasFolder ⟨t, ht, rfl⟩ h.sound (h.not_isFolderAt hhot)) hhot
    (LeadsTo.hasFolder ⟨t', ht', rfl⟩ h.sound (h.not_isFolderAt hgoalHot)) hgoalHot hne hfile hid
  refine ⟨(fs.set t.place none).set t'.place (some (.file id)), ?_, ?_, ?_⟩
  · rw [perform, moveFile_of_file ht (hnode.trans hfile) ht' (by rwa [h.moveFault?_eq hown.clearReport])]
    rfl
  · refine ⟨hmoved.changed, fun other hother hother' => hmoved.keeps other ?_ ?_⟩
    · rintro rfl
      exact hother hplace
    · rintro rfl
      exact hother' hgoal
  · refine ⟨fun _ other hother => ?_, by simp, by simp, ?_⟩
    · obtain rfl := hplace.unique hother
      exact hmoved.gone
    · rintro more hmore
      obtain rfl := Option.some.inj hmore
      exact ⟨t'.place, id, hgoal, hgoalNo, hmoved.there, hid, hcontent⟩

/-! ### Taking the temporary file away -/

theorem perform_remove (h : ChangedAt hot start fs) (hown : IsOwn hot start temp report)
    (hstands : Stands start fs temp report held none) :
    ∃ fs' e?, perform fs (.remove temp) = (fs', e?) ∧ Effect hot start temp report fs fs' ∧
      Stands start fs' temp report none none := by
  cases held with
  | none =>
    -- There is nothing to be taken away.
    have hsame : ∃ e?, perform fs (.remove temp) = (fs, e?) := by
      cases hstart : start.locate false temp with
      | error e =>
        rw [perform, removeFile_of_error (h.locate_of_error hown.clearTemp hstart)]
        exact ⟨_, rfl⟩
      | ok t =>
        obtain ⟨t', ht', hplace, hnode⟩ := h.locate_of_leadsTo hown.clearTemp ⟨t, hstart, rfl⟩
        rw [hstands.absent rfl t.place ⟨t, hstart, rfl⟩] at hnode
        rw [perform, removeFile_of_absent ht' hnode]
        exact ⟨_, rfl⟩
    obtain ⟨e?, hperform⟩ := hsame
    exact ⟨fs, e?, hperform, ⟨h, fun other _ _ => Keeps.refl fs other⟩, hstands⟩
  | some content =>
    obtain ⟨place, id, hplace, hno, hfile, -⟩ := hstands.held content rfl
    obtain ⟨t, ht, rfl, hnode⟩ := h.locate_of_leadsTo hown.clearTemp hplace
    have hhot : hot t.place := hown.hot_temp hplace
    have hfolder := LeadsTo.hasFolder ⟨t, ht, rfl⟩ h.sound (h.not_isFolderAt hhot)
    have hkeeps : ∀ other, other ≠ t.place → Keeps fs (fs.set t.place none) other :=
      fun other hne => h.keeps_set hfolder hhot (by simp) hne
    refine ⟨fs.set t.place none, none, ?_, ?_, ?_⟩
    · rw [perform, removeFile_of_file ht (hnode.trans hfile)]
      rfl
    · refine ⟨h.remove hfolder hhot, fun other hother _ => hkeeps other ?_⟩
      rintro rfl
      exact hother hplace
    · refine ⟨fun _ other hother => ?_, nofun, fun hgiven other hother hno => ?_, nofun⟩
      · obtain rfl := hplace.unique hother
        exact get?_set_self h.sound hfolder
      · refine (hstands.kept hgiven other hother hno).trans (hkeeps other ?_)
        rintro rfl
        exact hown.apart _ hplace hother

/-! ### The steps in a row -/

/-- The steps that are left of a replacement, by what stands at its two places. -/
inductive Left (start : FileSystem) (temp report : Path) (content : Bytes) :
    Option Bytes → Option Bytes → List WriteStep → Prop
  | all : Left start temp report content none none
      [.create temp, .append temp content, .sync temp, .move temp report]
  | created : Left start temp report content (some []) none
      [.append temp content, .sync temp, .move temp report]
  | appended : Left start temp report content (some content) none [.sync temp, .move temp report]
  | synced : Left start temp report content (some content) none [.move temp report]
  | moved (hfault : fault? start temp report = none) :
      Left start temp report content none (some content) []

/-- The next step is done, or it has the fault of the replacement. -/
theorem Left.perform {s : WriteStep} {rest : List WriteStep} (h : ChangedAt hot start fs)
    (hown : IsOwn hot start temp report) (hleft : Left start temp report content held given (s :: rest))
    (hstands : Stands start fs temp report held given) :
    (∃ fs' held' given', FileSystem.perform fs s = (fs', none) ∧
      Effect hot start temp report fs fs' ∧ Left start temp report content held' given' rest ∧
      Stands start fs' temp report held' given') ∨
    (∃ e, FileSystem.perform fs s = (fs, some e) ∧ fault? start temp report = some e ∧ given = none) := by
  cases hleft with
  | all =>
    cases hlocate : start.locate false temp with
    | error e =>
      refine .inr ⟨e, perform_create_of_error h hown hlocate, ?_, rfl⟩
      rw [fault?, hlocate]
    | ok t =>
      obtain ⟨fs', hperform, heffect, hstands'⟩ := perform_create h hown hstands ⟨t, hlocate, rfl⟩
      exact .inl ⟨fs', _, _, hperform, heffect, .created, hstands'⟩
  | created =>
    obtain ⟨fs', hperform, heffect, hstands'⟩ := perform_append h hown hstands content
    exact .inl ⟨fs', _, _, hperform, heffect, .appended, hstands'⟩
  | appended => exact .inl ⟨fs, _, _, rfl, ⟨h, fun place _ _ => Keeps.refl fs place⟩, .synced, hstands⟩
  | synced =>
    obtain ⟨place, id, ⟨t, ht, -⟩, -⟩ := hstands.held content rfl
    have hfaultEq : fault? start temp report = start.moveFault? report := by
      rw [fault?, ht]
    cases hfault : start.moveFault? report with
    | some e =>
      exact .inr ⟨e, perform_move_of_fault h hown hstands hfault, hfaultEq.trans hfault, rfl⟩
    | none =>
      obtain ⟨fs', hperform, heffect, hstands'⟩ := perform_move h hown hstands hfault
      exact .inl ⟨fs', _, _, hperform, heffect, .moved (hfaultEq.trans hfault), hstands'⟩

end Steps

end Replacement

end ApiSurface
