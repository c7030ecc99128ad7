import ApiSurface.Proofs.Storage.Filling

/-!
Replacing a file on a device that may fail.

A step that fails has done nothing, or it has written a part of its bytes. Whatever step of a
replacement fails, the temporary file is taken away, and then every place has what it had before. Only
when no step fails does one place have something else: the report, with its whole content.
-/

namespace ApiSurface

open FileSystem

/-! ## Devices that may fail -/

/-- What may come of a step: what the files answer to it, or a failure. -/
inductive WriteStep.MayGive (fs : FileSystem) (step : WriteStep) : FileSystem × Option IoError → Prop
  | performed : MayGive fs step (perform fs step)
  | failed (e : IoError) : MayGive fs step (fs, some e)
  | inPart {path : Path} {bytes part : Bytes} (hstep : step = .append path bytes)
      (hpart : part <+: bytes) (e : IoError) : MayGive fs step ((perform fs (.append path part)).1, some e)

/-- The device fails at any step, but never does anything else than it says. What is to be taken away is
taken away. -/
structure WriteDevice.IsFaithful (device : WriteDevice) : Prop where
  step : ∀ fs step, WriteStep.MayGive fs step (device fs step)
  remove : ∀ fs path, device fs (.remove path) = perform fs (.remove path)

/-- A step that writes no bytes is done as a whole or not at all. -/
theorem WriteDevice.IsFaithful.whole {device : WriteDevice} (h : IsFaithful device) (fs : FileSystem)
    (step : WriteStep) (hstep : ∀ path bytes, step ≠ .append path bytes) :
    device fs step = perform fs step ∨ ∃ e, device fs step = (fs, some e) := by
  have hgives := h.step fs step
  generalize device fs step = result at hgives
  cases hgives with
  | performed => exact .inl rfl
  | failed e => exact .inr ⟨e, rfl⟩
  | inPart heq => exact absurd heq (hstep _ _)

/-- A step that does not fail has been done. -/
theorem WriteDevice.IsFaithful.eq_perform {device : WriteDevice} (h : IsFaithful device) {fs fs' : FileSystem}
    {step : WriteStep} (hdone : device fs step = (fs', none)) : perform fs step = (fs', none) := by
  have hgives := h.step fs step
  generalize hresult : device fs step = result at hgives
  have hnone := hresult.symm.trans hdone
  cases hgives with
  | performed => exact hnone
  | failed e => cases hnone
  | inPart _ _ e => cases hnone

/-- Waiting changes nothing. -/
theorem WriteDevice.IsFaithful.sync {device : WriteDevice} (h : IsFaithful device) (fs : FileSystem)
    (path : Path) : ∃ e?, device fs (.sync path) = (fs, e?) := by
  obtain hperform | ⟨e, hfailed⟩ := h.whole fs (.sync path) nofun
  · exact ⟨none, hperform⟩
  · exact ⟨some e, hfailed⟩

/-! ## More and fewer hot places -/

namespace FileSystem

variable {hot hot' : Location → Prop} {start fs fs' : FileSystem} {place : Location}

/-- Places may be called hot where no folder stands. -/
theorem ChangedAt.mono (h : ChangedAt hot start fs) (hle : ∀ place, hot place → hot' place)
    (hno : ∀ place, hot' place → ¬ start.IsFolderAt place) : ChangedAt hot' start fs where
  start_sound := h.start_sound
  start_not_isFolder := hno
  current := h.current
  sound := h.sound
  size_le := h.size_le
  content := h.content
  bare? place hcold := h.bare? place fun hhot => hcold (hle place hhot)
  not_isFolder place node hhot hnode :=
    Bool.eq_false_iff.2 fun hfolder => hno place hhot (h.isFolderAt_iff.1 ⟨node, hnode, hfolder⟩)
  alone := h.alone

/-- A place is not hot any more when it has what it had at the start. -/
theorem ChangedAt.cool (h : ChangedAt hot start fs) (hle : ∀ place, hot' place → hot place)
    (hsame : ∀ place, hot place → ¬ hot' place → fs.bare? place = start.bare? place) :
    ChangedAt hot' start fs where
  start_sound := h.start_sound
  start_not_isFolder place hhot := h.start_not_isFolder place (hle place hhot)
  current := h.current
  sound := h.sound
  size_le := h.size_le
  content := h.content
  bare? place hcold := by
    by_cases hhot : hot place
    · exact hsame place hhot hcold
    · exact h.bare? place hhot
  not_isFolder place node hhot := h.not_isFolder place node (hle place hhot)
  alone := h.alone

theorem Keeps.of_none (h : fs.get? place = none) (h' : fs'.get? place = none) : Keeps fs fs' place where
  bare? := by rw [bare?_of_none h, bare?_of_none h']
  content id hid := by
    rw [h] at hid
    cases hid

end FileSystem

namespace Replacement

/-! ## Drafts -/

/-- The path for a temporary file: nothing has ever stood where it leads, and nothing else is written
there. -/
structure IsSpare (hot : Location → Prop) (start : FileSystem) (temp report : Path) : Prop where
  new : ∀ place, start.LeadsTo temp place → start.get? place = none
  cold : ∀ place, start.LeadsTo temp place → ¬ hot place
  apart : ∀ place, start.LeadsTo temp place → ¬ start.LeadsTo report place

/-- A temporary file with `held` in it stands at `place`, and everything else is as in `base`. -/
structure Drafted (hot : Location → Prop) (start base : FileSystem) (temp : Path) (place : Location)
    (held : Bytes) (fs : FileSystem) : Prop where
  leads : base.LeadsTo temp place
  changed : ChangedAt (fun l => hot l ∨ l = place) start fs
  keeps : ∀ other, other ≠ place → Keeps base fs other
  file : ∃ id, start.contents.size ≤ id ∧ fs.get? place = some (.file id) ∧
    fs.content id = held.toByteArray

/-- What has become of the files when a replacement is over. -/
inductive Replaced (hot : Location → Prop) (start base : FileSystem) (report : Path) (content : Bytes) :
    FileSystem × Option IoError → Prop
  | failed {fs : FileSystem} (e : IoError) (h : FilledAt hot start fs)
      (hkeeps : ∀ place, Keeps base fs place) :
      Replaced hot start base report content (fs, some e)
  | done {fs : FileSystem} {goal : Location} (hgoal : start.LeadsTo report goal)
      (hno : ¬ start.IsFolderAt goal) (h : FilledAt (fun l => hot l ∨ l = goal) start fs)
      (hkeeps : ∀ place, place ≠ goal → Keeps base fs place) (hholds : Holds start fs report content) :
      Replaced hot start base report content (fs, none)

section Draft

variable {hot : Location → Prop} {start base fs : FileSystem} {device : WriteDevice}
  {temp report : Path} {place : Location} {held content : Bytes}

variable (hbase : FilledAt hot start base)
include hbase

theorem Drafted.filledAt (h : Drafted hot start base temp place held fs) :
    FilledAt (fun l => hot l ∨ l = place) start fs where
  toChangedAt := h.changed
  file l hhot := by
    obtain ⟨id, hid, hfile, -⟩ := h.file
    by_cases heq : l = place
    · exact ⟨id, hid, heq ▸ hfile⟩
    · obtain ⟨id, hid, hfile⟩ := hbase.file l (hhot.resolve_right heq)
      exact ⟨id, hid, (h.keeps l heq).get?_file hfile⟩

variable (hspare : IsSpare hot start temp report)
include hspare

/-- Nothing stands at the place of the temporary file. -/
theorem get?_of_spare (hplace : base.LeadsTo temp place) :
    start.get? place = none ∧ base.get? place = none := by
  have hstart := hbase.leadsTo_start hplace
  have hnone := hspare.new place hstart
  refine ⟨hnone, ?_⟩
  rw [← bare?_eq_none_iff, hbase.bare? place (hspare.cold place hstart), bare?_of_none hnone]

theorem not_isFolderAt_spare (hplace : base.LeadsTo temp place) : ¬ start.IsFolderAt place := by
  rintro ⟨node, hnode, -⟩
  rw [(get?_of_spare hbase hspare hplace).1] at hnode
  cases hnode

/-- The path of the temporary file leads to it. -/
theorem Drafted.locate (h : Drafted hot start base temp place held fs) :
    ∃ t, fs.locate false temp = .ok t ∧ t.place = place ∧ t.node? = fs.get? place := by
  obtain ⟨id, -, hfile, -⟩ := h.file
  have hends : fs.EndsAt false place := by
    refine fun node hnode => ⟨?_, nofun⟩
    rw [← Option.some.inj (hfile.symm.trans hnode)]
    rfl
  obtain ⟨t, ht, rfl⟩ := h.leads.of_put (h.changed.current.trans hbase.current.symm)
    (get?_of_spare hbase hspare h.leads).2 hends fun other hne => kind?_congr (h.keeps other hne).bare?
  exact ⟨t, ht, rfl, (isFound_of_locate h.changed.isFolderAt_current ht).get?.symm⟩

theorem Drafted.hasFolder (h : Drafted hot start base temp place held fs) : fs.HasFolder place := by
  obtain ⟨t, ht, hplace, -⟩ := h.locate hbase hspare
  exact LeadsTo.hasFolder ⟨t, ht, hplace⟩ h.changed.sound (h.changed.not_isFolderAt (.inr rfl))

/-! ### The steps -/

theorem create_cases (hdevice : WriteDevice.IsFaithful device) :
    (∃ e, device base (.create temp) = (base, some e)) ∨
      ∃ fs place, device base (.create temp) = (fs, none) ∧ Drafted hot start base temp place [] fs := by
  obtain hperform | hfailed := hdevice.whole base (.create temp) nofun
  swap
  · exact .inl hfailed
  rw [hperform, perform]
  cases hlocate : base.locate false temp with
  | error e => exact .inl ⟨e, by rw [createFile_of_error hlocate]; rfl⟩
  | ok t =>
    have hleads : base.LeadsTo temp t.place := ⟨t, hlocate, rfl⟩
    obtain ⟨hstart, hnone⟩ := get?_of_spare hbase hspare hleads
    have hnode := (isFound_of_locate hbase.isFolderAt_current hlocate).get?
    have hno := not_isFolderAt_spare hbase hspare hleads
    have hchanged : ChangedAt (fun l => hot l ∨ l = t.place) start base := by
      refine hbase.toChangedAt.mono (fun _ => .inl) fun l hl => ?_
      obtain hhot | rfl := hl
      · exact hbase.start_not_isFolder l hhot
      · exact hno
    have hfolder := hleads.hasFolder hbase.sound fun hfolder => hno (hbase.isFolderAt_iff.1 hfolder)
    refine .inr ⟨base.setNewFile t.place .empty, t.place, ?_, hleads, ?_, ?_, ?_⟩
    · rw [createFile_of_absent hlocate (hnode.symm.trans hnone)]
      rfl
    · exact hchanged.setNewFile hfolder (.inr rfl) .empty
    · exact fun other hne => hchanged.keeps_setNewFile hfolder (.inr rfl) .empty hne
    · exact ⟨base.contents.size, hbase.size_le, get?_set_self hbase.sound hfolder, content_setNewFile_self⟩

theorem Drafted.perform_append (h : Drafted hot start base temp place held fs) (bytes : Bytes) :
    ∃ fs', perform fs (.append temp bytes) = (fs', none) ∧
      Drafted hot start base temp place (held ++ bytes) fs' := by
  obtain ⟨id, hid, hfile, hcontent⟩ := h.file
  obtain ⟨t, ht, hplace, hnode⟩ := h.locate hbase hspare
  refine ⟨fs.setContent id (fs.content id ++ bytes.toByteArray), ?_, h.leads, ?_, fun other hne => ?_, ?_⟩
  · rw [perform, appendFile_of_file ht (hnode.trans hfile)]
    rfl
  · exact h.changed.setContent hid _
  · exact (h.keeps other hne).trans (h.changed.keeps_setContent hid hfile _ hne)
  · refine ⟨id, hid, hfile, ?_⟩
    rw [content_setContent_self (lt_size_of_get? h.changed.sound hfile), hcontent, toByteArray_append]

/-- After a failure a part of the bytes may have been written. -/
theorem Drafted.append (hdevice : WriteDevice.IsFaithful device)
    (h : Drafted hot start base temp place held fs) (bytes : Bytes) : ∃ fs' e? held', device fs (.append temp bytes) = (fs', e?) ∧
      Drafted hot start base temp place held' fs' ∧ (e? = none → held' = held ++ bytes) := by
  have hgives := hdevice.step fs (.append temp bytes)
  generalize device fs (.append temp bytes) = result at hgives
  cases hgives with
  | performed =>
    obtain ⟨fs', hperform, hdrafted⟩ := h.perform_append hbase hspare bytes
    exact ⟨fs', none, _, hperform, hdrafted, fun _ => rfl⟩
  | failed e => exact ⟨fs, some e, held, rfl, h, nofun⟩
  | @inPart path bytes' part hstep hpart e =>
    obtain ⟨rfl, rfl⟩ := WriteStep.append.inj hstep
    obtain ⟨fs', hperform, hdrafted⟩ := h.perform_append hbase hspare part
    exact ⟨fs', some e, _, by rw [hperform], hdrafted, nofun⟩

theorem Drafted.move (hdevice : WriteDevice.IsFaithful device)
    (h : Drafted hot start base temp place content fs) :
    (∃ e, device fs (.move temp report) = (fs, some e)) ∨
      ∃ fs', device fs (.move temp report) = (fs', none) ∧
        Replaced hot start base report content (fs', none) := by
  obtain hperform | hfailed := hdevice.whole fs (.move temp report) nofun
  swap
  · exact .inl hfailed
  obtain ⟨id, hid, hfile, hcontent⟩ := h.file
  obtain ⟨t, ht, rfl, hnode⟩ := h.locate hbase hspare
  rw [hperform, perform]
  cases hfault : fs.moveFault? report with
  | some e => exact .inl ⟨e, by rw [moveFile_of_fault ht (hnode.trans hfile) hfault]; rfl⟩
  | none =>
    obtain ⟨goal, ⟨t', ht', rfl⟩, hgoalNo⟩ := exists_leadsTo_of_moveFault? h.changed.sound hfault
    have hgoal : start.LeadsTo report t'.place :=
      (h.filledAt hbase).leadsTo_start ⟨t', ht', rfl⟩
    have hstartNo : ¬ start.IsFolderAt t'.place := fun hfolder => hgoalNo (h.changed.isFolderAt_iff.2 hfolder)
    have hspareNo := not_isFolderAt_spare hbase hspare h.leads
    have hne : t.place ≠ t'.place := fun heq =>
      hspare.apart _ (hbase.leadsTo_start h.leads) (heq ▸ hgoal)
    -- For the move both places are hot, and afterwards only the one of the report.
    have hchanged : ChangedAt (fun l => (hot l ∨ l = t'.place) ∨ l = t.place) start fs := by
      refine h.changed.mono (fun l hl => hl.imp_left .inl) fun l hl => ?_
      obtain (hhot | rfl) | rfl := hl
      · exact hbase.start_not_isFolder l hhot
      · exact hstartNo
      · exact hspareNo
    have hmoved := hchanged.moved (h.hasFolder hbase hspare) (.inr rfl)
      (LeadsTo.hasFolder ⟨t', ht', rfl⟩ h.changed.sound hgoalNo) (.inl (.inr rfl)) hne hfile hid
    obtain ⟨hstartNone, hbaseNone⟩ := get?_of_spare hbase hspare h.leads
    refine .inr ⟨(fs.set t.place none).set t'.place (some (.file id)), ?_,
      .done hgoal hstartNo ⟨?_, ?_⟩ ?_ ?_⟩
    · rw [moveFile_of_file ht (hnode.trans hfile) ht' hfault]
      rfl
    · refine hmoved.changed.cool (fun _ => .inl) fun l hl hcold => ?_
      obtain rfl := hl.resolve_left hcold
      rw [bare?_of_none hmoved.gone, bare?_of_none hstartNone]
    · intro l hl
      by_cases heq : l = t'.place
      · exact ⟨id, hid, heq ▸ hmoved.there⟩
      have hhot := hl.resolve_right heq
      have hlne : l ≠ t.place := by
        rintro rfl
        exact hspare.cold _ (hbase.leadsTo_start h.leads) hhot
      obtain ⟨old, hold, hbaseFile⟩ := hbase.file l hhot
      exact ⟨old, hold, ((h.keeps l hlne).trans (hmoved.keeps l hlne heq)).get?_file hbaseFile⟩
    · intro l hl
      by_cases heq : l = t.place
      · rw [heq]
        exact .of_none hbaseNone hmoved.gone
      · exact (h.keeps l heq).trans (hmoved.keeps l heq hl)
    · exact ⟨t'.place, id, hgoal, hstartNo, hmoved.there, hid, hcontent⟩

/-- When the temporary file is taken away, everything is as it was. -/
theorem Drafted.remove (hdevice : WriteDevice.IsFaithful device)
    (h : Drafted hot start base temp place held fs) :
    FilledAt hot start (device fs (.remove temp)).1 ∧
      ∀ other, Keeps base (device fs (.remove temp)).1 other := by
  obtain ⟨id, hid, hfile, -⟩ := h.file
  obtain ⟨t, ht, rfl, hnode⟩ := h.locate hbase hspare
  have hfolder := h.hasFolder hbase hspare
  obtain ⟨hstartNone, hbaseNone⟩ := get?_of_spare hbase hspare h.leads
  have hremoved : device fs (.remove temp) = (fs.set t.place none, none) := by
    rw [hdevice.remove, perform, removeFile_of_file ht (hnode.trans hfile)]
    rfl
  have hnone : (fs.set t.place none).get? t.place = none := get?_set_self h.changed.sound hfolder
  have hkeeps : ∀ other, Keeps base (fs.set t.place none) other := by
    intro other
    by_cases heq : other = t.place
    · rw [heq]
      exact .of_none hbaseNone hnone
    · exact (h.keeps other heq).trans (h.changed.keeps_set hfolder (.inr rfl) (by simp) heq)
  rw [hremoved]
  refine ⟨⟨(h.changed.remove hfolder (.inr rfl)).cool (fun _ => .inl) fun l hl hcold => ?_, ?_⟩, hkeeps⟩
  · obtain rfl := hl.resolve_left hcold
    rw [bare?_of_none hnone, bare?_of_none hstartNone]
  · intro l hl
    obtain ⟨old, hold, hbaseFile⟩ := hbase.file l hl
    exact ⟨old, hold, (hkeeps l).get?_file hbaseFile⟩

/-- Where no temporary file could be made, there is none to be taken away. -/
theorem remove_nothing (hdevice : WriteDevice.IsFaithful device) : (device base (.remove temp)).1 = base := by
  rw [hdevice.remove, perform]
  cases hlocate : base.locate false temp with
  | error e =>
    rw [removeFile_of_error hlocate]
    rfl
  | ok t =>
    have hnone := (get?_of_spare hbase hspare ⟨t, hlocate, rfl⟩).2
    rw [removeFile_of_absent hlocate]
    · rfl
    · rw [← (isFound_of_locate hbase.isFolderAt_current hlocate).get?, hnone]

/-! ### All of them -/

theorem Drafted.failed (hdevice : WriteDevice.IsFaithful device)
    (h : Drafted hot start base temp place held fs) (e : IoError) (content : Bytes) :
    Replaced hot start base report content ((device fs (.remove temp)).1, some e) := by
  obtain ⟨hfilled, hkeeps⟩ := h.remove hbase hspare hdevice
  exact .failed e hfilled hkeeps

end Draft

/-- A replacement gives the report its content, or it changes nothing. -/
theorem replaced {hot : Location → Prop} {start base : FileSystem} {device : WriteDevice} {token : String}
    {report : Path} (hdevice : WriteDevice.IsFaithful device) (hbase : FilledAt hot start base)
    (hspare : IsSpare hot start (temporary token report) report) (content : Bytes) :
    Replaced hot start base report content (replaceFile device token report content base) := by
  rw [replaceFile, steps, WriteDevice.run]
  obtain ⟨e, hcreate⟩ | ⟨created, place, hcreate, hdraft⟩ := create_cases hbase hspare hdevice
  · simp only [hcreate, remove_nothing hbase hspare hdevice]
    exact .failed e hbase fun place => Keeps.refl base place
  obtain ⟨appended, e?, held, happend, hdraft, hheld⟩ := hdraft.append hbase hspare hdevice content
  simp only [hcreate, WriteDevice.run, happend]
  cases e? with
  | some e => exact hdraft.failed hbase hspare hdevice e content
  | none =>
    obtain rfl := hheld rfl
    obtain ⟨e?, hsync⟩ := hdevice.sync appended (temporary token report)
    simp only [hsync]
    cases e? with
    | some e => exact hdraft.failed hbase hspare hdevice e _
    | none =>
      obtain ⟨e, hmove⟩ | ⟨moved, hmove, hreplaced⟩ := hdraft.move hbase hspare hdevice
      · simp only [hmove]
        exact hdraft.failed hbase hspare hdevice e _
      · simp only [hmove]
        exact hreplaced

/-- What can be read along the path of the report is its content. -/
theorem Holds.readFile {hot : Location → Prop} {start fs : FileSystem} {report : Path} {content bytes : Bytes}
    (h : Holds start fs report content) (hfilled : FilledAt hot start fs)
    (hread : fs.readFile report = .ok bytes) : bytes = content := by
  obtain ⟨place, id, hplace, -, hfile, -, hcontent⟩ := h
  cases hlocate : fs.locate false report with
  | error e =>
    rw [FileSystem.readFile, stat_eq, locate_true_of_error hlocate] at hread
    cases hread
  | ok t =>
    obtain rfl := hplace.unique (hfilled.leadsTo_start ⟨t, hlocate, rfl⟩)
    have hnode : t.node? = some (.file id) :=
      (isFound_of_locate hfilled.isFolderAt_current hlocate).get?.symm.trans hfile
    rw [FileSystem.readFile, stat_eq, locate_true hlocate (by simp [hnode])] at hread
    simp only [Except.bind, hnode, bind, contentOf, hcontent] at hread
    exact (Except.ok.inj hread).symm

/-- Where nothing has come to stand on the way, the content can be read. -/
theorem Holds.readFile_of_isClear {hot : Location → Prop} {start fs : FileSystem} {report : Path}
    {content : Bytes} (h : Holds start fs report content) (hchanged : ChangedAt hot start fs)
    (hclear : IsClear hot start report) : fs.readFile report = .ok content := by
  obtain ⟨place, id, hplace, -, hfile, -, hcontent⟩ := h
  obtain ⟨t, hlocate, -, hnode⟩ := hchanged.locate_of_leadsTo hclear hplace
  rw [hfile] at hnode
  rw [FileSystem.readFile, stat_eq, locate_true hlocate (by simp [hnode])]
  simp only [Except.bind, hnode, bind, contentOf, hcontent]
  rfl

end Replacement

end ApiSurface
