import ApiSurface.Proofs.Storage.Faults

/-!
Single steps of writing, while others write too.

Where a path for a temporary file leads, nothing stood at the start, and what stands there now is a new
file. So a step that makes such a file, writes to it or takes it away touches nothing else, whatever has
been done in between. Only the step that gives the file its other name changes a place at which something
may have stood.
-/

namespace ApiSurface

namespace FileSystem

/-! ## New files and none -/

namespace FilledAt

variable {hot : Location → Prop} {start fs : FileSystem} {place goal : Location} {id : FileId}

theorem setContent (h : FilledAt hot start fs) (hid : start.contents.size ≤ id) (content : ByteArray) :
    FilledAt hot start (fs.setContent id content) :=
  ⟨h.toChangedAt.setContent hid content, h.file⟩

/-- One more place may be called hot. -/
theorem changedAt_or (h : FilledAt hot start fs) (hno : ¬ start.IsFolderAt place) :
    ChangedAt (fun l => hot l ∨ l = place) start fs := by
  refine h.toChangedAt.mono (fun _ => .inl) fun l hl => ?_
  obtain hhot | rfl := hl
  · exact h.start_not_isFolder l hhot
  · exact hno

/-- A new file is put where no folder stood. -/
theorem setNewFile (h : FilledAt hot start fs) (hfolder : fs.HasFolder place)
    (hno : ¬ start.IsFolderAt place) (content : ByteArray) :
    FilledAt (fun l => hot l ∨ l = place) start (fs.setNewFile place content) where
  toChangedAt := (h.changedAt_or hno).setNewFile hfolder (.inr rfl) content
  file l hl := by
    by_cases heq : l = place
    · exact ⟨fs.contents.size, h.size_le, by rw [heq]; exact get?_set_self h.sound hfolder⟩
    · obtain ⟨id, hid, hfile⟩ := h.file l (hl.resolve_right heq)
      exact ⟨id, hid, ((h.changedAt_or hno).keeps_setNewFile hfolder (.inr rfl) content heq).get?_file hfile⟩

/-- A new file is taken away from where nothing stood. -/
theorem remove (h : FilledAt hot start fs) (hfolder : fs.HasFolder place) (hhot : hot place)
    (hnone : start.get? place = none) :
    FilledAt (fun l => hot l ∧ l ≠ place) start (fs.set place none) where
  toChangedAt := by
    refine (h.toChangedAt.remove hfolder hhot).cool (fun _ => And.left) fun l hl hcold => ?_
    obtain rfl : l = place := by_contra fun hne => hcold ⟨hl, hne⟩
    rw [bare?_of_none (get?_set_self h.sound hfolder), bare?_of_none hnone]
  file l hl := by
    obtain ⟨id, hid, hfile⟩ := h.file l hl.1
    exact ⟨id, hid, (h.toChangedAt.keeps_set hfolder hhot (by simp) hl.2).get?_file hfile⟩

/-- A new file is taken away from where nothing stood, and put where no folder stood. -/
theorem move (h : FilledAt hot start fs) (hfolder : fs.HasFolder place) (hhot : hot place)
    (hnone : start.get? place = none) (hgoal : fs.HasFolder goal) (hno : ¬ start.IsFolderAt goal)
    (hne : place ≠ goal) (hid : start.contents.size ≤ id) (hfile : fs.get? place = some (.file id)) :
    FilledAt (fun l => (hot l ∨ l = goal) ∧ l ≠ place) start
      ((fs.set place none).set goal (some (.file id))) := by
  have hmoved := (h.changedAt_or hno).moved hfolder (.inl hhot) hgoal (.inr rfl) hne hfile hid
  refine ⟨hmoved.changed.cool (fun _ => And.left) fun l hl hcold => ?_, fun l hl => ?_⟩
  · obtain rfl : l = place := by_contra fun hother => hcold ⟨hl, hother⟩
    rw [bare?_of_none hmoved.gone, bare?_of_none hnone]
  · obtain ⟨hl, hlne⟩ := hl
    by_cases heq : l = goal
    · exact ⟨id, hid, heq ▸ hmoved.there⟩
    · obtain ⟨old, hold, hlfile⟩ := h.file l (hl.resolve_right heq)
      exact ⟨old, hold, (hmoved.keeps l hlne heq).get?_file hlfile⟩

end FilledAt

/-- `fs` is what has become of `start` when new files have been put at allowed places, and nowhere
else. -/
def FilledWithin (allowed : Location → Prop) (start fs : FileSystem) : Prop :=
  ∃ hot, FilledAt hot start fs ∧ ∀ place, hot place → allowed place

namespace FilledWithin

variable {allowed allowed' : Location → Prop} {start fs : FileSystem}

protected theorem refl (h : start.isSound) (allowed : Location → Prop) : FilledWithin allowed start start :=
  ⟨_, .refl h, nofun⟩

theorem mono (h : FilledWithin allowed start fs) (hle : ∀ place, allowed place → allowed' place) :
    FilledWithin allowed' start fs := by
  obtain ⟨hot, hfilled, hallowed⟩ := h
  exact ⟨hot, hfilled, fun place hhot => hle place (hallowed place hhot)⟩

end FilledWithin

/-- What has become of `fs`: new files stand at allowed places only, and everything but what is at the
touched places is as it was. -/
structure Touches (allowed : Location → Prop) (start : FileSystem) (touched : Location → Prop)
    (fs fs' : FileSystem) : Prop where
  filled : FilledWithin allowed start fs'
  keeps : ∀ place, ¬ touched place → Keeps fs fs' place

theorem Touches.refl {allowed : Location → Prop} {start fs : FileSystem} (h : FilledWithin allowed start fs)
    (touched : Location → Prop) : Touches allowed start touched fs fs :=
  ⟨h, fun place _ => Keeps.refl fs place⟩

end FileSystem

namespace Replacement

open FileSystem

/-! ## Steps at the temporary file -/

/-- The steps that make a temporary file, write to it or take it away. -/
inductive IsDraftStep (temp : Path) : WriteStep → Prop
  | create : IsDraftStep temp (.create temp)
  | append (bytes : Bytes) : IsDraftStep temp (.append temp bytes)
  | sync : IsDraftStep temp (.sync temp)
  | remove : IsDraftStep temp (.remove temp)

theorem createFile_of_file {fs : FileSystem} {path : Path} {t : Target} {id : FileId}
    (h : fs.locate false path = .ok t) (hfile : t.node? = some (.file id)) :
    fs.createFile path = .ok (fs.setContent id .empty) := by
  rw [createFile, locate_true h (by simp [hfile]), node?_eq_some_iff.1 hfile]
  rfl

theorem appendFile_of_error {fs : FileSystem} {path : Path} {e : IoError}
    (h : fs.locate false path = .error e) (bytes : Bytes) : fs.appendFile path bytes = .error e := by
  rw [appendFile, locate_true_of_error h]
  rfl

theorem appendFile_of_absent {fs : FileSystem} {path : Path} {t : Target}
    (h : fs.locate false path = .ok t) (hnone : t.node? = none) (bytes : Bytes) :
    fs.appendFile path bytes = .error (.os .notFound) := by
  rw [appendFile, locate_true h (by simp [hnone])]
  obtain ⟨folder, name, rfl⟩ := node?_eq_none_iff.1 hnone
  rfl

section Step

variable {allowed hot : Location → Prop} {start fs fs' : FileSystem} {temp report : Path} {t : Target}
  {device : WriteDevice} {step : WriteStep}

/-- What stands at the end of the path, if anything does, is a new file. -/
inductive DraftAt (hot : Location → Prop) (start fs : FileSystem) (t : Target) : Prop
  | absent (hnone : t.node? = none)
  | file (id : FileId) (hhot : hot t.place) (hid : start.contents.size ≤ id)
      (hfile : t.node? = some (.file id)) (hfolder : fs.HasFolder t.place)

variable (hnew : ∀ place, start.LeadsTo temp place → start.get? place = none)
include hnew

theorem not_isFolderAt_new (h : FilledAt hot start fs) (ht : fs.locate false temp = .ok t) :
    ¬ start.IsFolderAt t.place := by
  rintro ⟨node, hnode, -⟩
  cases (hnew _ (h.leadsTo_start ⟨t, ht, rfl⟩)).symm.trans hnode

theorem hasFolder_new (h : FilledAt hot start fs) (ht : fs.locate false temp = .ok t) :
    fs.HasFolder t.place :=
  LeadsTo.hasFolder ⟨t, ht, rfl⟩ h.sound fun hfolder =>
    not_isFolderAt_new hnew h ht (h.isFolderAt_iff.1 hfolder)

theorem draftAt (h : FilledAt hot start fs) (ht : fs.locate false temp = .ok t) : DraftAt hot start fs t := by
  have hnone := hnew _ (h.leadsTo_start ⟨t, ht, rfl⟩)
  have hnode := (isFound_of_locate h.isFolderAt_current ht).get?
  by_cases hhot : hot t.place
  · obtain ⟨id, hid, hfile⟩ := h.file t.place hhot
    exact .file id hhot hid (hnode.symm.trans hfile) (hasFolder_new hnew h ht)
  · refine .absent (hnode.symm.trans ?_)
    rw [← bare?_eq_none_iff, h.bare? t.place hhot, bare?_of_none hnone]

variable (hallowed : ∀ place, start.LeadsTo temp place → allowed place) (h : FilledWithin allowed start fs)
include hallowed h

/-- An empty file is made, or nothing happens. -/
theorem perform_create_cases : (∃ e, perform fs (.create temp) = (fs, some e)) ∨
    ∃ fs', perform fs (.create temp) = (fs', none) ∧ Touches allowed start (start.LeadsTo temp) fs fs' ∧
      Holds start fs' temp [] := by
  obtain ⟨hot, hfilled, hle⟩ := h
  rw [perform]
  cases hlocate : fs.locate false temp with
  | error e => exact .inl ⟨e, by rw [createFile_of_error hlocate]; rfl⟩
  | ok t =>
    have hleads := hfilled.leadsTo_start ⟨t, hlocate, rfl⟩
    have hno := not_isFolderAt_new hnew hfilled hlocate
    have hne : ∀ {place}, ¬ start.LeadsTo temp place → place ≠ t.place := by
      rintro place hplace rfl
      exact hplace hleads
    cases draftAt hnew hfilled hlocate with
    | absent hnone =>
      have hfolder := hasFolder_new hnew hfilled hlocate
      refine .inr ⟨fs.setNewFile t.place .empty, by rw [createFile_of_absent hlocate hnone]; rfl,
        ⟨⟨_, hfilled.setNewFile hfolder hno .empty, fun place hplace => ?_⟩, fun place hplace => ?_⟩, ?_⟩
      · obtain hhot | rfl := hplace
        · exact hle place hhot
        · exact hallowed _ hleads
      · exact (hfilled.changedAt_or hno).keeps_setNewFile hfolder (.inr rfl) .empty (hne hplace)
      · exact ⟨t.place, fs.contents.size, hleads, hno, get?_set_self hfilled.sound hfolder, hfilled.size_le,
          content_setNewFile_self⟩
    | file id _ hid hfile _ =>
      have hget := (isFound_of_locate hfilled.isFolderAt_current hlocate).get?.trans hfile
      refine .inr ⟨fs.setContent id .empty, by rw [createFile_of_file hlocate hfile]; rfl,
        ⟨⟨hot, hfilled.setContent hid .empty, hle⟩, fun place hplace => ?_⟩, ?_⟩
      · exact hfilled.toChangedAt.keeps_setContent hid hget .empty (hne hplace)
      · exact ⟨t.place, id, hleads, hno, hget, hid, content_setContent_self (lt_size_of_get? hfilled.sound hget)⟩

omit hallowed in
/-- The bytes are added to the file, or nothing happens. -/
theorem perform_append_cases (bytes : Bytes) : (∃ e, perform fs (.append temp bytes) = (fs, some e)) ∨
    ∃ fs', perform fs (.append temp bytes) = (fs', none) ∧
      Touches allowed start (start.LeadsTo temp) fs fs' ∧
      ∀ held, Holds start fs temp held → Holds start fs' temp (held ++ bytes) := by
  obtain ⟨hot, hfilled, hle⟩ := h
  rw [perform]
  cases hlocate : fs.locate false temp with
  | error e => exact .inl ⟨e, by rw [appendFile_of_error hlocate]; rfl⟩
  | ok t =>
    have hleads := hfilled.leadsTo_start ⟨t, hlocate, rfl⟩
    cases draftAt hnew hfilled hlocate with
    | absent hnone => exact .inl ⟨.os .notFound, by rw [appendFile_of_absent hlocate hnone]; rfl⟩
    | file id _ hid hfile _ =>
      have hget := (isFound_of_locate hfilled.isFolderAt_current hlocate).get?.trans hfile
      refine .inr ⟨_, by rw [appendFile_of_file hlocate hfile]; rfl,
        ⟨⟨hot, hfilled.setContent hid _, hle⟩, fun place hplace => ?_⟩, fun held hholds => ?_⟩
      · refine hfilled.toChangedAt.keeps_setContent hid hget _ ?_
        rintro rfl
        exact hplace hleads
      · obtain ⟨place, other, hplace, hno, hother, -, hcontent⟩ := hholds
        obtain rfl := hleads.unique hplace
        obtain rfl := Node.file.inj (Option.some.inj (hget.symm.trans hother))
        refine ⟨t.place, id, hleads, hno, hget, hid, ?_⟩
        rw [content_setContent_self (lt_size_of_get? hfilled.sound hget), hcontent, toByteArray_append]

omit hallowed in
/-- The file is taken away, or nothing happens. -/
theorem perform_remove_cases : (∃ e, perform fs (.remove temp) = (fs, some e)) ∨
    ∃ fs', perform fs (.remove temp) = (fs', none) ∧ Touches allowed start (start.LeadsTo temp) fs fs' ∧
      ∀ place, start.LeadsTo temp place → fs'.get? place = none := by
  obtain ⟨hot, hfilled, hle⟩ := h
  rw [perform]
  cases hlocate : fs.locate false temp with
  | error e => exact .inl ⟨e, by rw [removeFile_of_error hlocate]; rfl⟩
  | ok t =>
    have hleads := hfilled.leadsTo_start ⟨t, hlocate, rfl⟩
    cases draftAt hnew hfilled hlocate with
    | absent hnone => exact .inl ⟨.os .notFound, by rw [removeFile_of_absent hlocate hnone]; rfl⟩
    | file id hhot _ hfile hfolder =>
      refine .inr ⟨_, by rw [removeFile_of_file hlocate hfile]; rfl,
        ⟨⟨_, hfilled.remove hfolder hhot (hnew _ hleads), fun place hplace => hle place hplace.1⟩,
          fun place hplace => ?_⟩, fun place hplace => ?_⟩
      · refine hfilled.toChangedAt.keeps_set hfolder hhot (by simp) ?_
        rintro rfl
        exact hplace hleads
      · obtain rfl := hleads.unique hplace
        exact get?_set_self hfilled.sound hfolder

/-- However such a step ends, nothing is different at any other place. -/
theorem touches_of_isDraftStep (hdevice : WriteDevice.IsFaithful device) (hstep : IsDraftStep temp step) :
    Touches allowed start (start.LeadsTo temp) fs (device fs step).1 := by
  have happend : ∀ bytes, Touches allowed start (start.LeadsTo temp) fs (perform fs (.append temp bytes)).1 := by
    intro bytes
    obtain ⟨e, hsame⟩ | ⟨fs', hdone, htouches, -⟩ := perform_append_cases hnew h bytes
    · rw [hsame]
      exact .refl h _
    · rwa [hdone]
  have hgives := hdevice.step fs step
  generalize device fs step = result at hgives
  cases hgives with
  | failed e => exact .refl h _
  | inPart hpart _ e =>
    subst hpart
    cases hstep
    exact happend _
  | performed =>
    cases hstep with
    | create =>
      obtain ⟨e, hsame⟩ | ⟨fs', hdone, htouches, -⟩ := perform_create_cases hnew hallowed h
      · rw [hsame]
        exact .refl h _
      · rwa [hdone]
    | append bytes => exact happend bytes
    | sync => exact .refl h _
    | remove =>
      obtain ⟨e, hsame⟩ | ⟨fs', hdone, htouches, -⟩ := perform_remove_cases hnew h
      · rw [hsame]
        exact .refl h _
      · rwa [hdone]

/-! ## The last step -/

omit hallowed in
/-- The file gets its other name, or nothing happens. -/
theorem cases_of_move (hdevice : WriteDevice.IsFaithful device)
    (hapart : ∀ place, start.LeadsTo temp place → ¬ start.LeadsTo report place) :
    (∃ e, device fs (.move temp report) = (fs, some e)) ∨
      ∃ fs' goal, device fs (.move temp report) = (fs', none) ∧ start.LeadsTo report goal ∧
        ¬ start.IsFolderAt goal ∧
        Touches (fun l => allowed l ∨ l = goal) start (fun l => start.LeadsTo temp l ∨ start.LeadsTo report l)
          fs fs' ∧
        (∀ place, start.LeadsTo temp place → fs'.get? place = none) ∧
        ∀ held, Holds start fs temp held → Holds start fs' report held := by
  obtain hperform | hfailed := hdevice.whole fs (.move temp report) nofun
  swap
  · exact .inl hfailed
  obtain ⟨hot, hfilled, hle⟩ := h
  rw [hperform, perform]
  cases hlocate : fs.locate false temp with
  | error e => exact .inl ⟨e, by rw [moveFile, hlocate]; rfl⟩
  | ok t =>
    cases draftAt hnew hfilled hlocate with
    | absent hnone =>
      obtain ⟨folder, name, rfl⟩ := node?_eq_none_iff.1 hnone
      exact .inl ⟨.os .notFound, by rw [moveFile, hlocate]; rfl⟩
    | file id hhot hid hfile hfolder =>
      cases hfault : fs.moveFault? report with
      | some e => exact .inl ⟨e, by rw [moveFile_of_fault hlocate hfile hfault]; rfl⟩
      | none =>
        obtain ⟨goal, ⟨t', ht', rfl⟩, hgoalNo⟩ := exists_leadsTo_of_moveFault? hfilled.sound hfault
        have htemp := hfilled.leadsTo_start ⟨t, hlocate, rfl⟩
        have hgoal := hfilled.leadsTo_start ⟨t', ht', rfl⟩
        have hne : t.place ≠ t'.place := fun heq => hapart _ htemp (heq ▸ hgoal)
        have hno : ¬ start.IsFolderAt t'.place := fun hstart => hgoalNo (hfilled.isFolderAt_iff.2 hstart)
        have hget := (isFound_of_locate hfilled.isFolderAt_current hlocate).get?.trans hfile
        have hgoalFolder : fs.HasFolder t'.place := LeadsTo.hasFolder ⟨t', ht', rfl⟩ hfilled.sound hgoalNo
        have hmoved := (hfilled.changedAt_or hno).moved hfolder (.inl hhot) hgoalFolder (.inr rfl) hne hget hid
        refine .inr ⟨_, t'.place, by rw [moveFile_of_file hlocate hfile ht' hfault]; rfl, hgoal, hno,
          ⟨⟨_, hfilled.move hfolder hhot (hnew _ htemp) hgoalFolder hno hne hid hget,
            fun place hplace => hplace.1.imp_left (hle place)⟩, fun place hplace => ?_⟩,
          fun place hplace => ?_, fun held hholds => ?_⟩
        · refine hmoved.keeps place ?_ ?_
          · rintro rfl
            exact hplace (.inl htemp)
          · rintro rfl
            exact hplace (.inr hgoal)
        · obtain rfl := htemp.unique hplace
          exact hmoved.gone
        · obtain ⟨place, other, hplace, -, hother, -, hcontent⟩ := hholds
          obtain rfl := htemp.unique hplace
          obtain rfl := Node.file.inj (Option.some.inj (hget.symm.trans hother))
          exact ⟨t'.place, id, hgoal, hno, hmoved.there, hid, hcontent⟩

end Step

/-! ## The steps that are left -/

section Left

variable {allowed : Location → Prop} {start fs fs' : FileSystem} {temp report : Path} {device : WriteDevice}
  {held : Option Bytes} {content : Bytes} {step : WriteStep} {rest : List WriteStep}

/-- The next step is one at the temporary file, or it is the last one and the file is complete. -/
theorem Left.step_cases (h : Left start temp report content held none (step :: rest)) :
    IsDraftStep temp step ∧ rest ≠ [] ∨ step = .move temp report ∧ rest = [] ∧ held = some content := by
  cases h with
  | all => exact .inl ⟨.create, List.cons_ne_nil _ _⟩
  | created => exact .inl ⟨.append content, List.cons_ne_nil _ _⟩
  | appended => exact .inl ⟨.sync, List.cons_ne_nil _ _⟩
  | synced => exact .inr ⟨rfl, rfl, rfl⟩

/-- When a step at the temporary file is done, it holds what it should. -/
theorem Left.next (hnew : ∀ place, start.LeadsTo temp place → start.get? place = none)
    (hallowed : ∀ place, start.LeadsTo temp place → allowed place) (hfilled : FilledWithin allowed start fs)
    (hdevice : WriteDevice.IsFaithful device)
    (h : Left start temp report content held none (step :: rest)) (hrest : rest ≠ [])
    (hheld : ∀ bytes, held = some bytes → Holds start fs temp bytes) (hdone : device fs step = (fs', none)) :
    ∃ held', Left start temp report content held' none rest ∧
      ∀ bytes, held' = some bytes → Holds start fs' temp bytes := by
  have hperform := hdevice.eq_perform hdone
  cases h with
  | all =>
    obtain ⟨e, hsame⟩ | ⟨fs₁, hmade, -, hholds⟩ := perform_create_cases hnew hallowed hfilled
    · cases (Prod.mk.inj (hsame.symm.trans hperform)).2
    · obtain ⟨rfl, -⟩ := Prod.mk.inj (hmade.symm.trans hperform)
      exact ⟨some [], .created, fun bytes hbytes => Option.some.inj hbytes ▸ hholds⟩
  | created =>
    obtain ⟨e, hsame⟩ | ⟨fs₁, hmade, -, hholds⟩ := perform_append_cases hnew hfilled content
    · cases (Prod.mk.inj (hsame.symm.trans hperform)).2
    · obtain ⟨rfl, -⟩ := Prod.mk.inj (hmade.symm.trans hperform)
      exact ⟨some content, .appended, fun bytes hbytes => Option.some.inj hbytes ▸ hholds [] (hheld [] rfl)⟩
  | appended =>
    obtain ⟨rfl, -⟩ := Prod.mk.inj hperform
    exact ⟨some content, .synced, hheld⟩
  | synced => exact absurd rfl hrest

end Left

end Replacement

end ApiSurface
