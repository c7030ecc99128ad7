import ApiSurface.Proofs.Storage.Replacement

/-!
Files that are put where no folders are.

Whatever stood at a place, a link or a file or nothing, once a new file stands there it ends every walk
that comes to it with names left. So paths are lost and none is won: one that still leads somewhere
leads to where it led at the start.
-/

namespace ApiSurface

namespace FileSystem

theorem bare?_of_none {fs : FileSystem} {place : Location} (h : fs.get? place = none) :
    fs.bare? place = none :=
  bare?_eq_none_iff.2 h

/-! ## Walks that are not refused -/

/-- A walk is refused, or the other one ends where it does. -/
inductive Walk.GoesWith : Walk → Walk → Prop
  | done {t t' : Target} (h : t'.place = t.place) : GoesWith (.done t) (.done t')
  | refused (e : OsError) (w : Walk) : GoesWith (.refused e) w
  | link (folder : Location) (target : OsString) (rest : List OsString) :
      GoesWith (.link folder target rest) (.link folder target rest)

section GoesWith

variable {fs fs' : FileSystem} {path : Path} {place : Location} {w w' : Walk}
  (hgoes : ∀ {place names}, fs.IsFolderAt place →
    (fs.walk false place names).GoesWith (fs'.walk false place names))
include hgoes

theorem place_walkOn {links : Nat} {t : Target} (hw : w.GoesWith w') (hfound : w.IsFound fs)
    (ht : fs.walkOn false links w = .ok t) :
    ∃ t', fs'.walkOn false links w' = .ok t' ∧ t'.place = t.place := by
  induction links generalizing w w' with
  | zero =>
    cases hw with
    | @done _ t' hplace =>
      obtain rfl := Except.ok.inj ht
      exact ⟨t', rfl, hplace⟩
    | refused e => cases ht
    | link folder target rest => cases ht
  | succ links ih =>
    cases hw with
    | @done _ t' hplace =>
      obtain rfl := Except.ok.inj ht
      exact ⟨t', rfl, hplace⟩
    | refused e => cases ht
    | link folder target rest =>
      rw [walkOn] at ht ⊢
      by_cases htarget : target = ""
      · rw [if_pos htarget] at ht
        cases ht
      rw [if_neg htarget] at ht ⊢
      exact ih (hgoes (isFolderAt_startOf hfound.1)) (isFound_behind hfound) ht

/-- Where walks are refused or end at the same place, paths lead nowhere or to the same place. -/
theorem LeadsTo.of_goesWith (h : fs.LeadsTo path place) (hcurrent : fs'.current = fs.current)
    (hfolder : fs.IsFolderAt fs.current) : fs'.LeadsTo path place := by
  obtain ⟨t, ht, rfl⟩ := h
  obtain ⟨hrefusal, hon⟩ := locate_eq_ok.1 ht
  have hstart : fs.IsFolderAt (startOf fs.current path.text) := isFolderAt_startOf hfolder
  obtain ⟨t', ht', hplace⟩ := place_walkOn hgoes (hgoes hstart)
    (isFound_walk hstart fun _ => isPart_of_mem_segmentsOf) hon
  rw [← hcurrent] at ht'
  exact ⟨t', locate_eq_ok.2 ⟨hrefusal, ht'⟩, hplace⟩

end GoesWith

/-! ## Paths that are lost -/

/-- `fs` is what has become of `start` when new files have been put at the hot places. -/
structure FilledAt (hot : Location → Prop) (start fs : FileSystem) : Prop extends
    ChangedAt hot start fs where
  file : ∀ place, hot place → ∃ id, start.contents.size ≤ id ∧ fs.get? place = some (.file id)

namespace FilledAt

variable {hot : Location → Prop} {start fs : FileSystem} {place : Location} {names : List OsString}
  {path : Path}

protected theorem refl (h : start.isSound) : FilledAt (fun _ => False) start start where
  toChangedAt := .refl h nofun
  file _ := nofun

/-- A link that is there was there at the start. -/
theorem kind?_link (h : FilledAt hot start fs) {target : OsString}
    (hlink : fs.kind? place = some (.link target)) : start.kind? place = some (.link target) := by
  refine (h.kind?_of_cold fun hhot => ?_) ▸ hlink
  obtain ⟨id, -, hfile⟩ := h.file place hhot
  rw [FileSystem.kind?, hfile] at hlink
  cases hlink

/-- What is no folder was none at the start. -/
theorem endsAt_start (h : FilledAt hot start fs) (hends : fs.EndsAt false place) :
    start.EndsAt false place := by
  refine fun old hold => ⟨Bool.eq_false_iff.2 fun hfolder => ?_, nofun⟩
  obtain ⟨node, hnode, hnodeFolder⟩ := h.isFolderAt_iff.2 ⟨old, hold, hfolder⟩
  rw [(hends node hnode).1] at hnodeFolder
  cases hnodeFolder

theorem goesWith_walk (h : FilledAt hot start fs) (hplace : fs.IsFolderAt place) :
    (fs.walk false place names).GoesWith (start.walk false place names) := by
  induction names generalizing place with
  | nil =>
    obtain ⟨old, hold, -⟩ := h.isFolderAt_iff.1 hplace
    obtain ⟨node, hnode, -⟩ := hplace
    rw [walk, walk, hnode, hold]
    exact .done rfl
  | cons name rest ih =>
    by_cases hhere : name = "."
    · subst hhere
      rw [walk_here, walk_here]
      exact ih hplace
    by_cases hup : name = ".."
    · subst hup
      rw [walk_up, walk_up]
      exact ih hplace.dropLast
    by_cases hlength : maxNameBytes < name.length
    · rw [walk_name hhere hup, if_pos hlength]
      exact .refused _ _
    by_cases hlast : rest = [] ∧ fs.EndsAt false (place ++ [name])
    · obtain ⟨rfl, hends⟩ := hlast
      obtain ⟨t, ht, hplace, -⟩ := walk_last hhere hup hlength hends
      obtain ⟨t', ht', hplace', -⟩ := walk_last hhere hup hlength (h.endsAt_start hends)
      rw [ht, ht']
      exact .done (hplace'.trans hplace.symm)
    rw [walk_on hhere hup hlength hlast]
    -- A walk that goes on does so through a folder or a link, and both were there.
    cases hkind : fs.kind? (place ++ [name]) with
    | none => exact .refused _ _
    | some kind =>
      cases kind with
      | folder =>
        have hfolder : fs.IsFolderAt (place ++ [name]) := isFolderAt_iff_kind?.2 hkind
        have hold := isFolderAt_iff_kind?.1 (h.isFolderAt_iff.1 hfolder)
        rw [walk_on hhere hup hlength (by rwa [endsAt_congr (hold.trans hkind.symm)]), hold]
        exact ih hfolder
      | link target =>
        have hold := h.kind?_link hkind
        rw [walk_on hhere hup hlength (by rwa [endsAt_congr (hold.trans hkind.symm)]), hold]
        exact .link place target rest
      | file => exact .refused _ _
      | device => exact .refused _ _

/-- A path that leads somewhere led there at the start. -/
theorem leadsTo_start (h : FilledAt hot start fs) (hplace : fs.LeadsTo path place) :
    start.LeadsTo path place :=
  hplace.of_goesWith (fun hfolder => h.goesWith_walk hfolder) h.current.symm h.isFolderAt_current

end FilledAt

/-! ## Ways -/

section Way

variable {fs fs' : FileSystem} {follow : Bool} {place : Location} {names : List OsString} {links : Nat}
  {w : Walk} {path : Path} {t : Target}

/-- Where a walk is not refused, something stands at all places through which it goes. -/
theorem kind?_of_mem_passed (h : ∀ e, fs.walk follow place names ≠ .refused e) :
    ∀ l ∈ fs.passed follow place names, fs.kind? l ≠ none := by
  induction names generalizing place with
  | nil =>
    rw [passed, List.forall_mem_singleton, kind?]
    rw [walk] at h
    cases hnode : fs.get? place with
    | none =>
      rw [hnode] at h
      exact absurd rfl (h _)
    | some node => exact Option.some_ne_none _
  | cons name rest ih =>
    by_cases hhere : name = "."
    · subst hhere
      rw [walk_here] at h
      rw [passed_here]
      exact ih h
    by_cases hup : name = ".."
    · subst hup
      rw [walk_up] at h
      rw [passed_up]
      exact ih h
    rw [passed_name hhere hup]
    by_cases hlength : maxNameBytes < name.length
    · rw [if_pos hlength]
      exact List.forall_mem_nil _
    rw [if_neg hlength]
    cases hkind : fs.kind? (place ++ [name]) with
    | none =>
      -- Nothing is there, so it has to be the end.
      have hnode : fs.get? (place ++ [name]) = none := Option.map_eq_none_iff.1 hkind
      rw [walk_name hhere hup, if_neg hlength, hnode] at h
      by_cases hrest : rest.isEmpty
      · simp [hrest]
      · simp [hrest] at h
    | some kind =>
      have hself : ∀ l ∈ [place ++ [name]], fs.kind? l ≠ none := by simp [hkind]
      cases kind with
      | folder =>
        obtain ⟨node, hnode, hfolder⟩ := isFolderAt_iff_kind?.2 hkind
        obtain ⟨children, rfl⟩ := Node.exists_children_of_isFolder hfolder
        rw [walk_name hhere hup, if_neg hlength, hnode] at h
        exact List.forall_mem_cons.2 ⟨hself _ List.mem_cons_self, ih h⟩
      | _ =>
        dsimp only
        split
        · exact List.forall_mem_nil _
        · exact hself

theorem kind?_of_mem_passedOn (h : fs.walkOn follow links w = .ok t) :
    ∀ l ∈ fs.passedOn follow links w, fs.kind? l ≠ none := by
  induction links generalizing w with
  | zero =>
    cases w <;> exact List.forall_mem_nil _
  | succ links ih =>
    cases w with
    | done t => exact List.forall_mem_nil _
    | refused e => exact List.forall_mem_nil _
    | link folder target rest =>
      rw [walkOn] at h
      rw [passedOn]
      by_cases htarget : target = ""
      · rw [if_pos htarget]
        exact List.forall_mem_nil _
      rw [if_neg htarget] at h ⊢
      refine List.forall_mem_append.2 ⟨kind?_of_mem_passed fun e he => ?_, ih h⟩
      rw [he] at h
      cases links <;> cases h

/-- On the way of a path that leads somewhere there is no gap. -/
theorem kind?_of_mem_way (h : fs.locate follow path = .ok t) :
    ∀ l ∈ fs.way follow path, fs.kind? l ≠ none := by
  obtain ⟨hrefusal, hon⟩ := locate_eq_ok.1 h
  unfold way
  rw [hrefusal]
  refine List.forall_mem_append.2 ⟨kind?_of_mem_passed fun e he => ?_, kind?_of_mem_passedOn hon⟩
  rw [he] at hon
  cases hon

/-- A path that leads to an empty place leads there as well when something other than a folder has been
put there. -/
theorem LeadsTo.of_put (h : fs.LeadsTo path place) (hcurrent : fs'.current = fs.current)
    (hnone : fs.get? place = none) (hend : fs'.EndsAt false place)
    (hkeeps : ∀ other, other ≠ place → fs'.kind? other = fs.kind? other) : fs'.LeadsTo path place := by
  obtain ⟨t, ht, rfl⟩ := h
  have hplace : (fs'.locate false path).map Target.place = (fs.locate false path).map Target.place := by
    refine locate_congr hcurrent (fun l hl => hkeeps l ?_) fun t' ht' _ => ?_
    · rintro rfl
      exact kind?_of_mem_way ht _ hl (by rw [kind?, hnone]; rfl)
    · rw [ht] at ht'
      rwa [← Except.ok.inj ht']
  rw [ht] at hplace
  cases hlocate : fs'.locate false path with
  | error e =>
    rw [hlocate] at hplace
    cases hplace
  | ok t' =>
    rw [hlocate] at hplace
    exact ⟨t', hlocate, Except.ok.inj hplace⟩

end Way

end FileSystem

end ApiSurface
