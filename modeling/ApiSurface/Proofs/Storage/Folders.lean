import ApiSurface.Proofs.Storage.Filling
import Mathlib.Logic.Relation

/-!
Making a folder and all folders above it.

Empty folders come to stand where nothing stood, and nothing else happens. Every path that led somewhere
leads there still.
-/

namespace ApiSurface

/-- `p` is the path itself, or it stands above it. -/
def Path.IsAbove (p path : Path) : Prop :=
  Relation.ReflTransGen (fun q r => r.parent? = some q) p path

namespace FileSystem

/-! ## More folders -/

/-- `fs'` has the same files as `fs`, and perhaps more folders. -/
structure Grown (fs fs' : FileSystem) : Prop where
  current : fs'.current = fs.current
  contents : fs'.contents = fs.contents
  sound : fs'.isSound
  kept : ∀ place, fs.get? place ≠ none → fs'.bare? place = fs.bare? place
  new : ∀ place, fs.get? place = none → fs'.get? place = none ∨ fs'.IsFolderAt place

namespace Grown

variable {fs fs' fs'' : FileSystem} {place : Location} {names : List OsString} {path : Path}

protected theorem refl (h : fs.isSound) : Grown fs fs :=
  ⟨rfl, rfl, h, fun _ _ => rfl, fun _ hnone => .inl hnone⟩

theorem isFolderAt (h : Grown fs fs') (hfolder : fs.IsFolderAt place) : fs'.IsFolderAt place := by
  refine hfolder.congr (h.kept place ?_)
  obtain ⟨node, hnode, -⟩ := hfolder
  rw [hnode]
  exact Option.some_ne_none _

theorem trans (h : Grown fs fs') (h' : Grown fs' fs'') : Grown fs fs'' where
  current := h'.current.trans h.current
  contents := h'.contents.trans h.contents
  sound := h'.sound
  kept place hsome := by
    have hbare := h.kept place hsome
    refine (h'.kept place fun hnone => hsome ?_).trans hbare
    rwa [← bare?_eq_none_iff, ← hbare, bare?_eq_none_iff]
  new place hnone := by
    obtain hnone' | hfolder := h.new place hnone
    · exact h'.new place hnone'
    · exact .inr (h'.isFolderAt hfolder)

theorem keeps (h : Grown fs fs') (hsome : fs.get? place ≠ none) : Keeps fs fs' place where
  bare? := h.kept place hsome
  content id _ := by rw [content, content, h.contents]

theorem goesWith_walk (h : Grown fs fs') :
    (fs.walk false place names).GoesWith (fs'.walk false place names) := by
  induction names generalizing place with
  | nil =>
    rw [walk, walk]
    cases hnode : fs.get? place with
    | none => exact .refused _ _
    | some node =>
      have hkind := kind?_congr (h.kept place (by rw [hnode]; exact Option.some_ne_none _))
      rw [kind?, kind?, hnode] at hkind
      obtain ⟨node', hnode', -⟩ := Option.map_eq_some_iff.1 hkind
      rw [hnode']
      exact .done rfl
  | cons name rest ih =>
    by_cases hhere : name = "."
    · subst hhere
      rw [walk_here, walk_here]
      exact ih
    by_cases hup : name = ".."
    · subst hup
      rw [walk_up, walk_up]
      exact ih
    by_cases hlength : maxNameBytes < name.length
    · rw [walk_name hhere hup, if_pos hlength]
      exact .refused _ _
    cases hnode : fs.get? (place ++ [name]) with
    | none =>
      -- The end of the walk, where a folder may stand now.
      rw [walk_name hhere hup, if_neg hlength, hnode]
      by_cases hrest : rest.isEmpty
      swap
      · simp only [hrest]
        exact .refused _ _
      obtain rfl := List.isEmpty_iff.1 hrest
      obtain hnone | ⟨node', hnode', hfolder⟩ := h.new _ hnode
      · rw [walk_name hhere hup, if_neg hlength, hnone]
        exact .done rfl
      · obtain ⟨children, rfl⟩ := Node.exists_children_of_isFolder hfolder
        rw [walk_name hhere hup, if_neg hlength, hnode']
        simp only [walk, hnode']
        exact .done rfl
    | some node =>
      have hkind : fs'.kind? (place ++ [name]) = fs.kind? (place ++ [name]) :=
        kind?_congr (h.kept _ (by rw [hnode]; exact Option.some_ne_none _))
      by_cases hlast : rest = [] ∧ fs.EndsAt false (place ++ [name])
      · obtain ⟨rfl, hends⟩ := hlast
        obtain ⟨t, ht, hplace, -⟩ := walk_last hhere hup hlength hends
        obtain ⟨t', ht', hplace', -⟩ := walk_last hhere hup hlength ((endsAt_congr hkind).2 hends)
        rw [ht, ht']
        exact .done (hplace'.trans hplace.symm)
      rw [walk_on hhere hup hlength hlast,
        walk_on hhere hup hlength (by rwa [endsAt_congr hkind]), hkind]
      cases fs.kind? (place ++ [name]) with
      | none => exact .refused _ _
      | some kind =>
        cases kind with
        | folder => exact ih
        | link target => exact .link place target rest
        | file => exact .refused _ _
        | device => exact .refused _ _

theorem leadsTo (h : Grown fs fs') (hfolder : fs.IsFolderAt fs.current) (hplace : fs.LeadsTo path place) :
    fs'.LeadsTo path place :=
  hplace.of_goesWith (fun _ => h.goesWith_walk) h.current hfolder

end Grown

/-! ## Making them -/

/-- Folders have been made for a path: each new one stands where the path leads, or a path above it. -/
structure FoldersMade (path : Path) (fs fs' : FileSystem) : Prop extends Grown fs fs' where
  made : ∀ place, fs.get? place = none → fs'.get? place ≠ none →
    ∃ p, p.IsAbove path ∧ fs'.LeadsTo (withoutSlashes p) place

section Make

variable {fs fs' fs'' : FileSystem} {path goal : Path} {place : Location}

theorem FoldersMade.of_none (h : fs.isSound) : FoldersMade goal fs fs where
  toGrown := .refl h
  made _ hnone hsome := absurd hnone hsome

theorem FoldersMade.trans (h : FoldersMade goal fs fs') (h' : FoldersMade goal fs' fs'') :
    FoldersMade goal fs fs'' where
  toGrown := h.toGrown.trans h'.toGrown
  made place hnone hsome := by
    by_cases hnone' : fs'.get? place = none
    · exact h'.made place hnone' hsome
    · obtain ⟨p, habove, hplace⟩ := h.made place hnone hnone'
      exact ⟨p, habove, h'.leadsTo (isSound_iff.1 h.sound).2 hplace⟩

theorem bare?_set_folder (h : fs.isSound) (hfolder : fs.HasFolder place) (hnone : fs.get? place = none)
    {other : Location} (hne : other ≠ place) :
    (fs.set place (some (.folder []))).bare? other = fs.bare? other := by
  refine bare?_set_of_ne h hfolder (fun new hnew => ?_) (fun old hold => ?_) hne
  · obtain rfl := Option.some.inj hnew
    rfl
  · rw [hnone] at hold
    cases hold

/-- An empty folder is put where nothing stands. -/
theorem grown_set (h : fs.isSound) (hfolder : fs.HasFolder place) (hnone : fs.get? place = none) :
    Grown fs (fs.set place (some (.folder []))) := by
  have hself : (fs.set place (some (.folder []))).get? place = some (.folder []) := get?_set_self h hfolder
  have hkept : ∀ other, fs.get? other ≠ none →
      (fs.set place (some (.folder []))).bare? other = fs.bare? other := by
    refine fun other hsome => bare?_set_folder h hfolder hnone ?_
    rintro rfl
    exact hsome hnone
  have hcurrent : fs.IsFolderAt fs.current := (isSound_iff.1 h).2
  refine ⟨rfl, rfl, isSound_iff.2 ⟨?_, hcurrent.congr (hkept fs.current ?_)⟩, hkept, fun other hother => ?_⟩
  · obtain ⟨folder, name, rfl, ⟨parent, hparent, -⟩, hname⟩ := hfolder
    refine Node.isSound_set (isSound_iff.1 h).1 hparent hname fun new hnew => ?_
    obtain rfl := Option.some.inj hnew
    exact Node.isSound_folder_iff.2 ⟨List.nodup_nil, nofun⟩
  · obtain ⟨node, hnode, -⟩ := hcurrent
    rw [hnode]
    exact Option.some_ne_none _
  · by_cases heq : other = place
    · subst heq
      exact .inr ⟨_, hself, rfl⟩
    · exact .inl (bare?_eq_none_iff.1 ((bare?_set_folder h hfolder hnone heq).trans (bare?_of_none hother)))

/-- A folder is made where nothing stands, at the end of a path that is short enough. -/
theorem createFolder_eq_ok (hmade : fs.createFolder path = .ok fs') :
    path.text.length < maxPathBytes ∧ ∃ folder name,
      fs.locate false (withoutSlashes path) = .ok (.absent folder name) ∧
        fs' = fs.set (folder ++ [name]) (some (.folder [])) := by
  unfold createFolder at hmade
  by_cases hlength : maxPathBytes ≤ path.text.length
  · rw [if_pos hlength] at hmade
    cases hmade
  rw [if_neg hlength] at hmade
  refine ⟨Nat.lt_of_not_le hlength, ?_⟩
  cases hlocate : fs.locate false (withoutSlashes path) with
  | error e =>
    rw [hlocate] at hmade
    cases hmade
  | ok t =>
    rw [hlocate] at hmade
    cases t with
    | present place node => cases hmade
    | absent folder name => exact ⟨folder, name, rfl, (Except.ok.inj hmade).symm⟩

theorem foldersMade_createFolder (h : fs.isSound) (habove : path.IsAbove goal)
    (hmade : fs.createFolder path = .ok fs') : FoldersMade goal fs fs' := by
  obtain ⟨-, folder, name, hlocate, rfl⟩ := createFolder_eq_ok hmade
  have hfound := isFound_of_locate (isSound_iff.1 h).2 hlocate
  have hnone : fs.get? (folder ++ [name]) = none := hfound.get?
  have hfolder : fs.HasFolder (folder ++ [name]) := hfound.hasFolder nofun
  have hgrown := grown_set h hfolder hnone
  refine ⟨hgrown, fun place hplace hsome => ⟨path, habove, ?_⟩⟩
  obtain rfl : place = folder ++ [name] := by
    by_contra hne
    exact hsome (bare?_eq_none_iff.1
      ((bare?_set_folder h hfolder hnone hne).trans (bare?_of_none hplace)))
  exact hgrown.leadsTo (isSound_iff.1 h).2 ⟨_, hlocate, rfl⟩

theorem foldersMade_unlessThere (h : fs.isSound) (habove : path.IsAbove goal) :
    FoldersMade goal fs (fs.createFolderUnlessThere path).1 := by
  have hnothing : FoldersMade goal fs fs := .of_none h
  unfold createFolderUnlessThere
  split
  · rename_i made hmade
    exact foldersMade_createFolder h habove hmade
  · exact hnothing

theorem foldersMade_after {above : Path → FileSystem → FileSystem × Option IoError} (h : fs.isSound)
    (habove : path.IsAbove goal) (hmade : FoldersMade goal fs (above path fs).1) :
    FoldersMade goal fs (createFolderAfter above path fs).1 := by
  have hnothing : FoldersMade goal fs fs := .of_none h
  unfold createFolderAfter
  split
  · exact hnothing
  split
  · rw [if_pos rfl]
    cases hresult : above path fs with
    | mk made e? =>
      rw [hresult] at hmade
      cases e? with
      | some e => exact hmade
      | none => exact hmade.trans (foldersMade_unlessThere hmade.sound habove)
  · rw [if_neg Bool.false_ne_true]
    exact foldersMade_unlessThere h habove

/-- However far up folders are missing. -/
theorem foldersMade_createFoldersUp (steps : Nat) (h : fs.isSound) (habove : path.IsAbove goal) :
    FoldersMade goal fs (createFoldersUp steps path fs).1 := by
  have hnothing : FoldersMade goal fs fs := .of_none h
  induction steps generalizing path with
  | zero =>
    rw [createFoldersUp]
    refine foldersMade_after h habove ?_
    exact hnothing
  | succ steps ih =>
    rw [createFoldersUp]
    refine foldersMade_after h habove ?_
    cases hparent : path.parent? with
    | none => exact hnothing
    | some parent =>
      have hparentAbove : parent.IsAbove goal := Relation.ReflTransGen.head hparent habove
      exact ih hparentAbove

/-- What is made for a path, whether the folder comes to stand there or not. -/
theorem foldersMade_createFolders (h : fs.isSound) (path : Path) :
    FoldersMade path fs (fs.createFolders path).1 :=
  foldersMade_createFoldersUp _ h Relation.ReflTransGen.refl

theorem FoldersMade.of_createFolders {made : FileSystem} {e? : Option IoError} (h : fs.isSound)
    (hmade : fs.createFolders path = (made, e?)) : FoldersMade path fs made := by
  have hfolders := foldersMade_createFolders h path
  rwa [hmade] at hfolders

end Make

end FileSystem

end ApiSurface
