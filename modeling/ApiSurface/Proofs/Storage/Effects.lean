import ApiSurface.Proofs.Storage.Locate

/-!
What a change of one file leaves alone.

Files are made, written to, moved and taken away at certain places, none of them a folder. What stands
at any other place stays, and so does what is in the files that were there before: their numbers are
not given again.
-/

namespace ApiSurface

namespace FileSystem

/-! ## Sound file systems -/

/-- The tree is sound, and the current folder is one. -/
def isSound (fs : FileSystem) : Bool :=
  fs.root.isSound fs.contents.size && (fs.get? fs.current).any (·.isFolder)

theorem isSound_iff {fs : FileSystem} : fs.isSound = true ↔
    fs.root.isSound fs.contents.size = true ∧ fs.IsFolderAt fs.current := by
  rw [isSound, Bool.and_eq_true, Option.any_eq_true]
  rfl

/-- The number of a file is one of the table. -/
theorem lt_size_of_get? {fs : FileSystem} {place : Location} {id : FileId} (h : fs.isSound)
    (hfile : fs.get? place = some (.file id)) : id < fs.contents.size := by
  have hnode := Node.isSound_get? (isSound_iff.1 h).1 hfile
  rw [Node.isSound] at hnode
  exact of_decide_eq_true hnode

/-! ## What stands at a place -/

section Bare

variable {fs fs' : FileSystem} {place : Location}

theorem bare?_eq_some_iff {node : Node} (h : node.isFolder = false) :
    fs.bare? place = some node ↔ fs.get? place = some node := by
  rw [bare?]
  cases hget : fs.get? place with
  | none => simp
  | some found =>
    cases hfolder : found.isFolder with
    | false => simp [Node.bare_of_not_isFolder hfolder]
    | true =>
      simp only [Option.map_some, Option.some.injEq, Node.bare_of_isFolder hfolder]
      constructor
      · rintro rfl
        cases h
      · rintro rfl
        rw [h] at hfolder
        cases hfolder

theorem bare?_eq_none_iff : fs.bare? place = none ↔ fs.get? place = none :=
  Option.map_eq_none_iff

theorem IsFolderAt.congr (h : fs'.bare? place = fs.bare? place) (hfolder : fs.IsFolderAt place) :
    fs'.IsFolderAt place := by
  rw [isFolderAt_iff_kind?] at hfolder ⊢
  rw [kind?_congr h, hfolder]

/-- What is no folder is the same where the places are. -/
theorem get?_eq_of_bare? (h : fs'.bare? place = fs.bare? place)
    (hnode : ∀ node, fs.get? place = some node → node.isFolder = false) :
    fs'.get? place = fs.get? place := by
  cases hget : fs.get? place with
  | none => rwa [← bare?_eq_none_iff, h, bare?_eq_none_iff]
  | some node =>
    have hfolder := hnode node hget
    rwa [← bare?_eq_some_iff hfolder, h, bare?_eq_some_iff hfolder]

end Bare

/-- `fs'` has at a place what `fs` has there, and with the same content. -/
structure Keeps (fs fs' : FileSystem) (place : Location) : Prop where
  bare? : fs'.bare? place = fs.bare? place
  content : ∀ id, fs.get? place = some (.file id) → fs'.content id = fs.content id

namespace Keeps

variable {fs fs' fs'' : FileSystem} {place : Location}

protected theorem refl (fs : FileSystem) (place : Location) : Keeps fs fs place :=
  ⟨rfl, fun _ _ => rfl⟩

theorem get?_file (h : Keeps fs fs' place) {id : FileId} (hfile : fs.get? place = some (.file id)) :
    fs'.get? place = some (.file id) := by
  rwa [← bare?_eq_some_iff rfl, h.bare?, bare?_eq_some_iff rfl]

theorem get?_none (h : Keeps fs fs' place) (hnone : fs.get? place = none) : fs'.get? place = none := by
  rwa [← bare?_eq_none_iff, h.bare?, bare?_eq_none_iff]

theorem trans (h : Keeps fs fs' place) (h' : Keeps fs' fs'' place) : Keeps fs fs'' place :=
  ⟨h'.bare?.trans h.bare?, fun id hid => (h'.content id (h.get?_file hid)).trans (h.content id hid)⟩

/-- Two that have what a third one has there have the same. -/
theorem sameAt (h : Keeps fs fs' place) (h' : Keeps fs fs'' place) : SameAt fs' fs'' place where
  kind? := (kind?_congr h'.bare?).trans (kind?_congr h.bare?).symm
  content id id' hid hid' := by
    rw [← bare?_eq_some_iff rfl, h.bare?, bare?_eq_some_iff rfl] at hid
    rw [← bare?_eq_some_iff rfl, h'.bare?, bare?_eq_some_iff rfl] at hid'
    obtain rfl := Node.file.inj (Option.some.inj (hid.symm.trans hid'))
    rw [h.content id hid, h'.content id hid]

end Keeps

/-! ## Setting a place -/

section Set

variable {fs : FileSystem} {place : Location} {value : Option Node}

theorem get?_set_self (h : fs.isSound) (hplace : fs.HasFolder place) :
    (fs.set place value).get? place = value := by
  obtain ⟨folder, name, rfl, ⟨parent, hparent, -⟩, -⟩ := hplace
  exact Node.get?_set_self (isSound_iff.1 h).1 hparent

theorem bare?_set_of_ne (h : fs.isSound) (hplace : fs.HasFolder place)
    (hvalue : ∀ new ∈ value, new.children = [])
    (hold : ∀ old, fs.get? place = some old → old.isFolder = false) {other : Location}
    (hne : other ≠ place) : (fs.set place value).bare? other = fs.bare? other := by
  obtain ⟨folder, name, rfl, ⟨parent, hparent, hfolder⟩, -⟩ := hplace
  refine Node.bare?_set_of_ne (isSound_iff.1 h).1 hparent hfolder hvalue (fun old hchild => ?_) hne
  refine hold old ?_
  rw [get?, Node.get?_snoc]
  exact Option.bind_eq_some_iff.2 ⟨parent, hparent, hchild⟩

end Set

/-! ## Contents -/

section Content

variable {fs : FileSystem} {id other : FileId} {place : Location} {content : ByteArray}

theorem content_setContent_self (h : id < fs.contents.size) :
    (fs.setContent id content).content id = content := by
  simp [FileSystem.content, setContent, h]

theorem content_setContent_of_ne (h : other ≠ id) :
    (fs.setContent id content).content other = fs.content other := by
  simp [FileSystem.content, setContent, h.symm]

theorem content_push_of_lt (h : id < fs.contents.size) :
    { fs with contents := fs.contents.push content }.content id = fs.content id := by
  simp [FileSystem.content, Array.getElem?_push, Nat.ne_of_lt h]

theorem content_setNewFile_self :
    (fs.setNewFile place content).content fs.contents.size = content := by
  simp [FileSystem.content, setNewFile]

end Content

/-! ## Changes at hot places -/

/-- `fs` is what has become of `start` when nothing but single files has changed, at hot places. -/
structure ChangedAt (hot : Location → Prop) (start fs : FileSystem) : Prop where
  start_sound : start.isSound
  start_not_isFolder : ∀ place, hot place → ¬ start.IsFolderAt place
  current : fs.current = start.current
  sound : fs.isSound
  size_le : start.contents.size ≤ fs.contents.size
  /-- What was in a file stays in it, wherever it stands. -/
  content : ∀ id, id < start.contents.size → fs.content id = start.content id
  bare? : ∀ place, ¬ hot place → fs.bare? place = start.bare? place
  not_isFolder : ∀ place node, hot place → fs.get? place = some node → node.isFolder = false
  /-- A new file stands at one place only. -/
  alone : ∀ id, start.contents.size ≤ id → ∀ place other, fs.get? place = some (.file id) →
    fs.get? other = some (.file id) → place = other

namespace ChangedAt

variable {hot : Location → Prop} {start fs : FileSystem} {place : Location}

/-- Nothing has changed yet. -/
protected theorem refl (h : start.isSound)
    (hhot : ∀ place, hot place → ¬ start.IsFolderAt place) : ChangedAt hot start start where
  start_sound := h
  start_not_isFolder := hhot
  current := rfl
  sound := h
  size_le := Nat.le_refl _
  content _ _ := rfl
  bare? _ _ := rfl
  not_isFolder place node hplace hnode :=
    Bool.eq_false_iff.2 fun hfolder => hhot place hplace ⟨node, hnode, hfolder⟩
  alone _ hid _ _ hplace _ := absurd (lt_size_of_get? h hplace) (Nat.not_lt.2 hid)

/-- What does not stand at a hot place is as it was. -/
theorem keeps_start (h : ChangedAt hot start fs) (hcold : ¬ hot place) : Keeps start fs place where
  bare? := h.bare? place hcold
  content id hid := h.content id (lt_size_of_get? h.start_sound hid)

theorem isFolderAt_current (h : ChangedAt hot start fs) : fs.IsFolderAt fs.current :=
  (isSound_iff.1 h.sound).2

theorem not_isFolderAt (h : ChangedAt hot start fs) (hhot : hot place) : ¬ fs.IsFolderAt place := by
  rintro ⟨node, hnode, hfolder⟩
  rw [h.not_isFolder place node hhot hnode] at hfolder
  cases hfolder

theorem kind?_of_cold (h : ChangedAt hot start fs) (hcold : ¬ hot place) :
    fs.kind? place = start.kind? place :=
  kind?_congr (h.bare? place hcold)

/-- Folders stay folders, and nothing else becomes one. -/
theorem isFolderAt_iff (h : ChangedAt hot start fs) : fs.IsFolderAt place ↔ start.IsFolderAt place := by
  by_cases hhot : hot place
  · exact iff_of_false (h.not_isFolderAt hhot) (h.start_not_isFolder place hhot)
  · rw [isFolderAt_iff_kind?, isFolderAt_iff_kind?, h.kind?_of_cold hhot]

theorem bare?_set_of_ne (h : ChangedAt hot start fs) (hplace : fs.HasFolder place)
    (hhot : hot place) {value : Option Node}
    (hvalue : ∀ new, value = some new → new.isFolder = false) {other : Location}
    (hne : other ≠ place) : (fs.set place value).bare? other = fs.bare? other :=
  FileSystem.bare?_set_of_ne h.sound hplace (fun new hnew => Node.children_of_not_isFolder (hvalue new hnew))
    (fun old => h.not_isFolder _ old hhot) hne

/-- What may be put at a hot place: no folder, and no new file that stands elsewhere too. -/
theorem set (h : ChangedAt hot start fs) (hplace : fs.HasFolder place) (hhot : hot place)
    {value : Option Node} (hvalue : ∀ new, value = some new → new.isFolder = false)
    (hsound : ∀ new, value = some new → new.isSound fs.contents.size)
    (halone : ∀ id, value = some (.file id) → start.contents.size ≤ id →
      ∀ other, other ≠ place → fs.get? other ≠ some (.file id)) :
    ChangedAt hot start (fs.set place value) := by
  have hself : (fs.set place value).get? place = value := get?_set_self h.sound hplace
  have hother : ∀ other, other ≠ place → (fs.set place value).bare? other = fs.bare? other :=
    fun other hne => h.bare?_set_of_ne hplace hhot hvalue hne
  have hfile : ∀ {id other}, other ≠ place → (fs.set place value).get? other = some (.file id) →
      fs.get? other = some (.file id) := by
    intro id other hne hget
    rwa [← bare?_eq_some_iff rfl, hother other hne, bare?_eq_some_iff rfl] at hget
  have hne : ∀ {other}, fs.IsFolderAt other → other ≠ place := by
    rintro other ⟨node, hnode, hfolder⟩ rfl
    rw [h.not_isFolder _ node hhot hnode] at hfolder
    cases hfolder
  constructor
  · exact h.start_sound
  · exact h.start_not_isFolder
  · exact h.current
  · refine isSound_iff.2 ⟨?_, h.isFolderAt_current.congr (hother _ (hne h.isFolderAt_current))⟩
    obtain ⟨folder, name, rfl, ⟨parent, hparent, -⟩, hname⟩ := hplace
    exact Node.isSound_set (isSound_iff.1 h.sound).1 hparent hname hsound
  · exact h.size_le
  · exact h.content
  · intro other hcold
    have hne : other ≠ place := by
      rintro rfl
      exact hcold hhot
    rw [hother other hne, h.bare? other hcold]
  · intro other node hotherHot hnode
    by_cases heq : other = place
    · rw [heq, hself] at hnode
      exact hvalue node hnode
    · rw [get?_eq_of_bare? (hother other heq) fun old => h.not_isFolder other old hotherHot] at hnode
      exact h.not_isFolder other node hotherHot hnode
  · intro id hid first second hfirst hsecond
    by_cases heq : first = place <;> by_cases heq' : second = place
    · rw [heq, heq']
    · rw [heq, hself] at hfirst
      exact absurd (hfile heq' hsecond) (halone id hfirst hid second heq')
    · rw [heq', hself] at hsecond
      exact absurd (hfile heq hfirst) (halone id hsecond hid first heq)
    · exact h.alone id hid first second (hfile heq hfirst) (hfile heq' hsecond)

/-- Taking away what stands at a hot place. -/
theorem remove (h : ChangedAt hot start fs) (hplace : fs.HasFolder place) (hhot : hot place) :
    ChangedAt hot start (fs.set place none) :=
  h.set hplace hhot (by simp) (by simp) (by simp)

/-- More room in the table for files. -/
theorem push (h : ChangedAt hot start fs) (content : ByteArray) :
    ChangedAt hot start { fs with contents := fs.contents.push content } where
  start_sound := h.start_sound
  start_not_isFolder := h.start_not_isFolder
  current := h.current
  sound := isSound_iff.2 ⟨Node.isSound_mono (by simp) (isSound_iff.1 h.sound).1, h.isFolderAt_current⟩
  size_le := Nat.le_trans h.size_le (by simp)
  content id hid := by
    rw [← h.content id hid]
    exact content_push_of_lt (Nat.lt_of_lt_of_le hid h.size_le)
  bare? := h.bare?
  not_isFolder := h.not_isFolder
  alone := h.alone

theorem setNewFile (h : ChangedAt hot start fs) (hplace : fs.HasFolder place) (hhot : hot place)
    (content : ByteArray) : ChangedAt hot start (fs.setNewFile place content) := by
  refine (h.push content).set hplace hhot ?_ ?_ ?_
  · rintro new hnew
    obtain rfl := Option.some.inj hnew
    rfl
  · rintro new hnew
    obtain rfl := Option.some.inj hnew
    simp [Node.isSound]
  · rintro id hid - other - hfile
    obtain rfl := Node.file.inj (Option.some.inj hid)
    exact absurd (lt_size_of_get? h.sound hfile) (Nat.lt_irrefl _)

theorem setContent (h : ChangedAt hot start fs) {id : FileId} (hid : start.contents.size ≤ id)
    (content : ByteArray) : ChangedAt hot start (fs.setContent id content) where
  start_sound := h.start_sound
  start_not_isFolder := h.start_not_isFolder
  current := h.current
  sound := by
    have hsize : (fs.setContent id content).contents.size = fs.contents.size := by
      simp [FileSystem.setContent]
    rw [isSound_iff, hsize]
    exact isSound_iff.1 h.sound
  size_le := by simpa [FileSystem.setContent] using h.size_le
  content other hother := by
    rw [← h.content other hother]
    exact content_setContent_of_ne (Nat.ne_of_lt (Nat.lt_of_lt_of_le hother hid))
  bare? := h.bare?
  not_isFolder := h.not_isFolder
  alone := h.alone

/-! ### What the changes keep -/

theorem keeps_set (h : ChangedAt hot start fs) (hplace : fs.HasFolder place) (hhot : hot place)
    {value : Option Node} (hvalue : ∀ new, value = some new → new.isFolder = false)
    {other : Location} (hne : other ≠ place) : Keeps fs (fs.set place value) other :=
  ⟨h.bare?_set_of_ne hplace hhot hvalue hne, fun _ _ => rfl⟩

theorem keeps_setNewFile (h : ChangedAt hot start fs) (hplace : fs.HasFolder place) (hhot : hot place)
    (content : ByteArray) {other : Location} (hne : other ≠ place) :
    Keeps fs (fs.setNewFile place content) other where
  bare? := by
    have hnew : ∀ new, some (Node.file fs.contents.size) = some new → new.isFolder = false := by
      simp [Node.isFolder]
    exact (h.keeps_set hplace hhot hnew hne).bare?
  content id hfile := by
    have hlt : id < fs.contents.size := lt_size_of_get? h.sound hfile
    exact content_push_of_lt hlt

theorem keeps_setContent (h : ChangedAt hot start fs) {id : FileId} (hid : start.contents.size ≤ id)
    (hplace : fs.get? place = some (.file id)) (content : ByteArray) {other : Location}
    (hne : other ≠ place) : Keeps fs (fs.setContent id content) other where
  bare? := rfl
  content id' hother := by
    refine content_setContent_of_ne ?_
    rintro rfl
    exact hne (h.alone id' hid other place hother hplace)

/-- A file that stood at `place` stands at `goal`, and everything else is as it was. -/
structure IsMoved (hot : Location → Prop) (start fs fs' : FileSystem) (place goal : Location)
    (id : FileId) : Prop where
  changed : ChangedAt hot start fs'
  keeps : ∀ other, other ≠ place → other ≠ goal → Keeps fs fs' other
  gone : fs'.get? place = none
  there : fs'.get? goal = some (.file id)

/-- Moving a new file from one hot place to another. -/
theorem moved (h : ChangedAt hot start fs) (hplace : fs.HasFolder place) (hhot : hot place)
    {goal : Location} (hgoal : fs.HasFolder goal) (hgoalHot : hot goal) (hne : place ≠ goal)
    {id : FileId} (hfile : fs.get? place = some (.file id)) (hid : start.contents.size ≤ id) :
    IsMoved hot start fs ((fs.set place none).set goal (some (.file id))) place goal id := by
  -- First the old name is gone, and then the file has the other one.
  have hmid : ChangedAt hot start (fs.set place none) := h.remove hplace hhot
  have hmidKeeps : ∀ other, other ≠ place → Keeps fs (fs.set place none) other :=
    fun other hother => h.keeps_set hplace hhot (by simp) hother
  have hmidNone : (fs.set place none).get? place = none := get?_set_self h.sound hplace
  have hmidGoal : (fs.set place none).HasFolder goal := by
    obtain ⟨folder, name, heq, hfolder, hname⟩ := hgoal
    exact ⟨folder, name, heq, hmid.isFolderAt_iff.2 (h.isFolderAt_iff.1 hfolder), hname⟩
  have hmidAlone : ∀ other, (fs.set place none).get? other ≠ some (.file id) := by
    intro other hother
    by_cases heq : other = place
    · rw [heq, hmidNone] at hother
      cases hother
    · rw [← bare?_eq_some_iff rfl, (hmidKeeps other heq).bare?, bare?_eq_some_iff rfl] at hother
      exact heq (h.alone id hid other place hother hfile)
  have hkeeps : ∀ other, other ≠ goal → Keeps (fs.set place none)
      ((fs.set place none).set goal (some (.file id))) other :=
    fun other hother => hmid.keeps_set hmidGoal hgoalHot (by simp [Node.isFolder]) hother
  refine ⟨?_, fun other hother hother' => (hmidKeeps other hother).trans (hkeeps other hother'),
    (hkeeps place hne).get?_none hmidNone, get?_set_self hmid.sound hmidGoal⟩
  refine hmid.set hmidGoal hgoalHot (by simp [Node.isFolder]) ?_ ?_
  · rintro new hnew
    obtain rfl := Option.some.inj hnew
    have hlt : id < fs.contents.size := lt_size_of_get? h.sound hfile
    rw [Node.isSound]
    exact decide_eq_true hlt
  · rintro other hother - place -
    obtain rfl := Node.file.inj (Option.some.inj hother)
    exact hmidAlone place

end ChangedAt

end FileSystem

end ApiSurface
