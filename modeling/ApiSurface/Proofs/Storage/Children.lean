import ApiSurface.Proofs.Storage.Folders
import Mathlib.Data.List.TakeWhile

/-!
Children of a folder that a path leads to.

The walk to a child is the walk to the folder and one name more. So of two children with names of one
length, both can be reached or neither; and a path that leads to a folder leads there also without the
slashes at its end.
-/

namespace ApiSurface

/-! ## Names of a path -/

namespace FileSystem

/-- The names between the slashes of a path. -/
def namesOf (text : OsString) : List OsString :=
  ((text.toList.splitOn OsString.slash).map OsString.ofList).filter (· ≠ "")

theorem segmentsOf_eq (text : OsString) : segmentsOf text = namesOf text ∨
    segmentsOf text = namesOf text ++ [("." : OsString)] := by
  unfold segmentsOf namesOf
  dsimp only
  split
  · exact .inr rfl
  · exact .inl (List.append_nil _)

theorem isPart_of_mem_namesOf {text name : OsString} (h : name ∈ namesOf text) : IsPart name := by
  have hmem : name ∈ segmentsOf text := by
    unfold segmentsOf
    exact List.mem_append_left _ h
  exact isPart_of_mem_segmentsOf hmem

theorem namesOf_slash (text : OsString) : namesOf (text ++ "/") = namesOf text := by
  unfold namesOf
  rw [OsString.toList_append, OsString.toList_slash, List.splitOn_append_cons_self,
    List.splitOn_nil]
  simp

/-- What is put behind a path comes last in the walk. -/
theorem segmentsOf_join_of_relative {folder : Path} {text : OsString} (h : Path.isAbsolute ⟨text⟩ = false) :
    segmentsOf (folder.join ⟨text⟩).text = namesOf folder.text ++ segmentsOf text := by
  have hparts : (text.toList.splitOn OsString.slash).map OsString.ofList ≠ [] := by simp
  rw [Path.join, h, if_neg Bool.false_ne_true]
  -- What comes in front of the text is empty or ends in a slash.
  have happend : ∀ before : Bytes, ∀ joined : OsString, joined.toList = before ++ OsString.slash :: text.toList →
      segmentsOf joined = ((before.splitOn OsString.slash).map OsString.ofList).filter (· ≠ ("" : OsString)) ++ segmentsOf text := by
    intro before joined hjoined
    unfold segmentsOf
    rw [hjoined, List.splitOn_append_cons_self]
    simp only [List.map_append, List.filter_append]
    rw [List.getLast?_append_of_ne_nil _ hparts, List.append_assoc]
  have hnames : ∀ before : Bytes, folder.text.toList = before ++ [OsString.slash] →
      ((before.splitOn OsString.slash).map OsString.ofList).filter (· ≠ ("" : OsString)) = namesOf folder.text := by
    intro before hfolder
    unfold namesOf
    rw [hfolder, List.splitOn_append_cons_self]
    simp
  by_cases hempty : folder.text = ""
  · have hnone : namesOf "" = [] := by decide
    simp only [hempty, decide_true, Bool.true_or, if_true, OsString.empty_append, hnone, List.nil_append]
  by_cases hslash : folder.text.toList.getLast? = some OsString.slash
  · obtain ⟨before, hbefore⟩ := List.getLast?_eq_some_iff.1 hslash
    simp only [hslash, decide_true, Bool.or_true, if_true]
    rw [happend before _ (by simp [hbefore]), hnames before hbefore]
  · rw [if_neg (by simp [hempty, hslash])]
    rw [happend folder.text.toList _ (by simp)]
    rfl

theorem startOf_join_of_relative (current : Location) {folder : Path} {text : OsString}
    (h : Path.isAbsolute ⟨text⟩ = false) :
    startOf current (folder.join ⟨text⟩).text = startOf current folder.text := by
  have hhead : text.toList.head? ≠ some OsString.slash := of_decide_eq_false h
  unfold startOf
  rw [Path.join, h, if_neg Bool.false_ne_true]
  cases hchars : folder.text.toList with
  | nil =>
    have hempty : folder.text = "" := OsString.toList_eq_nil_iff.1 hchars
    simp [hempty, hhead]
  | cons c rest =>
    split
    · simp [hchars]
    · simp [hchars]

theorem segmentsOf_join (folder : Path) {name : OsString} (h : IsPart name) :
    segmentsOf (folder.join ⟨name⟩).text = namesOf folder.text ++ [name] := by
  have hname : segmentsOf name = [name] := by
    unfold segmentsOf
    rw [List.splitOn_eq_singleton h.2]
    simp [h.1]
  rw [segmentsOf_join_of_relative (Path.isAbsolute_of_isPart h), hname]

theorem startOf_join (current : Location) (folder : Path) {name : OsString} (h : IsPart name) :
    startOf current (folder.join ⟨name⟩).text = startOf current folder.text :=
  startOf_join_of_relative current (Path.isAbsolute_of_isPart h)

/-! ## Walks with more names -/

/-- How a walk goes on when there are more names behind it. -/
def Walk.andThen (fs : FileSystem) (follow : Bool) (more : List OsString) : Walk → Walk
  | .done (.present place (.folder _)) => fs.walk follow place more
  | .done (.present _ _) => .refused .notFolder
  | .done (.absent _ _) => .refused .notFound
  | .refused e => .refused e
  | .link folder target rest => .link folder target (rest ++ more)

/-- Where a path leads when there are more names behind it. -/
def Target.andThen (fs : FileSystem) (follow : Bool) (more : List OsString) : Target → Except OsError Target
  | .present place (.folder _) => fs.walkOn follow 0 (fs.walk follow place more)
  | .present _ _ => .error .notFolder
  | .absent _ _ => .error .notFound

section More

variable {fs : FileSystem} {follow : Bool} {place : Location} {names more : List OsString} {name : OsString}
  {links : Nat} {w : Walk} {t : Target}

theorem walk_append (hmore : more ≠ []) (hplace : fs.IsFolderAt place) :
    fs.walk follow place (names ++ more) = (fs.walk true place names).andThen fs follow more := by
  induction names generalizing place with
  | nil =>
    obtain ⟨node, hnode, hfolder⟩ := hplace
    obtain ⟨children, rfl⟩ := Node.exists_children_of_isFolder hfolder
    rw [walk.eq_1 fs true, hnode]
    rfl
  | cons name rest ih =>
    rw [List.cons_append]
    by_cases hhere : name = "."
    · subst hhere
      rw [walk_here, walk_here]
      exact ih hplace
    by_cases hup : name = ".."
    · subst hup
      rw [walk_up, walk_up]
      exact ih hplace.dropLast
    rw [walk_name hhere hup, walk_name hhere hup]
    by_cases hlength : maxNameBytes < name.length
    · rw [if_pos hlength, if_pos hlength]
      rfl
    rw [if_neg hlength, if_neg hlength]
    have hrest : (rest ++ more).isEmpty = false := by simp [hmore]
    cases hnode : fs.get? (place ++ [name]) with
    | none =>
      simp only [hrest]
      cases rest <;> rfl
    | some node =>
      cases node with
      | folder children => exact ih ⟨_, hnode, rfl⟩
      | link target => simp [hrest, Walk.andThen]
      | file id =>
        simp only [hrest]
        cases rest <;> rfl
      | device =>
        simp only [hrest]
        cases rest <;> rfl

/-- Behind all links the last names are walked, which are not to lead to one more. -/
theorem walkOn_append (hmore : more ≠ [])
    (hends : ∀ place folder target rest, fs.walk follow place more ≠ .link folder target rest)
    (hw : w.IsFound fs) :
    fs.walkOn follow links (w.andThen fs follow more) =
      (fs.walkOn true links w).bind (Target.andThen fs follow more) := by
  have hzero : ∀ links place, fs.walkOn follow links (fs.walk follow place more) =
      fs.walkOn follow 0 (fs.walk follow place more) := by
    intro links place
    cases hwalk : fs.walk follow place more with
    | done t => rw [walkOn, walkOn]
    | refused e => rw [walkOn, walkOn]
    | link folder target rest => exact absurd hwalk (hends place folder target rest)
  induction links generalizing w with
  | zero =>
    cases w with
    | done t =>
      cases t with
      | absent folder name => rfl
      | present place node => cases node <;> rfl
    | refused e => rfl
    | link folder target rest => rfl
  | succ links ih =>
    cases w with
    | done t =>
      cases t with
      | absent folder name => rfl
      | present place node =>
        cases node with
        | folder children => exact hzero _ place
        | _ => rfl
    | refused e => rfl
    | link folder target rest =>
      rw [Walk.andThen, walkOn, walkOn]
      by_cases htarget : target = ""
      · rw [if_pos htarget, if_pos htarget]
        rfl
      rw [if_neg htarget, if_neg htarget, ← List.append_assoc]
      have hfolder : fs.IsFolderAt (startOf folder target) := isFolderAt_startOf hw.1
      rw [walk_append hmore hfolder]
      exact ih (isFound_behind hw)

/-- The walk from a folder to what has a name in it. -/
theorem walk_child (hname : Node.isName name) (place : Location) :
    fs.walk false place [name] = .refused .nameTooLong ∧ maxNameBytes < name.length ∨
      ¬ maxNameBytes < name.length ∧ ∃ t, fs.walk false place [name] = .done t ∧
        t.place = place ++ [name] ∧ t.node? = fs.get? (place ++ [name]) := by
  obtain ⟨-, hhere, hup⟩ := Node.isName_iff.1 hname
  rw [walk_name hhere hup]
  by_cases hlength : maxNameBytes < name.length
  · exact .inl ⟨if_pos hlength, hlength⟩
  refine .inr ⟨hlength, ?_⟩
  rw [if_neg hlength]
  cases hnode : fs.get? (place ++ [name]) with
  | none => exact ⟨_, rfl, rfl, rfl⟩
  | some node =>
    cases node with
    | folder children =>
      refine ⟨.present (place ++ [name]) (.folder children), ?_, rfl, rfl⟩
      simp only [walk, hnode]
    | _ => exact ⟨_, rfl, rfl, rfl⟩

end More

/-! ## Paths of children -/

/-- Where the names of a path lead, those at its end included. -/
def reach (fs : FileSystem) (path : Path) : Except OsError Target :=
  fs.walkOn true maxLinks (fs.walk true (startOf fs.current path.text) (namesOf path.text))

section Child

variable {fs : FileSystem} {folder : Path} {place : Location} {name other : OsString}

theorem isFound_start (h : fs.IsFolderAt fs.current) (text : OsString) {follow : Bool} :
    (fs.walk follow (startOf fs.current text) (namesOf text)).IsFound fs :=
  isFound_walk (isFolderAt_startOf h) fun _ => isPart_of_mem_namesOf

/-- A name behind a folder that leads to no link is reached by way of the folder. -/
theorem locate_join_of_ends (h : fs.IsFolderAt fs.current) (hpart : IsPart name)
    (hends : ∀ place goal target rest, fs.walk false place [name] ≠ .link goal target rest)
    (hrefusal : refusal? (folder.join ⟨name⟩) = none) :
    fs.locate false (folder.join ⟨name⟩) =
      ((fs.reach folder).bind (Target.andThen fs false [name])).mapError .os := by
  rw [locate_eq, hrefusal]
  dsimp only
  rw [segmentsOf_join folder hpart, startOf_join _ folder hpart,
    walk_append (List.cons_ne_nil _ _) (isFolderAt_startOf h),
    walkOn_append (List.cons_ne_nil _ _) hends (isFound_start h _)]
  rfl

/-- A child is reached by way of its folder. -/
theorem locate_join (h : fs.IsFolderAt fs.current) (hname : Node.isName name)
    (hrefusal : refusal? (folder.join ⟨name⟩) = none) :
    fs.locate false (folder.join ⟨name⟩) =
      ((fs.reach folder).bind (Target.andThen fs false [name])).mapError .os := by
  refine locate_join_of_ends h (Node.isName_iff.1 hname).1 (fun place goal target rest hlink => ?_) hrefusal
  obtain ⟨hwalk, -⟩ | ⟨-, t, hwalk, -⟩ := walk_child hname place
  · rw [hwalk] at hlink
    cases hlink
  · rw [hwalk] at hlink
    cases hlink

theorem andThen_child (hname : Node.isName name) {children : List (OsString × Node)} :
    Target.andThen fs false [name] (.present place (.folder children)) = .error .nameTooLong ∧
        maxNameBytes < name.length ∨
      ¬ maxNameBytes < name.length ∧
        ∃ t, Target.andThen fs false [name] (.present place (.folder children)) = .ok t ∧
          t.place = place ++ [name] ∧ t.node? = fs.get? (place ++ [name]) := by
  rw [Target.andThen]
  obtain ⟨hwalk, hlength⟩ | ⟨hlength, t, hwalk, ht⟩ := @walk_child fs name hname place
  · exact .inl ⟨by rw [hwalk, walkOn], hlength⟩
  · exact .inr ⟨hlength, t, by rw [hwalk, walkOn], ht⟩

/-- Of two names of one length, both lead somewhere or neither. -/
theorem locate_join_congr (h : fs.IsFolderAt fs.current) (hname : Node.isName name)
    (hother : Node.isName other) (hsize : other.length = name.length)
    (hrefusal : refusal? (folder.join ⟨other⟩) = refusal? (folder.join ⟨name⟩)) :
    (fs.locate false (folder.join ⟨other⟩)).map (fun _ => ()) =
      (fs.locate false (folder.join ⟨name⟩)).map fun _ => () := by
  cases hcase : refusal? (folder.join ⟨name⟩) with
  | some e =>
    rw [locate_eq, locate_eq, hrefusal, hcase]
  | none =>
    rw [locate_join h hname hcase, locate_join h hother (hrefusal.trans hcase)]
    cases fs.reach folder with
    | error e => rfl
    | ok t =>
      cases t with
      | absent goal last => rfl
      | present goal node =>
        cases node with
        | folder children =>
          simp only [Except.bind]
          obtain ⟨heq, hlong⟩ | ⟨hshort, t, heq, -⟩ := @andThen_child fs goal name hname children
          · obtain ⟨heq', -⟩ | ⟨hshort, -⟩ := @andThen_child fs goal other hother children
            · rw [heq, heq']
            · exact absurd (hsize ▸ hlong) hshort
          · obtain ⟨-, hlong⟩ | ⟨-, t', heq', -⟩ := @andThen_child fs goal other hother children
            · exact absurd (hsize ▸ hlong) hshort
            · rw [heq, heq']
              rfl
        | _ => rfl

/-- A dot behind the names leads from a folder to itself. -/
theorem walk_dot_ne_link (place folder : Location) (target : OsString) (rest : List OsString) :
    fs.walk true place ["."] ≠ .link folder target rest := by
  rw [walk_here, walk]
  cases fs.get? place <;> simp

/-- A path that leads to a folder leads there by its names alone. -/
theorem reach_of_stat (h : fs.IsFolderAt fs.current) {children : List (OsString × Node)}
    (hstat : fs.stat folder = .ok (.folder children)) :
    ∃ place, fs.reach folder = .ok (.present place (.folder children)) ∧
      fs.locate true folder = .ok (.present place (.folder children)) := by
  obtain ⟨t, ht, hnode⟩ := exists_target_of_stat hstat
  have hpresent : t = .present t.place (.folder children) := node?_eq_some_iff.1 hnode
  rw [hpresent] at ht
  obtain ⟨-, hon⟩ := locate_eq_ok.1 ht
  refine ⟨t.place, ?_, ht⟩
  unfold reach
  obtain hsegments | hsegments := segmentsOf_eq folder.text
  · rwa [hsegments] at hon
  rw [hsegments, walk_append (List.cons_ne_nil _ _) (isFolderAt_startOf h),
    walkOn_append (List.cons_ne_nil _ _) walk_dot_ne_link (isFound_start h _)] at hon
  cases hreach : fs.walkOn true maxLinks
      (fs.walk true (startOf fs.current folder.text) (namesOf folder.text)) with
  | error e =>
    rw [hreach] at hon
    cases hon
  | ok found =>
    rw [hreach] at hon
    cases found with
    | absent goal last => cases hon
    | present goal node =>
      cases node with
      | folder inside =>
        have hget : fs.get? goal = some (.folder inside) :=
          (isFound_walkOn (isFound_start h folder.text) hreach).get?
        simp only [Except.bind, Target.andThen, walk_here, walk_nil, hget, walkOn] at hon
        exact hon
      | _ => cases hon

/-- The other way round, as long as the path can be followed at all. -/
theorem locate_of_reach (h : fs.IsFolderAt fs.current) {children : List (OsString × Node)}
    (hrefusal : refusal? folder = none) (hreach : fs.reach folder = .ok (.present place (.folder children))) :
    fs.locate true folder = .ok (.present place (.folder children)) := by
  have hget : fs.get? place = some (.folder children) :=
    (isFound_walkOn (isFound_start h folder.text) hreach).get?
  refine locate_eq_ok.2 ⟨hrefusal, ?_⟩
  obtain hsegments | hsegments := segmentsOf_eq folder.text
  · rwa [hsegments]
  rw [hsegments, walk_append (List.cons_ne_nil _ _) (isFolderAt_startOf h),
    walkOn_append (List.cons_ne_nil _ _) walk_dot_ne_link (isFound_start h _)]
  unfold reach at hreach
  rw [hreach]
  simp only [Except.bind, Target.andThen, walk_here, walk_nil, hget, walkOn]

end Child

/-! ## Folders that are there already -/

section There

variable {fs fs' : FileSystem} {path : Path} {place : Location} {children : List (OsString × Node)}

theorem refusal?_eq_none_iff : refusal? path = none ↔ OsString.nul ∉ path.text.toList ∧ path.text ≠ "" ∧
    path.text.length < maxPathBytes := by
  unfold refusal?
  rw [List.contains_eq_mem]
  by_cases hnul : OsString.nul ∈ path.text.toList
  · simp [hnul]
  by_cases hempty : path.text = ""
  · simp [hempty]
  by_cases hlength : maxPathBytes ≤ path.text.length
  · simp [hnul, hempty, hlength]
  · simp [hnul, hempty, Nat.lt_of_not_le hlength]

/-- Only slashes are left away, and never all that there is. -/
theorem withoutSlashes_spec (path : Path) :
    (∃ n, path.text.toList = (withoutSlashes path).text.toList ++ List.replicate n OsString.slash) ∧
      ((withoutSlashes path).text = "" → path.text = "") := by
  have hslashes : ∃ n, path.text.toList.reverse.takeWhile (· = OsString.slash) = List.replicate n OsString.slash := by
    refine ⟨_, List.eq_replicate_iff.2 ⟨rfl, fun c hc => ?_⟩⟩
    simpa using List.mem_takeWhile_imp hc
  obtain ⟨n, hn⟩ := hslashes
  have hcut := List.takeWhile_append_dropWhile (p := (· = OsString.slash)) (l := path.text.toList.reverse)
  rw [hn] at hcut
  simp only [withoutSlashes]
  generalize path.text.toList.reverse.dropWhile (· = OsString.slash) = left at hcut
  have hback : path.text.toList = left.reverse ++ List.replicate n OsString.slash := by
    rw [← List.reverse_replicate, ← List.reverse_append, hcut, List.reverse_reverse]
  cases left with
  | cons c rest =>
    have hne : ((c :: rest).reverse.isEmpty && path.isAbsolute) = false := by simp
    rw [hne, if_neg Bool.false_ne_true]
    refine ⟨⟨n, by rw [hback, OsString.toList_ofList]⟩, fun hempty => ?_⟩
    have hchars := congrArg OsString.toList hempty
    simp at hchars
  | nil =>
    cases n with
    | zero =>
      have hempty : path.text = "" := OsString.toList_eq_nil_iff.1 hback
      simp [Path.isAbsolute, hempty]
    | succ n =>
      have habsolute : (([] : Bytes).reverse.isEmpty && path.isAbsolute) = true := by
        simp [Path.isAbsolute, hback, List.replicate_succ]
      rw [habsolute, if_pos rfl]
      exact ⟨⟨n, hback⟩, fun hempty => absurd hempty (by decide)⟩

theorem namesOf_slashes (text : OsString) (n : Nat) :
    namesOf (OsString.ofList (text.toList ++ List.replicate n OsString.slash)) = namesOf text := by
  induction n with
  | zero => simp
  | succ n ih =>
    rw [List.replicate_succ', ← List.append_assoc]
    have happend : OsString.ofList (text.toList ++ List.replicate n OsString.slash ++ [OsString.slash]) =
        OsString.ofList (text.toList ++ List.replicate n OsString.slash) ++ "/" := rfl
    rw [happend, namesOf_slash, ih]

/-- Without its slashes a path leads through the same names. -/
theorem reach_withoutSlashes (fs : FileSystem) (path : Path) :
    fs.reach (withoutSlashes path) = fs.reach path := by
  obtain ⟨⟨n, hn⟩, hnothing⟩ := withoutSlashes_spec path
  have htext : path.text = OsString.ofList ((withoutSlashes path).text.toList ++ List.replicate n OsString.slash) := by
    rw [← hn, OsString.ofList_toList]
  have hnames : namesOf path.text = namesOf (withoutSlashes path).text := by
    rw [htext, namesOf_slashes]
  have hhead : path.text.toList.head? = (withoutSlashes path).text.toList.head? := by
    cases hchars : (withoutSlashes path).text.toList with
    | nil => rw [hnothing (OsString.toList_eq_nil_iff.1 hchars)]; rfl
    | cons c rest => rw [hn, hchars]; rfl
  unfold reach startOf
  rw [hnames, hhead]

theorem refusal?_withoutSlashes (h : refusal? path = none) : refusal? (withoutSlashes path) = none := by
  obtain ⟨⟨n, hn⟩, hnothing⟩ := withoutSlashes_spec path
  obtain ⟨hnul, hempty, hlength⟩ := refusal?_eq_none_iff.1 h
  have htext : path.text = (withoutSlashes path).text ++ OsString.ofList (List.replicate n OsString.slash) := by
    rw [← OsString.ofList_toList (s := path.text), hn, OsString.ofList_append, OsString.ofList_toList]
  refine refusal?_eq_none_iff.2 ⟨fun hmem => hnul (hn ▸ List.mem_append_left _ hmem),
    fun h => hempty (hnothing h), ?_⟩
  rw [htext, OsString.length_append] at hlength
  omega

theorem isFolder_iff : fs.isFolder path = true ↔ ∃ children, fs.stat path = .ok (.folder children) := by
  unfold isFolder
  cases fs.stat path with
  | error e => simp
  | ok node => cases node <;> simp [Node.isFolder]

/-- Where a folder is, none is made. -/
theorem createFolders_of_isFolder (h : fs.IsFolderAt fs.current) (hfolder : fs.isFolder path = true) :
    fs.createFolders path = (fs, none) := by
  obtain ⟨children, hstat⟩ := isFolder_iff.1 hfolder
  obtain ⟨place, hreach, hlocate⟩ := reach_of_stat h hstat
  have hrefusal := (locate_eq_ok.1 hlocate).1
  obtain ⟨hnul, hempty, hlength⟩ := refusal?_eq_none_iff.1 hrefusal
  have htrue : fs.locate true (withoutSlashes path) = .ok (.present place (.folder children)) :=
    locate_of_reach h (refusal?_withoutSlashes hrefusal) (by rw [reach_withoutSlashes, hreach])
  have hexists : fs.createFolder path = .error (.os .alreadyExists) := by
    unfold createFolder
    rw [if_neg (Nat.not_le.2 hlength)]
    cases hfalse : fs.locate false (withoutSlashes path) with
    | error e =>
      rw [locate_true_of_error hfalse] at htrue
      cases htrue
    | ok t =>
      cases t with
      | present place node => rfl
      | absent folder name =>
        rw [locate_true hfalse nofun] at htrue
        cases htrue
  have hunless : fs.createFolderUnlessThere path = (fs, none) := by
    unfold createFolderUnlessThere
    rw [hexists]
    simp only [hfolder]
    rfl
  have hafter : ∀ above, createFolderAfter above path fs = (fs, none) := by
    intro above
    unfold createFolderAfter
    rw [if_neg hempty, hexists, if_neg nofun, hunless]
  unfold createFolders
  cases path.components.length with
  | zero => rw [createFoldersUp, hafter]
  | succ steps => rw [createFoldersUp, hafter]

/-- When a folder has been made, there is one. -/
theorem isFolder_createFolder (h : fs.isSound) (hempty : path.text ≠ "")
    (hmade : fs.createFolder path = .ok fs') : fs'.isFolder path = true := by
  obtain ⟨hlength, folder, name, hlocate, hset⟩ := createFolder_eq_ok hmade
  have hfound := isFound_of_locate (isSound_iff.1 h).2 hlocate
  have hfolder : fs.HasFolder (folder ++ [name]) := hfound.hasFolder nofun
  have hself : fs'.get? (folder ++ [name]) = some (.folder []) := hset ▸ get?_set_self h hfolder
  have hgrown : Grown fs fs' := hset ▸ grown_set h hfolder hfound.get?
  have hcurrent := (isSound_iff.1 hgrown.sound).2
  obtain ⟨t, ht, hplace⟩ := hgrown.leadsTo (isSound_iff.1 h).2 ⟨_, hlocate, rfl⟩
  have hnode : t.node? = some (.folder []) := by
    rw [← (isFound_of_locate hcurrent ht).get?, hplace]
    exact hself
  have htrue := locate_true ht (by simp [hnode])
  have hstat : fs'.stat (withoutSlashes path) = .ok (.folder []) := by
    rw [stat_eq, htrue]
    simp only [Except.bind, hnode]
  obtain ⟨place, hreach, -⟩ := reach_of_stat hcurrent hstat
  rw [reach_withoutSlashes] at hreach
  have hrefusal : refusal? path = none := by
    obtain ⟨⟨n, hn⟩, -⟩ := withoutSlashes_spec path
    obtain ⟨hnul, -, -⟩ := refusal?_eq_none_iff.1 (locate_eq_ok.1 hlocate).1
    refine refusal?_eq_none_iff.2 ⟨fun hmem => ?_, hempty, hlength⟩
    obtain hmem | hslash := List.mem_append.1 (hn ▸ hmem)
    · exact hnul hmem
    · exact absurd (List.eq_of_mem_replicate hslash) (by decide)
  rw [isFolder_iff]
  refine ⟨[], ?_⟩
  rw [stat_eq, locate_of_reach hcurrent hrefusal hreach]
  rfl

theorem isFolder_of_createFolders (h : fs.isSound) (hmade : fs.createFolders path = (fs', none)) :
    path.text = "" ∧ fs' = fs ∨ fs'.isFolder path = true := by
  have hunless : ∀ fs : FileSystem, fs.isSound → path.text ≠ "" →
      fs.createFolderUnlessThere path = (fs', none) → fs'.isFolder path = true := by
    intro fs h hempty hmade
    unfold createFolderUnlessThere at hmade
    cases hcreate : fs.createFolder path with
    | ok made =>
      rw [hcreate] at hmade
      obtain ⟨rfl, -⟩ := Prod.mk.inj hmade
      exact isFolder_createFolder h hempty hcreate
    | error e =>
      rw [hcreate] at hmade
      obtain ⟨rfl, hnone⟩ := Prod.mk.inj hmade
      by_contra hno
      rw [if_neg hno] at hnone
      cases hnone
  have hafter : ∀ above : Path → FileSystem → FileSystem × Option IoError,
      (∀ p, FoldersMade p fs (above p fs).1) → createFolderAfter above path fs = (fs', none) →
      path.text = "" ∧ fs' = fs ∨ fs'.isFolder path = true := by
    intro above habove hmade
    unfold createFolderAfter at hmade
    by_cases hempty : path.text = ""
    · rw [if_pos hempty] at hmade
      exact .inl ⟨hempty, (Prod.mk.inj hmade).1.symm⟩
    rw [if_neg hempty] at hmade
    refine .inr ?_
    split at hmade
    · have hsound := (habove path).sound
      generalize above path fs = result at hmade hsound
      obtain ⟨made, e?⟩ := result
      cases e? with
      | some e => cases (Prod.mk.inj hmade).2
      | none => exact hunless made hsound hempty hmade
    · exact hunless fs h hempty hmade
  unfold createFolders at hmade
  cases hsteps : path.components.length with
  | zero =>
    rw [hsteps, createFoldersUp] at hmade
    exact hafter _ (fun p => .of_none h) hmade
  | succ steps =>
    rw [hsteps, createFoldersUp] at hmade
    refine hafter _ (fun p => ?_) hmade
    cases hparent : p.parent? with
    | none => exact .of_none h
    | some parent =>
      exact foldersMade_createFoldersUp steps h (Relation.ReflTransGen.head hparent .refl)

end There

/-! ## Ways -/

section Way

variable {fs fs' : FileSystem} {follow : Bool} {place l : Location} {names more : List OsString} {name : OsString}
  {links : Nat} {w : Walk} {folder : Path}

/-- What a walk goes through, other than folders, it goes through also with more names behind it. -/
theorem mem_passed_append (hmore : more ≠ []) (hplace : fs.IsFolderAt place)
    (hl : l ∈ fs.passed true place names) (hno : ¬ fs.IsFolderAt l) :
    l ∈ fs.passed follow place (names ++ more) := by
  induction names generalizing place with
  | nil =>
    rw [passed, List.mem_singleton] at hl
    exact absurd (hl ▸ hplace) hno
  | cons name rest ih =>
    rw [List.cons_append]
    by_cases hhere : name = "."
    · subst hhere
      rw [passed_here] at hl ⊢
      exact ih hplace hl
    by_cases hup : name = ".."
    · subst hup
      rw [passed_up] at hl ⊢
      exact ih hplace.dropLast hl
    rw [passed_name hhere hup] at hl ⊢
    by_cases hlength : maxNameBytes < name.length
    · rw [if_pos hlength] at hl
      cases hl
    rw [if_neg hlength] at hl ⊢
    have hrest : (rest ++ more).isEmpty = false := by simp [hmore]
    cases hkind : fs.kind? (place ++ [name]) with
    | none =>
      rw [hkind] at hl
      cases rest <;> simp_all
    | some kind =>
      rw [hkind] at hl
      cases kind with
      | folder =>
        have hfolder := isFolderAt_iff_kind?.2 hkind
        obtain rfl | htail := List.mem_cons.1 hl
        · exact absurd hfolder hno
        · exact List.mem_cons_of_mem _ (ih hfolder htail)
      | _ => cases rest <;> simp_all

theorem mem_passedOn_andThen (hmore : more ≠ []) (hw : w.IsFound fs) (hl : l ∈ fs.passedOn true links w)
    (hno : ¬ fs.IsFolderAt l) : l ∈ fs.passedOn follow links (w.andThen fs follow more) := by
  induction links generalizing w with
  | zero => cases w <;> cases hl
  | succ links ih =>
    cases w with
    | done t => cases hl
    | refused e => cases hl
    | link goal target rest =>
      rw [Walk.andThen, passedOn]
      rw [passedOn] at hl
      by_cases htarget : target = ""
      · rw [if_pos htarget] at hl
        cases hl
      rw [if_neg htarget] at hl ⊢
      have hfolder : fs.IsFolderAt (startOf goal target) := isFolderAt_startOf hw.1
      rw [← List.append_assoc]
      dsimp only
      obtain hpassed | hon := List.mem_append.1 hl
      · exact List.mem_append_left _ (mem_passed_append hmore hfolder hpassed hno)
      · rw [walk_append hmore hfolder]
        exact List.mem_append_right _ (ih (isFound_behind hw) hon)

/-- The places through which the names of a path lead. -/
def reachWay (fs : FileSystem) (path : Path) : List Location :=
  let start := startOf fs.current path.text
  fs.passed true start (namesOf path.text) ++
    fs.passedOn true maxLinks (fs.walk true start (namesOf path.text))

/-- The way to a folder is part of the way to a child, but for the folders on it. -/
theorem mem_way_join (h : fs.IsFolderAt fs.current) (hname : IsPart name)
    (hrefusal : refusal? (folder.join ⟨name⟩) = none) (hl : l ∈ fs.reachWay folder)
    (hno : ¬ fs.IsFolderAt l) : l ∈ fs.way false (folder.join ⟨name⟩) := by
  unfold way
  rw [hrefusal]
  dsimp only
  rw [segmentsOf_join folder hname, startOf_join _ folder hname]
  have hstart : fs.IsFolderAt (startOf fs.current folder.text) := isFolderAt_startOf h
  obtain hpassed | hon := List.mem_append.1 hl
  · exact List.mem_append_left _ (mem_passed_append (List.cons_ne_nil _ _) hstart hpassed hno)
  · rw [walk_append (List.cons_ne_nil _ _) hstart]
    exact List.mem_append_right _
      (mem_passedOn_andThen (List.cons_ne_nil _ _) (isFound_start h folder.text) hon hno)

/-- A walk looks at nothing that is not there, unless that is what it fails for. -/
theorem get?_of_mem_passed (hplace : fs.IsFolderAt place) (hl : l ∈ fs.passed follow place names) :
    fs.get? l ≠ none ∨ fs.walk follow place names = .refused .notFound := by
  induction names generalizing place with
  | nil =>
    rw [passed, List.mem_singleton] at hl
    obtain ⟨node, hnode, -⟩ := hplace
    exact .inl (by simp [hl, hnode])
  | cons name rest ih =>
    by_cases hhere : name = "."
    · subst hhere
      rw [passed_here] at hl
      rw [walk_here]
      exact ih hplace hl
    by_cases hup : name = ".."
    · subst hup
      rw [passed_up] at hl
      rw [walk_up]
      exact ih hplace.dropLast hl
    rw [passed_name hhere hup, kind?] at hl
    rw [walk_name hhere hup]
    by_cases hlength : maxNameBytes < name.length
    · rw [if_pos hlength] at hl
      cases hl
    rw [if_neg hlength] at hl ⊢
    cases hnode : fs.get? (place ++ [name]) with
    | none =>
      rw [hnode] at hl
      cases rest with
      | nil => cases hl
      | cons next rest => exact .inr rfl
    | some node =>
      have hthere : fs.get? (place ++ [name]) ≠ none := by simp [hnode]
      rw [hnode] at hl
      cases node with
      | folder children =>
        obtain rfl | hrest := List.mem_cons.1 hl
        · exact .inl hthere
        · exact ih ⟨_, hnode, rfl⟩ hrest
      | _ =>
        simp only [Option.map_some, Node.kind] at hl
        split at hl
        · cases hl
        · exact .inl (List.mem_singleton.1 hl ▸ hthere)

theorem get?_of_mem_passedOn (hw : w.IsFound fs) (hl : l ∈ fs.passedOn follow links w) :
    fs.get? l ≠ none ∨ fs.walkOn follow links w = .error .notFound := by
  induction links generalizing w with
  | zero => cases w <;> cases hl
  | succ links ih =>
    cases w with
    | done t => cases hl
    | refused e => cases hl
    | link goal target rest =>
      rw [passedOn] at hl
      rw [walkOn]
      by_cases htarget : target = ""
      · rw [if_pos htarget] at hl
        cases hl
      rw [if_neg htarget] at hl ⊢
      obtain hpassed | hon := List.mem_append.1 hl
      · obtain hthere | hrefused := get?_of_mem_passed (isFolderAt_startOf hw.1) hpassed
        · exact .inl hthere
        · exact .inr (by rw [hrefused, walkOn])
      · exact ih (isFound_behind hw) hon

theorem get?_of_mem_way {path : Path} (h : fs.IsFolderAt fs.current) (hl : l ∈ fs.way follow path) :
    refusal? path = none ∧ (fs.get? l ≠ none ∨ fs.locate follow path = .error (.os .notFound)) := by
  rw [locate_eq]
  unfold way at hl
  cases hrefusal : refusal? path with
  | some e =>
    rw [hrefusal] at hl
    cases hl
  | none =>
    rw [hrefusal] at hl
    refine ⟨rfl, ?_⟩
    have hstart : fs.IsFolderAt (startOf fs.current path.text) := isFolderAt_startOf h
    obtain hpassed | hon := List.mem_append.1 hl
    · obtain hthere | hrefused := get?_of_mem_passed hstart hpassed
      · exact .inl hthere
      · exact .inr (by rw [hrefused, walkOn]; rfl)
    · obtain hthere | hrefused :=
        get?_of_mem_passedOn (isFound_walk hstart fun _ => isPart_of_mem_segmentsOf) hon
      · exact .inl hthere
      · exact .inr (by rw [hrefused]; rfl)

/-- A path that leads to a folder leads there still when folders are still folders, and whatever else is
on its way is of the same kind. -/
theorem isFolder_of_isFolder (h : fs.IsFolderAt fs.current) (hcurrent : fs'.current = fs.current)
    (hfolders : ∀ place, fs.IsFolderAt place → fs'.IsFolderAt place)
    (hway : ∀ l ∈ fs.reachWay folder, ¬ fs.IsFolderAt l → fs'.kind? l = fs.kind? l)
    (hfolder : fs.isFolder folder = true) : fs'.isFolder folder = true := by
  obtain ⟨children, hstat⟩ := isFolder_iff.1 hfolder
  obtain ⟨place, hreach, hlocate⟩ := reach_of_stat h hstat
  have hrefusal := (locate_eq_ok.1 hlocate).1
  have hcurrent' : fs'.IsFolderAt fs'.current := hcurrent ▸ hfolders _ h
  have hkind : ∀ l ∈ fs.reachWay folder, fs'.kind? l = fs.kind? l := by
    intro l hl
    by_cases hno : fs.IsFolderAt l
    · rw [isFolderAt_iff_kind?.1 hno, isFolderAt_iff_kind?.1 (hfolders l hno)]
    · exact hway l hl hno
  have hend : ∀ t, fs.reach folder = .ok t → (∀ node ∈ t.node?, node.isFolder = false) →
      fs'.EndsAt true t.place := by
    intro t ht hnode
    rw [hreach] at ht
    obtain rfl := Except.ok.inj ht
    cases hnode _ rfl
  have hwalk := walk_congr (fun l hl => hkind l (List.mem_append_left _ hl)) fun t ht =>
    hend t (by rw [reach, ht, walkOn])
  have hplace : (fs'.reach folder).map Target.place = (fs.reach folder).map Target.place := by
    unfold reach
    rw [hcurrent]
    exact walkOn_congr hwalk (fun l hl => hkind l (List.mem_append_right _ hl)) hend
  rw [hreach] at hplace
  cases hreach' : fs'.reach folder with
  | error e =>
    rw [hreach'] at hplace
    cases hplace
  | ok t =>
    rw [hreach'] at hplace
    obtain heq : t.place = place := Except.ok.inj hplace
    have hget := (isFound_walkOn (isFound_start h folder.text) hreach).get?
    obtain ⟨node, hnode, hisFolder⟩ := hfolders place ⟨_, hget, rfl⟩
    obtain ⟨children', rfl⟩ := Node.exists_children_of_isFolder hisFolder
    have hfound := (isFound_walkOn (isFound_start hcurrent' folder.text) hreach').get?
    rw [heq, hnode] at hfound
    have htarget : t = .present place (.folder children') := by
      rw [← heq]
      exact node?_eq_some_iff.1 hfound.symm
    rw [isFolder_iff]
    refine ⟨children', ?_⟩
    rw [stat_eq, locate_of_reach hcurrent' hrefusal (hreach'.trans (congrArg _ htarget))]
    rfl

end Way

end FileSystem

end ApiSurface
