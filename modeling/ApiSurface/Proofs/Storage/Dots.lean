import ApiSurface.Proofs.Storage.Children

/-!
The folder of a file, by the path of the file.

The path is taken apart into its components and put together again without the last one. On the way
empty parts and dots are lost, and with them nothing that a walk to a folder would notice.
-/

namespace ApiSurface

namespace FileSystem

/-! ## Walks without dots -/

/-- The names of a walk that lead anywhere. -/
def withoutDots (names : List OsString) : List OsString :=
  names.filter (· ≠ ".")

/-- The second walk comes to a folder if the first one does, and to the same one. -/
inductive Walk.ToFolder : Walk → Walk → Prop
  | folder (place : Location) (children : List (OsString × Node)) :
      ToFolder (.done (.present place (.folder children))) (.done (.present place (.folder children)))
  | link (goal : Location) (target : OsString) {rest rest' : List OsString}
      (h : withoutDots rest' = withoutDots rest) : ToFolder (.link goal target rest) (.link goal target rest')
  | nowhere {w w' : Walk} (hfolder : ∀ place children, w ≠ .done (.present place (.folder children)))
      (hlink : ∀ goal target rest, w ≠ .link goal target rest) : ToFolder w w'

section Dots

variable {fs : FileSystem} {place : Location} {names names' : List OsString} {name : OsString} {links : Nat}
  {w w' : Walk} {children : List (OsString × Node)} {path path' : Path}

/-- Dots in front of a name are passed over. -/
theorem exists_walk_eq {tail : List OsString} (h : withoutDots names = name :: tail) :
    ∃ rest, withoutDots rest = tail ∧
      ∀ place, fs.walk true place names = fs.walk true place (name :: rest) := by
  induction names with
  | nil => cases h
  | cons first others ih =>
    by_cases hhere : first = "."
    · subst hhere
      obtain ⟨rest, htail, hwalk⟩ := ih (by simpa [withoutDots] using h)
      exact ⟨rest, htail, fun place => by rw [walk_here, hwalk]⟩
    · simp only [withoutDots, List.filter_cons, decide_eq_true (p := first ≠ ".") hhere, if_true,
        List.cons.injEq] at h
      obtain ⟨rfl, htail⟩ := h
      exact ⟨others, htail, fun place => rfl⟩

theorem walk_of_dots (h : withoutDots names = []) : fs.walk true place names = fs.walk true place [] := by
  induction names with
  | nil => rfl
  | cons first others ih =>
    by_cases hhere : first = "."
    · subst hhere
      rw [walk_here]
      exact ih (by simpa [withoutDots] using h)
    · simp [withoutDots, hhere] at h

theorem toFolder_walk (h : withoutDots names' = withoutDots names) :
    (fs.walk true place names).ToFolder (fs.walk true place names') := by
  induction names generalizing place names' with
  | nil =>
    rw [walk_of_dots h, walk]
    cases hnode : fs.get? place with
    | none => exact .nowhere (by simp) (by simp)
    | some node =>
      cases node with
      | folder children => exact .folder place children
      | _ => exact .nowhere (by simp) (by simp)
  | cons name rest ih =>
    by_cases hhere : name = "."
    · subst hhere
      rw [walk_here]
      exact ih (h.trans (by simp [withoutDots]))
    obtain ⟨rest', hrest, hwalk⟩ := @exists_walk_eq fs names' name (withoutDots rest)
      (h.trans (by simp [withoutDots, hhere]))
    rw [hwalk]
    by_cases hup : name = ".."
    · subst hup
      rw [walk_up, walk_up]
      exact ih hrest
    rw [walk_name hhere hup, walk_name hhere hup]
    by_cases hlength : maxNameBytes < name.length
    · rw [if_pos hlength]
      exact .nowhere (by simp) (by simp)
    rw [if_neg hlength, if_neg hlength]
    cases hnode : fs.get? (place ++ [name]) with
    | none =>
      dsimp only
      split
      · exact .nowhere (by simp) (by simp)
      · exact .nowhere (by simp) (by simp)
    | some node =>
      cases node with
      | folder children => exact ih hrest
      | link target =>
        simp only [Bool.not_true, Bool.and_false, if_neg Bool.false_ne_true]
        exact .link place target hrest
      | _ =>
        dsimp only
        split
        · exact .nowhere (by simp) (by simp)
        · exact .nowhere (by simp) (by simp)

theorem walkOn_toFolder (h : w.ToFolder w')
    (hon : fs.walkOn true links w = .ok (.present place (.folder children))) :
    fs.walkOn true links w' = .ok (.present place (.folder children)) := by
  induction links generalizing w w' with
  | zero =>
    cases h with
    | folder => exact hon
    | link => cases hon
    | nowhere hfolder hlink =>
      cases w with
      | done t => exact absurd (congrArg Walk.done (Except.ok.inj hon)) (hfolder place children)
      | refused e => cases hon
      | link goal target rest => cases hon
  | succ links ih =>
    cases h with
    | folder => exact hon
    | @link goal target rest rest' hrest =>
      rw [walkOn] at hon ⊢
      by_cases htarget : target = ""
      · rw [if_pos htarget] at hon
        cases hon
      rw [if_neg htarget] at hon ⊢
      refine ih (toFolder_walk ?_) hon
      simpa [withoutDots] using hrest
    | nowhere hfolder hlink =>
      cases w with
      | done t => exact absurd (congrArg Walk.done (Except.ok.inj hon)) (hfolder place children)
      | refused e => cases hon
      | link goal target rest => exact absurd rfl (hlink goal target rest)

/-- Paths with the same names lead to the same folder, whatever dots there are in them. -/
theorem reach_of_withoutDots (hstart : startOf fs.current path'.text = startOf fs.current path.text)
    (hnames : withoutDots (namesOf path'.text) = withoutDots (namesOf path.text))
    (h : fs.reach path = .ok (.present place (.folder children))) :
    fs.reach path' = .ok (.present place (.folder children)) := by
  unfold reach at h ⊢
  rw [hstart]
  exact walkOn_toFolder (toFolder_walk hnames) h

end Dots

/-! ## Components -/

section Components

variable {name : OsString} {names : List OsString} {folder : Path}

/-- The component that a name gives. -/
def componentOf (name : OsString) : Path.Component :=
  if name = ".." then .up else .normal name

theorem text_componentOf (name : OsString) : (componentOf name).text = name := by
  unfold componentOf
  split
  · rename_i hup
    exact hup.symm
  · rfl

theorem componentOf_ne_root (name : OsString) : componentOf name ≠ .root := by
  unfold componentOf
  split <;> nofun

theorem filterMap_componentOf? (parts : List OsString) : parts.filterMap Path.componentOf? =
    (withoutDots (parts.filter (· ≠ ""))).map componentOf := by
  induction parts with
  | nil => rfl
  | cons part rest ih =>
    by_cases hempty : part = ""
    · subst hempty
      simpa [Path.componentOf?, withoutDots] using ih
    by_cases hhere : part = "."
    · subst hhere
      simpa [Path.componentOf?, withoutDots] using ih
    by_cases hup : part = ".."
    · subst hup
      simpa [Path.componentOf?, withoutDots, componentOf] using ih
    · simpa [Path.componentOf?, withoutDots, componentOf, hempty, hhere, hup] using ih

/-- What comes first among the components of a path. -/
def startComponents (path : Path) : List Path.Component :=
  if path.isAbsolute then [.root] else if path.segments.head? = some ("." : OsString) then [.here] else []

theorem components_eq (path : Path) : path.components =
    startComponents path ++ (withoutDots (namesOf path.text)).map componentOf := by
  rw [Path.components, Path.segments, filterMap_componentOf?]
  rfl

theorem namesOf_join (folder : Path) (hpart : IsPart name) (hhere : name ≠ ".") :
    namesOf (folder.join ⟨name⟩).text = namesOf folder.text ++ [name] := by
  have hsegments := segmentsOf_join folder hpart
  obtain heq | heq := segmentsOf_eq (folder.join ⟨name⟩).text
  · rw [← heq, hsegments]
  · rw [heq] at hsegments
    have hlast := congrArg List.getLast? hsegments
    rw [List.getLast?_concat, List.getLast?_concat] at hlast
    exact absurd (Option.some.inj hlast).symm hhere

theorem components_join (folder : Path) (hpart : IsPart name) (hhere : name ≠ ".") :
    (folder.join ⟨name⟩).components = startComponents (folder.join ⟨name⟩) ++
      (withoutDots (namesOf folder.text)).map componentOf ++ [componentOf name] := by
  rw [components_eq, namesOf_join folder hpart hhere]
  simp [withoutDots, hhere]

/-- Names with slashes between them are the names of that text. -/
theorem namesOf_intercalate (h : ∀ name ∈ names, IsPart name) : namesOf (OsString.intercalate "/" names) = names := by
  cases names with
  | nil => decide
  | cons first rest =>
    have hsplit : (OsString.intercalate "/" (first :: rest)).toList.splitOn OsString.slash =
        (first :: rest).map OsString.toList := by
      rw [OsString.toList_intercalate]
      refine List.splitOn_intercalate OsString.slash (fun part hpart => ?_) (by simp)
      obtain ⟨name, hname, rfl⟩ := List.mem_map.1 hpart
      exact (h name hname).2
    unfold namesOf
    rw [hsplit, List.map_map]
    have hid : (OsString.ofList ∘ OsString.toList) = id := funext OsString.ofList_toList
    rw [hid, List.map_id, List.filter_eq_self]
    exact fun name hname => by simpa using (h name hname).1

theorem namesOf_root (text : OsString) : namesOf ("/" ++ text) = namesOf text := by
  unfold namesOf
  rw [OsString.toList_append, show ("/" : OsString).toList = [] ++ [OsString.slash] from rfl, List.append_assoc,
    List.singleton_append, List.splitOn_append_cons_self, List.splitOn_nil]
  simp

/-- Between slashes no slash comes first. -/
theorem head?_intercalate (h : ∀ name ∈ names, IsPart name) :
    (OsString.intercalate "/" names).toList.head? ≠ some OsString.slash := by
  cases names with
  | nil => decide
  | cons first rest =>
    obtain ⟨hne, hslash⟩ := h first List.mem_cons_self
    cases hchars : first.toList with
    | nil => exact absurd (OsString.toList_eq_nil_iff.1 hchars) hne
    | cons c more =>
      have hc : c ≠ OsString.slash := by
        rintro rfl
        exact hslash (hchars ▸ List.mem_cons_self)
      have hhead : (OsString.intercalate "/" (first :: rest)).toList.head? = some c := by
        rw [OsString.toList_intercalate]
        cases rest with
        | nil => simp [hchars]
        | cons second rest => simp [List.intercalate_cons_cons, hchars]
      rw [hhead]
      simpa using hc

end Components

/-! ## The folder of a file -/

section FolderOf

variable {fs : FileSystem} {name : OsString} {place : Location} {children : List (OsString × Node)}
  {folder : Path}

theorem map_text_componentOf (names : List OsString) : (names.map componentOf).map (·.text) = names := by
  simp [List.map_map, Function.comp_def, text_componentOf]

theorem ofComponents_componentOf (names : List OsString) :
    Path.ofComponents (names.map componentOf) = ⟨OsString.intercalate "/" names⟩ := by
  have htexts := map_text_componentOf names
  cases names with
  | nil => rfl
  | cons first rest =>
    have hroot := componentOf_ne_root first
    rw [List.map_cons] at htexts ⊢
    generalize componentOf first = component at hroot htexts
    cases component with
    | root => exact absurd rfl hroot
    | _ => exact congrArg (fun texts => (⟨OsString.intercalate "/" texts⟩ : Path)) htexts

theorem ofComponents_here (names : List OsString) :
    Path.ofComponents (.here :: names.map componentOf) = ⟨OsString.intercalate "/" ("." :: names)⟩ :=
  congrArg (fun texts => (⟨OsString.intercalate "/" ("." :: texts)⟩ : Path)) (map_text_componentOf names)

theorem ofComponents_root (names : List OsString) :
    Path.ofComponents (.root :: names.map componentOf) = ⟨"/" ++ OsString.intercalate "/" names⟩ :=
  congrArg (fun texts => (⟨"/" ++ OsString.intercalate "/" texts⟩ : Path)) (map_text_componentOf names)

/-- The folder is written anew: with a slash, a dot or nothing in front, and without any dots after
that. -/
theorem parent?_join (folder : Path) (hpart : IsPart name) (hhere : name ≠ ".") :
    ∃ parent, (folder.join ⟨name⟩).parent? = some parent ∧
      withoutDots (namesOf parent.text) = withoutDots (namesOf folder.text) ∧
      (parent.text.toList.head? = some OsString.slash ↔ (folder.join ⟨name⟩).isAbsolute = true) := by
  have hparts : ∀ part ∈ withoutDots (namesOf folder.text), IsPart part :=
    fun part hpart => isPart_of_mem_namesOf (List.mem_filter.1 hpart).1
  have hself : withoutDots (withoutDots (namesOf folder.text)) = withoutDots (namesOf folder.text) := by
    simp [withoutDots]
  have hparent : (folder.join ⟨name⟩).parent? = some (.ofComponents
      (startComponents (folder.join ⟨name⟩) ++ (withoutDots (namesOf folder.text)).map componentOf)) := by
    rw [Path.parent?, components_join folder hpart hhere, List.getLast?_concat, List.dropLast_concat]
    have hroot := componentOf_ne_root name
    cases hcomponent : componentOf name with
    | root => exact absurd hcomponent hroot
    | _ => rfl
  refine ⟨_, hparent, ?_⟩
  unfold startComponents
  generalize withoutDots (namesOf folder.text) = names at *
  by_cases habsolute : (folder.join ⟨name⟩).isAbsolute = true
  · rw [if_pos habsolute, List.singleton_append, ofComponents_root]
    refine ⟨?_, iff_of_true (by simp) habsolute⟩
    rw [namesOf_root, namesOf_intercalate hparts, hself]
  rw [if_neg habsolute]
  by_cases hdot : (folder.join ⟨name⟩).segments.head? = some ("." : OsString)
  · have hall : ∀ part ∈ ("." : OsString) :: names, IsPart part :=
      List.forall_mem_cons.2 ⟨⟨by decide, by decide⟩, hparts⟩
    rw [if_pos hdot, List.singleton_append, ofComponents_here]
    refine ⟨?_, iff_of_false (head?_intercalate hall) habsolute⟩
    rw [namesOf_intercalate hall]
    exact hself
  · rw [if_neg hdot, List.nil_append, ofComponents_componentOf]
    refine ⟨?_, iff_of_false (head?_intercalate hparts) habsolute⟩
    rw [namesOf_intercalate hparts, hself]

/-- A file of a folder has this folder above it. -/
theorem reach_folderOf (hpart : IsPart name) (hhere : name ≠ ".")
    (h : fs.reach folder = .ok (.present place (.folder children))) :
    fs.reach (Replacement.folderOf (folder.join ⟨name⟩)) = .ok (.present place (.folder children)) := by
  obtain ⟨parent, hparent, hnames, hhead⟩ := parent?_join folder hpart hhere
  have hstart : startOf fs.current parent.text = startOf fs.current folder.text := by
    rw [← startOf_join fs.current folder hpart]
    unfold startOf
    have hiff : parent.text.toList.head? = some OsString.slash ↔
        (folder.join ⟨name⟩).text.toList.head? = some OsString.slash := by
      rw [hhead, Path.isAbsolute, decide_eq_true_eq]
    simp only [hiff]
  have hreach := reach_of_withoutDots hstart hnames h
  unfold Replacement.folderOf
  rw [hparent]
  dsimp only
  split
  · rename_i hempty
    -- Nothing in front of the name means the current folder, and so does a dot.
    refine reach_of_withoutDots ?_ ?_ hreach
    · rw [hempty]
      rfl
    · rw [hempty]
      decide
  · exact hreach

end FolderOf

end FileSystem

end ApiSurface
