import ApiSurface.Proofs.Storage.Dots

/-!
What stands below a folder, along paths that begin with the path of the folder.

Where there are no links below the folder, names behind its path lead to what stands at these names in
the tree, and nowhere else.
-/

namespace ApiSurface

/-- There is no link below the node. -/
def Node.IsLinkFree (node : Node) : Prop :=
  ∀ place target, node.get? place ≠ some (.link target)

/-- What stands below a folder is below its first child or below the others. -/
theorem Node.get?_folder_cons {name only : OsString} {child node : Node} {rest : Location}
    {others : List (OsString × Node)} (h : (Node.folder ((only, child) :: others)).get? (name :: rest) = some node) :
    name = only ∧ child.get? rest = some node ∨ (Node.folder others).get? (name :: rest) = some node := by
  rw [Node.get?_cons, Node.child?, Node.children, List.lookup_cons] at h
  by_cases hname : name = only
  · subst hname
    rw [beq_self_eq_true] at h
    exact .inl ⟨rfl, h⟩
  · rw [beq_false_of_ne hname] at h
    exact .inr (by rw [Node.get?_cons]; exact h)

namespace FileSystem

/-! ## Several names behind a path -/

section Names

variable {names : List OsString} {folder : Path}

theorem splitOn_intercalate (h : ∀ name ∈ names, IsPart name) (hne : names ≠ []) :
    (OsString.intercalate "/" names).toList.splitOn OsString.slash = names.map OsString.toList := by
  rw [OsString.toList_intercalate]
  refine List.splitOn_intercalate OsString.slash (fun part hpart => ?_) (by simpa using hne)
  obtain ⟨name, hname, rfl⟩ := List.mem_map.1 hpart
  exact (h name hname).2

/-- From whatever folder it is seen, the text leads along the names. -/
structure LeadsAlong (text : OsString) (names : List OsString) : Prop where
  relative : Path.isAbsolute ⟨text⟩ = false
  segments : segmentsOf text = names
  isName : ∀ name ∈ names, Node.isName name
  ne_nil : names ≠ []

theorem leadsAlong_intercalate (hnames : ∀ name ∈ names, Node.isName name) (hne : names ≠ []) :
    LeadsAlong (OsString.intercalate "/" names) names := by
  have hparts : ∀ name ∈ names, IsPart name := fun name hname => (Node.isName_iff.1 (hnames name hname)).1
  have hlast : names.getLast? ≠ some ("" : OsString) := fun hmem => (hparts "" (List.mem_of_getLast? hmem)).1 rfl
  have hfilter : names.filter (· ≠ ("" : OsString)) = names :=
    List.filter_eq_self.2 fun name hname => by simpa using (hparts name hname).1
  refine ⟨decide_eq_false (head?_intercalate hparts), ?_, hnames, hne⟩
  unfold segmentsOf
  rw [splitOn_intercalate hparts hne]
  simp only [List.map_map, Function.comp_def, OsString.ofList_toList, List.map_id']
  rw [hfilter, if_neg hlast, List.append_nil]

end Names

/-! ## Walks below a folder -/

/-- Names that a folder takes. -/
def AreShort (names : List OsString) : Prop :=
  ∀ name ∈ names, name.length ≤ maxNameBytes

section Below

variable {fs : FileSystem} {place : Location} {names : List OsString} {node found : Node} {folder : Path}
  {links : Nat} {w : Walk}

/-- Where no link is met, a walk leads to what stands at the names, or to nothing. -/
theorem walk_below (hnames : ∀ name ∈ names, Node.isName name) (hnode : fs.get? place = some node)
    (hfree : node.IsLinkFree) :
    (∃ found, node.get? names = some found ∧ AreShort names ∧
      fs.walk true place names = .done (.present (place ++ names) found)) ∨
    ¬ ((∃ found, node.get? names = some found) ∧ AreShort names) ∧
      ((∃ e, fs.walk true place names = .refused e) ∨
        ∃ above name, fs.walk true place names = .done (.absent above name)) := by
  induction names generalizing place node with
  | nil =>
    refine .inl ⟨node, rfl, List.forall_mem_nil _, ?_⟩
    rw [walk, hnode, List.append_nil]
  | cons name rest ih =>
    obtain ⟨hname, hrest⟩ := List.forall_mem_cons.1 hnames
    obtain ⟨-, hhere, hup⟩ := Node.isName_iff.1 hname
    rw [walk_name hhere hup]
    by_cases hlength : maxNameBytes < name.length
    · refine .inr ⟨?_, .inl ⟨_, if_pos hlength⟩⟩
      rintro ⟨-, hshort⟩
      exact absurd (hshort name List.mem_cons_self) (Nat.not_le.2 hlength)
    rw [if_neg hlength]
    have hchild : fs.get? (place ++ [name]) = node.child? name := by
      rw [get?, Node.get?_snoc]
      rw [get?] at hnode
      rw [hnode]
      rfl
    rw [hchild]
    cases hfound : node.child? name with
    | none =>
      have hnothing : node.get? (name :: rest) = none := by rw [Node.get?_cons, hfound]; rfl
      refine .inr ⟨?_, ?_⟩
      · rintro ⟨⟨found, hget⟩, -⟩
        rw [hnothing] at hget
        cases hget
      · cases rest with
        | nil => exact .inr ⟨place, name, rfl⟩
        | cons next rest => exact .inl ⟨_, rfl⟩
    | some child =>
      have hget : node.get? (name :: rest) = child.get? rest := by rw [Node.get?_cons, hfound]; rfl
      have hfreeChild : child.IsLinkFree := fun below target hlink =>
        hfree (name :: below) target (by rw [Node.get?_cons, hfound]; exact hlink)
      have hleaf : child.isFolder = false → rest ≠ [] →
          ¬ ((∃ found, node.get? (name :: rest) = some found) ∧ AreShort (name :: rest)) := by
        rintro hleaf hne ⟨⟨found, hfoundRest⟩, -⟩
        rw [hget, Node.get?_eq_some_of_not_isFolder hleaf] at hfoundRest
        exact hne hfoundRest.1
      cases child with
      | link target => exact absurd rfl (hfreeChild [] target)
      | folder children =>
        dsimp only
        obtain ⟨found, hbelow, hshort, hwalk⟩ | ⟨hno, hrefused⟩ := ih hrest (hchild.trans hfound) hfreeChild
        · refine .inl ⟨found, hget.trans hbelow, ?_, ?_⟩
          · exact List.forall_mem_cons.2 ⟨Nat.le_of_not_lt hlength, hshort⟩
          · rw [hwalk, List.append_assoc, List.singleton_append]
        · refine .inr ⟨?_, hrefused⟩
          rintro ⟨⟨found, hbelow⟩, hshort⟩
          exact hno ⟨⟨found, hget.symm.trans hbelow⟩, (List.forall_mem_cons.1 hshort).2⟩
      | file id =>
        cases rest with
        | nil => exact .inl ⟨.file id, hget, by simpa [AreShort] using hlength, rfl⟩
        | cons next rest => exact .inr ⟨hleaf rfl (List.cons_ne_nil _ _), .inl ⟨_, rfl⟩⟩
      | device =>
        cases rest with
        | nil => exact .inl ⟨.device, hget, by simpa [AreShort] using hlength, rfl⟩
        | cons next rest => exact .inr ⟨hleaf rfl (List.cons_ne_nil _ _), .inl ⟨_, rfl⟩⟩

/-- Behind a path that leads to a folder the walk goes on from there. -/
theorem walkOn_andThen {children : List (OsString × Node)} {more : List OsString}
    (hmore : more ≠ []) (hw : w.IsFound fs)
    (hreach : fs.walkOn true links w = .ok (.present place (.folder children)))
    (hends : ∀ goal target rest, fs.walk true place more ≠ .link goal target rest) :
    fs.walkOn true links (w.andThen fs true more) = fs.walkOn true 0 (fs.walk true place more) := by
  have hzero : ∀ links, fs.walkOn true links (fs.walk true place more) =
      fs.walkOn true 0 (fs.walk true place more) := by
    intro links
    cases hwalk : fs.walk true place more with
    | done t => rw [walkOn, walkOn]
    | refused e => rw [walkOn, walkOn]
    | link goal target rest => exact absurd hwalk (hends goal target rest)
  induction links generalizing w with
  | zero =>
    cases w with
    | done t =>
      obtain rfl := Except.ok.inj hreach
      rfl
    | refused e => cases hreach
    | link goal target rest => cases hreach
  | succ links ih =>
    cases w with
    | done t =>
      obtain rfl := Except.ok.inj hreach
      exact hzero _
    | refused e => cases hreach
    | link goal target rest =>
      rw [walkOn] at hreach
      rw [Walk.andThen, walkOn]
      by_cases htarget : target = ""
      · rw [if_pos htarget] at hreach
        cases hreach
      rw [if_neg htarget] at hreach ⊢
      rw [← List.append_assoc, walk_append hmore (isFolderAt_startOf hw.1)]
      exact ih (isFound_behind hw) hreach

/-- Names behind the path of a folder without links lead to what stands at these names below it, as long
as the system takes the path and the names. -/
theorem stat_join_below {children : List (OsString × Node)} {text : OsString} (h : fs.IsFolderAt fs.current)
    (hstat : fs.stat folder = .ok (.folder children)) (hfree : (Node.folder children).IsLinkFree)
    (htext : LeadsAlong text names) :
    fs.stat (folder.join ⟨text⟩) = .ok found ↔
      refusal? (folder.join ⟨text⟩) = none ∧ AreShort names ∧ (Node.folder children).get? names = some found := by
  obtain ⟨hrelative, hsegments, hnames, hne⟩ := htext
  obtain ⟨place, hreach, -⟩ := reach_of_stat h hstat
  have hnode : fs.get? place = some (.folder children) :=
    (isFound_walkOn (isFound_start h folder.text) hreach).get?
  have hwalk := walk_below hnames hnode hfree
  rw [stat_eq, locate_eq]
  cases hrefusal : refusal? (folder.join ⟨text⟩) with
  | some e => simp [Except.bind]
  | none =>
    have hends : ∀ goal target rest, fs.walk true place names ≠ .link goal target rest := by
      intro goal target rest hlink
      obtain ⟨_, -, -, heq⟩ | ⟨-, ⟨_, heq⟩ | ⟨_, _, heq⟩⟩ := hwalk <;>
      · rw [heq] at hlink
        cases hlink
    dsimp only
    rw [segmentsOf_join_of_relative hrelative, hsegments, startOf_join_of_relative _ hrelative,
      walk_append hne (isFolderAt_startOf h), walkOn_andThen hne (isFound_start h _) hreach hends]
    obtain ⟨there, hget, hshort, heq⟩ | ⟨hno, hrefused⟩ := hwalk
    · rw [heq, hget]
      simp [walkOn, Except.mapError, Except.bind, Target.node?, hshort]
    · refine iff_of_false ?_ ?_
      · intro hok
        obtain ⟨_, heq⟩ | ⟨_, _, heq⟩ := hrefused <;>
        · rw [heq] at hok
          simp [walkOn, Except.mapError, Except.bind, Target.node?] at hok
      · rintro ⟨-, hshort, hget⟩
        exact hno ⟨⟨found, hget⟩, hshort⟩

end Below

end FileSystem

end ApiSurface
