import ApiSurface.Proofs.Storage.Tree
import Mathlib.Data.List.Basic

/-!
What a path leads to hangs on the places it leads through.

A walk looks at one place after the other. It goes through folders and links, and is refused at other
things; only the last place may be anything. So two file systems that agree on what stands at the
places on the way send a path to the same place, whatever is there.
-/

namespace ApiSurface

/-- What stands behind a name, as far as a walk is concerned. -/
inductive Node.Kind
  | file
  | folder
  | link (target : OsString)
  | device
  deriving DecidableEq, Repr

def Node.kind : Node → Node.Kind
  | .file _ => .file
  | .folder _ => .folder
  | .link target => .link target
  | .device => .device

@[simp] theorem Node.kind_bare (node : Node) : node.bare.kind = node.kind := by
  cases node <;> rfl

theorem Node.isFolder_iff_kind {node : Node} : node.isFolder = true ↔ node.kind = .folder := by
  cases node <;> simp [isFolder, kind]

namespace FileSystem

/-! ## What stands at a place -/

/-- What stands at a place, without what is in it. -/
def bare? (fs : FileSystem) (place : Location) : Option Node :=
  (fs.get? place).map Node.bare

/-- The kind of what stands at a place. -/
def kind? (fs : FileSystem) (place : Location) : Option Node.Kind :=
  (fs.get? place).map Node.kind

theorem kind?_eq (fs : FileSystem) (place : Location) :
    fs.kind? place = (fs.bare? place).map Node.kind := by
  rw [kind?, bare?, Option.map_map]
  congr 1
  funext node
  exact (node.kind_bare).symm

theorem kind?_congr {fs fs' : FileSystem} {place : Location} (h : fs'.bare? place = fs.bare? place) :
    fs'.kind? place = fs.kind? place := by
  rw [kind?_eq, kind?_eq, h]

/-- A folder stands at the place. -/
def IsFolderAt (fs : FileSystem) (place : Location) : Prop :=
  ∃ node, fs.get? place = some node ∧ node.isFolder

theorem isFolderAt_iff_kind? {fs : FileSystem} {place : Location} :
    fs.IsFolderAt place ↔ fs.kind? place = some .folder := by
  simp only [IsFolderAt, kind?, Option.map_eq_some_iff, Node.isFolder_iff_kind]

/-- Above a folder are folders. -/
theorem IsFolderAt.append_left {fs : FileSystem} {place rest : Location}
    (h : fs.IsFolderAt (place ++ rest)) : fs.IsFolderAt place := by
  obtain ⟨node, hnode, hfolder⟩ := h
  rw [get?, Node.get?_append] at hnode
  obtain ⟨parent, hparent, hrest⟩ := Option.bind_eq_some_iff.1 hnode
  exact ⟨parent, hparent, Node.isFolder_of_get? hrest hfolder⟩

theorem IsFolderAt.dropLast {fs : FileSystem} {place : Location} (h : fs.IsFolderAt place) :
    fs.IsFolderAt place.dropLast := by
  cases hplace : place.getLast? with
  | none =>
    rw [List.getLast?_eq_none_iff] at hplace
    rwa [hplace] at h ⊢
  | some name =>
    rw [← List.dropLast_append_getLast? name hplace] at h
    exact h.append_left

/-- The place is that of a name in a folder, whether the folder has such a child or not. -/
def HasFolder (fs : FileSystem) (place : Location) : Prop :=
  ∃ folder name, place = folder ++ [name] ∧ fs.IsFolderAt folder ∧ Node.isName name

/-! ## Ends -/

/-- The place of what a path leads to, or would lead to. -/
def Target.place : Target → Location
  | .present place _ => place
  | .absent folder name => folder ++ [name]

/-- What a path leads to, if it leads to anything. -/
def Target.node? : Target → Option Node
  | .present _ node => some node
  | .absent _ _ => none

/-- Two walks end in the same way, whatever stands at the end. -/
inductive Walk.SameEnd : Walk → Walk → Prop
  | done {t t' : Target} (h : t'.place = t.place) : SameEnd (.done t) (.done t')
  | refused (e : OsError) : SameEnd (.refused e) (.refused e)
  | link (folder : Location) (target : OsString) (rest : List OsString) :
      SameEnd (.link folder target rest) (.link folder target rest)

/-! ## Walks -/

section Walk

variable {fs fs' : FileSystem} {follow : Bool} {place : Location} {name : OsString}
  {rest names : List OsString}

theorem walk_nil : fs.walk follow place [] =
    match fs.get? place with
    | some node => .done (.present place node)
    | none => .refused .notFound := by
  unfold walk
  rfl

theorem walk_here : fs.walk follow place ("." :: rest) = fs.walk follow place rest := by
  rw [walk, if_pos rfl]

theorem walk_up : fs.walk follow place (".." :: rest) = fs.walk follow place.dropLast rest := by
  rw [walk, if_neg (by decide), if_pos rfl]

theorem walk_name (hhere : name ≠ ".") (hup : name ≠ "..") :
    fs.walk follow place (name :: rest) =
      if maxNameBytes < name.length then .refused .nameTooLong
      else
        match fs.get? (place ++ [name]) with
        | none => if rest.isEmpty then .done (.absent place name) else .refused .notFound
        | some (.folder _) => walk fs follow (place ++ [name]) rest
        | some (.link target) =>
          if rest.isEmpty && !follow then .done (.present (place ++ [name]) (.link target))
          else .link place target rest
        | some node =>
          if rest.isEmpty then .done (.present (place ++ [name]) node) else .refused .notFolder := by
  rw [walk]
  refine (if_neg hhere).trans ((if_neg hup).trans ?_)
  rfl

/-- The places through which a walk goes: all at which it looks, but for the last one where that is no
folder. -/
def passed (fs : FileSystem) (follow : Bool) : Location → List OsString → List Location
  | place, [] => [place]
  | place, name :: rest =>
    if name = "." then passed fs follow place rest
    else if name = ".." then passed fs follow place.dropLast rest
    else if maxNameBytes < name.length then []
    else
      match fs.kind? (place ++ [name]) with
      | some .folder => (place ++ [name]) :: passed fs follow (place ++ [name]) rest
      | some (.link _) => if rest.isEmpty && !follow then [] else [place ++ [name]]
      | _ => if rest.isEmpty then [] else [place ++ [name]]

theorem passed_here : fs.passed follow place ("." :: rest) = fs.passed follow place rest := by
  rw [passed, if_pos rfl]

theorem passed_up : fs.passed follow place (".." :: rest) = fs.passed follow place.dropLast rest := by
  rw [passed, if_neg (by decide), if_pos rfl]

theorem passed_name (hhere : name ≠ ".") (hup : name ≠ "..") :
    fs.passed follow place (name :: rest) =
      if maxNameBytes < name.length then []
      else
        match fs.kind? (place ++ [name]) with
        | some .folder => (place ++ [name]) :: passed fs follow (place ++ [name]) rest
        | some (.link _) => if rest.isEmpty && !follow then [] else [place ++ [name]]
        | _ => if rest.isEmpty then [] else [place ++ [name]] := by
  rw [passed, if_neg hhere, if_neg hup]

/-- What stands at a place, if anything, can be at the end of a path. -/
def EndsAt (fs : FileSystem) (follow : Bool) (place : Location) : Prop :=
  ∀ node, fs.get? place = some node → node.isFolder = false ∧
    (follow = true → ∀ target, node ≠ .link target)

/-- The last name of a walk, where it leads to something that ends it. -/
theorem walk_last (hhere : name ≠ ".") (hup : name ≠ "..") (hlength : ¬ maxNameBytes < name.length)
    (h : fs.EndsAt follow (place ++ [name])) :
    ∃ t, fs.walk follow place [name] = .done t ∧ t.place = place ++ [name] ∧
      t.node? = fs.get? (place ++ [name]) := by
  rw [walk_name hhere hup, if_neg hlength]
  cases hnode : fs.get? (place ++ [name]) with
  | none => exact ⟨_, rfl, rfl, rfl⟩
  | some node =>
    obtain ⟨hfolder, hlink⟩ := h node hnode
    cases node with
    | file id => exact ⟨_, rfl, rfl, rfl⟩
    | folder children => cases hfolder
    | device => exact ⟨_, rfl, rfl, rfl⟩
    | link target =>
      cases follow with
      | false => exact ⟨_, rfl, rfl, rfl⟩
      | true => exact absurd rfl (hlink rfl target)

theorem endsAt_congr (h : fs'.kind? place = fs.kind? place) :
    fs'.EndsAt follow place ↔ fs.EndsAt follow place := by
  have hiff : ∀ fs : FileSystem, fs.EndsAt follow place ↔ ∀ kind, fs.kind? place = some kind →
      kind ≠ .folder ∧ (follow = true → ∀ target, kind ≠ .link target) := by
    intro fs
    unfold EndsAt kind?
    cases fs.get? place with
    | none => simp
    | some node => cases node <;> simp [Node.kind, Node.isFolder]
  rw [hiff, hiff, h]

/-- A walk goes through the place of a name unless it ends there. -/
theorem mem_passed (hhere : name ≠ ".") (hup : name ≠ "..") (hlength : ¬ maxNameBytes < name.length)
    (h : ¬ (rest = [] ∧ fs.EndsAt follow (place ++ [name]))) :
    place ++ [name] ∈ fs.passed follow place (name :: rest) := by
  rw [passed_name hhere hup, if_neg hlength, kind?]
  unfold EndsAt at h
  cases hnode : fs.get? (place ++ [name]) with
  | none => simp_all
  | some node => cases node <;> simp_all [Node.kind, Node.isFolder]

/-- How a walk goes on at a name where it does not end: by the kind of what stands there. -/
theorem walk_on (hhere : name ≠ ".") (hup : name ≠ "..") (hlength : ¬ maxNameBytes < name.length)
    (h : ¬ (rest = [] ∧ fs.EndsAt follow (place ++ [name]))) :
    fs.walk follow place (name :: rest) =
      match fs.kind? (place ++ [name]) with
      | some .folder => fs.walk follow (place ++ [name]) rest
      | some (.link target) => .link place target rest
      | some _ => .refused .notFolder
      | none => .refused .notFound := by
  rw [walk_name hhere hup, if_neg hlength, kind?]
  unfold EndsAt at h
  cases hnode : fs.get? (place ++ [name]) with
  | none =>
    have hrest : rest ≠ [] := by simpa [hnode] using h
    simp [hrest]
  | some node =>
    cases node with
    | folder children => rfl
    | link target =>
      have hnot : ¬ (rest.isEmpty && !follow) = true := by simpa [hnode, Node.isFolder] using h
      simp [Node.kind, hnot]
    | _ =>
      have hrest : rest ≠ [] := by simpa [hnode, Node.isFolder] using h
      simp [Node.kind, hrest]

/-- A walk goes the same way where the places that it goes through are of the same kind, and it ends at
the same place if that place can be an end. -/
theorem walk_congr (hway : ∀ l ∈ fs.passed follow place names, fs'.kind? l = fs.kind? l)
    (hend : ∀ t, fs.walk follow place names = .done t → (∀ node ∈ t.node?, node.isFolder = false) →
      fs'.EndsAt follow t.place) :
    Walk.SameEnd (fs.walk follow place names) (fs'.walk follow place names) := by
  induction names generalizing place with
  | nil =>
    have hkind : fs'.kind? place = fs.kind? place := hway place List.mem_cons_self
    rw [walk, walk]
    cases hnode : fs.get? place <;> cases hnode' : fs'.get? place <;>
      rw [kind?, kind?, hnode, hnode'] at hkind
    · exact .refused _
    · cases hkind
    · cases hkind
    · exact .done rfl
  | cons name rest ih =>
    by_cases hhere : name = "."
    · subst hhere
      rw [walk_here] at hend ⊢
      rw [walk_here]
      exact ih (passed_here ▸ hway) hend
    by_cases hup : name = ".."
    · subst hup
      rw [walk_up] at hend ⊢
      rw [walk_up]
      exact ih (passed_up ▸ hway) hend
    by_cases hlength : maxNameBytes < name.length
    · rw [walk_name hhere hup, walk_name hhere hup, if_pos hlength, if_pos hlength]
      exact .refused _
    by_cases hlast : rest = [] ∧ fs.EndsAt follow (place ++ [name])
    · -- The end itself need not be of the same kind.
      obtain ⟨rfl, hends⟩ := hlast
      obtain ⟨t, ht, hplace, hnode⟩ := walk_last hhere hup hlength hends
      have hends' : fs'.EndsAt follow (place ++ [name]) := by
        rw [← hplace]
        exact hend t ht fun node hmem => (hends node (hnode ▸ hmem)).1
      obtain ⟨t', ht', hplace', -⟩ := walk_last hhere hup hlength hends'
      rw [ht, ht']
      exact .done (hplace'.trans hplace.symm)
    · have hkind : fs'.kind? (place ++ [name]) = fs.kind? (place ++ [name]) :=
        hway _ (mem_passed hhere hup hlength hlast)
      have hlast' : ¬ (rest = [] ∧ fs'.EndsAt follow (place ++ [name])) := by
        rwa [endsAt_congr hkind]
      rw [passed_name hhere hup, if_neg hlength] at hway
      rw [walk_on hhere hup hlength hlast] at hend ⊢
      rw [walk_on hhere hup hlength hlast', hkind]
      cases hfound : fs.kind? (place ++ [name]) with
      | none => exact .refused _
      | some kind =>
        rw [hfound] at hend hway
        cases kind with
        | folder => exact ih (fun l hl => hway l (List.mem_cons_of_mem _ hl)) hend
        | link target => exact .link place target rest
        | _ => exact .refused _

/-- Where a walk ends, it goes through nothing any more. -/
theorem passed_last (hhere : name ≠ ".") (hup : name ≠ "..") (h : fs.EndsAt follow (place ++ [name])) :
    fs.passed follow place [name] = [] := by
  rw [passed_name hhere hup]
  by_cases hlength : maxNameBytes < name.length
  · rw [if_pos hlength]
  rw [if_neg hlength, kind?]
  cases hnode : fs.get? (place ++ [name]) with
  | none => rfl
  | some node =>
    obtain ⟨hfolder, hlink⟩ := h node hnode
    cases node with
    | file id => rfl
    | folder children => cases hfolder
    | device => rfl
    | link target =>
      cases follow with
      | false => rfl
      | true => exact absurd rfl (hlink rfl target)

/-- A walk goes through the same places where these are of the same kind, and what it ends at can be an
end. -/
theorem passed_congr (hway : ∀ l ∈ fs.passed follow place names, fs'.kind? l = fs.kind? l)
    (hend : ∀ t, fs.walk follow place names = .done t → (∀ node ∈ t.node?, node.isFolder = false) →
      fs'.EndsAt follow t.place) :
    fs'.passed follow place names = fs.passed follow place names := by
  induction names generalizing place with
  | nil => rw [passed, passed]
  | cons name rest ih =>
    by_cases hhere : name = "."
    · subst hhere
      rw [walk_here] at hend
      rw [passed_here] at hway ⊢
      rw [passed_here]
      exact ih hway hend
    by_cases hup : name = ".."
    · subst hup
      rw [walk_up] at hend
      rw [passed_up] at hway ⊢
      rw [passed_up]
      exact ih hway hend
    by_cases hlength : maxNameBytes < name.length
    · rw [passed_name hhere hup, passed_name hhere hup, if_pos hlength, if_pos hlength]
    by_cases hlast : rest = [] ∧ fs.EndsAt follow (place ++ [name])
    · obtain ⟨rfl, hends⟩ := hlast
      obtain ⟨t, ht, hplace, hnode⟩ := walk_last hhere hup hlength hends
      have hends' : fs'.EndsAt follow (place ++ [name]) := by
        rw [← hplace]
        exact hend t ht fun node hmem => (hends node (hnode ▸ hmem)).1
      rw [passed_last hhere hup hends, passed_last hhere hup hends']
    · have hkind : fs'.kind? (place ++ [name]) = fs.kind? (place ++ [name]) :=
        hway _ (mem_passed hhere hup hlength hlast)
      rw [walk_on hhere hup hlength hlast] at hend
      rw [passed_name hhere hup, if_neg hlength] at hway ⊢
      rw [passed_name hhere hup, if_neg hlength, hkind]
      cases hfound : fs.kind? (place ++ [name]) with
      | none => rfl
      | some kind =>
        rw [hfound] at hend hway
        cases kind with
        | folder => exact congrArg _ (ih (fun l hl => hway l (List.mem_cons_of_mem _ hl)) hend)
        | _ => rfl

/-! ### What a walk finds -/

/-- Induction along a walk: it stops at some name, or it ends at the last one, or it goes on. -/
theorem walk_induction {P : Location → List OsString → Walk → Prop}
    (stop : ∀ place names e, P place names (.refused e))
    (start : ∀ place node, fs.get? place = some node → P place [] (.done (.present place node)))
    (here : ∀ place rest w, P place rest w → P place ("." :: rest) w)
    (up : ∀ place rest w, P place.dropLast rest w → P place (".." :: rest) w)
    (last : ∀ place (name : OsString) t, name ≠ "." → name ≠ ".." → t.place = place ++ [name] →
      t.node? = fs.get? (place ++ [name]) → fs.EndsAt follow (place ++ [name]) → P place [name] (.done t))
    (folder : ∀ place (name : OsString) rest w, name ≠ "." → name ≠ ".." → fs.IsFolderAt (place ++ [name]) →
      P (place ++ [name]) rest w → P place (name :: rest) w)
    (link : ∀ place (name : OsString) rest target, name ≠ "." → name ≠ ".." →
      (follow = false → rest ≠ []) → P place (name :: rest) (.link place target rest))
    (place : Location) (names : List OsString) : P place names (fs.walk follow place names) := by
  fun_induction walk fs follow place names with
  | case1 place node hnode => exact start place node hnode
  | case2 place => exact stop place [] _
  | case3 place rest ih => exact here place rest _ ih
  | case4 place rest _ ih => exact up place rest _ ih
  | case5 place name rest => exact stop place _ _
  | case6 place name rest hhere hup _ hnode hrest =>
    obtain rfl := List.isEmpty_iff.1 hrest
    exact last place name _ hhere hup rfl hnode.symm (by simp [EndsAt, hnode])
  | case7 place name rest => exact stop place _ _
  | case8 place name rest hhere hup _ children hnode ih =>
    exact folder place name rest _ hhere hup ⟨_, hnode, rfl⟩ ih
  | case9 place name rest hhere hup _ target hnode hrest =>
    obtain ⟨hempty, hfollow⟩ := Bool.and_eq_true_iff.1 hrest
    obtain rfl := List.isEmpty_iff.1 hempty
    exact last place name _ hhere hup rfl hnode.symm (by simpa [EndsAt, hnode, Node.isFolder] using hfollow)
  | case10 place name rest hhere hup _ target hnode hrest =>
    exact link place name rest target hhere hup fun hfollow hnil => hrest (by simp [hfollow, hnil])
  | case11 place name rest hhere hup _ node hfolder hlink hnode hrest =>
    obtain rfl := List.isEmpty_iff.1 hrest
    refine last place name _ hhere hup rfl hnode.symm fun found hfound => ?_
    obtain rfl := Option.some.inj (hnode.symm.trans hfound)
    refine ⟨?_, fun _ target => hlink target⟩
    cases node with
    | folder children => exact absurd rfl (hfolder children)
    | _ => rfl
  | case12 place name rest => exact stop place _ _

/-- What a path leads to is what stands at its place; and what is no folder stands in one. -/
structure Target.IsFound (fs : FileSystem) (t : Target) : Prop where
  get? : fs.get? t.place = t.node?
  hasFolder : (∀ node ∈ t.node?, node.isFolder = false) → fs.HasFolder t.place

/-- A walk from a folder stays in folders. -/
def Walk.IsFound (fs : FileSystem) : Walk → Prop
  | .done t => t.IsFound fs
  | .refused _ => True
  | .link folder _ rest => fs.IsFolderAt folder ∧ ∀ name ∈ rest, IsPart name

theorem isFound_walk (hplace : fs.IsFolderAt place) (hnames : ∀ name ∈ names, IsPart name) :
    (fs.walk follow place names).IsFound fs := by
  refine walk_induction (P := fun place names w =>
      fs.IsFolderAt place → (∀ name ∈ names, IsPart name) → w.IsFound fs)
    ?stop ?start ?here ?up ?last ?folder ?link place names hplace hnames
  case stop => exact fun _ _ _ _ _ => trivial
  case start =>
    rintro place node hnode ⟨_, hnode', hfolder⟩ -
    obtain rfl := Option.some.inj (hnode.symm.trans hnode')
    refine ⟨hnode, fun hno => ?_⟩
    rw [hno node rfl] at hfolder
    cases hfolder
  case here => exact fun place rest w ih hplace hnames => ih hplace (List.forall_mem_cons.1 hnames).2
  case up =>
    exact fun place rest w ih hplace hnames => ih hplace.dropLast (List.forall_mem_cons.1 hnames).2
  case last =>
    intro place name t hhere hup heq hnode _ hplace hnames
    have hname : Node.isName name := Node.isName_iff.2 ⟨hnames name List.mem_cons_self, hhere, hup⟩
    exact ⟨by rw [heq, hnode], fun _ => ⟨place, name, heq, hplace, hname⟩⟩
  case folder =>
    exact fun place name rest w _ _ hfolder ih _ hnames => ih hfolder (List.forall_mem_cons.1 hnames).2
  case link =>
    exact fun place name rest target _ _ _ hplace hnames => ⟨hplace, (List.forall_mem_cons.1 hnames).2⟩

/-- A walk that follows links does not end at one. -/
def Walk.EndsBehindLinks (fs : FileSystem) : Walk → Prop
  | .done t => ∀ target, t.node? ≠ some (.link target)
  | .refused _ => True
  | .link folder _ _ => fs.IsFolderAt folder

theorem endsBehindLinks_walk (hplace : fs.IsFolderAt place) :
    (fs.walk true place names).EndsBehindLinks fs := by
  refine walk_induction (P := fun place _ w => fs.IsFolderAt place → w.EndsBehindLinks fs)
    ?stop ?start ?here ?up ?last ?folder ?link place names hplace
  case stop => exact fun _ _ _ _ => trivial
  case start =>
    rintro place node hnode ⟨_, hnode', hfolder⟩ target htarget
    obtain rfl := Option.some.inj (hnode.symm.trans hnode')
    obtain rfl := Option.some.inj htarget
    cases hfolder
  case here => exact fun place rest w ih hplace => ih hplace
  case up => exact fun place rest w ih hplace => ih hplace.dropLast
  case last =>
    intro place name t _ _ heq hnode hends _ target htarget
    exact (hends _ (hnode.symm.trans htarget)).2 rfl target rfl
  case folder => exact fun place name rest w _ _ hfolder ih _ => ih hfolder
  case link => exact fun place name rest target _ _ _ hplace => hplace

/-! ### The last name -/

/-- Where the last name says where a walk ends: at a child of that name. A link at the end is not
followed. -/
def Walk.EndsWith (name : OsString) : Walk → Prop
  | .done t => t.place.getLast? = some name
  | .refused _ => True
  | .link _ _ rest => rest.getLast? = some name

/-- Where the last name is `..`, a walk ends at a folder. -/
def Walk.EndsAbove (fs : FileSystem) : Walk → Prop
  | .done t => ∃ node, t.node? = some node ∧ node.isFolder
  | .refused _ => True
  | .link folder _ rest => fs.IsFolderAt folder ∧ rest.getLast? = some (".." : OsString)

theorem getLast?_of_cons {first last : OsString} (h : (first :: rest).getLast? = some last) :
    rest = [] ∧ first = last ∨ rest.getLast? = some last := by
  cases rest with
  | nil => exact .inl ⟨rfl, Option.some.inj h⟩
  | cons second rest => exact .inr (List.getLast?_cons_cons ▸ h)

theorem endsWith_walk {last : OsString} (hhere : last ≠ ".") (hup : last ≠ "..")
    (h : names.getLast? = some last) : (fs.walk false place names).EndsWith last := by
  -- With no names left, the place that has been reached is the child.
  refine walk_induction (P := fun place names w => names.getLast? = some last ∨
      names = [] ∧ place.getLast? = some last → w.EndsWith last)
    ?stop ?start ?here ?up ?last ?folder ?link place names (.inl h)
  case stop => exact fun _ _ _ _ => trivial
  case start =>
    rintro place node - (h | ⟨-, h⟩)
    · cases h
    · exact h
  case here =>
    rintro place rest w ih (h | ⟨h, -⟩)
    · obtain ⟨-, heq⟩ | hrest := getLast?_of_cons h
      · exact absurd heq.symm hhere
      · exact ih (.inl hrest)
    · cases h
  case up =>
    rintro place rest w ih (h | ⟨h, -⟩)
    · obtain ⟨-, heq⟩ | hrest := getLast?_of_cons h
      · exact absurd heq.symm hup
      · exact ih (.inl hrest)
    · cases h
  case last =>
    rintro place name t - - heq - - (h | ⟨h, -⟩)
    · obtain rfl := Option.some.inj h
      show t.place.getLast? = _
      rw [heq]
      exact List.getLast?_concat
    · cases h
  case folder =>
    rintro place name rest w - - - ih (h | ⟨h, -⟩)
    · obtain ⟨hnil, rfl⟩ | hrest := getLast?_of_cons h
      · exact ih (.inr ⟨hnil, List.getLast?_concat⟩)
      · exact ih (.inl hrest)
    · cases h
  case link =>
    rintro place name rest target - - hne (h | ⟨h, -⟩)
    · obtain ⟨hnil, -⟩ | hrest := getLast?_of_cons h
      · exact absurd hnil (hne rfl)
      · exact hrest
    · cases h

theorem endsAbove_walk (hplace : fs.IsFolderAt place) (h : names.getLast? = some (".." : OsString)) :
    (fs.walk false place names).EndsAbove fs := by
  -- With no names left, a folder has been reached.
  refine walk_induction (P := fun place names w => fs.IsFolderAt place →
      names.getLast? = some (".." : OsString) ∨ names = [] → w.EndsAbove fs)
    ?stop ?start ?here ?up ?last ?folder ?link place names hplace (.inl h)
  case stop => exact fun _ _ _ _ _ => trivial
  case start =>
    rintro place node hnode ⟨_, hnode', hfolder⟩ -
    obtain rfl := Option.some.inj (hnode.symm.trans hnode')
    exact ⟨node, rfl, hfolder⟩
  case here =>
    rintro place rest w ih hplace (h | h)
    · exact ih hplace ((getLast?_of_cons h).imp_left (·.1)).symm
    · cases h
  case up =>
    rintro place rest w ih hplace (h | h)
    · exact ih hplace.dropLast ((getLast?_of_cons h).imp_left (·.1)).symm
    · cases h
  case last =>
    rintro place name t - hup - - - - (h | h)
    · exact absurd (Option.some.inj h) hup
    · cases h
  case folder =>
    rintro place name rest w - - hfolder ih - (h | h)
    · exact ih hfolder ((getLast?_of_cons h).imp_left (·.1)).symm
    · cases h
  case link =>
    rintro place name rest target - - hne hplace (h | h)
    · obtain ⟨hnil, -⟩ | hrest := getLast?_of_cons h
      · exact absurd hnil (hne rfl)
      · exact ⟨hplace, hrest⟩
    · cases h

/-- Following a link at the end makes no difference where there is none. -/
theorem walk_follow (h : ∀ t target, fs.walk false place names = .done t → t.node? ≠ some (.link target)) :
    fs.walk true place names = fs.walk false place names := by
  induction names generalizing place with
  | nil => rw [walk, walk]
  | cons name rest ih =>
    by_cases hhere : name = "."
    · subst hhere
      rw [walk_here] at h ⊢
      rw [walk_here]
      exact ih h
    by_cases hup : name = ".."
    · subst hup
      rw [walk_up] at h ⊢
      rw [walk_up]
      exact ih h
    rw [walk_name hhere hup] at h ⊢
    rw [walk_name hhere hup]
    by_cases hlength : maxNameBytes < name.length
    · rw [if_pos hlength, if_pos hlength]
    rw [if_neg hlength] at h ⊢
    rw [if_neg hlength]
    cases hnode : fs.get? (place ++ [name]) with
    | none => rfl
    | some node =>
      cases node with
      | folder children => exact ih (by simpa [hnode] using h)
      | link target =>
        have hrest : rest ≠ [] := by
          rintro rfl
          rw [hnode] at h
          exact h _ target rfl rfl
        simp [hrest]
      | file id => rfl
      | device => rfl

end Walk

end FileSystem

end ApiSurface
