import ApiSurface.Proofs.Storage.Names

/-!
Places in a tree, and what a change at one of them does to the others.

A change of what is no folder touches the one place: below it there is nothing before and nothing
after, and every other place has what it had. Of a folder only the list of its children may be another
one, so places are compared without what is in them.

All of this is about sound trees: the children of a folder have different names, and every file has its
content in the table. So a name that is taken away is gone, and the number of a new file stands nowhere
else.
-/

namespace ApiSurface

namespace Node

/-- Induction on a tree: what all children of a folder have, the folder has. -/
theorem induct {P : Node → Prop} (file : ∀ id, P (.file id))
    (folder : ∀ children, (∀ c ∈ children, P c.2) → P (.folder children))
    (link : ∀ target, P (.link target)) (device : P .device) (node : Node) : P node :=
  @Node.rec P (fun children => ∀ c ∈ children, P c.2) (fun c => P c.2) file folder link device
    nofun (fun _ _ hfirst hrest => List.forall_mem_cons.2 ⟨hfirst, hrest⟩) (fun _ _ h => h) node

/-! ## Sound trees -/

mutual

/-- Children have names, different ones in one folder, and there are `files` numbers of files. -/
def isSound (files : Nat) : Node → Bool
  | .file id => id < files
  | .folder children => (children.map Prod.fst).Nodup && areSound files children
  | .link _ | .device => true

def areSound (files : Nat) : List (OsString × Node) → Bool
  | [] => true
  | (name, node) :: rest => isName name && isSound files node && areSound files rest

end

theorem areSound_iff {files : Nat} {children : List (OsString × Node)} :
    areSound files children = true ↔ ∀ c ∈ children, isName c.1 = true ∧ c.2.isSound files = true := by
  induction children with
  | nil => simp [areSound]
  | cons child rest ih =>
    obtain ⟨name, node⟩ := child
    simp [areSound, ih]

theorem isSound_folder_iff {files : Nat} {children : List (OsString × Node)} :
    (Node.folder children).isSound files = true ↔
      (children.map Prod.fst).Nodup ∧
        ∀ c ∈ children, isName c.1 = true ∧ c.2.isSound files = true := by
  rw [isSound, Bool.and_eq_true, decide_eq_true_iff, areSound_iff]

/-- A sound tree stays one when there are more numbers. -/
theorem isSound_mono {files more : Nat} (hle : files ≤ more) {node : Node} (h : node.isSound files) :
    node.isSound more := by
  induction node using induct with
  | file id =>
    rw [isSound] at h ⊢
    exact decide_eq_true (Nat.lt_of_lt_of_le (of_decide_eq_true h) hle)
  | folder children ih =>
    obtain ⟨hnodup, hchildren⟩ := isSound_folder_iff.1 h
    exact isSound_folder_iff.2 ⟨hnodup, fun c hc => ⟨(hchildren c hc).1, ih c hc (hchildren c hc).2⟩⟩
  | link target => rfl
  | device => rfl

/-- The names of the children are different, of whatever node. -/
theorem nodup_of_isSound {files : Nat} {node : Node} (h : node.isSound files) :
    (node.children.map Prod.fst).Nodup := by
  cases node with
  | folder children => exact (isSound_folder_iff.1 h).1
  | _ => exact List.nodup_nil

/-! ## Nodes without what is in them -/

/-- The node without the children of a folder. -/
def bare : Node → Node
  | .folder _ => .folder []
  | node => node

@[simp] theorem isFolder_bare (node : Node) : node.bare.isFolder = node.isFolder := by
  cases node <;> rfl

theorem bare_of_isFolder {node : Node} (h : node.isFolder) : node.bare = .folder [] := by
  cases node with
  | folder children => rfl
  | _ => cases h

theorem bare_of_not_isFolder {node : Node} (h : node.isFolder = false) : node.bare = node := by
  cases node with
  | folder children => cases h
  | _ => rfl

theorem exists_children_of_isFolder {node : Node} (h : node.isFolder) :
    ∃ children, node = .folder children := by
  cases node with
  | folder children => exact ⟨children, rfl⟩
  | _ => cases h

/-! ## One child -/

theorem child?_folder (name : OsString) (children : List (OsString × Node)) :
    child? name (.folder children) = children.lookup name := rfl

theorem children_of_not_isFolder {node : Node} (h : node.isFolder = false) : node.children = [] := by
  cases node with
  | folder children => cases h
  | _ => rfl

theorem child?_of_childless {node : Node} (h : node.children = []) (name : OsString) :
    node.child? name = none := by
  rw [child?, h]
  rfl

theorem isFolder_of_child? {node child : Node} {name : OsString} (h : node.child? name = some child) :
    node.isFolder := by
  cases node with
  | folder children => rfl
  | _ => cases h

theorem lookup_cons_of_ne {key name : OsString} (h : key ≠ name) (node : Node)
    (rest : List (OsString × Node)) : ((key, node) :: rest).lookup name = rest.lookup name := by
  rw [List.lookup_cons, beq_false_of_ne h.symm]

theorem mem_of_lookup_eq_some {name : OsString} {node : Node} {children : List (OsString × Node)}
    (h : children.lookup name = some node) : (name, node) ∈ children := by
  induction children with
  | nil => cases h
  | cons child rest ih =>
    obtain ⟨key, first⟩ := child
    by_cases heq : key = name
    · subst heq
      rw [List.lookup_cons_self] at h
      obtain rfl := Option.some.inj h
      exact List.mem_cons_self
    · rw [lookup_cons_of_ne heq] at h
      exact List.mem_cons_of_mem _ (ih h)

theorem lookup_eq_none_of_notMem {name : OsString} {children : List (OsString × Node)}
    (h : name ∉ children.map Prod.fst) : children.lookup name = none := by
  cases hlookup : children.lookup name with
  | none => rfl
  | some node => exact absurd (List.mem_map_of_mem (mem_of_lookup_eq_some hlookup)) h

theorem lookup_of_mem {name : OsString} {node : Node} {children : List (OsString × Node)}
    (hnodup : (children.map Prod.fst).Nodup) (h : (name, node) ∈ children) :
    children.lookup name = some node := by
  induction children with
  | nil => cases h
  | cons child rest ih =>
    obtain ⟨key, first⟩ := child
    obtain ⟨hkey, hrest⟩ := List.nodup_cons.1 (List.map_cons ▸ hnodup)
    obtain heq | hmem := List.mem_cons.1 h
    · obtain ⟨rfl, rfl⟩ := Prod.mk.inj heq
      exact List.lookup_cons_self
    · have hne : key ≠ name := by
        rintro rfl
        exact hkey (List.mem_map.2 ⟨_, hmem, rfl⟩)
      rw [lookup_cons_of_ne hne]
      exact ih hrest hmem

/-- What a child of a sound folder is. -/
theorem isSound_child {files : Nat} {node child : Node} {name : OsString} (h : node.isSound files)
    (hchild : node.child? name = some child) : isName name ∧ child.isSound files := by
  cases node with
  | folder children => exact (isSound_folder_iff.1 h).2 _ (mem_of_lookup_eq_some hchild)
  | _ => cases hchild

/-! ## Changing one child -/

theorem lookup_setChild_of_ne {name other : OsString} (h : name ≠ other) (value : Option Node)
    (children : List (OsString × Node)) :
    (setChild name value children).lookup other = children.lookup other := by
  induction children with
  | nil => cases value with
    | none => rfl
    | some node => exact lookup_cons_of_ne h node []
  | cons child rest ih =>
    obtain ⟨key, node⟩ := child
    unfold setChild
    by_cases heq : key = name
    · subst heq
      rw [if_pos rfl, lookup_cons_of_ne h]
      cases value with
      | none => rfl
      | some new => exact lookup_cons_of_ne h new rest
    · rw [if_neg heq, List.lookup_cons, List.lookup_cons, ih]

theorem lookup_setChild_self {name : OsString} (value : Option Node) {children : List (OsString × Node)}
    (h : (children.map Prod.fst).Nodup) : (setChild name value children).lookup name = value := by
  induction children with
  | nil => cases value with
    | none => rfl
    | some node => exact List.lookup_cons_self
  | cons child rest ih =>
    obtain ⟨key, node⟩ := child
    obtain ⟨hkey, hrest⟩ := List.nodup_cons.1 (List.map_cons ▸ h)
    unfold setChild
    by_cases heq : key = name
    · subst heq
      rw [if_pos rfl]
      cases value with
      | none => exact lookup_eq_none_of_notMem hkey
      | some new => exact List.lookup_cons_self
    · rw [if_neg heq, lookup_cons_of_ne heq]
      exact ih hrest

theorem mem_of_mem_setChild {name : OsString} {value : Option Node} {children : List (OsString × Node)}
    {c : OsString × Node} (h : c ∈ setChild name value children) :
    c ∈ children ∨ c.1 = name ∧ value = some c.2 := by
  induction children with
  | nil => cases value with
    | none => cases h
    | some node =>
      obtain rfl := List.mem_singleton.1 h
      exact .inr ⟨rfl, rfl⟩
  | cons child rest ih =>
    obtain ⟨key, node⟩ := child
    unfold setChild at h
    by_cases heq : key = name
    · rw [if_pos heq] at h
      obtain hnew | hrest := List.mem_append.1 h
      · cases value with
        | none => cases hnew
        | some new =>
          obtain rfl := List.mem_singleton.1 hnew
          exact .inr ⟨rfl, rfl⟩
      · exact .inl (List.mem_cons_of_mem _ hrest)
    · rw [if_neg heq] at h
      obtain rfl | hrest := List.mem_cons.1 h
      · exact .inl List.mem_cons_self
      · exact (ih hrest).imp_left (List.mem_cons_of_mem _)

theorem nodup_setChild {name : OsString} (value : Option Node) {children : List (OsString × Node)}
    (h : (children.map Prod.fst).Nodup) : ((setChild name value children).map Prod.fst).Nodup := by
  induction children with
  | nil => cases value with
    | none => exact List.nodup_nil
    | some node => exact List.nodup_cons.2 ⟨List.not_mem_nil, List.nodup_nil⟩
  | cons child rest ih =>
    obtain ⟨key, node⟩ := child
    obtain ⟨hkey, hrest⟩ := List.nodup_cons.1 (List.map_cons ▸ h)
    unfold setChild
    by_cases heq : key = name
    · subst heq
      rw [if_pos rfl]
      cases value with
      | none => exact hrest
      | some new => exact List.nodup_cons.2 ⟨hkey, hrest⟩
    · rw [if_neg heq, List.map_cons]
      refine List.nodup_cons.2 ⟨fun hmem => ?_, ih hrest⟩
      obtain ⟨c, hc, hfst⟩ := List.mem_map.1 hmem
      obtain hold | ⟨hname, -⟩ := mem_of_mem_setChild hc
      · exact hkey (hfst ▸ List.mem_map_of_mem hold)
      · exact heq (hfst.symm.trans hname)

theorem isSound_setChild {files : Nat} {name : OsString} {value : Option Node} {node : Node}
    (h : node.isSound files) (hname : isName name) (hvalue : ∀ new ∈ value, new.isSound files) :
    (Node.folder (setChild name value node.children)).isSound files := by
  refine isSound_folder_iff.2 ⟨nodup_setChild value (nodup_of_isSound h), fun c hc => ?_⟩
  obtain hold | ⟨hfst, hnew⟩ := mem_of_mem_setChild hc
  · cases node with
    | folder children => exact (isSound_folder_iff.1 h).2 c hold
    | _ => cases hold
  · exact ⟨hfst ▸ hname, hvalue _ hnew⟩

/-! ## Places below a node -/

@[simp] theorem get?_nil (node : Node) : node.get? [] = some node := rfl

theorem get?_cons (name : OsString) (place : Location) (node : Node) :
    node.get? (name :: place) = (node.child? name).bind (get? place) := by
  rw [get?]
  cases node.child? name <;> rfl

theorem get?_append (place rest : Location) (node : Node) :
    node.get? (place ++ rest) = (node.get? place).bind (get? rest) := by
  induction place generalizing node with
  | nil => rfl
  | cons name place ih =>
    rw [List.cons_append, get?_cons, get?_cons]
    cases node.child? name with
    | none => rfl
    | some child => exact ih child

theorem get?_snoc (folder : Location) (name : OsString) (node : Node) :
    node.get? (folder ++ [name]) = (node.get? folder).bind (child? name) := by
  rw [get?_append]
  cases node.get? folder with
  | none => rfl
  | some parent =>
    show parent.get? [name] = parent.child? name
    rw [get?_cons]
    cases parent.child? name <;> rfl

/-- Nothing is below what has no children. -/
theorem get?_of_childless {node : Node} (h : node.children = []) {place : Location}
    (hplace : place ≠ []) : node.get? place = none := by
  cases place with
  | nil => exact absurd rfl hplace
  | cons name place =>
    rw [get?_cons, child?_of_childless h]
    rfl

/-- Nothing is below what is no folder. -/
theorem get?_of_not_isFolder {node : Node} (h : node.isFolder = false) {place : Location}
    (hplace : place ≠ []) : node.get? place = none :=
  get?_of_childless (children_of_not_isFolder h) hplace

theorem get?_eq_some_of_not_isFolder {node found : Node} (h : node.isFolder = false) {place : Location} :
    node.get? place = some found ↔ place = [] ∧ node = found := by
  cases place with
  | nil => simp
  | cons name place => simp [get?_of_not_isFolder h (List.cons_ne_nil name place)]

theorem isSound_get? {files : Nat} {node found : Node} {place : Location} (h : node.isSound files)
    (hplace : node.get? place = some found) : found.isSound files := by
  induction place generalizing node with
  | nil =>
    obtain rfl := Option.some.inj hplace
    exact h
  | cons name place ih =>
    rw [get?_cons] at hplace
    obtain ⟨child, hchild, hrest⟩ := Option.bind_eq_some_iff.1 hplace
    exact ih (isSound_child h hchild).2 hrest

/-- What stands at a place, without what is in it. -/
def bare? (place : Location) (node : Node) : Option Node :=
  (node.get? place).map bare

/-! ## Changing a place -/

theorem set_singleton (value : Option Node) (name : OsString) (node : Node) :
    node.set value [name] = .folder (setChild name value node.children) := rfl

/-- A change further down is a change of one child. -/
theorem set_cons {value : Option Node} {first name : OsString} {folder : Location} {node child : Node}
    (h : node.child? first = some child) :
    node.set value (first :: (folder ++ [name])) =
      .folder (setChild first (some (child.set value (folder ++ [name]))) node.children) := by
  cases folder with
  | nil => simp only [List.nil_append, set, h]
  | cons second folder => simp only [List.cons_append, set, h]

section Set

variable {value : Option Node} {folder : Location} {name : OsString} {node parent : Node} {files : Nat}

/-- What has been changed is a folder: the one with the changed child, or one on the way to it. -/
theorem isFolder_set (h : node.get? folder = some parent) :
    (node.set value (folder ++ [name])).isFolder := by
  cases folder with
  | nil => rfl
  | cons first folder =>
    rw [get?_cons] at h
    obtain ⟨child, hchild, -⟩ := Option.bind_eq_some_iff.1 h
    rw [List.cons_append, set_cons hchild]
    rfl

theorem isSound_set (h : node.isSound files) (hparent : node.get? folder = some parent)
    (hname : isName name) (hvalue : ∀ new ∈ value, new.isSound files) :
    (node.set value (folder ++ [name])).isSound files := by
  induction folder generalizing node with
  | nil => exact isSound_setChild h hname hvalue
  | cons first folder ih =>
    rw [get?_cons] at hparent
    obtain ⟨child, hchild, hrest⟩ := Option.bind_eq_some_iff.1 hparent
    obtain ⟨hfirst, hsound⟩ := isSound_child h hchild
    rw [List.cons_append, set_cons hchild]
    refine isSound_setChild h hfirst fun new hnew => ?_
    obtain rfl := Option.some.inj hnew
    exact ih hsound hrest

theorem get?_set_self (h : node.isSound files) (hparent : node.get? folder = some parent) :
    (node.set value (folder ++ [name])).get? (folder ++ [name]) = value := by
  induction folder generalizing node with
  | nil =>
    rw [get?_snoc]
    exact lookup_setChild_self value (nodup_of_isSound h)
  | cons first folder ih =>
    rw [get?_cons] at hparent
    obtain ⟨child, hchild, hrest⟩ := Option.bind_eq_some_iff.1 hparent
    rw [List.cons_append, set_cons hchild, get?_cons, child?_folder,
      lookup_setChild_self _ (nodup_of_isSound h)]
    exact ih (isSound_child h hchild).2 hrest

/-- The root of a tree in which a folder has been reached is a folder. -/
theorem isFolder_of_get? (hparent : node.get? folder = some parent) (hfolder : parent.isFolder) :
    node.isFolder := by
  cases hnode : node.isFolder with
  | true => rfl
  | false =>
    cases folder with
    | nil =>
      obtain rfl := Option.some.inj hparent
      exact absurd hfolder (by rw [hnode]; decide)
    | cons first folder =>
      rw [get?_of_not_isFolder hnode (List.cons_ne_nil _ _)] at hparent
      cases hparent

theorem bind_get?_of_childless {child : Option Node} (h : ∀ node ∈ child, node.children = [])
    {place : Location} (hplace : place ≠ []) : child.bind (get? place) = none := by
  cases child with
  | none => rfl
  | some node => exact get?_of_childless (h node rfl) hplace

/-- Every other place has what it had, but for the children of the folders on the way. -/
theorem bare?_set_of_ne (h : node.isSound files) (hparent : node.get? folder = some parent)
    (hfolder : parent.isFolder) (hvalue : ∀ new ∈ value, new.children = [])
    (hold : ∀ old ∈ parent.child? name, old.isFolder = false) {place : Location}
    (hne : place ≠ folder ++ [name]) :
    (node.set value (folder ++ [name])).bare? place = node.bare? place := by
  cases place with
  | nil =>
    show some (bare _) = some (bare _)
    rw [bare_of_isFolder (isFolder_set hparent), bare_of_isFolder (isFolder_of_get? hparent hfolder)]
  | cons first place =>
    induction folder generalizing node first place with
    | nil =>
      obtain rfl := Option.some.inj hparent
      obtain ⟨children, rfl⟩ := exists_children_of_isFolder hfolder
      unfold bare?
      rw [List.nil_append, set_singleton, get?_cons, get?_cons, child?_folder]
      by_cases heq : name = first
      · subst heq
        -- The place is below the child, where nothing is before and after.
        have hplace : place ≠ [] := fun hnil => hne (by rw [hnil]; rfl)
        rw [bind_get?_of_childless (fun old hchild => children_of_not_isFolder (hold old hchild)) hplace,
          bind_get?_of_childless (by rwa [lookup_setChild_self _ (nodup_of_isSound h)]) hplace]
      · rw [lookup_setChild_of_ne heq]
        rfl
    | cons second folder ih =>
      rw [get?_cons] at hparent
      obtain ⟨child, hchild, hrest⟩ := Option.bind_eq_some_iff.1 hparent
      obtain ⟨-, hsound⟩ := isSound_child h hchild
      unfold bare?
      rw [List.cons_append, set_cons hchild, get?_cons, get?_cons, child?_folder]
      by_cases heq : second = first
      · subst heq
        rw [lookup_setChild_self _ (nodup_of_isSound h), hchild]
        cases place with
        | nil =>
          show some (bare _) = some (bare _)
          rw [bare_of_isFolder (isFolder_set hrest), bare_of_isFolder (isFolder_of_get? hrest hfolder)]
        | cons third place =>
          exact ih hsound hrest third place fun heq => hne (by rw [heq]; rfl)
      · obtain ⟨children, rfl⟩ :=
          exists_children_of_isFolder (isFolder_of_child? hchild)
        rw [lookup_setChild_of_ne heq]
        rfl

end Set

/-! ## Names in a tree -/

mutual

/-- The names of everything below the node. -/
def names : Node → List OsString
  | .folder children => namesIn children
  | .file _ | .link _ | .device => []

def namesIn : List (OsString × Node) → List OsString
  | [] => []
  | (name, node) :: rest => name :: (names node ++ namesIn rest)

end

theorem mem_namesIn {children : List (OsString × Node)} {text : OsString} :
    text ∈ namesIn children ↔ ∃ c ∈ children, text = c.1 ∨ text ∈ c.2.names := by
  induction children with
  | nil => simp [namesIn]
  | cons child rest ih =>
    obtain ⟨name, node⟩ := child
    simp [namesIn, ih, or_assoc]

theorem mem_names_of_child? {node child : Node} {name : OsString} (h : node.child? name = some child) :
    name ∈ node.names ∧ ∀ text ∈ child.names, text ∈ node.names := by
  obtain ⟨children, rfl⟩ := exists_children_of_isFolder (isFolder_of_child? h)
  rw [names]
  have hmem := mem_of_lookup_eq_some h
  exact ⟨mem_namesIn.2 ⟨_, hmem, .inl rfl⟩, fun text htext => mem_namesIn.2 ⟨_, hmem, .inr htext⟩⟩

/-- The name of a place at which something stands is one of the names in the tree. -/
theorem mem_names {node found : Node} {folder : Location} {name : OsString}
    (h : node.get? (folder ++ [name]) = some found) : name ∈ node.names := by
  induction folder generalizing node with
  | nil =>
    rw [get?_snoc] at h
    exact (mem_names_of_child? h).1
  | cons first folder ih =>
    rw [List.cons_append, get?_cons] at h
    obtain ⟨child, hchild, hrest⟩ := Option.bind_eq_some_iff.1 h
    exact (mem_names_of_child? hchild).2 name (ih hrest)

end Node

end ApiSurface
