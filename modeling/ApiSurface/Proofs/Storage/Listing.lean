import ApiSurface.Proofs.Decl.Ordering
import ApiSurface.Proofs.Storage.Effects
import ApiSurface.Storage.Listing
import Mathlib.Data.List.Sort

/-!
The files below a folder: each once, in the order of their names.

A listing says of every place below the folder whether a file stands there, and its order is strict.
So it hangs on which files there are and on nothing else, in particular not on the order in which a
system lists the children of a folder.
-/

namespace ApiSurface

/-- The order of places: name by name, by the bytes of the names. -/
def placeKey (place : Location) : List Bytes :=
  place.map OsString.toList

theorem nameLe_iff {a b : OsString} : nameLe a b = true ↔ a.toList ≤ b.toList := by
  rw [nameLe, decide_eq_true_iff]

theorem nameLe_trans {a b c : OsString} (hab : nameLe a b) (hbc : nameLe b c) : nameLe a c :=
  nameLe_iff.2 (List.le_trans (nameLe_iff.1 hab) (nameLe_iff.1 hbc))

theorem nameLe_total (a b : OsString) : (nameLe a b || nameLe b a) = true := by
  rw [Bool.or_eq_true, nameLe_iff, nameLe_iff]
  exact List.le_total _ _

namespace Node

theorem filesOfChildren_eq (children : List (OsString × Node)) :
    filesOfChildren children = children.map fun c => (c.1, c.2.filesBelow) := by
  induction children with
  | nil => rfl
  | cons child rest ih =>
    obtain ⟨name, node⟩ := child
    rw [filesOfChildren, ih]
    rfl

/-- What is in a folder comes at the place of the folder. -/
theorem mem_filesBelow_folder {children : List (OsString × Node)} {place : Location} {id : FileId} :
    (place, id) ∈ (Node.folder children).filesBelow ↔
      ∃ name rest child, place = name :: rest ∧ (name, child) ∈ children ∧
        (rest, id) ∈ child.filesBelow := by
  rw [filesBelow, filesOfChildren_eq]
  simp only [List.mem_flatMap, List.mem_mergeSort, List.mem_map, Prod.exists, Prod.mk.injEq]
  constructor
  · rintro ⟨name, files, ⟨name', child, hmem, rfl, rfl⟩, rest, id', hfile, rfl, rfl⟩
    exact ⟨name', rest, child, rfl, hmem, hfile⟩
  · rintro ⟨name, rest, child, rfl, hmem, hfile⟩
    exact ⟨name, child.filesBelow, ⟨name, child, hmem, rfl, rfl⟩, rest, id, hfile, rfl, rfl⟩

/-- The files that are listed are those that stand below the node. -/
theorem mem_filesBelow {files : Nat} {node : Node} (h : node.isSound files) {place : Location}
    {id : FileId} : (place, id) ∈ node.filesBelow ↔ node.get? place = some (.file id) := by
  induction node using induct generalizing place with
  | file own =>
    have hleaf : (Node.file own).isFolder = false := rfl
    rw [filesBelow, List.mem_singleton, get?_eq_some_of_not_isFolder hleaf]
    simp [eq_comm]
  | folder children ih =>
    obtain ⟨hnodup, hchildren⟩ := isSound_folder_iff.1 h
    rw [mem_filesBelow_folder]
    cases place with
    | nil => simp
    | cons name place =>
      rw [get?_cons, child?_folder, Option.bind_eq_some_iff]
      constructor
      · rintro ⟨name', rest, child, heq, hmem, hfile⟩
        obtain ⟨rfl, rfl⟩ := List.cons.inj heq
        exact ⟨child, lookup_of_mem hnodup hmem, (ih _ hmem (hchildren _ hmem).2).1 hfile⟩
      · rintro ⟨child, hlookup, hfile⟩
        have hmem := mem_of_lookup_eq_some hlookup
        exact ⟨name, place, child, rfl, hmem, (ih _ hmem (hchildren _ hmem).2).2 hfile⟩
  | link target =>
    have hleaf : (Node.link target).isFolder = false := rfl
    rw [filesBelow, get?_eq_some_of_not_isFolder hleaf]
    simp
  | device =>
    have hleaf : Node.device.isFolder = false := rfl
    rw [filesBelow, get?_eq_some_of_not_isFolder hleaf]
    simp

theorem placeKey_cons_lt_iff {a b : OsString} {place other : Location} :
    placeKey (a :: place) < placeKey (b :: other) ↔
      a.toList < b.toList ∨ a = b ∧ placeKey place < placeKey other := by
  simp only [placeKey, List.map_cons, List.cons_lt_cons_iff, OsString.toList_inj]

theorem pairwise_nameLe_mergeSort {α : Type} (xs : List (OsString × α)) :
    (xs.mergeSort fun a b => nameLe a.1 b.1).Pairwise fun a b => nameLe a.1 b.1 :=
  @List.pairwise_mergeSort _ (fun a b : OsString × α => nameLe a.1 b.1) (fun _ _ _ => nameLe_trans)
    (fun a b => nameLe_total a.1 b.1) xs

/-- Children in order come in strict order, because their names are different. -/
theorem pairwise_lt_of_nameLe {α : Type} {xs : List (OsString × α)} (h : (xs.map Prod.fst).Nodup)
    (hordered : xs.Pairwise fun a b => nameLe a.1 b.1) :
    xs.Pairwise fun a b => a.1.toList < b.1.toList := by
  refine (hordered.and (List.pairwise_map.1 h)).imp fun {a b} hab => ?_
  exact Std.lt_of_le_of_ne (nameLe_iff.1 hab.1) fun heq => hab.2 (OsString.toList_inj.1 heq)

theorem pairwise_sorted {α : Type} {xs : List (OsString × α)} (h : (xs.map Prod.fst).Nodup) :
    (xs.mergeSort fun a b => nameLe a.1 b.1).Pairwise fun a b => a.1.toList < b.1.toList :=
  pairwise_lt_of_nameLe (((List.mergeSort_perm xs _).map Prod.fst).nodup_iff.2 h) (pairwise_nameLe_mergeSort xs)

/-- The listing is in strict order. -/
theorem pairwise_filesBelow {files : Nat} {node : Node} (h : node.isSound files) :
    node.filesBelow.Pairwise fun a b => placeKey a.1 < placeKey b.1 := by
  induction node using induct with
  | file id => exact List.pairwise_singleton _ _
  | folder children ih =>
    obtain ⟨hnodup, hchildren⟩ := isSound_folder_iff.1 h
    rw [filesBelow, filesOfChildren_eq]
    refine List.pairwise_flatMap.2 ⟨?_, ?_⟩
    · rintro ⟨name, files⟩ hmem
      obtain ⟨child, hchild, heq⟩ := List.mem_map.1 (List.mem_mergeSort.1 hmem)
      obtain ⟨rfl, rfl⟩ := Prod.mk.inj heq
      refine List.pairwise_map.2 ((ih child hchild (hchildren child hchild).2).imp fun hlt => ?_)
      exact placeKey_cons_lt_iff.2 (.inr ⟨rfl, hlt⟩)
    · have hnames : ((children.map fun c => (c.1, c.2.filesBelow)).map Prod.fst).Nodup := by
        rw [List.map_map]
        exact hnodup
      refine (pairwise_sorted hnames).imp fun {a b} hlt x hx y hy => ?_
      obtain ⟨⟨place, id⟩, -, rfl⟩ := List.mem_map.1 hx
      obtain ⟨⟨other, id'⟩, -, rfl⟩ := List.mem_map.1 hy
      exact placeKey_cons_lt_iff.2 (.inl hlt)
  | link target => exact List.Pairwise.nil
  | device => exact List.Pairwise.nil

/-- Two listings have the same files of some kind when the trees do. -/
theorem filter_filesBelow_congr {files files' : Nat} {node node' : Node} (h : node.isSound files)
    (h' : node'.isSound files') {p : List OsString × FileId → Bool}
    (hsame : ∀ place id, p (place, id) →
      (node.get? place = some (.file id) ↔ node'.get? place = some (.file id))) :
    node.filesBelow.filter p = node'.filesBelow.filter p := by
  refine eq_of_pairwise_lt (fun file : List OsString × FileId => placeKey file.1)
    ((pairwise_filesBelow h).filter p) ((pairwise_filesBelow h').filter p) fun ⟨place, id⟩ => ?_
  rw [List.mem_filter, List.mem_filter, mem_filesBelow h, mem_filesBelow h']
  exact and_congr_left fun hp => hsame place id hp

end Node

end ApiSurface
