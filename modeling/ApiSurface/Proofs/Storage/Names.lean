import ApiSurface.Proofs.Text.OsString
import ApiSurface.Proofs.Text.Separated
import ApiSurface.Storage.FileSystem

/-!
Names at the end of paths.

A path is cut at its slashes. So the parts have none, and a name that is put behind a path is its last
part.
-/

namespace ApiSurface

/-! ## Parts between separators -/

/-- A list that ends in something without the separator, which the separator comes before. -/
theorem getLast?_splitOn {α : Type} [BEq α] [LawfulBEq α] {x : α} {front name : List α}
    (hfront : front = [] ∨ front.getLast? = some x) (hname : x ∉ name) :
    ((front ++ name).splitOn x).getLast? = some name := by
  obtain rfl | hlast := hfront
  · rw [List.nil_append, List.splitOn_eq_singleton hname]
    rfl
  · obtain ⟨before, rfl⟩ := List.getLast?_eq_some_iff.1 hlast
    rw [List.append_assoc, List.singleton_append, List.splitOn_append_cons_self,
      List.splitOn_eq_singleton hname, List.getLast?_concat]

/-! ## Parts of a path -/

/-- A part of a path between two slashes. -/
def IsPart (name : OsString) : Prop :=
  name ≠ "" ∧ OsString.slash ∉ name.toList

theorem isPart_of_mem_segmentsOf {text name : OsString} (h : name ∈ FileSystem.segmentsOf text) :
    IsPart name := by
  unfold FileSystem.segmentsOf at h
  obtain hpart | hdot := List.mem_append.1 h
  · obtain ⟨hmem, hne⟩ := List.mem_filter.1 hpart
    obtain ⟨part, hsplit, rfl⟩ := List.mem_map.1 hmem
    exact ⟨by simpa using hne, by simpa using notMem_of_mem_splitOn hsplit⟩
  · split at hdot
    · obtain rfl := List.mem_singleton.1 hdot
      exact ⟨by decide, by decide⟩
    · cases hdot

/-- A text that can be the name of a child of a folder. -/
def Node.isName (text : OsString) : Bool :=
  text ≠ "" && text ≠ "." && text ≠ ".." && !text.toList.contains OsString.slash

theorem Node.isName_iff {name : OsString} :
    Node.isName name = true ↔ IsPart name ∧ name ≠ "." ∧ name ≠ ".." := by
  simp only [isName, IsPart, Bool.and_eq_true, decide_eq_true_eq, Bool.not_eq_true',
    List.contains_eq_mem, decide_eq_false_iff_not]
  tauto

namespace Path

/-- The name at the end of a path can be that of a child. -/
theorem isName_of_fileName? {p : Path} {name : OsString} (h : p.fileName? = some name) :
    Node.isName name := by
  have hmem : Component.normal name ∈ p.components := by
    unfold fileName? at h
    split at h
    · rename_i name' hlast
      obtain rfl := Option.some.inj h
      exact List.mem_of_getLast? hlast
    · cases h
  obtain hstart | hsegment := List.mem_append.1 hmem
  · split at hstart
    · simp at hstart
    · split at hstart <;> simp at hstart
  · obtain ⟨segment, hmem, hcomponent⟩ := List.mem_filterMap.1 hsegment
    obtain ⟨part, hsplit, rfl⟩ := List.mem_map.1 hmem
    have hslash : OsString.slash ∉ part := notMem_of_mem_splitOn hsplit
    unfold componentOf? at hcomponent
    split at hcomponent
    · cases hcomponent
    · rename_i hnothing
      split at hcomponent
      · cases hcomponent
      · rename_i hup
        obtain rfl := Component.normal.inj (Option.some.inj hcomponent)
        simp only [Bool.or_eq_true, decide_eq_true_eq, not_or] at hnothing
        exact Node.isName_iff.2 ⟨⟨hnothing.1, by simpa using hslash⟩, hnothing.2, hup⟩

theorem isAbsolute_of_isPart {name : OsString} (h : IsPart name) : isAbsolute ⟨name⟩ = false := by
  simp only [isAbsolute, decide_eq_false_iff_not]
  exact fun hhead => h.2 (List.mem_of_head? hhead)

/-- What is put behind a path stands behind a slash, unless it stands alone; and what stands in front of it
does not hang on it. -/
theorem exists_text_join (p : Path) : ∃ front : OsString,
    (front = "" ∨ front.toList.getLast? = some OsString.slash) ∧
      ∀ name, IsPart name → (p.join ⟨name⟩).text = front ++ name := by
  by_cases hend : (p.text = "" || p.text.toList.getLast? = some OsString.slash) = true
  · refine ⟨p.text, by simpa using hend, fun name hname => ?_⟩
    rw [join, isAbsolute_of_isPart hname, if_neg Bool.false_ne_true, if_pos hend]
  · refine ⟨p.text ++ "/", .inr ?_, fun name hname => ?_⟩
    · rw [OsString.toList_append]
      exact List.getLast?_concat
    · rw [join, isAbsolute_of_isPart hname, if_neg Bool.false_ne_true, if_neg hend]

theorem exists_front_of_join (p : Path) {name : OsString} (h : IsPart name) : ∃ front,
    (p.join ⟨name⟩).text.toList = front ++ name.toList ∧
      (front = [] ∨ front.getLast? = some OsString.slash) := by
  obtain ⟨front, hend, htext⟩ := p.exists_text_join
  refine ⟨front.toList, by rw [htext name h, OsString.toList_append], hend.imp ?_ id⟩
  rintro rfl
  rfl

end Path

/-- A name that is put behind a path is the last one of the walk. -/
theorem getLast?_segmentsOf_join (p : Path) {name : OsString} (h : IsPart name) :
    (FileSystem.segmentsOf (p.join ⟨name⟩).text).getLast? = some name := by
  obtain ⟨front, htext, hfront⟩ := p.exists_front_of_join h
  have hlast : (((p.join ⟨name⟩).text.toList.splitOn OsString.slash).map OsString.ofList).getLast? = some name := by
    rw [htext, List.getLast?_map, getLast?_splitOn hfront h.2]
    simp
  obtain ⟨before, hbefore⟩ := List.getLast?_eq_some_iff.1 hlast
  unfold FileSystem.segmentsOf
  simp only [hbefore, List.filter_append, List.getLast?_concat]
  simp [h.1]

/-! ## Endings -/

/-- An ending without the separator is an ending of what stands behind the separator. -/
theorem isSuffix_of_append_cons {α : Type} {ending front back : List α} {x : α} (hx : x ∉ ending)
    (h : ending <:+ front ++ x :: back) : ending <:+ back := by
  obtain hshort | hlong := List.suffix_or_suffix_of_suffix h (List.suffix_append front (x :: back))
  · obtain rfl | hback := List.suffix_cons_iff.1 hshort
    · exact absurd List.mem_cons_self hx
    · exact hback
  · exact absurd (hlong.subset List.mem_cons_self) hx

/-- What the names of a place end in, written with slashes between them, the last name ends in. -/
theorem isSuffix_last {ending : Bytes} (hne : ending ≠ []) (hslash : OsString.slash ∉ ending)
    {place : List OsString} (h : ending <:+ (OsString.intercalate "/" place).toList) :
    ∃ name, place.getLast? = some name ∧ ending <:+ name.toList := by
  induction place with
  | nil => exact absurd (List.suffix_nil.1 h) hne
  | cons first rest ih =>
    cases rest with
    | nil => exact ⟨first, rfl, by simpa using h⟩
    | cons second rest =>
      rw [List.getLast?_cons_cons]
      refine ih (@isSuffix_of_append_cons _ _ first.toList _ _ hslash ?_)
      rw [OsString.intercalate_cons_cons] at h
      simpa using h

end ApiSurface
