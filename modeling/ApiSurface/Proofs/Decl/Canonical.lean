import ApiSurface.Proofs.Decl.Exports

/-!
Ordered entries as a canonical form.

What ordering has to give can be said without an algorithm: texts that get larger, all of them and no
others, and for each text the entry that comes first by name and descriptor. Only one list is like that,
and which entries there are decides which one. So ordering sees neither the order of the entries nor how
often one is given, and what is in order stays as it is.
-/

namespace ApiSurface

namespace Entry

variable {entries entries' found found' : List Entry} {a b e other : Entry}

/-! ## Entries with the same text -/

/-- By name, then by descriptor, byte by byte. -/
def IsNotAfter (a b : Entry) : Prop :=
  Bytes.ofText a.name < Bytes.ofText b.name ∨
    a.name = b.name ∧ Bytes.ofText a.descriptor ≤ Bytes.ofText b.descriptor

/-- Where the text decides nothing, name and descriptor do. -/
theorem le_iff_isNotAfter (h : a.text = b.text) : a.le b ↔ a.IsNotAfter b := by
  have hdescriptor : [Bytes.ofText a.descriptor] ≤ [Bytes.ofText b.descriptor] ↔
      Bytes.ofText a.descriptor ≤ Bytes.ofText b.descriptor :=
    (List.cons_le_cons_iff.trans (by simp)).trans List.le_iff_lt_or_eq.symm
  rw [le_iff, key, key, h, List.cons_le_cons_iff, List.cons_le_cons_iff, hdescriptor, IsNotAfter,
    Bytes.ofText_inj]
  simp only [List.lt_irrefl, false_or, true_and, Bytes.ofText_inj]

/-- Two entries with the same text of which neither comes first are the same. -/
theorem eq_of_isNotAfter (htext : a.text = b.text) (hab : a.IsNotAfter b) (hba : b.IsNotAfter a) :
    a = b := by
  obtain ⟨hname, hdescriptor⟩ : a.name = b.name ∧ a.descriptor = b.descriptor := by
    rcases hab with hlt | ⟨hname, hle⟩
    · rcases hba with hgt | ⟨heq, -⟩
      · exact absurd (List.lt_trans hlt hgt) (List.lt_irrefl _)
      · rw [heq] at hlt
        exact absurd hlt (List.lt_irrefl _)
    · rcases hba with hgt | ⟨-, hge⟩
      · rw [hname] at hgt
        exact absurd hgt (List.lt_irrefl _)
      · exact ⟨hname, Bytes.ofText_inj.1 (List.le_antisymm hle hge)⟩
  cases a
  cases b
  simp_all

/-! ## What ordering has to give -/

/-- `found` holds, in the order of their texts, one entry for each text that `entries` have: the first
one by name and descriptor. -/
structure IsOrderingOf (entries found : List Entry) : Prop where
  increasing : StrictlyIncreasing (found.map (·.text))
  texts : ∀ text, text ∈ found.map (·.text) ↔ text ∈ entries.map (·.text)
  mem : ∀ e ∈ found, e ∈ entries
  first : ∀ e ∈ found, ∀ other ∈ entries, other.text = e.text → e.IsNotAfter other

/-- The entry that is kept for a text stands in front of all others with that text. -/
theorem le_of_mem_dedup (h : entries.Pairwise (·.le ·)) (he : e ∈ dedup entries)
    (hother : other ∈ entries) (htext : other.text = e.text) : e.le other := by
  induction entries with
  | nil => cases he
  | cons head rest ih =>
    obtain ⟨hhead, hrest⟩ := List.pairwise_cons.1 h
    have hdedup : dedup (head :: rest) = head :: (dedup rest).dropWhile (·.text = head.text) := rfl
    have hincreasing := strictlyIncreasing_dedup h
    rw [hdedup] at he hincreasing
    obtain ⟨hlt, -⟩ := List.pairwise_cons.1 hincreasing
    obtain rfl | hkept := List.mem_cons.1 he
    · obtain rfl | hmem := List.mem_cons.1 hother
      · exact le_iff.2 (List.le_refl _)
      · exact hhead other hmem
    · obtain rfl | hmem := List.mem_cons.1 hother
      -- What is kept behind the head has another text than the head.
      · have hlarger : Bytes.ofText other.text < Bytes.ofText e.text :=
          hlt e.text (List.mem_map.2 ⟨e, hkept, rfl⟩)
        rw [htext] at hlarger
        exact absurd hlarger (List.lt_irrefl _)
      · exact ih hrest ((List.dropWhile_sublist _).subset hkept) hmem

theorem isOrderingOf_ordered (entries : List Entry) : IsOrderingOf entries (ordered entries) where
  increasing := strictlyIncreasing_ordered entries
  texts _ := mem_texts_ordered
  mem _ he := List.mem_mergeSort.1 (mem_of_mem_dedup he)
  first _ he _ hother htext :=
    (le_iff_isNotAfter htext.symm).1 (le_of_mem_dedup (List.pairwise_mergeSort le_trans le_total entries)
      he (List.mem_mergeSort.2 hother) htext)

/-! ## There is only one -/

namespace IsOrderingOf

theorem subset (h : IsOrderingOf entries found) (h' : IsOrderingOf entries found') :
    found ⊆ found' := by
  intro e he
  have htext : e.text ∈ found'.map (·.text) :=
    (h'.texts _).2 ((h.texts _).1 (List.mem_map.2 ⟨e, he, rfl⟩))
  obtain ⟨e', he', htext⟩ := List.mem_map.1 htext
  have heq : e = e' := eq_of_isNotAfter htext.symm (h.first e he e' (h'.mem e' he') htext)
    (h'.first e' he' e (h.mem e he) htext.symm)
  exact heq ▸ he'

theorem unique (h : IsOrderingOf entries found) (h' : IsOrderingOf entries found') :
    found = found' := by
  have hincreasing : found.Pairwise fun a b => Bytes.ofText a.text < Bytes.ofText b.text :=
    by simpa only [StrictlyIncreasing, List.pairwise_map] using h.increasing
  have hincreasing' : found'.Pairwise fun a b => Bytes.ofText a.text < Bytes.ofText b.text :=
    by simpa only [StrictlyIncreasing, List.pairwise_map] using h'.increasing
  exact eq_of_pairwise_lt (fun e : Entry => Bytes.ofText e.text) hincreasing hincreasing' fun _ =>
    ⟨(h.subset h' ·), (h'.subset h ·)⟩

/-- Only which entries there are matters. -/
theorem congr (h : IsOrderingOf entries found) (hmem : ∀ e, e ∈ entries ↔ e ∈ entries') :
    IsOrderingOf entries' found where
  increasing := h.increasing
  texts text := by simp only [h.texts, List.mem_map, hmem]
  mem e he := (hmem e).1 (h.mem e he)
  first e he other hother := h.first e he other ((hmem other).2 hother)

/-- An ordering is in order itself. -/
theorem ordering (h : IsOrderingOf entries found) : IsOrderingOf found found where
  increasing := h.increasing
  texts _ := Iff.rfl
  mem _ he := he
  first e he other hother htext := h.first e he other (h.mem other hother) htext

end IsOrderingOf

/-- **Ordering is a canonical form.** It gives the one list with all texts in strict order and for each
text the first entry by name and descriptor. The entries in another order, or some of them more often,
give the same list, and the list itself is not changed by ordering it again. -/
theorem ordered_canonical (entries : List Entry) :
    IsOrderingOf entries (ordered entries) ∧
    (∀ found, IsOrderingOf entries found → found = ordered entries) ∧
    (∀ entries', (∀ e, e ∈ entries' ↔ e ∈ entries) → ordered entries' = ordered entries) ∧
    ordered (ordered entries) = ordered entries := by
  have hordered := isOrderingOf_ordered entries
  refine ⟨hordered, fun found hfound => hfound.unique hordered, fun entries' hmem => ?_, ?_⟩
  · exact ((isOrderingOf_ordered entries').congr hmem).unique hordered
  · exact (isOrderingOf_ordered _).unique hordered.ordering

/-- Two methods of one class with the same text, and a third one. -/
def sampleEntries : List Entry :=
  [⟨"public void b()", "b", "()V"⟩, ⟨"public int a()", "z", "()I"⟩, ⟨"public int a()", "a", "()J"⟩,
    ⟨"public int a()", "a", "()I"⟩]

theorem ordered_sampleEntries :
    IsOrderingOf sampleEntries
      [⟨"public int a()", "a", "()I"⟩, ⟨"public void b()", "b", "()V"⟩] ∧
    ordered (sampleEntries.reverse ++ sampleEntries) =
      [⟨"public int a()", "a", "()I"⟩, ⟨"public void b()", "b", "()V"⟩] := by
  obtain ⟨-, hunique, hsame, -⟩ := ordered_canonical sampleEntries
  have hfound : IsOrderingOf sampleEntries
      [⟨"public int a()", "a", "()I"⟩, ⟨"public void b()", "b", "()V"⟩] := by
    refine ⟨?_, ?_, ?_, ?_⟩
    · show List.Pairwise _ _
      decide +kernel
    · simp [sampleEntries, or_comm]
    · decide
    · unfold IsNotAfter
      decide +kernel
  exact ⟨hfound, by rw [hsame _ (by simp), hunique _ hfound]⟩

end Entry

end ApiSurface
