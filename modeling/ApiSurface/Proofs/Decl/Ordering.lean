import ApiSurface.Decl.Block
import Mathlib.Data.List.Sort

/-!
The order of the members in a block: their texts get larger from line to line.

Entries are sorted by three keys of which the text is the first, so sorting already puts the texts in
order, and equal texts are neighbours. Keeping the first of them makes the order strict.
-/

namespace ApiSurface

/-! ## Texts as bytes -/

theorem Bytes.ofText_inj {a b : String} : ofText a = ofText b ↔ a = b := by
  constructor
  · intro h
    have hbytes : a.toList.utf8Encode = b.toList.utf8Encode := by
      rw [List.utf8Encode, List.utf8Encode]
      exact congrArg List.toByteArray h
    rwa [String.utf8Encode_toList, String.utf8Encode_toList, String.toByteArray_inj] at hbytes
  · rintro rfl
    rfl

/-- Lists with the same members are equal if both are in one strict order. -/
theorem eq_of_pairwise_lt {α β : Type} [LT β] [Std.Asymm ((· < ·) : β → β → Prop)] (key : α → β)
    {xs ys : List α} (hxs : xs.Pairwise fun a b => key a < key b) (hys : ys.Pairwise fun a b => key a < key b)
    (hmem : ∀ a, a ∈ xs ↔ a ∈ ys) : xs = ys := by
  have : Std.Asymm fun a b : α => key a < key b := ⟨fun _ _ => Std.Asymm.asymm _ _⟩
  have : Std.Irrefl fun a b : α => key a < key b := ⟨fun _ h => Std.Asymm.asymm _ _ h h⟩
  exact List.Pairwise.eq_of_mem_iff hxs hys hmem

/-- Each text comes before the next ones, byte by byte. -/
def StrictlyIncreasing (texts : List String) : Prop :=
  texts.Pairwise fun a b => Bytes.ofText a < Bytes.ofText b

namespace Entry

/-! ## Sorting -/

theorem le_iff {a b : Entry} : a.le b = true ↔ a.key ≤ b.key := by
  rw [le, decide_eq_true_iff]

theorem le_trans (a b c : Entry) (hab : a.le b) (hbc : b.le c) : a.le c :=
  le_iff.2 (List.le_trans (le_iff.1 hab) (le_iff.1 hbc))

theorem le_total (a b : Entry) : (a.le b || b.le a) = true := by
  rw [Bool.or_eq_true, le_iff, le_iff]
  exact List.le_total a.key b.key

/-- The text decides first. -/
theorem text_le {a b : Entry} (h : a.le b) : Bytes.ofText a.text ≤ Bytes.ofText b.text := by
  rw [le_iff, key, key, List.cons_le_cons_iff] at h
  obtain hlt | ⟨heq, -⟩ := h
  · exact List.le_of_lt hlt
  · rw [heq]
    exact List.le_refl _

/-! ## One entry for each text -/

theorem mem_of_mem_dedup {entries : List Entry} {e : Entry} (h : e ∈ dedup entries) : e ∈ entries := by
  induction entries with
  | nil => exact h
  | cons first rest ih =>
    obtain rfl | hrest := List.mem_cons.1 h
    · exact List.mem_cons_self
    · exact List.mem_cons_of_mem _ (ih ((List.dropWhile_sublist _).subset hrest))

/-- In sorted entries, dropping neighbours with the same text drops all with the same text. -/
theorem strictlyIncreasing_dedup {entries : List Entry} (h : entries.Pairwise (·.le ·)) :
    StrictlyIncreasing ((dedup entries).map (·.text)) := by
  induction entries with
  | nil => exact List.Pairwise.nil
  | cons first rest ih =>
    obtain ⟨hfirst, hrest⟩ := List.pairwise_cons.1 h
    let kept := (dedup rest).dropWhile (·.text = first.text)
    have hkept : kept.Sublist (dedup rest) := List.dropWhile_sublist _
    have hincreasing : StrictlyIncreasing (kept.map (·.text)) := (ih hrest).sublist (hkept.map _)
    show StrictlyIncreasing (first.text :: kept.map (·.text))
    refine List.pairwise_cons.2 ⟨?_, hincreasing⟩
    cases hk : kept with
    | nil => simp
    | cons next more =>
      -- The first entry that is kept has another text, and the others come after it.
      have hne : first.text ≠ next.text := by
        have hstop := List.head?_dropWhile_not (·.text = first.text) (dedup rest)
        rw [show (dedup rest).dropWhile (·.text = first.text) = next :: more from hk] at hstop
        simpa [eq_comm] using hstop
      have hmem : next ∈ rest := mem_of_mem_dedup (hkept.subset (by rw [hk]; exact List.mem_cons_self))
      have hlt : Bytes.ofText first.text < Bytes.ofText next.text :=
        Std.lt_of_le_of_ne (text_le (hfirst next hmem)) fun heq => hne (Bytes.ofText_inj.1 heq)
      rw [hk] at hincreasing
      obtain ⟨hnext, -⟩ := List.pairwise_cons.1 hincreasing
      intro text htext
      obtain rfl | hmore := List.mem_cons.1 htext
      · exact hlt
      · exact List.lt_trans hlt (hnext text hmore)

theorem strictlyIncreasing_ordered (entries : List Entry) :
    StrictlyIncreasing ((ordered entries).map (·.text)) :=
  strictlyIncreasing_dedup (List.pairwise_mergeSort le_trans le_total entries)

end Entry

end ApiSurface
