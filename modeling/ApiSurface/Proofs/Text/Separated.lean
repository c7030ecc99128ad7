import Mathlib.Data.List.Basic

/-!
Texts with separators between them.

A text is found again up to the first occurrence of a character that it does not have. So a list can be
read off the text that it is written as, if nothing in it has the first character of the separator.
-/

namespace ApiSurface

variable {α : Type} {x : α}

/-- No part has the separator. -/
theorem notMem_of_mem_splitOn [BEq α] [LawfulBEq α] {xs part : List α}
    (h : part ∈ xs.splitOn x) : x ∉ part := by
  induction xs generalizing part with
  | nil =>
    rw [List.splitOn_nil, List.mem_singleton] at h
    rw [h]
    exact List.not_mem_nil
  | cons y xs ih =>
    rw [List.splitOn, List.splitOnP_cons_eq_if_modifyHead] at h
    by_cases hy : (y == x) = true
    · rw [if_pos hy] at h
      obtain rfl | hrest := List.mem_cons.1 h
      · exact List.not_mem_nil
      · exact ih hrest
    · rw [if_neg hy] at h
      cases hsplit : xs.splitOnP (· == x) with
      | nil =>
        rw [hsplit] at h
        cases h
      | cons first rest =>
        rw [hsplit] at h
        have hmem : ∀ part ∈ first :: rest, x ∉ part := fun part hpart =>
          ih (by rw [List.splitOn, hsplit]; exact hpart)
        obtain rfl | hrest := List.mem_cons.1 h
        · rintro hx
          obtain rfl | hfirst := List.mem_cons.1 hx
          · exact hy (beq_self_eq_true x)
          · exact hmem first List.mem_cons_self hfirst
        · exact hmem part (List.mem_cons_of_mem _ hrest)

/-- Where a list is cut at the first `x`. -/
theorem eq_of_append_cons_eq {front front' rest rest' : List α} (h : x ∉ front) (h' : x ∉ front')
    (heq : front ++ x :: rest = front' ++ x :: rest') : front = front' ∧ rest = rest' := by
  induction front generalizing front' with
  | nil =>
    cases front' with
    | nil => exact ⟨rfl, List.tail_eq_of_cons_eq heq⟩
    | cons y front' =>
      obtain rfl : x = y := List.head_eq_of_cons_eq heq
      exact absurd List.mem_cons_self h'
  | cons y front ih =>
    cases front' with
    | nil =>
      obtain rfl : y = x := List.head_eq_of_cons_eq heq
      exact absurd List.mem_cons_self h
    | cons z front' =>
      obtain rfl : y = z := List.head_eq_of_cons_eq heq
      obtain ⟨rfl, hrest⟩ := ih (fun hmem => h (List.mem_cons_of_mem _ hmem))
        (fun hmem => h' (List.mem_cons_of_mem _ hmem)) (List.tail_eq_of_cons_eq heq)
      exact ⟨rfl, hrest⟩

/-- What stands in a joined list comes from one of its parts or from the separator. -/
theorem mem_intercalate {separator : List α} {parts : List (List α)}
    (h : x ∈ separator.intercalate parts) : x ∈ separator ∨ ∃ part ∈ parts, x ∈ part := by
  induction parts with
  | nil => simp at h
  | cons part rest ih =>
    cases rest with
    | nil => exact .inr ⟨part, List.mem_cons_self, by simpa using h⟩
    | cons next rest =>
      rw [List.intercalate_cons_cons, List.append_assoc, List.mem_append, List.mem_append] at h
      obtain hpart | hseparator | hrest := h
      · exact .inr ⟨part, List.mem_cons_self, hpart⟩
      · exact .inl hseparator
      · obtain hseparator | ⟨other, hother, hx⟩ := ih hrest
        · exact .inl hseparator
        · exact .inr ⟨other, List.mem_cons_of_mem _ hother, hx⟩

/-- Lists of parts that are not empty and that do not have the first character of the separator differ
when they are joined. -/
theorem intercalate_injective {separator : List α} {parts parts' : List (List α)}
    (hx : separator.head? = some x)
    (h : ∀ part ∈ parts, part ≠ [] ∧ x ∉ part) (h' : ∀ part ∈ parts', part ≠ [] ∧ x ∉ part)
    (heq : separator.intercalate parts = separator.intercalate parts') : parts = parts' := by
  obtain ⟨more, rfl⟩ := List.head?_eq_some_iff.1 hx
  -- A joined list is empty, or begins with its first part and ends there or goes on with `x`.
  have hcons (part next : List α) (rest : List (List α)) :
      (x :: more).intercalate (part :: next :: rest) =
        part ++ x :: (more ++ (x :: more).intercalate (next :: rest)) := by
    rw [List.intercalate_cons_cons, List.append_assoc, List.cons_append]
  induction parts generalizing parts' with
  | nil =>
    match parts' with
    | [] => rfl
    | [part] => simpa using (h' part List.mem_cons_self).1 (by simpa using heq.symm)
    | part :: next :: rest => rw [hcons] at heq; simp at heq
  | cons part rest ih =>
    obtain ⟨hpart, hrest⟩ := List.forall_mem_cons.1 h
    match rest, parts' with
    | [], [] => simpa using hpart.1 (by simpa using heq)
    | [], [other] => simpa using heq
    | [], other :: next :: rest' =>
      rw [hcons, List.intercalate_singleton] at heq
      exact absurd (by rw [heq]; simp) hpart.2
    | next :: rest, [] => rw [hcons] at heq; simp at heq
    | next :: rest, [other] =>
      rw [hcons, List.intercalate_singleton] at heq
      exact absurd (by rw [← heq]; simp) (h' other List.mem_cons_self).2
    | next :: rest, other :: next' :: rest' =>
      obtain ⟨hother, hrest'⟩ := List.forall_mem_cons.1 h'
      rw [hcons, hcons] at heq
      obtain ⟨rfl, hmore⟩ := eq_of_append_cons_eq hpart.2 hother.2 heq
      rw [ih hrest hrest' (List.append_cancel_left hmore)]

/-- Joined texts have no character that neither they nor the separator have. -/
theorem notMem_texts {separator : String} {c : Char} {texts : List String}
    (hseparator : c ∉ separator.toList) (h : ∀ text ∈ texts, c ∉ text.toList) :
    c ∉ (separator.intercalate texts).toList := by
  rw [String.toList_intercalate]
  intro hmem
  obtain hmem | ⟨part, hpart, hmem⟩ := mem_intercalate hmem
  · exact hseparator hmem
  · obtain ⟨text, htext, rfl⟩ := List.mem_map.1 hpart
    exact h text htext hmem

/-- Joined texts, as characters. -/
theorem texts_injective {separator : String} {c : Char} {texts texts' : List String}
    (hc : separator.toList.head? = some c)
    (h : ∀ text ∈ texts, text ≠ "" ∧ c ∉ text.toList)
    (h' : ∀ text ∈ texts', text ≠ "" ∧ c ∉ text.toList)
    (heq : separator.intercalate texts = separator.intercalate texts') : texts = texts' := by
  have hlists := congrArg String.toList heq
  rw [String.toList_intercalate, String.toList_intercalate] at hlists
  have hparts {texts : List String} (h : ∀ text ∈ texts, text ≠ "" ∧ c ∉ text.toList) :
      ∀ part ∈ texts.map String.toList, part ≠ [] ∧ c ∉ part := by
    simpa using h
  exact List.map_injective_iff.2 (fun _ _ => String.toList_injective)
    (intercalate_injective hc (hparts h) (hparts h') hlists)

end ApiSurface
