import ApiSurface.Proofs.Text.Separated

/-!
Texts with angle brackets.

What stands in brackets can be left out of a text, with the brackets. Only what is outside of them shows.
A text whose brackets are closed shows the same whatever stands behind it, so what a text shows can be
found from its parts, and so can whether its brackets are balanced.
-/

namespace ApiSurface

/-- The characters outside of brackets, of which `depth` are open. -/
def outside : Nat → List Char → List Char
  | _, [] => []
  | depth, '<' :: rest => outside (depth + 1) rest
  | depth, '>' :: rest => outside (depth - 1) rest
  | 0, c :: rest => c :: outside 0 rest
  | depth + 1, _ :: rest => outside (depth + 1) rest

theorem outside_cons_of_plain {c : Char} (hopen : c ≠ '<') (hclose : c ≠ '>') (depth : Nat)
    (rest : List Char) :
    outside depth (c :: rest) = if depth = 0 then c :: outside depth rest else outside depth rest := by
  cases depth with
  | zero => rw [outside] <;> simp [hopen, hclose]
  | succ depth => rw [outside] <;> simp [hopen, hclose]

/-- No bracket is closed that is not open, and none is open at the end, when `depth` are open at first. -/
def closesAll : Nat → List Char → Bool
  | depth, [] => depth = 0
  | depth, '<' :: rest => closesAll (depth + 1) rest
  | 0, '>' :: _ => false
  | depth + 1, '>' :: rest => closesAll depth rest
  | depth, _ :: rest => closesAll depth rest

theorem closesAll_cons_of_plain {c : Char} (hopen : c ≠ '<') (hclose : c ≠ '>') (depth : Nat)
    (rest : List Char) : closesAll depth (c :: rest) = closesAll depth rest := by
  rw [closesAll] <;> simp [hopen, hclose]

/-- The brackets of the text belong together in pairs. -/
def IsBalanced (text : String) : Prop :=
  closesAll 0 text.toList

/-- Outside of brackets the text shows as `shown`. Within brackets it does not show at all. It opens none
that it does not close, and it closes none that it does not open. -/
structure Shows (text shown : String) : Prop where
  outermost : ∀ rest, outside 0 (text.toList ++ rest) = shown.toList ++ outside 0 rest
  within : ∀ depth rest, outside (depth + 1) (text.toList ++ rest) = outside (depth + 1) rest
  balanced : ∀ depth rest, closesAll depth (text.toList ++ rest) = closesAll depth rest

namespace Shows

variable {text shown text' shown' : String}

theorem outside_eq (h : Shows text shown) : outside 0 text.toList = shown.toList := by
  simpa [outside] using h.outermost []

theorem isBalanced (h : Shows text shown) : IsBalanced text := by
  simpa [IsBalanced, closesAll] using h.balanced 0 []

/-- A text shows in one way. -/
theorem unique (h : Shows text shown) (h' : Shows text shown') : shown = shown' :=
  String.toList_injective (h.outside_eq.symm.trans h'.outside_eq)

theorem empty : Shows "" "" :=
  ⟨fun _ => rfl, fun _ _ => rfl, fun _ _ => rfl⟩

theorem append (h : Shows text shown) (h' : Shows text' shown') :
    Shows (text ++ text') (shown ++ shown') := by
  refine ⟨fun rest => ?_, fun depth rest => ?_, fun depth rest => ?_⟩
  · rw [String.toList_append, String.toList_append, List.append_assoc, h.outermost, h'.outermost,
      List.append_assoc]
  · rw [String.toList_append, List.append_assoc, h.within, h'.within]
  · rw [String.toList_append, List.append_assoc, h.balanced, h'.balanced]

/-- A text without brackets shows as it is. -/
theorem plain (hopen : '<' ∉ text.toList) (hclose : '>' ∉ text.toList) : Shows text text := by
  have houtside : ∀ cs : List Char, '<' ∉ cs → '>' ∉ cs → ∀ depth rest, outside depth (cs ++ rest) =
      if depth = 0 then cs ++ outside depth rest else outside depth rest := by
    intro cs hopen hclose depth rest
    induction cs with
    | nil => simp
    | cons c cs ih =>
      simp only [List.mem_cons, not_or] at hopen hclose
      rw [List.cons_append, outside_cons_of_plain (Ne.symm hopen.1) (Ne.symm hclose.1), ih hopen.2 hclose.2]
      split <;> rfl
  have hcloses : ∀ cs : List Char, '<' ∉ cs → '>' ∉ cs → ∀ depth rest,
      closesAll depth (cs ++ rest) = closesAll depth rest := by
    intro cs hopen hclose depth rest
    induction cs with
    | nil => rfl
    | cons c cs ih =>
      simp only [List.mem_cons, not_or] at hopen hclose
      rw [List.cons_append, closesAll_cons_of_plain (Ne.symm hopen.1) (Ne.symm hclose.1), ih hopen.2 hclose.2]
  exact ⟨fun rest => houtside _ hopen hclose 0 rest, fun depth rest => houtside _ hopen hclose (depth + 1) rest,
    hcloses _ hopen hclose⟩

/-- Nothing shows of what stands in brackets. -/
theorem bracketed (h : Shows text shown) : Shows ("<" ++ text ++ ">") "" := by
  have hlist : ∀ rest, ("<" ++ text ++ ">").toList ++ rest = '<' :: (text.toList ++ '>' :: rest) := by
    simp
  have hclosed : ∀ depth rest, outside depth (("<" ++ text ++ ">").toList ++ rest) = outside depth rest := by
    intro depth rest
    rw [hlist, outside, h.within, outside, Nat.add_sub_cancel]
  refine ⟨fun rest => hclosed 0 rest, fun depth rest => hclosed (depth + 1) rest, fun depth rest => ?_⟩
  rw [hlist, closesAll, h.balanced, closesAll]

/-- Joined texts show part by part. -/
theorem intercalate {α : Type} {items : List α} {full brief : α → String} {separator : String}
    (hseparator : Shows separator separator) (h : ∀ item ∈ items, Shows (full item) (brief item)) :
    Shows (separator.intercalate (items.map full)) (separator.intercalate (items.map brief)) := by
  induction items with
  | nil => exact empty
  | cons item rest ih =>
    obtain ⟨hitem, hrest⟩ := List.forall_mem_cons.1 h
    cases rest with
    | nil => simpa using hitem
    | cons next rest =>
      simp only [List.map_cons, String.intercalate_cons_cons] at ih ⊢
      exact (hitem.append hseparator).append (ih hrest)

end Shows

end ApiSurface
