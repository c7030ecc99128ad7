import ApiSurface.Report.Sink
import Mathlib.Data.List.Forall2

/-!
Reading a report back from its text.

The text is cut at its line feeds, and each piece is a line by its mark. That gives the lines of the
report exactly when none of them has a line feed of its own: a line with one becomes two pieces, of which
the second is read as whatever it looks like.
-/

namespace ApiSurface

/-! ## Pieces that end in a separator -/

section
variable {α : Type} [BEq α] [LawfulBEq α] {x : α}

theorem splitOn_flatMap_concat {parts : List (List α)} (h : ∀ part ∈ parts, x ∉ part) :
    (parts.flatMap (· ++ [x])).splitOn x = parts ++ [[]] := by
  induction parts with
  | nil => simp
  | cons part rest ih =>
    obtain ⟨hpart, hrest⟩ := List.forall_mem_cons.1 h
    rw [List.flatMap_cons, List.append_assoc, List.singleton_append,
      List.splitOn_append_cons_self_of_not_mem hpart, ih hrest]
    rfl

theorem length_splitOn (xs : List α) : (xs.splitOn x).length = xs.count x + 1 := by
  induction xs with
  | nil => simp
  | cons y xs ih =>
    rw [List.splitOn_cons_eq_if_modifyHead]
    by_cases hy : (y == x) = true
    · obtain rfl := eq_of_beq hy
      simp [ih]
    · rw [if_neg hy, List.length_modifyHead, ih, List.count_cons_of_ne (by simpa using hy)]

end

/-- A list is converted when each of its elements is. -/
theorem mapM_eq_some_iff {α β : Type} {f : α → Option β} {xs : List α} {ys : List β} :
    xs.mapM f = some ys ↔ List.Forall₂ (fun x y => f x = some y) xs ys := by
  induction xs generalizing ys with
  | nil => simp [eq_comm]
  | cons x xs ih =>
    rw [List.mapM_cons, List.forall₂_cons_left_iff]
    simp only [← ih]
    cases f x with
    | none => simp
    | some y =>
      cases xs.mapM f with
      | none => simp
      | some rest => simp [eq_comm]

namespace Report

/-! ## Reading lines -/

/-- The line that a piece of text is, by the mark that it starts with. -/
def Line.read? (piece : List Char) : Option Line :=
  [LineKind.type, .method, .field].findSome? fun kind =>
    (kind.mark.toList.isPrefixOf? piece).map fun text => ⟨kind, String.ofList text⟩

/-- The pieces of a text that end in a line feed each. -/
def pieces (text : String) : List (List Char) :=
  (text.toList.splitOn '\n').dropLast

/-- The lines that a text reads as; nothing if a piece has no mark. -/
def readBack? (text : String) : Option (List Line) :=
  (pieces text).mapM Line.read?

theorem Line.read?_render (line : Line) : Line.read? line.render.toList = some line := by
  obtain ⟨kind, text⟩ := line
  cases kind <;> simp [Line.read?, Line.render, LineKind.mark, List.isPrefixOf?]

/-- Marks are no lines. -/
theorem count_render (line : Line) :
    line.render.toList.count '\n' = line.text.toList.count '\n' := by
  have hmark : line.kind.mark.toList.count '\n' = 0 := by cases line.kind <;> decide
  rw [Line.render, String.toList_append, List.count_append, hmark, Nat.zero_add]

/-! ## The text of a report -/

theorem toList_text (r : Report) :
    r.text.toList = (r.lines.map (·.render.toList)).flatMap (· ++ ['\n']) := by
  rw [text, String.toList_join, List.flatMap_map, List.flatMap_map]
  simp

/-- Each line ends in a line feed, and those in its text are more of them. -/
theorem length_pieces (r : Report) : (pieces r.text).length =
    r.lines.length + (r.lines.flatMap (·.text.toList)).count '\n' := by
  rw [pieces, List.length_dropLast, length_splitOn, Nat.add_sub_cancel, toList_text]
  induction r.lines with
  | nil => rfl
  | cons line rest ih =>
    simp only [List.map_cons, List.flatMap_cons, List.count_append, ih, count_render, List.length_cons,
      List.count_cons_self, List.count_nil]
    omega

theorem pieces_text {r : Report} (h : ∀ line ∈ r.lines, '\n' ∉ line.text.toList) :
    pieces r.text = r.lines.map (·.render.toList) := by
  have hpart : ∀ part ∈ r.lines.map (·.render.toList), '\n' ∉ part := by
    intro part hpart
    obtain ⟨line, hline, rfl⟩ := List.mem_map.1 hpart
    rw [← List.count_eq_zero, count_render, List.count_eq_zero]
    exact h line hline
  rw [pieces, toList_text, splitOn_flatMap_concat hpart, List.dropLast_concat]

theorem length_pieces_text_iff (r : Report) : (pieces r.text).length = r.lines.length ↔
    ∀ line ∈ r.lines, '\n' ∉ line.text.toList := by
  rw [length_pieces, Nat.add_eq_left, List.count_eq_zero]
  simp only [List.mem_flatMap, not_exists, not_and]

/-- **The lines of a report can be read back from its text exactly when none of them has a line feed of
its own.** -/
theorem readBack?_text_iff (r : Report) :
    readBack? r.text = some r.lines ↔ ∀ line ∈ r.lines, '\n' ∉ line.text.toList := by
  constructor
  · exact fun h => r.length_pieces_text_iff.1 (mapM_eq_some_iff.1 h).length_eq
  · intro h
    rw [readBack?, pieces_text h, mapM_eq_some_iff, List.forall₂_map_left_iff, List.forall₂_same]
    exact fun line _ => line.read?_render

theorem typeCount_add_memberCount (r : Report) : r.typeCount + r.memberCount = r.lines.length := by
  have hle : r.typeCount ≤ r.lines.length := List.countP_le_length
  rw [memberCount]
  omega

/-! ## Writing -/

theorem ofText_text (r : Report) : Bytes.ofText r.text = r.chunks.flatten := by
  rw [text, chunks]
  induction r.lines with
  | nil => rfl
  | cons line rest ih =>
    have hjoin (first : String) (more : List String) :
        String.join (first :: more) = first ++ String.join more := by
      rw [← String.toList_inj, String.toList_append, String.toList_join, String.toList_join,
        List.flatMap_cons]
    rw [List.map_cons, hjoin, Bytes.ofText_append, ih, List.flatMap_cons, List.flatten_append]
    simp [Line.render, Bytes.ofText_append]

/-- A sink that takes all is given the text. -/
theorem writeTo_unlimited (r : Report) (received : Bytes) :
    r.writeTo ⟨received, none⟩ = (⟨received ++ Bytes.ofText r.text, none⟩, .ok ()) := by
  have hput (chunks : List Bytes) (received : Bytes) :
      putAll Sink.put chunks ⟨received, none⟩ = (⟨received ++ chunks.flatten, none⟩, none) := by
    induction chunks generalizing received with
    | nil => simp [putAll]
    | cons chunk rest ih =>
      have hone : Sink.put ⟨received, none⟩ chunk = (⟨received ++ chunk, none⟩, none) := by
        simp [Sink.put, Sink.roomAfter]
      rw [putAll, hone]
      dsimp only
      rw [ih, List.append_assoc, List.flatten_cons]
  rw [writeTo, hput, ofText_text]

end Report

end ApiSurface
