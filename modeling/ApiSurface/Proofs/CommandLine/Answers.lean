import ApiSurface.CommandLine.Run
import ApiSurface.Proofs.Text.OsString

/-!
When an answer can be written.

As text every answer can be. As JSON one can be exactly if all paths in it are texts, and that is what the
exit code says before anything else. The values are followed down to their paths, one case for each kind of
value.
-/

namespace ApiSurface

/-! ## JSON values -/

namespace Json

/-- All of the text has been written. -/
def Output.IsWhole (o : Output) : Prop :=
  o.fault = none

@[simp] theorem Output.isWhole_whole (text : String) : (whole text).IsWhole := rfl

@[simp] theorem Output.isWhole_append {front back : Output} :
    (front ++ back).IsWhole ↔ front.IsWhole ∧ back.IsWhole := by
  obtain ⟨text, fault⟩ := front
  cases fault with
  | none => exact (and_iff_right rfl).symm
  | some fault => exact iff_of_false (fun h => by cases h) fun h => by cases h.1

theorem isWhole_separated {level : Nat} {items : List Output} :
    (separated level items).IsWhole ↔ ∀ item ∈ items, item.IsWhole := by
  induction items using separated.induct with
  | case1 => simp [separated]
  | case2 item => simp [separated]
  | case3 item rest hne ih => simp [separated, ih]

theorem isWhole_bracketed {level : Nat} {left right : String} {items : List Output} :
    (bracketed level left right items).IsWhole ↔ ∀ item ∈ items, item.IsWhole := by
  cases items with
  | nil => simp [bracketed]
  | cons item rest => simp [bracketed, isWhole_separated]

theorem isWhole_writePath {s : OsString} : (writePath s).IsWhole ↔ s.text? ≠ none := by
  unfold writePath
  cases s.text? with
  | none => exact iff_of_false (fun h => by cases h) fun h => h rfl
  | some text => exact iff_of_true rfl fun h => by cases h

mutual

/-- The paths in a value. -/
def paths : Json → List OsString
  | .path s => [s]
  | .array items => pathsOfItems items
  | .object fields => pathsOfFields fields
  | .text _ | .count _ | .boolean _ => []

def pathsOfItems : List Json → List OsString
  | [] => []
  | item :: rest => paths item ++ pathsOfItems rest

def pathsOfFields : List (String × Json) → List OsString
  | [] => []
  | (_, value) :: rest => paths value ++ pathsOfFields rest

end

mutual

theorem isWhole_textAt (level : Nat) : (j : Json) →
    ((textAt level j).IsWhole ↔ ∀ s ∈ paths j, s.text? ≠ none)
  | .path s => by simp [textAt, paths, isWhole_writePath]
  | .text s => by simp [textAt, paths]
  | .count n => by simp [textAt, paths]
  | .boolean b => by simp [textAt, paths]
  | .array items => by
    rw [textAt, paths, isWhole_bracketed]
    exact isWhole_textsOfItems (level + 1) items
  | .object fields => by
    rw [textAt, paths, isWhole_bracketed]
    exact isWhole_textsOfFields (level + 1) fields

theorem isWhole_textsOfItems (level : Nat) : (items : List Json) →
    ((∀ text ∈ textsOfItems level items, text.IsWhole) ↔ ∀ s ∈ pathsOfItems items, s.text? ≠ none)
  | [] => by simp [textsOfItems, pathsOfItems]
  | item :: rest => by
    rw [textsOfItems, pathsOfItems, List.forall_mem_cons, List.forall_mem_append, isWhole_textAt level item,
      isWhole_textsOfItems level rest]

theorem isWhole_textsOfFields (level : Nat) : (fields : List (String × Json)) →
    ((∀ text ∈ textsOfFields level fields, text.IsWhole) ↔ ∀ s ∈ pathsOfFields fields, s.text? ≠ none)
  | [] => by simp [textsOfFields, pathsOfFields]
  | (key, value) :: rest => by
    rw [textsOfFields, pathsOfFields, List.forall_mem_cons, List.forall_mem_append, Output.isWhole_append,
      isWhole_textAt level value, isWhole_textsOfFields level rest]
    simp

end

/-- A value can be written exactly if all paths in it are texts. -/
theorem isWhole_pretty {j : Json} : j.pretty.IsWhole ↔ ∀ s ∈ j.paths, s.text? ≠ none :=
  isWhole_textAt 0 j

end Json

/-! ## Answers -/

/-- The paths that an answer names for the outcome. -/
def Outcome.namedPaths : Outcome → List Path
  | .written artifact report .. => [artifact, report]
  | .skipped artifact _ => [artifact]

/-- A path that is named for one of the outcomes is no text. -/
def HasOddPath (outcomes : List Outcome) : Prop :=
  ∃ outcome ∈ outcomes, ∃ path ∈ outcome.namedPaths, path.text.text? = none

instance (outcomes : List Outcome) : Decidable (HasOddPath outcomes) :=
  inferInstanceAs (Decidable (∃ _ ∈ _, ∃ _ ∈ _, _))

namespace Answer

theorem isWhole_write_text (answer : Answer) : (answer.write .text).IsWhole := rfl

theorem paths_outcomeJson (outcome : Outcome) :
    (outcomeJson outcome).paths = outcome.namedPaths.map (·.text) := by
  cases outcome <;> rfl

theorem mem_pathsOfItems_outcomes {s : OsString} {outcomes : List Outcome} :
    s ∈ Json.pathsOfItems (outcomes.map outcomeJson) ↔
      ∃ outcome ∈ outcomes, ∃ path ∈ outcome.namedPaths, path.text = s := by
  induction outcomes with
  | nil => simp [Json.pathsOfItems]
  | cons outcome rest ih =>
    rw [List.map_cons, Json.pathsOfItems, List.mem_append, ih, paths_outcomeJson]
    simp

/-- The answer about a batch can be written unless it names a path that is no text, and is to be JSON. -/
theorem isWhole_write_scanned {outputDir : String} {outcomes : List Outcome} {format : OutputFormat} :
    ((scanned outputDir ⟨outcomes⟩).write format).IsWhole ↔ ¬ (format = .json ∧ HasOddPath outcomes) := by
  cases format with
  | text => exact iff_of_true (isWhole_write_text _) fun h => by cases h.1
  | json =>
    have hpaths : (scanned outputDir ⟨outcomes⟩).json.paths = Json.pathsOfItems (outcomes.map outcomeJson) := by
      simp [json, Json.paths, Json.pathsOfFields]
    rw [write, Json.Output.isWhole_append, Json.isWhole_pretty, hpaths]
    simp only [mem_pathsOfItems_outcomes, Json.Output.isWhole_whole, HasOddPath, and_true, true_and, not_exists,
      not_and]
    constructor
    · exact fun h outcome houtcome path hpath hnone => h _ ⟨outcome, houtcome, path, hpath, rfl⟩ hnone
    · rintro h s ⟨outcome, houtcome, path, hpath, rfl⟩ hnone
      exact h outcome houtcome path hpath hnone

end Answer

namespace CommandResult

/-- The exit code of a command whose answer can be written. -/
def exitCode (r : CommandResult) : Nat :=
  (r.error.map (·.exitCode)).getD 0

theorem exitCode_ending_of_isWhole {r : CommandResult} {format : OutputFormat}
    (h : ∀ answer ∈ r.answer, (answer.write format).IsWhole) :
    (r.ending format).exitCode = some r.exitCode := by
  obtain ⟨answer, error⟩ := r
  cases answer with
  | none => rfl
  | some answer =>
    have hwhole : (answer.write format).fault = none := h answer rfl
    simp [ending, hwhole, exitCode]

/-- An answer that cannot be written counts for more than all else. -/
theorem exitCode_ending_of_not_isWhole {r : CommandResult} {answer : Answer} {format : OutputFormat}
    (hanswer : r.answer = some answer) (h : ¬ (answer.write format).IsWhole) :
    (r.ending format).exitCode = some 1 := by
  obtain ⟨fault, hfault⟩ := Option.ne_none_iff_exists'.1 h
  simp [ending, hanswer, hfault, CommandError.exitCode]

end CommandResult

end ApiSurface
