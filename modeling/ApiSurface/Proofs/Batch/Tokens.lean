import ApiSurface.Proofs.Batch.Ending
import ApiSurface.Proofs.Storage.Dots

/-!
What the tokens of temporary files and the number of scans at a time have no part in.

All tokens have one length, so a temporary file can be made under the name with one of them or under
none. How many scans may be under way is nothing that a scan asks for.
-/

namespace ApiSurface

open FileSystem

/-! ## Texts of one size -/

theorem OsString.length_ofText {text : String} (h : ∀ c ∈ text.toList, c.utf8Size = 1) :
    (ofText text).length = text.length := by
  have hall : ∀ cs : List Char, (∀ c ∈ cs, c.utf8Size = 1) →
      (cs.flatMap String.utf8EncodeChar).length = cs.length := by
    intro cs hcs
    induction cs with
    | nil => rfl
    | cons c rest ih =>
      obtain ⟨hc, hrest⟩ := List.forall_mem_cons.1 hcs
      rw [List.flatMap_cons, List.length_append, String.length_utf8EncodeChar, hc, ih hrest, List.length_cons,
        Nat.add_comm]
  exact (hall text.toList h).trans String.length_toList

namespace FileSystem

theorem refusal?_join_congr {p : Path} {name other : OsString} (hname : IsPart name)
    (hother : IsPart other) (hsize : other.length = name.length)
    (hnul : OsString.nul ∈ other.toList ↔ OsString.nul ∈ name.toList) :
    refusal? (p.join ⟨other⟩) = refusal? (p.join ⟨name⟩) := by
  obtain ⟨front, -, hfront⟩ := p.exists_text_join
  unfold refusal?
  rw [hfront name hname, hfront other hother, List.contains_eq_mem, List.contains_eq_mem]
  simp only [OsString.toList_append, List.mem_append, hnul, OsString.length_append, hsize]
  have hne : ∀ text : OsString, IsPart text → front ++ text ≠ "" := by
    intro text htext hempty
    have hbytes := congrArg OsString.toList hempty
    rw [OsString.toList_append] at hbytes
    exact htext.1 (OsString.toList_eq_nil_iff.1 (List.append_eq_nil_iff.1 hbytes).2)
  rw [if_neg (hne name hname), if_neg (hne other hother)]

end FileSystem

namespace Batch

open Replacement (temporary fault?)

/-! ## Tokens -/

/-- Thirty-two small hexadecimal digits, with four dashes among them. -/
def IsToken (token : String) : Prop :=
  token.length = 36 ∧ token.toList ⊆ "-0123456789abcdef".toList

section Token

variable {token other : String} {start : FileSystem}

theorem IsToken.length_ofText (h : IsToken token) : (OsString.ofText token).length = 36 := by
  rw [OsString.length_ofText, h.1]
  have hall : ("-0123456789abcdef".toList.all fun c => c.utf8Size = 1) = true := by decide
  exact fun c hc => of_decide_eq_true (List.all_eq_true.1 hall c (h.2 hc))

theorem IsToken.noSlash (h : IsToken token) : '/' ∉ token.toList :=
  fun hslash => absurd (h.2 hslash) (by decide)

theorem IsToken.noNul (h : IsToken token) : '\x00' ∉ token.toList :=
  fun hnul => absurd (h.2 hnul) (by decide)

theorem IsTemporaryName.isName {name : OsString} (h : IsTemporaryName name) : Node.isName name :=
  Node.isName_iff.2 ⟨h.isPart, h.ne_of_short (by decide), h.ne_of_short (by decide)⟩

/-- With one token or another, the temporary file can be made or it cannot. -/
theorem locate_temporary_congr (hsound : start.isSound) (h : IsToken token) (h' : IsToken other)
    (report : Path) : (start.locate false (temporary other report)).map (fun _ => ()) =
      (start.locate false (temporary token report)).map fun _ => () := by
  have hname := isTemporaryName h.noSlash report
  have hother := isTemporaryName h'.noSlash report
  have hsize (front : String) : (OsString.ofText (front ++ other ++ ".tmp")).length =
      (OsString.ofText (front ++ token ++ ".tmp")).length := by
    simp only [OsString.ofText_append, OsString.length_append, h.length_ofText, h'.length_ofText]
  refine locate_join_congr (isSound_iff.1 hsound).2 hname.isName hother.isName (hsize _)
    (refusal?_join_congr hname.isPart hother.isPart (hsize _) ?_)
  simp only [OsString.nul_mem_ofText_iff, String.toList_append, List.mem_append, h.noNul, h'.noNul]

theorem fault?_temporary_congr (hsound : start.isSound) (h : IsToken token) (h' : IsToken other)
    (report : Path) :
    fault? start (temporary other report) report = fault? start (temporary token report) report := by
  unfold fault?
  obtain ⟨e, hother, htoken⟩ | ⟨t', t, hother, htoken, -⟩ :=
    cases_of_map_eq_map (locate_temporary_congr hsound h h' report)
  · rw [hother, htoken]
  · rw [hother, htoken]

end Token

end Batch

/-! ## Scans at a time -/

/-- The settings differ at most in how many scans may be under way. -/
def ScannerSettings.ScansAlike (s s' : ScannerSettings) : Prop :=
  s' = { s with maxParallelScans := s'.maxParallelScans }

theorem Scan.emitting_congr {s s' : ScannerSettings} (h : s.ScansAlike s') (types : List TypeDecl)
    (u : Universe) : emitting s' types u = emitting s types u := by
  induction types generalizing u with
  | nil => rfl
  | cons t rest ih =>
    unfold emitting
    simp only [ih]
    rw [h]

theorem scanning_congr {s s' : ScannerSettings} (h : s.ScansAlike s') (r : ScanRequest) :
    scanning s' r = scanning s r := by
  unfold scanning
  simp only [Scan.emitting_congr h]
  rw [h]

namespace Batch

section Workshop

variable {w w' : Workshop} {start : FileSystem} {i : Nat} {r : ScanRequest} {report : Path}

/-- So neither has a part in what comes of a scan. -/
theorem fate_congr (hsound : start.isSound) (hsettings : w.settings.ScansAlike w'.settings)
    (htoken : IsToken (w.token i)) (htoken' : IsToken (w'.token i)) :
    fate w' start i r report = fate w start i r report := by
  unfold fate
  rw [← run_scanning, ← run_scanning, scanning_congr hsettings,
    fault?_temporary_congr hsound htoken htoken']

theorem outcomeOf_congr (hsound : start.isSound) (hsettings : w.settings.ScansAlike w'.settings)
    (htoken : ∀ i, IsToken (w.token i)) (htoken' : ∀ i, IsToken (w'.token i)) :
    outcomeOf w' start = outcomeOf w start := by
  funext i job
  cases job with
  | skip artifact e => rfl
  | scan r report =>
    rw [outcomeOf, outcomeOf, fate_congr hsound hsettings (htoken i) (htoken' i)]

theorem gives_congr (hsound : start.isSound) (hsettings : w.settings.ScansAlike w'.settings)
    (htoken : ∀ i, IsToken (w.token i)) (htoken' : ∀ i, IsToken (w'.token i)) (planned : List Job) :
    Gives w' start planned = Gives w start planned := by
  funext report text
  unfold Gives
  simp only [fun i r => @fate_congr w w' start i r report hsound hsettings (htoken i) (htoken' i)]

end Workshop

end Batch

end ApiSurface
