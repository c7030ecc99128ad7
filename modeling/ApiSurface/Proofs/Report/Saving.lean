import ApiSurface.Proofs.Batch.Ledger
import ApiSurface.Proofs.Report.ReadBack
import ApiSurface.Proofs.Storage.Dots
import ApiSurface.Report.Writer

/-!
A report is there as a whole, or not at all.

Until the temporary file takes the name of the report, no call does anything but to this file: it is made,
it grows, and it is taken away again. So whatever call fails, and after however many bytes, everything
else is as it was. What the calls come to is what the steps of a replacement come to, on a device that
fails where the system does.
-/

namespace ApiSurface

open FileSystem Replacement

/-! ## Paths that lead to nothing -/

namespace FileSystem

variable {fs : FileSystem} {place : Location} {names : List OsString} {path : Path} {t : Target}

/-- A walk that comes to nothing ends at a child that is missing, by the last of its names. -/
def Walk.EndsOpen (last : OsString) : Walk → Prop
  | .done t => t.node? = none → last ≠ "." ∧ last ≠ ".." ∧ t.place.getLast? = some last
  | .refused _ => True
  | .link _ _ rest => rest.getLast? = some last

theorem endsOpen_walk {last : OsString} (h : names.getLast? = some last ∨ names = []) :
    (fs.walk false place names).EndsOpen last := by
  refine walk_induction (P := fun _ names w => names.getLast? = some last ∨ names = [] → w.EndsOpen last)
    ?stop ?start ?here ?up ?last ?folder ?link place names h
  case stop => exact fun _ _ _ _ => trivial
  case start => exact fun place node _ _ hnone => nomatch hnone
  case here =>
    rintro place rest w ih (h | h)
    · exact ih ((getLast?_of_cons h).imp_left (·.1)).symm
    · cases h
  case up =>
    rintro place rest w ih (h | h)
    · exact ih ((getLast?_of_cons h).imp_left (·.1)).symm
    · cases h
  case last =>
    rintro place name t hhere hup heq - - (h | h) -
    · obtain rfl := Option.some.inj h
      exact ⟨hhere, hup, heq ▸ List.getLast?_concat⟩
    · cases h
  case folder =>
    rintro place name rest w - - - ih (h | h)
    · exact ih ((getLast?_of_cons h).imp_left (·.1)).symm
    · cases h
  case link =>
    rintro place name rest target - - hne (h | h)
    · obtain ⟨hnil, -⟩ | hrest := getLast?_of_cons h
      · exact absurd hnil (hne rfl)
      · exact hrest
    · cases h

theorem endsOpen_locate {last : OsString}
    (hlast : (segmentsOf path.text).getLast? = some last ∨ segmentsOf path.text = [])
    (h : fs.locate false path = .ok t) : (Walk.done t).EndsOpen last := by
  refine walkOn_induction (P := Walk.EndsOpen last) (endsOpen_walk hlast)
    (fun folder target rest hlink => endsOpen_walk (.inl ?_)) (locate_eq_ok.1 h).2
  rw [List.getLast?_append, show rest.getLast? = some last from hlink]
  rfl

/-- What is missing at the end of a path has the name of the file that the path is for. -/
theorem fileName?_of_absent (h : fs.locate false path = .ok t) (hnone : t.node? = none) :
    ∃ name, path.fileName? = some name ∧ t.place.getLast? = some name := by
  cases hlast : (segmentsOf path.text).getLast? with
  | none => exact absurd rfl (endsOpen_locate (.inr (List.getLast?_eq_none_iff.1 hlast)) h hnone).1
  | some name =>
    obtain ⟨hhere, hup, hplace⟩ := endsOpen_locate (.inl hlast) h hnone
    refine ⟨name, ?_, hplace⟩
    have hnames : (namesOf path.text).getLast? = some name := by
      obtain heq | heq := segmentsOf_eq path.text
      · rwa [heq] at hlast
      · rw [heq, List.getLast?_concat] at hlast
        exact absurd (Option.some.inj hlast).symm hhere
    obtain ⟨front, hfront⟩ := List.getLast?_eq_some_iff.1 hnames
    have hcomponents : path.components =
        startComponents path ++ (withoutDots front).map componentOf ++ [componentOf name] := by
      simp [components_eq, hfront, withoutDots, hhere]
    rw [Path.fileName?, hcomponents, List.getLast?_concat, componentOf, if_neg hup]

end FileSystem

/-! ## What has become of the files -/

/-- Everything is as it was, but for the temporary file. -/
def IsUntouched (base : FileSystem) (temp : Path) (fs : FileSystem) : Prop :=
  ∀ place, ¬ base.LeadsTo temp place → Keeps base fs place

/-- The place to which the path led has the content, and everything else is as it was. -/
structure IsInPlace (base : FileSystem) (path : Path) (content : Bytes) (fs : FileSystem) : Prop where
  filled : FilledAt (base.LeadsTo path) base fs
  holds : Holds base fs path content

theorem IsInPlace.keeps {base fs : FileSystem} {path : Path} {content : Bytes}
    (h : IsInPlace base path content fs) (place : Location) (hplace : ¬ base.LeadsTo path place) :
    Keeps base fs place :=
  h.filled.keeps_start hplace

/-- Nothing but the content can be read along the path, and it can be, unless the file has come to stand
on the way. -/
theorem IsInPlace.readFile {base fs : FileSystem} {path : Path} {content : Bytes}
    (h : IsInPlace base path content fs) :
    (∀ bytes, fs.readFile path = .ok bytes → bytes = content) ∧
      ((∀ place ∈ base.way false path, ¬ base.LeadsTo path place) → fs.readFile path = .ok content) :=
  ⟨fun _ hread => h.holds.readFile h.filled hread,
    fun hway => h.holds.readFile_of_isClear h.filled.toChangedAt ⟨hway, fun _ hplace _ => hplace⟩⟩

theorem isUntouched_refl (base : FileSystem) (temp : Path) : IsUntouched base temp base :=
  fun place _ => Keeps.refl base place

/-! ## The temporary file -/

section Temporary

variable {base : FileSystem} {temp path : Path} {token : String} {place : Location} {held : Bytes}

/-- The name of a temporary file is longer than the one of the file that it is for. -/
theorem not_leadsTo_temporary (hfresh : Batch.IsFresh base token) (hsound : base.isSound)
    (hplace : base.LeadsTo (temporary token path) place) : ¬ base.LeadsTo path place := by
  rintro ⟨t, ht, rfl⟩
  have hfound := isFound_of_locate (isSound_iff.1 hsound).2 ht
  obtain ⟨name, hname, hlast⟩ :=
    fileName?_of_absent ht (hfound.get?.symm.trans (hfresh.get?_temporary hplace))
  have htemporary := (Batch.isTemporaryName hfresh.noSlash path).getLast? hplace
  rw [hlast, hname] at htemporary
  -- The name is a text now, so it is what is shown of it.
  have hlength := congrArg (·.shown.toList.length) (Option.some.inj htemporary)
  simp at hlength
  omega

theorem isSpare_temporary (hfresh : Batch.IsFresh base token) (hsound : base.isSound) (path : Path) :
    IsSpare (fun _ => False) base (temporary token path) path where
  new _ hplace := hfresh.get?_temporary hplace
  cold _ _ := id
  apart _ hplace := not_leadsTo_temporary hfresh hsound hplace

theorem FileSystem.setContent_setNewFile (fs : FileSystem) (place : Location)
    (content content' : ByteArray) :
    (fs.setNewFile place content).setContent fs.contents.size content' = fs.setNewFile place content' := by
  simp [setNewFile, setContent, set, Array.setIfInBounds, Array.set_push]

variable (hsound : base.isSound) (hspare : IsSpare (fun _ => False) base temp path)
  (hleads : base.LeadsTo temp place)
include hsound hspare hleads

/-- A new file at the place of the temporary one, whatever is in it. -/
theorem drafted_setNewFile (held : Bytes) : Drafted (fun _ => False) base base temp place held
    (base.setNewFile place held.toByteArray) := by
  have hno := not_isFolderAt_spare (.refl hsound) hspare hleads
  have hfolder := hleads.hasFolder hsound hno
  have hchanged : ChangedAt (fun l => False ∨ l = place) base base :=
    (FilledAt.refl hsound).toChangedAt.mono (fun _ => .inl) fun l hl => by
      obtain rfl := hl.resolve_left id
      exact hno
  refine ⟨hleads, hchanged.setNewFile hfolder (.inr rfl) _, ?_, base.contents.size, le_rfl, ?_, ?_⟩
  · exact fun other hne => hchanged.keeps_setNewFile hfolder (.inr rfl) _ hne
  · exact get?_set_self hsound hfolder
  · exact content_setNewFile_self

theorem perform_create_temporary :
    base.perform (.create temp) = (base.setNewFile place (Bytes.toByteArray []), none) := by
  obtain ⟨t, ht, rfl⟩ := hleads
  have hfound := isFound_of_locate (isSound_iff.1 hsound).2 ht
  rw [perform, createFile_of_absent ht (hfound.get?.symm.trans (hspare.new _ ⟨t, ht, rfl⟩))]
  rfl

/-- Bytes for the temporary file come to stand behind those that it has. -/
theorem perform_append_temporary (held bytes : Bytes) :
    (base.setNewFile place held.toByteArray).perform (.append temp bytes) =
      (base.setNewFile place (held ++ bytes).toByteArray, none) := by
  have hdrafted := drafted_setNewFile hsound hspare hleads held
  obtain ⟨t, ht, -, hnode⟩ := hdrafted.locate (.refl hsound) hspare
  have hfolder := hleads.hasFolder hsound (not_isFolderAt_spare (.refl hsound) hspare hleads)
  have hfile : (base.setNewFile place held.toByteArray).get? place = some (.file base.contents.size) :=
    get?_set_self hsound hfolder
  rw [perform, appendFile_of_file ht (hnode.trans hfile), content_setNewFile_self,
    setContent_setNewFile, toByteArray_append]
  rfl

end Temporary

/-! ## Writing through the buffer -/

/-- The system does every call, if in several of them. -/
def Verdicts.AreSteady (v : Verdicts) : Prop :=
  ∀ i step, (∀ e, v i step ≠ .fails e) ∧ v i step ≠ .takes 0

/-- The temporary file has come, with `held` in it, and nothing else has happened so far. -/
structure Course.IsDraft (base : FileSystem) (temp : Path) (place : Location) (held : Bytes)
    (s : Course) : Prop where
  files : s.files = base.setNewFile place held.toByteArray
  past : ∀ fs ∈ s.past, IsUntouched base temp fs

/-- All of the content has been written, or a front part of it and there is an error. -/
def Course.HasWritten (base : FileSystem) (v : Verdicts) (temp : Path) (place : Location)
    (content : Bytes) (result : Course × Option IoError) : Prop :=
  ∃ part, part <+: content ∧ result.1.IsDraft base temp place part ∧
    (result.2 = none → part = content) ∧ (v.AreSteady → result.2 = none)

/-- What has been put in stands in the file, and the end of it in the buffer. -/
def BufferedFile.HasTaken (base : FileSystem) (temp : Path) (place : Location) (given : Bytes)
    (f : BufferedFile) : Prop :=
  ∃ held, f.course.IsDraft base temp place held ∧ held ++ f.buffer = given

section Writing

variable {base : FileSystem} {temp path : Path} {place : Location} {held given bytes : Bytes}
  {s s' : Course} {f f' : BufferedFile} {v : Verdicts} {e? : Option IoError} {left : Bytes}

variable (hsound : base.isSound) (hspare : IsSpare (fun _ => False) base temp path)
  (hleads : base.LeadsTo temp place)
include hsound hspare hleads

theorem isUntouched_setNewFile (held : Bytes) :
    IsUntouched base temp (base.setNewFile place held.toByteArray) := by
  refine fun other hother => (drafted_setNewFile hsound hspare hleads held).keeps other ?_
  rintro rfl
  exact hother hleads

namespace Course

theorem IsDraft.isUntouched (h : s.IsDraft base temp place held) : IsUntouched base temp s.files :=
  h.files ▸ isUntouched_setNewFile hsound hspare hleads held

theorem IsDraft.past_goOn (h : s.IsDraft base temp place held) (files : FileSystem) :
    ∀ fs ∈ (s.goOn files).past, IsUntouched base temp fs := by
  intro fs hfs
  obtain rfl | hpast := List.mem_cons.1 hfs
  · exact h.isUntouched hsound hspare hleads
  · exact h.past fs hpast

/-- A call that writes puts a front part of the bytes behind those that are there, or none. -/
theorem IsDraft.write (h : s.IsDraft base temp place held) (v : Verdicts) (bytes : Bytes) :
    (∃ s' count, s.write v temp bytes = (s', .ok count) ∧
      s'.IsDraft base temp place (held ++ bytes.take count) ∧ (v.AreSteady → count = 0 → bytes = [])) ∨
    ∃ s' e, s.write v temp bytes = (s', .error e) ∧ s'.IsDraft base temp place held ∧ ¬ v.AreSteady := by
  rw [Course.write]
  cases htaken : (v s.past.length (.append temp bytes)).taken bytes with
  | error e =>
    refine .inr ⟨_, e, rfl, ⟨h.files, h.past_goOn hsound hspare hleads s.files⟩, fun hsteady => ?_⟩
    cases hverdict : v s.past.length (.append temp bytes) with
    | fails e => exact (hsteady _ _).1 e hverdict
    | _ => rw [hverdict] at htaken; cases htaken
  | ok taken =>
    obtain ⟨hfront, hnone⟩ : bytes.take taken.length = taken ∧
        (v.AreSteady → taken.length = 0 → bytes = []) := by
      cases hverdict : v s.past.length (.append temp bytes) with
      | fails e => rw [hverdict] at htaken; cases htaken
      | done =>
        rw [hverdict] at htaken
        obtain rfl := Except.ok.inj htaken
        exact ⟨List.take_length, fun _ => List.eq_nil_of_length_eq_zero⟩
      | takes count =>
        rw [hverdict] at htaken
        obtain rfl := Except.ok.inj htaken
        refine ⟨by simp [List.take_eq_take_iff], fun hsteady hzero => ?_⟩
        rw [List.length_eq_zero_iff, List.take_eq_nil_iff] at hzero
        refine hzero.resolve_left ?_
        rintro rfl
        exact (hsteady _ _).2 hverdict
    simp only [h.files, perform_append_temporary hsound hspare hleads held taken]
    refine .inl ⟨_, taken.length, rfl, ⟨?_, h.past_goOn hsound hspare hleads _⟩, hnone⟩
    rw [hfront]
    rfl

/-- However many calls it takes: what has been taken is a front part, and the rest is left. -/
theorem IsDraft.writeAll (h : s.IsDraft base temp place held) (v : Verdicts) (stuck : IoError)
    (bytes : Bytes) : ∃ s' taken left e?, s.writeAll v temp stuck bytes = (s', left, e?) ∧
      taken ++ left = bytes ∧ s'.IsDraft base temp place (held ++ taken) ∧ (e? = none → left = []) ∧
      (v.AreSteady → e? = none) := by
  induction hlength : bytes.length using Nat.strong_induction_on generalizing s held bytes with
  | h n ih =>
  cases bytes with
  | nil =>
    exact ⟨s, [], [], none, by rw [Course.writeAll], rfl, by rwa [List.append_nil], fun _ => rfl,
      fun _ => rfl⟩
  | cons first rest =>
    rw [Course.writeAll]
    obtain ⟨s', count, hwrite, hdraft, hsome⟩ | ⟨s', e, hwrite, hdraft, hunsteady⟩ :=
      h.write hsound hspare hleads v (first :: rest)
    · rw [hwrite]
      cases count with
      | zero =>
        exact ⟨s', [], first :: rest, some stuck, rfl, rfl, hdraft, fun h => absurd h (Option.some_ne_none _),
          fun hsteady => absurd (hsome hsteady rfl) (List.cons_ne_nil _ _)⟩
      | succ count =>
        obtain ⟨s'', taken, left, e?, hon, hparts, hdraft', hends⟩ :=
          ih (rest.drop count).length (by simp at hlength ⊢; omega) hdraft _ rfl
        refine ⟨s'', first :: rest.take count ++ taken, left, e?, hon, ?_, ?_, hends⟩
        · rw [List.append_assoc, hparts, List.cons_append, List.take_append_drop]
        · rwa [List.append_assoc, List.take_succ_cons] at hdraft'
    · rw [hwrite]
      exact ⟨s', [], first :: rest, some e, rfl, rfl, by rwa [List.append_nil],
        fun h => absurd h (Option.some_ne_none _), fun hsteady => absurd hsteady hunsteady⟩

end Course

namespace BufferedFile

/-- The buffer is written as far as the system takes it. -/
theorem HasTaken.flush (h : f.HasTaken base temp place given) (v : Verdicts) :
    ∃ f' e?, f.flush v temp = (f', e?) ∧ f'.HasTaken base temp place given ∧ (e? = none → f'.buffer = []) ∧
      (v.AreSteady → e? = none) := by
  obtain ⟨held, hdraft, hgiven⟩ := h
  obtain ⟨s', taken, left, e?, hwrite, hparts, hdraft', hends⟩ := hdraft.writeAll hsound hspare hleads v
    (.other "failed to write the buffered data") f.buffer
  refine ⟨⟨s', left⟩, e?, by rw [BufferedFile.flush, hwrite], ⟨held ++ taken, hdraft', ?_⟩, hends⟩
  rw [List.append_assoc, hparts, hgiven]

/-- Of bytes that are put in, all come behind what has been put in before, or a front part does. -/
theorem HasTaken.put (h : f.HasTaken base temp place given) (v : Verdicts) (bytes : Bytes) :
    ∃ f' e? part, f.put v temp bytes = (f', e?) ∧ part <+: bytes ∧
      f'.HasTaken base temp place (given ++ part) ∧ (e? = none → part = bytes) ∧
      (v.AreSteady → e? = none) := by
  -- First the buffer is written, or it has room: bytes that would fill it find it empty.
  obtain ⟨f₁, e?, hroom, htaken, hempty, hsteady⟩ : ∃ f₁ e?,
      (if f.room < bytes.length then f.flush v temp else (f, none)) = (f₁, e?) ∧
        f₁.HasTaken base temp place given ∧
        (e? = none → ¬ bytes.length < capacity → f₁.buffer = []) ∧ (v.AreSteady → e? = none) := by
    by_cases hfits : f.room < bytes.length
    · obtain ⟨f₁, e?, hflush, htaken, hempty, hsteady⟩ := h.flush hsound hspare hleads v
      exact ⟨f₁, e?, by rw [if_pos hfits, hflush], htaken, fun hnone _ => hempty hnone, hsteady⟩
    · refine ⟨f, none, if_neg hfits, h, fun _ hlarge => List.eq_nil_of_length_eq_zero ?_, fun _ => rfl⟩
      simp only [room, capacity] at hfits hlarge
      omega
  rw [BufferedFile.put, hroom]
  cases e? with
  | some e => exact ⟨f₁, some e, [], rfl, List.nil_prefix, by rwa [List.append_nil], nofun, hsteady⟩
  | none =>
    obtain ⟨held, hdraft, rfl⟩ := htaken
    by_cases hsmall : bytes.length < capacity
    · exact ⟨_, none, bytes, if_pos hsmall, List.prefix_refl _, ⟨held, hdraft, by rw [List.append_assoc]⟩,
        fun _ => rfl, fun _ => rfl⟩
    · obtain ⟨s', taken, left, e?, hwrite, hparts, hdraft', hleft, hsteady'⟩ :=
        hdraft.writeAll hsound hspare hleads v (.other "failed to write whole buffer") bytes
      simp only [if_neg hsmall, hwrite, hempty rfl hsmall]
      refine ⟨_, e?, taken, rfl, ⟨left, hparts⟩, ⟨held ++ taken, hdraft', ?_⟩, fun hnone => ?_, hsteady'⟩
      · simp
      · rw [← hparts, hleft hnone, List.append_nil]

theorem HasTaken.putAll (h : f.HasTaken base temp place given) (v : Verdicts) (pieces : List Bytes) :
    ∃ f' e? part, ApiSurface.putAll (BufferedFile.put v temp) pieces f = (f', e?) ∧ part <+: pieces.flatten ∧
      f'.HasTaken base temp place (given ++ part) ∧ (e? = none → part = pieces.flatten) ∧
      (v.AreSteady → e? = none) := by
  induction pieces generalizing f given with
  | nil =>
    exact ⟨f, none, [], rfl, List.nil_prefix, by rwa [List.append_nil], fun _ => rfl, fun _ => rfl⟩
  | cons piece rest ih =>
    obtain ⟨f', e?, part, hput, hpart, htaken, hall, hsteady⟩ := h.put hsound hspare hleads v piece
    rw [ApiSurface.putAll, hput]
    cases e? with
    | some e =>
      exact ⟨f', some e, part, rfl, hpart.trans (List.prefix_append _ _), htaken,
        fun h => absurd h (Option.some_ne_none _), hsteady⟩
    | none =>
      obtain rfl := hall rfl
      obtain ⟨f'', e?, more, hrest, hmore, htaken', hall', hsteady'⟩ := ih htaken
      refine ⟨f'', e?, part ++ more, hrest, (List.prefix_append_right_inj part).2 hmore, ?_, fun hnone => ?_,
        hsteady'⟩
      · rwa [← List.append_assoc]
      · rw [hall' hnone, List.flatten_cons]

/-- Closing the file writes no more than what has been put in. -/
theorem HasTaken.close (h : f.HasTaken base temp place given) (v : Verdicts) :
    ∃ part, part <+: given ∧ (f.close v temp).IsDraft base temp place part := by
  obtain ⟨f', e?, hflush, htaken, -⟩ := h.flush hsound hspare hleads v
  obtain ⟨held, hdraft, rfl⟩ := htaken
  exact ⟨held, List.prefix_append _ _, by rwa [BufferedFile.close, hflush]⟩

omit hsound hspare hleads in
theorem HasTaken.isDraft (h : f.HasTaken base temp place given) (hbuffer : f.buffer = []) :
    f.course.IsDraft base temp place given := by
  obtain ⟨held, hdraft, rfl⟩ := h
  rwa [hbuffer, List.append_nil]

/-- All pieces are written to the new file, or a front part of them. -/
theorem hasWritten_writePieces (h : s.IsDraft base temp place []) (v : Verdicts) (pieces : List Bytes) :
    Course.HasWritten base v temp place pieces.flatten (writePieces v temp pieces s) := by
  have hstart : (⟨s, []⟩ : BufferedFile).HasTaken base temp place [] := ⟨[], h, rfl⟩
  obtain ⟨f, e?, given, hput, hgiven, htaken, hall, hsteady⟩ := hstart.putAll hsound hspare hleads v pieces
  rw [List.nil_append] at htaken
  have hclosed : ∀ {f : BufferedFile} {e : IoError}, f.HasTaken base temp place given →
      (v.AreSteady → some e = none) →
      Course.HasWritten base v temp place pieces.flatten (f.close v temp, some e) := by
    intro f e hf hsteady
    obtain ⟨part, hpart, hdraft⟩ := hf.close hsound hspare hleads v
    exact ⟨part, hpart.trans hgiven, hdraft, nofun, hsteady⟩
  rw [writePieces, hput]
  cases e? with
  | some e => exact hclosed htaken hsteady
  | none =>
    obtain ⟨f₁, e?, hflush, htaken₁, -, hsteady₁⟩ := htaken.flush hsound hspare hleads v
    simp only [hflush]
    cases e? with
    | some e => exact hclosed htaken₁ hsteady₁
    | none =>
      obtain ⟨f₂, e?, hflush', htaken₂, hempty, hsteady₂⟩ := htaken₁.flush hsound hspare hleads v
      simp only [hflush']
      cases e? with
      | some e => exact hclosed htaken₂ hsteady₂
      | none =>
        exact ⟨given, hgiven, htaken₂.isDraft (hempty rfl), fun _ => hall rfl, fun _ => rfl⟩

end BufferedFile

end Writing

/-! ## The steps of a replacement -/

/-- Failures of the system, one for each kind of step. Of the bytes that are to be written so many are
taken before. -/
structure Faults where
  create : Option IoError
  append : Option (Nat × IoError)
  sync : Option IoError
  move : Option IoError
  remove : Option IoError

/-- Does what a step says, unless the system fails. -/
def FileSystem.performUnless (fault? : Option IoError) (step : WriteStep) (fs : FileSystem) :
    FileSystem × Option IoError :=
  match fault? with
  | some e => (fs, some e)
  | none => fs.perform step

/-- A device with these failures. -/
def Faults.device (faults : Faults) : WriteDevice := fun fs step =>
  match step with
  | .create _ => fs.performUnless faults.create step
  | .append path bytes =>
    match faults.append with
    | some (count, e) => ((fs.perform (.append path (bytes.take count))).1, some e)
    | none => fs.perform step
  | .sync _ => fs.performUnless faults.sync step
  | .move _ _ => fs.performUnless faults.move step
  | .remove _ => fs.performUnless faults.remove step

theorem mayGive_performUnless (fault? : Option IoError) (step : WriteStep) (fs : FileSystem) :
    step.MayGive fs (fs.performUnless fault? step) := by
  cases fault? with
  | some e => exact .failed e
  | none => exact .performed

theorem Faults.mayGive (faults : Faults) (fs : FileSystem) (step : WriteStep) :
    step.MayGive fs (faults.device fs step) := by
  cases step with
  | append path bytes =>
    rw [Faults.device]
    cases faults.append with
    | none => exact .performed
    | some fault => exact .inPart rfl (List.take_prefix _ _) fault.2
  | _ => exact mayGive_performUnless _ _ fs

/-- No failures. -/
def Faults.none : Faults := ⟨.none, .none, .none, .none, .none⟩

theorem Faults.device_none : Faults.none.device = FileSystem.perform := by
  funext fs step
  cases step <;> rfl

theorem isFaithful_perform : WriteDevice.IsFaithful FileSystem.perform where
  step _ _ := .performed
  remove _ _ := rfl

/-- The failure of a call, as far as it is one of the system. -/
def Course.fault? (v : Verdicts) (step : WriteStep) (s : Course) : Option IoError :=
  match v s.past.length step with
  | .fails e => some e
  | _ => none

theorem Course.fault?_of_steady {v : Verdicts} (h : v.AreSteady) (step : WriteStep) (s : Course) :
    s.fault? v step = none := by
  rw [Course.fault?]
  split
  · next e hfails => exact absurd hfails ((h _ _).1 e)
  · rfl

theorem Course.call_eq (v : Verdicts) (step : WriteStep) (s : Course) : s.call v step =
    (s.goOn (s.files.performUnless (s.fault? v step) step).1,
      (s.files.performUnless (s.fault? v step) step).2) := by
  rw [Course.call, Course.fault?]
  cases v s.past.length step <;> rfl

/-! ## The report -/

/-- What has become of the files when a report has been put in place, or has not. -/
inductive Attempted (base : FileSystem) (temp path : Path) (content : Bytes) :
    Course × Option IoError → Prop
  | notMade {s : Course} {e : IoError} (hfiles : s.files = base)
      (hpast : ∀ fs ∈ s.past, IsUntouched base temp fs) : Attempted base temp path content (s, some e)
  | notMoved {s : Course} {e : IoError} {place : Location} {part : Bytes}
      (hleads : base.LeadsTo temp place) (hdraft : s.IsDraft base temp place part) :
      Attempted base temp path content (s, some e)
  | done {s : Course} (hplace : IsInPlace base path content s.files)
      (hpast : ∀ fs ∈ s.past, IsUntouched base temp fs) : Attempted base temp path content (s, none)

/-- The calls come to what the steps of a replacement come to, on a device with some failures. It has none
if the system has none. -/
def RunsLike (base : FileSystem) (v : Verdicts) (temp path : Path) (content : Bytes)
    (result : Course × Option IoError) : Prop :=
  ∃ faults : Faults, (v.AreSteady → faults = .none) ∧
    ∀ remove, (Faults.device { faults with remove }).run
      [.create temp, .append temp content, .sync temp, .move temp path] base =
        (result.1.files, result.2)

section Attempt

variable {base : FileSystem} {temp path : Path} {place : Location} {content : Bytes}
  {s : Course} {v : Verdicts}

variable (hsound : base.isSound) (hspare : IsSpare (fun _ => False) base temp path)
include hsound hspare

/-- The finished file takes the name of the report. -/
theorem move_cases (hleads : base.LeadsTo temp place) (hdraft : s.IsDraft base temp place content)
    (v : Verdicts) : Attempted base temp path content (s.call v (.move temp path)) := by
  have hpast := hdraft.past_goOn hsound hspare hleads
  rw [Course.call_eq]
  cases s.fault? v (.move temp path) with
  | some e => exact .notMoved hleads ⟨hdraft.files, hpast s.files⟩
  | none =>
    have hdrafted := drafted_setNewFile hsound hspare hleads content
    rw [← hdraft.files] at hdrafted
    obtain ⟨e, hfailed⟩ | ⟨fs', hmoved, hreplaced⟩ :=
      hdrafted.move (.refl hsound) hspare isFaithful_perform
    · simp only [FileSystem.performUnless, hfailed]
      exact .notMoved hleads ⟨hdraft.files, hpast s.files⟩
    · simp only [FileSystem.performUnless, hmoved]
      cases hreplaced with
      | @done _ goal hgoal hno hfilled hkeeps hholds =>
        have hhot : (fun l => False ∨ l = goal) = base.LeadsTo path := by
          funext l
          simp only [false_or, eq_iff_iff]
          exact ⟨fun heq => heq ▸ hgoal, fun hl => hl.unique hgoal⟩
        exact .done ⟨hhot ▸ hfilled, hholds⟩ (hpast fs')

/-- The whole content is in the new file, which is made safe and takes the name of the report. -/
theorem written_cases (hleads : base.LeadsTo temp place) (hdraft : s.IsDraft base temp place content)
    (v : Verdicts) :
    let result := match s.call v (.sync temp) with
      | (s, some e) => (s, some e)
      | (s, none) => s.call v (.move temp path)
    Attempted base temp path content result ∧ RunsLike base v temp path content result := by
  have hcreate := perform_create_temporary hsound hspare hleads
  have happend : (base.setNewFile place (Bytes.toByteArray [])).perform (.append temp content) =
      (s.files, none) := by
    rw [hdraft.files]
    exact perform_append_temporary hsound hspare hleads [] content
  have hsync : s.files.perform (.sync temp) = (s.files, none) := rfl
  have hsynced : (s.goOn s.files).IsDraft base temp place content :=
    ⟨hdraft.files, hdraft.past_goOn hsound hspare hleads _⟩
  simp only [Course.call_eq _ (.sync temp)]
  cases hfault : s.fault? v (.sync temp) with
  | some e =>
    refine ⟨.notMoved hleads hsynced, ⟨none, none, some e, none, none⟩, fun h => ?_, fun _ => ?_⟩
    · rw [Course.fault?_of_steady h] at hfault
      cases hfault
    · simp only [WriteDevice.run, Faults.device, FileSystem.performUnless, hcreate, happend]
      rfl
  | none =>
    simp only [FileSystem.performUnless, hsync]
    refine ⟨move_cases hsound hspare hleads hsynced v,
      ⟨none, none, none, (s.goOn s.files).fault? v (.move temp path), none⟩, fun h => ?_, fun _ => ?_⟩
    · rw [Course.fault?_of_steady h]
      rfl
    · simp only [WriteDevice.run, Faults.device, FileSystem.performUnless, hcreate, happend, hsync,
        Course.call_eq]
      cases (s.goOn s.files).fault? v (.move temp path) with
      | some e => rfl
      | none =>
        cases hmove : s.files.perform (.move temp path) with
        | mk fs e? => cases e? <;> simp [Course.goOn, hmove]

/-- Nothing is moved before all has been written, and then all of it is. -/
theorem putInPlace_cases (v : Verdicts) (r : Report) :
    Attempted base temp path (Bytes.ofText r.text) (r.putInPlace v temp path ⟨base, []⟩) ∧
      RunsLike base v temp path (Bytes.ofText r.text) (r.putInPlace v temp path ⟨base, []⟩) := by
  have hpast : ∀ files, ∀ fs ∈ (Course.goOn files ⟨base, []⟩).past, IsUntouched base temp fs := by
    intro files fs hfs
    rw [List.mem_singleton.1 hfs]
    exact isUntouched_refl base temp
  rw [Report.putInPlace, Course.call_eq]
  cases hfault : Course.fault? v (.create temp) ⟨base, []⟩ with
  | some e =>
    refine ⟨.notMade rfl (hpast base), ⟨some e, none, none, none, none⟩, fun hsteady => ?_, fun _ => rfl⟩
    rw [Course.fault?_of_steady hsteady] at hfault
    cases hfault
  | none =>
  cases hlocate : base.locate false temp with
  | error e =>
    have hcreate : base.perform (.create temp) = (base, some e) := by
      rw [perform, createFile_of_error hlocate]
      rfl
    simp only [FileSystem.performUnless, hcreate]
    refine ⟨.notMade rfl (hpast base), .none, fun _ => rfl, fun _ => ?_⟩
    simp only [WriteDevice.run, Faults.device, Faults.none, FileSystem.performUnless, hcreate]
    rfl
  | ok t =>
    have hleads : base.LeadsTo temp t.place := ⟨t, hlocate, rfl⟩
    have hcreate := perform_create_temporary hsound hspare hleads
    have happend : ∀ bytes, (base.setNewFile t.place (Bytes.toByteArray [])).perform
        (.append temp bytes) = (base.setNewFile t.place bytes.toByteArray, none) :=
      perform_append_temporary hsound hspare hleads []
    have hdraft : (Course.goOn (base.setNewFile t.place (Bytes.toByteArray [])) ⟨base, []⟩).IsDraft
        base temp t.place [] := ⟨rfl, hpast _⟩
    obtain ⟨part, hpart, hwritten, hall, hsteady⟩ :=
      BufferedFile.hasWritten_writePieces hsound hspare hleads hdraft v r.chunks
    rw [← Report.ofText_text] at hpart hall
    simp only [FileSystem.performUnless, hcreate]
    cases hpieces : BufferedFile.writePieces v temp r.chunks
      (Course.goOn (base.setNewFile t.place (Bytes.toByteArray [])) ⟨base, []⟩) with
    | mk s e? =>
    rw [hpieces] at hwritten hall hsteady
    cases e? with
    | some e =>
      refine ⟨.notMoved hleads hwritten, ⟨none, some (part.length, e), none, none, none⟩,
        fun h => ?_, fun _ => ?_⟩
      · cases hsteady h
      have htake : (Bytes.ofText r.text).take part.length = part :=
        (List.prefix_iff_eq_take.1 hpart).symm
      simp only [WriteDevice.run, Faults.device, FileSystem.performUnless, hcreate, htake, happend]
      rw [hwritten.files]
    | none =>
      obtain rfl := hall rfl
      exact written_cases hsound hspare hleads hwritten v

/-- Whatever there is of the temporary file is taken away, unless that fails. -/
theorem Attempted.remove {e : IoError} (h : Attempted base temp path content (s, some e)) (v : Verdicts) :
    IsUntouched base temp (s.call v (.remove temp)).1.files ∧
      (∀ fs ∈ (s.call v (.remove temp)).1.past, IsUntouched base temp fs) ∧
      (s.fault? v (.remove temp) = none → FilledAt (fun _ => False) base (s.call v (.remove temp)).1.files) := by
  have hbase : FilledAt (fun _ => False) base base := .refl hsound
  have hfilled : ∀ {fs : FileSystem}, FilledAt (fun _ => False) base fs → IsUntouched base temp fs :=
    fun hfs place _ => hfs.keeps_start id
  -- Before the call nothing else has been touched, and the call leaves things so or takes the file away.
  obtain ⟨hnow, hpast, hremoved⟩ : IsUntouched base temp s.files ∧
      (∀ fs ∈ s.past, IsUntouched base temp fs) ∧
      FilledAt (fun _ => False) base (s.files.perform (.remove temp)).1 := by
    cases h with
    | notMade hfiles hpast =>
      rw [hfiles, remove_nothing hbase hspare isFaithful_perform]
      exact ⟨isUntouched_refl base temp, hpast, hbase⟩
    | @notMoved _ _ place part hleads hdraft =>
      have hdrafted := drafted_setNewFile hsound hspare hleads part
      rw [← hdraft.files] at hdrafted
      exact ⟨hdraft.isUntouched hsound hspare hleads, hdraft.past,
        (hdrafted.remove hbase hspare isFaithful_perform).1⟩
  rw [Course.call_eq]
  refine ⟨?_, List.forall_mem_cons.2 ⟨hnow, hpast⟩, fun hnone => ?_⟩
  · cases s.fault? v (.remove temp) with
    | some e => exact hnow
    | none => exact hfilled hremoved
  · rw [hnone]
    exact hremoved

end Attempt

/-- What saving a report does, however the system answers. -/
structure IsAllOrNothing (base : FileSystem) (v : Verdicts) (token : String) (path : Path)
    (content : Bytes) (s : Course) (result : Except ScanError Unit) : Prop where
  /-- The calls come to a replacement on a device that fails only where the system does. -/
  replaces : ∃ (device : WriteDevice) (cause? : Option IoError),
    (∀ fs step, WriteStep.MayGive fs step (device fs step)) ∧
      (v.AreSteady → device = FileSystem.perform) ∧
      replaceFile device token path content base = (s.files, cause?) ∧
      result = match cause? with
        | none => .ok ()
        | some cause => .error (.write path.shown cause)
  /-- The temporary file stands elsewhere. -/
  apart : ∀ place, base.LeadsTo (temporary token path) place → ¬ base.LeadsTo path place
  /-- Before each call the report was as it had been. -/
  before : ∀ fs ∈ s.past, IsUntouched base (temporary token path) fs
  /-- The place to which the path led has the whole content. -/
  saved : result = .ok () → Holds base s.files path content ∧
    ∀ place, ¬ base.LeadsTo path place → Keeps base s.files place
  /-- So has the path, unless the report has taken the place of a link on the way along it. -/
  read : result = .ok () → (∀ bytes, s.files.readFile path = .ok bytes → bytes = content) ∧
    ((∀ place ∈ base.way false path, ¬ base.LeadsTo path place) → s.files.readFile path = .ok content)
  failed : result ≠ .ok () → IsUntouched base (temporary token path) s.files
  /-- If the temporary file can be taken away, it is gone, and after a failure all is as it was. -/
  gone : (∀ i cause, v i (.remove (temporary token path)) ≠ .fails cause) →
    (∀ place, base.LeadsTo (temporary token path) place → s.files.get? place = none) ∧
      (result ≠ .ok () → (∀ place, Keeps base s.files place) ∧
        ∀ other, s.files.readFile other = base.readFile other)

namespace Report

/-- **Saving a report gives its path the whole text or changes nothing**, whichever calls the system
fails, and after however many bytes. -/
theorem isAllOrNothing_saveTo {base : FileSystem} {token : String} (hsound : base.isSound)
    (hfresh : Batch.IsFresh base token) (v : Verdicts) (path : Path) (r : Report) :
    IsAllOrNothing base v token path (Bytes.ofText r.text) (r.saveTo v token path base).1
      (r.saveTo v token path base).2 := by
  have hspare := isSpare_temporary hfresh hsound path
  obtain ⟨hattempted, faults, hsteady, hruns⟩ := putInPlace_cases hsound hspare v r
  rw [saveTo]
  cases hresult : r.putInPlace v (temporary token path) path ⟨base, []⟩ with
  | mk s e? =>
  rw [hresult] at hattempted hruns
  cases e? with
  | none =>
    obtain ⟨hplace, hpast⟩ : IsInPlace base path (Bytes.ofText r.text) s.files ∧
        ∀ fs ∈ s.past, IsUntouched base (temporary token path) fs := by
      cases hattempted with
      | done hplace hpast => exact ⟨hplace, hpast⟩
    refine ⟨⟨_, none, Faults.mayGive { faults with remove := none }, fun h => ?_, ?_, rfl⟩, hspare.apart, hpast,
      fun _ => ⟨hplace.holds, hplace.keeps⟩, fun _ => hplace.readFile, fun hne => absurd rfl hne,
      fun _ => ⟨fun place htemp => ?_, fun hne => absurd rfl hne⟩⟩
    · rw [hsteady h]
      exact Faults.device_none
    · rw [replaceFile, steps, hruns none]
    · exact (hplace.keeps place (hspare.apart place htemp)).get?_none (hspare.new place htemp)
  | some e =>
    obtain ⟨hnow, hpast, hremoved⟩ := hattempted.remove hsound hspare v
    have hfailed : (Except.error (ScanError.write path.shown e) : Except ScanError Unit) ≠ .ok () := by
      intro h
      cases h
    refine ⟨⟨_, some e, Faults.mayGive { faults with remove := s.fault? v (.remove (temporary token path)) },
      fun h => ?_, ?_, rfl⟩, hspare.apart, hpast, fun h => absurd h hfailed, fun h => absurd h hfailed,
      fun _ => hnow, fun hremove => ?_⟩
    · rw [hsteady h, Course.fault?_of_steady h]
      exact Faults.device_none
    · rw [replaceFile, steps, hruns]
      dsimp only
      rw [Course.call_eq]
      rfl
    · have hfault : s.fault? v (.remove (temporary token path)) = none := by
        rw [Course.fault?]
        split
        · next cause hfails => exact absurd hfails (hremove _ cause)
        · rfl
      have hfilled := hremoved hfault
      have hkeeps : ∀ place, Keeps base _ place := fun place => hfilled.keeps_start id
      refine ⟨fun place htemp => (hkeeps place).get?_none (hspare.new place htemp), fun _ => ⟨hkeeps, ?_⟩⟩
      exact readFile_congr (isSound_iff.1 hsound).2 hfilled.current fun place =>
        (Keeps.refl base place).sameAt (hkeeps place)

/-- A folder with the report of another day. -/
def heldFiles : FileSystem where
  root := .folder [("out.txt", .file 0)]
  current := []
  contents := #[(Bytes.ofText "old").toByteArray]

def heldReport : Report := ⟨"a.jar", [⟨.type, "class A"⟩]⟩

/-- A disk that takes two bytes of the report and is full then. -/
def fullDisk : Verdicts := fun i step =>
  match step with
  | .append _ _ => if i = 1 then .takes 2 else .fails (.other "no space left")
  | _ => .done

theorem saveTo_fullDisk : heldFiles.isSound ∧ Batch.IsFresh heldFiles "7" ∧
    (heldReport.saveTo fullDisk "7" ⟨"out.txt"⟩ heldFiles).2 =
      .error (.write "out.txt" (.other "no space left")) ∧
    (heldReport.saveTo fullDisk "7" ⟨"out.txt"⟩ heldFiles).1.files.readFile ⟨"out.txt"⟩ =
      .ok (Bytes.ofText "old") := by
  have hsound : heldFiles.isSound := by decide
  have hfresh : Batch.IsFresh heldFiles "7" := ⟨by decide, by decide⟩
  have hresult : (heldReport.saveTo fullDisk "7" ⟨"out.txt"⟩ heldFiles).2 =
      .error (.write "out.txt" (.other "no space left")) := by decide +kernel
  have hold : heldFiles.readFile ⟨"out.txt"⟩ = .ok (Bytes.ofText "old") := by decide +kernel
  have hall := isAllOrNothing_saveTo hsound hfresh fullDisk ⟨"out.txt"⟩ heldReport
  have hremove : ∀ i cause, fullDisk i (.remove (temporary "7" ⟨"out.txt"⟩)) ≠ .fails cause := nofun
  refine ⟨hsound, hfresh, hresult, ?_⟩
  rw [((hall.gone hremove).2 (by rw [hresult]; nofun)).2, hold]

/-- A folder with a link in it that leads back to the folder and has the name of a report. -/
def loopFiles : FileSystem where
  root := .folder [("d", .folder [("loop.txt", .link ".")])]
  current := []
  contents := #[]

/-- The path of a report may lead nowhere once the report has been saved: here it takes the place of the
link on the way to it. -/
theorem not_readFile_saveTo : ¬ ∀ (base : FileSystem) (token : String) (v : Verdicts) (path : Path)
    (r : Report), base.isSound → Batch.IsFresh base token → (r.saveTo v token path base).2 = .ok () →
      (r.saveTo v token path base).1.files.readFile path = .ok (Bytes.ofText r.text) := by
  intro h
  have hread := h loopFiles "7" (fun _ _ => .done) ⟨"d/loop.txt/loop.txt"⟩ heldReport (by decide)
    ⟨by decide, by decide⟩ (by decide +kernel)
  have hlost : (heldReport.saveTo (fun _ _ => .done) "7" ⟨"d/loop.txt/loop.txt"⟩
      loopFiles).1.files.readFile ⟨"d/loop.txt/loop.txt"⟩ = .error (.os .notFolder) := by decide +kernel
  rw [hlost] at hread
  cases hread

end Report

end ApiSurface
