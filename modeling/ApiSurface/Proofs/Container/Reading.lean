import ApiSurface.Container.Inlet
import ApiSurface.Proofs.Archive.Unpacking
import ApiSurface.Proofs.Container.Visits

/-!
What is read of an entry: all of it, or nothing.

The length that is stated of an entry is looked at first. Whatever it says, no more is read than what shows
that the content is too long, and a content that is not is read to its end.
-/

namespace ApiSurface

namespace Inlet

variable {σ : Type} {i : Inlet σ} {left : σ → Bytes}

/-- The bytes come in order, in `s` those of `left s`. With a call some of them come, as long as there are
any. -/
def Yields (i : Inlet σ) (left : σ → Bytes) : Prop :=
  ∀ s space, 0 < space → ∃ s' part, i.draw s space = (s', .ok part) ∧ left s = part ++ left s' ∧
    part.length ≤ space ∧ (part = [] → left s = [])

/-- As many bytes come as are asked for, in however many calls. -/
theorem Yields.drawUpTo (h : i.Yields left) (limit : Nat) (s : σ) :
    ∃ s', i.drawUpTo limit s = (s', .ok ((left s).take limit)) ∧ left s = (left s).take limit ++ left s' := by
  induction limit using Nat.strongRecOn generalizing s with
  | ind limit ih =>
  cases limit with
  | zero => exact ⟨s, by simp [Inlet.drawUpTo], by simp⟩
  | succ limit =>
    obtain ⟨s', part, hdraw, hleft, hlen, hend⟩ := h s (limit + 1) (Nat.succ_pos limit)
    rw [Inlet.drawUpTo, hdraw]
    cases part with
    | nil => exact ⟨s', by simp [hend rfl], by simpa [hend rfl] using hleft⟩
    | cons first more =>
      rw [List.length_cons] at hlen
      obtain ⟨s'', hrest, hleft'⟩ := ih (limit - more.length) (by omega) s'
      have htake : (left s).take (limit + 1) = first :: more ++ (left s').take (limit - more.length) := by
        rw [hleft, List.take_append, List.take_of_length_le (by rw [List.length_cons]; omega),
          List.length_cons, Nat.add_sub_add_right]
      refine ⟨s'', ?_, ?_⟩
      · dsimp only
        rw [hrest, htake]
      · rw [htake, List.append_assoc, ← hleft', hleft]

end Inlet

namespace Container

variable {fs : FileSystem} {name : String} {size : Nat} {content : Bytes} {container : Container}

/-- The container has an entry of that name. Its length is stated as `size`, and what is in it is
`content`: of a file below a folder what it holds, of an entry of an archive what comes of it when all of
it is unpacked. -/
inductive Holds (fs : FileSystem) (name : String) (size : Nat) (content : Bytes) : Container → Prop
  | archived {path : Path} {id : FileId} {a : Archive} {e visited : Archive.Entry} {cap : Nat}
      (found : a.find? name = some e) (stated : e.size = size)
      (visit : e.visit (fs.content id) = (visited, none))
      (unpacked : visited.content (fs.content id) cap = .ok content) (whole : content.length < cap) :
      Holds fs name size content (.archive path id a)
  | inFolder {path : Path} {id : FileId} (found : fs.stat (path.join ⟨name⟩) = .ok (.file id))
      (stated : size = content.length) (held : Bytes.ofByteArray (fs.content id) = content) :
      Holds fs name size content (.folder path)

theorem size_of_visit {data : ByteArray} {e visited : Archive.Entry} (h : e.visit data = (visited, none)) :
    visited.size = e.size := by
  have hvisit := Archive.Entry.isVisitOf_visit data e
  rw [h] at hvisit
  obtain rfl | ⟨place, -, -, rfl⟩ := hvisit <;> rfl

/-- Looking at one byte more than may be read tells whether there are more than may be read. -/
theorem within_take (location : String) (max : Nat) (content : Bytes) :
    within location max (content.take (max + 1)) =
      if max < content.length then .error (.fileTooBig location (max + 1) max) else .ok content := by
  rw [within, List.length_take]
  by_cases hlong : max < content.length
  · rw [if_pos (by omega), if_pos hlong, Nat.min_eq_left hlong]
  · rw [if_neg (by omega), if_neg hlong, List.take_of_length_le (by omega)]

/-- What reading gives, by the two lengths. -/
theorem Holds.read_eq (h : container.Holds fs name size content) (max : Nat) :
    (container.read fs name max).1 =
      if max < size then .error (.fileTooBig (location container.path name) size max)
      else if max < content.length then
        .error (.fileTooBig (location container.path name) (max + 1) max)
      else .ok content := by
  cases h with
  | @archived path id a e visited cap hfound hstated hvisit hunpacked hwhole =>
    rw [read, readArchived, hfound]
    simp only [hvisit, readVisited, size_of_visit hvisit, hstated, Container.path]
    rw [Archive.Entry.content_take hunpacked hwhole]
    by_cases hbig : max < size
    · rw [if_pos hbig, if_pos hbig]
      rfl
    · rw [if_neg hbig, if_neg hbig]
      exact within_take _ max content
  | @inFolder path id hfound hstated hheld =>
    have hsize : fs.sizeOf (.file id) = content.length := by
      rw [← hheld]
      rfl
    rw [read, readUnpacked, hfound, hstated]
    simp only [Except.mapError, bind, Except.bind, hsize, FileSystem.contentOf, hheld, Container.path]
    by_cases hbig : max < content.length
    · rw [if_pos hbig, if_pos hbig]
      rfl
    · rw [if_neg hbig, if_neg hbig, if_neg hbig, within, if_neg hbig]

end Container

namespace Inlet

/-- A cap that all bytes can be counted with is as good as one that is not limited. -/
theorem take_capFor {max : Nat} {content : Bytes}
    (h : max + 1 < countBound ∨ content.length < countBound) :
    content.take (capFor max) = content.take (max + 1) := by
  rw [capFor]
  obtain hcap | hcount := h
  · rw [Nat.min_eq_left (by omega)]
  · rw [List.take_eq_take_iff]
    omega

end Inlet

/-- An entry is read to its end or it is refused, and it is refused exactly if the length that is stated of
it or the one that it has is more than `max`. The message has the length that is stated if that is too much,
and otherwise one byte more than there may be.

Bytes that come call by call make no difference, and of those of an entry `max + 1` are taken at most. -/
theorem Container.read_whole_or_refused {fs : FileSystem} {name : String} {size : Nat} {content : Bytes}
    {container : Container} (h : container.Holds fs name size content) (max : Nat) :
    (∀ bytes, (container.read fs name max).1 = .ok bytes ↔
      size ≤ max ∧ content.length ≤ max ∧ bytes = content) ∧
    (max < size →
      (container.read fs name max).1 = .error (.fileTooBig (location container.path name) size max)) ∧
    (size ≤ max → max < content.length →
      (container.read fs name max).1 = .error (.fileTooBig (location container.path name) (max + 1) max)) ∧
    ∀ {σ : Type} (i : Inlet σ) (left : σ → Bytes), i.Yields left → ∀ s, left s = content →
      (max + 1 < countBound ∨ content.length < countBound) →
      ∃ s' taken, i.readWithin (location container.path name) size max s =
          (s', (container.read fs name max).1) ∧
        content = taken ++ left s' ∧ taken.length ≤ max + 1 := by
  rw [h.read_eq]
  refine ⟨fun bytes => ?_, fun hbig => if_pos hbig, fun hstated hlong => ?_, ?_⟩
  · by_cases hbig : max < size
    · rw [if_pos hbig]
      exact ⟨nofun, fun hok => absurd hok.1 (Nat.not_le.2 hbig)⟩
    · by_cases hlong : max < content.length
      · rw [if_neg hbig, if_pos hlong]
        exact ⟨nofun, fun hok => absurd hok.2.1 (Nat.not_le.2 hlong)⟩
      · rw [if_neg hbig, if_neg hlong, Except.ok.injEq]
        exact ⟨fun heq => ⟨Nat.le_of_not_lt hbig, Nat.le_of_not_lt hlong, heq.symm⟩, fun hok => hok.2.2.symm⟩
  · rw [if_neg (Nat.not_lt.2 hstated), if_pos hlong]
  · rintro σ i left hyields s rfl hcount
    rw [Inlet.readWithin]
    by_cases hbig : max < size
    · rw [if_pos hbig, if_pos hbig]
      exact ⟨s, [], rfl, rfl, Nat.zero_le _⟩
    · obtain ⟨s', hdraw, hleft⟩ := hyields.drawUpTo (Inlet.capFor max) s
      rw [Inlet.take_capFor hcount] at hdraw hleft
      rw [if_neg hbig, if_neg hbig, hdraw]
      refine ⟨s', (left s).take (max + 1), ?_, hleft, List.length_take_le _ _⟩
      dsimp only
      rw [within_take]

namespace Inlet

/-- Bytes that come one by one. -/
def single : Inlet Bytes where
  draw s _ := (s.drop 1, .ok (s.take 1))

theorem yields_single : single.Yields id := by
  intro s space hspace
  refine ⟨s.drop 1, s.take 1, rfl, (List.take_append_drop 1 s).symm, ?_, fun hend => ?_⟩
  · exact Nat.le_trans (List.length_take_le 1 s) hspace
  · simpa using hend

end Inlet

namespace Container

/-- A file that has three bytes in a block of its own: the mark of the last block, the length twice and the
bytes. -/
def understatedFiles : FileSystem where
  root := .folder [("a.jar", .file 0)]
  current := []
  contents := #[Bytes.toByteArray [1, 3, 0, 252, 255, 0xCA, 0xFE, 0xBA]]

/-- An entry with a length of one byte, going by the directory. -/
def understated : Container :=
  .archive ⟨"a.jar"⟩ 0 ⟨[{
    name := "A.class"
    isFile := true
    isEncrypted := false
    packing := .deflated
    size := 1
    packedSize := 8
    checksum := Crc32.ofBytes [0xCA, 0xFE, 0xBA]
    start := 0
    contentStart := some 0 }]⟩

/-- Two bytes may be read of three, or all of them. -/
theorem read_whole_or_refused_understated :
    understated.Holds understatedFiles "A.class" 1 [0xCA, 0xFE, 0xBA] ∧
      (understated.read understatedFiles "A.class" 2).1 = .error (.fileTooBig "a.jar!A.class" 3 2) ∧
      (understated.read understatedFiles "A.class" 3).1 = .ok [0xCA, 0xFE, 0xBA] ∧
      ∃ left, Inlet.single.readWithin "a.jar!A.class" 1 3 [0xCA, 0xFE, 0xBA] = (left, .ok [0xCA, 0xFE, 0xBA]) := by
  have h : understated.Holds understatedFiles "A.class" 1 [0xCA, 0xFE, 0xBA] :=
    .archived rfl rfl rfl (show Archive.Entry.content _ 4 _ = _ by decide +kernel) (by decide)
  have hread := ((read_whole_or_refused h 3).1 _).2 ⟨by decide, by decide, rfl⟩
  obtain ⟨left, taken, hsingle, -⟩ :=
    (read_whole_or_refused h 3).2.2.2 Inlet.single id Inlet.yields_single _ rfl (.inl (by decide))
  rw [hread] at hsingle
  exact ⟨h, (read_whole_or_refused h 2).2.2.1 (by decide) (by decide), hread, left, hsingle⟩

end Container

end ApiSurface
