import ApiSurface.Archive.Basic
import Mathlib.Data.List.Basic

/-!
How much of an entry is unpacked makes no difference to what is unpacked.

With a cap, unpacking goes the same way as without one, only not to the end: what has been unpacked by then
is the beginning of all that there is.
-/

namespace ApiSurface

namespace Bytes

theorem length_ofByteArray (data : ByteArray) : (ofByteArray data).length = data.size :=
  Array.length_toList

theorem size_le_of_prefix {data data' : ByteArray} (h : ofByteArray data <+: ofByteArray data') :
    data.size ≤ data'.size := by
  have hle := h.length_le
  rwa [length_ofByteArray, length_ofByteArray] at hle

end Bytes

namespace Deflate

/-! ## Growth -/

namespace Progress

variable {s t u : Progress} {data : ByteArray}

/-- No more has been handed over than has been unpacked. -/
def IsSound (s : Progress) : Prop :=
  s.handed ≤ s.out.size

/-- What has been unpacked in `s` is the beginning of what has been in `t`. -/
structure LeadsTo (s t : Progress) : Prop where
  out : Bytes.ofByteArray s.out <+: Bytes.ofByteArray t.out
  isSound : s.IsSound → t.IsSound

theorem LeadsTo.refl (s : Progress) : s.LeadsTo s :=
  ⟨List.prefix_rfl, id⟩

theorem LeadsTo.trans (h : s.LeadsTo t) (h' : t.LeadsTo u) : s.LeadsTo u :=
  ⟨h.out.trans h'.out, h'.isSound ∘ h.isSound⟩

theorem LeadsTo.size_le (h : s.LeadsTo t) : s.out.size ≤ t.out.size :=
  Bytes.size_le_of_prefix h.out

/-- Adding to the output is a step forward. -/
theorem leadsTo_append {out : ByteArray} (h : Bytes.ofByteArray s.out <+: Bytes.ofByteArray out) :
    s.LeadsTo { s with out := out } :=
  ⟨h, fun hsound => Nat.le_trans hsound (Bytes.size_le_of_prefix h)⟩

theorem prefix_push (out : ByteArray) (b : UInt8) :
    Bytes.ofByteArray out <+: Bytes.ofByteArray (out.push b) := by
  simp [Bytes.ofByteArray]

theorem prefix_copyBack (distance n : Nat) (out : ByteArray) :
    Bytes.ofByteArray out <+: Bytes.ofByteArray (copyBack distance n out) := by
  induction n generalizing out with
  | zero => exact List.prefix_rfl
  | succ n ih => exact (prefix_push out _).trans (ih _)

theorem leadsTo_moveTo (s : Progress) (place : Nat) : s.LeadsTo (s.moveTo place) := by
  refine ⟨List.prefix_rfl, fun hsound => ?_⟩
  rw [IsSound, moveTo]
  split
  · exact Nat.le_refl _
  · exact hsound

theorem leadsTo_takePlain (s : Progress) {start stop : Nat} (hstop : stop ≤ data.size) :
    s.LeadsTo (s.takePlain data start stop) := by
  have hout : Bytes.ofByteArray s.out <+: Bytes.ofByteArray (s.out ++ data.extract start stop) := by
    simp [Bytes.ofByteArray]
  refine ⟨hout, fun hsound => ?_⟩
  rw [IsSound, takePlain]
  simp only [ByteArray.size_append, ByteArray.size_extract, Nat.min_eq_left hstop]
  split
  · -- The last chunk begins in front of the place where the plain bytes end.
    have hchunk : (chunksBefore (8 * stop) - 1) * chunkSize ≤ stop := by
      rw [chunksBefore, chunkSize]
      omega
    omega
  · exact Nat.le_trans hsound (Nat.le_add_right _ _)

theorem IsSound.settled_le (h : s.IsSound) : s.settled ≤ s.out.size := by
  have hwindow := Nat.div_mul_le_self (s.out.size - 1) windowSize
  rw [IsSound] at h
  rw [settled]
  omega

end Progress

open Progress

theorem leadsTo_unpackItems (data : ByteArray) (codes : BlockCodes) (cap steps : Nat) (s : Progress) :
    s.LeadsTo (unpackItems data codes cap steps s).1 := by
  induction steps generalizing s with
  | zero => exact .refl s
  | succ steps ih =>
    rw [unpackItems]
    split
    · exact .refl s
    · cases codes.readItem data s.place with
      | error ending place => exact leadsTo_moveTo s place
      | ok item place =>
        have hmoved := leadsTo_moveTo s place
        cases item with
        | blockEnd => exact hmoved
        | literal b => exact hmoved.trans ((leadsTo_append (prefix_push _ b)).trans (ih _))
        | reference length distance =>
          exact hmoved.trans ((leadsTo_append (prefix_copyBack distance length _)).trans (ih _))

theorem leadsTo_unpackBlock (data : ByteArray) (kind cap : Nat) (s : Progress) :
    s.LeadsTo (unpackBlock data kind cap s).1 := by
  match kind with
  | 0 =>
    rw [unpackBlock, unpackPlain]
    cases readPlainLength data s.place with
    | error ending place => exact leadsTo_moveTo s place
    | ok length place =>
      exact (leadsTo_moveTo s place).trans (leadsTo_takePlain _ (Nat.min_le_right _ _))
  | 1 => exact leadsTo_unpackItems _ _ _ _ _
  | 2 =>
    rw [unpackBlock]
    cases BlockCodes.read data s.place with
    | error ending place => exact leadsTo_moveTo s place
    | ok codes place => exact (leadsTo_moveTo s place).trans (leadsTo_unpackItems _ _ _ _ _)
  | _ + 3 => exact .refl s

/-- Goes on behind a block, unless it is the last one or has not come to its end. -/
def goOn (data : ByteArray) (cap steps : Nat) (isLast : Bool) : BlockResult → Progress × Ending
  | (s, some ending) => (s, ending)
  | (s, none) => if isLast then (s, .finished) else unpackBlocks data cap steps s

theorem unpackBlocks_succ (data : ByteArray) (cap steps : Nat) (s : Progress) :
    unpackBlocks data cap (steps + 1) s =
      match readBlockHead data s.place with
      | .error ending place => (s.moveTo place, ending)
      | .ok (isLast, kind) place =>
        goOn data cap steps isLast (unpackBlock data kind cap (s.moveTo place)) := by
  rw [unpackBlocks]
  cases readBlockHead data s.place with
  | error ending place => rfl
  | ok head place => rfl

theorem leadsTo_goOn {data : ByteArray} {cap steps : Nat}
    (hnext : ∀ s : Progress, s.LeadsTo (unpackBlocks data cap steps s).1) (isLast : Bool) (block : BlockResult) :
    block.1.LeadsTo (goOn data cap steps isLast block).1 := by
  obtain ⟨s, ending?⟩ := block
  cases ending? with
  | some ending => exact .refl s
  | none =>
    cases isLast with
    | true => exact .refl s
    | false => exact hnext s

theorem leadsTo_unpackBlocks (data : ByteArray) (cap steps : Nat) (s : Progress) :
    s.LeadsTo (unpackBlocks data cap steps s).1 := by
  induction steps generalizing s with
  | zero => exact .refl s
  | succ steps ih =>
    rw [unpackBlocks_succ]
    cases readBlockHead data s.place with
    | error ending place => exact leadsTo_moveTo s place
    | ok head place =>
      have hblock := (leadsTo_moveTo s place).trans (leadsTo_unpackBlock data head.2 cap (s.moveTo place))
      exact hblock.trans (leadsTo_goOn ih head.1 _)

/-! ## Caps -/

/-- A run that has come as far as the other one, or has stopped before because it has enough. -/
def StopsAt {α : Type} (cap : Nat) (full : α) (run whole : Progress × α) : Prop :=
  run = whole ∨
    run.2 = full ∧ cap ≤ run.1.out.size ∧ Bytes.ofByteArray run.1.out <+: Bytes.ofByteArray whole.1.out

section

variable {data : ByteArray} {codes : BlockCodes} {cap' kind steps : Nat} {s : Progress}

theorem stopsAt_unpackItems (cap : Nat) (hsound : s.IsSound)
    (hwhole : (unpackItems data codes cap' steps s).1.out.size < cap') :
    StopsAt cap (some .full) (unpackItems data codes cap steps s)
      (unpackItems data codes cap' steps s) := by
  induction steps generalizing s with
  | zero => exact .inl rfl
  | succ steps ih =>
    have hgrown := leadsTo_unpackItems data codes cap' (steps + 1) s
    have hsettled := hsound.settled_le
    rw [unpackItems] at hwhole hgrown ⊢
    rw [unpackItems]
    by_cases hcap' : cap' ≤ s.settled
    · rw [if_pos hcap'] at hwhole
      exact absurd (Nat.le_trans hcap' hsettled) (Nat.not_le.2 hwhole)
    rw [if_neg hcap'] at hwhole hgrown ⊢
    -- From here on both runs do the same, unless the one with `cap` has enough.
    by_cases hcap : cap ≤ s.settled
    · rw [if_pos hcap]
      exact .inr ⟨rfl, Nat.le_trans hcap hsettled, hgrown.out⟩
    · rw [if_neg hcap]
      cases hread : codes.readItem data s.place with
      | error ending place => exact .inl rfl
      | ok item place =>
        have hmoved := (leadsTo_moveTo s place).isSound hsound
        rw [hread] at hwhole
        cases item with
        | blockEnd => exact .inl rfl
        | literal b => exact ih ((leadsTo_append (prefix_push _ b)).isSound hmoved) hwhole
        | reference length distance =>
          exact ih ((leadsTo_append (prefix_copyBack distance length _)).isSound hmoved) hwhole

theorem stopsAt_unpackBlock (cap : Nat) (hsound : s.IsSound)
    (hwhole : (unpackBlock data kind cap' s).1.out.size < cap') :
    StopsAt cap (some .full) (unpackBlock data kind cap s) (unpackBlock data kind cap' s) := by
  match kind with
  | 0 => exact .inl rfl
  | 1 => exact stopsAt_unpackItems cap hsound hwhole
  | 2 =>
    rw [unpackBlock] at hwhole ⊢
    rw [unpackBlock]
    cases hread : BlockCodes.read data s.place with
    | error ending place => exact .inl rfl
    | ok codes place =>
      rw [hread] at hwhole
      exact stopsAt_unpackItems cap ((leadsTo_moveTo s place).isSound hsound) hwhole
  | _ + 3 => exact .inl rfl

theorem stopsAt_unpackBlocks (cap : Nat) (hsound : s.IsSound)
    (hwhole : (unpackBlocks data cap' steps s).1.out.size < cap') :
    StopsAt cap .full (unpackBlocks data cap steps s) (unpackBlocks data cap' steps s) := by
  induction steps generalizing s with
  | zero => exact .inl rfl
  | succ steps ih =>
    rw [unpackBlocks_succ] at hwhole ⊢
    rw [unpackBlocks_succ]
    cases hhead : readBlockHead data s.place with
    | error ending place => exact .inl rfl
    | ok head place =>
      obtain ⟨isLast, kind⟩ := head
      rw [hhead] at hwhole
      dsimp only at hwhole ⊢
      have hmoved := (leadsTo_moveTo s place).isSound hsound
      have hblock := leadsTo_unpackBlock data kind cap' (s.moveTo place)
      have hnext := leadsTo_goOn (leadsTo_unpackBlocks data cap' steps) isLast
        (unpackBlock data kind cap' (s.moveTo place))
      obtain heq | ⟨hfull, henough, hpart⟩ :=
        stopsAt_unpackBlock cap hmoved (Nat.lt_of_le_of_lt hnext.size_le hwhole)
      · rw [heq]
        cases hresult : unpackBlock data kind cap' (s.moveTo place) with
        | mk t ending? =>
        rw [hresult] at hwhole hblock
        cases ending? with
        | some ending => exact .inl rfl
        | none =>
          cases isLast with
          | true => exact .inl rfl
          | false => exact ih (hblock.isSound hmoved) hwhole
      · cases hresult : unpackBlock data kind cap (s.moveTo place) with
        | mk t ending? =>
        rw [hresult] at hfull henough hpart
        obtain rfl : ending? = some .full := hfull
        exact .inr ⟨rfl, henough, hpart.trans hnext.out⟩

end

/-- If all that there is has been unpacked with some cap, then with any other cap its beginning is, and no
less than the cap of it unless it is all. -/
theorem unpack?_of_lt {data : ByteArray} {cap' : Nat} {bytes : Bytes} (h : unpack? cap' data = some bytes)
    (hlt : bytes.length < cap') (cap : Nat) :
    ∃ part, unpack? cap data = some part ∧ part <+: bytes ∧ (part = bytes ∨ cap ≤ part.length) := by
  rw [unpack?] at h ⊢
  have hstart : IsSound ⟨.empty, 0, 0⟩ := Nat.le_refl 0
  have hstops (hwhole : (unpackBlocks data cap' (8 * data.size + 1) ⟨.empty, 0, 0⟩).1.out.size < cap') :=
    stopsAt_unpackBlocks cap hstart hwhole
  cases hwhole : unpackBlocks data cap' (8 * data.size + 1) ⟨.empty, 0, 0⟩ with
  | mk t ending =>
  cases hrun : unpackBlocks data cap (8 * data.size + 1) ⟨.empty, 0, 0⟩ with
  | mk r ending' =>
  rw [hwhole] at h hstops
  rw [hrun] at hstops
  obtain ⟨hreached, hbytes⟩ := Option.ite_none_right_eq_some.1 h
  obtain rfl := Option.some.inj hbytes
  rw [Bytes.length_ofByteArray] at hlt
  obtain heq | ⟨hfull, henough, hpart⟩ := hstops hlt
  · obtain ⟨rfl, rfl⟩ := Prod.mk.inj heq
    refine ⟨_, if_pos ?_, List.prefix_rfl, .inl rfl⟩
    cases ending' with
    | finished | full => rfl
    | cutShort => exact absurd (of_decide_eq_true hreached) (Nat.not_le.2 hlt)
    | broken => exact hreached
  · obtain rfl : ending' = .full := hfull
    exact ⟨_, rfl, hpart, .inr (by rwa [Bytes.length_ofByteArray])⟩

end Deflate

namespace Archive.Entry

variable {data packed : ByteArray} {e : Entry} {cap' : Nat} {bytes : Bytes}

theorem unpack?_of_lt (h : e.unpack? packed cap' = some bytes) (hlt : bytes.length < cap') (cap : Nat) :
    ∃ part, e.unpack? packed cap = some part ∧ part <+: bytes ∧ (part = bytes ∨ cap ≤ part.length) := by
  rw [unpack?] at h ⊢
  cases hpacking : e.packing with
  | stored =>
    rw [hpacking] at h
    exact ⟨bytes, h, List.prefix_rfl, .inl rfl⟩
  | deflated =>
    rw [hpacking] at h
    exact Deflate.unpack?_of_lt h hlt cap
  | unknown =>
    rw [hpacking] at h
    cases h

/-- If all of the content can be unpacked, then with a cap its beginning is. -/
theorem content_take (h : e.content data cap' = .ok bytes) (hlt : bytes.length < cap') (cap : Nat) :
    e.content data cap = .ok (bytes.take cap) := by
  rw [content] at h ⊢
  cases hstart : e.contentStart with
  | none => rw [hstart] at h; cases h
  | some start =>
  rw [hstart] at h
  dsimp only at h ⊢
  cases hunpack : e.unpack? (e.packed data start) cap' with
  | none => rw [hunpack] at h; cases h
  | some whole =>
  rw [hunpack] at h
  dsimp only [bind, Except.bind, pure, Except.pure] at h ⊢
  by_cases hmore : cap' ≤ whole.length
  · -- Then `cap'` bytes have been taken, which are more than there are.
    rw [if_pos hmore] at h
    obtain rfl := Except.ok.inj h
    rw [List.length_take_of_le hmore] at hlt
    exact absurd hlt (Nat.lt_irrefl _)
  rw [if_neg hmore] at h
  by_cases hsum : Crc32.ofBytes whole = e.checksum
  · rw [if_pos hsum] at h
    obtain rfl := Except.ok.inj h
    obtain ⟨part, hpart, hprefix, hall⟩ := unpack?_of_lt hunpack hlt cap
    rw [hpart]
    dsimp only
    by_cases hcap : cap ≤ part.length
    · rw [if_pos hcap, List.prefix_iff_eq_take.1 hprefix, List.take_take, Nat.min_eq_left hcap]
    · obtain rfl := hall.resolve_right hcap
      rw [if_neg hcap, if_pos hsum, List.take_of_length_le (Nat.le_of_not_le hcap)]
  · rw [if_neg hsum] at h
    cases h

end Archive.Entry

end ApiSurface
