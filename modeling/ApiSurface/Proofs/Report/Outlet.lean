import ApiSurface.Proofs.Report.ReadBack
import ApiSurface.Report.Outlet

/-!
What a place has received of a report when it is full.

However few bytes it takes with a call, it receives the beginning of the text of the report, as much as it
has room for. Nothing is left out at the end of a piece and nothing is offered twice.
-/

namespace ApiSurface

namespace Outlet

/-- The place takes as many bytes as it has room for, some of them with each call, and then it takes
none. -/
structure IsLimited (o : Outlet σ) (received : σ → Bytes) (room : σ → Nat) : Prop where
  takes : ∀ s bytes, bytes ≠ [] → 0 < room s → ∃ s' count, o.offer s bytes = (s', .ok count) ∧
    0 < count ∧ count ≤ bytes.length ∧ count ≤ room s ∧
    received s' = received s ++ bytes.take count ∧ room s' = room s - count
  refuses : ∀ s bytes, bytes ≠ [] → room s = 0 → ∃ s' answer, o.offer s bytes = (s', answer) ∧
    (∀ count, answer = .ok count → count = 0) ∧ received s' = received s ∧ room s' = 0
  flushes : ∀ s, ∃ s', o.flush s = (s', none) ∧ received s' = received s

variable {σ : Type} {o : Outlet σ} {received : σ → Bytes} {room : σ → Nat} {s s' : σ} {bytes : Bytes}

/-- A call in which no byte is taken finds no room. -/
theorem IsLimited.full (h : o.IsLimited received room) (hne : bytes ≠ []) {answer : Except IoError Nat}
    (hoffer : o.offer s bytes = (s', answer)) (hnone : ∀ count, answer = .ok count → count = 0) :
    room s = 0 ∧ received s' = received s ∧ room s' = 0 := by
  by_cases hroom : room s = 0
  · obtain ⟨s₁, answer₁, hrefused, -, hreceived, hfull⟩ := h.refuses s bytes hne hroom
    rw [hoffer] at hrefused
    obtain ⟨rfl, rfl⟩ := Prod.mk.inj hrefused
    exact ⟨hroom, hreceived, hfull⟩
  · obtain ⟨s₁, count, htaken, hpos, -⟩ := h.takes s bytes hne (Nat.pos_of_ne_zero hroom)
    rw [hoffer] at htaken
    obtain ⟨rfl, rfl⟩ := Prod.mk.inj htaken
    have hzero := hnone count rfl
    omega

/-- Other calls take a front part of the bytes. -/
theorem IsLimited.taken (h : o.IsLimited received room) (hne : bytes ≠ []) {count : Nat}
    (hoffer : o.offer s bytes = (s', .ok (count + 1))) :
    count < bytes.length ∧ count < room s ∧ received s' = received s ++ bytes.take (count + 1) ∧
      room s' = room s - (count + 1) := by
  by_cases hroom : room s = 0
  · obtain ⟨s₁, answer, hrefused, hnone, -⟩ := h.refuses s bytes hne hroom
    rw [hoffer] at hrefused
    obtain ⟨rfl, rfl⟩ := Prod.mk.inj hrefused
    exact absurd (hnone _ rfl) (Nat.succ_ne_zero _)
  · obtain ⟨s₁, count₁, htaken, -, hlen, hfits, hreceived, hleft⟩ :=
      h.takes s bytes hne (Nat.pos_of_ne_zero hroom)
    rw [hoffer] at htaken
    obtain ⟨rfl, hcount⟩ := Prod.mk.inj htaken
    obtain rfl := Except.ok.inj hcount
    exact ⟨hlen, hfits, hreceived, hleft⟩

/-- Of bytes that are offered until they are taken, those come behind the others that there is room for. -/
theorem IsLimited.putWhole (h : o.IsLimited received room) (bytes : Bytes) (s : σ) :
    received (o.putWhole bytes s).1 = received s ++ bytes.take (room s) ∧
      room (o.putWhole bytes s).1 = room s - bytes.length ∧
      ((o.putWhole bytes s).2 = none ↔ bytes.length ≤ room s) := by
  fun_induction o.putWhole bytes s with
  | case1 s => simp
  | case2 first rest s s' e hoffer =>
    obtain ⟨hroom, hreceived, hfull⟩ := h.full (List.cons_ne_nil _ _) hoffer nofun
    simp [hroom, hreceived, hfull]
  | case3 first rest s s' hoffer =>
    obtain ⟨hroom, hreceived, hfull⟩ := h.full (List.cons_ne_nil _ _) hoffer fun count hcount =>
      (Except.ok.inj hcount).symm
    simp [hroom, hreceived, hfull]
  | case4 first rest s s' count hoffer ih =>
    obtain ⟨hlen, hfits, hreceived, hleft⟩ := h.taken (List.cons_ne_nil _ _) hoffer
    obtain ⟨hreceived', hleft', hnone⟩ := ih
    rw [List.length_cons] at hlen
    rw [List.length_drop] at hleft' hnone
    refine ⟨?_, ?_, ?_⟩
    · -- The bytes of this call and those of the others make up one front part.
      have hparts : (first :: rest).take (room s) =
          (first :: rest).take (count + 1) ++ (rest.drop count).take (room s') := by
        rw [hleft, ← List.drop_succ_cons (a := first), ← List.take_add,
          Nat.add_sub_cancel' (Nat.succ_le_of_lt hfits)]
      rw [hreceived', hreceived, hparts, List.append_assoc]
    · rw [hleft', hleft, List.length_cons]
      omega
    · rw [hnone, hleft, List.length_cons]
      omega

/-- The same of all pieces together. -/
theorem IsLimited.putAll (h : o.IsLimited received room) (chunks : List Bytes) (s : σ) :
    ∃ s' e?, ApiSurface.putAll (fun s chunk => o.putWhole chunk s) chunks s = (s', e?) ∧
      received s' = received s ++ chunks.flatten.take (room s) ∧
      (e? = none ↔ chunks.flatten.length ≤ room s) := by
  induction chunks generalizing s with
  | nil => exact ⟨s, none, rfl, by simp, by simp⟩
  | cons chunk rest ih =>
    obtain ⟨hreceived, hleft, hnone⟩ := h.putWhole chunk s
    rw [ApiSurface.putAll, List.flatten_cons, List.length_append, List.take_append]
    cases hput : o.putWhole chunk s with
    | mk s' e? =>
    rw [hput] at hreceived hleft hnone
    cases e? with
    | some e =>
      -- The room has come to its end in this piece, so nothing of the others would have come.
      have hlong : ¬ chunk.length ≤ room s := by
        intro hle
        cases hnone.2 hle
      refine ⟨s', some e, rfl, ?_, ?_⟩
      · rw [hreceived, Nat.sub_eq_zero_of_le (Nat.le_of_not_le hlong), List.take_zero, List.append_nil]
      · simp only [reduceCtorEq, false_iff]
        omega
    | none =>
      have hfits := hnone.1 rfl
      obtain ⟨s'', e?, hrest, hreceived', hnone'⟩ := ih s'
      refine ⟨s'', e?, hrest, ?_, ?_⟩
      · rw [hreceived', hreceived, hleft, List.append_assoc]
      · rw [hnone', hleft]
        omega

end Outlet

/-! ## Sinks -/

namespace Sink

variable {received bytes : Bytes} {n : Nat}

/-- With enough room a piece is taken whole. -/
theorem put_of_le (h : bytes.length ≤ n) :
    put ⟨received, some n⟩ bytes = (⟨received ++ bytes, some (n - bytes.length)⟩, none) := by
  simp [put, roomAfter, List.take_of_length_le h]

/-- With less of it the sink is full afterwards. -/
theorem put_of_lt (h : n < bytes.length) :
    put ⟨received, some n⟩ bytes = (⟨received ++ bytes.take n, some 0⟩, some (.other "sink closed")) := by
  have htaken : (bytes.take n).length = n := List.length_take_of_le (Nat.le_of_lt h)
  simp [put, roomAfter, htaken, h]

/-- What a sink with room for `n` bytes has received of some pieces. -/
theorem putAll_limited (chunks : List Bytes) (received : Bytes) (n : Nat) :
    putAll put chunks ⟨received, some n⟩ =
      (⟨received ++ chunks.flatten.take n, some (n - chunks.flatten.length)⟩,
        if chunks.flatten.length ≤ n then none else some (.other "sink closed")) := by
  induction chunks generalizing received n with
  | nil => simp [putAll]
  | cons chunk rest ih =>
    rw [List.flatten_cons, List.length_append, List.take_append, putAll]
    by_cases hfits : chunk.length ≤ n
    · have hlen : chunk.length + rest.flatten.length ≤ n ↔ rest.flatten.length ≤ n - chunk.length := by
        omega
      rw [put_of_le hfits]
      simp only [ih, hlen, List.take_of_length_le hfits, List.append_assoc, Nat.sub_sub]
    · rw [put_of_lt (Nat.lt_of_not_le hfits), if_neg (by omega), Nat.sub_eq_zero_of_le (by omega),
        Nat.sub_eq_zero_of_le (by omega), List.take_zero, List.append_nil]

/-- A full sink refuses what it is offered. -/
theorem putWhole_outlet_full (received bytes : Bytes) :
    outlet.putWhole bytes ⟨received, some 0⟩ =
      (⟨received, some 0⟩, if bytes = [] then none else some (.other "sink closed")) := by
  cases bytes with
  | nil => simp [Outlet.putWhole]
  | cons first rest => simp [Outlet.putWhole, outlet, roomAfter]

/-- A piece that is offered to a sink until it is taken: one call takes what there is room for, and
another is refused if that is not all. -/
theorem putWhole_outlet (sink : Sink) (chunk : Bytes) : outlet.putWhole chunk sink = sink.put chunk := by
  obtain ⟨received, room⟩ := sink
  cases chunk with
  | nil => cases room <;> simp [Outlet.putWhole, put, roomAfter]
  | cons first rest =>
    rcases room with _ | _ | n
    · simp [Outlet.putWhole, outlet, put, roomAfter]
    · simp [putWhole_outlet_full, put, roomAfter]
    · have hoffer : outlet.offer ⟨received, some (n + 1)⟩ (first :: rest) =
          (⟨received ++ first :: rest.take n, some (n - rest.length)⟩, .ok ((rest.take n).length + 1)) := by
        simp [outlet, roomAfter]
        omega
      rw [Outlet.putWhole, hoffer]
      dsimp only
      by_cases hfits : rest.length ≤ n
      · rw [put_of_le (Nat.succ_le_succ hfits), List.take_of_length_le hfits, List.drop_length,
          Outlet.putWhole, List.length_cons, Nat.add_sub_add_right]
      · have hmore : rest.drop (rest.take n).length ≠ [] := by
          rw [List.length_take_of_le (by omega), Ne, List.drop_eq_nil_iff]
          exact hfits
        rw [put_of_lt (Nat.succ_lt_succ (Nat.lt_of_not_le hfits)), Nat.sub_eq_zero_of_le (by omega),
          putWhole_outlet_full, if_neg hmore, List.take_succ_cons]

end Sink

/-- Handing a report on call by call to a sink is writing it there piece by piece. -/
theorem Report.writeTo_eq_handTo (r : Report) (sink : Sink) : r.writeTo sink = r.handTo Sink.outlet sink := by
  have hput : (fun s chunk => Sink.outlet.putWhole chunk s) = Sink.put := by
    funext s chunk
    exact s.putWhole_outlet chunk
  rw [writeTo, handTo, hput]
  cases putAll Sink.put r.chunks sink with
  | mk sink e? => cases e? <;> rfl

/-! ## Reports -/

/-- A place that takes only so many bytes has received the beginning of the text of a report, as long as it
has room for. The report is written exactly when there is room for all of it, and a failure is put down
to the artifact.

A sink is such a place as long as its room is limited, and there the failure is told as well. -/
theorem Report.handTo_limited (r : Report) :
    (∀ {σ : Type} (o : Outlet σ) (received : σ → Bytes) (room : σ → Nat), o.IsLimited received room → ∀ s,
      received (r.handTo o s).1 = received s ++ (Bytes.ofText r.text).take (room s) ∧
      ((r.handTo o s).2 = .ok () ↔ (Bytes.ofText r.text).length ≤ room s) ∧
      ∀ e, (r.handTo o s).2 = .error e → ∃ source, e = .write r.artifact source) ∧
    (∀ sink, r.writeTo sink = r.handTo Sink.outlet sink) ∧
    ∀ taken n, r.writeTo ⟨taken, some n⟩ =
      (⟨taken ++ (Bytes.ofText r.text).take n, some (n - (Bytes.ofText r.text).length)⟩,
        if (Bytes.ofText r.text).length ≤ n then .ok ()
        else .error (.write r.artifact (.other "sink closed"))) := by
  rw [r.ofText_text]
  refine ⟨fun {σ} o received room h s => ?_, r.writeTo_eq_handTo, fun taken n => ?_⟩
  · obtain ⟨s', e?, hput, hreceived, hnone⟩ := h.putAll r.chunks s
    rw [handTo, hput]
    cases e? with
    | some e =>
      have hlong : ¬ r.chunks.flatten.length ≤ room s := by
        intro hle
        cases hnone.2 hle
      refine ⟨hreceived, ⟨nofun, fun hle => absurd hle hlong⟩, ?_⟩
      rintro _ ⟨⟩
      exact ⟨e, rfl⟩
    | none =>
      obtain ⟨s'', hflush, hkept⟩ := h.flushes s'
      dsimp only
      rw [hflush]
      exact ⟨hkept.trans hreceived, iff_of_true rfl (hnone.1 rfl), nofun⟩
  · rw [writeTo, Sink.putAll_limited]
    by_cases hfits : r.chunks.flatten.length ≤ n
    · rw [if_pos hfits, if_pos hfits]
    · rw [if_neg hfits, if_neg hfits]

namespace Outlet

/-- A place that takes one byte with each call, and none once it is full. -/
def single : Outlet (Bytes × Nat) where
  offer
    | (received, room + 1), first :: _ => ((received ++ [first], room), .ok 1)
    | s, _ => (s, .ok 0)
  flush s := (s, none)

theorem single_isLimited : single.IsLimited Prod.fst Prod.snd where
  takes := by
    rintro ⟨received, room⟩ bytes hne hroom
    obtain ⟨first, rest, rfl⟩ := List.exists_cons_of_ne_nil hne
    obtain ⟨room, rfl⟩ := Nat.exists_eq_add_one.2 hroom
    exact ⟨_, 1, rfl, by simp⟩
  refuses := by
    rintro ⟨received, room⟩ bytes - rfl
    exact ⟨_, .ok 0, rfl, fun count hcount => (Except.ok.inj hcount).symm, rfl, rfl⟩
  flushes s := ⟨s, rfl, rfl⟩

end Outlet

/-- With room for a line and a half mark, that is what is received. -/
theorem Report.handTo_limited_single :
    let r : Report := ⟨"a.jar", [⟨.type, "class A"⟩, ⟨.field, "int n"⟩]⟩
    Outlet.single.IsLimited Prod.fst Prod.snd ∧
      (r.handTo Outlet.single ([], 13)).1.1 = Bytes.ofText "C: class A\nF:" ∧
      ¬ (r.handTo Outlet.single ([], 13)).2 = .ok () := by
  intro r
  obtain ⟨hreceived, hok, -⟩ :=
    (handTo_limited r).1 Outlet.single Prod.fst Prod.snd Outlet.single_isLimited ([], 13)
  refine ⟨Outlet.single_isLimited, hreceived.trans (by decide), fun h => absurd (hok.1 h) (by decide)⟩

end ApiSurface
