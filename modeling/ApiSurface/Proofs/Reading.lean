/-!
Readers, which take a value from the front of what is left and may fail.

The facts hold of class files and of signatures alike. A reader `Reads` a written form when it gives
back what was written and leaves alone what stands behind it. Where a list is converted element by
element, it is converted exactly when each of its elements is.
-/

namespace ApiSurface.Reading

variable {σ ε τ α β : Type}

/-! ## One reader after the other -/

theorem bind_of_ok {x : StateT σ (Except ε) α} {f : α → StateT σ (Except ε) β} {s s' : σ} {a : α}
    (h : x s = .ok (a, s')) : (x >>= f) s = f a s' := by
  show (x s >>= fun p => f p.1 p.2) = _
  rw [h]
  rfl

theorem bind_of_error {x : StateT σ (Except ε) α} {f : α → StateT σ (Except ε) β} {s : σ} {e : ε}
    (h : x s = .error e) : (x >>= f) s = .error e := by
  show (x s >>= fun p => f p.1 p.2) = _
  rw [h]
  rfl

/-- Two readers succeed together when the second does where the first stopped. -/
theorem bind_eq_ok {x : StateT σ (Except ε) α} {f : α → StateT σ (Except ε) β} {s : σ}
    {r : β × σ} : (x >>= f) s = .ok r ↔ ∃ a s', x s = .ok (a, s') ∧ f a s' = .ok r := by
  cases hx : x s with
  | error e => simp [bind_of_error hx]
  | ok p =>
    obtain ⟨a, s'⟩ := p
    rw [bind_of_ok hx]
    constructor
    · exact fun h => ⟨a, s', rfl, h⟩
    · rintro ⟨b, t, hbt, h⟩
      obtain ⟨rfl, rfl⟩ := Prod.mk.inj (Except.ok.inj hbt)
      exact h

theorem map_eq_ok {x : StateT σ (Except ε) α} {f : α → β} {s s' : σ} {b : β} :
    (f <$> x) s = .ok (b, s') ↔ ∃ a, x s = .ok (a, s') ∧ b = f a := by
  rw [map_eq_pure_bind, bind_eq_ok]
  constructor
  · rintro ⟨a, t, h, hpure⟩
    obtain ⟨rfl, rfl⟩ := Prod.mk.inj (Except.ok.inj hpure)
    exact ⟨a, h, rfl⟩
  · rintro ⟨a, h, rfl⟩
    exact ⟨a, s', h, rfl⟩

/-! ## Readers and written forms -/

/-- What `written` relates to a value is read as that value, whatever stands behind it. -/
def Reads (x : StateT (List τ) (Except ε) α) (written : α → List τ → Prop) : Prop :=
  ∀ ⦃a text⦄, written a text → ∀ rest, x (text ++ rest) = .ok (a, rest)

/-- The reader gives the values that are `allowed`, where they are `written` in front of something that
may follow them, and no others. -/
def ReadsBefore (x : StateT (List τ) (Except ε) α) (allowed : α → Prop) (written : α → List τ)
    (mayFollow : α → List τ → Prop) : Prop :=
  ∀ input a rest, x input = .ok (a, rest) ↔
    allowed a ∧ input = written a ++ rest ∧ mayFollow a rest

/-- As `ReadsBefore`, where the written form itself shows where it ends. -/
def ReadsExactly (x : StateT (List τ) (Except ε) α) (allowed : α → Prop)
    (written : α → List τ) : Prop :=
  ∀ input a rest, x input = .ok (a, rest) ↔ allowed a ∧ input = written a ++ rest

theorem ReadsExactly.before {x : StateT (List τ) (Except ε) α} {allowed : α → Prop}
    {written : α → List τ} (h : ReadsExactly x allowed written) :
    ReadsBefore x allowed written fun _ _ => True := by
  intro input a rest
  rw [h, and_true]

end ApiSurface.Reading

/-! ## Lists that are converted element by element -/

namespace ApiSurface

variable {α β ε : Type} {f : α → Except ε β} {x : α} {xs : List α} {ys : List β}

theorem mapM_cons_eq_ok : (x :: xs).mapM f = .ok ys ↔
    ∃ y rest, f x = .ok y ∧ xs.mapM f = .ok rest ∧ ys = y :: rest := by
  rw [List.mapM_cons]
  constructor
  · intro h
    cases hx : f x with
    | error e =>
      rw [hx] at h
      cases h
    | ok y =>
      cases hxs : xs.mapM f with
      | error e =>
        rw [hx, hxs] at h
        cases h
      | ok rest =>
        rw [hx, hxs] at h
        exact ⟨y, rest, rfl, rfl, (Except.ok.inj h).symm⟩
  · rintro ⟨y, rest, hx, hxs, rfl⟩
    rw [hx, hxs]
    rfl

/-- Where every element can be converted, the results are those of the elements. -/
theorem mem_of_mapM_eq_ok (h : xs.mapM f = .ok ys) (y : β) : y ∈ ys ↔ ∃ x ∈ xs, f x = .ok y := by
  induction xs generalizing ys with
  | nil =>
    obtain rfl := Except.ok.inj h
    simp
  | cons x xs ih =>
    obtain ⟨first, rest, hx, hxs, rfl⟩ := mapM_cons_eq_ok.1 h
    simp [ih hxs, hx, eq_comm]

theorem length_of_mapM_eq_ok (h : xs.mapM f = .ok ys) : ys.length = xs.length := by
  induction xs generalizing ys with
  | nil =>
    obtain rfl := Except.ok.inj h
    rfl
  | cons x xs ih =>
    obtain ⟨y, rest, -, hxs, rfl⟩ := mapM_cons_eq_ok.1 h
    rw [List.length_cons, List.length_cons, ih hxs]

/-- Where a list can be converted, each of its elements can. -/
theorem exists_of_mapM_eq_ok (h : xs.mapM f = .ok ys) (hx : x ∈ xs) : ∃ y, f x = .ok y := by
  induction xs generalizing ys with
  | nil => cases hx
  | cons first others ih =>
    obtain ⟨y, rest, hfirst, hrest, -⟩ := mapM_cons_eq_ok.1 h
    obtain rfl | hmem := List.mem_cons.1 hx
    · exact ⟨y, hfirst⟩
    · exact ih hrest hmem

theorem exists_mapM_eq_ok_iff : (∃ ys, xs.mapM f = .ok ys) ↔ ∀ x ∈ xs, ∃ y, f x = .ok y := by
  constructor
  · rintro ⟨ys, h⟩ x hx
    exact exists_of_mapM_eq_ok h hx
  · intro h
    induction xs with
    | nil => exact ⟨[], rfl⟩
    | cons x xs ih =>
      obtain ⟨hx, hxs⟩ := List.forall_mem_cons.1 h
      obtain ⟨y, hy⟩ := hx
      obtain ⟨ys, hys⟩ := ih hxs
      exact ⟨y :: ys, mapM_cons_eq_ok.2 ⟨y, ys, hy, hys, rfl⟩⟩

end ApiSurface
