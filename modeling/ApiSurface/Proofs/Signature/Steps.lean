import ApiSurface.Proofs.Reading
import ApiSurface.Proofs.Signature.Written
import Mathlib.Data.List.TakeDrop
import Mathlib.Data.List.TakeWhile

/-!
What the small parsers accept: single characters, runs, names and repeated items.

Each statement is an equivalence: the parser gives a value and a rest exactly when the text is the
written form of the value in front of that rest. Where one character behind the value decides, the
condition on it is part of the equivalence. For repetitions, `repeatWhile_eq_ok` takes such a
statement about the item and gives one about the list.
-/

namespace ApiSurface.Signature.Parser

open Reading

variable {α β : Type} {input rest : List Char}

/-! ## Characters -/

@[simp] theorem peek_bind (f : Option Char → Parser β) (input : List Char) :
    (peek >>= f) input = f input.head? input := rfl

@[simp] theorem skip_bind (f : Unit → Parser β) (input : List Char) :
    (skip >>= f) input = f () input.tail := rfl

@[simp] theorem fail_ne_ok (fault : Fault) (r : α × List Char) :
    (fail fault : Parser α) input ≠ .ok r := by
  simp [fail]

@[simp] theorem pure_eq_ok {a b : α} :
    (pure a : Parser α) input = .ok (b, rest) ↔ b = a ∧ input = rest := by
  constructor
  · intro h
    obtain ⟨rfl, rfl⟩ := Prod.mk.inj (Except.ok.inj h)
    exact ⟨rfl, rfl⟩
  · rintro ⟨rfl, rfl⟩
    rfl

theorem mapped_eq_ok {p : Parser α} {f : α → β} {b : β} :
    (do return f (← p)) input = .ok (b, rest) ↔ ∃ a, p input = .ok (a, rest) ∧ b = f a := by
  simp only [bind_eq_ok, pure_eq_ok]
  constructor
  · rintro ⟨a, _, h, rfl, rfl⟩
    exact ⟨a, h, rfl⟩
  · rintro ⟨a, h, rfl⟩
    exact ⟨a, rest, h, rfl, rfl⟩

theorem expect_eq_ok {c : Char} {u : Unit} :
    expect c input = .ok (u, rest) ↔ input = c :: rest := by
  cases input with
  | nil => simp [expect]
  | cons d input =>
    by_cases hd : d = c
    · simp [expect, hd]
    · simp [expect, hd]

theorem expect_cons (c : Char) (rest : List Char) : expect c (c :: rest) = .ok ((), rest) :=
  expect_eq_ok.2 rfl

theorem run_eq_ok {p : Char → Bool} {cs : List Char} :
    run p input = .ok (cs, rest) ↔
      (∀ c ∈ cs, p c) ∧ input = cs ++ rest ∧ ∀ c, rest.head? = some c → p c = false := by
  rw [run, List.span_eq_takeWhile_dropWhile]
  constructor
  · intro h
    obtain ⟨rfl, rfl⟩ := Prod.mk.inj (Except.ok.inj h)
    refine ⟨fun c hc => List.mem_takeWhile_imp hc, List.takeWhile_append_dropWhile.symm, ?_⟩
    intro c hc
    have hfirst := List.head?_dropWhile_not p input
    rw [hc] at hfirst
    simpa using hfirst
  · rintro ⟨hcs, rfl, hrest⟩
    rw [List.takeWhile_append_of_pos hcs, List.dropWhile_append_of_pos hcs]
    cases rest with
    | nil => simp
    | cons c rest => simp [hrest c rfl]

theorem run_stop {p : Char → Bool} {cs : List Char} {stop : Char} (hcs : ∀ c ∈ cs, p c)
    (hstop : p stop = false) : run p (cs ++ stop :: rest) = .ok (cs, stop :: rest) :=
  run_eq_ok.2 ⟨hcs, rfl, fun _ hc => Option.some.inj hc ▸ hstop⟩

/-! ## Names -/

theorem identifier_eq_ok (stop : Char) (hstop : stop ∈ ['.', ';', '[', '/', '<', '>', ':'])
    {name : String} : identifier stop input = .ok (name, rest) ↔
      IsIdentifier name ∧ input = name.toList ++ rest ∧ rest.head? = some stop := by
  have hallowed (c : Char) : (c ≠ stop && !isReserved c) = true ↔
      c ∉ ['.', ';', '[', '/', '<', '>', ':'] := by
    simp only [isReserved, Bool.and_eq_true, decide_eq_true_eq, Bool.not_eq_true', decide_eq_false_iff_not]
    constructor
    · exact fun h => h.2
    · exact fun h => ⟨fun heq => h (heq ▸ hstop), h⟩
  rw [identifier, bind_eq_ok]
  simp only [run_eq_ok, hallowed, peek_bind]
  constructor
  · rintro ⟨cs, mid, ⟨hcs, rfl, -⟩, h⟩
    cases hc : mid.head? with
    | none => simp [hc] at h
    | some c =>
      simp only [hc] at h
      split at h
      · simp at h
      · next hstopped =>
        split at h
        · simp at h
        · next hempty =>
          obtain ⟨rfl, rfl⟩ := pure_eq_ok.1 h
          refine ⟨⟨by simpa using hempty, by simpa using hcs⟩, by simp, ?_⟩
          rw [hc, not_not.1 hstopped]
  · rintro ⟨⟨hne, hname⟩, rfl, hrest⟩
    refine ⟨name.toList, rest, ⟨hname, rfl, fun c hc => ?_⟩, ?_⟩
    · rw [hrest] at hc
      cases hc
      simp
    · simp [hrest, hne]

/-- The characters that end the name of a class, and those that may not stand in it. -/
theorem className_eq_ok {raw : List Char} : className input = .ok (raw, rest) ↔
    raw ≠ [] ∧ (∀ c ∈ raw, c ∉ [';', '<', '.', '[', '>', ':']) ∧ input = raw ++ rest ∧
      ∀ c, rest.head? = some c → c ∈ [';', '<', '.'] := by
  rw [className, bind_eq_ok]
  simp only [run_eq_ok, decide_eq_true_eq, peek_bind]
  constructor
  · rintro ⟨cs, mid, ⟨hcs, rfl, hmid⟩, h⟩
    have hends : ∀ c, mid.head? = some c → c ∈ [';', '<', '.'] := by
      intro c hc
      have hstop := hmid c hc
      simp only [decide_eq_false_iff_not, not_not, List.mem_cons, List.not_mem_nil, or_false] at hstop
      rw [hc] at h
      rcases hstop with rfl | rfl | rfl | rfl | rfl | rfl
      · simp
      · simp
      · simp
      · exact absurd h (fail_ne_ok _ _)
      · exact absurd h (fail_ne_ok _ _)
      · exact absurd h (fail_ne_ok _ _)
    have hgoes : (if cs.isEmpty then fail .emptyClassName else pure cs : Parser (List Char)) mid
        = .ok (raw, rest) := by
      cases hc : mid.head? with
      | none => rwa [hc] at h
      | some c =>
        have hend := hends c hc
        rw [hc] at h
        simp only [List.mem_cons, List.not_mem_nil, or_false] at hend
        rcases hend with rfl | rfl | rfl <;> exact h
    split at hgoes
    · simp at hgoes
    · next hempty =>
      obtain ⟨rfl, rfl⟩ := pure_eq_ok.1 hgoes
      exact ⟨by simpa using hempty, hcs, rfl, hends⟩
  · rintro ⟨hne, hraw, rfl, hrest⟩
    refine ⟨raw, rest, ⟨hraw, rfl, fun c hc => ?_⟩, ?_⟩
    · have hends := hrest c hc
      simp only [List.mem_cons, List.not_mem_nil, or_false] at hends
      rcases hends with rfl | rfl | rfl <;> simp
    · cases hc : rest.head? with
      | none => simp [hne]
      | some c =>
        have hends := hrest c hc
        simp only [List.mem_cons, List.not_mem_nil, or_false] at hends
        rcases hends with rfl | rfl | rfl <;> simp [hne]

/-! ## Repetition -/

section
variable {more : List Char → Bool} {item : Parser α}

/-- The values of a repetition, read one after the other. -/
inductive Items (more : List Char → Bool) (item : Parser α) : List Char → List α → List Char → Prop
  | nil {rest : List Char} : more rest = false → Items more item rest [] rest
  | cons {input mid rest : List Char} {a : α} {as : List α} : more input = true →
      item input = .ok (a, mid) → Items more item mid as rest → Items more item input (a :: as) rest

/-- The clock does not run out when every item takes a character. -/
theorem repeatAfter_eq_ok
    (hshorter : ∀ input a rest, item input = .ok (a, rest) → rest.length < input.length)
    {clock : List Char} {done as : List α} (hclock : input.length ≤ clock.length) :
    repeatAfter more item clock done input = .ok (as, rest) ↔
      ∃ found, as = done.reverse ++ found ∧ Items more item input found rest := by
  induction clock generalizing input done with
  | nil =>
    obtain rfl : input = [] := List.eq_nil_of_length_eq_zero (Nat.le_zero.1 hclock)
    have hnone (a : α) (mid : List Char) : item [] ≠ .ok (a, mid) :=
      fun h => absurd (hshorter _ _ _ h) (Nat.not_lt_zero _)
    rw [repeatAfter]
    by_cases hmore : more []
    · simp only [hmore, ↓reduceIte]
      constructor
      · intro h
        split at h
        · simp at h
        · next hitem => exact absurd hitem (hnone _ _)
      · rintro ⟨found, -, h⟩
        cases h with
        | nil hstop => simp [hmore] at hstop
        | cons _ hitem => exact absurd hitem (hnone _ _)
    · simp only [hmore, Bool.false_eq_true, ↓reduceIte, Except.ok.injEq, Prod.mk.injEq]
      constructor
      · rintro ⟨rfl, rfl⟩
        exact ⟨[], by simp, .nil (by simpa using hmore)⟩
      · rintro ⟨found, rfl, h⟩
        cases h with
        | nil => simp
        | cons hgo => exact absurd hgo hmore
  | cons tick clock ih =>
    rw [repeatAfter]
    by_cases hmore : more input
    · simp only [hmore, ↓reduceIte]
      cases hitem : item input with
      | error failure =>
        simp only [reduceCtorEq, false_iff, not_exists, not_and]
        rintro found - h
        cases h with
        | nil hstop => simp [hmore] at hstop
        | cons _ hok => simp [hitem] at hok
      | ok p =>
        obtain ⟨a, mid⟩ := p
        have hmid := hshorter _ _ _ hitem
        simp only [List.length_cons] at hclock
        rw [ih (by omega)]
        constructor
        · rintro ⟨found, rfl, h⟩
          exact ⟨a :: found, by simp, .cons hmore hitem h⟩
        · rintro ⟨found, rfl, h⟩
          cases h with
          | nil hstop => simp [hmore] at hstop
          | cons _ hok h =>
            rw [hitem] at hok
            obtain ⟨rfl, rfl⟩ := Prod.mk.inj (Except.ok.inj hok)
            exact ⟨_, by simp, h⟩
    · simp only [hmore, Bool.false_eq_true, ↓reduceIte, Except.ok.injEq, Prod.mk.injEq]
      constructor
      · rintro ⟨rfl, rfl⟩
        exact ⟨[], by simp, .nil (by simpa using hmore)⟩
      · rintro ⟨found, rfl, h⟩
        cases h with
        | nil => simp
        | cons hgo => exact absurd hgo hmore

/-- The written forms of a list, where each item is begun and is followed by something that may follow
it, and where `rest` begins no further item. -/
def Chained (more : List Char → Bool) (written : α → List Char)
    (mayFollow : α → List Char → Prop) (rest : List Char) : List α → Prop
  | [] => more rest = false
  | a :: as => more (written a ++ (as.flatMap written ++ rest)) = true ∧
    mayFollow a (as.flatMap written ++ rest) ∧ Chained more written mayFollow rest as

variable {allowed : α → Prop} {written : α → List Char} {mayFollow : α → List Char → Prop}

theorem items_iff (hitem : ReadsBefore item allowed written mayFollow) {as : List α} :
    Items more item input as rest ↔ (∀ a ∈ as, allowed a) ∧ input = as.flatMap written ++ rest ∧
      Chained more written mayFollow rest as := by
  induction as generalizing input with
  | nil =>
    constructor
    · rintro ⟨hstop⟩
      exact ⟨by simp, rfl, hstop⟩
    · rintro ⟨-, rfl, hstop⟩
      exact .nil hstop
  | cons a as ih =>
    constructor
    · rintro (_ | ⟨hmore, hread, h⟩)
      obtain ⟨ha, rfl, hfollow⟩ := (hitem _ _ _).1 hread
      obtain ⟨has, rfl, hchain⟩ := ih.1 h
      exact ⟨List.forall_mem_cons.2 ⟨ha, has⟩, by simp, hmore, hfollow, hchain⟩
    · rintro ⟨has, rfl, hmore, hfollow, hchain⟩
      obtain ⟨ha, has⟩ := List.forall_mem_cons.1 has
      rw [List.flatMap_cons, List.append_assoc]
      exact .cons hmore ((hitem _ _ _).2 ⟨ha, rfl, hfollow⟩) (ih.2 ⟨has, rfl, hchain⟩)

theorem repeatWhile_eq_ok_items (hitem : ReadsBefore item allowed written mayFollow)
    (hne : ∀ a, allowed a → written a ≠ []) {as : List α} :
    repeatWhile more item input = .ok (as, rest) ↔ Items more item input as rest := by
  have hshorter (input : List Char) (a : α) (rest : List Char)
      (h : item input = .ok (a, rest)) : rest.length < input.length := by
    obtain ⟨ha, rfl, -⟩ := (hitem _ _ _).1 h
    have := List.length_pos_of_ne_nil (hne a ha)
    rw [List.length_append]
    omega
  rw [repeatWhile, repeatAfter_eq_ok hshorter (Nat.le_refl _)]
  simp

/-- A repetition reads the written forms of its items, if none of them is empty. -/
theorem repeatWhile_eq_ok (hitem : ReadsBefore item allowed written mayFollow)
    (hne : ∀ a, allowed a → written a ≠ []) {as : List α} :
    repeatWhile more item input = .ok (as, rest) ↔ (∀ a ∈ as, allowed a) ∧
      input = as.flatMap written ++ rest ∧ Chained more written mayFollow rest as := by
  rw [repeatWhile_eq_ok_items hitem hne, items_iff hitem]

theorem repeatUntil_eq_ok {close : Char} (hitem : ReadsBefore item allowed written mayFollow)
    (hne : ∀ a, allowed a → written a ≠ []) {as : List α} :
    repeatUntil close item input = .ok (as, rest) ↔ (∀ a ∈ as, allowed a) ∧
      input = as.flatMap written ++ close :: rest ∧
      Chained (·.head? ≠ some close) written mayFollow (close :: rest) as := by
  rw [repeatUntil, bind_eq_ok]
  simp only [repeatWhile_eq_ok hitem hne, bind_eq_ok, expect_eq_ok, pure_eq_ok]
  constructor
  · rintro ⟨_, _, ⟨has, rfl, hchain⟩, _, _, rfl, rfl, rfl⟩
    exact ⟨has, rfl, hchain⟩
  · rintro ⟨has, rfl, hchain⟩
    exact ⟨_, _, ⟨has, rfl, hchain⟩, (), _, rfl, rfl, rfl⟩

/-- What `Chained` says when nothing is asked of what follows an item. -/
theorem chained_iff {as : List α} (hmore : ∀ a ∈ as, ∀ rest, more (written a ++ rest) = true) :
    Chained more written (fun _ _ => True) rest as ↔ more rest = false := by
  induction as with
  | nil => rfl
  | cons a as ih =>
    obtain ⟨ha, has⟩ := List.forall_mem_cons.1 hmore
    simp only [Chained, ha, ih has, true_and]

/-- Items up to `close`, with which none of them starts. -/
theorem reads_repeatUntil {close : Char} (hitem : ReadsExactly item allowed written)
    (hfirst : ∀ a, allowed a → ∃ c cs, written a = c :: cs ∧ c ≠ close) :
    ReadsExactly (repeatUntil close item) (fun as => ∀ a ∈ as, allowed a)
      fun as => as.flatMap written ++ [close] := by
  have hne (a : α) (ha : allowed a) : written a ≠ [] := by
    obtain ⟨c, cs, h, -⟩ := hfirst a ha
    simp [h]
  intro input as rest
  rw [repeatUntil_eq_ok hitem.before hne]
  constructor
  · rintro ⟨has, rfl, -⟩
    exact ⟨has, by simp⟩
  · rintro ⟨has, rfl⟩
    refine ⟨has, by simp, (chained_iff fun a ha rest => ?_).2 (by simp)⟩
    obtain ⟨c, cs, h, hc⟩ := hfirst a (has a ha)
    simp [h, hc]

/-- Only what an item does where it is begun matters. -/
theorem repeatAfter_congr {item' : Parser α}
    (h : ∀ input, more input = true → item input = item' input) (clock : List Char)
    (done : List α) (input : List Char) :
    repeatAfter more item clock done input = repeatAfter more item' clock done input := by
  induction clock generalizing done input with
  | nil =>
    rw [repeatAfter, repeatAfter]
    by_cases hmore : more input = true
    · simp only [h input hmore]
    · simp [hmore]
  | cons tick clock ih =>
    rw [repeatAfter, repeatAfter]
    by_cases hmore : more input = true
    · simp only [h input hmore, ih]
    · simp [hmore]

/-- Items behind a mark, as long as there is one. -/
theorem reads_repeatMarked (mark : Char) (hitem : ReadsExactly item allowed written) :
    ReadsBefore (repeatMarked mark item) (fun as => ∀ a ∈ as, allowed a)
      (fun as => as.flatMap fun a => mark :: written a) fun _ rest => rest.head? ≠ some mark := by
  have hmarked : ReadsExactly (do expect mark; item) allowed fun a => mark :: written a := by
    intro input a rest
    rw [bind_eq_ok]
    simp only [expect_eq_ok]
    constructor
    · rintro ⟨_, mid, rfl, h⟩
      obtain ⟨ha, rfl⟩ := (hitem _ _ _).1 h
      exact ⟨ha, rfl⟩
    · rintro ⟨ha, rfl⟩
      exact ⟨(), _, rfl, (hitem _ _ _).2 ⟨ha, rfl⟩⟩
  have hsame : ∀ input : List Char, decide (input.head? = some mark) = true →
      (do skip; item : Parser α) input = (do expect mark; item : Parser α) input := by
    intro input hmore
    obtain ⟨rest, rfl⟩ : ∃ rest, input = mark :: rest := by
      cases input with
      | nil => simp at hmore
      | cons c rest => exact ⟨rest, by simpa using hmore⟩
    rw [skip_bind, bind_of_ok (expect_cons mark rest), List.tail_cons]
  intro input as rest
  have hloop : repeatWhile (·.head? = some mark) (do expect mark; item) input = .ok (as, rest) ↔ _ :=
    repeatWhile_eq_ok hmarked.before (by simp)
  rw [repeatWhile] at hloop
  rw [repeatMarked, repeatWhile, repeatAfter_congr hsame, hloop, chained_iff (by simp)]
  simp

end

end ApiSurface.Signature.Parser
