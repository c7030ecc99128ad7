import ApiSurface.Bytes

/-!
Programs as a machine runs them: with positions in byte sequences and numbers of limited size.

A program of this kind can be ended by a trap, which is no error that it could report: a number that is
too large for its type, an index behind the end, a text cut inside of a character. The readers of this
library work on what is left of their input and meet nothing of that kind. A program `Follows` a reader
when it never traps and otherwise does what the reader does.
-/

namespace ApiSurface.Machine

/-! ## Traps -/

/-- What ends a program at once. -/
inductive Trap
  /-- A sum or a shift that is too large for its type. -/
  | overflow
  /-- A difference below zero. -/
  | underflow
  /-- An index or a range that is not inside of its sequence. -/
  | outOfRange
  /-- A position behind the end of the input. -/
  | behindEnd
  /-- A part of a text that starts or ends inside of a character. -/
  | splitCharacter
  /-- A loop that makes no headway, or calls that nest deeper than they may. -/
  | endless
  deriving DecidableEq, Repr

/-- The number of values of a size or a position. -/
def sizeValues : Nat := UInt64.size

/-- The most bytes of a sequence. A machine holds none that takes more than half of its addresses. -/
def maxBytes : Nat := sizeValues / 2 - 1

/-- Bytes that a machine can hold. -/
abbrev HeldBytes := { bytes : Bytes // bytes.length ≤ maxBytes }

/-- A text that a machine can hold. -/
abbrev HeldText := { text : String // text.utf8ByteSize ≤ maxBytes }

/-- The sum of two sizes. -/
def add (a b : Nat) : Except Trap Nat :=
  if a + b < sizeValues then .ok (a + b) else .error .overflow

/-- The difference of two sizes. -/
def sub (a b : Nat) : Except Trap Nat :=
  if b ≤ a then .ok (a - b) else .error .underflow

/-- The byte at an index. -/
def byteAt (bytes : Bytes) (i : Nat) : Except Trap UInt8 :=
  match bytes[i]? with
  | some b => .ok b
  | none => .error .outOfRange

/-- The bytes from one position up to another. -/
def slice (bytes : Bytes) (start stop : Nat) : Except Trap Bytes :=
  if start ≤ stop ∧ stop ≤ bytes.length then .ok ((bytes.drop start).take (stop - start))
  else .error .outOfRange

theorem add_eq_ok {a b : Nat} (h : a + b < sizeValues) : add a b = .ok (a + b) :=
  if_pos h

theorem sub_eq_ok {a b : Nat} (h : b ≤ a) : sub a b = .ok (a - b) :=
  if_pos h

theorem slice_eq_ok {bytes : Bytes} {start stop : Nat} (h : start ≤ stop) (hstop : stop ≤ bytes.length) :
    slice bytes start stop = .ok ((bytes.drop start).take (stop - start)) :=
  if_pos ⟨h, hstop⟩

theorem lt_sizeValues {n : Nat} (h : n ≤ maxBytes + maxBytes) : n < sizeValues :=
  Nat.lt_of_le_of_lt h (by decide)

theorem bind_ok {x : Except Trap α} {a : α} (h : x = .ok a) (f : α → Except Trap β) : (x >>= f) = f a := by
  rw [h]
  rfl

/-! ## Programs -/

/-- A program with a state of type `σ`, which may fail with an `ε` or be ended by a trap. A failure
leaves the state as it is. -/
abbrev Program (σ ε : Type) := ExceptT ε (StateT σ (Except Trap))

namespace Program

variable {σ ρ ε α β τ δ : Type}

/-- Does what may trap. -/
def check (x : Except Trap α) : Program σ ε α := fun s =>
  x.map fun a => (.ok a, s)

/-- Runs a program that has a state of its own. -/
def within (start : ρ) (m : Program ρ ε α) : Program σ ε α := fun s =>
  (m start).map fun r => (r.1, s)

/-- Sets the state right where a program has stopped, also when it has failed. -/
def afterwards (m : Program σ ε α) (restore : σ → Except Trap σ) : Program σ ε α := fun s =>
  match m s with
  | .error trap => .error trap
  | .ok (result, s') => (restore s').map fun s'' => (result, s'')

/-- Takes turns as long as `goes` says so. Every turn has to bring the measure `left` down. -/
def loop (left : β → σ → Nat) (goes : β → σ → Bool) (turn : β → Program σ ε β) (b : β) :
    Program σ ε β := fun s =>
  if goes b s then
    match turn b s with
    | .error trap => .error trap
    | .ok (.error e, s') => .ok (.error e, s')
    | .ok (.ok b', s') =>
      if left b' s' < left b s then loop left goes turn b' s' else .error .endless
  else
    .ok (.ok b, s)
termination_by s => left b s

theorem bind_eq (m : Program σ ε α) (f : α → Program σ ε β) (s : σ) : (m >>= f) s =
    match m s with
    | .error trap => .error trap
    | .ok (.error e, s') => .ok (.error e, s')
    | .ok (.ok a, s') => f a s' := by
  show ((m s).bind fun p => ExceptT.bindCont f p.1 p.2) = _
  cases m s with
  | error trap => rfl
  | ok p =>
    obtain ⟨result, s'⟩ := p
    cases result <;> rfl

theorem bind_of_ok {m : Program σ ε α} {f : α → Program σ ε β} {s s' : σ} {a : α}
    (h : m s = .ok (.ok a, s')) : (m >>= f) s = f a s' := by
  rw [bind_eq, h]

theorem bind_of_error {m : Program σ ε α} {f : α → Program σ ε β} {s s' : σ} {e : ε}
    (h : m s = .ok (.error e, s')) : (m >>= f) s = .ok (.error e, s') := by
  rw [bind_eq, h]

theorem pure_eq (a : α) (s : σ) : (pure a : Program σ ε α) s = .ok (.ok a, s) := rfl

theorem get_bind (f : σ → Program σ ε β) (s : σ) : (get >>= f) s = f s s := rfl

theorem set_bind (s' : σ) (f : PUnit → Program σ ε β) (s : σ) : (set s' >>= f) s = f ⟨⟩ s' := rfl

theorem check_bind {x : Except Trap α} {a : α} (h : x = .ok a) (f : α → Program σ ε β) :
    (check x >>= f) = f a := by
  funext s
  rw [bind_eq, check, h]
  rfl

theorem afterwards_eq {m : Program σ ε α} {restore : σ → Except Trap σ} {result : Except ε α} {s s' s'' : σ}
    (hrun : m s = .ok (result, s')) (hrestore : restore s' = .ok s'') :
    afterwards m restore s = .ok (result, s'') := by
  rw [afterwards, hrun]
  dsimp only
  rw [hrestore]
  rfl

theorem loop_stop {left : β → σ → Nat} {goes : β → σ → Bool} {turn : β → Program σ ε β} {b : β} {s : σ}
    (h : goes b s = false) : loop left goes turn b s = .ok (.ok b, s) := by
  rw [loop, h]
  rfl

theorem loop_turn {left : β → σ → Nat} {goes : β → σ → Bool} {turn : β → Program σ ε β} {b b' : β}
    {s s' : σ} (h : goes b s = true) (hturn : turn b s = .ok (.ok b', s'))
    (hleft : left b' s' < left b s) : loop left goes turn b s = loop left goes turn b' s' := by
  rw [loop, if_pos h, hturn]
  exact if_pos hleft

theorem loop_fail {left : β → σ → Nat} {goes : β → σ → Bool} {turn : β → Program σ ε β} {b : β} {e : ε}
    {s s' : σ} (h : goes b s = true) (hturn : turn b s = .ok (.error e, s')) :
    loop left goes turn b s = .ok (.error e, s') := by
  rw [loop, if_pos h, hturn]

theorem loop_bind_turn {left : β → σ → Nat} {goes : β → σ → Bool} {turn : β → Program σ ε β}
    {f : β → Program σ ε α} {b b' : β} {s s' : σ} (h : goes b s = true)
    (hturn : turn b s = .ok (.ok b', s')) (hleft : left b' s' < left b s) :
    (loop left goes turn b >>= f) s = (loop left goes turn b' >>= f) s' := by
  rw [bind_eq, bind_eq, loop_turn h hturn hleft]

/-! ## Programs and readers -/

/-- The program does on `s` what the reader does on `t`, for all states in which `t` is what the reader
has left. A failure of the one `tells` the failure of the other. -/
def Follows (has : σ → τ → Prop) (tells : σ → ε → δ → Prop) (m : Program σ ε α)
    (p : StateT τ (Except δ) α) (t : τ) : Prop :=
  ∀ s, has s t → match p t with
    | .ok (a, t') => ∃ s', m s = .ok (.ok a, s') ∧ has s' t'
    | .error d => ∃ e s', m s = .ok (.error e, s') ∧ tells s' e d

variable {has : σ → τ → Prop} {tells : σ → ε → δ → Prop} {t t' : τ}

theorem follows_pure (a : α) : Follows has tells (pure a) (pure a) t :=
  fun s hs => ⟨s, rfl, hs⟩

/-- What is done where the reader has come to an error does not matter. -/
theorem Follows.bind {m : Program σ ε α} {p : StateT τ (Except δ) α} {f : α → Program σ ε β}
    {g : α → StateT τ (Except δ) β} (hm : Follows has tells m p t)
    (hf : ∀ a t', p t = .ok (a, t') → Follows has tells (f a) (g a) t') :
    Follows has tells (m >>= f) (p >>= g) t := by
  intro s hs
  have hfirst := hm s hs
  show match (p t).bind fun r => g r.1 r.2 with
    | .ok (a, t') => ∃ s', (m >>= f) s = .ok (.ok a, s') ∧ has s' t'
    | .error d => ∃ e s', (m >>= f) s = .ok (.error e, s') ∧ tells s' e d
  cases hp : p t with
  | error d =>
    rw [hp] at hfirst
    obtain ⟨e, s', hrun, htells⟩ := hfirst
    exact ⟨e, s', bind_of_error hrun, htells⟩
  | ok r =>
    obtain ⟨a, t'⟩ := r
    rw [hp] at hfirst
    obtain ⟨s', hrun, hs'⟩ := hfirst
    rw [bind_of_ok hrun]
    exact hf a t' hp s' hs'

end Program

end ApiSurface.Machine
