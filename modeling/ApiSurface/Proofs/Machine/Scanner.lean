import ApiSurface.Proofs.Machine.Text
import ApiSurface.Proofs.Signature.Declarations
import ApiSurface.Signature.Parser

/-!
Steps through a descriptor or a signature as a machine takes them: byte by byte, with a position in the
text, and with names that are cut out of the text by the positions where they start and stop.

The machine looks at single bytes, also inside of characters that take several. It does not matter, for
everything that it looks for is below `0x80`.
-/

namespace ApiSurface.Machine

open Program Signature

/-- Where a scanner stands, and what it has entered on the path to there. -/
structure Cursor where
  pos : Nat
  dimensions : Nat
  nesting : Nat
  deriving DecidableEq, Repr

/-- The cursor behind some more characters. -/
def Cursor.past (cursor : Cursor) (cs : List Char) : Cursor :=
  { cursor with pos := cursor.pos + (bytesOf cs).length }

theorem Cursor.past_cons (cursor : Cursor) (c : Char) (cs : List Char) :
    cursor.past (c :: cs) = (cursor.past [c]).past cs := by
  rw [Cursor.past, Cursor.past, Cursor.past, bytesOf_cons, bytesOf_cons]
  simp [Nat.add_assoc]

/-- A fault and the position that it is reported at. -/
structure Stop where
  fault : Fault
  offset : Nat
  deriving DecidableEq, Repr

/-- What a machine has when it reads a descriptor or a signature. -/
abbrev Scanner := Program Cursor Stop

namespace Scanner

/-! ## Steps -/

def fail (fault : Fault) : Scanner α := do
  let cursor ← get
  throw ⟨fault, cursor.pos⟩

section
variable (bytes : Bytes)

/-- The next byte, taken for a character. -/
def next? (cursor : Cursor) : Option Char :=
  bytes[cursor.pos]?.map charOf

/-- The number of bytes that are left. -/
def left (cursor : Cursor) : Nat :=
  bytes.length - cursor.pos

/-- The next byte, which stays. -/
def peek : Scanner (Option Char) := do
  let cursor ← get
  return next? bytes cursor

/-- Drops one byte. The position has to stay inside of the text or at its end. -/
def skip : Scanner Unit := do
  let cursor ← get
  let pos ← check (add cursor.pos 1)
  check (if pos ≤ bytes.length then .ok () else .error .behindEnd)
  set { cursor with pos }

/-- Drops the byte of `c`, which has to be next. -/
def expect (c : Char) : Scanner Unit := do
  let seen ← peek bytes
  if seen = some c then
    skip bytes
  else
    fail (.expected c)

/-- Fails unless everything has been read. -/
def finish : Scanner Unit := do
  let seen ← peek bytes
  if seen = none then
    return ()
  else
    fail .trailingCharacters

/-- Items behind `done`, which is kept last first, as long as `more` holds of the next byte. -/
def repeatAfter (more : Option Char → Bool) (item : Scanner α) (done : List α) : Scanner (List α) := do
  let items ← loop (fun _ => left bytes) (fun _ cursor => more (next? bytes cursor))
    (fun done => do
      let a ← item
      return a :: done) done
  return items.reverse

/-- Items as long as `more` holds of the next byte. -/
def repeatWhile (more : Option Char → Bool) (item : Scanner α) : Scanner (List α) :=
  repeatAfter bytes more item []

/-- Items up to the byte of `close`, which is dropped. -/
def repeatUntil (close : Char) (item : Scanner α) : Scanner (List α) := do
  let items ← repeatWhile bytes (fun seen => seen ≠ some close) item
  expect bytes close
  return items

/-- Items that each follow the byte of `mark`. -/
def repeatMarked (mark : Char) (item : Scanner α) : Scanner (List α) :=
  repeatWhile bytes (fun seen => seen = some mark) do
    skip bytes
    item

/-! ## Names -/

/-- Drops bytes up to one that `stops` the scan. A `bad` byte in front of it is a fault. -/
def scan (stops bad : Char → Bool) (fault : Fault) : Scanner Unit :=
  loop (fun _ => left bytes) (fun _ cursor => (next? bytes cursor).any fun b => !stops b)
    (fun _ => do
      let seen ← peek bytes
      if seen.any bad then
        fail fault
      else
        skip bytes) ()

/-- An identifier, which ends before `stop`. -/
def identifier (stop : Char) : Scanner String := do
  let start ← get
  scan bytes (fun b => b = stop) Parser.isReserved .illegalInIdentifier
  let cursor ← get
  if cursor.pos = start.pos ∨ next? bytes cursor = none then
    fail .malformedIdentifier
  else
    check (textBetween bytes start.pos cursor.pos)

/-- The name of a class of a nest, which ends before `;`, `<` or `.`. -/
def className : Scanner (List Char) := do
  let start ← get
  scan bytes (fun b => b ∈ [';', '<', '.']) (fun b => b ∈ ['[', '>', ':']) .illegalInClassName
  let cursor ← get
  if cursor.pos = start.pos then
    fail .emptyClassName
  else
    let name ← check (textBetween bytes start.pos cursor.pos)
    return name.toList

end

/-! ## What it is about -/

/-- The position is the one in front of `rest`, and the counters are those of the path. -/
structure At (src : List Char) (path : Parser.Path) (cursor : Cursor) (rest : List Char) : Prop where
  pos : ∃ front, src = front ++ rest ∧ cursor.pos = (bytesOf front).length
  dimensions : cursor.dimensions = path.dimensions
  nesting : cursor.nesting = path.nesting

/-- The same fault, at the position in front of what was still to be read. The counters are back at
those of the path. -/
structure Tells (src : List Char) (path : Parser.Path) (cursor : Cursor) (stop : Stop)
    (failure : Signature.Failure) : Prop where
  fault : stop.fault = failure.fault
  offset : ∃ front, src = front ++ failure.rest ∧ stop.offset = (bytesOf front).length
  dimensions : cursor.dimensions = path.dimensions
  nesting : cursor.nesting = path.nesting

/-- The scanner does in front of `rest` what the parser does on `rest`. -/
abbrev MirrorsAt (src : List Char) (path : Parser.Path) (m : Scanner α) (p : Parser α)
    (rest : List Char) : Prop :=
  Follows (At src path) (Tells src path) m p rest

/-- The scanner does on the text what the parser does on what is left of it. -/
abbrev Mirrors (src : List Char) (path : Parser.Path) (m : Scanner α) (p : Parser α) : Prop :=
  ∀ rest, MirrorsAt src path m p rest

/-- The next byte and the next character: the same, or both none of those below `0x80`. -/
def Alike (seen head : Option Char) : Prop :=
  seen = head ∨ ∃ b c, seen = some b ∧ head = some c ∧ 0x80 ≤ b.toNat ∧ 0x80 ≤ c.toNat

namespace Alike

variable {seen head : Option Char} {c : Char}

theorem eq_iff (h : Alike seen head) (hc : c.toNat < 0x80) : seen = some c ↔ head = some c := by
  obtain rfl | ⟨b, d, rfl, rfl, hb, hd⟩ := h
  · rfl
  · constructor
    · intro heq
      rw [Option.some.inj heq] at hb
      omega
    · intro heq
      rw [Option.some.inj heq] at hd
      omega

theorem eq_none_iff (h : Alike seen head) : seen = none ↔ head = none := by
  obtain rfl | ⟨b, d, rfl, rfl, -, -⟩ := h <;> simp

/-- What does not hold of a character that takes several bytes. -/
theorem any_eq (h : Alike seen head) {p : Char → Bool} (hp : ∀ c, 0x80 ≤ c.toNat → p c = false) :
    seen.any p = head.any p := by
  obtain rfl | ⟨b, d, rfl, rfl, hb, hd⟩ := h
  · rfl
  · simp [hp b hb, hp d hd]

end Alike

section
variable {src rest : List Char} {path : Parser.Path} {cursor : Cursor}

namespace At

theorem drop_eq (h : At src path cursor rest) : (bytesOf src).drop cursor.pos = bytesOf rest := by
  obtain ⟨front, rfl, hpos⟩ := h.pos
  rw [hpos, bytesOf_append, List.drop_left]

theorem length_eq (h : At src path cursor rest) :
    cursor.pos + (bytesOf rest).length = (bytesOf src).length := by
  obtain ⟨front, rfl, hpos⟩ := h.pos
  rw [hpos, bytesOf_append, List.length_append]

theorem alike (h : At src path cursor rest) : Alike (next? (bytesOf src) cursor) rest.head? := by
  have hnext : (bytesOf src)[cursor.pos]? = (bytesOf rest).head? := by
    rw [← h.drop_eq, List.head?_drop]
  rw [next?, hnext]
  cases rest with
  | nil => exact .inl rfl
  | cons c rest =>
    obtain ⟨b, hhead, hmem, -⟩ := head?_bytesOf c rest
    rw [hhead]
    obtain ⟨hsame, -⟩ | ⟨hb, hc⟩ := charOf_of_mem hmem
    · exact .inl (congrArg some hsame)
    · exact .inr ⟨charOf b, c, rfl, rfl, hb, hc⟩

/-- Forward over some characters. -/
theorem forward {cs : List Char} (h : At src path cursor (cs ++ rest)) :
    At src path (cursor.past cs) rest := by
  obtain ⟨front, rfl, hpos⟩ := h.pos
  refine ⟨⟨front ++ cs, (List.append_assoc ..).symm, ?_⟩, h.dimensions, h.nesting⟩
  rw [Cursor.past, bytesOf_append, List.length_append, ← hpos]

theorem tells (h : At src path cursor rest) (fault : Fault) :
    Tells src path cursor ⟨fault, cursor.pos⟩ ⟨fault, rest⟩ :=
  ⟨rfl, h.pos, h.dimensions, h.nesting⟩

/-- Fewer characters are fewer bytes. -/
theorem left_lt {cursor' : Cursor} {path' : Parser.Path} {rest' : List Char}
    (h : At src path cursor rest) (h' : At src path' cursor' rest') (hlt : rest'.length < rest.length) :
    left (bytesOf src) cursor' < left (bytesOf src) cursor := by
  obtain ⟨front, hsrc, -⟩ := h.pos
  obtain ⟨front', hsrc', -⟩ := h'.pos
  obtain ⟨mid, rfl⟩ : rest' <:+ rest :=
    List.suffix_of_suffix_length_le ⟨front', hsrc'.symm⟩ ⟨front, hsrc.symm⟩ (Nat.le_of_lt hlt)
  have hmid := length_le_length_bytesOf mid
  have hlength := h.length_eq
  have hlength' := h'.length_eq
  rw [bytesOf_append, List.length_append] at hlength
  rw [List.length_append] at hlt
  rw [left, left]
  omega

end At

/-! ## Steps -/

theorem mirrors_fail (fault : Fault) : Mirrors src path (fail fault : Scanner α) (Parser.fail fault) :=
  fun _ cursor h => ⟨_, cursor, rfl, h.tells fault⟩

/-- What comes after a look at the next byte. -/
theorem mirrors_peek {f : Option Char → Scanner β} {g : Option Char → Parser β}
    (h : ∀ seen, Alike seen rest.head? → MirrorsAt src path (f seen) (g rest.head?) rest) :
    MirrorsAt src path (peek (bytesOf src) >>= f) (Parser.peek >>= g) rest :=
  fun cursor hat => h _ hat.alike cursor hat

/-- Scanner and parser take the same branch. -/
theorem mirrorsAt_ite {c c' : Prop} [Decidable c] [Decidable c'] {m n : Scanner α} {p q : Parser α}
    (hc : c ↔ c') (hyes : c' → MirrorsAt src path m p rest) (hno : ¬c' → MirrorsAt src path n q rest) :
    MirrorsAt src path (if c then m else n) (if c' then p else q) rest := by
  by_cases h : c'
  · rw [if_pos h, if_pos (hc.2 h)]
    exact hyes h
  · rw [if_neg h, if_neg (mt hc.1 h)]
    exact hno h

variable (hheld : (bytesOf src).length ≤ maxBytes)
include hheld

theorem skip_eq (h : cursor.pos < (bytesOf src).length) :
    skip (bytesOf src) cursor = .ok (.ok (), { cursor with pos := cursor.pos + 1 }) := by
  rw [skip, get_bind, check_bind (add_eq_ok (lt_sizeValues (by omega))),
    check_bind (if_pos (Nat.succ_le_of_lt h))]
  rfl

/-- What takes one byte. -/
theorem mirrors_skip {c : Char} (hc : c.toNat < 0x80) (hhead : rest.head? = some c) :
    MirrorsAt src path (skip (bytesOf src)) Parser.skip rest := by
  obtain ⟨rest, rfl⟩ := List.head?_eq_some_iff.1 hhead
  intro cursor h
  have hone : (bytesOf [c]).length = 1 := by
    obtain ⟨-, hbytes⟩ | ⟨hge, -⟩ := Utf8.utf8EncodeChar_cases c
    · rw [bytesOf_cons, hbytes]
      rfl
    · omega
  have hnext := @At.forward src rest path cursor [c] h
  rw [Cursor.past, hone] at hnext
  have hlength := hnext.length_eq
  exact ⟨_, skip_eq hheld (by dsimp only at hlength; omega), hnext⟩

theorem mirrors_expect {c : Char} (hc : c.toNat < 0x80) :
    Mirrors src path (expect (bytesOf src) c) (Parser.expect c) := by
  intro rest
  have hparser : Parser.expect c = Parser.peek >>= fun head =>
      if head = some c then Parser.skip else Parser.fail (.expected c) := by
    funext rest
    rw [Parser.expect, Parser.peek_bind]
    split <;> rfl
  rw [hparser]
  exact mirrors_peek fun seen halike => mirrorsAt_ite (halike.eq_iff hc)
    (fun hhead => mirrors_skip hheld hc hhead) fun _ => mirrors_fail _ rest

omit hheld in
theorem mirrors_finish : Mirrors src path (finish (bytesOf src)) Parser.finish := by
  intro rest
  have hparser : Parser.finish = Parser.peek >>= fun head =>
      if head = none then pure () else Parser.fail .trailingCharacters := by
    funext rest
    rw [Parser.finish, Parser.peek_bind]
    cases rest <;> rfl
  rw [hparser]
  exact mirrors_peek fun seen halike => mirrorsAt_ite halike.eq_none_iff
    (fun _ => follows_pure ()) fun _ => mirrors_fail _ rest

/-! ## Repetition -/

/-- Every item takes at least one character. -/
def Shortens (p : Parser α) : Prop :=
  ∀ input a rest, p input = .ok (a, rest) → rest.length < input.length

variable {more : Option Char → Bool} {more' : List Char → Bool} {item : Scanner α} {item' : Parser α}

omit hheld in
theorem mirrors_repeatAfter
    (hmore : ∀ seen (rest : List Char), Alike seen rest.head? → more seen = more' rest)
    (hitem : ∀ rest, more' rest = true → MirrorsAt src path item item' rest) (hshort : Shortens item')
    {clock : List Char} (done : List α) (hclock : rest.length ≤ clock.length) :
    MirrorsAt src path (repeatAfter (bytesOf src) more item done)
      (Parser.repeatAfter more' item' clock done) rest := by
  induction hlength : rest.length using Nat.strongRecOn generalizing rest clock done with
  | _ n ih =>
    subst hlength
    intro cursor h
    have hsame := hmore _ _ h.alike
    rw [Parser.repeatAfter]
    beta_reduce
    by_cases hgoes : more' rest = true
    · rw [hgoes] at hsame
      have hfirst := hitem rest hgoes cursor h
      rw [if_pos hgoes]
      cases hread : item' rest with
      | error failure =>
        rw [hread] at hfirst
        obtain ⟨stop, cursor', hrun, htells⟩ := hfirst
        exact ⟨stop, cursor', bind_of_error (loop_fail hsame (bind_of_error hrun)), htells⟩
      | ok r =>
        obtain ⟨a, rest'⟩ := r
        rw [hread] at hfirst
        obtain ⟨cursor', hrun, h'⟩ := hfirst
        have hlt := hshort _ _ _ hread
        have hnext : repeatAfter (bytesOf src) more item done cursor =
            repeatAfter (bytesOf src) more item (a :: done) cursor' := by
          rw [repeatAfter, repeatAfter]
          exact loop_bind_turn hsame (bind_of_ok hrun) (h.left_lt h' hlt)
        rw [hnext]
        cases clock with
        | nil => exact absurd (Nat.lt_of_lt_of_le hlt hclock) (Nat.not_lt_zero _)
        | cons tick clock =>
          exact ih _ hlt (a :: done) (by simp at hclock; omega) rfl cursor' h'
    · rw [Bool.not_eq_true] at hgoes
      rw [if_neg (Bool.not_eq_true _ ▸ hgoes)]
      exact ⟨cursor, bind_of_ok (loop_stop (hsame.trans hgoes)), h⟩

omit hheld in
theorem mirrors_repeatWhile
    (hmore : ∀ seen (rest : List Char), Alike seen rest.head? → more seen = more' rest)
    (hitem : ∀ rest, more' rest = true → MirrorsAt src path item item' rest) (hshort : Shortens item') :
    Mirrors src path (repeatWhile (bytesOf src) more item) (Parser.repeatWhile more' item') := by
  intro rest
  have hloop := @mirrors_repeatAfter _ src rest path more more' item item' hmore hitem hshort rest []
    (Nat.le_refl _)
  exact hloop

theorem mirrors_repeatUntil {close : Char} (hclose : close.toNat < 0x80)
    (hitem : Mirrors src path item item') (hshort : Shortens item') :
    Mirrors src path (repeatUntil (bytesOf src) close item) (Parser.repeatUntil close item') := by
  have hmore (seen : Option Char) (rest : List Char) (h : Alike seen rest.head?) :
      decide (seen ≠ some close) = decide (rest.head? ≠ some close) := by
    rw [decide_eq_decide, ne_eq, ne_eq, h.eq_iff hclose]
  intro rest
  refine (mirrors_repeatWhile hmore (fun rest _ => hitem rest) hshort rest).bind fun items rest' _ => ?_
  exact (mirrors_expect hheld hclose rest').bind fun _ _ _ => follows_pure items

theorem mirrors_repeatMarked {mark : Char} (hmark : mark.toNat < 0x80)
    (hitem : Mirrors src path item item') (hshort : Shortens item') :
    Mirrors src path (repeatMarked (bytesOf src) mark item) (Parser.repeatMarked mark item') := by
  have hmore (seen : Option Char) (rest : List Char) (h : Alike seen rest.head?) :
      decide (seen = some mark) = decide (rest.head? = some mark) := by
    rw [decide_eq_decide, h.eq_iff hmark]
  refine mirrors_repeatWhile hmore (fun rest hgoes => ?_) ?_
  · exact (mirrors_skip hheld hmark (of_decide_eq_true hgoes)).bind fun _ rest' _ => hitem rest'
  · intro input a rest hread
    have hlt := hshort input.tail a rest hread
    rw [List.length_tail] at hlt
    omega

/-! ## Names -/

variable {stops bad : Char → Bool} {fault : Fault}

/-- Bytes that do not end the scan are dropped. -/
theorem scan_pass {part after : Bytes} (hpass : ∀ b ∈ part, stops (charOf b) = false ∧ bad (charOf b) = false)
    (hdrop : (bytesOf src).drop cursor.pos = part ++ after) :
    scan (bytesOf src) stops bad fault cursor =
      scan (bytesOf src) stops bad fault { cursor with pos := cursor.pos + part.length } := by
  induction part generalizing cursor with
  | nil => rfl
  | cons b part ih =>
    obtain ⟨⟨hstop, hgood⟩, hpass⟩ := List.forall_mem_cons.1 hpass
    have hb : (bytesOf src)[cursor.pos]? = some b := by
      rw [← List.head?_drop, hdrop]
      rfl
    obtain ⟨hlt, -⟩ := List.getElem?_eq_some_iff.1 hb
    have hnext : next? (bytesOf src) cursor = some (charOf b) := by rw [next?, hb]; rfl
    have hgoes : (next? (bytesOf src) cursor).any (fun b => !stops b) = true := by simp [hnext, hstop]
    have hdrop' : (bytesOf src).drop (cursor.pos + 1) = part ++ after := by
      rw [← List.drop_drop, hdrop]
      rfl
    have hturn : scan (bytesOf src) stops bad fault cursor =
        scan (bytesOf src) stops bad fault { cursor with pos := cursor.pos + 1 } := by
      refine loop_turn hgoes ?_ (show (bytesOf src).length - (cursor.pos + 1) < _ by rw [left]; omega)
      show (if (next? (bytesOf src) cursor).any bad = true then fail fault else skip (bytesOf src)) cursor = _
      rw [hnext, Option.any_some, hgood, if_neg (by simp)]
      exact skip_eq hheld hlt
    rw [hturn, ih hpass hdrop', List.length_cons, Nat.add_assoc, Nat.add_comm 1]

section
variable (hstops : ∀ c : Char, 0x80 ≤ c.toNat → stops c = false)
  (hbad : ∀ c : Char, 0x80 ≤ c.toNat → bad c = false)
include hstops hbad

/-- Characters that do not end the scan are dropped, also those that take several bytes. -/
theorem scan_forward {cs : List Char} (hcs : ∀ c ∈ cs, stops c = false ∧ bad c = false)
    (h : At src path cursor (cs ++ rest)) :
    scan (bytesOf src) stops bad fault cursor =
      scan (bytesOf src) stops bad fault (cursor.past cs) := by
  refine scan_pass hheld (fun b hb => ?_) (by rw [h.drop_eq, bytesOf_append])
  obtain ⟨c, hc, hb⟩ := List.mem_flatMap.1 hb
  obtain ⟨heq, -⟩ | ⟨hlarge, -⟩ := charOf_of_mem hb
  · exact heq ▸ hcs c hc
  · exact ⟨hstops _ hlarge, hbad _ hlarge⟩

theorem scan_stop {cs : List Char} (hcs : ∀ c ∈ cs, stops c = false ∧ bad c = false)
    (h : At src path cursor (cs ++ rest)) (hend : ∀ c, rest.head? = some c → stops c = true) :
    scan (bytesOf src) stops bad fault cursor =
      .ok (.ok (), cursor.past cs) := by
  rw [scan_forward hheld hstops hbad hcs h]
  refine loop_stop ?_
  obtain hsame | ⟨b, c, -, hhead, -, hlarge⟩ := h.forward.alike
  · rw [hsame, Option.any_eq_false]
    intro c hc
    simp [hend c hc]
  · have hstop := hend c hhead
    rw [hstops c hlarge] at hstop
    cases hstop

theorem scan_bad {cs : List Char} {c : Char} (hcs : ∀ c ∈ cs, stops c = false ∧ bad c = false)
    (h : At src path cursor (cs ++ rest)) (hhead : rest.head? = some c) (hgoes : stops c = false)
    (hc : bad c = true) :
    scan (bytesOf src) stops bad fault cursor =
      .ok (.error ⟨fault, (cursor.past cs).pos⟩, cursor.past cs) := by
  have hsmall : c.toNat < 0x80 := by
    by_contra hlarge
    rw [hbad c (Nat.le_of_not_lt hlarge)] at hc
    cases hc
  have hnext := (h.forward.alike.eq_iff hsmall).2 hhead
  rw [scan_forward hheld hstops hbad hcs h]
  refine loop_fail (by simp only [hnext, Option.any_some, hgoes, Bool.not_false]) ?_
  show (if (next? (bytesOf src) _).any bad = true then fail fault else skip (bytesOf src)) _ = _
  rw [hnext, Option.any_some, if_pos hc]
  rfl

end

omit hheld in
/-- What has been passed is cut out by the positions in front of it and behind it. -/
theorem textBetween_eq {cs : List Char} (h : At src path cursor (cs ++ rest)) :
    textBetween (bytesOf src) cursor.pos (cursor.past cs).pos = .ok (String.ofList cs) := by
  obtain ⟨front, rfl, hpos⟩ := h.pos
  have hcut := textBetween_bytesOf front cs rest
  rwa [bytesOf_append front cs, List.length_append, List.append_assoc, ← hpos] at hcut

omit hheld in
theorem isReserved_of_large {c : Char} (hc : 0x80 ≤ c.toNat) : Parser.isReserved c = false := by
  rw [Parser.isReserved, decide_eq_false_iff_not]
  simp only [List.mem_cons, List.not_mem_nil, or_false]
  rintro (rfl | rfl | rfl | rfl | rfl | rfl | rfl) <;> exact absurd hc (by decide)

omit hheld in
theorem past_pos_eq_iff {cs : List Char} : (cursor.past cs).pos = cursor.pos ↔ cs = [] := by
  cases cs with
  | nil => simp [Cursor.past]
  | cons c cs =>
    have hsome := length_le_length_bytesOf (c :: cs)
    simp only [List.length_cons] at hsome
    simp only [Cursor.past, reduceCtorEq, iff_false]
    omega

theorem mirrors_identifier {stop : Char} (hstop : stop.toNat < 0x80) :
    Mirrors src path (identifier (bytesOf src) stop) (Parser.identifier stop) := by
  intro rest cursor h
  obtain ⟨cs, after, hrun⟩ : ∃ cs after, Parser.run (fun c => c ≠ stop && !Parser.isReserved c) rest =
      .ok (cs, after) := ⟨_, _, rfl⟩
  obtain ⟨hcs, rfl, hend⟩ := Parser.run_eq_ok.1 hrun
  have hpass (c : Char) (hc : c ∈ cs) : decide (c = stop) = false ∧ Parser.isReserved c = false := by
    simpa using hcs c hc
  have hstops (c : Char) (hc : 0x80 ≤ c.toNat) : decide (c = stop) = false := by
    rw [decide_eq_false_iff_not]
    rintro rfl
    omega
  have hreserved (c : Char) (hc : 0x80 ≤ c.toNat) := isReserved_of_large hc
  have hafter := h.forward
  rw [Parser.identifier, Reading.bind_of_ok hrun, Parser.peek_bind]
  cases hhead : after.head? with
  | none =>
    have hnone := hafter.alike.eq_none_iff.2 hhead
    have hfail : identifier (bytesOf src) stop cursor = fail .malformedIdentifier (cursor.past cs) := by
      rw [identifier, get_bind, bind_of_ok (scan_stop hheld hstops hreserved hpass h (by simp [hhead])),
        get_bind]
      exact congrFun (if_pos (.inr hnone)) _
    rw [hfail]
    exact mirrors_fail _ after _ hafter
  | some c =>
    dsimp only
    by_cases hc : c = stop
    · subst hc
      have hsome := mt hafter.alike.eq_none_iff.1 (by simp [hhead])
      rw [if_neg (by simp)]
      by_cases hempty : cs = []
      · have hfail : identifier (bytesOf src) c cursor = fail .malformedIdentifier (cursor.past cs) := by
          rw [identifier, get_bind, bind_of_ok (scan_stop hheld hstops hreserved hpass h (by simp [hhead])),
            get_bind]
          exact congrFun (if_pos (.inl (past_pos_eq_iff.2 hempty))) _
        rw [hfail, if_pos (by simp [hempty])]
        exact mirrors_fail _ after _ hafter
      · have hcut : identifier (bytesOf src) c cursor = .ok (.ok (String.ofList cs), cursor.past cs) := by
          rw [identifier, get_bind, bind_of_ok (scan_stop hheld hstops hreserved hpass h (by simp [hhead])),
            get_bind, if_neg (not_or.2 ⟨mt past_pos_eq_iff.1 hempty, hsome⟩), textBetween_eq h]
          rfl
        rw [hcut, if_neg (by simp [hempty])]
        exact ⟨_, rfl, hafter⟩
    · have hfail : identifier (bytesOf src) stop cursor = fail .illegalInIdentifier (cursor.past cs) := by
        rw [identifier, get_bind, bind_of_error (scan_bad hheld hstops hreserved hpass h hhead
          (decide_eq_false hc) (by simpa [hc] using hend c hhead))]
        rfl
      rw [hfail, if_pos hc]
      exact mirrors_fail _ after _ hafter

omit hheld in
theorem notMem_of_large {c : Char} (hc : 0x80 ≤ c.toNat) {cs : List Char} (hcs : ∀ d ∈ cs, d.toNat < 0x80) :
    decide (c ∈ cs) = false := by
  rw [decide_eq_false_iff_not]
  exact fun hmem => absurd (hcs c hmem) (Nat.not_lt_of_le hc)

omit hheld in
theorem className_eq : Parser.className = Parser.run (fun c => c ∉ [';', '<', '.', '[', '>', ':']) >>= fun name =>
    Parser.peek >>= fun head =>
      if head.any fun c => c ∈ ['[', '>', ':'] then Parser.fail .illegalInClassName
      else if name.isEmpty then Parser.fail .emptyClassName
      else pure name := by
  rw [Parser.className]
  congr 1
  funext name
  congr 1
  funext head
  split
  · rfl
  · rfl
  · rfl
  · next hbracket hclose hcolon =>
    refine (if_neg ?_).symm
    rw [Option.any_eq_true]
    rintro ⟨c, rfl, hc⟩
    simp only [List.mem_cons, List.not_mem_nil, or_false, decide_eq_true_eq] at hc
    obtain rfl | rfl | rfl := hc
    · exact hbracket rfl
    · exact hclose rfl
    · exact hcolon rfl

theorem mirrors_className : Mirrors src path (className (bytesOf src)) Parser.className := by
  intro rest cursor h
  obtain ⟨cs, after, hrun⟩ : ∃ cs after, Parser.run (fun c => c ∉ [';', '<', '.', '[', '>', ':']) rest =
      .ok (cs, after) := ⟨_, _, rfl⟩
  obtain ⟨hcs, rfl, hend⟩ := Parser.run_eq_ok.1 hrun
  have hends : ∀ c ∈ [';', '<', '.'], c.toNat < 0x80 := by simp
  have hwrong : ∀ c ∈ ['[', '>', ':'], c.toNat < 0x80 := by simp
  have hstops (c : Char) (hc : 0x80 ≤ c.toNat) := notMem_of_large hc hends
  have hbad (c : Char) (hc : 0x80 ≤ c.toNat) := notMem_of_large hc hwrong
  have hsplit (c : Char) : c ∈ [';', '<', '.', '[', '>', ':'] ↔ c ∈ [';', '<', '.'] ∨ c ∈ ['[', '>', ':'] :=
    List.mem_append (s := [';', '<', '.'])
  have hpass (c : Char) (hc : c ∈ cs) :
      decide (c ∈ [';', '<', '.']) = false ∧ decide (c ∈ ['[', '>', ':']) = false := by
    rw [decide_eq_false_iff_not, decide_eq_false_iff_not, ← not_or, ← hsplit]
    exact of_decide_eq_true (hcs c hc)
  have hafter := h.forward
  rw [className_eq, Reading.bind_of_ok hrun, Parser.peek_bind]
  by_cases hillegal : (after.head?.any fun c => c ∈ ['[', '>', ':']) = true
  · obtain ⟨c, hhead, hc⟩ := (Option.any_eq_true _ _).1 hillegal
    have hfail : className (bytesOf src) cursor = fail .illegalInClassName (cursor.past cs) := by
      have hgoes : decide (c ∈ [';', '<', '.']) = false := by
        have hdisjoint : ∀ c ∈ ['[', '>', ':'], c ∉ [';', '<', '.'] := by simp
        exact decide_eq_false (hdisjoint c (of_decide_eq_true hc))
      rw [className, get_bind, bind_of_error (scan_bad hheld hstops hbad hpass h hhead hgoes hc)]
      rfl
    rw [hfail, if_pos hillegal]
    exact mirrors_fail _ after _ hafter
  rw [if_neg hillegal]
  have hstopped (c : Char) (hhead : after.head? = some c) : decide (c ∈ [';', '<', '.']) = true := by
    have hc := of_decide_eq_false (hend c hhead)
    rw [not_not, hsplit] at hc
    refine decide_eq_true (hc.resolve_right fun hwrong => hillegal ?_)
    rw [hhead]
    exact decide_eq_true hwrong
  have hscan : scan _ _ _ .illegalInClassName cursor = _ :=
    scan_stop hheld hstops hbad hpass h hstopped
  by_cases hempty : cs = []
  · have hfail : className (bytesOf src) cursor = fail .emptyClassName (cursor.past cs) := by
      rw [className, get_bind, bind_of_ok hscan, get_bind]
      exact congrFun (if_pos (past_pos_eq_iff.2 hempty)) _
    rw [hfail, if_pos (by simp [hempty])]
    exact mirrors_fail _ after _ hafter
  · have hcut : className (bytesOf src) cursor = .ok (.ok cs, cursor.past cs) := by
      rw [className, get_bind, bind_of_ok hscan, get_bind, if_neg (mt past_pos_eq_iff.1 hempty),
        textBetween_eq h]
      show (pure (String.ofList cs).toList : Scanner (List Char)) (cursor.past cs) = _
      rw [String.toList_ofList]
      rfl
    rw [hcut, if_neg (by simp [hempty])]
    exact ⟨_, rfl, hafter⟩

end

end Scanner

end ApiSurface.Machine
