import ApiSurface.Pattern.Bracket
import ApiSurface.Text.Characters

/-!
Whether a pattern can be used.

A pattern is read by a machine that takes one item a step: a parenthesis, a bar, a class, a repetition
or an atom. It keeps a level for each group that is open. All that is kept of what has been read is
its height as a tree, which counts the groups, the repetitions, the sequences of several items and
the choices between several branches, because a tree that is too tall is refused.
-/

namespace ApiSurface.Pattern

/-- The most that a pattern can have in height. -/
def maxHeight : Nat := 250

/-- An open group, or the whole pattern, as far as it has been read. -/
structure Level where
  mode : Mode
  /-- The heights of the branches before the current one. -/
  branches : List Nat
  /-- The heights of the items of the current branch, last first. A change of the mode has none. -/
  items : List (Option Nat)
  deriving DecidableEq, Repr

namespace Level

def empty (mode : Mode) : Level := ⟨mode, [], []⟩

/-- The height of the current branch. -/
def branchHeight (level : Level) : Nat :=
  Bracket.joinHeights (level.items.map (·.getD 0))

def height (level : Level) : Nat :=
  Bracket.joinHeights (level.branchHeight :: level.branches)

def add (height : Nat) (level : Level) : Level :=
  { level with items := some height :: level.items }

/-- Changes the mode from here on. -/
def setMode (mode : Mode) (level : Level) : Level :=
  { level with mode, items := none :: level.items }

/-- Begins another branch. -/
def fork (level : Level) : Level :=
  { level with branches := level.branchHeight :: level.branches, items := [] }

/-- Repeats the last item, which must not be a change of the mode. -/
def repeatLast? (level : Level) : Option Level :=
  match level.items with
  | some height :: items => some { level with items := some (height + 1) :: items }
  | _ => none

end Level

/-- What the machine has read, and what it has yet to read. -/
structure Machine where
  rest : List Char
  /-- The names of groups. -/
  names : List String
  level : Level
  /-- The levels around it, innermost first. -/
  outer : List Level
  deriving DecidableEq, Repr

/-! ## Groups -/

/-- The letters that change the mode, and the sign that turns those behind it off. -/
def modeLetters : List Char :=
  ['i', 'm', 's', 'U', 'u', 'R', 'x', '-']

/-- Turns on or off what a letter stands for. Most of the letters matter only in matching. -/
def Mode.set (letter : Char) (value : Bool) (mode : Mode) : Mode :=
  match letter with
  | 'i' => { mode with foldsCase := value }
  | 'u' => { mode with ofCharacters := value }
  | 'x' => { mode with spaced := value }
  | _ => mode

/-- The mode after a change, the letters of the change, of which none comes twice, and the text from
the character on that ends them. They cannot end with the sign. -/
def readMode (mode : Mode) (seen : List Char) : List Char → Option (Mode × List Char × List Char)
  | [] => none
  | c :: rest =>
    if c = ':' || c = ')' then
      if seen.head? = some '-' then none else some (mode, seen, c :: rest)
    else if modeLetters.contains c && !seen.contains c then
      readMode (mode.set c (!seen.contains '-')) (c :: seen) rest
    else none

def isGroupName : List Char → Bool
  | [] => false
  | c :: rest =>
    (c = '_' || isAlphabetic c)
      && rest.all fun c => ['_', '.', '[', ']'].contains c || isAlphanumeric c

namespace Machine

/-- Begins a group. -/
def enter (mode : Mode) (rest : List Char) (m : Machine) : Machine :=
  { m with rest, level := .empty mode, outer := m.level :: m.outer }

/-- Begins a group whose name comes next. No other group has the name. -/
def enterNamed (text : List Char) (m : Machine) : Option Machine :=
  match text.span (· ≠ '>') with
  | (name, _ :: rest) =>
    let text := String.ofList name
    if isGroupName name && !m.names.contains text then
      some { m.enter m.level.mode rest with names := text :: m.names }
    else none
  | (_, []) => none

/-- Begins a group or changes the mode, as what follows an opening parenthesis tells. -/
def open? (text : List Char) (m : Machine) : Option Machine :=
  match m.level.mode.dropSpace text with
  | '?' :: 'P' :: '<' :: rest | '?' :: '<' :: rest => m.enterNamed rest
  | '?' :: rest =>
    match readMode m.level.mode [] rest with
    | some (mode, _, ':' :: rest) => some (m.enter mode rest)
    | some (mode, _ :: _, _ :: rest) => some { m with rest, level := m.level.setMode mode }
    | _ => none
  | rest => some (m.enter m.level.mode rest)

/-- Ends the innermost group. -/
def close? (rest : List Char) (m : Machine) : Option Machine :=
  match m.outer with
  | [] => none
  | around :: outer =>
    some { m with rest, level := around.add (m.level.height + 1), outer }

/-! ## Steps -/

/-- Adds an item. -/
def add (height : Nat) (rest : List Char) (m : Machine) : Machine :=
  { m with rest, level := m.level.add height }

/-- An item that is a character, a point, an edge of a line or an escape. -/
def readAtom (mode : Mode) : List Char → Option (Atom × List Char)
  | [] => none
  | '\\' :: rest => readEscape mode rest
  | '.' :: rest => some (.any, rest)
  | '^' :: rest | '$' :: rest => some (.edge, rest)
  | c :: rest => some (.literal c false, rest)

/-- Takes the next item. Counts of repetitions are not supported. -/
def step? (m : Machine) : Option Machine :=
  match m.rest with
  | '(' :: rest => m.open? rest
  | ')' :: rest => m.close? rest
  | '|' :: rest => some { m with rest, level := m.level.fork }
  | '[' :: rest => do
    let (height, rest) ← readClass m.level.mode rest
    return m.add height rest
  | '?' :: rest | '*' :: rest | '+' :: rest => do
    let level ← m.level.repeatLast?
    return { m with rest := if rest.head? = some '?' then rest.tail else rest, level }
  | '\x7b' :: _ => none
  | text => do
    let (atom, rest) ← readAtom m.level.mode text
    guard (atom.isUsable m.level.mode)
    return m.add 0 rest

/-- The machine at the end of its text. Every step takes a character, so that the length of the text
bounds their number. -/
def run : Nat → Machine → Option Machine
  | 0, _ => none
  | steps + 1, m =>
    let m := { m with rest := m.level.mode.dropSpace m.rest }
    if m.rest.isEmpty then some m else m.step?.bind (run steps)

end Machine

/-- The text is a pattern, all groups of which are closed, and it is not too tall. -/
def isUsable (text : List Char) : Bool :=
  (Machine.run (text.length + 1) ⟨text, [], .empty .plain, []⟩).any fun m =>
    m.outer.isEmpty && m.level.height ≤ maxHeight

end ApiSurface.Pattern
