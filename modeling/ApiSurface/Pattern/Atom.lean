import ApiSurface.Text.Characters

/-!
The smallest parts of a pattern, a regular expression: single characters, escapes and what may stand
between them.

Patterns are matched without tables of Unicode properties, and only against whole characters. A
pattern that would need such a table, or that could stop inside of a character, cannot be used.
-/

namespace ApiSurface.Pattern

/-- How a part of a pattern is read. A pattern can change it as it goes on. -/
structure Mode where
  /-- White space and comments between the parts mean nothing. -/
  spaced : Bool
  /-- Letters stand for themselves in either case. -/
  foldsCase : Bool
  /-- A part stands for characters; otherwise for bytes. -/
  ofCharacters : Bool
  deriving DecidableEq, Repr

/-- The mode in which a pattern starts. -/
def Mode.plain : Mode := ⟨false, false, true⟩

/-! ## Space -/

/-- Drops white space and comments, which end with their line. -/
def dropComments (inComment : Bool) : List Char → List Char
  | [] => []
  | c :: rest =>
    if inComment then dropComments (c ≠ '\n') rest
    else if isWhiteSpace c then dropComments false rest
    else if c = '#' then dropComments true rest
    else c :: rest

/-- Drops what means nothing. -/
def Mode.dropSpace (mode : Mode) (text : List Char) : List Char :=
  if mode.spaced then dropComments false text else text

/-! ## Atoms -/

/-- What a single character or an escape stands for. -/
inductive Atom
  /-- A character, and whether it was given as the number of a byte. -/
  | literal (c : Char) (isByte : Bool)
  /-- Any character. -/
  | any
  /-- Digits, white space or the characters of words, or else all others. -/
  | kind (isNegated : Bool)
  /-- The start or the end of the text or of a line. -/
  | edge
  /-- An edge of a word, or a place that is none. -/
  | wordEdge
  deriving DecidableEq, Repr

/-- The character is in ASCII. -/
def isAscii (c : Char) : Bool :=
  c.toNat < 0x80

/-- The atom can be used on its own. -/
def Atom.isUsable (mode : Mode) : Atom → Bool
  | .literal c isByte =>
    if mode.ofCharacters then !mode.foldsCase else isAscii c || !isByte
  | .any => mode.ofCharacters
  | .kind isNegated => !mode.ofCharacters && !isNegated
  | .edge => true
  | .wordEdge => !mode.ofCharacters

/-- The atom can be used as a member of a class. -/
def Atom.isMember (mode : Mode) : Atom → Bool
  | .literal c _ => if mode.ofCharacters then !mode.foldsCase else isAscii c
  | .kind isNegated => !mode.ofCharacters && !isNegated
  | .any | .edge | .wordEdge => false

/-- The range between two atoms can be used as a member of a class. -/
def Atom.isRange (mode : Mode) : Atom → Atom → Bool
  | .literal first isByte, .literal last isByte' =>
    first ≤ last && (Atom.literal first isByte).isMember mode
      && (Atom.literal last isByte').isMember mode
  | _, _ => false

/-! ## Escapes -/

/-- The number that the next `n` hexadecimal digits continue, with `value` before them. -/
def hexNumber (mode : Mode) : Nat → Nat → List Char → Option (Nat × List Char)
  | 0, value, rest => some (value, rest)
  | n + 1, value, rest =>
    match mode.dropSpace rest with
    | [] => none
    | c :: rest => do
      let d ← digitValue? 16 c
      hexNumber mode n (value * 16 + d) rest

/-- The character whose number is given in `n` hexadecimal digits. -/
def numbered (mode : Mode) (n : Nat) (isByte : Bool) (rest : List Char) :
    Option (Atom × List Char) := do
  let (code, rest) ← hexNumber mode n 0 rest
  guard code.isValidChar
  return (.literal (Char.ofNat code) isByte, rest)

/-- What a single letter stands for behind a backslash. -/
def letterEscape? : Char → Option Atom
  | 'a' => some (.literal '\x07' false)
  | 't' => some (.literal '\t' false)
  | 'n' => some (.literal '\n' false)
  | 'v' => some (.literal '\x0b' false)
  | 'f' => some (.literal '\x0c' false)
  | 'r' => some (.literal '\r' false)
  | 'd' | 's' | 'w' => some (.kind false)
  | 'D' | 'S' | 'W' => some (.kind true)
  | 'A' | 'z' => some .edge
  | 'b' | 'B' | '<' | '>' => some .wordEdge
  | _ => none

/-- What follows a backslash. A character of ASCII that is no letter and no digit stands for itself,
but for the two that are edges of words. -/
def readEscape (mode : Mode) : List Char → Option (Atom × List Char)
  | [] => none
  | 'x' :: rest => numbered mode 2 true rest
  | 'u' :: rest => numbered mode 4 false rest
  | 'U' :: rest => numbered mode 8 false rest
  | c :: rest =>
    match letterEscape? c with
    | some atom => some (atom, rest)
    | none => if isAscii c && !c.isAlphanum then some (.literal c false, rest) else none

end ApiSurface.Pattern
