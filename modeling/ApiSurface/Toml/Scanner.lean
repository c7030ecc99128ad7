/-!
Reading a settings file from its front: blanks, newlines, comments and repetition.

A newline is a line feed, alone or behind a carriage return. A carriage return alone stands nowhere.
-/

namespace ApiSurface.Toml

/-- What can be read from the front of a text. -/
abbrev Scanner := StateT (List Char) Option

/-- Between words of one line. -/
def isBlank (c : Char) : Bool :=
  c = ' ' || c = '\t'

/-- May stand in comments and strings: no control character other than the tab. -/
def isPlain (c : Char) : Bool :=
  c = '\t' || (0x20 ≤ c.toNat && c.toNat ≠ 0x7F)

/-- The text behind a newline, if one is next. -/
def afterNewline? : List Char → Option (List Char)
  | '\n' :: rest => some rest
  | '\r' :: '\n' :: rest => some rest
  | _ => none

/-- Drops blanks and newlines. -/
def dropSpace : List Char → List Char
  | '\n' :: rest => dropSpace rest
  | '\r' :: '\n' :: rest => dropSpace rest
  | c :: rest => if isBlank c then dropSpace rest else c :: rest
  | [] => []

/-- Drops blanks, newlines and comments. A comment with a character that may not stand there is
dropped up to that character, with which nothing starts. -/
def dropGap (inComment : Bool) : List Char → List Char
  | '\n' :: rest => dropGap false rest
  | '\r' :: '\n' :: rest => dropGap false rest
  | c :: rest =>
    if inComment then
      if isPlain c then dropGap true rest else c :: rest
    else if c = '#' then dropGap true rest
    else if isBlank c then dropGap false rest
    else c :: rest
  | [] => []

namespace Scanner

/-- Drops blanks. -/
def blanks : Scanner Unit := fun rest =>
  some ((), rest.dropWhile isBlank)

/-- Drops blanks, newlines and comments. -/
def gap : Scanner Unit := fun rest =>
  some ((), dropGap false rest)

/-- The text not yet read, which stays. -/
def peek : Scanner (List Char) := fun rest =>
  some (rest, rest)

/-- Drops the characters `mark`, which have to be next. -/
def expect (mark : List Char) : Scanner Unit := fun rest =>
  if mark.isPrefixOf rest then some ((), rest.drop mark.length) else none

/-- Drops the character `c` if it is next, and says whether it was. -/
def accept (c : Char) : Scanner Bool := fun rest =>
  if rest.head? = some c then some (true, rest.tail) else some (false, rest)

/-- The longest run of characters that satisfy `p`. -/
def run (p : Char → Bool) : Scanner (List Char) := fun rest =>
  some (rest.span p)

/-- The end of a line: blanks, perhaps a comment, and a newline or the end of the text. -/
def lineEnd : Scanner Unit := fun rest =>
  let rest := rest.dropWhile isBlank
  let rest := if rest.head? = some '#' then rest.dropWhile isPlain else rest
  if rest.isEmpty then some ((), rest) else (afterNewline? rest).map ((), ·)

/-! ## Repetition

Every item that is repeated takes at least one character. The loop therefore recurses on the text it
starts with, dropping one character of it for each item, and never finds it used up.
-/

/-- Items behind `done`, which is kept last first, until `stop` holds of the rest. -/
def manyAfter (stop : List Char → Bool) (item : Scanner α) :
    List Char → List α → Scanner (List α)
  | clock, done => fun rest =>
    if stop rest then
      some (done.reverse, rest)
    else
      match item rest, clock with
      | some (a, rest), _ :: clock => manyAfter stop item clock (a :: done) rest
      | _, _ => none

/-- Items until `stop` holds of the rest. -/
def manyUntil (stop : List Char → Bool) (item : Scanner α) : Scanner (List α) := fun rest =>
  manyAfter stop item rest [] rest

/-- An item of a list and what separates it from the next one: a comma, or the end of the list. -/
def listItem (close : Char) (item : Scanner α) : Scanner α := do
  let a ← item
  gap
  if ← accept ',' then
    gap
  else if (← peek).head? ≠ some close then
    failure
  return a

/-- Items in brackets, of which the opening one has been read. The last one may have a comma, and
newlines and comments may stand anywhere between them. -/
def listUntil (close : Char) (item : Scanner α) : Scanner (List α) := do
  gap
  let items ← manyUntil (·.head? = some close) (listItem close item)
  expect [close]
  return items

end Scanner

end ApiSurface.Toml
