import ApiSurface.Text.Characters
import ApiSurface.Toml.Scanner

/-!
Quoted text in a settings file.

There are four forms: in double quotes with escapes or in single quotes as it stands, each on one
line or, with three quotes, on several.
-/

namespace ApiSurface.Toml.Quoted

/-- The character with the number that the next `n` hexadecimal digits give. -/
def numbered (n : Nat) : Scanner Char := fun rest => do
  let digits ← (rest.take n).mapM (digitValue? 16)
  guard (digits.length = n)
  let code := digits.foldl (fun value d => value * 16 + d) 0
  guard code.isValidChar
  return (Char.ofNat code, rest.drop n)

/-- What an escape stands for, when it is a single letter behind the backslash. -/
def letterEscape? : Char → Option Char
  | 'b' => some '\x08'
  | 't' => some '\t'
  | 'n' => some '\n'
  | 'f' => some '\x0c'
  | 'r' => some '\r'
  | 'e' => some '\x1b'
  | '"' => some '"'
  | '\\' => some '\\'
  | _ => none

/-- The number of digits behind a letter that announces the number of a character. -/
def digitCount? : Char → Option Nat
  | 'x' => some 2
  | 'u' => some 4
  | 'U' => some 8
  | _ => none

/-- An escape without its backslash. -/
def escape : Scanner Char
  | c :: rest =>
    match digitCount? c with
    | some n => numbered n rest
    | none => (letterEscape? c).map (·, rest)
  | [] => none

/-- A character that stands for itself. -/
def plain : Scanner (List Char)
  | c :: rest => if isPlain c then some ([c], rest) else none
  | [] => none

/-- A character or an escape. -/
def piece : Scanner (List Char)
  | '\\' :: rest => (escape rest).map fun (c, rest) => ([c], rest)
  | rest => plain rest

/-- A character or a newline, which stays as it is written. -/
def plainOrNewline : Scanner (List Char)
  | '\n' :: rest => some (['\n'], rest)
  | '\r' :: '\n' :: rest => some (['\r', '\n'], rest)
  | rest => plain rest

/-- A character, an escape or a newline. A backslash at the end of a line drops the newline and all
blanks and newlines behind it. -/
def lineOrPiece : Scanner (List Char)
  | '\\' :: rest =>
    match afterNewline? (rest.dropWhile isBlank) with
    | some rest => some ([], dropSpace rest)
    | none => piece ('\\' :: rest)
  | rest => plainOrNewline rest

/-- The text up to the quote `quote`. -/
def oneLine (quote : Char) (item : Scanner (List Char)) : Scanner (List Char) := do
  let pieces ← Scanner.manyUntil (·.head? = some quote) item
  Scanner.expect [quote]
  return pieces.flatten

/-- The text up to three quotes; a newline at its start is dropped. Of a run of quotes at the end the
last three close the text, and at most two belong to it. -/
def manyLines (quote : Char) (item : Scanner (List Char)) : Scanner (List Char) := fun rest => do
  let rest := (afterNewline? rest).getD rest
  let closing := List.replicate 3 quote
  let (pieces, rest) ← Scanner.manyUntil closing.isPrefixOf item rest
  let extra := min 2 ((rest.takeWhile (· = quote)).length - 3)
  return (pieces.flatten ++ List.replicate extra quote, rest.drop (extra + 3))

/-- A text in one of the two forms on one line. -/
def single : Scanner (List Char)
  | '"' :: rest => oneLine '"' piece rest
  | '\'' :: rest => oneLine '\'' plain rest
  | _ => none

/-- A text in one of the four forms. -/
def any : Scanner (List Char)
  | '"' :: '"' :: '"' :: rest => manyLines '"' lineOrPiece rest
  | '\'' :: '\'' :: '\'' :: rest => manyLines '\'' plainOrNewline rest
  | rest => single rest

end ApiSurface.Toml.Quoted
