import ApiSurface.Text.Characters

/-!
Writing values as a settings file holds them.

A text is written in the first form that holds it without escapes, other than for tabs: in double
quotes, in single quotes, and then in three of either. When there is no such form, it is written in
double quotes with escapes.
-/

namespace ApiSurface.Toml

/-! ## Texts -/

/-- A form of a quoted text: its quote, and whether there are three of them at each end. -/
structure QuotedForm where
  quote : Char
  triple : Bool
  deriving DecidableEq, Repr

/-- Cannot stand in any text as it is. -/
def isControl (c : Char) : Bool :=
  (c.toNat < 0x20 || c.toNat = 0x7F) && c ≠ '\t' && c ≠ '\n'

/-- The length of the longest run of `q`, of which the first `run` characters are already behind. -/
def longestRun (q : Char) (run : Nat) : List Char → Nat
  | [] => run
  | c :: rest => if c = q then longestRun q (run + 1) rest else max run (longestRun q 0 rest)

/-- An escape of one character, in one with double quotes. -/
def escapeOf (c : Char) : List Char :=
  match c with
  | '\x08' => ['\\', 'b']
  | '\t' => ['\\', 't']
  | '\n' => ['\\', 'n']
  | '\x0c' => ['\\', 'f']
  | '\r' => ['\\', 'r']
  | '"' => ['\\', '"']
  | '\\' => ['\\', '\\']
  | c => '\\' :: 'u' :: fourHexDigits 'A' c.toNat

namespace QuotedForm

/-- The mark at each end. -/
def delimiter (f : QuotedForm) : List Char :=
  List.replicate (if f.triple then 3 else 1) f.quote

/-- The number of quotes that may follow each other in the text. -/
def maxRun (f : QuotedForm) : Nat :=
  if f.triple then 2 else 0

/-- Within double quotes a backslash starts an escape. -/
def hasEscapes (f : QuotedForm) : Bool :=
  f.quote = '"'

/-- The form holds the text without an escape, other than for tabs. -/
def holds (f : QuotedForm) (s : List Char) : Bool :=
  !s.any isControl && !(f.hasEscapes && s.contains '\\') && (f.triple || !s.contains '\n')
    && longestRun f.quote 0 s ≤ f.maxRun

/-- The character has to be escaped, quotes apart. -/
def escapes (f : QuotedForm) (c : Char) : Bool :=
  isControl c || c = '\t' || c = '\\' || (c = '\n' && !f.triple)

/-- The text with its escapes, where `run` quotes have just been written as they are. -/
def escapedFrom (f : QuotedForm) (run : Nat) : List Char → List Char
  | [] => []
  | c :: rest =>
    if c = f.quote then
      if run < f.maxRun then c :: escapedFrom f (run + 1) rest
      else escapeOf c ++ escapedFrom f 0 rest
    else if f.escapes c then escapeOf c ++ escapedFrom f 0 rest
    else c :: escapedFrom f 0 rest

/-- The text between the marks. A newline behind the first mark is dropped by readers, so one is put
there when there are several lines. -/
def body (f : QuotedForm) (s : List Char) : List Char :=
  (if f.triple && s.contains '\n' then ['\n'] else [])
    ++ (if f.hasEscapes then f.escapedFrom 0 s else s)

def write (f : QuotedForm) (s : List Char) : List Char :=
  f.delimiter ++ f.body s ++ f.delimiter

/-- The forms, the most wanted first. -/
def all : List QuotedForm :=
  [⟨'"', false⟩, ⟨'\'', false⟩, ⟨'"', true⟩, ⟨'\'', true⟩]

/-- The form in which a text is written. -/
def ofText (s : List Char) : QuotedForm :=
  (all.find? (·.holds s)).getD ⟨'"', s.contains '\n'⟩

end QuotedForm

def writeText (s : String) : String :=
  String.ofList ((QuotedForm.ofText s.toList).write s.toList)

/-! ## Lists and entries -/

/-- Several elements stand on a line each. -/
def writeTexts : List String → String
  | [] => "[]"
  | [s] => "[" ++ writeText s ++ "]"
  | items => "[\n" ++ String.join (items.map fun s => "    " ++ writeText s ++ ",\n") ++ "]"

def writeBool (b : Bool) : String :=
  if b then "true" else "false"

/-- A key with its value, which is written already. -/
def writeEntry (key value : String) : String :=
  key ++ " = " ++ value ++ "\n"

/-- Tables with their entries, which are written already; an empty line stands between them. -/
def writeTables (tables : List (String × String)) : String :=
  "\n".intercalate (tables.map fun (name, entries) => "[" ++ name ++ "]\n" ++ entries)

end ApiSurface.Toml
