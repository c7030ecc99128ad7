import ApiSurface.Text.Characters
import ApiSurface.Text.OsString

/-!
JSON values, and their text for people: each element on a line of its own, indented by two blanks for
each level.

The text is written from front to back. A path that is no text cannot be written, so what stands in front
of it is all that there is then.
-/

namespace ApiSurface

/-- The JSON values that answers are made of. -/
inductive Json
  | text (s : String)
  | path (s : OsString)
  | count (n : Nat)
  | boolean (b : Bool)
  | array (items : List Json)
  /-- The fields in the order in which they are written. -/
  | object (fields : List (String × Json))

namespace Json

/-- A character of a text, escaped if it has to be. -/
def escaped (c : Char) : List Char :=
  match c with
  | '"' => ['\\', '"']
  | '\\' => ['\\', '\\']
  | '\x08' => ['\\', 'b']
  | '\x0c' => ['\\', 'f']
  | '\n' => ['\\', 'n']
  | '\r' => ['\\', 'r']
  | '\t' => ['\\', 't']
  | c => if c.toNat < 0x20 then '\\' :: 'u' :: fourHexDigits 'a' c.toNat else [c]

def quoted (s : String) : String :=
  String.ofList ('"' :: s.toList.flatMap escaped ++ ['"'])

/-- The start of a line at a level. -/
def newLine (level : Nat) : String :=
  "\n" ++ String.ofList (List.replicate (2 * level) ' ')

/-- What has been written of a text, and if it is not all, why. -/
structure Output where
  text : String
  fault : Option String
  deriving DecidableEq, Repr

def Output.whole (text : String) : Output :=
  ⟨text, none⟩

/-- Nothing is written behind a fault. -/
instance : Append Output where
  append front back :=
    match front.fault with
    | none => ⟨front.text ++ back.text, back.fault⟩
    | some _ => front

/-- The elements, with a comma and the start of a line between them. -/
def separated (level : Nat) : List Output → Output
  | [] => .whole ""
  | [item] => item
  | item :: rest => item ++ .whole ("," ++ newLine level) ++ separated level rest

/-- The elements between two brackets; without elements the brackets stand together. -/
def bracketed (level : Nat) (left right : String) : List Output → Output
  | [] => .whole (left ++ right)
  | items =>
    .whole (left ++ newLine (level + 1)) ++ separated (level + 1) items ++ .whole (newLine level ++ right)

/-- A path is written as the text that it is. -/
def writePath (s : OsString) : Output :=
  match s.text? with
  | some value => .whole (quoted value)
  | none => ⟨"", some "path contains invalid UTF-8 characters"⟩

mutual

/-- The text of a value at a level. -/
def textAt (level : Nat) : Json → Output
  | .text s => .whole (quoted s)
  | .path s => writePath s
  | .count n => .whole (toString n)
  | .boolean b => .whole (if b then "true" else "false")
  | .array items => bracketed level "[" "]" (textsOfItems (level + 1) items)
  | .object fields => bracketed level "\x7b" "\x7d" (textsOfFields (level + 1) fields)

def textsOfItems (level : Nat) : List Json → List Output
  | [] => []
  | item :: rest => textAt level item :: textsOfItems level rest

def textsOfFields (level : Nat) : List (String × Json) → List Output
  | [] => []
  | (key, value) :: rest => (.whole (quoted key ++ ": ") ++ textAt level value) :: textsOfFields level rest

end

/-- The text of a value. -/
def pretty (j : Json) : Output :=
  j.textAt 0

end Json

end ApiSurface
