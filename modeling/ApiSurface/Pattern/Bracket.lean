import ApiSurface.Pattern.Atom

/-!
Classes of characters in a pattern, in brackets.

A class is a union of members: characters, ranges, classes with a name and classes in brackets.
Between unions there may be operators, which are applied from the left. All that is kept of a class
is its height as a tree, which counts the brackets, the unions of several members and the operators.
-/

namespace ApiSurface.Pattern

/-- A class in brackets, as far as it has been read. -/
structure Bracket where
  /-- Nothing but hyphens has been read. A hyphen is a member then, and so is a first `]`. -/
  isFresh : Bool
  /-- The height of what stands before the last operator. -/
  left : Option Nat
  /-- The heights of the members behind the last operator. -/
  members : List Nat
  deriving DecidableEq, Repr

namespace Bracket

def empty : Bracket := ⟨true, none, []⟩

/-- The tallest of several trees below one node; a single tree needs no node. -/
def joinHeights : List Nat → Nat
  | [] => 0
  | [height] => height
  | heights => heights.foldl max 0 + 1

/-- The height of the class without its brackets. -/
def innerHeight (b : Bracket) : Nat :=
  match b.left with
  | none => joinHeights b.members
  | some left => max left (joinHeights b.members) + 1

def height (b : Bracket) : Nat :=
  b.innerHeight + 1

/-- Adds a member with which the class is no longer fresh. -/
def add (height : Nat) (b : Bracket) : Bracket :=
  { b with isFresh := false, members := height :: b.members }

/-- Adds a hyphen to a class that stays fresh. -/
def addHyphen (b : Bracket) : Bracket :=
  { b with members := 0 :: b.members }

/-- Adds an operator. -/
def addOperator (b : Bracket) : Bracket :=
  ⟨false, some b.innerHeight, []⟩

end Bracket

/-! ## Members -/

/-- The names of classes, which stand between `[:` and `:]`. -/
def classNames : List String :=
  ["alnum", "alpha", "ascii", "blank", "cntrl", "digit", "graph", "lower", "print", "punct",
    "space", "upper", "word", "xdigit"]

/-- A name between colons and its closing bracket. -/
def closedName? (isNegated : Bool) (text : List Char) : Option (Bool × List Char) :=
  match text.span (· ≠ ':') with
  | (name, ':' :: ']' :: rest) =>
    if classNames.contains (String.ofList name) then some (isNegated, rest) else none
  | _ => none

/-- The rest of a class with a name behind its opening bracket, and whether it is negated. -/
def namedClass? : List Char → Option (Bool × List Char)
  | ':' :: '^' :: rest => closedName? true rest
  | ':' :: rest => closedName? false rest
  | _ => none

/-- A class with a name can be used. -/
def isNamedUsable (mode : Mode) (isNegated : Bool) : Bool :=
  if mode.ofCharacters then !mode.foldsCase else !isNegated

/-- The next character other than white space. One number sign is passed as well. -/
def peekBehindSpace (mode : Mode) (text : List Char) : Option Char :=
  if mode.spaced then
    match text.dropWhile isWhiteSpace with
    | '#' :: rest => (rest.dropWhile isWhiteSpace).head?
    | rest => rest.head?
  else text.head?

/-- A single character or an escape. -/
def readMember (mode : Mode) : List Char → Option (Atom × List Char)
  | [] => none
  | '\\' :: rest => readEscape mode rest
  | c :: rest => some (.literal c false, rest)

/-- A member or a range, whichever can be used. A hyphen makes no range when the class ends behind it
or another hyphen follows. -/
def readRange (mode : Mode) (text : List Char) : Option (List Char) := do
  let (first, rest) ← readMember mode text
  match mode.dropSpace rest with
  | '-' :: rest =>
    if [some ']', some '-'].contains (peekBehindSpace mode rest) then
      guard (first.isMember mode)
      return '-' :: rest
    else
      let (last, rest) ← readMember mode (mode.dropSpace rest)
      guard (first.isRange mode last)
      return rest
  | rest =>
    guard (first.isMember mode)
    return rest

/-- The opening of a class behind its bracket. -/
def openBracket (mode : Mode) (text : List Char) : Option (List Char) :=
  match mode.dropSpace text with
  | '^' :: rest => if mode.ofCharacters then some rest else none
  | rest => some rest

/-! ## Classes -/

/-- The rest of a class `b` and of those around it, which begin inside of each other: their height
and the text behind them. Every step takes a character, so that the length of the text bounds their
number. -/
def readBrackets (mode : Mode) : Nat → Bracket → List Bracket → List Char →
    Option (Nat × List Char)
  | 0, _, _, _ => none
  | steps + 1, b, outer, text =>
    match b.isFresh, mode.dropSpace text with
    | true, '-' :: rest =>
      if (Atom.literal '-' false).isMember mode then
        readBrackets mode steps b.addHyphen outer rest
      else none
    | isFresh, ']' :: rest =>
      if isFresh && b.members.isEmpty then
        if (Atom.literal ']' false).isMember mode then
          readBrackets mode steps (b.add 0) outer rest
        else none
      else
        match outer with
        | [] => some (b.height, rest)
        | around :: outer => readBrackets mode steps (around.add b.height) outer rest
    | _, '[' :: rest =>
      match namedClass? rest with
      | some (isNegated, rest) =>
        if isNamedUsable mode isNegated then readBrackets mode steps (b.add 0) outer rest
        else none
      | none =>
        (openBracket mode rest).bind (readBrackets mode steps .empty (b :: outer))
    | _, '&' :: '&' :: rest | _, '-' :: '-' :: rest | _, '~' :: '~' :: rest =>
      readBrackets mode steps b.addOperator outer rest
    | _, text => (readRange mode text).bind (readBrackets mode steps (b.add 0) outer)

/-- A class behind its opening bracket: its height and the text behind it. -/
def readClass (mode : Mode) (text : List Char) : Option (Nat × List Char) := do
  let text ← openBracket mode text
  readBrackets mode (text.length + 1) .empty [] text

end ApiSurface.Pattern
