import ApiSurface.Text.Characters
import ApiSurface.Toml.Scanner
import ApiSurface.Toml.Value

/-!
Values that are written without quotes: numbers, truth values, dates and times.

Such a value is one word; each form of it has a grammar of its own, and no word belongs to two of
them.
-/

namespace ApiSurface.Toml.Literal

/-! ## Integers

The word of an integer is looked at twice. Its outer shape is checked at once; whether its digits are
those of a number shows only when somebody reads it.
-/

def isDigit (base : Nat) (c : Char) : Bool :=
  (digitValue? base c).isSome

/-- The number that digits denote, most significant first. -/
def ofDigits (base : Nat) (digits : List Nat) : Nat :=
  digits.foldl (fun n d => n * base + d) 0

/-- The number that a word denotes, if it consists of digits. -/
def number? (base : Nat) (word : List Char) : Option Nat :=
  if word.isEmpty then none else (word.mapM (digitValue? base)).map (ofDigits base)

/-- Whether a word starts with a minus, and what stands behind its sign. -/
def splitSign : List Char → Bool × List Char
  | '-' :: rest => (true, rest)
  | '+' :: rest => (false, rest)
  | word => (false, word)

def signed (negative : Bool) (n : Nat) : Int :=
  if negative then -n else n

/-- No superfluous zero stands in front. -/
def isTrimmed (word : List Char) : Bool :=
  word.length ≤ 1 || word.head? ≠ some '0'

/-- An integer in a base that its first two characters name. It may even have no digit. -/
def radixInteger? (base : Nat) (word : List Char) : Option Scalar := do
  let groups := word.splitOn '_'
  guard (groups.length = 1 || groups.all (!·.isEmpty))
  guard (groups.flatten.all (isDigit base))
  return ((number? base groups.flatten).map (.integer ·)).getD .misshapen

/-- A group behind an underscore. Its ends have to look like digits of some base; the end of the last
group need not. -/
def isGroup (isLast : Bool) (group : List Char) : Bool :=
  group.head?.any (isDigit 16) && (isLast || group.getLast?.any (isDigit 16)) &&
    group.all fun c => c ≠ '.' && c ≠ 'e' && c ≠ 'E'

/-- All of the groups behind underscores are in order. -/
def areGroups : List (List Char) → Bool
  | [] => true
  | [group] => isGroup true group
  | group :: rest => isGroup false group && areGroups rest

/-- Decimal digits without a superfluous zero in front, and groups behind underscores. -/
def isDecimalShape : List (List Char) → Bool
  | [] => false
  | front :: groups =>
    !front.isEmpty && front.all Char.isDigit && isTrimmed front &&
      (groups.isEmpty || front.head? ≠ some '0') && areGroups groups

/-- An integer in base ten, which may have a sign. -/
def decimalInteger? (word : List Char) : Option Scalar := do
  let (negative, word) := splitSign word
  let groups := word.splitOn '_'
  guard (isDecimalShape groups)
  return ((number? 10 groups.flatten).map (.integer <| signed negative ·)).getD .misshapen

def integer? : List Char → Option Scalar
  | '0' :: 'x' :: word => radixInteger? 16 word
  | '0' :: 'o' :: word => radixInteger? 8 word
  | '0' :: 'b' :: word => radixInteger? 2 word
  | word => decimalInteger? word

/-! ## Other numbers and truth values -/

/-- Decimal digits, in groups that are separated by single underscores. -/
def digits? (word : List Char) : Option (List Nat) := do
  let groups ← (word.splitOn '_').mapM fun group => group.mapM (digitValue? 10)
  guard (groups.all (!·.isEmpty))
  return groups.flatten

/-- An exponent: a sign and digits, which may start with zeros. -/
def exponent? (word : List Char) : Option Int :=
  let (negative, word) := splitSign word
  (digits? word).map (signed negative <| ofDigits 10 ·)

/-- A number with a fraction, an exponent or both, without its sign. -/
def unsignedDecimal? (word : List Char) : Option Scalar := do
  let (mantissa, scale) := word.span fun c => c ≠ 'e' && c ≠ 'E'
  let (whole, fraction) := mantissa.span (· ≠ '.')
  guard (!scale.isEmpty || !fraction.isEmpty)
  let whole := ofDigits 10 (← digits? whole)
  let fraction ← if fraction.isEmpty then some [] else digits? fraction.tail
  let exponent ← if scale.isEmpty then some 0 else exponent? scale.tail
  return .decimal (Scalar.scaled whole fraction.length + ofDigits 10 fraction)
    (exponent - fraction.length)

/-- The digits before a point or an exponent. -/
def wholePart (word : List Char) : List Char :=
  word.takeWhile fun c => c ≠ '.' && c ≠ 'e' && c ≠ 'E'

/-- A number that need not be whole, which may have a sign. -/
def decimal? (word : List Char) : Option Scalar :=
  let (_, word) := splitSign word
  if word = "inf".toList || word = "nan".toList then
    some .notFinite
  else if isTrimmed (wholePart word) then
    unsignedDecimal? word
  else
    none

def boolean? (word : List Char) : Option Scalar :=
  if word = "true".toList then some (.boolean true)
  else if word = "false".toList then some (.boolean false)
  else none

/-! ## Dates and times -/

/-- A number of exactly `n` decimal digits between `low` and `high`. -/
def ranged (n low high : Nat) : Scanner Nat := fun rest => do
  let digits ← (rest.take n).mapM (digitValue? 10)
  guard (digits.length = n)
  let value := ofDigits 10 digits
  guard (low ≤ value && value ≤ high)
  return (value, rest.drop n)

def isLeapYear (year : Nat) : Bool :=
  year % 4 = 0 && (year % 100 ≠ 0 || year % 400 = 0)

def daysInMonth (year month : Nat) : Nat :=
  if month = 2 then (if isLeapYear year then 29 else 28)
  else if month = 4 || month = 6 || month = 9 || month = 11 then 30
  else 31

/-- A day of the calendar. -/
def date : Scanner Unit := do
  let year ← ranged 4 0 9999
  Scanner.expect ['-']
  let month ← ranged 2 1 12
  Scanner.expect ['-']
  discard (ranged 2 1 (daysInMonth year month))

/-- The part of a second behind a point. -/
def fractionOfSecond : Scanner Unit := do
  if ← Scanner.accept '.' then
    let digits ← Scanner.run Char.isDigit
    guard (!digits.isEmpty)

/-- A time of the day. Seconds may be left out, and there may be a leap second. -/
def time : Scanner Unit := do
  discard (ranged 2 0 23)
  Scanner.expect [':']
  discard (ranged 2 0 59)
  if ← Scanner.accept ':' then
    discard (ranged 2 0 60)
    fractionOfSecond

/-- The distance from universal time, less than a day, or its letter, or nothing. -/
def offset : Scanner Unit := fun rest =>
  match rest with
  | 'Z' :: rest | 'z' :: rest => some ((), rest)
  | '+' :: rest | '-' :: rest => (do
      discard (ranged 2 0 23)
      Scanner.expect [':']
      discard (ranged 2 0 59) : Scanner Unit) rest
  | _ => some ((), rest)

/-- A time with an offset behind a date, if there is one. -/
def timeBehindDate : Scanner Unit := fun rest =>
  match rest with
  | 'T' :: rest | 't' :: rest | ' ' :: rest => (do time; offset : Scanner Unit) rest
  | _ => some ((), rest)

/-- The word is all that `form` describes. -/
def isWhole (form : Scanner Unit) (word : List Char) : Bool :=
  match form word with
  | some ((), rest) => rest.isEmpty
  | none => false

def dateTime? (word : List Char) : Option Scalar :=
  if isWhole (do date; timeBehindDate) word || isWhole time word then some .dateTime else none

/-! ## Words -/

/-- The value that a word denotes. -/
def ofWord? (word : List Char) : Option Scalar :=
  (boolean? word).or <| (integer? word).or <| (decimal? word).or <| dateTime? word

/-- Ends a word. -/
def endsWord (c : Char) : Bool :=
  isBlank c || c ∈ ['\r', '\n', ',', '=', '[', ']', '\x7b', '\x7d', '#']

/-- A word. A blank between a date and a time belongs to it. -/
def word : Scanner (List Char) := fun rest =>
  let (front, rest) := rest.span (!endsWord ·)
  match rest with
  | ' ' :: d :: _ =>
    if isWhole date front && d.isDigit then
      let (back, rest) := rest.tail.span (!endsWord ·)
      some (front ++ ' ' :: back, rest)
    else
      some (front, rest)
  | _ => some (front, rest)

/-- A value without quotes. -/
def scan : Scanner Scalar := fun rest => do
  let (front, rest) ← word rest
  let s ← ofWord? front
  return (s, rest)

end ApiSurface.Toml.Literal
