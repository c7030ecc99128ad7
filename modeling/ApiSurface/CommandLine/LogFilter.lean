import ApiSurface.Pattern.Machine
import ApiSurface.Text.Characters

/-!
Log filters, as far as it matters whether they can be used.

A filter is a list of directives `target[span{field}]=level`, most parts of which may be missing. A
directive is read by a machine that takes one character a step. It passes over white space at the
start of the directive but counts bytes from behind it, and the parts are cut out of the whole
directive by these counts. White space there hence moves the cuts, and a cut inside of a character
aborts the program.

| here | there |
|---|---|
| `LogFilter.check` | `init_tracing`, where it reads the filter |
-/

namespace ApiSurface.LogFilter

/-- Why a filter cannot be used. -/
inductive Fault
  /-- It is no filter. -/
  | malformed
  /-- A cut is inside of a character. -/
  | cutInCharacter
  deriving DecidableEq, Repr

/-! ## Cuts -/

/-- The characters before and behind a number of bytes, unless there is none between them. -/
def splitAtByte? : Nat → List Char → Option (List Char × List Char)
  | 0, text => some ([], text)
  | _ + 1, [] => none
  | n + 1, c :: rest =>
    if c.utf8Size ≤ n + 1 then
      (splitAtByte? (n + 1 - c.utf8Size) rest).map fun (front, rest) => (c :: front, rest)
    else none

/-- The part of a text from a byte on. -/
def cutFrom (start : Nat) (text : List Char) : Except Fault (List Char) :=
  match splitAtByte? start text with
  | some (_, part) => .ok part
  | none => .error .cutInCharacter

/-- The part of a text between two bytes. -/
def cut (start stop : Nat) (text : List Char) : Except Fault (List Char) :=
  match splitAtByte? stop text with
  | some (front, _) => cutFrom start front
  | none => .error .cutInCharacter

/-! ## Levels and fields -/

def levelNames : List String :=
  ["off", "error", "warn", "info", "debug", "trace"]

/-- A level by name, in letters of either case, or by its place among the names. -/
def isLevel (text : String) : Bool :=
  text.isEmpty || levelNames.contains (text.map Char.toLower)
    || (parseCount? text).any (· < levelNames.length)

/-- Decimal digits, which may have a point, and perhaps an exponent. -/
def isDecimal (text : List Char) : Bool :=
  let (mantissa, exponent) := text.span fun c => c ≠ 'e' && c ≠ 'E'
  let digits := mantissa.filter (· ≠ '.')
  let power := match exponent.tail with
    | '+' :: power | '-' :: power => power
    | power => power
  !digits.isEmpty && digits.all Char.isDigit && mantissa.count '.' ≤ 1
    && (exponent.isEmpty || (!power.isEmpty && power.all Char.isDigit))

/-- A number with a plus in front, where a pattern could not start with a plus. -/
def isPositiveNumber : List Char → Bool
  | '+' :: rest =>
    isDecimal rest || ["inf", "infinity", "nan"].contains (String.ofList (rest.map Char.toLower))
  | _ => false

/-- A field by name, which may have to equal a number or match a pattern. -/
def isField (text : List Char) : Bool :=
  match text.splitOn '=' with
  | _ :: value :: _ => isPositiveNumber value || Pattern.isUsable value
  | _ => !text.isEmpty

/-! ## Directives -/

/-- The part of a directive that the next character belongs to, with the byte that it starts at. -/
inductive Part
  | front
  /-- A level or a target. It starts with the directive. -/
  | name
  | span (start : Nat)
  | field (start : Nat)
  /-- Behind the field. -/
  | closing
  /-- Behind the span. -/
  | behind
  | level (start : Nat)
  deriving DecidableEq, Repr

/-- May start a level or a target. -/
def startsName (c : Char) : Bool :=
  isAlphanumeric c || c = '-' || c = ':' || c = '_'

/-- The part to which the character at byte `i` of a directive leads. Brackets and the sign before
the level are a byte each. -/
def Part.next (directive : List Char) (i : Nat) (c : Char) : Part → Except Fault Part
  | .front =>
    if c = '[' then .ok (.span (i + 1))
    else if startsName c then .ok .name
    else .error .malformed
  | .name => do
    if c = '=' || c = '[' then
      let _ ← cut 0 i directive
      return if c = '=' then .level (i + 1) else .span (i + 1)
    return .name
  | .span start => do
    if c = ']' || c = '\x7b' then
      let _ ← cut start i directive
      return if c = ']' then .behind else .field (i + 1)
    return .span start
  | .field start => do
    if c = '\x7d' then
      unless isField (← cut start i directive) do throw .malformed
      return .closing
    return .field start
  | .closing => if c = ']' then .ok .behind else .error .malformed
  | .behind => if c = '=' then .ok (.level (i + 1)) else .error .malformed
  | .level start => .ok (.level start)

/-- Fails unless a directive may end in this part. -/
def Part.finish (directive : List Char) : Part → Except Fault Unit
  | .name | .behind => .ok ()
  | .level start => do
    unless isLevel (String.ofList (← cutFrom start directive)) do throw .malformed
  | .front | .span _ | .field _ | .closing => .error .malformed

/-- Feeds characters to the machine, the first of which is at byte `i`. -/
def Part.run (directive : List Char) : Nat → Part → List Char → Except Fault Part
  | _, part, [] => .ok part
  | i, part, c :: rest => do
    Part.run directive (i + c.utf8Size) (← part.next directive i c) rest

def checkDirective (directive : List Char) : Except Fault Unit := do
  let part ← Part.run directive 0 .front (trimmed (String.ofList directive)).toList
  part.finish directive

/-- Fails unless the filter is made of directives. Nothing between two commas is none of them. -/
def check (text : String) : Except Fault Unit :=
  ((text.toList.splitOn ',').filter (· ≠ [])).forM checkDirective

end ApiSurface.LogFilter
