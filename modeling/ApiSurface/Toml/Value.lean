/-!
Values of a settings file.

No setting is a fraction or a point in time, so of those values only as much is kept as decides
whether they can be read.
-/

namespace ApiSurface.Toml

/-- A value without parts. -/
inductive Scalar
  | text (s : String)
  | integer (n : Int)
  /-- What has the outer shape of an integer and is none. -/
  | misshapen
  /-- A number with a fraction or an exponent: `digits · 10 ^ exponent`, without its sign. -/
  | decimal (digits : Nat) (exponent : Int)
  /-- An infinity, or what is not a number. -/
  | notFinite
  | boolean (b : Bool)
  | dateTime
  deriving DecidableEq, Repr

inductive Value
  | scalar (s : Scalar)
  | array (items : List Value)
  /-- The entries in the order in which their keys first came; no key stands twice. -/
  | table (entries : List (String × Value))

namespace Scalar

/-- An integer that fits into 128 bits, with or without a sign. -/
def fitsInteger (n : Int) : Bool :=
  -0x80000000000000000000000000000000 ≤ n && n < 0x100000000000000000000000000000000

/-- The least number that is rounded to an infinity: half a step above the greatest of 64 bits. -/
def overflowBound : Nat := 1 <<< 1024 - 1 <<< 970

/-- The number `digits · 10 ^ places`. -/
def scaled (digits places : Nat) : Nat :=
  digits * Nat.pow 10 places

/-- The number `digits · 10 ^ exponent` is no infinity when rounded to 64 bits. A number below
`10 ^ 308` is far from it and one from `10 ^ 309` on is beyond it, so only what lies between them is
worked out. -/
def fitsDecimal (digits : Nat) (exponent : Int) : Bool :=
  let magnitude : Int := (Nat.toDigits 10 digits).length + exponent
  digits = 0 || magnitude ≤ 308 ||
    (magnitude = 309 && scaled digits exponent.toNat < scaled overflowBound (-exponent).toNat)

/-- The value can be read even when nothing asks for it. -/
def isReadable : Scalar → Bool
  | .integer n => fitsInteger n
  | .decimal digits exponent => fitsDecimal digits exponent
  | .misshapen => false
  | _ => true

end Scalar

namespace Value

mutual

/-- Every part of the value can be read. -/
def isReadable : Value → Bool
  | .scalar s => s.isReadable
  | .array items => allReadable items
  | .table entries => entriesReadable entries

def allReadable : List Value → Bool
  | [] => true
  | v :: rest => isReadable v && allReadable rest

def entriesReadable : List (String × Value) → Bool
  | [] => true
  | (_, v) :: rest => isReadable v && entriesReadable rest

end

end Value

end ApiSurface.Toml
