import ApiSurface.Proofs.Text.Separated
import ApiSurface.Settings.Environment
import Mathlib.Data.List.Forall2
import Mathlib.Data.List.TakeWhile
import Mathlib.Data.Nat.Digits.Defs

/-!
What the values of variables say.

A list is cut at its commas, and of each part what is left without white space around it is an element
unless it is empty. A truth value is one of two words, and a number is written in decimal digits.
-/

namespace ApiSurface

/-! ## Lists -/

/-- `inner` is the text without the white space at its ends. -/
structure IsTrimmed (text inner : String) : Prop where
  cut : ∃ front back, text.toList = front ++ inner.toList ++ back ∧
    (∀ c ∈ front, isWhiteSpace c = true) ∧ ∀ c ∈ back, isWhiteSpace c = true
  head : ∀ c, inner.toList.head? = some c → isWhiteSpace c = false
  last : ∀ c, inner.toList.getLast? = some c → isWhiteSpace c = false

/-- The text says that these are the elements: with all parts between its commas, each without white space
around it, and without the empty ones. -/
def IsListIn (text : String) (items : List String) : Prop :=
  ∃ parts inner : List String, parts ≠ [] ∧ ",".intercalate parts = text ∧
    (∀ part ∈ parts, ',' ∉ part.toList) ∧ List.Forall₂ IsTrimmed parts inner ∧
    items = inner.filter (· ≠ "")

/-! ### White space at the ends -/

section Trimmed

variable {xs front inner back : List Char} {p : Char → Bool}

end Trimmed

/-- The text is the number in decimal digits, which may have a plus in front. Larger numbers than those of
64 bits are none. -/
def IsCountIn (text : String) (n : Nat) : Prop :=
  n < 2 ^ 64 ∧ ∃ digits : List Nat, digits ≠ [] ∧ (∀ d ∈ digits, d < 10) ∧ Nat.ofDigits 10 digits.reverse = n ∧
    (text.toList = digits.map Nat.digitChar ∨ text.toList = '+' :: digits.map Nat.digitChar)

end ApiSurface
