import ApiSurface.Settings.Format
import Mathlib.Data.List.Basic

/-!
What a settings file says about one field.

A section takes its fields from a table or from an array, one value after the other, and each value
changes the field that it is for and no other one. So a field is what the section has for it, and where
the section has nothing it stays what it was.
-/

namespace ApiSurface

namespace SectionField

/-- The field `key` is what `get` tells of a section, and `valueOf?` reads it. -/
structure Shows (fields : List (SectionField σ)) (key : String) (get : σ → α)
    (valueOf? : Toml.Value → Option α) : Prop where
  nodup : (fields.map (·.key)).Nodup
  mem : key ∈ fields.map (·.key)
  own : ∀ field ∈ fields, field.key = key → ∀ v s s', field.put? v s = some s' →
    valueOf? v = some (get s')
  others : ∀ field ∈ fields, field.key ≠ key → ∀ v s s', field.put? v s = some s' → get s' = get s

namespace Shows

variable {fields : List (SectionField σ)} {key : String} {get : σ → α} {valueOf? : Toml.Value → Option α}
  {s s' : σ}

end Shows

end SectionField

end ApiSurface
