import ApiSurface.CommandLine.Arguments

/-!
The text that says how the program is called.
-/

namespace ApiSurface

namespace Arguments.Level

/-- The way an option is given. -/
def switchText : String × Option Char × Switch → String
  | (long, short, switch) =>
    let letter := match short with
      | some c => "-" ++ String.ofList [c] ++ ", "
      | none => "    "
    "  " ++ letter ++ "--" ++ long ++ (if switch.takesValue then " <VALUE>" else "") ++ "\n"

/-- The names of the command and of those it is part of, from the outside. -/
def title : Level → String
  | .program => "apiscan"
  | .scan => "apiscan scan [ARTIFACT]..."
  | .config => "apiscan config"
  | .validate => "apiscan config validate"
  | .showing => "apiscan config show"

/-- A paragraph for each command that does something, with its options. -/
def usage (level : Level) : String :=
  level.title ++ "\n" ++ String.join (level.switches.map switchText)

end Arguments.Level

/-- How the program is called. -/
def usageText : String :=
  "usage:\n" ++ "\n".intercalate
    ([.program, .scan, .validate, .showing].map Arguments.Level.usage)

end ApiSurface
