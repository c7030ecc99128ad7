import ApiSurface.Text.OsString

/-!
Paths, as they are written and as a sequence of components.

A path is kept in the form in which it was given, because that form is shown. Empty components and
components `.` say nothing and are left out of the sequence, but for a `.` at the start.
-/

namespace ApiSurface

/-- A path as it is written. -/
structure Path where
  text : OsString
  deriving DecidableEq, Repr

namespace Path

/-- What is shown of it in messages. -/
def shown (p : Path) : String :=
  p.text.shown

/-- A step of a path. -/
inductive Component
  /-- The start of every absolute path. -/
  | root
  /-- The folder that has been reached. -/
  | here
  /-- The folder above. -/
  | up
  | normal (name : OsString)
  deriving DecidableEq, Repr

def Component.text : Component → OsString
  | .root => "/"
  | .here => "."
  | .up => ".."
  | .normal name => name

def isAbsolute (p : Path) : Bool :=
  p.text.toList.head? = some OsString.slash

/-- The parts between the slashes. -/
def segments (p : Path) : List OsString :=
  (p.text.toList.splitOn OsString.slash).map .ofList

/-- The component that a part behind the start gives. -/
def componentOf? (segment : OsString) : Option Component :=
  if segment = "" || segment = "." then none
  else if segment = ".." then some .up
  else some (.normal segment)

def components (p : Path) : List Component :=
  let start :=
    if p.isAbsolute then [.root]
    else if p.segments.head? = some ("." : OsString) then [.here]
    else []
  start ++ p.segments.filterMap componentOf?

/-- The name at the end, unless the path ends in `..` or has no name at all. -/
def fileName? (p : Path) : Option OsString :=
  match p.components.getLast? with
  | some (.normal name) => some name
  | _ => none

/-- The path with these components. -/
def ofComponents : List Component → Path
  | .root :: rest => ⟨"/" ++ OsString.intercalate "/" (rest.map (·.text))⟩
  | components => ⟨OsString.intercalate "/" (components.map (·.text))⟩

/-- The path without its last component; the root has none above it. -/
def parent? (p : Path) : Option Path :=
  match p.components.getLast? with
  | none | some .root => none
  | some _ => some (ofComponents p.components.dropLast)

/-- The path `other` as seen from the folder `p`. An absolute path is seen in the same way from
everywhere. -/
def join (p other : Path) : Path :=
  if other.isAbsolute then other
  else if p.text = "" || p.text.toList.getLast? = some OsString.slash then ⟨p.text ++ other.text⟩
  else ⟨p.text ++ "/" ++ other.text⟩

/-! ## Extensions -/

/-- A name without its extension: the part in front of the last `.`. A name whose only `.` comes
first has no extension. -/
def stem (name : OsString) : OsString :=
  match name.toList.reverse.dropWhile (· ≠ OsString.dot) with
  | [] | [_] => name
  | _ :: front => .ofList front.reverse

/-- The name with another extension. Of `..x` the part `..` is left without the extension, which is
the folder above and takes none. -/
def withExtension (extension name : OsString) : OsString :=
  if stem name = "." then ".." else stem name ++ "." ++ extension

end Path

end ApiSurface
