import ApiSurface.Text.Utf8

/-!
Texts as the system has them: arguments, and the names and paths of files.

To the system such a text is a sequence of bytes. Most of them are the UTF-8 form of a text, but none has
to be. One that is not is shown with marks in place of what is no text, so what is shown need not lead back
to it.
-/

namespace ApiSurface

/-- A text as the system has it. -/
structure OsString where
  ofList ::
  toList : Bytes
  deriving DecidableEq, Repr

namespace OsString

/-- A text in the form in which the system has it. -/
def ofText (s : String) : OsString :=
  ofList (Bytes.ofText s)

instance : Coe String OsString := ⟨ofText⟩

/-- The text itself, if it is one. -/
def text? (s : OsString) : Option String :=
  s.toList.toText?

/-- What is shown of it. -/
def shown (s : OsString) : String :=
  Utf8.decode s.toList

/-- The length in bytes. -/
def length (s : OsString) : Nat :=
  s.toList.length

instance : Append OsString := ⟨fun s t => ofList (s.toList ++ t.toList)⟩

/-- The parts in order, with `separator` between them. -/
def intercalate (separator : OsString) (parts : List OsString) : OsString :=
  ofList (separator.toList.intercalate (parts.map toList))

/-! ## Bytes with a meaning -/

/-- The byte of `/`, which stands between the names of a path. -/
def slash : UInt8 := 0x2F

/-- The byte of `.`, which stands in front of the extension of a name. -/
def dot : UInt8 := 0x2E

/-- The byte that no name has, because it ends texts of the system. -/
def nul : UInt8 := 0

/-- The byte of `-`, with which options begin. -/
@[match_pattern]
def dash : UInt8 := 0x2D

/-- The byte of `=`, which stands between an option and its value. -/
@[match_pattern]
def equals : UInt8 := 0x3D

end OsString

end ApiSurface
