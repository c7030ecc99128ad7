import ApiSurface.Decl.Source
import ApiSurface.Report.Basic

/-!
The block of a type in a report: its header, its exported methods, its exported fields.

Members are ordered by their text and a text stands once, so the order of declaration does not show.
Texts are compared byte by byte in UTF-8.

| here | there |
|---|---|
| `TypeDecl.exportedMethods`, `TypeDecl.exportedFields` | `MemberFilter.filter_members` |
| `Entry` | `RenderedMember` |
| `Entry.ordered` | `order_members` |
| `TypeDecl.block` | `type_block` |
-/

namespace ApiSurface

/-! ## Which members -/

/-- The methods that a report shows; `synthetic` says whether those made by a compiler are among
them. -/
def TypeDecl.exportedMethods (synthetic : Bool) (t : TypeDecl) : List MethodDecl :=
  t.methods.filter fun m => m.visibility.isExported && (synthetic || !m.isSynthetic)

/-- The fields that a report shows. -/
def TypeDecl.exportedFields (synthetic : Bool) (t : TypeDecl) : List FieldDecl :=
  t.fields.filter fun f => f.visibility.isExported && (synthetic || !f.isSynthetic)

/-! ## In which order -/

/-- A member with what its place is decided by. -/
structure Entry where
  text : String
  name : String
  descriptor : String
  deriving DecidableEq, Repr

namespace Entry

/-- Text, name and descriptor as bytes. -/
def key (e : Entry) : List Bytes :=
  [Bytes.ofText e.text, Bytes.ofText e.name, Bytes.ofText e.descriptor]

/-- By text, then by name, then by descriptor. -/
def le (a b : Entry) : Bool :=
  a.key ≤ b.key

/-- Keeps the first of neighbours with the same text. -/
def dedup (entries : List Entry) : List Entry :=
  entries.foldr (fun e rest => e :: rest.dropWhile (·.text = e.text)) []

/-- The entries in order, one for each text. -/
def ordered (entries : List Entry) : List Entry :=
  dedup (entries.mergeSort le)

end Entry

/-! ## The block -/

/-- The entry of a method of a type of the kind `owner`. -/
def MethodDecl.entry (owner : TypeKind) (m : MethodDecl) : Entry :=
  ⟨m.source owner, m.name, m.descriptor⟩

def FieldDecl.entry (f : FieldDecl) : Entry :=
  ⟨f.source, f.name, f.descriptor⟩

/-- The lines of a type. -/
def TypeDecl.block (synthetic : Bool) (t : TypeDecl) : List Report.Line :=
  let methods := (t.exportedMethods synthetic).map (·.entry t.kind)
  let fields := (t.exportedFields synthetic).map (·.entry)
  ⟨.type, t.header⟩
    :: (Entry.ordered methods).map (⟨.method, ·.text⟩)
    ++ (Entry.ordered fields).map (⟨.field, ·.text⟩)

end ApiSurface
