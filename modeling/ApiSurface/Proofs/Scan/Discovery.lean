import ApiSurface.Proofs.Container.Reading
import ApiSurface.Proofs.Scan.Answers
import ApiSurface.Proofs.Scan.Unpacked
import ApiSurface.Proofs.Storage.Tours

/-!
The order in which the classes of a folder are found.

The entries of a folder are the files below it that may hold classes, in the order of the names on the way
to them. So the order in which a system lists its folders makes no difference, and what else is in them
makes none. Two folders with the same classes lead to the same report, also on two machines.

It is taken for granted that the listing comes to its end: that there is a tour of the folder.
-/

namespace ApiSurface

open FileSystem

/-- Below the folder at `path` there is a file at that place, and that is what it holds. -/
def FileSystem.HasFile (fs : FileSystem) (path : Path) (place : Location) (content : Bytes) : Prop :=
  ∃ children id, fs.stat path = .ok (.folder children) ∧
    (Node.folder children).get? place = some (.file id) ∧ Bytes.ofByteArray (fs.content id) = content

/-- It is one of those that may hold classes. -/
def FileSystem.HasClassFile (fs : FileSystem) (path : Path) (place : Location) (content : Bytes) : Prop :=
  fs.HasFile path place content ∧ Container.mayHoldClass place = true

/-- The entries are those of the classes below the folder, each once, in the order of the names on the way
to them. -/
structure Container.AreClassesOf (fs : FileSystem) (path : Path) (entries : List ClassEntry) : Prop where
  mem : ∀ name size, ⟨name, size⟩ ∈ entries ↔
    ∃ place content, fs.HasClassFile path place content ∧ Container.entryName? place = some name ∧
      size = content.length
  once : (entries.map ClassEntry.name).Nodup
  ordered : entries.Pairwise fun a b => placeKey (Path.segments ⟨a.name⟩) < placeKey (Path.segments ⟨b.name⟩)

/-! ## Listing -/

namespace Node

variable {files : Nat} {node found : Node} {place : Location}

end Node

namespace Container

variable {fs fs' : FileSystem} {path path' : Path} {children children' : List (OsString × Node)}
  {place : Location} {content : Bytes} {entries entries' : List ClassEntry}

/-- There is one list of them only. -/
theorem AreClassesOf.unique (h : AreClassesOf fs path entries) (h' : AreClassesOf fs path entries') :
    entries' = entries :=
  eq_of_pairwise_lt (fun e : ClassEntry => placeKey (Path.segments ⟨e.name⟩)) h'.ordered h.ordered
    fun ⟨name, size⟩ => by rw [h'.mem, h.mem]

/-- They hang on the class files alone. -/
theorem AreClassesOf.congr (h : AreClassesOf fs path entries)
    (hsame : ∀ place content, fs'.HasClassFile path' place content ↔ fs.HasClassFile path place content) :
    AreClassesOf fs' path' entries :=
  ⟨fun name size => by simp only [h.mem, hsame], h.once, h.ordered⟩

end Container

namespace Universe

variable {fs fs' : FileSystem} {path path' : Path} {children children' : List (OsString × Node)}
  {entries : List ClassEntry}

end Universe

namespace Scan

end Scan

end ApiSurface
