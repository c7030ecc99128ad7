import ApiSurface.Storage.FileSystem

/-!
The files below a folder, in an order that does not hang on how a system lists its folders.

The children of each folder are taken by the bytes of their names, and what is in a folder comes at
its place among them. Links below the folder are neither followed nor listed.
-/

namespace ApiSurface

/-- The order of names by their bytes. -/
def nameLe (a b : OsString) : Bool :=
  a.toList ≤ b.toList

namespace Node

mutual

/-- The files below a node, with the names on the way to each. -/
def filesBelow : Node → List (Location × FileId)
  | .file id => [([], id)]
  | .folder children =>
    ((filesOfChildren children).mergeSort fun a b => nameLe a.1 b.1).flatMap fun (name, files) =>
      files.map fun (place, id) => (name :: place, id)
  | .link _ | .device => []

/-- For each child the files below it. -/
def filesOfChildren : List (OsString × Node) → List (OsString × List (Location × FileId))
  | [] => []
  | (name, node) :: rest => (name, filesBelow node) :: filesOfChildren rest

end

end Node

/-- The files below the folder that `path` leads to. -/
def FileSystem.filesBelow (fs : FileSystem) (path : Path) :
    Except IoError (List (Location × FileId)) :=
  (fs.stat path).map Node.filesBelow

end ApiSurface
