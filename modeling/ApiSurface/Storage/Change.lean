import ApiSurface.Storage.FileSystem

/-!
What has to be done to a tree of files to make another one of it.

Only what is new or different counts. What is gone stays, and so do links and devices.
-/

namespace ApiSurface

/-- A step from one tree towards another. -/
inductive Change
  | makeFolder (place : Location)
  | writeFile (place : Location) (content : Bytes)
  deriving DecidableEq, Repr

namespace Node

mutual

/-- The changes that put a node of `new` at a place where `before` of `old` stands now, a folder
before what is in it. -/
def changesFrom (old new : FileSystem) (before : Option Node) (place : Location) :
    Node → List Change
  | .file id =>
    let content := Bytes.ofByteArray (new.content id)
    match before with
    | some (.file oldId) =>
      if .ofByteArray (old.content oldId) = content then [] else [.writeFile place content]
    | _ => [.writeFile place content]
  | .folder children =>
    (if before.any (·.isFolder) then [] else [.makeFolder place])
      ++ changesOfChildren old new before place children
  | .link _ | .device => []

def changesOfChildren (old new : FileSystem) (before : Option Node) (place : Location) :
    List (OsString × Node) → List Change
  | [] => []
  | (name, node) :: rest =>
    changesFrom old new (before.bind (·.child? name)) (place ++ [name]) node
      ++ changesOfChildren old new before place rest

end

end Node

/-- The changes that make `after` of `before`. -/
def FileSystem.changes (before after : FileSystem) : List Change :=
  Node.changesFrom before after (some before.root) [] after.root

end ApiSurface
