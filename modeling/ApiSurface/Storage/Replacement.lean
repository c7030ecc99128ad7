import ApiSurface.Storage.FileSystem

/-!
Replacing a file as a whole.

The new content is written to a file of its own in the same folder, which then takes the name of the
old one. Nobody sees a part of the content under that name, and when a step fails the old file is
still there.

| here | there |
|---|---|
| `replaceFile` | `ReportWriter.write_to_path` |
-/

namespace ApiSurface

/-- A step of writing. -/
inductive WriteStep
  | create (path : Path)
  | append (path : Path) (bytes : Bytes)
  /-- Waits until the content is on the disk. -/
  | sync (path : Path)
  | move (source target : Path)
  | remove (path : Path)
  deriving DecidableEq, Repr

/-- Does steps of writing. A step that fails may have been done in part. -/
abbrev WriteDevice := FileSystem → WriteStep → FileSystem × Option IoError

/-- The tree after a change, or the tree as it was and why it did not change. -/
def FileSystem.orKeep (fs : FileSystem) : Except IoError FileSystem → FileSystem × Option IoError
  | .ok fs => (fs, none)
  | .error e => (fs, some e)

/-- Does what each step says. -/
def FileSystem.perform : WriteDevice := fun fs step =>
  fs.orKeep <| match step with
    | .create path => fs.createFile path
    | .append path bytes => fs.appendFile path bytes
    | .sync _ => .ok fs
    | .move source target => fs.moveFile source target
    | .remove path => fs.removeFile path

/-- Does steps in order, up to the first that fails. -/
def WriteDevice.run (device : WriteDevice) : List WriteStep → FileSystem → FileSystem × Option IoError
  | [], fs => (fs, none)
  | step :: rest, fs =>
    match device fs step with
    | (fs, none) => run device rest fs
    | (fs, some e) => (fs, some e)

namespace Replacement

/-- The folder of a file. -/
def folderOf (path : Path) : Path :=
  match path.parent? with
  | some parent => if parent.text = "" then ⟨"."⟩ else parent
  | none => ⟨"."⟩

/-- The file for the new content. The token makes its name one that nothing else has. In it stands what is
shown of the name of the old file. -/
def temporary (token : String) (path : Path) : Path :=
  let name := (path.fileName?.map (·.shown)).getD "report"
  (folderOf path).join ⟨.ofText ("." ++ name ++ "." ++ token ++ ".tmp")⟩

/-- The steps that give `path` the content. -/
def steps (token : String) (path : Path) (content : Bytes) : List WriteStep :=
  let temp := temporary token path
  [.create temp, .append temp content, .sync temp, .move temp path]

end Replacement

/-- Gives `path` the content. When that fails, what has been written of it is taken away again. -/
def replaceFile (device : WriteDevice) (token : String) (path : Path) (content : Bytes)
    (fs : FileSystem) : FileSystem × Option IoError :=
  match device.run (Replacement.steps token path content) fs with
  | (fs, none) => (fs, none)
  | (fs, some e) => ((device fs (.remove (Replacement.temporary token path))).1, some e)

end ApiSurface
