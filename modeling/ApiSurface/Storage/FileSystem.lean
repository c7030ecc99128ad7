import ApiSurface.Storage.IoError
import ApiSurface.Storage.Path

/-!
A file system as a value.

It is a tree of folders with files, symbolic links and devices in them, and the place of the current
folder. Paths are followed one name at a time; a link on the way is replaced by the path it holds, up
to a number of links. Every change is made at the place to which a path leads.

The tree holds only the number of each file; what is in a file stands in a table. Writing to a file
changes the table and not the tree, and taking a file away or giving its name to another file changes
the tree and not the table. So whoever knows the number of a file can go on reading that file,
whatever becomes of its name.
-/

namespace ApiSurface

/-- The number of a file. No other file ever has the same one. -/
abbrev FileId := Nat

/-- What stands behind a name in a folder. The children of a folder have different names and come in
the order in which the system lists them, which means nothing. -/
inductive Node
  | file (id : FileId)
  | folder (children : List (OsString × Node))
  | link (target : OsString)
  /-- A device: neither file nor folder. It swallows what is written to it and holds nothing. -/
  | device

/-- A place in the tree: the names on the way from the root. -/
abbrev Location := List OsString

/-! ## Children and places -/

namespace Node

def isFolder : Node → Bool
  | .folder _ => true
  | _ => false

def isFile : Node → Bool
  | .file _ => true
  | _ => false

/-- The length that a system gives for every folder. -/
def folderSize : Nat := 4096

/-- The children of a folder; nothing else has any. -/
def children : Node → List (OsString × Node)
  | .folder children => children
  | _ => []

/-- The child of that name. -/
def child? (name : OsString) (node : Node) : Option Node :=
  node.children.lookup name

/-- Changes, adds or takes away one child. -/
def setChild (name : OsString) (value : Option Node) : List (OsString × Node) → List (OsString × Node)
  | [] => (value.map (name, ·)).toList
  | (key, node) :: rest =>
    if key = name then (value.map (name, ·)).toList ++ rest
    else (key, node) :: setChild name value rest

/-- What stands at a place below the node. -/
def get? : Location → Node → Option Node
  | [], node => some node
  | name :: place, node =>
    match node.child? name with
    | some child => get? place child
    | none => none

/-- The node with `value` at a place below it, of which all but the last name exist. -/
def set (value : Option Node) : Location → Node → Node
  | [], node => value.getD node
  | [name], node => .folder (setChild name value node.children)
  | name :: place, node =>
    match node.child? name with
    | some child => .folder (setChild name (some (set value place child)) node.children)
    | none => node

end Node

structure FileSystem where
  root : Node
  /-- The current folder, where relative paths start. -/
  current : Location
  /-- What is in each file, by its number. -/
  contents : Array ByteArray

namespace FileSystem

/-! ## Files -/

/-- What is in a file. -/
def content (fs : FileSystem) (id : FileId) : ByteArray :=
  fs.contents[id]?.getD .empty

/-- Changes what is in a file. -/
def setContent (fs : FileSystem) (id : FileId) (content : ByteArray) : FileSystem :=
  { fs with contents := fs.contents.setIfInBounds id content }

/-- The length in bytes. -/
def sizeOf (fs : FileSystem) : Node → Nat
  | .file id => (fs.content id).size
  | .folder _ => Node.folderSize
  | .link _ | .device => 0

/-! ## Places -/

/-- What stands at a place. -/
def get? (fs : FileSystem) (place : Location) : Option Node :=
  fs.root.get? place

/-- Puts something at a place of an existing folder, or takes away what is there. -/
def set (fs : FileSystem) (place : Location) (value : Option Node) : FileSystem :=
  { fs with root := fs.root.set value place }

/-- Puts a new file at a place of an existing folder. -/
def setNewFile (fs : FileSystem) (place : Location) (content : ByteArray) : FileSystem :=
  { fs.set place (some (.file fs.contents.size)) with contents := fs.contents.push content }

/-! ## Following paths -/

/-- Where a path leads. -/
inductive Target
  | present (place : Location) (node : Node)
  /-- To a name in an existing folder that has no such child. -/
  | absent (folder : Location) (name : OsString)

/-- The end of a walk along names without a link. -/
inductive Walk
  | done (target : Target)
  | refused (e : OsError)
  /-- A link in `folder` was met, with `rest` still to be walked behind it. -/
  | link (folder : Location) (target : OsString) (rest : List OsString)

/-- The longest name that a folder takes. -/
def maxNameBytes : Nat := 255

/-- Every path is shorter than that. -/
def maxPathBytes : Nat := 4096

/-- The most links on the way of one path. -/
def maxLinks : Nat := 40

/-- The names to walk for a path. What ends in a slash has to be a folder, as if a `.` followed. -/
def segmentsOf (text : OsString) : List OsString :=
  let parts := (text.toList.splitOn OsString.slash).map OsString.ofList
  parts.filter (· ≠ ("" : OsString)) ++ if parts.getLast? = some ("" : OsString) then [("." : OsString)] else []

/-- The folder in which the walk along `text` starts. -/
def startOf (folder : Location) (text : OsString) : Location :=
  if text.toList.head? = some OsString.slash then [] else folder

/-- Walks along names from the folder at `place`. A link at the end is followed only if `follow` says
so. -/
def walk (fs : FileSystem) (follow : Bool) : Location → List OsString → Walk
  | place, [] =>
    match fs.get? place with
    | some node => .done (.present place node)
    | none => .refused .notFound
  | place, name :: rest =>
    if name = "." then
      walk fs follow place rest
    else if name = ".." then
      walk fs follow place.dropLast rest
    else if maxNameBytes < name.length then
      .refused .nameTooLong
    else
      match fs.get? (place ++ [name]) with
      | none => if rest.isEmpty then .done (.absent place name) else .refused .notFound
      | some (.folder _) => walk fs follow (place ++ [name]) rest
      | some (.link target) =>
        if rest.isEmpty && !follow then .done (.present (place ++ [name]) (.link target))
        else .link place target rest
      | some node =>
        if rest.isEmpty then .done (.present (place ++ [name]) node) else .refused .notFolder

/-- Walks on behind links, at most `links` of them. -/
def walkOn (fs : FileSystem) (follow : Bool) : Nat → Walk → Except OsError Target
  | _, .done target => .ok target
  | _, .refused e => .error e
  | 0, .link .. => .error .tooManyLinks
  | links + 1, .link folder target rest =>
    if target = "" then
      .error .notFound
    else
      walkOn fs follow links (walk fs follow (startOf folder target) (segmentsOf target ++ rest))

/-- Where `path` leads. -/
def locate (fs : FileSystem) (follow : Bool) (path : Path) : Except IoError Target :=
  if path.text.toList.contains OsString.nul then
    .error .nulInPath
  else if path.text = "" then
    .error (.os .notFound)
  else if maxPathBytes ≤ path.text.length then
    .error (.os .nameTooLong)
  else
    (walkOn fs follow maxLinks
      (walk fs follow (startOf fs.current path.text) (segmentsOf path.text))).mapError .os

/-! ## Questions -/

/-- What `path` leads to. -/
def stat (fs : FileSystem) (path : Path) : Except IoError Node := do
  match ← fs.locate true path with
  | .present _ node => return node
  | .absent _ _ => throw (.os .notFound)

/-- `path` leads to something. -/
def has (fs : FileSystem) (path : Path) : Bool :=
  (fs.stat path).isOk

def isFolder (fs : FileSystem) (path : Path) : Bool :=
  match fs.stat path with
  | .ok node => node.isFolder
  | .error _ => false

def isFile (fs : FileSystem) (path : Path) : Bool :=
  match fs.stat path with
  | .ok node => node.isFile
  | .error _ => false

/-- The name that the place has in its folder. The root has none. -/
def placeName? (fs : FileSystem) (path : Path) : Option OsString :=
  match fs.locate true path with
  | .ok (.present place _) => place.getLast?
  | _ => none

/-- What can be read from a node. -/
def contentOf (fs : FileSystem) : Node → Except IoError Bytes
  | .file id => .ok (.ofByteArray (fs.content id))
  | .folder _ => .error (.os .isFolder)
  | .link _ | .device => .ok []

/-- The content of the file that `path` leads to. -/
def readFile (fs : FileSystem) (path : Path) : Except IoError Bytes := do
  fs.contentOf (← fs.stat path)

/-- The content of a file that has to be text. -/
def readText (fs : FileSystem) (path : Path) : Except IoError String := do
  match (← fs.readFile path).toText? with
  | some text => return text
  | none => throw .notText

/-! ## Changes

A change that is refused leaves the tree as it is.
-/

/-- Makes an empty file, or empties the one that is there. -/
def createFile (fs : FileSystem) (path : Path) : Except IoError FileSystem := do
  match ← fs.locate true path with
  | .present _ (.file id) => return fs.setContent id .empty
  | .present _ (.folder _) => throw (.os .isFolder)
  | .present _ _ => return fs
  | .absent folder name => return fs.setNewFile (folder ++ [name]) .empty

/-- Writes behind the end of a file. -/
def appendFile (fs : FileSystem) (path : Path) (bytes : Bytes) : Except IoError FileSystem := do
  match ← fs.locate true path with
  | .present _ (.file id) => return fs.setContent id (fs.content id ++ bytes.toByteArray)
  | .present _ (.folder _) => throw (.os .isFolder)
  | .present _ _ => return fs
  | .absent _ _ => throw (.os .notFound)

/-- Makes a file with the given content, in place of what it held before. -/
def writeFile (fs : FileSystem) (path : Path) (bytes : Bytes) : Except IoError FileSystem := do
  (← fs.createFile path).appendFile path bytes

/-- Makes a link, which nothing may stand in the way of. -/
def createLink (fs : FileSystem) (target : OsString) (path : Path) : Except IoError FileSystem := do
  match ← fs.locate false path with
  | .present _ _ => throw (.os .alreadyExists)
  | .absent folder name => return fs.set (folder ++ [name]) (some (.link target))

/-- Takes away what is at the end of `path`, with all that is in it. -/
def remove (fs : FileSystem) (path : Path) : Except IoError FileSystem := do
  match ← fs.locate false path with
  | .present place _ => return fs.set place none
  | .absent _ _ => throw (.os .notFound)

/-- Takes away a file or a link. -/
def removeFile (fs : FileSystem) (path : Path) : Except IoError FileSystem := do
  match ← fs.locate false path with
  | .present _ (.folder _) => throw (.os .isFolder)
  | .present place _ => return fs.set place none
  | .absent _ _ => throw (.os .notFound)

/-- The path ends in `.` or `..` and hence names no child of a folder. -/
def endsInDots (path : Path) : Bool :=
  match (segmentsOf path.text).getLast? with
  | some name => name = "." || name = ".."
  | none => true

/-- Gives the file at `source` the path `target`. What was there, other than a folder, is gone. -/
def moveFile (fs : FileSystem) (source target : Path) : Except IoError FileSystem := do
  match ← fs.locate false source with
  | .absent _ _ => throw (.os .notFound)
  | .present place node =>
    match ← fs.locate false target with
    | .present _ (.folder _) => throw (.os (if endsInDots target then .busy else .isFolder))
    | .present goal _ => return (fs.set place none).set goal (some node)
    | .absent folder name => return (fs.set place none).set (folder ++ [name]) (some node)

/-- The path without the slashes at its end. -/
def withoutSlashes (path : Path) : Path :=
  let text := (path.text.toList.reverse.dropWhile (· = OsString.slash)).reverse
  if text.isEmpty && path.isAbsolute then ⟨"/"⟩ else ⟨.ofList text⟩

/-- Makes a folder in a folder that is there. Slashes at the end of its path count for nothing but its
length. -/
def createFolder (fs : FileSystem) (path : Path) : Except IoError FileSystem := do
  if maxPathBytes ≤ path.text.length then
    throw (if path.text.toList.contains OsString.nul then .nulInPath else .os .nameTooLong)
  match ← fs.locate false (withoutSlashes path) with
  | .present _ _ => throw (.os .alreadyExists)
  | .absent folder name => return fs.set (folder ++ [name]) (some (.folder []))

/-- Makes a folder unless it is there. -/
def createFolderUnlessThere (fs : FileSystem) (path : Path) : FileSystem × Option IoError :=
  match fs.createFolder path with
  | .ok fs => (fs, none)
  | .error e => (fs, if fs.isFolder path then none else some e)

/-- Makes a folder unless it is there. Where the folder it belongs into is missing, `above` makes that
first. -/
def createFolderAfter (above : Path → FileSystem → FileSystem × Option IoError) (path : Path)
    (fs : FileSystem) : FileSystem × Option IoError :=
  if path.text = "" then
    (fs, none)
  else if fs.createFolder path matches .error (.os .notFound) then
    match above path fs with
    | (fs, some e) => (fs, some e)
    | (fs, none) => fs.createFolderUnlessThere path
  else
    fs.createFolderUnlessThere path

/-- Makes a folder and all that are missing above it; `steps` bounds how far up that goes. Folders made
before a refusal stay. -/
def createFoldersUp : Nat → Path → FileSystem → FileSystem × Option IoError
  | 0 => createFolderAfter fun _ fs => (fs, some (.other "failed to create whole tree"))
  | steps + 1 => createFolderAfter fun path fs =>
    match path.parent? with
    | some parent => createFoldersUp steps parent fs
    | none => (fs, some (.other "failed to create whole tree"))

/-- Makes a folder and all folders above it that are missing. -/
def createFolders (fs : FileSystem) (path : Path) : FileSystem × Option IoError :=
  createFoldersUp path.components.length path fs

end FileSystem

end ApiSurface
