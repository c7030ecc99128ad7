import ApiSurface.CommandLine.Run
import ApiSurface.CommandLine.Usage
import ApiSurface.Storage.Change

/-!
The program on a real machine.

What a run can see of the disk is read into a tree first. The run works on the tree, and what it has
changed in it is then done to the disk. Names on the disk that are no texts are out of its reach.
-/

namespace ApiSurface

namespace Disk

/-- The path of a place. -/
def pathOf (place : Location) : String :=
  "/" ++ (OsString.intercalate "/" place).shown

/-- What is at a path itself, where a link is not followed. -/
def kindOf? (path : String) : IO (Option IO.FS.FileType) := do
  try
    return some (← ((← IO.currentDir) / path).symlinkMetadata).type
  catch _ =>
    return none

/-- The place that a link leads to in the end. -/
def goalOf (path : String) : IO Location := do
  return FileSystem.segmentsOf (.ofText (← IO.FS.realPath path).toString)

def namesIn (path : String) : IO (List String) := do
  return (← ((← IO.currentDir) / path).readDir).toList.map (·.fileName)

/-- What is at a place, with at most `depth` levels below it. What is in its files is added to the
table of contents. -/
def readNode (depth : Nat) (place : Location) : StateT (Array ByteArray) IO (Option Node) := do
  let path := pathOf place
  match ← kindOf? path with
  | none => return none
  | some .file =>
    let content ← IO.FS.readBinFile path
    modifyGet fun contents => (some (.file contents.size), contents.push content)
  | some .symlink => return some (.link (.ofText (pathOf (← goalOf path))))
  | some .other => return some .device
  | some .dir =>
    match depth with
    | 0 => return some (.folder [])
    | depth + 1 =>
      let children ← (← namesIn path).filterMapM fun name => do
        return (← readNode depth (place ++ [.ofText name])).map (.ofText name, ·)
      return some (.folder children)

/-- The tree with what stands at a place put there, if anything does. -/
def readInto (depth : Nat) (fs : FileSystem) (place : Location) : IO FileSystem := do
  let (node, contents) ← (readNode depth place).run fs.contents
  match node with
  | some node => return { fs.set place (some node) with contents }
  | none => return fs

mutual

/-- The goals of the links below a node. -/
def goalsBelow : Node → List OsString
  | .link target => [target]
  | .folder children => goalsOfChildren children
  | .file _ | .device => []

def goalsOfChildren : List (OsString × Node) → List OsString
  | [] => []
  | (_, node) :: rest => goalsBelow node ++ goalsOfChildren rest

end

/-- The tree with what stands along `names` from a place on, and at their end `depth` levels more. A
link leads on to its goal, which has no link on its way. Behind the links below the end, files are
read and folders are taken to be empty. -/
partial def readAlong (depth : Nat) (fs : FileSystem) (place : Location) :
    List OsString → IO FileSystem
  | [] => do
    let fs ← readInto depth fs place
    match fs.get? place with
    | none => return fs
    | some node =>
      (goalsBelow node).foldlM (fun fs goal => do
        let place := FileSystem.segmentsOf goal
        if (fs.get? place).isSome then return fs
        else readAlong 0 fs [] place) fs
  | name :: rest => do
    if name = "." then
      return ← readAlong depth fs place rest
    if name = ".." then
      return ← readAlong depth fs place.dropLast rest
    let next := place ++ [name]
    let fs ← if (fs.get? next).isSome then pure fs else readInto 0 fs next
    match fs.get? next with
    | some (.folder _) => readAlong depth fs next rest
    | some (.link target) => readAlong depth fs [] (FileSystem.segmentsOf target ++ rest)
    | _ => return fs

/-- The tree with what stands at a path. -/
def readPath (depth : Nat) (fs : FileSystem) (path : OsString) : IO FileSystem :=
  readAlong depth fs (FileSystem.startOf fs.current path) (FileSystem.segmentsOf path)

/-- The tree with the current folder alone. -/
def start : IO FileSystem := do
  let current := FileSystem.segmentsOf (.ofText (← IO.currentDir).toString)
  readAlong 0 ⟨.folder [], current, #[]⟩ [] current

/-- Does a change. A file is written under another name first and then takes its own. -/
def apply : Change → IO Unit
  | .makeFolder place => IO.FS.createDirAll (pathOf place)
  | .writeFile place content => do
    let path := pathOf place
    let temporary := path ++ ".tmp"
    IO.FS.writeBinFile temporary content.toByteArray
    IO.FS.rename temporary path

end Disk

/-- More than any path has. -/
def maxDepth : Nat := FileSystem.maxPathBytes

/-- The values of the variables for settings. -/
def readEnvironment : IO Environment := do
  let values ← Settings.variables.mapM fun name => return (name, ← IO.getEnv name)
  return fun name => (values.lookup name).join

/-- The tree with everything that the command looks at. -/
def readInputs (env : Environment) (args : Arguments) : IO FileSystem := do
  let fs ← Disk.readPath 0 (← Disk.start) args.config
  match args.command with
  | .scan scan =>
    match scan.settings fs env ⟨args.config⟩ with
    | .ok s =>
      let fs ← Disk.readPath 1 fs (.ofText s.outputDir)
      (s.artifacts ++ s.classpath).foldlM (fun fs path => Disk.readPath maxDepth fs (.ofText path)) fs
    | .error _ => return fs
  | _ => return fs

/-- The exit code by which others tell that a program was aborted. -/
def abortCode : Nat := 134

/-- Runs the command of the arguments. -/
def runCommand (args : Arguments) : IO UInt32 := do
  let environment ← readEnvironment
  let files ← readInputs environment args
  let start ← IO.monoNanosNow
  let host : Host := {
    environment
    device := FileSystem.perform
    token := fun i => s!"{start}-{i}"
    logFilter := none }
  let (after, ending) := args.run host files
  try
    (files.changes after).forM Disk.apply
  catch e =>
    IO.eprintln s!"error: {e}"
    return 10
  IO.print ending.stdout
  IO.eprint ending.stderr
  return UInt32.ofNat (ending.exitCode.getD abortCode)

end ApiSurface

open ApiSurface in
def main (args : List String) : IO UInt32 := do
  match Arguments.parse (args.map OsString.ofText) with
  | .ok args => runCommand args
  | .error refusal =>
    match refusal with
    | .display => IO.print usageText
    | .usage => IO.eprint usageText
    return UInt32.ofNat refusal.exitCode
