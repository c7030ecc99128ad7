/-!
Names of the entries of a container.

An entry is named by its path inside the container, with `/` between the parts. A class stands in the
entry that has the packages as folders and ends in `.class`.

| here | there |
|---|---|
| `EntryName.isCandidate` | `is_candidate` |
| `EntryName.toBinaryName` | `entry_binary_name` |
| `EntryName.ofBinaryName` | `binary_name_to_entry` |
-/

namespace ApiSurface.EntryName

/-- What the name of every class entry ends in. -/
def classExtension : String := ".class"

/-- The part of a name behind its last `/`. -/
def lastPart (name : String) : String :=
  String.ofList ((name.toList.splitOn '/').getLastD [])

/-- The last parts of entries that describe a module or a package and no class. -/
def descriptions : List String :=
  ["module-info.class", "package-info.class"]

/-- The entry may hold a class of the artifact. The folder `META-INF` at the top holds none. -/
def isCandidate (name : String) : Bool :=
  classExtension.toList.isSuffixOf name.toList
    && !"META-INF/".toList.isPrefixOf name.toList
    && !descriptions.contains (lastPart name)

/-- The name without the ending of a class entry, if it has that ending. -/
def withoutExtension (name : String) : String :=
  if classExtension.toList.isSuffixOf name.toList then
    String.ofList (name.toList.take (name.toList.length - classExtension.toList.length))
  else
    name

/-- The class that an entry is named for. -/
def toBinaryName (name : String) : String :=
  (withoutExtension name).map fun c => if c = '/' then '.' else c

/-- The entry in which the class `binaryName` is looked for. -/
def ofBinaryName (binaryName : String) : String :=
  (binaryName.map fun c => if c = '.' then '/' else c) ++ classExtension

end ApiSurface.EntryName
