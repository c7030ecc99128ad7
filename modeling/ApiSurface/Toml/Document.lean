import ApiSurface.Toml.Statement

/-!
The meaning of the statements of a settings file.

Statements build one table of tables. Where a table comes from decides who may still add to it: a
table of a header is complete once another header follows, a table that a dotted key made takes more
dotted keys, a table that only the path of a header made takes a header or dotted keys, and a table in
braces takes nothing more. Nothing is defined twice.
-/

namespace ApiSurface.Toml

/-- Where a table comes from. -/
inductive Origin
  /-- From the path of a header further down. -/
  | path
  /-- From the path of an assigned key. -/
  | dotted
  /-- From a header of its own. -/
  | header
  deriving DecidableEq, Repr

/-- What stands behind a key while the table is built. -/
inductive Item
  | value (v : Value)
  | table (origin : Origin) (entries : List (String × Item))
  /-- The tables with one header, the last one first. -/
  | tables (elements : List (List (String × Item)))

/-- A table under construction. -/
abbrev Entries := List (String × Item)

namespace Entries

/-- Changes what stands behind `key`, or adds it; `change` may refuse. -/
def modify (key : String) (change : Option Item → Option Item) : Entries → Option Entries
  | [] => (change none).map fun item => [(key, item)]
  | (k, item) :: rest =>
    if k = key then (change (some item)).map fun item => (k, item) :: rest
    else (modify key change rest).map ((k, item) :: ·)

/-- Changes the table at the end of `path`, making those that are missing. Of a list of tables the
last one is meant. A dotted key does not reach into a table with a header of its own, and the table to
which it adds counts as one of dotted keys from then on. -/
def modifyAt (made : Origin) (change : Origin → Entries → Option Entries) :
    List String → Origin → Entries → Option Entries
  | [], origin, entries => change origin entries
  | key :: path, _, entries =>
    entries.modify key fun
      | none => (modifyAt made change path made []).map (.table made)
      | some (.table origin inner) =>
        if made = .dotted && origin = .header then none
        else
          let newOrigin := if made = .dotted && path.isEmpty then made else origin
          (modifyAt made change path origin inner).map (.table newOrigin)
      | some (.tables (last :: before)) =>
        (modifyAt made change path .header last).map fun last => .tables (last :: before)
      | some (.tables []) | some (.value _) => none

/-- Adds a key that is not there yet. -/
def add (key : String) (v : Value) (entries : Entries) : Option Entries :=
  entries.modify key fun
    | none => some (.value v)
    | some _ => none

/-- Assigns a value to a path below the table. The table at the end of a dotted path has no header of
its own. -/
def assign (path : List String) (v : Value) (entries : Entries) : Option Entries :=
  let above := path.dropLast
  let change (origin : Origin) (entries : Entries) : Option Entries :=
    if above.isEmpty || origin ≠ .header then entries.add (path.getLastD "") v else none
  modifyAt .dotted change above .header entries

/-- Gives the table at `path` its header. -/
def openTable (path : List String) (entries : Entries) : Option Entries :=
  let change (_ : Origin) (entries : Entries) : Option Entries :=
    entries.modify (path.getLastD "") fun
      | none => some (.table .header [])
      | some (.table .path inner) => some (.table .header inner)
      | some _ => none
  modifyAt .path change path.dropLast .header entries

/-- Adds one more table to the list at `path`. -/
def openListed (path : List String) (entries : Entries) : Option Entries :=
  let change (_ : Origin) (entries : Entries) : Option Entries :=
    entries.modify (path.getLastD "") fun
      | none => some (.tables [[]])
      | some (.tables elements) => some (.tables ([] :: elements))
      | some _ => none
  modifyAt .path change path.dropLast .header entries

end Entries

mutual

/-- The value of a finished item. -/
def Item.toValue : Item → Value
  | .value v => v
  | .table _ entries => .table (valuesOf entries)
  | .tables elements => .array (tablesOf elements)

def valuesOf : List (String × Item) → List (String × Value)
  | [] => []
  | (key, item) :: rest => (key, item.toValue) :: valuesOf rest

/-- The tables of a list in the order of the file. -/
def tablesOf : List (List (String × Item)) → List Value
  | [] => []
  | entries :: before => tablesOf before ++ [.table (valuesOf entries)]

end

mutual

/-- The value of an expression, unless a table in it defines something twice. -/
def Expr.toValue? : Expr → Option Value
  | .scalar s => some (.scalar s)
  | .array items => (valuesOf? items).map .array
  | .table assignments =>
    (assignAll? assignments []).map fun entries => .table (valuesOf entries)

def valuesOf? : List Expr → Option (List Value)
  | [] => some []
  | e :: rest => do
    let v ← e.toValue?
    let values ← valuesOf? rest
    return v :: values

def assignAll? : List (List String × Expr) → Entries → Option Entries
  | [], entries => some entries
  | (path, e) :: rest, entries => do
    let v ← e.toValue?
    let entries ← entries.assign path v
    assignAll? rest entries

end

/-- The table built so far and the path of the header above the next line. -/
structure Document where
  root : Entries
  current : List String

namespace Document

def empty : Document := ⟨[], []⟩

/-- The document with one more line. -/
def step (d : Document) : Statement → Option Document
  | .assign path e => do
    let v ← e.toValue?
    let root ← Entries.modifyAt .path (fun _ entries => entries.assign path v) d.current .header d.root
    return { d with root }
  | .header path => (d.root.openTable path).map (⟨·, path⟩)
  | .listHeader path => (d.root.openListed path).map (⟨·, path⟩)

end Document

/-- The entries of the table that a text denotes. -/
def parse? (text : String) : Option (List (String × Value)) := do
  let lines ← statements? text
  let d ← lines.foldlM Document.step Document.empty
  return valuesOf d.root

end ApiSurface.Toml
