import ApiSurface.Toml.Literal
import ApiSurface.Toml.Quoted

/-!
The statements of a settings file, one a line: the header of a table, the header of one more table of
a list, and the assignment of a value to a key.

A key is a path of names. What a path means is no part of the grammar.
-/

namespace ApiSurface.Toml

/-- A value as it is written. -/
inductive Expr
  | scalar (s : Scalar)
  | array (items : List Expr)
  /-- The assignments between braces. -/
  | table (assignments : List (List String × Expr))

/-- A line of a file. No path is empty. -/
inductive Statement
  | assign (path : List String) (e : Expr)
  | header (path : List String)
  | listHeader (path : List String)

/-! ## Keys -/

/-- May stand in a name without quotes. -/
def isNameChar (c : Char) : Bool :=
  c.isAlphanum || c = '_' || c = '-'

/-- A name, in quotes or without. -/
def scanName : Scanner String := fun rest => do
  match rest with
  | '"' :: _ | '\'' :: _ =>
    let (name, rest) ← Quoted.single rest
    return (String.ofList name, rest)
  | _ =>
    let (name, rest) := rest.span isNameChar
    guard (!name.isEmpty)
    return (String.ofList name, rest)

/-- A name behind a point, with blanks around it. -/
def scanNextName : Scanner String := do
  Scanner.expect ['.']
  Scanner.blanks
  let name ← scanName
  Scanner.blanks
  return name

/-- The most names of a path. -/
def maxPathLength : Nat := 80

/-- A path: names with points between them, and blanks around it. -/
def scanPath : Scanner (List String) := do
  Scanner.blanks
  let first ← scanName
  Scanner.blanks
  let others ← Scanner.manyUntil (·.head? ≠ some '.') scanNextName
  guard (others.length < maxPathLength)
  return first :: others

/-! ## Values -/

/-- The most brackets inside each other. -/
def maxNesting : Nat := 80

/-- A path, an equals sign and a value, with `space` around the sign. -/
def scanAssignment (space : Scanner Unit) (value : Scanner Expr) :
    Scanner (List String × Expr) := do
  let path ← scanPath
  space
  Scanner.expect ['=']
  space
  return (path, ← value)

/-- A value without brackets. -/
def scanLeaf : Scanner Expr := fun rest => do
  match rest with
  | '"' :: _ | '\'' :: _ =>
    let (text, rest) ← Quoted.any rest
    return (.scalar (.text (String.ofList text)), rest)
  | _ =>
    let (s, rest) ← Literal.scan rest
    return (.scalar s, rest)

/-- A value with at most that many brackets inside each other. Between brackets lines may end
anywhere but in a path. -/
def scanExpr : Nat → Scanner Expr
  | 0 => scanLeaf
  | depth + 1 => fun rest =>
    match rest with
    | '[' :: inner =>
      (Scanner.listUntil ']' (scanExpr depth) inner).map fun (items, rest) =>
        (.array items, rest)
    | '\x7b' :: inner =>
      (Scanner.listUntil '\x7d' (scanAssignment Scanner.gap (scanExpr depth)) inner).map
        fun (entries, rest) => (.table entries, rest)
    | _ => scanLeaf rest

/-! ## Statements -/

/-- One line. -/
def scanStatement : Scanner Statement := fun rest =>
  match rest with
  | '[' :: '[' :: rest => (do
      let path ← scanPath
      Scanner.expect [']', ']']
      Scanner.lineEnd
      return .listHeader path : Scanner Statement) rest
  | '[' :: rest => (do
      let path ← scanPath
      Scanner.expect [']']
      Scanner.lineEnd
      return .header path : Scanner Statement) rest
  | rest => (do
      let (path, e) ← scanAssignment Scanner.blanks (scanExpr maxNesting)
      Scanner.lineEnd
      return .assign path e : Scanner Statement) rest

/-- One line and the gap behind it. -/
def scanLine : Scanner Statement := do
  let s ← scanStatement
  Scanner.gap
  return s

/-- What may stand in front of the first line. -/
def byteOrderMark : Char := '\ufeff'

/-- All statements of a file. -/
def statements? (text : String) : Option (List Statement) := do
  let chars := text.toList
  let chars := if chars.head? = some byteOrderMark then chars.tail else chars
  let (lines, _) ← (do Scanner.gap; Scanner.manyUntil List.isEmpty scanLine) chars
  return lines

end ApiSurface.Toml
