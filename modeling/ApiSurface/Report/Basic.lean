import ApiSurface.Bytes

/-!
Reports: the surface of one artifact as lines of text.

Each line starts with a mark for its kind and ends with a line feed, so a report can be compared with
another line by line.

| here | there |
|---|---|
| `Report.LineKind` | `RecordKind` |
| `Report.LineKind.mark` | `RecordKind.prefix` |
| `Report.Line` | `ReportLine` |
| `Report.typeCount` | `Report.type_count` |
| `Report.memberCount` | `Report.member_count` |
-/

namespace ApiSurface

namespace Report

/-- What a line of a report is about. -/
inductive LineKind
  | type
  | method
  | field
  deriving DecidableEq, Repr

namespace LineKind

/-- What a line of this kind starts with. -/
def mark : LineKind → String
  | .type => "C: "
  | .method => "M:  "
  | .field => "F:  "

def name : LineKind → String
  | .type => "type"
  | .method => "method"
  | .field => "field"

end LineKind

/-- One line, without its mark. -/
structure Line where
  kind : LineKind
  text : String
  deriving DecidableEq, Repr

/-- The line as it stands in the report. -/
def Line.render (line : Line) : String :=
  line.kind.mark ++ line.text

end Report

/-- The report on one artifact. -/
structure Report where
  /-- The artifact as it was named. -/
  artifact : String
  lines : List Report.Line
  deriving DecidableEq, Repr

namespace Report

def typeCount (r : Report) : Nat :=
  r.lines.countP (·.kind = .type)

/-- The number of methods and fields. -/
def memberCount (r : Report) : Nat :=
  r.lines.length - r.typeCount

/-- The report as it is written to a file. -/
def text (r : Report) : String :=
  String.join (r.lines.map fun line => line.render ++ "\n")

/-- The pieces that a writer hands on one after the other: of each line its mark, its text and its
end. -/
def chunks (r : Report) : List Bytes :=
  r.lines.flatMap fun line =>
    [Bytes.ofText line.kind.mark, Bytes.ofText line.text, Bytes.ofText "\n"]

end Report

end ApiSurface
