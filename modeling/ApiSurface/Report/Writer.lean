import ApiSurface.Report.Sink
import ApiSurface.Storage.Replacement

/-!
Saving a report, call by call.

The pieces of a report gather in a buffer, which is handed to the system when it is full. A call that
writes may take fewer bytes than it was given, and any call may fail. Whatever is in the buffer then is
offered to the system once more as the file is closed, before the file is taken away.

A call that is interrupted counts for nothing here: it is made again until it is not.

| here | there |
|---|---|
| `Report.saveTo` | `ReportWriter.write_to_path` |
| `Course.writeAll` | `write_all` |
| `BufferedFile` | `BufWriter` |
-/

namespace ApiSurface

/-! ## Calls to the system -/

/-- What the system does with a call. -/
inductive Verdict
  | done
  /-- Of bytes that are to be written it takes so many, if there are as many. Any other call is done. -/
  | takes (count : Nat)
  | fails (e : IoError)

/-- The bytes that the system takes of those that are to be written. -/
def Verdict.taken (bytes : Bytes) : Verdict → Except IoError Bytes
  | .done => .ok bytes
  | .takes count => .ok (bytes.take count)
  | .fails e => .error e

/-- What the system does with each call, by the number of calls before it. -/
abbrev Verdicts := Nat → WriteStep → Verdict

/-- The files after some calls. -/
structure Course where
  files : FileSystem
  /-- How the files stood before each call, the last call first. -/
  past : List FileSystem

namespace Course

/-- The files after one more call. -/
def goOn (files : FileSystem) (s : Course) : Course :=
  ⟨files, s.files :: s.past⟩

def call (v : Verdicts) (step : WriteStep) (s : Course) : Course × Option IoError :=
  match v s.past.length step with
  | .fails e => (s.goOn s.files, some e)
  | _ =>
    match s.files.perform step with
    | (files, e?) => (s.goOn files, e?)

/-- Offers bytes to a file, and tells how many of them it has taken. -/
def write (v : Verdicts) (path : Path) (bytes : Bytes) (s : Course) : Course × Except IoError Nat :=
  match (v s.past.length (.append path bytes)).taken bytes with
  | .error e => (s.goOn s.files, .error e)
  | .ok taken =>
    match s.files.perform (.append path taken) with
    | (files, none) => (s.goOn files, .ok taken.length)
    | (files, some e) => (s.goOn files, .error e)

/-- Offers bytes to a file until all have been taken, and tells which have not. `stuck` is said of a file
that takes none. -/
def writeAll (v : Verdicts) (path : Path) (stuck : IoError) :
    Bytes → Course → Course × Bytes × Option IoError
  | [], s => (s, [], none)
  | first :: rest, s =>
    match s.write v path (first :: rest) with
    | (s, .error e) => (s, first :: rest, some e)
    | (s, .ok 0) => (s, first :: rest, some stuck)
    | (s, .ok (count + 1)) => writeAll v path stuck (rest.drop count) s
termination_by bytes => bytes.length
decreasing_by
  rw [List.length_drop, List.length_cons]
  omega

end Course

/-! ## The buffer -/

/-- A file to which bytes go through a buffer. -/
structure BufferedFile where
  course : Course
  buffer : Bytes

namespace BufferedFile

/-- The number of bytes that the buffer holds. -/
def capacity : Nat := 8192

def room (f : BufferedFile) : Nat :=
  capacity - f.buffer.length

/-- Writes what is in the buffer. -/
def flush (v : Verdicts) (path : Path) (f : BufferedFile) : BufferedFile × Option IoError :=
  match f.course.writeAll v path (.other "failed to write the buffered data") f.buffer with
  | (course, left, e?) => (⟨course, left⟩, e?)

/-- Puts bytes into the buffer. When they do not fit in, the buffer is written first, and bytes that
would fill it go straight to the file. -/
def put (v : Verdicts) (path : Path) (f : BufferedFile) (bytes : Bytes) :
    BufferedFile × Option IoError :=
  match if f.room < bytes.length then f.flush v path else (f, none) with
  | (f, some e) => (f, some e)
  | (f, none) =>
    if bytes.length < capacity then
      (⟨f.course, f.buffer ++ bytes⟩, none)
    else
      match f.course.writeAll v path (.other "failed to write whole buffer") bytes with
      | (course, _, e?) => (⟨course, f.buffer⟩, e?)

/-- Closes the file. What is in the buffer is written if the system takes it. -/
def close (v : Verdicts) (path : Path) (f : BufferedFile) : Course :=
  (f.flush v path).1.course

/-- Writes pieces. The buffer is written at the end, and once more as it is given up. -/
def writePieces (v : Verdicts) (path : Path) (pieces : List Bytes) (s : Course) :
    Course × Option IoError :=
  match putAll (put v path) pieces ⟨s, []⟩ with
  | (f, some e) => (f.close v path, some e)
  | (f, none) =>
    match f.flush v path with
    | (f, some e) => (f.close v path, some e)
    | (f, none) =>
      match f.flush v path with
      | (f, some e) => (f.close v path, some e)
      | (f, none) => (f.course, none)

end BufferedFile

/-! ## The report -/

namespace Report

/-- Writes the report to a file of its own, which then takes the name of the old one. -/
def putInPlace (v : Verdicts) (temp path : Path) (r : Report) (s : Course) : Course × Option IoError :=
  match s.call v (.create temp) with
  | (s, some e) => (s, some e)
  | (s, none) =>
    match BufferedFile.writePieces v temp r.chunks s with
    | (s, some e) => (s, some e)
    | (s, none) =>
      match s.call v (.sync temp) with
      | (s, some e) => (s, some e)
      | (s, none) => s.call v (.move temp path)

/-- Saves the report at `path`. A failure is put down to that path, and what has been written is taken
away again. -/
def saveTo (v : Verdicts) (token : String) (path : Path) (r : Report) (fs : FileSystem) :
    Course × Except ScanError Unit :=
  let temp := Replacement.temporary token path
  match r.putInPlace v temp path ⟨fs, []⟩ with
  | (s, none) => (s, .ok ())
  | (s, some e) => ((s.call v (.remove temp)).1, .error (.write path.shown e))

end Report

end ApiSurface
