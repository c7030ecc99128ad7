import ApiSurface.Report.Basic
import ApiSurface.Scan.Basic
import ApiSurface.Scan.Metrics
import ApiSurface.Storage.Replacement

/-!
Batches: the reports on many artifacts, written into one folder.

Each request in turn is given the path of its report. No path is given twice: the first request that
asks for one has it. The report is made and written later, for only so many scans may be under way at
a time; when a request finds no room, the oldest scan is brought to its end first. So what a path leads
to is asked when earlier scans, all but the last few, have changed the files. An artifact without a
report is skipped, and the others go on.

| here | there |
|---|---|
| `Outcome` | `ArtifactOutcome` |
| `BatchSummary` | `BatchSummary` |
| `Batch.reportPath` | `output_path_for` |
| `Batch.Job` | `Pending` |
| `Batch.skip` | `ArtifactOutcome.skipped` |
| `Batch.scanTo` | `ApiScanner.scan_to_path` |
| `scanBatch` | `ApiScanner.scan_batch`, on one of the schedules that are open to it |
| `scanConfigured` | `ApiScanner.run` |
-/

namespace ApiSurface

/-- What came of a request. -/
inductive Outcome
  | written (artifact report : Path) (types members : Nat)
  | skipped (artifact : Path) (error : ScanError)
  deriving DecidableEq, Repr

namespace Outcome

def artifact : Outcome → Path
  | .written artifact .. => artifact
  | .skipped artifact _ => artifact

def isWritten : Outcome → Bool
  | .written .. => true
  | .skipped .. => false

end Outcome

/-- The outcomes in the order of the requests. -/
structure BatchSummary where
  outcomes : List Outcome
  deriving DecidableEq, Repr

namespace BatchSummary

def written (s : BatchSummary) : Nat :=
  s.outcomes.countP (·.isWritten)

def skipped (s : BatchSummary) : Nat :=
  s.outcomes.length - s.written

/-- Every artifact has its report. -/
def isComplete (s : BatchSummary) : Bool :=
  s.skipped = 0

end BatchSummary

namespace Batch

/-! ## Paths of reports -/

/-- The name of the file for the report: that of a folder with an extension added, that of a file
with its extension replaced. A path that ends in no name has that of the place it leads to. -/
def reportName? (fs : FileSystem) (artifact : Path) : Option OsString :=
  (artifact.fileName?.or (fs.placeName? artifact)).map fun name =>
    if fs.isFolder artifact then name ++ ".txt" else Path.withExtension "txt" name

/-- Where the report on an artifact belongs. -/
def reportPath (fs : FileSystem) (outputDir artifact : Path) : Except ScanError Path :=
  match reportName? fs artifact with
  | some name => .ok (outputDir.join ⟨name⟩)
  | none => .error (.resolution artifact.shown .noReportName)

/-! ## Planning -/

/-- What is to be done about a request. -/
inductive Job
  | scan (request : ScanRequest) (report : Path)
  | skip (artifact : Path) (error : ScanError)
  deriving DecidableEq, Repr

def Job.isScan : Job → Bool
  | .scan .. => true
  | .skip .. => false

/-- The path that a job has for its report. -/
def Job.claim? : Job → Option Path
  | .scan _ report => some report
  | .skip .. => none

/-- The job for a request, where the paths `claimed` are given away already. -/
def jobOf (fs : FileSystem) (outputDir : Path) (claimed : List Path) (r : ScanRequest) : Job :=
  match reportPath fs outputDir r.artifact with
  | .error e => .skip r.artifact e
  | .ok path =>
    if claimed.contains path then .skip r.artifact (.outputCollision path.shown) else .scan r path

/-! ## Working -/

/-- What a batch changes: the files, and the counts. -/
structure State where
  files : FileSystem
  metrics : Metrics

/-- Everything a batch needs that is not asked for in its requests. -/
structure Workshop where
  settings : ScannerSettings
  device : WriteDevice
  /-- The token for the temporary file of each job, by its place in the batch. -/
  token : Nat → String

/-- Records a skipped artifact. -/
def skip (artifact : Path) (e : ScanError) (s : State) : State × Outcome :=
  ({ s with metrics := s.metrics.failed e.kind }, .skipped artifact e)

/-- Makes and writes one report. -/
def scanTo (w : Workshop) (i : Nat) (r : ScanRequest) (report : Path) (s : State) :
    State × Outcome :=
  match ApiSurface.scan s.files w.settings r with
  | .error e => skip r.artifact e s
  | .ok found =>
    match replaceFile w.device (w.token i) report (Bytes.ofText found.text) s.files with
    | (files, some e) => skip r.artifact (.write report.shown e) { s with files }
    | (files, none) =>
      ({ files, metrics := s.metrics.written found.typeCount found.memberCount },
        .written r.artifact report found.typeCount found.memberCount)

/-- Does the job at place `i` of the batch. -/
def work (w : Workshop) (i : Nat) (job : Job) (s : State) : State × Outcome :=
  match job with
  | .skip artifact e => skip artifact e s
  | .scan r report => scanTo w i r report s

/-- Jobs with their places in the batch, the oldest first. -/
abbrev Queue := List (Nat × Job)

/-- Does all jobs, one after the other. -/
def workAll (w : Workshop) : Queue → State → State × List Outcome
  | [], s => (s, [])
  | (i, job) :: rest, s =>
    let (s, outcome) := work w i job s
    let (s, outcomes) := workAll w rest s
    (s, outcome :: outcomes)

/-- The jobs up to the first scan, and those behind it. -/
def splitAtScan : Queue → Queue × Queue
  | [] => ([], [])
  | (i, job) :: rest =>
    if job.isScan then
      ([(i, job)], rest)
    else
      let (front, back) := splitAtScan rest
      ((i, job) :: front, back)

/-- The jobs that have to be done before one more scan is begun, and those that may wait. -/
def makeRoom (maxScans : Nat) (waiting : Queue) : Queue × Queue :=
  if maxScans ≤ waiting.countP (·.2.isScan) then splitAtScan waiting else ([], waiting)

/-- Plans and does the requests from place `i` on, with jobs that are still waiting and paths that are
given away. -/
def runFrom (w : Workshop) (outputDir : Path) :
    Nat → Queue → List Path → List ScanRequest → State → State × List Outcome
  | _, waiting, _, [], s => workAll w waiting s
  | i, waiting, claimed, r :: rest, s =>
    let job := jobOf s.files outputDir claimed r
    let (due, waiting) :=
      if job.isScan then makeRoom w.settings.maxParallelScans waiting else ([], waiting)
    let (s, first) := workAll w due s
    let (s, others) := runFrom w outputDir (i + 1) (waiting ++ [(i, job)])
      (job.claim?.toList ++ claimed) rest s
    (s, first ++ others)

end Batch

/-- Writes the reports on the requests into a folder, which is made if it is missing. Without the
folder there is no batch. -/
def scanBatch (w : Batch.Workshop) (requests : List ScanRequest) (outputDir : Path)
    (s : Batch.State) : Batch.State × Except ScanError BatchSummary :=
  match s.files.createFolders outputDir with
  | (files, some e) => ({ s with files }, .error (.directory outputDir.shown e))
  | (files, none) =>
    let (s, outcomes) := Batch.runFrom w outputDir 0 [] [] requests { s with files }
    (s, .ok ⟨outcomes⟩)

/-- The requests that the settings of a scanner name. -/
def ScannerSettings.requests (s : ScannerSettings) : List ScanRequest :=
  s.artifacts.map fun (artifact : String) => ⟨⟨artifact⟩, s.classpath.map fun (location : String) => ⟨location⟩⟩

/-- The batch that the settings of the scanner name. -/
def scanConfigured (w : Batch.Workshop) (s : Batch.State) :
    Batch.State × Except ScanError BatchSummary :=
  scanBatch w w.settings.requests ⟨w.settings.outputDir⟩ s

end ApiSurface
