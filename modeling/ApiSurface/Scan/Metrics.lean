import ApiSurface.Scan.Error

/-!
Counts of what batches did, under the names by which they are published.

| here | there |
|---|---|
| `Metric.description` | `describe_all` |
| `Metrics.written`, `Metrics.failed` | `ApiScanner.scan_to_path`, where it counts |
-/

namespace ApiSurface

/-- A number that is published. -/
inductive Metric
  | scansCompleted
  | scanFailures
  | typesEmitted
  | membersEmitted
  | scanDuration
  deriving DecidableEq, Repr

namespace Metric

def all : List Metric :=
  [.scansCompleted, .scanFailures, .typesEmitted, .membersEmitted, .scanDuration]

def name : Metric → String
  | .scansCompleted => "apiscan_scanner_scans_completed_total"
  | .scanFailures => "apiscan_scanner_scan_failures_total"
  | .typesEmitted => "apiscan_scanner_types_emitted_total"
  | .membersEmitted => "apiscan_scanner_members_emitted_total"
  | .scanDuration => "apiscan_scanner_scan_duration_seconds"

/-- The number is a spread of samples and not a count. -/
def isHistogram : Metric → Bool
  | .scanDuration => true
  | _ => false

def description : Metric → String
  | .scansCompleted => "Total number of artifacts whose API report was written"
  | .scanFailures => "Total number of artifacts skipped because of a per-artifact error"
  | .typesEmitted => "Total number of type headers written to API reports"
  | .membersEmitted => "Total number of method and field lines written to API reports"
  | .scanDuration => "Time spent scanning one artifact in seconds"

end Metric

/-- What has been counted. -/
structure Metrics where
  scansCompleted : Nat
  /-- The kind of each failure, in the order in which they came. -/
  failures : List ErrorKind
  typesEmitted : Nat
  membersEmitted : Nat
  /-- The number of scans whose time was taken. -/
  durations : Nat
  deriving DecidableEq, Repr

namespace Metrics

def zero : Metrics := ⟨0, [], 0, 0, 0⟩

/-- Counts a report with that many types and members. -/
def written (types members : Nat) (m : Metrics) : Metrics :=
  { m with
    scansCompleted := m.scansCompleted + 1
    typesEmitted := m.typesEmitted + types
    membersEmitted := m.membersEmitted + members
    durations := m.durations + 1 }

/-- Counts an artifact without a report. -/
def failed (kind : ErrorKind) (m : Metrics) : Metrics :=
  { m with failures := m.failures ++ [kind] }

/-- The number of failures of one kind. -/
def failuresOf (kind : ErrorKind) (m : Metrics) : Nat :=
  m.failures.count kind

end Metrics

end ApiSurface
