import ApiSurface.Report.Sink

/-!
Handing a report on, call by call.

With a call a place may take fewer bytes than it is offered. The others are offered again, until all have
been taken or none is.

A call that is interrupted counts for nothing here: it is made again until it is not.

| here | there |
|---|---|
| `Report.handTo` | `ReportWriter.write` |
| `putWhole` | `write_all` |
-/

namespace ApiSurface

/-- A place that takes bytes call by call, and is in a state of `σ` between them. -/
structure Outlet (σ : Type) where
  /-- Offers bytes, and tells how many of them have been taken. -/
  offer : σ → Bytes → σ × Except IoError Nat
  /-- Asks for all that has been taken to be passed on. -/
  flush : σ → σ × Option IoError

namespace Outlet

/-- Offers bytes until all of them have been taken. -/
def putWhole (o : Outlet σ) : Bytes → σ → σ × Option IoError
  | [], s => (s, none)
  | first :: rest, s =>
    match o.offer s (first :: rest) with
    | (s, .error e) => (s, some e)
    | (s, .ok 0) => (s, some (.other "failed to write whole buffer"))
    | (s, .ok (count + 1)) => putWhole o (rest.drop count) s
termination_by bytes => bytes.length
decreasing_by
  rw [List.length_drop, List.length_cons]
  omega

end Outlet

/-- Writes the report to a place that takes bytes. A refusal is put down to the artifact. -/
def Report.handTo (o : Outlet σ) (r : Report) (s : σ) : σ × Except ScanError Unit :=
  match putAll (fun s chunk => o.putWhole chunk s) r.chunks s with
  | (s, some e) => (s, .error (.write r.artifact e))
  | (s, none) =>
    match o.flush s with
    | (s, some e) => (s, .error (.write r.artifact e))
    | (s, none) => (s, .ok ())

/-- A sink takes what it has room for, and refuses to be offered more. -/
def Sink.outlet : Outlet Sink where
  offer s bytes :=
    let taken := match s.room with
      | none => bytes
      | some n => bytes.take n
    (⟨s.received ++ taken, roomAfter s.room taken.length⟩,
      if taken = [] ∧ bytes ≠ [] then .error (.other "sink closed") else .ok taken.length)
  flush s := (s, none)

end ApiSurface
