import ApiSurface.Report.Basic
import ApiSurface.Scan.Error

/-!
Handing a report on, piece by piece.

A writer stops at the first piece that is refused. What has been accepted until then is a front part
of the report.

| here | there |
|---|---|
| `Report.writeTo` | `ReportWriter.write` |
-/

namespace ApiSurface

/-- Hands on `chunks` in order with `put`, up to the first refusal. -/
def putAll (put : σ → Bytes → σ × Option IoError) : List Bytes → σ → σ × Option IoError
  | [], s => (s, none)
  | chunk :: rest, s =>
    match put s chunk with
    | (s, none) => putAll put rest s
    | (s, some e) => (s, some e)

/-- A place that takes bytes until it is full. -/
structure Sink where
  received : Bytes
  /-- The number of bytes that it still takes; no number means that it takes all. -/
  room : Option Nat
  deriving DecidableEq, Repr

namespace Sink

/-- What is left of the room once `n` bytes have been taken. -/
def roomAfter (room : Option Nat) (n : Nat) : Option Nat :=
  room.map (· - n)

/-- Takes as much of `chunk` as there is room for. -/
def put (s : Sink) (chunk : Bytes) : Sink × Option IoError :=
  let taken := match s.room with
    | none => chunk
    | some n => chunk.take n
  let after := ⟨s.received ++ taken, roomAfter s.room taken.length⟩
  (after, if taken.length < chunk.length then some (.other "sink closed") else none)

end Sink

/-- Writes the report into a sink. A refusal is put down to the artifact. -/
def Report.writeTo (r : Report) (sink : Sink) : Sink × Except ScanError Unit :=
  match putAll Sink.put r.chunks sink with
  | (sink, none) => (sink, .ok ())
  | (sink, some e) => (sink, .error (.write r.artifact e))

end ApiSurface
