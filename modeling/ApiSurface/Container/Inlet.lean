import ApiSurface.Container.Basic
import ApiSurface.Text.Characters

/-!
Reading an entry, call by call.

With a call there may come fewer bytes than are asked for. The others are asked for again, until none come
any more or as many have come as there is a reason to look at.

| here | there |
|---|---|
| `Inlet.drawUpTo` | `read_capped` |
| `Inlet.readWithin` | `ClassContainer.read`, for an entry that is there |
-/

namespace ApiSurface

/-- A place that bytes come from call by call, and is in a state of `σ` between them. -/
structure Inlet (σ : Type) where
  /-- Asks for at most so many bytes. None come once there are no more. -/
  draw : σ → Nat → σ × Except IoError Bytes

namespace Inlet

/-- Asks for bytes until there are as many as `limit`, or none come. -/
def drawUpTo (i : Inlet σ) : Nat → σ → σ × Except IoError Bytes
  | 0, s => (s, .ok [])
  | limit + 1, s =>
    match i.draw s (limit + 1) with
    | (s, .error e) => (s, .error e)
    | (s, .ok []) => (s, .ok [])
    | (s, .ok (first :: more)) =>
      match drawUpTo i (limit - more.length) s with
      | (s, .error e) => (s, .error e)
      | (s, .ok rest) => (s, .ok (first :: more ++ rest))

/-- One byte more than may be read, or as many as can be counted. -/
def capFor (max : Nat) : Nat :=
  min (max + 1) (countBound - 1)

/-- The content of an entry whose length is stated as `size`, of at most `max` bytes. -/
def readWithin (i : Inlet σ) (location : String) (size max : Nat) (s : σ) : σ × Except ScanError Bytes :=
  if max < size then
    (s, .error (.fileTooBig location size max))
  else
    match i.drawUpTo (capFor max) s with
    | (s, .error e) => (s, .error (.io location e))
    | (s, .ok bytes) => (s, Container.within location max bytes)

end Inlet

end ApiSurface
