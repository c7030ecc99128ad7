import ApiSurface.Decl.Block
import ApiSurface.Scan.Universe
import ApiSurface.Settings.Basic

/-!
The scan of one artifact: from its classes to its report.

| here | there |
|---|---|
| `scan` | `ApiScanner.scan` |
-/

namespace ApiSurface

namespace Scan

/-- The lines for types, one block after the other. The supertypes of a type are searched before its
block is made. -/
def blocks (fs : FileSystem) (s : ScannerSettings) :
    List TypeDecl → Universe → Except ScanError (List Report.Line)
  | [], _ => .ok []
  | t :: rest, u =>
    match u.checkSupertypes fs s.strictResolution t with
    | (.error e, _) => .error e
    | (.ok (), u) => (blocks fs s rest u).map (t.block s.includeSynthetic ++ ·)

end Scan

/-- The report on an artifact. -/
def scan (fs : FileSystem) (s : ScannerSettings) (r : ScanRequest) : Except ScanError Report := do
  let u ← Universe.resolve fs s.maxClassFileSize r
  let lines ← Scan.blocks fs s (u.reported s.internalMarker) u
  return ⟨r.artifact.shown, lines⟩

end ApiSurface
