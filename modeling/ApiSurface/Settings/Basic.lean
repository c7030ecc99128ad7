/-!
Settings: what is to be scanned, how, and how the work is logged.

| here | there |
|---|---|
| `GeneralSettings` | `GeneralConfig` |
| `ScanSettings` | `ScannerConfig` |
| `Settings` | `ApiScanConfig` |
| `ScannerSettings` | `ApiScannerConfig` |
| `ScannerSettings.ofScan` | `ApiScannerConfig.from_core` |
-/

namespace ApiSurface

/-- Settings about logging. -/
structure GeneralSettings where
  logLevel : String
  logFormat : String
  deriving DecidableEq, Repr

/-- Settings about the scan. -/
structure ScanSettings where
  /-- The archives and folders whose surface is reported. -/
  artifacts : List String
  /-- Where types are looked for that the artifacts refer to. -/
  classpath : List String
  /-- The folder for the reports. -/
  outputDir : String
  /-- The package segment that marks internal packages. -/
  internalMarker : String
  /-- Members made by a compiler are reported too. -/
  includeSynthetic : Bool
  /-- A supertype that cannot be found is an error. -/
  strictResolution : Bool
  maxParallelScans : Nat
  deriving DecidableEq, Repr

/-- What a settings file holds. -/
structure Settings where
  general : GeneralSettings
  scan : ScanSettings
  deriving DecidableEq, Repr

/-- What a scanner works with. -/
structure ScannerSettings extends ScanSettings where
  /-- In bytes. -/
  maxClassFileSize : Nat
  deriving DecidableEq, Repr

namespace Settings

def defaultGeneral : GeneralSettings where
  logLevel := "info"
  logFormat := "pretty"

def defaultScan : ScanSettings where
  artifacts := []
  classpath := []
  outputDir := "build/api"
  internalMarker := "internal"
  includeSynthetic := true
  strictResolution := false
  maxParallelScans := 4

/-- What holds where nothing else is said. -/
def default : Settings where
  general := defaultGeneral
  scan := defaultScan

end Settings

namespace ScannerSettings

def defaultMaxClassFileSize : Nat := 16 * 1024 * 1024

/-- The settings of a file as a scanner takes them. -/
def ofScan (s : ScanSettings) : ScannerSettings :=
  { s with maxClassFileSize := defaultMaxClassFileSize }

end ScannerSettings

end ApiSurface
