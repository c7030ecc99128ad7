import ApiSurface.Settings.Basic
import ApiSurface.Text.Characters
import ApiSurface.Toml.Document
import ApiSurface.Toml.Writer

/-!
Settings as a settings file holds them.

A section is a table of fields, or an array with the values of the fields in order. Fields that are
missing keep their default and what is not known is passed over, as long as it can be read at all.

| here | there |
|---|---|
| `Settings.parse?` | `ApiScanConfig.parse`, before it validates |
-/

namespace ApiSurface

namespace Toml.Value

def text? : Toml.Value → Option String
  | .scalar (.text s) => some s
  | _ => none

def bool? : Toml.Value → Option Bool
  | .scalar (.boolean b) => some b
  | _ => none

def count? : Toml.Value → Option Nat
  | .scalar (.integer n) => if 0 ≤ n && n < countBound then some n.toNat else none
  | _ => none

def texts? : Toml.Value → Option (List String)
  | .array items => items.mapM text?
  | _ => none

end Toml.Value

/-- A field of a section `σ`: its key and how a value for it changes the section. -/
structure SectionField (σ : Type) where
  key : String
  put? : Toml.Value → σ → Option σ

namespace SectionField

/-- The section with one entry of a table put into it. -/
def putEntry (fields : List (SectionField σ)) (s : σ) : String × Toml.Value → Option σ
  | (key, v) =>
    match fields.find? (·.key = key) with
    | some field => field.put? v s
    | none => if v.isReadable then some s else none

/-- The section with values put into its fields in order; values without a field are left over. -/
def putInOrder : List (SectionField σ) → List Toml.Value → σ → Option σ
  | field :: fields, v :: values, s => do
    let s ← field.put? v s
    putInOrder fields values s
  | _, _, s => some s

/-- The section that a value gives. A point in time counts as a table without known keys. -/
def read? (fields : List (SectionField σ)) (fallback : σ) : Toml.Value → Option σ
  | .table entries => entries.foldlM (putEntry fields) fallback
  | .array values => putInOrder fields values fallback
  | .scalar .dateTime => some fallback
  | .scalar _ => none

end SectionField

/-! ## The sections -/

def GeneralSettings.fields : List (SectionField GeneralSettings) := [
  ⟨"log_level", fun v s => v.text?.map fun x => { s with logLevel := x }⟩,
  ⟨"log_format", fun v s => v.text?.map fun x => { s with logFormat := x }⟩]

def ScanSettings.fields : List (SectionField ScanSettings) := [
  ⟨"artifacts", fun v s => v.texts?.map fun x => { s with artifacts := x }⟩,
  ⟨"classpath", fun v s => v.texts?.map fun x => { s with classpath := x }⟩,
  ⟨"output_dir", fun v s => v.text?.map fun x => { s with outputDir := x }⟩,
  ⟨"internal_marker", fun v s => v.text?.map fun x => { s with internalMarker := x }⟩,
  ⟨"include_synthetic", fun v s => v.bool?.map fun x => { s with includeSynthetic := x }⟩,
  ⟨"strict_resolution", fun v s => v.bool?.map fun x => { s with strictResolution := x }⟩,
  ⟨"max_parallel_scans", fun v s => v.count?.map fun x => { s with maxParallelScans := x }⟩]

/-- The keys of the two sections. -/
def Settings.fields : List (SectionField Settings) := [
  ⟨"general", fun v s =>
    (SectionField.read? GeneralSettings.fields Settings.defaultGeneral v).map fun x =>
      { s with general := x }⟩,
  ⟨"scanner", fun v s =>
    (SectionField.read? ScanSettings.fields Settings.defaultScan v).map fun x =>
      { s with scan := x }⟩]

/-- The settings in the text of a file. -/
def Settings.parse? (text : String) : Option Settings := do
  SectionField.read? Settings.fields Settings.default (.table (← Toml.parse? text))

/-! ## Writing

All fields are written, in order. -/

open Toml in
def GeneralSettings.text (s : GeneralSettings) : String :=
  String.join [
    writeEntry "log_level" (writeText s.logLevel),
    writeEntry "log_format" (writeText s.logFormat)]

open Toml in
def ScanSettings.text (s : ScanSettings) : String :=
  String.join [
    writeEntry "artifacts" (writeTexts s.artifacts),
    writeEntry "classpath" (writeTexts s.classpath),
    writeEntry "output_dir" (writeText s.outputDir),
    writeEntry "internal_marker" (writeText s.internalMarker),
    writeEntry "include_synthetic" (writeBool s.includeSynthetic),
    writeEntry "strict_resolution" (writeBool s.strictResolution),
    writeEntry "max_parallel_scans" (toString s.maxParallelScans)]

def Settings.text (s : Settings) : String :=
  Toml.writeTables [("general", s.general.text), ("scanner", s.scan.text)]

end ApiSurface
