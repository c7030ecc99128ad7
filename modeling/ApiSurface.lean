import ApiSurface.Archive.Basic
import ApiSurface.Archive.Deflate
import ApiSurface.Archive.Directory
import ApiSurface.Archive.ExtraData
import ApiSurface.Archive.Field
import ApiSurface.Archive.Outline
import ApiSurface.Bytes
import ApiSurface.ClassFile.Access
import ApiSurface.ClassFile.Basic
import ApiSurface.ClassFile.ConstantPool
import ApiSurface.ClassFile.Decoder
import ApiSurface.ClassFile.Reader
import ApiSurface.CommandLine.Answer
import ApiSurface.CommandLine.Arguments
import ApiSurface.CommandLine.Error
import ApiSurface.CommandLine.LogFilter
import ApiSurface.CommandLine.Run
import ApiSurface.CommandLine.Usage
import ApiSurface.Container.Basic
import ApiSurface.Container.EntryName
import ApiSurface.Container.Inlet
import ApiSurface.Decl.Basic
import ApiSurface.Decl.Block
import ApiSurface.Decl.Source
import ApiSurface.Failure
import ApiSurface.Json
import ApiSurface.Main
import ApiSurface.Pattern.Atom
import ApiSurface.Pattern.Bracket
import ApiSurface.Pattern.Machine
import ApiSurface.Proofs.Archive.Unpacking
import ApiSurface.Proofs.Batch.Again
import ApiSurface.Proofs.Batch.Counts
import ApiSurface.Proofs.Batch.Elsewhere
import ApiSurface.Proofs.Batch.Ending
import ApiSurface.Proofs.Batch.Frame
import ApiSurface.Proofs.Batch.FreshFolder
import ApiSurface.Proofs.Batch.Independence
import ApiSurface.Proofs.Batch.Inputs
import ApiSurface.Proofs.Batch.Ledger
import ApiSurface.Proofs.Batch.Places
import ApiSurface.Proofs.Batch.Plan
import ApiSurface.Proofs.Batch.Queue
import ApiSurface.Proofs.Batch.Reports
import ApiSurface.Proofs.Batch.Schedule
import ApiSurface.Proofs.Batch.Sequential
import ApiSurface.Proofs.Batch.Serving
import ApiSurface.Proofs.Batch.Tasks
import ApiSurface.Proofs.Batch.Tokens
import ApiSurface.Proofs.ClassFile.Bounds
import ApiSurface.Proofs.ClassFile.Layout
import ApiSurface.Proofs.ClassFile.RoundTrip
import ApiSurface.Proofs.ClassFile.Truncation
import ApiSurface.Proofs.ClassFile.UnusedTexts
import ApiSurface.Proofs.CommandLine.ExitCode
import ApiSurface.Proofs.CommandLine.Precedence
import ApiSurface.Proofs.CommandLine.Presentation
import ApiSurface.Proofs.Container.Reading
import ApiSurface.Proofs.Container.Unpacked
import ApiSurface.Proofs.Container.Visits
import ApiSurface.Proofs.Decl.Canonical
import ApiSurface.Proofs.Decl.Erasure
import ApiSurface.Proofs.Decl.Exports
import ApiSurface.Proofs.Decl.LineBreaks
import ApiSurface.Proofs.Decl.Mentions
import ApiSurface.Proofs.Decl.Namespace
import ApiSurface.Proofs.Decl.Ordering
import ApiSurface.Proofs.Decl.Overloads
import ApiSurface.Proofs.Decl.Refinement
import ApiSurface.Proofs.Decl.SourceNames
import ApiSurface.Proofs.Decl.Visibility
import ApiSurface.Proofs.Machine.Basic
import ApiSurface.Proofs.Machine.Declarations
import ApiSurface.Proofs.Machine.Decoder
import ApiSurface.Proofs.Machine.Rendering
import ApiSurface.Proofs.Machine.Scanner
import ApiSurface.Proofs.Machine.Signature
import ApiSurface.Proofs.Machine.Text
import ApiSurface.Proofs.Machine.Units
import ApiSurface.Proofs.Report.Outlet
import ApiSurface.Proofs.Report.ReadBack
import ApiSurface.Proofs.Report.Saving
import ApiSurface.Proofs.Scan.Agreement
import ApiSurface.Proofs.Scan.Answers
import ApiSurface.Proofs.Scan.Classpath
import ApiSurface.Proofs.Scan.Confinement
import ApiSurface.Proofs.Scan.Discovery
import ApiSurface.Proofs.Scan.Holders
import ApiSurface.Proofs.Scan.Index
import ApiSurface.Proofs.Scan.Labels
import ApiSurface.Proofs.Scan.LongerClasspath
import ApiSurface.Proofs.Scan.Lookup
import ApiSurface.Proofs.Scan.Questions
import ApiSurface.Proofs.Scan.ReadBack
import ApiSurface.Proofs.Scan.Report
import ApiSurface.Proofs.Scan.Resolution
import ApiSurface.Proofs.Scan.Snapshot
import ApiSurface.Proofs.Scan.Surface
import ApiSurface.Proofs.Scan.Synthetic
import ApiSurface.Proofs.Scan.Unpacked
import ApiSurface.Proofs.Settings.Environment
import ApiSurface.Proofs.Settings.Fields
import ApiSurface.Proofs.Settings.Layers
import ApiSurface.Proofs.Settings.Sections
import ApiSurface.Proofs.Settings.Validation
import ApiSurface.Proofs.Signature.Budget
import ApiSurface.Proofs.Signature.Choices
import ApiSurface.Proofs.Signature.Declarations
import ApiSurface.Proofs.Signature.RoundTrip
import ApiSurface.Proofs.Signature.Steps
import ApiSurface.Proofs.Signature.Types
import ApiSurface.Proofs.Storage.Below
import ApiSurface.Proofs.Storage.Children
import ApiSurface.Proofs.Storage.Dots
import ApiSurface.Proofs.Storage.Effects
import ApiSurface.Proofs.Storage.Faults
import ApiSurface.Proofs.Storage.Filling
import ApiSurface.Proofs.Storage.Folders
import ApiSurface.Proofs.Storage.Listing
import ApiSurface.Proofs.Storage.Locate
import ApiSurface.Proofs.Storage.Names
import ApiSurface.Proofs.Storage.Replacement
import ApiSurface.Proofs.Storage.SingleSteps
import ApiSurface.Proofs.Storage.Tours
import ApiSurface.Proofs.Storage.Tree
import ApiSurface.Proofs.Storage.Walk
import ApiSurface.Proofs.Text.Brackets
import ApiSurface.Proofs.Text.Forms
import ApiSurface.Proofs.Text.OsString
import ApiSurface.Proofs.Text.Separated
import ApiSurface.Report.Basic
import ApiSurface.Report.Outlet
import ApiSurface.Report.Sink
import ApiSurface.Scan.Basic
import ApiSurface.Scan.Batch
import ApiSurface.Scan.Error
import ApiSurface.Scan.Metrics
import ApiSurface.Scan.Universe
import ApiSurface.Settings.Basic
import ApiSurface.Settings.Environment
import ApiSurface.Settings.Format
import ApiSurface.Settings.Loading
import ApiSurface.Settings.Validation
import ApiSurface.Signature.Basic
import ApiSurface.Signature.Parser
import ApiSurface.Storage.Change
import ApiSurface.Storage.FileSystem
import ApiSurface.Storage.IoError
import ApiSurface.Storage.Listing
import ApiSurface.Storage.Path
import ApiSurface.Storage.Replacement
import ApiSurface.Text.Characters
import ApiSurface.Text.ModifiedUtf8
import ApiSurface.Text.OsString
import ApiSurface.Text.Utf16
import ApiSurface.Text.Utf8
import ApiSurface.Toml.Document
import ApiSurface.Toml.Literal
import ApiSurface.Toml.Quoted
import ApiSurface.Toml.Scanner
import ApiSurface.Toml.Statement
import ApiSurface.Toml.Value
import ApiSurface.Toml.Writer
