import SolidScript.Arguments.Basic
import SolidScript.Arguments.Constructor
import SolidScript.Arguments.Shapes
import SolidScript.Arguments.Transforms
import SolidScript.CommandLine.Invocation
import SolidScript.CommandLine.Log
import SolidScript.CommandLine.Run
import SolidScript.CommandLine.Switch
import SolidScript.CommandLine.Workspace
import SolidScript.Config.Basic
import SolidScript.Config.Environment
import SolidScript.Config.Saved
import SolidScript.Config.Toml
import SolidScript.Files.Directory
import SolidScript.Files.Failure
import SolidScript.Files.Load
import SolidScript.Json.Amount
import SolidScript.Json.Draft
import SolidScript.Json.Mismatch
import SolidScript.Json.Record
import SolidScript.Json.Token
import SolidScript.Json.Tree
import SolidScript.Main
import SolidScript.Number.Basic
import SolidScript.Number.Decimal
import SolidScript.Number.Places
import SolidScript.Number.Shortest
import SolidScript.Proofs.Arguments.Fields
import SolidScript.Proofs.Arguments.Interleaving
import SolidScript.Proofs.Arguments.LastWrite
import SolidScript.Proofs.CommandLine.Completion
import SolidScript.Proofs.CommandLine.Emission
import SolidScript.Proofs.CommandLine.Log
import SolidScript.Proofs.CommandLine.Options
import SolidScript.Proofs.CommandLine.Reading
import SolidScript.Proofs.CommandLine.Steps
import SolidScript.Proofs.CommandLine.Switches
import SolidScript.Proofs.Config.Reloaded
import SolidScript.Proofs.Config.Sources
import SolidScript.Proofs.Files.Directory
import SolidScript.Proofs.Json.Finite
import SolidScript.Proofs.Json.Numeral
import SolidScript.Proofs.Json.Order
import SolidScript.Proofs.Json.Readable
import SolidScript.Proofs.Json.Spelled
import SolidScript.Proofs.Json.Written
import SolidScript.Proofs.Number.Canonical
import SolidScript.Proofs.Number.Nearest
import SolidScript.Proofs.Number.Numeral
import SolidScript.Proofs.Number.Rounding
import SolidScript.Proofs.Number.Scientific
import SolidScript.Proofs.Number.Shortest
import SolidScript.Proofs.Number.Stable
import SolidScript.Proofs.Recording.Balance
import SolidScript.Proofs.Recording.History
import SolidScript.Proofs.Recording.Meaning
import SolidScript.Proofs.Result
import SolidScript.Proofs.Saved.Agreement
import SolidScript.Proofs.Saved.Imported
import SolidScript.Proofs.Saved.NonFinite
import SolidScript.Proofs.Saved.Order
import SolidScript.Proofs.Saved.Reloaded
import SolidScript.Proofs.Saved.Reread
import SolidScript.Proofs.Saved.Writable
import SolidScript.Proofs.Script.Comment
import SolidScript.Proofs.Script.Delivery
import SolidScript.Proofs.Script.Emitted
import SolidScript.Proofs.Script.Equality
import SolidScript.Proofs.Script.Expression
import SolidScript.Proofs.Script.Faults
import SolidScript.Proofs.Script.Grouping
import SolidScript.Proofs.Script.Indentation
import SolidScript.Proofs.Script.Placement
import SolidScript.Proofs.Script.Reader
import SolidScript.Proofs.Script.Recorded
import SolidScript.Proofs.Script.RoundTrip
import SolidScript.Proofs.Script.Sections
import SolidScript.Proofs.Script.Spelling
import SolidScript.Proofs.Script.Token
import SolidScript.Proofs.Script.Top
import SolidScript.Proofs.Text.Literal
import SolidScript.Proofs.Toml.Document
import SolidScript.Proofs.Toml.Scalar
import SolidScript.Proofs.Tree.Collected
import SolidScript.Proofs.Tree.Parameters
import SolidScript.Proofs.Tree.Preorder
import SolidScript.Recording.Compose
import SolidScript.Recording.Program
import SolidScript.Recording.Recorder
import SolidScript.Report
import SolidScript.Saved.Import
import SolidScript.Saved.Read
import SolidScript.Saved.Schema
import SolidScript.Saved.Value
import SolidScript.Script.Document
import SolidScript.Script.Expression
import SolidScript.Script.Fault
import SolidScript.Script.Identifier
import SolidScript.Script.Layout
import SolidScript.Script.Sink
import SolidScript.Text.Blank
import SolidScript.Text.Lines
import SolidScript.Text.Printable
import SolidScript.Text.Quoted
import SolidScript.Toml.Document
import SolidScript.Toml.Scalar
import SolidScript.Toml.Text
import SolidScript.Toml.Value
import SolidScript.Tree.Node
import SolidScript.Tree.Params
import SolidScript.Tree.References
import SolidScript.Tree.Value
