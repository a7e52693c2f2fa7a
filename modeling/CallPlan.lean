import CallPlan.Archive.Bits
import CallPlan.Archive.Checksum
import CallPlan.Archive.Code
import CallPlan.Archive.CodeLengths
import CallPlan.Archive.Deflate
import CallPlan.Archive.Gather
import CallPlan.Archive.Repeats
import CallPlan.Archive.Zip
import CallPlan.Calendar
import CallPlan.Cli.Command
import CallPlan.Cli.Machine
import CallPlan.Cli.Options
import CallPlan.Cli.Program
import CallPlan.Failure
import CallPlan.Fields
import CallPlan.File.Path
import CallPlan.File.System
import CallPlan.Json.Basic
import CallPlan.Json.Export
import CallPlan.Json.Reader
import CallPlan.Json.Writer
import CallPlan.Main
import CallPlan.Number.Binary64
import CallPlan.Number.Decimal
import CallPlan.Number.Numeral
import CallPlan.Number.Shortest
import CallPlan.Plan.Basic
import CallPlan.Plan.Document
import CallPlan.Plan.References
import CallPlan.Plan.Schema
import CallPlan.Project
import CallPlan.Proofs.File.Names
import CallPlan.Proofs.Plan.Document
import CallPlan.Proofs.Plan.Findings
import CallPlan.Proofs.Run.Checking
import CallPlan.Proofs.Run.Progress
import CallPlan.Proofs.Run.Recording
import CallPlan.Proofs.Run.Return
import CallPlan.Proofs.Run.Step
import CallPlan.Proofs.Run.Traces
import CallPlan.Proofs.Sequencing
import CallPlan.Proofs.Template.Delivery
import CallPlan.Proofs.Template.Leaves
import CallPlan.Proofs.Template.Spelling
import CallPlan.Proofs.Template.Splicing
import CallPlan.Proofs.Template.Variables
import CallPlan.Proofs.Value.Expressible
import CallPlan.Proofs.Value.TextKeys
import CallPlan.Run.Event
import CallPlan.Run.Execution
import CallPlan.Run.Expectation
import CallPlan.Run.Log
import CallPlan.Run.Start
import CallPlan.Run.Store
import CallPlan.Service.Client
import CallPlan.Service.Naming
import CallPlan.Service.Registry
import CallPlan.Service.Settings
import CallPlan.Sorting
import CallPlan.Template.Lexer
import CallPlan.Template.Lookup
import CallPlan.Template.Payload
import CallPlan.Template.Rendering
import CallPlan.Template.Resolution
import CallPlan.Template.Scope
import CallPlan.Template.Token
import CallPlan.Text.Base64
import CallPlan.Text.Blank
import CallPlan.Text.Case
import CallPlan.Text.CodeTable
import CallPlan.Text.Digit
import CallPlan.Text.Hex
import CallPlan.Text.Printable
import CallPlan.Text.Quoted
import CallPlan.Text.Utf8
import CallPlan.Toml.Basic
import CallPlan.Toml.Reader
import CallPlan.Toml.Scalar
import CallPlan.Value.Basic
import CallPlan.Value.Canonical
import CallPlan.Value.Literal
import CallPlan.Value.Pairs
import CallPlan.Value.Place
import CallPlan.Proofs.Template.Writing
import CallPlan.Proofs.Template.Verbatim
import CallPlan.Proofs.Plan.Referencing
import CallPlan.Proofs.Fields
import CallPlan.Proofs.Json.Reading
import CallPlan.Proofs.Number.Decimal
import CallPlan.Proofs.Value.Form
import CallPlan.Proofs.Run.Exchange
import CallPlan.Proofs.Run.Missing
import CallPlan.Proofs.Template.Dependence
import CallPlan.Proofs.Run.Simulation
import CallPlan.Proofs.Run.Prefix
import CallPlan.Proofs.Run.Refusals
import CallPlan.Proofs.Json.Exporting
import CallPlan.Proofs.Run.Appending
import CallPlan.Proofs.Run.Logging
import CallPlan.Proofs.File.Directories
import CallPlan.Proofs.Run.Targets
import CallPlan.Proofs.Run.Rotation
import CallPlan.Proofs.Number.Rounding
import CallPlan.Proofs.Number.Midpoints
import CallPlan.Proofs.Number.Shortest
import CallPlan.Proofs.Number.Written
import CallPlan.Proofs.Value.Numbers
import CallPlan.Proofs.Run.Comparing
import CallPlan.Proofs.Template.Leafwise
import CallPlan.Proofs.Run.Rereading
import CallPlan.Proofs.Service.Building
import CallPlan.Proofs.Run.Starting
import CallPlan.Proofs.Run.Internal
import CallPlan.Proofs.Template.Selection
import CallPlan.Proofs.Template.Failures
import CallPlan.Proofs.Template.Expanding
import CallPlan.Proofs.File.Trees
import CallPlan.Proofs.Archive.Packing
import CallPlan.Proofs.Run.Payloads
import CallPlan.Proofs.Plan.Form
import CallPlan.Proofs.Plan.Acceptance
import CallPlan.Proofs.Service.Binding
import CallPlan.Proofs.Number.Range
import CallPlan.Proofs.Service.Precedence
import CallPlan.Proofs.Service.Usable
import CallPlan.Proofs.Service.Refusing
import CallPlan.Proofs.Service.Pooling
import CallPlan.Proofs.Value.Contents
import CallPlan.Proofs.Run.Summaries
import CallPlan.Proofs.Run.Scanning
import CallPlan.Proofs.Run.Inexpressible
import CallPlan.Proofs.Service.Caching
