import PlotGraph.Check.Connection
import PlotGraph.Check.Node
import PlotGraph.Check.Structure
import PlotGraph.Check.Suggestion
import PlotGraph.Files
import PlotGraph.Graph.Basic
import PlotGraph.Graph.Depth
import PlotGraph.Graph.File
import PlotGraph.Graph.Index
import PlotGraph.Graph.Kind
import PlotGraph.Graph.Reach
import PlotGraph.Graph.Reading
import PlotGraph.Graph.Search
import PlotGraph.Graph.Walk
import PlotGraph.Graph.Writing
import PlotGraph.Json.Reader
import PlotGraph.Json.Writer
import PlotGraph.Log.Event
import PlotGraph.Log.Scope
import PlotGraph.Log.Setup
import PlotGraph.Log.Template
import PlotGraph.Mapping
import PlotGraph.Number.Binary64
import PlotGraph.Number.Decimal
import PlotGraph.Number.Places
import PlotGraph.Number.Shortest
import PlotGraph.Options
import PlotGraph.Options.File
import PlotGraph.Proofs.Graph.Path
import PlotGraph.Report
import PlotGraph.Report.Wire
import PlotGraph.Text.Blank
import PlotGraph.Text.Digit
import PlotGraph.Text.Lines
import PlotGraph.Text.Octets
import PlotGraph.Text.Printable
import PlotGraph.Text.Quoted
import PlotGraph.Text.Surrogate
import PlotGraph.Text.Utf8
import PlotGraph.Validator.Custom
import PlotGraph.Validator.Logged
import PlotGraph.Validator.Registry
import PlotGraph.Validator.Run
import PlotGraph.Validator.Stage
import PlotGraph.Value
import PlotGraph.Value.Text
import PlotGraph.Yaml.Block
import PlotGraph.Yaml.Cursor
import PlotGraph.Yaml.Datum
import PlotGraph.Yaml.Document
import PlotGraph.Yaml.Fault
import PlotGraph.Yaml.Format
import PlotGraph.Yaml.Moment
import PlotGraph.Yaml.Node
import PlotGraph.Yaml.Numeral
import PlotGraph.Yaml.Plain
import PlotGraph.Yaml.Quoted
import PlotGraph.Yaml.Scalar
import PlotGraph.Yaml.Tag
import PlotGraph.Yaml.Token
import PlotGraph.Yaml.Tokens
import PlotGraph.CommandLine.Arguments
import PlotGraph.CommandLine.Console
import PlotGraph.CommandLine.Request
import PlotGraph.CommandLine.Run
import PlotGraph.Main
import PlotGraph.Proofs.Graph.Search
import PlotGraph.Proofs.Graph.Cycles
import PlotGraph.Proofs.Graph.Reach
import PlotGraph.Proofs.Graph.Depth
import PlotGraph.Proofs.Validator.Run
import PlotGraph.Proofs.Validator.Validity
import PlotGraph.Proofs.Graph.Distinct
import PlotGraph.Proofs.Validator.Codes
import PlotGraph.Proofs.Validator.Switches
import PlotGraph.Proofs.Graph.Index
import PlotGraph.Proofs.Graph.Reorder
import PlotGraph.Proofs.Validator.Reorder
import PlotGraph.Proofs.Graph.Reading
import PlotGraph.Proofs.Graph.Rereading
import PlotGraph.Proofs.Validator.Registry
import PlotGraph.Proofs.Validator.Cancellation
import PlotGraph.Proofs.Validator.Custom
import PlotGraph.Proofs.Validator.Call
import PlotGraph.Proofs.Validator.Interleaving
import PlotGraph.Proofs.Validator.Transcript
import PlotGraph.Proofs.Graph.DeadCode
import PlotGraph.Proofs.Number.Range
import PlotGraph.Proofs.Log.Delivery
import PlotGraph.Proofs.Log.Line
import PlotGraph.Proofs.Graph.Refusal
import PlotGraph.Proofs.Files
import PlotGraph.Proofs.Options.Environment
import PlotGraph.Proofs.CommandLine.Limits
import PlotGraph.Proofs.Json.RoundTrip
import PlotGraph.Proofs.CommandLine.Console
import PlotGraph.Proofs.CommandLine.Display
import PlotGraph.Proofs.CommandLine.Loading
import PlotGraph.Proofs.Graph.Listed
import PlotGraph.Proofs.Check.Isolation
import PlotGraph.Proofs.Check.SelfConnection
import PlotGraph.Proofs.Check.Connection
import PlotGraph.Proofs.Check.WireRule
import PlotGraph.Proofs.Check.Duplicates
import PlotGraph.Proofs.Check.Suggestion
import PlotGraph.Proofs.Options.Fields
import PlotGraph.Proofs.Text.Strip
import PlotGraph.Proofs.Options.Rendering
import PlotGraph.Proofs.Options.Sources
import PlotGraph.Proofs.Check.Limits
import PlotGraph.Proofs.Report.Wire
import PlotGraph.Proofs.Check.Anchors
import PlotGraph.Proofs.Log.Record
import PlotGraph.Proofs.CommandLine.Reading
import PlotGraph.Proofs.CommandLine.Agreement
import PlotGraph.Proofs.Loop
import PlotGraph.Proofs.Graph.Tour
import PlotGraph.Proofs.Graph.Turns
import PlotGraph.Proofs.Graph.Postorder
