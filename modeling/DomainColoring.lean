import DomainColoring.Area
import DomainColoring.Binary64.Arithmetic
import DomainColoring.Binary64.Basic
import DomainColoring.Color
import DomainColoring.CommandLine.Arguments
import DomainColoring.CommandLine.Invocation
import DomainColoring.CommandLine.Run
import DomainColoring.CommandLine.Series
import DomainColoring.CommandLine.Usage
import DomainColoring.ComplexNumber
import DomainColoring.ComplexNumber.Literal
import DomainColoring.Decimal.Basic
import DomainColoring.Decimal.Layout
import DomainColoring.Decimal.Reader
import DomainColoring.Decimal.Rounded
import DomainColoring.Decimal.Shortest
import DomainColoring.DepthKey
import DomainColoring.DepthTable
import DomainColoring.Extent
import DomainColoring.Expression.Basic
import DomainColoring.Expression.Lexer
import DomainColoring.Expression.Operator
import DomainColoring.Expression.Parser
import DomainColoring.Expression.SyntaxError
import DomainColoring.Expression.Token
import DomainColoring.Hsl
import DomainColoring.Json.Basic
import DomainColoring.Json.Decoder
import DomainColoring.Json.Numeral
import DomainColoring.Json.Printer
import DomainColoring.Json.Reader
import DomainColoring.Json.Text
import DomainColoring.Limits
import DomainColoring.Main
import DomainColoring.NamePattern
import DomainColoring.NamedMap
import DomainColoring.Plot
import DomainColoring.PlotError
import DomainColoring.Png
import DomainColoring.Proofs.Area
import DomainColoring.Proofs.Area.Text
import DomainColoring.Proofs.Binary64.Distance
import DomainColoring.Proofs.Binary64.Exceptions
import DomainColoring.Proofs.Binary64.Fields
import DomainColoring.Proofs.Binary64.Order
import DomainColoring.Proofs.Binary64.Packing
import DomainColoring.Proofs.Binary64.Rounding
import DomainColoring.Proofs.CommandLine.Plan
import DomainColoring.Proofs.CommandLine.Powers
import DomainColoring.Proofs.CommandLine.Resolution
import DomainColoring.Proofs.CommandLine.Run
import DomainColoring.Proofs.CommandLine.ShortNumber
import DomainColoring.Proofs.ComplexNumber.Literal
import DomainColoring.Proofs.ComplexNumber.RoundTrip
import DomainColoring.Proofs.Decimal.Hundredths
import DomainColoring.Proofs.Decimal.Text
import DomainColoring.Proofs.Decimal.Value
import DomainColoring.Proofs.DepthTable.Answers
import DomainColoring.Proofs.DepthTable.Interleaving
import DomainColoring.Proofs.DepthTable.Order
import DomainColoring.Proofs.DepthTable.Sequence
import DomainColoring.Proofs.DepthTable.Slots
import DomainColoring.Proofs.Expression.Concatenation
import DomainColoring.Proofs.Expression.EndOfInput
import DomainColoring.Proofs.Expression.Evaluation
import DomainColoring.Proofs.Expression.FirstFault
import DomainColoring.Proofs.Expression.Grammar
import DomainColoring.Proofs.Expression.Items
import DomainColoring.Proofs.Expression.Lexer
import DomainColoring.Proofs.Expression.Marks
import DomainColoring.Proofs.Expression.Name
import DomainColoring.Proofs.Expression.Outline
import DomainColoring.Proofs.Expression.Parser
import DomainColoring.Proofs.Expression.Pattern
import DomainColoring.Proofs.Expression.Spans
import DomainColoring.Proofs.Expression.Spelling
import DomainColoring.Proofs.Expression.Termination
import DomainColoring.Proofs.Expression.ViablePrefix
import DomainColoring.Proofs.Json.Decoder
import DomainColoring.Proofs.Json.Numeral
import DomainColoring.Proofs.Json.Spelling
import DomainColoring.Proofs.Json.Text
import DomainColoring.Proofs.NamePattern
import DomainColoring.Proofs.NamedMap
import DomainColoring.Proofs.Outcome
import DomainColoring.Proofs.Plot
import DomainColoring.Proofs.Plot.Checked
import DomainColoring.Proofs.Raster
import DomainColoring.Proofs.Raster.Overlay
import DomainColoring.Proofs.Raster.Places
import DomainColoring.Proofs.Rendering
import DomainColoring.Proofs.SampleGrid
import DomainColoring.Proofs.SampleOrder
import DomainColoring.Proofs.Settings.Drawing
import DomainColoring.Proofs.Settings.Interruption
import DomainColoring.Proofs.Settings.Storage
import DomainColoring.Proofs.Settings.Text
import DomainColoring.Proofs.Storage.FileTree
import DomainColoring.Proofs.Storage.Host
import DomainColoring.Proofs.Storage.Path
import DomainColoring.Proofs.Storage.Replacement
import DomainColoring.Proofs.Text.Span
import DomainColoring.Raster
import DomainColoring.Rendering
import DomainColoring.Rounding
import DomainColoring.SampleGrid
import DomainColoring.Segment
import DomainColoring.Settings
import DomainColoring.Settings.Schema
import DomainColoring.Settings.Storage
import DomainColoring.Storage.FileTree
import DomainColoring.Storage.Path
import DomainColoring.Storage.Step
import DomainColoring.Style
import DomainColoring.Text.Blank
import DomainColoring.Text.Quoted
import DomainColoring.Text.Span
import DomainColoring.Text.Unprintable
