import FeatureLines.Cache
import FeatureLines.Derive.Attributes
import FeatureLines.Derive.Expansion
import FeatureLines.Derive.Identifier
import FeatureLines.Derive.Item
import FeatureLines.Derive.Lexer
import FeatureLines.Derive.Literal
import FeatureLines.Derive.Parse
import FeatureLines.Derive.Syntax
import FeatureLines.Derive.Token
import FeatureLines.Document.Code
import FeatureLines.Document.Record
import FeatureLines.Document.Schema
import FeatureLines.Document.Script
import FeatureLines.Engine
import FeatureLines.Error
import FeatureLines.Example.Basic
import FeatureLines.Example.Builder
import FeatureLines.Example.Difference
import FeatureLines.Hash
import FeatureLines.Json.Basic
import FeatureLines.Json.Decode
import FeatureLines.Json.Reader
import FeatureLines.Label
import FeatureLines.Line
import FeatureLines.Marshal.Context
import FeatureLines.Marshal.Handle
import FeatureLines.Marshal.Registry
import FeatureLines.Marshal.Writing
import FeatureLines.Number.Binary
import FeatureLines.Number.Decimal
import FeatureLines.Number.Format
import FeatureLines.Number.Integer
import FeatureLines.Number.Layout
import FeatureLines.Number.Shortest
import FeatureLines.Options
import FeatureLines.Schema.Declaration
import FeatureLines.Schema.Descriptor
import FeatureLines.Schema.Extraction
import FeatureLines.Schema.Feature
import FeatureLines.Schema.Grouping
import FeatureLines.Schema.Value
import FeatureLines.Serializer.Basic
import FeatureLines.Serializer.Plan
import FeatureLines.Serializer.Pool
import FeatureLines.Serializer.Processing
import FeatureLines.Serializer.Registries
import FeatureLines.Serializer.Report
import FeatureLines.Serializer.Serialization
import FeatureLines.Serializer.Validation
import FeatureLines.Text.Blank
import FeatureLines.Text.CodePoints
import FeatureLines.Text.Escape
import FeatureLines.Text.Printable
import FeatureLines.Text.Quoted
import FeatureLines.Proofs.Cache
import FeatureLines.Proofs.Cache.Recency
import FeatureLines.Proofs.Cache.Run
import FeatureLines.Proofs.Cache.Sound
import FeatureLines.Proofs.Cache.Survival
import FeatureLines.Proofs.Derive.Access
import FeatureLines.Proofs.Derive.Declaration
import FeatureLines.Proofs.Derive.Fields
import FeatureLines.Proofs.Derive.Literals
import FeatureLines.Proofs.Derive.Parse
import FeatureLines.Proofs.Derive.Settings
import FeatureLines.Proofs.Derive.Variants
import FeatureLines.Proofs.Engine
import FeatureLines.Proofs.Example.Agreement
import FeatureLines.Proofs.Example.Segments
import FeatureLines.Proofs.Example.WellFormed
import FeatureLines.Proofs.First
import FeatureLines.Proofs.Heads
import FeatureLines.Proofs.Label
import FeatureLines.Proofs.Line
import FeatureLines.Proofs.Line.Grammar
import FeatureLines.Proofs.Line.TypedLabels
import FeatureLines.Proofs.Marshal.Alike
import FeatureLines.Proofs.Marshal.BuiltIn
import FeatureLines.Proofs.Marshal.Content
import FeatureLines.Proofs.Marshal.Features
import FeatureLines.Proofs.Marshal.Frame
import FeatureLines.Proofs.Marshal.Happenings
import FeatureLines.Proofs.Marshal.Invariant
import FeatureLines.Proofs.Marshal.Legible
import FeatureLines.Proofs.Marshal.Memo
import FeatureLines.Proofs.Marshal.Mirror
import FeatureLines.Proofs.Marshal.OneLine
import FeatureLines.Proofs.Marshal.Reporting
import FeatureLines.Proofs.Marshal.Resumption
import FeatureLines.Proofs.Marshal.Variants
import FeatureLines.Proofs.Marshal.WellFormed
import FeatureLines.Proofs.Number.Literal
import FeatureLines.Proofs.Number.Monotone
import FeatureLines.Proofs.Number.ReadBack
import FeatureLines.Proofs.Number.Rounding
import FeatureLines.Proofs.Number.Texts
import FeatureLines.Proofs.Results
import FeatureLines.Proofs.Schema.Flattening
import FeatureLines.Proofs.Schema.Grouping
import FeatureLines.Proofs.Schema.Layout
import FeatureLines.Proofs.Schema.Opening
import FeatureLines.Proofs.Schema.Partition
import FeatureLines.Proofs.Schema.Presence
import FeatureLines.Proofs.Schema.Recursion
import FeatureLines.Proofs.Schema.Typing
import FeatureLines.Proofs.Schema.Walk
import FeatureLines.Proofs.Serializer.Alarms
import FeatureLines.Proofs.Serializer.Candidates
import FeatureLines.Proofs.Serializer.Client
import FeatureLines.Proofs.Serializer.Collections
import FeatureLines.Proofs.Serializer.Compiling
import FeatureLines.Proofs.Serializer.Dense
import FeatureLines.Proofs.Serializer.Direct
import FeatureLines.Proofs.Serializer.Dispatch
import FeatureLines.Proofs.Serializer.Exclusive
import FeatureLines.Proofs.Serializer.Failures
import FeatureLines.Proofs.Serializer.Faults
import FeatureLines.Proofs.Serializer.Forms
import FeatureLines.Proofs.Serializer.LabelLines
import FeatureLines.Proofs.Serializer.Lines
import FeatureLines.Proofs.Serializer.Memoization
import FeatureLines.Proofs.Serializer.Overrides
import FeatureLines.Proofs.Serializer.Parts
import FeatureLines.Proofs.Serializer.Plan
import FeatureLines.Proofs.Serializer.Pool
import FeatureLines.Proofs.Serializer.Presentation
import FeatureLines.Proofs.Serializer.Processing
import FeatureLines.Proofs.Serializer.Refused
import FeatureLines.Proofs.Serializer.Registries
import FeatureLines.Proofs.Serializer.Reregistration
import FeatureLines.Proofs.Serializer.Rows
import FeatureLines.Proofs.Serializer.Shared
import FeatureLines.Proofs.Serializer.TextForm
import FeatureLines.Proofs.Serializer.WellFormed
import FeatureLines.Proofs.Text.Pieces
import FeatureLines.Proofs.Text.Spacing
