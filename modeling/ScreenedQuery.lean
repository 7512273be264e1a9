import ScreenedQuery.Backend
import ScreenedQuery.Buffers
import ScreenedQuery.CommandLine.Arguments
import ScreenedQuery.CommandLine.Environment
import ScreenedQuery.CommandLine.FragmentFile
import ScreenedQuery.CommandLine.LogFilter
import ScreenedQuery.CommandLine.Program
import ScreenedQuery.CompiledQuery
import ScreenedQuery.Draft.Accept
import ScreenedQuery.Draft.Basic
import ScreenedQuery.Engine.Basic
import ScreenedQuery.Engine.Bench
import ScreenedQuery.FieldMap
import ScreenedQuery.Fragment
import ScreenedQuery.Json.Basic
import ScreenedQuery.Json.Number
import ScreenedQuery.Json.Reader
import ScreenedQuery.Json.Shape
import ScreenedQuery.Json.Writer
import ScreenedQuery.Main
import ScreenedQuery.Number.Binary64
import ScreenedQuery.Number.Int64
import ScreenedQuery.Number.Layout
import ScreenedQuery.Number.Literal
import ScreenedQuery.Number.Shortest
import ScreenedQuery.Plan.Basic
import ScreenedQuery.Plan.Condition
import ScreenedQuery.Plan.Draft
import ScreenedQuery.Plan.Encoding
import ScreenedQuery.Plan.Evaluation
import ScreenedQuery.QueryError
import ScreenedQuery.Queue
import ScreenedQuery.Screen.Basic
import ScreenedQuery.Screen.FieldName
import ScreenedQuery.Screen.Keyword
import ScreenedQuery.Screen.Nesting
import ScreenedQuery.Screen.Tautology
import ScreenedQuery.Session
import ScreenedQuery.Settings
import ScreenedQuery.Sorting
import ScreenedQuery.Sql.Draft
import ScreenedQuery.Sql.Evaluation
import ScreenedQuery.Sql.Snapshot
import ScreenedQuery.Sql.Statement
import ScreenedQuery.Sql.Storage
import ScreenedQuery.Sql.Token
import ScreenedQuery.Tally
import ScreenedQuery.Text
import ScreenedQuery.Toml.Basic
import ScreenedQuery.Toml.Quoted
import ScreenedQuery.Toml.Reader
import ScreenedQuery.Toml.Scalar
import ScreenedQuery.Unicode.Blank
import ScreenedQuery.Unicode.CaseFold
import ScreenedQuery.Unicode.DecimalDigit
import ScreenedQuery.Unicode.Range
import ScreenedQuery.Unicode.Word
import ScreenedQuery.Value.Basic
import ScreenedQuery.Value.Encoding
import ScreenedQuery.Value.Literal
import ScreenedQuery.Proofs.CommandLine.Query
import ScreenedQuery.Proofs.Draft.Drain
import ScreenedQuery.Proofs.Draft.History
import ScreenedQuery.Proofs.Draft.Rules
import ScreenedQuery.Proofs.Draft.Structured
import ScreenedQuery.Proofs.Engine.Agreement
import ScreenedQuery.Proofs.Engine.Compilation
import ScreenedQuery.Proofs.Engine.Delivery
import ScreenedQuery.Proofs.Engine.Execution
import ScreenedQuery.Proofs.Engine.Feed
import ScreenedQuery.Proofs.Engine.Guards
import ScreenedQuery.Proofs.Engine.Poison
import ScreenedQuery.Proofs.Engine.Run
import ScreenedQuery.Proofs.Engine.Sync
import ScreenedQuery.Proofs.Engine.Values
import ScreenedQuery.Proofs.Engine.Writing
import ScreenedQuery.Proofs.FieldMap
import ScreenedQuery.Proofs.Json.Number
import ScreenedQuery.Proofs.Json.Range
import ScreenedQuery.Proofs.Json.RoundTrip
import ScreenedQuery.Proofs.Number.Digits
import ScreenedQuery.Proofs.Number.Interval
import ScreenedQuery.Proofs.Number.Order
import ScreenedQuery.Proofs.Number.Plain
import ScreenedQuery.Proofs.Number.Rounding
import ScreenedQuery.Proofs.Number.Shortest
import ScreenedQuery.Proofs.Plan.Comparisons
import ScreenedQuery.Proofs.Plan.Conditions
import ScreenedQuery.Proofs.Plan.Counts
import ScreenedQuery.Proofs.Plan.Description
import ScreenedQuery.Proofs.Plan.Execution
import ScreenedQuery.Proofs.Plan.Folding
import ScreenedQuery.Proofs.Plan.Numbers
import ScreenedQuery.Proofs.Plan.Ordering
import ScreenedQuery.Proofs.Plan.RoundTrip
import ScreenedQuery.Proofs.Plan.Selection
import ScreenedQuery.Proofs.Plan.Spelling
import ScreenedQuery.Proofs.Screen.Extension
import ScreenedQuery.Proofs.Screen.Keywords
import ScreenedQuery.Proofs.Screen.Nesting
import ScreenedQuery.Proofs.Screen.Pattern
import ScreenedQuery.Proofs.Screen.Tautologies
import ScreenedQuery.Proofs.Screen.TautologyPattern
import ScreenedQuery.Proofs.Session.Accounts
import ScreenedQuery.Proofs.Session.Isolation
import ScreenedQuery.Proofs.Session.Remains
import ScreenedQuery.Proofs.Sql.Conditions
import ScreenedQuery.Proofs.Sql.Consent
import ScreenedQuery.Proofs.Sql.Grammar
import ScreenedQuery.Proofs.Sql.Groups
import ScreenedQuery.Proofs.Sql.Lexing
import ScreenedQuery.Proofs.Sql.Markers
import ScreenedQuery.Proofs.Sql.Names
import ScreenedQuery.Proofs.Sql.Parsing
import ScreenedQuery.Proofs.Sql.Quoting
import ScreenedQuery.Proofs.Sql.Reading
import ScreenedQuery.Proofs.Sql.Rendering
import ScreenedQuery.Proofs.Sql.Rows
import ScreenedQuery.Proofs.Sql.Scan
import ScreenedQuery.Proofs.Sql.Selection
import ScreenedQuery.Proofs.Sql.Trailing
import ScreenedQuery.Proofs.Sql.Unknown
import ScreenedQuery.Proofs.Sql.Words
import ScreenedQuery.Proofs.Text.Blank
import ScreenedQuery.Proofs.Text.ByteOrder
import ScreenedQuery.Proofs.Text.LetterCase
import ScreenedQuery.Proofs.Traversal
import ScreenedQuery.Proofs.Unicode.Folding
import ScreenedQuery.Proofs.Value.Encoding
import ScreenedQuery.Proofs.Value.Literal
import ScreenedQuery.Proofs.Value.Order
import ScreenedQuery.Proofs.Value.Scalars
import ScreenedQuery.Proofs.Value.Spelling
