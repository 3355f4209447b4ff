import StatusBoard.CommandLine.Arguments
import StatusBoard.CommandLine.Invocation
import StatusBoard.CommandLine.Output
import StatusBoard.CommandLine.Run
import StatusBoard.Condition.Basic
import StatusBoard.Condition.Document
import StatusBoard.Condition.Mandatory
import StatusBoard.Condition.Merge
import StatusBoard.Dict
import StatusBoard.Filter.Expr
import StatusBoard.Filter.Fault
import StatusBoard.Filter.Field
import StatusBoard.Filter.Parser
import StatusBoard.Filter.Token
import StatusBoard.Instant.Basic
import StatusBoard.Instant.Date
import StatusBoard.Instant.Reading
import StatusBoard.Instant.Writing
import StatusBoard.Json.Reader
import StatusBoard.Json.Tree
import StatusBoard.Json.Value
import StatusBoard.Json5.Binary
import StatusBoard.Json5.Lookup
import StatusBoard.Json5.Node
import StatusBoard.Json5.Reader
import StatusBoard.Kind
import StatusBoard.Main
import StatusBoard.Number.Binary64
import StatusBoard.Number.Shortest
import StatusBoard.Proofs.Condition.Checks
import StatusBoard.Proofs.Condition.History
import StatusBoard.Proofs.Condition.Merge
import StatusBoard.Proofs.Condition.Resending
import StatusBoard.Proofs.Condition.RoundTrip
import StatusBoard.Proofs.Condition.Timeline
import StatusBoard.Proofs.Condition.Uniqueness
import StatusBoard.Proofs.Dict
import StatusBoard.Proofs.Encoding
import StatusBoard.Proofs.Filter.FirstFault
import StatusBoard.Proofs.Filter.Grammar
import StatusBoard.Proofs.Filter.Offsets
import StatusBoard.Proofs.Filter.Parsing
import StatusBoard.Proofs.Filter.Rendering
import StatusBoard.Proofs.Filter.Tokens
import StatusBoard.Proofs.Filter.Truth
import StatusBoard.Proofs.Instant.Order
import StatusBoard.Proofs.Instant.RoundTrip
import StatusBoard.Proofs.Instant.TextOrder
import StatusBoard.Proofs.Json.Again
import StatusBoard.Proofs.Json.Kept
import StatusBoard.Proofs.Json.Numeral
import StatusBoard.Proofs.Json.Opaque
import StatusBoard.Proofs.Json.Records
import StatusBoard.Proofs.Json.TreeOfText
import StatusBoard.Proofs.Json5.Members
import StatusBoard.Proofs.Json5.Strict
import StatusBoard.Proofs.Kind
import StatusBoard.Proofs.Number.Decimal
import StatusBoard.Proofs.Number.Rounding
import StatusBoard.Proofs.Number.Shortest
import StatusBoard.Proofs.Query.Acceptance
import StatusBoard.Proofs.Query.Binding
import StatusBoard.Proofs.Query.Lookup
import StatusBoard.Proofs.Query.Size
import StatusBoard.Proofs.Query.Truth
import StatusBoard.Proofs.Query.Wording
import StatusBoard.Proofs.Report
import StatusBoard.Proofs.Resource
import StatusBoard.Proofs.Service.Answers
import StatusBoard.Proofs.Service.Blame
import StatusBoard.Proofs.Service.Damage
import StatusBoard.Proofs.Service.Decision
import StatusBoard.Proofs.Service.Deletion
import StatusBoard.Proofs.Service.Failure
import StatusBoard.Proofs.Service.Frame
import StatusBoard.Proofs.Service.Gate
import StatusBoard.Proofs.Service.History
import StatusBoard.Proofs.Service.Independence
import StatusBoard.Proofs.Service.Keeping
import StatusBoard.Proofs.Service.Lookup
import StatusBoard.Proofs.Service.Moments
import StatusBoard.Proofs.Service.Operation
import StatusBoard.Proofs.Service.Paging
import StatusBoard.Proofs.Service.Partition
import StatusBoard.Proofs.Service.Race
import StatusBoard.Proofs.Service.Search
import StatusBoard.Proofs.Service.Showing
import StatusBoard.Proofs.Service.Timeline
import StatusBoard.Proofs.Settings
import StatusBoard.Proofs.Store.ByteOrder
import StatusBoard.Proofs.Store.Cancellation
import StatusBoard.Proofs.Store.Change
import StatusBoard.Proofs.Store.Consistency
import StatusBoard.Proofs.Store.Contention
import StatusBoard.Proofs.Store.Contents
import StatusBoard.Proofs.Store.Decoding
import StatusBoard.Proofs.Store.Effect
import StatusBoard.Proofs.Store.Frame
import StatusBoard.Proofs.Store.Identity
import StatusBoard.Proofs.Store.Independence
import StatusBoard.Proofs.Store.Page
import StatusBoard.Proofs.Store.Partition
import StatusBoard.Proofs.Store.Predicate
import StatusBoard.Proofs.Store.QueryPlan
import StatusBoard.Proofs.Store.Reading
import StatusBoard.Proofs.Store.Resources
import StatusBoard.Proofs.Store.Schema
import StatusBoard.Proofs.Store.Selection
import StatusBoard.Proofs.Store.Stamps
import StatusBoard.Proofs.Store.Statuses
import StatusBoard.Proofs.Store.Written
import StatusBoard.Proofs.Text.Blank
import StatusBoard.Proofs.Text.Digits
import StatusBoard.Query.Clause
import StatusBoard.Query.FromFilter
import StatusBoard.Query.Size
import StatusBoard.Report
import StatusBoard.Resource
import StatusBoard.Service.Board
import StatusBoard.Service.Error
import StatusBoard.Settings
import StatusBoard.Settings.Layout
import StatusBoard.Store.Cell
import StatusBoard.Store.Contents
import StatusBoard.Store.Decoding
import StatusBoard.Store.Edit
import StatusBoard.Store.Fault
import StatusBoard.Store.Page
import StatusBoard.Store.Predicate
import StatusBoard.Store.QueryPlan
import StatusBoard.Store.QueryPlan.Index
import StatusBoard.Store.QueryPlan.Loop
import StatusBoard.Store.QueryPlan.Magnitude
import StatusBoard.Store.QueryPlan.Term
import StatusBoard.Store.QueryPlan.Union
import StatusBoard.Store.Resources
import StatusBoard.Store.Row
import StatusBoard.Store.Selection
import StatusBoard.Store.Snapshot
import StatusBoard.Store.Statuses
import StatusBoard.Store.Transaction
import StatusBoard.Text.Blank
import StatusBoard.Text.Decimal
import StatusBoard.Text.Quoted
import StatusBoard.Text.Unprintable
import StatusBoard.Uuid
import StatusBoard.Validation
