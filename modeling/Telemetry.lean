import Telemetry.Assoc
import Telemetry.Capture.Application
import Telemetry.Capture.Context
import Telemetry.Capture.Emission
import Telemetry.Capture.Middleware
import Telemetry.Delivery
import Telemetry.Digest.Sha256
import Telemetry.Error
import Telemetry.Event.Basic
import Telemetry.Event.Build
import Telemetry.Event.Enrich
import Telemetry.Gate.Call
import Telemetry.Gate.Collaborators
import Telemetry.Gate.Ingest
import Telemetry.Http.Address
import Telemetry.Http.Dashboard
import Telemetry.Http.Endpoint
import Telemetry.Http.Message
import Telemetry.Http.Remote
import Telemetry.Json.Basic
import Telemetry.Json.Display
import Telemetry.Json.Encoding
import Telemetry.Json.Lines
import Telemetry.Json.Pairs
import Telemetry.Json.Parser
import Telemetry.Json.Printer
import Telemetry.Key
import Telemetry.Limits
import Telemetry.Number.Double
import Telemetry.Number.Numeral
import Telemetry.Number.Shortest
import Telemetry.Query.Answer
import Telemetry.Query.Filter
import Telemetry.Query.Options
import Telemetry.Query.Params
import Telemetry.Query.Plan
import Telemetry.Query.Predicate
import Telemetry.Query.Row
import Telemetry.Query.Suggestions
import Telemetry.Quota.Cache
import Telemetry.Sampling.Policy
import Telemetry.Sampling.TraceHash
import Telemetry.Service
import Telemetry.Settings
import Telemetry.Sql.Field
import Telemetry.Sql.Literal
import Telemetry.Store.Credentials
import Telemetry.Store.Memory
import Telemetry.Store.Warehouse
import Telemetry.Text.Ascii
import Telemetry.Text.Blank
import Telemetry.Text.Digit
import Telemetry.Text.Glob
import Telemetry.Text.Percent
import Telemetry.Text.Printable
import Telemetry.Text.Quoted
import Telemetry.Text.Search
import Telemetry.Text.Utf16
import Telemetry.Text.Utf8
import Telemetry.Time.Calendar
import Telemetry.Time.DateTime
import Telemetry.Time.Epoch
import Telemetry.Time.Iso
import Telemetry.World
import Telemetry.Proofs.Sql.Lexer
import Telemetry.Proofs.Sql.Conditions
import Telemetry.Proofs.Sql.Piece
import Telemetry.Proofs.Query.Conjuncts
import Telemetry.Proofs.Query.Statement
import Telemetry.Proofs.Query.Isolation
import Telemetry.Proofs.Gate.Program
import Telemetry.Proofs.Gate.Stages
import Telemetry.Proofs.Gate.Accounting
import Telemetry.Proofs.Gate.Sessions
import Telemetry.Proofs.Gate.Acknowledgement
import Telemetry.Proofs.Quota.Moves
import Telemetry.Proofs.Quota.Coherence
import Telemetry.Proofs.Quota.Cancellation
import Telemetry.Proofs.Quota.Coalescing
import Telemetry.Proofs.Number.Rounding
import Telemetry.Proofs.Quota.Freshness
import Telemetry.Proofs.Gate.Refusal
import Telemetry.Proofs.Http.Reads
import Telemetry.Proofs.Json.Grammar
import Telemetry.Proofs.Json.Numbers
import Telemetry.Proofs.Json.Strings
import Telemetry.Proofs.Json.Reading
import Telemetry.Proofs.Json.Continuation
import Telemetry.Proofs.Text.Lines
import Telemetry.Proofs.Json.Lines
import Telemetry.Proofs.Time.Epoch
import Telemetry.Proofs.Store.Expiry
import Telemetry.Proofs.Time.Calendar
import Telemetry.Proofs.Quota.Lookup
import Telemetry.Proofs.Gate.Requests
import Telemetry.Proofs.Gate.Limits
import Telemetry.Proofs.Gate.Metering
import Telemetry.Proofs.Gate.Pings
import Telemetry.Proofs.Quota.Knowledge
import Telemetry.Proofs.Gate.Conduct
import Telemetry.Proofs.Gate.Conversations
import Telemetry.Proofs.Gate.KnownLimits
import Telemetry.Proofs.Gate.Interleavings
import Telemetry.Proofs.Gate.Races
import Telemetry.Proofs.Query.Noise
import Telemetry.Proofs.Json.Limits
import Telemetry.Proofs.Gate.RawBodies
import Telemetry.Proofs.Gate.Outcomes
import Telemetry.Proofs.Json.Names
import Telemetry.Proofs.Json.Numerals
import Telemetry.Proofs.Json.Writing
import Telemetry.Proofs.Event.Rows
import Telemetry.Proofs.Capture.Applications
import Telemetry.Proofs.Http.Headers
import Telemetry.Proofs.Capture.Transparency
import Telemetry.Proofs.Quota.Provenance
import Telemetry.Proofs.Number.Elapsed
import Telemetry.Proofs.Quota.Eviction
import Telemetry.Proofs.Quota.Spacing
import Telemetry.Proofs.Quota.Sweeping
import Telemetry.Proofs.Number.Shortest
import Telemetry.Proofs.Text.Utf8
import Telemetry.Proofs.Json.RoundTrip
import Telemetry.Proofs.Gate.Delivery
import Telemetry.Proofs.Json.Codec
import Telemetry.Proofs.Event.Columns
import Telemetry.Proofs.Gate.Origins
import Telemetry.Proofs.Time.Reading
import Telemetry.Proofs.Query.ReadBack
import Telemetry.Proofs.Store.History
import Telemetry.Proofs.Store.Table
import Telemetry.Proofs.Store.Refinement
import Telemetry.Proofs.Items
import Telemetry.Proofs.Store.Replies
import Telemetry.Proofs.Store.Usage
import Telemetry.Proofs.Http.Answers
import Telemetry.Proofs.Http.Surfaces
import Telemetry.Proofs.Query.Ranking
import Telemetry.Proofs.Query.Observing
import Telemetry.Proofs.Query.Suggesting
import Telemetry.Proofs.Query.Resampling
import Telemetry.Proofs.Sql.Like
import Telemetry.Proofs.Sql.Names
import Telemetry.Proofs.Query.Substrings
import Telemetry.Proofs.Query.Filtering
import Telemetry.Proofs.Time.Instants
import Telemetry.Proofs.Query.Window
import Telemetry.Proofs.Number.Places
import Telemetry.Proofs.Sampling.Rules
import Telemetry.Proofs.Sampling.Points
import Telemetry.Proofs.Sampling.Errors
import Telemetry.Proofs.Sampling.Widening
import Telemetry.Proofs.Sampling.Traces
import Telemetry.Proofs.Sampling.Totality
import Telemetry.Proofs.Capture.RecordedErrors
import Telemetry.Proofs.Http.AccountLimits
import Telemetry.Proofs.Event.Timestamps
import Telemetry.Proofs.Event.Replay
import Telemetry.Proofs.Query.Percentages
import Telemetry.Proofs.Text.Pieces
import Telemetry.Proofs.Sql.Paths
import Telemetry.Proofs.Http.Chunks
import Telemetry.Proofs.Query.Flattening
import Telemetry.Proofs.Query.Ordering
import Telemetry.Proofs.Text.Utf16
import Telemetry.Proofs.Number.Nearest
import Telemetry.Proofs.Sampling.Hashing
