import Rollout.Names.Map
import Rollout.Names.Set
import Rollout.Text.Blank
import Rollout.Text.Lines
import Rollout.Text.Plain
import Rollout.Text.Quoted
import Rollout.Decimal.Shortest
import Rollout.Version
import Rollout.Digest.Blake3
import Rollout.Calendar.Instant
import Rollout.Calendar.Rfc3339
import Rollout.Text.Utf8
import Rollout.Json.Tree
import Rollout.Shape.Mismatch
import Rollout.Json.Cursor
import Rollout.Json.Token
import Rollout.Json.Skip
import Rollout.Json.Group
import Rollout.Json.Reader
import Rollout.Shape.Basic
import Rollout.Shape.Text
import Rollout.Shape.Tree
import Rollout.Shape.Enumerated
import Rollout.Scope
import Rollout.Channel
import Rollout.Stage
import Rollout.Failure
import Rollout.Shape.Shaped
import Rollout.Document.Request
import Rollout.Document.Basic
import Rollout.Document.Builder
import Rollout.Capability
import Rollout.Hierarchy
import Rollout.Deployment
import Rollout.Winner
import Rollout.Effective
import Rollout.Arbitration
import Rollout.Storage.Path
import Rollout.Storage.Files
import Rollout.Storage.Disk
import Rollout.Store.Snapshot
import Rollout.Store.Basic
import Rollout.Record
import Rollout.Report.Basic
import Rollout.Plan
import Rollout.Report.Outbox
import Rollout.Report.Transport
import Rollout.Pipeline
import Rollout.Intake
import Rollout.Toml.Scan
import Rollout.Toml.Quoted
import Rollout.Toml.Number
import Rollout.Toml.Node
import Rollout.Toml.Reader
import Rollout.Storage.Text
import Rollout.Config.Basic
import Rollout.Config.Text
import Rollout.Config.Directories
import Rollout.Agent
import Rollout.Command.Arguments
import Rollout.Json.Sorted
import Rollout.Command.Output
import Rollout.Command.Run
import Rollout.Main
import Rollout.Proofs.Work
import Rollout.Proofs.Comparison
import Rollout.Proofs.Store.Changes
import Rollout.Proofs.Journal
import Rollout.Proofs.Verdict
import Rollout.Proofs.Screening
import Rollout.Proofs.Course
import Rollout.Proofs.Runs
import Rollout.Proofs.Endings
import Rollout.Proofs.Precedence
import Rollout.Proofs.Departure
import Rollout.Proofs.Overlay
import Rollout.Proofs.Convergence
import Rollout.Proofs.Json.Spelling
import Rollout.Proofs.Json.Writing
import Rollout.Proofs.Text.Utf8
import Rollout.Proofs.Json.Reading
import Rollout.Proofs.Json.Tokens
import Rollout.Proofs.Json.Numbers
import Rollout.Proofs.Json.Containers
import Rollout.Proofs.Json.Passing
import Rollout.Proofs.Json.Skipping
import Rollout.Proofs.Shape.Passing
import Rollout.Proofs.Shape.Parts
import Rollout.Proofs.Shape.Agreement
import Rollout.Proofs.Shape.Fields
import Rollout.Proofs.Shape.Accepted
import Rollout.Proofs.Shape.RoundTrip
import Rollout.Proofs.Store.Saving
import Rollout.Proofs.Store.Persistence
import Rollout.Proofs.Effects
import Rollout.Proofs.Retention
import Rollout.Proofs.Identity
import Rollout.Proofs.Store.Order
import Rollout.Proofs.Series
import Rollout.Proofs.Replacement
import Rollout.Proofs.Foresight
import Rollout.Proofs.Sessions
import Rollout.Proofs.Invocation
import Rollout.Proofs.Queueing
import Rollout.Proofs.Delivery
import Rollout.Proofs.Store.Places
import Rollout.Proofs.Racing
import Rollout.Proofs.Isolation
import Rollout.Proofs.Reporting.Account
import Rollout.Proofs.Reporting.Flush
import Rollout.Proofs.Fingerprint
import Rollout.Proofs.Store.Counter
import Rollout.Proofs.Serialization
import Rollout.Proofs.Requests
import Rollout.Proofs.Merging
import Rollout.Proofs.Store.Views
import Rollout.Proofs.Lifecycle
import Rollout.Proofs.Text.Order
import Rollout.Proofs.Rules
import Rollout.Proofs.Reporting.Echoes
import Rollout.Proofs.Json.Placing
import Rollout.Proofs.Shape.Placing
import Rollout.Proofs.Excerpts
import Rollout.Proofs.Toml.Notations
import Rollout.Proofs.Toml.Lines
import Rollout.Proofs.Configuration
import Rollout.Proofs.Commands
