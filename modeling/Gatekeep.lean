import Gatekeep.Support.Decimal
import Gatekeep.Support.FirstSeen
import Gatekeep.Support.Graded
import Gatekeep.Support.Journal
import Gatekeep.Support.Json
import Gatekeep.Support.Kleene
import Gatekeep.Support.LatticeOn
import Gatekeep.Support.Nullable
import Gatekeep.Support.Postcard
import Gatekeep.Support.Result
import Gatekeep.Support.Serde
import Gatekeep.Support.SerdeRec
import Gatekeep.Support.SqlTokens
import Gatekeep.Support.SqlGrammar
import Gatekeep.Support.Traced
import Gatekeep.Identity
import Gatekeep.StaticIdentity
import Gatekeep.Instant
import Gatekeep.Context
import Gatekeep.Occurrence
import Gatekeep.Facts
import Gatekeep.PolicyModel
import Gatekeep.Evaluate
import Gatekeep.Fold
import Gatekeep.Traversal
import Gatekeep.Partial
import Gatekeep.Denotation
import Gatekeep.Trace
import Gatekeep.Effects
import Gatekeep.Inspection
import Gatekeep.Reduction.Condition
import Gatekeep.Reduction.Policy
import Gatekeep.Reduction.Open
import Gatekeep.Completion
import Gatekeep.CompletionTrace
import Gatekeep.LatticeCheck
import Gatekeep.Rearrange
import Gatekeep.Monotone
import Gatekeep.Decisive
import Gatekeep.Decisive.Order
import Gatekeep.Decisive.Path
import Gatekeep.Builders
import Gatekeep.Obligations
import Gatekeep.Resolution
import Gatekeep.Audit
import Gatekeep.Wire
import Gatekeep.Observations
import Gatekeep.PolicyHash
import Gatekeep.LegacyAudit
import Gatekeep.Prepared
import Gatekeep.Authorization
import Gatekeep.Authorization.Boundary
import Gatekeep.Authorization.Freshness
import Gatekeep.Authorization.Attempts
import Gatekeep.Authorization.Batch
import Gatekeep.Authorization.Omission
import Gatekeep.Denial
import Gatekeep.Coherence
import Gatekeep.Replay
import Gatekeep.Keepsake
import Gatekeep.Keepsake.Lookup
import Gatekeep.Keepsake.Deadline
import Gatekeep.Keepsake.Query
import Gatekeep.Sql.Fragment
import Gatekeep.Sql.Semantics
import Gatekeep.Sql.Lower
import Gatekeep.Sql.Filter
import Gatekeep.Sql.Early
import Gatekeep.Sql.Isolation
import Gatekeep.Sql.Grade
import Gatekeep.Sql.Steady
import Gatekeep.Sql.Deferred
import Gatekeep.Sql.Visits
import Gatekeep.Sql.Backends
import Gatekeep.Sql.Binding
import Gatekeep.Sql.Reading
import Gatekeep.Sql.AuditEvent
import Gatekeep.Sql.AttemptEvent
import Gatekeep.Sql.Sink
import Gatekeep.Sql.AuditTrail
import Gatekeep.Sql.Transaction
import Gatekeep.Sql.AttemptTrail
import Gatekeep.LegacyImport
import Gatekeep.PolicyWire
import Gatekeep.StoredPolicy
import Gatekeep.DecisionWire
import Gatekeep.Fluent
import Gatekeep.Fluent.Coverage
import Gatekeep.Fluent.Updates
import Gatekeep.Axum.Response
import Gatekeep.Axum.Gatekeeper
import Gatekeep.Axum.TestSupport
import Gatekeep.RecordService.Access
import Gatekeep.RecordService.Resolver
import Gatekeep.RecordService.List
import Gatekeep.RecordService.Service
import Gatekeep.RecordService.Disclosures
import Gatekeep.Sql.Evaluation
