import SigmaForge.Foundation.Text
import SigmaForge.Foundation.Scanner
import SigmaForge.Foundation.SepBy
import SigmaForge.Detection.Condition.Syntax
import SigmaForge.Detection.Condition.Grammar
import SigmaForge.Detection.Condition.WellFormed
import SigmaForge.Detection.Condition.References
import SigmaForge.Foundation.Json.Value
import SigmaForge.Foundation.Json.Encode
import SigmaForge.Foundation.Json.Size
import SigmaForge.Foundation.Json.Decode
import SigmaForge.Foundation.Json.RoundTrip
import SigmaForge.Foundation.Json.Budget
import SigmaForge.Detection.Validation
import SigmaForge.Detection.Validity
import SigmaForge.Detection.Resolution
import SigmaForge.Detection.Snapshot
import SigmaForge.Foundation.Interleaving
import SigmaForge.Foundation.ReadCommitted
import SigmaForge.Detection.Store
import SigmaForge.Foundation.Json.Compare
import SigmaForge.Detection.Service
import SigmaForge.Detection.VersionChain
import SigmaForge.Detection.Editors
import SigmaForge.Detection.VersionHistory
import SigmaForge.Detection.Isolation
import SigmaForge.Auth.Lockout
import SigmaForge.Auth.BruteForce
import SigmaForge.Auth.Calls
import SigmaForge.Foundation.Atomic
import SigmaForge.Auth.Attempt
import SigmaForge.Auth.Lineage
import SigmaForge.Auth.Transactions
import SigmaForge.Auth.Sessions
import SigmaForge.Foundation.Attributes
import SigmaForge.Auth.Attributes
import SigmaForge.Foundation.Json.Alike
import SigmaForge.Foundation.Json.Strict
import SigmaForge.Detection.Decoder
import SigmaForge.Detection.Revision
import SigmaForge.Detection.Diff
import SigmaForge.Foundation.Queries
import SigmaForge.Detection.History
import SigmaForge.Detection.Reads
import SigmaForge.Detection.Agreement
import SigmaForge.Detection.IdentityMap
import SigmaForge.Detection.Seen
import SigmaForge.Detection.ConcurrentReads
import SigmaForge.Detection.SnapshotReads
import SigmaForge.Auth.Sequential
import SigmaForge.Foundation.AttemptLimit
import SigmaForge.Auth.LockoutAutomaton
import SigmaForge.Detection.Resolvable
import SigmaForge.Detection.Storage
import SigmaForge.Detection.CanonicalForm
import SigmaForge.Detection.Pagination
import SigmaForge.Detection.VersionNumbers
import SigmaForge.Auth.Enumeration
import SigmaForge.Auth.Revocation
import SigmaForge.Detection.Condition.Depth
import SigmaForge.Foundation.Phases
import SigmaForge.Foundation.CommitOrder
import SigmaForge.Detection.Serializable
import SigmaForge.Foundation.Typestate
import SigmaForge.Foundation.Waiting
import SigmaForge.Auth.Knowledge
import SigmaForge.Auth.Accountability
import SigmaForge.Foundation.Uuid
import SigmaForge.Auth.AccessTokens
import SigmaForge.Foundation.Simulation
import SigmaForge.Auth.Effects
import SigmaForge.Auth.Fakes
import SigmaForge.Auth.Waiting
import SigmaForge.Detection.Waiting
import SigmaForge.Foundation.Json.Lines
import SigmaForge.Foundation.Dict
import SigmaForge.Foundation.Alone
import SigmaForge.Core.Logging
import SigmaForge.Core.Middleware
import SigmaForge.Core.RequestLog
import SigmaForge.Core.RequestRuns
import SigmaForge.Auth.LoginLog
import SigmaForge.Foundation.Handover
import SigmaForge.Api.Requests
import SigmaForge.Api.Mediation
import SigmaForge.Foundation.Provenance
import SigmaForge.Detection.Authorship
import SigmaForge.Api.Origins
