import Mdevolved.Coordinator.Calls
import Mdevolved.Coordinator.Durability
import Mdevolved.Coordinator.Replica
import Mdevolved.Coordinator.Vault
import Mdevolved.Elastic.DeltaReader
import Mdevolved.Elastic.RunDeltas
import Mdevolved.Lib.Decimal
import Mdevolved.Lib.Json
import Mdevolved.Lib.DecimalOrder
import Mdevolved.Lib.Issues
import Mdevolved.Lib.JsString
import Mdevolved.Lib.JsValue
import Mdevolved.Collaboration.Canonical
import Mdevolved.Lib.Keyset
import Mdevolved.Lib.Process
import Mdevolved.Lib.Run
import Mdevolved.Lib.Table
import Mdevolved.Lib.Writes
import Mdevolved.Lib.Utf8
import Mdevolved.Materialization.Completion
import Mdevolved.Materialization.Consistency
import Mdevolved.Materialization.Frames
import Mdevolved.Materialization.Jobs
import Mdevolved.Materialization.Projection
import Mdevolved.Materialization.Publication
import Mdevolved.Materialization.Admission
import Mdevolved.Materialization.Extraction
import Mdevolved.Materialization.Snapshot
import Mdevolved.Materialization.StagedRuns
import Mdevolved.Materialization.Tables
import Mdevolved.Pairing.Revocation
import Mdevolved.Pairing.Enrollment
import Mdevolved.Vault.Document
import Mdevolved.Vault.Path
import Mdevolved.Pairing.Calls
import Mdevolved.Pairing.Acceptance
import Mdevolved.Pairing.DeviceGrants
import Mdevolved.Pairing.Limits
import Mdevolved.Pairing.Retries
import Mdevolved.Auth.Store
import Mdevolved.Auth.OwnerClaim
import Mdevolved.Auth.Flows
import Mdevolved.Lead.Budgets
import Mdevolved.Lead.Slots
import Mdevolved.Lead.Receipts
import Mdevolved.Lead.Conflicts
import Mdevolved.Lead.Recoveries
import Mdevolved.Ledger.Objects
import Mdevolved.Lib.Watched
import Mdevolved.Lib.Weights
import Mdevolved.Lib.Workers
import Mdevolved.Materialization.Retention
import Mdevolved.Snapshot.Verification
import Mdevolved.Snapshot.Retention
import Mdevolved.Snapshot.Plan
import Mdevolved.Snapshot.Capture
import Mdevolved.Materialization.Collection
import Mdevolved.Policy.Windows
import Mdevolved.Policy.Receipts
import Mdevolved.Policy.Grounds
import Mdevolved.Policy.Completion
import Mdevolved.Policy.Service
import Mdevolved.Lib.Lineage
import Mdevolved.Lib.Utf16
import Mdevolved.Lib.CanonicalJson
import Mdevolved.Lib.Like
import Mdevolved.Agent.Visibility
import Mdevolved.Collaboration.Records
import Mdevolved.Collaboration.Tables
import Mdevolved.Lib.Interrupted
import Mdevolved.Source.Scan
import Mdevolved.Source.Admission
import Mdevolved.Source.Core
import Mdevolved.Source.Readers
import Mdevolved.Source.Revocation
import Mdevolved.Learning.Conflicts
import Mdevolved.Learning.Changes
import Mdevolved.Learning.ProfileRuns
import Mdevolved.Desktop.Runtimes
import Mdevolved.Source.Reconcile
import Mdevolved.Source.Overwrites
import Mdevolved.Agent.Exposure
import Mdevolved.Agent.Intersection
import Mdevolved.Agent.ContextPolicy
import Mdevolved.Agent.Profile
import Mdevolved.Agent.Search
import Mdevolved.Contracts.Ledger
import Mdevolved.Vault.Content
import Mdevolved.Vault.Restores
import Mdevolved.Elastic.Cursors
import Mdevolved.Materialization.Parameters
import Mdevolved.Collaboration.Timeline
import Mdevolved.Web.Rollback
