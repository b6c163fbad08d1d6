import Mdevolved.Elastic.RunDeltas

/-!
# Tables of the Lead

The tables that the lead of a project works on: its work items, the Runs started
for them, the actors a Run registers and the event bundles they submit, the
exceptions and receipts that mutations leave, and what an elastic Run has besides
(a plane and an account that count its actors, the slots they take, recoveries,
and a budget with its versions and entries).

A column that holds the text of scopes or of references holds the value here,
since nothing but a valid one is ever written to it. Every record also has an
identifier of its own in one of two tables of records, of which only the
identifiers matter. The rows of a table stand in the order they were inserted.

Which leases and grants there are is decided elsewhere. `LIVE_FENCE_SQL` asks the
tables of those whether a mutation may still be made, and that answer comes from
outside.

## Main definitions

* `LeadDb`: The tables.
* `EventBundle`: What an actor submits.
* `EventBundle.valid`: What is checked of it before anything is read.
* `LeadError`: What a request ends with where it does not go through.
-/

namespace Mdevolved.Lead

open Elastic (RetentionTier RetentionMetadata RunDeltaRow)

def minHandsOffActors : Nat := 3

def maxR2ActorsPerRun : Nat := 8

def maxR2BundlesPerRun : Nat := 64

def maxR2EventsPerBundle : Nat := 16

def maxR2BundleBytes : Nat := 256 * 1024

def maxR2RunLogicalBytes : Nat := 4 * 1024 * 1024

def maxR3ActiveActors : Nat := 32

def maxR3ActorRecords : Nat := 64

def maxR3RegisterBatch : Nat := 16

def maxR3BundleBatch : Nat := 8

def defaultR3LogicalUnitLimit : Nat := 1000000

def defaultR3CostMicrounitLimit : Nat := 100000000

/-! ## What is submitted -/

inductive LeadOperationScope
  | runContextRead | runBundleSubmit | runReviewSubmit
  deriving DecidableEq

inductive RunPurpose
  | research | coding
  deriving DecidableEq

inductive CompletionMode
  | orchestratedReviewed | soloVerified
  deriving DecidableEq

inductive ReviewVerdict
  | pass | passWithFindings | changesRequested | inconclusive
  deriving DecidableEq

/-- Something an actor may ask for that is recorded and never done. -/
inductive RequestedAction
  | authorityExpansion | destructiveAction | protectedPathAccess
  deriving DecidableEq

structure RunClaim where
  key : String
  valueSha256 : String
  evidenceSha256 : Option String

inductive RunEvent
  | resultProvisional (eventId actorId runId summary : String) (claims : List RunClaim)
  | reviewRequested (eventId actorId runId targetBundleId reviewerActorId : String)
  | reviewCompleted (eventId actorId runId targetBundleId : String) (verdict : ReviewVerdict)
      (summary : String) (findings : List String)

structure EventBundle where
  bundleId : String
  projectId : String
  runId : String
  actorId : String
  createdAt : Nat
  events : List RunEvent
  requestedActions : List RequestedAction
  normalizedRelativePath : Option String

namespace RunEvent

def eventId : RunEvent → String
  | resultProvisional eventId .. | reviewRequested eventId .. | reviewCompleted eventId .. => eventId

def actorId : RunEvent → String
  | resultProvisional _ actorId .. | reviewRequested _ actorId .. | reviewCompleted _ actorId .. =>
      actorId

def runId : RunEvent → String
  | resultProvisional _ _ runId .. | reviewRequested _ _ runId .. | reviewCompleted _ _ runId .. =>
      runId

def isProvisional : RunEvent → Bool
  | resultProvisional .. => true
  | _ => false

/-- The bundle a review is requested of, and the reviewer. -/
def request : RunEvent → Option (String × String)
  | reviewRequested _ _ _ targetBundleId reviewerActorId => some (targetBundleId, reviewerActorId)
  | _ => none

/-- The bundle that was reviewed, and the verdict. -/
def review : RunEvent → Option (String × ReviewVerdict)
  | reviewCompleted _ _ _ targetBundleId verdict .. => some (targetBundleId, verdict)
  | _ => none

def claims : RunEvent → List RunClaim
  | resultProvisional _ _ _ _ claims => claims
  | _ => []

/-- What is checked of an event by itself. -/
def valid : RunEvent → Bool
  | resultProvisional _ _ _ _ claims =>
      claims.length ≤ maxR2EventsPerBundle && (claims.map RunClaim.key).Nodup
  | reviewRequested _ actorId _ _ reviewerActorId => actorId ≠ reviewerActorId
  | reviewCompleted _ _ _ _ _ _ findings => findings.length ≤ 16

end RunEvent

namespace EventBundle

def hasProvisional (bundle : EventBundle) : Bool :=
  bundle.events.any RunEvent.isProvisional

/-- The reviews a bundle requests, in order. -/
def requests (bundle : EventBundle) : List (String × String) :=
  bundle.events.filterMap RunEvent.request

/-- The reviews a bundle contains, in order. -/
def reviews (bundle : EventBundle) : List (String × ReviewVerdict) :=
  bundle.events.filterMap RunEvent.review

/-- The bundles that are the subject of a review, requested or completed. -/
def targets (bundle : EventBundle) : List String :=
  bundle.events.filterMap (fun event =>
    (event.request.map Prod.fst).or (event.review.map Prod.fst))

/-- What `eventBundleSchema` checks. Whether a path is one under a protected root
    and how long the text of the bundle is are given. -/
def valid (isProtectedPath : String → Bool) (byteLength : EventBundle → Nat)
    (bundle : EventBundle) : Bool :=
  1 ≤ bundle.events.length && bundle.events.length ≤ maxR2EventsPerBundle &&
    bundle.events.all RunEvent.valid && byteLength bundle ≤ maxR2BundleBytes &&
    bundle.events.all (fun event => event.runId = bundle.runId && event.actorId = bundle.actorId) &&
    (bundle.events.map RunEvent.eventId).Nodup && bundle.requestedActions.Nodup &&
    bundle.normalizedRelativePath.isSome =
      bundle.requestedActions.contains .protectedPathAccess &&
    bundle.normalizedRelativePath.all isProtectedPath &&
    !bundle.targets.contains bundle.bundleId

end EventBundle

/-! ## Tables -/

inductive WorkItemStatus
  | opened | closed | quarantined
  deriving DecidableEq

inductive RunStatus
  | active | completed | aborted | restoredInert
  deriving DecidableEq

inductive ActorStatus
  | active | revoked | expired
  deriving DecidableEq

inductive ExceptionKind
  | authorityExpansion | destructiveAction | protectedPathAccess | budgetExhausted
  | evidenceConflict | reviewIndependence | actorScope
  deriving DecidableEq

inductive ExceptionStatus
  | opened | blocking | resolved
  deriving DecidableEq

inductive RecoveryReason
  | abandoned | expired
  deriving DecidableEq

structure WorkItemRow where
  workItemId : String
  projectId : String
  status : WorkItemStatus
  createdAt : Nat
  deriving DecidableEq

structure RunRow where
  runId : String
  projectId : String
  workItemId : String
  workPacketId : String
  policyId : String
  purpose : RunPurpose
  status : RunStatus
  createdAt : Nat
  completedAt : Option Nat
  completionOutcome : Option String
  completionMode : CompletionMode
  actorCount : Nat
  bundleCount : Nat
  logicalBytes : Nat
  deriving DecidableEq

structure ActorRow where
  actorId : String
  projectId : String
  runId : String
  workItemId : String
  claimedIdentity : String
  scopes : List LeadOperationScope
  status : ActorStatus
  issuedAt : Nat
  expiresAt : Nat
  revokedAt : Option Nat
  deriving DecidableEq

structure EventBundleRow where
  bundleId : String
  projectId : String
  runId : String
  actorId : String
  eventCount : Nat
  byteLength : Nat
  hasProvisionalResult : Bool
  reviewRequestTargetBundleId : Option String
  requestedReviewerActorId : Option String
  reviewResultTargetBundleId : Option String
  reviewVerdict : Option ReviewVerdict
  receivedAt : Nat
  deriving DecidableEq

structure RunClaimRow where
  runId : String
  bundleId : String
  claimKey : String
  valueSha256 : String
  evidenceSha256 : Option String
  deriving DecidableEq

structure ExceptionRow where
  exceptionId : String
  projectId : String
  runId : Option String
  workItemId : Option String
  actorId : Option String
  kind : ExceptionKind
  status : ExceptionStatus
  requestedAction : Option RequestedAction
  normalizedRelativePath : Option String
  evidenceRefs : List String
  createdAt : Nat
  resolvedAt : Option Nat
  deriving DecidableEq

/-- A checkpoint that was acknowledged. -/
structure ContinuityPointRow where
  continuityPointId : String
  projectId : String
  workItemId : String
  workPacketId : String
  acknowledgedAt : Nat
  restoredAt : Option Nat
  liveFenceValid : Bool
  liveContextValid : Bool
  deriving DecidableEq

structure ElasticPlaneRow where
  runId : String
  projectId : String
  activeActorCount : Nat
  actorRecordCount : Nat
  createdAt : Nat
  updatedAt : Nat
  retainUntil : Nat
  deriving DecidableEq

structure ElasticAccountRow where
  accountId : String
  projectId : String
  runId : String
  activeActorCount : Nat
  actorRecordCount : Nat
  acceptedBundleCount : Nat
  updatedAt : Nat
  retainUntil : Nat
  deriving DecidableEq

structure ActorSlotRow where
  runId : String
  actorId : String
  activeSlot : Option Nat
  recordSlot : Nat
  createdAt : Nat
  deriving DecidableEq

structure ActorRecoveryRow where
  recoveryId : String
  projectId : String
  runId : String
  abandonedActorId : String
  replacementActorId : String
  reason : RecoveryReason
  detectedAt : Nat
  recoveredAt : Nat
  deriving DecidableEq

structure RunBudgetRow where
  budgetId : String
  projectId : String
  runId : String
  logicalUnitLimit : Nat
  costMicrounitLimit : Nat
  logicalUnitsUsed : Nat
  costMicrounitsUsed : Nat
  accountingVersion : Nat
  updatedAt : Nat
  retainUntil : Nat
  deriving DecidableEq

structure RunBudgetVersionRow where
  budgetId : String
  budgetVersion : Nat
  logicalUnitsUsed : Nat
  costMicrounitsUsed : Nat
  recordedAt : Nat
  deriving DecidableEq

/-- What is reported to have been used of a budget. -/
structure BudgetEntry where
  entryId : String
  budgetId : String
  projectId : String
  runId : String
  actorId : Option String
  logicalUnits : Nat
  costMicrounits : Nat
  reportedBy : String
  createdAt : Nat
  metadata : RetentionMetadata
  deriving DecidableEq

/-- An entry with the version of the budget it has led to. -/
structure RunBudgetEntryRow extends BudgetEntry where
  budgetVersion : Nat
  deriving DecidableEq

/-- The operations that leave a receipt. -/
inductive LeadOperation
  | startRun | registerActor | submitBundle | completeWorkItem | registerActorsBatch
  | submitBundlesBatch | recoverActor | submitBudgetEntry
  deriving DecidableEq

/-- What a mutation answers. -/
inductive LeadResult
  | runStarted (run : RunRow) (budget : Option RunBudgetRow)
  | actorRegistered (actor : ActorRow)
  | actorsRegistered (runId : String) (actors : List ActorRow)
  | bundleSubmitted (bundleId : String)
  | bundlesSubmitted (runId : String) (bundleIds : List String)
  | actorRecovered (recovery : ActorRecoveryRow)
  | budgetEntrySubmitted (entryId : String)
  | workItemCompleted (workItemId : String)
  | workItemCreated (workItemId : String)
  | checkpointAcknowledged (continuityPointId : String)
  | exceptionResolved (resolved : Bool)
  deriving DecidableEq

inductive LeadOperationProblemCode
  | actorInvalid | actorRecoveryInvalid | backpressure | budgetExhausted | bundleInvalid
  | checkpointRequired | exceptionBlocking | grantInvalid | idempotencyConflict
  | integrityMismatch | leaseInvalid | policyRequired | reviewIndependence | reviewRequired
  | runInvalid | scopeRequired | submissionInvalid | workItemInvalid
  deriving DecidableEq

inductive RetryReason
  | capacity | databaseOverloaded

/-- How a mutation that met with backpressure may be tried again. -/
structure Retry where
  reason : RetryReason
  reduceBatchTo : Nat
  retryAfterMs : Nat
  retryable : Bool

/-- The unique constraints that a failed batch is told by. -/
inductive UniqueKey
  | actorSlot | elasticRecordId | budgetEntryId | budgetEntryVersion | budgetVersion | recovery
  | other

/-- A record that its schema refuses is `malformed`. -/
inductive LeadError
  | problem (code : LeadOperationProblemCode) (retry : Option Retry)
  | unique (key : UniqueKey)
  | foreignKey | check | malformed | unavailable

/-- What is kept of a mutation to recognise it by, and what it came to. -/
structure ReceiptRow where
  grantId : String
  operation : LeadOperation
  idempotencyKeySha256 : String
  requestSha256 : String
  projectId : String
  result : Except LeadOperationProblemCode LeadResult
  deriving DecidableEq

structure LeadDb where
  records : List String
  elasticRecords : List String
  workItems : List WorkItemRow
  runs : List RunRow
  actors : List ActorRow
  bundles : List EventBundleRow
  claims : List RunClaimRow
  exceptions : List ExceptionRow
  points : List ContinuityPointRow
  receipts : List ReceiptRow
  planes : List ElasticPlaneRow
  accounts : List ElasticAccountRow
  slots : List ActorSlotRow
  recoveries : List ActorRecoveryRow
  budgets : List RunBudgetRow
  budgetVersions : List RunBudgetVersionRow
  budgetEntries : List RunBudgetEntryRow
  deltas : List RunDeltaRow
  nextSequence : Nat
  deriving DecidableEq

/-- A deployment without work items. -/
def emptyDb : LeadDb :=
  { records := [], elasticRecords := [], workItems := [], runs := [], actors := []
    bundles := [], claims := [], exceptions := [], points := [], receipts := [], planes := []
    accounts := [], slots := [], recoveries := [], budgets := [], budgetVersions := []
    budgetEntries := [], deltas := [], nextSequence := 1 }

/-! ## What the tables tell -/

def runOf (db : LeadDb) (projectId runId : String) : Option RunRow :=
  db.runs.find? (fun r => r.runId = runId && r.projectId = projectId)

def planeOf (db : LeadDb) (projectId runId : String) : Option ElasticPlaneRow :=
  db.planes.find? (fun p => p.projectId = projectId && p.runId = runId)

def actorOf (db : LeadDb) (actorId projectId runId : String) : Option ActorRow :=
  db.actors.find? (fun a => a.actorId = actorId && a.projectId = projectId && a.runId = runId)

/-- How many actors of a Run hold an active slot. -/
def activeSlotCount (db : LeadDb) (runId : String) : Nat :=
  db.slots.countP (fun s => s.runId = runId && s.activeSlot.isSome)

/-- How many actors of a Run hold a slot. -/
def recordSlotCount (db : LeadDb) (runId : String) : Nat :=
  db.slots.countP (fun s => s.runId = runId)

/-- An exception that keeps a Run from being completed: one of its own, or of the
    whole project. -/
def ExceptionRow.blocks (x : ExceptionRow) (projectId runId : String) : Bool :=
  x.projectId = projectId && (x.status = .opened || x.status = .blocking) &&
    x.runId.all (fun r => r = runId)

/-- A checkpoint that a Run may be completed on. -/
def ContinuityPointRow.covers (p : ContinuityPointRow) (projectId workItemId workPacketId : String)
    (createdAt : Nat) : Bool :=
  p.projectId = projectId && p.workItemId = workItemId && p.workPacketId = workPacketId &&
    createdAt ≤ p.acknowledgedAt && p.restoredAt.isNone && p.liveFenceValid && p.liveContextValid

def passes (verdict : Option ReviewVerdict) : Bool :=
  verdict = some .pass || verdict = some .passWithFindings

/-- Bundles of a Run of which one is a passing review of another, by a reviewer to
    whom a third has routed it and who is not its author. -/
def EventBundleRow.reviewed (completed target requested : EventBundleRow)
    (projectId runId : String) : Bool :=
  completed.runId = runId && completed.projectId = projectId &&
    completed.reviewResultTargetBundleId = some target.bundleId &&
    target.runId = completed.runId && target.hasProvisionalResult &&
    requested.runId = completed.runId &&
    requested.reviewRequestTargetBundleId = some target.bundleId &&
    requested.requestedReviewerActorId = some completed.actorId &&
    passes completed.reviewVerdict && completed.actorId ≠ target.actorId

end Mdevolved.Lead
