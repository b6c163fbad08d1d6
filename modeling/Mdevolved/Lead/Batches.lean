import Mdevolved.Lead.Schema
import Mdevolved.Lib.Writes

/-!
# Batches of the Lead

Every mutation of the lead ends in one batch, which takes effect as a whole or
not at all. A batch is the list of its writes, in the order of its statements. A
statement that inserts rows is up to three writes: one that requires the checks
of the table, one that adds the rows where they are unique, and one that requires
the rows they refer to.

What a batch inserts was made before it is sent, from what was read by then. A
statement that changes rows may find other rows than were read, or none: then it
changes nothing, and the batch goes on. A receipt comes last. It is inserted only
where the lease and the grant of the request are still good, and where what the
mutation was to leave behind is there.

## Main definitions

* `Outside`: What is decided elsewhere while a request is handled.
* `accountEntry`, `accountEntries`: Taking entries from a budget.
* `StartRunBatch`, `RegisterActorBatch`, `SubmitBundleBatch`, `CompleteBatch`,
  `DeniedBatch`: The batches of any Run.
* `RegisterActorsBatch`, `SubmitBundlesBatch`, `RecoverActorBatch`,
  `SubmitBudgetEntryBatch`, `ReconcileBatch`: The batches of elastic Runs.

## Theorems

* `accountEntries_frame`: Taking entries changes nothing but budgets.
-/

namespace Mdevolved.Lead

open Elastic (EvidenceMetadata PreparedDelta deltaRowsStatement admitsRunDelta metadata)

abbrev LeadWrite : Type := Batch.Write LeadDb LeadError

/-- What is decided elsewhere while a request is handled: what becomes of the
    request, what keeps the caller from leading the project, whether the lease
    and the grant are good (and the policy decision, where there is one), when
    the lease expires, and the number of bundles a policy decision was made on. -/
structure Outside where
  outcome : Batch.Outcome
  problem : Option LeadOperationProblemCode
  liveFence : Bool
  policyFence : Bool
  leaseExpiresAt : Option Nat
  policy : Except LeadOperationProblemCode (Option Nat)

/-- Which grant asks for a mutation of which project, by which key, and when. -/
structure Envelope where
  projectId : String
  grantId : String
  idempotencyKeySha256 : String
  requestSha256 : String
  now : Nat

/-! ## What rows are made from -/

structure ActorRegistrationInput where
  actorId : String
  claimedIdentity : String
  scopes : List LeadOperationScope
  lifetimeSeconds : Nat
  metadata : Option EvidenceMetadata

/-- What is checked of an actor that is to be registered. -/
def ActorRegistrationInput.valid (actor : ActorRegistrationInput) : Bool :=
  1 ≤ actor.scopes.length && actor.scopes.length ≤ 3 && actor.scopes.Nodup &&
    1 ≤ actor.lifetimeSeconds && actor.lifetimeSeconds ≤ 15 * 60

/-- An actor of a Run, until its lifetime is over or the lease expires. -/
def ActorRegistrationInput.row (actor : ActorRegistrationInput) (e : Envelope)
    (runId workItemId : String) (leaseExpiresAt : Nat) : ActorRow :=
  { actorId := actor.actorId
    projectId := e.projectId
    runId := runId
    workItemId := workItemId
    claimedIdentity := actor.claimedIdentity
    scopes := actor.scopes
    status := .active
    issuedAt := e.now
    expiresAt := min (e.now + actor.lifetimeSeconds) leaseExpiresAt
    revokedAt := none }

/-- What is kept of a bundle, which is the first of its requests and the first of its
    reviews. -/
def EventBundle.row (bundle : EventBundle) (e : Envelope) (runId : String) (byteLength : Nat) :
    EventBundleRow :=
  { bundleId := bundle.bundleId
    projectId := e.projectId
    runId := runId
    actorId := bundle.actorId
    eventCount := bundle.events.length
    byteLength := byteLength
    hasProvisionalResult := bundle.hasProvisional
    reviewRequestTargetBundleId := bundle.requests.head?.map Prod.fst
    requestedReviewerActorId := bundle.requests.head?.map Prod.snd
    reviewResultTargetBundleId := bundle.reviews.head?.map Prod.fst
    reviewVerdict := bundle.reviews.head?.map Prod.snd
    receivedAt := e.now }

/-! ## Rows of one table -/

def insertRecords (ids : List String) : LeadWrite :=
  .insertAll LeadDb.records (fun db rows => { db with records := rows })
    (fun rows id => !rows.contains id) (fun _ => ids) (.unique .other)

def insertElasticRecords (ids : List String) : LeadWrite :=
  .insertAll LeadDb.elasticRecords (fun db rows => { db with elasticRecords := rows })
    (fun rows id => !rows.contains id) (fun _ => ids) (.unique .elasticRecordId)

/-- A work item has one active Run at most. -/
def insertRun (liveFence : Bool) (run : RunRow) : List LeadWrite :=
  [.require (fun _ => liveFence) .check,
    .insertAll LeadDb.runs (fun db rows => { db with runs := rows })
      (fun rows r => rows.all (fun r' => r'.runId ≠ r.runId &&
        !(r.status = .active && r'.status = .active && r'.workItemId = r.workItemId)))
      (fun _ => [run]) (.unique .other),
    .require (fun db => db.workItems.any (fun i => i.workItemId = run.workItemId)) .foreignKey]

def insertActors (liveFence : Bool) (actors : List ActorRow) : List LeadWrite :=
  [.require (fun _ => actors.all (fun a => liveFence && a.issuedAt < a.expiresAt)) .check,
    .insertAll LeadDb.actors (fun db rows => { db with actors := rows })
      (fun rows a => rows.all (fun a' => a'.actorId ≠ a.actorId)) (fun _ => actors)
      (.unique .other),
    .require (fun db => actors.all (fun a => db.runs.any (fun r => r.runId = a.runId) &&
      db.workItems.any (fun i => i.workItemId = a.workItemId))) .foreignKey]

def insertBundles (liveFence : Bool) (bundles : List EventBundleRow) : List LeadWrite :=
  [.require (fun _ => bundles.all (fun b => liveFence && 1 ≤ b.eventCount &&
      b.eventCount ≤ maxR2EventsPerBundle && 1 ≤ b.byteLength &&
      b.byteLength ≤ maxR2BundleBytes)) .check,
    .insertAll LeadDb.bundles (fun db rows => { db with bundles := rows })
      (fun rows b => rows.all (fun b' => b'.bundleId ≠ b.bundleId)) (fun _ => bundles)
      (.unique .other),
    .require (fun db => bundles.all (fun b => db.runs.any (fun r => r.runId = b.runId) &&
      db.actors.any (fun a => a.actorId = b.actorId))) .foreignKey]

/-- A claim that a bundle has already made is left as it is. -/
def insertClaims (claims : List RunClaimRow) : LeadWrite :=
  .always (fun db => { db with
    claims := claims.foldl (fun rows c =>
      if rows.any (fun c' => c'.runId = c.runId && c'.bundleId = c.bundleId &&
          c'.claimKey = c.claimKey && c'.valueSha256 = c.valueSha256) then rows
      else rows ++ [c]) db.claims })

def insertExceptions (liveFence : Bool) (exceptions : List ExceptionRow) : List LeadWrite :=
  [.require (fun _ => exceptions.all (fun _ => liveFence)) .check,
    .insertAll LeadDb.exceptions (fun db rows => { db with exceptions := rows })
      (fun rows x => rows.all (fun x' => x'.exceptionId ≠ x.exceptionId)) (fun _ => exceptions)
      (.unique .other),
    .require (fun db => exceptions.all (fun x =>
      x.runId.all (fun id => db.runs.any (fun r => r.runId = id)) &&
        x.actorId.all (fun id => db.actors.any (fun a => a.actorId = id)))) .foreignKey]

def insertDeltas (deltas : List PreparedDelta) : LeadWrite :=
  .insertAll LeadDb.deltas (fun db rows => { db with deltas := rows }) admitsRunDelta
    (fun _ => deltaRowsStatement deltas) (.unique .other)

/-- A receipt that is only left where the fence still holds, and what it asks for
    besides. -/
def insertReceipt (liveFence : Bool) (extraFence : LeadDb → Bool) (row : ReceiptRow) :
    List LeadWrite :=
  [.require (fun db => liveFence && extraFence db) .check,
    .insertAll LeadDb.receipts (fun db rows => { db with receipts := rows })
      (fun rows r => rows.all (fun r' => !(r'.grantId = r.grantId &&
        r'.operation = r.operation && r'.idempotencyKeySha256 = r.idempotencyKeySha256)))
      (fun _ => [row]) (.unique .other)]

def Envelope.receipt (e : Envelope) (operation : LeadOperation)
    (result : Except LeadOperationProblemCode LeadResult) : ReceiptRow :=
  { grantId := e.grantId
    operation := operation
    idempotencyKeySha256 := e.idempotencyKeySha256
    requestSha256 := e.requestSha256
    projectId := e.projectId
    result := result }

/-! ## Planes, accounts and slots -/

/-- The checks of a plane. -/
def ElasticPlaneRow.admitted (p : ElasticPlaneRow) : Bool :=
  p.activeActorCount ≤ maxR3ActiveActors && p.actorRecordCount ≤ maxR3ActorRecords &&
    p.createdAt ≤ p.updatedAt && p.createdAt ≤ p.retainUntil

/-- The checks of an account. -/
def ElasticAccountRow.admitted (a : ElasticAccountRow) : Bool :=
  a.activeActorCount ≤ maxR3ActiveActors && a.actorRecordCount ≤ maxR3ActorRecords &&
    a.updatedAt ≤ a.retainUntil

/-- The checks of a slot. -/
def ActorSlotRow.admitted (s : ActorSlotRow) : Bool :=
  s.activeSlot.all (fun k => 1 ≤ k && k ≤ maxR3ActiveActors) && 1 ≤ s.recordSlot &&
    s.recordSlot ≤ maxR3ActorRecords

def changePlanes (p : ElasticPlaneRow → Bool) (f : LeadDb → ElasticPlaneRow → ElasticPlaneRow) :
    LeadWrite :=
  .updateAll LeadDb.planes (fun db rows => { db with planes := rows }) (fun _ => p) f
    (fun db r => (f db r).admitted) .check

def changeAccounts (p : ElasticAccountRow → Bool)
    (f : LeadDb → ElasticAccountRow → ElasticAccountRow) : LeadWrite :=
  .updateAll LeadDb.accounts (fun db rows => { db with accounts := rows }) (fun _ => p) f
    (fun db r => (f db r).admitted) .check

/-- An active slot is released. -/
def releaseSlots (p : ActorSlotRow → Bool) : LeadWrite :=
  .changeAll LeadDb.slots (fun db rows => { db with slots := rows }) (fun _ => p)
    (fun _ s => { s with activeSlot := none })

/-- The slots of a Run are told apart by their numbers, of which those that were
    released do not count. -/
def actorSlotRowsStatement (slots : List ActorSlotRow) : List LeadWrite :=
  [.require (fun _ => slots.all ActorSlotRow.admitted) .check,
    .insertAll LeadDb.slots (fun db rows => { db with slots := rows })
      (fun rows s => rows.all (fun s' => s'.actorId ≠ s.actorId &&
        !(s'.runId = s.runId && s'.recordSlot = s.recordSlot) &&
        !(s'.runId = s.runId && s'.activeSlot.isSome && s'.activeSlot = s.activeSlot)))
      (fun _ => slots) (.unique .actorSlot),
    .require (fun db => slots.all (fun s => db.planes.any (fun p => p.runId = s.runId) &&
      db.actors.any (fun a => a.actorId = s.actorId))) .foreignKey]

/-- One slot for each actor that was registered. -/
def actorSlots (runId : String) (now : Nat) (actors : List ActorRow) (activeSlots : List Nat)
    (recordSlotStart : Nat) : List ActorSlotRow :=
  actors.mapIdx (fun index actor =>
    { runId := runId
      actorId := actor.actorId
      activeSlot := activeSlots[index]?
      recordSlot := recordSlotStart + index
      createdAt := now })

/-! ## Budgets -/

/-- Whether an entry still fits the limits of a budget. -/
def RunBudgetRow.fits (b : RunBudgetRow) (logicalUnits costMicrounits : Nat) : Bool :=
  b.logicalUnitsUsed + logicalUnits ≤ b.logicalUnitLimit &&
    b.costMicrounitsUsed + costMicrounits ≤ b.costMicrounitLimit

/-- Take an entry from a budget. The budget is advanced where it is still at the
    version that was read and the entry fits, a version is recorded where it then
    has what was computed, and the entry refers to that version, so that it cannot
    be inserted where one of the two has not happened. -/
def accountEntry (selects : RunBudgetRow → Bool) (now version logicalUnitsUsed
    costMicrounitsUsed : Nat) (entry : BudgetEntry) : List LeadWrite :=
  [.updateAll LeadDb.budgets (fun db rows => { db with budgets := rows })
      (fun _ b => b.budgetId = entry.budgetId && selects b && b.accountingVersion = version &&
        b.fits entry.logicalUnits entry.costMicrounits)
      (fun _ b => { b with
        logicalUnitsUsed := b.logicalUnitsUsed + entry.logicalUnits
        costMicrounitsUsed := b.costMicrounitsUsed + entry.costMicrounits
        accountingVersion := b.accountingVersion + 1
        updatedAt := now })
      (fun _ b => now ≤ b.retainUntil) .check,
    .insertAll LeadDb.budgetVersions (fun db rows => { db with budgetVersions := rows })
      (fun rows v => rows.all (fun v' =>
        !(v'.budgetId = v.budgetId && v'.budgetVersion = v.budgetVersion)))
      (fun db => (db.budgets.filter (fun b => b.budgetId = entry.budgetId &&
        b.accountingVersion = version + 1 && b.logicalUnitsUsed = logicalUnitsUsed &&
        b.costMicrounitsUsed = costMicrounitsUsed)).map (fun b =>
          { budgetId := b.budgetId
            budgetVersion := b.accountingVersion
            logicalUnitsUsed := b.logicalUnitsUsed
            costMicrounitsUsed := b.costMicrounitsUsed
            recordedAt := now }))
      (.unique .budgetVersion),
    .require (fun _ => (0 < entry.logicalUnits || 0 < entry.costMicrounits) &&
      entry.createdAt ≤ entry.metadata.retainUntil) .check,
    .require (fun db => db.budgetEntries.all (fun e => e.entryId ≠ entry.entryId))
      (.unique .budgetEntryId),
    .insertAll LeadDb.budgetEntries (fun db rows => { db with budgetEntries := rows })
      (fun rows e => rows.all (fun e' =>
        !(e'.budgetId = e.budgetId && e'.budgetVersion = e.budgetVersion)))
      (fun _ => [{ entry with budgetVersion := version + 1 }]) (.unique .budgetEntryVersion),
    .require (fun db =>
      db.budgetVersions.any (fun v =>
        v.budgetId = entry.budgetId && v.budgetVersion = version + 1) &&
      db.runs.any (fun r => r.runId = entry.runId) &&
      entry.actorId.all (fun id => db.actors.any (fun a => a.actorId = id))) .foreignKey]

/-- Take several entries one after the other, with what is to have been used after
    each of them. -/
def accountEntries (selects : RunBudgetRow → Bool) (now : Nat) :
    Nat → Nat → Nat → List BudgetEntry → List LeadWrite
  | _, _, _, [] => []
  | version, logicalUnitsUsed, costMicrounitsUsed, entry :: entries =>
      accountEntry selects now version (logicalUnitsUsed + entry.logicalUnits)
          (costMicrounitsUsed + entry.costMicrounits) entry ++
        accountEntries selects now (version + 1) (logicalUnitsUsed + entry.logicalUnits)
          (costMicrounitsUsed + entry.costMicrounits) entries

/-- Taking entries changes budgets, their versions and their entries only. -/
theorem accountEntries_frame (selects : RunBudgetRow → Bool) (now : Nat)
    (entries : List BudgetEntry) (version logicalUnitsUsed costMicrounitsUsed : Nat) (db : LeadDb) :
    ∃ budgets versions budgetEntries, Batch.written
      (accountEntries selects now version logicalUnitsUsed costMicrounitsUsed entries) db =
      { db with
        budgets := budgets
        budgetVersions := versions
        budgetEntries := budgetEntries } := by
  induction entries generalizing version logicalUnitsUsed costMicrounitsUsed db with
  | nil => exact ⟨db.budgets, db.budgetVersions, db.budgetEntries, rfl⟩
  | cons entry entries ih =>
      rw [accountEntries, Batch.written_append]
      rcases ih (version + 1) (logicalUnitsUsed + entry.logicalUnits)
        (costMicrounitsUsed + entry.costMicrounits) (Batch.written (accountEntry selects now version
          (logicalUnitsUsed + entry.logicalUnits) (costMicrounitsUsed + entry.costMicrounits) entry)
          db) with ⟨budgets, versions, budgetEntries, hrest⟩
      exact ⟨budgets, versions, budgetEntries, hrest⟩

/-! ## Batches of any Run -/

/-- What an elastic Run starts with. The record of a plane has an identifier of
    its own. -/
structure ElasticStart where
  projectId : String
  runId : String
  planeRecordId : String
  accountId : String
  budgetId : String
  now : Nat

namespace ElasticStart

def plane (elastic : ElasticStart) : ElasticPlaneRow :=
  { runId := elastic.runId
    projectId := elastic.projectId
    activeActorCount := 0
    actorRecordCount := 0
    createdAt := elastic.now
    updatedAt := elastic.now
    retainUntil := (metadata elastic.now .hot).retainUntil }

def account (elastic : ElasticStart) : ElasticAccountRow :=
  { accountId := elastic.accountId
    projectId := elastic.projectId
    runId := elastic.runId
    activeActorCount := 0
    actorRecordCount := 0
    acceptedBundleCount := 0
    updatedAt := elastic.now
    retainUntil := (metadata elastic.now .hot).retainUntil }

def budget (elastic : ElasticStart) : RunBudgetRow :=
  { budgetId := elastic.budgetId
    projectId := elastic.projectId
    runId := elastic.runId
    logicalUnitLimit := defaultR3LogicalUnitLimit
    costMicrounitLimit := defaultR3CostMicrounitLimit
    logicalUnitsUsed := 0
    costMicrounitsUsed := 0
    accountingVersion := 0
    updatedAt := elastic.now
    retainUntil := (metadata elastic.now .warm).retainUntil }

def writes (elastic : ElasticStart) : List LeadWrite :=
  [insertElasticRecords [elastic.planeRecordId, elastic.accountId, elastic.budgetId],
    .require (fun _ => elastic.plane.admitted && elastic.account.admitted &&
      elastic.budget.updatedAt ≤ elastic.budget.retainUntil) .check,
    .insertAll LeadDb.planes (fun db rows => { db with planes := rows })
      (fun rows p => rows.all (fun p' => p'.runId ≠ p.runId)) (fun _ => [elastic.plane])
      (.unique .other),
    .insertAll LeadDb.accounts (fun db rows => { db with accounts := rows })
      (fun rows a => rows.all (fun a' => a'.accountId ≠ a.accountId && a'.runId ≠ a.runId))
      (fun _ => [elastic.account]) (.unique .other),
    .insertAll LeadDb.budgets (fun db rows => { db with budgets := rows })
      (fun rows b => rows.all (fun b' => b'.budgetId ≠ b.budgetId && b'.runId ≠ b.runId))
      (fun _ => [elastic.budget]) (.unique .other),
    .insertAll LeadDb.budgetVersions (fun db rows => { db with budgetVersions := rows })
      (fun rows v => rows.all (fun v' =>
        !(v'.budgetId = v.budgetId && v'.budgetVersion = v.budgetVersion)))
      (fun _ => [{
        budgetId := elastic.budgetId
        budgetVersion := 0
        logicalUnitsUsed := 0
        costMicrounitsUsed := 0
        recordedAt := elastic.now }]) (.unique .budgetVersion)]

end ElasticStart

/-- The identifiers that are drawn for the plane, the account and the budget of an
    elastic Run. -/
structure ElasticIds where
  planeRecordId : String
  accountId : String
  budgetId : String

structure StartRunBatch where
  envelope : Envelope
  runId : String
  workItemId : String
  workPacketId : String
  policyId : String
  /-- Whether the policy was made for this Run. -/
  policyIsNew : Bool
  purpose : RunPurpose
  completionMode : CompletionMode
  elasticIds : Option ElasticIds

def StartRunBatch.run (b : StartRunBatch) : RunRow :=
  { runId := b.runId
    projectId := b.envelope.projectId
    workItemId := b.workItemId
    workPacketId := b.workPacketId
    policyId := b.policyId
    purpose := b.purpose
    status := .active
    createdAt := b.envelope.now
    completedAt := none
    completionOutcome := none
    completionMode := b.completionMode
    actorCount := 0
    bundleCount := 0
    logicalBytes := 0 }

def StartRunBatch.elastic (b : StartRunBatch) : Option ElasticStart :=
  b.elasticIds.map (fun ids =>
    { projectId := b.envelope.projectId
      runId := b.runId
      planeRecordId := ids.planeRecordId
      accountId := ids.accountId
      budgetId := ids.budgetId
      now := b.envelope.now })

def StartRunBatch.writes (b : StartRunBatch) (w : Outside) : List LeadWrite :=
  [insertRecords (if b.policyIsNew then [b.policyId, b.runId] else [b.runId])] ++
    insertRun w.liveFence b.run ++
    (match b.elastic with
      | none => []
      | some elastic => elastic.writes) ++
    insertReceipt w.liveFence
      (fun db => db.runs.any (fun r => r.runId = b.runId &&
        r.projectId = b.envelope.projectId && r.workPacketId = b.workPacketId &&
        r.status = .active))
      (b.envelope.receipt .startRun
        (.ok (.runStarted b.run (b.elastic.map ElasticStart.budget))))

structure RegisterActorBatch where
  envelope : Envelope
  runId : String
  workItemId : String
  registration : ActorRegistrationInput
  leaseExpiresAt : Nat

def RegisterActorBatch.actor (b : RegisterActorBatch) : ActorRow :=
  b.registration.row b.envelope b.runId b.workItemId b.leaseExpiresAt

def RegisterActorBatch.writes (b : RegisterActorBatch) (w : Outside) : List LeadWrite :=
  [insertRecords [b.registration.actorId]] ++ insertActors w.liveFence [b.actor] ++
    [.updateAll LeadDb.runs (fun db rows => { db with runs := rows })
      (fun _ r => r.runId = b.runId && r.projectId = b.envelope.projectId &&
        r.status = .active)
      (fun _ r => { r with actorCount := r.actorCount + 1 })
      (fun _ r => r.actorCount + 1 ≤ maxR2ActorsPerRun) .check] ++
    insertReceipt w.liveFence
      (fun db => db.actors.any (fun a => a.actorId = b.registration.actorId &&
        a.runId = b.runId && a.status = .active))
      (b.envelope.receipt .registerActor (.ok (.actorRegistered b.actor)))

/-- More bundles of a Run, as long as it is active. -/
def countBundles (projectId runId : String) (count addedBytes : Nat) : LeadWrite :=
  .updateAll LeadDb.runs (fun db rows => { db with runs := rows })
    (fun _ r => r.runId = runId && r.projectId = projectId && r.status = .active)
    (fun _ r => { r with
      bundleCount := r.bundleCount + count
      logicalBytes := r.logicalBytes + addedBytes })
    (fun _ r => r.bundleCount + count ≤ maxR2BundlesPerRun &&
      r.logicalBytes + addedBytes ≤ maxR2RunLogicalBytes) .check

structure SubmitBundleBatch where
  envelope : Envelope
  runId : String
  bundle : EventBundle
  byteLength : Nat
  claims : List RunClaimRow
  exceptions : List ExceptionRow

def SubmitBundleBatch.row (b : SubmitBundleBatch) : EventBundleRow :=
  b.bundle.row b.envelope b.runId b.byteLength

def SubmitBundleBatch.writes (b : SubmitBundleBatch) (w : Outside) : List LeadWrite :=
  [insertRecords (b.bundle.bundleId :: b.exceptions.map ExceptionRow.exceptionId)] ++
    insertBundles w.liveFence [b.row] ++ [insertClaims b.claims] ++
    insertExceptions w.liveFence b.exceptions ++
    [countBundles b.envelope.projectId b.runId 1 b.byteLength] ++
    insertReceipt w.liveFence
      (fun db => db.bundles.any (fun b' =>
        b'.bundleId = b.bundle.bundleId && b'.runId = b.runId))
      (b.envelope.receipt .submitBundle (.ok (.bundleSubmitted b.bundle.bundleId)))

/-- What a request that is denied is told, by the exception it leaves. -/
def ExceptionKind.failure : ExceptionKind → LeadOperationProblemCode
  | .budgetExhausted => .budgetExhausted
  | .reviewIndependence => .reviewIndependence
  | _ => .scopeRequired

structure DeniedBatch where
  envelope : Envelope
  operation : LeadOperation
  exception : ExceptionRow

def DeniedBatch.writes (b : DeniedBatch) (w : Outside) : List LeadWrite :=
  [insertRecords [b.exception.exceptionId]] ++ insertExceptions w.liveFence [b.exception] ++
    insertReceipt w.liveFence
      (fun db => db.exceptions.any (fun x => x.exceptionId = b.exception.exceptionId))
      (b.envelope.receipt b.operation (.error b.exception.kind.failure))

structure CompleteBatch where
  envelope : Envelope
  runId : String
  workItemId : String
  outcome : String
  /-- The number of bundles that a policy decision was made on. -/
  acceptedBundleCount : Option Nat

/-- The number of bundles of a Run. -/
def bundleCountOf (db : LeadDb) (projectId runId : String) : Nat :=
  db.bundles.countP (fun b => b.runId = runId && b.projectId = projectId)

def CompleteBatch.writes (b : CompleteBatch) (w : Outside) : List LeadWrite :=
  [.changeAll LeadDb.runs (fun db rows => { db with runs := rows })
      (fun _ r => r.runId = b.runId && r.projectId = b.envelope.projectId &&
        r.workItemId = b.workItemId && r.status = .active)
      (fun _ r => { r with
        status := .completed
        completedAt := some b.envelope.now
        completionOutcome := some b.outcome }),
    .changeAll LeadDb.actors (fun db rows => { db with actors := rows })
      (fun _ a => a.runId = b.runId && a.projectId = b.envelope.projectId && a.status = .active)
      (fun _ a => { a with status := .revoked, revokedAt := some b.envelope.now }),
    releaseSlots (fun s => s.runId = b.runId),
    changePlanes (fun p => p.runId = b.runId && p.projectId = b.envelope.projectId)
      (fun _ p => { p with activeActorCount := 0, updatedAt := b.envelope.now }),
    changeAccounts (fun a => a.runId = b.runId && a.projectId = b.envelope.projectId)
      (fun _ a => { a with activeActorCount := 0, updatedAt := b.envelope.now }),
    .changeAll LeadDb.workItems (fun db rows => { db with workItems := rows })
      (fun _ i => i.workItemId = b.workItemId && i.projectId = b.envelope.projectId &&
        i.status = .opened)
      (fun _ i => { i with status := .closed })] ++
    insertReceipt w.liveFence
      (fun db =>
        db.runs.any (fun r => r.runId = b.runId && r.projectId = b.envelope.projectId &&
          r.status = .completed && r.completedAt = some b.envelope.now &&
          r.completionOutcome = some b.outcome) &&
        db.workItems.any (fun i => i.workItemId = b.workItemId &&
          i.projectId = b.envelope.projectId && i.status = .closed) &&
        b.acceptedBundleCount.all (fun n =>
          w.policyFence && n = bundleCountOf db b.envelope.projectId b.runId))
      (b.envelope.receipt .completeWorkItem (.ok (.workItemCompleted b.workItemId)))

/-! ## Batches of elastic Runs -/

structure RegisterActorsBatch where
  envelope : Envelope
  runId : String
  workItemId : String
  registrations : List ActorRegistrationInput
  leaseExpiresAt : Nat
  activeSlots : List Nat
  recordSlotStart : Nat
  deltas : List PreparedDelta

def RegisterActorsBatch.actors (b : RegisterActorsBatch) : List ActorRow :=
  b.registrations.map (fun a => a.row b.envelope b.runId b.workItemId b.leaseExpiresAt)

def RegisterActorsBatch.actorIds (b : RegisterActorsBatch) : List String :=
  b.registrations.map ActorRegistrationInput.actorId

def RegisterActorsBatch.slots (b : RegisterActorsBatch) : List ActorSlotRow :=
  actorSlots b.runId b.envelope.now b.actors b.activeSlots b.recordSlotStart

def RegisterActorsBatch.writes (b : RegisterActorsBatch) (w : Outside) : List LeadWrite :=
  [insertRecords b.actorIds] ++ insertActors w.liveFence b.actors ++
    actorSlotRowsStatement b.slots ++
    [changePlanes (fun p => p.projectId = b.envelope.projectId && p.runId = b.runId)
      (fun _ p => { p with
        activeActorCount := p.activeActorCount + b.actors.length
        actorRecordCount := p.actorRecordCount + b.actors.length
        updatedAt := b.envelope.now }),
    changeAccounts (fun a => a.projectId = b.envelope.projectId && a.runId = b.runId)
      (fun _ a => { a with
        activeActorCount := a.activeActorCount + b.actors.length
        actorRecordCount := a.actorRecordCount + b.actors.length
        updatedAt := b.envelope.now }),
    .changeAll LeadDb.runs (fun db rows => { db with runs := rows })
      (fun _ r => r.projectId = b.envelope.projectId && r.runId = b.runId && r.status = .active)
      (fun _ r => { r with actorCount := min maxR2ActorsPerRun (r.actorCount + b.actors.length) }),
    insertElasticRecords (b.deltas.map PreparedDelta.elasticRecordId),
    insertDeltas b.deltas] ++
    insertReceipt w.liveFence
      (fun db => b.actors.length = db.actors.countP (fun a =>
        a.runId = b.runId && b.actorIds.contains a.actorId))
      (b.envelope.receipt .registerActorsBatch (.ok (.actorsRegistered b.runId b.actors)))

structure SubmitBundlesBatch where
  envelope : Envelope
  runId : String
  /-- The bundles, with the lengths of their texts. -/
  bundles : List (EventBundle × Nat)
  claims : List RunClaimRow
  exceptions : List ExceptionRow
  budget : RunBudgetRow
  entries : List BudgetEntry
  deltas : List PreparedDelta

namespace SubmitBundlesBatch

def rows (b : SubmitBundlesBatch) : List EventBundleRow :=
  b.bundles.map (fun bundle => bundle.1.row b.envelope b.runId bundle.2)

def bundleIds (b : SubmitBundlesBatch) : List String :=
  b.bundles.map (fun bundle => bundle.1.bundleId)

def addedBytes (b : SubmitBundlesBatch) : Nat :=
  (b.bundles.map Prod.snd).sum

/-- The rows of the bundles hold that the fence is good whether it is or not, which
    the receipt asks again. -/
def writes (b : SubmitBundlesBatch) (w : Outside) : List LeadWrite :=
  [insertRecords (b.bundleIds ++ b.exceptions.map ExceptionRow.exceptionId)] ++
    insertBundles true b.rows ++
    [insertClaims b.claims,
    insertElasticRecords (b.entries.map BudgetEntry.entryId ++
      b.deltas.map PreparedDelta.elasticRecordId),
    countBundles b.envelope.projectId b.runId b.bundles.length b.addedBytes,
    changeAccounts (fun a => a.projectId = b.envelope.projectId && a.runId = b.runId)
      (fun _ a => { a with
        acceptedBundleCount := a.acceptedBundleCount + b.bundles.length
        updatedAt := b.envelope.now }),
    insertDeltas b.deltas] ++
    accountEntries
      (fun budget => budget.projectId = b.envelope.projectId && budget.runId = b.runId)
      b.envelope.now b.budget.accountingVersion b.budget.logicalUnitsUsed
      b.budget.costMicrounitsUsed b.entries ++
    insertExceptions w.liveFence b.exceptions ++
    insertReceipt w.liveFence
      (fun db => db.bundles.countP (fun b' => b'.runId = b.runId &&
        b.bundleIds.contains b'.bundleId) = b.bundles.length)
      (b.envelope.receipt .submitBundlesBatch (.ok (.bundlesSubmitted b.runId b.bundleIds)))

end SubmitBundlesBatch

structure RecoverActorBatch where
  envelope : Envelope
  runId : String
  abandonedActorId : String
  /-- Whether the slot of the abandoned actor was active when it was read. -/
  abandonedSlotActive : Bool
  workItemId : String
  registration : ActorRegistrationInput
  leaseExpiresAt : Nat
  replacementActiveSlot : Nat
  recordSlotStart : Nat
  recoveryId : String
  reason : RecoveryReason
  detectedAt : Nat
  deltas : List PreparedDelta

def RecoverActorBatch.replacement (b : RecoverActorBatch) : ActorRow :=
  b.registration.row b.envelope b.runId b.workItemId b.leaseExpiresAt

def RecoverActorBatch.recovery (b : RecoverActorBatch) : ActorRecoveryRow :=
  { recoveryId := b.recoveryId
    projectId := b.envelope.projectId
    runId := b.runId
    abandonedActorId := b.abandonedActorId
    replacementActorId := b.registration.actorId
    reason := b.reason
    detectedAt := b.detectedAt
    recoveredAt := b.envelope.now }

def RecoverActorBatch.slots (b : RecoverActorBatch) : List ActorSlotRow :=
  actorSlots b.runId b.envelope.now [b.replacement] [b.replacementActiveSlot] b.recordSlotStart

/-- How many active slots the plane gives up for the abandoned actor. -/
def RecoverActorBatch.released (b : RecoverActorBatch) : Nat :=
  if b.abandonedSlotActive then 1 else 0

def RecoverActorBatch.writes (b : RecoverActorBatch) (w : Outside) : List LeadWrite :=
  [.changeAll LeadDb.actors (fun db rows => { db with actors := rows })
      (fun _ a => a.actorId = b.abandonedActorId && a.runId = b.runId &&
        (a.status = .active || a.status = .expired))
      (fun _ a => { a with
        status := if b.reason = .expired then .expired else .revoked
        revokedAt := if b.reason = .expired then none else some b.envelope.now }),
    releaseSlots (fun s => s.runId = b.runId && s.actorId = b.abandonedActorId),
    .updateAll LeadDb.planes (fun db rows => { db with planes := rows })
      (fun _ p => p.runId = b.runId)
      (fun _ p => { p with
        activeActorCount := p.activeActorCount - b.released, updatedAt := b.envelope.now })
      (fun _ p => b.released ≤ p.activeActorCount && p.createdAt ≤ b.envelope.now) .check,
    insertRecords [b.registration.actorId]] ++
    insertActors w.liveFence [b.replacement] ++ actorSlotRowsStatement b.slots ++
    [changePlanes (fun p => p.runId = b.runId)
      (fun _ p => { p with
        activeActorCount := p.activeActorCount + 1
        actorRecordCount := p.actorRecordCount + 1
        updatedAt := b.envelope.now }),
    changeAccounts (fun a => a.runId = b.runId)
      (fun _ a => { a with
        activeActorCount := a.activeActorCount + (1 - b.released)
        actorRecordCount := a.actorRecordCount + 1
        updatedAt := b.envelope.now }),
    insertElasticRecords (b.recoveryId :: b.deltas.map PreparedDelta.elasticRecordId),
    .require (fun _ => b.detectedAt ≤ b.envelope.now &&
      b.abandonedActorId ≠ b.registration.actorId) .check,
    .insertAll LeadDb.recoveries (fun db rows => { db with recoveries := rows })
      (fun rows r => rows.all (fun r' => r'.recoveryId ≠ r.recoveryId &&
        !(r'.runId = r.runId && r'.abandonedActorId = r.abandonedActorId)))
      (fun _ => [b.recovery]) (.unique .recovery),
    .require (fun db => db.actors.any (fun a => a.actorId = b.abandonedActorId))
      .foreignKey,
    insertDeltas b.deltas] ++
    insertReceipt w.liveFence (fun _ => true)
      (b.envelope.receipt .recoverActor (.ok (.actorRecovered b.recovery)))

structure SubmitBudgetEntryBatch where
  envelope : Envelope
  entry : BudgetEntry
  budget : RunBudgetRow
  deltas : List PreparedDelta

def SubmitBudgetEntryBatch.writes (b : SubmitBudgetEntryBatch) (w : Outside) : List LeadWrite :=
  [insertElasticRecords (b.entry.entryId :: b.deltas.map PreparedDelta.elasticRecordId)] ++
    accountEntry (fun _ => true) b.envelope.now b.budget.accountingVersion
      (b.budget.logicalUnitsUsed + b.entry.logicalUnits)
      (b.budget.costMicrounitsUsed + b.entry.costMicrounits) b.entry ++
    [insertDeltas b.deltas] ++
    insertReceipt w.liveFence (fun _ => true)
      (b.envelope.receipt .submitBudgetEntry (.ok (.budgetEntrySubmitted b.entry.entryId)))

/-- Actors that were found to have expired while they held an active slot. -/
structure ReconcileBatch where
  projectId : String
  runId : String
  now : Nat
  ids : List String

/-- The counters are taken anew from the slots. -/
def ReconcileBatch.writes (b : ReconcileBatch) : List LeadWrite :=
  [.changeAll LeadDb.actors (fun db rows => { db with actors := rows })
      (fun _ a => a.projectId = b.projectId && a.runId = b.runId && a.status = .active &&
        a.expiresAt ≤ b.now && b.ids.contains a.actorId)
      (fun _ a => { a with status := .expired }),
    releaseSlots (fun s => s.runId = b.runId && b.ids.contains s.actorId),
    changePlanes (fun p => p.projectId = b.projectId && p.runId = b.runId)
      (fun db p => { p with activeActorCount := activeSlotCount db p.runId, updatedAt := b.now }),
    changeAccounts (fun a => a.projectId = b.projectId && a.runId = b.runId)
      (fun db a => { a with activeActorCount := activeSlotCount db a.runId, updatedAt := b.now })]

end Mdevolved.Lead
