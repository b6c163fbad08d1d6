import Mdevolved.Policy.Tables

/-!
# Batches of the Policy

What the functions of the policy write, and what is written around them. A
mutation of the lead ends with a receipt that is only admitted while the lease it
was authorized under is still current, so a batch that goes through went through
under that lease. Scheduled requests are added unless there is one already, and a
clock of a schedule is moved only from the value it had when it was read.

Which grants there are is decided elsewhere, so whether the grant of a lead is
still in force comes from outside. So does the clock of the database.

## Main definitions

* `Outside`: What is decided elsewhere.
* `PreparedRecord`: A record with the object it is stored in.
* `RequestBatch`, `DrillBatch`, `ActivateBatch`: The batches.
* `Advance`: A clock of a schedule is moved.
* `Surrounding`: What happens around the policy.
-/

namespace Mdevolved.Policy

open Batch (Outcome Write)
open Lead (WorkItemStatus)

/-- What is decided elsewhere: what becomes of a request, whether the grant of the
    caller and that of the holder of the lease are in force, whether the texts that a
    binding was made from are as they were, and what the clock of the database shows. -/
structure Outside where
  outcome : Outcome
  problem : Option LeadProblemCode
  grantValid : Bool
  holderValid : Bool
  verified : Bool
  epoch : Int

abbrev PolicyWrite := Write PolicyDb PolicyError

/-! ## Records -/

structure PreparedRecord where
  bodyObjectKey : String
  byteLength : Nat
  contentSha256 : String
  operationalRecordId : String
  portableObjectId : String
  record : PolicyOperationalRecord
  restoredAt : Option Int
  retentionTier : RetentionTier
  retainUntil : Int

def PreparedRecord.row (p : PreparedRecord) : OperationalRecordRow :=
  { operationalRecordId := p.operationalRecordId, recordType := p.record.recordType
    projectId := p.record.projectId, runId := p.record.runId
    portableObjectId := p.portableObjectId, contentSha256 := p.contentSha256
    byteLength := p.byteLength, bodyObjectKey := p.bodyObjectKey
    receivedAt := p.record.receivedAt, restoredAt := p.restoredAt
    retentionTier := p.retentionTier, retainUntil := p.retainUntil }

def insertPolicyOperationalRecord (p : PreparedRecord) : PolicyWrite :=
  .insertAll PolicyDb.records (fun db rows => { db with records := rows })
    OperationalRecordRow.admits (fun _ => [p.row]) .constraint

def insertOperationalDependencies (rows : List DependencyRow) : PolicyWrite :=
  .insertAll PolicyDb.dependencies (fun db rows => { db with dependencies := rows })
    DependencyRow.admits (fun _ => rows) .constraint

/-! ## Scheduled requests -/

/-- The projection of evidence that something was requested on a schedule. -/
def OperationalEvidence.requestRow (e : OperationalEvidence) : Option RequestRow :=
  match e.detail.request, e.scheduleId with
  | some (kind, window, dueAt), some scheduleId => some
      { requestId := e.evidenceId, operationalRecordId := e.evidenceId, projectId := e.projectId
        scheduleId := scheduleId, requestKind := kind, scheduleWindow := window, dueAt := dueAt
        status := .pending, createdAt := e.occurredAt, completedAt := none }
  | _, _ => none

/-- The projection of an integrity scan. -/
def OperationalEvidence.reportRow (e : OperationalEvidence) : Option IntegrityReportRow :=
  match e.detail with
  | .integrityScan coverage bodies records mismatched missing => some
      { evidenceId := e.evidenceId, operationalRecordId := e.evidenceId, projectId := e.projectId
        coverage := coverage, inspectedRecordCount := records, inspectedBodyCount := bodies
        missingCount := missing, mismatchedCount := mismatched
        status := if e.status = .ok then .ok else .degraded, measuredAt := e.occurredAt }
  | _ => none

/-- A request is added unless the constraints do not admit it. -/
def insertOrIgnore (rows : List RequestRow) (r : RequestRow) : List RequestRow :=
  if RequestRow.admits rows r then rows ++ [r] else rows

def operationalEvidenceProjection (e : OperationalEvidence) : List PolicyWrite :=
  [.always (fun db => { db with requests := e.requestRow.elim db.requests (insertOrIgnore db.requests) }),
    .insertAll PolicyDb.reports (fun db rows => { db with reports := rows })
      IntegrityReportRow.admits (fun _ => e.reportRow.toList) .constraint]

structure RequestBatch where
  prepared : PreparedRecord
  evidence : OperationalEvidence
  dependencies : List DependencyRow

def RequestBatch.writes (b : RequestBatch) : List PolicyWrite :=
  insertPolicyOperationalRecord b.prepared ::
    (operationalEvidenceProjection b.evidence ++ [insertOperationalDependencies b.dependencies])

/-- A clock of a schedule is moved from the window it showed. -/
structure Advance where
  scheduleId : String
  kind : RequestKind
  window : Int
  value : Int

def Advance.write (a : Advance) : PolicyWrite :=
  .updateAll PolicyDb.schedules (fun db rows => { db with schedules := rows })
    (fun _ s => s.scheduleId = a.scheduleId && s.next a.kind = a.window)
    (fun _ s => { s.setNext a.kind a.value with revision := s.revision + 1 })
    (fun _ _ => 0 ≤ a.value) .constraint

def touchClock (scheduledTime now : Int) : PolicyWrite :=
  .always (fun db => { db with jobClock :=
    { lastScheduledTime := max db.jobClock.lastScheduledTime scheduledTime
      lastCompletedAt := max db.jobClock.lastCompletedAt now } })

/-! ## Mutations of the lead -/

structure Fence where
  leaseId : String
  fencingToken : Nat

/-- The lease of a project is the one of the fence, and has not expired. -/
def LeaseRow.current (l : LeaseRow) (projectId grantId : String) (fence : Fence) (now : Int) :
    Bool :=
  l.projectId = projectId && l.status = .active && now < l.expiresAt &&
    l.leaseId = fence.leaseId && l.fencingToken = fence.fencingToken && l.holderGrantId = grantId

/-- What `LIVE_FENCE_SQL` asks. -/
def liveFence (db : PolicyDb) (w : Outside) (projectId grantId : String) (fence : Fence)
    (now : Int) : Bool :=
  db.leases.any (fun l => l.current projectId grantId fence now) &&
    db.projects.any (fun p => p.projectId = projectId && p.status = .active) && w.grantValid

/-- The receipt of a mutation, admitted only while the fence and what is asked besides
    hold. -/
def insertReceipt (row : OperationReceiptRow) (holds : PolicyDb → Bool) : List PolicyWrite :=
  [.require holds .constraint,
    .insertAll PolicyDb.receipts (fun db rows => { db with receipts := rows })
      OperationReceiptRow.admits (fun _ => [row]) .constraint]

structure DrillBatch where
  prepared : PreparedRecord
  receipt : ContinuityReceipt
  pointSha256 : String
  requestId : String
  projectId : String
  now : Int
  fence : Fence
  grantId : String
  idempotencyKeySha256 : String
  requestSha256 : String

namespace DrillBatch

def receiptRow (b : DrillBatch) : DrillReceiptRow :=
  { receiptId := b.receipt.receiptId, operationalRecordId := b.receipt.receiptId
    projectId := b.receipt.projectId, drillId := b.receipt.drillId
    restoredContinuityPointId := b.receipt.restoredContinuityPointId, outcome := b.receipt.outcome
    emittedAt := b.receipt.emittedAt }

def dependency (b : DrillBatch) : DependencyRow :=
  { operationalRecordId := b.receipt.receiptId
    dependencyId := b.receipt.restoredContinuityPointId, dependencyKind := .record
    contentSha256 := some b.pointSha256 }

def operationReceipt (b : DrillBatch) : OperationReceiptRow :=
  { grantId := b.grantId, operation := "complete_continuity_drill"
    idempotencyKeySha256 := b.idempotencyKeySha256, requestSha256 := b.requestSha256
    projectId := b.projectId, sourceLeaseId := b.fence.leaseId
    sourceFencingToken := b.fence.fencingToken, receivedAt := b.now }

/-- A request that the batch completes. -/
def completes (b : DrillBatch) (r : RequestRow) : Bool :=
  r.requestId = b.requestId && r.projectId = b.projectId && r.isOpen

/-- What the receipt asks besides the fence: the request was completed just now, and
    there is the receipt of the drill. -/
def settled (b : DrillBatch) (db : PolicyDb) : Bool :=
  db.requests.any (fun r => r.requestId = b.requestId && r.projectId = b.projectId &&
      r.status = .completed && r.completedAt = some b.now) &&
    db.drillReceipts.any (fun r => r.receiptId = b.receipt.receiptId && r.drillId = b.requestId)

def writes (b : DrillBatch) (w : Outside) : List PolicyWrite :=
  [insertPolicyOperationalRecord b.prepared,
    .insertAll PolicyDb.drillReceipts (fun db rows => { db with drillReceipts := rows })
      DrillReceiptRow.admits (fun _ => [b.receiptRow]) .constraint,
    insertOperationalDependencies [b.dependency],
    .changeAll PolicyDb.requests (fun db rows => { db with requests := rows })
      (fun _ r => b.completes r)
      (fun _ r => { r with status := .completed, completedAt := some b.now })] ++
    insertReceipt b.operationReceipt (fun db =>
      liveFence db w b.projectId b.grantId b.fence b.now && b.settled db)

end DrillBatch

/-! ## Activation of a binding -/

structure ActivateBatch where
  prepared : List PreparedRecord
  existingBindingId : Option String
  binding : PolicyBinding
  schedule : OperationalSchedule
  projectVersionSha256 : String
  now : Int

namespace ActivateBatch

def bindingRow (b : ActivateBatch) : BindingRow :=
  { bindingId := b.binding.bindingId, operationalRecordId := b.binding.bindingId
    projectId := b.binding.projectId, projectVersionId := b.binding.projectVersionId
    policyId := b.binding.policyId, policySha256 := b.binding.policySha256
    checkpointIntervalSeconds := b.binding.checkpointIntervalSeconds
    drillIntervalSeconds := b.binding.drillIntervalSeconds
    soloVerifiedAllowed := b.binding.soloVerifiedOwnerConsent, status := .active
    activatedAt := b.binding.activatedAt, supersededAt := none }

def scheduleRow (b : ActivateBatch) : ScheduleRow :=
  { scheduleId := b.schedule.scheduleId, operationalRecordId := b.schedule.scheduleId
    projectId := b.schedule.projectId, policyBindingId := b.schedule.policyBindingId
    status := .active, checkpointIntervalSeconds := b.schedule.checkpointIntervalSeconds
    drillIntervalSeconds := b.schedule.drillIntervalSeconds
    nextCheckpointAt := b.schedule.nextCheckpointAt, nextDrillAt := b.schedule.nextDrillAt
    revision := 0, createdAt := b.schedule.createdAt }

def dependencies (b : ActivateBatch) : List DependencyRow :=
  [{ operationalRecordId := b.binding.bindingId, dependencyId := b.binding.projectVersionId
     dependencyKind := .record, contentSha256 := some b.projectVersionSha256 },
    { operationalRecordId := b.binding.bindingId, dependencyId := b.binding.policyId
      dependencyKind := .record, contentSha256 := some b.binding.policySha256 },
    { operationalRecordId := b.schedule.scheduleId, dependencyId := b.binding.bindingId
      dependencyKind := .operational, contentSha256 := none }]

/-- The binding that was active is superseded, and its schedule paused. -/
def supersede (b : ActivateBatch) : List PolicyWrite :=
  match b.existingBindingId with
  | none => []
  | some bindingId =>
      [.changeAll PolicyDb.schedules (fun db rows => { db with schedules := rows })
          (fun _ s => s.projectId = b.binding.projectId && s.policyBindingId = bindingId &&
            s.status = .active)
          (fun _ s => { s with status := .paused }),
        .changeAll PolicyDb.bindings (fun db rows => { db with bindings := rows })
          (fun _ r => r.projectId = b.binding.projectId && r.bindingId = bindingId &&
            r.status = .active)
          (fun _ r => { r with status := .superseded, supersededAt := some b.now })]

def writes (b : ActivateBatch) : List PolicyWrite :=
  b.supersede ++ b.prepared.map insertPolicyOperationalRecord ++
    [.insertAll PolicyDb.bindings (fun db rows => { db with bindings := rows })
        BindingRow.admits (fun _ => [b.bindingRow]) .constraint,
      .insertAll PolicyDb.schedules (fun db rows => { db with schedules := rows })
        ScheduleRow.admits (fun _ => [b.scheduleRow]) .constraint,
      insertOperationalDependencies b.dependencies]

end ActivateBatch

/-! ## What happens around the policy -/

/-- A checkpoint that is acknowledged. -/
structure PointBatch where
  point : PointRow
  grantId : String
  references : List ReferenceRow

/-- An edit of the brief of a project. -/
structure BriefBatch where
  projectId : String
  workItemId : String
  expectedProjectVersionId : String
  expectedWorkItemVersionId : String
  nextProjectVersionId : String
  nextWorkItemVersionId : String
  records : List CollaborationRecordRow
  references : List ReferenceRow

inductive Surrounding
  | createProject (row : ProjectRow)
  | createWorkItem (row : WorkItemRow)
  | insertRecord (row : CollaborationRecordRow) (references : List ReferenceRow)
  | insertPolicy (row : PolicyRow)
  | insertOperationRecord (row : BodyRow)
  | insertElasticRecord (row : BodyRow)
  | insertContentObject (row : ContentObjectRow)
  | putBody (object : StoredObject)
  | updateBrief (batch : BriefBatch)
  | applyOwnerRecordAction (recordId : String) (disposition : Disposition)
  | setArchived (projectId : String) (archived : Bool)
  | closeWorkItem (workItemId : String)
  | reopenWorkItem (projectId workItemId : String)
  | claimLease (projectId leaseId grantId : String) (now expiresAt : Int)
  | renewLease (projectId grantId : String) (fence : Fence) (now expiresAt : Int)
  | revokeLease (projectId : String)
  | acknowledgePoint (batch : PointBatch)

/-- The packet of a work item that was received last. -/
def latestPacket (db : PolicyDb) (projectId workItemId : String) : Option String :=
  (((db.collaborationRecords.filter (fun r => r.projectId = some projectId &&
    r.workItemId = some workItemId && r.recordType = .workPacket)).insertionSort (fun r r' =>
      r'.receivedAt < r.receivedAt ∨ r'.receivedAt = r.receivedAt ∧ r'.id ≤ r.id)).head?).map
        CollaborationRecordRow.id

/-- The checkpoint of a project that none follows. -/
def latestPoint (db : PolicyDb) (projectId : String) : Option PointRow :=
  db.points.find? (fun p => p.projectId = projectId &&
    db.points.all (fun child => child.projectId ≠ p.projectId ||
      child.parentKey ≠ p.continuityPointId))

namespace PointBatch

/-- A checkpoint is acknowledged under the current lease, of the project and work item
    as they are, and follows the last one. -/
def valid (b : PointBatch) (w : Outside) (db : PolicyDb) : Bool :=
  db.leases.any (fun l => l.current b.point.projectId b.grantId
      ⟨b.point.sourceLeaseId.getD "", b.point.sourceFencingToken⟩ w.epoch) && w.grantValid &&
    db.projects.any (fun p => p.projectId = b.point.projectId && p.status = .active &&
      p.activeProjectVersionId = b.point.projectVersionId &&
      p.activeKnowledgeSpaceVersionId = b.point.knowledgeSpaceVersionId) &&
    db.workItems.any (fun i => i.workItemId = b.point.workItemId &&
      i.projectId = b.point.projectId && i.status = .opened &&
      i.activeWorkItemVersionId = b.point.workItemVersionId) &&
    latestPacket db b.point.projectId b.point.workItemId = some b.point.workPacketId &&
    b.point.parentKey = ((latestPoint db b.point.projectId).map
      PointRow.continuityPointId).getD "root" && b.point.restoredAt.isNone

def writes (b : PointBatch) (w : Outside) : List PolicyWrite :=
  [.require (b.valid w) .constraint,
    .insertAll PolicyDb.points (fun db rows => { db with points := rows }) PointRow.admits
      (fun _ => [b.point]) .constraint,
    .always (fun db => { db with pointReferences := db.pointReferences ++ b.references })]

end PointBatch

namespace BriefBatch

/-- The guard of the batch adds the project again, which fails, where the project or
    one of its work items is of another version than expected. -/
def stale (b : BriefBatch) (db : PolicyDb) : Bool :=
  db.projects.any (fun p => p.projectId = b.projectId && db.workItems.any (fun i =>
    i.projectId = p.projectId && (p.activeProjectVersionId ≠ b.expectedProjectVersionId ||
      i.activeWorkItemVersionId ≠ b.expectedWorkItemVersionId)))

def writes (b : BriefBatch) : List PolicyWrite :=
  [.require (fun db => !b.stale db) .constraint,
    .insertAll PolicyDb.collaborationRecords (fun db rows => { db with collaborationRecords := rows })
      (fresh CollaborationRecordRow.id) (fun _ => b.records) .constraint,
    .always (fun db => { db with
      collaborationReferences := db.collaborationReferences ++ b.references }),
    .changeAll PolicyDb.projects (fun db rows => { db with projects := rows })
      (fun _ p => p.projectId = b.projectId &&
        p.activeProjectVersionId = b.expectedProjectVersionId)
      (fun _ p => { p with activeProjectVersionId := b.nextProjectVersionId }),
    .changeAll PolicyDb.workItems (fun db rows => { db with workItems := rows })
      (fun _ i => i.projectId = b.projectId && i.workItemId = b.workItemId &&
        i.activeWorkItemVersionId = b.expectedWorkItemVersionId)
      (fun _ i => { i with activeWorkItemVersionId := b.nextWorkItemVersionId })]

end BriefBatch

/-- A lease that may be taken over: it was revoked, has expired, or its holder has no
    grant any more. -/
def LeaseRow.lapsed (l : LeaseRow) (w : Outside) (now : Int) : Bool :=
  l.status = .revoked || l.expiresAt ≤ now || !w.holderValid

/-- A lease under a new holder. -/
def LeaseRow.takeOver (l : LeaseRow) (leaseId grantId : String) (now expiresAt : Int) : LeaseRow :=
  { l with
    leaseId := leaseId, holderGrantId := grantId, fencingToken := l.fencingToken + 1
    status := .active, claimedAt := now, expiresAt := expiresAt }

/-- A lease is claimed where there is none, or the one there is has lapsed. -/
def claimLeases (leases : List LeaseRow) (w : Outside) (projectId leaseId grantId : String)
    (now expiresAt : Int) : List LeaseRow :=
  if leases.any (fun l => l.projectId = projectId) then
    Table.update (fun l => l.projectId = projectId && l.lapsed w now)
      (fun l => l.takeOver leaseId grantId now expiresAt) leases
  else leases ++
    [{ projectId := projectId, leaseId := leaseId, holderGrantId := grantId, fencingToken := 1
       status := .active, claimedAt := now, expiresAt := expiresAt }]

/-- An object is put where there is none under its key; one that is there has to have
    the same size and hash. -/
def putObject (object : StoredObject) (message : String) : PolicyWrite :=
  { fails := fun db => if db.objects.all (fun o => o.key ≠ object.key ||
        (o.size = object.size && o.sha256 = object.sha256)) then none else some (.thrown message)
    update := fun db => if db.objects.any (fun o => o.key = object.key) then db
      else { db with objects := db.objects ++ [object] } }

def Surrounding.writes (op : Surrounding) (w : Outside) : List PolicyWrite :=
  match op with
  | createProject row =>
      [.insertAll PolicyDb.projects (fun db rows => { db with projects := rows })
        (fresh ProjectRow.projectId) (fun _ => [row]) .constraint]
  | createWorkItem row =>
      [.insertAll PolicyDb.workItems (fun db rows => { db with workItems := rows })
        (fresh WorkItemRow.workItemId) (fun _ => [row]) .constraint]
  | insertRecord row references =>
      [.insertAll PolicyDb.collaborationRecords
        (fun db rows => { db with collaborationRecords := rows })
        (fresh CollaborationRecordRow.id) (fun _ => [row]) .constraint,
        .always (fun db => { db with
          collaborationReferences := db.collaborationReferences ++ references })]
  | insertPolicy row =>
      [.insertAll PolicyDb.policies (fun db rows => { db with policies := rows })
        (fresh PolicyRow.policyId) (fun _ => [row]) .constraint]
  | insertOperationRecord row =>
      [.insertAll PolicyDb.operationRecords (fun db rows => { db with operationRecords := rows })
        (fresh BodyRow.id) (fun _ => [row]) .constraint]
  | insertElasticRecord row =>
      [.insertAll PolicyDb.elasticRecords (fun db rows => { db with elasticRecords := rows })
        (fresh BodyRow.id) (fun _ => [row]) .constraint]
  | insertContentObject row =>
      [.insertAll PolicyDb.contentObjects (fun db rows => { db with contentObjects := rows })
        (fresh ContentObjectRow.id) (fun _ => [row]) .constraint]
  | putBody object => [putObject object "collaboration_object_collision"]
  | updateBrief batch => batch.writes
  | applyOwnerRecordAction recordId disposition =>
      [.changeAll PolicyDb.collaborationRecords
        (fun db rows => { db with collaborationRecords := rows })
        (fun _ r => r.id = recordId) (fun _ r => { r with disposition := disposition })]
  | setArchived projectId archived =>
      [.changeAll PolicyDb.projects (fun db rows => { db with projects := rows })
        (fun _ p => p.projectId = projectId)
        (fun _ p => { p with status := if archived then .archived else .active })]
  | closeWorkItem workItemId =>
      [.changeAll PolicyDb.workItems (fun db rows => { db with workItems := rows })
        (fun _ i => i.workItemId = workItemId && i.status = .opened)
        (fun _ i => { i with status := .closed })]
  | reopenWorkItem projectId workItemId =>
      [.changeAll PolicyDb.workItems (fun db rows => { db with workItems := rows })
        (fun db i => i.workItemId = workItemId && i.projectId = projectId && i.status = .closed &&
          db.projects.any (fun p => p.projectId = projectId && p.status = .active))
        (fun _ i => { i with status := .opened })]
  | claimLease projectId leaseId grantId now expiresAt =>
      [.always (fun db => { db with
        leases := claimLeases db.leases w projectId leaseId grantId now expiresAt })]
  | renewLease projectId grantId fence now expiresAt =>
      [.changeAll PolicyDb.leases (fun db rows => { db with leases := rows })
        (fun _ l => l.current projectId grantId fence now)
        (fun _ l => { l with expiresAt := expiresAt })]
  | revokeLease projectId =>
      [.changeAll PolicyDb.leases (fun db rows => { db with leases := rows })
        (fun _ l => l.projectId = projectId && l.status = .active)
        (fun _ l => { l with status := .revoked })]
  | acknowledgePoint batch => batch.writes w

end Mdevolved.Policy
