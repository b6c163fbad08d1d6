import Mdevolved.Policy.Contracts
import Mdevolved.Lib.Interface

/-!
# Tables of the Policy

The tables that the policy of a project works on: its records with what they
depend on, the bindings, schedules and requests that are projections of records,
the reports of integrity scans, the receipts of drills, and the receipts by which
a mutation is not made twice. Of the tables around them there are those that a
function of the policy reads: projects, work items, the records of a collaboration,
checkpoints, the lease of the lead, and what else has a body in storage.

Clock values are integers, since nothing promises that a clock has a sign. Rows
stand in the order they were inserted.

## Main definitions

* `PolicyDb`: The tables, and the objects in storage.
* `ScheduleRow.next`, `ScheduleRow.interval`: The two clocks of a schedule.
* `PolicyError`: What a request ends with where it does not go through.
* `OperationalRecordRow.admits` and so on: The constraints.
-/

namespace Mdevolved.Policy

open Lead (WorkItemStatus RunPurpose)

/-! ## Rows -/

structure OperationalRecordRow where
  operationalRecordId : String
  recordType : OperationalRecordType
  projectId : String
  runId : Option String
  portableObjectId : String
  contentSha256 : String
  byteLength : Nat
  bodyObjectKey : String
  receivedAt : Int
  restoredAt : Option Int
  retentionTier : RetentionTier
  retainUntil : Int

inductive DependencyKind
  | record | evidence | operational
  deriving DecidableEq

structure DependencyRow where
  operationalRecordId : String
  dependencyId : String
  dependencyKind : DependencyKind
  contentSha256 : Option String

inductive BindingStatus
  | active | superseded
  deriving DecidableEq

structure BindingRow where
  bindingId : String
  operationalRecordId : String
  projectId : String
  projectVersionId : String
  policyId : String
  policySha256 : String
  checkpointIntervalSeconds : Int
  drillIntervalSeconds : Int
  soloVerifiedAllowed : Bool
  status : BindingStatus
  activatedAt : Int
  supersededAt : Option Int

structure DecisionRow where
  decisionId : String
  operationalRecordId : String
  projectId : String
  runId : String
  acceptedBundleCount : Nat
  outcome : DecisionOutcome
  evaluatedAt : Int

inductive ScheduleStatus
  | active | paused
  deriving DecidableEq

structure ScheduleRow where
  scheduleId : String
  operationalRecordId : String
  projectId : String
  policyBindingId : String
  status : ScheduleStatus
  checkpointIntervalSeconds : Int
  drillIntervalSeconds : Int
  nextCheckpointAt : Int
  nextDrillAt : Int
  revision : Nat
  createdAt : Int
  deriving DecidableEq

namespace ScheduleRow

def next (s : ScheduleRow) : RequestKind → Int
  | .continuityPoint => s.nextCheckpointAt
  | .continuityDrill => s.nextDrillAt

def interval (s : ScheduleRow) : RequestKind → Int
  | .continuityPoint => s.checkpointIntervalSeconds
  | .continuityDrill => s.drillIntervalSeconds

def setNext (s : ScheduleRow) (kind : RequestKind) (value : Int) : ScheduleRow :=
  match kind with
  | .continuityPoint => { s with nextCheckpointAt := value }
  | .continuityDrill => { s with nextDrillAt := value }

/-- A schedule is due at one of its clocks. -/
def due (s : ScheduleRow) (scheduledTime : Int) : Bool :=
  s.status = .active && (s.nextCheckpointAt ≤ scheduledTime || s.nextDrillAt ≤ scheduledTime)

/-- The earlier of its clocks. -/
def nextAt (s : ScheduleRow) : Int :=
  min s.nextCheckpointAt s.nextDrillAt

/-- What comes first in a page of schedules. -/
def ranks (s t : ScheduleRow) : Bool :=
  s.nextAt < t.nextAt || (s.nextAt = t.nextAt && s.scheduleId ≤ t.scheduleId)

end ScheduleRow

inductive RequestStatus
  | pending | acknowledged | completed | failed
  deriving DecidableEq

structure RequestRow where
  requestId : String
  operationalRecordId : String
  projectId : String
  scheduleId : String
  requestKind : RequestKind
  scheduleWindow : Int
  dueAt : Int
  status : RequestStatus
  createdAt : Int
  completedAt : Option Int

namespace RequestRow

/-- What a request is for: a window of one of the clocks of a schedule. -/
def key (r : RequestRow) : String × RequestKind × Int :=
  (r.scheduleId, r.requestKind, r.scheduleWindow)

/-- A request that nobody has completed. -/
def isOpen (r : RequestRow) : Bool :=
  r.status = .pending || r.status = .acknowledged

end RequestRow

structure IntegrityReportRow where
  evidenceId : String
  operationalRecordId : String
  projectId : String
  coverage : Coverage
  inspectedRecordCount : Nat
  inspectedBodyCount : Nat
  missingCount : Nat
  mismatchedCount : Nat
  status : EvidenceStatus
  measuredAt : Int

structure DrillReceiptRow where
  receiptId : String
  operationalRecordId : String
  projectId : String
  drillId : String
  restoredContinuityPointId : String
  outcome : DrillOutcome
  emittedAt : Int

/-- What a mutation leaves so that it is not made again. -/
structure OperationReceiptRow where
  grantId : String
  operation : String
  idempotencyKeySha256 : String
  requestSha256 : String
  projectId : String
  sourceLeaseId : String
  sourceFencingToken : Nat
  receivedAt : Int

structure PointRow where
  continuityPointId : String
  projectId : String
  projectVersionId : String
  workItemId : String
  workItemVersionId : String
  knowledgeSpaceVersionId : String
  workPacketId : String
  previousContinuityPointId : Option String
  sourceLeaseId : Option String
  sourceFencingToken : Nat
  bodyObjectKey : String
  contentSha256 : String
  byteLength : Nat
  acknowledgedAt : Int
  restoredAt : Option Int

/-- The column by which no two checkpoints follow the same one. -/
def PointRow.parentKey (p : PointRow) : String :=
  p.previousContinuityPointId.getD "root"

inductive ProjectStatus
  | active | archived
  deriving DecidableEq

structure ProjectRow where
  projectId : String
  activeProjectVersionId : String
  activeKnowledgeSpaceVersionId : String
  status : ProjectStatus

structure WorkItemRow where
  workItemId : String
  projectId : String
  activeWorkItemVersionId : String
  status : WorkItemStatus

inductive CollaborationRecordType
  | projectVersion | workItemVersion | workPacket | other
  deriving DecidableEq

inductive Disposition
  | pending | accepted | rejected | quarantined
  deriving DecidableEq

/-- A record of the collaboration, and the disposition that its state has. -/
structure CollaborationRecordRow where
  id : String
  recordType : CollaborationRecordType
  projectId : Option String
  workItemId : Option String
  bodyObjectKey : String
  byteLength : Nat
  contentSha256 : String
  receivedAt : Int
  restoredAt : Option Int
  disposition : Disposition

/-- A record of the lead or of an elastic Run, of which the policy reads the body. -/
structure BodyRow where
  id : String
  projectId : String
  bodyObjectKey : String
  byteLength : Nat
  contentSha256 : String

/-- The policy that a version of a project was given. -/
structure PolicyRow where
  policyId : String
  projectId : String
  projectVersionId : String

structure ContentObjectRow where
  id : String
  objectKey : String
  byteLength : Nat
  contentSha256 : String

/-- A record of the collaboration or a checkpoint depends on something. -/
structure ReferenceRow where
  ownerId : String
  dependencyId : String

inductive LeaseStatus
  | active | revoked
  deriving DecidableEq

structure LeaseRow where
  projectId : String
  leaseId : String
  holderGrantId : String
  fencingToken : Nat
  status : LeaseStatus
  claimedAt : Int
  expiresAt : Int

structure JobClockRow where
  lastScheduledTime : Int
  lastCompletedAt : Int

structure PolicyDb where
  records : List OperationalRecordRow
  dependencies : List DependencyRow
  bindings : List BindingRow
  decisions : List DecisionRow
  schedules : List ScheduleRow
  requests : List RequestRow
  reports : List IntegrityReportRow
  drillReceipts : List DrillReceiptRow
  receipts : List OperationReceiptRow
  points : List PointRow
  projects : List ProjectRow
  workItems : List WorkItemRow
  collaborationRecords : List CollaborationRecordRow
  policies : List PolicyRow
  operationRecords : List BodyRow
  elasticRecords : List BodyRow
  contentObjects : List ContentObjectRow
  collaborationReferences : List ReferenceRow
  pointReferences : List ReferenceRow
  leases : List LeaseRow
  jobClock : JobClockRow
  objects : List StoredObject

def emptyDb : PolicyDb :=
  { records := [], dependencies := [], bindings := [], decisions := [], schedules := []
    requests := [], reports := [], drillReceipts := [], receipts := [], points := []
    projects := [], workItems := [], collaborationRecords := [], policies := []
    operationRecords := [], elasticRecords := [], contentObjects := []
    collaborationReferences := [], pointReferences := [], leases := [], jobClock := ⟨0, 0⟩
    objects := [] }

/-! ## Constraints -/

/-- A row is admitted where none before it has its key. -/
def fresh {ρ κ : Type} [DecidableEq κ] (key : ρ → κ) (rows : List ρ) (r : ρ) : Bool :=
  rows.all (fun r' => key r' ≠ key r)

theorem fresh_iff {ρ κ : Type} [DecidableEq κ] (key : ρ → κ) (rows : List ρ) (r : ρ) :
    fresh key rows r = true ↔ ∀ r' ∈ rows, key r' ≠ key r := by
  simp only [fresh, List.all_eq_true, decide_eq_true_eq]

def OperationalRecordRow.admits (rows : List OperationalRecordRow) (r : OperationalRecordRow) :
    Bool :=
  fresh operationalRecordId rows r && fresh portableObjectId rows r && fresh bodyObjectKey rows r &&
    0 < r.byteLength && r.byteLength ≤ 1048576 && 0 ≤ r.receivedAt && r.receivedAt ≤ r.retainUntil

def DependencyRow.admits : List DependencyRow → DependencyRow → Bool :=
  fresh (fun d => (d.operationalRecordId, d.dependencyId))

def BindingRow.admits (rows : List BindingRow) (b : BindingRow) : Bool :=
  fresh bindingId rows b && fresh operationalRecordId rows b &&
    (b.status ≠ .active || rows.all (fun b' => b'.projectId ≠ b.projectId || b'.status ≠ .active)) &&
    validCheckpointInterval b.checkpointIntervalSeconds && validDrillInterval b.drillIntervalSeconds

def ScheduleRow.admits (rows : List ScheduleRow) (s : ScheduleRow) : Bool :=
  fresh scheduleId rows s && fresh operationalRecordId rows s &&
    (s.status ≠ .active || rows.all (fun s' => s'.projectId ≠ s.projectId || s'.status ≠ .active)) &&
    validCheckpointInterval s.checkpointIntervalSeconds &&
    validDrillInterval s.drillIntervalSeconds && 0 ≤ s.nextCheckpointAt && 0 ≤ s.nextDrillAt

def RequestRow.admits (rows : List RequestRow) (r : RequestRow) : Bool :=
  fresh requestId rows r && fresh operationalRecordId rows r && fresh key rows r &&
    0 ≤ r.scheduleWindow && 0 ≤ r.dueAt && 0 ≤ r.createdAt

def IntegrityReportRow.admits (rows : List IntegrityReportRow) (r : IntegrityReportRow) : Bool :=
  fresh evidenceId rows r && fresh operationalRecordId rows r &&
    r.inspectedRecordCount ≤ 512 && r.inspectedBodyCount ≤ 512 && r.missingCount ≤ 512 &&
    r.mismatchedCount ≤ 512 && 0 ≤ r.measuredAt

def DrillReceiptRow.admits (rows : List DrillReceiptRow) (r : DrillReceiptRow) : Bool :=
  fresh receiptId rows r && fresh operationalRecordId rows r && fresh drillId rows r &&
    0 ≤ r.emittedAt

def OperationReceiptRow.admits : List OperationReceiptRow → OperationReceiptRow → Bool :=
  fresh (fun r => (r.grantId, r.operation, r.idempotencyKeySha256))

def PointRow.admits (rows : List PointRow) (p : PointRow) : Bool :=
  fresh continuityPointId rows p && fresh (fun p => (p.projectId, p.parentKey)) rows p &&
    0 < p.sourceFencingToken && 0 ≤ p.acknowledgedAt &&
    (p.restoredAt.isNone = p.sourceLeaseId.isSome : Bool)

/-! ## Errors -/

inductive PolicyProblemCode
  | evidenceInvalid | integrityMismatch | policyEditForbidden | policyNotReady | policyRequired
  | projectInvalid | runInvalid | submissionInvalid

inductive LeadProblemCode
  | grantInvalid | leaseInvalid | idempotencyConflict | integrityMismatch

/-- What a request ends with where it does not go through. -/
inductive PolicyError
  | problem (code : PolicyProblemCode)
  | lead (code : LeadProblemCode)
  | thrown (message : String)
  | constraint
  | unavailable

end Mdevolved.Policy
