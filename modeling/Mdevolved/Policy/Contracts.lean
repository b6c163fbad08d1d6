import Mdevolved.Lead.Schema

/-!
# Records of the Policy

What the policy of a project keeps of its operation: the binding that the owner
activates, the decisions on its Runs, the schedule of its checkpoints and drills,
evidence of what was requested and scanned, and the receipts of drills. Each kind
of record has a schema, and what a schema asks across the fields of a record is a
condition on the record here. Fields that a schema lets have one value only are
left out, and so are formats of identifiers and hashes.

Records are stored as canonical texts under the hash of the text. A text that was
made from a record stands for the record, so an object contains one of the records
that are known here, or a text that is none.

## Main definitions

* `PolicyOperationalRecord`: The records, with `valid` for the schema.
* `ContinuityPoint`: The checkpoint of a lead.
* `Body`: What an object contains.
* `PolicyFormat`: The hashes and sizes of what is stored.
* `PolicyFormat.deterministicUuid`: An identifier made from a text.
-/

namespace Mdevolved.Policy

open Lead (RunPurpose CompletionMode)

def maxPolicyEvidenceRefs : Nat := 64

def maxOperationalRecordBytes : Nat := 1024 * 1024

inductive RetentionTier
  | hot | warm | cold | quarantine
  deriving DecidableEq

/-! ## Bindings and schedules -/

structure PolicyBinding where
  bindingId : String
  activatedAt : Int
  checkpointIntervalSeconds : Int
  drillIntervalSeconds : Int
  /-- Whether the binding has a completion policy, which then allows a Run to be
      completed by one actor. -/
  soloVerifiedOwnerConsent : Bool
  ownerPolicyInputRecordId : String
  ownerPolicyInputSha256 : String
  policyId : String
  policySha256 : String
  projectId : String
  projectVersionId : String
  deriving DecidableEq

def validCheckpointInterval (seconds : Int) : Bool :=
  300 ≤ seconds && seconds ≤ 86400

def validDrillInterval (seconds : Int) : Bool :=
  3600 ≤ seconds && seconds ≤ 30 * 24 * 60 * 60

def PolicyBinding.valid (b : PolicyBinding) : Bool :=
  0 ≤ b.activatedAt && validCheckpointInterval b.checkpointIntervalSeconds &&
    validDrillInterval b.drillIntervalSeconds && b.ownerPolicyInputRecordId = b.projectVersionId

structure OperationalSchedule where
  scheduleId : String
  checkpointIntervalSeconds : Int
  drillIntervalSeconds : Int
  nextCheckpointAt : Int
  nextDrillAt : Int
  policyBindingId : String
  projectId : String
  createdAt : Int
  deriving DecidableEq

def OperationalSchedule.valid (s : OperationalSchedule) : Bool :=
  0 ≤ s.createdAt && validCheckpointInterval s.checkpointIntervalSeconds &&
    validDrillInterval s.drillIntervalSeconds && 0 ≤ s.nextCheckpointAt && 0 ≤ s.nextDrillAt

/-! ## Decisions -/

inductive PolicyExceptionAction
  | authorityExpansion | policyEditing | selfApproval | destructiveAction | protectedPathAccess
  | conflictingEvidence | budgetExhaustion | integrityFailure | unsupportedUpgrade
  | unsupportedRollback
  deriving DecidableEq

inductive PolicyGateCheckKey
  | ownerAuthoredPolicy | runIdentity | purposeEvidence | independentReview | continuityPoint
  | noBlockingException | noEvidenceConflict | budgetWithinPolicy | integrityValid
  | noOwnerOnlyAction
  deriving DecidableEq

def gateCheckKeys : List PolicyGateCheckKey :=
  [.ownerAuthoredPolicy, .runIdentity, .purposeEvidence, .independentReview, .continuityPoint,
    .noBlockingException, .noEvidenceConflict, .budgetWithinPolicy, .integrityValid,
    .noOwnerOnlyAction]

inductive PolicyEvidenceKind
  | acceptedContent | eventBundle | independentReview | continuityPoint | budgetVersion
  | policyBinding
  deriving DecidableEq

structure PolicyEvidenceRef where
  contentSha256 : String
  id : String
  kind : PolicyEvidenceKind
  deriving DecidableEq

structure PolicyGateCheck where
  evidenceRefs : List String
  key : PolicyGateCheckKey
  passed : Bool
  deriving DecidableEq

inductive GateProfile
  | researchCompletion | codingCompletion
  deriving DecidableEq

def gateProfileOf : RunPurpose → GateProfile
  | .research => .researchCompletion
  | .coding => .codingCompletion

inductive DecisionOutcome
  | allow | exception
  deriving DecidableEq

structure PolicyDecision where
  decisionId : String
  acceptedBundleCount : Nat
  checks : List PolicyGateCheck
  completionMode : CompletionMode
  continuityPointId : Option String
  evaluatedAt : Int
  evidenceFingerprint : String
  evidenceRefs : List PolicyEvidenceRef
  exceptionReason : Option PolicyExceptionAction
  gateProfile : GateProfile
  outcome : DecisionOutcome
  policyBindingId : String
  policyId : String
  projectId : String
  projectVersionId : String
  purpose : RunPurpose
  requestedOwnerActions : List PolicyExceptionAction
  runId : String
  workItemId : String
  workPacketId : String
  deriving DecidableEq

namespace PolicyDecision

def allPassed (d : PolicyDecision) : Bool :=
  d.checks.all PolicyGateCheck.passed

/-- What `policyDecisionSchema` checks. -/
def valid (d : PolicyDecision) : Bool :=
  0 ≤ d.evaluatedAt && d.evidenceRefs.length ≤ maxPolicyEvidenceRefs &&
    d.checks.all (fun c => c.evidenceRefs.length ≤ maxPolicyEvidenceRefs) &&
    d.requestedOwnerActions.length ≤ 10 && d.checks.length = gateCheckKeys.length &&
    (d.checks.map PolicyGateCheck.key).Nodup &&
    gateCheckKeys.all (fun key => (d.checks.map PolicyGateCheck.key).contains key) &&
    (match d.outcome with
      | .allow => d.allPassed && d.exceptionReason.isNone && d.requestedOwnerActions.isEmpty
      | .exception => !d.allPassed && d.exceptionReason.isSome) &&
    (d.completionMode ≠ .soloVerified ||
      (d.checks.find? (fun c => c.key = .independentReview)).any
        (fun c => c.passed && c.evidenceRefs.isEmpty)) &&
    d.gateProfile = gateProfileOf d.purpose &&
    (d.evidenceRefs.map (fun r => (r.kind, r.id))).Nodup

end PolicyDecision

/-! ## Evidence -/

inductive RequestKind
  | continuityPoint | continuityDrill
  deriving DecidableEq

def RequestKind.text : RequestKind → String
  | .continuityPoint => "continuity-point"
  | .continuityDrill => "continuity-drill"

inductive Coverage
  | complete | partly
  deriving DecidableEq

inductive EvidenceDetail
  | continuityPointRequest (dueAt scheduleWindow : Int)
  | continuityDrillRequest (dueAt scheduleWindow : Int)
      (sourceContinuityPointId sourceWorkItemId sourceWorkPacketId : String)
  | integrityScan (coverage : Coverage) (inspectedBodyCount inspectedRecordCount mismatchedCount
      missingCount : Nat)
  | upgradeReadiness
  | rollbackReadiness
  | managedCellHealth
  deriving DecidableEq

inductive EvidenceStatus
  | requested | ok | degraded | blocked
  deriving DecidableEq

structure OperationalEvidence where
  evidenceId : String
  detail : EvidenceDetail
  occurredAt : Int
  projectId : String
  retainUntil : Int
  retentionTier : RetentionTier
  runId : Option String
  scheduleId : Option String
  status : EvidenceStatus
  summary : String
  deriving DecidableEq

namespace EvidenceDetail

/-- The request that evidence is of: its kind, its window and when it is due. -/
def request : EvidenceDetail → Option (RequestKind × Int × Int)
  | continuityPointRequest dueAt window => some (.continuityPoint, window, dueAt)
  | continuityDrillRequest dueAt window _ _ _ => some (.continuityDrill, window, dueAt)
  | _ => none

def valid : EvidenceDetail → Bool
  | continuityPointRequest dueAt window | continuityDrillRequest dueAt window _ _ _ =>
      0 ≤ dueAt && 0 ≤ window
  | integrityScan _ bodies records mismatched missing =>
      bodies ≤ 512 && records ≤ 512 && mismatched ≤ 512 && missing ≤ 512
  | upgradeReadiness | rollbackReadiness | managedCellHealth => true

end EvidenceDetail

/-- What `operationalEvidenceSchema` checks. -/
def OperationalEvidence.valid (e : OperationalEvidence) : Bool :=
  0 ≤ e.occurredAt && 0 ≤ e.retainUntil && e.detail.valid && e.occurredAt ≤ e.retainUntil &&
    (e.detail.request.isSome = (e.status = .requested : Bool))

/-! ## Receipts of drills -/

inductive DrillOutcome
  | pass | fail
  deriving DecidableEq

structure ContinuityReceipt where
  receiptId : String
  temporaryObjectsRemoved : Nat
  drillId : String
  emittedAt : Int
  continuityAgeSeconds : Int
  recoveryChecksPassed : Nat
  recoveryChecksTotal : Nat
  recoveryQualityBps : Nat
  rpoSeconds : Int
  rtoSeconds : Int
  runtimeIndependent : Bool
  outcome : DrillOutcome
  projectId : String
  restoredContinuityPointId : String
  latestAcknowledgedPointAt : Int
  receiptEmittedAt : Int
  replacementProductiveAt : Int
  restoredPointAcknowledgedAt : Int
  simulatedLeadLossAt : Int
  deriving DecidableEq

/-- What `continuityReceiptSchema` checks. -/
def ContinuityReceipt.valid (r : ContinuityReceipt) : Bool :=
  0 ≤ r.emittedAt && 0 ≤ r.latestAcknowledgedPointAt && 0 ≤ r.receiptEmittedAt &&
    0 ≤ r.replacementProductiveAt && 0 ≤ r.restoredPointAcknowledgedAt &&
    0 ≤ r.simulatedLeadLossAt && 0 < r.recoveryChecksTotal && r.recoveryQualityBps ≤ 10000 &&
    r.latestAcknowledgedPointAt = r.restoredPointAcknowledgedAt &&
    r.latestAcknowledgedPointAt ≤ r.simulatedLeadLossAt &&
    r.simulatedLeadLossAt ≤ r.replacementProductiveAt &&
    r.restoredPointAcknowledgedAt ≤ r.receiptEmittedAt &&
    r.replacementProductiveAt ≤ r.receiptEmittedAt && r.emittedAt = r.receiptEmittedAt &&
    r.rpoSeconds = max 0 (r.simulatedLeadLossAt - r.latestAcknowledgedPointAt) &&
    r.rtoSeconds = r.replacementProductiveAt - r.simulatedLeadLossAt &&
    r.continuityAgeSeconds = r.receiptEmittedAt - r.restoredPointAcknowledgedAt &&
    r.recoveryQualityBps = 10000 * r.recoveryChecksPassed / r.recoveryChecksTotal &&
    r.recoveryChecksPassed ≤ r.recoveryChecksTotal &&
    r.runtimeIndependent =
      (r.outcome = .pass && r.recoveryChecksPassed = r.recoveryChecksTotal)

/-! ## Records -/

inductive PolicyOperationalRecord
  | binding (b : PolicyBinding)
  | decision (d : PolicyDecision)
  | schedule (s : OperationalSchedule)
  | evidence (e : OperationalEvidence)
  | receipt (r : ContinuityReceipt)
  deriving DecidableEq

inductive OperationalRecordType
  | policyBinding | policyDecision | schedule | evidence | continuityReceipt

namespace PolicyOperationalRecord

def recordId : PolicyOperationalRecord → String
  | binding b => b.bindingId
  | decision d => d.decisionId
  | schedule s => s.scheduleId
  | evidence e => e.evidenceId
  | receipt r => r.receiptId

def recordType : PolicyOperationalRecord → OperationalRecordType
  | binding _ => .policyBinding
  | decision _ => .policyDecision
  | schedule _ => .schedule
  | evidence _ => .evidence
  | receipt _ => .continuityReceipt

def projectId : PolicyOperationalRecord → String
  | binding b => b.projectId
  | decision d => d.projectId
  | schedule s => s.projectId
  | evidence e => e.projectId
  | receipt r => r.projectId

def receivedAt : PolicyOperationalRecord → Int
  | binding b => b.activatedAt
  | decision d => d.evaluatedAt
  | schedule s => s.createdAt
  | evidence e => e.occurredAt
  | receipt r => r.emittedAt

def runId : PolicyOperationalRecord → Option String
  | decision d => some d.runId
  | evidence e => e.runId
  | _ => none

def longRetentionSeconds : Int := 10 * 365 * 24 * 60 * 60

def decisionRetentionSeconds : Int := 365 * 24 * 60 * 60

/-- The tier that a record is kept in, and until when. -/
def retention : PolicyOperationalRecord → RetentionTier × Int
  | evidence e => (if e.retentionTier = .quarantine then .warm else e.retentionTier, e.retainUntil)
  | decision d => (.warm, d.evaluatedAt + decisionRetentionSeconds)
  | binding b => (.cold, b.activatedAt + longRetentionSeconds)
  | schedule s => (.cold, s.createdAt + longRetentionSeconds)
  | receipt r => (.cold, r.emittedAt + longRetentionSeconds)

/-- What `policyOperationalRecordSchema` checks. -/
def valid : PolicyOperationalRecord → Bool
  | binding b => b.valid
  | decision d => d.valid
  | schedule s => s.valid
  | evidence e => e.valid
  | receipt r => r.valid

end PolicyOperationalRecord

/-! ## Checkpoints -/

structure ContinuityPoint where
  continuityPointId : String
  knowledgeSpaceVersionId : String
  workPacketId : String
  workPacketSha256 : String
  previousContinuityPointId : Option String
  projectId : String
  projectVersionId : String
  acknowledgedAt : Int
  leadFencingToken : Nat
  workItemId : String
  workItemVersionId : String
  deriving DecidableEq

/-! ## Objects -/

/-- What an object contains: the canonical text of a record, or any other text. -/
inductive Body
  | operational (record : PolicyOperationalRecord)
  | point (point : ContinuityPoint)
  | text (text : String)
  deriving DecidableEq

/-- An object, with the size and the hash that are stored with it. -/
structure StoredObject where
  key : String
  size : Nat
  sha256 : String
  body : Body

/-- The hash of a text, and the hash and the size of what is stored. -/
structure PolicyFormat where
  sha256Hex : String → String
  contentSha256 : Body → String
  byteLength : Body → Nat

/-- The text of an identifier, made from the hash of a seed. -/
def PolicyFormat.deterministicUuid (format : PolicyFormat) (seed : String) : String :=
  let value := (((format.sha256Hex seed).toList.take 32).set 12 '4').set 16 '8'
  String.ofList (value.take 8 ++ ['-'] ++ (value.drop 8).take 4 ++ ['-'] ++
    (value.drop 12).take 4 ++ ['-'] ++ (value.drop 16).take 4 ++ ['-'] ++ value.drop 20)

end Mdevolved.Policy
