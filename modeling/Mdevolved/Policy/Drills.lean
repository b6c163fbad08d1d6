import Mdevolved.Policy.Schedules

/-!
# Drills and Bindings

A lead completes a drill with a receipt. The receipt has to be of the checkpoint that
the request names, as it was acknowledged, by a lead whose lease is not the one the
checkpoint was acknowledged under, and the checkpoint has to be one that can still be
continued from. All of that is read first, and then one batch stores the receipt and
completes the request, if it is still open and the lease is still current.

The owner activates a binding, which supersedes the one before it and starts a new
schedule.

## Main definitions

* `readPolicyOperationalRecord`: A record with its body.
* `completeContinuityDrill`: The completion of a drill.
* `DrillInput.accepts`: What is asked of a receipt.
* `activateProjectPolicyBinding`: The activation of a binding.
-/

namespace Mdevolved.Policy

section

variable (format : PolicyFormat)

/-! ## Records -/

/-- What the object of a record contains. -/
def recordOf (row : OperationalRecordRow) :
    Option StoredObject → Except PolicyError PolicyOperationalRecord
  | none => .error (.thrown "operational_integrity_mismatch")
  | some object =>
      if object.size ≠ row.byteLength || object.sha256 ≠ row.contentSha256 ||
          format.contentSha256 object.body ≠ row.contentSha256 then
        .error (.thrown "operational_integrity_mismatch")
      else
        match object.body with
        | .operational r =>
            if r.valid then .ok r else .error (.thrown "operational_integrity_mismatch")
        | _ => .error (.thrown "operational_integrity_mismatch")

def readPolicyOperationalRecord (operationalRecordId : String) :
    PolicyProcess (Option PolicyOperationalRecord) := do
  let row? : Option OperationalRecordRow ← ask (.readRecordRow operationalRecordId)
  match row? with
  | none => pure none
  | some row => do
      let object ← ask (.getObject row.bodyObjectKey)
      let record ← check (recordOf format row object)
      pure (some record)

/-! ## Completion of a drill -/

structure DrillInput where
  projectId : String
  requestId : String
  receipt : ContinuityReceipt
  fence : Fence
  grantId : String
  idempotencyKey : String
  requestSha256 : String
  now : Int
  portableObjectId : String

/-- What a completion ends with: its receipt, or that of the mutation it repeats. -/
inductive DrillResult
  | completed (receipt : ContinuityReceipt)
  | replayed

namespace DrillInput

/-- What `completeContinuityDrillRequestSchema` checks. -/
def valid (input : DrillInput) : Bool :=
  input.receipt.valid && input.receipt.projectId = input.projectId &&
    input.receipt.drillId = input.requestId && 0 < input.fence.fencingToken

/-- What is asked of the record of a request: it is of the drill that was scheduled, and
    of the checkpoint of the receipt. -/
def names (input : DrillInput) (scheduled : RequestRow) (context : PointContext) :
    Option PolicyOperationalRecord → Bool
  | some (.evidence e) =>
      e.evidenceId = input.requestId && e.projectId = input.projectId &&
        e.scheduleId = some scheduled.scheduleId &&
        (match e.detail with
          | .continuityDrillRequest dueAt _ pointId workItemId workPacketId =>
              dueAt = scheduled.dueAt && pointId = input.receipt.restoredContinuityPointId &&
                workItemId = context.workItemId && workPacketId = context.workPacketId
          | _ => false)
  | _ => false

/-- What is asked of a receipt, given what was read. -/
def accepts (input : DrillInput) (scheduled : RequestRow)
    (record : Option PolicyOperationalRecord) (point : Option StoredContinuityPoint)
    (context : PointContext) : Bool :=
  input.names scheduled context record &&
    point.any (fun p => p.point.projectId = input.projectId &&
      p.point.projectVersionId = context.projectVersionId &&
      p.point.workItemVersionId = context.workItemVersionId &&
      p.point.leadFencingToken = context.sourceFencingToken) &&
    context.sourceLeaseId.isSome && context.sourceLeaseId ≠ some input.fence.leaseId &&
    context.acknowledgedAt = input.receipt.latestAcknowledgedPointAt &&
    context.acknowledgedAt = input.receipt.restoredPointAcknowledgedAt &&
    scheduled.dueAt ≤ input.receipt.simulatedLeadLossAt && input.receipt.emittedAt = input.now

/-- The batch that completes a drill. -/
def batch (input : DrillInput) (record : PreparedRecord) (pointSha256 : String) : DrillBatch :=
  { prepared := record, receipt := input.receipt, pointSha256 := pointSha256
    requestId := input.requestId, projectId := input.projectId, now := input.now
    fence := input.fence, grantId := input.grantId
    idempotencyKeySha256 := format.sha256Hex input.idempotencyKey
    requestSha256 := input.requestSha256 }

end DrillInput

/-- The record of the request and the checkpoint of the receipt. -/
def readDrillBodies (scheduled : RequestRow) (continuityPointId : String) :
    PolicyProcess (Option PolicyOperationalRecord × Option StoredContinuityPoint) :=
  tryCatch (do
      let record ← readPolicyOperationalRecord format scheduled.operationalRecordId
      let point ← readContinuityPoint format continuityPointId
      pure (record, point))
    (fun _ => Process.done (.error (.problem .integrityMismatch)))

/-- Store the receipt of a drill and complete its request. -/
def commitDrill (input : DrillInput) (pointSha256 : String) : PolicyProcess DrillResult := do
  let record ← preparePolicyOperationalRecord format (.receipt input.receipt) input.portableObjectId
  tryCatch (do
      ask (.completeDrill (input.batch format record pointSha256))
      pure (.completed input.receipt))
    (fun error => do
      ask .queueCleanup
      Process.done (.error error))

/-- Complete a drill that has not been completed by this mutation before. -/
def completeScheduledDrill (input : DrillInput) : PolicyProcess DrillResult := do
  let scheduled? : Option RequestRow ← ask (.readScheduledRequest input.requestId input.projectId)
  match scheduled? with
  | none => Process.done (.error (.problem .evidenceInvalid))
  | some scheduled => do
      let bodies ← readDrillBodies format scheduled input.receipt.restoredContinuityPointId
      let context? : Option PointContext ← ask
        (.readPointContext input.receipt.restoredContinuityPointId input.projectId)
      match context? with
      | none => Process.done (.error (.problem .evidenceInvalid))
      | some context =>
          if input.accepts scheduled bodies.1 bodies.2 context then
            commitDrill format input context.contentSha256
          else Process.done (.error (.problem .evidenceInvalid))

def completeContinuityDrill (input : DrillInput) : PolicyProcess DrillResult :=
  if !input.valid then Process.done (.error (.problem .submissionInvalid))
  else do
    ask (.authorizeLead input.projectId input.grantId input.fence input.now)
    let prior : Option OperationReceiptRow ← ask (.readReceipt input.grantId
      "complete_continuity_drill" (format.sha256Hex input.idempotencyKey))
    match prior with
    | some row =>
        if row.requestSha256 = input.requestSha256 then pure .replayed
        else Process.done (.error (.lead .idempotencyConflict))
    | none => completeScheduledDrill format input

/-! ## Activation of a binding -/

structure ActivateInput where
  projectId : String
  checkpointIntervalSeconds : Int
  drillIntervalSeconds : Int
  soloVerified : Bool
  now : Int
  bindingId : String
  scheduleId : String
  evidenceIds : List String
  portableObjectIds : List String

namespace ActivateInput

def valid (input : ActivateInput) : Bool :=
  validCheckpointInterval input.checkpointIntervalSeconds &&
    validDrillInterval input.drillIntervalSeconds

def binding (input : ActivateInput) (row : ActivationRow) : PolicyBinding :=
  { bindingId := input.bindingId, activatedAt := input.now
    checkpointIntervalSeconds := input.checkpointIntervalSeconds
    drillIntervalSeconds := input.drillIntervalSeconds
    soloVerifiedOwnerConsent := input.soloVerified
    ownerPolicyInputRecordId := row.activeProjectVersionId
    ownerPolicyInputSha256 := row.projectVersionSha256, policyId := row.policyId
    policySha256 := row.policySha256, projectId := input.projectId
    projectVersionId := row.activeProjectVersionId }

def schedule (input : ActivateInput) : OperationalSchedule :=
  { scheduleId := input.scheduleId, checkpointIntervalSeconds := input.checkpointIntervalSeconds
    drillIntervalSeconds := input.drillIntervalSeconds
    nextCheckpointAt := input.now + input.checkpointIntervalSeconds
    nextDrillAt := input.now + input.drillIntervalSeconds, policyBindingId := input.bindingId
    projectId := input.projectId, createdAt := input.now }

def fixedOperationalEvidence (input : ActivateInput) (index : Nat) (detail : EvidenceDetail)
    (summary : String) : OperationalEvidence :=
  { evidenceId := input.evidenceIds.getD index "", detail := detail, occurredAt := input.now
    projectId := input.projectId, retainUntil := input.now + coldRetentionSeconds
    retentionTier := .cold, runId := none, scheduleId := none, status := .ok, summary := summary }

def evidence (input : ActivateInput) : List OperationalEvidence :=
  [input.fixedOperationalEvidence 0 .upgradeReadiness
      "Migration 0033 is forward-only and trigger-free.",
    input.fixedOperationalEvidence 1 .rollbackReadiness
      "Rollback is application-only; no destructive down-migration runs.",
    input.fixedOperationalEvidence 2 .managedCellHealth
      "The Community data path is independent and execution remains external."]

def records (input : ActivateInput) (row : ActivationRow) : List PolicyOperationalRecord :=
  .binding (input.binding row) :: .schedule input.schedule :: input.evidence.map .evidence

/-- The binding that is active is kept where it was made from the same texts with the
    same consent; a binding with other intervals may not be replaced. -/
def keeps (input : ActivateInput) (row : ActivationRow) (existing : PolicyBinding) :
    Except PolicyError Bool :=
  if existing.checkpointIntervalSeconds ≠ input.checkpointIntervalSeconds ||
      existing.drillIntervalSeconds ≠ input.drillIntervalSeconds then
    .error (.problem .policyEditForbidden)
  else if existing.projectVersionId = row.activeProjectVersionId then
    if existing.policyId ≠ row.policyId || existing.policySha256 ≠ row.policySha256 ||
        existing.ownerPolicyInputRecordId ≠ row.activeProjectVersionId ||
        existing.ownerPolicyInputSha256 ≠ row.projectVersionSha256 then
      .error (.problem .integrityMismatch)
    else .ok (existing.soloVerifiedOwnerConsent = input.soloVerified)
  else .ok false

end ActivateInput

/-- A binding that was read is the one its row is of. -/
def bindingOf (row : BindingRow) : Option PolicyOperationalRecord → Except PolicyError PolicyBinding
  | some (.binding b) =>
      if b.bindingId = row.bindingId && b.projectId = row.projectId &&
          b.projectVersionId = row.projectVersionId && b.policyId = row.policyId &&
          b.policySha256 = row.policySha256 then .ok b
      else .error (.problem .integrityMismatch)
  | _ => .error (.problem .integrityMismatch)

def readActiveBinding (projectId : String) : PolicyProcess (Option PolicyBinding) := do
  let row? : Option BindingRow ← ask (.readActiveBinding projectId)
  match row? with
  | none => pure none
  | some row => do
      let record ← readPolicyOperationalRecord format row.operationalRecordId
      let binding ← check (bindingOf row record)
      pure (some binding)

/-- Put the records of an activation into storage, one after the other. -/
def prepareRecords : List PolicyOperationalRecord → List String →
    PolicyProcess (List PreparedRecord)
  | [], _ => pure []
  | record :: records, ids => do
      let first ← preparePolicyOperationalRecord format record (ids.headD "")
      let rest ← prepareRecords records ids.tail
      pure (first :: rest)

/-- Whether the binding that is active stays. -/
def keepsExisting (input : ActivateInput) (row : ActivationRow) :
    Option PolicyBinding → PolicyProcess Bool
  | none => pure false
  | some existing => do
      let keep ← check (input.keeps row existing)
      if existing.projectVersionId = row.activeProjectVersionId then do
        ask .verifyPolicyInputs
        pure keep
      else pure keep

/-- Store a binding and its schedule. -/
def commitBinding (input : ActivateInput) (row : ActivationRow) (existing : Option PolicyBinding) :
    PolicyProcess PolicyBinding := do
  let records ← prepareRecords format (input.records row) input.portableObjectIds
  tryCatch (do
      ask (.activate
        { prepared := records, existingBindingId := existing.map PolicyBinding.bindingId
          binding := input.binding row, schedule := input.schedule
          projectVersionSha256 := row.projectVersionSha256, now := input.now })
      pure (input.binding row))
    (fun error => do
      ask .queueCleanup
      Process.done (.error error))

def activateProjectPolicyBinding (input : ActivateInput) : PolicyProcess PolicyBinding :=
  if !input.valid then Process.done (.error (.problem .submissionInvalid))
  else do
    let existing ← readActiveBinding format input.projectId
    let row? : Option ActivationRow ← ask (.readActivation input.projectId)
    match row? with
    | none => Process.done (.error (.problem .policyNotReady))
    | some row =>
        if row.status ≠ .active then Process.done (.error (.problem .policyNotReady))
        else do
          ask .verifyPolicyInputs
          let keep ← keepsExisting input row existing
          if keep then pure (existing.getD (input.binding row))
          else commitBinding format input row existing

end

end Mdevolved.Policy
