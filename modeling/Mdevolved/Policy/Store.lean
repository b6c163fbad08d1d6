import Mdevolved.Policy.Batches

/-!
# Requests of the Policy

What the functions of the policy ask of the database and of storage, one request for
each await. Most only read; a batch only writes, and answers with nothing. To put an
object away is one request, which looks for an object under the key first.

## Main definitions

* `PolicyOp`: The requests.
* `PolicyOp.answer`, `PolicyOp.writes`: What a request reads and writes.
* `policy`: Both together.
* `integrityCandidates`: What an integrity scan looks at.
-/

namespace Mdevolved.Policy

open Batch (Outcome Write)

/-- What an integrity scan looks at: something with a body. -/
structure IntegrityCandidate where
  id : String
  bodyObjectKey : String
  byteLength : Nat
  contentSha256 : String
  dependencyKind : DependencyKind

/-- What a drill finds of its checkpoint, where project, work item and packet are still
    those of the checkpoint. -/
structure PointContext where
  projectVersionId : String
  workItemId : String
  workItemVersionId : String
  workPacketId : String
  sourceLeaseId : Option String
  sourceFencingToken : Nat
  acknowledgedAt : Int
  contentSha256 : String

/-- What the activation of a binding reads of a project. -/
structure ActivationRow where
  activeProjectVersionId : String
  policyId : String
  policySha256 : String
  projectVersionSha256 : String
  status : ProjectStatus

inductive PolicyOp
  | readDueSchedules (scheduledTime : Int)
  | readLatestPoint (projectId : String)
  | readPoint (continuityPointId : String)
  | getObject (key : String)
  | readContextValid (projectId workItemId workPacketId projectVersionId workItemVersionId : String)
  | requestExists (scheduleId : String) (kind : RequestKind) (window : Int)
  | requestOpen (scheduleId : String) (kind : RequestKind)
  | putRecord (object : StoredObject)
  | insertRequest (batch : RequestBatch)
  | advance (advances : List Advance)
  | countCandidates (projectId : String)
  | readCandidates (projectId : String)
  | recordExists (operationalRecordId : String)
  | insertReport (batch : RequestBatch)
  | touchClock (scheduledTime now : Int)
  | authorizeLead (projectId grantId : String) (fence : Fence) (now : Int)
  | readReceipt (grantId operation idempotencyKeySha256 : String)
  | readScheduledRequest (requestId projectId : String)
  | readRecordRow (operationalRecordId : String)
  | readPointContext (continuityPointId projectId : String)
  | completeDrill (batch : DrillBatch)
  | queueCleanup
  | readActiveBinding (projectId : String)
  | readActivation (projectId : String)
  | verifyPolicyInputs
  | activate (batch : ActivateBatch)
  | surrounding (op : Surrounding)

/-- What a request answers with. -/
def PolicyOp.Ret : PolicyOp → Type
  | readDueSchedules _ => List ScheduleRow
  | readLatestPoint _ | readPoint _ => Option PointRow
  | getObject _ => Option StoredObject
  | readContextValid .. | requestExists .. | requestOpen .. | recordExists _ => Bool
  | countCandidates _ => Nat
  | readCandidates _ => List IntegrityCandidate
  | readReceipt .. => Option OperationReceiptRow
  | readScheduledRequest .. => Option RequestRow
  | readRecordRow _ => Option OperationalRecordRow
  | readPointContext .. => Option PointContext
  | readActiveBinding _ => Option BindingRow
  | readActivation _ => Option ActivationRow
  | _ => Unit

/-! ## What is read -/

def schedulePageSize : Nat := 8

/-- The schedules that are due, the oldest first, as many as a pass takes on. -/
def dueSchedules (db : PolicyDb) (scheduledTime : Int) : List ScheduleRow :=
  ((db.schedules.filter (fun s => s.due scheduledTime)).insertionSort
    (fun s t => s.ranks t = true)).take schedulePageSize

/-- A packet of a work item that may still be continued from. -/
def CollaborationRecordRow.usablePacket (r : CollaborationRecordRow) (packetId projectId workItemId :
    String) : Bool :=
  r.id = packetId && r.recordType = .workPacket && r.projectId = some projectId &&
    r.workItemId = some workItemId && r.restoredAt.isNone &&
    (r.disposition = .pending || r.disposition = .accepted)

/-- Project, work item and packet are of given versions and in use. -/
def contextValid (db : PolicyDb) (projectId workItemId workPacketId projectVersionId
    workItemVersionId : String) : Bool :=
  db.projects.any (fun p => p.projectId = projectId && p.status = .active &&
      p.activeProjectVersionId = projectVersionId) &&
    db.workItems.any (fun i => i.workItemId = workItemId && i.projectId = projectId &&
      i.activeWorkItemVersionId = workItemVersionId &&
      (i.status = .opened || i.status = .closed)) &&
    db.collaborationRecords.any (fun r => r.usablePacket workPacketId projectId workItemId)

def PointRow.context (p : PointRow) : PointContext :=
  { projectVersionId := p.projectVersionId, workItemId := p.workItemId
    workItemVersionId := p.workItemVersionId, workPacketId := p.workPacketId
    sourceLeaseId := p.sourceLeaseId, sourceFencingToken := p.sourceFencingToken
    acknowledgedAt := p.acknowledgedAt, contentSha256 := p.contentSha256 }

/-- The checkpoint of a drill, if it was not restored and its context is valid. -/
def pointContext (db : PolicyDb) (continuityPointId projectId : String) : Option PointContext :=
  (db.points.find? (fun p => p.continuityPointId = continuityPointId && p.projectId = projectId &&
    p.restoredAt.isNone && contextValid db p.projectId p.workItemId p.workPacketId
      p.projectVersionId p.workItemVersionId)).map PointRow.context

def BodyRow.candidate (r : BodyRow) : IntegrityCandidate :=
  ⟨r.id, r.bodyObjectKey, r.byteLength, r.contentSha256, .record⟩

/-- Whether something of a project refers to a content object. -/
def referencesContent (db : PolicyDb) (projectId contentId : String) : Bool :=
  db.collaborationReferences.any (fun d => d.dependencyId = contentId &&
      db.collaborationRecords.any (fun r => r.id = d.ownerId && r.projectId = some projectId)) ||
    db.pointReferences.any (fun d => d.dependencyId = contentId &&
      db.points.any (fun p => p.continuityPointId = d.ownerId && p.projectId = projectId)) ||
    db.dependencies.any (fun d => d.dependencyId = contentId &&
      db.records.any (fun r => r.operationalRecordId = d.operationalRecordId &&
        r.projectId = projectId))

/-- All that an integrity scan of a project could look at. -/
def integrityCandidates (db : PolicyDb) (projectId : String) : List IntegrityCandidate :=
  (db.points.filter (fun p => p.projectId = projectId)).map (fun p =>
      ⟨p.continuityPointId, p.bodyObjectKey, p.byteLength, p.contentSha256, .record⟩) ++
    (db.operationRecords.filter (fun r => r.projectId = projectId)).map BodyRow.candidate ++
    (db.elasticRecords.filter (fun r => r.projectId = projectId)).map BodyRow.candidate ++
    (db.records.filter (fun r => r.projectId = projectId)).map (fun r =>
      ⟨r.operationalRecordId, r.bodyObjectKey, r.byteLength, r.contentSha256, .record⟩) ++
    (db.contentObjects.filter (fun c => referencesContent db projectId c.id)).map (fun c =>
      ⟨c.id, c.objectKey, c.byteLength, c.contentSha256, .evidence⟩)

def integrityBodyLimit : Nat := 64

/-- Evidence comes before records, and then an identifier decides. -/
def IntegrityCandidate.ranks (c c' : IntegrityCandidate) : Bool :=
  (c.dependencyKind = .evidence && c'.dependencyKind ≠ .evidence) ||
    (decide (c.dependencyKind = .evidence ↔ c'.dependencyKind = .evidence) && c.id ≤ c'.id)

/-- What an integrity scan looks at. -/
def scannedCandidates (db : PolicyDb) (projectId : String) : List IntegrityCandidate :=
  ((integrityCandidates db projectId).insertionSort (fun c c' => c.ranks c' = true)).take
    integrityBodyLimit

/-- What the activation of a binding reads. -/
def activationRow (db : PolicyDb) (projectId : String) : Option ActivationRow :=
  db.projects.findSome? (fun p =>
    if p.projectId = projectId then
      db.collaborationRecords.findSome? (fun version =>
        if version.id = p.activeProjectVersionId && version.recordType = .projectVersion &&
            version.restoredAt.isNone then
          db.policies.findSome? (fun policy =>
            if policy.projectId = p.projectId &&
                policy.projectVersionId = p.activeProjectVersionId then
              db.operationRecords.findSome? (fun record =>
                if record.id = policy.policyId then some
                  { activeProjectVersionId := p.activeProjectVersionId
                    policyId := policy.policyId, policySha256 := record.contentSha256
                    projectVersionSha256 := version.contentSha256, status := p.status }
                else none)
            else none)
        else none)
    else none)

/-- What a request reads, or the error it ends with. -/
def PolicyOp.answer (op : PolicyOp) (w : Outside) (db : PolicyDb) : Except PolicyError op.Ret :=
  match op with
  | readDueSchedules scheduledTime => .ok (dueSchedules db scheduledTime)
  | readLatestPoint projectId => .ok (latestPoint db projectId)
  | readPoint id => .ok (db.points.find? (fun p => p.continuityPointId = id))
  | getObject key => .ok (db.objects.find? (fun o => o.key = key))
  | readContextValid projectId workItemId workPacketId projectVersionId workItemVersionId =>
      .ok (contextValid db projectId workItemId workPacketId projectVersionId workItemVersionId)
  | requestExists scheduleId kind window =>
      .ok (db.requests.any (fun r => r.key = (scheduleId, kind, window)))
  | requestOpen scheduleId kind => .ok (db.requests.any (fun r =>
      r.scheduleId = scheduleId && r.requestKind = kind && r.isOpen))
  | countCandidates projectId => .ok (integrityCandidates db projectId).length
  | readCandidates projectId => .ok (scannedCandidates db projectId)
  | recordExists id => .ok (db.records.any (fun r => r.operationalRecordId = id))
  | authorizeLead projectId grantId fence now =>
      match w.problem with
      | some code => .error (.lead code)
      | none =>
          if db.leases.any (fun l => l.current projectId grantId fence now) then .ok ()
          else .error (.lead .leaseInvalid)
  | readReceipt grantId operation key => .ok (db.receipts.find? (fun r =>
      r.grantId = grantId && r.operation = operation && r.idempotencyKeySha256 = key))
  | readScheduledRequest requestId projectId => .ok (db.requests.find? (fun r =>
      r.requestId = requestId && r.projectId = projectId && r.requestKind = .continuityDrill &&
      r.isOpen && db.schedules.any (fun s => s.scheduleId = r.scheduleId &&
        s.projectId = projectId)))
  | readRecordRow id => .ok (db.records.find? (fun r => r.operationalRecordId = id))
  | readPointContext id projectId => .ok (pointContext db id projectId)
  | readActiveBinding projectId => .ok (db.bindings.find? (fun b =>
      b.projectId = projectId && b.status = .active))
  | readActivation projectId => .ok (activationRow db projectId)
  | verifyPolicyInputs => if w.verified then .ok () else .error (.problem .integrityMismatch)
  | putRecord _ | insertRequest _ | advance _ | insertReport _ | touchClock _ _ | completeDrill _
  | queueCleanup | activate _ | surrounding _ => .ok ()

/-- What a request writes. -/
def PolicyOp.writes (op : PolicyOp) (w : Outside) : List PolicyWrite :=
  match op with
  | putRecord object => [putObject object "operational_object_collision"]
  | insertRequest batch | insertReport batch => batch.writes
  | advance advances => advances.map Advance.write
  | touchClock scheduledTime now => [Policy.touchClock scheduledTime now]
  | completeDrill batch => batch.writes w
  | activate batch => batch.writes
  | surrounding op => op.writes w
  | _ => []

/-- The requests of the policy. -/
abbrev policy : Interface PolicyOp Outside PolicyDb PolicyError :=
  { Ret := PolicyOp.Ret, answer := PolicyOp.answer, writes := PolicyOp.writes
    outcome := Outside.outcome, fault := .unavailable }

abbrev exec := policy.exec

/-- A function of the policy. -/
abbrev PolicyProcess := policy.Calls

/-- A request and its answer. -/
abbrev ask (op : PolicyOp) : PolicyProcess op.Ret :=
  Process.request op

/-- Go on where a check passes. -/
abbrev check {α : Type} (r : Except PolicyError α) : PolicyProcess α :=
  Process.ofExcept r

end Mdevolved.Policy
