import Mdevolved.Policy.Store

/-!
# Scheduled Requests

What a pass over the schedules does. It takes the schedules that have been due for
longest, and for each clock that is due it makes a request of the window the clock
shows, unless there is one or an earlier one is still open. Where there is a request
of the window afterwards, the clock is moved past the time the pass was scheduled
for. Then the bodies of the project are scanned.

A drill is of the last checkpoint of the project, and is only requested while that
checkpoint can be continued from. A request that fails to be stored, because another
pass was faster, counts as made; anything else that is thrown ends the pass.

## Main definitions

* `readLatestContinuityPoint`, `readContinuityPoint`: A checkpoint with its body.
* `preparePolicyOperationalRecord`: A record is put into storage.
* `nextDueAfter`: The window that comes after a time.
* `createScheduledRequest`: A request of a window.
* `scanProjectIntegrity`: A scan of what a project has in storage.

## Theorems

* `nextDueAfter_lt`, `nextDueAfter_gt`, `nextDueAfter_emod`: The window that comes after
  a time.
-/

namespace Mdevolved.Policy

/-! ## Bodies -/

/-- A checkpoint that was read. -/
structure StoredContinuityPoint where
  contentSha256 : String
  point : ContinuityPoint
  restoredAt : Option Int
  sourceLeaseId : Option String

/-- The body of a checkpoint says what its row says. -/
def ContinuityPoint.matches (p : ContinuityPoint) (row : PointRow) : Bool :=
  p.continuityPointId = row.continuityPointId && p.projectId = row.projectId &&
    p.projectVersionId = row.projectVersionId && p.workItemId = row.workItemId &&
    p.workItemVersionId = row.workItemVersionId &&
    p.knowledgeSpaceVersionId = row.knowledgeSpaceVersionId &&
    p.workPacketId = row.workPacketId &&
    p.previousContinuityPointId = row.previousContinuityPointId &&
    p.leadFencingToken = row.sourceFencingToken && p.acknowledgedAt = row.acknowledgedAt

section

variable (format : PolicyFormat)

/-- What the object of a checkpoint contains. -/
def pointOf (row : PointRow) : Option StoredObject → Except PolicyError StoredContinuityPoint
  | none => .error (.thrown "continuity_object_unavailable")
  | some object =>
      if object.size ≠ row.byteLength then .error (.thrown "continuity_object_unavailable")
      else if format.contentSha256 object.body ≠ row.contentSha256 then
        .error (.thrown "integrity_mismatch")
      else
        match object.body with
        | .point p =>
            if p.matches row then
              .ok { contentSha256 := row.contentSha256, point := p, restoredAt := row.restoredAt
                    sourceLeaseId := row.sourceLeaseId }
            else .error (.thrown "integrity_mismatch")
        | _ => .error (.thrown "integrity_mismatch")

def readContinuityPointBody (row? : Option PointRow) :
    PolicyProcess (Option StoredContinuityPoint) :=
  match row? with
  | none => pure none
  | some row => do
      let object ← ask (.getObject row.bodyObjectKey)
      let point ← check (pointOf format row object)
      pure (some point)

def readLatestContinuityPoint (projectId : String) :
    PolicyProcess (Option StoredContinuityPoint) := do
  let row? ← ask (.readLatestPoint projectId)
  readContinuityPointBody format row?

def readContinuityPoint (continuityPointId : String) :
    PolicyProcess (Option StoredContinuityPoint) := do
  let row? ← ask (.readPoint continuityPointId)
  readContinuityPointBody format row?

/-- A record with the object it is stored in. -/
def prepared (record : PolicyOperationalRecord) (portableObjectId : String) : PreparedRecord :=
  let sha256 := format.contentSha256 (.operational record)
  { bodyObjectKey := "policy-operations/records/" ++ sha256 ++ ".json"
    byteLength := format.byteLength (.operational record), contentSha256 := sha256
    operationalRecordId := record.recordId, portableObjectId := portableObjectId, record := record
    restoredAt := none, retentionTier := record.retention.1, retainUntil := record.retention.2 }

/-- What a record is put into storage as. -/
def PreparedRecord.object (p : PreparedRecord) : StoredObject :=
  { key := p.bodyObjectKey, size := p.byteLength, sha256 := p.contentSha256
    body := .operational p.record }

def preparePolicyOperationalRecord (record : PolicyOperationalRecord) (portableObjectId : String) :
    PolicyProcess PreparedRecord :=
  if !record.valid then Process.done (.error (.thrown "invalid_record"))
  else if maxOperationalRecordBytes < format.byteLength (.operational record) then
    Process.done (.error (.thrown "operational_record_too_large"))
  else do
    ask (.putRecord (prepared format record portableObjectId).object)
    pure (prepared format record portableObjectId)

/-! ## Requests -/

def requestRetentionSeconds : Int := 90 * 24 * 60 * 60

def coldRetentionSeconds : Int := 10 * 365 * 24 * 60 * 60

structure ScheduledRequestInput where
  dueAt : Int
  kind : RequestKind
  now : Int
  schedule : ScheduleRow
  scheduleWindow : Int
  portableObjectId : String

/-- A checkpoint that a lead has acknowledged here. -/
def StoredContinuityPoint.usable (p : StoredContinuityPoint) : Bool :=
  p.restoredAt.isNone && p.sourceLeaseId.isSome

/-- The identifier of the request of a window, which is always the same. -/
def requestEvidenceId (scheduleId : String) (kind : RequestKind) (window : Int) : String :=
  format.deterministicUuid (scheduleId ++ ":" ++ kind.text ++ ":" ++ toString window)

def requestEvidence (input : ScheduledRequestInput) (sourcePoint : Option StoredContinuityPoint) :
    OperationalEvidence :=
  { evidenceId := requestEvidenceId format input.schedule.scheduleId input.kind input.scheduleWindow
    detail :=
      match input.kind, sourcePoint with
      | .continuityDrill, some p => .continuityDrillRequest input.dueAt input.scheduleWindow
          p.point.continuityPointId p.point.workItemId p.point.workPacketId
      | _, _ => .continuityPointRequest input.dueAt input.scheduleWindow
    occurredAt := input.now, projectId := input.schedule.projectId
    retainUntil := input.now + requestRetentionSeconds, retentionTier := .warm, runId := none
    scheduleId := some input.schedule.scheduleId, status := .requested
    summary :=
      match input.kind with
      | .continuityPoint =>
          "A scheduled Continuity Point is due; an external lead may checkpoint."
      | .continuityDrill => "A disposable external continuity drill is due." }

/-- What the record of a request depends on. -/
def requestDependencies (evidence : OperationalEvidence) (scheduleId : String)
    (sourcePoint : Option StoredContinuityPoint) : List DependencyRow :=
  { operationalRecordId := evidence.evidenceId, dependencyId := scheduleId
    dependencyKind := .operational, contentSha256 := none } ::
    (sourcePoint.map (fun p =>
      { operationalRecordId := evidence.evidenceId, dependencyId := p.point.continuityPointId
        dependencyKind := .record, contentSha256 := some p.contentSha256 })).toList

/-- The checkpoint that a drill is of; a request of a checkpoint has none. -/
def readSourcePoint (input : ScheduledRequestInput) :
    PolicyProcess (Option StoredContinuityPoint) :=
  match input.kind with
  | .continuityDrill => readLatestContinuityPoint format input.schedule.projectId
  | .continuityPoint => pure none

/-- Whether the checkpoint of a drill can be continued from. -/
def sourcePointValid (input : ScheduledRequestInput) (sourcePoint : Option StoredContinuityPoint) :
    PolicyProcess Bool :=
  match input.kind, sourcePoint with
  | .continuityPoint, _ => pure true
  | .continuityDrill, none => pure false
  | .continuityDrill, some p =>
      if !p.usable then pure false
      else ask (.readContextValid input.schedule.projectId p.point.workItemId
        p.point.workPacketId p.point.projectVersionId p.point.workItemVersionId)

/-- Store a request, unless another pass has stored it meanwhile. -/
def storeRequest (input : ScheduledRequestInput) (evidence : OperationalEvidence)
    (sourcePoint : Option StoredContinuityPoint) : PolicyProcess Bool := do
  let record ← preparePolicyOperationalRecord format (.evidence evidence) input.portableObjectId
  tryCatch (do
      ask (.insertRequest
        { prepared := record, evidence := evidence
          dependencies := requestDependencies evidence input.schedule.scheduleId sourcePoint })
      pure true)
    (fun error => do
      let raced : Bool ← ask (.requestExists input.schedule.scheduleId input.kind input.scheduleWindow)
      if raced then pure true else Process.done (.error error))

/-- Make a request of a window: whether there is one afterwards. -/
def createScheduledRequest (input : ScheduledRequestInput) : PolicyProcess Bool := do
  let sourcePoint ← readSourcePoint format input
  let valid ← sourcePointValid input sourcePoint
  if !valid then pure false
  else
    let evidence := requestEvidence format input sourcePoint
    if !evidence.valid then Process.done (.error (.thrown "invalid_evidence"))
    else do
      let exists? : Bool ← ask (.requestExists input.schedule.scheduleId input.kind input.scheduleWindow)
      if exists? then pure true
      else do
        let overlapping : Bool ← ask (.requestOpen input.schedule.scheduleId input.kind)
        if overlapping then pure false
        else storeRequest format input evidence sourcePoint

/-! ## Clocks -/

/-- The first window after a time, counted from the one a clock shows. -/
def nextDueAfter (currentDueAt intervalSeconds scheduledTime : Int) : Int :=
  let elapsed := max 0 (scheduledTime - currentDueAt)
  currentDueAt + (elapsed / intervalSeconds + 1) * intervalSeconds

section

variable (current interval scheduledTime : Int)

theorem nextDueAfter_lt (hpos : 0 < interval) :
    current < nextDueAfter current interval scheduledTime := by
  have hsteps : 0 ≤ max 0 (scheduledTime - current) / interval :=
    Int.ediv_nonneg (le_max_left _ _) hpos.le
  have hmul : 0 < (max 0 (scheduledTime - current) / interval + 1) * interval :=
    Int.mul_pos (by omega) hpos
  unfold nextDueAfter
  dsimp only
  omega

theorem nextDueAfter_gt (hpos : 0 < interval) :
    scheduledTime < nextDueAfter current interval scheduledTime := by
  have hbelow := Int.lt_ediv_add_one_mul_self (max 0 (scheduledTime - current)) hpos
  have helapsed : scheduledTime - current ≤ max 0 (scheduledTime - current) := le_max_right _ _
  unfold nextDueAfter
  dsimp only
  omega

theorem nextDueAfter_emod :
    nextDueAfter current interval scheduledTime % interval = current % interval := by
  unfold nextDueAfter
  exact Int.add_mul_emod_self_right _ _ _

end

/-! ## Integrity scans -/

/-- What became of a body that is scanned. -/
inductive ScannedBody
  | present | missing | mismatched
  deriving DecidableEq

def scannedBody (c : IntegrityCandidate) : Option StoredObject → ScannedBody
  | none => .missing
  | some object =>
      if object.size ≠ c.byteLength || object.sha256 ≠ c.contentSha256 ||
          format.contentSha256 object.body ≠ c.contentSha256 then .mismatched
      else .present

/-- Look at the bodies one after the other. -/
def scanBodies : List IntegrityCandidate → PolicyProcess (List ScannedBody)
  | [] => pure []
  | c :: cs => do
      let object ← ask (.getObject c.bodyObjectKey)
      let rest ← scanBodies cs
      pure (scannedBody format c object :: rest)

def scanEvidenceId (projectId : String) (now : Int) : String :=
  format.deterministicUuid (projectId ++ ":integrity:" ++ toString (now / 3600))

def scanEvidence (projectId : String) (now : Int) (coverage : Coverage) (scanned : List ScannedBody) :
    OperationalEvidence :=
  let missing := scanned.countP (fun b => b = .missing)
  let mismatched := scanned.countP (fun b => b = .mismatched)
  let passed := coverage = .complete && missing + mismatched = 0
  { evidenceId := scanEvidenceId format projectId now
    detail := .integrityScan coverage scanned.length scanned.length mismatched missing
    occurredAt := now, projectId := projectId, retainUntil := now + coldRetentionSeconds
    retentionTier := .cold, runId := none, scheduleId := none
    status := if passed then .ok else .degraded
    summary :=
      if passed then "The bounded R1-R4 integrity scan passed."
      else if coverage = .complete then
        "The bounded R1-R4 integrity scan found missing or mismatched bodies."
      else "The bounded R1-R4 integrity scan was partial and failed closed." }

/-- What the record of a scan depends on: everything it has looked at. -/
def scanDependencies (evidence : OperationalEvidence) (candidates : List IntegrityCandidate) :
    List DependencyRow :=
  candidates.map (fun c =>
    { operationalRecordId := evidence.evidenceId, dependencyId := c.id
      dependencyKind := c.dependencyKind, contentSha256 := some c.contentSha256 })

/-- Store the report of a scan, unless another pass has stored one meanwhile. -/
def storeReport (evidence : OperationalEvidence) (candidates : List IntegrityCandidate)
    (portableObjectId : String) : PolicyProcess Unit := do
  let record ← preparePolicyOperationalRecord format (.evidence evidence) portableObjectId
  tryCatch (ask (.insertReport
      { prepared := record, evidence := evidence
        dependencies := scanDependencies evidence candidates }))
    (fun error => do
      let raced : Bool ← ask (.recordExists evidence.evidenceId)
      if raced then pure () else Process.done (.error error))

def scanProjectIntegrity (projectId : String) (now : Int) (portableObjectId : String) :
    PolicyProcess Unit := do
  let count : Nat ← ask (.countCandidates projectId)
  let candidates : List IntegrityCandidate ← ask (.readCandidates projectId)
  let scanned ← scanBodies format candidates
  let coverage := if count ≤ candidates.length then Coverage.complete else .partly
  let evidence := scanEvidence format projectId now coverage scanned
  if !evidence.valid then Process.done (.error (.thrown "invalid_evidence"))
  else do
    let existing : Bool ← ask (.recordExists evidence.evidenceId)
    if existing then pure ()
    else storeReport format evidence candidates portableObjectId

/-! ## Passes -/

/-- Identifiers that a pass makes for the records of a schedule. -/
structure PortableIds where
  point : String
  drill : String
  report : String

/-- The identifier for the record of a request. -/
def PortableIds.request (ids : PortableIds) : RequestKind → String
  | .continuityPoint => ids.point
  | .continuityDrill => ids.drill

structure PassInput where
  scheduledTime : Int
  now : Int
  ids : String → PortableIds

/-- The request of a window of a schedule. -/
def PassInput.request (input : PassInput) (schedule : ScheduleRow) (kind : RequestKind) :
    ScheduledRequestInput :=
  { dueAt := schedule.next kind, kind := kind, now := input.now, schedule := schedule
    scheduleWindow := schedule.next kind
    portableObjectId := (input.ids schedule.scheduleId).request kind }

/-- The clock of a schedule is moved past the time of the pass. -/
def PassInput.advance (input : PassInput) (schedule : ScheduleRow) (kind : RequestKind) : Advance :=
  { scheduleId := schedule.scheduleId, kind := kind, window := schedule.next kind
    value := nextDueAfter (schedule.next kind) (schedule.interval kind) input.scheduledTime }

/-- Serve a clock of a schedule if it is due: how it is to be moved. -/
def serveClock (input : PassInput) (schedule : ScheduleRow) (kind : RequestKind) :
    PolicyProcess (List Advance) :=
  if schedule.next kind ≤ input.scheduledTime then do
    let created ← createScheduledRequest format (input.request schedule kind)
    pure (if created then [input.advance schedule kind] else [])
  else pure []

/-- Move clocks, if there are any to be moved. -/
def moveClocks (advances : List Advance) : PolicyProcess Unit :=
  if advances.isEmpty then pure () else ask (.advance advances)

def serveSchedule (input : PassInput) (schedule : ScheduleRow) : PolicyProcess Unit := do
  let point ← serveClock format input schedule .continuityPoint
  let drill ← serveClock format input schedule .continuityDrill
  moveClocks (point ++ drill)
  scanProjectIntegrity format schedule.projectId input.now (input.ids schedule.scheduleId).report

def serveSchedules (input : PassInput) : List ScheduleRow → PolicyProcess Unit
  | [] => pure ()
  | schedule :: rest => do
      serveSchedule format input schedule
      serveSchedules input rest

def runScheduledPolicyOperations (input : PassInput) : PolicyProcess Unit := do
  let schedules : List ScheduleRow ← ask (.readDueSchedules input.scheduledTime)
  serveSchedules format input schedules
  ask (.touchClock input.scheduledTime input.now)

end

end Mdevolved.Policy
