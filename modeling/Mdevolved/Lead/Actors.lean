import Mdevolved.Lead.Mutations

/-!
# Actors of a Run

How the actors of a Run are registered, one at a time where the Run is not elastic
and as a batch where it is, and how one that was lost is replaced. A batch is
admitted by what the plane of the Run counts, and takes the lowest slots that are
free. Before either function of an elastic Run looks at its plane, the actors that
have expired give up their slots.

## Main definitions

* `registerRunActor`: One actor of a Run that is not elastic.
* `reconcileExpiredElasticActors`: What expired actors give up.
* `registerRunActorsBatch`: Several actors of an elastic Run.
* `recoverRunActor`: An actor in the place of another.
-/

namespace Mdevolved.Lead

open Elastic (EvidenceMetadata PreparedActor DeltaMutation metadata)

/-! ## Registering actors -/

structure RegisterActorInput where
  envelope : Envelope
  runId : String
  workItemId : String
  actor : ActorRegistrationInput
  exceptionId : String

def registerRunActor (input : RegisterActorInput) : LeadProcess LeadResult := do
  let e := input.envelope
  let _ ← check (require input.actor.valid .submissionInvalid)
  mutation e .registerActor (do
    let read ← ask (.readRunRow e.projectId input.runId)
    let run ← check (activeRun (some input.workItemId) read)
    let plane ← ask (.readPlane e.projectId input.runId)
    let _ ← check (require plane.isNone .submissionInvalid)
    if maxR2ActorsPerRun ≤ run.actorCount then
      deny e .registerActor (makeException e run input.exceptionId none .budgetExhausted)
    else do
      let taken ← ask (.actorExists [input.actor.actorId])
      let _ ← check (require (!taken) .actorInvalid)
      let lease ← ask (.readLeaseExpiry e.projectId)
      let batch : RegisterActorBatch :=
        { envelope := e
          runId := input.runId
          workItemId := input.workItemId
          registration := input.actor
          leaseExpiresAt := lease.getD e.now }
      let _ ← check (require (e.now < batch.actor.expiresAt) .leaseInvalid)
      let _ ← ask .prepareRecords
      commit (.registerActor batch) (.actorRegistered batch.actor))

/-- Actors of an elastic Run that have expired give up the slots they hold. -/
def reconcileExpiredElasticActors (projectId runId : String) (now : Nat) : LeadProcess Unit := do
  let ids ← ask (.readExpiredActors projectId runId now)
  if ids.isEmpty then return ()
  else ask (.reconcile { projectId := projectId, runId := runId, now := now, ids := ids })

/-- As many of the lowest free slots as are asked for. -/
def availableActiveSlots (count : Nat) (occupied : List Nat) : Except LeadError (List Nat) :=
  let available := (((List.range maxR3ActiveActors).map (fun k => k + 1)).filter (fun k =>
    !occupied.contains k)).take count
  if available.length = count then .ok available
  else .error (backpressure count available.length)

/-- Whether a plane has room for more actors. -/
def elasticCapacity (count : Nat) (plane : ElasticPlaneRow) : Except LeadError Unit :=
  let activeCapacity := maxR3ActiveActors - plane.activeActorCount
  let recordCapacity := maxR3ActorRecords - plane.actorRecordCount
  if count ≤ activeCapacity && count ≤ recordCapacity then .ok ()
  else .error (backpressure count (min activeCapacity recordCapacity))

structure RegisterActorsInput where
  envelope : Envelope
  runId : String
  workItemId : String
  actors : List ActorRegistrationInput
  /-- The identifiers of the deltas. -/
  uuids : List String

def RegisterActorsInput.valid (input : RegisterActorsInput) : Bool :=
  1 ≤ input.actors.length && input.actors.length ≤ maxR3RegisterBatch &&
    input.actors.all ActorRegistrationInput.valid &&
    (input.actors.map ActorRegistrationInput.actorId).Nodup

section

variable (format : LeadFormat)

def preparedActor (metadata : Option EvidenceMetadata) (row : ActorRow) : PreparedActor :=
  { actorId := row.actorId
    contentSha256 := format.contentSha256 (.actor row)
    metadata := metadata }

def registerRunActorsBatch (input : RegisterActorsInput) : LeadProcess LeadResult := do
  let e := input.envelope
  let _ ← check (require input.valid .submissionInvalid)
  mutation e .registerActorsBatch (do
    let read ← ask (.readRunRow e.projectId input.runId)
    let _ ← check (activeRun (some input.workItemId) read)
    let _ ← reconcileExpiredElasticActors e.projectId input.runId e.now
    let plane? ← ask (.readPlane e.projectId input.runId)
    let plane ← check (found plane? .runInvalid)
    let _ ← check (elasticCapacity input.actors.length plane)
    let taken ← ask (.actorExists (input.actors.map ActorRegistrationInput.actorId))
    let _ ← check (require (!taken) .actorInvalid)
    let lease? ← ask (.readLeaseExpiry e.projectId)
    let lease ← check (found (lease?.filter (fun t => e.now < t)) .leaseInvalid)
    let occupied ← ask (.readOccupiedSlots input.runId)
    let activeSlots ← check (availableActiveSlots input.actors.length occupied)
    let _ ← ask .prepareRecords
    let deltas ← ask (.prepareRunDeltas e.projectId input.runId input.uuids
      ((DeltaMutation.registerRunActorsBatch (input.actors.map (fun a =>
        preparedActor format a.metadata (a.row e input.runId input.workItemId lease)))).deltas
          e.now))
    let batch : RegisterActorsBatch :=
      { envelope := e
        runId := input.runId
        workItemId := input.workItemId
        registrations := input.actors
        leaseExpiresAt := lease
        activeSlots := activeSlots
        recordSlotStart := plane.actorRecordCount + 1
        deltas := deltas }
    settle e .registerActorsBatch (mapDatabaseFailure input.actors.length) (.registerActors batch)
      (.actorsRegistered input.runId batch.actors))

/-! ## Recovering an actor -/

structure RecoverActorInput where
  envelope : Envelope
  runId : String
  workItemId : String
  abandonedActorId : String
  reason : RecoveryReason
  detectedAt : Nat
  allowedScopes : List LeadOperationScope
  replacement : ActorRegistrationInput
  recoveryId : String
  /-- The identifiers of the deltas. -/
  uuids : List String

def RecoverActorInput.valid (input : RecoverActorInput) : Bool :=
  1 ≤ input.allowedScopes.length && input.allowedScopes.length ≤ 3 &&
    input.allowedScopes.Nodup && input.replacement.valid &&
    input.replacement.scopes.all (fun scope => input.allowedScopes.contains scope) &&
    input.abandonedActorId ≠ input.replacement.actorId

/-- An actor that may be replaced: it was not revoked, and it has expired where
    that is the reason. -/
def RecoverActorInput.replaces (input : RecoverActorInput) (abandoned : ActorRow) : Bool :=
  abandoned.status ≠ .revoked &&
    (input.reason ≠ .expired || abandoned.expiresAt ≤ input.envelope.now)

/-- A replacement is not allowed more than the actor it replaces. -/
def RecoverActorInput.narrows (input : RecoverActorInput) (abandoned : ActorRow) : Bool :=
  input.allowedScopes.all (fun scope => abandoned.scopes.contains scope) &&
    input.replacement.scopes.all (fun scope => abandoned.scopes.contains scope)

def RecoverActorInput.recovery (input : RecoverActorInput) : ActorRecoveryRow :=
  { recoveryId := input.recoveryId
    projectId := input.envelope.projectId
    runId := input.runId
    abandonedActorId := input.abandonedActorId
    replacementActorId := input.replacement.actorId
    reason := input.reason
    detectedAt := input.detectedAt
    recoveredAt := input.envelope.now }

/-- The slot of the abandoned actor where it has one, and the lowest that is free
    where it has not. -/
def replacementSlot (runId : String) : Option Nat → LeadProcess Nat
  | some slot => return slot
  | none => do
      let occupied ← ask (.readOccupiedSlots runId)
      let available ← check (availableActiveSlots 1 occupied)
      match available with
      | [] => throw (backpressure 1 0)
      | slot :: _ => return slot

def recoverRunActor (input : RecoverActorInput) : LeadProcess LeadResult := do
  let e := input.envelope
  let _ ← check (require input.valid .submissionInvalid)
  mutation e .recoverActor (do
    let read ← ask (.readRunRow e.projectId input.runId)
    let _ ← reconcileExpiredElasticActors e.projectId input.runId e.now
    let plane? ← ask (.readPlane e.projectId input.runId)
    let plane ← check (found plane? .runInvalid)
    let _ ← check (activeRun (some input.workItemId) read)
    let actor? ← ask (.readActorRow input.abandonedActorId e.projectId input.runId)
    let abandoned ← check (found (actor?.filter input.replaces) .actorRecoveryInvalid)
    let recovered ← ask (.recoveryExists input.runId input.abandonedActorId)
    let _ ← check (require (!recovered) .actorRecoveryInvalid)
    let taken ← ask (.actorExists [input.replacement.actorId])
    let _ ← check (require (!taken) .actorInvalid)
    let slot? ← ask (.readSlot input.runId input.abandonedActorId)
    let abandonedSlot ← check (found slot? .actorRecoveryInvalid)
    let _ ← check (require (input.narrows abandoned) .actorRecoveryInvalid)
    let _ ← check (if plane.actorRecordCount < maxR3ActorRecords then .ok ()
      else .error (backpressure 1 0))
    let lease? ← ask (.readLeaseExpiry e.projectId)
    let lease ← check (found (lease?.filter (fun t => e.now < t)) .leaseInvalid)
    let replacement := input.replacement.row e input.runId input.workItemId lease
    let activeSlot ← replacementSlot input.runId abandonedSlot.activeSlot
    let _ ← check (if input.detectedAt ≤ e.now then .ok () else .error .malformed)
    let _ ← ask .prepareRecords
    let deltas ← ask (.prepareRunDeltas e.projectId input.runId input.uuids
      ((DeltaMutation.recoverRunActor
        (preparedActor format input.replacement.metadata replacement) input.recoveryId
        (format.contentSha256 (.recovery input.recovery))).deltas e.now))
    let batch : RecoverActorBatch :=
      { envelope := e
        runId := input.runId
        abandonedActorId := input.abandonedActorId
        abandonedSlotActive := abandonedSlot.activeSlot.isSome
        workItemId := input.workItemId
        registration := input.replacement
        leaseExpiresAt := lease
        replacementActiveSlot := activeSlot
        recordSlotStart := plane.actorRecordCount + 1
        recoveryId := input.recoveryId
        reason := input.reason
        detectedAt := input.detectedAt
        deltas := deltas }
    settle e .recoverActor (mapDatabaseFailure 1) (.recoverActor batch)
      (.actorRecovered batch.recovery))

end

end Mdevolved.Lead
