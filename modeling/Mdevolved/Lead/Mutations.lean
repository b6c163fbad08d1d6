import Mdevolved.Lead.Store

/-!
# Mutations of the Lead

How a function that leads a Run begins and ends, and the two that start a Run and
complete its work item. What a function checks it checks on what it has read, and
what it sends in the end is made from that.

A mutation begins with the authorization of the caller and with the receipt of an
earlier request by the same key. Where a mutation is denied for what an actor did,
an exception is left, with a receipt of the failure. The functions of elastic Runs
look for a receipt again where their batch has failed, since another request by the
same key may have been faster.

Identifiers that a function draws are given to it, in the order in which it draws
them. How texts are encoded, hashed and measured is a parameter.

## Main definitions

* `LeadFormat`: How records are encoded.
* `LeadProcess`: A function as the sequence of its requests.
* `mutation`: How a mutation begins.
* `commit`, `settle`: How it ends.
* `deny`: What becomes of a mutation that is denied.
-/

namespace Mdevolved.Lead

/-- A record whose body is stored, and whose hash is kept with its delta. -/
inductive LeadRecord
  | actor (row : ActorRow)
  | bundle (bundle : EventBundle)
  | entry (entry : BudgetEntry)
  | recovery (row : ActorRecoveryRow)

/-- How records are encoded, and which paths are under a protected root. -/
structure LeadFormat where
  byteLength : EventBundle → Nat
  contentSha256 : LeadRecord → String
  isProtectedPath : String → Bool

abbrev LeadProcess (α : Type) : Type :=
  Process LeadOp (fun op => Except LeadError op.Ret) LeadError α

def ask (op : LeadOp) : LeadProcess op.Ret :=
  Process.request op

/-- Go on with what is already there. -/
def check {α : Type} (r : Except LeadError α) : LeadProcess α :=
  Process.ofExcept r

/-! ## Errors -/

def problem (code : LeadOperationProblemCode) : LeadError :=
  .problem code none

/-- Go on where a condition holds, and end with a problem where it does not. -/
def require (c : Bool) (code : LeadOperationProblemCode) : Except LeadError Unit :=
  if c then .ok () else .error (problem code)

/-- Go on with what was found. -/
def found {α : Type} (x : Option α) (code : LeadOperationProblemCode) : Except LeadError α :=
  match x with
  | none => .error (problem code)
  | some a => .ok a

/-- There is no room for a batch, and it may be tried again with fewer. -/
def backpressure (batchSize capacity : Nat) : LeadError :=
  .problem .backpressure (some {
    reason := .capacity
    reduceBatchTo := max 1 (min (batchSize - 1) capacity)
    retryAfterMs := 250
    retryable := 0 < capacity })

/-- What a failed batch of an elastic Run is told by. -/
def mapDatabaseFailure (batchSize : Nat) : LeadError → LeadError
  | .unique .actorSlot => backpressure batchSize (max 1 (batchSize - 1))
  | .unique .elasticRecordId | .unique .budgetEntryId => problem .idempotencyConflict
  | .unique .budgetEntryVersion | .unique .budgetVersion =>
      .problem .backpressure (some {
        reason := .databaseOverloaded
        reduceBatchTo := max 1 (batchSize / 2)
        retryAfterMs := 250
        retryable := true })
  | .unique .recovery => problem .actorRecoveryInvalid
  | e => e

/-! ## Beginning and ending a mutation -/

/-- What an earlier request by the same key came to. -/
def replayResult (e : Envelope) : Option ReceiptRow → Except LeadError (Option LeadResult)
  | none => .ok none
  | some receipt =>
      if receipt.requestSha256 ≠ e.requestSha256 then .error (problem .idempotencyConflict)
      else
        match receipt.result with
        | .ok result => .ok (some result)
        | .error code => .error (problem code)

def readReplay (e : Envelope) (operation : LeadOperation) : LeadProcess (Option LeadResult) := do
  let receipt ← ask (.readReceipt e.grantId operation e.idempotencyKeySha256)
  check (replayResult e receipt)

def beginMutation (e : Envelope) (operation : LeadOperation) :
    LeadProcess (Option LeadResult) := do
  let _ ← ask (.authorizeLead e.projectId e.grantId)
  readReplay e operation

/-- Begin a mutation, and make it where no earlier request by its key was. -/
def mutation (e : Envelope) (operation : LeadOperation) (mutate : LeadProcess LeadResult) :
    LeadProcess LeadResult := do
  match ← beginMutation e operation with
  | some prior => return prior
  | none => mutate

/-- A batch and what it was for. -/
def commit (op : LeadOp) (result : LeadResult) : LeadProcess LeadResult := do
  let _ ← ask op
  return result

/-- Where a batch has failed, an earlier request by the same key may have been
    faster. -/
def settle (e : Envelope) (operation : LeadOperation) (rethrow : LeadError → LeadError) (op : LeadOp)
    (result : LeadResult) : LeadProcess LeadResult :=
  Process.tryCatch (commit op result) (fun error => do
    match ← readReplay e operation with
    | some prior => return prior
    | none => throw (rethrow error))

/-- An exception that blocks, of a Run and maybe of one of its actors. -/
def makeException (e : Envelope) (run : RunRow) (exceptionId : String) (actorId : Option String)
    (kind : ExceptionKind) : ExceptionRow :=
  { exceptionId := exceptionId
    projectId := e.projectId
    runId := some run.runId
    workItemId := some run.workItemId
    actorId := actorId
    kind := kind
    status := .blocking
    requestedAction := none
    normalizedRelativePath := none
    evidenceRefs := []
    createdAt := e.now
    resolvedAt := none }

/-- A denied mutation leaves an exception and fails. -/
def deny {α : Type} (e : Envelope) (operation : LeadOperation) (exception : ExceptionRow) :
    LeadProcess α := do
  let _ ← ask .prepareRecords
  let _ ← ask (.denied { envelope := e, operation := operation, exception := exception })
  throw (problem exception.kind.failure)

/-- A Run that is worked on, and on the work item that was asked for. -/
def activeRun (workItemId : Option String) (run : Option RunRow) : Except LeadError RunRow :=
  found (run.filter (fun r => r.status = .active && workItemId.all (fun id => r.workItemId = id)))
    .runInvalid

/-! ## Starting a Run -/

structure StartRunInput where
  envelope : Envelope
  workItemId : String
  purpose : RunPurpose
  completionMode : Option CompletionMode
  elastic : Bool
  /-- The newest packet that can be used, or why there is none. -/
  workPacketId : Except LeadOperationProblemCode String
  /-- The standing policy, and whether it was made for this Run. -/
  policyId : Except LeadOperationProblemCode (String × Bool)
  runId : String
  elasticIds : ElasticIds

def StartRunInput.batch (input : StartRunInput) (workPacketId : String)
    (policyId : String × Bool) : StartRunBatch :=
  { envelope := input.envelope
    runId := input.runId
    workItemId := input.workItemId
    workPacketId := workPacketId
    policyId := policyId.1
    policyIsNew := policyId.2
    purpose := input.purpose
    completionMode := input.completionMode.getD .orchestratedReviewed
    elasticIds := if input.elastic then some input.elasticIds else none }

def startLeadRun (input : StartRunInput) : LeadProcess LeadResult :=
  mutation input.envelope .startRun (do
    let item ← ask (.readWorkItem input.envelope.projectId input.workItemId)
    let _ ← check (require (item.any (fun i => i.status = .opened)) .workItemInvalid)
    let workPacketId ← check (input.workPacketId.mapError problem)
    let policyId ← check (input.policyId.mapError problem)
    let _ ← ask .prepareRecords
    let batch := input.batch workPacketId policyId
    settle input.envelope .startRun id (.startRun batch)
      (.runStarted batch.run (batch.elastic.map ElasticStart.budget)))

/-! ## Completing a work item -/

structure CompleteInput where
  envelope : Envelope
  runId : String
  workItemId : String
  outcome : String

/-- Whether as many actors were registered as the mode of a Run asks for. -/
def RunRow.staffed (run : RunRow) : Bool :=
  match run.completionMode with
  | .soloVerified => run.actorCount = 1
  | .orchestratedReviewed => minHandsOffActors ≤ run.actorCount

def completeLeadWorkItem (input : CompleteInput) : LeadProcess LeadResult :=
  let e := input.envelope
  mutation e .completeWorkItem (do
    let read ← ask (.readRunRow e.projectId input.runId)
    let run ← check (activeRun (some input.workItemId) read)
    let _ ← check (require run.staffed .reviewRequired)
    let blocked ← ask (.readBlocker e.projectId input.runId)
    let _ ← check (require (!blocked) .exceptionBlocking)
    let reviewed ← ask (.readReview e.projectId input.runId)
    let _ ← check (require (run.completionMode = .soloVerified || reviewed) .reviewRequired)
    let covered ← ask (.readCheckpoint e.projectId input.workItemId run.workPacketId run.createdAt)
    let _ ← check (require covered .checkpointRequired)
    let accepted ← ask (.readCompletionPolicyFence e.projectId input.runId)
    let _ ← check (require (run.completionMode = .orchestratedReviewed || accepted.isSome)
      .policyRequired)
    commit (.complete {
        envelope := e
        runId := input.runId
        workItemId := input.workItemId
        outcome := input.outcome
        acceptedBundleCount := accepted })
      (.workItemCompleted input.workItemId))

end Mdevolved.Lead
