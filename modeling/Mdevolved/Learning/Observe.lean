import Mdevolved.Learning.Store
import Mdevolved.Lib.Interrupted

/-!
# Observing Checkpoints

An agent reports signals with a checkpoint. Each is recorded once for a checkpoint, and
where it has been reported at two points a draft is made of it. The observation and the
draft are two batches, and between them the draft is built: its evidence, whether another
draft is for the same thing, and its body.

A signal that was recorded before is passed over, and so is its draft.

## Main definitions

* `createDraftIfReady`: A draft of what was observed twice.
* `observeCompoundingCheckpoint`: The signals of a checkpoint.
-/

namespace Mdevolved.Learning

variable (h : Encoding)

def maxPendingDrafts : Nat := 128

/-! ## Drafts -/

/-- The draft that the evidence for a candidate makes. -/
def draftFor (candidate : CompoundingCandidate) (fingerprint : String) (conflict : Bool)
    (evidence : List CompoundingEvidence) (now : Nat) : CompoundingDraft :=
  { candidate := candidate
    conflict := conflict
    draftId := deterministicUuid h "draft" fingerprint
    evidence := evidence
    fingerprint := fingerprint
    firstObservedAt := (evidence.head?.map (·.acknowledgedAt)).getD now
    lastObservedAt := (evidence.getLast?.map (·.acknowledgedAt)).getD now
    observationCount := evidence.length
    status := .pending }

/-- The id of the first record of a draft. -/
def draftRecordId (fingerprint : String) : String :=
  deterministicUuid h "draft-record" fingerprint

def draftRecord (draft : CompoundingDraft) (stored : StoredBody) (now : Nat) :
    CompoundingRecord :=
  { recordId := draftRecordId h draft.fingerprint
    recordType := .draftVersion
    projectId := draft.candidate.projectId
    draftId := some draft.draftId
    observationId := none
    fingerprint := draft.fingerprint
    body := stored
    createdAt := now }

def draftRow (draft : CompoundingDraft) : DraftRow :=
  { draftId := draft.draftId
    fingerprint := draft.fingerprint
    candidate := draft.candidate
    status := .pending
    conflict := draft.conflict
    observationCount := draft.evidence.length
    evidence := draft.evidence
    firstObservedAt := draft.firstObservedAt
    lastObservedAt := draft.lastObservedAt
    currentRecordId := draftRecordId h draft.fingerprint }

/-- A batch that fails has been overtaken if there is a draft. -/
def unlessDrafted (fingerprint : String) (e : LearningError) : LearningCalls Bool := do
  let winner ← ask (.draftOf fingerprint)
  if winner.isSome then return false else throw e

/-- Insert a draft with its record, and say whether it was inserted. -/
def commitDraft (draft : CompoundingDraft) (stored : StoredBody) (now : Nat) :
    LearningCalls Bool :=
  tryCatch (ask (.commitDraft (draftRecord h draft stored now) (draftRow h draft)) :
      LearningCalls Bool)
    (unlessDrafted draft.fingerprint)

/-- Mark the drafts for the same thing after one of them was inserted. -/
def markCompetitors (draft : CompoundingDraft) (inserted : Bool) :
    LearningCalls (Option String) := do
  if !inserted then return none
  else if draft.conflict then do
    ask (.markConflicts draft.candidate)
    return some draft.draftId
  else return some draft.draftId

/-- Store the body of a draft and insert it. -/
def insertDraft (draft : CompoundingDraft) (now : Nat) : LearningCalls (Option String) := do
  let stored ← putImmutableBody h .compounding
    (.draft .draftVersion draft (draftRecordId h draft.fingerprint))
    (draftRecordId h draft.fingerprint)
  let inserted ← commitDraft h draft stored now
  markCompetitors draft inserted

/-- Make a draft of the first two pieces of evidence. -/
def createDraft (candidate : CompoundingCandidate) (fingerprint : String) (now : Nat) :
    LearningCalls (Option String) := do
  let found : List CompoundingEvidence ← ask (.evidenceFor fingerprint)
  if (found.take 2).length < 2 then return none
  else
    let competing : List String ← ask (.competitors candidate)
    insertDraft h
      (draftFor h candidate fingerprint (competing.any (fun f => f ≠ fingerprint)) (found.take 2)
        now) now

def createDraftIfReady (candidate : CompoundingCandidate) (fingerprint : String) (now : Nat) :
    LearningCalls (Option String) := do
  let points : Nat ← ask (.countPoints fingerprint)
  if points < 2 then return none
  else
    let existing : Option DraftRow ← ask (.draftOf fingerprint)
    if existing.isSome then return none
    else
      let pending : Nat ← ask .countPending
      if maxPendingDrafts ≤ pending then throw (.compounding .pendingDraftLimitExceeded)
      else createDraft h candidate fingerprint now

/-! ## Observations -/

/-- What is reported with a checkpoint. No signals stand for ones the schema refuses. -/
structure CheckpointObservationInput where
  acknowledgedAt : Nat
  checkpointId : String
  learningSignals : Option (List LearningSignal)
  pointContentSha256 : String
  producerClientId : String
  projectId : String

structure CompoundingObservationResult where
  createdDraftIds : List String
  observed : Nat
  deriving DecidableEq

def CheckpointObservationInput.point (input : CheckpointObservationInput) : CompoundingEvidence :=
  { acknowledgedAt := input.acknowledgedAt
    continuityPointId := input.checkpointId
    contentSha256 := input.pointContentSha256
    producerClientId := input.producerClientId }

def observationRecord (input : CheckpointObservationInput) (fingerprint observationId recordId : String)
    (stored : StoredBody) (now : Nat) : CompoundingRecord :=
  { recordId := recordId
    recordType := .checkpointObservation
    projectId := some input.projectId
    draftId := none
    observationId := some observationId
    fingerprint := fingerprint
    body := stored
    createdAt := now }

def observationRow (input : CheckpointObservationInput) (candidate : CompoundingCandidate)
    (fingerprint observationId recordId : String) : ObservationRow :=
  { observationId := observationId
    checkpointId := input.checkpointId
    projectId := input.projectId
    fingerprint := fingerprint
    candidate := candidate
    pointId := input.checkpointId
    pointContentSha256 := input.pointContentSha256
    producerClientId := input.producerClientId
    acknowledgedAt := input.acknowledgedAt
    recordId := recordId }

/-- A signal that may not be recorded with a checkpoint. -/
def refusedSignal (input : CheckpointObservationInput) (signal : LearningSignal) : Bool :=
  (signal.content.scope = .project && signal.content.projectId ≠ some input.projectId) ||
    h.containsCredential signal.content.text

/-- Record a signal, with the body of its record. -/
def recordObservation (input : CheckpointObservationInput) (signal : LearningSignal)
    (fingerprint : String) : LearningCalls Unit := do
  let (observationId, _) ← ask .draw
  let (recordId, _) ← ask .draw
  let stored ← putImmutableBody h .compounding
    (.observation fingerprint signal observationId input.point recordId) recordId
  let (_, now) ← ask .draw
  ask (.commitObservation
    (observationRecord input fingerprint observationId recordId stored now)
    (observationRow input (candidateFromSignal signal) fingerprint observationId recordId))

/-- What became of a signal: it was recorded before, or is now, with a draft or without. -/
inductive SignalOutcome
  | seen
  | observed (draftId : Option String)

/-- One signal of a checkpoint. -/
def observeSignal (input : CheckpointObservationInput) (signal : LearningSignal) :
    LearningCalls SignalOutcome := do
  if refusedSignal h input signal then throw (.compounding .signalInvalid)
  else
    let candidate := candidateFromSignal signal
    let existing : Option String ←
      ask (.findObservation input.checkpointId (fingerprint h candidate))
    if existing.isSome then return .seen
    else
      recordObservation h input signal (fingerprint h candidate)
      let draftId ← createDraftIfReady h candidate (fingerprint h candidate) input.acknowledgedAt
      return .observed draftId

def CompoundingObservationResult.add (result : CompoundingObservationResult) :
    SignalOutcome → CompoundingObservationResult
  | .seen => result
  | .observed draftId =>
      { createdDraftIds := result.createdDraftIds ++ draftId.toList
        observed := result.observed + 1 }

def observeSignals (input : CheckpointObservationInput) :
    List LearningSignal → CompoundingObservationResult →
      LearningCalls CompoundingObservationResult
  | [], result => pure result
  | signal :: signals, result => do
      let outcome ← observeSignal h input signal
      observeSignals input signals (result.add outcome)

def maxLearningSignals : Nat := 4

def observeCompoundingCheckpoint (input : CheckpointObservationInput) :
    LearningCalls CompoundingObservationResult := do
  match input.learningSignals with
  | none => throw (.compounding .signalInvalid)
  | some signals =>
      if maxLearningSignals < signals.length then throw (.compounding .signalLimitExceeded)
      else do
        let active : Bool ← ask (.activeProjectExists input.projectId)
        if !active then throw (.compounding .projectNotActive)
        else observeSignals h input signals { createdDraftIds := [], observed := 0 }

end Mdevolved.Learning
