import Mdevolved.Coordinator.Replica
import Mdevolved.Lib.Process
import Mdevolved.Materialization.Tables

/-!
# A Vault's Coordinator

The state of the object that serves one vault, and what its functions do to it
between two awaits. There is the document in memory, the checkpoint and journal
it is kept in, what the saves know of them, and the database that records how
far the vault has been saved.

A request to storage or to the database may be refused, or may take effect and
lose its answer. What happens between two awaits cannot fail halfway and cannot
be interrupted. Saves wait for one another in a chain: only the first of it is
at work.

## Main definitions

* `DocStore`: The checkpoint and the journal.
* `VaultState`: A vault and its coordinator.
* `VaultOp`: One request, or one step without an await.
* `SavePlan`: What a save decides to do.
* `effect`, `exec`: What an operation does, and how it ends.
-/

namespace Mdevolved.Coordinator

open Mdevolved.Materialization

def checkpointFallbackDeltaBytes : Nat := 2 * 1024 * 1024

def checkpointFallbackAfterFailures : Nat := 2

def journalCompactMaxEntries : Nat := 50

def journalCompactMaxBytes : Nat := 1 * 1024 * 1024

def automaticMaterializationDebounceMs : Nat := 2000

/-! ## Storage -/

/-- All of a document, and the state vector it had. -/
structure Checkpoint where
  update : List UInt8
  stateVector : List UInt8

structure JournalStats where
  entryCount : Nat
  totalBytes : Nat
  nextSeq : Nat

/-- A document as it is stored: a checkpoint and the updates since then. -/
structure DocStore where
  checkpoint : Option Checkpoint
  journal : List (List UInt8)

def DocStore.empty : DocStore := { checkpoint := none, journal := [] }

def DocStore.journalStats (store : DocStore) : JournalStats :=
  { entryCount := store.journal.length
    totalBytes := (store.journal.map List.length).sum
    nextSeq := store.journal.length + 1 }

/-- Append an update to the journal, unless it is empty. -/
def DocStore.appendUpdate (store : DocStore) (update : List UInt8) : DocStore :=
  if update = [] then store else { store with journal := store.journal ++ [update] }

/-- Put a checkpoint in place of all there was. -/
def DocStore.rewriteCheckpoint (checkpoint : Checkpoint) : DocStore :=
  { checkpoint := some checkpoint, journal := [] }

/-- The updates a document is loaded from, in their order. -/
def DocStore.updates (store : DocStore) : List (List UInt8) :=
  (store.checkpoint.map Checkpoint.update).toList ++ store.journal

/-! ## The coordinator -/

variable (Y : Yjs)

/-- One vault: its document in memory and in storage, the saves that wait, and
    the database. -/
structure VaultState where
  vaultId : String
  document : Y.Doc
  documentLoaded : Bool
  store : DocStore
  lastPersistedStateVector : Option (List UInt8)
  consecutiveSaveFailures : Nat
  saveChain : List Nat
  retryCount : Option Nat
  alarm : Option Nat
  db : MaterializationDb

inductive VaultError
  | unavailable
  | malformedUpdate
  | notPersisted
  deriving DecidableEq

/-- What a save is to do. -/
inductive SavePlan
  | skipped
  | append (delta stateVector : List UInt8)
  | checkpoint (checkpoint : Checkpoint)

inductive VaultOp
  | ensureDocumentLoaded
  | applyUpdate (update : List UInt8)
  | handleMessage (update : List UInt8)
  | enqueueSave (call : Nat)
  | beginSave (call : Nat)
  | appendUpdate (call : Nat) (delta : List UInt8)
  | rewriteCheckpoint (call : Nat) (checkpoint : Checkpoint)
  | getJournalStats
  | saveAppended (call : Nat) (stateVector : List UInt8) (stats : JournalStats)
  | appendFailed (call : Nat)
  | checkpointWritten (call : Nat) (stateVector : List UInt8)
  | saveFailed (call : Nat)
  | endSave (call : Nat)
  | requirePersistedStateVector
  | readRecordedStateVector
  | recordStateVector (stateVectorSha256 : String) (now : Nat)
  | clearRetry
  | readSyncState
  | setAlarm (delayMs : Nat)
  | sendEcho (stateVector : List UInt8)
  | closeConnection

/-- What an operation returns. -/
abbrev VaultOp.Ret : VaultOp → Type
  | .beginSave _ => SavePlan
  | .appendUpdate _ _ | .getJournalStats => JournalStats
  | .saveAppended _ _ _ | .appendFailed _ => Option Checkpoint
  | .requirePersistedStateVector => List UInt8
  | .readRecordedStateVector => Option String
  | .readSyncState => Option SyncStateRow
  | .sendEcho _ => Bool
  | _ => Unit

/-- A function of the coordinator. -/
abbrev VaultProcess (α : Type) : Type :=
  Process VaultOp (fun op => Except VaultError op.Ret) VaultError α

def ask (op : VaultOp) : VaultProcess op.Ret :=
  Process.request op

variable {Y}

/-- Load the document: what is stored is added to what is there. -/
def loadDocument (s : VaultState Y) : VaultState Y :=
  let document := s.store.updates.foldl Y.applyUpdate s.document
  { s with
    document := document
    documentLoaded := true
    lastPersistedStateVector :=
      match s.store.checkpoint, s.store.journal with
      | some checkpoint, [] => some checkpoint.stateVector
      | _, _ => some (Y.encodeStateVector document) }

/-- The document as a checkpoint. -/
def currentCheckpoint (s : VaultState Y) : Checkpoint :=
  { update := Y.encodeStateAsUpdate s.document none
    stateVector := Y.encodeStateVector s.document }

/-- What a save decides to do: nothing where the state vector is the one last
    persisted, a checkpoint where the change is large or saving failed before,
    and to append the change otherwise. -/
def planSave (s : VaultState Y) : SavePlan :=
  let currentStateVector := Y.encodeStateVector s.document
  if s.lastPersistedStateVector = some currentStateVector then .skipped
  else
    let delta := Y.encodeStateAsUpdate s.document s.lastPersistedStateVector
    if delta.length = 0 then .skipped
    else if checkpointFallbackDeltaBytes < delta.length ∨
        checkpointFallbackAfterFailures ≤ s.consecutiveSaveFailures then
      .checkpoint (currentCheckpoint s)
    else .append delta currentStateVector

/-- After an update was appended: a checkpoint, where the journal has grown too
    long. -/
def compaction (s : VaultState Y) (stats : JournalStats) : Option Checkpoint :=
  if journalCompactMaxEntries < stats.entryCount ∨ journalCompactMaxBytes < stats.totalBytes then
    some (currentCheckpoint s)
  else none

/-- Record a state vector in the row of an active vault. Only a new one makes
    the library stale. -/
def withStateVector (vaultId stateVectorSha256 : String) (now : Nat) (db : MaterializationDb) :
    MaterializationDb :=
  if vaultActive db vaultId then
    if db.syncStates.any (fun r => r.vaultId = vaultId) then
      { db with
        syncStates := Table.update
          (fun r => r.vaultId = vaultId && r.currentStateVectorSha256 ≠ some stateVectorSha256)
          (fun r =>
            { r with
              currentStateVectorSha256 := some stateVectorSha256, lastSyncAt := some now
              libraryStale := true, lastErrorCode := none, lastErrorAt := none
              updatedAt := now }) db.syncStates }
    else
      { db with
        syncStates := db.syncStates ++ [{
          vaultId := vaultId
          initialSyncAt := none
          lastSyncAt := some now
          currentStateVectorSha256 := some stateVectorSha256
          libraryStale := true
          lastErrorCode := none
          lastErrorAt := none
          updatedAt := now }] }
  else db

/-- What an operation does where it goes through. -/
def effect (s : VaultState Y) :
    (op : VaultOp) → Except VaultError (op.Ret × VaultState Y)
  | .ensureDocumentLoaded => .ok ((), if s.documentLoaded then s else loadDocument s)
  | .applyUpdate update =>
      if Y.decodes update then .ok ((), { s with document := Y.applyUpdate s.document update })
      else .error .malformedUpdate
  | .handleMessage update =>
      .ok ((), if Y.decodes update then
        { s with document := Y.applyUpdate s.document update } else s)
  | .enqueueSave call => .ok ((), { s with saveChain := s.saveChain ++ [call] })
  | .beginSave _ => .ok (planSave s, s)
  | .appendUpdate _ delta =>
      let store := s.store.appendUpdate delta
      .ok (store.journalStats, { s with store := store })
  | .rewriteCheckpoint _ checkpoint =>
      .ok ((), { s with store := DocStore.rewriteCheckpoint checkpoint })
  | .getJournalStats => .ok (s.store.journalStats, s)
  | .saveAppended _ stateVector stats =>
      .ok (compaction s stats,
        { s with lastPersistedStateVector := some stateVector, consecutiveSaveFailures := 0 })
  | .appendFailed _ =>
      .ok (if checkpointFallbackAfterFailures ≤ s.consecutiveSaveFailures + 1 then
          some (currentCheckpoint s) else none,
        { s with consecutiveSaveFailures := s.consecutiveSaveFailures + 1 })
  | .checkpointWritten _ stateVector =>
      .ok ((), { s with
        lastPersistedStateVector := some stateVector, consecutiveSaveFailures := 0 })
  | .saveFailed _ =>
      .ok ((), { s with consecutiveSaveFailures := s.consecutiveSaveFailures + 1 })
  | .endSave _ => .ok ((), { s with saveChain := s.saveChain.tail })
  | .requirePersistedStateVector =>
      match s.lastPersistedStateVector with
      | none => .error .unavailable
      | some stateVector => .ok (stateVector, s)
  | .readRecordedStateVector =>
      .ok ((syncStateOf s.db s.vaultId).bind SyncStateRow.currentStateVectorSha256, s)
  | .recordStateVector stateVectorSha256 now =>
      .ok ((), { s with db := withStateVector s.vaultId stateVectorSha256 now s.db })
  | .clearRetry => .ok ((), { s with retryCount := none })
  | .readSyncState =>
      .ok (if vaultActive s.db s.vaultId then syncStateOf s.db s.vaultId else none, s)
  | .setAlarm delayMs => .ok ((), { s with alarm := some delayMs })
  | .sendEcho _ => .ok (true, s)
  | .closeConnection => .ok ((), s)

/-- Whether an operation leaves the coordinator, so that it may be refused or
    its answer lost. -/
def VaultOp.isRequest : VaultOp → Bool
  | .appendUpdate _ _ | .rewriteCheckpoint _ _ | .getJournalStats | .readRecordedStateVector
  | .recordStateVector _ _ | .clearRetry | .readSyncState | .setAlarm _ => true
  | _ => false

/-- An operation, under what becomes of it. Loading reads everything before it
    changes anything, and sending an echo fails without an error. -/
def exec (op : VaultOp) (w : Batch.Outcome) (s : VaultState Y) :
    Except VaultError op.Ret × VaultState Y :=
  match op with
  | .ensureDocumentLoaded =>
      if s.documentLoaded || w = .answered then
        Batch.send .unavailable .answered (fun s => effect s .ensureDocumentLoaded) s
      else (.error .unavailable, s)
  | .sendEcho _ => (.ok (w ≠ .refused), s)
  | op => Batch.send .unavailable (if op.isRequest then w else .answered) (fun s => effect s op) s

/-- A save waits until it is the first of the chain, and messages wait until the
    document is loaded. -/
def ready (op : VaultOp) (s : VaultState Y) : Bool :=
  match op with
  | .beginSave call => s.saveChain.head? = some call
  | .handleMessage _ => s.documentLoaded
  | _ => true

end Mdevolved.Coordinator
