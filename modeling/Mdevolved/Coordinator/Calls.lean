import Mdevolved.Coordinator.Vault

/-!
# Calls of the Coordinator

The functions that change a vault and say that the change is kept, as processes
over its state. Each of them applies an update to the document in memory, saves
the document and records in the database how far it was saved. `executeSave`
saves by appending to the journal, and by a checkpoint where that is too much or
fails too often.

A receipt is what a call answers once that has gone well: the state vector that
was persisted last. `applyUpdate` returns it and `onMessage` sends it as an echo.

## Main definitions

* `executeSave`: One save, from its turn in the chain to its end.
* `persistCurrentDocument`: A save, and the record of it.
* `applyUpdate`, `onMessage`, `onSave`: Calls that save the document.
* `VaultCall`: The calls a vault receives.
* `VaultPool`: A vault and its calls.
-/

namespace Mdevolved.Coordinator

open Process (Pool)

inductive SaveMethod
  | append | checkpointFallback | immediateFallback | skipped

structure SaveResult where
  success : Bool
  method : SaveMethod

/-- Write a checkpoint, and whether that went well. -/
def saveCheckpoint (call : Nat) (checkpoint : Checkpoint) : VaultProcess Bool :=
  Process.tryCatch
    (do
      ask (.rewriteCheckpoint call checkpoint)
      ask (.checkpointWritten call checkpoint.stateVector)
      let _ ← ask .getJournalStats
      pure true)
    (fun _ => pure false)

def executeCheckpointFallback (call : Nat) (checkpoint : Checkpoint) : VaultProcess SaveResult := do
  let success ← saveCheckpoint call checkpoint
  if success then pure { success := true, method := .checkpointFallback }
  else do
    ask (.saveFailed call)
    pure { success := false, method := .checkpointFallback }

/-- After an update could not be appended, a checkpoint may be written in its
    place. -/
def executeImmediateFallback (call : Nat) : VaultProcess SaveResult := do
  let fallback ← ask (.appendFailed call)
  match fallback with
  | none => pure { success := false, method := .append }
  | some checkpoint => do
      let success ← saveCheckpoint call checkpoint
      pure { success := success, method := .immediateFallback }

/-- After an update was appended, a checkpoint may make the journal short again.
    Its failure does not matter. -/
def executeCompaction (call : Nat) (stateVector : List UInt8) (stats : JournalStats) :
    VaultProcess SaveResult := do
  let compaction ← ask (.saveAppended call stateVector stats)
  match compaction with
  | none => pure { success := true, method := .append }
  | some checkpoint => do
      let _ ← saveCheckpoint call checkpoint
      pure { success := true, method := .append }

/-- Append a change to the journal. -/
def executeAppend (call : Nat) (delta stateVector : List UInt8) : VaultProcess SaveResult := do
  let appended ← Process.tryCatch
    (do
      let stats ← ask (.appendUpdate call delta)
      pure (some stats))
    (fun _ => pure none)
  match appended with
  | none => executeImmediateFallback call
  | some stats => executeCompaction call stateVector stats

/-- One save, once it is its turn. -/
def executeSave (call : Nat) : VaultProcess SaveResult := do
  let plan ← ask (.beginSave call)
  match plan with
  | .skipped => pure { success := true, method := .skipped }
  | .checkpoint checkpoint => executeCheckpointFallback call checkpoint
  | .append delta stateVector => executeAppend call delta stateVector

/-- Wait for one's turn in the chain and save. -/
def enqueueSave (call : Nat) : VaultProcess SaveResult := do
  ask (.enqueueSave call)
  let result ← executeSave call
  ask (.endSave call)
  pure result

/-- Record in the database how far the document was saved. -/
def recordPersistedState (sha256 : List UInt8 → String) (now : Nat) : VaultProcess Unit := do
  let stateVector ← ask .requirePersistedStateVector
  let stateVectorSha256 := sha256 stateVector
  let previous ← ask .readRecordedStateVector
  ask (.recordStateVector stateVectorSha256 now)
  if previous ≠ some stateVectorSha256 then
    ask .clearRetry
  else pure ()
  let state ← ask .readSyncState
  if state.any (fun r => r.initialSyncAt.isSome && r.libraryStale && r.lastErrorCode = none) then
    ask (.setAlarm automaticMaterializationDebounceMs)
  else pure ()

def persistCurrentDocument (sha256 : List UInt8 → String) (call now : Nat) :
    VaultProcess SaveResult := do
  ask .ensureDocumentLoaded
  let result ← enqueueSave call
  if result.success then
    recordPersistedState sha256 now
  else pure ()
  pure result

/-- Apply an update, and return the state vector that was persisted. -/
def applyUpdate (sha256 : List UInt8 → String) (update : List UInt8) (call now : Nat) :
    VaultProcess (Option (List UInt8)) := do
  ask .ensureDocumentLoaded
  ask (.applyUpdate update)
  let result ← persistCurrentDocument sha256 call now
  if result.success then do
    let stateVector ← ask .requirePersistedStateVector
    pure (some stateVector)
  else throw .notPersisted

/-- Handle a message that carries an update, and send the state vector that was
    persisted as an echo. -/
def onMessage (sha256 : List UInt8 → String) (update : List UInt8) (call now : Nat) :
    VaultProcess (Option (List UInt8)) := do
  ask (.handleMessage update)
  let result ← persistCurrentDocument sha256 call now
  if result.success then do
    let stateVector ← ask .requirePersistedStateVector
    let sent ← ask (.sendEcho stateVector)
    pure (if sent then some stateVector else none)
  else do
    ask .closeConnection
    pure none

/-- Save the document, as the server asks for after a while without changes. -/
def onSave (sha256 : List UInt8 → String) (call now : Nat) : VaultProcess (Option (List UInt8)) :=
  do
    let result ← persistCurrentDocument sha256 call now
    if result.success then pure none else throw .notPersisted

/-- The calls a vault receives. -/
inductive VaultCall
  | applyUpdate (update : List UInt8) (now : Nat)
  | message (update : List UInt8) (now : Nat)
  | save (now : Nat)

/-- The update a call was given. -/
def VaultCall.update : VaultCall → Option (List UInt8)
  | .applyUpdate update _ | .message update _ => some update
  | .save _ => none

def VaultCall.process (sha256 : List UInt8 → String) (call : Nat) :
    VaultCall → VaultProcess (Option (List UInt8))
  | .applyUpdate update now => Coordinator.applyUpdate sha256 update call now
  | .message update now => onMessage sha256 update call now
  | .save now => onSave sha256 call now

/-- A vault and its calls, each under its number. -/
abbrev VaultPool (Y : Yjs) : Type :=
  Pool Nat VaultOp (fun op => Except VaultError op.Ret) (VaultState Y) VaultError
    (Option (List UInt8))

end Mdevolved.Coordinator
