import Mdevolved.Lib.Utf16
import Mdevolved.Source.Core

/-!
# The Controller of the Desktop

The desktop application keeps one folder in step with the service. Its controller selects
the folder, pairs it, and holds the runtime that synchronizes it. Its methods are called by
the window and by pairing links, and several may be under way at once: what a method does
between two awaits is done at once, and whatever it awaits may fail.

A runtime is started by the controller that created it. From then on it synchronizes by
itself, each time its watcher reports, until it is stopped. What it reports to the
controller is that it is offline.

What is read from protected custody is a text, and what a pairing link or such a text says
is left to functions that are given.

## Main definitions

* `SyncStatus`, `Controller`, `Runtime`: The state.
* `DesktopOp`: Segments and requests.
* `DesktopOp.exec`: What they do.
* `restore`, `selectFolder`, `pair`, `retry`, `repair`, `revoke`: The methods.
* `watched`: What a watcher makes a runtime do.
-/

namespace Mdevolved.Desktop

open Source (SourceCoreStatus createSourceDescriptor)

/-! ## The state -/

inductive SyncPhase
  | unconfigured | connecting | syncing | ready | offline | conflict | repairing | revoked | error

structure SyncStatus where
  phase : SyncPhase
  folderPath : Option String
  message : Option String
  pendingChanges : Nat
  lastSyncedAt : Option String
  canRetry : Bool
  canRepair : Bool
  revoked : Bool

def initialStatus : SyncStatus :=
  { phase := .unconfigured
    folderPath := none
    message := none
    pendingChanges := 0
    lastSyncedAt := none
    canRetry := false
    canRepair := false
    revoked := false }

structure PairingConnection where
  host : String
  token : String
  vaultId : String
  fingerprint : String
  issuedAt : Int
  expiresAt : Option Int
  deviceId : Option String
  rootFingerprintSha256 : Option String

structure StoredDesktopConnection where
  sourceId : String
  folderPath : Option String
  connection : PairingConnection

structure PairingParameters where
  deploymentUrl : String
  grant : String

/-- The fields of the controller. A runtime is known by its number. -/
structure Controller where
  status : SyncStatus
  runtime : Option Nat
  folderPath : Option String
  pendingPairingLink : Option String
  connection : Option PairingConnection

/-- The watcher of a runtime is installed once, and closed when the runtime is stopped. -/
inductive Watcher
  | absent | active | closed
  deriving DecidableEq

/-- What a runtime keeps of itself. -/
structure Runtime where
  started : Bool
  stopped : Bool
  watcher : Watcher
  pending : Bool

/-- The controller, and the runtimes it has created. -/
structure World where
  controller : Controller
  created : Nat
  runtimes : Nat → Runtime

/-- A runtime that was started and not stopped. -/
def World.running (s : World) (id : Nat) : Bool :=
  (s.runtimes id).started && !(s.runtimes id).stopped

def World.initial : World :=
  { controller :=
      { status := initialStatus
        runtime := none
        folderPath := none
        pendingPairingLink := none
        connection := none }
    created := 0
    runtimes := fun _ =>
      { started := false, stopped := false, watcher := .absent, pending := false } }

/-! ## Texts -/

/-- What texts say that are read here, and how they are written. -/
structure Texts where
  parsePairingLink : String → Option PairingParameters
  decodeConnection : String → Option StoredDesktopConnection
  encodeConnection : StoredDesktopConnection → String
  sha256Hex : String → String
  basename : String → String

def clientVersion : String := "mdevolved-cli-alpha.1"

/-- The path of a folder, or an error. -/
def assertFolderPath (value : String) : Option String :=
  if value = "" ∨ 4096 < (Utf16.units value).length then none
  else if value.toList.any (fun c => c = Char.ofNat 0 || c = '\n' || c = '\r') then none
  else some value

/-! ## Segments and requests -/

inductive SyncRuntimeStatus
  | starting | running | syncing | offline | error | stopped
  deriving DecidableEq

inductive DesktopError
  | failed
  | typeError
  | pairingLinkInvalid
  | folderPathInvalid
  | descriptorInvalid
  | runtimeStopped
  | receiptUnconfirmed
  deriving DecidableEq

inductive DesktopOp
  /-- What a method does to the fields, the runtime apart. -/
  | sync (f : String → Controller → Controller)
  /-- The runtime of the controller is given up, and the fields change. -/
  | clear (f : Controller → Controller)
  /-- A runtime becomes that of the controller, and is started. -/
  | adopt (id : Nat)
  | revokeCurrent
  | stopCurrent
  | load
  | save (value : String)
  | folderSourceIdentity (path : String)
  | pairFolder (parameters : PairingParameters) (label : String) (rootFingerprintSha256 : String)
  | createPortableVaultSync (connection : PairingConnection)
  | createSyncRuntime (sourceRoot : String)
  | confirmDurable
  | confirmSourcePublication (connection : PairingConnection)
  /-- Whether a runtime was stopped. -/
  | isStopped (id : Nat)
  | emit (id : Nat) (status : SyncRuntimeStatus)
  | coreStart
  | waitForLocalPersistence
  | waitForProviderSync
  | reconcileFolder
  | installWatcher (id : Nat)
  /-- A watcher reports, and the runtime begins unless it has not ended with the last report. -/
  | report (id : Nat)
  | settle (id : Nat)

abbrev DesktopOp.Ret : DesktopOp → Type
  | sync _ => Controller
  | clear _ => Controller
  | adopt _ => Unit
  | revokeCurrent => Unit
  | stopCurrent => Unit
  | load => Option String
  | save _ => Unit
  | folderSourceIdentity _ => String
  | pairFolder _ _ _ => PairingConnection
  | createPortableVaultSync _ => Unit
  | createSyncRuntime _ => Nat
  | confirmDurable => Bool
  | confirmSourcePublication _ => Unit
  | isStopped _ => Bool
  | emit _ _ => Unit
  | coreStart => SourceCoreStatus
  | waitForLocalPersistence => Unit
  | waitForProviderSync => Bool
  | reconcileFolder => Bool
  | installWatcher _ => Unit
  | report _ => Bool
  | settle _ => Unit

/-- What is decided outside: whether a request fails, and what it is answered with. A
    reconciliation that does not fail may still be unconfirmed. -/
structure Outside where
  fails : Bool
  now : String
  loaded : Option String
  identity : String
  connection : PairingConnection
  coreStatus : SourceCoreStatus
  confirmed : Bool

namespace World

def setStatus (f : SyncStatus → SyncStatus) (s : World) : World :=
  { s with controller := { s.controller with status := f s.controller.status } }

def setRuntime (id : Nat) (f : Runtime → Runtime) (s : World) : World :=
  { s with runtimes := Function.update s.runtimes id (f (s.runtimes id)) }

end World

def offlineStatus (status : SyncStatus) : SyncStatus :=
  { status with
    phase := .offline, message := some "Offline; changes remain local", canRetry := true }

/-- A runtime is stopped at once. -/
def Runtime.stop (r : Runtime) : Runtime :=
  { r with stopped := true, watcher := if r.watcher = .active then .closed else r.watcher }

def Runtime.installWatcher (r : Runtime) : Runtime :=
  { r with watcher := if r.watcher = .absent then .active else r.watcher }

/-- What a segment or a request does to the state. -/
def DesktopOp.after (op : DesktopOp) (w : Outside) (s : World) : World :=
  match op with
  | sync f => { s with controller := { f w.now s.controller with runtime := s.controller.runtime } }
  | clear f => { s with controller := { f s.controller with runtime := none } }
  | adopt id =>
      ({ s with controller := { s.controller with runtime := some id } }).setRuntime id
        (fun r => { r with started := true })
  | stopCurrent =>
      match s.controller.runtime with
      | none => s
      | some id => s.setRuntime id Runtime.stop
  | createSyncRuntime _ => if w.fails then s else { s with created := s.created + 1 }
  | emit _ status => if status = .offline then s.setStatus offlineStatus else s
  | installWatcher id => s.setRuntime id Runtime.installWatcher
  | report id =>
      if (s.runtimes id).watcher = .active then
        s.setRuntime id (fun r => { r with pending := true })
      else s
  | settle id => s.setRuntime id (fun r => { r with pending := false })
  | _ => s

/-- What it is answered with. -/
def DesktopOp.answer (op : DesktopOp) (w : Outside) (s : World) : op.Ret :=
  match op with
  | sync _ => (op.after w s).controller
  | clear _ => (op.after w s).controller
  | load => w.loaded
  | folderSourceIdentity _ => w.identity
  | pairFolder _ _ _ => w.connection
  | createSyncRuntime _ => s.created
  | confirmDurable => w.confirmed
  | isStopped id => (s.runtimes id).stopped
  | coreStart => w.coreStatus
  | waitForProviderSync => w.confirmed
  | reconcileFolder => w.confirmed
  | report id => (s.runtimes id).watcher = .active && !(s.runtimes id).pending
  | adopt _ => ()
  | revokeCurrent => ()
  | stopCurrent => ()
  | save _ => ()
  | createPortableVaultSync _ => ()
  | confirmSourcePublication _ => ()
  | emit _ _ => ()
  | waitForLocalPersistence => ()
  | installWatcher _ => ()
  | settle _ => ()

/-- Whether it may fail. What is asked of the runtime of the controller is asked of none
    where there is none, and a runtime that is stopped already stops at once. -/
def DesktopOp.mayFail (op : DesktopOp) (s : World) : Bool :=
  match op with
  | sync _ | clear _ | adopt _ | isStopped _ | emit _ _ | installWatcher _ | report _ | settle _ =>
      false
  | revokeCurrent => s.controller.runtime.isSome
  | stopCurrent => s.controller.runtime.any (fun id => !(s.runtimes id).stopped)
  | _ => true

def DesktopOp.exec (op : DesktopOp) (w : Outside) (s : World) :
    Except DesktopError op.Ret × World :=
  (if op.mayFail s && w.fails then .error .failed else .ok (op.answer w s), op.after w s)

abbrev DesktopCalls (α : Type) :=
  Process DesktopOp (fun op => Except DesktopError op.Ret) DesktopError α

def ask (op : DesktopOp) : DesktopCalls op.Ret :=
  Process.request op

/-! ## Runtimes -/

/-- Reconcile the folder once. -/
def reconcileOnce (id : Nat) : DesktopCalls Unit := do
  let confirmed : Bool ← ask .reconcileFolder
  if confirmed then ask (.emit id .running) else throw .receiptUnconfirmed

def syncFailed (id : Nat) (e : DesktopError) : DesktopCalls Unit := do
  ask (.emit id (if e = .receiptUnconfirmed then .offline else .error))
  throw e

def syncOnce (id : Nat) : DesktopCalls Unit := do
  let stopped : Bool ← ask (.isStopped id)
  if stopped then throw .runtimeStopped
  else do
    ask (.emit id .syncing)
    tryCatch (reconcileOnce id) (syncFailed id)

/-- The first reconciliation went wrong. The watcher is installed all the same. -/
def firstFailed (id : Nat) (e : DesktopError) : DesktopCalls (Option SyncRuntimeStatus) := do
  ask (.installWatcher id)
  if e = .receiptUnconfirmed then do
    ask (.emit id .offline)
    return some .offline
  else throw e

def firstSync (id : Nat) : DesktopCalls (Option SyncRuntimeStatus) := do
  syncOnce id
  return none

def startedRuntime (id : Nat) (providerReady : Bool) : DesktopCalls SyncRuntimeStatus := do
  ask (.installWatcher id)
  if providerReady then do
    ask (.emit id .running)
    return .running
  else do
    ask (.emit id .offline)
    return .offline

def startVault (id : Nat) : DesktopCalls SyncRuntimeStatus := do
  ask .waitForLocalPersistence
  let providerReady : Bool ← ask .waitForProviderSync
  let ended ← tryCatch (firstSync id) (firstFailed id)
  match ended with
  | some status => return status
  | none => startedRuntime id providerReady

/-- The core of the source does not run. -/
def refuseStart (id : Nat) (status : SourceCoreStatus) : DesktopCalls SyncRuntimeStatus := do
  ask (.emit id (if status = .expired ∨ status = .revoked then .error else .offline))
  return .offline

/-- What is left of the start of a runtime, which was not stopped when it began. -/
def startRuntime (id : Nat) : DesktopCalls SyncRuntimeStatus := do
  ask (.emit id .starting)
  let status : SourceCoreStatus ← ask .coreStart
  if status = .running then startVault id else refuseStart id status

/-- The watcher of a runtime reports. -/
def watched (id : Nat) : DesktopCalls Unit := do
  let begins : Bool ← ask (.report id)
  if begins then do
    tryCatch (syncOnce id) (fun _ => pure ())
    ask (.settle id)
  else pure ()

/-! ## The methods -/

/-- Change the status, and answer with it. -/
def set (f : String → SyncStatus → SyncStatus) : DesktopCalls SyncStatus := do
  let c : Controller ← ask (.sync (fun now c => { c with status := f now c.status }))
  return c.status

/-- The fields as they are. -/
def look : DesktopCalls Controller :=
  ask (.sync (fun _ c => c))

/-- The runtime has started. -/
def confirmStart (connection : PairingConnection) : DesktopCalls SyncStatus := do
  let c ← look
  match c.runtime with
  | none => throw .typeError
  | some _ => do
      ask (.confirmSourcePublication connection)
      set (fun now status => { status with
        phase := .ready
        message := some "Up to date"
        canRetry := false
        canRepair := true
        lastSyncedAt := some now })

def connect (stored : StoredDesktopConnection) (folder : String) : DesktopCalls SyncStatus := do
  ask (.createPortableVaultSync stored.connection)
  let id : Nat ← ask (.createSyncRuntime folder)
  ask (.adopt id)
  let status ← startRuntime id
  if status = .offline then
    set (fun _ status => { offlineStatus status with canRepair := true })
  else confirmStart stored.connection

/-- The fields of a controller that connects, if a folder is selected. -/
def connecting (connection : PairingConnection) (c : Controller) : Controller :=
  match c.folderPath with
  | none => c
  | some folder =>
      { c with
        connection := some connection
        status := { c.status with
          phase := .connecting
          folderPath := some folder
          message := some "Connecting"
          canRetry := true
          revoked := false } }

def start (stored : StoredDesktopConnection) : DesktopCalls SyncStatus := do
  let c : Controller ← ask (.sync (fun _ => connecting stored.connection))
  match c.folderPath with
  | none => return c.status
  | some folder => connect stored folder

section Methods

variable (t : Texts)

/-- What a link says, or an error. -/
def parsed (pairingLink : String) : Except DesktopError PairingParameters :=
  match t.parsePairingLink pairingLink with
  | none => .error .pairingLinkInvalid
  | some parameters => .ok parameters

/-- The label of a folder, if a source may have it. -/
def described (folder : String) : Except DesktopError String :=
  match createSourceDescriptor "folder" (t.basename folder) ["markdown", "watch"] clientVersion 1
      { pairedAt := 0, pairingId := none, changedAt := none } with
  | .error _ => .error .descriptorInvalid
  | .ok descriptor => .ok descriptor.label

/-- A link is kept until a folder is selected. -/
def pairLater (pairingLink : String) : DesktopCalls SyncStatus := do
  let _ ← Process.ofExcept (parsed t pairingLink)
  let c : Controller ← ask (.sync (fun _ c => { c with
    pendingPairingLink := some pairingLink
    status := { c.status with
      phase := .unconfigured
      message := some "Pairing request received. Choose the folder to connect."
      canRetry := false
      canRepair := false } }))
  return c.status

def pairNow (pairingLink : String) (folder : String) : DesktopCalls SyncStatus := do
  let sourceId : String ← ask (.folderSourceIdentity folder)
  let current ← look
  let label ← Process.ofExcept (described t (current.folderPath.getD folder))
  let parameters ← Process.ofExcept (parsed t pairingLink)
  let connection : PairingConnection ←
    ask (.pairFolder parameters label (t.sha256Hex sourceId))
  let c ← look
  ask (.save (t.encodeConnection
    { sourceId := sourceId, folderPath := c.folderPath, connection := connection }))
  start { sourceId := sourceId, folderPath := none, connection := connection }

def pair (pairingLink : String) : DesktopCalls SyncStatus := do
  let c ← look
  match c.folderPath with
  | none => pairLater t pairingLink
  | some folder => pairNow t pairingLink folder

def askToPair (selected : String) : DesktopCalls SyncStatus :=
  set (fun _ status => { status with
    phase := .unconfigured
    folderPath := some selected
    message := some ("Folder selected. Create a private pairing request in your MDevolved " ++
      "dashboard.")
    canRetry := false
    canRepair := false
    revoked := false })

/-- Whether what is stored is a connection of a source. -/
def connectionOf (sourceId : String) (loaded : Option String) : Option StoredDesktopConnection :=
  (loaded.bind t.decodeConnection).filter (fun stored => stored.sourceId = sourceId &&
    stored.connection.rootFingerprintSha256.all (fun root => root = t.sha256Hex sourceId))

def saveFolder (stored : StoredDesktopConnection) (selected : String) : DesktopCalls Unit :=
  if stored.folderPath ≠ some selected then
    ask (.save (t.encodeConnection { stored with folderPath := some selected }))
  else pure ()

def reconnect (selected sourceId : String) : DesktopCalls SyncStatus := do
  let loaded : Option String ← ask .load
  match connectionOf t sourceId loaded with
  | none => askToPair selected
  | some stored => do
      saveFolder t stored selected
      start { stored with folderPath := some selected }

/-- A link that was kept is taken now. -/
def pairPending (selected sourceId : String) : DesktopCalls SyncStatus := do
  let c ← look
  match c.pendingPairingLink.filter (· ≠ "") with
  | none => reconnect t selected sourceId
  | some pending => do
      let _ : Controller ← ask (.sync (fun _ c => { c with pendingPairingLink := none }))
      pair t pending

def selectValid (selected : String) : DesktopCalls SyncStatus := do
  ask .stopCurrent
  let _ : Controller ← ask (.clear (fun c => { c with folderPath := some selected }))
  let sourceId : String ← ask (.folderSourceIdentity selected)
  pairPending t selected sourceId

def selectChecked (folderPath : String) : DesktopCalls SyncStatus :=
  match assertFolderPath folderPath with
  | none => throw .folderPathInvalid
  | some selected => selectValid t selected

def selectFailed (selected : Option String) (pairingPending : Bool) : DesktopCalls SyncStatus := do
  let c : Controller ← ask (.sync (fun _ c => { c with
    status := { c.status with
      phase := .error
      folderPath := selected.orElse (fun _ => c.status.folderPath)
      message := some (if pairingPending then
        "Pairing failed. Create a fresh private request and try again."
        else "Connection failed. Try again or choose the folder again.")
      canRetry := c.runtime.isSome
      canRepair := c.runtime.isSome } }))
  return c.status

def selectFolder (folderPath : String) : DesktopCalls SyncStatus := do
  let c ← look
  tryCatch (selectChecked t folderPath)
    (fun _ => selectFailed (assertFolderPath folderPath) c.pendingPairingLink.isSome)

def restoreFailed : DesktopCalls SyncStatus :=
  set (fun _ status => { status with
    phase := .error
    message := some "Protected connection could not be restored. Reconnect it."
    canRetry := false
    canRepair := false })

def status : DesktopCalls SyncStatus := do
  let c ← look
  return c.status

def restoreLoaded (loaded : Option String) : DesktopCalls SyncStatus :=
  match loaded with
  | none => status
  | some value =>
      match t.decodeConnection value with
      | none => restoreFailed
      | some stored =>
          match stored.folderPath with
          | none => status
          | some folder => selectFolder t folder

def restoreStored : DesktopCalls SyncStatus := do
  let loaded : Option String ← ask .load
  restoreLoaded t loaded

def restore : DesktopCalls SyncStatus :=
  tryCatch (restoreStored t) (fun _ => restoreFailed)

/-- What was stored is confirmed, as far as there is a connection. -/
def confirmConnection : DesktopCalls Unit := do
  let c ← look
  match c.connection, c.runtime with
  | none, _ => pure ()
  | some _, none => throw .typeError
  | some connection, some _ => ask (.confirmSourcePublication connection)

def confirmCurrent : DesktopCalls Unit := do
  let c ← look
  match c.runtime with
  | none => throw .typeError
  | some _ => do
      let durable : Bool ← ask .confirmDurable
      if durable then confirmConnection else throw .receiptUnconfirmed

def retryWith (id : Nat) : DesktopCalls SyncStatus := do
  syncOnce id
  confirmCurrent
  set (fun _ status =>
    { status with phase := .ready, message := some "Up to date", canRetry := false })

def retry : DesktopCalls SyncStatus := do
  let c ← look
  match c.runtime with
  | none => return c.status
  | some id => tryCatch (retryWith id) (fun _ => set (fun _ => offlineStatus))

def repair : DesktopCalls SyncStatus :=
  retry

/-- The fields of a controller that is revoked. -/
def disconnected (c : Controller) : Controller :=
  { c with
    connection := none
    status := { c.status with
      phase := .revoked
      message := some "Disconnected"
      canRetry := false
      canRepair := false
      revoked := true } }

def revoke : DesktopCalls SyncStatus := do
  ask .revokeCurrent
  ask .stopCurrent
  let c : Controller ← ask (.clear disconnected)
  return c.status

end Methods

/-- What may be under way: the methods, and what watchers report. -/
inductive DesktopRequest
  | restore
  | selectFolder (folderPath : String)
  | pair (pairingLink : String)
  | retry
  | repair
  | revoke
  | watched (id : Nat)

/-- A method answers with the status. -/
def answered (method : DesktopCalls SyncStatus) : DesktopCalls (Option SyncStatus) := do
  let status ← method
  return some status

def DesktopRequest.run (t : Texts) : DesktopRequest → DesktopCalls (Option SyncStatus)
  | restore => answered (Desktop.restore t)
  | selectFolder folderPath => answered (Desktop.selectFolder t folderPath)
  | pair pairingLink => answered (Desktop.pair t pairingLink)
  | retry => answered Desktop.retry
  | repair => answered Desktop.repair
  | revoke => answered Desktop.revoke
  | watched id => do
      Desktop.watched id
      return none

end Mdevolved.Desktop
