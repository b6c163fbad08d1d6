import Mdevolved.Lib.Interface
import Mdevolved.Source.Scan

/-!
# The Core of a Source

The lifecycle of a folder or a vault that is kept in step with the service. A core is
started and stopped, reads and writes notes while it runs, and has its credential revoked
and replaced. It remembers in local state which credential was revoked, by its
fingerprint. Several cores may stand over one local state, and one after the other do,
each time the program is started again.

A core keeps a copy of what it stored, and what it does between two awaits it does to its
own memory at once: that is a `sync`, which cannot fail. Everything else is a request to
one of the ports. Local state is part of the world. What custody presents, what the files
port answers and what time it is are decided outside.

## Main definitions

* `SourceDescriptor`, `normalizeSourceDescriptor`: What a source says of itself.
* `PersistedCoreState`, `decodePersistedCoreState`: What a core stores.
* `Memory`: What a core holds.
* `CoreOp`: Segments and requests.
* `CoreOp.exec`: What they do.

## Theorems

* `decode_encode`: What a core stores it reads back.
-/

namespace Mdevolved.Source

open Batch (Outcome Write)
open Vault (UnicodeTables)

/-! ## Descriptors -/

inductive SourceKind
  | folder | obsidian

inductive SourceCapability
  | markdown | attachments | editorIntegration | watch
  deriving DecidableEq

structure SourceProvenance where
  pairedAt : Int
  pairingId : Option String
  changedAt : Option Int

def SourceKind.text : SourceKind → String
  | folder => "folder"
  | obsidian => "obsidian"

def SourceKind.ofText : String → Option SourceKind
  | "folder" => some folder
  | "obsidian" => some obsidian
  | _ => none

def SourceCapability.text : SourceCapability → String
  | markdown => "markdown"
  | attachments => "attachments"
  | editorIntegration => "editor-integration"
  | watch => "watch"

def SourceCapability.ofText : String → Option SourceCapability
  | "markdown" => some markdown
  | "attachments" => some attachments
  | "editor-integration" => some editorIntegration
  | "watch" => some watch
  | _ => none

/-- What `String.prototype.trim` takes off. -/
def isWhitespace (c : Char) : Bool :=
  c.toNat ∈ [0x09, 0x0A, 0x0B, 0x0C, 0x0D, 0x20, 0xA0, 0x1680, 0x2028, 0x2029, 0x202F, 0x205F,
    0x3000, 0xFEFF] || (0x2000 ≤ c.toNat && c.toNat ≤ 0x200A)

/-- A label that is not blank and has no zero character. -/
def properLabel (label : String) : Bool :=
  label.toList.any (fun c => !isWhitespace c) && !label.toList.contains (Char.ofNat 0)

/-- What a source says of itself. -/
structure SourceDescriptor where
  sourceKind : SourceKind
  label : String
  capabilities : List SourceCapability
  clientVersion : String
  syncSchemaVersion : Int
  provenance : SourceProvenance
  named : properLabel label = true
  distinct : capabilities.Nodup
  versioned : 1 ≤ syncSchemaVersion ∧ syncSchemaVersion ≤ maxSafeInteger
  paired : 0 ≤ provenance.pairedAt

/-- A descriptor as it is stored, or as another version has stored it. -/
structure StoredDescriptor where
  sourceKind : Option String
  label : Option String
  capabilities : Option (List String)
  clientVersion : Option String
  syncSchemaVersion : Option Int
  provenance : Option SourceProvenance

/-- The elements of a list, each where it comes first. -/
def distinctOf {α : Type} [DecidableEq α] (xs : List α) : List α :=
  xs.reverse.dedup.reverse

theorem distinctOf_nodup {α : Type} [DecidableEq α] (xs : List α) : (distinctOf xs).Nodup :=
  List.nodup_reverse.mpr (List.nodup_dedup _)

theorem distinctOf_eq_self {α : Type} [DecidableEq α] (xs : List α) (h : xs.Nodup) :
    distinctOf xs = xs := by
  rw [distinctOf, (List.nodup_reverse.mpr h).dedup, List.reverse_reverse]

def createSourceDescriptor (kind : String) (label : String) (capabilities : List String)
    (clientVersion : String) (syncSchemaVersion : Int) (provenance : SourceProvenance) :
    Except String SourceDescriptor :=
  match SourceKind.ofText kind with
  | none => .error "source_kind_invalid"
  | some sourceKind =>
      if named : properLabel label = true then
        if versioned : 1 ≤ syncSchemaVersion ∧ syncSchemaVersion ≤ maxSafeInteger then
          if paired : 0 ≤ provenance.pairedAt then
            match capabilities.mapM SourceCapability.ofText with
            | none => .error "source_capability_invalid"
            | some known =>
                .ok {
                  sourceKind := sourceKind
                  label := label
                  capabilities := distinctOf known
                  clientVersion := clientVersion
                  syncSchemaVersion := syncSchemaVersion
                  provenance := provenance
                  named := named
                  distinct := distinctOf_nodup known
                  versioned := versioned
                  paired := paired }
          else .error "source_provenance_invalid"
        else .error "sync_schema_version_invalid"
      else .error "source_label_invalid"

def legacyCapabilities : List String :=
  ["markdown", "attachments", "editor-integration", "watch"]

/-- An old record without a descriptor is one of a vault. -/
def normalizeSourceDescriptor (value : Option StoredDescriptor) : Except String SourceDescriptor :=
  createSourceDescriptor ((value.bind (·.sourceKind)).getD "obsidian")
    ((value.bind (·.label)).getD "Obsidian vault")
    ((value.bind (·.capabilities)).getD legacyCapabilities)
    ((value.bind (·.clientVersion)).getD "legacy") ((value.bind (·.syncSchemaVersion)).getD 1)
    ((value.bind (·.provenance)).getD { pairedAt := 0, pairingId := none, changedAt := none })

/-- The descriptor of a vault of which nothing is known. -/
def legacyDescriptor : SourceDescriptor :=
  { sourceKind := .obsidian
    label := "Obsidian vault"
    capabilities := [.markdown, .attachments, .editorIntegration, .watch]
    clientVersion := "legacy"
    syncSchemaVersion := 1
    provenance := { pairedAt := 0, pairingId := none, changedAt := none }
    named := by decide +kernel
    distinct := by decide
    versioned := by decide
    paired := by decide }

def SourceDescriptor.stored (d : SourceDescriptor) : StoredDescriptor :=
  { sourceKind := some d.sourceKind.text
    label := some d.label
    capabilities := some (d.capabilities.map SourceCapability.text)
    clientVersion := some d.clientVersion
    syncSchemaVersion := some d.syncSchemaVersion
    provenance := some d.provenance }

theorem SourceKind.ofText_text (kind : SourceKind) : ofText kind.text = some kind := by
  cases kind <;> rfl

theorem SourceCapability.ofText_text (capability : SourceCapability) :
    ofText capability.text = some capability := by
  cases capability <;> rfl

theorem mapM_ofText_text (capabilities : List SourceCapability) :
    (capabilities.map SourceCapability.text).mapM SourceCapability.ofText = some capabilities := by
  induction capabilities with
  | nil => rfl
  | cons capability capabilities ih =>
      rw [List.map_cons, List.mapM_cons, SourceCapability.ofText_text, ih]
      rfl

theorem normalize_stored (d : SourceDescriptor) :
    normalizeSourceDescriptor (some d.stored) = .ok d := by
  have hkind := SourceKind.ofText_text d.sourceKind
  have hcapabilities := mapM_ofText_text d.capabilities
  have hdistinct := distinctOf_eq_self d.capabilities d.distinct
  simp only [normalizeSourceDescriptor, SourceDescriptor.stored, Option.bind_some,
    Option.getD_some, createSourceDescriptor, hkind, d.named, d.versioned, d.paired,
    hcapabilities, hdistinct, and_self, dif_pos]

/-! ## What a core stores -/

inductive SourceCoreStatus
  | stopped | running | unpaired | revoked | expired
  deriving DecidableEq

def SourceCoreStatus.text : SourceCoreStatus → String
  | stopped => "stopped"
  | running => "running"
  | unpaired => "unpaired"
  | revoked => "revoked"
  | expired => "expired"

def SourceCoreStatus.ofText : String → Option SourceCoreStatus
  | "stopped" => some stopped
  | "running" => some running
  | "unpaired" => some unpaired
  | "revoked" => some revoked
  | "expired" => some expired
  | _ => none

theorem SourceCoreStatus.ofText_text (status : SourceCoreStatus) :
    ofText status.text = some status := by
  cases status <;> rfl

structure PersistedCoreState where
  descriptor : SourceDescriptor
  status : SourceCoreStatus
  revokedFingerprint : Option String
  lastScanId : Option String

/-- What is in local state under the key of the core. -/
structure StoredCoreState where
  descriptor : Option StoredDescriptor
  status : Option String
  revokedFingerprint : Option String
  lastScanId : Option String

/-- A record that is not understood counts as none. -/
def decodePersistedCoreState (value : Option StoredCoreState) : Option PersistedCoreState :=
  match value with
  | none => none
  | some candidate =>
      match candidate.status.bind SourceCoreStatus.ofText,
          normalizeSourceDescriptor candidate.descriptor with
      | none, _ => none
      | some _, .error _ => none
      | some status, .ok descriptor =>
          some {
            descriptor := descriptor
            status := status
            revokedFingerprint := candidate.revokedFingerprint
            lastScanId := candidate.lastScanId }

def PersistedCoreState.stored (state : PersistedCoreState) : StoredCoreState :=
  { descriptor := some state.descriptor.stored
    status := some state.status.text
    revokedFingerprint := state.revokedFingerprint
    lastScanId := state.lastScanId }

/-- What a core stores it reads back. -/
theorem decode_encode (state : PersistedCoreState) :
    decodePersistedCoreState (some state.stored) = some state := by
  simp only [decodePersistedCoreState, PersistedCoreState.stored, Option.bind_some,
    SourceCoreStatus.ofText_text, normalize_stored]

/-! ## Credentials -/

inductive CredentialStatus
  | active | revoked
  deriving DecidableEq

structure CredentialRecord where
  sourceId : String
  fingerprint : String
  status : CredentialStatus
  issuedAt : Int
  expiresAt : Option Int
  deriving DecidableEq

def CredentialRecord.expired (credential : CredentialRecord) (now : Int) : Bool :=
  credential.expiresAt.any (fun expiresAt => expiresAt ≤ now)

/-- The status that a credential refuses a core into, if it does. -/
def refusal (credential : Option CredentialRecord) (now : Int) : Option SourceCoreStatus :=
  match credential with
  | none => some .unpaired
  | some credential =>
      if credential.status = .revoked then some .revoked
      else if credential.expired now then some .expired
      else none

/-! ## What a core holds -/

/-- The memory of a core, which is blank when the program is started. -/
structure Memory where
  status : SourceCoreStatus
  state : Option PersistedCoreState

def Memory.blank : Memory :=
  { status := .stopped, state := none }

/-- The fingerprint that a core remembers as revoked. -/
def Memory.revokedFingerprint (m : Memory) : Option String :=
  m.state.bind (·.revokedFingerprint)

/-- What `setStatus` does at once. -/
def Memory.withStatus (status : SourceCoreStatus) (m : Memory) : Memory :=
  { status := status, state := m.state.map (fun state => { state with status := status }) }

/-- What `setStatus` stores then, where it stores anything. -/
def Memory.changed (status : SourceCoreStatus) (m : Memory) : Option PersistedCoreState :=
  (m.state.filter (fun state => state.status ≠ status)).map (fun state =>
    { state with status := status })

/-- What a core starts from that has nothing stored. -/
def PersistedCoreState.first (descriptor : SourceDescriptor) : PersistedCoreState :=
  { descriptor := descriptor, status := .stopped, revokedFingerprint := none, lastScanId := none }

/-- The copy of a core, or a first one. -/
def Memory.copy (descriptor : Option SourceDescriptor) (m : Memory) : PersistedCoreState :=
  m.state.getD (.first (descriptor.getD legacyDescriptor))

/-- The copy of a core that runs. -/
def Memory.runningCopy (descriptor : SourceDescriptor) (m : Memory) : PersistedCoreState :=
  { m.copy (some descriptor) with descriptor := descriptor, status := .running }

/-- The copy of a core whose credential was revoked. -/
def Memory.revokedCopy (descriptor : Option SourceDescriptor)
    (credential : Option CredentialRecord) (m : Memory) : PersistedCoreState :=
  let copy := m.copy descriptor
  { copy with
    status := .revoked
    revokedFingerprint :=
      match credential with
      | some credential => some credential.fingerprint
      | none => copy.revokedFingerprint }

/-- The copy of a core whose credential was replaced. -/
def Memory.replacedCopy (descriptor : Option SourceDescriptor) (m : Memory) : PersistedCoreState :=
  { m.copy descriptor with status := .stopped, revokedFingerprint := none }

/-- The status that a start ends in, if it is refused. -/
def Memory.startRefusal (credential : Option CredentialRecord) (now : Int) (m : Memory) :
    Option SourceCoreStatus :=
  if m.revokedFingerprint ≠ none ∧ m.revokedFingerprint = credential.map (·.fingerprint) then
    some .revoked
  else refusal credential now

/-! ## Segments and requests -/

inductive FileAccess
  | list (directory : String)
  | stat (path : String)
  | read (path : String)
  | write (path : String) (contents : List UInt8)

inductive CoreOp (κ : Type)
  | sync (core : κ) (f : Int → Memory → Memory)
  | readState
  | writeState (state : PersistedCoreState)
  | getCredential
  | revokeCredential
  | confirmReplacement (record : CredentialRecord)
  | emit (status : SourceCoreStatus)
  | files (access : FileAccess)

def FileAccess.Ret : FileAccess → Type
  | .list _ => List WorkspaceEntry
  | .stat _ => Option WorkspaceEntry
  | .read _ => List UInt8
  | .write _ _ => Unit

abbrev CoreOp.Ret {κ : Type} : CoreOp κ → Type
  | .sync _ _ => Memory × Int
  | .readState => Option StoredCoreState
  | .getCredential => Option CredentialRecord
  | .files access => access.Ret
  | .writeState _ => Unit
  | .revokeCredential => Unit
  | .confirmReplacement _ => Unit
  | .emit _ => Unit

inductive CoreError
  | port
  | notRunning (status : SourceCoreStatus)
  | scan (error : SourceScanError)
  | replacementCredentialMustBeActive
  | terminated
  deriving DecidableEq

/-- Local state, and the memories of the cores over it. -/
structure CoreWorld (κ : Type) where
  persisted : Option StoredCoreState
  memory : κ → Memory

/-- What is decided outside: what becomes of a request, the time, and what the ports
    answer. -/
structure Outside where
  outcome : Outcome
  now : Int
  credential : Option CredentialRecord
  listing : List WorkspaceEntry
  entry : Option WorkspaceEntry
  contents : List UInt8

def FileAccess.answer (w : Outside) : (access : FileAccess) → access.Ret
  | .list _ => w.listing
  | .stat _ => w.entry
  | .read _ => w.contents
  | .write _ _ => ()

section Exec

variable {κ : Type} [DecidableEq κ]

/-- What a request to a port does by itself. -/
def CoreOp.effect (op : CoreOp κ) (w : Outside) (s : CoreWorld κ) :
    Except CoreError (op.Ret × CoreWorld κ) :=
  match op with
  | .sync core f =>
      .ok ((s.memory core, w.now),
        { s with memory := Function.update s.memory core (f w.now (s.memory core)) })
  | .readState => .ok (s.persisted, s)
  | .writeState state => .ok ((), { s with persisted := some state.stored })
  | .getCredential => .ok (w.credential, s)
  | .revokeCredential => .ok ((), s)
  | .confirmReplacement _ => .ok ((), s)
  | .emit _ => .ok ((), s)
  | .files access => .ok (access.answer w, s)

/-- A segment takes place, a request may fail. -/
def CoreOp.outcome (op : CoreOp κ) (w : Outside) : Outcome :=
  match op with
  | .sync _ _ => .answered
  | _ => w.outcome

def CoreOp.exec (op : CoreOp κ) (w : Outside) (s : CoreWorld κ) :
    Except CoreError op.Ret × CoreWorld κ :=
  Batch.send .port (op.outcome w) (op.effect w) s

end Exec

abbrev CoreCalls (κ α : Type) :=
  Process (CoreOp κ) (fun op => Except CoreError op.Ret) CoreError α

/-! ## Requests -/

section Calls

variable {κ : Type}

def ask (op : CoreOp κ) : CoreCalls κ op.Ret :=
  Process.request op

def sync (core : κ) (f : Int → Memory → Memory) : CoreCalls κ (Memory × Int) :=
  ask (.sync core f)

def readState : CoreCalls κ (Option StoredCoreState) :=
  ask .readState

def writeState (state : PersistedCoreState) : CoreCalls κ Unit :=
  ask (.writeState state)

def getCredential : CoreCalls κ (Option CredentialRecord) :=
  ask .getCredential

def revokeCredential : CoreCalls κ Unit :=
  ask .revokeCredential

def confirmReplacement (record : CredentialRecord) : CoreCalls κ Unit :=
  ask (.confirmReplacement record)

def emit (status : SourceCoreStatus) : CoreCalls κ Unit :=
  ask (.emit status)

def access (a : FileAccess) : CoreCalls κ a.Ret :=
  ask (.files a)

def scanning {α : Type} (r : Except SourceScanError α) : CoreCalls κ α :=
  Process.ofExcept (r.mapError CoreError.scan)

/-- Store a record where there is one to store. -/
def writeIfAny : Option PersistedCoreState → CoreCalls κ Unit
  | none => pure ()
  | some state => writeState state

/-! ## Scans -/

variable (u : UnicodeTables)

/-- List the directories that wait, and those that they hold. -/
def listFrom (options : MarkdownScanOptions) : ℕ → Listing → CoreCalls κ Listing
  | 0, listing => pure listing
  | fuel + 1, listing =>
      match listing.directories with
      | [] => pure listing
      | directory :: directories => do
          let listed : List WorkspaceEntry ← access (.list directory)
          let listing' ← scanning
            (admitListed u options { listing with directories := directories } listed)
          listFrom options fuel listing'

def listWith (options : MarkdownScanOptions) : CoreCalls κ (List WorkspaceEntry) := do
  let listing ← listFrom u options (Listing.start.remaining options) Listing.start
  scanning (orderedEntries u options listing.entries)

def listMarkdownFiles (supplied : SuppliedScanOptions) : CoreCalls κ (List WorkspaceEntry) := do
  let options ← scanning (boundedOptions (suppliedOver supplied))
  listWith u options

/-- The contents of a listed file. -/
def readContents (entry : WorkspaceEntry) : CoreCalls κ (List UInt8) :=
  tryCatch (access (.read entry.path) : CoreCalls κ (List UInt8)) (fun _ =>
    throw (.scan {
      code := .readFailed, message := "could not read Markdown file", path := some entry.path }))

def tooLarge (options : MarkdownScanOptions) (size : Nat) : Bool :=
  options.maxFileBytes < size

def fileTooLarge (entry : WorkspaceEntry) : SourceScanError :=
  scanLimit "file exceeds the size ceiling" (some entry.path)

/-- Read files one after the other. Which of the workers reads which is left out. -/
def readFiles (options : MarkdownScanOptions) :
    List WorkspaceEntry → Nat → List MarkdownFile → CoreCalls κ (List MarkdownFile × Nat)
  | [], totalBytes, files => pure (files, totalBytes)
  | entry :: entries, totalBytes, files => do
      if entry.size.any (tooLarge options) then
        throw (.scan (fileTooLarge entry))
      else
        let contents ← readContents entry
        if tooLarge options contents.length then
          throw (.scan (fileTooLarge entry))
        else if options.maxBytes < totalBytes + contents.length then
          throw (.scan (scanLimit "Markdown bytes exceed the scan ceiling" none))
        else
          readFiles options entries (totalBytes + contents.length)
            (files ++ [{
              path := entry.path
              size := contents.length
              mtimeMs := entry.mtimeMs
              contents := contents }])

def scanMarkdown (supplied : SuppliedScanOptions) : CoreCalls κ MarkdownScanResult := do
  let options ← scanning (boundedOptions (suppliedOver supplied))
  let entries ← listWith u options
  let (files, totalBytes) ← readFiles options entries 0 []
  return { files := files, totalBytes := totalBytes, scanId := scanFingerprint files }

/-! ## The calls of a core -/

variable (core : κ) (descriptor : Option SourceDescriptor)

/-- Store what a status changed, and say it. -/
def announce (status : SourceCoreStatus) (m : Memory) : CoreCalls κ SourceCoreStatus := do
  writeIfAny (m.changed status)
  emit status
  return status

def setStatus (status : SourceCoreStatus) : CoreCalls κ SourceCoreStatus := do
  let (m, _) ← sync core (fun _ m => m.withStatus status)
  announce status m

/-- A start that found the core not running. -/
def startStopped : CoreCalls κ SourceCoreStatus := do
  let stored ← readState
  let saved := decodePersistedCoreState stored
  let described := (saved.map (·.descriptor)).getD (descriptor.getD legacyDescriptor)
  let _ ← sync core (fun _ m => { m with state := some (saved.getD (.first described)) })
  let credential ← getCredential
  let (m, now) ← sync core (fun now m =>
    match m.startRefusal credential now with
    | some status => m.withStatus status
    | none => { m with state := some (m.runningCopy described) })
  match m.startRefusal credential now with
  | some status => announce status m
  | none => do
      writeState (m.runningCopy described)
      setStatus core .running

def start : CoreCalls κ SourceCoreStatus := do
  let (m, _) ← sync core (fun _ m => m)
  if m.status = .running then return .running else startStopped core descriptor

def stop : CoreCalls κ Unit := do
  let (m, _) ← sync core (fun _ m => if m.status = .stopped then m else m.withStatus .stopped)
  if m.status = .stopped then return ()
  else
    writeIfAny (m.withStatus .stopped).state
    emit .stopped

def requireRunning : CoreCalls κ Unit := do
  let (m, _) ← sync core (fun _ m => m)
  if m.status ≠ .running then throw (.notRunning m.status)
  else
    let credential ← getCredential
    let (m, now) ← sync core (fun now m =>
      match refusal credential now with
      | some status => m.withStatus status
      | none => m)
    match refusal credential now with
    | some status => do
        let _ ← announce status m
        throw (.notRunning status)
    | none => return ()

/-- The copy of a core that was scanned. -/
def Memory.scanned (scanId : String) (m : Memory) : Memory :=
  { m with state := m.state.map (fun state => { state with lastScanId := some scanId }) }

def rescan (supplied : SuppliedScanOptions) : CoreCalls κ MarkdownScanResult := do
  requireRunning core
  let result ← scanMarkdown u supplied
  let (m, _) ← sync core (fun _ m => m.scanned result.scanId)
  writeIfAny (m.scanned result.scanId).state
  return result

def listMarkdown (supplied : SuppliedScanOptions) : CoreCalls κ (List WorkspaceEntry) := do
  requireRunning core
  listMarkdownFiles u supplied

/-- What the files port says of a path, unless it is of another one or of a link. -/
def checkedEntry (path : String) (entry : Option WorkspaceEntry) :
    Except SourceScanError (Option WorkspaceEntry) :=
  match entry with
  | none => .ok none
  | some entry =>
      match validateRelativePath u entry.path with
      | .error e => .error e
      | .ok path' =>
          if path' ≠ path ∨ entry.kind = .symlink then
            .error (invalidPath "workspace returned an unsafe path" entry.path)
          else .ok (some { entry with path := path })

def stat (relativePath : String) : CoreCalls κ (Option WorkspaceEntry) := do
  requireRunning core
  let path ← scanning (validateRelativePath u relativePath)
  let entry : Option WorkspaceEntry ← access (.stat path)
  scanning (checkedEntry u path entry)

def read (relativePath : String) : CoreCalls κ (List UInt8) := do
  let path ← scanning (validateRelativePath u relativePath)
  let entry ← stat u core path
  if entry.map (·.kind) ≠ some .file then
    throw (.scan { code := .readFailed, message := "source file not found", path := some path })
  else access (.read path)

def write (relativePath : String) (contents : List UInt8) : CoreCalls κ Unit := do
  let path ← scanning (validateRelativePath u relativePath)
  let entry ← stat u core path
  if entry.any (fun entry => entry.kind ≠ .file) then
    throw (.scan (invalidPath "source path is not a writable file" path))
  else access (.write path contents)

/-- What is left of a revocation once custody has presented the credential. -/
def revokeRest (credential : Option CredentialRecord) : CoreCalls κ Unit := do
  revokeCredential
  let (m, _) ← sync core (fun _ m => { m with state := some (m.revokedCopy descriptor credential) })
  writeState (m.revokedCopy descriptor credential)
  let _ ← setStatus core .revoked
  return ()

def revoke : CoreCalls κ Unit := do
  let credential ← getCredential
  revokeRest core descriptor credential

/-- What is left of a replacement once custody has confirmed it. -/
def replaceRest : CoreCalls κ SourceCoreStatus := do
  let (m, _) ← sync core (fun _ m => { m with state := some (m.replacedCopy descriptor) })
  writeState (m.replacedCopy descriptor)
  start core descriptor

def replaceCredentials (record : CredentialRecord) : CoreCalls κ SourceCoreStatus := do
  if record.status ≠ .active then throw .replacementCredentialMustBeActive
  else
    confirmReplacement record
    replaceRest core descriptor

end Calls

/-! ## Calls -/

inductive CoreCall
  | start
  | stop
  | rescan (supplied : SuppliedScanOptions)
  | listMarkdown (supplied : SuppliedScanOptions)
  | stat (relativePath : String)
  | read (relativePath : String)
  | write (relativePath : String) (contents : List UInt8)
  | revoke
  | replaceCredentials (record : CredentialRecord)
  deriving DecidableEq

inductive CoreAnswer
  | status (status : SourceCoreStatus)
  | nothing
  | scanned (result : MarkdownScanResult)
  | entries (entries : List WorkspaceEntry)
  | entry (entry : Option WorkspaceEntry)
  | contents (contents : List UInt8)
  deriving DecidableEq

/-- What a call does on a core. -/
def CoreCall.run {κ : Type} (u : UnicodeTables) (descriptor : Option SourceDescriptor) (core : κ) :
    CoreCall → CoreCalls κ CoreAnswer
  | start => Source.start core descriptor >>= fun status => pure (.status status)
  | stop => Source.stop core >>= fun _ => pure .nothing
  | rescan supplied => Source.rescan u core supplied >>= fun result => pure (.scanned result)
  | listMarkdown supplied =>
      Source.listMarkdown u core supplied >>= fun entries => pure (.entries entries)
  | stat relativePath => Source.stat u core relativePath >>= fun entry => pure (.entry entry)
  | read relativePath =>
      Source.read u core relativePath >>= fun contents => pure (.contents contents)
  | write relativePath contents =>
      Source.write u core relativePath contents >>= fun _ => pure .nothing
  | revoke => Source.revoke core descriptor >>= fun _ => pure .nothing
  | replaceCredentials record =>
      Source.replaceCredentials core descriptor record >>= fun status => pure (.status status)

end Mdevolved.Source
