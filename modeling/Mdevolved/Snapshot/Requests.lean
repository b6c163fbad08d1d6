import Mdevolved.Lib.Process
import Mdevolved.Snapshot.Tables

/-!
# Snapshot Requests

The requests that capturing and repairing a snapshot make of the database and of
the object store, one for each statement, batch or call. Those that guard
themselves return the identifier of the row they changed, and change nothing
where the guard fails.

A request may be refused, or may take effect and lose its answer. What else comes
from outside is an identifier, for the requests that draw one, and the tag and
version storage gives to what it stores. A ciphertext has the size that encryption
gives it, and an object is only ever written where there is none.

## Main definitions

* `SnapshotParams`: What is taken from outside the repository's own code.
* `Outside`: What comes from outside with each request.
* `SnapshotOp`: One request.
* `contentCandidates`, `itemCandidates`: What a repair looks at next.
* `effect`, `exec`: What a request does, and how it ends.

## Theorems

* `exec_cases`: A request that changes anything does what it does by itself.
* `exec_ok`, `exec_answered`: A request and its answer.
-/

namespace Mdevolved.Snapshot

open Batch (Outcome)

/-- What the functions are given: the size of a ciphertext, the order in which a
    locale compares texts, and which manifests their schema takes. -/
structure SnapshotParams where
  ageSize : Plaintext → Nat
  localeBefore : String → String → Bool
  manifestSchema : SnapshotManifest → Bool

/-- What comes from outside with a request. -/
structure Outside where
  outcome : Outcome
  uuid : String
  etag : String
  version : String

inductive SnapshotError
  | notFound | stateInvalid | recipientChanged | recipientMissing | sourceUnavailable
  | unavailable | invalid | repairUnavailable | other

/-! ## Candidates -/

/-- A portable object of the notes that a repair looks at. -/
structure ContentCandidate where
  group : GroupKey
  byteLength : Nat
  sourceR2Key : Option String
  recoveryObjectId : String
  objectKey : String
  stored : Option Ciphertext
  deriving DecidableEq

/-- An intelligence item that a repair looks at. -/
structure ItemCandidate where
  itemId : String
  portableObjectId : String
  sourceObjectKey : String
  contentSha256 : String
  byteLength : Nat
  stored : Receipt
  deriving DecidableEq

inductive RepairCandidate
  | content (candidate : ContentCandidate)
  | intelligence (candidate : ItemCandidate)

def RepairCandidate.portableObjectId : RepairCandidate → String
  | .content candidate => candidate.group.portableObjectId
  | .intelligence candidate => candidate.portableObjectId

/-- The entries of a snapshot with their recovery objects. -/
def joinedEntries (db : SnapshotDb) (id : String) : List (SnapshotEntryRow × SnapshotObjectRow) :=
  (entriesOf db id).filterMap (fun e =>
    (e.recoveryObjectId.bind (objectOf db)).map (fun o => (e, o)))

/-- The ciphertext that the rows of a group say, each column by itself. -/
def groupCiphertext (rows : List SnapshotObjectRow) : Option Ciphertext :=
  let stored := rows.filterMap SnapshotObjectRow.stored
  (minText (stored.map Ciphertext.etag)).bind (fun etag =>
    (minText (stored.map Ciphertext.version)).map (fun version =>
      { bytes := (stored.map Ciphertext.bytes).foldl max 0, etag := etag, version := version }))

def contentCandidate (rows : List (SnapshotEntryRow × SnapshotObjectRow)) (key : GroupKey) :
    Option ContentCandidate :=
  let grouped := rows.filter (fun r => r.1.group = key)
  (minText (grouped.map (fun r => r.2.id))).bind (fun recoveryObjectId =>
    (minText (grouped.map (fun r => r.2.objectKey))).map (fun objectKey =>
      { group := key
        byteLength := (grouped.map (fun r => r.1.byteLength)).foldl max 0
        sourceR2Key := minText (grouped.filterMap (fun r => r.1.sourceR2Key))
        recoveryObjectId := recoveryObjectId
        objectKey := objectKey
        stored := groupCiphertext (grouped.map Prod.snd) }))

/-- The first portable objects of the notes that come after one. -/
def contentCandidates (db : SnapshotDb) (id after : String) (limit : Nat) : List ContentCandidate :=
  let rows := (joinedEntries db id).filter (fun r => after < r.1.portableObjectId)
  ((groupKeys (rows.map Prod.fst)).filterMap (contentCandidate rows)).take limit

def itemCandidate (i : IntelligenceItemRow) : Option ItemCandidate :=
  i.stored.map (fun stored =>
    { itemId := i.itemId
      portableObjectId := i.portableObjectId
      sourceObjectKey := i.sourceObjectKey
      contentSha256 := i.contentSha256
      byteLength := i.byteLength
      stored := stored })

/-- The first intelligence items that come after one. -/
def itemCandidates (db : SnapshotDb) (id after : String) (limit : Nat) : List ItemCandidate :=
  ((((itemsOf db id).filter (fun i => after < i.portableObjectId)).filterMap
    itemCandidate).insertionSort (fun i i' => i.portableObjectId ≤ i'.portableObjectId)).take limit

/-! ## Requests -/

inductive SnapshotOp
  | randomUUID
  | readStatus (id : String)
  | readSummary (id : String)
  | readReady (id : String)
  | readCreating (id : String)
  | readRecipient
  | markFailed (id : String) (code : FailureCode) (now : Nat)
  | readPending (id : String) (limit : Nat)
  | readReusable (recipientFingerprint : String) (group : GroupKey) (byteLength : Nat)
  | getObject (key : String)
  | headObject (key : String)
  | putObject (key : String) (plaintext : Plaintext)
  | failMissing (objectId : String)
  | insertObject (row : SnapshotObjectRow)
  | completeObject (objectId : String) (written : Ciphertext) (now : Nat)
  | failEncryption (objectId : String)
  | setRecoveryObject (id portableObjectId objectId : String)
  | readPendingItems (id : String) (limit : Nat)
  | completeItem (id itemId : String) (written : Receipt)
  | countPendingItems (id : String)
  | countObjects (id : String)
  | setProcessed (id : String) (processed : Nat)
  | readVaults (id : String)
  | readEntries (id : String)
  | readReadyItems (id : String)
  | sumNewBytes (id : String)
  | completeSnapshot (id : String) (written : Receipt) (newlyStoredBytes now : Nat)
  | degrade (id : String)
  | replaceManifest (id : String) (written : Receipt) (replaced : Option Receipt) (now : Nat)
  | queueObject (key : String) (now : Nat)
  | readContentCandidates (id after : String) (limit : Nat)
  | readItemCandidates (id after : String) (limit : Nat)
  | replaceItem (id : String) (candidate : ItemCandidate) (written : Receipt) (now : Nat)
  | verifyObject (objectId : String) (now : Nat)
  | replaceObject (id : String) (replacementId : String) (bytes : Nat)
      (candidate : ContentCandidate) (now : Nat)
  | markVerified (id : String) (now : Nat)
  deriving DecidableEq

/-- What a request returns. -/
abbrev SnapshotOp.Ret : SnapshotOp → Type
  | .randomUUID => String
  | .readStatus _ => Option (SnapshotStatus × String)
  | .readSummary _ | .readReady _ | .readCreating _ => Option SnapshotRow
  | .readRecipient => Option String
  | .readPending _ _ => List PendingObject
  | .readReusable _ _ _ => List SnapshotObjectRow
  | .getObject _ | .headObject _ | .putObject _ _ => Option R2Object
  | .completeObject _ _ _ | .completeItem _ _ _ | .completeSnapshot _ _ _ _
  | .replaceManifest _ _ _ _ | .replaceItem _ _ _ _ => Option String
  | .readPendingItems _ _ | .readReadyItems _ => List IntelligenceItemRow
  | .countPendingItems _ | .sumNewBytes _ => Nat
  | .countObjects _ => Nat × Nat
  | .readVaults _ => List SnapshotVaultRow
  | .readEntries _ => List (SnapshotEntryRow × Option SnapshotObjectRow)
  | .readContentCandidates _ _ _ => List ContentCandidate
  | .readItemCandidates _ _ _ => List ItemCandidate
  | _ => Unit

/-! ## What they do -/

/-- The objects that a capture may use again, the last verified first. -/
def reusableObjects (db : SnapshotDb) (recipientFingerprint : String) (group : GroupKey)
    (byteLength : Nat) : List SnapshotObjectRow :=
  ((db.objects.filter (fun o => o.status = .ready &&
    o.recipientFingerprint = recipientFingerprint && o.sectionName = group.sectionName &&
      o.contentSha256 = group.contentSha256 && o.plaintextBytes = byteLength &&
      o.stored.isSome && o.verifiedAt.isSome)).insertionSort
        (fun o p => p.verifiedAt.getD 0 ≤ o.verifiedAt.getD 0)).take 5

def sectionText : SnapshotSection → String
  | .attachments => "attachments"
  | .notes => "notes"
  | .obsidianAllowlist => "obsidian-allowlist"

/-- The order in which entries are listed. -/
def listsBefore (e f : SnapshotEntryRow) : Prop :=
  e.snapshotVaultId < f.snapshotVaultId ∨ e.snapshotVaultId = f.snapshotVaultId ∧
    (sectionText e.sectionName < sectionText f.sectionName ∨
      e.sectionName = f.sectionName ∧ e.pathKey ≤ f.pathKey)

instance (e f : SnapshotEntryRow) : Decidable (listsBefore e f) :=
  inferInstanceAs (Decidable (_ ∨ _))

def snapshotEntries (db : SnapshotDb) (id : String) :
    List (SnapshotEntryRow × Option SnapshotObjectRow) :=
  ((entriesOf db id).insertionSort listsBefore).map
    (fun e => (e, e.recoveryObjectId.bind (objectOf db)))

/-- How many portable objects of a snapshot have a recovery object, and how many
    there are. -/
def objectCounts (db : SnapshotDb) (id : String) : Nat × Nat :=
  let entries := entriesOf db id
  (((entries.filter (fun e => e.recoveryObjectId.isSome)).map
      SnapshotEntryRow.portableObjectId).dedup.length,
    (entries.map SnapshotEntryRow.portableObjectId).dedup.length)

/-- A statement that returns the identifier of the row it was about, if it changed
    one. -/
def returning (changed : Bool) (id : String) : Option String :=
  if changed then some id else none

/-- The constraints of `snapshot_objects`. -/
def admitsObject (rows : List SnapshotObjectRow) (row : SnapshotObjectRow) : Bool :=
  rows.all (fun r => r.id ≠ row.id && r.objectKey ≠ row.objectKey)

/-- Name a recovery object, which has to be there. -/
def withRecoveryObject (p : SnapshotEntryRow → Bool) (objectId : String) (db : SnapshotDb) :
    Except SnapshotError SnapshotDb :=
  if db.entries.any p && (objectOf db objectId).isNone then .error .other
  else .ok (updateEntries p (fun e => { e with recoveryObjectId := some objectId }) db)

/-- Delete the row of an object, unless an entry names it. -/
def deleteObjectRow (objectId : String) (db : SnapshotDb) : Except SnapshotError SnapshotDb :=
  if db.entries.any (fun e => e.recoveryObjectId = some objectId) &&
      (objectOf db objectId).isSome then .error .other
  else .ok { db with objects := db.objects.filter (fun o => o.id ≠ objectId) }

def addBytes (id : String) (bytes : Nat) (anyStatus : Bool) (db : SnapshotDb) : SnapshotDb :=
  updateSnapshots (fun s => s.id = id && (anyStatus || s.status = .ready))
    (fun s => { s with newlyStoredBytes := s.newlyStoredBytes + bytes }) db

/-- Name the replacement of an object everywhere, and queue and forget the object. -/
def replaceObject (id replacementId : String) (bytes : Nat) (candidate : ContentCandidate)
    (now : Nat) (db : SnapshotDb) : Except SnapshotError SnapshotDb := do
  let db ← withRecoveryObject (fun e => e.recoveryObjectId = some candidate.recoveryObjectId)
    replacementId db
  let db ← deleteObjectRow candidate.recoveryObjectId (queueObjects [candidate.objectKey] now db)
  pure (addBytes id bytes true db)

/-- Store the item's new object and queue its old one. -/
def replaceItem (id : String) (candidate : ItemCandidate) (written : Receipt) (now : Nat)
    (db : SnapshotDb) : Option String × SnapshotDb :=
  let p : IntelligenceItemRow → Bool := fun i =>
    i.snapshotId = id && i.itemId = candidate.itemId &&
      i.stored.any (fun r => r.key = candidate.stored.key)
  (returning (db.items.any p) candidate.itemId,
    addBytes id written.bytes false (queueObjects [candidate.stored.key] now
      (updateItems p (fun i => { i with stored := some written }) db)))

/-- Record a manifest that was written anew and queue the old one. -/
def replaceManifest (id : String) (written : Receipt) (replaced : Option Receipt) (now : Nat)
    (db : SnapshotDb) : Option String × SnapshotDb :=
  let p : SnapshotRow → Bool := fun s => s.id = id && s.status = .ready
  (returning (db.snapshots.any p) id,
    queueObjects (replaced.toList.map Receipt.key) now
      (updateSnapshots p (fun s =>
        { s with
          manifest := some written
          newlyStoredBytes := s.newlyStoredBytes + written.bytes }) db))

/-- A request that only reads. -/
def reading {α : Type} (f : SnapshotState → α) (s : SnapshotState) :
    Except SnapshotError (α × SnapshotState) :=
  .ok (f s, s)

/-- A request that only changes the database. -/
def writing {α : Type} (a : α) (db : SnapshotDb) (s : SnapshotState) :
    Except SnapshotError (α × SnapshotState) :=
  .ok (a, { s with db := db })

/-- What a request does where it goes through. -/
def effect (params : SnapshotParams) (w : Outside) (s : SnapshotState) :
    (op : SnapshotOp) → Except SnapshotError (op.Ret × SnapshotState)
  | .randomUUID => reading (fun _ => w.uuid) s
  | .readStatus id => reading (fun s =>
      (snapshotOf s.db id).map (fun r => (r.status, r.recipientFingerprint))) s
  | .readSummary id => reading (fun s => snapshotOf s.db id) s
  | .readReady id => reading (fun s => (snapshotOf s.db id).filter (fun r => r.status = .ready)) s
  | .readCreating id => reading (fun s =>
      (snapshotOf s.db id).filter (fun r => r.status = .creating)) s
  | .readRecipient => reading (fun s => s.db.recipient) s
  | .markFailed id code now => writing () (updateSnapshots
      (fun r => r.id = id && (r.status = .creating || r.status = .importing))
      (fun r => { r with status := .failed, failureCode := some code, completedAt := some now })
      s.db) s
  | .readPending id limit => reading (fun s => (pendingObjects s.db id).take limit) s
  | .readReusable recipientFingerprint group byteLength => reading (fun s =>
      reusableObjects s.db recipientFingerprint group byteLength) s
  | .getObject key => reading (fun s => s.storage key) s
  | .headObject key => reading (fun s => s.storage key) s
  | .putObject key plaintext =>
      match s.storage key with
      | some _ => .ok (none, s)
      | none =>
          let object : R2Object :=
            { size := params.ageSize plaintext
              etag := w.etag
              version := w.version
              sha256 := none
              contentSha256 := none
              plaintext := some plaintext }
          .ok (some object, { s with storage := Function.update s.storage key (some object) })
  | .failMissing objectId => writing () (updateObjects
      (fun o => o.id = objectId && o.status = .ready)
      (fun o => { o with status := .failed, failureCode := some .ciphertextMissing }) s.db) s
  | .insertObject row =>
      match Table.insert admitsObject s.db.objects row with
      | none => .error .other
      | some objects => writing () { s.db with objects := objects } s
  | .completeObject objectId written now =>
      let p : SnapshotObjectRow → Bool := fun o => o.id = objectId && o.status = .creating
      writing (returning (s.db.objects.any p) objectId) (updateObjects p (fun o =>
        { o with status := .ready, stored := some written, verifiedAt := some now }) s.db) s
  | .failEncryption objectId => writing () (updateObjects
      (fun o => o.id = objectId && o.status = .creating)
      (fun o => { o with status := .failed, failureCode := some .encryptionFailed }) s.db) s
  | .setRecoveryObject id portableObjectId objectId =>
      match withRecoveryObject (fun e => e.snapshotId = id &&
          e.portableObjectId = portableObjectId && e.recoveryObjectId.isNone) objectId s.db with
      | .error e => .error e
      | .ok db => writing () db s
  | .readPendingItems id limit => reading (fun s => (pendingItems s.db id).take limit) s
  | .completeItem id itemId written =>
      let p : IntelligenceItemRow → Bool := fun i =>
        i.snapshotId = id && i.itemId = itemId && i.stored.isNone
      writing (returning (s.db.items.any p) itemId) (updateItems p
        (fun i => { i with stored := some written }) s.db) s
  | .countPendingItems id => reading (fun s => (pendingItems s.db id).length) s
  | .countObjects id => reading (fun s => objectCounts s.db id) s
  | .setProcessed id processed => writing () (updateSnapshots
      (fun r => r.id = id && r.status = .creating)
      (fun r => { r with processedObjectCount := processed }) s.db) s
  | .readVaults id => reading (fun s => s.db.vaults.filter (fun v => v.snapshotId = id)) s
  | .readEntries id => reading (fun s => snapshotEntries s.db id) s
  | .readReadyItems id => reading (fun s =>
      ((itemsOf s.db id).filter (fun i => i.stored.isSome)).insertionSort
        (fun i i' => i.portableObjectId ≤ i'.portableObjectId)) s
  | .sumNewBytes id => reading (fun s =>
      ((s.db.objects.filter (fun o => o.createdBySnapshotId = some id &&
        o.status = .ready)).filterMap (fun o => o.stored.map Ciphertext.bytes)).sum) s
  | .completeSnapshot id written newlyStoredBytes now =>
      let p : SnapshotRow → Bool := fun r =>
        r.id = id && r.status = .creating && r.processedObjectCount = r.totalObjectCount
      writing (returning (s.db.snapshots.any p) id) (updateSnapshots p (fun r =>
        { r with
          status := .ready, captureCompletedAt := some now, completedAt := some now
          verifiedAt := some now, integrityStatus := .verified, manifest := some written
          newlyStoredBytes := newlyStoredBytes }) s.db) s
  | .degrade id => writing () (updateSnapshots (fun r => r.id = id && r.status = .ready)
      (fun r => { r with integrityStatus := .degraded }) s.db) s
  | .replaceManifest id written replaced now =>
      let r := replaceManifest id written replaced now s.db
      writing r.1 r.2 s
  | .queueObject key now => writing () (queueObjects [key] now s.db) s
  | .readContentCandidates id after limit => reading (fun s =>
      contentCandidates s.db id after limit) s
  | .readItemCandidates id after limit => reading (fun s => itemCandidates s.db id after limit) s
  | .replaceItem id candidate written now =>
      let r := replaceItem id candidate written now s.db
      writing r.1 r.2 s
  | .verifyObject objectId now => writing () (updateObjects (fun o => o.id = objectId)
      (fun o => { o with verifiedAt := some now }) s.db) s
  | .replaceObject id replacementId bytes candidate now =>
      match replaceObject id replacementId bytes candidate now s.db with
      | .error e => .error e
      | .ok db => writing () db s
  | .markVerified id now => writing () (updateSnapshots (fun r => r.id = id && r.status = .ready)
      (fun r => { r with verifiedAt := some now, integrityStatus := .verified }) s.db) s

/-- A request, under what becomes of it. Drawing an identifier cannot fail. -/
def exec (params : SnapshotParams) (op : SnapshotOp) (w : Outside) (s : SnapshotState) :
    Except SnapshotError op.Ret × SnapshotState :=
  Batch.send SnapshotError.other (if op = .randomUUID then .answered else w.outcome)
    (fun s => effect params w s op) s

section

variable (params : SnapshotParams) (op : SnapshotOp) (w : Outside)

/-- A request leaves everything as it is, or does what it does by itself, whether or
    not it is answered. -/
theorem exec_cases (s : SnapshotState) :
    (exec params op w s).2 = s ∨
      ∃ r, effect params w s op = .ok (r, (exec params op w s).2) ∧
        ((exec params op w s).1 = .ok r ∨ (exec params op w s).1 = .error .other) :=
  Batch.send_cases _ _ (fun s => effect params w s op) s

/-- An answered request did what it answers for. -/
theorem exec_ok (s : SnapshotState)
    (r : op.Ret) (h : (exec params op w s).1 = .ok r) :
    effect params w s op = .ok (r, (exec params op w s).2) :=
  Batch.send_ok _ _ (fun s => effect params w s op) s r h

/-- Where nothing fails on the way, a request does what it does and answers for it. -/
theorem exec_answered (s t : SnapshotState) (r : op.Ret) (hanswered : w.outcome = .answered)
    (h : effect params w s op = .ok (r, t)) : exec params op w s = (.ok r, t) := by
  unfold exec Batch.send
  rw [hanswered, ite_self]
  simp only [h]

end

end Mdevolved.Snapshot
