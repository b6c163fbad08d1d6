import Mdevolved.Lib.Table

/-!
# Snapshot Tables

The tables of workspace snapshots and the object store under them. A snapshot lists the
paths of its vaults as entries, and an entry names a row of `snapshot_objects`, which says
where its ciphertext is and how storage described it. Entries with one content share a
portable object, and snapshots share the rows. Intelligence items have their ciphertext in
their own row.

What storage says of an object is its size, tag and version. A row keeps those three
together, so a ciphertext is there as it was recorded where they all agree.

## Main definitions

* `SnapshotManifest`, `Plaintext`: What is encrypted.
* `R2Object`, `storedObjectMatches`: Objects, and whether one is the one that was written.
* `SnapshotRow`, `SnapshotEntryRow`, `SnapshotObjectRow`, `IntelligenceItemRow`: The rows.
* `SnapshotDb`, `SnapshotState`: The tables, with the object store.
* `pendingObjects`, `pendingItems`: What a capture has left to do.
-/

namespace Mdevolved.Snapshot

inductive SnapshotStatus
  | creating | importing | ready | failed
  deriving DecidableEq

inductive IntegrityStatus
  | pending | verified | degraded
  deriving DecidableEq

inductive SnapshotSection
  | notes | attachments | obsidianAllowlist
  deriving DecidableEq

inductive ObjectStatus
  | creating | ready | failed
  deriving DecidableEq

inductive FailureCode
  | recipientChanged | cancelled | encryptionFailed | ciphertextMissing | unavailable
  deriving DecidableEq

/-! ## Manifests -/

/-- A content object, as a manifest lists it. -/
structure ManifestObject where
  portableObjectId : String
  sectionName : SnapshotSection
  contentSha256 : String
  byteLength : Nat
  deriving DecidableEq

/-- One path of a vault, as a manifest lists it. -/
structure ManifestEntry where
  snapshotVaultId : String
  sectionName : SnapshotSection
  path : String
  contentSha256 : String
  byteLength : Nat
  portableObjectId : String
  deriving DecidableEq

structure SnapshotManifest where
  captureCompletedAt : Nat
  objects : List ManifestObject
  entries : List ManifestEntry
  /-- The portable objects of the intelligence items. -/
  intelligence : List String
  deriving DecidableEq

/-! ## Objects -/

/-- What is encrypted into an object: content, or a manifest. -/
inductive Plaintext
  | content (sha256 : String) (byteLength : Nat)
  | manifest (manifest : SnapshotManifest)
  deriving DecidableEq

/-- An object as storage describes it. -/
structure R2Object where
  size : Nat
  etag : String
  version : String
  /-- The hash of its content, where storage has checked one. -/
  sha256 : Option String
  /-- The hash in its metadata. -/
  contentSha256 : Option String
  /-- What was encrypted into it, which storage does not know. -/
  plaintext : Option Plaintext

/-- How storage described a ciphertext when it was written. -/
structure Ciphertext where
  bytes : Nat
  etag : String
  version : String
  deriving DecidableEq

/-- A ciphertext and the key it was written under. -/
structure Receipt extends Ciphertext where
  key : String
  deriving DecidableEq

def R2Object.ciphertext (object : R2Object) : Ciphertext :=
  { bytes := object.size, etag := object.etag, version := object.version }

def R2Object.receipt (object : R2Object) (key : String) : Receipt :=
  { toCiphertext := object.ciphertext, key := key }

/-- Whether an object is the one that was written. -/
def storedObjectMatches (object : Option R2Object) (expected : Ciphertext) : Bool :=
  object.any (fun o => o.size = expected.bytes && o.etag = expected.etag &&
    o.version = expected.version)

/-! ## Rows -/

/-- One row of `workspace_snapshots`. -/
structure SnapshotRow where
  id : String
  status : SnapshotStatus
  integrityStatus : IntegrityStatus
  recipientFingerprint : String
  captureStartedAt : Nat
  captureCompletedAt : Option Nat
  itemCount : Nat
  processedObjectCount : Nat
  totalObjectCount : Nat
  newlyStoredBytes : Nat
  /-- The four columns of the manifest, which are set together. -/
  manifest : Option Receipt
  pinned : Bool
  completedAt : Option Nat
  verifiedAt : Option Nat
  failureCode : Option FailureCode
  deriving DecidableEq

/-- One row of `snapshot_vaults`. -/
structure SnapshotVaultRow where
  snapshotId : String
  snapshotVaultId : String

/-- One row of `snapshot_entries`. -/
structure SnapshotEntryRow where
  snapshotId : String
  snapshotVaultId : String
  sectionName : SnapshotSection
  path : String
  pathKey : String
  contentSha256 : String
  byteLength : Nat
  portableObjectId : String
  recoveryObjectId : Option String
  sourceR2Key : Option String

/-- One row of `snapshot_objects`. -/
structure SnapshotObjectRow where
  id : String
  status : ObjectStatus
  sectionName : SnapshotSection
  recipientFingerprint : String
  contentSha256 : String
  plaintextBytes : Nat
  objectKey : String
  /-- The size, tag and version of the ciphertext, which are set together. -/
  stored : Option Ciphertext
  createdBySnapshotId : Option String
  createdAt : Nat
  verifiedAt : Option Nat
  failureCode : Option FailureCode
  deriving DecidableEq

/-- The ciphertext of a row, under the key of the row. -/
def SnapshotObjectRow.receipt (o : SnapshotObjectRow) : Option Receipt :=
  o.stored.map (fun c => { toCiphertext := c, key := o.objectKey })

/-- One row of `snapshot_intelligence_items`. It is ready once its object is
    stored. -/
structure IntelligenceItemRow where
  snapshotId : String
  itemId : String
  portableObjectId : String
  sourceObjectKey : String
  contentSha256 : String
  byteLength : Nat
  stored : Option Receipt

/-- One row of `snapshot_gc_objects`. -/
structure GcObjectRow where
  objectKey : String
  queuedAt : Nat
  attempts : Nat
  lastAttemptAt : Option Nat

structure SnapshotDb where
  recipient : Option String
  snapshots : List SnapshotRow
  vaults : List SnapshotVaultRow
  entries : List SnapshotEntryRow
  objects : List SnapshotObjectRow
  items : List IntelligenceItemRow
  gcObjects : List GcObjectRow

/-- The tables and the objects under their keys. -/
structure SnapshotState where
  db : SnapshotDb
  storage : String → Option R2Object

/-! ## Lookups -/

def snapshotOf (db : SnapshotDb) (id : String) : Option SnapshotRow :=
  db.snapshots.find? (fun s => s.id = id)

def objectOf (db : SnapshotDb) (id : String) : Option SnapshotObjectRow :=
  db.objects.find? (fun o => o.id = id)

def entriesOf (db : SnapshotDb) (id : String) : List SnapshotEntryRow :=
  db.entries.filter (fun e => e.snapshotId = id)

def itemsOf (db : SnapshotDb) (id : String) : List IntelligenceItemRow :=
  db.items.filter (fun i => i.snapshotId = id)

/-! ## Changes -/

def updateSnapshots (p : SnapshotRow → Bool) (f : SnapshotRow → SnapshotRow) (db : SnapshotDb) :
    SnapshotDb :=
  { db with snapshots := Table.update p f db.snapshots }

def updateObjects (p : SnapshotObjectRow → Bool) (f : SnapshotObjectRow → SnapshotObjectRow)
    (db : SnapshotDb) : SnapshotDb :=
  { db with objects := Table.update p f db.objects }

def updateEntries (p : SnapshotEntryRow → Bool) (f : SnapshotEntryRow → SnapshotEntryRow)
    (db : SnapshotDb) : SnapshotDb :=
  { db with entries := Table.update p f db.entries }

def updateItems (p : IntelligenceItemRow → Bool) (f : IntelligenceItemRow → IntelligenceItemRow)
    (db : SnapshotDb) : SnapshotDb :=
  { db with items := Table.update p f db.items }

/-- Queue objects for deletion, those that are not queued yet. -/
def queueObjects (keys : List String) (now : Nat) (db : SnapshotDb) : SnapshotDb :=
  { db with
    gcObjects := keys.foldl (fun rows key =>
      if rows.any (fun r => r.objectKey = key) then rows
      else rows ++ [{ objectKey := key, queuedAt := now, attempts := 0, lastAttemptAt := none }])
      db.gcObjects }

/-! ## Pending work -/

/-- The least of a number of texts. -/
def minText : List String → Option String
  | [] => none
  | t :: ts => some (ts.foldl (fun a b => if b < a then b else a) t)

theorem minText_of_const (ts : List String) (t : String) (hne : ts ≠ []) (h : ∀ x ∈ ts, x = t) :
    minText ts = some t := by
  cases ts with
  | nil => exact absurd rfl hne
  | cons x xs =>
      rw [minText, h x List.mem_cons_self]
      have hrest : ∀ y ∈ xs, y = t := fun y hy => h y (List.mem_cons_of_mem x hy)
      clear h hne
      induction xs with
      | nil => rfl
      | cons y ys ih =>
          rw [List.foldl_cons, hrest y List.mem_cons_self, ite_self]
          exact ih (fun z hz => hrest z (List.mem_cons_of_mem y hz))

theorem foldl_max_of_const (ns : List Nat) (n b : Nat) (hb : b ≤ n) (hne : ns ≠ [])
    (h : ∀ m ∈ ns, m = n) : ns.foldl max b = n := by
  induction ns generalizing b with
  | nil => exact absurd rfl hne
  | cons m ms ih =>
      rw [List.foldl_cons, h m List.mem_cons_self, max_eq_right hb]
      by_cases hms : ms = []
      · rw [hms, List.foldl_nil]
      · exact ih n (le_refl n) hms (fun k hk => h k (List.mem_cons_of_mem m hk))

/-- What entries are grouped by. -/
structure GroupKey where
  portableObjectId : String
  sectionName : SnapshotSection
  contentSha256 : String
  deriving DecidableEq

def SnapshotEntryRow.group (e : SnapshotEntryRow) : GroupKey :=
  { portableObjectId := e.portableObjectId
    sectionName := e.sectionName
    contentSha256 := e.contentSha256 }

/-- The groups of entries, in the order of their portable objects. -/
def groupKeys (entries : List SnapshotEntryRow) : List GroupKey :=
  (entries.map SnapshotEntryRow.group).dedup.insertionSort
    (fun k k' => k.portableObjectId ≤ k'.portableObjectId)

theorem mem_groupKeys (es : List SnapshotEntryRow) (key : GroupKey) :
    key ∈ groupKeys es ↔ ∃ e ∈ es, e.group = key := by
  unfold groupKeys
  rw [List.mem_insertionSort, List.mem_dedup, List.mem_map]

/-- A portable object that has no recovery object yet. -/
structure PendingObject where
  group : GroupKey
  byteLength : Nat
  sourceR2Key : Option String

def pendingObject (entries : List SnapshotEntryRow) (key : GroupKey) : PendingObject :=
  let grouped := entries.filter (fun e => e.group = key)
  { group := key
    byteLength := (grouped.map SnapshotEntryRow.byteLength).foldl max 0
    sourceR2Key := minText (grouped.filterMap SnapshotEntryRow.sourceR2Key) }

/-- The portable objects of a snapshot that have no recovery object yet. -/
def pendingObjects (db : SnapshotDb) (id : String) : List PendingObject :=
  let entries := (entriesOf db id).filter (fun e => e.recoveryObjectId.isNone)
  (groupKeys entries).map (pendingObject entries)

/-- The items of a snapshot that have no object yet. -/
def pendingItems (db : SnapshotDb) (id : String) : List IntelligenceItemRow :=
  ((itemsOf db id).filter (fun i => i.stored.isNone)).insertionSort
    (fun i i' => i.portableObjectId ≤ i'.portableObjectId)

end Mdevolved.Snapshot
