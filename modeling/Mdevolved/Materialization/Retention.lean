import Mdevolved.Materialization.Jobs

/-!
# Materialization Retention

What takes generations and their objects away again. A generation that is a day
old and that nothing refers to any more is deleted, except for the two last that
a vault has published before its present one. The objects that only it names are
queued, and a collection deletes what has been queued for a day. It looks at each
key whether any row names it, and then deletes the object.

These run next to the jobs of `Jobs`, over one database and one object store. The
tables of backups, snapshots and restores are written elsewhere. All that matters
here is what they refer to, which may change at any time.

## Main definitions

* `References`: What other tables refer to.
* `LibraryState`: The generations, their objects and the references.
* `obsoleteGenerations`: What is to be deleted.
* `queueGenerationDeletion`: The batch that deletes a generation.
* `objectStillReferenced`: Whether any row names an object.
-/

namespace Mdevolved.Materialization

open Mdevolved.Vault
open Process (Pool)
open Table (Ranks)

/-- What the tables of backups, snapshots and restores refer to. -/
structure References where
  /-- The generations of `backup_artifacts`. -/
  backups : List String
  /-- The generations of `snapshot_vaults`. -/
  snapshotVaults : List String
  /-- The objects that `snapshot_entries` are read from. -/
  snapshotEntries : List String
  /-- The generations that `restore_jobs` were verified by. -/
  verified : List String
  /-- The jobs that `restore_jobs` wait for. -/
  restoreJobs : List String

def noReferences : References :=
  { backups := [], snapshotVaults := [], snapshotEntries := [], verified := [], restoreJobs := [] }

structure LibraryState where
  store : MaterializationState
  references : References

/-! ## Generations -/

def generationGraceSeconds : Nat := 24 * 60 * 60

def objectGraceSeconds : Nat := 24 * 60 * 60

def generationBatchSize : Nat := 2

def objectBatchSize : Nat := 48

structure GenerationCandidate where
  id : String
  manifestKey : String

def isCurrent (db : MaterializationDb) (generationId : String) : Bool :=
  db.current.any (fun c => c.generationId = generationId)

/-- Whether a generation is one of the last two that its vault published before
    the present one. -/
def protectedPublished (db : MaterializationDb) (g : GenerationRow) : Bool :=
  g.status = .published && !isCurrent db g.id &&
    (db.generations.filter (fun other =>
      other.vaultId = g.vaultId && other.status = .published && !isCurrent db other.id &&
        other.id ≠ g.id && Ranks g.createdAt g.id other.createdAt other.id)).length < 2

/-- Whether anything refers to a generation. -/
def generationInUse (s : LibraryState) (generationId : String) : Bool :=
  isCurrent s.store.db generationId || s.references.backups.contains generationId ||
    s.references.snapshotVaults.contains generationId ||
    s.references.verified.contains generationId ||
    s.store.db.jobs.any (fun j => j.generationId = generationId &&
      (s.references.restoreJobs.contains j.id || j.status.isActive))

/-- The generations to be deleted, the oldest first. -/
def obsoleteGenerations (now : Nat) (s : LibraryState) : List GenerationCandidate :=
  (((s.store.db.generations.filter (fun g =>
    g.createdAt + generationGraceSeconds ≤ now &&
      (g.status ≠ .published || !protectedPublished s.store.db g) &&
      !generationInUse s g.id)).insertionSort (fun g h =>
        Ranks g.createdAt g.id h.createdAt h.id)).take generationBatchSize).map
    (fun g => { id := g.id, manifestKey := g.manifestKey })

/-- The objects that are named by the notes of one generation alone. -/
def objectsOfGeneration (s : LibraryState) (generationId : String) : List String :=
  (((s.store.db.notes.filter (fun n => n.generationId = generationId)).map NoteRow.r2Key).filter
    (fun key =>
      !s.store.db.notes.any (fun other => other.generationId ≠ generationId && other.r2Key = key) &&
        !s.references.snapshotEntries.contains key)).dedup

/-- Add keys to the queue, those that are not in it yet. -/
def queueKeys (keys : List String) (now : Nat) (rows : List GcObjectRow) : List GcObjectRow :=
  keys.foldl (fun rows key =>
    if rows.any (fun r => r.objectKey = key) then rows
    else rows ++ [{ objectKey := key, queuedAt := now }]) rows

/-- Delete a generation unless something refers to it, with the rows of its notes
    and of its job, and queue what it named. -/
def queueGenerationDeletion (generation : GenerationCandidate) (now : Nat) (s : LibraryState) :
    LibraryState :=
  let queued := queueKeys (generation.manifestKey :: objectsOfGeneration s generation.id) now
    s.store.db.gcObjects
  let kept := fun id => !(id = generation.id && !generationInUse s id)
  let generations := s.store.db.generations.filter (fun g => kept g.id)
  { s with
    store := { s.store with
      db := { s.store.db with
        gcObjects := queued
        generations := generations
        notes := s.store.db.notes.filter (fun n => kept n.generationId)
        jobs := s.store.db.jobs.filter (fun j => kept j.generationId)
        search := s.store.db.search.filter (fun r =>
          !(r.generationId = generation.id &&
            !generations.any (fun g => g.id = generation.id))) } } }

/-! ## Objects -/

/-- Whether any row names an object. -/
def objectStillReferenced (s : LibraryState) (key : String) : Bool :=
  s.store.db.notes.any (fun n => n.r2Key = key) || s.references.snapshotEntries.contains key ||
    s.store.db.generations.any (fun g => g.manifestKey = key) ||
    s.store.db.jobs.any (fun j => j.stagingObjectKey = key && j.status.isActive)

/-- The objects that have been queued long enough, the first of them. -/
def queuedObjects (now : Nat) (s : LibraryState) : List String :=
  (((s.store.db.gcObjects.filter (fun r =>
    r.queuedAt + objectGraceSeconds ≤ now)).insertionSort (fun r t =>
      Ranks r.queuedAt r.objectKey t.queuedAt t.objectKey)).take objectBatchSize).map
    GcObjectRow.objectKey

def dequeue (key : String) (s : LibraryState) : LibraryState :=
  { s with
    store := { s.store with
      db := { s.store.db with
        gcObjects := s.store.db.gcObjects.filter (fun r => r.objectKey ≠ key) } } }

def withoutObject (key : String) (s : LibraryState) : LibraryState :=
  { s with store := { s.store with objects := Function.update s.store.objects key none } }

/-! ## Requests -/

inductive LibraryOp
  | job (op : MaterializationOp)
  | readObsolete (now : Nat)
  | queueDeletion (generation : GenerationCandidate) (now : Nat)
  | readQueued (now : Nat)
  | readReferenced (key : String)
  | deleteObject (key : String)
  | headObject (key : String)
  | dequeue (key : String)
  /-- Count a failed deletion, which nothing reads. -/
  | countFailure (key : String) (now : Nat)
  | countQueued
  | setReferences (references : References)

abbrev LibraryOp.Ret : LibraryOp → Type
  | .job op => op.Ret
  | .readObsolete _ => List GenerationCandidate
  | .readQueued _ => List String
  | .readReferenced _ | .headObject _ => Bool
  | .countQueued => Nat
  | _ => Unit

abbrev LibraryProcess (α : Type) : Type :=
  Process LibraryOp (fun op => Except JobError op.Ret) JobError α

/-- What a request does where it goes through. -/
def libraryEffect (sha256 : List UInt8 → String) (s : LibraryState) :
    (op : LibraryOp) → Except JobError (op.Ret × LibraryState)
  | .job op => (effect sha256 s.store op).map (fun r => (r.1, { s with store := r.2 }))
  | .readObsolete now => .ok (obsoleteGenerations now s, s)
  | .queueDeletion generation now => .ok ((), queueGenerationDeletion generation now s)
  | .readQueued now => .ok (queuedObjects now s, s)
  | .readReferenced key => .ok (objectStillReferenced s key, s)
  | .deleteObject key => .ok ((), withoutObject key s)
  | .headObject key => .ok ((s.store.objects key).isSome, s)
  | .dequeue key => .ok ((), dequeue key s)
  | .countFailure _ _ => .ok ((), s)
  | .countQueued => .ok (s.store.db.gcObjects.length, s)
  | .setReferences references => .ok ((), { s with references := references })

/-- A request, under what becomes of it. -/
def libraryExec (sha256 : List UInt8 → String) (op : LibraryOp) (w : Batch.Outcome)
    (s : LibraryState) : Except JobError op.Ret × LibraryState :=
  Batch.send JobError.other w (fun s => libraryEffect sha256 s op) s

def request (op : LibraryOp) : LibraryProcess op.Ret :=
  Process.request op

/-! ## Maintenance -/

def queueDeletions (now : Nat) : List GenerationCandidate → LibraryProcess Unit
  | [] => pure ()
  | generation :: rest => do
      request (.queueDeletion generation now)
      queueDeletions now rest

def queueObsoleteMaterializations (now : Nat) : LibraryProcess Nat := do
  let candidates ← request (.readObsolete now)
  queueDeletions now candidates
  pure candidates.length

/-- Delete an object and see that it is gone. -/
def deleteQueued (key : String) : LibraryProcess Unit := do
  request (.deleteObject key)
  let remains ← request (.headObject key)
  if remains then throw .other
  else request (.dequeue key)

/-- Delete a queued object, unless some row names it. -/
def collectObject (key : String) (now : Nat) : LibraryProcess Unit := do
  let referenced ← request (.readReferenced key)
  if referenced then request (.dequeue key)
  else Process.tryCatch (deleteQueued key) (fun _ => request (.countFailure key now))

def collectObjects (now : Nat) : List String → LibraryProcess Unit
  | [] => pure ()
  | key :: rest => do
      collectObject key now
      collectObjects now rest

def runMaterializationGarbageCollection (now : Nat) : LibraryProcess Nat := do
  let queued ← request (.readQueued now)
  collectObjects now queued
  request .countQueued

/-! ## Calls -/

/-- What may be going on at once. -/
inductive LibraryCall
  | job (call : MaterializationCall)
  | queueObsolete (now : Nat)
  | collectGarbage (now : Nat)
  | setReferences (references : References)

/-- A function of `Jobs`, next to the maintenance. -/
def ofJob {α : Type} (p : JobProcess α) : LibraryProcess α :=
  Process.mapOp LibraryOp.job p

def LibraryCall.process (u : UnicodeTables) (sha256 : List UInt8 → String) :
    LibraryCall → LibraryProcess Unit
  | .job call => ofJob (call.process u sha256)
  | .queueObsolete now => do
      let _ ← queueObsoleteMaterializations now
      pure ()
  | .collectGarbage now => do
      let _ ← runMaterializationGarbageCollection now
      pure ()
  | .setReferences references => request (.setReferences references)

/-- The calls over one state. -/
abbrev LibraryPool (ι : Type) : Type :=
  Pool ι LibraryOp (fun op => Except JobError op.Ret) LibraryState JobError Unit

/-- Any calls, about to begin. -/
def startLibrary {ι : Type} (u : UnicodeTables) (sha256 : List UInt8 → String)
    (calls : ι → LibraryCall) (s : LibraryState) : LibraryPool ι :=
  { shared := s, calls := fun i => (calls i).process u sha256 }

end Mdevolved.Materialization
