import Mdevolved.Lib.Table
import Mdevolved.Materialization.Frames

/-!
# Materialization Tables

The tables a generation of the library is built in, and the statements that
change them, one definition for each statement under what it does. A statement
returns the identifiers it was asked for. Those that guard themselves with a
`WHERE` clause change nothing where the guard fails, and succeed all the same;
that is the difference between a statement that was skipped and a batch that
was rolled back.

A generation is staged under a fresh identifier and becomes visible when the
vault's row of `current_materializations` points to it. `publishBatch` is meant
to do that together with everything that follows from it, and its six statements
are guarded one by one.

## Main definitions

* `MaterializationDb`: The tables.
* `JobRow`: A job joined with its generation.
* `publishBatch`: The statements that publish a generation.
* `failBatch`: The statements that fail a job.
* `createBatch`: The statements that create a job.

## Theorems

* `updateJobs_ok`: An update of jobs that its checks let through.
* `claimStatement_ok`: What claiming a job changes.
* `projectionStatements_ok`: What projecting notes changes.
-/

namespace Mdevolved.Materialization

open Mdevolved.Vault Batch

inductive VaultStatus
  | pending | active | revoked
  deriving DecidableEq

structure VaultRow where
  id : String
  status : VaultStatus

inductive GenerationStatus
  | staging | published | failed
  deriving DecidableEq

/-- Why a row failed: the code of the failed job, or that a newer job took its
    place. -/
inductive FailureCode
  | code (code : MaterializationErrorCode)
  | superseded
  deriving DecidableEq

/-- One row of `materialization_generations`. -/
structure GenerationRow where
  id : String
  vaultId : String
  sourceStateVectorSha256 : String
  status : GenerationStatus
  noteCount : Nat
  totalBytes : Nat
  manifestKey : String
  manifestSha256 : Option String
  createdAt : Nat
  completedAt : Option Nat
  failureCode : Option FailureCode

/-- One row of `current_materializations`. -/
structure CurrentRow where
  vaultId : String
  generationId : String
  updatedAt : Nat

inductive JobStatus
  | queued | running | completed | failed
  deriving DecidableEq

/-- One row of `materialization_jobs`. -/
structure MaterializationJobRow where
  id : String
  generationId : String
  vaultId : String
  sourceStateVectorSha256 : String
  status : JobStatus
  stagingObjectKey : String
  stagingObjectBytes : Nat
  nextOffset : Nat
  processedNoteCount : Nat
  totalNoteCount : Nat
  schemaVersion : Nat
  requestId : String
  attemptCount : Nat
  createdAt : Nat
  updatedAt : Nat
  completedAt : Option Nat
  failureCode : Option FailureCode

/-- A job joined with its generation. -/
structure JobRow where
  job : MaterializationJobRow
  generation : GenerationRow

/-- One row of `materialized_notes`. -/
structure NoteRow where
  generationId : String
  vaultId : String
  path : String
  pathKey : String
  title : String
  r2Key : String
  contentSha256 : String
  byteLength : Nat
  modifiedAt : Option Decimal

/-- One row of `materialized_note_search`. -/
structure SearchRow where
  generationId : String
  vaultId : String
  pathKey : String
  path : String
  title : String
  body : String

/-- The columns of `vault_sync_states` that a generation depends on. -/
structure SyncStateRow where
  vaultId : String
  initialSyncAt : Option Nat
  lastSyncAt : Option Nat
  currentStateVectorSha256 : Option String
  libraryStale : Bool
  lastErrorCode : Option FailureCode
  lastErrorAt : Option Nat
  updatedAt : Nat

/-- One row of `materialization_gc_objects`. -/
structure GcObjectRow where
  objectKey : String
  queuedAt : Nat

/-- One row of `audit_events`. -/
structure AuditEventRow where
  eventType : String
  requestId : String
  createdAt : Nat

structure MaterializationDb where
  vaults : List VaultRow
  generations : List GenerationRow
  current : List CurrentRow
  jobs : List MaterializationJobRow
  notes : List NoteRow
  search : List SearchRow
  syncStates : List SyncStateRow
  gcObjects : List GcObjectRow
  auditEvents : List AuditEventRow

/-- A database that has built nothing yet. -/
def freshDb (vaults : List VaultRow) (syncStates : List SyncStateRow) : MaterializationDb :=
  { vaults := vaults
    generations := []
    current := []
    jobs := []
    notes := []
    search := []
    syncStates := syncStates
    gcObjects := []
    auditEvents := [] }

/-- What a request to the database fails with: a constraint, or the request
    itself. -/
inductive D1Error
  | constraint | unavailable

/-- One statement, returning the identifiers of its rows. -/
abbrev D1Statement := Statement MaterializationDb D1Error (List String)

/-! ## Lookups -/

def generationOf (db : MaterializationDb) (id : String) : Option GenerationRow :=
  db.generations.find? (fun g => g.id = id)

def generationStatus (db : MaterializationDb) (id : String) : Option GenerationStatus :=
  (generationOf db id).map GenerationRow.status

def jobOf (db : MaterializationDb) (id : String) : Option MaterializationJobRow :=
  db.jobs.find? (fun j => j.id = id)

def jobStatus (db : MaterializationDb) (id : String) : Option JobStatus :=
  (jobOf db id).map MaterializationJobRow.status

/-- The generation a vault's pointer names. -/
def currentOf (db : MaterializationDb) (vaultId : String) : Option String :=
  (db.current.find? (fun c => c.vaultId = vaultId)).map CurrentRow.generationId

def syncStateOf (db : MaterializationDb) (vaultId : String) : Option SyncStateRow :=
  db.syncStates.find? (fun s => s.vaultId = vaultId)

def staleOf (db : MaterializationDb) (vaultId : String) : Option Bool :=
  (syncStateOf db vaultId).map SyncStateRow.libraryStale

def vaultActive (db : MaterializationDb) (vaultId : String) : Bool :=
  db.vaults.any (fun v => v.id = vaultId && v.status = .active)

/-- A job that is waiting or being worked on. -/
def JobStatus.isActive (s : JobStatus) : Bool := s = .queued || s = .running

/-! ## Statements -/

/-- Change jobs; `CHECK (updated_at >= created_at)` has to hold of those that
    change. -/
def updateJobs (p : MaterializationJobRow → Bool)
    (f : MaterializationJobRow → MaterializationJobRow) (db : MaterializationDb) :
    Except D1Error (List String × MaterializationDb) :=
  if (db.jobs.filter p).all (fun j => (f j).createdAt ≤ (f j).updatedAt) then
    .ok ((db.jobs.filter p).map MaterializationJobRow.id,
      { db with jobs := Table.update p f db.jobs })
  else .error .constraint

/-- The order jobs are taken in: those being worked on before those that wait,
    and the older ones first. -/
def MaterializationJobRow.takenBefore (j k : MaterializationJobRow) : Bool :=
  match j.status = .running && k.status ≠ .running, k.status = .running && j.status ≠ .running with
  | true, _ => true
  | _, true => false
  | _, _ => j.createdAt ≤ k.createdAt

/-- Take the next job of a vault. -/
def claimStatement (vaultId : String) (now : Nat) : D1Statement := fun db =>
  let active := (db.jobs.filter (fun j => j.vaultId = vaultId && j.status.isActive)).insertionSort
    (fun j k => j.takenBefore k)
  match active.head? with
  | none => .ok ([], db)
  | some next =>
      updateJobs (fun j => j.id = next.id) (fun j => { j with status := .running, updatedAt := now })
        db

/-- Publish a staged generation of an active vault. -/
def publishGeneration (manifestSha256 : String) (now : Nat) (generationId : String) :
    D1Statement := fun db =>
  let p : GenerationRow → Bool := fun g =>
    g.id = generationId && g.status = .staging && vaultActive db g.vaultId
  .ok ((db.generations.filter p).map GenerationRow.id,
    { db with
      generations := Table.update p (fun g =>
        { g with
          status := .published, manifestSha256 := some manifestSha256
          completedAt := some now }) db.generations })

/-- Point a vault to a generation, adding or changing its row. No two vaults may
    point to one generation. -/
def pointTo (vaultId generationId : String) (now : Nat) (rows : List CurrentRow) :
    Except D1Error (List CurrentRow) :=
  if rows.any (fun c => c.generationId = generationId && c.vaultId ≠ vaultId) then
    .error .constraint
  else if rows.any (fun c => c.vaultId = vaultId) then
    .ok (Table.update (fun c => c.vaultId = vaultId)
      (fun c => { c with generationId := generationId, updatedAt := now }) rows)
  else .ok (rows ++ [{ vaultId := vaultId, generationId := generationId, updatedAt := now }])

/-- Point the generation's vault to it, if it is published. -/
def setCurrent (now : Nat) (generationId : String) : D1Statement := fun db =>
  match generationOf db generationId with
  | some g =>
      if g.status = .published then
        match pointTo g.vaultId generationId now db.current with
        | .error e => .error e
        | .ok current => .ok ([], { db with current := current })
      else .ok ([], db)
  | none => .ok ([], db)

/-- Complete a job that is running. -/
def completeJob (now : Nat) (jobId : String) : D1Statement :=
  updateJobs (fun j => j.id = jobId && j.status = .running)
    (fun j =>
      { j with
        status := .completed, processedNoteCount := j.totalNoteCount
        completedAt := some now, updatedAt := now, attemptCount := 0 })

/-- Record that a job was completed. -/
def auditCompleted (requestId : String) (now : Nat) (jobId : String) : D1Statement := fun db =>
  if jobStatus db jobId = some .completed then
    .ok ([], { db with
      auditEvents := db.auditEvents ++
        [{ eventType := "vault.materialized", requestId := requestId, createdAt := now }] })
  else .ok ([], db)

/-- Drop the search rows of the vault's other generations. -/
def dropOtherSearchRows (vaultId generationId : String) : D1Statement := fun db =>
  .ok ([], { db with
    search := db.search.filter
      (fun r => !(r.vaultId = vaultId && r.generationId ≠ generationId)) })

/-- Whether the library is stale for a vault at `current`, given what the
    generation was made from. -/
def staleAgainst (current : Option String) (source : String) : Bool :=
  current ≠ some source

/-- Clear the vault's error and say whether its library is stale. -/
def refreshSyncState (sourceStateVectorSha256 : String) (now : Nat) (vaultId : String) :
    D1Statement := fun db =>
  .ok ([], { db with
    syncStates := Table.update (fun s => s.vaultId = vaultId)
      (fun s =>
        { s with
          libraryStale := staleAgainst s.currentStateVectorSha256 sourceStateVectorSha256
          lastErrorCode := none, lastErrorAt := none, updatedAt := now }) db.syncStates })

/-- The batch of `finalizeJob`. -/
def publishBatch (job : JobRow) (manifestSha256 : String) (now : Nat) : List D1Statement :=
  [publishGeneration manifestSha256 now job.job.generationId,
    setCurrent now job.job.generationId,
    completeJob now job.job.id,
    auditCompleted job.job.requestId now job.job.id,
    dropOtherSearchRows job.job.vaultId job.job.generationId,
    refreshSyncState job.job.sourceStateVectorSha256 now job.job.vaultId]

/-- Fail generations that are still staged. -/
def failGenerations (p : String → Bool) (code : FailureCode) (now : Nat) : D1Statement := fun db =>
  .ok ([], { db with
    generations := Table.update (fun g => p g.id && g.status = .staging)
      (fun g => { g with status := .failed, failureCode := some code, completedAt := some now })
      db.generations })

/-- Queue objects for deletion, each of them once. -/
def queueObjects (keys : List String) (now : Nat) : D1Statement := fun db =>
  .ok ([], { db with
    gcObjects := keys.foldl
      (fun rows key =>
        if rows.any (fun r => r.objectKey = key) then rows
        else rows ++ [{ objectKey := key, queuedAt := now }]) db.gcObjects })

/-- Mark the vault's library stale with an error. -/
def failSyncState (code : FailureCode) (now : Nat) (vaultId : String) : D1Statement := fun db =>
  .ok ([], { db with
    syncStates := Table.update (fun s => s.vaultId = vaultId)
      (fun s =>
        { s with
          libraryStale := true, lastErrorCode := some code, lastErrorAt := some now
          updatedAt := now }) db.syncStates })

/-- The batch of `failJob`. -/
def failBatch (job : JobRow) (code : FailureCode) (now : Nat) : List D1Statement :=
  [failGenerations (fun id => id = job.job.generationId) code now,
    updateJobs (fun j => j.id = job.job.id && j.status.isActive)
      (fun j =>
        { j with
          status := .failed, failureCode := some code, completedAt := some now
          updatedAt := now }),
    queueObjects [job.job.stagingObjectKey] now,
    failSyncState code now job.job.vaultId]

/-- Count a failed attempt at a running job. -/
def attemptStatement (jobId : String) (now : Nat) : D1Statement :=
  updateJobs (fun j => j.id = jobId && j.status = .running)
    (fun j => { j with attemptCount := j.attemptCount + 1, updatedAt := now })

/-- Record how far a running job has come. -/
def progressStatement (jobId : String) (nextOffset processed now : Nat) : D1Statement :=
  updateJobs (fun j => j.id = jobId && j.status = .running)
    (fun j =>
      { j with
        nextOffset := nextOffset, processedNoteCount := processed, updatedAt := now
        attemptCount := 0 })

/-- A note with the hash and the key of its content. -/
structure PreparedNote where
  note : MaterializedSnapshotNote
  contentSha256 : String
  r2Key : String

def prepareNote (sha256 : List UInt8 → String) (vaultId : String)
    (note : MaterializedSnapshotNote) : PreparedNote :=
  let hex := sha256 (Utf8.encode note.content)
  { note := note
    contentSha256 := hex
    r2Key := "vaults/" ++ vaultId ++ "/library/objects/sha256/" ++ hex ++ ".md" }

def prepareNotes (sha256 : List UInt8 → String) (vaultId : String)
    (notes : List MaterializedSnapshotNote) : List PreparedNote :=
  notes.map (prepareNote sha256 vaultId)

/-- The row of a note in a generation. -/
def noteRow (generationId vaultId : String) (prepared : PreparedNote) : NoteRow :=
  { generationId := generationId
    vaultId := vaultId
    path := prepared.note.path
    pathKey := prepared.note.pathKey
    title := prepared.note.title
    r2Key := prepared.r2Key
    contentSha256 := prepared.contentSha256
    byteLength := prepared.note.byteLength
    modifiedAt := prepared.note.modifiedAt }

/-- A number an integer column of a strict table takes: whole, and of 64
    bits. -/
def fitsInteger (n : Decimal) : Bool :=
  n.digits.length ≤ n.point &&
    (-(2 ^ 63) ≤ n.scaled 0 && n.scaled 0 < 2 ^ 63) || n.digits = []

/-- The primary key of `materialized_notes`. -/
def NoteRow.key (n : NoteRow) : String × String := (n.generationId, n.pathKey)

/-- A row brought up to date. -/
def NoteRow.refresh (n row : NoteRow) : NoteRow :=
  { n with
    path := row.path, title := row.title, r2Key := row.r2Key
    contentSha256 := row.contentSha256, byteLength := row.byteLength
    modifiedAt := row.modifiedAt }

/-- Add a row, or bring the row of its key up to date. -/
def upsertRow (rows : List NoteRow) (row : NoteRow) : List NoteRow :=
  Table.upsert NoteRow.key NoteRow.refresh rows row

/-- Insert the row of a note, or bring the row of its key up to date. -/
def upsertNote (generationId vaultId : String) (prepared : PreparedNote) : D1Statement := fun db =>
  let row := noteRow generationId vaultId prepared
  if row.modifiedAt.all fitsInteger then
    .ok ([], { db with notes := upsertRow db.notes row })
  else .error .constraint

/-- The search row of a note in a generation. -/
def searchRow (generationId vaultId : String) (prepared : PreparedNote) : SearchRow :=
  { generationId := generationId
    vaultId := vaultId
    pathKey := prepared.note.pathKey
    path := prepared.note.path
    title := prepared.note.title
    body := prepared.note.content }

/-- Drop the search row of a key. -/
def dropSearchRow (generationId pathKey : String) : D1Statement := fun db =>
  .ok ([], { db with
    search := db.search.filter
      (fun r => !(r.generationId = generationId && r.pathKey = pathKey)) })

def insertSearchRow (generationId vaultId : String) (prepared : PreparedNote) : D1Statement :=
  fun db => .ok ([], { db with search := db.search ++ [searchRow generationId vaultId prepared] })

/-- The search rows with a key's rows replaced by that of a note. -/
def reindex (generationId vaultId : String) (rows : List SearchRow) (prepared : PreparedNote) :
    List SearchRow :=
  rows.filter
      (fun r => !(r.generationId = generationId && r.pathKey = prepared.note.pathKey)) ++
    [searchRow generationId vaultId prepared]

/-- The statements that project a number of notes, three for each. -/
def projectionStatements (generationId vaultId : String) (notes : List PreparedNote) :
    List D1Statement :=
  notes.flatMap (fun prepared =>
    [upsertNote generationId vaultId prepared,
      dropSearchRow generationId prepared.note.pathKey,
      insertSearchRow generationId vaultId prepared])

/-- A job to be created. -/
structure CreateInput where
  now : Nat
  requestId : String
  snapshot : MaterializedSnapshot
  sourceStateVectorSha256 : String
  vaultId : String
  jobId : String
  generationId : String

def CreateInput.stagingObjectKey (input : CreateInput) : String :=
  "vaults/" ++ input.vaultId ++ "/materialization-staging/" ++ input.jobId ++ ".bin"

def CreateInput.manifestKey (input : CreateInput) : String :=
  "vaults/" ++ input.vaultId ++ "/generations/" ++ input.generationId ++ "/manifest.json"

/-- The generations of a vault's waiting jobs. -/
def queuedGenerations (db : MaterializationDb) (vaultId : String) : List String :=
  (db.jobs.filter (fun j => j.vaultId = vaultId && j.status = .queued)).map
    MaterializationJobRow.generationId

/-- Queue the staged objects of a vault's waiting jobs for deletion. -/
def queueSuperseded (input : CreateInput) : D1Statement := fun db =>
  queueObjects ((db.jobs.filter (fun j => j.vaultId = input.vaultId && j.status = .queued)).map
    MaterializationJobRow.stagingObjectKey) input.now db

/-- Fail the generations of a vault's waiting jobs. -/
def supersedeGenerations (input : CreateInput) : D1Statement := fun db =>
  failGenerations (fun id => id ∈ queuedGenerations db input.vaultId) .superseded input.now db

/-- Fail a vault's waiting jobs. -/
def supersedeJobs (input : CreateInput) : D1Statement :=
  updateJobs (fun j => j.vaultId = input.vaultId && j.status = .queued)
    (fun j =>
      { j with
        status := .failed, failureCode := some .superseded, completedAt := some input.now
        updatedAt := input.now })

/-- Stage a generation of an active vault. -/
def insertGeneration (input : CreateInput) : D1Statement := fun db =>
  if vaultActive db input.vaultId then
    match Table.insert (fun rows g => rows.all (fun other => other.id ≠ g.id)) db.generations
        { id := input.generationId
          vaultId := input.vaultId
          sourceStateVectorSha256 := input.sourceStateVectorSha256
          status := .staging
          noteCount := input.snapshot.notes.length
          totalBytes := input.snapshot.totalBytes
          manifestKey := input.manifestKey
          manifestSha256 := none
          createdAt := input.now
          completedAt := none
          failureCode := none } with
    | none => .error .constraint
    | some generations => .ok ([input.generationId], { db with generations := generations })
  else .ok ([], db)

/-- The constraints of `materialization_jobs`: its primary key, the unique
    generation and staged object, and one active job for each source. -/
def admitsJob (rows : List MaterializationJobRow) (job : MaterializationJobRow) : Bool :=
  rows.all (fun other =>
    other.id ≠ job.id && other.generationId ≠ job.generationId &&
      other.stagingObjectKey ≠ job.stagingObjectKey &&
      !(other.vaultId = job.vaultId &&
        other.sourceStateVectorSha256 = job.sourceStateVectorSha256 &&
        other.status.isActive && job.status.isActive)) &&
    job.sourceStateVectorSha256.length = 64

/-- Add the job of a generation that was just staged. -/
def insertJob (input : CreateInput) : D1Statement := fun db =>
  match generationOf db input.generationId with
  | none => .ok ([], db)
  | some g =>
      if g.status = .staging then
        match Table.insert admitsJob db.jobs
            { id := input.jobId
              generationId := input.generationId
              vaultId := g.vaultId
              sourceStateVectorSha256 := g.sourceStateVectorSha256
              status := .queued
              stagingObjectKey := input.stagingObjectKey
              stagingObjectBytes := (stagedSnapshot input.snapshot).length
              nextOffset := 0
              processedNoteCount := 0
              totalNoteCount := g.noteCount
              schemaVersion := input.snapshot.schemaVersion
              requestId := input.requestId
              attemptCount := 0
              createdAt := input.now
              updatedAt := input.now
              completedAt := none
              failureCode := none } with
        | none => .error .constraint
        | some jobs => .ok ([input.jobId], { db with jobs := jobs })
      else .ok ([], db)

/-- The batch of `createMaterializationJob`. -/
def createBatch (input : CreateInput) : List D1Statement :=
  [queueSuperseded input, supersedeGenerations input, supersedeJobs input,
    insertGeneration input, insertJob input]

/-- An update of jobs that its checks let through. -/
theorem updateJobs_ok (p : MaterializationJobRow → Bool)
    (f : MaterializationJobRow → MaterializationJobRow) (db db' : MaterializationDb)
    (ids : List String) (h : updateJobs p f db = .ok (ids, db')) :
    ids = (db.jobs.filter p).map MaterializationJobRow.id ∧
      db' = { db with jobs := Table.update p f db.jobs } := by
  unfold updateJobs at h
  split at h
  · rw [Batch.ok_inj] at h
    exact ⟨h.1.symm, h.2.symm⟩
  · cases h

/-- A claimed job is one of the vault that was active, and is being worked on
    from then on. -/
theorem claimStatement_ok (vaultId : String) (now : Nat) (db db' : MaterializationDb)
    (ids : List String) (h : claimStatement vaultId now db = .ok (ids, db')) :
    (ids = [] ∧ db' = db) ∨
      ∃ job ∈ db.jobs, job.vaultId = vaultId ∧ job.status.isActive = true ∧
        updateJobs (fun j => j.id = job.id)
          (fun j => { j with status := .running, updatedAt := now }) db = .ok (ids, db') := by
  unfold claimStatement at h
  simp only [] at h
  split at h
  · rw [Batch.ok_inj] at h
    exact Or.inl ⟨h.1.symm, h.2.symm⟩
  · next next hnext =>
    have hmem := List.mem_of_head? hnext
    rw [List.mem_insertionSort, List.mem_filter, Bool.and_eq_true, decide_eq_true_eq] at hmem
    exact Or.inr ⟨next, hmem.1, hmem.2.1, hmem.2.2, h⟩

/-- Projecting notes changes the rows of notes and the search rows alone. -/
theorem projectionStatements_ok (generationId vaultId : String) (notes : List PreparedNote)
    (db db' : MaterializationDb) (rs : List (List String))
    (h : Batch.run (projectionStatements generationId vaultId notes) db = .ok (rs, db')) :
    db' = { db with
      notes := notes.foldl (fun rows p => upsertRow rows (noteRow generationId vaultId p)) db.notes
      search := notes.foldl (reindex generationId vaultId) db.search } := by
  induction notes generalizing db rs with
  | nil =>
      rw [projectionStatements, List.flatMap_nil, run_nil, Batch.ok_inj] at h
      exact h.2.symm
  | cons note notes ih =>
      rw [projectionStatements, List.flatMap_cons] at h
      rcases run_append_ok h with ⟨t, rs₁, rs₂, hnote, hrest, -⟩
      rcases run_cons_ok.mp hnote with ⟨r, rs', t', hupsert, htail, -⟩
      have hdb : t' = { db with
          notes := upsertRow db.notes (noteRow generationId vaultId note) } := by
        unfold upsertNote at hupsert
        simp only [] at hupsert
        split at hupsert
        · rw [Batch.ok_inj] at hupsert
          exact hupsert.2.symm
        · cases hupsert
      have ht : t = { t' with search := reindex generationId vaultId t'.search note } := by
        simp only [Batch.run, dropSearchRow, insertSearchRow, Batch.ok_inj]
          at htail
        exact htail.2.symm
      have hdone := ih t rs₂ hrest
      rw [hdone, ht, hdb]
      rfl

end Mdevolved.Materialization
