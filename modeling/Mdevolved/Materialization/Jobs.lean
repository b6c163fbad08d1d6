import Mdevolved.Lib.Process
import Mdevolved.Materialization.Tables

/-!
# Materialization Jobs

The functions that build a generation of the library, as processes over a
database and an object store. `createMaterializationJob` stages a snapshot and
queues a job; each call of `continueNextMaterializationJob` reads up to sixteen
notes from the staged object, projects them, and publishes the generation once
they are all there. A call that fails counts an attempt, and gives the job up
after the sixth or where trying again is of no use.

Every request of theirs may be refused, or may take effect and lose its answer.
Between two requests of a call any number of requests of other calls may come,
vaults may be revoked and the state of a vault may be recorded anew.

## Main definitions

* `MaterializationOp`: One request.
* `exec`: What a request does, and how it ends.
* `readStagedNote`, `readStagedNotes`: Reading a job's notes.
* `finalizeJob`: Publishing a generation whose notes are all there.
* `continueNextMaterializationJob`: One call of the queue.
-/

namespace Mdevolved.Materialization

open Mdevolved.Vault
open Process (Pool)

/-- What a job throws: an error with a code, or one of the requests it makes. -/
inductive JobError
  | coded (code : MaterializationErrorCode)
  | other

/-- The code under which a job fails. -/
def JobError.code : JobError → MaterializationErrorCode
  | .coded code => code
  | .other => .materializationUnavailable

/-- The database and the objects under their keys. -/
structure MaterializationState where
  db : MaterializationDb
  objects : String → Option (List UInt8)

inductive MaterializationOp
  | readJobRow (jobId : String)
  | readPublished (vaultId generationId : String)
  | readCurrentForSource (vaultId sourceStateVectorSha256 : String)
  | readActiveForSource (vaultId sourceStateVectorSha256 : String)
  | hasActiveJobs (vaultId : String)
  | readNotes (generationId vaultId : String)
  | claimJob (vaultId : String) (now : Nat)
  | projectNotes (job : JobRow) (vaultId : String) (notes : List PreparedNote)
      (nextOffset processed now : Nat)
  | publish (job : JobRow) (manifestSha256 : String) (now : Nat)
  | countAttempt (jobId : String) (now : Nat)
  | failJob (job : JobRow) (code : MaterializationErrorCode) (now : Nat)
  | createJob (input : CreateInput)
  | queueObject (key : String) (now : Nat)
  | getRange (key : String) (offset length : Nat)
  | putStaging (key : String) (bytes : List UInt8)
  | putNoteObject (note : PreparedNote)
  | putImmutableManifest (key : String) (bytes : List UInt8)
  | deleteObject (key : String)
  | setVaultStatus (vaultId : String) (status : VaultStatus)
  | recordSyncState (row : SyncStateRow)

/-- What a request returns. -/
abbrev MaterializationOp.Ret : MaterializationOp → Type
  | .readJobRow _ => Option JobRow
  | .readPublished _ _ => Option GenerationRow
  | .readCurrentForSource _ _ | .readActiveForSource _ _ | .claimJob _ _ => Option String
  | .hasActiveJobs _ => Bool
  | .readNotes _ _ => List NoteRow
  | .countAttempt _ _ => Option Nat
  | .publish _ _ _ | .createJob _ => List (List String)
  | .getRange _ _ _ => Option (List UInt8)
  | .putStaging _ _ => Option Nat
  | _ => Unit

/-- A function that works through jobs. -/
abbrev JobProcess (α : Type) : Type :=
  Process MaterializationOp (fun op => Except JobError op.Ret) JobError α

/-- Make a request and wait for its answer. -/
def ask (op : MaterializationOp) : JobProcess op.Ret :=
  Process.request op

/-! ## Requests -/

/-- A job with its generation. -/
def jobRowOf (db : MaterializationDb) (jobId : String) : Option JobRow :=
  (jobOf db jobId).bind (fun job =>
    (generationOf db job.generationId).map (fun generation =>
      { job := job, generation := generation }))

/-- The rows of a generation's notes, in the order of their keys. -/
def notesOf (db : MaterializationDb) (generationId vaultId : String) : List NoteRow :=
  (db.notes.filter (fun n => n.generationId = generationId && n.vaultId = vaultId)).insertionSort
    (fun m n => m.pathKey ≤ n.pathKey)

/-- The batch of a number of notes. -/
def projectBatch (job : JobRow) (vaultId : String) (notes : List PreparedNote)
    (nextOffset processed now : Nat) : List D1Statement :=
  projectionStatements job.job.generationId vaultId notes ++
    [progressStatement job.job.id nextOffset processed now]

/-- Add a vault, or change its status. -/
def withVaultStatus (vaultId : String) (status : VaultStatus) (vaults : List VaultRow) :
    List VaultRow :=
  if vaults.any (fun v => v.id = vaultId) then
    Table.update (fun v => v.id = vaultId) (fun v => { v with status := status }) vaults
  else vaults ++ [{ id := vaultId, status := status }]

/-- Add the sync state of a vault, or replace it. -/
def withSyncState (row : SyncStateRow) (rows : List SyncStateRow) : List SyncStateRow :=
  if rows.any (fun r => r.vaultId = row.vaultId) then
    Table.update (fun r => r.vaultId = row.vaultId) (fun _ => row) rows
  else rows ++ [row]

/-- Whether an object has the size and the hash it should have. -/
def objectMatches (sha256 : List UInt8 → String) (object : List UInt8) (byteLength : Nat)
    (contentSha256 : String) : Bool :=
  object.length = byteLength && sha256 object = contentSha256

/-- Write the object of a note, unless it is there already. -/
def withNoteObject (sha256 : List UInt8 → String) (note : PreparedNote)
    (objects : String → Option (List UInt8)) : String → Option (List UInt8) :=
  let content := Utf8.encode note.note.content
  if (objects note.r2Key).any (fun object =>
      objectMatches sha256 object content.length note.contentSha256) then objects
  else Function.update objects note.r2Key (some content)

/-- A request to the database, and what is read off its results. -/
def onDb {ρ α : Type} (q : MaterializationDb → Except D1Error (ρ × MaterializationDb))
    (answer : ρ → MaterializationDb → α) (s : MaterializationState) :
    Except JobError (α × MaterializationState) :=
  match q s.db with
  | .error _ => .error .other
  | .ok (r, db) => .ok (answer r db, { s with db := db })

/-- A request that only reads. -/
def reading {α : Type} (f : MaterializationState → α) (s : MaterializationState) :
    Except JobError (α × MaterializationState) :=
  .ok (f s, s)

/-- A request that only changes objects. -/
def storing {α : Type} (a : α) (objects : String → Option (List UInt8))
    (s : MaterializationState) : Except JobError (α × MaterializationState) :=
  .ok (a, { s with objects := objects })

/-- What a request does where it goes through. -/
def effect (sha256 : List UInt8 → String) (s : MaterializationState) :
    (op : MaterializationOp) → Except JobError (op.Ret × MaterializationState)
  | .readJobRow jobId => reading (fun s => jobRowOf s.db jobId) s
  | .readPublished vaultId generationId => reading (fun s =>
      s.db.generations.find? (fun g =>
        g.id = generationId && g.vaultId = vaultId && g.status = .published &&
          g.completedAt.isSome)) s
  | .readCurrentForSource vaultId source => reading (fun s =>
      (currentOf s.db vaultId).bind (fun generationId =>
        (generationOf s.db generationId).bind (fun g =>
          if g.status = .published ∧ g.sourceStateVectorSha256 = source then some g.id
          else none))) s
  | .readActiveForSource vaultId source => reading (fun s =>
      (s.db.jobs.find? (fun j =>
        j.vaultId = vaultId && j.sourceStateVectorSha256 = source && j.status.isActive)).map
        MaterializationJobRow.id) s
  | .hasActiveJobs vaultId => reading (fun s =>
      s.db.jobs.any (fun j => j.vaultId = vaultId && j.status.isActive)) s
  | .readNotes generationId vaultId => reading (fun s => notesOf s.db generationId vaultId) s
  | .claimJob vaultId now => onDb (claimStatement vaultId now) (fun ids _ => ids.head?) s
  | .projectNotes job vaultId notes nextOffset processed now => onDb
      (Batch.run (projectBatch job vaultId notes nextOffset processed now)) (fun _ _ => ()) s
  | .publish job manifestSha256 now => onDb
      (Batch.run (publishBatch job manifestSha256 now)) (fun published _ => published) s
  | .countAttempt jobId now => onDb (attemptStatement jobId now) (fun ids db =>
      ids.head?.bind (fun id => (jobOf db id).map MaterializationJobRow.attemptCount)) s
  | .failJob job code now => onDb (Batch.run (failBatch job (.code code) now)) (fun _ _ => ()) s
  | .createJob input => onDb (Batch.run (createBatch input)) (fun results _ => results) s
  | .queueObject key now => onDb (queueObjects [key] now) (fun _ _ => ()) s
  | .getRange key offset length => reading (fun s =>
      (s.objects key).map (fun object => rangeOf object offset length)) s
  | .putStaging key bytes =>
      storing (some bytes.length) (Function.update s.objects key (some bytes)) s
  | .putNoteObject note => storing () (withNoteObject sha256 note s.objects) s
  | .putImmutableManifest key bytes =>
      match s.objects key with
      | none => storing () (Function.update s.objects key (some bytes)) s
      | some object =>
          if objectMatches sha256 object bytes.length (sha256 bytes) then .ok ((), s)
          else .error (.coded .materializationUnavailable)
  | .deleteObject key => storing () (Function.update s.objects key none) s
  | .setVaultStatus vaultId status => onDb
      (fun db => .ok ((), { db with vaults := withVaultStatus vaultId status db.vaults }))
      (fun _ _ => ()) s
  | .recordSyncState row => onDb
      (fun db => .ok ((), { db with syncStates := withSyncState row db.syncStates }))
      (fun _ _ => ()) s

/-- A request, under what becomes of it. -/
def exec (sha256 : List UInt8 → String) (op : MaterializationOp) (w : Batch.Outcome)
    (s : MaterializationState) : Except JobError op.Ret × MaterializationState :=
  Batch.send JobError.other w (fun s => effect sha256 s op) s

theorem onDb_ok {ρ α : Type} (q : MaterializationDb → Except D1Error (ρ × MaterializationDb))
    (answer : ρ → MaterializationDb → α) (s t : MaterializationState) (a : α)
    (h : onDb q answer s = .ok (a, t)) :
    ∃ r db, q s.db = .ok (r, db) ∧ a = answer r db ∧ t = { s with db := db } := by
  unfold onDb at h
  split at h
  · cases h
  · next r db hq =>
    rw [Batch.ok_inj] at h
    exact ⟨r, db, hq, h.1.symm, h.2.symm⟩

/-! ## Reading jobs -/

/-- A published generation as callers see it. -/
structure MaterializationGeneration where
  generationId : String
  vaultId : String
  sourceStateVectorSha256 : String
  noteCount : Nat
  totalBytes : Nat
  createdAt : Nat
  completedAt : Nat

/-- A job as callers see it. -/
structure MaterializationJob where
  failureCode : Option FailureCode
  generation : Option MaterializationGeneration
  jobId : String
  processedNoteCount : Nat
  status : JobStatus
  totalNoteCount : Nat
  vaultId : String

/-- The generation of a row, once it is complete. -/
def GenerationRow.toGeneration (g : GenerationRow) : Option MaterializationGeneration :=
  g.completedAt.map (fun completedAt =>
    { generationId := g.id
      vaultId := g.vaultId
      sourceStateVectorSha256 := g.sourceStateVectorSha256
      noteCount := g.noteCount
      totalBytes := g.totalBytes
      createdAt := g.createdAt
      completedAt := completedAt })

/-- The generation of a job's row, once the job is completed. It carries the
    identity and source of the job. -/
def generationFromJobRow (row : JobRow) : Option MaterializationGeneration :=
  if row.job.status = .completed then
    row.generation.completedAt.map (fun completedAt =>
      { generationId := row.job.generationId
        vaultId := row.job.vaultId
        sourceStateVectorSha256 := row.job.sourceStateVectorSha256
        noteCount := row.generation.noteCount
        totalBytes := row.generation.totalBytes
        createdAt := row.generation.createdAt
        completedAt := completedAt })
  else none

def jobFromRow (row : JobRow) : MaterializationJob :=
  { failureCode := row.job.failureCode
    generation := generationFromJobRow row
    jobId := row.job.id
    processedNoteCount := row.job.processedNoteCount
    status := row.job.status
    totalNoteCount := row.job.totalNoteCount
    vaultId := row.job.vaultId }

/-- The job of an identifier. A published generation stands for the job it came
    from. -/
def readMaterializationJob (vaultId jobId : String) : JobProcess (Option MaterializationJob) := do
  let row ← ask (.readJobRow jobId)
  match row with
  | some row => pure (if row.job.vaultId = vaultId then some (jobFromRow row) else none)
  | none => do
      let generation ← ask (.readPublished vaultId jobId)
      pure (generation.map (fun g =>
        { failureCode := none
          generation := g.toGeneration
          jobId := g.id
          processedNoteCount := g.noteCount
          status := .completed
          totalNoteCount := g.noteCount
          vaultId := g.vaultId }))

/-! ## Working on a job -/

def jobNoteBatchSize : Nat := 16

def maxJobAttempts : Nat := 6

def objectWriteConcurrency : Nat := 6

/-- One note and where the next one begins. -/
structure StagedNote where
  note : MaterializedSnapshotNote
  nextOffset : Nat

/-- Go on with a value, or throw the code it failed with. -/
def orCode {α : Type} (r : Except MaterializationErrorCode α) : JobProcess α :=
  Process.ofExcept (r.mapError .coded)

def readStagedNote (u : UnicodeTables) (job : JobRow) (offset : Nat) : JobProcess StagedNote :=
  if job.job.stagingObjectBytes < offset + framePrefixBytes then
    throw (.coded .snapshotInvalid)
  else do
    let range ← ask (.getRange job.job.stagingObjectKey offset framePrefixBytes)
    let bytes ← orCode (readExactRange framePrefixBytes range)
    let lengths ← orCode (readPrefix job.job.stagingObjectBytes offset bytes)
    let frameBytes := lengths.metadataLength + lengths.contentLength
    let range ← ask
      (.getRange job.job.stagingObjectKey (offset + framePrefixBytes) frameBytes)
    let bytes ← orCode (readExactRange frameBytes range)
    let note ← orCode (readFrame u lengths bytes)
    pure { note := note, nextOffset := offset + framePrefixBytes + frameBytes }

/-- The next `count` notes, and where the one after them begins. -/
def readStagedNotes (u : UnicodeTables) (job : JobRow) :
    Nat → Nat → JobProcess (List MaterializedSnapshotNote × Nat)
  | 0, offset => pure ([], offset)
  | count + 1, offset => do
      let staged ← readStagedNote u job offset
      let rest ← readStagedNotes u job count staged.nextOffset
      pure (staged.note :: rest.1, rest.2)

/-- Add a note, in place of one with its content. -/
def addUnique (unique : List PreparedNote) (note : PreparedNote) : List PreparedNote :=
  if unique.any (fun n => n.contentSha256 = note.contentSha256) then
    unique.map (fun n => if n.contentSha256 = note.contentSha256 then note else n)
  else unique ++ [note]

/-- The notes to write, one for each content: where several have it, the last of
    them in place of the first. -/
def uniqueByContent (notes : List PreparedNote) : List PreparedNote :=
  notes.foldl addUnique []

/-- Write the objects of notes in groups, `room` more of them in the present
    one. All of a group are tried; the next begins where none of it failed. -/
def writeObjects : List PreparedNote → Nat → Bool → JobProcess Unit
  | [], _, failed => if failed then throw (.coded .materializationUnavailable) else pure ()
  | note :: rest, room, failed =>
      if room = 0 ∧ failed then throw (.coded .materializationUnavailable)
      else do
        let stored ← Process.tryCatch
          (do
            ask (.putNoteObject note)
            pure true)
          (fun _ => pure false)
        writeObjects rest (if room = 0 then objectWriteConcurrency - 1 else room - 1)
          ((room ≠ 0 && failed) || !stored)

def writeNoteObjects (notes : List PreparedNote) : JobProcess Unit :=
  writeObjects (uniqueByContent notes) objectWriteConcurrency false

/-- The manifest of a generation. -/
def manifestOf (job : JobRow) (notes : List NoteRow) : Json :=
  .obj [
    ("format", .str "owd-materialization-v1"),
    ("generationId", .str job.job.generationId),
    ("noteCount", .num (Decimal.ofNat notes.length)),
    ("notes", .arr (notes.map (fun note =>
      .obj [
        ("byteLength", .num (Decimal.ofNat note.byteLength)),
        ("contentSha256", .str note.contentSha256),
        ("modifiedAt", match note.modifiedAt with
          | none => .null
          | some n => .num n),
        ("path", .str note.path)]))),
    ("schemaVersion", .num (Decimal.ofNat job.job.schemaVersion)),
    ("sourceStateVectorSha256", .str job.job.sourceStateVectorSha256),
    ("totalBytes", .num (Decimal.ofNat job.generation.totalBytes)),
    ("vaultId", .str job.job.vaultId)]

/-- Whether a batch returned the identifier as the first row of a statement. -/
def returned (results : List (List String)) (statement : Nat) (id : String) : Bool :=
  (results[statement]?.bind List.head?) = some id

/-- Where the batch did not publish the generation and complete the job, the job
    has to be completed already. -/
def confirmPublished (job : JobRow) (published : List (List String)) : JobProcess Unit :=
  if returned published 0 job.job.generationId ∧ returned published 2 job.job.id then pure ()
  else do
    let current ← ask (.readJobRow job.job.id)
    if current.map (fun row => row.job.status) = some .completed then pure ()
    else throw (.coded .materializationUnavailable)

/-- Delete the staged object, or queue it for deletion. -/
def deleteStaged (job : JobRow) (now : Nat) : JobProcess Unit :=
  Process.tryCatch (ask (.deleteObject job.job.stagingObjectKey))
    (fun _ => ask (.queueObject job.job.stagingObjectKey now))

def finalizeJob (sha256 : List UInt8 → String) (job : JobRow) (now : Nat) : JobProcess Unit := do
  let notes ← ask (.readNotes job.job.generationId job.job.vaultId)
  if notes.length ≠ job.job.totalNoteCount ∨
      (notes.map NoteRow.byteLength).sum ≠ job.generation.totalBytes then
    throw (.coded .materializationUnavailable)
  else do
    let manifest := Utf8.encode (Json.stringify (manifestOf job notes))
    ask (.putImmutableManifest job.generation.manifestKey manifest)
    let published ← ask (.publish job (sha256 manifest) now)
    confirmPublished job published
    deleteStaged job now

/-- The job after a number of its notes. -/
def JobRow.advance (job : JobRow) (nextOffset processed : Nat) : JobRow :=
  { job with
    job := { job.job with nextOffset := nextOffset, processedNoteCount := processed } }

/-- Project the next notes of a job. -/
def projectNext (u : UnicodeTables) (sha256 : List UInt8 → String) (vaultId : String) (now : Nat)
    (job : JobRow) : JobProcess JobRow := do
  let remaining := job.job.totalNoteCount - job.job.processedNoteCount
  let read ← readStagedNotes u job (min jobNoteBatchSize remaining) job.job.nextOffset
  if read.1 = [] then pure job
  else do
    let prepared := prepareNotes sha256 vaultId read.1
    writeNoteObjects prepared
    let processed := job.job.processedNoteCount + read.1.length
    ask (.projectNotes job vaultId prepared read.2 processed now)
    pure (job.advance read.2 processed)

/-- Publish a job's generation once its notes are all there. -/
def finalizeWhenDone (sha256 : List UInt8 → String) (now : Nat) (job : JobRow) :
    JobProcess Unit :=
  if job.job.processedNoteCount = job.job.totalNoteCount then
    if job.job.nextOffset ≠ job.job.stagingObjectBytes then throw (.coded .snapshotInvalid)
    else finalizeJob sha256 job now
  else pure ()

/-- Count the attempt that failed, and fail the job where it was the last or
    where the error is there to stay. -/
def recoverJob (job : JobRow) (now : Nat) (error : JobError) : JobProcess Unit := do
  let attempt ← ask (.countAttempt job.job.id now)
  if error.code ≠ .materializationUnavailable ∨ maxJobAttempts ≤ attempt.getD maxJobAttempts then
    ask (.failJob job error.code now)
  else throw error

/-- Work on a job that was claimed, unless it fails. -/
def continueJob (u : UnicodeTables) (sha256 : List UInt8 → String) (vaultId : String) (now : Nat)
    (job : JobRow) : JobProcess Unit :=
  Process.tryCatch
    (do
      let job ← projectNext u sha256 vaultId now job
      finalizeWhenDone sha256 now job)
    (recoverJob job now)

/-- One call of a vault's queue, and whether there is more to do. -/
def continueNextMaterializationJob (u : UnicodeTables) (sha256 : List UInt8 → String)
    (vaultId : String) (now : Nat) : JobProcess Bool := do
  let claimed ← ask (.claimJob vaultId now)
  match claimed with
  | none => pure false
  | some jobId => do
      let row ← ask (.readJobRow jobId)
      match row with
      | none => ask (.hasActiveJobs vaultId)
      | some job => do
          continueJob u sha256 vaultId now job
          ask (.hasActiveJobs vaultId)

/-! ## Creating a job -/

/-- The current generation of a source, as the job it came from. -/
def currentGenerationForSource (vaultId sourceStateVectorSha256 : String) :
    JobProcess (Option MaterializationJob) := do
  let row ← ask (.readCurrentForSource vaultId sourceStateVectorSha256)
  match row with
  | none => pure none
  | some id => readMaterializationJob vaultId id

/-- The job that is building a generation of a source. -/
def activeJobForSource (vaultId sourceStateVectorSha256 : String) :
    JobProcess (Option MaterializationJob) := do
  let row ← ask (.readActiveForSource vaultId sourceStateVectorSha256)
  match row with
  | none => pure none
  | some id => readMaterializationJob vaultId id

/-- Add the rows of a job, all of them. -/
def insertCreated (input : CreateInput) : JobProcess Unit := do
  let results ← ask (.createJob input)
  if returned results 3 input.generationId ∧ returned results 4 input.jobId then pure ()
  else throw (.coded .materializationUnavailable)

/-- Take back what was staged and throw. -/
def discardStaged (input : CreateInput) (error : JobError) : JobProcess Unit := do
  Process.tryCatch (ask (.deleteObject input.stagingObjectKey)) (fun _ => pure ())
  throw (.coded error.code)

/-- Stage a snapshot and queue its job. -/
def stageJob (input : CreateInput) : JobProcess MaterializationJob := do
  let staged := stagedSnapshot input.snapshot
  let stored ← ask (.putStaging input.stagingObjectKey staged)
  if stored ≠ some staged.length then throw (.coded .materializationUnavailable)
  else do
    Process.tryCatch (insertCreated input) (discardStaged input)
    let created ← readMaterializationJob input.vaultId input.jobId
    match created with
    | none => throw (.coded .materializationUnavailable)
    | some job => pure job

def createMaterializationJob (input : CreateInput) : JobProcess MaterializationJob := do
  let current ← currentGenerationForSource input.vaultId input.sourceStateVectorSha256
  match current with
  | some job => pure job
  | none => do
      let active ← activeJobForSource input.vaultId input.sourceStateVectorSha256
      match active with
      | some job => pure job
      | none => stageJob input

/-! ## Calls -/

/-- What may be going on at once. -/
inductive MaterializationCall
  | continueNext (vaultId : String) (now : Nat)
  | create (input : CreateInput)
  | setVaultStatus (vaultId : String) (status : VaultStatus)
  | recordSyncState (row : SyncStateRow)

def MaterializationCall.process (u : UnicodeTables) (sha256 : List UInt8 → String) :
    MaterializationCall → JobProcess Unit
  | .continueNext vaultId now => do
      let _ ← continueNextMaterializationJob u sha256 vaultId now
      pure ()
  | .create input => do
      let _ ← createMaterializationJob input
      pure ()
  | .setVaultStatus vaultId status => ask (.setVaultStatus vaultId status)
  | .recordSyncState row => ask (.recordSyncState row)

/-- The calls over one state. -/
abbrev MaterializationPool (ι : Type) : Type :=
  Pool ι MaterializationOp (fun op => Except JobError op.Ret) MaterializationState JobError Unit

end Mdevolved.Materialization
