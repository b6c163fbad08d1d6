import Mdevolved.Materialization.Publication

/-!
# Projecting a Snapshot

A job works its way through the object a snapshot was staged in, sixteen notes
at a time, with a cursor in its row. Any call may fail between two requests, and
several calls may work on one job at once, so a batch of notes may be projected
again, and the cursor may be set back to an earlier one. What stays true is that
the cursor is always at the offset of a frame, that every row of the generation
is the row of one of the snapshot's notes, and that a row once there is not
changed by projecting its note again. The count that publishing checks then
makes the rows all of them.

Each request has a lemma that says what it keeps of this, and `exec_building`
is all of them together. What a call does between its requests is not looked at
here: only what it may ask for, in `BuildingAllowed`.

## Main definitions

* `expectedRows`: The rows of a snapshot's notes.
* `Created`: A job just created, with its snapshot staged.
* `Building`: What every request of its calls keeps.
* `Progress`: What others do to a job in the meantime.
* `BuildingAllowed`: What calls may ask for.

## Theorems

* `projected_rows`: Projecting a note again leaves every row as it is.
* `building_step`: What a request keeps, from what it does to each table.
* `exec_building`: Every request keeps it.
-/

namespace Mdevolved.Materialization

open Mdevolved.Vault Batch

/-- Strings with different endings differ. -/
theorem append_ne (a b x y : String) (hxy : ¬ x.toList <:+ y.toList)
    (hyx : ¬ y.toList <:+ x.toList) : a ++ x ≠ b ++ y := by
  intro heq
  have hlist : a.toList ++ x.toList = b.toList ++ y.toList := by
    rw [← String.toList_append, heq, String.toList_append]
  have hx : x.toList <:+ a.toList ++ x.toList := List.suffix_append _ _
  have hy : y.toList <:+ a.toList ++ x.toList := hlist ▸ List.suffix_append _ _
  rcases List.suffix_or_suffix_of_suffix hx hy with hsuffix | hsuffix
  · exact hxy hsuffix
  · exact hyx hsuffix

section Projection

variable (sha256 : List UInt8 → String) (input : CreateInput)

/-- The row of a note of the snapshot. -/
def expectedRow (note : MaterializedSnapshotNote) : NoteRow :=
  noteRow input.generationId input.vaultId (prepareNote sha256 input.vaultId note)

/-- The rows of all of its notes. -/
def expectedRows : List NoteRow :=
  input.snapshot.notes.map (expectedRow sha256 input)

/-- The job as it is created. -/
def createdJob : MaterializationJobRow :=
  { id := input.jobId
    generationId := input.generationId
    vaultId := input.vaultId
    sourceStateVectorSha256 := input.sourceStateVectorSha256
    status := .queued
    stagingObjectKey := input.stagingObjectKey
    stagingObjectBytes := (stagedSnapshot input.snapshot).length
    nextOffset := 0
    processedNoteCount := 0
    totalNoteCount := input.snapshot.notes.length
    schemaVersion := input.snapshot.schemaVersion
    requestId := input.requestId
    attemptCount := 0
    createdAt := input.now
    updatedAt := input.now
    completedAt := none
    failureCode := none }

/-- The generation as it is created. -/
def createdGeneration : GenerationRow :=
  { id := input.generationId
    vaultId := input.vaultId
    sourceStateVectorSha256 := input.sourceStateVectorSha256
    status := .staging
    noteCount := input.snapshot.notes.length
    totalBytes := input.snapshot.totalBytes
    manifestKey := input.manifestKey
    manifestSha256 := none
    createdAt := input.now
    completedAt := none
    failureCode := none }

/-- Every row of the snapshot is there. -/
def Full (db : MaterializationDb) : Prop :=
  ∀ r ∈ expectedRows sha256 input, r ∈ db.notes

/-- The job is neither waiting nor being worked on. -/
def Inactive (db : MaterializationDb) : Prop :=
  ∀ j ∈ db.jobs, j.id = input.jobId → j.status.isActive = false

/-- What a job's row says of its progress: the cursor is at a frame, or the job
    is completed and all notes are there. As long as there is work to do, the
    staged object is there. -/
structure JobFine (s : MaterializationState) (j : MaterializationJobRow) : Prop where
  cursor : (∃ k ≤ input.snapshot.notes.length,
      j.nextOffset = offsetOf input.snapshot.notes k ∧ j.processedNoteCount = k) ∨
    (j.status = .completed ∧ j.processedNoteCount = input.snapshot.notes.length)
  present : j.status.isActive = true →
    s.objects input.stagingObjectKey = some (stagedSnapshot input.snapshot)
  full : j.status = .completed → Full sha256 input s.db
  sound : j.failureCode ≠ some (.code .snapshotInvalid)

/-- A job that was just created over tables whose keys are distinct, with its
    snapshot staged and none of its notes projected. -/
structure Created (s : MaterializationState) : Prop where
  consistent : Consistent s.db
  stagingKeys : (s.db.jobs.map MaterializationJobRow.stagingObjectKey).Nodup
  noteKeys : (s.db.notes.map NoteRow.key).Nodup
  manifestKeys : ∀ g ∈ s.db.generations, g.manifestKey ≠ input.stagingObjectKey
  job : createdJob input ∈ s.db.jobs
  generation : createdGeneration input ∈ s.db.generations
  rows : ∀ r ∈ s.db.notes, r.generationId ≠ input.generationId
  object : s.objects input.stagingObjectKey = some (stagedSnapshot input.snapshot)

/-- What requests keep of a job that was created in `s₁`. -/
structure Building (s₁ s : MaterializationState) : Prop where
  consistent : Consistent s.db
  jobs : s.db.jobs.map MaterializationJobRow.identity =
    s₁.db.jobs.map MaterializationJobRow.identity
  generations : s.db.generations.map GenerationRow.identity =
    s₁.db.generations.map GenerationRow.identity
  noteKeys : (s.db.notes.map NoteRow.key).Nodup
  rows : ∀ r ∈ s.db.notes, r.generationId = input.generationId → r ∈ expectedRows sha256 input
  fine : ∀ j ∈ s.db.jobs, j.id = input.jobId → JobFine sha256 input s j
  object : s.objects input.stagingObjectKey = none ∨
    s.objects input.stagingObjectKey = some (stagedSnapshot input.snapshot)

/-- What others do to the job: it is not taken up again once it is done, and its
    rows stay. -/
structure Progress (s t : MaterializationState) : Prop where
  persist : Persist s.db t.db
  inactive : Inactive input s.db → Inactive input t.db
  rows : ∀ r ∈ s.db.notes, r.generationId = input.generationId → r ∈ t.db.notes

/-- What a call may ask for, as far as the job is concerned. -/
def BuildingAllowed (op : MaterializationOp) (s : MaterializationState) : Prop :=
  Allowed op s ∧
    match op with
    | .createJob _ | .putStaging _ _ => False
    | .putNoteObject note => note.r2Key ≠ input.stagingObjectKey
    | .putImmutableManifest key _ => key ≠ input.stagingObjectKey
    | .deleteObject key => key = input.stagingObjectKey → Inactive input s.db
    | .projectNotes job _ notes nextOffset processed _ => job.job.id = input.jobId →
        (∀ p ∈ notes, noteRow input.generationId input.vaultId p ∈ expectedRows sha256 input) ∧
          processed ≤ input.snapshot.notes.length ∧
          nextOffset = offsetOf input.snapshot.notes processed
    | .publish job _ _ => job.job.id = input.jobId → Full sha256 input s.db
    | .failJob job code _ => job.job.id = input.jobId → code ≠ .materializationUnavailable →
        Inactive input s.db
    | _ => True

theorem Progress.refl (s : MaterializationState) (h : Consistent s.db) : Progress input s s :=
  { persist := Persist.refl s.db h
    inactive := fun h => h
    rows := fun _ hr _ => hr }

theorem Progress.trans {input : CreateInput} {s t v : MaterializationState}
    (h : Progress input s t) (h' : Progress input t v) : Progress input s v :=
  { persist := h.persist.trans h'.persist
    inactive := fun hs => h'.inactive (h.inactive hs)
    rows := fun r hr hg => h'.rows r (h.rows r hr hg) hg }

/-! ## Rows -/

theorem expectedRow_generation (r : NoteRow) (h : r ∈ expectedRows sha256 input) :
    r.generationId = input.generationId ∧ r.vaultId = input.vaultId := by
  rcases List.mem_map.mp h with ⟨note, -, rfl⟩
  exact ⟨rfl, rfl⟩

/-- Rows of different notes have different keys. -/
theorem expectedRows_keys (h : input.snapshot.notes.Pairwise (fun m n => m.pathKey ≠ n.pathKey)) :
    ((expectedRows sha256 input).map NoteRow.key).Nodup := by
  rw [expectedRows, List.map_map, List.Nodup, List.pairwise_map]
  refine h.imp (fun hne heq => hne ?_)
  exact congrArg Prod.snd heq

/-- Projecting a note of the snapshot again leaves every row as it is. -/
theorem upsert_expected (h : input.snapshot.notes.Pairwise (fun m n => m.pathKey ≠ n.pathKey))
    (row r : NoteRow) (hrow : row ∈ expectedRows sha256 input)
    (hr : r.generationId = input.generationId → r ∈ expectedRows sha256 input)
    (hk : r.key = row.key) : r = row := by
  have hgeneration : r.generationId = input.generationId :=
    (congrArg Prod.fst hk).trans (expectedRow_generation sha256 input row hrow).1
  exact List.inj_on_of_nodup_map (expectedRows_keys sha256 input h) (hr hgeneration) hrow hk

/-- The rows of notes after projecting some: those of the generation are rows of
    the snapshot and stay, if those projected are. -/
theorem projected_rows (h : input.snapshot.notes.Pairwise (fun m n => m.pathKey ≠ n.pathKey))
    (generationId vaultId : String) (notes : List PreparedNote) (rows : List NoteRow)
    (hnotes : generationId = input.generationId →
      ∀ p ∈ notes, noteRow generationId vaultId p ∈ expectedRows sha256 input)
    (hkeys : (rows.map NoteRow.key).Nodup)
    (hrows : ∀ r ∈ rows, r.generationId = input.generationId → r ∈ expectedRows sha256 input) :
    ((notes.foldl (fun rows p => upsertRow rows (noteRow generationId vaultId p)) rows).map
        NoteRow.key).Nodup ∧
      (∀ r ∈ notes.foldl (fun rows p => upsertRow rows (noteRow generationId vaultId p)) rows,
        r.generationId = input.generationId → r ∈ expectedRows sha256 input) ∧
      (∀ r ∈ rows, r.generationId = input.generationId →
        r ∈ notes.foldl (fun rows p => upsertRow rows (noteRow generationId vaultId p)) rows) := by
  induction notes generalizing rows with
  | nil => exact ⟨hkeys, hrows, fun r hr _ => hr⟩
  | cons note notes ih =>
      have hhead : generationId = input.generationId →
          noteRow generationId vaultId note ∈ expectedRows sha256 input :=
        fun hg => hnotes hg note List.mem_cons_self
      have hkeys' := Table.upsert_nodup NoteRow.key NoteRow.refresh rows
        (noteRow generationId vaultId note) (fun _ _ => rfl) hkeys
      have hrows' : ∀ r ∈ upsertRow rows (noteRow generationId vaultId note),
          r.generationId = input.generationId → r ∈ expectedRows sha256 input := by
        refine Table.upsert_forall NoteRow.key NoteRow.refresh rows _ _ hrows hhead ?_
        intro r hr hk hg
        have hgeneration : generationId = input.generationId :=
          (congrArg Prod.fst hk).symm.trans hg
        have hsame := upsert_expected sha256 input h _ r (hhead hgeneration) (hrows r hr) hk
        rw [hsame]
        exact hhead hgeneration
      have hstay : ∀ r ∈ rows, r.generationId = input.generationId →
          r ∈ upsertRow rows (noteRow generationId vaultId note) := by
        intro r hr hg
        refine Table.mem_upsert NoteRow.key NoteRow.refresh rows _ r hr (fun hk => ?_)
        have hgeneration : generationId = input.generationId :=
          (congrArg Prod.fst hk).symm.trans hg
        have hsame := upsert_expected sha256 input h _ r (hhead hgeneration) (hrows r hr) hk
        rw [hsame]
        rfl
      have hrest := ih (upsertRow rows (noteRow generationId vaultId note))
        (fun hg p hp => hnotes hg p (List.mem_cons_of_mem _ hp)) hkeys' hrows'
      exact ⟨hrest.1, hrest.2.1, fun r hr hg => hrest.2.2 r (hstay r hr hg) hg⟩

/-! ## Requests -/

/-- The row of the job, in any state its requests lead to. -/
theorem building_job (s₁ s : MaterializationState) (hc : Created input s₁)
    (hb : Building sha256 input s₁ s) (j : MaterializationJobRow) (hj : j ∈ s.db.jobs) :
    ∃ j₁ ∈ s₁.db.jobs, j₁.identity = j.identity ∧
      (j.id = input.jobId ↔ j₁ = createdJob input) := by
  have hmem : j.identity ∈ s₁.db.jobs.map MaterializationJobRow.identity := by
    rw [← hb.jobs]
    exact List.mem_map_of_mem hj
  rcases List.mem_map.mp hmem with ⟨j₁, hj₁, heq⟩
  have hid : j₁.id = j.id := sameJob MaterializationJobRow.id (fun _ => rfl) heq
  refine ⟨j₁, hj₁, heq, ?_, ?_⟩
  · intro hj
    exact List.inj_on_of_nodup_map hc.consistent.jobIds hj₁ hc.job (hid.trans hj)
  · rintro rfl
    exact hid.symm

/-- What a job's row has in common with the job as it was created. -/
theorem building_identity (s₁ s : MaterializationState) (hc : Created input s₁)
    (hb : Building sha256 input s₁ s) (j : MaterializationJobRow) (hj : j ∈ s.db.jobs)
    (hid : j.id = input.jobId) : j.identity = (createdJob input).identity := by
  rcases building_job sha256 input s₁ s hc hb j hj with ⟨j₁, -, heq, hiff⟩
  rw [← heq, hiff.mp hid]

/-- A job of the same generation or the same staged object is the job itself. -/
theorem building_unique (s₁ s : MaterializationState) (hc : Created input s₁)
    (hb : Building sha256 input s₁ s) (j : MaterializationJobRow) (hj : j ∈ s.db.jobs)
    (h : j.generationId = input.generationId ∨ j.stagingObjectKey = input.stagingObjectKey) :
    j.id = input.jobId := by
  rcases building_job sha256 input s₁ s hc hb j hj with ⟨j₁, hj₁, heq, hiff⟩
  refine hiff.mpr ?_
  rcases h with hgeneration | hstaging
  · have hsame : j₁.generationId = j.generationId :=
      sameJob MaterializationJobRow.generationId (fun _ => rfl) heq
    exact List.inj_on_of_nodup_map hc.consistent.jobGenerations hj₁ hc.job
      (hsame.trans hgeneration)
  · have hsame : j₁.stagingObjectKey = j.stagingObjectKey :=
      sameJob MaterializationJobRow.stagingObjectKey (fun _ => rfl) heq
    exact List.inj_on_of_nodup_map hc.stagingKeys hj₁ hc.job (hsame.trans hstaging)

section

variable (s₁ s t : MaterializationState)

/-- What a request keeps, from what it does to each table. A row of the job it
    changes was active and is as it should be afterwards, and the staged object
    is there until the job is done. -/
theorem building_step (hb : Building sha256 input s₁ s)
    (hp : Persist s.db t.db)
    (hjobs : t.db.jobs.map MaterializationJobRow.identity =
      s.db.jobs.map MaterializationJobRow.identity)
    (hgenerations : t.db.generations.map GenerationRow.identity =
      s.db.generations.map GenerationRow.identity)
    (hkeys : (t.db.notes.map NoteRow.key).Nodup)
    (hrows : ∀ r ∈ t.db.notes, r.generationId = input.generationId → r ∈ expectedRows sha256 input)
    (hkept : ∀ r ∈ s.db.notes, r.generationId = input.generationId → r ∈ t.db.notes)
    (hobject : t.objects input.stagingObjectKey = s.objects input.stagingObjectKey ∨
      (t.objects input.stagingObjectKey = none ∧ Inactive input s.db))
    (hfine : ∀ j' ∈ t.db.jobs, j'.id = input.jobId → j' ∈ s.db.jobs ∨
      ∃ j ∈ s.db.jobs, j.id = input.jobId ∧ j.status.isActive = true ∧
        JobFine sha256 input t j') :
    Building sha256 input s₁ t ∧ Progress input s t := by
  have hfull : Full sha256 input s.db → Full sha256 input t.db := fun hfull r hr =>
    hkept r (hfull r hr) (expectedRow_generation sha256 input r hr).1
  refine ⟨?_, ?_⟩
  · exact {
      consistent := hp.consistent
      jobs := hjobs.trans hb.jobs
      generations := hgenerations.trans hb.generations
      noteKeys := hkeys
      rows := hrows
      fine := by
        intro j' hj' hid
        rcases hfine j' hj' hid with hold | ⟨j, -, -, -, hnew⟩
        · have hwas := hb.fine j' hold hid
          exact {
            cursor := hwas.cursor
            present := by
              intro hactive
              rcases hobject with hsame | ⟨-, hinactive⟩
              · exact hsame.trans (hwas.present hactive)
              · have hnot := hinactive j' hold hid
                rw [hactive] at hnot
                cases hnot
            full := fun hdone => hfull (hwas.full hdone)
            sound := hwas.sound }
        · exact hnew
      object := by
        rcases hobject with hsame | ⟨hgone, -⟩
        · rw [hsame]
          exact hb.object
        · exact Or.inl hgone }
  · exact {
      persist := hp
      inactive := by
        intro hinactive j' hj' hid
        rcases hfine j' hj' hid with hold | ⟨j, hj, hjid, hactive, -⟩
        · exact hinactive j' hold hid
        · have hnot := hinactive j hj hjid
          rw [hactive] at hnot
          cases hnot
      rows := hkept }

/-- A request that changes jobs alone, where those of them it changes are
    active. -/
theorem building_updateJobs (hb : Building sha256 input s₁ s)
    (hp : Persist s.db t.db) (p : MaterializationJobRow → Bool)
    (f : MaterializationJobRow → MaterializationJobRow)
    (hjobs : t.db.jobs = Table.update p f s.db.jobs) (hf : ∀ j, (f j).identity = j.identity)
    (hgenerations : t.db.generations.map GenerationRow.identity =
      s.db.generations.map GenerationRow.identity)
    (hnotes : t.db.notes = s.db.notes)
    (hobject : t.objects input.stagingObjectKey = s.objects input.stagingObjectKey)
    (hactive : ∀ j ∈ s.db.jobs, p j = true → j.status.isActive = true)
    (hfine : ∀ j ∈ s.db.jobs, p j = true → j.id = input.jobId → JobFine sha256 input s j →
      JobFine sha256 input t (f j)) :
    Building sha256 input s₁ t ∧ Progress input s t := by
  refine building_step sha256 input s₁ s t hb hp ?_ hgenerations ?_ ?_ ?_ (Or.inl hobject) ?_
  · rw [hjobs, Table.map_update _ p f hf]
  · rw [hnotes]
    exact hb.noteKeys
  · rw [hnotes]
    exact hb.rows
  · rw [hnotes]
    exact fun r hr _ => hr
  · intro j' hj' hid
    rw [hjobs] at hj'
    rcases Table.mem_update p f s.db.jobs j' hj' with ⟨j, hj, ⟨hpj, rfl⟩ | ⟨-, rfl⟩⟩
    · have hjid : j.id = input.jobId :=
        (sameJob MaterializationJobRow.id (fun _ => rfl) (hf j)).symm.trans hid
      exact Or.inr ⟨j, hj, hjid, hactive j hj hpj, hfine j hj hpj hjid (hb.fine j hj hjid)⟩
    · exact Or.inl hj

/-- A request that changes neither jobs, nor generations, nor notes, nor the
    staged object of a job there is work to do for. -/
theorem building_same (hb : Building sha256 input s₁ s)
    (hp : Persist s.db t.db) (hjobs : t.db.jobs = s.db.jobs)
    (hgenerations : t.db.generations = s.db.generations) (hnotes : t.db.notes = s.db.notes)
    (hobject : t.objects input.stagingObjectKey = s.objects input.stagingObjectKey ∨
      (t.objects input.stagingObjectKey = none ∧ Inactive input s.db)) :
    Building sha256 input s₁ t ∧ Progress input s t := by
  refine building_step sha256 input s₁ s t hb hp (by rw [hjobs]) (by rw [hgenerations]) ?_ ?_ ?_
    hobject ?_
  · rw [hnotes]
    exact hb.noteKeys
  · rw [hnotes]
    exact hb.rows
  · rw [hnotes]
    exact fun r hr _ => hr
  · rw [hjobs]
    exact fun j hj _ => Or.inl hj

/-- What failing a job does to the tables that matter here. -/
theorem failBatch_ok (job : JobRow) (code : FailureCode) (now : Nat) (db db' : MaterializationDb)
    (rs : List (List String)) (h : Batch.run (failBatch job code now) db = .ok (rs, db')) :
    db'.jobs = Table.update (fun j => j.id = job.job.id && j.status.isActive)
        (fun j =>
          { j with
            status := .failed, failureCode := some code, completedAt := some now
            updatedAt := now }) db.jobs ∧
      db'.generations.map GenerationRow.identity = db.generations.map GenerationRow.identity ∧
      db'.notes = db.notes := by
  rcases Batch.run_cons_ok.mp h with ⟨r₁, rs₁, d₁, hfirst, hrest₁, -⟩
  rcases Batch.run_cons_ok.mp hrest₁ with ⟨r₂, rs₂, d₂, hsecond, hrest₂, -⟩
  rw [failGenerations, Batch.ok_inj] at hfirst
  rcases updateJobs_ok _ _ d₁ d₂ r₂ hsecond with ⟨-, rfl⟩
  simp only [Batch.run, queueObjects, failSyncState, Batch.ok_inj] at hrest₂
  rw [← hrest₂.2, ← hfirst.2]
  refine ⟨rfl, ?_, rfl⟩
  refine Table.map_update GenerationRow.identity _ _ ?_ db.generations
  exact fun _ => rfl

/-- A job a call has read, in terms of the tables. -/
theorem known_job (job : JobRow) (db : MaterializationDb) (hk : Known job db) :
    ∃ j ∈ db.jobs, j.id = job.job.id ∧ j.generationId = job.job.generationId ∧
      j.stagingObjectKey = job.job.stagingObjectKey := by
  rcases hk.1 with ⟨j, hj, heq⟩
  exact ⟨j, hj, sameJob MaterializationJobRow.id (fun _ => rfl) heq,
    sameJob MaterializationJobRow.generationId (fun _ => rfl) heq,
    sameJob MaterializationJobRow.stagingObjectKey (fun _ => rfl) heq⟩

/-- The cursor of a job that is active. -/
theorem JobFine.cursor_active {s : MaterializationState} {j : MaterializationJobRow}
    {sha256 : List UInt8 → String} {input : CreateInput} (h : JobFine sha256 input s j)
    (hactive : j.status.isActive = true) : ∃ k ≤ input.snapshot.notes.length,
      j.nextOffset = offsetOf input.snapshot.notes k ∧ j.processedNoteCount = k := by
  rcases h.cursor with hcursor | ⟨hdone, -⟩
  · exact hcursor
  · rw [hdone] at hactive
    cases hactive

/-- A job that is still active, with the cursor where it may be. -/
theorem jobFine_active (s : MaterializationState) (j : MaterializationJobRow)
    (hactive : j.status.isActive = true)
    (hcursor : ∃ k ≤ input.snapshot.notes.length,
      j.nextOffset = offsetOf input.snapshot.notes k ∧ j.processedNoteCount = k)
    (hpresent : s.objects input.stagingObjectKey = some (stagedSnapshot input.snapshot))
    (hsound : j.failureCode ≠ some (.code .snapshotInvalid)) : JobFine sha256 input s j :=
  { cursor := Or.inl hcursor
    present := fun _ => hpresent
    full := by
      intro hdone
      rw [hdone] at hactive
      cases hactive
    sound := hsound }

theorem isActive_of_running {status : JobStatus} (h : status = .running) :
    status.isActive = true := by
  rw [h]
  rfl

/-- Claiming a job keeps what is built. -/
theorem claimJob_building (hb : Building sha256 input s₁ s)
    (vaultId : String) (now : Nat) (r : Option String)
    (heffect : effect sha256 s (.claimJob vaultId now) = .ok (r, t)) :
    Building sha256 input s₁ t ∧ Progress input s t := by
  have hp := (effect_routine sha256 (.claimJob vaultId now) (fun _ _ _ => by simp) s t r
    hb.consistent trivial heffect).toPersist
  rcases onDb_ok _ _ s t r heffect with ⟨ids, db, hclaim, -, rfl⟩
  rcases claimStatement_ok vaultId now s.db db ids hclaim with
    ⟨-, rfl⟩ | ⟨job, hjob, -, hactive, hupdate⟩
  · exact ⟨hb, Progress.refl input s hb.consistent⟩
  · rcases updateJobs_ok _ _ s.db db ids hupdate with ⟨-, rfl⟩
    -- Identifiers are distinct, so the row changed is the one that was active.
    have hone : ∀ j ∈ s.db.jobs, decide (j.id = job.id) = true → j = job := fun j hj hid =>
      List.inj_on_of_nodup_map hb.consistent.jobIds hj hjob (of_decide_eq_true hid)
    refine building_updateJobs sha256 input s₁ s _ hb hp _ _ rfl (fun _ => rfl) rfl rfl rfl ?_ ?_
    · intro j hj hpj
      rw [hone j hj hpj]
      exact hactive
    · intro j hj hpj _ hfine
      have hwas : j.status.isActive = true := by
        rw [hone j hj hpj]
        exact hactive
      exact jobFine_active sha256 input _ _ rfl (hfine.cursor_active hwas) (hfine.present hwas)
        hfine.sound

/-- So does counting an attempt. -/
theorem countAttempt_building (hb : Building sha256 input s₁ s)
    (jobId : String) (now : Nat) (r : Option Nat)
    (heffect : effect sha256 s (.countAttempt jobId now) = .ok (r, t)) :
    Building sha256 input s₁ t ∧ Progress input s t := by
  have hp := (effect_routine sha256 (.countAttempt jobId now) (fun _ _ _ => by simp) s t r
    hb.consistent trivial heffect).toPersist
  rcases onDb_ok _ _ s t r heffect with ⟨ids, db, hattempt, -, rfl⟩
  rcases updateJobs_ok _ _ s.db db ids hattempt with ⟨-, rfl⟩
  have hrunning : ∀ j : MaterializationJobRow,
      (decide (j.id = jobId) && decide (j.status = .running)) = true → j.status.isActive = true := by
    intro j hpj
    rw [Bool.and_eq_true] at hpj
    exact isActive_of_running (of_decide_eq_true hpj.2)
  refine building_updateJobs sha256 input s₁ s _ hb hp _ _ rfl (fun _ => rfl) rfl rfl rfl
    (fun j _ hpj => hrunning j hpj) ?_
  intro j _ hpj _ hfine
  exact jobFine_active sha256 input _ _ (hrunning j hpj) (hfine.cursor_active (hrunning j hpj))
    (hfine.present (hrunning j hpj)) hfine.sound

/-- Failing a job keeps it too, where a job there is work to do for fails for no
    other reason than that the services it needs were unavailable. -/
theorem failJob_building (hb : Building sha256 input s₁ s)
    (job : JobRow) (code : MaterializationErrorCode) (now : Nat) (r : Unit)
    (hallowed : BuildingAllowed sha256 input (.failJob job code now) s)
    (heffect : effect sha256 s (.failJob job code now) = .ok (r, t)) :
    Building sha256 input s₁ t ∧ Progress input s t := by
  have hp := (effect_routine sha256 (.failJob job code now) (fun _ _ _ => by simp) s t r
    hb.consistent hallowed.1 heffect).toPersist
  rcases onDb_ok _ _ s t r heffect with ⟨rs, db, hfail, -, rfl⟩
  rcases failBatch_ok job _ now s.db db rs hfail with ⟨hjobs, hgenerations, hnotes⟩
  refine building_updateJobs sha256 input s₁ s _ hb hp _ _ hjobs (fun _ => rfl) hgenerations
    hnotes rfl ?_ ?_
  · intro j _ hpj
    rw [Bool.and_eq_true] at hpj
    exact hpj.2
  · intro j hj hpj hid hfine
    rw [Bool.and_eq_true, decide_eq_true_eq] at hpj
    have hunavailable : code = .materializationUnavailable := by
      by_contra hcode
      have hinactive := hallowed.2 (hpj.1.symm.trans hid) hcode j hj hid
      rw [hpj.2] at hinactive
      cases hinactive
    exact {
      cursor := Or.inl (hfine.cursor_active hpj.2)
      present := fun hactive => nomatch hactive
      full := fun hdone => nomatch hdone
      sound := by
        rw [hunavailable]
        simp only [ne_eq, Option.some.injEq, FailureCode.code.injEq, reduceCtorEq,
          not_false_eq_true] }

/-- And so does projecting notes, if those of the job are notes of its
    snapshot. -/
theorem projectNotes_building (hc : Created input s₁)
    (hkeys : input.snapshot.notes.Pairwise (fun m n => m.pathKey ≠ n.pathKey))
    (hb : Building sha256 input s₁ s) (job : JobRow) (vaultId : String)
    (notes : List PreparedNote) (nextOffset processed now : Nat) (r : Unit)
    (hallowed : BuildingAllowed sha256 input
      (.projectNotes job vaultId notes nextOffset processed now) s)
    (heffect : effect sha256 s (.projectNotes job vaultId notes nextOffset processed now) =
      .ok (r, t)) : Building sha256 input s₁ t ∧ Progress input s t := by
  have hp := (effect_routine sha256 (.projectNotes job vaultId notes nextOffset processed now)
    (fun _ _ _ => by simp) s t r hb.consistent hallowed.1 heffect).toPersist
  rcases onDb_ok _ _ s t r heffect with ⟨rs, db, hrun, -, rfl⟩
  rcases Batch.run_append_ok hrun with ⟨d, rs₁, rs₂, hnotes, hprogress, -⟩
  rcases Batch.run_cons_ok.mp hprogress with ⟨ids, rs₃, d', hupdate, hend, -⟩
  rw [Batch.run_nil, Batch.ok_inj] at hend
  have hd := projectionStatements_ok _ _ _ s.db d rs₁ hnotes
  have hdb := (updateJobs_ok _ _ d d' ids hupdate).2
  rw [hend.2, hd] at hdb
  subst hdb
  rcases known_job job s.db hallowed.1.1 with ⟨j₀, hj₀, hid₀, hgeneration₀, -⟩
  have hown : job.job.generationId = input.generationId → job.job.id = input.jobId :=
    fun hg => hid₀.symm.trans (building_unique sha256 input s₁ s hc hb j₀ hj₀
      (Or.inl (hgeneration₀.trans hg)))
  have hvault : job.job.id = input.jobId → vaultId = input.vaultId := by
    intro hid
    have hsame := building_identity sha256 input s₁ s hc hb j₀ hj₀ (hid₀.trans hid)
    rcases hallowed.1 with ⟨⟨⟨k, hk, heq⟩, -⟩, rfl⟩
    have hkid : k.id = job.job.id := sameJob MaterializationJobRow.id (fun _ => rfl) heq
    have hk₀ : k = j₀ :=
      List.inj_on_of_nodup_map hb.consistent.jobIds hk hj₀ (hkid.trans hid₀.symm)
    rw [hk₀, hsame] at heq
    exact (sameJob MaterializationJobRow.vaultId (fun _ => rfl) heq).symm
  have hrows := projected_rows sha256 input hkeys job.job.generationId vaultId notes s.db.notes
    (fun hg p hpmem => by
      rw [hg, hvault (hown hg)]
      exact (hallowed.2 (hown hg)).1 p hpmem)
    hb.noteKeys hb.rows
  refine building_step sha256 input s₁ s _ hb hp ?_ rfl hrows.1 hrows.2.1 hrows.2.2 (Or.inl rfl) ?_
  · refine Table.map_update MaterializationJobRow.identity _ _ ?_ s.db.jobs
    exact fun _ => rfl
  · intro j' hj' hid
    rcases Table.mem_update _ _ s.db.jobs j' hj' with ⟨j, hj, ⟨hpj, rfl⟩ | ⟨-, rfl⟩⟩
    · rw [Bool.and_eq_true, decide_eq_true_eq, decide_eq_true_eq] at hpj
      have hfine := hb.fine j hj hid
      have hactive := isActive_of_running hpj.2
      have hplace := (hallowed.2 (hpj.1.symm.trans hid)).2
      exact Or.inr ⟨j, hj, hid, hactive, jobFine_active sha256 input _ _ hactive
        ⟨processed, hplace.1, hplace.2, rfl⟩ (hfine.present hactive) hfine.sound⟩
    · exact Or.inl hj

/-- And publishing, once every row of the snapshot is there. -/
theorem publish_building (s₁ s : MaterializationState) (hc : Created input s₁)
    (hb : Building sha256 input s₁ s) (job : JobRow) (manifestSha256 : String) (now : Nat)
    (w : Outcome) (hallowed : BuildingAllowed sha256 input (.publish job manifestSha256 now) s) :
    Building sha256 input s₁ (exec sha256 (.publish job manifestSha256 now) w s).2 ∧
      Progress input s (exec sha256 (.publish job manifestSha256 now) w s).2 := by
  have hp := exec_persist sha256 (.publish job manifestSha256 now) w s hb.consistent hallowed.1
  have hobjects : (exec sha256 (.publish job manifestSha256 now) w s).2.objects = s.objects := by
    refine send_keeps (fun t => t.objects = s.objects) JobError.other w _ s ?_ rfl
    intro r t heffect
    rcases onDb_ok _ _ s t r heffect with ⟨rs, db, -, -, rfl⟩
    rfl
  rcases exec_publish sha256 job manifestSha256 now w s hb.consistent hallowed.1 with
    ⟨-, -, he⟩ | ⟨-, hsame⟩
  · have hrunning : ∀ j : MaterializationJobRow, completes job j = true →
        j.id = job.job.id ∧ j.status.isActive = true := by
      intro j hpj
      rw [completes, Bool.and_eq_true, decide_eq_true_eq, decide_eq_true_eq] at hpj
      exact ⟨hpj.1, isActive_of_running hpj.2⟩
    refine building_updateJobs sha256 input s₁ s _ hb hp (completes job) (completedRow now) he.jobs
      (fun _ => rfl) ?_ he.notes (by rw [hobjects]) (fun j _ hpj => (hrunning j hpj).2) ?_
    · rw [he.generations]
      exact Table.map_update GenerationRow.identity (publishes job s.db)
        (publishedRow manifestSha256 now) (fun _ => rfl) s.db.generations
    · intro j hj hpj hid hfine
      have htotal : j.totalNoteCount = input.snapshot.notes.length :=
        sameJob MaterializationJobRow.totalNoteCount (fun _ => rfl)
          (building_identity sha256 input s₁ s hc hb j hj hid)
      exact {
        cursor := Or.inr ⟨rfl, htotal⟩
        present := fun hactive => by cases hactive
        full := by
          intro _ r hr
          rw [he.notes]
          exact hallowed.2 ((hrunning j hpj).1.symm.trans hid) r hr
        sound := hfine.sound }
  · refine building_same sha256 input s₁ s _ hb hp ?_ ?_ ?_ (Or.inl (by rw [hobjects]))
    · rw [hsame]
    · rw [hsame]
    · rw [hsame]

/-- Every request a call may make keeps what is built, where it goes through. -/
theorem effect_building (hc : Created input s₁)
    (hkeys : input.snapshot.notes.Pairwise (fun m n => m.pathKey ≠ n.pathKey))
    (hb : Building sha256 input s₁ s) (op : MaterializationOp)
    (hop : ∀ job digest now, op ≠ .publish job digest now) (r : op.Ret)
    (hallowed : BuildingAllowed sha256 input op s) (heffect : effect sha256 s op = .ok (r, t)) :
    Building sha256 input s₁ t ∧ Progress input s t := by
  have hp := (effect_routine sha256 op hop s t r hb.consistent hallowed.1 heffect).toPersist
  have hread : ∀ {α : Type} (f : MaterializationState → α) (a : α),
      reading f s = .ok (a, t) → Building sha256 input s₁ t ∧ Progress input s t := by
    intro α f a hf
    rw [reading, Batch.ok_inj] at hf
    exact hf.2 ▸ ⟨hb, Progress.refl input s hb.consistent⟩
  have hstore : ∀ {α : Type} (a a' : α) (objects : String → Option (List UInt8)),
      storing a objects s = .ok (a', t) →
      (objects input.stagingObjectKey = s.objects input.stagingObjectKey ∨
        (objects input.stagingObjectKey = none ∧ Inactive input s.db)) →
      Building sha256 input s₁ t ∧ Progress input s t := by
    intro α a a' objects hf hobject
    rw [storing, Batch.ok_inj] at hf
    rw [← hf.2] at hp ⊢
    exact building_same sha256 input s₁ s _ hb hp rfl rfl rfl hobject
  cases op with
  | readJobRow _ | readPublished _ _ | readCurrentForSource _ _ | readActiveForSource _ _
  | hasActiveJobs _ | readNotes _ _ | getRange _ _ _ =>
      rw [effect] at heffect
      exact hread _ r heffect
  | claimJob vaultId now => exact claimJob_building sha256 input s₁ s t hb vaultId now r heffect
  | projectNotes job vaultId notes nextOffset processed now =>
      exact projectNotes_building sha256 input s₁ s t hc hkeys hb job vaultId notes nextOffset
        processed now r hallowed heffect
  | publish job digest now => exact absurd rfl (hop job digest now)
  | countAttempt jobId now =>
      exact countAttempt_building sha256 input s₁ s t hb jobId now r heffect
  | failJob job code now =>
      exact failJob_building sha256 input s₁ s t hb job code now r hallowed heffect
  | createJob input' => exact absurd hallowed.2 id
  | queueObject key now =>
      rw [effect] at heffect
      rcases onDb_ok _ _ s t r heffect with ⟨x, db, hq, -, rfl⟩
      rw [queueObjects, Batch.ok_inj] at hq
      rw [← hq.2] at hp ⊢
      exact building_same sha256 input s₁ s _ hb hp rfl rfl rfl (Or.inl rfl)
  | putStaging key bytes => exact absurd hallowed.2 id
  | putNoteObject note =>
      rw [effect] at heffect
      refine hstore _ r _ heffect (Or.inl ?_)
      unfold withNoteObject
      split
      · rfl
      · exact Function.update_of_ne (Ne.symm hallowed.2) _ _
  | putImmutableManifest key bytes =>
      rw [effect] at heffect
      split at heffect
      · exact hstore _ r _ heffect (Or.inl (Function.update_of_ne (Ne.symm hallowed.2) _ _))
      · split at heffect
        · rw [Batch.ok_inj] at heffect
          exact heffect.2 ▸ ⟨hb, Progress.refl input s hb.consistent⟩
        · cases heffect
  | deleteObject key =>
      rw [effect] at heffect
      refine hstore _ r _ heffect ?_
      by_cases hkey : key = input.stagingObjectKey
      · rw [hkey, Function.update_self]
        exact Or.inr ⟨rfl, hallowed.2 hkey⟩
      · exact Or.inl (Function.update_of_ne (Ne.symm hkey) _ _)
  | setVaultStatus _ _ | recordSyncState _ =>
      rw [effect] at heffect
      rcases onDb_ok _ _ s t r heffect with ⟨x, db, hq, -, rfl⟩
      rw [Batch.ok_inj] at hq
      rw [← hq.2] at hp ⊢
      exact building_same sha256 input s₁ s _ hb hp rfl rfl rfl (Or.inl rfl)

end

/-- However a request ends. -/
theorem exec_building (s₁ s : MaterializationState) (hc : Created input s₁)
    (hkeys : input.snapshot.notes.Pairwise (fun m n => m.pathKey ≠ n.pathKey))
    (hb : Building sha256 input s₁ s) (op : MaterializationOp) (w : Outcome)
    (hallowed : BuildingAllowed sha256 input op s) :
    Building sha256 input s₁ (exec sha256 op w s).2 ∧
      Progress input s (exec sha256 op w s).2 := by
  by_cases hop : ∃ job digest now, op = .publish job digest now
  · rcases hop with ⟨job, digest, now, rfl⟩
    exact publish_building sha256 input s₁ s hc hb job digest now w hallowed
  · push Not at hop
    refine send_keeps (fun t => Building sha256 input s₁ t ∧ Progress input s t) JobError.other w _
      s ?_ ⟨hb, Progress.refl input s hb.consistent⟩
    intro r t heffect
    exact effect_building sha256 input s₁ s t hc hkeys hb op hop r hallowed heffect

end Projection

end Mdevolved.Materialization
