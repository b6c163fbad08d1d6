import Mdevolved.Materialization.Completion

/-!
# Runs Over a Staged Snapshot

What calls of the queue make of a snapshot that was extracted, staged and whose
job was created, whatever other jobs there are, however the calls are
interleaved and however their requests end.

A snapshot is read back from its staged object frame by frame exactly if each of
its notes is `Stageable` (`readsBack_iff`), and nothing extracting it checks
makes a note so: a file's identifier may be empty, its metadata may be longer
than a frame may have, and its content may begin with a byte order mark. Where
every note is, `completed_exactly` says that a completed job has exactly the rows
of the snapshot, and that no job is given up because of the snapshot.
`unidentifiedRun_fails` is a run where one note is not.

`Constrained` is what the tables check and what creating jobs keeps, and
`created_of_batch` is what the batch that creates a job makes of it.

## Main definitions

* `ReadsBack`: A snapshot is read back from its staged object.
* `Constrained`: What the tables check.
* `CompletedExactly`: What the claimed result of a job is.

## Theorems

* `readsBack_iff`: Which snapshots are read back.
* `created_of_batch`: A job as its batch leaves it.
* `run_building`: What a run keeps.
* `completed_exactly`: The rows of a completed job, and why no job is given up.
* `unidentifiedRun_fails`: A snapshot whose job is given up.
-/

namespace Mdevolved.Materialization

open Mdevolved.Vault Batch Process

/-! ## The staged object -/

/-- Each note of a snapshot is read back from the staged object, from the offset
    where the one before it ended, and the last ends where the object does. -/
structure ReadsBack (u : UnicodeTables) (snapshot : MaterializedSnapshot) : Prop where
  frames : ∀ k (hk : k < snapshot.notes.length), ∃ lengths,
    readPrefix (stagedSnapshot snapshot).length (offsetOf snapshot.notes k)
        (rangeOf (stagedSnapshot snapshot) (offsetOf snapshot.notes k) framePrefixBytes) =
      .ok lengths ∧
    offsetOf snapshot.notes k + (framePrefixBytes + lengths.metadataLength +
      lengths.contentLength) = offsetOf snapshot.notes (k + 1) ∧
    readFrame u lengths (rangeOf (stagedSnapshot snapshot)
      (offsetOf snapshot.notes k + framePrefixBytes)
      (lengths.metadataLength + lengths.contentLength)) = .ok snapshot.notes[k]
  ends : offsetOf snapshot.notes snapshot.notes.length = (stagedSnapshot snapshot).length

/-- The snapshots that are read back are those whose notes are all fit for it. -/
theorem readsBack_iff (u : UnicodeTables) (snapshot : MaterializedSnapshot)
    (h : Snapshotted u snapshot.notes snapshot.totalBytes) :
    ReadsBack u snapshot ↔ ∀ n ∈ snapshot.notes, Stageable n := by
  have hframed := snapshotted_framed u _ _ h
  have hone : ∀ k (hk : k < snapshot.notes.length), Stageable snapshot.notes[k] ↔ ∃ lengths,
      readPrefix (stagedSnapshot snapshot).length (offsetOf snapshot.notes k)
          (rangeOf (stagedSnapshot snapshot) (offsetOf snapshot.notes k) framePrefixBytes) =
        .ok lengths ∧
      offsetOf snapshot.notes k + (framePrefixBytes + lengths.metadataLength +
        lengths.contentLength) = offsetOf snapshot.notes (k + 1) ∧
      readFrame u lengths (rangeOf (stagedSnapshot snapshot)
        (offsetOf snapshot.notes k + framePrefixBytes)
        (lengths.metadataLength + lengths.contentLength)) = .ok snapshot.notes[k] := by
    intro k hk
    have hlength := length_frame snapshot.notes[k]
    rw [← frame_readsBack_iff u snapshot.notes[k] (stagedSnapshot snapshot).length
      (offsetOf snapshot.notes k) (hframed _ (List.getElem_mem hk))
      (offsetOf_frame_le snapshot.notes k hk)]
    refine exists_congr (fun lengths => ?_)
    rw [stagedSnapshot, rangeOf_prefix snapshot.notes k hk, offsetOf_succ snapshot.notes k hk,
      Nat.add_left_cancel_iff]
    refine and_congr_right (fun _ => and_congr_right (fun hsum => ?_))
    have hrest : lengths.metadataLength + lengths.contentLength =
        (metadataBytes snapshot.notes[k]).length +
          (Utf8.encode snapshot.notes[k].content).length := by omega
    rw [hrest, rangeOf_frame snapshot.notes k hk]
  constructor
  · intro hback n hn
    rcases List.getElem_of_mem hn with ⟨k, hk, rfl⟩
    exact (hone k hk).mpr (hback.frames k hk)
  · intro hstageable
    exact {
      frames := fun k hk => (hone k hk).mp (hstageable _ (List.getElem_mem hk))
      ends := offsetOf_length snapshot.notes }

/-! ## The job -/

/-- What the tables check: their keys, that a note's generation is there, and
    that a manifest is kept under the key that creating a job gives it. -/
structure Constrained (db : MaterializationDb) : Prop where
  consistent : Consistent db
  stagingKeys : (db.jobs.map MaterializationJobRow.stagingObjectKey).Nodup
  noteKeys : (db.notes.map NoteRow.key).Nodup
  noteGenerations : ∀ r ∈ db.notes, ∃ g ∈ db.generations, g.id = r.generationId
  manifestKeys : ∀ g ∈ db.generations, ∃ stem, g.manifestKey = stem ++ "/manifest.json"

section

variable (input : CreateInput) (db db' : MaterializationDb)

/-- Statements that change neither what identifies rows nor the notes. -/
theorem constrained_of_same (h : Constrained db)
    (hconsistent : Consistent db')
    (hjobs : db'.jobs.map MaterializationJobRow.identity =
      db.jobs.map MaterializationJobRow.identity)
    (hgenerations : db'.generations.map GenerationRow.identity =
      db.generations.map GenerationRow.identity)
    (hnotes : db'.notes = db.notes) : Constrained db' := by
  have hsame : ∀ g ∈ db.generations, ∃ g' ∈ db'.generations, g'.identity = g.identity := by
    intro g hg
    have hmem : g.identity ∈ db'.generations.map GenerationRow.identity := by
      rw [hgenerations]
      exact List.mem_map_of_mem hg
    exact List.mem_map.mp hmem
  have hback : ∀ g' ∈ db'.generations, ∃ g ∈ db.generations, g.identity = g'.identity := by
    intro g' hg'
    have hmem : g'.identity ∈ db.generations.map GenerationRow.identity := by
      rw [← hgenerations]
      exact List.mem_map_of_mem hg'
    exact List.mem_map.mp hmem
  have hstaging : ∀ jobs : List MaterializationJobRow,
      jobs.map MaterializationJobRow.stagingObjectKey =
        (jobs.map MaterializationJobRow.identity).map MaterializationJobRow.stagingObjectKey := by
    intro jobs
    rw [List.map_map]
    rfl
  exact {
    consistent := hconsistent
    stagingKeys := by
      rw [hstaging, hjobs, ← hstaging]
      exact h.stagingKeys
    noteKeys := hnotes ▸ h.noteKeys
    noteGenerations := by
      intro r hr
      rw [hnotes] at hr
      rcases h.noteGenerations r hr with ⟨g, hg, hid⟩
      rcases hsame g hg with ⟨g', hg', heq⟩
      exact ⟨g', hg', (sameGeneration GenerationRow.id (fun _ => rfl) heq).trans hid⟩
    manifestKeys := by
      intro g' hg'
      rcases hback g' hg' with ⟨g, hg, heq⟩
      rcases h.manifestKeys g hg with ⟨stem, hkey⟩
      exact ⟨stem,
        (sameGeneration GenerationRow.manifestKey (fun _ => rfl) heq).symm.trans hkey⟩ }

/-- The statements before the inserts queue objects and fail rows that are
    there. -/
theorem constrained_superseded (q : D1Statement)
    (hq : q ∈ [queueSuperseded input, supersedeGenerations input, supersedeJobs input])
    (db db' : MaterializationDb) (ids : List String) (h : Constrained db)
    (hrun : q db = .ok (ids, db')) : Constrained db' := by
  simp only [List.mem_cons, List.not_mem_nil, or_false] at hq
  rcases hq with rfl | rfl | rfl
  · have hroutine := routine_of_eq db db' _ _ ids h.consistent hrun rfl rfl rfl rfl
    rw [queueSuperseded, queueObjects, Batch.ok_inj] at hrun
    obtain ⟨-, rfl⟩ := hrun
    exact constrained_of_same db _ h hroutine.consistent rfl rfl rfl
  · have hroutine := failGenerations_routine _ _ _ db db' ids h.consistent hrun
    rw [supersedeGenerations, failGenerations, Batch.ok_inj] at hrun
    obtain ⟨-, rfl⟩ := hrun
    refine constrained_of_same db _ h hroutine.consistent rfl ?_ rfl
    refine Table.map_update GenerationRow.identity _ _ ?_ db.generations
    exact fun _ => rfl
  · have hroutine := routine_updateJobs _ _ db db' ids h.consistent hrun (fun _ => rfl)
      (fun _ _ hdone => by cases hdone)
    rcases updateJobs_ok _ _ db db' ids hrun with ⟨-, rfl⟩
    refine constrained_of_same db _ h hroutine.consistent ?_ rfl rfl
    refine Table.map_update MaterializationJobRow.identity _ _ ?_ db.jobs
    exact fun _ => rfl

/-- A generation that was staged is a new one. -/
theorem insertGeneration_ok (ids : List String)
    (h : insertGeneration input db = .ok (ids, db'))
    (hid : ids.head? = some input.generationId) :
    (∀ g ∈ db.generations, g.id ≠ input.generationId) ∧
      db' = { db with generations := db.generations ++ [createdGeneration input] } := by
  unfold insertGeneration at h
  split at h
  · split at h
    · cases h
    · next generations hinsert =>
      rw [Table.insert_eq_some, List.all_eq_true] at hinsert
      rw [Batch.ok_inj] at h
      refine ⟨fun g hg => of_decide_eq_true (hinsert.1 g hg), ?_⟩
      rw [← h.2, hinsert.2]
      rfl
  · rw [Batch.ok_inj] at h
    rw [← h.1] at hid
    cases hid

/-- And so is its job, with the staged object a new one. -/
theorem insertJob_ok (ids : List String)
    (hgeneration : generationOf db input.generationId = some (createdGeneration input))
    (h : insertJob input db = .ok (ids, db')) :
    (∀ j ∈ db.jobs, j.stagingObjectKey ≠ input.stagingObjectKey) ∧
      db' = { db with jobs := db.jobs ++ [createdJob input] } := by
  unfold insertJob at h
  rw [hgeneration] at h
  simp only [createdGeneration, if_true] at h
  split at h
  · cases h
  · next jobs hinsert =>
    rw [Table.insert_eq_some, admitsJob, Bool.and_eq_true, List.all_eq_true] at hinsert
    rw [Batch.ok_inj] at h
    refine ⟨fun j hj => ?_, ?_⟩
    · have hadmits := hinsert.1.1 j hj
      rw [Bool.and_eq_true, Bool.and_eq_true, decide_eq_true_eq] at hadmits
      exact hadmits.1.2
    · rw [← h.2, hinsert.2]
      rfl

/-- What the batch leaves of a job it has returned. -/
theorem created_of_batch (results : List (List String)) (objects : String → Option (List UInt8))
    (hdb : Constrained db) (hrun : Batch.run (createBatch input) db = .ok (results, db'))
    (hgeneration : returned results 3 input.generationId = true)
    (hobject : objects input.stagingObjectKey = some (stagedSnapshot input.snapshot)) :
    Created input { db := db', objects := objects } := by
  have hconsistent := (createBatch_routine input db db' results hdb.consistent hrun).consistent
  rcases run_cons_ok.mp hrun with ⟨r₁, rs₁, d₁, hqueue, hrest₁, rfl⟩
  rcases run_cons_ok.mp hrest₁ with ⟨r₂, rs₂, d₂, hfail, hrest₂, rfl⟩
  rcases run_cons_ok.mp hrest₂ with ⟨r₃, rs₃, d₃, hjobs, hrest₃, rfl⟩
  rcases run_cons_ok.mp hrest₃ with ⟨r₄, rs₄, d₄, hstage, hrest₄, rfl⟩
  rcases run_cons_ok.mp hrest₄ with ⟨r₅, rs₅, d₅, hinsert, hend, rfl⟩
  rw [run_nil, Batch.ok_inj] at hend
  rw [hend.2] at hinsert
  have hG : r₄.head? = some input.generationId := of_decide_eq_true hgeneration
  have hone := constrained_superseded input _ (by simp) db d₁ r₁ hdb hqueue
  have htwo := constrained_superseded input _ (by simp) d₁ d₂ r₂ hone hfail
  have hthree := constrained_superseded input _ (by simp) d₂ d₃ r₃ htwo hjobs
  rcases insertGeneration_ok input d₃ d₄ r₄ hstage hG with ⟨hfresh, rfl⟩
  have hfound : generationOf { d₃ with generations := d₃.generations ++ [createdGeneration input] }
      input.generationId = some (createdGeneration input) := by
    have hnone : d₃.generations.find? (fun g => g.id = input.generationId) = none :=
      List.find?_eq_none.mpr (fun g hg => by simpa using hfresh g hg)
    rw [generationOf, List.find?_append, hnone, Option.none_or, List.find?_singleton]
    exact if_pos (decide_eq_true rfl)
  rcases insertJob_ok input _ db' r₅ hfound hinsert with ⟨hnew, rfl⟩
  exact {
    consistent := hconsistent
    stagingKeys := by
      rw [List.map_append, List.map_singleton]
      refine List.nodup_append.mpr ⟨hthree.stagingKeys, List.nodup_singleton _, ?_⟩
      intro key hkey key' hkey'
      rcases List.mem_map.mp hkey with ⟨j, hj, rfl⟩
      rw [List.mem_singleton.mp hkey']
      exact hnew j hj
    noteKeys := hthree.noteKeys
    manifestKeys := by
      intro g hg
      have hform : ∃ stem, g.manifestKey = stem ++ "/manifest.json" := by
        rcases List.mem_append.mp hg with hold | hadded
        · exact hthree.manifestKeys g hold
        · rw [List.mem_singleton.mp hadded]
          exact ⟨_, rfl⟩
      rcases hform with ⟨stem, hkey⟩
      rw [hkey, CreateInput.stagingObjectKey]
      exact append_ne _ _ "/manifest.json" ".bin" (by decide) (by decide)
    job := List.mem_append_right _ List.mem_cons_self
    generation := List.mem_append_right _ List.mem_cons_self
    rows := by
      intro r hr hg
      rcases hthree.noteGenerations r hr with ⟨g, hgmem, hid⟩
      exact hfresh g hgmem (hid.trans hg)
    object := hobject }

end

/-! ## Runs -/

/-- A snapshot that was extracted from a document and staged, and a job that was
    just created for it. -/
structure Staged (u : UnicodeTables) (sha256 : List UInt8 → String) (document : VaultDocument)
    (input : CreateInput) (s₁ : MaterializationState) : Prop where
  extracted : extractMaterializedSnapshot u document = .ok input.snapshot
  created : ∃ s₀ results, Constrained s₀.db ∧
    s₀.objects input.stagingObjectKey = some (stagedSnapshot input.snapshot) ∧
    (exec sha256 (.createJob input) .answered s₀).1 = .ok results ∧
    (exec sha256 (.createJob input) .answered s₀).2 = s₁ ∧
    returned results 3 input.generationId = true ∧ returned results 4 input.jobId = true

/-- What a job is to come to: once it is completed, the rows of its generation
    are those of the snapshot's notes; and it is not given up because of the
    snapshot. -/
def CompletedExactly (sha256 : List UInt8 → String) (input : CreateInput)
    (db : MaterializationDb) : Prop :=
  ∀ j ∈ db.jobs, j.id = input.jobId →
    (j.status = .completed →
      (db.notes.filter (fun r => r.generationId = input.generationId)).Perm
        (expectedRows sha256 input)) ∧
    j.failureCode ≠ some (.code .snapshotInvalid)

/-- Calls of the queue, each for a vault and at a time. -/
def queueCalls {ι : Type} (calls : ι → String × Nat) (i : ι) : MaterializationCall :=
  .continueNext (calls i).1 (calls i).2

variable {u : UnicodeTables} {sha256 : List UInt8 → String} {input : CreateInput}
  {s₁ : MaterializationState}

theorem staged_created {document : VaultDocument} (h : Staged u sha256 document input s₁) :
    Created input s₁ := by
  rcases h.created with ⟨s₀, results, hdb, hobject, hok, rfl, hgeneration, -⟩
  have heffect := send_ok JobError.other .answered _ s₀ _ hok
  rcases onDb_ok _ _ s₀ _ _ heffect with ⟨rs, db', hrun, rfl, hstate⟩
  rw [exec, hstate]
  exact created_of_batch input s₀.db db' results s₀.objects hdb hrun hgeneration hobject

/-- A job just created has made no progress. -/
theorem created_building (hc : Created input s₁) : Building sha256 input s₁ s₁ :=
  { consistent := hc.consistent
    jobs := rfl
    generations := rfl
    noteKeys := hc.noteKeys
    rows := fun r hr hg => absurd hg (hc.rows r hr)
    fine := by
      intro j hj hid
      have hone : j = createdJob input :=
        List.inj_on_of_nodup_map hc.consistent.jobIds hj hc.job hid
      rw [hone]
      exact {
        cursor := Or.inl ⟨0, Nat.zero_le _, rfl, rfl⟩
        present := fun _ => hc.object
        full := fun hdone => nomatch hdone
        sound := fun hcode => nomatch hcode }
    object := Or.inr hc.object }

/-- Every call of the queue keeps what is built. -/
theorem queueCall_meets (hc : Created input s₁) (hfit : Fit u input.snapshot)
    (call : String × Nat) (s : MaterializationState) :
    MeetsBuilding sha256 input s₁ (fun _ _ => True)
      ((MaterializationCall.continueNext call.1 call.2).process u sha256) s := by
  refine meets_bind _ _ s (meets_mono (fun _ _ h => h) ?_ _ s
    (continueNext_meets_of sha256 u (fun _ hb => hb.consistent) (fun _ _ hp => hp.persist) call.1
      call.2 (fun _ => ⟨trivial, trivial⟩) (fun _ _ => ⟨trivial, trivial⟩)
      (fun _ => ⟨trivial, trivial⟩) ?_ s))
  · intro r t _
    cases r with
    | ok _ => exact trivial
    | error _ => exact trivial
  · intro job t hb hvault hrow
    rw [← hvault]
    exact continueJob_meets u sha256 hc hfit call.2 job t hb hrow

variable (sha256) in
/-- So does every run of them. -/
theorem run_building {ι : Type} [DecidableEq ι] (hc : Created input s₁)
    (hfit : Fit u input.snapshot) (calls : ι → String × Nat) (es : List (ι × Outcome)) :
    Building sha256 input s₁
      (Pool.run (exec sha256) (startPool u sha256 (queueCalls calls) s₁) es).shared := by
  have hsound := Run.runFrom_keeps (Pool.step (exec sha256))
    (Pool.Sound (exec sha256) (fun _ _ _ => True) (Building sha256 input s₁)
      (fun _ => Progress input) (fun _ => BuildingAllowed sha256 input) (fun _ _ _ => True)) ?_
    (startPool u sha256 (queueCalls calls) s₁) es ?_
  · exact hsound.1
  · intro c e hsound
    exact Pool.step_sound
      (fun _ s hb => Progress.refl input s hb.consistent) (fun _ _ _ _ h h' => h.trans h')
      (fun _ op w s hb hallowed _ => by
        have hkept :=
          exec_building sha256 input s₁ s hc hfit.snapshotted.distinctKeys hb op w hallowed
        exact ⟨hkept.1, fun _ _ => hkept.2⟩)
      c e hsound (fun _ _ => trivial)
  · have hstart : Building sha256 input s₁ s₁ := created_building hc
    exact ⟨hstart, fun i => ⟨s₁, Progress.refl input s₁ hc.consistent,
      queueCall_meets hc hfit (calls i) s₁⟩⟩

/-- A snapshot is read back from its staged object exactly if all of its notes
    are fit for it. Then a job that completes, in any run over the object and any
    other jobs, has exactly the rows of the snapshot, and it is never given up
    because of the snapshot. -/
theorem completed_exactly {ι : Type} [DecidableEq ι] (document : VaultDocument)
    (h : Staged u sha256 document input s₁) (calls : ι → String × Nat)
    (es : List (ι × Outcome)) :
    (ReadsBack u input.snapshot ↔ ∀ n ∈ input.snapshot.notes, Stageable n) ∧
      ((∀ n ∈ input.snapshot.notes, Stageable n) → CompletedExactly sha256 input
        (Pool.run (exec sha256) (startPool u sha256 (queueCalls calls) s₁) es).shared.db) := by
  have hsnapshot := extract_ok u document input.snapshot h.extracted
  refine ⟨readsBack_iff u input.snapshot hsnapshot, fun hstageable => ?_⟩
  have hfit : Fit u input.snapshot := ⟨hsnapshot, hstageable⟩
  have hb := run_building sha256 (staged_created h) hfit calls es
  intro j hj hid
  have hfine := hb.fine j hj hid
  exact ⟨fun hdone => rows_full sha256 hsnapshot.distinctKeys _ hb (hfine.full hdone),
    hfine.sound⟩

/-! ## A document of one note -/

/-- A document of one note, whose file has a given identifier. -/
def oneNote (fileId : String) : VaultDocument :=
  { schemaVersion := some (.num (Decimal.ofNat 2))
    metadata := [(fileId, .object [("path", .str "a.md")])]
    pathToId := []
    idToText := [(fileId, .text "a")] }

/-- The job of that document. -/
def oneNoteInput (fileId : String) : CreateInput :=
  { twoSources "1" 'a' with
    snapshot :=
      { notes := [{
          byteLength := 1
          content := "a"
          fileId := fileId
          modifiedAt := none
          path := "a.md"
          pathKey := "a.md"
          title := "a" }]
        schemaVersion := 2
        totalBytes := 1 } }

/-- The state its staged object is in, before the job is created. -/
def oneNoteStaged (fileId : String) : MaterializationState :=
  { db := freshDb [{ id := "vault", status := .active }] []
    objects := Function.update (fun _ => none) (oneNoteInput fileId).stagingObjectKey
      (some (stagedSnapshot (oneNoteInput fileId).snapshot)) }

/-- The state after it is created. -/
def oneNoteCreated (fileId : String) : MaterializationState :=
  (exec (fun _ => "digest") (.createJob (oneNoteInput fileId)) .answered
    (oneNoteStaged fileId)).2

theorem oneNote_staged (fileId : String)
    (hextract : extractMaterializedSnapshot UnicodeTables.plain (oneNote fileId) =
      .ok (oneNoteInput fileId).snapshot)
    (hcreate : (exec (fun _ => "digest") (.createJob (oneNoteInput fileId)) .answered
      (oneNoteStaged fileId)).1 = .ok [[], [], [], ["generation1"], ["job1"]]) :
    Staged UnicodeTables.plain (fun _ => "digest") (oneNote fileId) (oneNoteInput fileId)
      (oneNoteCreated fileId) := by
  refine ⟨hextract, oneNoteStaged fileId, _, ?_, ?_, hcreate, rfl, rfl, rfl⟩
  · exact {
      consistent := freshDb_consistent _ _
      stagingKeys := List.nodup_nil
      noteKeys := List.nodup_nil
      noteGenerations := fun _ hr => absurd hr List.not_mem_nil
      manifestKeys := fun _ hg => absurd hg List.not_mem_nil }
  · simp only [oneNoteStaged, Function.update_self]

/-- The state after one call of the queue that made a number of requests, each
    of them answered. -/
def afterRequests (fileId : String) (count : Nat) : MaterializationState :=
  (Pool.run (exec (fun _ => "digest")) (startPool UnicodeTables.plain (fun _ => "digest")
    (queueCalls (fun _ : Unit => ("vault", 2))) (oneNoteCreated fileId))
    (List.replicate count ((), .answered))).shared

/-- Where the file has an identifier, the job completes with the one row. -/
theorem identifiedRun_completes :
    (afterRequests "file" 11).db.jobs.map MaterializationJobRow.status = [.completed] ∧
      CompletedExactly (fun _ => "digest") (oneNoteInput "file") (afterRequests "file" 11).db := by
  refine ⟨by decide +kernel, ?_⟩
  unfold afterRequests
  refine (completed_exactly (oneNote "file") (oneNote_staged "file" rfl rfl) _ _).2 ?_
  intro n hn
  rw [List.mem_singleton.mp hn]
  exact ⟨by decide +kernel, by decide +kernel, by decide +kernel⟩

/-- Where it has none, the job is given up because of the snapshot. -/
theorem unidentifiedRun_fails :
    Staged UnicodeTables.plain (fun _ => "digest") (oneNote "") (oneNoteInput "")
        (oneNoteCreated "") ∧
      ¬ CompletedExactly (fun _ => "digest") (oneNoteInput "") (afterRequests "" 7).db := by
  refine ⟨oneNote_staged "" rfl rfl, fun h => ?_⟩
  have hfailed : ¬ ∀ j ∈ (afterRequests "" 7).db.jobs, j.id = (oneNoteInput "").jobId →
      j.failureCode ≠ some (.code .snapshotInvalid) := by
    decide +kernel
  exact hfailed (fun j hj hid => (h j hj hid).2)

end Mdevolved.Materialization
