import Mdevolved.Materialization.Projection

/-!
# Completing a Job

What a call of the queue does with a job whose snapshot is fit to be staged. It
reads the notes of the snapshot and no others, so all it projects are their
rows; and what goes wrong is either that a service was not available, which is
tried again, or that the job was done by then, which no longer matters to it.
So whatever a call throws, it fails the job for good only where that changes
nothing.

Calls about other jobs ask for nothing that concerns this one: the tables give
each job its own generation and its own staged object.

## Main definitions

* `Fit`: A snapshot that can be staged and read back.
* `Returns`: What a call returns, and what its errors mean for the job.
* `Reading`: The job as a call holds it.
* `Minds`: What a call about another job may ask for.

## Theorems

* `readStagedNotes_meets`: The notes that are read are those of the snapshot.
* `projectNext_meets`, `finalizeWhenDone_meets`: The two halves of a call.
* `full_of_count`: As many rows as notes are all of them.
* `recoverJob_meets`: Why a job is failed.
* `continueJob_meets`: What a call does with any job.
-/

namespace Mdevolved.Materialization

open Mdevolved.Vault Batch Process

/-- A snapshot as it is extracted, each of whose notes is read back from its
    frame. -/
structure Fit (u : UnicodeTables) (snapshot : MaterializedSnapshot) : Prop where
  snapshotted : Snapshotted u snapshot.notes snapshot.totalBytes
  stageable : ∀ n ∈ snapshot.notes, Stageable n

/-- Whatever a request fails with, trying again may help. -/
theorem exec_error (sha256 : List UInt8 → String) (op : MaterializationOp) (w : Outcome)
    (s : MaterializationState) (e : JobError) (h : (exec sha256 op w s).1 = .error e) :
    e.code = .materializationUnavailable := by
  have hdb : ∀ {ρ α : Type} (q : MaterializationDb → Except D1Error (ρ × MaterializationDb))
      (answer : ρ → MaterializationDb → α) (e : JobError), onDb q answer s = .error e →
      e.code = .materializationUnavailable := by
    intro ρ α q answer e hq
    unfold onDb at hq
    split at hq
    · cases hq
      rfl
    · cases hq
  have heffect : ∀ e, effect sha256 s op = .error e → e.code = .materializationUnavailable := by
    intro e he
    cases op with
    | putImmutableManifest key bytes =>
        rw [effect] at he
        split at he
        · cases he
        · split at he
          · cases he
          · cases he
            rfl
    | readJobRow jobId => cases he
    | readPublished vaultId generationId => cases he
    | readCurrentForSource vaultId source => cases he
    | readActiveForSource vaultId source => cases he
    | hasActiveJobs vaultId => cases he
    | readNotes generationId vaultId => cases he
    | getRange key offset length => cases he
    | putStaging key bytes => cases he
    | putNoteObject note => cases he
    | deleteObject key => cases he
    | _ =>
        rw [effect] at he
        exact hdb _ _ e he
  rcases send_error JobError.other w _ s e h with hfail | rfl
  · exact heffect e hfail
  · rfl

section Completion

variable (u : UnicodeTables) (sha256 : List UInt8 → String) (input : CreateInput)
  (s₁ : MaterializationState)

/-- What a call does, given what others do to the job. -/
abbrev MeetsBuilding {α : Type} (Q : Except JobError α → MaterializationState → Prop)
    (p : JobProcess α) (s : MaterializationState) : Prop :=
  p.Meets (exec sha256) (fun _ _ _ => True) (Building sha256 input s₁) (Progress input)
    (BuildingAllowed sha256 input) Q s

/-- An error says that a service was not available, or the job is done. -/
def Unavailing (e : JobError) (s : MaterializationState) : Prop :=
  e.code ≠ .materializationUnavailable → Inactive input s.db

/-- What a call returns is as it should be, and so are its errors. -/
def Returns {α : Type} (T : α → MaterializationState → Prop) :
    Except JobError α → MaterializationState → Prop
  | .ok a, s => T a s
  | .error e, s => Unavailing input e s

theorem unavailing_of_unavailable (e : JobError) (s : MaterializationState)
    (h : e.code = .materializationUnavailable) : Unavailing input e s :=
  fun hne => absurd h hne

variable {input s₁}

/-- One call after the other. -/
theorem returns_bind {α β : Type} {T : α → MaterializationState → Prop}
    {U : β → MaterializationState → Prop} (f : α → JobProcess β) (p : JobProcess α)
    (s : MaterializationState) (hp : MeetsBuilding sha256 input s₁ (Returns input T) p s)
    (hf : ∀ a t, T a t → MeetsBuilding sha256 input s₁ (Returns input U) (f a) t) :
    MeetsBuilding sha256 input s₁ (Returns input U) (p >>= f) s := by
  refine meets_bind f p s (meets_mono (fun _ _ h => h) ?_ p s hp)
  intro r t hr
  cases r with
  | ok a => exact hf a t hr
  | error e => exact hr

/-- One request, and what is known of its answer. -/
theorem returns_ask {α : Type} {U : α → MaterializationState → Prop} (op : MaterializationOp)
    (f : op.Ret → JobProcess α) (s : MaterializationState)
    (hallowed : ∀ t, Building sha256 input s₁ t → Progress input s t →
      BuildingAllowed sha256 input op t)
    (hf : ∀ t w r, Building sha256 input s₁ t → Progress input s t →
      (exec sha256 op w t).1 = .ok r →
      MeetsBuilding sha256 input s₁ (Returns input U) (f r) (exec sha256 op w t).2) :
    MeetsBuilding sha256 input s₁ (Returns input U) (ask op >>= f) s :=
  meets_request op f s (fun t hb hst => ⟨hallowed t hb hst, fun w _ =>
    ⟨fun r hr => hf t w r hb hst hr, fun e he =>
      unavailing_of_unavailable input e _ (exec_error sha256 op w t e he)⟩⟩)

theorem orCode_ok {α β : Type} (a : α) (f : α → JobProcess β) :
    (orCode (.ok a) >>= f) = f a := rfl

/-- Where the staged object is gone, the job is done. -/
theorem inactive_of_absent (s : MaterializationState) (hb : Building sha256 input s₁ s)
    (habsent : s.objects input.stagingObjectKey = none) : Inactive input s.db := by
  intro j hj hid
  cases hactive : j.status.isActive with
  | false => rfl
  | true =>
      have hpresent := (hb.fine j hj hid).present hactive
      rw [habsent] at hpresent
      cases hpresent

/-- A range of the staged object is read in full, or the job is done. -/
theorem getRange_meets {α : Type} {U : α → MaterializationState → Prop} (offset length : Nat)
    (hlength : offset + length ≤ (stagedSnapshot input.snapshot).length)
    (f : List UInt8 → JobProcess α) (s : MaterializationState)
    (hf : ∀ t, MeetsBuilding sha256 input s₁ (Returns input U)
      (f (rangeOf (stagedSnapshot input.snapshot) offset length)) t) :
    MeetsBuilding sha256 input s₁ (Returns input U)
      (do
        let range ← ask (.getRange input.stagingObjectKey offset length)
        let bytes ← orCode (readExactRange length range)
        f bytes) s := by
  refine returns_ask sha256 (.getRange input.stagingObjectKey offset length) _ s
    (fun _ _ _ => ⟨trivial, trivial⟩) (fun t w range hb _ hrange => ?_)
  have hread := send_ok JobError.other w _ t _ hrange
  rw [effect, reading, Batch.ok_inj] at hread
  rcases hb.object with habsent | hpresent
  · rw [habsent, Option.map_none] at hread
    rw [← hread.1]
    exact fun _ => hread.2 ▸ inactive_of_absent sha256 t hb habsent
  · have hfull : (rangeOf (stagedSnapshot input.snapshot) offset length).length = length := by
      rw [rangeOf, List.length_take, List.length_drop]
      omega
    rw [hpresent, Option.map_some] at hread
    rw [← hread.1, readExactRange, if_pos hfull, orCode_ok]
    exact hf _

/-- What of a job's row the call that read it goes by. -/
structure OwnJob (input : CreateInput) (job : JobRow) : Prop where
  row : job.job.identity = (createdJob input).identity
  generation : job.generation.identity = (createdGeneration input).identity

theorem OwnJob.stagingObjectKey {job : JobRow} (h : OwnJob input job) :
    job.job.stagingObjectKey = input.stagingObjectKey :=
  sameJob MaterializationJobRow.stagingObjectKey (fun _ => rfl) h.row

theorem OwnJob.stagingObjectBytes {job : JobRow} (h : OwnJob input job) :
    job.job.stagingObjectBytes = (stagedSnapshot input.snapshot).length :=
  sameJob MaterializationJobRow.stagingObjectBytes (fun _ => rfl) h.row

theorem OwnJob.totalNoteCount {job : JobRow} (h : OwnJob input job) :
    job.job.totalNoteCount = input.snapshot.notes.length :=
  sameJob MaterializationJobRow.totalNoteCount (fun _ => rfl) h.row

/-- The note at the cursor is read as the snapshot has it. -/
theorem readStagedNote_meets (hfit : Fit u input.snapshot) (job : JobRow)
    (hown : OwnJob input job) (k : Nat) (hk : k < input.snapshot.notes.length)
    (s : MaterializationState) :
    MeetsBuilding sha256 input s₁
      (Returns input (fun staged _ => staged =
        { note := input.snapshot.notes[k], nextOffset := offsetOf input.snapshot.notes (k + 1) }))
      (readStagedNote u job (offsetOf input.snapshot.notes k)) s := by
  have hmem : input.snapshot.notes[k] ∈ input.snapshot.notes := List.getElem_mem hk
  have hframed := snapshotted_framed u _ _ hfit.snapshotted _ hmem
  have hstageable := hfit.stageable _ hmem
  have hnext := offsetOf_succ input.snapshot.notes k hk
  have hlength := length_frame input.snapshot.notes[k]
  have hsize : offsetOf input.snapshot.notes k + (frame input.snapshot.notes[k]).length ≤
      (stagedSnapshot input.snapshot).length := offsetOf_frame_le input.snapshot.notes k hk
  have hprefixBytes : framePrefixBytes = 8 := rfl
  have hprefix := rangeOf_prefix input.snapshot.notes k hk
  have hframe := rangeOf_frame input.snapshot.notes k hk
  unfold readStagedNote
  rw [hown.stagingObjectKey, hown.stagingObjectBytes, if_neg (by omega)]
  refine getRange_meets sha256 _ _ (by omega) _ s (fun t => ?_)
  rw [stagedSnapshot, hprefix, ← stagedSnapshot,
    readPrefix_frame u _ _ _ hframed hstageable.metadataFits (by omega), orCode_ok]
  dsimp only
  refine getRange_meets sha256 _ _ (by omega) _ t (fun t' => ?_)
  rw [stagedSnapshot, hframe, readFrame_frame_of_stageable u _ hframed hstageable, orCode_ok]
  rw [hnext, hlength]
  exact congrArg (StagedNote.mk _) (by omega)

/-- So are the notes after it. -/
theorem readStagedNotes_meets (hfit : Fit u input.snapshot) (job : JobRow)
    (hown : OwnJob input job) (count k : Nat) (hk : k + count ≤ input.snapshot.notes.length)
    (s : MaterializationState) :
    MeetsBuilding sha256 input s₁
      (Returns input (fun read _ => read = ((input.snapshot.notes.drop k).take count,
        offsetOf input.snapshot.notes (k + count))))
      (readStagedNotes u job count (offsetOf input.snapshot.notes k)) s := by
  induction count generalizing k s with
  | zero => rfl
  | succ count ih =>
      have hlt : k < input.snapshot.notes.length := by omega
      refine returns_bind sha256 _ _ s (readStagedNote_meets u sha256 hfit job hown k hlt s) ?_
      rintro staged t rfl
      refine returns_bind sha256 _ _ t (ih (k + 1) (by omega) t) ?_
      rintro read t' rfl
      refine Prod.ext ?_ ?_
      · rw [List.drop_eq_getElem_cons hlt, List.take_succ_cons]
      · exact congrArg (offsetOf input.snapshot.notes) (by omega)

/-- Writing the objects of notes fails only where the store is not available. -/
theorem writeObjects_meets (notes : List PreparedNote) (room : Nat) (failed : Bool)
    (hput : ∀ note ∈ notes, note.r2Key ≠ input.stagingObjectKey) (s : MaterializationState) :
    MeetsBuilding sha256 input s₁ (Returns input (fun _ _ => True))
      (writeObjects notes room failed) s := by
  induction notes generalizing room failed s with
  | nil =>
      unfold writeObjects
      split
      · exact unavailing_of_unavailable input _ s rfl
      · exact trivial
  | cons note rest ih =>
      unfold writeObjects
      split
      · exact unavailing_of_unavailable input _ s rfl
      · refine returns_bind (T := fun _ _ => True) sha256 _ _ s ?_
          (fun stored t _ => ih _ _ (fun n hn => hput n (List.mem_cons_of_mem _ hn)) t)
        intro t _ _
        refine ⟨⟨trivial, hput note List.mem_cons_self⟩, fun w _ => ?_⟩
        cases (exec sha256 (.putNoteObject note) w t).1 with
        | ok _ => exact trivial
        | error e => exact trivial

/-- The job as a call holds it: it is in the tables, and the cursor it was read
    with is at a frame, or it was completed by then. -/
structure Reading (input : CreateInput) (job : JobRow) (s : MaterializationState) : Prop where
  known : Known job s.db
  own : OwnJob input job
  place : (∃ k ≤ input.snapshot.notes.length,
      job.job.nextOffset = offsetOf input.snapshot.notes k ∧ job.job.processedNoteCount = k) ∨
    (job.job.processedNoteCount = input.snapshot.notes.length ∧ Inactive input s.db)

theorem Reading.progress {job : JobRow} {s t : MaterializationState} (h : Reading input job s)
    (hp : Progress input s t) : Reading input job t :=
  { known := known_persist job s.db t.db hp.persist h.known
    own := h.own
    place := h.place.imp id (fun hdone => ⟨hdone.1, hp.inactive hdone.2⟩) }

/-- One call after the other, keeping what others do not disturb. -/
theorem returns_bind_keeping (hc : Created input s₁) (hfit : Fit u input.snapshot) {α β : Type}
    {T : α → MaterializationState → Prop} {U : β → MaterializationState → Prop}
    (K : MaterializationState → Prop) (hK : ∀ s t, K s → Progress input s t → K t)
    (f : α → JobProcess β) (p : JobProcess α) (s : MaterializationState) (hs : K s)
    (hp : MeetsBuilding sha256 input s₁ (Returns input T) p s)
    (hf : ∀ a t, T a t → K t → MeetsBuilding sha256 input s₁ (Returns input U) (f a) t) :
    MeetsBuilding sha256 input s₁ (Returns input U) (p >>= f) s := by
  have hexec : ∀ op w t, Building sha256 input s₁ t → BuildingAllowed sha256 input op t →
      True → K t → K (exec sha256 op w t).2 := fun op w t hb hop _ ht => hK t _ ht
    (exec_building sha256 input s₁ t hc hfit.snapshotted.distinctKeys hb op w hop).2
  refine meets_bind f p s (meets_mono (fun _ _ h => h) ?_ p s
    (meets_frame K hK hexec p s hs hp))
  rintro r t ⟨hr, ht⟩
  cases r with
  | ok a => exact hf a t hr ht
  | error e => exact hr

/-- Projecting notes of the snapshot, with the cursor after them, is allowed. -/
theorem project_allowed (job : JobRow) (s : MaterializationState)
    (hread : Reading input job s) (notes : List MaterializedSnapshotNote)
    (hnotes : ∀ n ∈ notes, n ∈ input.snapshot.notes) (processed now : Nat)
    (hprocessed : processed ≤ input.snapshot.notes.length) :
    BuildingAllowed sha256 input
      (.projectNotes job job.job.vaultId (prepareNotes sha256 job.job.vaultId notes)
        (offsetOf input.snapshot.notes processed) processed now) s := by
  have hvault : job.job.vaultId = input.vaultId :=
    sameJob MaterializationJobRow.vaultId (fun _ => rfl) hread.own.row
  refine ⟨⟨hread.known, rfl⟩, fun _ => ⟨?_, hprocessed, rfl⟩⟩
  intro p hp
  rw [hvault] at hp
  rcases List.mem_map.mp hp with ⟨note, hnote, rfl⟩
  exact List.mem_map.mpr ⟨note, hnotes note hnote, rfl⟩

/-- A call projects the next notes of the snapshot and moves the cursor past
    them. -/
theorem projectNext_meets (hc : Created input s₁) (hfit : Fit u input.snapshot) (now : Nat)
    (job : JobRow) (s : MaterializationState) (hread : Reading input job s) :
    MeetsBuilding sha256 input s₁ (Returns input (fun job' t => Reading input job' t))
      (projectNext u sha256 job.job.vaultId now job) s := by
  have hstable : ∀ s t, Reading input job s → Progress input s t → Reading input job t :=
    fun s t h hp => h.progress hp
  unfold projectNext
  rcases hread.place with ⟨k, hk, hoffset, hprocessed⟩ | ⟨hprocessed, -⟩
  · rw [hread.own.totalNoteCount, hprocessed, hoffset]
    have hcount : k + min jobNoteBatchSize (input.snapshot.notes.length - k) ≤
        input.snapshot.notes.length := by omega
    refine returns_bind_keeping u sha256 hc hfit (Reading input job) hstable _ _ s hread
      (readStagedNotes_meets u sha256 hfit job hread.own _ k hcount s) ?_
    rintro read t rfl ht
    generalize min jobNoteBatchSize (input.snapshot.notes.length - k) = number at *
    have hlength : ((input.snapshot.notes.drop k).take number).length = number := by
      rw [List.length_take, List.length_drop]
      omega
    have hnotes : ∀ n ∈ (input.snapshot.notes.drop k).take number, n ∈ input.snapshot.notes :=
      fun n hn => List.mem_of_mem_drop (List.mem_of_mem_take hn)
    dsimp only
    rw [hlength]
    split
    · exact ht
    · refine returns_bind_keeping (T := fun _ _ => True) u sha256 hc hfit (Reading input job)
        hstable _ _ t ht ?_ (fun _ t' _ ht' => ?_)
      · refine writeObjects_meets sha256 _ _ _ (fun note hnote => ?_) t
        rcases prepareNotes_key sha256 _ _ note (mem_uniqueByContent _ note hnote) with ⟨stem, hkey⟩
        rw [hkey, CreateInput.stagingObjectKey]
        exact append_ne _ _ ".md" ".bin" (by decide) (by decide)
      · have hallowed : ∀ t₂, Progress input t' t₂ → BuildingAllowed sha256 input
            (.projectNotes job job.job.vaultId (prepareNotes sha256 job.job.vaultId
              ((input.snapshot.notes.drop k).take number))
              (offsetOf input.snapshot.notes (k + number)) (k + number) now) t₂ :=
          fun t₂ hp => project_allowed sha256 job t₂ (ht'.progress hp) _ hnotes _ now hcount
        refine returns_ask sha256 _ _ t' (fun t₂ _ hp => hallowed t₂ hp) (fun t₂ w _ hb hp _ => ?_)
        have hafter := (ht'.progress hp).progress
          (exec_building sha256 input s₁ t₂ hc hfit.snapshotted.distinctKeys hb _ w
            (hallowed t₂ hp)).2
        exact {
          known := known_same job _ _ ⟨rfl, rfl⟩ hafter.known
          own := ⟨hafter.own.row, hafter.own.generation⟩
          place := Or.inl ⟨k + number, hcount, rfl, rfl⟩ }
  · rw [hread.own.totalNoteCount, hprocessed, Nat.sub_self]
    exact hread

/-! ## Publishing -/

theorem Full.progress {sha256 : List UInt8 → String} {s t : MaterializationState}
    (h : Full sha256 input s.db) (hp : Progress input s t) : Full sha256 input t.db :=
  fun r hr => hp.rows r (h r hr) (expectedRow_generation sha256 input r hr).1

/-- The rows a query for the generation's notes returns are distinct, and are
    rows of the snapshot. -/
theorem notesOf_building (s : MaterializationState) (hb : Building sha256 input s₁ s) :
    (notesOf s.db input.generationId input.vaultId).Nodup ∧
      ∀ r ∈ notesOf s.db input.generationId input.vaultId, r ∈ expectedRows sha256 input := by
  constructor
  · refine (List.perm_insertionSort _ _).nodup_iff.mpr ?_
    exact (List.Nodup.of_map NoteRow.key hb.noteKeys).filter _
  · intro r hr
    rw [notesOf, List.mem_insertionSort, List.mem_filter, Bool.and_eq_true, decide_eq_true_eq]
      at hr
    exact hb.rows r hr.1 hr.2.1

/-- Once there are as many rows as notes, there is a row for every note. -/
theorem full_of_count (s : MaterializationState) (hb : Building sha256 input s₁ s)
    (hcount : (notesOf s.db input.generationId input.vaultId).length =
      input.snapshot.notes.length) : Full sha256 input s.db := by
  have hrows := notesOf_building sha256 s hb
  have hlength : (expectedRows sha256 input).length ≤
      (notesOf s.db input.generationId input.vaultId).length := by
    rw [expectedRows, List.length_map, hcount]
  have hperm := (List.subperm_of_subset hrows.1 hrows.2).perm_of_length_le hlength
  intro r hr
  have hmem := hperm.mem_iff.mpr hr
  rw [notesOf, List.mem_insertionSort, List.mem_filter] at hmem
  exact hmem.1

/-- And then the rows of the generation are exactly those. -/
theorem rows_full (hkeys : input.snapshot.notes.Pairwise (fun m n => m.pathKey ≠ n.pathKey))
    (s : MaterializationState) (hb : Building sha256 input s₁ s)
    (hfull : Full sha256 input s.db) :
    (s.db.notes.filter (fun r => r.generationId = input.generationId)).Perm
      (expectedRows sha256 input) := by
  have hrows := (List.Nodup.of_map NoteRow.key hb.noteKeys).filter
    (fun r => decide (r.generationId = input.generationId))
  have hexpected := List.Nodup.of_map NoteRow.key (expectedRows_keys sha256 input hkeys)
  rw [List.perm_ext_iff_of_nodup hrows hexpected]
  intro r
  rw [List.mem_filter, decide_eq_true_eq]
  exact ⟨fun hr => hb.rows r hr.1 hr.2,
    fun hr => ⟨hfull r hr, (expectedRow_generation sha256 input r hr).1⟩⟩

/-- A single request at the end of a call. -/
theorem returns_last (op : MaterializationOp) (s : MaterializationState)
    (hallowed : ∀ t, Building sha256 input s₁ t → Progress input s t →
      BuildingAllowed sha256 input op t) :
    MeetsBuilding sha256 input s₁ (Returns input (fun _ _ => True)) (ask op) s := by
  intro t hb hst
  refine ⟨hallowed t hb hst, fun w _ => ?_⟩
  cases hr : (exec sha256 op w t).1 with
  | ok _ => exact trivial
  | error e => exact unavailing_of_unavailable input e _ (exec_error sha256 op w t e hr)

/-- A job that was read as completed, or whose batch said so, is done. -/
theorem inactive_of_completed (db : MaterializationDb) (h : Consistent db)
    (j : MaterializationJobRow) (hj : j ∈ db.jobs) (hid : j.id = input.jobId)
    (hdone : j.status = .completed) : Inactive input db := by
  intro j' hj' hid'
  have hsame : j' = j := List.inj_on_of_nodup_map h.jobIds hj' hj (hid'.trans hid.symm)
  rw [hsame, hdone]
  rfl

/-- What the batch returned as completed is completed. -/
theorem publish_inactive (job : JobRow) (hid : job.job.id = input.jobId) (digest : String)
    (now : Nat) (w : Outcome) (s : MaterializationState) (hb : Building sha256 input s₁ s)
    (hk : Known job s.db) (results : List (List String))
    (hok : (exec sha256 (.publish job digest now) w s).1 = .ok results)
    (hreturned : returned results 2 job.job.id = true) :
    Inactive input (exec sha256 (.publish job digest now) w s).2.db := by
  have hconsistent := (exec_persist sha256 (.publish job digest now) w s hb.consistent hk).consistent
  have heffect := send_ok JobError.other w _ s _ hok
  have hbatch := publishBatch_effect job digest now s.db hb.consistent hk
  rcases onDb_ok _ _ s _ _ heffect with ⟨rs, db, hrun, rfl, hdb⟩
  by_cases hclock : ClockAllows job now s.db
  · rcases hbatch.1 hclock with ⟨db', hrun', he⟩
    have hsame := hrun.symm.trans hrun'
    rw [Batch.ok_inj] at hsame
    rw [hsame.1, returned, publishResults, decide_eq_true_eq, List.getElem?_cons_succ,
      List.getElem?_cons_succ, List.getElem?_cons_zero, Option.bind_some] at hreturned
    have hmem := List.mem_of_head? hreturned
    rcases List.mem_map.mp hmem with ⟨j, hj, hjid⟩
    rw [List.mem_filter] at hj
    have hupdated := Table.update_mem (completes job) (completedRow now) s.db.jobs j hj.1
    rw [if_pos hj.2, ← he.jobs, ← hsame.2] at hupdated
    refine inactive_of_completed _ hconsistent (completedRow now j) ?_ (hjid.trans hid) rfl
    rw [exec, hdb]
    exact hupdated
  · rcases hbatch.2 hclock with ⟨e, herror⟩
    rw [herror] at hrun
    cases hrun

/-- Whoever completed the job, it is done. -/
theorem confirmPublished_meets (job : JobRow) (hid : job.job.id = input.jobId)
    (published : List (List String)) (s : MaterializationState)
    (hs : returned published 2 job.job.id = true → Inactive input s.db) :
    MeetsBuilding sha256 input s₁ (Returns input (fun _ t => Inactive input t.db))
      (confirmPublished job published) s := by
  unfold confirmPublished
  split
  · next hboth => exact hs hboth.2
  · refine returns_ask sha256 (.readJobRow job.job.id) _ s (fun _ _ _ => ⟨trivial, trivial⟩)
      (fun t w current hb _ hcurrent => ?_)
    have hread := send_ok JobError.other w _ t _ hcurrent
    rw [effect, reading, Batch.ok_inj] at hread
    split
    · next hcompleted =>
      rw [← hread.1, Option.map_eq_some_iff] at hcompleted
      rcases hcompleted with ⟨row, hrow, hdone⟩
      have hfound := jobRowOf_known t.db job.job.id row hrow
      have hinactive := inactive_of_completed t.db hb.consistent row.job hfound.1
        (hfound.2.1.trans hid) hdone
      rw [hread.2] at hinactive
      exact hinactive
    · exact unavailing_of_unavailable input _ _ rfl

/-- The staged object is deleted once the job is done. -/
theorem deleteStaged_meets (job : JobRow) (now : Nat) (s : MaterializationState)
    (hs : Inactive input s.db) :
    MeetsBuilding sha256 input s₁ (Returns input (fun _ _ => True)) (deleteStaged job now) s := by
  intro t _ hst
  refine ⟨⟨trivial, fun _ => hst.inactive hs⟩, fun w _ => ?_⟩
  cases (exec sha256 (.deleteObject job.job.stagingObjectKey) w t).1 with
  | ok _ => exact trivial
  | error e =>
      exact returns_last sha256 (.queueObject job.job.stagingObjectKey now) _
        (fun _ _ _ => ⟨trivial, trivial⟩)

theorem OwnJob.id {job : JobRow} (h : OwnJob input job) : job.job.id = input.jobId :=
  sameJob MaterializationJobRow.id (fun _ => rfl) h.row

/-- A job is published only once all rows of its snapshot are there. -/
theorem finalizeJob_meets (hc : Created input s₁) (hfit : Fit u input.snapshot) (now : Nat)
    (job : JobRow) (s : MaterializationState) (hread : Reading input job s) :
    MeetsBuilding sha256 input s₁ (Returns input (fun _ _ => True))
      (finalizeJob sha256 job now) s := by
  have hgeneration : job.job.generationId = input.generationId :=
    sameJob MaterializationJobRow.generationId (fun _ => rfl) hread.own.row
  have hvault : job.job.vaultId = input.vaultId :=
    sameJob MaterializationJobRow.vaultId (fun _ => rfl) hread.own.row
  have hmanifest : job.generation.manifestKey = input.manifestKey :=
    sameGeneration GenerationRow.manifestKey (fun _ => rfl) hread.own.generation
  have hkeys : job.generation.manifestKey ≠ input.stagingObjectKey := by
    rw [hmanifest, CreateInput.manifestKey, CreateInput.stagingObjectKey]
    exact append_ne _ _ "/manifest.json" ".bin" (by decide) (by decide)
  unfold finalizeJob
  refine returns_ask sha256 (.readNotes job.job.generationId job.job.vaultId) _ s
    (fun _ _ _ => ⟨trivial, trivial⟩) (fun t w notes hb hst hnotes => ?_)
  have hanswer := send_ok JobError.other w _ t _ hnotes
  rw [effect, reading, Batch.ok_inj] at hanswer
  have hsame : (exec sha256 (.readNotes job.job.generationId job.job.vaultId) w t).2 = t :=
    hanswer.2.symm
  rw [hsame]
  split
  · exact unavailing_of_unavailable input _ t rfl
  · next hcounts =>
    push Not at hcounts
    have hfull : Full sha256 input t.db := by
      refine full_of_count sha256 t hb ?_
      rw [← hgeneration, ← hvault, hanswer.1, hcounts.1, hread.own.totalNoteCount]
    have hknown := (hread.progress hst).known
    have hput : ∀ manifest, MeetsBuilding sha256 input s₁ (Returns input (fun _ _ => True))
        (ask (.putImmutableManifest job.generation.manifestKey manifest)) t :=
      fun manifest => returns_last sha256 _ t (fun _ _ _ => ⟨trivial, hkeys⟩)
    refine returns_bind_keeping u sha256 hc hfit
      (fun s => Known job s.db ∧ Full sha256 input s.db)
      (fun s t hs hp => ⟨known_persist job s.db t.db hp.persist hs.1, hs.2.progress hp⟩) _ _ t
      ⟨hknown, hfull⟩ (hput _) ?_
    rintro - t₂ - ⟨hknown₂, hfull₂⟩
    have hallowed : ∀ digest t₃, Progress input t₂ t₃ →
        BuildingAllowed sha256 input (.publish job digest now) t₃ := fun digest t₃ hp =>
      ⟨known_persist job t₂.db t₃.db hp.persist hknown₂, fun _ => hfull₂.progress hp⟩
    refine returns_ask sha256 _ _ t₂ (fun t₃ _ hp => hallowed _ t₃ hp)
      (fun t₃ w₃ published hb₃ hp hpublished => ?_)
    refine returns_bind sha256 _ _ _ (confirmPublished_meets sha256 job hread.own.id published _
      (fun hreturned => publish_inactive sha256 job hread.own.id _ now w₃ t₃ hb₃
        (known_persist job t₂.db t₃.db hp.persist hknown₂) published hpublished hreturned)) ?_
    intro _ t₄ hinactive
    exact deleteStaged_meets sha256 job now t₄ hinactive

/-- A call publishes the job once its cursor is at the end of the staged
    object, which is where it is after the last note. -/
theorem finalizeWhenDone_meets (hc : Created input s₁) (hfit : Fit u input.snapshot) (now : Nat)
    (job : JobRow) (s : MaterializationState) (hread : Reading input job s) :
    MeetsBuilding sha256 input s₁ (Returns input (fun _ _ => True))
      (finalizeWhenDone sha256 now job) s := by
  unfold finalizeWhenDone
  split
  · next hall =>
    split
    · next hend =>
      rcases hread.place with ⟨k, -, hoffset, hprocessed⟩ | ⟨-, hinactive⟩
      · have hk : k = input.snapshot.notes.length := by
          rw [← hprocessed, hall, hread.own.totalNoteCount]
        rw [hoffset, hk, offsetOf_length, hread.own.stagingObjectBytes] at hend
        exact absurd rfl hend
      · exact fun _ => hinactive
    · exact finalizeJob_meets u sha256 hc hfit now job s hread
  · exact trivial

theorem Unavailing.progress {e : JobError} {s t : MaterializationState}
    (h : Unavailing input e s) (hp : Progress input s t) : Unavailing input e t :=
  fun hne => hp.inactive (h hne)

/-- A job is failed for good only where a service was not available for too
    long, or where it is done. -/
theorem recoverJob_meets (hc : Created input s₁) (hfit : Fit u input.snapshot) (job : JobRow)
    (now : Nat) (error : JobError) (s : MaterializationState) (hs : Unavailing input error s) :
    MeetsBuilding sha256 input s₁ (fun _ _ => True) (recoverJob job now error) s := by
  refine meets_request (MaterializationOp.countAttempt job.job.id now) _ s (fun t hb hst =>
    ⟨⟨trivial, trivial⟩, fun w _ => ⟨fun attempt _ => ?_, fun _ _ => trivial⟩⟩)
  have hcounted := (exec_building sha256 input s₁ t hc hfit.snapshotted.distinctKeys hb
    (.countAttempt job.job.id now) w ⟨trivial, trivial⟩).2
  have hafter := (hs.progress hst).progress hcounted
  split
  · intro t' _ hst'
    refine ⟨⟨trivial, fun _ hcode => hafter.progress hst' hcode⟩, fun w' _ => ?_⟩
    cases (exec sha256 (.failJob job error.code now) w' t').1 with
    | ok _ => exact trivial
    | error _ => exact trivial
  · exact trivial

/-- What a call does with the job, from wherever it has read it. -/
theorem continueOwn_meets (hc : Created input s₁) (hfit : Fit u input.snapshot) (now : Nat)
    (job : JobRow) (s : MaterializationState) (hread : Reading input job s) :
    MeetsBuilding sha256 input s₁ (fun _ _ => True)
      (continueJob u sha256 job.job.vaultId now job) s := by
  refine meets_tryCatch _ _ s (meets_mono (fun _ _ h => h) ?_ _ s
    (returns_bind sha256 _ _ s (projectNext_meets u sha256 hc hfit now job s hread)
      (fun job' t hread' => finalizeWhenDone_meets u sha256 hc hfit now job' t hread')))
  intro r t hr
  cases r with
  | ok _ => exact trivial
  | error e => exact recoverJob_meets u sha256 hc hfit job now e t hr

/-- The job as a call finds it. -/
theorem reading_of_read (hc : Created input s₁) (s : MaterializationState)
    (hb : Building sha256 input s₁ s) (job : JobRow)
    (hrow : jobRowOf s.db job.job.id = some job) (hid : job.job.id = input.jobId) :
    Reading input job s := by
  have hfound := jobRowOf_known s.db job.job.id job hrow
  have hsame := building_identity sha256 input s₁ s hc hb job.job hfound.1 hid
  have hgeneration : job.job.generationId = input.generationId :=
    sameJob MaterializationJobRow.generationId (fun _ => rfl) hsame
  refine ⟨⟨⟨job.job, hfound.1, rfl⟩, job.generation, hfound.2.2, rfl⟩, ⟨hsame, ?_⟩, ?_⟩
  · have hg := Table.mem_of_find? GenerationRow.id s.db.generations _ _ hfound.2.2
    have hmem : job.generation.identity ∈ s₁.db.generations.map GenerationRow.identity := by
      rw [← hb.generations]
      exact List.mem_map_of_mem hg.1
    rcases List.mem_map.mp hmem with ⟨g, hg₁, heq⟩
    have hgid : g.id = job.generation.id :=
      sameGeneration GenerationRow.id (fun _ => rfl) heq
    have hone : g = createdGeneration input :=
      List.inj_on_of_nodup_map hc.consistent.generationIds hg₁ hc.generation
        ((hgid.trans hg.2).trans hgeneration)
    rw [← heq, hone]
  · rcases (hb.fine job.job hfound.1 hid).cursor with hcursor | ⟨hdone, hall⟩
    · exact Or.inl hcursor
    · exact Or.inr ⟨hall, inactive_of_completed s.db hb.consistent job.job hfound.1 hid hdone⟩

/-! ## Other jobs -/

/-- What working on a job asks for: what concerns it, and no object but its
    own. -/
def Minds (job : JobRow) (op : MaterializationOp) : Prop :=
  Concerns job op ∧
    match op with
    | .createJob _ | .putStaging _ _ => False
    | .putNoteObject note => ∃ stem, note.r2Key = stem ++ ".md"
    | .putImmutableManifest key _ => key = job.generation.manifestKey
    | .deleteObject key => key = job.job.stagingObjectKey
    | .failJob job' _ _ => job' = job
    | _ => True

theorem minds_serves (job : JobRow) : Serves (Minds job) job :=
  { getRange := fun _ _ _ => ⟨trivial, trivial⟩
    putNoteObject := fun _ stem hkey => ⟨trivial, stem, hkey⟩
    projectNotes := fun _ _ _ _ _ hsame => ⟨⟨hsame, rfl⟩, trivial⟩
    readNotes := fun _ _ => ⟨trivial, trivial⟩
    putImmutableManifest := fun _ => ⟨trivial, rfl⟩
    publish := fun _ _ _ hsame => ⟨hsame, trivial⟩
    readJobRow := fun _ => ⟨trivial, trivial⟩
    deleteObject := ⟨trivial, rfl⟩
    queueObject := fun _ _ => ⟨trivial, trivial⟩
    countAttempt := fun _ _ => ⟨trivial, trivial⟩
    failJob := fun _ _ => ⟨trivial, rfl⟩ }

/-- What another job asks for leaves this one alone. -/
theorem minds_allowed (hc : Created input s₁) (job : JobRow) (hid : job.job.id ≠ input.jobId)
    (op : MaterializationOp) (s : MaterializationState) (hb : Building sha256 input s₁ s)
    (hk : Known job s.db) (h : Minds job op) : BuildingAllowed sha256 input op s := by
  refine ⟨concerns_allowed job op s hk h.1, ?_⟩
  have hother : ∀ job', SameJob job' job → job'.job.id ≠ input.jobId := by
    intro job' hsame
    have hsameId : job'.job.id = job.job.id :=
      sameJob MaterializationJobRow.id (fun _ => rfl) hsame.1
    rw [hsameId]
    exact hid
  cases op with
  | createJob input' => exact h.2
  | putStaging key bytes => exact h.2
  | putNoteObject note =>
      rcases h.2 with ⟨stem, hkey⟩
      change note.r2Key ≠ _
      rw [hkey, CreateInput.stagingObjectKey]
      exact append_ne _ _ ".md" ".bin" (by decide) (by decide)
  | putImmutableManifest key bytes =>
      rcases hk.2 with ⟨g, hg, heq⟩
      have hmem : g.identity ∈ s₁.db.generations.map GenerationRow.identity := by
        rw [← hb.generations]
        exact List.mem_map_of_mem (Table.mem_of_find? GenerationRow.id s.db.generations _ g hg).1
      rcases List.mem_map.mp hmem with ⟨g₁, hg₁, heq₁⟩
      have hkey : g₁.manifestKey = key :=
        (sameGeneration GenerationRow.manifestKey (fun _ => rfl) (heq₁.trans heq)).trans h.2.symm
      exact hkey ▸ hc.manifestKeys g₁ hg₁
  | deleteObject key =>
      intro hkey
      rcases known_job job s.db hk with ⟨j, hj, hjid, -, hstaging⟩
      have hown := building_unique sha256 input s₁ s hc hb j hj
        (Or.inr ((hstaging.trans h.2.symm).trans hkey))
      exact absurd (hjid.symm.trans hown) hid
  | projectNotes job' vaultId notes nextOffset processed now =>
      exact fun hown => absurd hown (hother job' h.1.1)
  | publish job' digest now => exact fun hown => absurd hown (hother job' h.1)
  | failJob job' code now =>
      intro hown
      rw [h.2] at hown
      exact absurd hown hid
  | _ => exact trivial

/-- What a call does with any job, from wherever it has read it. -/
theorem continueJob_meets (hc : Created input s₁) (hfit : Fit u input.snapshot) (now : Nat)
    (job : JobRow) (s : MaterializationState) (hb : Building sha256 input s₁ s)
    (hrow : jobRowOf s.db job.job.id = some job) :
    MeetsBuilding sha256 input s₁ (fun _ _ => True)
      (continueJob u sha256 job.job.vaultId now job) s := by
  by_cases hid : job.job.id = input.jobId
  · exact continueOwn_meets u sha256 hc hfit now job s
      (reading_of_read sha256 hc s hb job hrow hid)
  · have hfound := jobRowOf_known s.db job.job.id job hrow
    have hknown : Known job s.db := ⟨⟨job.job, hfound.1, rfl⟩, job.generation, hfound.2.2, rfl⟩
    refine meets_of_within (A := Minds job) (T := fun _ => True)
      (fun s => Known job s.db)
      (fun s t hk hst => known_persist job s.db t.db hst.persist hk) ?_
      (fun op t ht hk hop => minds_allowed sha256 hc job hid op t ht hk hop)
      (fun _ _ _ => trivial) _ s hknown
      (within_continueJob u sha256 now job (minds_serves job))
    exact fun op w t ht hop _ hk => known_persist job t.db _
      (exec_persist sha256 op w t ht.consistent hop.1) hk

end Completion

end Mdevolved.Materialization
