import Mdevolved.Lib.Collector
import Mdevolved.Lib.Watched
import Mdevolved.Materialization.Projection
import Mdevolved.Materialization.Retention

/-!
# Collecting Note Objects

A job finds the object of a note, or writes it, and projects the row that names
it with a later request. A collection sees that no row names an object, and
deletes it with a later request. Both may be at work on one object: contents are
shared, so an object that was queued when its last row went may be found again by
a job that is about to name it.

Here each call is watched for the objects it has in hand, and `apart` is the
condition that no collection deletes an object that a job has found and is about
to name, and that no job names one that a collection has found unnamed and is
about to delete. Under it every row has its object, in every state.

## Main definitions

* `NoteKey`, `StagingKey`: The keys of notes' objects and of staged ones.
* `sees`: What a call has in hand after an answer.
* `view`: The library as objects, writers and collectors.
* `apart`: A request that does not come between what another call saw and does.
* `LibraryBacked`: The notes of the generations that are read have their objects.

## Theorems

* `effect_quiet`: Requests that leave the notes and their objects alone.
* `request_kept`: Every request keeps objects that are named or in hand.
* `writeNoteObjects_holds`, `collectObject_holds`: What calls have in hand.
* `library_backed`: When the notes that are read have their objects.
* `collectedBetween_unbacked`: A run that leaves a note without its object.
-/

namespace Mdevolved.Materialization

open Mdevolved.Vault Batch

/-! ## Keys -/

def NoteKey (key : String) : Prop := ∃ stem, key = stem ++ ".md"

def StagingKey (key : String) : Prop := ∃ stem, key = stem ++ ".bin"

theorem StagingKey.ne {key key' : String} (h : StagingKey key) (h' : NoteKey key') : key ≠ key' := by
  rcases h with ⟨stem, rfl⟩
  rcases h' with ⟨stem', rfl⟩
  exact append_ne stem stem' ".bin" ".md" (by decide) (by decide)

/-! ## Requests that leave notes alone -/

/-- The notes are left alone, and the objects of jobs are still staged ones. -/
structure QuietDb (db db' : MaterializationDb) : Prop where
  notes : db'.notes = db.notes
  jobs : (∀ j ∈ db.jobs, StagingKey j.stagingObjectKey) →
    ∀ j ∈ db'.jobs, StagingKey j.stagingObjectKey

theorem QuietDb.refl (db : MaterializationDb) : QuietDb db db := ⟨rfl, id⟩

theorem QuietDb.trans {db db' db'' : MaterializationDb} (h : QuietDb db db')
    (h' : QuietDb db' db'') : QuietDb db db'' :=
  ⟨h'.notes.trans h.notes, fun hjobs => h'.jobs (h.jobs hjobs)⟩

/-- A statement about other tables. -/
theorem quiet_of_eq (db db' db'' : MaterializationDb) (r r' : List String)
    (hrun : (.ok (r, db'') : Except D1Error _) = .ok (r', db')) (hnotes : db''.notes = db.notes)
    (hjobs : db''.jobs = db.jobs) : QuietDb db db' := by
  rw [Batch.ok_inj] at hrun
  rw [← hrun.2]
  exact ⟨hnotes, by rw [hjobs]; exact id⟩

theorem updateJobs_quiet (p : MaterializationJobRow → Bool)
    (f : MaterializationJobRow → MaterializationJobRow) (db db' : MaterializationDb)
    (ids : List String) (h : updateJobs p f db = .ok (ids, db'))
    (hf : ∀ j, (f j).stagingObjectKey = j.stagingObjectKey) : QuietDb db db' := by
  rw [(updateJobs_ok p f db db' ids h).2]
  refine ⟨rfl, fun hjobs j hj => ?_⟩
  rcases Table.mem_update p f db.jobs j hj with ⟨j', hj', ⟨-, rfl⟩ | ⟨-, rfl⟩⟩
  · rw [hf]
    exact hjobs j' hj'
  · exact hjobs _ hj'

theorem batch_quiet (qs : List D1Statement)
    (hq : ∀ q ∈ qs, ∀ db db' r, q db = .ok (r, db') → QuietDb db db')
    (db db' : MaterializationDb) (rs : List (List String))
    (hrun : Batch.run qs db = .ok (rs, db')) : QuietDb db db' := by
  refine Batch.run_keeps (fun t => QuietDb db t) qs ?_ db db' rs hrun (QuietDb.refl db)
  intro q hmem t r t' hstep hsofar
  exact hsofar.trans (hq q hmem t t' r hstep)

theorem claimStatement_quiet (vaultId : String) (now : Nat) (db db' : MaterializationDb)
    (ids : List String) (h : claimStatement vaultId now db = .ok (ids, db')) : QuietDb db db' := by
  rcases claimStatement_ok vaultId now db db' ids h with ⟨-, rfl⟩ | ⟨job, -, -, -, hupdate⟩
  · exact QuietDb.refl db'
  · exact updateJobs_quiet _ _ db db' ids hupdate (fun _ => rfl)

theorem failBatch_quiet (job : JobRow) (code : FailureCode) (now : Nat)
    (db db' : MaterializationDb) (rs : List (List String))
    (h : Batch.run (failBatch job code now) db = .ok (rs, db')) : QuietDb db db' := by
  refine batch_quiet _ ?_ db db' rs h
  intro q hq d d' r hstep
  simp only [failBatch, List.mem_cons, List.not_mem_nil, or_false] at hq
  rcases hq with rfl | rfl | rfl | rfl
  · exact quiet_of_eq d d' _ _ r hstep rfl rfl
  · exact updateJobs_quiet _ _ d d' r hstep (fun _ => rfl)
  · exact quiet_of_eq d d' _ _ r hstep rfl rfl
  · exact quiet_of_eq d d' _ _ r hstep rfl rfl

theorem publishBatch_quiet (job : JobRow) (manifestSha256 : String) (now : Nat)
    (db db' : MaterializationDb) (rs : List (List String))
    (h : Batch.run (publishBatch job manifestSha256 now) db = .ok (rs, db')) : QuietDb db db' := by
  refine batch_quiet _ ?_ db db' rs h
  intro q hq d d' r hstep
  simp only [publishBatch, List.mem_cons, List.not_mem_nil, or_false] at hq
  rcases hq with rfl | rfl | rfl | rfl | rfl | rfl
  · exact quiet_of_eq d d' _ _ r hstep rfl rfl
  · unfold setCurrent at hstep
    split at hstep
    · split at hstep
      · split at hstep
        · cases hstep
        · exact quiet_of_eq d d' _ _ r hstep rfl rfl
      · exact quiet_of_eq d d' _ _ r hstep rfl rfl
    · exact quiet_of_eq d d' _ _ r hstep rfl rfl
  · exact updateJobs_quiet _ _ d d' r hstep (fun _ => rfl)
  · unfold auditCompleted at hstep
    split at hstep
    · exact quiet_of_eq d d' _ _ r hstep rfl rfl
    · exact quiet_of_eq d d' _ _ r hstep rfl rfl
  · exact quiet_of_eq d d' _ _ r hstep rfl rfl
  · exact quiet_of_eq d d' _ _ r hstep rfl rfl

theorem createBatch_quiet (input : CreateInput) (db db' : MaterializationDb)
    (rs : List (List String)) (h : Batch.run (createBatch input) db = .ok (rs, db')) :
    QuietDb db db' := by
  refine batch_quiet _ ?_ db db' rs h
  intro q hq d d' r hstep
  simp only [createBatch, List.mem_cons, List.not_mem_nil, or_false] at hq
  rcases hq with rfl | rfl | rfl | rfl | rfl
  · exact quiet_of_eq d d' _ _ r hstep rfl rfl
  · exact quiet_of_eq d d' _ _ r hstep rfl rfl
  · exact updateJobs_quiet _ _ d d' r hstep (fun _ => rfl)
  · unfold insertGeneration at hstep
    split at hstep
    · split at hstep
      · cases hstep
      · exact quiet_of_eq d d' _ _ r hstep rfl rfl
    · exact quiet_of_eq d d' _ _ r hstep rfl rfl
  · -- The only statement that adds a job.
    unfold insertJob at hstep
    split at hstep
    · exact quiet_of_eq d d' _ _ r hstep rfl rfl
    · split at hstep
      · split at hstep
        · cases hstep
        · next jobs hinsert =>
          rw [Batch.ok_inj] at hstep
          rw [← hstep.2]
          refine ⟨rfl, fun hjobs j hj => ?_⟩
          rw [((Table.insert_eq_some _ _ _ _).mp hinsert).2] at hj
          rcases List.mem_append.mp hj with hold | hnew
          · exact hjobs j hold
          · rw [List.mem_singleton.mp hnew]
            exact ⟨"vaults/" ++ input.vaultId ++ "/materialization-staging/" ++ input.jobId, rfl⟩
      · exact quiet_of_eq d d' _ _ r hstep rfl rfl

/-- The notes and their objects are left alone. -/
structure Quiet (s t : MaterializationState) : Prop extends QuietDb s.db t.db where
  objects : ∀ key, NoteKey key → (s.objects key).isSome → (t.objects key).isSome

/-- A request that is not about notes. -/
def Harmless : MaterializationOp → Prop
  | .projectNotes _ _ _ _ _ _ | .putNoteObject _ => False
  | .deleteObject key => StagingKey key
  | _ => True

theorem effect_quiet (sha256 : List UInt8 → String) (op : MaterializationOp) (hop : Harmless op)
    (s t : MaterializationState) (r : op.Ret) (heffect : effect sha256 s op = .ok (r, t)) :
    Quiet s t := by
  have hread : ∀ {α : Type} (f : MaterializationState → α) (a : α),
      reading f s = .ok (a, t) → Quiet s t := by
    intro α f a hf
    rw [reading, Batch.ok_inj] at hf
    rw [← hf.2]
    exact ⟨QuietDb.refl s.db, fun _ _ => id⟩
  have hstore : ∀ {α : Type} (a a' : α) (objects : String → Option (List UInt8)),
      (∀ key, NoteKey key → (s.objects key).isSome → (objects key).isSome) →
      storing a objects s = .ok (a', t) → Quiet s t := by
    intro α a a' objects hobjects hf
    rw [storing, Batch.ok_inj] at hf
    rw [← hf.2]
    exact ⟨QuietDb.refl s.db, hobjects⟩
  have hput : ∀ (key : String) (bytes : List UInt8), ∀ key', NoteKey key' →
      (s.objects key').isSome → (Function.update s.objects key (some bytes) key').isSome := by
    intro key bytes key' _ hthere
    by_cases hkey : key' = key
    · rw [hkey, Function.update_self]
      rfl
    · rw [Function.update_of_ne hkey]
      exact hthere
  have hdb : ∀ {ρ α : Type} (q : MaterializationDb → Except D1Error (ρ × MaterializationDb))
      (answer : ρ → MaterializationDb → α) (a : α), onDb q answer s = .ok (a, t) →
      (∀ x db, q s.db = .ok (x, db) → QuietDb s.db db) → Quiet s t := by
    intro ρ α q answer a hf hq
    rcases onDb_ok q answer s t a hf with ⟨x, db, hrun, -, rfl⟩
    exact ⟨hq x db hrun, fun _ _ => id⟩
  cases op with
  | readJobRow _ | readPublished _ _ | readCurrentForSource _ _ | readActiveForSource _ _
  | hasActiveJobs _ | readNotes _ _ | getRange _ _ _ =>
      rw [effect] at heffect
      exact hread _ r heffect
  | claimJob vaultId now =>
      rw [effect] at heffect
      exact hdb _ _ r heffect (fun ids db => claimStatement_quiet vaultId now s.db db ids)
  | projectNotes job vaultId notes nextOffset processed now => exact hop.elim
  | publish job digest now =>
      rw [effect] at heffect
      exact hdb _ _ r heffect (fun rs db => publishBatch_quiet job digest now s.db db rs)
  | countAttempt jobId now =>
      rw [effect] at heffect
      exact hdb _ _ r heffect (fun ids db hq =>
        updateJobs_quiet _ _ s.db db ids hq (fun _ => rfl))
  | failJob job code now =>
      rw [effect] at heffect
      exact hdb _ _ r heffect (fun rs db => failBatch_quiet job _ now s.db db rs)
  | createJob input =>
      rw [effect] at heffect
      exact hdb _ _ r heffect (fun rs db => createBatch_quiet input s.db db rs)
  | queueObject key now =>
      rw [effect] at heffect
      exact hdb _ _ r heffect (fun x db hq => quiet_of_eq s.db db _ _ x hq rfl rfl)
  | putStaging key bytes =>
      rw [effect] at heffect
      exact hstore _ r _ (hput key bytes) heffect
  | putNoteObject note => exact hop.elim
  | putImmutableManifest key bytes =>
      rw [effect] at heffect
      split at heffect
      · exact hstore _ r _ (hput key bytes) heffect
      · split at heffect
        · rw [Batch.ok_inj] at heffect
          rw [← heffect.2]
          exact ⟨QuietDb.refl s.db, fun _ _ => id⟩
        · cases heffect
  | deleteObject key =>
      rw [effect] at heffect
      refine hstore _ r _ (fun key' hnote hthere => ?_) heffect
      have hne : key' ≠ key := (StagingKey.ne hop hnote).symm
      rw [Function.update_of_ne hne]
      exact hthere
  | setVaultStatus _ _ | recordSyncState _ =>
      rw [effect] at heffect
      refine hdb _ _ r heffect (fun x db hq => ?_)
      rw [Batch.ok_inj] at hq
      exact hq.2 ▸ ⟨rfl, id⟩

/-! ## Projecting notes -/

/-- Projecting notes names their objects and no others. -/
theorem projectBatch_keys (job : JobRow) (vaultId : String) (notes : List PreparedNote)
    (nextOffset processed now : Nat) (db db' : MaterializationDb) (rs : List (List String))
    (h : Batch.run (projectBatch job vaultId notes nextOffset processed now) db = .ok (rs, db')) :
    (∀ n ∈ db'.notes, (∃ n' ∈ db.notes, n'.r2Key = n.r2Key) ∨
        n.r2Key ∈ notes.map PreparedNote.r2Key) ∧
      ((∀ j ∈ db.jobs, StagingKey j.stagingObjectKey) →
        ∀ j ∈ db'.jobs, StagingKey j.stagingObjectKey) := by
  rcases Batch.run_append_ok h with ⟨t, rs₁, rs₂, hnotes, hprogress, -⟩
  have ht := projectionStatements_ok _ _ _ db t rs₁ hnotes
  have hquiet : QuietDb t db' := by
    refine batch_quiet _ ?_ t db' rs₂ hprogress
    intro q hq d d' r hstep
    rw [List.mem_singleton.mp hq] at hstep
    exact updateJobs_quiet _ _ d d' r hstep (fun _ => rfl)
  constructor
  · intro n hn
    rw [hquiet.notes, ht] at hn
    -- Row by row, a key is one there was or that of a projected note.
    have hrows : ∀ (new : List PreparedNote) (rows : List NoteRow), new ⊆ notes →
        (∀ n ∈ rows, (∃ n' ∈ db.notes, n'.r2Key = n.r2Key) ∨
          n.r2Key ∈ notes.map PreparedNote.r2Key) →
        ∀ n ∈ new.foldl (fun rows p => upsertRow rows (noteRow job.job.generationId vaultId p)) rows,
          (∃ n' ∈ db.notes, n'.r2Key = n.r2Key) ∨ n.r2Key ∈ notes.map PreparedNote.r2Key := by
      intro new
      induction new with
      | nil => exact fun rows _ hrows => hrows
      | cons p new ih =>
          intro rows hnew hrows
          have hp : p.r2Key ∈ notes.map PreparedNote.r2Key :=
            List.mem_map_of_mem (hnew List.mem_cons_self)
          refine ih _ (fun q hq => hnew (List.mem_cons_of_mem _ hq)) ?_
          exact Table.upsert_forall _ _ rows _ _ hrows (Or.inr hp) (fun _ _ _ => Or.inr hp)
    exact hrows notes db.notes (List.Subset.refl _) (fun n hn => Or.inl ⟨n, hn, rfl⟩) n hn
  · intro hjobs
    refine hquiet.jobs ?_
    rw [ht]
    exact hjobs

/-- Once it is written, the object of a note is there, and so are those that were. -/
theorem withNoteObject_isSome (sha256 : List UInt8 → String) (note : PreparedNote)
    (objects : String → Option (List UInt8)) (key : String)
    (h : key = note.r2Key ∨ (objects key).isSome) :
    (withNoteObject sha256 note objects key).isSome := by
  unfold withNoteObject
  split
  · next hthere =>
    rcases h with rfl | hold
    · rcases hobject : objects note.r2Key with _ | object
      · rw [hobject] at hthere
        cases hthere
      · rfl
    · exact hold
  · by_cases hkey : key = note.r2Key
    · rw [hkey, Function.update_self]
      rfl
    · rw [Function.update_of_ne hkey]
      exact h.resolve_left hkey

/-! ## What is in hand -/

/-- What a call has in hand after an answer: a job the objects it found or wrote since
    it last projected or gave up, a collection the object it found unnamed. -/
def sees (op : LibraryOp) (r : Except JobError op.Ret) (m : Collector.Sight String) :
    Collector.Sight String :=
  match op, r with
  | .job (.putNoteObject note), .ok _ => { m with held := note.r2Key :: m.held }
  | .job (.projectNotes _ _ _ _ _ _), _ => { m with held := [] }
  | .job (.countAttempt _ _), _ => { m with held := [] }
  | .readReferenced key, .ok referenced => { m with doomed := if referenced then [] else [key] }
  | .deleteObject _, _ => { m with doomed := [] }
  | _, _ => m

/-- The library and what each call has in hand. -/
abbrev Watching (ι : Type) : Type := LibraryState × (ι → Collector.Sight String)

/-- The library as objects, writers and collectors. -/
def view {ι : Type} (s : Watching ι) : Collector.Store ι ι String :=
  Collector.ofSights {key | NoteKey key ∧ (s.1.store.objects key).isSome}
    {key | ∃ n ∈ s.1.store.db.notes, n.r2Key = key} s.2

/-- The objects a request names. -/
def LibraryOp.names : LibraryOp → List String
  | .job (.projectNotes _ _ notes _ _ _) => notes.map PreparedNote.r2Key
  | _ => []

/-- The objects a collection deletes with a request. -/
def LibraryOp.removes : LibraryOp → List String
  | .deleteObject key => [key]
  | _ => []

/-- A request that goes through names nothing that a collection is about to delete,
    and deletes nothing that a job has in hand. -/
def apart {ι : Type} (_ : ι) (op : LibraryOp) (w : Outcome) (s : Watching ι) : Prop :=
  w = .refused ∨ ∀ j, (∀ key ∈ op.names, key ∉ (s.2 j).doomed) ∧
    ∀ key ∈ op.removes, key ∉ (s.2 j).held

instance {ι : Type} [Fintype ι] (i : ι) (op : LibraryOp) (w : Outcome) (s : Watching ι) :
    Decidable (apart i op w s) :=
  inferInstanceAs (Decidable (_ ∨ _))

/-- What the calls see to themselves. -/
def Holds {ι : Type} (i : ι) (op : LibraryOp) (s : Watching ι) : Prop :=
  match op with
  | .job (.putNoteObject note) => NoteKey note.r2Key
  | .job (.projectNotes _ _ notes _ _ _) => ∀ n ∈ notes, n.r2Key ∈ (s.2 i).held
  | .job (.deleteObject key) => StagingKey key
  | .deleteObject key => key ∈ (s.2 i).doomed
  | _ => True

/-- What is named or in hand is there, and jobs have staged objects. -/
structure Kept {ι : Type} (s : Watching ι) : Prop where
  intact : Collector.Intact (view s)
  jobs : ∀ j ∈ s.1.store.db.jobs, StagingKey j.stagingObjectKey

section Requests

variable {ι : Type} [DecidableEq ι]

section

variable (sha256 : List UInt8 → String) (s : Watching ι) (i : ι)

/-- A request that comes to less than an event keeps what the event does. -/
theorem kept_event (t : LibraryState) (i : ι) (m : Collector.Sight String)
    (h : Kept s) (e : Collector.Event ι ι String) (hallowed : Collector.Allowed (view s) e)
    (hapart : Collector.Apart (view s) e)
    (hwithin : Collector.Within (view (t, Function.update s.2 i m)) (Collector.step (view s) e))
    (hjobs : ∀ j ∈ t.store.db.jobs, StagingKey j.stagingObjectKey) :
    Kept (t, Function.update s.2 i m) :=
  ⟨(Collector.step_intact (view s) e h.intact hallowed hapart).of_within hwithin, hjobs⟩

/-- A request that names nothing new, deletes nothing and leaves a call with no more
    in hand. -/
theorem kept_rest (t : LibraryState) (i : ι) (m : Collector.Sight String)
    (h : Kept s)
    (hnotes : ∀ n ∈ t.store.db.notes, ∃ n' ∈ s.1.store.db.notes, n'.r2Key = n.r2Key)
    (hobjects : ∀ key, NoteKey key → (s.1.store.objects key).isSome →
      (t.store.objects key).isSome)
    (hjobs : ∀ j ∈ t.store.db.jobs, StagingKey j.stagingObjectKey)
    (hheld : m.held ⊆ (s.2 i).held) (hdoomed : m.doomed ⊆ (s.2 i).doomed) :
    Kept (t, Function.update s.2 i m) := by
  refine kept_event s t i m h .rest trivial trivial ?_ hjobs
  refine Collector.within_sights _ _ _ s.2 i m ?_ ?_ hheld hdoomed
    (fun j _ => ⟨fun _ => id, fun _ => id⟩)
  · exact fun key hkey => ⟨hkey.1, hobjects key hkey.1 hkey.2⟩
  · rintro key ⟨n, hn, rfl⟩
    exact hnotes n hn

/-- A request that did not take effect. -/
theorem kept_same (m : Collector.Sight String) (h : Kept s)
    (hheld : m.held ⊆ (s.2 i).held) (hdoomed : m.doomed ⊆ (s.2 i).doomed) :
    Kept (s.1, Function.update s.2 i m) :=
  kept_rest s s.1 i m h (fun n hn => ⟨n, hn, rfl⟩) (fun _ _ => id) h.jobs hheld hdoomed

/-- A request of a job that is not about notes. -/
theorem harmless_kept (op : MaterializationOp) (w : Outcome) (h : Kept s) (hop : Harmless op) :
    Kept (Process.tracked (libraryExec sha256) sees (.job op) (i, w) s).2 := by
  have hsees : ∀ r : Except JobError op.Ret, ∀ m : Collector.Sight String,
      (sees (.job op) r m).held ⊆ m.held ∧ (sees (.job op) r m).doomed ⊆ m.doomed := by
    intro r m
    cases op with
    | projectNotes => exact hop.elim
    | putNoteObject => exact hop.elim
    | countAttempt => exact ⟨List.nil_subset _, List.Subset.refl _⟩
    | _ => exact ⟨List.Subset.refl _, List.Subset.refl _⟩
  have hquiet : Quiet s.1.store (libraryExec sha256 (.job op) w s.1).2.store := by
    refine send_keeps (fun t : LibraryState => Quiet s.1.store t.store) JobError.other w _ s.1
      (fun r t ht => ?_) ⟨QuietDb.refl _, fun _ _ => id⟩
    rw [libraryEffect] at ht
    cases heffect : effect sha256 s.1.store op with
    | error e =>
        rw [heffect] at ht
        cases ht
    | ok rt =>
        rw [heffect] at ht
        have hstore := effect_quiet sha256 op hop s.1.store rt.2 rt.1 heffect
        simp only [Except.map, Batch.ok_inj] at ht
        rw [← ht.2]
        exact hstore
  refine kept_rest s _ i _ h (fun n hn => ?_) hquiet.objects (hquiet.jobs h.jobs)
    (hsees _ _).1 (hsees _ _).2
  rw [hquiet.notes] at hn
  exact ⟨n, hn, rfl⟩

theorem putNoteObject_kept (note : PreparedNote) (w : Outcome) (h : Kept s) (hkey : NoteKey note.r2Key) :
    Kept (Process.tracked (libraryExec sha256) sees (.job (.putNoteObject note)) (i, w) s).2 := by
  have hobjects : ∀ key, NoteKey key → key = note.r2Key ∨ (s.1.store.objects key).isSome →
      (withNoteObject sha256 note s.1.store.objects key).isSome :=
    fun key _ => withNoteObject_isSome sha256 note s.1.store.objects key
  cases w with
  | refused => exact kept_same s i _ h (List.Subset.refl _) (List.Subset.refl _)
  | lost =>
      exact kept_rest s _ i _ h (fun n hn => ⟨n, hn, rfl⟩)
        (fun key hnote hthere => hobjects key hnote (Or.inr hthere)) h.jobs
        (List.Subset.refl _) (List.Subset.refl _)
  | answered =>
      refine kept_event s _ i _ h (.find i note.r2Key) trivial trivial ?_ h.jobs
      refine Collector.within_sights _ _ _ s.2 i _ ?_ (fun key hnamed => hnamed) ?_
        (fun k hk => hk) (fun j hj => ⟨fun k hk => ?_, fun k hk => hk⟩)
      · rintro key (rfl | hthere)
        · exact ⟨hkey, hobjects _ hkey (Or.inl rfl)⟩
        · exact ⟨hthere.1, hobjects key hthere.1 (Or.inr hthere.2)⟩
      · intro k hk
        simp only [Collector.step, Function.update_self]
        rcases List.mem_cons.mp hk with rfl | hold
        · exact Set.mem_insert _ _
        · exact Set.mem_insert_of_mem _ hold
      · simp only [Collector.step, Function.update_of_ne hj]
        exact hk

theorem projectNotes_kept (job : JobRow)
    (vaultId : String) (notes : List PreparedNote) (nextOffset processed now : Nat) (w : Outcome)
    (h : Kept s) (hheld : ∀ n ∈ notes, n.r2Key ∈ (s.2 i).held)
    (hapart : apart i (.job (.projectNotes job vaultId notes nextOffset processed now)) w s) :
    Kept (Process.tracked (libraryExec sha256) sees
      (.job (.projectNotes job vaultId notes nextOffset processed now)) (i, w) s).2 := by
  have hsame : Kept (s.1, Function.update s.2 i { s.2 i with held := [] }) :=
    kept_same s i _ h (List.nil_subset _) (List.Subset.refl _)
  rcases hapart with rfl | hfree
  · exact hsame
  · rcases send_cases JobError.other w (fun t => libraryEffect sha256 t
      (.job (.projectNotes job vaultId notes nextOffset processed now))) s.1 with
      hleft | ⟨r, hdone, -⟩
    · have hexec : (libraryExec sha256
          (.job (.projectNotes job vaultId notes nextOffset processed now)) w s.1).2 = s.1 := hleft
      simp only [Process.tracked, hexec]
      exact hsame
    · -- The rows that were added name what the call has in hand.
      have hexec : ∃ rs db, Batch.run (projectBatch job vaultId notes nextOffset processed now)
          s.1.store.db = .ok (rs, db) ∧ (libraryExec sha256
            (.job (.projectNotes job vaultId notes nextOffset processed now)) w s.1).2 =
          { s.1 with store := { s.1.store with db := db } } := by
        rw [libraryEffect, effect] at hdone
        cases hrun : onDb (Batch.run (projectBatch job vaultId notes nextOffset processed now))
            (fun _ _ => ()) s.1.store with
        | error e =>
            rw [hrun] at hdone
            cases hdone
        | ok rt =>
            rcases onDb_ok _ _ s.1.store rt.2 rt.1 hrun with ⟨rs, db, hbatch, -, hstore⟩
            rw [hrun] at hdone
            simp only [Except.map, Batch.ok_inj] at hdone
            refine ⟨rs, db, hbatch, ?_⟩
            rw [libraryExec, ← hdone.2, hstore]
      rcases hexec with ⟨rs, db, hbatch, hstate⟩
      have hkeys := projectBatch_keys job vaultId notes nextOffset processed now _ db rs hbatch
      simp only [Process.tracked, hstate]
      refine kept_event s _ i _ h (.commit i {key | key ∈ notes.map PreparedNote.r2Key}) ?_ ?_ ?_
        (hkeys.2 h.jobs)
      · intro key hkey
        rcases List.mem_map.mp hkey with ⟨n, hn, rfl⟩
        exact hheld n hn
      · exact fun j => Set.disjoint_left.mpr (fun key hkey => (hfree j).1 key hkey)
      · refine Collector.within_sights _ _ _ s.2 i _ (fun key hkey => hkey) ?_
          (fun k hk => absurd hk List.not_mem_nil) (fun k hk => hk)
          (fun j _ => ⟨fun k hk => hk, fun k hk => hk⟩)
        rintro key ⟨n, hn, rfl⟩
        exact hkeys.1 n hn

theorem readReferenced_kept (key : String)
    (w : Outcome) (h : Kept s) :
    Kept (Process.tracked (libraryExec sha256) sees (.readReferenced key) (i, w) s).2 := by
  cases w with
  | refused => exact kept_same s i _ h (List.Subset.refl _) (List.Subset.refl _)
  | lost => exact kept_same s i _ h (List.Subset.refl _) (List.Subset.refl _)
  | answered =>
      change Kept (s.1, Function.update s.2 i
        { s.2 i with doomed := if objectStillReferenced s.1 key then [] else [key] })
      split
      · exact kept_same s i _ h (List.Subset.refl _) (List.nil_subset _)
      · next hfree =>
        -- No row of a note names it.
        refine kept_event s s.1 i _ h (.check i {k | k ∈ [key]}) ?_ trivial ?_ h.jobs
        · refine Set.disjoint_left.mpr ?_
          rintro k hk ⟨n, hn, rfl⟩
          refine hfree ?_
          have hnamed : s.1.store.db.notes.any (fun n => n.r2Key = key) = true :=
            List.any_eq_true.mpr ⟨n, hn, decide_eq_true (List.mem_singleton.mp hk)⟩
          rw [objectStillReferenced, hnamed]
          rfl
        · refine Collector.within_sights _ _ _ s.2 i _ (fun k hk => hk) (fun k hk => hk)
            (fun k hk => hk) ?_ (fun j hj => ⟨fun k hk => hk, fun k hk => ?_⟩)
          · intro k hk
            simp only [Collector.step, Function.update_self]
            exact hk
          · simp only [Collector.step, Function.update_of_ne hj]
            exact hk

theorem deleteObject_kept (key : String)
    (w : Outcome) (h : Kept s) (hdoomed : key ∈ (s.2 i).doomed)
    (hapart : apart i (.deleteObject key) w s) :
    Kept (Process.tracked (libraryExec sha256) sees (.deleteObject key) (i, w) s).2 := by
  have hdelete : (∀ j, key ∉ (s.2 j).held) →
      Kept (withoutObject key s.1, Function.update s.2 i { s.2 i with doomed := [] }) := by
    intro hfree
    refine kept_event s _ i _ h (.delete i key) hdoomed hfree ?_ h.jobs
    refine Collector.within_sights _ _ _ s.2 i _ ?_ (fun k hk => hk) (fun k hk => hk)
      (fun k hk => absurd hk List.not_mem_nil) (fun j _ => ⟨fun k hk => hk, fun k hk => hk⟩)
    rintro k ⟨⟨hnote, hthere⟩, hne⟩
    refine ⟨hnote, ?_⟩
    simp only [withoutObject, Function.update_of_ne hne]
    exact hthere
  cases w with
  | refused => exact kept_same s i _ h (List.Subset.refl _) (List.nil_subset _)
  | answered =>
      refine hdelete (fun j => ?_)
      exact ((hapart.resolve_left nofun) j).2 key (List.mem_singleton_self key)
  | lost =>
      refine hdelete (fun j => ?_)
      exact ((hapart.resolve_left nofun) j).2 key (List.mem_singleton_self key)

/-- Deleting a generation takes rows away. -/
theorem queueDeletion_kept (generation : GenerationCandidate) (now : Nat) (w : Outcome) (h : Kept s) :
    Kept (Process.tracked (libraryExec sha256) sees (.queueDeletion generation now) (i, w) s).2 := by
  have hless : Kept (queueGenerationDeletion generation now s.1,
      Function.update s.2 i (s.2 i)) :=
    kept_rest s _ i _ h (fun n hn => ⟨n, List.mem_of_mem_filter hn, rfl⟩) (fun _ _ => id)
      (fun j hj => h.jobs j (List.mem_of_mem_filter hj)) (List.Subset.refl _) (List.Subset.refl _)
  cases w with
  | refused => exact kept_same s i _ h (List.Subset.refl _) (List.Subset.refl _)
  | answered => exact hless
  | lost => exact hless

/-- Every request keeps what is named or in hand, as long as calls see to what they
    hold and do not come between what another saw and does. -/
theorem request_kept (op : LibraryOp)
    (w : Outcome) (h : Kept s) (hholds : Holds i op s) (hapart : apart i op w s) :
    Kept (Process.tracked (libraryExec sha256) sees op (i, w) s).2 := by
  have hrest : ∀ t : LibraryState, t.store.db.notes = s.1.store.db.notes →
      t.store.db.jobs = s.1.store.db.jobs → t.store.objects = s.1.store.objects →
      Kept (t, Function.update s.2 i (s.2 i)) := by
    intro t hnotes hjobs hobjects
    refine kept_rest s t i _ h (fun n hn => ⟨n, hnotes ▸ hn, rfl⟩) (fun _ _ => ?_)
      (by rw [hjobs]; exact h.jobs) (List.Subset.refl _) (List.Subset.refl _)
    rw [hobjects]
    exact id
  cases op with
  | job op =>
      cases op with
      | putNoteObject note => exact putNoteObject_kept sha256 s i note w h hholds
      | projectNotes job vaultId notes nextOffset processed now =>
          exact projectNotes_kept sha256 s i job vaultId notes nextOffset processed now w h hholds
            hapart
      | deleteObject key => exact harmless_kept sha256 s i _ w h hholds
      | _ => exact harmless_kept sha256 s i _ w h trivial
  | queueDeletion generation now => exact queueDeletion_kept sha256 s i generation now w h
  | readReferenced key => exact readReferenced_kept sha256 s i key w h
  | deleteObject key => exact deleteObject_kept sha256 s i key w h hholds hapart
  | _ => cases w <;> exact hrest _ rfl rfl rfl

end

end Requests

/-! ## What calls see to -/

/-- Every content has a note among those to write. -/
theorem uniqueByContent_covers (notes : List PreparedNote) (note : PreparedNote)
    (h : note ∈ notes) :
    ∃ n ∈ uniqueByContent notes, n.contentSha256 = note.contentSha256 := by
  have hadd : ∀ (unique : List PreparedNote) (m : PreparedNote) (hash : String),
      (∃ n ∈ unique, n.contentSha256 = hash) ∨ m.contentSha256 = hash →
      ∃ n ∈ addUnique unique m, n.contentSha256 = hash := by
    intro unique m hash hcases
    unfold addUnique
    split
    · next hthere =>
      have hold : ∃ n ∈ unique, n.contentSha256 = hash := by
        rcases hcases with hold | rfl
        · exact hold
        · rcases List.any_eq_true.mp hthere with ⟨n, hn, heq⟩
          exact ⟨n, hn, of_decide_eq_true heq⟩
      rcases hold with ⟨n, hn, rfl⟩
      refine ⟨_, List.mem_map_of_mem hn, ?_⟩
      split
      · next heq => exact heq.symm
      · rfl
    · rcases hcases with ⟨n, hn, heq⟩ | heq
      · exact ⟨n, List.mem_append_left _ hn, heq⟩
      · exact ⟨m, List.mem_append_right _ (List.mem_singleton_self m), heq⟩
  have hfold : ∀ (rest unique : List PreparedNote) (hash : String),
      (∃ n ∈ unique, n.contentSha256 = hash) ∨ (∃ n ∈ rest, n.contentSha256 = hash) →
      ∃ n ∈ rest.foldl addUnique unique, n.contentSha256 = hash := by
    intro rest
    induction rest with
    | nil =>
        intro unique hash hcases
        exact hcases.resolve_right (fun ⟨n, hn, _⟩ => absurd hn List.not_mem_nil)
    | cons m rest ih =>
        intro unique hash hcases
        refine ih _ hash ?_
        rcases hcases with hold | ⟨n, hn, heq⟩
        · exact Or.inl (hadd unique m hash (Or.inl hold))
        · rcases List.mem_cons.mp hn with rfl | hrest
          · exact Or.inl (hadd unique n hash (Or.inr heq))
          · exact Or.inr ⟨n, hrest, heq⟩
  exact hfold notes [] _ (Or.inr ⟨note, h, rfl⟩)

section Calls

open Process

variable {ι : Type} [DecidableEq ι] (sha256 : List UInt8 → String) (i : ι)

/-- What a call does, where others leave it what it has in hand. -/
abbrev MeetsHolds {α : Type} (Q : Except JobError α → Watching ι → Prop) (p : LibraryProcess α)
    (s : Watching ι) : Prop :=
  p.Meets (tracked (libraryExec sha256) sees) (Watched.Own apart i) Kept
    (fun s t => s.2 i = t.2 i) (Holds i) Q s

/-- The same of a function of `Jobs`. -/
abbrev JobHolds {α : Type} (Q : Except JobError α → Watching ι → Prop) (p : JobProcess α)
    (s : Watching ι) : Prop :=
  p.Meets (fun op => tracked (libraryExec sha256) sees (.job op))
    (fun op => Watched.Own apart i (.job op)) Kept (fun s t => s.2 i = t.2 i)
    (fun op => Holds i (.job op)) Q s

omit [DecidableEq ι] in
theorem harmless_holds (op : MaterializationOp) (s : Watching ι) (h : Harmless op) :
    Holds i (.job op) s := by
  cases op with
  | projectNotes => exact h.elim
  | putNoteObject => exact h.elim
  | deleteObject key => exact h
  | _ => exact trivial

/-- What is not about notes needs nothing in hand. -/
theorem harmless_meets {α : Type} {T : α → Prop} (p : JobProcess α) (s : Watching ι)
    (hp : p.Within Harmless T) : JobHolds sha256 i (fun _ _ => True) p s :=
  meets_of_within (fun _ => True) (fun _ _ _ _ => trivial) (fun _ _ _ _ _ _ _ => trivial)
    (fun op t _ _ hop => harmless_holds i op t hop) (fun _ _ _ => trivial) p s trivial hp

/-- A note whose write went through is in hand. -/
theorem putNoteObject_holds (note : PreparedNote) (s : Watching ι) (w : Outcome)
    (r : MaterializationOp.Ret (.putNoteObject note))
    (hr : (tracked (libraryExec sha256) sees (.job (.putNoteObject note)) (i, w) s).1 = .ok r) :
    ((tracked (libraryExec sha256) sees (.job (.putNoteObject note)) (i, w) s).2.2 i).held =
      note.r2Key :: (s.2 i).held := by
  simp only [tracked, Function.update_self] at hr ⊢
  rw [hr]
  rfl

/-- Writing objects ends well only with all of them in hand, those of `done` and
    those that were left. -/
theorem writeObjects_holds (notes : List PreparedNote) (hnotes : ∀ n ∈ notes, NoteKey n.r2Key)
    (room : Nat) (failed : Bool) (done : List String) (s : Watching ι)
    (hdone : failed = false → ∀ key ∈ done, key ∈ (s.2 i).held) :
    JobHolds sha256 i (fun r t => r = .ok () → ∀ key, key ∈ done ∨
      key ∈ notes.map PreparedNote.r2Key → key ∈ (t.2 i).held)
      (writeObjects notes room failed) s := by
  induction notes generalizing room failed done s with
  | nil =>
      unfold writeObjects
      split
      · intro h
        cases h
      · next hfailed =>
        intro _ key hkey
        exact hdone (Bool.eq_false_iff.mpr hfailed) key (hkey.resolve_right List.not_mem_nil)
  | cons note notes ih =>
      unfold writeObjects
      split
      · intro h
        cases h
      · next hgo =>
        have hclear : (room ≠ 0 && failed) = false → failed = false := by
          intro hand
          rcases Bool.and_eq_false_iff.mp hand with hroom | hfailed
          · rw [decide_eq_false_iff_not, not_not] at hroom
            by_contra hnot
            exact hgo ⟨hroom, Bool.eq_true_of_not_eq_false hnot⟩
          · exact hfailed
        have hrest : ∀ (stored : Bool) (t : Watching ι),
            (stored = true → failed = false →
              ∀ key ∈ note.r2Key :: done, key ∈ (t.2 i).held) →
            JobHolds sha256 i (fun r t => r = .ok () → ∀ key, key ∈ done ∨
              key ∈ (note :: notes).map PreparedNote.r2Key → key ∈ (t.2 i).held)
              (writeObjects notes (if room = 0 then objectWriteConcurrency - 1 else room - 1)
                ((room ≠ 0 && failed) || !stored)) t := by
          intro stored t hstored
          refine meets_mono (fun _ _ h => h) ?_ _ t
            (ih (fun n hn => hnotes n (List.mem_cons_of_mem _ hn)) _ _ (note.r2Key :: done) t ?_)
          · intro r t' hall hr key hkey
            refine hall hr key ?_
            rcases hkey with hold | hmem
            · exact Or.inl (List.mem_cons_of_mem _ hold)
            · rw [List.map_cons, List.mem_cons] at hmem
              rcases hmem with rfl | hlater
              · exact Or.inl List.mem_cons_self
              · exact Or.inr hlater
          · intro hnone
            rw [Bool.or_eq_false_iff, Bool.not_eq_false'] at hnone
            exact hstored hnone.2 (hclear hnone.1)
        refine meets_bind _ _ s (meets_tryCatch _ _ s ?_)
        intro t _ hst
        refine ⟨hnotes note List.mem_cons_self, ?_⟩
        rintro ⟨j, w⟩ ⟨hj, -⟩
        rw [show j = i from hj]
        beta_reduce
        -- The note was stored, or the failure is remembered.
        cases hr : (tracked (libraryExec sha256) sees (.job (.putNoteObject note)) (i, w) t).1 with
        | ok r =>
            refine hrest true _ (fun _ hfine key hkey => ?_)
            rw [putNoteObject_holds sha256 i note t w r hr]
            rcases List.mem_cons.mp hkey with rfl | hold
            · exact List.mem_cons_self
            · refine List.mem_cons_of_mem _ ?_
              rw [← hst]
              exact hdone hfine key hold
        | error e =>
            exact hrest false _ (fun h => by cases h)

section

variable (u : UnicodeTables) (vaultId : String) (now : Nat) (job : JobRow)

/-- The key of a prepared note tells its content. -/
theorem prepareNotes_r2Key (notes : List MaterializedSnapshotNote)
    (m n : PreparedNote) (hm : m ∈ prepareNotes sha256 vaultId notes)
    (hn : n ∈ prepareNotes sha256 vaultId notes) (h : m.contentSha256 = n.contentSha256) :
    m.r2Key = n.r2Key := by
  rcases List.mem_map.mp hm with ⟨m', -, rfl⟩
  rcases List.mem_map.mp hn with ⟨n', -, rfl⟩
  simp only [prepareNote] at h ⊢
  rw [h]

/-- A job that has written the objects of its notes has all of them in hand. -/
theorem writeNoteObjects_holds (notes : List MaterializedSnapshotNote)
    (s : Watching ι) :
    JobHolds sha256 i (fun r t => r = .ok () → ∀ n ∈ prepareNotes sha256 vaultId notes,
      n.r2Key ∈ (t.2 i).held) (writeNoteObjects (prepareNotes sha256 vaultId notes)) s := by
  have hunique := mem_uniqueByContent (prepareNotes sha256 vaultId notes)
  refine meets_mono (fun _ _ h => h) ?_ _ s (writeObjects_holds sha256 i
    (uniqueByContent (prepareNotes sha256 vaultId notes)) ?_ objectWriteConcurrency false [] s
    (fun _ => nofun))
  · intro r t hall hr n hn
    rcases uniqueByContent_covers _ n hn with ⟨m, hm, heq⟩
    rw [← prepareNotes_r2Key sha256 vaultId notes m n (hunique m hm) hn heq]
    exact hall hr m.r2Key (Or.inr (List.mem_map_of_mem hm))
  · exact fun n hn => prepareNotes_key sha256 vaultId notes n (hunique n hn)

/-- So it names what it has in hand, and goes on with the same job. -/
theorem projectNext_holds (s : Watching ι) :
    JobHolds sha256 i (fun r _ => ∀ job', r = .ok job' → SameJob job' job)
      (projectNext u sha256 vaultId now job) s := by
  unfold projectNext
  refine meets_bind _ _ s (meets_mono (fun _ _ h => h) ?_ _ s (harmless_meets sha256 i _ s
    (within_readStagedNotes (A := Harmless) u job (fun _ _ _ => trivial) _ _)))
  intro r t _
  cases r with
  | error e => exact fun _ h => nomatch h
  | ok read =>
      simp only [Then]
      split
      · intro job' hjob
        rw [← Except.ok.inj hjob]
        exact ⟨rfl, rfl⟩
      · refine meets_bind _ _ t (meets_mono (fun _ _ h => h) (fun r t' hwritten => ?_) _ t
          (writeNoteObjects_holds sha256 i vaultId read.1 t))
        cases r with
        | error e => exact fun _ h => nomatch h
        | ok _ =>
            refine meets_bind _ _ t' ?_
            intro t'' _ hsame
            refine ⟨fun n hn => ?_, fun w _ => ?_⟩
            · rw [← hsame]
              exact hwritten rfl n hn
            · beta_reduce
              cases (tracked (libraryExec sha256) sees (.job (.projectNotes job vaultId
                  (prepareNotes sha256 vaultId read.1) read.2
                  (job.job.processedNoteCount + read.1.length) now)) w t'').1 with
              | error e => exact fun _ h => nomatch h
              | ok _ =>
                  intro job' hjob
                  rw [← Except.ok.inj hjob]
                  exact ⟨rfl, rfl⟩

theorem harmless_finishes (h : StagingKey job.job.stagingObjectKey) :
    Finishes Harmless job :=
  { readNotes := fun _ _ => trivial
    putImmutableManifest := fun _ => trivial
    publish := fun _ _ _ _ => trivial
    readJobRow := fun _ => trivial
    deleteObject := h
    queueObject := fun _ _ => trivial }

theorem continueJob_holds (hkey : StagingKey job.job.stagingObjectKey) (s : Watching ι) :
    JobHolds sha256 i (fun _ _ => True) (continueJob u sha256 vaultId now job) s := by
  unfold continueJob
  have hrecover : ∀ (e : JobError) (t : Watching ι),
      JobHolds sha256 i (fun _ _ => True) (recoverJob job now e) t := by
    intro e t
    refine harmless_meets sha256 i (T := fun _ => True) _ t ?_
    refine within_bind (within_ask (A := Harmless) _ trivial) (fun attempt _ => ?_)
    split
    · exact within_ask _ trivial
    · exact trivial
  have hbody : JobHolds sha256 i (fun _ _ => True)
      (do
        let job' ← projectNext u sha256 vaultId now job
        finalizeWhenDone sha256 now job') s := by
    refine meets_bind _ _ s (meets_mono (fun _ _ h => h) (fun r t hsame => ?_) _ s
      (projectNext_holds sha256 i u vaultId now job s))
    cases r with
    | error e => exact trivial
    | ok job' =>
        exact harmless_meets sha256 i _ t (within_finalizeWhenDone sha256 now job job'
          (harmless_finishes job hkey) (hsame job' rfl))
  refine meets_tryCatch _ _ s (meets_mono (fun _ _ h => h) (fun r t _ => ?_) _ s hbody)
  cases r with
  | ok _ => exact trivial
  | error e => exact hrecover e t

/-- A call of the queue works on a job of the tables, so its staged object is one. -/
theorem continueNext_holds (s : Watching ι) :
    JobHolds sha256 i (fun _ _ => True) (continueNextMaterializationJob u sha256 vaultId now) s := by
  unfold continueNextMaterializationJob
  have hends : ∀ (op : MaterializationOp) (t : Watching ι), Harmless op →
      JobHolds sha256 i (fun _ _ => True) (ask op) t :=
    fun op t hop => harmless_meets sha256 i _ t (within_ask op hop)
  refine meets_bind _ _ s ?_
  intro t _ _
  refine ⟨trivial, fun w _ => ?_⟩
  beta_reduce
  cases (tracked (libraryExec sha256) sees (.job (.claimJob vaultId now)) w t).1 with
  | error e => exact trivial
  | ok claimed =>
      cases claimed with
      | none => exact trivial
      | some jobId =>
          refine meets_bind _ _ _ ?_
          intro t' ht' _
          refine ⟨trivial, fun w' _ => ?_⟩
          beta_reduce
          cases hrow : (tracked (libraryExec sha256) sees (.job (.readJobRow jobId)) w' t').1 with
          | error e => exact trivial
          | ok row =>
              cases row with
              | none => exact hends _ _ trivial
              | some job =>
                  have hanswer := send_ok JobError.other w'.2 _ t'.1 _ hrow
                  have hread : jobRowOf t'.1.store.db jobId = some job := by
                    simp only [libraryEffect, effect, reading, Except.map, Except.ok.injEq,
                      Prod.mk.injEq] at hanswer
                    exact hanswer.1
                  have hkey : StagingKey job.job.stagingObjectKey :=
                    ht'.jobs job.job (jobRowOf_known _ jobId job hread).1
                  refine meets_bind _ _ _ (meets_mono (fun _ _ h => h) (fun r t'' _ => ?_) _ _
                    (continueJob_holds sha256 i u vaultId now job hkey _))
                  cases r with
                  | error e => exact trivial
                  | ok _ => exact hends _ _ trivial

theorem creating_harmless {input : CreateInput} (op : MaterializationOp) (h : Creating input op) :
    Harmless op := by
  cases op with
  | projectNotes => exact h.elim
  | putNoteObject => exact h.elim
  | deleteObject key =>
      rw [show key = input.stagingObjectKey from h]
      exact ⟨"vaults/" ++ input.vaultId ++ "/materialization-staging/" ++ input.jobId, rfl⟩
  | _ => exact trivial

theorem job_holds (call : MaterializationCall) (s : Watching ι) :
    JobHolds sha256 i (fun _ _ => True) (call.process u sha256) s := by
  have hends : ∀ {α : Type} (p : JobProcess α), JobHolds sha256 i (fun _ _ => True) p s →
      JobHolds sha256 i (fun _ _ => True) (do let _ ← p; pure ()) s := by
    intro α p hp
    refine meets_bind _ p s (meets_mono (fun _ _ h => h) (fun r t _ => ?_) p s hp)
    cases r with
    | ok _ => exact trivial
    | error e => exact trivial
  cases call with
  | continueNext vaultId now => exact hends _ (continueNext_holds sha256 i u vaultId now s)
  | create input =>
      exact hends _ (harmless_meets sha256 i _ s
        (within_mono creating_harmless _ (within_createMaterializationJob input)))
  | setVaultStatus vaultId status =>
      exact harmless_meets sha256 i _ s (within_ask (.setVaultStatus vaultId status) trivial)
  | recordSyncState row => exact harmless_meets sha256 i _ s (within_ask (.recordSyncState row) trivial)

/-- A request of the maintenance that deletes no object. -/
def Idle : LibraryOp → Prop
  | .job _ | .deleteObject _ => False
  | _ => True

theorem idle_meets {α : Type} {T : α → Prop} (p : LibraryProcess α) (s : Watching ι)
    (hp : p.Within Idle T) : MeetsHolds sha256 i (fun _ _ => True) p s := by
  refine meets_of_within (fun _ => True) (fun _ _ _ _ => trivial) (fun _ _ _ _ _ _ _ => trivial)
    (fun op t _ _ hop => ?_) (fun _ _ _ => trivial) p s trivial hp
  cases op with
  | job op => exact hop.elim
  | deleteObject key => exact hop.elim
  | _ => exact trivial

/-- A collection deletes what it has found unnamed. -/
theorem collectObject_holds (key : String) (now : Nat) (s : Watching ι) :
    MeetsHolds sha256 i (fun _ _ => True) (collectObject key now) s := by
  unfold collectObject
  have hidle : ∀ (op : LibraryOp) (t : Watching ι), Idle op →
      MeetsHolds sha256 i (fun _ _ => True) (request op) t :=
    fun op t hop => idle_meets sha256 i _ t (within_request op hop)
  refine meets_bind _ _ s ?_
  intro t _ _
  refine ⟨trivial, ?_⟩
  rintro ⟨j, w⟩ ⟨hj, -⟩
  rw [show j = i from hj]
  beta_reduce
  cases hr : (tracked (libraryExec sha256) sees (.readReferenced key) (i, w) t).1 with
  | error e => exact trivial
  | ok referenced =>
      by_cases hreferenced : referenced = true
      · rw [hreferenced]
        exact hidle _ _ trivial
      · have hfree : referenced = false := Bool.eq_false_iff.mpr hreferenced
        subst hfree
        have hdoomed : ((tracked (libraryExec sha256) sees (.readReferenced key) (i, w) t).2.2
            i).doomed = [key] := by
          simp only [tracked, Function.update_self] at hr ⊢
          rw [hr]
          rfl
        refine meets_tryCatch _ _ _ (meets_bind _ _ _ ?_)
        intro t' _ hsame
        refine ⟨?_, fun w' _ => ?_⟩
        · change key ∈ (t'.2 i).doomed
          rw [← hsame, hdoomed]
          exact List.mem_singleton_self key
        · beta_reduce
          -- Whatever comes of it, nothing more is deleted.
          have hend : ∀ (r : Except JobError Unit) (t'' : Watching ι),
              Catching (tracked (libraryExec sha256) sees) (Watched.Own apart i) Kept
                (fun s t => s.2 i = t.2 i) (Holds i) (fun _ _ => True)
                (fun _ => request (.countFailure key now)) r t'' := by
            intro r t''
            cases r with
            | ok _ => exact trivial
            | error e => exact hidle _ _ trivial
          cases (tracked (libraryExec sha256) sees (.deleteObject key) w' t').1 with
          | error e => exact hend (.error e) _
          | ok _ =>
              refine meets_mono (fun _ _ h => h) (fun r t'' _ => hend r t'') _ _
                (idle_meets sha256 i (T := fun _ => True) _ _ ?_)
              refine within_bind (within_request (A := Idle) _ trivial) (fun remains _ => ?_)
              split
              · exact trivial
              · exact within_request _ trivial

theorem collectObjects_holds (keys : List String) (s : Watching ι) :
    MeetsHolds sha256 i (fun _ _ => True) (collectObjects now keys) s := by
  induction keys generalizing s with
  | nil => exact trivial
  | cons key keys ih =>
      refine meets_bind _ _ s (meets_mono (fun _ _ h => h) (fun r t _ => ?_) _ s
        (collectObject_holds sha256 i key now s))
      cases r with
      | ok _ => exact ih t
      | error e => exact trivial

theorem within_queueDeletions (candidates : List GenerationCandidate) :
    (queueDeletions now candidates).Within Idle (fun _ => True) := by
  induction candidates with
  | nil => exact trivial
  | cons generation rest ih => exact within_bind (within_request _ trivial) (fun _ _ => ih)

theorem call_holds (call : LibraryCall) (s : Watching ι) :
    MeetsHolds sha256 i (fun _ _ => True) (call.process u sha256) s := by
  cases call with
  | job call => exact meets_mapOp LibraryOp.job _ s (job_holds sha256 i u call s)
  | queueObsolete now =>
      refine idle_meets sha256 i (T := fun _ => True) _ s ?_
      refine within_bind (T := fun _ => True) ?_ (fun _ _ => trivial)
      refine within_bind (within_request (A := Idle) _ trivial) (fun candidates _ => ?_)
      exact within_bind (within_queueDeletions now candidates) (fun _ _ => trivial)
  | collectGarbage now =>
      refine meets_bind _ _ s (meets_bind _ _ s ?_)
      intro t _ _
      refine ⟨trivial, fun w _ => ?_⟩
      beta_reduce
      cases (tracked (libraryExec sha256) sees (.readQueued now) w t).1 with
      | error e => exact trivial
      | ok queued =>
          refine meets_bind _ _ _ (meets_mono (fun _ _ h => h) (fun r t' _ => ?_) _ _
            (collectObjects_holds sha256 i now queued _))
          cases r with
          | error e => exact trivial
          | ok _ =>
              refine meets_mono (fun _ _ h => h) (fun r t'' _ => ?_) _ _
                (idle_meets sha256 i _ t' (within_request LibraryOp.countQueued trivial))
              cases r with
              | error e => exact trivial
              | ok _ => exact trivial
  | setReferences references =>
      exact idle_meets sha256 i _ s (within_request (LibraryOp.setReferences references) trivial)

end

end Calls

/-! ## Runs -/

/-- The notes of the generations that vaults point to, and of those that snapshots are
    read from, have their objects. -/
def LibraryBacked (s : LibraryState) : Prop :=
  ∀ n ∈ s.store.db.notes,
    isCurrent s.store.db n.generationId = true ∨ n.generationId ∈ s.references.snapshotVaults →
      s.store.objects n.r2Key ≠ none

instance (s : LibraryState) : Decidable (LibraryBacked s) :=
  inferInstanceAs (Decidable (∀ n ∈ s.store.db.notes, _))

/-- A library that has built nothing yet. -/
def freshLibrary (vaults : List VaultRow) : LibraryState :=
  { store := { db := freshDb vaults [], objects := fun _ => none }, references := noReferences }

section Runs

open Process

variable {ι : Type} [DecidableEq ι]

/-- Let a call make its next request and keep what it has in hand, or cut it off. -/
abbrev watchedStep (sha256 : List UInt8 → String) :=
  Watched.step (ι := ι) (α := Unit) (libraryExec sha256) sees Collector.Sight.blank JobError.other

/-- The same without what calls have in hand. -/
abbrev libraryStep (sha256 : List UInt8 → String) :=
  stepOrCut (ι := ι) (α := Unit) (libraryExec sha256) JobError.other

omit [DecidableEq ι] in
theorem freshLibrary_kept (vaults : List VaultRow) :
    Kept (freshLibrary vaults, fun _ : ι => Collector.Sight.blank) := by
  refine ⟨⟨?_, fun i => nofun, fun j => Set.disjoint_left.mpr nofun⟩, nofun⟩
  rintro key ⟨n, hn, -⟩
  cases hn

/-- Giving up what is in hand keeps the rest. -/
theorem blank_kept (i : ι) (s : Watching ι) (h : Kept s) :
    Kept (s.1, Function.update s.2 i Collector.Sight.blank) :=
  kept_same s i _ h (List.nil_subset _) (List.nil_subset _)

/-- Whatever the calls and however their requests are interleaved, end or are cut off:
    in every state, the notes that are read have their objects, as long as no collection
    deletes what a job has in hand and no job names what a collection is about to
    delete. -/
theorem library_backed (u : UnicodeTables) (sha256 : List UInt8 → String)
    (calls : ι → LibraryCall) (vaults : List VaultRow) (es : List (ι × Option Outcome))
    (h : Run.Along (Watched.Takes apart) (watchedStep sha256)
      (Watched.watch Collector.Sight.blank (startLibrary u sha256 calls (freshLibrary vaults)))
      es) :
    ∀ pre, pre <+: es → LibraryBacked (Run.runFrom (libraryStep sha256)
      (startLibrary u sha256 calls (freshLibrary vaults)) pre).shared := by
  rintro pre ⟨rest, rfl⟩
  have hpre := ((Run.along_append _ _ _ pre rest).mp h).1
  have hsound := Run.runFrom_invariant (watchedStep sha256)
    (Pool.SoundEach (tracked (libraryExec sha256) sees) (Watched.Own apart) Kept
      (fun i s t => s.2 i = t.2 i) Holds (fun _ _ _ => True))
    (fun c e hc he => Watched.step_sound (R := fun i s t => s.2 i = t.2 i)
      (fun _ _ _ => rfl) (fun _ _ _ _ h h' => h.trans h')
      (fun i op w s hs hp hC => ⟨request_kept sha256 s i op w hs hp hC, fun j hj =>
        (Function.update_of_ne hj _ _).symm⟩)
      (fun i s hs => ⟨blank_kept i s hs, fun j hj => (Function.update_of_ne hj _ _).symm⟩)
      c e hc he) _ pre
    ⟨freshLibrary_kept vaults, fun i => ⟨_, rfl, call_holds sha256 i u (calls i) _⟩⟩ hpre
  rw [← Watched.forget_run (libraryExec sha256) sees Collector.Sight.blank JobError.other]
  intro n hn _
  have hthere := hsound.1.intact.named ⟨n, hn, rfl⟩
  exact Option.isSome_iff_ne_none.mp hthere.2

end Runs

/-! ## A note that is written again -/

/-- A job that is given up, the maintenance, and another job of the same note. -/
def rewritingCalls (i : Fin 11) : LibraryCall :=
  match i.val with
  | 0 => .job (.create (twoSources "1" 'a'))
  | 7 => .queueObsolete 86402
  | 8 => .job (.create (twoSources "2" 'b'))
  | 9 => .job (.continueNext "vault" 3)
  | 10 => .collectGarbage 172802
  | _ => .job (.continueNext "vault" 2)

/-- A number of requests of one call, all of them answered. -/
def answered (i : Fin 11) (count : Nat) : List (Fin 11 × Option Outcome) :=
  List.replicate count (i, some .answered)

/-- The first job projects its note and is given up after six attempts. Its generation
    is deleted, and the second job comes as far as reading the note. -/
def rewriting : List (Fin 11 × Option Outcome) :=
  answered 0 5 ++ answered 1 6 ++ [(1, some .refused)] ++ answered 1 1 ++
    ([2, 3, 4, 5, 6] : List (Fin 11)).flatMap
      (fun i => answered i 2 ++ [(i, some .refused)] ++ answered i 2) ++
    answered 7 2 ++ answered 8 5 ++ answered 9 4

/-- The object is collected, and the second job writes it anew. -/
def collectedBefore : List (Fin 11 × Option Outcome) :=
  rewriting ++ answered 10 11 ++ answered 9 5

/-- The second job finds the object, and it is deleted before the row is projected. -/
def collectedBetween : List (Fin 11 × Option Outcome) :=
  rewriting ++ answered 9 1 ++ answered 10 10 ++ answered 9 1 ++ answered 10 1 ++ answered 9 3

/-- The library the calls begin with. -/
abbrev rewritingLibrary : LibraryPool (Fin 11) :=
  startLibrary UnicodeTables.plain (fun _ => "digest") rewritingCalls
    (freshLibrary [{ id := "vault", status := .active }])

/-- Collected before it is written anew, the note has its object. -/
theorem collectedBefore_backed : LibraryBacked
    (Run.runFrom (libraryStep (fun _ => "digest")) rewritingLibrary collectedBefore).shared :=
  library_backed UnicodeTables.plain (fun _ => "digest") rewritingCalls
    [{ id := "vault", status := .active }] collectedBefore (by decide +kernel) collectedBefore
    (List.prefix_refl _)

/-- Collected in between, the note of the published generation has none. -/
theorem collectedBetween_unbacked :
    ¬ LibraryBacked (Run.runFrom (libraryStep (fun _ => "digest")) rewritingLibrary
      collectedBetween).shared := by
  decide +kernel

end Mdevolved.Materialization
