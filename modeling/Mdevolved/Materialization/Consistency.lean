import Mdevolved.Materialization.Jobs

/-!
# Consistency of the Materialization Tables

What the keys of the tables guarantee, and what requests leave of the rows that
are there. No request takes a job or a generation away, and none changes what
identifies it: its vault, its source, its staged object. So what a call has once
read of a job stays true of it, whatever other calls do in between, which is
what every argument about interleaved calls rests on.

`Routine` is what all requests but one have in common. They complete no job,
unpublish no generation and move no pointer; only `publishBatch` does anything
of the kind, and it alone needs an argument of its own.

## Main definitions

* `Consistent`: What the keys guarantee.
* `Persist`: What is there stays there.
* `Routine`: Neither completes a job nor moves a pointer.
* `Known`: A job, as a call has read it, that is in the tables.
* `Concerns`: What a call may ask for, given the job it is about.

## Theorems

* `effect_routine`: Every request but a publication is routine.
* `publishBatch_persist`: A publication leaves what is there.
* `exec_persist`: So does every request, however it ends.
* `continueNext_meets`: A call of the queue asks only for what concerns a job
  it has read.
-/

namespace Mdevolved.Materialization

open Mdevolved.Vault Batch

/-- What of a job never changes. -/
def MaterializationJobRow.identity (job : MaterializationJobRow) : MaterializationJobRow :=
  { job with
    status := .queued, nextOffset := 0, processedNoteCount := 0, attemptCount := 0
    updatedAt := 0, completedAt := none, failureCode := none }

/-- What of a generation never changes. -/
def GenerationRow.identity (g : GenerationRow) : GenerationRow :=
  { g with status := .staging, manifestSha256 := none, completedAt := none, failureCode := none }

/-- What an identity holds agrees where identities do. -/
theorem sameJob {α : Type} (key : MaterializationJobRow → α) (hkey : ∀ j, key j.identity = key j)
    {j k : MaterializationJobRow} (h : j.identity = k.identity) : key j = key k := by
  rw [← hkey j, h, hkey k]

theorem sameGeneration {α : Type} (key : GenerationRow → α) (hkey : ∀ g, key g.identity = key g)
    {g g' : GenerationRow} (h : g.identity = g'.identity) : key g = key g' := by
  rw [← hkey g, h, hkey g']

/-- The vault of a generation. -/
def generationVault (db : MaterializationDb) (id : String) : Option String :=
  (generationOf db id).map GenerationRow.vaultId

/-- What a search row belongs to. -/
def SearchRow.key (r : SearchRow) : String × String × String :=
  (r.vaultId, r.generationId, r.pathKey)

/-- Keys are distinct, and jobs and pointers are of the vault their generation
    is of. -/
structure Consistent (db : MaterializationDb) : Prop where
  jobIds : (db.jobs.map MaterializationJobRow.id).Nodup
  jobGenerations : (db.jobs.map MaterializationJobRow.generationId).Nodup
  generationIds : (db.generations.map GenerationRow.id).Nodup
  jobVaults : ∀ j ∈ db.jobs, generationVault db j.generationId = some j.vaultId
  currentVaults : ∀ c ∈ db.current, generationVault db c.generationId = some c.vaultId

/-- Jobs and generations stay, and stay what they are. -/
structure Persist (db db' : MaterializationDb) : Prop where
  consistent : Consistent db'
  jobs : ∀ j ∈ db.jobs, ∃ j' ∈ db'.jobs, j'.identity = j.identity
  generations : ∀ id g, generationOf db id = some g →
    ∃ g', generationOf db' id = some g' ∧ g'.identity = g.identity

/-- No job is completed, no generation unpublished, no pointer moved and no
    search row of a generation's own vault taken away. -/
structure Routine (db db' : MaterializationDb) : Prop extends Persist db db' where
  completed : ∀ j' ∈ db'.jobs, j'.status = .completed →
    ∃ j ∈ db.jobs, j.status = .completed ∧ j.identity = j'.identity
  published : ∀ id, generationStatus db id = some .published →
    generationStatus db' id = some .published
  current : db'.current = db.current
  search : ∀ r ∈ db.search, generationVault db r.generationId = some r.vaultId →
    ∃ r' ∈ db'.search, r'.key = r.key

theorem Persist.refl (db : MaterializationDb) (h : Consistent db) : Persist db db :=
  { consistent := h
    jobs := fun j hj => ⟨j, hj, rfl⟩
    generations := fun _ g hg => ⟨g, hg, rfl⟩ }

theorem Routine.refl (db : MaterializationDb) (h : Consistent db) : Routine db db :=
  { Persist.refl db h with
    completed := fun j hj hdone => ⟨j, hj, hdone, rfl⟩
    published := fun _ hp => hp
    current := rfl
    search := fun r hr _ => ⟨r, hr, rfl⟩ }

/-- A generation stays in its vault. -/
theorem Persist.vault {db db' : MaterializationDb} (h : Persist db db') (id v : String)
    (hv : generationVault db id = some v) : generationVault db' id = some v := by
  rw [generationVault, Option.map_eq_some_iff] at hv
  rcases hv with ⟨g, hg, rfl⟩
  rcases h.generations id g hg with ⟨g', hg', heq⟩
  rw [generationVault, hg', Option.map_some]
  exact congrArg some (sameGeneration GenerationRow.vaultId (fun _ => rfl) heq)

theorem Persist.trans {db db' db'' : MaterializationDb} (h : Persist db db')
    (h' : Persist db' db'') : Persist db db'' where
  consistent := h'.consistent
  jobs := by
    intro j hj
    rcases h.jobs j hj with ⟨j', hj', heq⟩
    rcases h'.jobs j' hj' with ⟨j'', hj'', heq'⟩
    exact ⟨j'', hj'', heq'.trans heq⟩
  generations := by
    intro id g hg
    rcases h.generations id g hg with ⟨g', hg', heq⟩
    rcases h'.generations id g' hg' with ⟨g'', hg'', heq'⟩
    exact ⟨g'', hg'', heq'.trans heq⟩

theorem Routine.trans {db db' db'' : MaterializationDb} (h : Routine db db')
    (h' : Routine db' db'') : Routine db db'' where
  toPersist := h.toPersist.trans h'.toPersist
  completed := by
    intro j'' hj'' hdone
    rcases h'.completed j'' hj'' hdone with ⟨j', hj', hdone', heq'⟩
    rcases h.completed j' hj' hdone' with ⟨j, hj, hdone'', heq⟩
    exact ⟨j, hj, hdone'', heq.trans heq'⟩
  published := fun id hp => h'.published id (h.published id hp)
  current := h'.current.trans h.current
  search := by
    intro r hr hvault
    rcases h.search r hr hvault with ⟨r', hr', hkey⟩
    have hgeneration : r'.generationId = r.generationId := congrArg (fun k => k.2.1) hkey
    have hsame : r'.vaultId = r.vaultId := congrArg (fun k => k.1) hkey
    have hvault' : generationVault db' r'.generationId = some r'.vaultId := by
      rw [hgeneration, hsame]
      exact h.toPersist.vault _ _ hvault
    rcases h'.search r' hr' hvault' with ⟨r'', hr'', hkey'⟩
    exact ⟨r'', hr'', hkey'.trans hkey⟩

/-! ## One statement -/

/-- A change of other tables. -/
theorem persist_of_same (db db' : MaterializationDb) (h : Consistent db)
    (hjobs : db'.jobs = db.jobs) (hgenerations : db'.generations = db.generations)
    (hcurrent : db'.current = db.current) : Persist db db' := by
  have hof : ∀ id, generationOf db' id = generationOf db id := fun id => by
    rw [generationOf, generationOf, hgenerations]
  have hvault : ∀ id, generationVault db' id = generationVault db id := fun id => by
    rw [generationVault, generationVault, hof]
  exact {
    consistent :=
      { jobIds := by rw [hjobs]; exact h.jobIds
        jobGenerations := by rw [hjobs]; exact h.jobGenerations
        generationIds := by rw [hgenerations]; exact h.generationIds
        jobVaults := by rw [hjobs]; intro j hj; rw [hvault]; exact h.jobVaults j hj
        currentVaults := by rw [hcurrent]; intro c hc; rw [hvault]; exact h.currentVaults c hc }
    jobs := fun j hj => ⟨j, by rw [hjobs]; exact hj, rfl⟩
    generations := fun id g hg => ⟨g, by rw [hof]; exact hg, rfl⟩ }

theorem routine_of_same (db db' : MaterializationDb) (h : Consistent db)
    (hjobs : db'.jobs = db.jobs) (hgenerations : db'.generations = db.generations)
    (hcurrent : db'.current = db.current)
    (hsearch : ∀ r ∈ db.search, generationVault db r.generationId = some r.vaultId →
      ∃ r' ∈ db'.search, r'.key = r.key) : Routine db db' :=
  { persist_of_same db db' h hjobs hgenerations hcurrent with
    completed := fun j hj hdone => ⟨j, by rw [← hjobs]; exact hj, hdone, rfl⟩
    published := fun id hp => by rw [generationStatus, generationOf, hgenerations]; exact hp
    current := hcurrent
    search := hsearch }

/-- A change of jobs that leaves what identifies them. -/
theorem persist_updateJobs (p : MaterializationJobRow → Bool)
    (f : MaterializationJobRow → MaterializationJobRow) (hf : ∀ j, (f j).identity = j.identity)
    (db : MaterializationDb) (h : Consistent db) :
    Persist db { db with jobs := Table.update p f db.jobs } where
  consistent :=
    { jobIds := by
        rw [Table.map_update _ p f (fun j => sameJob MaterializationJobRow.id (fun _ => rfl) (hf j))]
        exact h.jobIds
      jobGenerations := by
        rw [Table.map_update _ p f (fun j => sameJob MaterializationJobRow.generationId (fun _ => rfl) (hf j))]
        exact h.jobGenerations
      generationIds := h.generationIds
      jobVaults := by
        intro j hj
        rcases Table.mem_update p f db.jobs j hj with ⟨j', hj', ⟨-, rfl⟩ | ⟨-, rfl⟩⟩
        · have hvault : (f j').vaultId = j'.vaultId :=
            sameJob MaterializationJobRow.vaultId (fun _ => rfl) (hf j')
          have hgeneration : (f j').generationId = j'.generationId :=
            sameJob MaterializationJobRow.generationId (fun _ => rfl) (hf j')
          rw [hvault, hgeneration]
          exact h.jobVaults j' hj'
        · exact h.jobVaults j hj'
      currentVaults := h.currentVaults }
  jobs := by
    intro j hj
    refine ⟨_, Table.update_mem p f db.jobs j hj, ?_⟩
    split
    · exact hf j
    · rfl
  generations := fun _ g hg => ⟨g, hg, rfl⟩

/-- One that completes none of them. -/
theorem routine_updateJobs (p : MaterializationJobRow → Bool)
    (f : MaterializationJobRow → MaterializationJobRow) (db db' : MaterializationDb)
    (ids : List String) (h : Consistent db) (hrun : updateJobs p f db = .ok (ids, db'))
    (hf : ∀ j, (f j).identity = j.identity)
    (hdone : ∀ j, p j = true → (f j).status = .completed → j.status = .completed) :
    Routine db db' := by
  rw [(updateJobs_ok p f db db' ids hrun).2]
  exact {
    persist_updateJobs p f hf db h with
    completed := by
      intro j hj hcompleted
      rcases Table.mem_update p f db.jobs j hj with ⟨j', hj', ⟨hp, rfl⟩ | ⟨-, rfl⟩⟩
      · exact ⟨j', hj', hdone j' hp hcompleted, (hf j').symm⟩
      · exact ⟨j, hj', hcompleted, rfl⟩
    published := fun _ hp => hp
    current := rfl
    search := fun r hr _ => ⟨r, hr, rfl⟩ }

theorem generationOf_update (p : GenerationRow → Bool) (f : GenerationRow → GenerationRow)
    (hf : ∀ g, (f g).identity = g.identity) (db : MaterializationDb) (id : String) :
    generationOf { db with generations := Table.update p f db.generations } id =
      (generationOf db id).map (fun g => if p g then f g else g) :=
  Table.find?_update GenerationRow.id p f (fun g => sameGeneration GenerationRow.id (fun _ => rfl) (hf g))
    db.generations id

/-- A change of generations that leaves what identifies them, and those that are
    published alone. -/
theorem routine_updateGenerations (p : GenerationRow → Bool) (f : GenerationRow → GenerationRow)
    (hf : ∀ g, (f g).identity = g.identity) (hp : ∀ g, p g = true → g.status ≠ .published)
    (db : MaterializationDb) (h : Consistent db) :
    Routine db { db with generations := Table.update p f db.generations } := by
  have hof := generationOf_update p f hf db
  have hidentity : ∀ g, (if p g then f g else g).identity = g.identity := by
    intro g
    split
    · exact hf g
    · rfl
  have hvault : ∀ id, generationVault
      { db with generations := Table.update p f db.generations } id = generationVault db id := by
    intro id
    rw [generationVault, generationVault, hof, Option.map_map]
    congr 1
    exact funext (fun g => sameGeneration GenerationRow.vaultId (fun _ => rfl) (hidentity g))
  exact {
    consistent :=
      { jobIds := h.jobIds
        jobGenerations := h.jobGenerations
        generationIds := by
          rw [Table.map_update _ p f (fun g => sameGeneration GenerationRow.id (fun _ => rfl) (hf g))]
          exact h.generationIds
        jobVaults := fun j hj => by rw [hvault]; exact h.jobVaults j hj
        currentVaults := fun c hc => by rw [hvault]; exact h.currentVaults c hc }
    jobs := fun j hj => ⟨j, hj, rfl⟩
    generations := fun id g hg => ⟨_, by rw [hof, hg, Option.map_some], hidentity g⟩
    completed := fun j hj hdone => ⟨j, hj, hdone, rfl⟩
    published := by
      intro id hpublished
      rw [generationStatus, Option.map_eq_some_iff] at hpublished
      rcases hpublished with ⟨g, hg, hstatus⟩
      have hskip : ¬ p g = true := fun hpg => hp g hpg hstatus
      rw [generationStatus, hof, hg, Option.map_some, if_neg hskip, Option.map_some, hstatus]
    current := rfl
    search := fun r hr _ => ⟨r, hr, rfl⟩ }

/-- One more generation. -/
theorem routine_addGeneration (db : MaterializationDb) (g : GenerationRow)
    (generations : List GenerationRow) (h : Consistent db)
    (hnew : Table.insert (fun rows g => rows.all (fun other => other.id ≠ g.id)) db.generations g =
      some generations) : Routine db { db with generations := generations } := by
  rcases (Table.insert_eq_some _ _ _ _).mp hnew with ⟨hfree, rfl⟩
  have hof : ∀ id g', generationOf db id = some g' →
      generationOf { db with generations := db.generations ++ [g] } id = some g' := by
    intro id g' hg'
    rw [generationOf, List.find?_append]
    rw [generationOf] at hg'
    rw [hg', Option.some_or]
  have hvault : ∀ id v, generationVault db id = some v →
      generationVault { db with generations := db.generations ++ [g] } id = some v := by
    intro id v hv
    rw [generationVault, Option.map_eq_some_iff] at hv
    rcases hv with ⟨g', hg', hv⟩
    rw [generationVault, hof id g' hg', Option.map_some, hv]
  exact {
    consistent :=
      { jobIds := h.jobIds
        jobGenerations := h.jobGenerations
        generationIds := by
          rw [List.map_append, List.map_singleton]
          refine List.nodup_append.mpr ⟨h.generationIds, List.nodup_singleton _, ?_⟩
          intro id hid id' hid' heq
          rcases List.mem_map.mp hid with ⟨other, hother, hotherId⟩
          have hne := of_decide_eq_true (List.all_eq_true.mp hfree other hother)
          rw [List.mem_singleton] at hid'
          exact hne (hotherId.trans (heq.trans hid'))
        jobVaults := fun j hj => hvault _ _ (h.jobVaults j hj)
        currentVaults := fun c hc => hvault _ _ (h.currentVaults c hc) }
    jobs := fun j hj => ⟨j, hj, rfl⟩
    generations := fun id g' hg' => ⟨g', hof id g' hg', rfl⟩
    completed := fun j hj hdone => ⟨j, hj, hdone, rfl⟩
    published := by
      intro id hp
      rw [generationStatus, Option.map_eq_some_iff] at hp
      rcases hp with ⟨g', hg', hstatus⟩
      rw [generationStatus, hof id g' hg', Option.map_some, hstatus]
    current := rfl
    search := fun r hr _ => ⟨r, hr, rfl⟩ }

/-- One more job, of a generation of its vault. -/
theorem routine_addJob (db : MaterializationDb) (job : MaterializationJobRow)
    (jobs : List MaterializationJobRow) (h : Consistent db)
    (hvault : generationVault db job.generationId = some job.vaultId)
    (hopen : job.status ≠ .completed) (hnew : Table.insert admitsJob db.jobs job = some jobs) :
    Routine db { db with jobs := jobs } := by
  rcases (Table.insert_eq_some _ _ _ _).mp hnew with ⟨hadmits, rfl⟩
  have hfree : ∀ other ∈ db.jobs, other.id ≠ job.id ∧ other.generationId ≠ job.generationId := by
    intro other hother
    rw [admitsJob, Bool.and_eq_true] at hadmits
    have hall := List.all_eq_true.mp hadmits.1 other hother
    rw [Bool.and_eq_true, Bool.and_eq_true, Bool.and_eq_true] at hall
    exact ⟨of_decide_eq_true hall.1.1.1, of_decide_eq_true hall.1.1.2⟩
  have hdistinct : ∀ key : MaterializationJobRow → String, (db.jobs.map key).Nodup →
      (∀ other ∈ db.jobs, key other ≠ key job) → ((db.jobs ++ [job]).map key).Nodup := by
    intro key hkeys hne
    rw [List.map_append, List.map_singleton]
    refine List.nodup_append.mpr ⟨hkeys, List.nodup_singleton _, ?_⟩
    intro k hk k' hk' heq
    rcases List.mem_map.mp hk with ⟨other, hother, hotherKey⟩
    rw [List.mem_singleton] at hk'
    exact hne other hother (hotherKey.trans (heq.trans hk'))
  exact {
    consistent :=
      { jobIds := hdistinct _ h.jobIds (fun other hother => (hfree other hother).1)
        jobGenerations := hdistinct _ h.jobGenerations (fun other hother => (hfree other hother).2)
        generationIds := h.generationIds
        jobVaults := by
          intro j hj
          rcases List.mem_append.mp hj with hold | hadded
          · exact h.jobVaults j hold
          · rw [List.mem_singleton.mp hadded]
            exact hvault
        currentVaults := h.currentVaults }
    jobs := fun j hj => ⟨j, List.mem_append_left _ hj, rfl⟩
    generations := fun _ g hg => ⟨g, hg, rfl⟩
    completed := by
      intro j hj hdone
      rcases List.mem_append.mp hj with hold | hadded
      · exact ⟨j, hold, hdone, rfl⟩
      · rw [List.mem_singleton.mp hadded] at hdone
        exact absurd hdone hopen
    published := fun _ hp => hp
    current := rfl
    search := fun r hr _ => ⟨r, hr, rfl⟩ }

/-- The pointer of a vault is moved to a generation of that vault. -/
theorem setCurrent_persist (now : Nat) (generationId : String) (db db' : MaterializationDb)
    (r : List String) (h : Consistent db) (hrun : setCurrent now generationId db = .ok (r, db')) :
    Persist db db' := by
  have hsame : ∀ current, (∀ c ∈ current, generationVault db c.generationId = some c.vaultId) →
      Persist db { db with current := current } := fun current hcurrent =>
    { consistent := { h with currentVaults := hcurrent }
      jobs := fun j hj => ⟨j, hj, rfl⟩
      generations := fun _ g hg => ⟨g, hg, rfl⟩ }
  unfold setCurrent at hrun
  split at hrun
  · next g hg =>
    have hid : generationVault db generationId = some g.vaultId := by
      rw [generationVault, hg, Option.map_some]
    split at hrun
    · split at hrun
      · cases hrun
      · next current hpoint =>
        rw [Batch.ok_inj] at hrun
        rw [← hrun.2]
        refine hsame current ?_
        unfold pointTo at hpoint
        split at hpoint
        · cases hpoint
        · split at hpoint
          · rw [Except.ok.injEq] at hpoint
            rw [← hpoint]
            intro c hc
            rcases Table.mem_update _ _ db.current c hc with ⟨c', hc', ⟨hv, rfl⟩ | ⟨-, rfl⟩⟩
            · rw [of_decide_eq_true hv]
              exact hid
            · exact h.currentVaults c hc'
          · rw [Except.ok.injEq] at hpoint
            rw [← hpoint]
            intro c hc
            rcases List.mem_append.mp hc with hold | hadded
            · exact h.currentVaults c hold
            · rw [List.mem_singleton.mp hadded]
              exact hid
    · rw [Batch.ok_inj] at hrun
      exact hrun.2 ▸ Persist.refl db h
  · rw [Batch.ok_inj] at hrun
    exact hrun.2 ▸ Persist.refl db h

/-! ## Batches -/

/-- A batch of routine statements is routine. -/
theorem batch_routine (qs : List D1Statement)
    (hq : ∀ q ∈ qs, ∀ db db' r, Consistent db → q db = .ok (r, db') → Routine db db')
    (db db' : MaterializationDb) (rs : List (List String)) (h : Consistent db)
    (hrun : Batch.run qs db = .ok (rs, db')) : Routine db db' := by
  refine Batch.run_keeps (fun t => Routine db t) qs ?_ db db' rs hrun (Routine.refl db h)
  intro q hmem t r t' hstep hsofar
  exact hsofar.trans (hq q hmem t t' r hsofar.consistent hstep)

theorem claimStatement_routine (vaultId : String) (now : Nat) (db db' : MaterializationDb)
    (ids : List String) (h : Consistent db) (hrun : claimStatement vaultId now db = .ok (ids, db')) :
    Routine db db' := by
  rcases claimStatement_ok vaultId now db db' ids hrun with ⟨-, rfl⟩ | ⟨job, -, -, -, hupdate⟩
  · exact Routine.refl db' h
  · refine routine_updateJobs _ _ db db' ids h hupdate (fun _ => rfl) ?_
    intro j _ hdone
    cases hdone

/-- Counting attempts and recording progress leave the status of a job. -/
theorem attemptStatement_routine (jobId : String) (now : Nat) (db db' : MaterializationDb)
    (ids : List String) (h : Consistent db) (hrun : attemptStatement jobId now db = .ok (ids, db')) :
    Routine db db' :=
  routine_updateJobs _ _ db db' ids h hrun (fun _ => rfl) (fun _ _ hdone => hdone)

/-- Replacing the search rows of keys leaves one for each key there was. -/
theorem reindex_keeps (generationId vaultId : String) (notes : List PreparedNote)
    (rows : List SearchRow) (r : SearchRow) (hr : r ∈ rows)
    (hvault : r.generationId = generationId → r.vaultId = vaultId) :
    ∃ r' ∈ notes.foldl (reindex generationId vaultId) rows, r'.key = r.key := by
  induction notes generalizing rows r with
  | nil => exact ⟨r, hr, rfl⟩
  | cons note notes ih =>
      by_cases hreplaced : r.generationId = generationId ∧ r.pathKey = note.note.pathKey
      · -- The row is replaced by that of the note, which has its key.
        have hkey : (searchRow generationId vaultId note).key = r.key := by
          rw [SearchRow.key, SearchRow.key, hvault hreplaced.1, hreplaced.1, hreplaced.2]
          rfl
        have hmem : searchRow generationId vaultId note ∈ reindex generationId vaultId rows note :=
          List.mem_append_right _ (List.mem_singleton_self _)
        rcases ih _ _ hmem (fun _ => rfl) with ⟨r', hr', hkey'⟩
        exact ⟨r', hr', hkey'.trans hkey⟩
      · refine ih _ r (List.mem_append_left _ (List.mem_filter.mpr ⟨hr, ?_⟩)) hvault
        rw [Bool.not_eq_true', Bool.and_eq_false_iff, decide_eq_false_iff_not,
          decide_eq_false_iff_not]
        exact not_and_or.mp hreplaced

theorem projectBatch_routine (job : JobRow) (vaultId : String) (notes : List PreparedNote)
    (nextOffset processed now : Nat) (db db' : MaterializationDb) (rs : List (List String))
    (h : Consistent db) (hvault : generationVault db job.job.generationId = some vaultId)
    (hrun : Batch.run (projectBatch job vaultId notes nextOffset processed now) db =
      .ok (rs, db')) : Routine db db' := by
  rcases Batch.run_append_ok hrun with ⟨t, rs₁, rs₂, hnotes, hprogress, -⟩
  have ht := projectionStatements_ok _ _ _ db t rs₁ hnotes
  have hfirst : Routine db t := by
    rw [ht]
    refine routine_of_same db _ h rfl rfl rfl (fun r hr hown => ?_)
    refine reindex_keeps _ _ notes db.search r hr (fun hgeneration => ?_)
    rw [hgeneration, hvault, Option.some.injEq] at hown
    exact hown.symm
  refine hfirst.trans (batch_routine _ ?_ t db' rs₂ hfirst.consistent hprogress)
  intro q hq d d' r hd hstep
  rw [List.mem_singleton.mp hq] at hstep
  exact routine_updateJobs _ _ d d' r hd hstep (fun _ => rfl) (fun _ _ hdone => hdone)

theorem failGenerations_routine (p : String → Bool) (code : FailureCode) (now : Nat)
    (db db' : MaterializationDb) (r : List String) (h : Consistent db)
    (hrun : failGenerations p code now db = .ok (r, db')) : Routine db db' := by
  rw [failGenerations, Batch.ok_inj] at hrun
  rw [← hrun.2]
  refine routine_updateGenerations _ _ ?_ ?_ db h
  · exact fun _ => rfl
  intro g hg hpublished
  rw [hpublished] at hg
  simp only [reduceCtorEq, decide_false, Bool.and_false, Bool.false_eq_true] at hg

/-- A statement that changes other tables. -/
theorem routine_of_eq (db db' db'' : MaterializationDb) (r r' : List String) (h : Consistent db)
    (hrun : (.ok (r, db'') : Except D1Error _) = .ok (r', db'))
    (hjobs : db''.jobs = db.jobs) (hgenerations : db''.generations = db.generations)
    (hcurrent : db''.current = db.current) (hsearch : db''.search = db.search) :
    Routine db db' := by
  rw [Batch.ok_inj] at hrun
  refine hrun.2 ▸ routine_of_same db db'' h hjobs hgenerations hcurrent (fun r hr _ => ?_)
  exact ⟨r, hsearch ▸ hr, rfl⟩

theorem failBatch_routine (job : JobRow) (code : FailureCode) (now : Nat)
    (db db' : MaterializationDb) (rs : List (List String)) (h : Consistent db)
    (hrun : Batch.run (failBatch job code now) db = .ok (rs, db')) : Routine db db' := by
  refine batch_routine _ ?_ db db' rs h hrun
  intro q hq d d' r hd hstep
  simp only [failBatch, List.mem_cons, List.not_mem_nil, or_false] at hq
  rcases hq with rfl | rfl | rfl | rfl
  · exact failGenerations_routine _ code now d d' r hd hstep
  · refine routine_updateJobs _ _ d d' r hd hstep (fun _ => rfl) ?_
    intro j _ hdone
    cases hdone
  · exact routine_of_eq d d' _ _ r hd hstep rfl rfl rfl rfl
  · exact routine_of_eq d d' _ _ r hd hstep rfl rfl rfl rfl

theorem createBatch_routine (input : CreateInput) (db db' : MaterializationDb)
    (rs : List (List String)) (h : Consistent db)
    (hrun : Batch.run (createBatch input) db = .ok (rs, db')) : Routine db db' := by
  refine batch_routine _ ?_ db db' rs h hrun
  intro q hq d d' r hd hstep
  simp only [createBatch, List.mem_cons, List.not_mem_nil, or_false] at hq
  rcases hq with rfl | rfl | rfl | rfl | rfl
  · exact routine_of_eq d d' _ _ r hd hstep rfl rfl rfl rfl
  · exact failGenerations_routine _ _ _ d d' r hd hstep
  · refine routine_updateJobs _ _ d d' r hd hstep (fun _ => rfl) ?_
    intro j _ hdone
    cases hdone
  · unfold insertGeneration at hstep
    split at hstep
    · split at hstep
      · cases hstep
      · next generations hinsert =>
        rw [Batch.ok_inj] at hstep
        exact hstep.2 ▸ routine_addGeneration d _ generations hd hinsert
    · exact routine_of_eq d d' _ _ r hd hstep rfl rfl rfl rfl
  · unfold insertJob at hstep
    split at hstep
    · exact routine_of_eq d d' _ _ r hd hstep rfl rfl rfl rfl
    · next g hg =>
      split at hstep
      · split at hstep
        · cases hstep
        · next jobs hinsert =>
          rw [Batch.ok_inj] at hstep
          refine hstep.2 ▸ routine_addJob d _ jobs hd ?_ ?_ hinsert
          · show generationVault d input.generationId = some g.vaultId
            rw [generationVault, hg, Option.map_some]
          · intro hdone
            cases hdone
      · exact routine_of_eq d d' _ _ r hd hstep rfl rfl rfl rfl

/-- Publishing a generation, completing its job and moving the pointer all leave
    what is there. -/
theorem publishBatch_persist (job : JobRow) (manifestSha256 : String) (now : Nat)
    (db db' : MaterializationDb) (rs : List (List String)) (h : Consistent db)
    (hrun : Batch.run (publishBatch job manifestSha256 now) db = .ok (rs, db')) :
    Persist db db' := by
  refine Batch.run_keeps (fun t => Persist db t) _ ?_ db db' rs hrun (Persist.refl db h)
  intro q hq d r d' hstep hsofar
  refine hsofar.trans ?_
  have hd := hsofar.consistent
  simp only [publishBatch, List.mem_cons, List.not_mem_nil, or_false] at hq
  rcases hq with rfl | rfl | rfl | rfl | rfl | rfl
  · rw [publishGeneration, Batch.ok_inj] at hstep
    rw [← hstep.2]
    refine (routine_updateGenerations _ _ ?_ ?_ d hd).toPersist
    · exact fun _ => rfl
    intro g hg hpublished
    rw [hpublished] at hg
    simp only [reduceCtorEq, decide_false, Bool.and_false, Bool.false_and, Bool.false_eq_true] at hg
  · exact setCurrent_persist now _ d d' r hd hstep
  · rw [(updateJobs_ok _ _ d d' r hstep).2]
    refine persist_updateJobs _ _ ?_ d hd
    exact fun _ => rfl
  · unfold auditCompleted at hstep
    split at hstep
    · exact (routine_of_eq d d' _ _ r hd hstep rfl rfl rfl rfl).toPersist
    · exact (routine_of_eq d d' _ _ r hd hstep rfl rfl rfl rfl).toPersist
  · rw [dropOtherSearchRows, Batch.ok_inj] at hstep
    exact hstep.2 ▸ persist_of_same d _ hd rfl rfl rfl
  · exact (routine_of_eq d d' _ _ r hd hstep rfl rfl rfl rfl).toPersist

/-! ## What a call asks for -/

/-- Two readings of one job, at different times. -/
def SameJob (job job' : JobRow) : Prop :=
  job.job.identity = job'.job.identity ∧ job.generation.identity = job'.generation.identity

/-- A job, as a call has read it, is in the tables. -/
def Known (job : JobRow) (db : MaterializationDb) : Prop :=
  (∃ j ∈ db.jobs, j.identity = job.job.identity) ∧
    ∃ g, generationOf db job.job.generationId = some g ∧ g.identity = job.generation.identity

/-- What a call about a job may ask for: notes of the job's vault, and to
    publish the job itself. -/
def Concerns (job : JobRow) : MaterializationOp → Prop
  | .projectNotes job' vaultId _ _ _ _ => SameJob job' job ∧ vaultId = job.job.vaultId
  | .publish job' _ _ => SameJob job' job
  | _ => True

/-- A request is about a job that is in the tables. -/
def Allowed (op : MaterializationOp) (s : MaterializationState) : Prop :=
  match op with
  | .projectNotes job vaultId _ _ _ _ => Known job s.db ∧ vaultId = job.job.vaultId
  | .publish job _ _ => Known job s.db
  | _ => True

theorem known_persist (job : JobRow) (db db' : MaterializationDb) (hp : Persist db db')
    (h : Known job db) : Known job db' := by
  rcases h with ⟨⟨j, hj, heq⟩, g, hg, hgeq⟩
  rcases hp.jobs j hj with ⟨j', hj', heq'⟩
  rcases hp.generations _ g hg with ⟨g', hg', hgeq'⟩
  exact ⟨⟨j', hj', heq'.trans heq⟩, g', hg', hgeq'.trans hgeq⟩

theorem known_same (job job' : JobRow) (db : MaterializationDb) (hsame : SameJob job' job)
    (h : Known job db) : Known job' db := by
  rcases h with ⟨⟨j, hj, heq⟩, g, hg, hgeq⟩
  have hgeneration : job'.job.generationId = job.job.generationId :=
    sameJob MaterializationJobRow.generationId (fun _ => rfl) hsame.1
  exact ⟨⟨j, hj, heq.trans hsame.1.symm⟩, g, hgeneration ▸ hg, hgeq.trans hsame.2.symm⟩

/-- A job that was read is one of the tables. -/
theorem jobRowOf_known (db : MaterializationDb) (jobId : String) (job : JobRow)
    (h : jobRowOf db jobId = some job) :
    job.job ∈ db.jobs ∧ job.job.id = jobId ∧ generationOf db job.job.generationId =
      some job.generation := by
  rw [jobRowOf, Option.bind_eq_some_iff] at h
  rcases h with ⟨j, hj, hgeneration⟩
  rw [Option.map_eq_some_iff] at hgeneration
  rcases hgeneration with ⟨g, hg, rfl⟩
  have hfound := Table.mem_of_find? MaterializationJobRow.id db.jobs jobId j hj
  exact ⟨hfound.1, hfound.2, hg⟩

/-! ## Requests -/

section

variable (sha256 : List UInt8 → String) (op : MaterializationOp)

/-- Every request but a publication is routine where it goes through. -/
theorem effect_routine (hop : ∀ job digest now, op ≠ .publish job digest now) (s t : MaterializationState)
    (r : op.Ret) (h : Consistent s.db) (hallowed : Allowed op s) (heffect : effect sha256 s op = .ok (r, t)) :
    Routine s.db t.db := by
  have hread : ∀ {α : Type} (f : MaterializationState → α) (a : α),
      reading f s = .ok (a, t) → Routine s.db t.db := by
    intro α f a hf
    rw [reading, Batch.ok_inj] at hf
    exact hf.2 ▸ Routine.refl s.db h
  have hstore : ∀ {α : Type} (a a' : α) (objects : String → Option (List UInt8)),
      storing a objects s = .ok (a', t) → Routine s.db t.db := by
    intro α a a' objects hf
    rw [storing, Batch.ok_inj] at hf
    exact hf.2 ▸ Routine.refl s.db h
  have hdb : ∀ {ρ α : Type} (q : MaterializationDb → Except D1Error (ρ × MaterializationDb))
      (answer : ρ → MaterializationDb → α) (a : α), onDb q answer s = .ok (a, t) →
      (∀ x db, q s.db = .ok (x, db) → Routine s.db db) → Routine s.db t.db := by
    intro ρ α q answer a hf hq
    rcases onDb_ok q answer s t a hf with ⟨x, db, hrun, -, rfl⟩
    exact hq x db hrun
  cases op with
  | readJobRow _ | readPublished _ _ | readCurrentForSource _ _ | readActiveForSource _ _
  | hasActiveJobs _ | readNotes _ _ | getRange _ _ _ =>
      rw [effect] at heffect
      exact hread _ r heffect
  | claimJob vaultId now =>
      rw [effect] at heffect
      exact hdb _ _ r heffect (fun ids db => claimStatement_routine vaultId now s.db db ids h)
  | projectNotes job vaultId notes nextOffset processed now =>
      rw [effect] at heffect
      have hvault : generationVault s.db job.job.generationId = some vaultId := by
        rcases hallowed with ⟨⟨⟨j, hj, heq⟩, -⟩, rfl⟩
        have hown := h.jobVaults j hj
        rwa [sameJob MaterializationJobRow.generationId (fun _ => rfl) heq,
          sameJob MaterializationJobRow.vaultId (fun _ => rfl) heq] at hown
      exact hdb _ _ r heffect (fun rs db => projectBatch_routine job vaultId notes nextOffset
        processed now s.db db rs h hvault)
  | publish job digest now => exact absurd rfl (hop job digest now)
  | countAttempt jobId now =>
      rw [effect] at heffect
      exact hdb _ _ r heffect (fun ids db => attemptStatement_routine jobId now s.db db ids h)
  | failJob job code now =>
      rw [effect] at heffect
      exact hdb _ _ r heffect (fun rs db => failBatch_routine job _ now s.db db rs h)
  | createJob input =>
      rw [effect] at heffect
      exact hdb _ _ r heffect (fun rs db => createBatch_routine input s.db db rs h)
  | queueObject key now =>
      rw [effect] at heffect
      refine hdb _ _ r heffect (fun x db hq => ?_)
      exact routine_of_eq s.db db _ _ x h hq rfl rfl rfl rfl
  | putStaging key bytes =>
      rw [effect] at heffect
      exact hstore _ r _ heffect
  | putNoteObject note =>
      rw [effect] at heffect
      exact hstore _ r _ heffect
  | putImmutableManifest key bytes =>
      rw [effect] at heffect
      split at heffect
      · exact hstore _ r _ heffect
      · split at heffect
        · rw [Batch.ok_inj] at heffect
          exact heffect.2 ▸ Routine.refl s.db h
        · cases heffect
  | deleteObject key =>
      rw [effect] at heffect
      exact hstore _ r _ heffect
  | setVaultStatus _ _ | recordSyncState _ =>
      rw [effect] at heffect
      refine hdb _ _ r heffect (fun x db hq => ?_)
      rw [Batch.ok_inj] at hq
      exact hq.2 ▸ routine_of_same s.db _ h rfl rfl rfl (fun r hr _ => ⟨r, hr, rfl⟩)

/-- However a request that is no publication ends, it was routine. -/
theorem exec_routine (hop : ∀ job digest now, op ≠ .publish job digest now) (w : Outcome)
    (s : MaterializationState) (h : Consistent s.db) (hallowed : Allowed op s) :
    Routine s.db (exec sha256 op w s).2.db :=
  send_keeps (fun t => Routine s.db t.db) JobError.other w (fun s => effect sha256 s op) s
    (fun r t heffect => effect_routine sha256 op hop s t r h hallowed heffect) (Routine.refl s.db h)

/-- However a request ends, it leaves what is there. -/
theorem exec_persist (w : Outcome)
    (s : MaterializationState) (h : Consistent s.db) (hallowed : Allowed op s) :
    Persist s.db (exec sha256 op w s).2.db := by
  by_cases hop : ∃ job digest now, op = .publish job digest now
  · rcases hop with ⟨job, digest, now, rfl⟩
    refine send_keeps (fun t => Persist s.db t.db) JobError.other w _ s ?_ (Persist.refl s.db h)
    intro r t heffect
    rcases onDb_ok _ _ s t r heffect with ⟨rs, db, hrun, -, rfl⟩
    exact publishBatch_persist job digest now s.db db rs h hrun
  · push Not at hop
    exact (exec_routine sha256 op hop w s h hallowed).toPersist

end

/-- What concerns a job that is in the tables is allowed. -/
theorem concerns_allowed (job : JobRow) (op : MaterializationOp) (s : MaterializationState)
    (hk : Known job s.db) (h : Concerns job op) : Allowed op s := by
  cases op with
  | projectNotes job' vaultId notes nextOffset processed now =>
      have hvault : job'.job.vaultId = job.job.vaultId :=
        sameJob MaterializationJobRow.vaultId (fun _ => rfl) h.1.1
      exact ⟨known_same job job' s.db h.1 hk, h.2.trans hvault.symm⟩
  | publish job' digest now => exact known_same job job' s.db h hk
  | _ => exact trivial

section Within

open Process

variable {A : MaterializationOp → Prop}

theorem within_ask (op : MaterializationOp) (h : A op) : (ask op).Within A (fun _ => True) :=
  within_request op h

theorem within_orCode {α : Type} (r : Except MaterializationErrorCode α) :
    (orCode r).Within A (fun _ => True) :=
  within_ofExcept _

section

variable (u : UnicodeTables) (sha256 : List UInt8 → String) (now : Nat) (job : JobRow)

theorem within_readStagedNotes (hget : ∀ key offset length, A (.getRange key offset length)) (count offset : Nat) :
    (readStagedNotes u job count offset).Within A (fun _ => True) := by
  induction count generalizing offset with
  | zero => exact trivial
  | succ count ih =>
      have hone : (readStagedNote u job offset).Within A (fun _ => True) := by
        unfold readStagedNote
        split
        · exact trivial
        · refine within_bind (within_ask _ (hget _ _ _)) (fun range _ => ?_)
          refine within_bind (within_orCode _) (fun bytes _ => ?_)
          refine within_bind (within_orCode _) (fun lengths _ => ?_)
          refine within_bind (within_ask _ (hget _ _ _)) (fun range _ => ?_)
          refine within_bind (within_orCode _) (fun bytes _ => ?_)
          exact within_bind (within_orCode _) (fun note _ => trivial)
      refine within_bind hone (fun staged _ => ?_)
      exact within_bind (ih _) (fun rest _ => trivial)

theorem within_writeObjects (notes : List PreparedNote) (room : Nat) (failed : Bool)
    (hput : ∀ note ∈ notes, A (.putNoteObject note)) :
    (writeObjects notes room failed).Within A (fun _ => True) := by
  induction notes generalizing room failed with
  | nil =>
      unfold writeObjects
      split
      · exact trivial
      · exact trivial
  | cons note rest ih =>
      unfold writeObjects
      split
      · exact trivial
      · refine within_bind (T := fun _ => True) ?_
          (fun stored _ => ih _ _ (fun n hn => hput n (List.mem_cons_of_mem _ hn)))
        refine within_tryCatch _ _ ?_ (fun _ => trivial)
        exact within_bind (within_ask _ (hput note List.mem_cons_self)) (fun _ _ => trivial)

theorem within_readMaterializationJob (vaultId jobId : String)
    (hrow : A (.readJobRow jobId)) (hgeneration : A (.readPublished vaultId jobId)) :
    (readMaterializationJob vaultId jobId).Within A (fun _ => True) := by
  unfold readMaterializationJob
  refine within_bind (within_ask _ hrow) (fun row _ => ?_)
  cases row with
  | some row => exact trivial
  | none => exact within_bind (within_ask _ hgeneration) (fun _ _ => trivial)

/-- What publishing a job may ask for is all in `A`. -/
structure Finishes (A : MaterializationOp → Prop) (job : JobRow) : Prop where
  readNotes : ∀ generationId vaultId, A (.readNotes generationId vaultId)
  putImmutableManifest : ∀ bytes, A (.putImmutableManifest job.generation.manifestKey bytes)
  publish : ∀ job' digest now, SameJob job' job → A (.publish job' digest now)
  readJobRow : ∀ jobId, A (.readJobRow jobId)
  deleteObject : A (.deleteObject job.job.stagingObjectKey)
  queueObject : ∀ key now, A (.queueObject key now)

/-- What working on a job may ask for is all in `A`. -/
structure Serves (A : MaterializationOp → Prop) (job : JobRow) : Prop where
  getRange : ∀ key offset length, A (.getRange key offset length)
  putNoteObject : ∀ note stem, note.r2Key = stem ++ ".md" → A (.putNoteObject note)
  projectNotes : ∀ job' notes nextOffset processed now, SameJob job' job →
    A (.projectNotes job' job.job.vaultId notes nextOffset processed now)
  readNotes : ∀ generationId vaultId, A (.readNotes generationId vaultId)
  putImmutableManifest : ∀ bytes, A (.putImmutableManifest job.generation.manifestKey bytes)
  publish : ∀ job' digest now, SameJob job' job → A (.publish job' digest now)
  readJobRow : ∀ jobId, A (.readJobRow jobId)
  deleteObject : A (.deleteObject job.job.stagingObjectKey)
  queueObject : ∀ key now, A (.queueObject key now)
  countAttempt : ∀ jobId now, A (.countAttempt jobId now)
  failJob : ∀ code now, A (.failJob job code now)

theorem Serves.finishes {job : JobRow} (h : Serves A job) : Finishes A job :=
  { readNotes := h.readNotes
    putImmutableManifest := h.putImmutableManifest
    publish := h.publish
    readJobRow := h.readJobRow
    deleteObject := h.deleteObject
    queueObject := h.queueObject }

/-- The keys of prepared notes end as such keys do. -/
theorem prepareNotes_key (vaultId : String)
    (notes : List MaterializedSnapshotNote) (note : PreparedNote)
    (h : note ∈ prepareNotes sha256 vaultId notes) : ∃ stem, note.r2Key = stem ++ ".md" := by
  rcases List.mem_map.mp h with ⟨n, -, rfl⟩
  exact ⟨_, rfl⟩

/-- The notes to write are among the notes. -/
theorem mem_uniqueByContent (notes : List PreparedNote) (note : PreparedNote)
    (h : note ∈ uniqueByContent notes) : note ∈ notes := by
  have hadd : ∀ unique m n, n ∈ addUnique unique m → n ∈ unique ∨ n = m := by
    intro unique m n hn
    unfold addUnique at hn
    split at hn
    · rcases List.mem_map.mp hn with ⟨k, hk, rfl⟩
      split
      · exact Or.inr rfl
      · exact Or.inl hk
    · exact (List.mem_append.mp hn).imp id List.mem_singleton.mp
  have hfold : ∀ (rest unique : List PreparedNote), ∀ n ∈ rest.foldl addUnique unique,
      n ∈ unique ∨ n ∈ rest := by
    intro rest
    induction rest with
    | nil => exact fun unique n hn => Or.inl hn
    | cons m rest ih =>
        intro unique n hn
        rcases ih _ n hn with hfound | hlater
        · rcases hadd unique m n hfound with hold | rfl
          · exact Or.inl hold
          · exact Or.inr List.mem_cons_self
        · exact Or.inr (List.mem_cons_of_mem _ hlater)
  rcases hfold notes [] note h with hnone | hmem
  · cases hnone
  · exact hmem

/-- Publishing a job asks for nothing else. -/
theorem within_finalizeWhenDone (job job' : JobRow)
    (hserves : Finishes A job) (hsame : SameJob job' job) :
    (finalizeWhenDone sha256 now job').Within A (fun _ => True) := by
  have hmanifest : job'.generation.manifestKey = job.generation.manifestKey :=
    sameGeneration GenerationRow.manifestKey (fun _ => rfl) hsame.2
  have hstaging : job'.job.stagingObjectKey = job.job.stagingObjectKey :=
    sameJob MaterializationJobRow.stagingObjectKey (fun _ => rfl) hsame.1
  unfold finalizeWhenDone
  split
  · split
    · exact trivial
    · refine within_bind (within_ask _ (hserves.readNotes _ _)) (fun notes _ => ?_)
      split
      · exact trivial
      · rw [hmanifest]
        refine within_bind (within_ask _ (hserves.putImmutableManifest _)) (fun _ _ => ?_)
        refine within_bind (within_ask _ (hserves.publish _ _ _ hsame)) (fun published _ => ?_)
        refine within_bind (T := fun _ => True) ?_ (fun _ _ => ?_)
        · unfold confirmPublished
          split
          · exact trivial
          · refine within_bind (within_ask _ (hserves.readJobRow _)) (fun current _ => ?_)
            split
            · exact trivial
            · exact trivial
        · unfold deleteStaged
          rw [hstaging]
          exact within_tryCatch _ _ (within_ask _ hserves.deleteObject)
            (fun _ => within_ask _ (hserves.queueObject _ _))
  · exact trivial

/-- Nor does projecting its notes, in the vault of the job; and the job it goes
    on with is the same. -/
theorem within_projectNext (hserves : Serves A job) :
    (projectNext u sha256 job.job.vaultId now job).Within A (fun job' => SameJob job' job) := by
  unfold projectNext
  refine within_bind (within_readStagedNotes u job hserves.getRange _ _) (fun read _ => ?_)
  split
  · exact ⟨rfl, rfl⟩
  · refine within_bind (within_writeObjects _ _ _ (fun note hnote => ?_)) (fun _ _ => ?_)
    · rcases prepareNotes_key sha256 _ _ note (mem_uniqueByContent _ note hnote) with ⟨stem, hkey⟩
      exact hserves.putNoteObject note stem hkey
    · exact within_bind (within_ask _ (hserves.projectNotes _ _ _ _ _ ⟨rfl, rfl⟩))
        (fun _ _ => ⟨rfl, rfl⟩)

/-- Nor does working on a job altogether, whether or not it fails. -/
theorem within_continueJob (hserves : Serves A job) :
    (continueJob u sha256 job.job.vaultId now job).Within A (fun _ => True) := by
  refine within_tryCatch _ _ ?_ (fun error => ?_)
  · exact within_bind (within_projectNext u sha256 now job hserves)
      (fun job' hsame => within_finalizeWhenDone sha256 now job job' hserves.finishes hsame)
  · refine within_bind (within_ask _ (hserves.countAttempt _ _)) (fun attempt _ => ?_)
    split
    · exact within_ask _ (hserves.failJob _ _)
    · exact trivial

theorem concerns_serves : Serves (Concerns job) job :=
  { getRange := fun _ _ _ => trivial
    putNoteObject := fun _ _ _ => trivial
    projectNotes := fun _ _ _ _ _ hsame => ⟨hsame, rfl⟩
    readNotes := fun _ _ => trivial
    putImmutableManifest := fun _ => trivial
    publish := fun _ _ _ hsame => hsame
    readJobRow := fun _ => trivial
    deleteObject := trivial
    queueObject := fun _ _ => trivial
    countAttempt := fun _ _ => trivial
    failJob := fun _ _ => trivial }

end

/-- What creating a job may ask for. -/
def Creating (input : CreateInput) : MaterializationOp → Prop
  | .readCurrentForSource _ _ | .readActiveForSource _ _ | .readJobRow _ | .readPublished _ _ =>
      True
  | .putStaging key _ | .deleteObject key => key = input.stagingObjectKey
  | .createJob input' => input' = input
  | _ => False

/-- Creating a job neither projects nor publishes nor fails any. -/
theorem within_createMaterializationJob (input : CreateInput) :
    (createMaterializationJob input).Within (Creating input) (fun _ => True) := by
  have hread : ∀ vaultId jobId, (readMaterializationJob vaultId jobId).Within
      (Creating input) (fun _ => True) :=
    fun vaultId jobId => within_readMaterializationJob vaultId jobId trivial trivial
  unfold createMaterializationJob
  refine within_bind (T := fun _ => True) ?_ (fun current _ => ?_)
  · refine within_bind (within_ask _ trivial) (fun row _ => ?_)
    cases row with
    | none => exact trivial
    | some id => exact hread _ _
  cases current with
  | some _ => exact trivial
  | none =>
      refine within_bind (T := fun _ => True) ?_ (fun active _ => ?_)
      · refine within_bind (within_ask _ trivial) (fun row _ => ?_)
        cases row with
        | none => exact trivial
        | some id => exact hread _ _
      cases active with
      | some _ => exact trivial
      | none =>
          refine within_bind (within_ask _ rfl) (fun stored _ => ?_)
          split
          · exact trivial
          · refine within_bind (T := fun _ => True) ?_ (fun _ _ => ?_)
            · refine within_tryCatch _ _ ?_ (fun e => ?_)
              · refine within_bind (within_ask _ rfl) (fun results _ => ?_)
                split
                · exact trivial
                · exact trivial
              · refine within_bind (T := fun _ => True) ?_ (fun _ _ => trivial)
                exact within_tryCatch (T := fun _ => True) _ _
                  (within_ask (.deleteObject input.stagingObjectKey) rfl)
                  (fun _ => trivial)
            · refine within_bind (hread _ _)
                (fun created _ => ?_)
              cases created with
              | none => exact trivial
              | some _ => exact trivial

end Within

/-- What a call of the queue claims is a job of its vault. -/
theorem claimed_vault (sha256 : List UInt8 → String) (vaultId jobId : String) (now : Nat)
    (w : Outcome) (s : MaterializationState)
    (h : (exec sha256 (.claimJob vaultId now) w s).1 = .ok (some jobId)) :
    ∃ j ∈ (exec sha256 (.claimJob vaultId now) w s).2.db.jobs, j.id = jobId ∧
      j.vaultId = vaultId := by
  have heffect := send_ok JobError.other w _ s _ h
  rcases onDb_ok _ _ s _ _ heffect with ⟨ids, db, hclaim, hids, hdb⟩
  rcases claimStatement_ok vaultId now s.db db ids hclaim with
    ⟨rfl, -⟩ | ⟨job, hjob, hvault, -, hupdate⟩
  · cases hids
  · rcases updateJobs_ok _ _ s.db db ids hupdate with ⟨rfl, rfl⟩
    have hmem := List.mem_of_head? hids.symm
    rcases List.mem_map.mp hmem with ⟨j, hj, hid⟩
    rw [List.mem_filter, decide_eq_true_eq] at hj
    have hupdated := Table.update_mem (fun j => decide (j.id = job.id))
      (fun j => { j with status := .running, updatedAt := now }) s.db.jobs job hjob
    rw [if_pos (decide_eq_true rfl)] at hupdated
    refine ⟨{ job with status := .running, updatedAt := now }, ?_, hj.2.symm.trans hid, hvault⟩
    rw [exec, hdb]
    exact hupdated

/-- Where keys are distinct, a job that was read is the one that has its
    identifier. -/
theorem jobRowOf_unique (db : MaterializationDb) (h : Consistent db) (jobId : String)
    (job : JobRow) (hrow : jobRowOf db jobId = some job) (j : MaterializationJobRow)
    (hj : j ∈ db.jobs) (hid : j.id = jobId) : job.job = j := by
  rw [jobRowOf, Option.bind_eq_some_iff] at hrow
  rcases hrow with ⟨found, hfound, hgeneration⟩
  rw [Option.map_eq_some_iff] at hgeneration
  rcases hgeneration with ⟨g, -, rfl⟩
  have hone := Table.find?_of_mem MaterializationJobRow.id db.jobs j h.jobIds hj
  rw [hid] at hone
  rw [jobOf, hone, Option.some.injEq] at hfound
  exact hfound.symm

section Meets

open Process

variable (sha256 : List UInt8 → String)

/-- What every call of the system does, given what the others do. -/
abbrev MeetsAllowed {α : Type} (p : JobProcess α) (s : MaterializationState) : Prop :=
  p.Meets (exec sha256) (fun _ _ _ => True) (fun s => Consistent s.db) (fun s t => Persist s.db t.db)
    Allowed (fun _ _ => True) s

/-- A call about a job that is in the tables. -/
theorem meets_of_concerns {α : Type} {T : α → Prop} (job : JobRow) (p : JobProcess α)
    (s : MaterializationState) (hk : Known job s.db) (hp : p.Within (Concerns job) T) :
    MeetsAllowed sha256 p s :=
  meets_of_within (fun s => Known job s.db) (fun s t hs hst => known_persist job s.db t.db hst hs)
    (fun op w t ht hop _ hkt => known_persist job t.db _ (exec_persist sha256 op w t ht hop) hkt)
    (fun op t _ hkt hop => concerns_allowed job op t hkt hop) (fun _ _ _ => trivial) p s hk hp

/-- Creating a job asks for nothing that has to be about one. -/
theorem creating_allowed {input : CreateInput} (op : MaterializationOp) (h : Creating input op)
    (s : MaterializationState) : Allowed op s := by
  cases op with
  | projectNotes => exact h.elim
  | publish => exact h.elim
  | _ => exact trivial

/-- A call about no job. -/
theorem create_meets (input : CreateInput) (s : MaterializationState) :
    MeetsAllowed sha256 (createMaterializationJob input) s :=
  meets_of_within (fun _ => True) (fun _ _ _ _ => trivial) (fun _ _ _ _ _ _ _ => trivial)
    (fun _ t _ _ hop => hop t) (fun _ _ _ => trivial) _ s trivial
    (within_mono creating_allowed _ (within_createMaterializationJob input))

/-- A call of the queue does what working on its job does, from wherever it
    reads the job. -/
theorem continueNext_meets_of (u : UnicodeTables)
    {C : MaterializationOp → Outcome → MaterializationState → Prop}
    {I : MaterializationState → Prop}
    {R : MaterializationState → MaterializationState → Prop}
    {P : MaterializationOp → MaterializationState → Prop} (hI : ∀ s, I s → Consistent s.db)
    (hR : ∀ s t, R s t → Persist s.db t.db) (vaultId : String) (now : Nat)
    (hclaim : ∀ s, P (.claimJob vaultId now) s) (hread : ∀ jobId s, P (.readJobRow jobId) s)
    (hmore : ∀ s, P (.hasActiveJobs vaultId) s)
    (hwork : ∀ job t, I t → job.job.vaultId = vaultId → jobRowOf t.db job.job.id = some job →
      (continueJob u sha256 vaultId now job).Meets (exec sha256) C I R P (fun _ _ => True) t)
    (s : MaterializationState) :
    (continueNextMaterializationJob u sha256 vaultId now).Meets (exec sha256) C I R P
      (fun _ _ => True) s := by
  refine meets_request (MaterializationOp.claimJob vaultId now) _ s (fun t ht hst =>
    ⟨hclaim t, fun w _ => ⟨fun claimed hclaimed => ?_, fun _ _ => trivial⟩⟩)
  cases claimed with
  | none => exact trivial
  | some jobId =>
      rcases claimed_vault sha256 vaultId jobId now w t hclaimed with ⟨j, hj, hid, hvault⟩
      refine meets_request (MaterializationOp.readJobRow jobId) _ _ (fun t' ht' hrelated =>
        ⟨hread jobId t', fun w' _ => ⟨fun row hrow => ?_, fun _ _ => trivial⟩⟩)
      cases row with
      | none => exact fun t'' _ _ => ⟨hmore t'', fun _ _ => trivial⟩
      | some job =>
          -- The job read is the one claimed, whatever happened to it meanwhile.
          have hanswer := send_ok JobError.other w' _ t' _ hrow
          rw [effect, reading, Batch.ok_inj] at hanswer
          rcases (hR _ _ hrelated).jobs j hj with ⟨j', hj', heq⟩
          have hid' : j'.id = jobId :=
            (sameJob MaterializationJobRow.id (fun _ => rfl) heq).trans hid
          have hjob : job.job = j' :=
            jobRowOf_unique t'.db (hI t' ht') jobId job hanswer.1 j' hj' hid'
          have hvault' : job.job.vaultId = vaultId := by
            rw [hjob]
            exact (sameJob MaterializationJobRow.vaultId (fun _ => rfl) heq).trans hvault
          have hsame : jobRowOf t'.db job.job.id = some job := by
            rw [hjob, hid']
            exact hanswer.1
          have hbody := hwork job t' ht' hvault' hsame
          rw [hanswer.2] at hbody
          refine meets_bind _ _ _ (meets_mono (fun _ _ h => h) ?_ _ _ hbody)
          intro r t'' _
          cases r with
          | ok _ => exact fun t₃ _ _ => ⟨hmore t₃, fun _ _ => trivial⟩
          | error e => exact trivial

/-- A call of the queue asks only for what concerns a job it has read. -/
theorem continueNext_meets (u : UnicodeTables) (vaultId : String) (now : Nat)
    (s : MaterializationState) :
    MeetsAllowed sha256 (continueNextMaterializationJob u sha256 vaultId now) s := by
  refine continueNext_meets_of sha256 u (fun _ h => h) (fun _ _ h => h) vaultId now
    (fun _ => trivial) (fun _ _ => trivial) (fun _ => trivial) ?_ s
  rintro job t - rfl hrow
  have hread := jobRowOf_known t.db job.job.id job hrow
  have hknown : Known job t.db := ⟨⟨job.job, hread.1, rfl⟩, job.generation, hread.2.2, rfl⟩
  exact meets_of_concerns sha256 job _ t hknown
    (within_continueJob u sha256 now job (concerns_serves job))

end Meets

end Mdevolved.Materialization
