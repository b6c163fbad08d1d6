import Mdevolved.Materialization.Consistency

/-!
# Publishing a Generation

The batch of `finalizeJob` is to publish a generation, make it the current one
of its vault and complete its job, all of it or nothing. Its statements are
guarded one by one. Publishing asks for a staged generation of an active vault,
completing for a running job, and the rest asks for nothing, so a batch that
goes through may do some of it: a vault revoked while its last notes were being
projected has its job completed and the search rows of its current generation
dropped, while the new generation stays staged for good. A call that publishes
a second time, after another has published a newer generation, moves the
pointer back.

`publication_together_iff` says exactly when it does not. A run never leaves a
publication half done, a job completed without its generation, or a vault
without the search rows of its current generation, if and only if each batch
that goes through finds the generation staged, its vault active and its job
running, or finds nothing left to do.

## Main definitions

* `PublishedTogether`, `LeftAlone`: All of it, and nothing.
* `CompletedPublished`: Completed jobs have published their generations.
* `SearchKept`: Current generations keep their search rows.
* `Ready`, `NothingLeft`: What a batch may find.
* `PublishesTogether`: What a request leaves.

## Theorems

* `publishBatch_effect`: What the batch does, table by table.
* `together_or_alone_iff`: When it does all of it or nothing.
* `publication_together_iff`: Which runs keep publications whole.
* `revokedWhilePublishing_tears`: A run that does not.
* `generations_stay`: What no run does to jobs and generations.
-/

namespace Mdevolved.Materialization

open Mdevolved.Vault Batch

/-- The generation is published, current, and its job completed, none of which
    it was. -/
structure PublishedTogether (job : JobRow) (db db' : MaterializationDb) : Prop where
  wasStaged : generationStatus db job.job.generationId = some .staging
  wasRunning : jobStatus db job.job.id = some .running
  published : generationStatus db' job.job.generationId = some .published
  current : currentOf db' job.job.vaultId = some job.job.generationId
  completed : jobStatus db' job.job.id = some .completed

/-- Nothing of the generation, the pointer, the job, the search rows and the
    stale flag has changed. -/
structure LeftAlone (job : JobRow) (db db' : MaterializationDb) : Prop where
  generation : generationOf db' job.job.generationId = generationOf db job.job.generationId
  current : currentOf db' job.job.vaultId = currentOf db job.job.vaultId
  status : jobStatus db' job.job.id = jobStatus db job.job.id
  search : db'.search = db.search
  stale : staleOf db' job.job.vaultId = staleOf db job.job.vaultId

/-- Every completed job has its generation published. -/
def CompletedPublished (db : MaterializationDb) : Prop :=
  ∀ j ∈ db.jobs, j.status = .completed →
    generationStatus db j.generationId = some .published

/-- Of the generation that is current and published, no search row was lost. -/
def SearchKept (db db' : MaterializationDb) : Prop :=
  ∀ r ∈ db.search, currentOf db' r.vaultId = some r.generationId →
    generationStatus db' r.generationId = some .published → ∃ r' ∈ db'.search, r'.key = r.key

/-- The generation is staged in an active vault, and its job is running. -/
structure Ready (job : JobRow) (db : MaterializationDb) : Prop where
  staged : generationStatus db job.job.generationId = some .staging
  active : vaultActive db job.job.vaultId = true
  running : jobStatus db job.job.id = some .running

/-- Each statement of the batch finds what it would leave. -/
structure NothingLeft (job : JobRow) (db : MaterializationDb) : Prop where
  unpublishable : generationStatus db job.job.generationId = some .staging →
    vaultActive db job.job.vaultId = false
  notRunning : jobStatus db job.job.id ≠ some .running
  current : generationStatus db job.job.generationId = some .published →
    currentOf db job.job.vaultId = some job.job.generationId
  search : ∀ r ∈ db.search, r.vaultId = job.job.vaultId → r.generationId = job.job.generationId
  stale : ∀ s, syncStateOf db job.job.vaultId = some s →
    s.libraryStale = staleAgainst s.currentStateVectorSha256 job.job.sourceStateVectorSha256

/-- The clock is not behind the creation of a job that is to be completed, which
    the table checks. -/
def ClockAllows (job : JobRow) (now : Nat) (db : MaterializationDb) : Prop :=
  ∀ j ∈ db.jobs, j.id = job.job.id → j.status = .running → j.createdAt ≤ now

/-! ## The batch -/

/-- The row of a generation after `publishGeneration`. -/
def publishedRow (manifestSha256 : String) (now : Nat) (g : GenerationRow) : GenerationRow :=
  { g with
    status := .published, manifestSha256 := some manifestSha256, completedAt := some now }

/-- The row of a job after `completeJob`. -/
def completedRow (now : Nat) (j : MaterializationJobRow) : MaterializationJobRow :=
  { j with
    status := .completed, processedNoteCount := j.totalNoteCount, completedAt := some now
    updatedAt := now, attemptCount := 0 }

/-- The sync state of a vault after `refreshSyncState`. -/
def refreshedRow (source : String) (now : Nat) (s : SyncStateRow) : SyncStateRow :=
  { s with
    libraryStale := staleAgainst s.currentStateVectorSha256 source
    lastErrorCode := none, lastErrorAt := none, updatedAt := now }

/-- The generations the batch publishes. -/
def publishes (job : JobRow) (db : MaterializationDb) (g : GenerationRow) : Bool :=
  g.id = job.job.generationId && g.status = .staging && vaultActive db g.vaultId

/-- The jobs the batch completes. -/
def completes (job : JobRow) (j : MaterializationJobRow) : Bool :=
  j.id = job.job.id && j.status = .running

/-- The identifiers the batch returns. -/
def publishResults (job : JobRow) (db : MaterializationDb) : List (List String) :=
  [(db.generations.filter (publishes job db)).map GenerationRow.id, [],
    (db.jobs.filter (completes job)).map MaterializationJobRow.id, [], [], []]

/-- What the batch does to each table, where it goes through. -/
structure PublishEffect (job : JobRow) (manifestSha256 : String) (now : Nat)
    (db db' : MaterializationDb) : Prop where
  generations : db'.generations =
    Table.update (publishes job db) (publishedRow manifestSha256 now) db.generations
  jobs : db'.jobs = Table.update (completes job) (completedRow now) db.jobs
  notes : db'.notes = db.notes
  current : ∀ v, currentOf db' v =
    if v = job.job.vaultId ∧ generationStatus db' job.job.generationId = some .published then
      some job.job.generationId
    else currentOf db v
  search : db'.search = db.search.filter
    (fun r => !(r.vaultId = job.job.vaultId && r.generationId ≠ job.job.generationId))
  stale : staleOf db' job.job.vaultId = (syncStateOf db job.job.vaultId).map
    (fun s => staleAgainst s.currentStateVectorSha256 job.job.sourceStateVectorSha256)

/-- A pointer to a generation no other vault points to. -/
theorem pointTo_ok (vaultId generationId : String) (now : Nat) (rows : List CurrentRow)
    (hfree : ∀ c ∈ rows, c.generationId = generationId → c.vaultId = vaultId) :
    ∃ rows', pointTo vaultId generationId now rows = .ok rows' ∧
      ∀ v, (rows'.find? (fun c => c.vaultId = v)).map CurrentRow.generationId =
        if v = vaultId then some generationId
        else (rows.find? (fun c => c.vaultId = v)).map CurrentRow.generationId := by
  have hnone : ¬ rows.any (fun c => c.generationId = generationId && c.vaultId ≠ vaultId) = true := by
    intro hany
    rcases List.any_eq_true.mp hany with ⟨c, hc, hboth⟩
    rw [Bool.and_eq_true, decide_eq_true_eq, decide_eq_true_eq] at hboth
    exact hboth.2 (hfree c hc hboth.1)
  unfold pointTo
  rw [if_neg hnone]
  by_cases hthere : rows.any (fun c => c.vaultId = vaultId) = true
  · rw [if_pos hthere]
    refine ⟨_, rfl, fun v => ?_⟩
    have hkeyed := Table.find?_update CurrentRow.vaultId (fun c => c.vaultId = vaultId)
      (fun c => { c with generationId := generationId, updatedAt := now }) (fun _ => rfl) rows v
    rw [hkeyed]
    by_cases hv : v = vaultId
    · rw [if_pos hv]
      rcases List.any_eq_true.mp hthere with ⟨c, hc, hcv⟩
      rw [decide_eq_true_eq] at hcv
      cases hfound : rows.find? (fun c => c.vaultId = v) with
      | none =>
          have hnot := List.find?_eq_none.mp hfound c hc
          exact absurd (decide_eq_true (hcv.trans hv.symm)) hnot
      | some found =>
          have hmem := Table.mem_of_find? CurrentRow.vaultId rows v found hfound
          rw [Option.map_some, if_pos (decide_eq_true (hmem.2.trans hv)), Option.map_some]
    · rw [if_neg hv, Option.map_map]
      cases hfound : rows.find? (fun c => c.vaultId = v) with
      | none => rfl
      | some found =>
          have hmem := Table.mem_of_find? CurrentRow.vaultId rows v found hfound
          have hskip : ¬ decide (found.vaultId = vaultId) = true := by
            rw [decide_eq_true_eq, hmem.2]
            exact hv
          rw [Option.map_some, Option.map_some, Function.comp, if_neg hskip]
  · rw [if_neg hthere]
    refine ⟨_, rfl, fun v => ?_⟩
    rw [List.find?_append]
    by_cases hv : v = vaultId
    · have hmissing : rows.find? (fun c => c.vaultId = v) = none := by
        rw [List.find?_eq_none]
        intro c hc hcv
        rw [decide_eq_true_eq] at hcv
        exact hthere (List.any_eq_true.mpr ⟨c, hc, decide_eq_true (hcv.trans hv)⟩)
      rw [if_pos hv, hmissing, Option.none_or, List.find?_singleton,
        if_pos (decide_eq_true hv.symm), Option.map_some]
    · have hskip : ¬ decide (vaultId = v) = true := by
        rw [decide_eq_true_eq]
        exact fun heq => hv heq.symm
      rw [if_neg hv, List.find?_singleton, if_neg hskip, Option.or_none]

/-- The pointer of the generation's vault, after `setCurrent`. -/
theorem setCurrent_ok (now : Nat) (generationId vaultId : String) (db : MaterializationDb)
    (h : Consistent db) (hvault : generationVault db generationId = some vaultId) :
    ∃ current, setCurrent now generationId db = .ok ([], { db with current := current }) ∧
      ∀ v, currentOf { db with current := current } v =
        if v = vaultId ∧ generationStatus db generationId = some .published then some generationId
        else currentOf db v := by
  rw [generationVault, Option.map_eq_some_iff] at hvault
  rcases hvault with ⟨g, hg, rfl⟩
  have hstatus : generationStatus db generationId = some g.status := by
    rw [generationStatus, hg, Option.map_some]
  unfold setCurrent
  rw [hg, hstatus]
  simp only []
  by_cases hpublished : g.status = .published
  · have hfree : ∀ c ∈ db.current, c.generationId = generationId → c.vaultId = g.vaultId := by
      intro c hc hgeneration
      have hown := h.currentVaults c hc
      rw [hgeneration, generationVault, hg, Option.map_some, Option.some.injEq] at hown
      exact hown.symm
    rcases pointTo_ok g.vaultId generationId now db.current hfree with ⟨current, hpoint, hfind⟩
    rw [if_pos hpublished, hpoint]
    refine ⟨current, rfl, fun v => ?_⟩
    rw [hpublished]
    simp only [and_true]
    exact hfind v
  · rw [if_neg hpublished]
    refine ⟨db.current, rfl, fun v => ?_⟩
    rw [if_neg]
    rintro ⟨-, heq⟩
    exact hpublished (Option.some.inj heq)

/-- A job in the tables is of its generation's vault. -/
theorem known_vault (job : JobRow) (db : MaterializationDb) (h : Consistent db)
    (hk : Known job db) : generationVault db job.job.generationId = some job.job.vaultId := by
  rcases hk with ⟨⟨j, hj, heq⟩, -⟩
  have hown := h.jobVaults j hj
  rwa [sameJob MaterializationJobRow.generationId (fun _ => rfl) heq,
    sameJob MaterializationJobRow.vaultId (fun _ => rfl) heq] at hown

/-- The stale flag of a vault, after `refreshSyncState`. -/
theorem stale_refreshed (source vaultId : String) (now : Nat) (rows : List SyncStateRow) :
    ((Table.update (fun s => s.vaultId = vaultId) (refreshedRow source now) rows).find?
        (fun s => s.vaultId = vaultId)).map SyncStateRow.libraryStale =
      (rows.find? (fun s => s.vaultId = vaultId)).map
        (fun s => staleAgainst s.currentStateVectorSha256 source) := by
  have hkeyed := Table.find?_update SyncStateRow.vaultId (fun s => s.vaultId = vaultId)
    (refreshedRow source now) (fun _ => rfl) rows vaultId
  rw [hkeyed, Option.map_map]
  cases hfound : rows.find? (fun s => s.vaultId = vaultId) with
  | none => rfl
  | some s =>
      have hmem := Table.mem_of_find? SyncStateRow.vaultId rows vaultId s hfound
      rw [Option.map_some, Option.map_some, Function.comp, if_pos (decide_eq_true hmem.2)]
      rfl

/-- What the batch does, and that it goes through where the clock allows it. -/
theorem publishBatch_effect (job : JobRow) (manifestSha256 : String) (now : Nat)
    (db : MaterializationDb) (h : Consistent db) (hk : Known job db) :
    (ClockAllows job now db → ∃ db',
      Batch.run (publishBatch job manifestSha256 now) db = .ok (publishResults job db, db') ∧
        PublishEffect job manifestSha256 now db db') ∧
    (¬ ClockAllows job now db → ∃ e,
      Batch.run (publishBatch job manifestSha256 now) db = .error e) := by
  let published : MaterializationDb := { db with
    generations := Table.update (publishes job db) (publishedRow manifestSha256 now)
      db.generations }
  have hfirst : publishGeneration manifestSha256 now job.job.generationId db =
      .ok ((db.generations.filter (publishes job db)).map GenerationRow.id, published) := rfl
  have hroutine : Routine db published := by
    refine routine_updateGenerations (publishes job db) (publishedRow manifestSha256 now)
      (fun _ => rfl) ?_ db h
    intro g hg hstatus
    simp only [publishes, hstatus, reduceCtorEq, decide_false, Bool.and_false, Bool.false_and,
      Bool.false_eq_true] at hg
  have hvault := hroutine.toPersist.vault _ _ (known_vault job db h hk)
  rcases setCurrent_ok now job.job.generationId job.job.vaultId published hroutine.consistent
    hvault with ⟨current, hsecond, hcurrent⟩
  have hallows : ((published.jobs.filter (completes job)).all
      (fun j => (completedRow now j).createdAt ≤ (completedRow now j).updatedAt)) = true ↔
      ClockAllows job now db := by
    rw [List.all_eq_true]
    constructor
    · intro hall j hj hid hrunning
      have hmem : j ∈ published.jobs.filter (completes job) := by
        rw [List.mem_filter, completes, hid, hrunning]
        exact ⟨hj, by rw [decide_eq_true rfl, decide_eq_true rfl, Bool.and_self]⟩
      exact of_decide_eq_true (hall j hmem)
    · intro hclock j hj
      rw [List.mem_filter, completes, Bool.and_eq_true, decide_eq_true_eq, decide_eq_true_eq] at hj
      exact decide_eq_true (hclock j hj.1 hj.2.1 hj.2.2)
  constructor
  · intro hclock
    let completed : MaterializationDb := { published with
      current := current
      jobs := Table.update (completes job) (completedRow now) published.jobs }
    have hthird : completeJob now job.job.id { published with current := current } =
        .ok ((published.jobs.filter (completes job)).map MaterializationJobRow.id, completed) :=
      if_pos (hallows.mpr hclock)
    have hfourth : ∃ audited, auditCompleted job.job.requestId now job.job.id completed =
        .ok ([], { completed with auditEvents := audited }) := by
      unfold auditCompleted
      split
      · exact ⟨_, rfl⟩
      · exact ⟨completed.auditEvents, rfl⟩
    rcases hfourth with ⟨audited, hfourth⟩
    let refreshed : MaterializationDb := { completed with
      auditEvents := audited
      search := db.search.filter
        (fun r => !(r.vaultId = job.job.vaultId && r.generationId ≠ job.job.generationId))
      syncStates := Table.update (fun s => s.vaultId = job.job.vaultId)
        (refreshedRow job.job.sourceStateVectorSha256 now) db.syncStates }
    refine ⟨refreshed, ?_, ?_⟩
    · simp only [publishBatch, Batch.run, hfirst, hsecond, hthird, hfourth]
      rfl
    · exact {
        generations := rfl
        jobs := rfl
        notes := rfl
        current := hcurrent
        search := rfl
        stale := stale_refreshed job.job.sourceStateVectorSha256 job.job.vaultId now
          db.syncStates }
  · intro hbehind
    have hthird : completeJob now job.job.id { published with current := current } =
        .error .constraint := if_neg (fun hall => hbehind (hallows.mp hall))
    refine ⟨.constraint, ?_⟩
    simp only [publishBatch, Batch.run, hfirst, hsecond, hthird]

/-! ## All of it or nothing -/

section Effect

variable {job : JobRow} {manifestSha256 : String} {now : Nat} {db db' : MaterializationDb}

theorem generationOf_published (he : PublishEffect job manifestSha256 now db db') (id : String) :
    generationOf db' id = (generationOf db id).map
      (fun g => if publishes job db g then publishedRow manifestSha256 now g else g) := by
  rw [generationOf, he.generations]
  exact Table.find?_update GenerationRow.id (publishes job db) (publishedRow manifestSha256 now)
    (fun _ => rfl) db.generations id

theorem jobStatus_completed (he : PublishEffect job manifestSha256 now db db') :
    jobStatus db' job.job.id =
      if jobStatus db job.job.id = some .running then some .completed
      else jobStatus db job.job.id := by
  have hkeyed : jobOf db' job.job.id = (jobOf db job.job.id).map
      (fun j => if completes job j then completedRow now j else j) := by
    rw [jobOf, he.jobs]
    exact Table.find?_update MaterializationJobRow.id (completes job) (completedRow now)
      (fun _ => rfl) db.jobs job.job.id
  rw [jobStatus, jobStatus, hkeyed]
  cases hfound : jobOf db job.job.id with
  | none => rfl
  | some j =>
      have hmem := Table.mem_of_find? MaterializationJobRow.id db.jobs job.job.id j hfound
      simp only [Option.map_some, Option.some.injEq]
      by_cases hrunning : j.status = .running
      · have hc : completes job j = true := by
          rw [completes, hmem.2, hrunning, decide_eq_true rfl, decide_eq_true rfl, Bool.and_self]
        rw [if_pos hc, if_pos hrunning]
        rfl
      · have hc : ¬ completes job j = true := by
          rw [completes, Bool.and_eq_true, decide_eq_true_eq, decide_eq_true_eq]
          exact fun hboth => hrunning hboth.2
        rw [if_neg hc, if_neg hrunning]

/-- The generation of a job that is in the tables, and whether the batch
    publishes it. -/
theorem generation_of_known (h : Consistent db) (hk : Known job db) :
    ∃ g, generationOf db job.job.generationId = some g ∧
      (publishes job db g = true ↔
        generationStatus db job.job.generationId = some .staging ∧
          vaultActive db job.job.vaultId = true) := by
  rcases hk.2 with ⟨g, hg, -⟩
  have hid := (Table.mem_of_find? GenerationRow.id db.generations _ g hg).2
  have hvault := known_vault job db h hk
  rw [generationVault, hg, Option.map_some, Option.some.injEq] at hvault
  refine ⟨g, hg, ?_⟩
  rw [publishes, generationStatus, hg, Option.map_some, hid, hvault, Option.some.injEq,
    Bool.and_eq_true, Bool.and_eq_true, decide_eq_true_eq, decide_eq_true_eq]
  constructor
  · rintro ⟨⟨-, hstaged⟩, hactive⟩
    exact ⟨hstaged, hactive⟩
  · rintro ⟨hstaged, hactive⟩
    exact ⟨⟨rfl, hstaged⟩, hactive⟩

/-- The batch publishes the generation where it is staged in an active vault. -/
theorem generationStatus_ready (he : PublishEffect job manifestSha256 now db db')
    (h : Consistent db) (hk : Known job db)
    (hstaged : generationStatus db job.job.generationId = some .staging)
    (hactive : vaultActive db job.job.vaultId = true) :
    generationStatus db' job.job.generationId = some .published := by
  rcases generation_of_known h hk with ⟨g, hg, hiff⟩
  rw [generationStatus, generationOf_published he, hg, Option.map_some,
    if_pos (hiff.mpr ⟨hstaged, hactive⟩), Option.map_some]
  rfl

/-- And otherwise leaves it. -/
theorem generationOf_unready (he : PublishEffect job manifestSha256 now db db')
    (h : Consistent db) (hk : Known job db)
    (hnot : ¬ (generationStatus db job.job.generationId = some .staging ∧
      vaultActive db job.job.vaultId = true)) :
    generationOf db' job.job.generationId = generationOf db job.job.generationId := by
  rcases generation_of_known h hk with ⟨g, hg, hiff⟩
  rw [generationOf_published he, hg, Option.map_some, if_neg (fun hp => hnot (hiff.mp hp))]

theorem staleOf_refreshed_iff (he : PublishEffect job manifestSha256 now db db') :
    staleOf db' job.job.vaultId = staleOf db job.job.vaultId ↔
      ∀ s, syncStateOf db job.job.vaultId = some s →
        s.libraryStale =
          staleAgainst s.currentStateVectorSha256 job.job.sourceStateVectorSha256 := by
  rw [he.stale, staleOf]
  cases hfound : syncStateOf db job.job.vaultId with
  | none => simp only [Option.map_none, reduceCtorEq, false_implies, implies_true]
  | some s =>
      simp only [Option.map_some, Option.some.injEq]
      constructor
      · rintro heq s' rfl
        exact heq.symm
      · intro hall
        exact (hall s rfl).symm

theorem search_kept_iff (he : PublishEffect job manifestSha256 now db db') :
    db'.search = db.search ↔
      ∀ r ∈ db.search, r.vaultId = job.job.vaultId → r.generationId = job.job.generationId := by
  rw [he.search, List.filter_eq_self]
  refine forall₂_congr (fun r _ => ?_)
  rw [Bool.not_eq_true', Bool.and_eq_false_iff, decide_eq_false_iff_not, decide_eq_false_iff_not,
    not_not, or_iff_not_imp_left, not_not]

/-- The batch does all of it or nothing exactly where it finds the generation
    ready or finds nothing left. -/
theorem together_or_alone_iff (he : PublishEffect job manifestSha256 now db db')
    (h : Consistent db) (hk : Known job db) :
    PublishedTogether job db db' ∨ LeftAlone job db db' ↔ Ready job db ∨ NothingLeft job db := by
  have hstatus := jobStatus_completed he
  constructor
  · rintro (hall | hnone)
    · left
      refine ⟨hall.wasStaged, ?_, hall.wasRunning⟩
      -- A generation that was staged and is published was published by the batch.
      by_contra hinactive
      have hleft := generationOf_unready he h hk (fun hboth => hinactive hboth.2)
      have hpublished := hall.published
      rw [generationStatus, hleft, ← generationStatus, hall.wasStaged] at hpublished
      cases hpublished
    · right
      exact {
        unpublishable := by
          intro hstaged
          by_contra hactive
          rw [Bool.not_eq_false] at hactive
          have hpublished := generationStatus_ready he h hk hstaged hactive
          rw [generationStatus, hnone.generation, ← generationStatus, hstaged] at hpublished
          cases hpublished
        notRunning := by
          intro hrunning
          have hsame := hnone.status
          rw [hstatus, if_pos hrunning, hrunning] at hsame
          cases hsame
        current := by
          intro hpublished
          have hpublished' : generationStatus db' job.job.generationId = some .published := by
            rw [generationStatus, hnone.generation]
            exact hpublished
          rw [← hnone.current, he.current, if_pos ⟨rfl, hpublished'⟩]
        search := (search_kept_iff he).mp hnone.search
        stale := (staleOf_refreshed_iff he).mp hnone.stale }
  · rintro (hready | hnothing)
    · left
      have hpublished := generationStatus_ready he h hk hready.staged hready.active
      exact {
        wasStaged := hready.staged
        wasRunning := hready.running
        published := hpublished
        current := by rw [he.current, if_pos ⟨rfl, hpublished⟩]
        completed := by rw [hstatus, if_pos hready.running] }
    · right
      have hleft := generationOf_unready he h hk (fun hboth => by
        have hinactive := hnothing.unpublishable hboth.1
        rw [hboth.2] at hinactive
        cases hinactive)
      exact {
        generation := hleft
        current := by
          rw [he.current]
          by_cases hpublished : generationStatus db' job.job.generationId = some .published
          · rw [if_pos ⟨rfl, hpublished⟩]
            rw [generationStatus, hleft] at hpublished
            exact (hnothing.current hpublished).symm
          · rw [if_neg (fun hboth => hpublished hboth.2)]
        status := by rw [hstatus, if_neg hnothing.notRunning]
        search := (search_kept_iff he).mpr hnothing.search
        stale := (staleOf_refreshed_iff he).mpr hnothing.stale }

/-- A batch that finds all or nothing leaves no job completed without its
    generation. -/
theorem publish_completedPublished (he : PublishEffect job manifestSha256 now db db')
    (h : Consistent db) (hk : Known job db) (hfinds : Ready job db ∨ NothingLeft job db)
    (hdone : CompletedPublished db) : CompletedPublished db' := by
  have hstays : ∀ id, generationStatus db id = some .published →
      generationStatus db' id = some .published := by
    intro id hpublished
    rw [generationStatus, Option.map_eq_some_iff] at hpublished
    rcases hpublished with ⟨g, hg, hstatus⟩
    have hskip : ¬ publishes job db g = true := by
      rw [publishes, hstatus]
      simp only [reduceCtorEq, decide_false, Bool.and_false, Bool.false_and, Bool.false_eq_true,
        not_false_eq_true]
    rw [generationStatus, generationOf_published he, hg, Option.map_some, if_neg hskip,
      Option.map_some, hstatus]
  intro j hj hcompleted
  rw [he.jobs] at hj
  rcases Table.mem_update _ _ db.jobs j hj with ⟨j', hj', ⟨hc, rfl⟩ | ⟨-, rfl⟩⟩
  · rw [completes, Bool.and_eq_true, decide_eq_true_eq, decide_eq_true_eq] at hc
    have hfound := Table.find?_of_mem MaterializationJobRow.id db.jobs j' h.jobIds hj'
    have hrunning : jobStatus db job.job.id = some .running := by
      rw [jobStatus, jobOf, ← hc.1, hfound, Option.map_some, hc.2]
    rcases hfinds with hready | hnothing
    · -- The completed job is the batch's own, so its generation is the one published.
      rcases hk.1 with ⟨k, hkmem, heq⟩
      have hkid : k.id = job.job.id := sameJob MaterializationJobRow.id (fun _ => rfl) heq
      have hkfound := Table.find?_of_mem MaterializationJobRow.id db.jobs k h.jobIds hkmem
      rw [hc.1] at hfound
      rw [hkid, hfound, Option.some.injEq] at hkfound
      have hgeneration : j'.generationId = job.job.generationId := by
        rw [hkfound]
        exact sameJob MaterializationJobRow.generationId (fun _ => rfl) heq
      have hready' := generationStatus_ready he h hk hready.staged hready.active
      rwa [← hgeneration] at hready'
    · exact absurd hrunning hnothing.notRunning
  · exact hstays _ (hdone j hj' hcompleted)

/-- Nor does it take a search row of a current generation away. -/
theorem publish_searchKept (he : PublishEffect job manifestSha256 now db db')
    (h : Consistent db) (hk : Known job db) (hfinds : Ready job db ∨ NothingLeft job db) :
    SearchKept db db' := by
  intro r hr hcurrent _
  refine ⟨r, ?_, rfl⟩
  rcases hfinds with hready | hnothing
  · have hpublished := generationStatus_ready he h hk hready.staged hready.active
    rw [he.search, List.mem_filter, Bool.not_eq_true', Bool.and_eq_false_iff,
      decide_eq_false_iff_not, decide_eq_false_iff_not, not_not]
    refine ⟨hr, ?_⟩
    by_cases hv : r.vaultId = job.job.vaultId
    · rw [he.current, if_pos ⟨hv, hpublished⟩, Option.some.injEq] at hcurrent
      exact Or.inr hcurrent.symm
    · exact Or.inl hv
  · rw [(search_kept_iff he).mpr hnothing.search]
    exact hr

end Effect

/-! ## One request -/

theorem routine_completedPublished (db db' : MaterializationDb) (h : Routine db db')
    (hdone : CompletedPublished db) : CompletedPublished db' := by
  intro j' hj' hcompleted
  rcases h.completed j' hj' hcompleted with ⟨j, hj, hstatus, heq⟩
  rw [← sameJob MaterializationJobRow.generationId (fun _ => rfl) heq]
  exact h.published _ (hdone j hj hstatus)

theorem routine_searchKept (db db' : MaterializationDb) (hc : Consistent db)
    (h : Routine db db') : SearchKept db db' := by
  intro r hr hcurrent _
  refine h.search r hr ?_
  rw [currentOf, h.current, Option.map_eq_some_iff] at hcurrent
  rcases hcurrent with ⟨c, hfound, hgeneration⟩
  have hmem := Table.mem_of_find? CurrentRow.vaultId db.current _ c hfound
  have hown := hc.currentVaults c hmem.1
  rwa [hgeneration, hmem.2] at hown

/-- Nothing changes where a request is refused, or its batch rolled back. -/
theorem unchanged_kept (job : JobRow) (db : MaterializationDb) (hdone : CompletedPublished db) :
    (PublishedTogether job db db ∨ LeftAlone job db db) ∧ CompletedPublished db ∧
      SearchKept db db :=
  ⟨Or.inr ⟨rfl, rfl, rfl, rfl, rfl⟩, hdone, fun r hr _ _ => ⟨r, hr, rfl⟩⟩

/-- A publication is done together or not at all, every completed job has its
    generation published, and current generations keep their search rows. -/
def PublishesTogether (sha256 : List UInt8 → String) (op : MaterializationOp) (w : Outcome)
    (s : MaterializationState) : Prop :=
  (match op with
    | .publish job _ _ =>
        PublishedTogether job s.db (exec sha256 op w s).2.db ∨
          LeftAlone job s.db (exec sha256 op w s).2.db
    | _ => True) ∧
    CompletedPublished (exec sha256 op w s).2.db ∧ SearchKept s.db (exec sha256 op w s).2.db

/-- A publication that goes through finds its generation ready, or nothing left
    to do. -/
def FindsAllOrNothing (op : MaterializationOp) (w : Outcome) (s : MaterializationState) : Prop :=
  match op with
  | .publish job _ now =>
      w ≠ .refused → ClockAllows job now s.db → Ready job s.db ∨ NothingLeft job s.db
  | _ => True

/-- What a batch leaves, under what becomes of its request. -/
theorem exec_publish (sha256 : List UInt8 → String) (job : JobRow) (manifestSha256 : String)
    (now : Nat) (w : Outcome) (s : MaterializationState) (h : Consistent s.db)
    (hk : Known job s.db) :
    (w ≠ .refused ∧ ClockAllows job now s.db ∧ PublishEffect job manifestSha256 now s.db
      (exec sha256 (.publish job manifestSha256 now) w s).2.db) ∨
    (¬ (w ≠ .refused ∧ ClockAllows job now s.db) ∧
      (exec sha256 (.publish job manifestSha256 now) w s).2.db = s.db) := by
  have hbatch := publishBatch_effect job manifestSha256 now s.db h hk
  by_cases hclock : ClockAllows job now s.db
  · rcases hbatch.1 hclock with ⟨db', hrun, heffect⟩
    have hok : effect sha256 s (.publish job manifestSha256 now) =
        .ok (publishResults job s.db, { s with db := db' }) := by
      rw [effect, onDb, hrun]
    cases w with
    | answered =>
        left
        refine ⟨by decide, hclock, ?_⟩
        simp only [exec, Batch.send, hok]
        exact heffect
    | lost =>
        left
        refine ⟨by decide, hclock, ?_⟩
        simp only [exec, Batch.send, hok]
        exact heffect
    | refused => exact Or.inr ⟨fun hboth => hboth.1 rfl, rfl⟩
  · right
    rcases hbatch.2 hclock with ⟨e, hrun⟩
    have herror : effect sha256 s (.publish job manifestSha256 now) = .error .other := by
      rw [effect, onDb, hrun]
    refine ⟨fun hboth => hclock hboth.2, ?_⟩
    cases w with
    | answered => simp only [exec, Batch.send, herror]
    | lost => simp only [exec, Batch.send, herror]
    | refused => rfl

/-- Which requests keep publications whole. -/
theorem publishesTogether_iff (sha256 : List UInt8 → String) (op : MaterializationOp) (w : Outcome)
    (s : MaterializationState) (h : Consistent s.db) (hallowed : Allowed op s)
    (hdone : CompletedPublished s.db) :
    PublishesTogether sha256 op w s ↔ FindsAllOrNothing op w s := by
  by_cases hop : ∃ job digest now, op = .publish job digest now
  · rcases hop with ⟨job, digest, now, rfl⟩
    rcases exec_publish sha256 job digest now w s h hallowed with
      ⟨hw, hclock, he⟩ | ⟨hnot, hsame⟩
    · constructor
      · intro hkeeps _ _
        exact (together_or_alone_iff he h hallowed).mp hkeeps.1
      · intro hfinds
        have hfound := hfinds hw hclock
        exact ⟨(together_or_alone_iff he h hallowed).mpr hfound,
          publish_completedPublished he h hallowed hfound hdone,
          publish_searchKept he h hallowed hfound⟩
    · constructor
      · intro _ hw hclock
        exact absurd ⟨hw, hclock⟩ hnot
      · intro _
        rw [PublishesTogether, hsame]
        exact unchanged_kept job s.db hdone
  · push Not at hop
    have hroutine := exec_routine sha256 op hop w s h hallowed
    have hkept := And.intro (routine_completedPublished _ _ hroutine hdone)
      (routine_searchKept _ _ h hroutine)
    cases op with
    | publish job digest now => exact absurd rfl (hop job digest now)
    | _ => exact ⟨fun _ => trivial, fun _ => ⟨trivial, hkept⟩⟩

/-! ## Runs -/

/-- Any calls, about to begin. -/
def startPool {ι : Type} (u : UnicodeTables) (sha256 : List UInt8 → String)
    (calls : ι → MaterializationCall) (s : MaterializationState) : MaterializationPool ι :=
  { shared := s, calls := fun i => (calls i).process u sha256 }

theorem freshDb_consistent (vaults : List VaultRow) (syncStates : List SyncStateRow) :
    Consistent (freshDb vaults syncStates) :=
  { jobIds := List.nodup_nil
    jobGenerations := List.nodup_nil
    generationIds := List.nodup_nil
    jobVaults := fun _ hj => nomatch hj
    currentVaults := fun _ hc => nomatch hc }

/-- Every call of the system asks only for what it is allowed. -/
theorem call_meets (u : UnicodeTables) (sha256 : List UInt8 → String) (call : MaterializationCall)
    (s : MaterializationState) : MeetsAllowed sha256 (call.process u sha256) s := by
  have hends : ∀ {α : Type} (p : JobProcess α), MeetsAllowed sha256 p s →
      MeetsAllowed sha256 (do let _ ← p; pure ()) s := by
    intro α p hp
    refine Process.meets_bind _ p s (Process.meets_mono (fun _ _ h => h) ?_ p s hp)
    intro r t _
    cases r with
    | ok _ => exact trivial
    | error e => exact trivial
  cases call with
  | continueNext vaultId now => exact hends _ (continueNext_meets sha256 u vaultId now s)
  | create input => exact hends _ (create_meets sha256 input s)
  | setVaultStatus vaultId status => exact fun _ _ _ => ⟨trivial, fun _ _ => trivial⟩
  | recordSyncState row => exact fun _ _ _ => ⟨trivial, fun _ _ => trivial⟩

/-- The calls are sound from a consistent database on. -/
theorem startPool_sound {ι : Type} (u : UnicodeTables) (sha256 : List UInt8 → String)
    (calls : ι → MaterializationCall) (s : MaterializationState) (h : Consistent s.db) :
    Process.Pool.Sound (exec sha256) (fun _ _ _ => True) (fun s => Consistent s.db)
      (fun _ s t => Persist s.db t.db) (fun _ => Allowed) (fun _ _ _ => True) (startPool u sha256 calls s) :=
  ⟨h, fun i => ⟨s, Persist.refl s.db h, call_meets u sha256 (calls i) s⟩⟩

/-- One request of a sound pool keeps the pool sound. -/
theorem step_consistent {ι : Type} [DecidableEq ι] (sha256 : List UInt8 → String)
    (c : MaterializationPool ι) (e : ι × Outcome)
    (hc : Process.Pool.Sound (exec sha256) (fun _ _ _ => True) (fun s => Consistent s.db)
      (fun _ s t => Persist s.db t.db) (fun _ => Allowed) (fun _ _ _ => True) c) :
    Process.Pool.Sound (exec sha256) (fun _ _ _ => True) (fun s => Consistent s.db)
      (fun _ s t => Persist s.db t.db) (fun _ => Allowed) (fun _ _ _ => True) (Process.Pool.step (exec sha256) c e) :=
  Process.Pool.step_sound (fun _ s h => Persist.refl s.db h)
    (fun _ _ _ _ h h' => h.trans h')
    (fun _ op w s h hallowed _ => ⟨(exec_persist sha256 op w s h hallowed).consistent,
      fun _ _ => exec_persist sha256 op w s h hallowed⟩)
    c e hc (fun _ _ => trivial)

/-- Whatever the calls and however their requests are interleaved and end: a run
    keeps publications whole if and only if each of its publications that goes
    through finds all of it to do, or nothing. -/
theorem publication_together_iff {ι : Type} [DecidableEq ι] (u : UnicodeTables)
    (sha256 : List UInt8 → String) (calls : ι → MaterializationCall) (vaults : List VaultRow)
    (syncStates : List SyncStateRow) (objects : String → Option (List UInt8))
    (es : List (ι × Outcome)) :
    Run.Along (Process.Pool.Takes (PublishesTogether sha256)) (Process.Pool.step (exec sha256))
        (startPool u sha256 calls { db := freshDb vaults syncStates, objects := objects }) es ↔
      Run.Along (Process.Pool.Takes FindsAllOrNothing) (Process.Pool.step (exec sha256))
        (startPool u sha256 calls { db := freshDb vaults syncStates, objects := objects }) es := by
  refine Run.along_iff _ (fun c => Process.Pool.Sound (exec sha256) (fun _ _ _ => True)
    (fun s => Consistent s.db) (fun _ s t => Persist s.db t.db) (fun _ => Allowed)
    (fun _ _ _ => True) c ∧ CompletedPublished c.shared.db) ?_ ?_ _ es ⟨?_, ?_⟩
  · rintro c e ⟨hsound, hdone⟩ htogether
    refine ⟨step_consistent sha256 c e hsound, ?_⟩
    rcases Process.Pool.step_shared _ c e with ⟨-, hsame⟩ | ⟨op, hnext, hstep⟩
    · rw [hsame]
      exact hdone
    · rw [hstep]
      exact (htogether op hnext).2.1
  · rintro c e ⟨hsound, hdone⟩
    refine forall₂_congr (fun op hnext => ?_)
    have hallowed := Process.Pool.takes_allowed c e.1 op hsound hnext
    exact publishesTogether_iff sha256 op e.2 c.shared hsound.1 hallowed hdone
  · exact startPool_sound u sha256 calls _ (freshDb_consistent vaults syncStates)
  · exact fun _ hj => nomatch hj

/-- Along a run that keeps publications whole, completed jobs have published
    their generations. -/
theorem completed_along {ι : Type} [DecidableEq ι] (sha256 : List UInt8 → String)
    (c : MaterializationPool ι) (es : List (ι × Outcome)) (hdone : CompletedPublished c.shared.db)
    (h : Run.Along (Process.Pool.Takes (PublishesTogether sha256))
      (Process.Pool.step (exec sha256)) c es) :
    CompletedPublished (Process.Pool.run (exec sha256) c es).shared.db := by
  refine Run.runFrom_invariant _ (fun c => CompletedPublished c.shared.db) ?_ c es hdone h
  intro d e hd htogether
  rcases Process.Pool.step_shared _ d e with ⟨-, hsame⟩ | ⟨op, hnext, hstep⟩
  · rw [hsame]
    exact hd
  · rw [hstep]
    exact (htogether op hnext).2.1

/-- In every run, torn publications or not, jobs and generations stay what they are from when they
    are made, keys stay distinct, and each job and pointer is of the vault of its generation. The
    induction is on the end of the run. -/
theorem generations_stay {ι : Type} [DecidableEq ι] (u : UnicodeTables)
    (sha256 : List UInt8 → String) (calls : ι → MaterializationCall) (vaults : List VaultRow)
    (syncStates : List SyncStateRow) (objects : String → Option (List UInt8))
    (es es' : List (ι × Outcome)) :
    Persist
      (Process.Pool.run (exec sha256)
        (startPool u sha256 calls { db := freshDb vaults syncStates, objects := objects })
        es).shared.db
      (Process.Pool.run (exec sha256)
        (startPool u sha256 calls { db := freshDb vaults syncStates, objects := objects })
        (es ++ es')).shared.db := by
  have hstart := startPool_sound u sha256 calls
    { db := freshDb vaults syncStates, objects := objects } (freshDb_consistent vaults syncStates)
  have hsound := fun es => Run.runFrom_keeps _ _ (step_consistent sha256) _ es hstart
  generalize startPool u sha256 calls { db := freshDb vaults syncStates, objects := objects } = c
    at hsound
  unfold Process.Pool.run
  induction es' using List.reverseRecOn with
  | nil =>
      rw [List.append_nil]
      exact Persist.refl _ (hsound es).1
  | append_singleton es' e ih =>
      rw [← List.append_assoc, Run.runFrom_concat]
      rcases Process.Pool.step_shared (exec sha256) (Run.runFrom _ c (es ++ es')) e with
        ⟨-, hsame⟩ | ⟨op, hnext, hstep⟩
      · rw [hsame]
        exact ih
      · rw [hstep]
        -- Calls only send what persists, whatever becomes of it.
        have hallowed := Process.Pool.takes_allowed _ e.1 op (hsound (es ++ es')) hnext
        exact ih.trans (exec_persist sha256 op e.2 _ (hsound (es ++ es')).1 hallowed)

/-- One note, twice: for the state the vault is at first, and for a later
    one. -/
def twoSources (job : String) (source : Char) : CreateInput :=
  { now := 1
    requestId := "request"
    snapshot :=
      { notes := [{
          byteLength := 1
          content := "a"
          fileId := "file"
          modifiedAt := none
          path := "a.md"
          pathKey := "a.md"
          title := "a" }]
        schemaVersion := 2
        totalBytes := 1 }
    sourceStateVectorSha256 := String.ofList (List.replicate 64 source)
    vaultId := "vault"
    jobId := "job" ++ job
    generationId := "generation" ++ job }

/-- Two generations are built one after the other, and the vault is revoked. -/
def revokingCalls : Nat → MaterializationCall
  | 0 => .create (twoSources "1" 'a')
  | 1 => .continueNext "vault" 2
  | 2 => .create (twoSources "2" 'b')
  | 3 => .continueNext "vault" 3
  | _ => .setVaultStatus "vault" .revoked

/-- The first generation is published. The vault is revoked between the manifest
    of the second and its batch. -/
def revokedWhilePublishing : List (Nat × Outcome) :=
  (List.replicate 5 0 ++ List.replicate 11 1 ++ List.replicate 5 2 ++ List.replicate 8 3 ++
    [4, 3]).map (fun i => (i, .answered))

/-- The batch leaves the second generation staged and its job completed. -/
theorem revokedWhilePublishing_tears :
    ¬ Run.Along (Process.Pool.Takes (PublishesTogether (fun _ => "digest")))
      (Process.Pool.step (exec (fun _ => "digest")))
      (startPool UnicodeTables.plain (fun _ => "digest") revokingCalls
        { db := freshDb [{ id := "vault", status := .active }] [], objects := fun _ => none })
      revokedWhilePublishing := by
  intro h
  have hdone := completed_along _ _ _ (fun _ hj => absurd hj List.not_mem_nil) h
  have htorn : ¬ ∀ j ∈ (Process.Pool.run (exec (fun _ => "digest"))
      (startPool UnicodeTables.plain (fun _ => "digest") revokingCalls
        { db := freshDb [{ id := "vault", status := .active }] [], objects := fun _ => none })
      revokedWhilePublishing).shared.db.jobs, j.status = .completed →
        generationStatus (Process.Pool.run (exec (fun _ => "digest"))
          (startPool UnicodeTables.plain (fun _ => "digest") revokingCalls
            { db := freshDb [{ id := "vault", status := .active }] [], objects := fun _ => none })
          revokedWhilePublishing).shared.db j.generationId = some .published := by
    decide +kernel
  exact htorn hdone

end Mdevolved.Materialization
