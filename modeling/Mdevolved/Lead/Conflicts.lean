import Mdevolved.Lead.Slots
import Mdevolved.Lib.Watched

/-!
# Conflicting Evidence

The claims of a bundle give values to keys of evidence. Where a key has been given
different values in a Run, the function that takes the bundle in leaves an exception
that refers to the claims. It compares the claims of the bundle with those that are
there when it reads them, and the exception is made before the batch is sent. The batch
takes the bundle in whatever claims have come meanwhile.

So conflicts are reported as long as every bundle is compared with all the claims that
are there when it is taken in. Two bundles that are submitted at the same time may
contradict each other without anyone noticing.

A call is watched for the claims it has read last, since what it has read decides
whether they are still all there are.

## Main definitions

* `ExceptionRow.Reports`: An exception says that a key was given different values.
* `ConflictsReported`: Every conflict of a Run is reported.
* `ClaimsCurrent`: A bundle is taken in with the claims of the Run as they were read.
* `Raises`, `Evident`: A batch leaves the exceptions of what was read.

## Theorems

* `taken_reported`: A batch that was made on all claims reports its conflicts.
* `exec_reported`: What every request does to conflicts.
* `conflicts_reported`: Conflicts are reported in every run.
* `submittedTogether_unreported`: Two bundles that are submitted at the same time.
-/

namespace Mdevolved.Lead

open Batch Process

/-! ## Claims -/

/-- What a claim says, and in which Run. -/
def RunClaimRow.said (c : RunClaimRow) : String × String × String :=
  (c.runId, c.claimKey, c.valueSha256)

/-- What the exception of conflicting claims refers to. -/
def conflictRefs (conflicts : List RunClaimRow) : List String :=
  (conflicts.flatMap (fun c => c.valueSha256 :: c.evidenceSha256.toList)).take 64

/-- What is known of an exception whatever becomes of it. -/
def ExceptionRow.subject (x : ExceptionRow) : ExceptionKind × Option String × List String :=
  (x.kind, x.runId, x.evidenceRefs)

/-- An exception says that a key of a Run was given different values. It refers to
    claims of the Run, one of which is about the key. -/
def ExceptionRow.Reports (db : LeadDb) (x : ExceptionRow) (runId key : String) : Prop :=
  ∃ conflicts : List RunClaimRow, x.subject = (.evidenceConflict, some runId, conflictRefs conflicts) ∧
    (∀ c ∈ conflicts, c.said ∈ db.claims.map RunClaimRow.said) ∧
      ∃ c ∈ conflicts, c.runId = runId ∧ c.claimKey = key

/-- Every conflict of a Run is reported. -/
def ConflictsReported (db : LeadDb) : Prop :=
  ∀ c ∈ db.claims, ∀ c' ∈ db.claims, c'.runId = c.runId → c'.claimKey = c.claimKey →
    c'.valueSha256 ≠ c.valueSha256 → ∃ x ∈ db.exceptions, x.Reports db c.runId c.claimKey

/-- Claims that are added, unless their bundle has made them already. -/
def addClaims (claims rows : List RunClaimRow) : List RunClaimRow :=
  claims.foldl (fun rows c =>
    if rows.any (fun c' => c'.runId = c.runId && c'.bundleId = c.bundleId &&
        c'.claimKey = c.claimKey && c'.valueSha256 = c.valueSha256) then rows
    else rows ++ [c]) rows

theorem mem_addClaims (claims rows : List RunClaimRow) (c : RunClaimRow)
    (h : c ∈ addClaims claims rows) : c ∈ rows ∨ c ∈ claims := by
  unfold addClaims at h
  induction claims generalizing rows with
  | nil => exact Or.inl h
  | cons c' claims ih =>
      rw [List.foldl_cons] at h
      rcases ih _ h with hrows | hlater
      · split at hrows
        · exact Or.inl hrows
        · rcases List.mem_append.mp hrows with hold | hnew
          · exact Or.inl hold
          · rw [List.mem_singleton.mp hnew]
            exact Or.inr List.mem_cons_self
      · exact Or.inr (List.mem_cons_of_mem _ hlater)

/-- What was said before is still said, and so is what the claims say. -/
theorem said_addClaims (claims rows : List RunClaimRow) (c : RunClaimRow)
    (h : c.said ∈ rows.map RunClaimRow.said ∨ c ∈ claims) :
    c.said ∈ (addClaims claims rows).map RunClaimRow.said := by
  unfold addClaims
  induction claims generalizing rows with
  | nil => exact h.resolve_right List.not_mem_nil
  | cons c' claims ih =>
      rw [List.foldl_cons]
      refine ih _ ?_
      rcases h with hold | hmem
      · left
        split
        · exact hold
        · rw [List.map_append]
          exact List.mem_append_left _ hold
      · rcases List.mem_cons.mp hmem with rfl | hlater
        · left
          split
          · next hany =>
            rcases List.any_eq_true.mp hany with ⟨t, ht, hsame⟩
            simp only [Bool.and_eq_true, decide_eq_true_eq] at hsame
            refine List.mem_map.mpr ⟨t, ht, ?_⟩
            rw [RunClaimRow.said, RunClaimRow.said, hsame.1.1.1, hsame.1.2, hsame.2]
          · rw [List.map_append]
            exact List.mem_append_right _ List.mem_cons_self
        · exact Or.inr hlater

/-! ## Batches that take bundles in -/

/-- The claims of a batch are of its Run, and where they conflict with each other or
    with what was read there is an exception that says so. -/
structure Raises (runId : String) (claims seen : List RunClaimRow)
    (exceptions : List ExceptionRow) : Prop where
  run : ∀ c ∈ claims, c.runId = runId
  raised : claims.any (conflicting (seen ++ claims)) = true → ∃ x ∈ exceptions, x.subject =
    (.evidenceConflict, some runId, conflictRefs (claims.filter (conflicting (seen ++ claims))))

theorem conflicting_of (claims : List RunClaimRow) (c c' : RunClaimRow) (hc' : c' ∈ claims)
    (hkey : c'.claimKey = c.claimKey) (hvalue : c'.valueSha256 ≠ c.valueSha256) :
    conflicting claims c = true := by
  refine List.any_eq_true.mpr ⟨c', hc', ?_⟩
  rw [Bool.and_eq_true, decide_eq_true_eq, decide_eq_true_eq]
  exact ⟨hkey, hvalue⟩

/-- A batch that was made on all the claims there are reports its conflicts. -/
theorem taken_reported (db db' : LeadDb) (runId : String) (claims seen : List RunClaimRow)
    (exceptions : List ExceptionRow) (h : ConflictsReported db)
    (hraises : Raises runId claims seen exceptions)
    (hcurrent : ∀ c ∈ db.claims, c.runId = runId → c.claimKey ∈ claims.map RunClaimRow.claimKey →
      c ∈ seen)
    (hclaims : db'.claims = addClaims claims db.claims)
    (hexceptions : ∀ x ∈ db.exceptions ++ exceptions, x ∈ db'.exceptions) :
    ConflictsReported db' := by
  have hmono : ∀ (x : ExceptionRow) (runId key : String), x.Reports db runId key →
      x.Reports db' runId key := by
    rintro x runId key ⟨conflicts, hsubject, hsaid, hkey⟩
    refine ⟨conflicts, hsubject, fun c hc => ?_, hkey⟩
    rw [hclaims]
    exact said_addClaims claims db.claims c (Or.inl (hsaid c hc))
  -- A claim of the batch that conflicts has its exception.
  have hnew : ∀ c ∈ claims, conflicting (seen ++ claims) c = true →
      ∃ x ∈ db'.exceptions, x.Reports db' runId c.claimKey := by
    intro c hc hconflicting
    rcases hraises.raised (List.any_eq_true.mpr ⟨c, hc, hconflicting⟩) with ⟨x, hx, hsubject⟩
    refine ⟨x, hexceptions x (List.mem_append_right _ hx), _, hsubject, fun c' hc' => ?_, c, ?_,
      hraises.run c hc, rfl⟩
    · rw [hclaims]
      exact said_addClaims claims db.claims c' (Or.inr (List.mem_of_mem_filter hc'))
    · exact List.mem_filter.mpr ⟨hc, hconflicting⟩
  have hseen : ∀ c ∈ claims, ∀ c' ∈ db.claims, c'.runId = runId → c'.claimKey = c.claimKey →
      c' ∈ seen := by
    intro c hc c' hc' hrun hkey
    refine hcurrent c' hc' hrun ?_
    rw [hkey]
    exact List.mem_map_of_mem hc
  intro c hc c' hc' hrun hkey hvalue
  rw [hclaims] at hc hc'
  rcases mem_addClaims _ _ _ hc with hold | hc
  · rcases mem_addClaims _ _ _ hc' with hold' | hc'
    · rcases h c hold c' hold' hrun hkey hvalue with ⟨x, hx, hreports⟩
      exact ⟨x, hexceptions x (List.mem_append_left _ hx), hmono x _ _ hreports⟩
    · have hrunId : c.runId = runId := hrun.symm.trans (hraises.run c' hc')
      have hread := hseen c' hc' c hold hrunId hkey.symm
      rw [hrunId, ← hkey]
      exact hnew c' hc' (conflicting_of _ c' c (List.mem_append_left _ hread) hkey.symm
        (fun heq => hvalue heq.symm))
  · rw [hraises.run c hc] at hrun ⊢
    refine hnew c hc (conflicting_of _ c c' ?_ hkey hvalue)
    rcases mem_addClaims _ _ _ hc' with hold' | hc'
    · exact List.mem_append_left _ (hseen c hc c' hold' hrun hkey)
    · exact List.mem_append_right _ hc'

/-! ## What every request does -/

/-- The claims that a call has read last. -/
def recallClaims (op : LeadOp) (r : Except LeadError op.Ret) (seen : List RunClaimRow) :
    List RunClaimRow :=
  match op, r with
  | .readClaims _ _, .ok claims => claims
  | _, _ => seen

/-- A bundle is taken in while the claims of the Run on its keys are those that were
    read. -/
def ClaimsCurrent {ι : Type} (i : ι) (op : LeadOp) (_ : Outside)
    (s : LeadDb × (ι → List RunClaimRow)) : Prop :=
  match op with
  | .submitBundle b => ∀ c ∈ s.1.claims, c.runId = b.runId →
      c.claimKey ∈ b.claims.map RunClaimRow.claimKey → c ∈ s.2 i
  | .submitBundles b => ∀ c ∈ s.1.claims, c.runId = b.runId →
      c.claimKey ∈ b.claims.map RunClaimRow.claimKey → c ∈ s.2 i
  | _ => True

instance {ι : Type} (i : ι) (op : LeadOp) (w : Outside) (s : LeadDb × (ι → List RunClaimRow)) :
    Decidable (ClaimsCurrent i op w s) :=
  match op with
  | .submitBundle b => inferInstanceAs (Decidable (∀ c ∈ s.1.claims, c.runId = b.runId →
      c.claimKey ∈ b.claims.map RunClaimRow.claimKey → c ∈ s.2 i))
  | .submitBundles b => inferInstanceAs (Decidable (∀ c ∈ s.1.claims, c.runId = b.runId →
      c.claimKey ∈ b.claims.map RunClaimRow.claimKey → c ∈ s.2 i))
  | .authorizeLead .. | .readReceipt .. | .readWorkItem .. | .readRunRow .. | .readPlane ..
  | .readActorRow .. | .actorExists .. | .readLeaseExpiry .. | .readExpiredActors ..
  | .readOccupiedSlots .. | .readSlot .. | .recoveryExists .. | .readActorRows ..
  | .readPriorBundles .. | .readReviewTarget .. | .readReviewRouting .. | .bundleExists ..
  | .readClaims .. | .readBudget .. | .elasticRecordExists .. | .readBlocker .. | .readReview ..
  | .readCheckpoint .. | .readCompletionPolicyFence .. | .prepareRecords | .prepareRunDeltas ..
  | .startRun .. | .registerActor .. | .denied .. | .complete .. | .registerActors ..
  | .recoverActor .. | .submitBudgetEntry .. | .reconcile .. | .createWorkItem ..
  | .acknowledgeCheckpoint .. | .resolveProjectException .. => isTrue trivial

/-- A batch that takes bundles in leaves the exceptions of what was read. -/
def Evident (op : LeadOp) (seen : List RunClaimRow) : Prop :=
  match op with
  | .submitBundle b => Raises b.runId b.claims seen b.exceptions
  | .submitBundles b => Raises b.runId b.claims seen b.exceptions
  | _ => True

theorem submitBundle_reported (b : SubmitBundleBatch) (w : Outside) (db : LeadDb)
    (seen : List RunClaimRow) (h : ConflictsReported db)
    (hraises : Raises b.runId b.claims seen b.exceptions)
    (hcurrent : ∀ c ∈ db.claims, c.runId = b.runId →
      c.claimKey ∈ b.claims.map RunClaimRow.claimKey → c ∈ seen) :
    ConflictsReported (written (b.writes w) db) :=
  taken_reported db _ b.runId b.claims seen b.exceptions h hraises hcurrent rfl (fun _ hx => hx)

theorem submitBundles_reported (b : SubmitBundlesBatch) (w : Outside) (db : LeadDb)
    (seen : List RunClaimRow) (h : ConflictsReported db)
    (hraises : Raises b.runId b.claims seen b.exceptions)
    (hcurrent : ∀ c ∈ db.claims, c.runId = b.runId →
      c.claimKey ∈ b.claims.map RunClaimRow.claimKey → c ∈ seen) :
    ConflictsReported (written (b.writes w) db) := by
  unfold SubmitBundlesBatch.writes
  rw [written_append, written_append, written_append]
  rcases accountEntries_frame
    (fun budget => budget.projectId = b.envelope.projectId && budget.runId = b.runId)
    b.envelope.now b.entries b.budget.accountingVersion b.budget.logicalUnitsUsed
    b.budget.costMicrounitsUsed _ with ⟨budgets, versions, budgetEntries, hframe⟩
  rw [hframe]
  exact taken_reported db _ b.runId b.claims seen b.exceptions h hraises hcurrent rfl
    (fun _ hx => hx)

/-- What leaves the claims as they are and the subjects of the exceptions there. -/
theorem reported_same (db db' : LeadDb) (h : ConflictsReported db) (hclaims : db'.claims = db.claims)
    (hexceptions : db.exceptions.map ExceptionRow.subject ⊆
      db'.exceptions.map ExceptionRow.subject) : ConflictsReported db' := by
  intro c hc c' hc' hrun hkey hvalue
  rw [hclaims] at hc hc'
  rcases h c hc c' hc' hrun hkey hvalue with ⟨x, hx, conflicts, hsubject, hsaid, habout⟩
  rcases List.mem_map.mp (hexceptions (List.mem_map_of_mem hx)) with ⟨x', hx', heq⟩
  refine ⟨x', hx', conflicts, heq.trans hsubject, ?_, habout⟩
  rw [hclaims]
  exact hsaid

/-- Every request leaves conflicts reported, where bundles are taken in with all the
    claims that are there. -/
theorem exec_reported {ι : Type} (i : ι) (op : LeadOp) (w : Outside) (db : LeadDb)
    (seen : ι → List RunClaimRow) (h : ConflictsReported db) (hevident : Evident op (seen i))
    (hcurrent : ClaimsCurrent i op w (db, seen)) : ConflictsReported (exec op w db).2 := by
  have hsame : ∀ db' : LeadDb, db'.claims = db.claims → db'.exceptions = db.exceptions →
      ConflictsReported db' := by
    intro db' hclaims hexceptions
    refine reported_same db db' h hclaims ?_
    rw [hexceptions]
    exact List.Subset.refl _
  rcases exec_cases op w db with hsame' | ⟨-, -, hwritten, -⟩
  · rw [hsame']
    exact h
  · rw [hwritten]
    cases op with
    | submitBundle b => exact submitBundle_reported b w db (seen i) h hevident hcurrent
    | submitBundles b => exact submitBundles_reported b w db (seen i) h hevident hcurrent
    | startRun b =>
        have hclaims : (written (b.writes w) db).claims = db.claims := by
          unfold StartRunBatch.writes
          cases b.elastic <;> rfl
        have hexceptions : (written (b.writes w) db).exceptions = db.exceptions := by
          unfold StartRunBatch.writes
          cases b.elastic <;> rfl
        exact hsame _ hclaims hexceptions
    | denied b =>
        refine reported_same db _ h rfl ?_
        change _ ⊆ (db.exceptions ++ [b.exception]).map ExceptionRow.subject
        rw [List.map_append]
        exact List.subset_append_left _ _
    | resolveProjectException projectId exceptionId now =>
        refine reported_same db _ h rfl ?_
        refine subset_update_keys ExceptionRow.subject _ _ db.exceptions ?_
        exact fun _ => rfl
    | _ => exact hsame _ rfl rfl

/-! ## What every call does -/

section Calls

variable {ι : Type} [DecidableEq ι] (format : LeadFormat) (i : ι)

/-- What a call does, where others leave it what it has read. -/
abbrev Recalls {α : Type} (p : LeadProcess α) (s : LeadDb × (ι → List RunClaimRow)) : Prop :=
  p.Meets (tracked exec recallClaims) (Watched.Own ClaimsCurrent i)
    (fun s => ConflictsReported s.1) (fun s t => s.2 i = t.2 i) (fun op s => Evident op (s.2 i))
    (fun _ _ => True) s

theorem prepares_evident (op : LeadOp) (seen : List RunClaimRow) (h : op.prepares = true) :
    Evident op seen := by
  cases op with
  | submitBundle b | submitBundles b => cases h
  | _ => exact trivial

/-- A call that takes no bundles in. -/
theorem within_recalls {α : Type} {A : LeadOp → Prop} (hA : ∀ op seen, A op → Evident op seen)
    (p : LeadProcess α) (s : LeadDb × (ι → List RunClaimRow))
    (hp : p.Within (fun op => op.prepares = true ∨ A op) (fun _ => True)) : Recalls i p s := by
  refine meets_of_within (fun _ => True) (fun _ _ _ _ => trivial) (fun _ _ _ _ _ _ _ => trivial)
    (fun op t _ _ hop => ?_) (fun _ _ _ => trivial) p s trivial hp
  rcases hop with hprepares | hA'
  · exact prepares_evident op _ hprepares
  · exact hA op _ hA'

theorem bind_recalls {α β : Type} (f : α → LeadProcess β) (p : LeadProcess α)
    (s : LeadDb × (ι → List RunClaimRow)) (hp : Prepares p) (hf : ∀ a t, Recalls i (f a) t) :
    Recalls i (p >>= f) s := by
  refine meets_bind f p s (meets_of_within (fun _ => True) (fun _ _ _ _ => trivial)
    (fun _ _ _ _ _ _ _ => trivial) (fun op t _ _ hop => prepares_evident op _ hop) (fun r t _ => ?_)
    p s trivial hp)
  cases r with
  | ok a => exact hf a t
  | error e => exact trivial

theorem mutation_recalls (e : Envelope) (operation : LeadOperation)
    (mutate : LeadProcess LeadResult) (s : LeadDb × (ι → List RunClaimRow))
    (h : ∀ t, Recalls i mutate t) : Recalls i (mutation e operation mutate) s := by
  refine bind_recalls i _ _ s (beginMutation_prepares e operation) (fun prior t => ?_)
  cases prior with
  | none => exact h t
  | some result => exact trivial

/-- A request that reads no claims leaves the call with those it has read. -/
theorem ask_recalls {β : Type} (op : LeadOp) (f : op.Ret → LeadProcess β)
    (seen : List RunClaimRow) (s : LeadDb × (ι → List RunClaimRow)) (hs : s.2 i = seen)
    (hop : op.prepares = true) (hrecall : ∀ r seen, recallClaims op r seen = seen)
    (hf : ∀ r t, t.2 i = seen → Recalls i (f r) t) : Recalls i (ask op >>= f) s := by
  refine meets_request op f s (fun t _ hst => ⟨prepares_evident op _ hop, ?_⟩)
  rintro ⟨j, w⟩ ⟨hj, -⟩
  rw [show j = i from hj]
  refine ⟨fun r _ => hf r _ ?_, fun _ _ => trivial⟩
  simp only [tracked, Function.update_self]
  rw [hrecall, ← hs]
  exact hst.symm

/-- What was read is what the call recalls. Where a bundle makes no claims there is
    nothing to compare them with. -/
theorem readExistingClaims_recalls {β : Type} (runId : String) (claims : List RunClaimRow)
    (f : List RunClaimRow → LeadProcess β) (s : LeadDb × (ι → List RunClaimRow))
    (hf : ∀ existing t, (claims ≠ [] → t.2 i = existing) → Recalls i (f existing) t) :
    Recalls i (readExistingClaims runId claims >>= f) s := by
  refine meets_bind f _ s (meets_ite (fun hempty => ?_) (fun _ => ?_))
  · exact hf [] s (fun hne => absurd (List.isEmpty_iff.mp hempty) hne)
  · intro t _ _
    refine ⟨trivial, ?_⟩
    rintro ⟨j, w⟩ ⟨hj, -⟩
    rw [show j = i from hj]
    beta_reduce
    cases hr : (tracked exec recallClaims
        (.readClaims runId (claims.map RunClaimRow.claimKey).dedup) (i, w) t).1 with
    | error e => exact trivial
    | ok r =>
        refine hf r _ (fun _ => ?_)
        simp only [tracked, Function.update_self] at hr ⊢
        rw [hr]
        rfl

theorem commit_recalls (op : LeadOp) (result : LeadResult)
    (s : LeadDb × (ι → List RunClaimRow)) (hop : ∀ t : LeadDb × (ι → List RunClaimRow),
      s.2 i = t.2 i → Evident op (t.2 i)) : Recalls i (commit op result) s :=
  meets_request op _ s (fun t _ hst => ⟨hop t hst, fun _ _ =>
    ⟨fun _ _ => trivial, fun _ _ => trivial⟩⟩)

theorem settle_recalls (e : Envelope) (operation : LeadOperation) (rethrow : LeadError → LeadError)
    (op : LeadOp) (result : LeadResult) (s : LeadDb × (ι → List RunClaimRow))
    (hop : ∀ t : LeadDb × (ι → List RunClaimRow), s.2 i = t.2 i → Evident op (t.2 i)) :
    Recalls i (settle e operation rethrow op result) s := by
  refine meets_tryCatch _ _ s (meets_request op _ s (fun t _ hst => ⟨hop t hst, fun _ _ =>
    ⟨fun _ _ => trivial, fun error _ => ?_⟩⟩))
  -- After the batch there are only reads.
  refine bind_recalls i _ _ _ (readReplay_prepares e operation) (fun prior t => ?_)
  cases prior with
  | none => exact trivial
  | some result => exact trivial

/-! ## Taking bundles in -/

theorem uniqueClaims_run (runId : String) (bundles : List EventBundle) :
    ∀ c ∈ uniqueClaims runId bundles, c.runId = runId := by
  have hrows : ∀ (claims rows : List RunClaimRow), (∀ c ∈ rows, c.runId = runId) →
      (∀ c ∈ claims, c.runId = runId) → ∀ c ∈ claims.foldl (Table.upsert
        (fun c : RunClaimRow => (c.claimKey, c.valueSha256)) (fun _ claim => claim)) rows,
          c.runId = runId := by
    intro claims
    induction claims with
    | nil => exact fun rows h _ => h
    | cons c claims ih =>
        intro rows hold hnew
        rw [List.foldl_cons]
        refine ih _ ?_ (fun c' hc' => hnew c' (List.mem_cons_of_mem _ hc'))
        exact Table.upsert_forall _ _ _ _ (fun c : RunClaimRow => c.runId = runId) hold
          (hnew c List.mem_cons_self) (fun _ _ _ => hnew c List.mem_cons_self)
  refine hrows _ [] (fun c hc => absurd hc List.not_mem_nil) (fun c hc => ?_)
  rcases List.mem_flatMap.mp hc with ⟨bundle, -, hc⟩
  rcases List.mem_map.mp hc with ⟨claim, -, rfl⟩
  rfl

/-- The exceptions of bundles say where their claims conflict. -/
theorem bundleExceptions_raise (e : Envelope) (run : RunRow) (exceptionIds : List String)
    (actorId : Option String) (bundles : List EventBundle) (existing seen : List RunClaimRow)
    (hseen : uniqueClaims run.runId bundles ≠ [] → seen = existing) :
    Raises run.runId (uniqueClaims run.runId bundles) seen
      (bundleExceptions e run exceptionIds actorId bundles existing
        (uniqueClaims run.runId bundles)) := by
  refine ⟨uniqueClaims_run run.runId bundles, fun hany => ?_⟩
  generalize uniqueClaims run.runId bundles = claims at hseen hany ⊢
  rcases List.any_eq_true.mp hany with ⟨c, hc, hconflicting⟩
  rw [hseen (List.ne_nil_of_mem hc)] at hconflicting ⊢
  have hsome : (claims.filter (conflicting (existing ++ claims))).isEmpty = false := by
    rw [List.isEmpty_eq_false_iff]
    exact List.ne_nil_of_mem (List.mem_filter.mpr ⟨hc, hconflicting⟩)
  unfold bundleExceptions conflictExceptions
  dsimp only
  rw [if_neg (Bool.eq_false_iff.mp hsome)]
  exact ⟨_, List.mem_append_right _ List.mem_cons_self, rfl⟩

/-- A function that reads a Run first goes on with the Run it asked for. -/
theorem readRun_recalls {β : Type} (projectId runId : String) (workItemId : Option String)
    (f : RunRow → LeadProcess β) (s : LeadDb × (ι → List RunClaimRow))
    (hf : ∀ run t, run.runId = runId → Recalls i (f run) t) :
    Recalls i (ask (.readRunRow projectId runId) >>= fun read =>
      check (activeRun workItemId read) >>= f) s := by
  refine meets_request (LeadOp.readRunRow projectId runId) _ s (fun t _ _ => ⟨trivial, ?_⟩)
  rintro ⟨j, w⟩ -
  refine ⟨fun read hread => ?_, fun _ _ => trivial⟩
  refine meets_ofExcept _ _ _ (fun run hrun => hf run _ ?_) (fun _ _ => trivial)
  have hanswer := (exec_ok (.readRunRow projectId runId) w t.1 read hread).1
  have hread' : runOf t.1 projectId runId = read := Except.ok.inj hanswer
  rw [(activeRun_ok workItemId read run hrun).1] at hread'
  have hkey := List.find?_some hread'
  rw [Bool.and_eq_true, decide_eq_true_eq] at hkey
  exact hkey.1

theorem submitRunBundle_recalls (input : SubmitBundleInput) (s : LeadDb × (ι → List RunClaimRow)) :
    Recalls i (submitRunBundle format input) s := by
  refine bind_recalls i _ _ s (check_prepares _) (fun _ t => ?_)
  refine mutation_recalls i _ _ _ t (fun t => ?_)
  refine readRun_recalls i _ _ _ _ t (fun run t hrun => ?_)
  refine bind_recalls i _ _ t (ask_prepares _ rfl) (fun plane t => ?_)
  refine bind_recalls i _ _ t (check_prepares _) (fun _ t => ?_)
  refine bind_recalls i _ _ t (admitRunBundle_prepares _ _ _ _) (fun _ t => ?_)
  refine bind_recalls i _ _ t (ask_prepares _ rfl) (fun _ t => ?_)
  refine bind_recalls i _ _ t (denyUnless_prepares) (fun _ t => ?_)
  refine readExistingClaims_recalls i _ _ _ t (fun existing t hexisting => ?_)
  refine ask_recalls i .prepareRecords _ (t.2 i) t rfl rfl (fun _ _ => rfl) (fun _ u hu => ?_)
  refine commit_recalls i _ _ u (fun v hv => ?_)
  rw [← hv, hu]
  rw [← hrun] at hexisting ⊢
  exact bundleExceptions_raise _ _ _ _ _ _ _ hexisting

theorem submitRunBundlesBatch_recalls (input : SubmitBundlesInput)
    (s : LeadDb × (ι → List RunClaimRow)) :
    Recalls i (submitRunBundlesBatch format input) s := by
  refine bind_recalls i _ _ s (check_prepares _) (fun _ t => ?_)
  refine mutation_recalls i _ _ _ t (fun t => ?_)
  refine readRun_recalls i _ _ _ _ t (fun run t hrun => ?_)
  refine bind_recalls i _ _ t (ask_prepares _ rfl) (fun plane t => ?_)
  refine bind_recalls i _ _ t (check_prepares _) (fun _ t => ?_)
  refine bind_recalls i _ _ t (admitRunBundles_prepares _ _ _ _) (fun _ t => ?_)
  refine bind_recalls i _ _ t (ask_prepares _ rfl) (fun _ t => ?_)
  refine bind_recalls i _ _ t (check_prepares _) (fun _ t => ?_)
  refine bind_recalls i _ _ t (ask_prepares _ rfl) (fun budget? t => ?_)
  refine bind_recalls i _ _ t (check_prepares _) (fun budget t => ?_)
  refine bind_recalls i _ _ t (denyUnless_prepares) (fun _ t => ?_)
  refine bind_recalls i _ _ t (ask_prepares _ rfl) (fun _ t => ?_)
  refine readExistingClaims_recalls i _ _ _ t (fun existing t hexisting => ?_)
  refine ask_recalls i .prepareRecords _ (t.2 i) t rfl rfl (fun _ _ => rfl) (fun _ u hu => ?_)
  refine ask_recalls i (.prepareRunDeltas _ _ _ _) _ (u.2 i) u rfl rfl (fun _ _ => rfl)
    (fun deltas v hv => ?_)
  refine settle_recalls i _ _ _ _ _ v (fun v' hv' => ?_)
  rw [← hv', hv, hu]
  rw [← hrun] at hexisting ⊢
  exact bundleExceptions_raise _ _ _ _ _ _ _ hexisting

/-- Every function leaves the exceptions of what it has read. -/
theorem process_recalls (call : LeadCall) (s : LeadDb × (ι → List RunClaimRow)) :
    Recalls i (call.process format) s := by
  have hkind : ∀ (operation : LeadOperation), operation ≠ .submitBundle →
      operation ≠ .submitBundlesBatch → ∀ (op : LeadOp) (seen : List RunClaimRow),
        op.operation = some operation → Evident op seen := by
    intro operation hbundle hbundles op seen hop
    cases op with
    | submitBundle b => exact absurd (Option.some.inj hop).symm hbundle
    | submitBundles b => exact absurd (Option.some.inj hop).symm hbundles
    | _ => exact trivial
  have hreconciles : ∀ (op : LeadOp) (seen : List RunClaimRow), op.reconciles = true →
      Evident op seen := by
    intro op seen hop
    cases op with
    | submitBundle b | submitBundles b => cases hop
    | _ => exact trivial
  cases call with
  | startLeadRun input =>
      exact within_recalls i (hkind .startRun nofun nofun) _ s (startLeadRun_makes input).within
  | registerRunActor input =>
      exact within_recalls i (hkind .registerActor nofun nofun) _ s (registerRunActor_makes input).within
  | submitRunBundle input => exact submitRunBundle_recalls format i input s
  | completeLeadWorkItem input =>
      exact within_recalls i (hkind .completeWorkItem nofun nofun) _ s (completeLeadWorkItem_makes input).within
  | registerRunActorsBatch input =>
      exact within_recalls i (fun op seen hop => hop.elim
        (hkind .registerActorsBatch nofun nofun op seen) (hreconciles op seen)) _ s
        (registerRunActorsBatch_makes format input).within
  | submitRunBundlesBatch input => exact submitRunBundlesBatch_recalls format i input s
  | recoverRunActor input =>
      exact within_recalls i (fun op seen hop => hop.elim
        (hkind .recoverActor nofun nofun op seen) (hreconciles op seen)) _ s
        (recoverRunActor_makes format input).within
  | submitRunBudgetEntry input =>
      exact within_recalls i (hkind .submitBudgetEntry nofun nofun) _ s
        (submitRunBudgetEntry_makes format input).within
  | createWorkItem item =>
      exact within_recalls i (A := fun _ => False) (fun _ _ => False.elim) _ s
        (commit_makes _ _ (Or.inl rfl)).within
  | acknowledgeCheckpoint point =>
      exact within_recalls i (A := fun _ => False) (fun _ _ => False.elim) _ s
        (commit_makes _ _ (Or.inl rfl)).within
  | resolveProjectException projectId exceptionId now =>
      exact within_recalls i (A := fun _ => False) (fun _ _ => False.elim) _ s
        (request_makes _ _ (Or.inl rfl)).within

/-! ## Runs -/

/-- Let a call make its next request and remember the claims it reads, or cut it off. -/
abbrev recallStep := Watched.step (ι := ι) (α := LeadResult) exec recallClaims [] LeadError.unavailable

/-- The same without what calls remember. -/
abbrev leadStep := stepOrCut (ι := ι) (α := LeadResult) exec LeadError.unavailable

/-- Whatever the calls and however their requests are interleaved, end or are cut off: in
    every state, every key that was given different values in a Run is reported, as long
    as bundles are taken in while the claims on their keys are those that were read. -/
theorem conflicts_reported (calls : ι → LeadCall) (es : List (ι × Option Outside))
    (h : Run.Along (Watched.Takes ClaimsCurrent) recallStep
      (Watched.watch [] (startPool format calls emptyDb)) es) :
    ∀ pre, pre <+: es → ConflictsReported
      (Run.runFrom leadStep (startPool format calls emptyDb) pre).shared := by
  rintro pre ⟨rest, rfl⟩
  have hpre := ((Run.along_append _ _ _ pre rest).mp h).1
  have hsound := Run.runFrom_invariant recallStep
    (Pool.SoundEach (tracked exec recallClaims) (Watched.Own ClaimsCurrent)
      (fun s => ConflictsReported s.1) (fun i s t => s.2 i = t.2 i)
      (fun i op s => Evident op (s.2 i)) (fun _ _ _ => True))
    (fun c e hc he => Watched.step_sound (R := fun i s t => s.2 i = t.2 i)
      (fun _ _ _ => rfl) (fun _ _ _ _ h h' => h.trans h')
      (fun i op w s hs hp hC => ⟨exec_reported i op w s.1 s.2 hs hp hC,
        fun j hj => (Function.update_of_ne hj _ _).symm⟩)
      (fun i s hs => ⟨hs, fun j hj => (Function.update_of_ne hj _ _).symm⟩) c e hc he) _ pre
    ⟨fun c hc => absurd hc List.not_mem_nil,
      fun i => ⟨_, rfl, process_recalls format i (calls i) _⟩⟩ hpre
  rw [← Watched.forget_run exec recallClaims]
  exact hsound.1

end Calls

/-! ## Two bundles at the same time -/

/-- What an actor has found, with a value for a key. -/
def finding (bundleId actorId valueSha256 : String) : EventBundle :=
  { bundleId := bundleId, projectId := "project", runId := "run", actorId := actorId
    createdAt := 2
    events := [.resultProvisional bundleId actorId "run" "summary"
      [{ key := "coding.validation", valueSha256 := valueSha256, evidenceSha256 := none }]]
    requestedActions := [], normalizedRelativePath := none }

/-- Two actors of a Run that contradict each other. -/
def contradiction : Nat → LeadCall
  | 0 => .createWorkItem
      { workItemId := "item", projectId := "project", status := .opened, createdAt := 1 }
  | 1 => .startLeadRun
      { envelope := envelopeAt 1 "start", workItemId := "item", purpose := .coding
        completionMode := none, elastic := false, workPacketId := .ok "packet"
        policyId := .ok ("policy", false), runId := "run"
        elasticIds := { planeRecordId := "", accountId := "", budgetId := "" } }
  | 2 => .registerRunActor
      { envelope := envelopeAt 1 "first", runId := "run", workItemId := "item"
        actor := contributor "first" 900, exceptionId := "x1" }
  | 3 => .registerRunActor
      { envelope := envelopeAt 1 "second", runId := "run", workItemId := "item"
        actor := contributor "second" 900, exceptionId := "x2" }
  | 4 => .submitRunBundle
      { envelope := envelopeAt 2 "one", runId := "run", bundle := finding "b1" "first" "1"
        exceptionIds := ["e1"] }
  | _ => .submitRunBundle
      { envelope := envelopeAt 2 "other", runId := "run", bundle := finding "b2" "second" "2"
        exceptionIds := ["e2"] }

def submittedAfter : List (Nat × Option Outside) :=
  (turns 0 1 ++ turns 1 6 ++ turns 2 12 ++ turns 3 12 ++ turns 4 10 ++ turns 5 10).map
    (fun e => (e.1, some e.2))

/-- The second bundle is compared with the first, and an exception is left. -/
theorem submittedAfter_reported :
    ConflictsReported (Run.runFrom leadStep (startPool elasticFormat contradiction emptyDb)
        submittedAfter).shared ∧
      (Run.runFrom leadStep (startPool elasticFormat contradiction emptyDb)
        submittedAfter).shared.exceptions.map ExceptionRow.subject =
          [(.evidenceConflict, some "run", ["2"])] :=
  ⟨conflicts_reported elasticFormat contradiction submittedAfter (by decide +kernel) _
    (List.prefix_refl _), by decide +kernel⟩

/-- Both claims are read before one of the bundles is taken in. -/
def submittedTogether : List (Nat × Option Outside) :=
  (turns 0 1 ++ turns 1 6 ++ turns 2 12 ++ turns 3 12 ++ turns 4 9 ++ turns 5 9 ++ turns 4 1 ++
    turns 5 1).map (fun e => (e.1, some e.2))

/-- Two bundles of the Run then give the key different values, and there is no exception. -/
theorem submittedTogether_unreported :
    ¬ ∀ (format : LeadFormat) (calls : Nat → LeadCall) (es : List (Nat × Option Outside)),
      ConflictsReported (Run.runFrom leadStep (startPool format calls emptyDb) es).shared := by
  intro h
  have hreported := h elasticFormat contradiction submittedTogether
  have hclaims : (Run.runFrom leadStep (startPool elasticFormat contradiction emptyDb)
      submittedTogether).shared.claims.map (fun c => (c.bundleId, c.said)) =
        [("b1", "run", "coding.validation", "1"), ("b2", "run", "coding.validation", "2")] := by
    decide +kernel
  have hexceptions : (Run.runFrom leadStep (startPool elasticFormat contradiction emptyDb)
      submittedTogether).shared.exceptions = [] := by
    decide +kernel
  have hone : ("b1", "run", "coding.validation", "1") ∈ (Run.runFrom leadStep (startPool
      elasticFormat contradiction emptyDb) submittedTogether).shared.claims.map
        (fun c => (c.bundleId, c.said)) := by
    rw [hclaims]
    exact List.mem_cons_self
  have hother : ("b2", "run", "coding.validation", "2") ∈ (Run.runFrom leadStep (startPool
      elasticFormat contradiction emptyDb) submittedTogether).shared.claims.map
        (fun c => (c.bundleId, c.said)) := by
    rw [hclaims]
    exact List.mem_cons_of_mem _ List.mem_cons_self
  rcases List.mem_map.mp hone with ⟨c, hc, hsaid⟩
  rcases List.mem_map.mp hother with ⟨c', hc', hsaid'⟩
  simp only [RunClaimRow.said, Prod.mk.injEq] at hsaid hsaid'
  rcases hreported c hc c' hc' (hsaid'.2.1.trans hsaid.2.1.symm)
    (hsaid'.2.2.1.trans hsaid.2.2.1.symm) (by rw [hsaid.2.2.2, hsaid'.2.2.2]; decide)
    with ⟨x, hx, -⟩
  rw [hexceptions] at hx
  cases hx

end Mdevolved.Lead
