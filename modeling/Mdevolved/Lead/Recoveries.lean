import Mdevolved.Lead.Conflicts

/-!
# Recoveries of Actors

An actor of an elastic Run that was lost is replaced by another. The replacement has
no scope that the actor before it has not, and ends with the lease. The Run is read,
and so is the actor, several requests before the batch is sent. The batch keeps an
actor from being replaced twice, and puts an end to the one that it replaces.

What it does not ask again is whether the Run is still active: another call may have
completed it meanwhile. The batch that takes bundles in does not ask whether their
authors may still act, so that an actor can be replaced between the check and the
batch. Both do what they should as long as a call is not overtaken: what it has read
of the status of the Run and of its authors still holds when its batch is sent.

A call is watched for the rows it has read.

## Main definitions

* `Replaces`: An actor stands in the place of another.
* `RecoveryLedger`: What every recovery is about.
* `LeadSeen`, `recallRows`: What a call has read.
* `StatusCurrent`: A call is not overtaken.
* `Grounded`: A batch is made from what was read.

## Theorems

* `exec_actors`: What a request does to actors.
* `exec_recoveryLedger`: Every request keeps the ledger of recoveries.
* `replaced_narrows`: Scopes along a chain of replacements.
* `recoveries_safe`: Recoveries in every run in which no call is overtaken.
* `recoveries_overtaken`: Runs in which one is.
* `actors_final`: Actors stay, and who was replaced does not come back.
-/

namespace Mdevolved.Lead

open Batch Process

/-! ## Recoveries -/

/-- What no request changes of an actor. -/
def ActorRow.identity (a : ActorRow) : ActorRow :=
  { a with status := .active, revokedAt := none }

theorem identity_fields (a a' : ActorRow) (h : a'.identity = a.identity) :
    a'.actorId = a.actorId ∧ a'.runId = a.runId ∧ a'.scopes = a.scopes ∧
      a'.expiresAt = a.expiresAt := by
  simp only [ActorRow.identity, ActorRow.mk.injEq] at h
  exact ⟨h.1, h.2.2.1, h.2.2.2.2.2.1, h.2.2.2.2.2.2.2.2.1⟩

/-- A recovery has put an actor in the place of another, which has ended. -/
structure ActorRecoveryRow.Puts (r : ActorRecoveryRow) (a a' : ActorRow) : Prop where
  abandoned : a.actorId = r.abandonedActorId
  abandonedRun : a.runId = r.runId
  replacement : a'.actorId = r.replacementActorId
  replacementRun : a'.runId = r.runId
  scopes : a'.scopes ⊆ a.scopes
  ended : a.status ≠ .active

/-- An actor stands in the place of another. -/
def Replaces (db : LeadDb) (a a' : ActorRow) : Prop :=
  a ∈ db.actors ∧ a' ∈ db.actors ∧ ∃ r ∈ db.recoveries, a.actorId = r.abandonedActorId ∧
    a'.actorId = r.replacementActorId

structure RecoveryLedger (db : LeadDb) : Prop where
  actors : (db.actors.map ActorRow.actorId).Nodup
  recoveries : ∀ r ∈ db.recoveries, ∃ a ∈ db.actors, ∃ a' ∈ db.actors, r.Puts a a'
  once : (db.recoveries.map ActorRecoveryRow.abandonedActorId).Nodup

/-- Along a chain of replacements nobody gets a scope back. -/
theorem replaced_narrows (db : LeadDb) (hl : RecoveryLedger db) (a a' : ActorRow)
    (h : Relation.TransGen (Replaces db) a a') : a'.scopes ⊆ a.scopes := by
  have hstep : ∀ b b', Replaces db b b' → b'.scopes ⊆ b.scopes := by
    rintro b b' ⟨hb, hb', r, hr, habandoned, hreplacement⟩
    rcases hl.recoveries r hr with ⟨c, hc, c', hc', hputs⟩
    have heq := List.inj_on_of_nodup_map hl.actors hb hc (habandoned.trans hputs.abandoned.symm)
    have heq' := List.inj_on_of_nodup_map hl.actors hb' hc'
      (hreplacement.trans hputs.replacement.symm)
    rw [heq, heq']
    exact hputs.scopes
  induction h with
  | single hab => exact hstep _ _ hab
  | tail _ hbc ih => exact List.Subset.trans (hstep _ _ hbc) ih

/-- An actor that was replaced is not active. -/
theorem replaced_ended (db : LeadDb) (hl : RecoveryLedger db) (actorId : String)
    (h : actorId ∈ db.recoveries.map ActorRecoveryRow.abandonedActorId) :
    ∃ a ∈ db.actors, a.actorId = actorId ∧ a.status ≠ .active := by
  rcases List.mem_map.mp h with ⟨r, hr, rfl⟩
  rcases hl.recoveries r hr with ⟨a, ha, a', -, hputs⟩
  exact ⟨a, ha, hputs.abandoned, hputs.ended⟩

/-! ## What a request does to actors -/

/-- Actors stay, with what does not change of them, and none becomes active again. -/
structure ActorsKept (s t : LeadDb) : Prop where
  ids : (s.actors.map ActorRow.actorId).Nodup → (t.actors.map ActorRow.actorId).Nodup
  kept : ∀ a ∈ s.actors, ∃ a' ∈ t.actors, a'.identity = a.identity ∧
    (a.status ≠ .active → a'.status ≠ .active)

theorem ActorsKept.refl (s : LeadDb) : ActorsKept s s :=
  ⟨id, fun a ha => ⟨a, ha, rfl, id⟩⟩

theorem ActorsKept.trans {s t u : LeadDb} (h : ActorsKept s t) (h' : ActorsKept t u) :
    ActorsKept s u := by
  refine ⟨fun hs => h'.ids (h.ids hs), fun a ha => ?_⟩
  rcases h.kept a ha with ⟨b, hb, hidentity, hended⟩
  rcases h'.kept b hb with ⟨c, hc, hidentity', hended'⟩
  exact ⟨c, hc, hidentity'.trans hidentity, fun hne => hended' (hended hne)⟩

theorem actorsKept_same (s t : LeadDb) (h : t.actors = s.actors) : ActorsKept s t := by
  refine ⟨fun hs => ?_, fun a ha => ⟨a, ?_, rfl, id⟩⟩
  · rw [h]
    exact hs
  · rw [h]
    exact ha

/-- Actors are changed in what may change. -/
theorem actorsKept_update (s t : LeadDb) (p : ActorRow → Bool) (f : ActorRow → ActorRow)
    (hf : ∀ a, (f a).identity = a.identity ∧ (f a).status ≠ .active)
    (h : t.actors = Table.update p f s.actors) : ActorsKept s t := by
  refine ⟨fun hs => ?_, fun a ha => ?_⟩
  · rw [h, Table.map_update ActorRow.actorId p f (fun a => (identity_fields _ _ (hf a).1).1)]
    exact hs
  · refine ⟨if p a then f a else a, ?_, ?_⟩
    · rw [h]
      exact Table.update_mem p f s.actors a ha
    · by_cases hp : p a = true
      · rw [if_pos hp]
        exact ⟨(hf a).1, fun _ => (hf a).2⟩
      · rw [if_neg hp]
        exact ⟨rfl, id⟩

/-- Actors are added, of other identifiers. -/
theorem actorsKept_insert (s t : LeadDb) (liveFence : Bool) (new : List ActorRow)
    (hpasses : Passes (insertActors liveFence new) s) (h : t.actors = s.actors ++ new) :
    ActorsKept s t := by
  refine ⟨fun hs => ?_, fun a ha => ⟨a, ?_, rfl, id⟩⟩
  · rw [h]
    rw [List.Nodup, List.pairwise_map] at hs ⊢
    refine Write.insertAll_pairwise _ _ _ _ _ s _ (fun rows a hadm b hb => ?_) hpasses.2.1 hs
    exact of_decide_eq_true (List.all_eq_true.mp hadm b hb)
  · rw [h]
    exact List.mem_append_left _ ha

/-- The actor that is replaced, as it is then. -/
def RecoverActorBatch.abandon (b : RecoverActorBatch) (a : ActorRow) : ActorRow :=
  { a with
    status := if b.reason = .expired then .expired else .revoked
    revokedAt := if b.reason = .expired then none else some b.envelope.now }

theorem abandon_ended (b : RecoverActorBatch) (a : ActorRow) :
    (b.abandon a).identity = a.identity ∧ (b.abandon a).status ≠ .active := by
  refine ⟨rfl, ?_⟩
  unfold RecoverActorBatch.abandon
  by_cases hreason : b.reason = .expired
  · rw [if_pos hreason]
    exact ActorStatus.noConfusion
  · rw [if_neg hreason]
    exact ActorStatus.noConfusion

theorem recoverActor_actors (b : RecoverActorBatch) (w : Outside) (db : LeadDb)
    (hpasses : Passes (b.writes w) db) : ActorsKept db (written (b.writes w) db) := by
  simp only [RecoverActorBatch.writes, passes_append] at hpasses
  refine ActorsKept.trans ?_ (actorsKept_insert _ _ _ _ hpasses.1.1.1.2 rfl)
  exact actorsKept_update db _ _ _ (abandon_ended b) rfl

/-- A Run that starts has neither actors nor recoveries. -/
theorem startRun_frame (b : StartRunBatch) (w : Outside) (db : LeadDb) :
    (written (b.writes w) db).actors = db.actors ∧
      (written (b.writes w) db).recoveries = db.recoveries := by
  unfold StartRunBatch.writes
  cases b.elastic <;> exact ⟨rfl, rfl⟩

theorem submitBundles_frame (b : SubmitBundlesBatch) (w : Outside) (db : LeadDb) :
    (written (b.writes w) db).actors = db.actors ∧
      (written (b.writes w) db).recoveries = db.recoveries := by
  unfold SubmitBundlesBatch.writes
  rw [written_append, written_append, written_append]
  rcases accountEntries_frame
    (fun budget => budget.projectId = b.envelope.projectId && budget.runId = b.runId)
    b.envelope.now b.entries b.budget.accountingVersion b.budget.logicalUnitsUsed
    b.budget.costMicrounitsUsed _ with ⟨budgets, versions, budgetEntries, hframe⟩
  rw [hframe]
  exact ⟨rfl, rfl⟩

/-- A request leaves the actors there, and adds what its batch makes. -/
theorem exec_actors (op : LeadOp) (w : Outside) (db : LeadDb) :
    ActorsKept db (exec op w db).2 := by
  rcases exec_cases op w db with hsame | ⟨-, hpasses, hwritten, -⟩
  · rw [hsame]
    exact ActorsKept.refl db
  · rw [hwritten]
    cases op with
    | registerActor b =>
        simp only [LeadOp.writes, RegisterActorBatch.writes, passes_append] at hpasses
        exact actorsKept_insert db _ _ _ hpasses.1.1.2 rfl
    | registerActors b =>
        simp only [LeadOp.writes, RegisterActorsBatch.writes, passes_append] at hpasses
        exact actorsKept_insert db _ _ _ hpasses.1.1.1.2 rfl
    | complete b =>
        refine actorsKept_update db _ _ _ ?_ rfl
        exact fun a => ⟨rfl, ActorStatus.noConfusion⟩
    | reconcile b =>
        refine actorsKept_update db _ _ _ ?_ rfl
        exact fun a => ⟨rfl, ActorStatus.noConfusion⟩
    | recoverActor b => exact recoverActor_actors b w db hpasses
    | startRun b => exact actorsKept_same db _ (startRun_frame b w db).1
    | submitBundles b => exact actorsKept_same db _ (submitBundles_frame b w db).1
    | _ => exact actorsKept_same db _ rfl

/-! ## The ledger of recoveries -/

/-- The actor that a batch replaces is one of its Run, and has the scopes of the
    replacement. -/
def RecoverActorBatch.Follows (b : RecoverActorBatch) (db : LeadDb) : Prop :=
  ∃ a ∈ db.actors, a.actorId = b.abandonedActorId ∧ a.runId = b.runId ∧
    b.registration.scopes ⊆ a.scopes

/-- What a batch that replaces an actor requires of the tables. -/
theorem recoverActor_passes (b : RecoverActorBatch) (w : Outside) (db : LeadDb)
    (hpasses : Passes (b.writes w) db) :
    (∀ r ∈ db.recoveries, ¬ (r.runId = b.runId ∧ r.abandonedActorId = b.abandonedActorId)) ∧
      ∃ r ∈ db.runs, r.runId = b.runId := by
  simp only [RecoverActorBatch.writes, passes_append] at hpasses
  rcases hpasses with ⟨⟨⟨⟨-, -, -, hactors, -⟩, -⟩, -, -, -, -, hrecoveries, -⟩, -⟩
  refine ⟨fun r hr hsame => ?_, ?_⟩
  · rw [Write.insertAll_single] at hrecoveries
    have hr' := List.all_eq_true.mp hrecoveries r hr
    rw [Bool.and_eq_true, Bool.not_eq_true', Bool.and_eq_false_iff] at hr'
    rcases hr'.2 with hrun | habandoned
    · exact of_decide_eq_false hrun hsame.1
    · exact of_decide_eq_false habandoned hsame.2
  · rw [Write.require_passes, List.all_cons, Bool.and_eq_true, Bool.and_eq_true] at hactors
    rcases List.any_eq_true.mp hactors.1.1 with ⟨r, hr, hrun⟩
    exact ⟨r, hr, of_decide_eq_true hrun⟩

/-- Both actors of an earlier recovery are still there. -/
theorem puts_kept (s t : LeadDb) (hkept : ActorsKept s t) (r : ActorRecoveryRow)
    (h : ∃ a ∈ s.actors, ∃ a' ∈ s.actors, r.Puts a a') :
    ∃ a ∈ t.actors, ∃ a' ∈ t.actors, r.Puts a a' := by
  rcases h with ⟨c, hc, c', hc', hputs⟩
  rcases hkept.kept c hc with ⟨d, hd, hidentity, hended⟩
  rcases hkept.kept c' hc' with ⟨d', hd', hidentity', -⟩
  rcases identity_fields _ _ hidentity with ⟨hid, hrun, hscopes, -⟩
  rcases identity_fields _ _ hidentity' with ⟨hid', hrun', hscopes', -⟩
  refine ⟨d, hd, d', hd', hid.trans hputs.abandoned, hrun.trans hputs.abandonedRun,
    hid'.trans hputs.replacement, hrun'.trans hputs.replacementRun, ?_, hended hputs.ended⟩
  rw [hscopes, hscopes']
  exact hputs.scopes

theorem recoverActor_ledger (b : RecoverActorBatch) (w : Outside) (db : LeadDb)
    (hl : RecoveryLedger db) (hfollows : b.Follows db) (hpasses : Passes (b.writes w) db) :
    RecoveryLedger (written (b.writes w) db) := by
  have hkept := recoverActor_actors b w db hpasses
  have hfresh := (recoverActor_passes b w db hpasses).1
  rcases hfollows with ⟨a, ha, hid, hrun, hscopes⟩
  refine ⟨hkept.ids hl.actors, fun r hr => ?_, ?_⟩
  · change r ∈ db.recoveries ++ [b.recovery] at hr
    rcases List.mem_append.mp hr with hold | hnew
    · exact puts_kept db _ hkept r (hl.recoveries r hold)
    · rw [List.mem_singleton.mp hnew]
      refine ⟨if a.actorId = b.abandonedActorId && a.runId = b.runId &&
        (a.status = .active || a.status = .expired) then b.abandon a else a, ?_, b.replacement, ?_,
        ?_⟩
      · exact List.mem_append_left _ (Table.update_mem _ b.abandon db.actors a ha)
      · exact List.mem_append_right _ List.mem_cons_self
      · by_cases hp : (decide (a.actorId = b.abandonedActorId) && decide (a.runId = b.runId) &&
            (decide (a.status = .active) || decide (a.status = .expired))) = true
        · rw [if_pos hp]
          exact ⟨hid, hrun, rfl, rfl, hscopes, (abandon_ended b a).2⟩
        · rw [if_neg hp]
          refine ⟨hid, hrun, rfl, rfl, hscopes, fun hactive => hp ?_⟩
          simp only [hid, hrun, hactive, decide_true, Bool.true_or, Bool.and_self]
  · change ((db.recoveries ++ [b.recovery]).map ActorRecoveryRow.abandonedActorId).Nodup
    rw [List.map_append]
    refine List.nodup_append'.mpr ⟨hl.once, List.nodup_singleton _, ?_⟩
    refine List.disjoint_singleton.mpr (fun hmem => ?_)
    -- An actor that was replaced before is of the same Run, as there is only one of it.
    rcases List.mem_map.mp hmem with ⟨r, hr, habandoned⟩
    rcases hl.recoveries r hr with ⟨c, hc, c', -, hputs⟩
    have heq := List.inj_on_of_nodup_map hl.actors hc ha
      (hputs.abandoned.trans (habandoned.trans hid.symm))
    exact hfresh r hr ⟨hputs.abandonedRun.symm.trans (heq ▸ hrun), habandoned⟩

/-- Every request keeps the ledger of recoveries. -/
theorem exec_recoveryLedger (op : LeadOp) (w : Outside) (db : LeadDb) (hl : RecoveryLedger db)
    (hfollows : ∀ b, op = .recoverActor b → b.Follows db) : RecoveryLedger (exec op w db).2 := by
  have hkept := exec_actors op w db
  have hsame : (exec op w db).2.recoveries = db.recoveries → RecoveryLedger (exec op w db).2 := by
    intro hrecoveries
    refine ⟨hkept.ids hl.actors, fun r hr => ?_, ?_⟩
    · rw [hrecoveries] at hr
      exact puts_kept db _ hkept r (hl.recoveries r hr)
    · rw [hrecoveries]
      exact hl.once
  rcases exec_cases op w db with hsame' | ⟨-, hpasses, hwritten, -⟩
  · exact hsame (congrArg LeadDb.recoveries hsame')
  · rw [hwritten] at hsame ⊢
    cases op with
    | recoverActor b => exact recoverActor_ledger b w db hl (hfollows b rfl) hpasses
    | startRun b => exact hsame (startRun_frame b w db).2
    | submitBundles b => exact hsame (submitBundles_frame b w db).2
    | _ => exact hsame rfl

/-! ## What a call has read -/

/-- The Runs and the actors that a call has read, and when the lease was to expire. -/
structure LeadSeen where
  runs : List RunRow
  actors : List ActorRow
  leases : List Nat

def recallRows (op : LeadOp) (r : Except LeadError op.Ret) (seen : LeadSeen) : LeadSeen :=
  match op, r with
  | .readRunRow _ _, .ok run => { seen with runs := run.toList ++ seen.runs }
  | .readActorRow _ _ _, .ok actor => { seen with actors := actor.toList ++ seen.actors }
  | .readActorRows _ _ _, .ok actors => { seen with actors := List.append actors seen.actors }
  | .readLeaseExpiry _, .ok lease => { seen with leases := lease.toList ++ seen.leases }
  | _, _ => seen

def noneSeen : LeadSeen :=
  { runs := [], actors := [], leases := [] }

/-- What a call has read it does not forget. -/
structure LeadSeen.Within (s t : LeadSeen) : Prop where
  runs : s.runs ⊆ t.runs
  actors : s.actors ⊆ t.actors
  leases : s.leases ⊆ t.leases

theorem recallRows_within (op : LeadOp) (r : Except LeadError op.Ret) (seen : LeadSeen) :
    seen.Within (recallRows op r seen) := by
  have hsame : seen.Within seen :=
    ⟨List.Subset.refl _, List.Subset.refl _, List.Subset.refl _⟩
  unfold recallRows
  split
  · exact ⟨List.subset_append_right _ _, hsame.actors, hsame.leases⟩
  · exact ⟨hsame.runs, List.subset_append_right _ _, hsame.leases⟩
  · exact ⟨hsame.runs, List.subset_append_right _ _, hsame.leases⟩
  · exact ⟨hsame.runs, hsame.actors, List.subset_append_right _ _⟩
  · exact hsame

/-- The actors that bundles of a batch are by. -/
def LeadOp.authors : LeadOp → List String
  | submitBundle b => [b.bundle.actorId]
  | submitBundles b => b.bundles.map (fun bundle => bundle.1.actorId)
  | _ => []

/-- The Run of a batch that replaces an actor. -/
def LeadOp.recovers : LeadOp → Option String
  | recoverActor b => some b.runId
  | _ => none

/-- A call is not overtaken: what it has read of the status of the Run to which it adds
    a replacement, and of the authors of its bundles, still holds. -/
def StatusCurrent {ι : Type} (i : ι) (op : LeadOp) (_ : Outside)
    (s : LeadDb × (ι → LeadSeen)) : Prop :=
  (∀ run ∈ (s.2 i).runs, op.recovers = some run.runId →
    ∀ r ∈ s.1.runs, r.runId = run.runId → r.status = run.status) ∧
  ∀ a ∈ (s.2 i).actors, a.actorId ∈ op.authors →
    ∀ a' ∈ s.1.actors, a'.actorId = a.actorId → a'.status = a.status

instance {ι : Type} (i : ι) (op : LeadOp) (w : Outside) (s : LeadDb × (ι → LeadSeen)) :
    Decidable (StatusCurrent i op w s) := by
  unfold StatusCurrent
  infer_instance

/-- A batch is made from what was read: an actor of a Run that was active is replaced
    until the lease expires, and bundles are by actors that were active. -/
def Grounded (op : LeadOp) (db : LeadDb) (seen : LeadSeen) : Prop :=
  (∀ b, op = .recoverActor b → b.Follows db ∧ b.leaseExpiresAt ∈ seen.leases ∧
    ∃ run ∈ seen.runs, run.runId = b.runId ∧ run.status = .active) ∧
  ∀ author ∈ op.authors, ∃ a ∈ seen.actors, a.actorId = author ∧ a.status = .active

/-! ## What is asked of a batch -/

/-- A replacement is added to an active Run and ends with the lease that was read, and
    bundles are not by actors that were replaced. -/
structure OpSafe (op : LeadOp) (db : LeadDb) (seen : LeadSeen) : Prop where
  active : ∀ b, op = .recoverActor b → ∃ r ∈ db.runs, r.runId = b.runId ∧ r.status = .active
  lease : ∀ b, op = .recoverActor b → ∃ t ∈ seen.leases, b.replacement.expiresAt ≤ t
  authors : ∀ author ∈ op.authors,
    author ∉ db.recoveries.map ActorRecoveryRow.abandonedActorId

/-- A batch that is made from what was read is safe where its call is not overtaken. -/
theorem opSafe_of_current {ι : Type} (i : ι) (op : LeadOp) (w : Outside)
    (s : LeadDb × (ι → LeadSeen)) (hl : RecoveryLedger s.1) (hg : Grounded op s.1 (s.2 i))
    (hcurrent : StatusCurrent i op w s) (hpasses : Passes (op.writes w) s.1) :
    OpSafe op s.1 (s.2 i) := by
  refine ⟨?_, ?_, fun author hauthor hreplaced => ?_⟩
  · rintro b rfl
    rcases hg.1 b rfl with ⟨-, -, run, hrun, hid, hactive⟩
    rcases (recoverActor_passes b w s.1 hpasses).2 with ⟨r, hr, hrid⟩
    refine ⟨r, hr, hrid, ?_⟩
    rw [hcurrent.1 run hrun (congrArg some hid.symm) r hr (hrid.trans hid.symm)]
    exact hactive
  · rintro b rfl
    exact ⟨b.leaseExpiresAt, (hg.1 b rfl).2.1, Nat.min_le_right _ _⟩
  · rcases hg.2 author hauthor with ⟨a, ha, hid, hactive⟩
    rcases replaced_ended s.1 hl author hreplaced with ⟨a', ha', hid', hended⟩
    have hsame := hcurrent.2 a ha (hid.symm ▸ hauthor) a' ha' (hid'.trans hid.symm)
    exact hended (hsame.trans hactive)

/-! ## What every call does -/

theorem appended_subset {ρ : Type} (read s t : List ρ) (h : s ⊆ t) : read ++ s ⊆ read ++ t :=
  List.append_subset.mpr ⟨List.subset_append_left _ _, List.subset_append_of_subset_right _ h⟩

theorem recallRows_mono (op : LeadOp) (r : Except LeadError op.Ret) (s t : LeadSeen)
    (h : s.Within t) : (recallRows op r s).Within (recallRows op r t) := by
  unfold recallRows
  split
  · exact ⟨appended_subset _ _ _ h.runs, h.actors, h.leases⟩
  · exact ⟨h.runs, appended_subset _ _ _ h.actors, h.leases⟩
  · exact ⟨h.runs, appended_subset _ _ _ h.actors, h.leases⟩
  · exact ⟨h.runs, h.actors, appended_subset _ _ _ h.leases⟩
  · exact h

/-- The actors that an answer brings are in the tables. -/
theorem recallRows_actors (op : LeadOp) (w : Outside) (db : LeadDb) (r : op.Ret) (seen : LeadSeen)
    (h : op.answer w db = .ok r) (a : ActorRow)
    (ha : a ∈ (recallRows op (.ok r) seen).actors) : a ∈ seen.actors ∨ a ∈ db.actors := by
  cases op with
  | readActorRow actorId projectId runId =>
      have hr : actorOf db actorId projectId runId = r := Except.ok.inj h
      rcases List.mem_append.mp ha with hread | hold
      · rw [← hr, Option.mem_toList] at hread
        exact Or.inr (List.mem_of_find?_eq_some hread)
      · exact Or.inl hold
  | readActorRows projectId runId actorIds =>
      have hr : db.actors.filter (fun a => a.projectId = projectId && a.runId = runId &&
        actorIds.contains a.actorId) = r := Except.ok.inj h
      rcases List.mem_append.mp ha with hread | hold
      · rw [← hr] at hread
        exact Or.inr (List.mem_of_mem_filter hread)
      · exact Or.inl hold
  | _ => exact Or.inl ha

section Calls

variable {ι : Type} [DecidableEq ι] (format : LeadFormat) (i : ι)

/-- What a call does, where others leave it what it has read and the actors there. -/
abbrev Rests {α : Type} (p : LeadProcess α) (s : LeadDb × (ι → LeadSeen)) : Prop :=
  p.Meets (tracked exec recallRows) (Watched.Own (fun _ _ _ _ => True) i)
    (fun s => RecoveryLedger s.1) (fun s t => s.2 i = t.2 i ∧ ActorsKept s.1 t.1)
    (fun op s => Grounded op s.1 (s.2 i)) (fun _ _ => True) s

/-- A call has read rows, and the actors among them are there. -/
structure Knows (seen : LeadSeen) (s : LeadDb × (ι → LeadSeen)) : Prop where
  read : seen.Within (s.2 i)
  there : ∀ a ∈ seen.actors, ∃ a' ∈ s.1.actors, a'.identity = a.identity

omit [DecidableEq ι] in
theorem knows_others (seen : LeadSeen) (s t : LeadDb × (ι → LeadSeen)) (hs : Knows i seen s)
    (h : s.2 i = t.2 i ∧ ActorsKept s.1 t.1) : Knows i seen t := by
  refine ⟨h.1 ▸ hs.read, fun a ha => ?_⟩
  rcases hs.there a ha with ⟨a', ha', hidentity⟩
  rcases h.2.kept a' ha' with ⟨a'', ha'', hidentity', -⟩
  exact ⟨a'', ha'', hidentity'.trans hidentity⟩

/-- A request of a call leaves it what it has read. -/
theorem knows_requests (seen : LeadSeen) (op : LeadOp) (w : Outside)
    (s : LeadDb × (ι → LeadSeen)) (hs : Knows i seen s) :
    Knows i seen (tracked exec recallRows op (i, w) s).2 := by
  refine ⟨?_, fun a ha => ?_⟩
  · simp only [tracked, Function.update_self]
    have hwithin := recallRows_within op (exec op w s.1).1 (s.2 i)
    exact ⟨List.Subset.trans hs.read.runs hwithin.runs,
      List.Subset.trans hs.read.actors hwithin.actors,
      List.Subset.trans hs.read.leases hwithin.leases⟩
  · rcases hs.there a ha with ⟨a', ha', hidentity⟩
    rcases (exec_actors op w s.1).kept a' ha' with ⟨a'', ha'', hidentity', -⟩
    exact ⟨a'', ha'', hidentity'.trans hidentity⟩

/-- An answer adds what it brings. -/
theorem knows_answer (seen : LeadSeen) (op : LeadOp) (w : Outside) (s : LeadDb × (ι → LeadSeen))
    (r : op.Ret) (hs : Knows i seen s) (hr : (exec op w s.1).1 = .ok r) :
    Knows i (recallRows op (.ok r) seen) (tracked exec recallRows op (i, w) s).2 := by
  have hkept := exec_actors op w s.1
  refine ⟨?_, fun a ha => ?_⟩
  · simp only [tracked, Function.update_self]
    rw [hr]
    exact recallRows_mono op (.ok r) seen (s.2 i) hs.read
  · rcases recallRows_actors op w s.1 r seen (exec_ok op w s.1 r hr).1 a ha with hold | hread
    · rcases hs.there a hold with ⟨a', ha', hidentity⟩
      rcases hkept.kept a' ha' with ⟨a'', ha'', hidentity', -⟩
      exact ⟨a'', ha'', hidentity'.trans hidentity⟩
    · rcases hkept.kept a hread with ⟨a', ha', hidentity, -⟩
      exact ⟨a', ha', hidentity⟩

section

variable {β : Type} (op : LeadOp) (e : Envelope)

theorem grounded_none (db : LeadDb) (seen : LeadSeen) (h : op.operation = none) :
    Grounded op db seen := by
  cases op with
  | recoverActor b | submitBundle b | submitBundles b => cases h
  | _ => exact ⟨fun b hb => LeadOp.noConfusion hb, fun author h => absurd h List.not_mem_nil⟩

/-- A process whose batches are made from what was read. -/
theorem within_leads {α : Type} {A : LeadOp → Prop} {Q : Except LeadError α → _ → Prop}
    (seen : LeadSeen) (p : LeadProcess α) (s : LeadDb × (ι → LeadSeen)) (hs : Knows i seen s)
    (hA : ∀ op t, Knows i seen t → A op → Grounded op t.1 (t.2 i))
    (hQ : ∀ r t, Knows i seen t → Q r t)
    (hp : p.Within (fun op => op.operation = none ∨ A op) (fun _ => True)) :
    p.Meets (tracked exec recallRows) (Watched.Own (fun _ _ _ _ => True) i)
      (fun s => RecoveryLedger s.1) (fun s t => s.2 i = t.2 i ∧ ActorsKept s.1 t.1)
      (fun op s => Grounded op s.1 (s.2 i)) Q s := by
  refine meets_of_within (Knows i seen) (knows_others i seen) ?_ (fun op t _ ht hop => ?_) hQ p s hs
    hp
  · rintro op ⟨j, w⟩ t _ _ ⟨hj, -⟩ ht
    rw [show j = i from hj]
    exact knows_requests i seen op w t ht
  · rcases hop with hnone | hA'
    · exact grounded_none op t.1 _ hnone
    · exact hA op t ht hA'

theorem bind_rests {α β : Type} (f : α → LeadProcess β) (p : LeadProcess α) (seen : LeadSeen)
    (s : LeadDb × (ι → LeadSeen)) (hs : Knows i seen s)
    (hp : p.Within (fun op => op.operation = none) (fun _ => True))
    (hf : ∀ a t, Knows i seen t → Rests i (f a) t) : Rests i (p >>= f) s := by
  refine meets_bind f p s (within_leads i (A := fun _ => False) seen p s hs
    (fun _ _ _ h => h.elim) (fun r t ht => ?_) (within_mono (fun _ hop => Or.inl hop) p hp))
  cases r with
  | ok a => exact hf a t ht
  | error e => exact trivial

theorem prepares_none {α : Type} (p : LeadProcess α) (h : Prepares p) :
    p.Within (fun op => op.operation = none) (fun _ => True) :=
  within_mono (fun op hop => op.prepares_operation hop) p h

theorem check_rests {α β : Type} {r : Except LeadError α} {f : α → LeadProcess β}
    {seen : LeadSeen} {s : LeadDb × (ι → LeadSeen)} (hs : Knows i seen s)
    (hf : ∀ a t, Knows i seen t → Rests i (f a) t) : Rests i (check r >>= f) s :=
  bind_rests i f _ seen s hs (prepares_none _ (check_prepares r)) hf

theorem prepare_rests {β : Type} {op : LeadOp} {f : op.Ret → LeadProcess β}
    {seen : LeadSeen} {s : LeadDb × (ι → LeadSeen)} (hs : Knows i seen s)
    (hop : op.prepares = true) (hf : ∀ a t, Knows i seen t → Rests i (f a) t) :
    Rests i (ask op >>= f) s :=
  bind_rests i f _ seen s hs (prepares_none _ (ask_prepares op hop)) hf

theorem mutation_rests (operation : LeadOperation)
    (mutate : LeadProcess LeadResult) (seen : LeadSeen) (s : LeadDb × (ι → LeadSeen))
    (hs : Knows i seen s) (h : ∀ t, Knows i seen t → Rests i mutate t) :
    Rests i (mutation e operation mutate) s := by
  refine bind_rests i _ _ seen s hs (prepares_none _ (beginMutation_prepares e operation))
    (fun prior t ht => ?_)
  cases prior with
  | none => exact h t ht
  | some result => exact trivial

/-- A call knows what it has read, and from where. -/
theorem ask_rests (f : op.Ret → LeadProcess β) (seen : LeadSeen)
    (s : LeadDb × (ι → LeadSeen)) (hs : Knows i seen s) (hop : op.operation = none)
    (hf : ∀ r t, (∃ w db, op.answer w db = .ok r) → Knows i (recallRows op (.ok r) seen) t →
      Rests i (f r) t) : Rests i (ask op >>= f) s := by
  refine meets_request op f s (fun u _ hsu => ⟨grounded_none op u.1 _ hop, ?_⟩)
  rintro ⟨j, w⟩ ⟨hj, -⟩
  rw [show j = i from hj]
  refine ⟨fun r hr => hf r _ ⟨w, u.1, (exec_ok op w u.1 r hr).1⟩ ?_, fun _ _ => trivial⟩
  exact knows_answer i seen op w u r (knows_others i seen s u hs hsu) hr

theorem commit_rests (result : LeadResult) (seen : LeadSeen)
    (s : LeadDb × (ι → LeadSeen)) (hs : Knows i seen s)
    (hop : ∀ t, Knows i seen t → Grounded op t.1 (t.2 i)) : Rests i (commit op result) s := by
  refine within_leads i (A := Eq op) seen _ s hs ?_ (fun _ _ _ => trivial)
    (within_bind (within_request op (Or.inr rfl)) (fun _ _ => trivial))
  rintro _ t ht rfl
  exact hop t ht

theorem settle_rests (operation : LeadOperation) (rethrow : LeadError → LeadError)
    (op : LeadOp) (result : LeadResult) (seen : LeadSeen) (s : LeadDb × (ι → LeadSeen))
    (hs : Knows i seen s) (hop : ∀ t, Knows i seen t → Grounded op t.1 (t.2 i)) :
    Rests i (settle e operation rethrow op result) s := by
  refine within_leads i (A := Eq op) seen _ s hs ?_ (fun _ _ _ => trivial)
    (within_mono (fun op hop => hop.imp_left op.prepares_operation) _
      (settle_makes e operation rethrow op result rfl).within)
  rintro _ t ht rfl
  exact hop t ht

theorem reconcile_none (projectId runId : String) (now : Nat) :
    (reconcileExpiredElasticActors projectId runId now).Within
      (fun op => op.operation = none) (fun _ => True) := by
  refine within_bind (within_request _ rfl) (fun ids _ => ?_)
  exact within_ite trivial
    (ask_within (A := fun op => op.operation = none) (.reconcile _) rfl)

theorem recoverRunActor_rests (input : RecoverActorInput) (s : LeadDb × (ι → LeadSeen))
    (hs : Knows i noneSeen s) : Rests i (recoverRunActor format input) s := by
  refine check_rests i hs (fun _ t ht => ?_)
  refine mutation_rests i _ _ _ _ t ht (fun t ht => ?_)
  refine ask_rests i (.readRunRow _ _) _ _ t ht rfl (fun (read : Option RunRow) t hread ht => ?_)
  refine bind_rests i _ _ _ t ht (reconcile_none _ _ _) (fun _ t ht => ?_)
  refine prepare_rests i ht rfl (fun plane? t ht => ?_)
  refine check_rests i ht (fun plane t ht => ?_)
  refine meets_ofExcept _ _ t (fun run hrun => ?_) (fun _ _ => trivial)
  refine ask_rests i (.readActorRow _ _ _) _ _ t ht rfl
    (fun (actor? : Option ActorRow) t hactor ht => ?_)
  refine meets_ofExcept _ _ t (fun abandoned habandoned => ?_) (fun _ _ => trivial)
  refine prepare_rests i ht rfl (fun recovered t ht => ?_)
  refine check_rests i ht (fun _ t ht => ?_)
  refine prepare_rests i ht rfl (fun taken t ht => ?_)
  refine check_rests i ht (fun _ t ht => ?_)
  refine prepare_rests i ht rfl (fun slot? t ht => ?_)
  refine check_rests i ht (fun slot t ht => ?_)
  refine meets_ofExcept _ _ t (fun u hnarrows => ?_) (fun _ _ => trivial)
  refine check_rests i ht (fun _ t ht => ?_)
  refine ask_rests i (.readLeaseExpiry _) _ _ t ht rfl (fun (lease? : Option Nat) t _ ht => ?_)
  refine meets_ofExcept _ _ t (fun lease hlease => ?_) (fun _ _ => trivial)
  refine bind_rests i _ _ _ t ht (prepares_none _ (replacementSlot_prepares _ _))
    (fun activeSlot t ht => ?_)
  refine check_rests i ht (fun _ t ht => ?_)
  refine prepare_rests i ht rfl (fun _ t ht => ?_)
  refine prepare_rests i ht rfl (fun deltas t ht => ?_)
  refine settle_rests i _ _ _ _ _ _ t ht (fun t ht => ⟨?_, fun _ h => absurd h List.not_mem_nil⟩)
  rintro b ⟨⟩
  rcases activeRun_ok _ _ _ hrun with ⟨rfl, hactive, -⟩
  have hactor? := found_ok _ _ _ habandoned
  rcases Option.filter_eq_some_iff.mp hactor? with ⟨rfl, -⟩
  have hlease? := found_ok _ _ _ hlease
  rcases Option.filter_eq_some_iff.mp hlease? with ⟨rfl, -⟩
  refine ⟨?_, ht.read.leases List.mem_cons_self, run, ht.read.runs List.mem_cons_self, ?_, hactive⟩
  · rcases ht.there abandoned List.mem_cons_self with ⟨a, ha, hidentity⟩
    rcases identity_fields _ _ hidentity with ⟨hid, hrunId, hscopes, -⟩
    rcases hactor with ⟨w, db, hanswer⟩
    have hkey := List.find?_some (Except.ok.inj hanswer)
    simp only [Bool.and_eq_true, decide_eq_true_eq] at hkey
    refine ⟨a, ha, hid.trans hkey.1.1, hrunId.trans hkey.2, ?_⟩
    have hnarrow := require_ok _ _ u hnarrows
    rw [RecoverActorInput.narrows, Bool.and_eq_true] at hnarrow
    intro scope hscope
    rw [hscopes]
    exact List.contains_iff_mem.mp (List.all_eq_true.mp hnarrow.2 scope hscope)
  · rcases hread with ⟨w, db, hanswer⟩
    have hkey := List.find?_some (Except.ok.inj hanswer)
    simp only [Bool.and_eq_true, decide_eq_true_eq] at hkey
    exact hkey.1

theorem authorsAdmitted_ok (now : Nat) (actors : List ActorRow) (bundles : List EventBundle)
    (u : Unit) (h : authorsAdmitted now actors bundles = .ok u) :
    ∀ bundle ∈ bundles, ∃ a ∈ actors, a.actorId = bundle.actorId ∧ a.status = .active := by
  induction bundles with
  | nil => exact fun bundle hb => absurd hb List.not_mem_nil
  | cons first bundles ih =>
      rw [authorsAdmitted] at h
      split at h
      · cases h
      · next u' hadmitted =>
        intro bundle hbundle
        rcases List.mem_cons.mp hbundle with rfl | hlater
        · unfold authorAdmitted at hadmitted
          split at hadmitted
          · cases hadmitted
          · next actor hactor =>
            rcases Option.filter_eq_some_iff.mp hactor with ⟨hfound, hlive⟩
            rw [ActorRow.live, Bool.and_eq_true, decide_eq_true_eq] at hlive
            have hid := List.find?_some hfound
            exact ⟨actor, List.mem_of_find?_eq_some hfound, of_decide_eq_true hid, hlive.1⟩
        · exact ih h bundle hlater

/-- A single bundle is by an actor that was active when it was read. -/
theorem admitRunBundle_rests (run : RunRow) (bundle : EventBundle)
    (exceptionId : String) (f : Unit → LeadProcess β) (seen : LeadSeen)
    (s : LeadDb × (ι → LeadSeen)) (hs : Knows i seen s)
    (hf : ∀ seen t, (∃ a ∈ seen.actors, a.actorId = bundle.actorId ∧ a.status = .active) →
      Knows i seen t → Rests i (f ()) t) :
    Rests i (admitRunBundle e run bundle exceptionId >>= f) s := by
  have hwithin := prepares_none _ (admitRunBundle_prepares e run bundle exceptionId)
  refine meets_bind f _ s (meets_request (LeadOp.readActorRow bundle.actorId e.projectId run.runId) _ s
    (fun u _ hsu => ⟨grounded_none _ u.1 _ rfl, ?_⟩))
  rintro ⟨j, w⟩ ⟨hj, -⟩
  rw [show j = i from hj]
  refine ⟨fun (actor? : Option ActorRow) hr => ?_, fun _ _ => trivial⟩
  have hknows := knows_answer i seen
    (.readActorRow bundle.actorId e.projectId run.runId) w u actor? (knows_others i seen s u hs hsu) hr
  have hread : actorOf u.1 bundle.actorId e.projectId run.runId = actor? :=
    Except.ok.inj (exec_ok (.readActorRow bundle.actorId e.projectId run.runId) w u.1 actor? hr).1
  have hrest : Process.Within (fun op : LeadOp => op.operation = none) (fun _ => True)
      (check (found (actor?.filter (ActorRow.live e.now)) .actorInvalid) >>= _) :=
    hwithin.2 (.ok actor?)
  refine meets_ofExcept _ _ _ (fun actor hactor => ?_) (fun _ _ => trivial)
  rw [hactor] at hrest
  rcases Option.filter_eq_some_iff.mp (found_ok _ _ _ hactor) with ⟨rfl, hlive⟩
  rw [ActorRow.live, Bool.and_eq_true, decide_eq_true_eq] at hlive
  have hkey := List.find?_some hread
  simp only [Bool.and_eq_true, decide_eq_true_eq] at hkey
  refine within_leads i (A := fun _ => False) _ _ _ hknows (fun _ _ _ h => h.elim)
    (fun r t ht => ?_) (within_mono (fun _ hop => Or.inl hop) _ hrest)
  cases r with
  | ok a => exact hf _ t ⟨actor, List.mem_cons_self, hkey.1.1, hlive.1⟩ ht
  | error x => exact trivial

/-- So are the bundles of a batch. -/
theorem admitRunBundles_rests (run : RunRow)
    (bundles : List EventBundle) (exceptionId : String) (f : Unit → LeadProcess β)
    (seen : LeadSeen) (s : LeadDb × (ι → LeadSeen)) (hs : Knows i seen s)
    (hf : ∀ seen t, (∀ bundle ∈ bundles, ∃ a ∈ seen.actors, a.actorId = bundle.actorId ∧
      a.status = .active) → Knows i seen t → Rests i (f ()) t) :
    Rests i (admitRunBundles e run bundles exceptionId >>= f) s := by
  have hwithin := prepares_none _ (admitRunBundles_prepares e run bundles exceptionId)
  refine meets_bind f _ s (meets_request (LeadOp.readActorRows e.projectId run.runId
    (batchActorIds bundles)) _ s (fun u _ hsu => ⟨grounded_none _ u.1 _ rfl, ?_⟩))
  rintro ⟨j, w⟩ ⟨hj, -⟩
  rw [show j = i from hj]
  refine ⟨fun (actors : List ActorRow) hr => ?_, fun _ _ => trivial⟩
  have hknows := knows_answer i seen
    (.readActorRows e.projectId run.runId (batchActorIds bundles)) w u actors (knows_others i seen s u hs hsu) hr
  have hrest : Process.Within (fun op : LeadOp => op.operation = none) (fun _ => True)
      (check (authorsAdmitted e.now actors bundles) >>= _) := hwithin.2 (.ok actors)
  refine meets_ofExcept _ _ _ (fun u' hauthors => ?_) (fun _ _ => trivial)
  rw [hauthors] at hrest
  refine within_leads i (A := fun _ => False) _ _ _ hknows (fun _ _ _ h => h.elim)
    (fun r t ht => ?_) (within_mono (fun _ hop => Or.inl hop) _ hrest)
  cases r with
  | ok a =>
      refine hf _ t (fun bundle hbundle => ?_) ht
      rcases authorsAdmitted_ok e.now actors bundles u' hauthors bundle hbundle with
        ⟨a, ha, hid, hactive⟩
      exact ⟨a, List.mem_append_left _ ha, hid, hactive⟩
  | error x => exact trivial

end

theorem submitRunBundle_rests (input : SubmitBundleInput) (s : LeadDb × (ι → LeadSeen))
    (hs : Knows i noneSeen s) : Rests i (submitRunBundle format input) s := by
  refine check_rests i hs (fun _ t ht => ?_)
  refine mutation_rests i _ _ _ _ t ht (fun t ht => ?_)
  refine ask_rests i (.readRunRow _ _) _ _ t ht rfl (fun read t _ ht => ?_)
  refine check_rests i ht (fun run t ht => ?_)
  refine prepare_rests i ht rfl (fun plane t ht => ?_)
  refine check_rests i ht (fun _ t ht => ?_)
  refine admitRunBundle_rests i _ _ _ _ _ _ t ht (fun seen t hauthor ht => ?_)
  refine prepare_rests i ht rfl (fun _ t ht => ?_)
  refine bind_rests i _ _ _ t ht (prepares_none _ (denyUnless_prepares))
    (fun _ t ht => ?_)
  refine bind_rests i _ _ _ t ht (prepares_none _ (readExistingClaims_prepares _ _))
    (fun existing t ht => ?_)
  refine prepare_rests i ht rfl (fun _ t ht => ?_)
  refine commit_rests i _ _ _ t ht (fun t ht => ⟨fun b hb => LeadOp.noConfusion hb, ?_⟩)
  intro author hmem
  rcases hauthor with ⟨a, ha, hid, hactive⟩
  exact ⟨a, ht.read.actors ha, hid.trans (List.mem_singleton.mp hmem).symm, hactive⟩

theorem submitRunBundlesBatch_rests (input : SubmitBundlesInput) (s : LeadDb × (ι → LeadSeen))
    (hs : Knows i noneSeen s) : Rests i (submitRunBundlesBatch format input) s := by
  refine check_rests i hs (fun _ t ht => ?_)
  refine mutation_rests i _ _ _ _ t ht (fun t ht => ?_)
  refine ask_rests i (.readRunRow _ _) _ _ t ht rfl (fun read t _ ht => ?_)
  refine check_rests i ht (fun run t ht => ?_)
  refine prepare_rests i ht rfl (fun plane t ht => ?_)
  refine check_rests i ht (fun _ t ht => ?_)
  refine admitRunBundles_rests i _ _ _ _ _ _ t ht (fun seen t hauthors ht => ?_)
  refine prepare_rests i ht rfl (fun _ t ht => ?_)
  refine check_rests i ht (fun _ t ht => ?_)
  refine prepare_rests i ht rfl (fun budget? t ht => ?_)
  refine check_rests i ht (fun budget t ht => ?_)
  refine bind_rests i _ _ _ t ht (prepares_none _ (denyUnless_prepares))
    (fun _ t ht => ?_)
  refine prepare_rests i ht rfl (fun _ t ht => ?_)
  refine bind_rests i _ _ _ t ht (prepares_none _ (readExistingClaims_prepares _ _))
    (fun existing t ht => ?_)
  refine prepare_rests i ht rfl (fun _ t ht => ?_)
  refine prepare_rests i ht rfl (fun deltas t ht => ?_)
  refine settle_rests i _ _ _ _ _ _ t ht (fun t ht => ⟨fun b hb => LeadOp.noConfusion hb, ?_⟩)
  intro author hmem
  rcases List.mem_map.mp hmem with ⟨bundle, hbundle, rfl⟩
  rcases List.mem_map.mp hbundle with ⟨bundle', hbundle', rfl⟩
  rcases hauthors bundle' hbundle' with ⟨a, ha, hid, hactive⟩
  exact ⟨a, ht.read.actors ha, hid, hactive⟩

/-- Every function makes its batches from what it has read. -/
theorem process_rests (call : LeadCall) (s : LeadDb × (ι → LeadSeen)) (hs : Knows i noneSeen s) :
    Rests i (call.process format) s := by
  have hkind : ∀ (operation : LeadOperation), operation ≠ .submitBundle →
      operation ≠ .submitBundlesBatch → operation ≠ .recoverActor → ∀ (op : LeadOp) db seen,
        op.operation = some operation → Grounded op db seen := by
    intro operation hbundle hbundles hrecover op db seen hop
    cases op with
    | submitBundle b => exact absurd (Option.some.inj hop).symm hbundle
    | submitBundles b => exact absurd (Option.some.inj hop).symm hbundles
    | recoverActor b => exact absurd (Option.some.inj hop).symm hrecover
    | _ => exact ⟨fun b hb => LeadOp.noConfusion hb, fun author h => absurd h List.not_mem_nil⟩
  have hother : ∀ (A : LeadOp → Prop) (p : LeadProcess LeadResult), Makes A p →
      (∀ op db seen, A op → Grounded op db seen) → Rests i p s := by
    intro A p hp hA
    exact within_leads i noneSeen p s hs (fun op t _ hop => hA op t.1 (t.2 i) hop)
      (fun _ _ _ => trivial) (within_mono (fun op hop => hop.imp_left op.prepares_operation) p
        hp.within)
  cases call with
  | startLeadRun input =>
      exact hother _ _ (startLeadRun_makes input) (hkind _ nofun nofun nofun)
  | registerRunActor input =>
      exact hother _ _ (registerRunActor_makes input) (hkind _ nofun nofun nofun)
  | submitRunBundle input => exact submitRunBundle_rests format i input s hs
  | completeLeadWorkItem input =>
      exact hother _ _ (completeLeadWorkItem_makes input) (hkind _ nofun nofun nofun)
  | registerRunActorsBatch input =>
      refine hother _ _ (registerRunActorsBatch_makes format input) (fun op db seen hop => ?_)
      rcases hop with hop | hop
      · exact hkind .registerActorsBatch nofun nofun nofun op db seen hop
      · refine grounded_none op db seen ?_
        cases op with
        | reconcile b => rfl
        | _ => cases hop
  | submitRunBundlesBatch input => exact submitRunBundlesBatch_rests format i input s hs
  | recoverRunActor input => exact recoverRunActor_rests format i input s hs
  | submitRunBudgetEntry input =>
      exact hother _ _ (submitRunBudgetEntry_makes format input) (hkind _ nofun nofun nofun)
  | createWorkItem item =>
      exact hother _ _ (commit_makes (A := fun _ => False) _ _ (Or.inl rfl))
        (fun _ _ _ => False.elim)
  | acknowledgeCheckpoint point =>
      exact hother _ _ (commit_makes (A := fun _ => False) _ _ (Or.inl rfl))
        (fun _ _ _ => False.elim)
  | resolveProjectException projectId exceptionId now =>
      exact hother _ _ (request_makes (A := fun _ => False) _ _ (Or.inl rfl))
        (fun _ _ _ => False.elim)

/-! ## Runs -/

/-- Let a call make its next request and remember the rows it reads, or cut it off. -/
abbrev seeStep := Watched.step (ι := ι) (α := LeadResult) exec recallRows noneSeen
  LeadError.unavailable

/-- Where calls have got to, with what they have read. -/
abbrev seenAfter (calls : ι → LeadCall) (es : List (ι × Option Outside)) :=
  Run.runFrom seeStep (Watched.watch noneSeen (startPool format calls emptyDb)) es

/-- Wherever a batch changes something in a step it is safe. -/
def StepSafe (c : Pool ι LeadOp (fun op => Except LeadError op.Ret) (LeadDb × (ι → LeadSeen))
    LeadError LeadResult) (e : ι × Option Outside) : Prop :=
  ∀ op w, e.2 = some w → c.next e.1 = some op → (exec op w c.shared.1).2 ≠ c.shared.1 →
    OpSafe op c.shared.1 (c.shared.2 e.1)

/-- Scopes along chains of replacements, and the actors that were replaced. -/
structure ChainsSafe (db : LeadDb) : Prop where
  narrows : ∀ a a', Relation.TransGen (Replaces db) a a' → a'.scopes ⊆ a.scopes
  once : (db.recoveries.map ActorRecoveryRow.abandonedActorId).Nodup

/-- Recoveries are kept, and every call makes its batches from what it has read. -/
abbrev Recovering (c : Pool ι LeadOp (fun op => Except LeadError op.Ret)
    (LeadDb × (ι → LeadSeen)) LeadError LeadResult) : Prop :=
  Pool.SoundEach (tracked exec recallRows) (Watched.Own (fun _ _ _ _ => True))
    (fun s => RecoveryLedger s.1) (fun i s t => s.2 i = t.2 i ∧ ActorsKept s.1 t.1)
    (fun i op s => Grounded op s.1 (s.2 i)) (fun _ _ _ => True) c

theorem run_recovering (calls : ι → LeadCall) (es : List (ι × Option Outside)) :
    Recovering (seenAfter format calls es) := by
  refine Run.runFrom_keeps seeStep Recovering (fun c e hc => ?_) _ es ⟨?_, fun i => ?_⟩
  · refine Watched.step_sound (R := fun i (s t : LeadDb × (ι → LeadSeen)) =>
      s.2 i = t.2 i ∧ ActorsKept s.1 t.1) (fun _ s _ => ⟨rfl, ActorsKept.refl s.1⟩)
      (fun _ s t u h h' => ⟨h.1.trans h'.1, h.2.trans h'.2⟩) ?_ ?_ c e hc ?_
    · intro i op w s hs hg _
      exact ⟨exec_recoveryLedger op w s.1 hs (fun b hb => (hg.1 b hb).1),
        fun j hj => ⟨(Function.update_of_ne hj _ _).symm, exec_actors op w s.1⟩⟩
    · exact fun i s hs => ⟨hs, fun j hj =>
        ⟨(Function.update_of_ne hj _ _).symm, ActorsKept.refl s.1⟩⟩
    · rcases e with ⟨i, _ | w⟩
      · exact trivial
      · exact fun _ _ => trivial
  · exact ⟨List.nodup_nil, fun r hr => absurd hr List.not_mem_nil, List.nodup_nil⟩
  · refine ⟨_, ⟨rfl, ActorsKept.refl _⟩, process_rests format i (calls i) _ ⟨?_, ?_⟩⟩
    · exact ⟨List.Subset.refl _, List.Subset.refl _, List.Subset.refl _⟩
    · exact fun a ha => absurd ha List.not_mem_nil

/-- A step in which the call is not overtaken is safe. -/
theorem step_safe (calls : ι → LeadCall) (es : List (ι × Option Outside))
    (e : ι × Option Outside) (h : Watched.Takes StatusCurrent (seenAfter format calls es) e) :
    StepSafe (seenAfter format calls es) e := by
  have hc := run_recovering format calls es
  rintro op w hw hnext hchanged
  rcases e with ⟨i, o⟩
  subst hw
  have hg := Pool.takes_allowed _ i op hc hnext
  rcases exec_cases op w (seenAfter format calls es).shared.1 with hsame | ⟨-, hpasses, -, -⟩
  · exact absurd hsame hchanged
  · exact opSafe_of_current i op w _ hc.1 hg (h op hnext) hpasses

/-- Whatever the calls and however their requests are interleaved, end or are cut off:
    scopes only narrow along a chain of replacements and nobody is replaced twice. As
    long as no call is overtaken a replacement is added to an active Run, and ends with
    its lease, and bundles are not by actors that were replaced. -/
theorem recoveries_safe (calls : ι → LeadCall) (es : List (ι × Option Outside)) :
    (∀ pre, pre <+: es → ChainsSafe (seenAfter format calls pre).shared.1) ∧
      (Run.Along (Watched.Takes StatusCurrent) seeStep
          (Watched.watch noneSeen (startPool format calls emptyDb)) es →
        ∀ pre e, pre ++ [e] <+: es → StepSafe (seenAfter format calls pre) e) := by
  refine ⟨fun pre _ => ?_, fun h pre e => ?_⟩
  · have hl := (run_recovering format calls pre).1
    exact ⟨replaced_narrows _ hl, hl.once⟩
  · rintro ⟨rest, rfl⟩
    have hpre := ((Run.along_append _ _ _ (pre ++ [e]) rest).mp h).1
    exact step_safe format calls pre e ((Run.along_append _ _ _ pre [e]).mp hpre).2.1

/-- Actors of a state are there later, in what does not change of them, and none that has ended or
    that stands before another in a chain of replacements is active. -/
structure ActorsFinal (s t : LeadDb) : Prop where
  kept : ActorsKept s t
  replaced : ∀ a a', Relation.TransGen (Replaces s) a a' →
    ∀ b ∈ t.actors, b.actorId = a.actorId → b.status ≠ .active

/-- In every run, also if calls are overtaken or cut off, no actor is lost or changed in its
    identity, and none that was replaced is active again. -/
theorem actors_final (calls : ι → LeadCall) (es es' : List (ι × Option Outside)) :
    ActorsFinal (seenAfter format calls es).shared.1
      (seenAfter format calls (es ++ es')).shared.1 := by
  have hl := (run_recovering format calls es).1
  have hkept : ActorsKept (seenAfter format calls es).shared.1
      (seenAfter format calls (es ++ es')).shared.1 := by
    unfold seenAfter
    rw [Run.runFrom_append]
    refine Run.runFrom_keeps seeStep (fun c => ActorsKept _ c.shared.1) (fun c e hc => ?_) _ es'
      (ActorsKept.refl _)
    obtain ⟨i, o⟩ := e
    refine hc.trans ?_
    cases o with
    | none => exact ActorsKept.refl _
    | some w =>
        rcases Pool.step_shared (tracked exec recallRows) c (i, (i, w)) with
          ⟨-, hsame⟩ | ⟨op, -, hstep⟩
        · exact actorsKept_same _ _ (congrArg (fun s => s.1.actors) hsame)
        · exact (congrArg Prod.fst hstep).symm ▸ exec_actors op w c.shared.1
  refine ⟨hkept, fun a a' hchain b hb hid => ?_⟩
  -- Whoever is the first of a chain was replaced himself, and had ended by then.
  obtain ⟨c, ⟨ha, -, r, hr, habandoned, -⟩, -⟩ := Relation.TransGen.head'_iff.mp hchain
  obtain ⟨d, hd, hsame, hended⟩ := replaced_ended _ hl a.actorId
    (habandoned ▸ List.mem_map_of_mem hr)
  obtain ⟨d', hd', hidentity, hgone⟩ := hkept.kept d hd
  have heq : b = d' := List.inj_on_of_nodup_map (hkept.ids hl.actors) hb hd'
    (hid.trans (hsame.symm.trans (identity_fields d d' hidentity).1.symm))
  rw [heq]
  exact hgone hended

end Calls

/-! ## Calls that are overtaken -/

/-- An elastic Run with an actor that is replaced. Another call completes the Run, or takes
    in a bundle by the actor. -/
def losing (lifetimeSeconds : Nat) (reason : RecoveryReason) (now : Nat) : Nat → LeadCall
  | 0 => .createWorkItem
      { workItemId := "item", projectId := "project", status := .opened, createdAt := 1 }
  | 1 => .startLeadRun
      { envelope := envelopeAt 1 "start", workItemId := "item", purpose := .coding
        completionMode := some .soloVerified, elastic := true, workPacketId := .ok "packet"
        policyId := .ok ("policy", false), runId := "run"
        elasticIds := { planeRecordId := "plane", accountId := "account", budgetId := "budget" } }
  | 2 => .registerRunActorsBatch
      { envelope := envelopeAt 1 "register", runId := "run", workItemId := "item"
        actors := [contributor "lost" lifetimeSeconds], uuids := ["d1"] }
  | 3 => .recoverRunActor
      { envelope := envelopeAt now "recover", runId := "run", workItemId := "item"
        abandonedActorId := "lost", reason := reason, detectedAt := now
        allowedScopes := [.runBundleSubmit], replacement := contributor "new" 900
        recoveryId := "recovery", uuids := ["d2", "d3"] }
  | 4 => .acknowledgeCheckpoint
      { continuityPointId := "point", projectId := "project", workItemId := "item"
        workPacketId := "packet", acknowledgedAt := 2, restoredAt := none, liveFenceValid := true
        liveContextValid := true }
  | 5 => .completeLeadWorkItem
      { envelope := envelopeAt now "complete", runId := "run", workItemId := "item"
        outcome := "done" }
  | _ => .submitRunBundlesBatch
      { envelope := envelopeAt 2 "submit", runId := "run"
        items := [(finding "bundle" "lost" "1",
          { logicalUnits := 1, costMicrounits := 0, reportedBy := "harness" })]
        entryIds := ["entry"], exceptionIds := ["exception"], uuids := ["d4", "d5"] }

/-- Requests are answered, and a policy decision was made on no bundles. -/
def decided : Outside :=
  { answered with policy := .ok (some 0) }

/-- Calls take as many operations each. -/
def decidedTurns (turns : List (Nat × Nat)) : List (Nat × Option Outside) :=
  turns.flatMap (fun turn => List.replicate turn.2 (turn.1, some decided))

/-- The bundle is taken in, and its author is replaced afterwards. -/
def replacedInTurn : List (Nat × Option Outside) :=
  decidedTurns [(0, 1), (1, 5), (2, 11), (6, 14), (3, 13)]

theorem replacedInTurn_safe :
    (∀ pre e, pre ++ [e] <+: replacedInTurn →
      StepSafe (seenAfter elasticFormat (losing 900 .abandoned 3) pre) e) ∧
    (seenAfter elasticFormat (losing 900 .abandoned 3) replacedInTurn).shared.1.recoveries.map
      (fun r => (r.abandonedActorId, r.replacementActorId)) = [("lost", "new")] :=
  ⟨(recoveries_safe elasticFormat (losing 900 .abandoned 3) replacedInTurn).2 (by decide +kernel),
    by decide +kernel⟩

/-- A batch that changes something is safe, if its step is. -/
theorem opSafe_of_step {ι : Type} (c : Pool ι LeadOp (fun op => Except LeadError op.Ret)
    (LeadDb × (ι → LeadSeen)) LeadError LeadResult) (i : ι) (w : Outside) (test : LeadOp → Bool)
    (htest : (c.next i).any (fun op => test op && (exec op w c.shared.1).2 ≠ c.shared.1) = true)
    (h : StepSafe c (i, some w)) :
    ∃ op, test op = true ∧ OpSafe op c.shared.1 (c.shared.2 i) := by
  rcases (Option.any_eq_true _ _).mp htest with ⟨op, hnext, hop⟩
  rw [Bool.and_eq_true, decide_eq_true_eq] at hop
  exact ⟨op, hop.1, h op w rfl hnext hop.2⟩

/-- The Run has been completed when its expired actor is replaced. -/
def completedMeanwhile : List (Nat × Option Outside) :=
  decidedTurns [(0, 1), (1, 5), (2, 11), (3, 14), (4, 1), (5, 8)]

/-- The author of the bundle has been replaced when the bundle is taken in. -/
def replacedMeanwhile : List (Nat × Option Outside) :=
  decidedTurns [(0, 1), (1, 5), (2, 11), (6, 13), (3, 13)]

/-- A replacement is added to a Run that was completed, and a bundle is taken in by an
    actor that was replaced. -/
theorem recoveries_overtaken :
    ¬ StepSafe (seenAfter elasticFormat (losing 10 .expired 20) completedMeanwhile)
        (3, some decided) ∧
      ¬ StepSafe (seenAfter elasticFormat (losing 900 .abandoned 3) replacedMeanwhile)
        (6, some decided) := by
  constructor
  · intro h
    rcases opSafe_of_step _ 3 decided (fun op => op.recovers = some "run") (by decide +kernel) h
      with ⟨op, hop, hsafe⟩
    cases op with
    | recoverActor b =>
        have hrun : b.runId = "run" := Option.some.inj (of_decide_eq_true hop)
        rcases hsafe.active b rfl with ⟨r, hr, hid, hactive⟩
        have hcompleted : ∀ r ∈ (seenAfter elasticFormat (losing 10 .expired 20)
            completedMeanwhile).shared.1.runs, r.status ≠ .active := by
          decide +kernel
        exact hcompleted r hr hactive
    | _ => cases of_decide_eq_true hop
  · intro h
    rcases opSafe_of_step _ 6 decided (fun op => "lost" ∈ op.authors) (by decide +kernel) h
      with ⟨op, hop, hsafe⟩
    exact hsafe.authors "lost" (of_decide_eq_true hop) (by decide +kernel)

end Mdevolved.Lead
