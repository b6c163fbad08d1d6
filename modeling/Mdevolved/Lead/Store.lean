import Mdevolved.Lead.Batches
import Mdevolved.Lib.Process

/-!
# Requests of the Lead

What the functions of the lead ask of the database, one operation for each await.
An operation answers with what it reads, and does what its writes do. Most
operations only read, and have no writes; a batch only writes, and answers with
nothing. Sequences for deltas are taken from the clock by an operation of their
own.

What is read from tables that are not here comes from outside. So does whether an
operation takes effect, is refused, or takes effect and fails to answer.

## Main definitions

* `LeadOp`: The operations.
* `LeadOp.answer`: What an operation reads.
* `LeadOp.writes`: What an operation writes.
* `exec`: An operation, under what is decided elsewhere.

## Theorems

* `exec_cases`: An operation leaves the tables alone, or its writes pass.
* `exec_read`: An operation without writes leaves the tables alone.
* `exec_ok`: What an operation answers it has read.
-/

namespace Mdevolved.Lead

open Elastic (DeltaInput PreparedDelta)

inductive LeadOp
  | authorizeLead (projectId grantId : String)
  | readReceipt (grantId : String) (operation : LeadOperation) (idempotencyKeySha256 : String)
  | readWorkItem (projectId workItemId : String)
  | readRunRow (projectId runId : String)
  | readPlane (projectId runId : String)
  | readActorRow (actorId projectId runId : String)
  | actorExists (actorIds : List String)
  | readLeaseExpiry (projectId : String)
  | readExpiredActors (projectId runId : String) (now : Nat)
  | readOccupiedSlots (runId : String)
  | readSlot (runId actorId : String)
  | recoveryExists (runId abandonedActorId : String)
  | readActorRows (projectId runId : String) (actorIds : List String)
  | readPriorBundles (projectId runId : String)
  | readReviewTarget (projectId runId bundleId : String)
  | readReviewRouting (projectId runId bundleId reviewerActorId : String)
  | bundleExists (bundleIds : List String)
  | readClaims (runId : String) (claimKeys : List String)
  | readBudget (projectId runId : String)
  | elasticRecordExists (elasticRecordId : String)
  | readBlocker (projectId runId : String)
  | readReview (projectId runId : String)
  | readCheckpoint (projectId workItemId workPacketId : String) (createdAt : Nat)
  | readCompletionPolicyFence (projectId runId : String)
  | prepareRecords
  | prepareRunDeltas (projectId runId : String) (uuids : List String) (deltas : List DeltaInput)
  | startRun (batch : StartRunBatch)
  | registerActor (batch : RegisterActorBatch)
  | submitBundle (batch : SubmitBundleBatch)
  | denied (batch : DeniedBatch)
  | complete (batch : CompleteBatch)
  | registerActors (batch : RegisterActorsBatch)
  | submitBundles (batch : SubmitBundlesBatch)
  | recoverActor (batch : RecoverActorBatch)
  | submitBudgetEntry (batch : SubmitBudgetEntryBatch)
  | reconcile (batch : ReconcileBatch)
  | createWorkItem (item : WorkItemRow)
  | acknowledgeCheckpoint (point : ContinuityPointRow)
  | resolveProjectException (projectId exceptionId : String) (now : Nat)

/-- What an operation answers with. -/
def LeadOp.Ret : LeadOp → Type
  | readReceipt .. => Option ReceiptRow
  | readWorkItem .. => Option WorkItemRow
  | readRunRow .. => Option RunRow
  | readPlane .. => Option ElasticPlaneRow
  | readActorRow .. => Option ActorRow
  | actorExists .. | recoveryExists .. | bundleExists .. | elasticRecordExists ..
  | readBlocker .. | readReview .. | readCheckpoint .. | resolveProjectException .. => Bool
  | readLeaseExpiry .. | readCompletionPolicyFence .. => Option Nat
  | readExpiredActors .. => List String
  | readOccupiedSlots .. => List Nat
  | readSlot .. => Option ActorSlotRow
  | readActorRows .. => List ActorRow
  | readPriorBundles .. => List EventBundleRow
  | readReviewTarget .. | readReviewRouting .. => Option String
  | readClaims .. => List RunClaimRow
  | readBudget .. => Option RunBudgetRow
  | prepareRunDeltas .. => List PreparedDelta
  | _ => Unit

/-! ## What is read -/

/-- The actors of a Run that have expired and still hold an active slot, of which
    there are no more than active slots. -/
def expiredActors (db : LeadDb) (projectId runId : String) (now : Nat) : List String :=
  ((db.actors.filter (fun a => a.projectId = projectId && a.runId = runId &&
    a.status = .active && a.expiresAt ≤ now &&
    db.slots.any (fun s => s.actorId = a.actorId && s.activeSlot.isSome))).map
      ActorRow.actorId).take maxR3ActiveActors

/-- The author of a bundle of a Run that has a provisional result. -/
def reviewTarget (db : LeadDb) (projectId runId bundleId : String) : Option String :=
  (db.bundles.find? (fun b => b.bundleId = bundleId && b.runId = runId &&
    b.projectId = projectId && b.hasProvisionalResult)).map EventBundleRow.actorId

/-- The author of such a bundle, if a review of it was requested from a reviewer. -/
def reviewRouting (db : LeadDb) (projectId runId bundleId reviewerActorId : String) :
    Option String :=
  (db.bundles.find? (fun b => b.bundleId = bundleId && b.runId = runId &&
    b.projectId = projectId && b.hasProvisionalResult &&
    db.bundles.any (fun r => r.runId = b.runId &&
      r.reviewRequestTargetBundleId = some b.bundleId &&
      r.requestedReviewerActorId = some reviewerActorId))).map EventBundleRow.actorId

/-- Whether a bundle of a Run has passed the review that was routed to another
    actor. -/
def hasPassingReview (db : LeadDb) (projectId runId : String) : Bool :=
  db.bundles.any (fun completed => db.bundles.any (fun target => db.bundles.any (fun requested =>
    completed.reviewed target requested projectId runId)))

/-- What an operation reads, or the error it ends with. -/
def LeadOp.answer (op : LeadOp) (w : Outside) (db : LeadDb) : Except LeadError op.Ret :=
  match op with
  | authorizeLead _ _ =>
      match w.problem with
      | none => .ok ()
      | some code => .error (.problem code none)
  | readReceipt grantId operation key => .ok (db.receipts.find? (fun r =>
      r.grantId = grantId && r.operation = operation && r.idempotencyKeySha256 = key))
  | readWorkItem projectId workItemId => .ok (db.workItems.find? (fun i =>
      i.workItemId = workItemId && i.projectId = projectId))
  | readRunRow projectId runId => .ok (runOf db projectId runId)
  | readPlane projectId runId => .ok (planeOf db projectId runId)
  | readActorRow actorId projectId runId => .ok (actorOf db actorId projectId runId)
  | actorExists actorIds => .ok (db.actors.any (fun a => actorIds.contains a.actorId))
  | readLeaseExpiry _ => .ok w.leaseExpiresAt
  | readExpiredActors projectId runId now => .ok (expiredActors db projectId runId now)
  | readOccupiedSlots runId => .ok ((db.slots.filter (fun s => s.runId = runId)).filterMap
      ActorSlotRow.activeSlot)
  | readSlot runId actorId => .ok (db.slots.find? (fun s =>
      s.runId = runId && s.actorId = actorId))
  | recoveryExists runId abandonedActorId => .ok (db.recoveries.any (fun r =>
      r.runId = runId && r.abandonedActorId = abandonedActorId))
  | readActorRows projectId runId actorIds => .ok (db.actors.filter (fun a =>
      a.projectId = projectId && a.runId = runId && actorIds.contains a.actorId))
  | readPriorBundles projectId runId => .ok (db.bundles.filter (fun b =>
      b.projectId = projectId && b.runId = runId))
  | readReviewTarget projectId runId bundleId => .ok (reviewTarget db projectId runId bundleId)
  | readReviewRouting projectId runId bundleId reviewerActorId =>
      .ok (reviewRouting db projectId runId bundleId reviewerActorId)
  | bundleExists bundleIds => .ok (db.bundles.any (fun b => bundleIds.contains b.bundleId))
  | readClaims runId claimKeys => .ok (db.claims.filter (fun c =>
      c.runId = runId && claimKeys.contains c.claimKey))
  | readBudget projectId runId => .ok (db.budgets.find? (fun b =>
      b.projectId = projectId && b.runId = runId))
  | elasticRecordExists elasticRecordId => .ok (db.elasticRecords.contains elasticRecordId)
  | readBlocker projectId runId => .ok (db.exceptions.any (fun x => x.blocks projectId runId))
  | readReview projectId runId => .ok (hasPassingReview db projectId runId)
  | readCheckpoint projectId workItemId workPacketId createdAt => .ok (db.points.any (fun p =>
      p.covers projectId workItemId workPacketId createdAt))
  | readCompletionPolicyFence projectId runId =>
      match w.policy with
      | .error code => .error (.problem code none)
      | .ok none => .ok none
      | .ok (some count) =>
          if count = bundleCountOf db projectId runId then .ok (some count)
          else .error (.problem .policyRequired none)
  | prepareRunDeltas projectId runId uuids deltas => .ok (Elastic.prepareRunDeltas
      db.nextSequence projectId runId (fun index => uuids.getD index "") deltas).1
  | resolveProjectException projectId exceptionId _ => .ok (db.exceptions.any (fun x =>
      x.exceptionId = exceptionId && x.projectId = projectId && x.status ≠ .resolved))
  | prepareRecords | startRun _ | registerActor _ | submitBundle _ | denied _ | complete _
  | registerActors _ | submitBundles _ | recoverActor _ | submitBudgetEntry _ | reconcile _
  | createWorkItem _ | acknowledgeCheckpoint _ => .ok ()

/-! ## What is written -/

/-- What an operation writes. -/
def LeadOp.writes (op : LeadOp) (w : Outside) : List LeadWrite :=
  match op with
  | prepareRunDeltas _ _ _ deltas =>
      [.always (fun db => { db with nextSequence := db.nextSequence + deltas.length })]
  | startRun batch => batch.writes w
  | registerActor batch => batch.writes w
  | submitBundle batch => batch.writes w
  | denied batch => batch.writes w
  | complete batch => batch.writes w
  | registerActors batch => batch.writes w
  | submitBundles batch => batch.writes w
  | recoverActor batch => batch.writes w
  | submitBudgetEntry batch => batch.writes w
  | reconcile batch => batch.writes
  | createWorkItem item =>
      [.insertAll LeadDb.workItems (fun db rows => { db with workItems := rows })
        (fun rows i => rows.all (fun i' => i'.workItemId ≠ i.workItemId)) (fun _ => [item])
        (.unique .other)]
  | acknowledgeCheckpoint point =>
      [.insertAll LeadDb.points (fun db rows => { db with points := rows })
        (fun rows p => rows.all (fun p' => p'.continuityPointId ≠ p.continuityPointId))
        (fun _ => [point]) (.unique .other)]
  | resolveProjectException projectId exceptionId now =>
      [.changeAll LeadDb.exceptions (fun db rows => { db with exceptions := rows })
        (fun _ x => x.exceptionId = exceptionId && x.projectId = projectId &&
          x.status ≠ .resolved)
        (fun _ x => { x with status := .resolved, resolvedAt := some now })]
  | _ => []

/-- What an operation does by itself. -/
def effect (op : LeadOp) (w : Outside) (db : LeadDb) : Except LeadError (op.Ret × LeadDb) :=
  match op.answer w db, Batch.runWrites (op.writes w) db with
  | .error e, _ => .error e
  | .ok _, .error e => .error e
  | .ok r, .ok (_, db') => .ok (r, db')

/-- An operation, under what is decided elsewhere. -/
def exec (op : LeadOp) (w : Outside) (db : LeadDb) : Except LeadError op.Ret × LeadDb :=
  Batch.send .unavailable w.outcome (effect op w) db

section

variable (op : LeadOp) (w : Outside) (db : LeadDb)

theorem effect_ok (db db' : LeadDb) (r : op.Ret)
    (h : effect op w db = .ok (r, db')) :
    op.answer w db = .ok r ∧ Batch.Passes (op.writes w) db ∧
      db' = Batch.written (op.writes w) db := by
  unfold effect at h
  split at h
  · cases h
  · cases h
  · next r' u db'' hanswer hwrites =>
    simp only [Batch.ok_inj] at h
    rcases h with ⟨rfl, rfl⟩
    rcases (Batch.runWrites_ok _ _ _ _).mp hwrites with ⟨hpasses, hwritten⟩
    exact ⟨hanswer, hpasses, hwritten⟩

/-- An operation leaves the tables alone, or its writes pass and it leaves what they
    write. -/
theorem exec_cases :
    (exec op w db).2 = db ∨ (w.outcome ≠ .refused ∧ Batch.Passes (op.writes w) db ∧
      (exec op w db).2 = Batch.written (op.writes w) db ∧
      ((exec op w db).1 = op.answer w db ∨ w.outcome = .lost)) := by
  unfold exec
  cases heffect : effect op w db with
  | error e =>
      left
      cases hw : w.outcome <;> simp only [Batch.send, heffect]
  | ok rdb =>
      rcases rdb with ⟨r, db'⟩
      rcases effect_ok op w db db' r heffect with ⟨hanswer, hpasses, hwritten⟩
      cases hw : w.outcome with
      | answered =>
          right
          simp only [Batch.send, heffect, ne_eq, reduceCtorEq, not_false_eq_true, true_and,
            hanswer, or_false, and_true]
          exact ⟨hpasses, hwritten⟩
      | refused => exact Or.inl (by simp only [Batch.send])
      | lost =>
          right
          simp only [Batch.send, heffect, ne_eq, reduceCtorEq, not_false_eq_true, true_and,
            or_true, and_true]
          exact ⟨hpasses, hwritten⟩

/-- What an operation answers it has read, and what it writes has taken effect. -/
theorem exec_ok (r : op.Ret)
    (h : (exec op w db).1 = .ok r) :
    op.answer w db = .ok r ∧ Batch.Passes (op.writes w) db ∧
      (exec op w db).2 = Batch.written (op.writes w) db :=
  effect_ok op w db _ r (Batch.send_ok _ _ _ _ _ h)

/-- An operation without writes leaves the tables alone. -/
theorem exec_read (h : op.writes w = []) :
    (exec op w db).2 = db := by
  rcases exec_cases op w db with hsame | ⟨_, _, hwritten, _⟩
  · exact hsame
  · rw [hwritten, h, Batch.written_nil]

end

end Mdevolved.Lead
