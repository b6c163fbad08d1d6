import Mdevolved.Lead.Calls

/-!
# Receipts of Mutations

A mutation is recognised by the grant that asks for it, by what it is and by an
idempotency key. Its receipt is looked for before anything else is read, and is
inserted by the last statement of its batch, which fails where there is a receipt of
the same key. A mutation that is denied leaves a receipt too, on a path of its own.

Two requests by the same key may both find no receipt. Then only one of their batches
goes through, since a batch takes effect as a whole. Functions of elastic Runs look
for the receipt of the other then, and the rest fail.

A request that begins when the receipt is there does two things: the caller is
authorised, and the receipt is read. So it changes nothing, and ends with what the
receipt says, or fails where it is about something else.

## Main definitions

* `LeadOp.receipt`: The receipt that a batch leaves.
* `LeadCall.request`: What a call is recognised by.
* `TakesEffect`: A batch changes the tables in a step.
* `Receipted`: A process signs its batches, and returns what a receipt says.
* `LeadCall.replay`: What a call comes to by a receipt.

## Theorems

* `receipt_passes`: What a batch leaves where it passes.
* `retry_replays`: A call that begins when the receipt is there.
* `mutations_once`: What receipts come to in every run.
-/

namespace Mdevolved.Lead

open Batch Process

/-! ## The receipt of a batch -/

/-- What a mutation is recognised by. -/
def ReceiptRow.key (r : ReceiptRow) : String × LeadOperation × String :=
  (r.grantId, r.operation, r.idempotencyKeySha256)

/-- The receipt that a batch leaves. -/
def LeadOp.receipt : LeadOp → Option ReceiptRow
  | startRun b => some (b.envelope.receipt .startRun
      (.ok (.runStarted b.run (b.elastic.map ElasticStart.budget))))
  | registerActor b => some (b.envelope.receipt .registerActor (.ok (.actorRegistered b.actor)))
  | submitBundle b => some (b.envelope.receipt .submitBundle
      (.ok (.bundleSubmitted b.bundle.bundleId)))
  | denied b => some (b.envelope.receipt b.operation (.error b.exception.kind.failure))
  | complete b => some (b.envelope.receipt .completeWorkItem
      (.ok (.workItemCompleted b.workItemId)))
  | registerActors b => some (b.envelope.receipt .registerActorsBatch
      (.ok (.actorsRegistered b.runId b.actors)))
  | submitBundles b => some (b.envelope.receipt .submitBundlesBatch
      (.ok (.bundlesSubmitted b.runId b.bundleIds)))
  | recoverActor b => some (b.envelope.receipt .recoverActor (.ok (.actorRecovered b.recovery)))
  | submitBudgetEntry b => some (b.envelope.receipt .submitBudgetEntry
      (.ok (.budgetEntrySubmitted b.entry.entryId)))
  | _ => none

section

variable (op : LeadOp) (w : Outside) (db : LeadDb)

/-- The receipt comes last, and what comes before it leaves the others alone. -/
theorem receipt_last (r : ReceiptRow) (h : op.receipt = some r) :
    ∃ before extraFence, op.writes w = before ++ insertReceipt w.liveFence extraFence r ∧
      ∀ db, (written before db).receipts = db.receipts := by
  cases op with
  | startRun b =>
      cases h
      refine ⟨_, _, rfl, fun db => ?_⟩
      cases b.elastic <;> rfl
  | submitBundles b =>
      cases h
      refine ⟨_, _, rfl, fun db => ?_⟩
      rw [written_append, written_append]
      rcases accountEntries_frame
        (fun budget => budget.projectId = b.envelope.projectId && budget.runId = b.runId)
        b.envelope.now b.entries b.budget.accountingVersion b.budget.logicalUnitsUsed
        b.budget.costMicrounitsUsed _ with ⟨budgets, versions, budgetEntries, hframe⟩
      rw [hframe]
      rfl
  | registerActor b | submitBundle b | denied b | complete b | registerActors b | recoverActor b
  | submitBudgetEntry b =>
      cases h
      exact ⟨_, _, rfl, fun db => rfl⟩
  | _ => cases h

/-- A batch that passes leaves its receipt, of a key that had none. -/
theorem receipt_passes (r : ReceiptRow)
    (h : op.receipt = some r) (hpasses : Passes (op.writes w) db) :
    r.key ∉ db.receipts.map ReceiptRow.key ∧
      (written (op.writes w) db).receipts = db.receipts ++ [r] := by
  rcases receipt_last op w r h with ⟨before, extraFence, hwrites, hbefore⟩
  rw [hwrites, passes_append] at hpasses
  rcases hpasses.2 with ⟨-, hinsert, -⟩
  rw [Write.insertAll_single] at hinsert
  change (written before db).receipts.all _ = true at hinsert
  rw [hbefore db, List.all_eq_true] at hinsert
  refine ⟨fun hmem => ?_, ?_⟩
  · rcases List.mem_map.mp hmem with ⟨r', hr', hkey⟩
    have hother := hinsert r' hr'
    simp only [ReceiptRow.key, Prod.mk.injEq] at hkey
    simp only [hkey.1, hkey.2.1, hkey.2.2, decide_true, Bool.and_self, Bool.not_true,
      Bool.false_eq_true] at hother
  · rw [hwrites, written_append]
    change (written before db).receipts ++ [r] = _
    rw [hbefore db]

theorem receipt_none (h : op.receipt = none) :
    (written (op.writes w) db).receipts = db.receipts := by
  cases op with
  | startRun b | registerActor b | submitBundle b | denied b | complete b | registerActors b
  | submitBundles b | recoverActor b | submitBudgetEntry b => cases h
  | _ => rfl

/-- A request leaves the receipts as they are, or adds that of its batch. -/
theorem exec_receipts :
    (exec op w db).2.receipts = db.receipts ∨ ∃ r, op.receipt = some r ∧
      r.key ∉ db.receipts.map ReceiptRow.key ∧
        (exec op w db).2.receipts = db.receipts ++ [r] := by
  rcases exec_cases op w db with hsame | ⟨-, hpasses, hwritten, -⟩
  · rw [hsame]
    exact Or.inl rfl
  · rw [hwritten]
    cases hreceipt : op.receipt with
    | none => exact Or.inl (receipt_none op w db hreceipt)
    | some r => exact Or.inr ⟨r, rfl, receipt_passes op w db r hreceipt hpasses⟩

/-- Receipts are added and stay as they are. -/
abbrev ReceiptsGrow (s t : LeadDb) : Prop :=
  s.receipts <+: t.receipts

theorem receiptsGrow_trans (s t u : LeadDb) (h : ReceiptsGrow s t) (h' : ReceiptsGrow t u) :
    ReceiptsGrow s u :=
  List.IsPrefix.trans h h'

theorem exec_receipts_grow :
    ReceiptsGrow db (exec op w db).2 := by
  rcases exec_receipts op w db with hsame | ⟨r, -, -, hadded⟩
  · rw [ReceiptsGrow, hsame]
  · rw [ReceiptsGrow, hadded]
    exact List.prefix_append _ _

end

/-! ## Reading a receipt -/

/-- The receipt of a key. -/
def receiptOf (db : LeadDb) (key : String × LeadOperation × String) : Option ReceiptRow :=
  db.receipts.find? (fun r => r.grantId = key.1 && r.operation = key.2.1 &&
    r.idempotencyKeySha256 = key.2.2)

theorem receiptOf_key (db : LeadDb) (key : String × LeadOperation × String) (r : ReceiptRow)
    (h : receiptOf db key = some r) : r ∈ db.receipts ∧ r.key = key := by
  have hfound := List.find?_some h
  simp only [Bool.and_eq_true, decide_eq_true_eq] at hfound
  refine ⟨List.mem_of_find?_eq_some h, ?_⟩
  rw [ReceiptRow.key, hfound.1.1, hfound.1.2, hfound.2]

/-- The caller is authorised before the receipt is read. -/
theorem mutation_eq (e : Envelope) (operation : LeadOperation) (mutate : LeadProcess LeadResult) :
    mutation e operation mutate =
      (ask (.authorizeLead e.projectId e.grantId) >>= fun _ =>
        readReplay e operation >>= fun prior =>
          match prior with
          | some result => pure result
          | none => mutate) :=
  bind_bind _ _ _

/-- Where receipts are of different keys, the one of a key is found. -/
theorem receiptOf_mem (db : LeadDb) (hkeys : (db.receipts.map ReceiptRow.key).Nodup)
    (r : ReceiptRow) (h : r ∈ db.receipts) : receiptOf db r.key = some r := by
  have hsome : (receiptOf db r.key).isSome = true := by
    refine List.find?_isSome.mpr ⟨r, h, ?_⟩
    simp only [ReceiptRow.key, decide_true, Bool.and_self]
  rcases Option.isSome_iff_exists.mp hsome with ⟨r', hr'⟩
  rcases receiptOf_key db r.key r' hr' with ⟨hmem, hkey⟩
  rw [hr', List.inj_on_of_nodup_map hkeys hmem h hkey]

theorem replayResult_ok (e : Envelope) (read : Option ReceiptRow) (result : LeadResult)
    (h : replayResult e read = .ok (some result)) :
    ∃ r, read = some r ∧ r.requestSha256 = e.requestSha256 ∧ r.result = .ok result := by
  unfold replayResult at h
  split at h
  · cases h
  · next r =>
    split at h
    · cases h
    · next hsha =>
      split at h
      · next result' hresult =>
        cases h
        exact ⟨r, rfl, not_not.mp hsha, hresult⟩
      · cases h

/-! ## What a process signs -/

/-- A receipt of a request. -/
def ReceiptRow.OfRequest (r : ReceiptRow) (e : Envelope) (operation : LeadOperation) : Prop :=
  r.key = (e.grantId, operation, e.idempotencyKeySha256) ∧ r.requestSha256 = e.requestSha256

/-- A process that returns something has found it in a receipt, or left one of it. -/
def Stored (e : Envelope) (operation : LeadOperation) (result : Except LeadError LeadResult)
    (db : LeadDb) : Prop :=
  ∀ v, result = .ok v → ∃ r ∈ db.receipts, r.OfRequest e operation ∧ r.result = .ok v

/-- What a batch that denies a mutation is followed by. -/
def LeadOp.denial : LeadOp → Option LeadError
  | denied b => some (problem b.exception.kind.failure)
  | _ => none

abbrev Allows (e : Envelope) (operation : LeadOperation) (op : LeadOp) : Prop :=
  ∀ r, op.receipt = some r → r.OfRequest e operation

/-- A process that prepares a mutation signs what it denies, and ends there. -/
structure Signs {α : Type} (e : Envelope) (operation : LeadOperation) (p : LeadProcess α) :
    Prop where
  within : p.Within (Allows e operation) (fun _ => True)
  fails : p.Fails LeadOp.denial

/-- A process signs its batches, and returns what a receipt says. -/
structure Receipted (e : Envelope) (operation : LeadOperation) (p : LeadProcess LeadResult) :
    Prop where
  meets : ∀ s, p.Meets exec (fun _ _ _ => True) (fun _ => True)
    (fun s t => ReceiptsGrow s t) (fun op _ => Allows e operation op)
    (Stored e operation) s
  fails : p.Fails LeadOp.denial

theorem LeadOp.denial_none (op : LeadOp) (h : op.receipt = none) : op.denial = none := by
  cases op with
  | denied b => cases h
  | _ => rfl

/-- A batch whose receipt says that it went through denies nothing. -/
theorem LeadOp.denial_none_of_ok (op : LeadOp) (r : ReceiptRow) (h : op.receipt = some r)
    {result : LeadResult} (hresult : r.result = .ok result) : op.denial = none := by
  cases op with
  | denied b =>
      cases h
      cases hresult
  | _ => rfl

section

variable {e : Envelope} {operation : LeadOperation} {α β : Type}

section

variable (x : LeadError) (r : Except LeadError α) (op : LeadOp)

theorem allows_of_none (h : op.receipt = none) : Allows e operation op := by
  intro r hr
  rw [h] at hr
  cases hr

theorem ask_signs (h : op.receipt = none) : Signs e operation (ask op) :=
  ⟨within_request op (allows_of_none op h),
    fails_of_within _ (within_request op (op.denial_none h))⟩

theorem check_signs : Signs e operation (check r) :=
  ⟨within_ofExcept r, trivial⟩

theorem pure_signs (a : α) : Signs e operation (pure a) :=
  ⟨trivial, trivial⟩

theorem throw_signs : Signs e operation (throw x : LeadProcess α) :=
  ⟨trivial, trivial⟩

theorem bind_signs (f : α → LeadProcess β) (p : LeadProcess α) (hp : Signs e operation p)
    (hf : ∀ a, Signs e operation (f a)) : Signs e operation (p >>= f) :=
  ⟨within_bind hp.within (fun a _ => (hf a).within),
    fails_bind f p hp.fails (fun a => (hf a).fails)⟩

theorem ite_signs {p q : LeadProcess α} (c : Prop) [Decidable c] (hp : Signs e operation p)
    (hq : Signs e operation q) : Signs e operation (if c then p else q) := by
  by_cases hc : c
  · rw [if_pos hc]
    exact hp
  · rw [if_neg hc]
    exact hq

variable {op} in
theorem ask_bind_signs {f : op.Ret → LeadProcess β} (h : op.receipt = none)
    (hf : ∀ r, Signs e operation (f r)) : Signs e operation (ask op >>= f) :=
  bind_signs f _ (ask_signs op h) hf

theorem check_bind_signs (f : α → LeadProcess β)
    (hf : ∀ a, Signs e operation (f a)) : Signs e operation (check r >>= f) :=
  bind_signs f _ (check_signs r) hf

/-- What a mutation that is denied fails with is what its receipt says. -/
theorem deny_signs (exception : ExceptionRow) :
    Signs e operation (deny e operation exception : LeadProcess α) := by
  refine ask_bind_signs rfl (fun _ => ⟨?_, ?_⟩)
  · refine within_bind (within_request _ ?_) (fun _ _ => trivial)
    rintro r ⟨⟩
    exact ⟨rfl, rfl⟩
  · refine ⟨?_, fun r => ?_⟩
    · rintro x ⟨⟩ -
      rfl
    · cases r with
      | ok a => exact trivial
      | error x => exact trivial

theorem denyUnless_signs (c : Bool) (exception : ExceptionRow) :
    Signs e operation (denyUnless c e operation exception) :=
  ite_signs _ (pure_signs ()) (deny_signs exception)

theorem readReplay_signs : Signs e operation (readReplay e operation) :=
  ask_bind_signs rfl (fun _ => check_signs _)

theorem bind_receipted (f : α → LeadProcess LeadResult) (p : LeadProcess α)
    (hp : Signs e operation p) (hf : ∀ a, Receipted e operation (f a)) :
    Receipted e operation (p >>= f) := by
  refine ⟨fun s => ?_, fails_bind f p hp.fails (fun a => (hf a).fails)⟩
  refine meets_bind f p s (meets_of_within (fun _ => True) (fun _ _ _ _ => trivial)
    (fun _ _ _ _ _ _ _ => trivial) (fun op t _ _ hop => hop) (fun r t _ => ?_) p s trivial
    hp.within)
  cases r with
  | ok a => exact (hf a).meets t
  | error x => exact fun v hv => nomatch hv

variable {op} in
theorem ask_receipted {f : op.Ret → LeadProcess LeadResult} (h : op.receipt = none)
    (hf : ∀ r, Receipted e operation (f r)) : Receipted e operation (ask op >>= f) :=
  bind_receipted f _ (ask_signs op h) hf

theorem check_receipted {r : Except LeadError α} {f : α → LeadProcess LeadResult}
    (hf : ∀ a, Receipted e operation (f a)) : Receipted e operation (check r >>= f) :=
  bind_receipted f _ (check_signs r) hf

theorem stored_error (db : LeadDb) : Stored e operation (.error x) db := by
  intro v hv
  cases hv

theorem deny_receipted (exception : ExceptionRow) :
    Receipted e operation (deny e operation exception) := by
  refine ⟨fun s => ?_, (deny_signs exception).fails⟩
  refine meets_request _ _ s (fun t _ _ => ⟨allows_of_none _ rfl, fun w _ => ⟨fun _ _ => ?_,
    fun x _ => stored_error x _⟩⟩)
  refine meets_request _ _ _ (fun u _ _ => ⟨?_, fun w _ => ⟨fun _ _ => stored_error _ _,
    fun x _ => stored_error x _⟩⟩)
  rintro r ⟨⟩
  exact ⟨rfl, rfl⟩

/-- What was found in a receipt is returned as it is. -/
theorem replay_receipted (f : LeadProcess LeadResult) (hf : Receipted e operation f) :
    Receipted e operation (readReplay e operation >>= fun prior =>
      match prior with
      | some result => pure result
      | none => f) := by
  refine ⟨fun s => ?_, fails_bind _ _ readReplay_signs.fails (fun prior => ?_)⟩
  · refine meets_bind _ _ s (meets_request _ _ s (fun t _ _ => ⟨allows_of_none _ rfl, fun w _ =>
      ⟨fun (read : Option ReceiptRow) hread => ?_, fun x _ => stored_error x _⟩⟩))
    have hanswer := (exec_ok (.readReceipt e.grantId operation e.idempotencyKeySha256) w t read
      hread).1
    rw [exec_read (.readReceipt e.grantId operation e.idempotencyKeySha256) w t rfl]
    generalize hreplay : replayResult e read = replayed
    cases replayed with
    | error x => exact stored_error x _
    | ok prior =>
        cases prior with
        | none => exact hf.meets t
        | some result =>
            rcases replayResult_ok e read result hreplay with ⟨r, rfl, hsha, hresult⟩
            have hfound := receiptOf_key t (e.grantId, operation, e.idempotencyKeySha256) r
              (Except.ok.inj hanswer)
            rintro v ⟨⟩
            exact ⟨r, hfound.1, ⟨hfound.2, hsha⟩, hresult⟩
  · cases prior with
    | none => exact hf.fails
    | some result => exact trivial

theorem throw_receipted : Receipted e operation (throw x) :=
  ⟨fun s => stored_error x s, trivial⟩

/-- A batch that is answered has left its receipt. -/
theorem commit_receipted (result : LeadResult)
    (h : op.receipt = some (e.receipt operation (.ok result))) :
    Receipted e operation (commit op result) := by
  refine ⟨fun s => meets_request op _ s (fun t _ _ => ⟨?_, fun w _ => ⟨fun a ha => ?_,
    fun x _ => stored_error x _⟩⟩), ?_⟩
  · intro r hr
    rw [h, Option.some.injEq] at hr
    subst hr
    exact ⟨rfl, rfl⟩
  · rcases exec_ok op w t a ha with ⟨-, hpasses, hwritten⟩
    rintro v ⟨⟩
    rw [hwritten, (receipt_passes op w t _ h hpasses).2]
    exact ⟨_, List.mem_append_right _ List.mem_cons_self, ⟨rfl, rfl⟩, rfl⟩
  · exact fails_of_within _ (within_bind
      (within_request op (op.denial_none_of_ok _ h rfl)) (fun _ _ => trivial))

end

theorem settle_receipted (rethrow : LeadError → LeadError) (op : LeadOp) (result : LeadResult)
    (h : op.receipt = some (e.receipt operation (.ok result))) :
    Receipted e operation (settle e operation rethrow op result) := by
  have hcommit : Receipted e operation (commit op result) := commit_receipted op result h
  have hcaught : ∀ error, Receipted e operation (do
      match ← readReplay e operation with
      | some prior => return prior
      | none => throw (rethrow error)) :=
    fun error => replay_receipted _ (throw_receipted (rethrow error))
  refine ⟨fun s => ?_, ?_⟩
  · refine meets_tryCatch _ _ s (meets_mono (fun _ _ hop => hop) (fun r t hstored => ?_) _ s
      (hcommit.meets s))
    cases r with
    | ok v => exact hstored
    | error error => exact (hcaught error).meets t
  · exact fails_tryCatch _ _ (within_bind
      (within_request op (op.denial_none_of_ok _ h rfl)) (fun _ _ => trivial))
      (fun error => (hcaught error).fails)

theorem mutation_receipted (mutate : LeadProcess LeadResult) (h : Receipted e operation mutate) :
    Receipted e operation (mutation e operation mutate) := by
  rw [mutation_eq]
  exact ask_receipted rfl (fun _ => replay_receipted mutate h)

/-! ### Parts of functions -/

theorem reviewRequestAdmitted_signs (runId : String) (request : Option (String × String)) :
    Signs e operation (reviewRequestAdmitted e runId request) := by
  cases request with
  | none => exact pure_signs true
  | some request =>
      refine ask_bind_signs rfl (fun _ => ?_)
      exact ask_bind_signs rfl (fun _ => pure_signs _)

theorem reviewResultAdmitted_signs (runId actorId : String)
    (review : Option (String × ReviewVerdict)) :
    Signs e operation (reviewResultAdmitted e runId actorId review) := by
  cases review with
  | none => exact pure_signs true
  | some review => exact ask_bind_signs rfl (fun _ => pure_signs _)

theorem admitRunBundle_signs (run : RunRow) (bundle : EventBundle) (exceptionId : String) :
    Signs e .submitBundle (admitRunBundle e run bundle exceptionId) := by
  refine ask_bind_signs rfl (fun _ => check_bind_signs _ _ (fun actor => ?_))
  refine check_bind_signs _ _ (fun _ => bind_signs _ _ (denyUnless_signs _ _) (fun _ => ?_))
  refine bind_signs _ _ (reviewRequestAdmitted_signs _ _) (fun _ => ?_)
  refine bind_signs _ _ (denyUnless_signs _ _) (fun _ => ?_)
  refine bind_signs _ _ (reviewResultAdmitted_signs _ _ _) (fun _ => ?_)
  refine bind_signs _ _ (denyUnless_signs _ _) (fun _ => ?_)
  exact ask_bind_signs rfl (fun _ => check_signs _)

theorem admitRunBundles_signs (run : RunRow) (bundles : List EventBundle) (exceptionId : String) :
    Signs e .submitBundlesBatch (admitRunBundles e run bundles exceptionId) := by
  refine ask_bind_signs rfl (fun actors => check_bind_signs _ _ (fun _ => ?_))
  refine ask_bind_signs rfl (fun prior => ?_)
  dsimp only
  split
  · exact deny_signs _
  · exact ask_bind_signs rfl (fun _ => check_signs _)

theorem readExistingClaims_signs (runId : String) (claims : List RunClaimRow) :
    Signs e operation (readExistingClaims runId claims) := by
  exact ite_signs _ (pure_signs []) (ask_signs (.readClaims runId _) rfl)

theorem reconcileExpiredElasticActors_signs (projectId runId : String) (now : Nat) :
    Signs e operation (reconcileExpiredElasticActors projectId runId now) := by
  refine ask_bind_signs rfl (fun ids => ?_)
  exact ite_signs _ (pure_signs ()) (ask_signs (.reconcile _) rfl)

theorem replacementSlot_signs (runId : String) (slot : Option Nat) :
    Signs e operation (replacementSlot runId slot) := by
  cases slot with
  | some k => exact pure_signs k
  | none =>
      refine ask_bind_signs rfl (fun occupied => check_bind_signs _ _ (fun available => ?_))
      cases available with
      | nil => exact throw_signs _
      | cons slot slots => exact pure_signs slot

theorem reportingActor_signs (runId : String) (actorId : Option String) :
    Signs e operation (reportingActor e runId actorId) := by
  cases actorId with
  | none => exact pure_signs ()
  | some actorId => exact ask_bind_signs rfl (fun _ => check_signs _)

end

/-! ### Functions -/

/-- The request of a call: what it is recognised by, and what it asks for. -/
def LeadCall.request : LeadCall → Option (Envelope × LeadOperation)
  | startLeadRun input => some (input.envelope, .startRun)
  | registerRunActor input => some (input.envelope, .registerActor)
  | submitRunBundle input => some (input.envelope, .submitBundle)
  | completeLeadWorkItem input => some (input.envelope, .completeWorkItem)
  | registerRunActorsBatch input => some (input.envelope, .registerActorsBatch)
  | submitRunBundlesBatch input => some (input.envelope, .submitBundlesBatch)
  | recoverRunActor input => some (input.envelope, .recoverActor)
  | submitRunBudgetEntry input => some (input.envelope, .submitBudgetEntry)
  | _ => none

section

variable (format : LeadFormat)

/-- What is checked of a request before anything is read. -/
def LeadCall.valid : LeadCall → Bool
  | registerRunActor input => input.actor.valid
  | submitRunBundle input => input.valid format
  | registerRunActorsBatch input => input.valid
  | submitRunBundlesBatch input => input.valid format
  | recoverRunActor input => input.valid
  | submitRunBudgetEntry input =>
      input.entry.valid && input.entry.projectId = input.envelope.projectId
  | _ => true

/-- A function that makes a mutation checks its request first, and then begins the
    mutation. -/
structure Begins (call : LeadCall) (e : Envelope) (operation : LeadOperation)
    (mutate : LeadProcess LeadResult) : Prop where
  process : call.process format = (check (require (call.valid format) .submissionInvalid) >>=
    fun _ => mutation e operation mutate)
  receipted : Receipted e operation mutate

theorem startLeadRun_begins (input : StartRunInput) :
    ∃ mutate, Begins format (.startLeadRun input) input.envelope .startRun mutate := by
  refine ⟨_, rfl, ask_receipted rfl (fun item => ?_)⟩
  refine check_receipted (fun _ => check_receipted (fun workPacketId => ?_))
  refine check_receipted (fun policyId => ask_receipted rfl (fun _ => ?_))
  exact settle_receipted _ _ _ rfl

theorem registerRunActor_begins (input : RegisterActorInput) :
    ∃ mutate, Begins format (.registerRunActor input) input.envelope .registerActor mutate := by
  refine ⟨_, rfl, ask_receipted rfl (fun read => check_receipted (fun run => ?_))⟩
  refine ask_receipted rfl (fun plane => check_receipted (fun _ => ?_))
  split
  · exact deny_receipted _
  · refine ask_receipted rfl (fun taken => check_receipted (fun _ => ?_))
    refine ask_receipted rfl (fun lease => check_receipted (fun _ => ?_))
    exact ask_receipted rfl (fun _ => commit_receipted _ _ rfl)

theorem submitRunBundle_begins (input : SubmitBundleInput) :
    ∃ mutate, Begins format (.submitRunBundle input) input.envelope .submitBundle mutate := by
  refine ⟨_, rfl, ask_receipted rfl (fun read => check_receipted (fun run => ?_))⟩
  refine ask_receipted rfl (fun plane => check_receipted (fun _ => ?_))
  refine bind_receipted _ _ (admitRunBundle_signs _ _ _) (fun _ => ?_)
  refine ask_receipted rfl (fun _ => bind_receipted _ _ (denyUnless_signs _ _) (fun _ => ?_))
  refine bind_receipted _ _ (readExistingClaims_signs _ _) (fun existing => ?_)
  exact ask_receipted rfl (fun _ => commit_receipted _ _ rfl)

theorem completeLeadWorkItem_begins (input : CompleteInput) :
    ∃ mutate, Begins format (.completeLeadWorkItem input) input.envelope .completeWorkItem
      mutate := by
  refine ⟨_, rfl, ask_receipted rfl (fun read => check_receipted (fun run => ?_))⟩
  refine check_receipted (fun _ => ask_receipted rfl (fun blocked => ?_))
  refine check_receipted (fun _ => ask_receipted rfl (fun reviewed => ?_))
  refine check_receipted (fun _ => ask_receipted rfl (fun covered => ?_))
  refine check_receipted (fun _ => ask_receipted rfl (fun accepted => ?_))
  exact check_receipted (fun _ => commit_receipted _ _ rfl)

theorem registerRunActorsBatch_begins (input : RegisterActorsInput) :
    ∃ mutate, Begins format (.registerRunActorsBatch input) input.envelope .registerActorsBatch
      mutate := by
  refine ⟨_, rfl, ask_receipted rfl (fun read => check_receipted (fun run => ?_))⟩
  refine bind_receipted _ _ (reconcileExpiredElasticActors_signs _ _ _) (fun _ => ?_)
  refine ask_receipted rfl (fun plane? => check_receipted (fun plane => ?_))
  refine check_receipted (fun _ => ask_receipted rfl (fun taken => ?_))
  refine check_receipted (fun _ => ask_receipted rfl (fun lease? => ?_))
  refine check_receipted (fun lease => ask_receipted rfl (fun occupied => ?_))
  refine check_receipted (fun slots => ask_receipted rfl (fun _ => ?_))
  exact ask_receipted rfl (fun deltas => settle_receipted _ _ _ rfl)

theorem submitRunBundlesBatch_begins (input : SubmitBundlesInput) :
    ∃ mutate, Begins format (.submitRunBundlesBatch input) input.envelope .submitBundlesBatch
      mutate := by
  refine ⟨_, rfl, ask_receipted rfl (fun read => check_receipted (fun run => ?_))⟩
  refine ask_receipted rfl (fun plane => check_receipted (fun _ => ?_))
  refine bind_receipted _ _ (admitRunBundles_signs _ _ _) (fun _ => ?_)
  refine ask_receipted rfl (fun _ => check_receipted (fun _ => ?_))
  refine ask_receipted rfl (fun budget? => check_receipted (fun budget => ?_))
  refine bind_receipted _ _ (denyUnless_signs _ _) (fun _ => ask_receipted rfl (fun _ => ?_))
  refine bind_receipted _ _ (readExistingClaims_signs _ _) (fun existing => ?_)
  refine ask_receipted rfl (fun _ => ask_receipted rfl (fun deltas => ?_))
  refine settle_receipted _ _ _ ?_
  have hids : (input.measured format).map (fun bundle => bundle.1.bundleId) =
      input.bundles.map EventBundle.bundleId := by
    rw [SubmitBundlesInput.measured, List.map_map]
    rfl
  simp only [LeadOp.receipt, SubmitBundlesBatch.bundleIds, hids]

theorem recoverRunActor_begins (input : RecoverActorInput) :
    ∃ mutate, Begins format (.recoverRunActor input) input.envelope .recoverActor mutate := by
  refine ⟨_, rfl, ask_receipted rfl (fun read => ?_)⟩
  refine bind_receipted _ _ (reconcileExpiredElasticActors_signs _ _ _) (fun _ => ?_)
  refine ask_receipted rfl (fun plane? => check_receipted (fun plane => ?_))
  refine check_receipted (fun run => ask_receipted rfl (fun actor? => ?_))
  refine check_receipted (fun abandoned => ask_receipted rfl (fun recovered => ?_))
  refine check_receipted (fun _ => ask_receipted rfl (fun taken => ?_))
  refine check_receipted (fun _ => ask_receipted rfl (fun slot? => ?_))
  refine check_receipted (fun slot => check_receipted (fun _ => ?_))
  refine check_receipted (fun _ => ask_receipted rfl (fun lease? => ?_))
  refine check_receipted (fun lease => ?_)
  refine bind_receipted _ _ (replacementSlot_signs _ _) (fun activeSlot => ?_)
  refine check_receipted (fun _ => ask_receipted rfl (fun _ => ?_))
  exact ask_receipted rfl (fun deltas => settle_receipted _ _ _ rfl)

theorem submitRunBudgetEntry_begins (input : SubmitBudgetEntryInput) :
    ∃ mutate, Begins format (.submitRunBudgetEntry input) input.envelope .submitBudgetEntry
      mutate := by
  refine ⟨_, rfl, ask_receipted rfl (fun read => check_receipted (fun run => ?_))⟩
  refine ask_receipted rfl (fun plane => check_receipted (fun _ => ?_))
  refine ask_receipted rfl (fun budget? => check_receipted (fun budget => ?_))
  refine bind_receipted _ _ (denyUnless_signs _ _) (fun _ => ?_)
  refine bind_receipted _ _ (reportingActor_signs _ _) (fun _ => ?_)
  refine ask_receipted rfl (fun plane => check_receipted (fun _ => ?_))
  refine ask_receipted rfl (fun taken => check_receipted (fun _ => ?_))
  refine ask_receipted rfl (fun _ => ask_receipted rfl (fun deltas => ?_))
  exact settle_receipted _ _ _ rfl

/-- Every function that makes a mutation begins in the same way. -/
theorem process_begins (call : LeadCall) (e : Envelope) (operation : LeadOperation)
    (h : call.request = some (e, operation)) : ∃ mutate, Begins format call e operation mutate := by
  cases call with
  | startLeadRun input =>
      cases h
      exact startLeadRun_begins format input
  | registerRunActor input =>
      cases h
      exact registerRunActor_begins format input
  | submitRunBundle input =>
      cases h
      exact submitRunBundle_begins format input
  | completeLeadWorkItem input =>
      cases h
      exact completeLeadWorkItem_begins format input
  | registerRunActorsBatch input =>
      cases h
      exact registerRunActorsBatch_begins format input
  | submitRunBundlesBatch input =>
      cases h
      exact submitRunBundlesBatch_begins format input
  | recoverRunActor input =>
      cases h
      exact recoverRunActor_begins format input
  | submitRunBudgetEntry input =>
      cases h
      exact submitRunBudgetEntry_begins format input
  | createWorkItem item | acknowledgeCheckpoint point
  | resolveProjectException projectId exceptionId now => cases h

/-- A receipt is one that a call may leave: it is of the request of the call, which has
    passed its checks. -/
structure LeadCall.Leaves (call : LeadCall) (r : ReceiptRow) : Prop where
  valid : call.valid format = true
  request : ∃ e operation, call.request = some (e, operation) ∧ r.OfRequest e operation

theorem process_meets (call : LeadCall) (s : LeadDb) :
    (call.process format).Meets exec (fun _ _ _ => True) (fun _ => True)
      (fun s t => ReceiptsGrow s t)
      (fun op _ => ∀ r, op.receipt = some r → call.Leaves format r)
      (fun result db => ∀ e operation, call.request = some (e, operation) →
        Stored e operation result db) s := by
  cases hrequest : call.request with
  | none =>
      have hreads : (call.process format).Within (fun op => op.receipt = none)
          (fun _ => True) := by
        cases call with
        | createWorkItem item | acknowledgeCheckpoint point
        | resolveProjectException projectId exceptionId now =>
            exact within_bind (within_request _ rfl) (fun _ _ => trivial)
        | _ => cases hrequest
      refine meets_of_within (fun _ => True) (fun _ _ _ _ => trivial) (fun _ _ _ _ _ _ _ => trivial)
        (fun op t _ _ hop r hr => ?_) (fun r t _ e operation h => nomatch h) _ s trivial hreads
      rw [hop] at hr
      cases hr
  | some request =>
      rcases request with ⟨e, operation⟩
      rcases process_begins format call e operation hrequest with ⟨mutate, hprocess, hreceipted⟩
      rw [hprocess]
      refine meets_ofExcept _ _ s (fun u hu => ?_) (fun x _ e' operation' _ => stored_error x s)
      have hvalid := require_ok _ _ u hu
      refine meets_mono (fun op t hop r hr => ⟨hvalid, e, operation, hrequest, hop r hr⟩)
        (fun result t hstored e' operation' hrequest' => ?_) _ s
        ((mutation_receipted mutate hreceipted).meets s)
      cases hrequest'
      exact hstored

theorem process_fails (call : LeadCall) : (call.process format).Fails LeadOp.denial := by
  cases hrequest : call.request with
  | none =>
      cases call with
      | createWorkItem item | acknowledgeCheckpoint point
      | resolveProjectException projectId exceptionId now =>
          exact fails_of_within _ (within_bind (within_request _ rfl) (fun _ _ => trivial))
      | _ => cases hrequest
  | some request =>
      rcases process_begins format call request.1 request.2 hrequest with
        ⟨mutate, hprocess, hreceipted⟩
      rw [hprocess]
      exact fails_bind _ _ trivial (fun _ => (mutation_receipted mutate hreceipted).fails)

/-! ## Runs -/

section

variable {ι : Type} [DecidableEq ι] (calls : ι → LeadCall)

/-- The receipts are of different keys, and each is one that some call may leave. -/
structure ReceiptsOwn (db : LeadDb) : Prop where
  keys : (db.receipts.map ReceiptRow.key).Nodup
  origin : ∀ r ∈ db.receipts, ∃ i, (calls i).Leaves format r

/-- Where calls have got to. -/
abbrev poolAfter (es : List (ι × Outside)) : LeadPool ι :=
  Pool.run exec (startPool format calls emptyDb) es

theorem poolAfter_append (es fs : List (ι × Outside)) :
    poolAfter format calls (es ++ fs) = Pool.run exec (poolAfter format calls es) fs :=
  Run.runFrom_append _ _ es fs

abbrev Signing (c : LeadPool ι) : Prop :=
  Pool.Sound exec (fun _ _ _ => True) (fun _ => True) (fun _ s t => ReceiptsGrow s t)
    (fun i op _ => ∀ r, op.receipt = some r → (calls i).Leaves format r)
    (fun i result db => ∀ e operation, (calls i).request = some (e, operation) →
      Stored e operation result db) c

theorem exec_keys (op : LeadOp) (w : Outside) (db : LeadDb)
    (h : (db.receipts.map ReceiptRow.key).Nodup) :
    ((exec op w db).2.receipts.map ReceiptRow.key).Nodup := by
  rcases exec_receipts op w db with hsame | ⟨r, -, hfresh, hadded⟩
  · rw [hsame]
    exact h
  · rw [hadded, List.map_append]
    refine List.nodup_append'.mpr ⟨h, List.nodup_singleton _, ?_⟩
    exact List.disjoint_singleton.mpr hfresh

theorem step_signing (c : LeadPool ι) (e : ι × Outside)
    (hc : Signing format calls c ∧ ReceiptsOwn format calls c.shared) :
    Signing format calls (Pool.step exec c e) ∧
      ReceiptsOwn format calls (Pool.step exec c e).shared := by
  refine ⟨Pool.step_sound (R := fun _ s t => ReceiptsGrow s t)
    (fun _ s _ => List.prefix_refl s.receipts) (fun _ => receiptsGrow_trans)
    (fun _ op w s _ _ _ => ⟨trivial, fun _ _ => exec_receipts_grow op w s⟩) c e hc.1
    (fun _ _ => trivial), ?_⟩
  rcases Pool.step_shared exec c e with ⟨-, hsame⟩ | ⟨op, hnext, hstep⟩
  · rw [hsame]
    exact hc.2
  · rw [hstep]
    refine ⟨exec_keys op e.2 c.shared hc.2.keys, ?_⟩
    rcases exec_receipts op e.2 c.shared with hsame | ⟨r, hreceipt, -, hadded⟩
    · rw [hsame]
      exact hc.2.origin
    · rw [hadded]
      intro r' hr'
      rcases List.mem_append.mp hr' with hold | hnew
      · exact hc.2.origin r' hold
      · rw [List.mem_singleton.mp hnew]
        exact ⟨e.1, Pool.takes_allowed c e.1 op hc.1 hnext r hreceipt⟩

theorem run_signing (es : List (ι × Outside)) :
    Signing format calls (poolAfter format calls es) ∧
      ReceiptsOwn format calls (poolAfter format calls es).shared := by
  refine Run.runFrom_keeps (Pool.step exec)
    (fun c => Signing format calls c ∧ ReceiptsOwn format calls c.shared)
    (fun c e hc => step_signing format calls c e hc) _ es ⟨⟨trivial, fun i => ?_⟩, ?_⟩
  · exact ⟨emptyDb, List.prefix_refl _, process_meets format (calls i) emptyDb⟩
  · exact ⟨List.nodup_nil, fun r hr => absurd hr List.not_mem_nil⟩

/-! ### At most one effect -/

/-- The batch of a key changes the tables in a step. -/
def TakesEffect (key : String × LeadOperation × String) (c : LeadPool ι)
    (e : ι × Outside) : Prop :=
  ∃ op r, c.next e.1 = some op ∧ op.receipt = some r ∧ r.key = key ∧
    (Pool.step exec c e).shared ≠ c.shared

theorem takesEffect_fresh (key : String × LeadOperation × String) (c : LeadPool ι)
    (e : ι × Outside) (h : TakesEffect key c e) :
    key ∉ c.shared.receipts.map ReceiptRow.key ∧
      key ∈ (Pool.step exec c e).shared.receipts.map ReceiptRow.key := by
  rcases h with ⟨op, r, hnext, hreceipt, hkey, hchanged⟩
  rcases Pool.step_shared exec c e with ⟨hnone, -⟩ | ⟨op', hnext', hstep⟩
  · rw [hnone] at hnext
    cases hnext
  · rw [hnext, Option.some.injEq] at hnext'
    subst hnext'
    rw [hstep] at hchanged ⊢
    rcases exec_cases op e.2 c.shared with hsame | ⟨-, hpasses, hwritten, -⟩
    · exact absurd hsame hchanged
    · rcases receipt_passes op e.2 c.shared r hreceipt hpasses with ⟨hfresh, hadded⟩
      rw [hwritten, hadded, List.map_append, ← hkey]
      exact ⟨hfresh, List.mem_append_right _ List.mem_cons_self⟩

theorem run_receipts_grow (c : LeadPool ι) (es : List (ι × Outside)) :
    ReceiptsGrow c.shared (Pool.run exec c es).shared := by
  refine Run.runFrom_related (Pool.step exec)
    (fun c d : LeadPool ι => ReceiptsGrow c.shared d.shared) (fun _ => List.prefix_refl _)
    (fun _ _ _ => receiptsGrow_trans _ _ _) (fun c e => ?_) c es
  rcases Pool.step_shared exec c e with ⟨-, hsame⟩ | ⟨op, -, hstep⟩
  · rw [hsame]
  · rw [hstep]
    exact exec_receipts_grow op e.2 c.shared

/-- After the batch of a key has taken effect, no other does. -/
theorem takesEffect_once (key : String × LeadOperation × String) (c : LeadPool ι)
    (e : ι × Outside) (mid : List (ι × Outside)) (e' : ι × Outside) (h : TakesEffect key c e) :
    ¬ TakesEffect key (Pool.run exec c (e :: mid)) e' := by
  intro h'
  have hleft := (takesEffect_fresh key c e h).2
  have hgrow := run_receipts_grow (Pool.step exec c e) mid
  exact (takesEffect_fresh key _ e' h').1 ((hgrow.map ReceiptRow.key).subset hleft)

/-! ### Retries -/

/-- What a call comes to by a receipt of its key. -/
def LeadCall.replay (call : LeadCall) (e : Envelope) (r : ReceiptRow) :
    Except LeadError LeadResult :=
  if !call.valid format then .error (problem .submissionInvalid)
  else if r.requestSha256 ≠ e.requestSha256 then .error (problem .idempotencyConflict)
  else r.result.mapError problem

/-- A request that is answered, to a caller who may lead the project. -/
def Outside.serves (w : Outside) : Prop :=
  w.outcome = .answered ∧ w.problem = none

/-- How far a call has come that begins when there is a receipt of its key. After two
    requests nothing is left of it, and it has ended as the receipt says if both were
    served. -/
inductive Retrying (call : LeadCall) (e : Envelope) (operation : LeadOperation)
    (mutate : LeadProcess LeadResult) (r : ReceiptRow) (served : Prop) :
    ℕ → LeadProcess LeadResult → Prop
  | begun (h : call.valid format = true) :
      Retrying call e operation mutate r served 0 (mutation e operation mutate)
  | authorised (h : call.valid format = true) :
      Retrying call e operation mutate r served 1 (readReplay e operation >>= fun prior =>
        match prior with
        | some result => pure result
        | none => mutate)
  | ended (n : ℕ) (result : Except LeadError LeadResult)
      (h : served → result = call.replay format e r) :
      Retrying call e operation mutate r served n (.done result)

/-- A read that is answered answers with what is there. -/
theorem exec_answered (op : LeadOp) (w : Outside) (db : LeadDb) (hw : w.outcome = .answered)
    (h : op.writes w = []) : exec op w db = (op.answer w db, db) := by
  have heffect : effect op w db = (op.answer w db).map (fun r => (r, db)) := by
    unfold effect
    rw [h]
    cases op.answer w db <;> rfl
  unfold exec
  rw [hw]
  cases hanswer : op.answer w db with
  | error x => simp only [send, heffect, hanswer, Except.map]
  | ok a => simp only [send, heffect, hanswer, Except.map]

variable {calls} {format} {call : LeadCall} {e : Envelope} {operation : LeadOperation}
  {mutate : LeadProcess LeadResult} {r : ReceiptRow} {served : Prop}

section

variable (n : ℕ) (p : LeadProcess LeadResult)

/-- A call that begins in this way asks for nothing but what it reads. -/
theorem retrying_reads (op : LeadOp)
    (next : Except LeadError op.Ret → LeadProcess LeadResult) (hp : p = .call op next)
    (h : Retrying format call e operation mutate r served n p) (w : Outside) :
    op.writes w = [] := by
  cases h with
  | begun hvalid =>
      rw [mutation_eq] at hp
      cases hp
      rfl
  | authorised hvalid =>
      cases hp
      rfl
  | ended n result h => cases hp

/-- The receipt that was read is all that counts. -/
theorem replay_retrying (hvalid : call.valid format = true) :
    Retrying format call e operation mutate r served n
      (check (replayResult e (some r)) >>= fun prior =>
        match prior with
        | some result => pure result
        | none => mutate) := by
  have hreplay : replayResult e (some r) =
      if r.requestSha256 ≠ e.requestSha256 then .error (problem .idempotencyConflict)
      else (r.result.mapError problem).map some := by
    unfold replayResult
    cases hresult : r.result with
    | ok result => simp only [hresult, Except.mapError, Except.map]
    | error code => simp only [hresult, Except.mapError, Except.map]
  have hends : call.replay format e r =
      if r.requestSha256 ≠ e.requestSha256 then .error (problem .idempotencyConflict)
      else r.result.mapError problem := by
    rw [LeadCall.replay, hvalid, Bool.not_true, if_neg Bool.false_ne_true]
  rw [hreplay]
  by_cases hsha : r.requestSha256 ≠ e.requestSha256
  · rw [if_pos hsha] at hends ⊢
    exact .ended n _ (fun _ => hends.symm)
  · rw [if_neg hsha] at hends ⊢
    cases hresult : r.result with
    | ok result =>
        rw [hresult] at hends
        exact .ended n _ (fun _ => hends.symm)
    | error code =>
        rw [hresult] at hends
        exact .ended n _ (fun _ => hends.symm)

/-- Once it has ended it stays so. -/
theorem retrying_done (n m : ℕ) (p : LeadProcess LeadResult) (result : Except LeadError LeadResult)
    (hp : p = .done result) (h : Retrying format call e operation mutate r served n p) :
    Retrying format call e operation mutate r served m p := by
  cases h with
  | begun hvalid =>
      rw [mutation_eq] at hp
      cases hp
  | authorised hvalid => cases hp
  | ended n result h => exact .ended m result h

/-- Each request brings it on. -/
theorem retrying_next (op : LeadOp)
    (next : Except LeadError op.Ret → LeadProcess LeadResult) (hp : p = .call op next)
    (h : Retrying format call e operation mutate r served n p) (w : Outside) (db : LeadDb)
    (hfound : receiptOf db (e.grantId, operation, e.idempotencyKeySha256) = some r)
    (hserved : served → w.serves) :
    Retrying format call e operation mutate r served (n + 1) (next (exec op w db).1) := by
  cases h with
  | begun hvalid =>
      rw [mutation_eq] at hp
      cases hp
      cases hr : (exec (.authorizeLead e.projectId e.grantId) w db).1 with
      | ok a => exact .authorised hvalid
      | error x =>
          refine .ended _ _ (fun h => ?_)
          rw [exec_answered _ w db (hserved h).1 rfl] at hr
          simp only [LeadOp.answer, (hserved h).2, reduceCtorEq] at hr
  | authorised hvalid =>
      cases hp
      cases hr : (exec (.readReceipt e.grantId operation e.idempotencyKeySha256) w db).1 with
      | error x =>
          refine .ended _ _ (fun h => ?_)
          rw [exec_answered _ w db (hserved h).1 rfl] at hr
          cases hr
      | ok read =>
          have hread := (exec_ok _ w db read hr).1
          have heq : read = some r := (Except.ok.inj hread).symm.trans hfound
          subst heq
          exact replay_retrying 2 hvalid
  | ended n result h => cases hp

/-- So does each of its requests among those of others. -/
theorem retrying_run (c : LeadPool ι) (es : List (ι × Outside)) (i : ι) (n : ℕ)
    (hc : (c.shared.receipts.map ReceiptRow.key).Nodup) (hr : r ∈ c.shared.receipts)
    (hkey : r.key = (e.grantId, operation, e.idempotencyKeySha256))
    (h : Retrying format call e operation mutate r served n (c.calls i))
    (hserved : served → ∀ w, (i, w) ∈ es → w.serves) :
    ∃ m, n + es.countP (fun e => e.1 = i) ≤ m ∧
      Retrying format call e operation mutate r served m ((Pool.run exec c es).calls i) := by
  induction es generalizing c n with
  | nil => exact ⟨n, Nat.le_refl n, h⟩
  | cons e' es ih =>
      have hserved' : served → ∀ w, (i, w) ∈ es → w.serves :=
        fun hs w hw => hserved hs w (List.mem_cons_of_mem _ hw)
      have hgrow := run_receipts_grow c [e']
      have hkeys : ((Pool.step exec c e').shared.receipts.map ReceiptRow.key).Nodup := by
        rcases Pool.step_shared exec c e' with ⟨-, hsame⟩ | ⟨op, -, hstep⟩
        · rw [hsame]
          exact hc
        · rw [hstep]
          exact exec_keys op e'.2 c.shared hc
      have hnext : Retrying format call e operation mutate r served
          (n + [e'].countP (fun e => e.1 = i)) ((Pool.step exec c e').calls i) := by
        rw [List.countP_singleton]
        by_cases hi : e'.1 = i
        · rw [if_pos (decide_eq_true hi)]
          subst hi
          cases hcall : c.calls e'.1 with
          | done result =>
              rw [Pool.step_done c e' result hcall]
              exact retrying_done n (n + 1) _ result hcall h
          | call op next =>
              rw [Pool.step_call _ c e' op next hcall]
              simp only [Function.update_self]
              refine retrying_next n _ op next hcall h e'.2 c.shared ?_
                (fun hs => hserved hs e'.2 List.mem_cons_self)
              rw [← hkey]
              exact receiptOf_mem c.shared hc r hr
        · rw [if_neg (fun htrue => hi (of_decide_eq_true htrue))]
          rcases Pool.step_calls exec c e' i with hsame | ⟨_, _, heq, _⟩
          · rw [hsame]
            exact h
          · exact absurd heq.symm hi
      rcases ih (Pool.step exec c e') _ hkeys (hgrow.subset hr) hnext hserved' with ⟨m, hle, hm⟩
      refine ⟨m, ?_, hm⟩
      rw [List.countP_cons]
      rw [List.countP_singleton] at hle
      omega

/-- A call that has made two requests has ended. -/
theorem retrying_ended (hn : 2 ≤ n)
    (h : Retrying format call e operation mutate r served n p) (hserved : served) :
    p = .done (call.replay format e r) := by
  cases h with
  | begun hvalid => omega
  | authorised hvalid => omega
  | ended n result h => rw [h hserved]

end

/-- A call that has not begun is one of these. -/
theorem begins_retrying (hbegins : Begins format call e operation mutate) :
    Retrying format call e operation mutate r served 0 (call.process format) := by
  rw [hbegins.process]
  cases hvalid : call.valid format with
  | true => exact .begun hvalid
  | false =>
      refine .ended 0 _ (fun _ => ?_)
      rw [LeadCall.replay, hvalid]
      rfl

/-- A call begins when there is a receipt of its key. -/
structure Retries (calls : ι → LeadCall) (c : LeadPool ι) (i : ι) (e : Envelope)
    (operation : LeadOperation) (r : ReceiptRow) : Prop where
  request : (calls i).request = some (e, operation)
  receipt : r ∈ c.shared.receipts
  key : r.key = (e.grantId, operation, e.idempotencyKeySha256)

end

section

variable {ι : Type} [DecidableEq ι] (calls : ι → LeadCall)

/-- A call that begins when there is a receipt of its key changes nothing. -/
theorem retry_unchanged (pre mid : List (ι × Outside)) (i : ι) (e : Envelope)
    (operation : LeadOperation) (r : ReceiptRow) (w : Outside)
    (hbegins : (poolAfter format calls pre).calls i = (calls i).process format)
    (hretries : Retries calls (poolAfter format calls pre) i e operation r) :
    (poolAfter format calls (pre ++ mid ++ [(i, w)])).shared =
      (poolAfter format calls (pre ++ mid)).shared := by
  rcases process_begins format (calls i) e operation hretries.request with ⟨mutate, hmutate⟩
  have hstart : Retrying format (calls i) e operation mutate r False 0
      ((poolAfter format calls pre).calls i) := by
    rw [hbegins]
    exact begins_retrying hmutate
  rcases retrying_run _ mid i 0 (run_signing format calls pre).2.keys hretries.receipt
    hretries.key hstart False.elim with ⟨m, -, hm⟩
  rw [← poolAfter_append] at hm
  rw [poolAfter_append format calls (pre ++ mid)]
  change (Pool.step exec _ (i, w)).shared = _
  cases hcall : (poolAfter format calls (pre ++ mid)).calls i with
  | done result => rw [Pool.step_done _ (i, w) result hcall]
  | call op next =>
      rw [Pool.step_call _ _ (i, w) op next hcall]
      exact exec_read op w _ (retrying_reads m _ op next hcall hm w)

/-- It ends as the receipt says, where its requests are served. -/
theorem retry_replays (pre mid : List (ι × Outside)) (i : ι) (e : Envelope)
    (operation : LeadOperation) (r : ReceiptRow)
    (hbegins : (poolAfter format calls pre).calls i = (calls i).process format)
    (hretries : Retries calls (poolAfter format calls pre) i e operation r)
    (hserved : ∀ w, (i, w) ∈ mid → w.serves) (htwo : 2 ≤ mid.countP (fun e => e.1 = i)) :
    (poolAfter format calls (pre ++ mid)).result i = some ((calls i).replay format e r) := by
  rcases process_begins format (calls i) e operation hretries.request with ⟨mutate, hmutate⟩
  have hstart : Retrying format (calls i) e operation mutate r True 0
      ((poolAfter format calls pre).calls i) := by
    rw [hbegins]
    exact begins_retrying hmutate
  rcases retrying_run _ mid i 0 (run_signing format calls pre).2.keys hretries.receipt
    hretries.key hstart (fun _ => hserved) with ⟨m, hle, hm⟩
  rw [← poolAfter_append] at hm
  have hended := retrying_ended m _ (by omega) hm trivial
  rw [Pool.result, hended]

/-- Whatever a call returns is in a receipt of its request. -/
theorem call_returned (es : List (ι × Outside)) (i : ι) (e : Envelope) (operation : LeadOperation)
    (v : LeadResult) (hrequest : (calls i).request = some (e, operation))
    (hresult : (poolAfter format calls es).result i = some (.ok v)) :
    ∃ r ∈ (poolAfter format calls es).shared.receipts, r.OfRequest e operation ∧
      r.result = .ok v := by
  have hstored := Pool.result_of_sound _ i (.ok v) (fun s t hst hs e operation he v hv => ?_)
    (run_signing format calls es).1 (Pool.calls_of_result _ i _ hresult)
  · exact hstored e operation hrequest v rfl
  · rcases hs e operation he v hv with ⟨r, hr, hfound⟩
    exact ⟨r, List.IsPrefix.subset hst hr, hfound⟩

/-- A call whose own batch is answered ends as its receipt says. -/
theorem batch_told (es : List (ι × Outside)) (i : ι) (w : Outside) (op : LeadOp) (r : ReceiptRow)
    (a : op.Ret) (hnext : (poolAfter format calls es).next i = some op)
    (hreceipt : op.receipt = some r)
    (hok : (exec op w (poolAfter format calls es).shared).1 = .ok a) :
    (poolAfter format calls (es ++ [(i, w)])).result i = some (r.result.mapError problem) := by
  have hstep : poolAfter format calls (es ++ [(i, w)]) =
      Pool.step exec (poolAfter format calls es) (i, w) := poolAfter_append format calls es [(i, w)]
  by_cases hdenial : op.denial = none
  · -- The call returns something, and has left the only receipt of its key.
    have hoperation : op.operation ≠ none := by
      cases op with
      | startRun b | registerActor b | submitBundle b | complete b | registerActors b
      | submitBundles b | recoverActor b | submitBudgetEntry b => exact Option.some_ne_none _
      | denied b => cases hdenial
      | _ => cases hreceipt
    rcases Pool.step_settled _ (i, w) op a (run_settles format calls emptyDb es i) hnext hoperation
      hok with ⟨v, hv⟩
    rw [← hstep] at hv
    have hleaves := Pool.takes_allowed _ i op (run_signing format calls es).1 hnext r hreceipt
    rcases hleaves.request with ⟨e, operation, hrequest, hof⟩
    rcases call_returned format calls _ i e operation v hrequest hv with ⟨r', hr', hof', hresult⟩
    have hmem : r ∈ (poolAfter format calls (es ++ [(i, w)])).shared.receipts := by
      rcases exec_ok op w _ a hok with ⟨-, hpasses, hwritten⟩
      rcases Pool.step_shared exec (poolAfter format calls es) (i, w) with
        ⟨hnone, -⟩ | ⟨op', hnext', hshared⟩
      · rw [hnone] at hnext
        cases hnext
      · rw [hnext, Option.some.injEq] at hnext'
        subst hnext'
        rw [hstep, hshared, hwritten, (receipt_passes op w _ r hreceipt hpasses).2]
        exact List.mem_append_right _ List.mem_cons_self
    have heq : r' = r := List.inj_on_of_nodup_map (run_signing format calls _).2.keys hr' hmem
      (hof'.1.trans hof.1.symm)
    rw [hv, ← heq, hresult]
    rfl
  · rcases Option.ne_none_iff_exists'.mp hdenial with ⟨x, hx⟩
    have hfails := Run.runFrom_keeps (Pool.step exec)
      (fun c : LeadPool ι => (c.calls i).Fails LeadOp.denial) (fun c e h => Pool.step_fails c e i h)
      (startPool format calls emptyDb) es (process_fails format (calls i))
    rw [hstep, Pool.step_failed _ (i, w) op a x hfails hnext hx hok]
    cases op with
    | denied b =>
        cases hreceipt
        cases hx
        rfl
    | _ => cases hx

end

/-- What receipts come to in a run. -/
structure AtMostOnce {ι : Type} [DecidableEq ι] (calls : ι → LeadCall) : Prop where
  /-- Of the batches by one key, one takes effect at most. -/
  once : ∀ pre e mid e' key, TakesEffect key (poolAfter format calls pre) e →
    ¬ TakesEffect key (poolAfter format calls (pre ++ e :: mid)) e'
  /-- A receipt is of a request that was made and that passed its checks, and no two are
      of one key. -/
  own : ∀ es, ReceiptsOwn format calls (poolAfter format calls es).shared
  /-- Whatever a call returns is in a receipt of its request. -/
  returned : ∀ es i e operation v, (calls i).request = some (e, operation) →
    (poolAfter format calls es).result i = some (.ok v) →
      ∃ r ∈ (poolAfter format calls es).shared.receipts, r.OfRequest e operation ∧
        r.result = .ok v
  /-- A call whose own batch is answered ends as its receipt says, which may be that it
      was denied. -/
  told : ∀ es i w op r a, (poolAfter format calls es).next i = some op → op.receipt = some r →
    (exec op w (poolAfter format calls es).shared).1 = .ok a →
      (poolAfter format calls (es ++ [(i, w)])).result i = some (r.result.mapError problem)
  /-- A call that begins when there is a receipt of its key changes nothing. -/
  unchanged : ∀ pre mid i e operation r w,
    (poolAfter format calls pre).calls i = (calls i).process format →
      Retries calls (poolAfter format calls pre) i e operation r →
        (poolAfter format calls (pre ++ mid ++ [(i, w)])).shared =
          (poolAfter format calls (pre ++ mid)).shared
  /-- It ends with what the receipt says, or fails where it asks for something else. -/
  replayed : ∀ pre mid i e operation r,
    (poolAfter format calls pre).calls i = (calls i).process format →
      Retries calls (poolAfter format calls pre) i e operation r →
        (∀ w, (i, w) ∈ mid → w.serves) → 2 ≤ mid.countP (fun e => e.1 = i) →
          (poolAfter format calls (pre ++ mid)).result i =
            some ((calls i).replay format e r)

/-- Whatever the calls and however their requests are interleaved, a mutation is made
    once at most for each key, and a retry comes to what the first request came to. -/
theorem mutations_once {ι : Type} [DecidableEq ι] (calls : ι → LeadCall) :
    AtMostOnce format calls where
  once pre e mid e' key h := by
    rw [poolAfter_append]
    exact takesEffect_once key _ e mid e' h
  own es := (run_signing format calls es).2
  returned := call_returned format calls
  told := batch_told format calls
  unchanged := retry_unchanged format calls
  replayed := retry_replays format calls

end

end Mdevolved.Lead
