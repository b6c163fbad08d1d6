import Mdevolved.Lead.Actors
import Mdevolved.Lead.Submissions

/-!
# Calls of the Lead

Any number of calls run over the same tables, each of them a function with its
input, and between two requests of one there may be any number of requests of
others. Besides the functions that lead a Run there are three of its surroundings:
a work item is created, a checkpoint is acknowledged, and the owner resolves an
exception.

## Main definitions

* `LeadCall`: The functions, with their input.
* `LeadCall.process`: The requests of a function.
* `LeadPool`, `startPool`: Calls over the same tables.
* `LeadOp.operation`: The mutation that a batch makes.
* `Prepares`: A process makes no mutation.

## Theorems

* `startLeadRun_makes` and so on: What each function makes.
* `process_settles`, `run_settles`: A call ends with the batch it makes its mutation
  by.
-/

namespace Mdevolved.Lead

open Process

inductive LeadCall
  | startLeadRun (input : StartRunInput)
  | registerRunActor (input : RegisterActorInput)
  | submitRunBundle (input : SubmitBundleInput)
  | completeLeadWorkItem (input : CompleteInput)
  | registerRunActorsBatch (input : RegisterActorsInput)
  | submitRunBundlesBatch (input : SubmitBundlesInput)
  | recoverRunActor (input : RecoverActorInput)
  | submitRunBudgetEntry (input : SubmitBudgetEntryInput)
  | createWorkItem (item : WorkItemRow)
  | acknowledgeCheckpoint (point : ContinuityPointRow)
  | resolveProjectException (projectId exceptionId : String) (now : Nat)

def LeadCall.process (format : LeadFormat) : LeadCall → LeadProcess LeadResult
  | startLeadRun input => Lead.startLeadRun input
  | registerRunActor input => Lead.registerRunActor input
  | submitRunBundle input => Lead.submitRunBundle format input
  | completeLeadWorkItem input => Lead.completeLeadWorkItem input
  | registerRunActorsBatch input => Lead.registerRunActorsBatch format input
  | submitRunBundlesBatch input => Lead.submitRunBundlesBatch format input
  | recoverRunActor input => Lead.recoverRunActor format input
  | submitRunBudgetEntry input => Lead.submitRunBudgetEntry format input
  | createWorkItem item => commit (.createWorkItem item) (.workItemCreated item.workItemId)
  | acknowledgeCheckpoint point =>
      commit (.acknowledgeCheckpoint point) (.checkpointAcknowledged point.continuityPointId)
  | resolveProjectException projectId exceptionId now => do
      let resolved ← ask (.resolveProjectException projectId exceptionId now)
      return .exceptionResolved resolved

abbrev LeadPool (ι : Type) : Type :=
  Pool ι LeadOp (fun op => Except LeadError op.Ret) LeadDb LeadError LeadResult

/-- Calls that have not begun. -/
def startPool {ι : Type} (format : LeadFormat) (calls : ι → LeadCall) (db : LeadDb) : LeadPool ι :=
  { shared := db, calls := fun i => (calls i).process format }

/-! ## What a call makes -/

/-- The mutation that a batch makes. -/
def LeadOp.operation : LeadOp → Option LeadOperation
  | startRun _ => some .startRun
  | registerActor _ => some .registerActor
  | submitBundle _ => some .submitBundle
  | complete _ => some .completeWorkItem
  | registerActors _ => some .registerActorsBatch
  | submitBundles _ => some .submitBundlesBatch
  | recoverActor _ => some .recoverActor
  | submitBudgetEntry _ => some .submitBudgetEntry
  | _ => none

def LeadOp.reconciles : LeadOp → Bool
  | reconcile _ => true
  | _ => false

/-- What only prepares a mutation: reads, and the batch of one that is denied. -/
def LeadOp.prepares (op : LeadOp) : Bool :=
  op.operation.isNone && !op.reconciles

abbrev Prepares {α : Type} (p : LeadProcess α) : Prop :=
  p.Within (fun op => op.prepares = true) (fun _ => True)

/-- Besides what prepares it, a call makes what `A` allows, and once a mutation is
    made the call has ended with the result. -/
structure Makes {α : Type} (A : LeadOp → Prop) (p : LeadProcess α) : Prop where
  within : p.Within (fun op => op.prepares = true ∨ A op) (fun _ => True)
  settles : p.Settles (fun op => op.operation ≠ none)

theorem LeadOp.prepares_operation (op : LeadOp) (h : op.prepares = true) : op.operation = none := by
  rw [LeadOp.prepares, Bool.and_eq_true] at h
  exact Option.isNone_iff_eq_none.mp h.1

theorem ask_within {A : LeadOp → Prop} (op : LeadOp) (h : A op) :
    (ask op).Within A (fun _ => True) :=
  within_request op h

theorem ask_prepares (op : LeadOp) (h : op.prepares = true) : Prepares (ask op) :=
  ask_within op h

theorem check_prepares {α : Type} (r : Except LeadError α) : Prepares (check r) :=
  within_ofExcept r

theorem deny_prepares {α : Type} (e : Envelope) (operation : LeadOperation)
    (exception : ExceptionRow) : Prepares (deny e operation exception : LeadProcess α) := by
  refine within_bind (ask_prepares _ rfl) (fun _ _ => ?_)
  exact within_bind (ask_prepares _ rfl) (fun _ _ => trivial)

theorem denyUnless_prepares {c : Bool} {e : Envelope} {operation : LeadOperation}
    {exception : ExceptionRow} : Prepares (denyUnless c e operation exception) :=
  within_ite trivial (deny_prepares e operation exception)

theorem readReplay_prepares (e : Envelope) (operation : LeadOperation) :
    Prepares (readReplay e operation) :=
  within_bind (ask_prepares _ rfl) (fun _ _ => check_prepares _)

theorem beginMutation_prepares (e : Envelope) (operation : LeadOperation) :
    Prepares (beginMutation e operation) :=
  within_bind (ask_prepares _ rfl) (fun _ _ => readReplay_prepares e operation)

section

variable {α β : Type} {A : LeadOp → Prop}

theorem makes_of_prepares (p : LeadProcess α) (h : Prepares p) : Makes A p :=
  ⟨within_mono (fun _ hop => Or.inl hop) p h,
    settles_of_within p (within_mono
      (fun op hop hmakes => hmakes (op.prepares_operation hop)) p h)⟩

/-- What prepares a mutation comes before it. -/
theorem bind_makes (f : α → LeadProcess β) (p : LeadProcess α) (hp : Prepares p)
    (hf : ∀ a, Makes A (f a)) : Makes A (p >>= f) :=
  ⟨within_bind (within_mono (fun _ hop => Or.inl hop) p hp) (fun a _ => (hf a).within),
    settles_bind f p (within_mono (fun op hop hmakes => hmakes (op.prepares_operation hop)) p hp)
      (fun a => (hf a).settles)⟩

theorem ask_makes {op : LeadOp} {f : op.Ret → LeadProcess β} (h : op.prepares = true)
    (hf : ∀ r, Makes A (f r)) : Makes A (ask op >>= f) :=
  bind_makes f _ (ask_prepares op h) hf

theorem check_makes {r : Except LeadError α} {f : α → LeadProcess β} (hf : ∀ a, Makes A (f a)) :
    Makes A (check r >>= f) :=
  bind_makes f _ (check_prepares r) hf

/-- A last request, of which only the answer is left. -/
theorem request_makes (op : LeadOp) (g : op.Ret → LeadResult)
    (h : op.prepares = true ∨ A op) : Makes A (ask op >>= fun r => pure (g r)) :=
  ⟨within_bind (within_request op h) (fun _ _ => trivial), settles_request op g⟩

theorem commit_makes (op : LeadOp) (result : LeadResult) (h : op.prepares = true ∨ A op) :
    Makes A (commit op result) :=
  request_makes op (fun _ => result) h

/-- What is done where a batch has failed is no mutation. -/
theorem settle_makes (e : Envelope) (operation : LeadOperation) (rethrow : LeadError → LeadError)
    (op : LeadOp) (result : LeadResult) (h : A op) :
    Makes A (settle e operation rethrow op result) := by
  have hcommit : Makes A (commit op result) := commit_makes op result (Or.inr h)
  have hcaught : ∀ next : Option LeadResult → LeadProcess LeadResult,
      (∀ prior, Prepares (next prior)) → Prepares (readReplay e operation >>= next) :=
    fun next hnext => within_bind (readReplay_prepares e operation) (fun prior _ => hnext prior)
  refine ⟨within_tryCatch _ _ hcommit.within (fun error => ?_),
    settles_tryCatch _ _ hcommit.settles (fun error => ?_)⟩
  · refine within_mono (fun _ hop => Or.inl hop) _ (hcaught _ (fun prior => ?_))
    cases prior <;> exact trivial
  · refine within_mono (fun op hop hmakes => hmakes (op.prepares_operation hop)) _
      (hcaught _ (fun prior => ?_))
    cases prior <;> exact trivial

theorem mutation_makes {e : Envelope} {operation : LeadOperation} {mutate : LeadProcess LeadResult}
    (h : Makes A mutate) : Makes A (mutation e operation mutate) := by
  refine bind_makes _ _ (beginMutation_prepares e operation) (fun prior => ?_)
  cases prior with
  | none => exact h
  | some result => exact ⟨trivial, trivial⟩

end

section

variable (e : Envelope) (runId : String)

theorem reviewRequestAdmitted_prepares (request : Option (String × String)) : Prepares (reviewRequestAdmitted e runId request) := by
  cases request with
  | none => exact trivial
  | some request =>
      refine within_bind (ask_prepares _ rfl) (fun _ _ => ?_)
      exact within_bind (ask_prepares _ rfl) (fun _ _ => trivial)

theorem reviewResultAdmitted_prepares (runId actorId : String)
    (review : Option (String × ReviewVerdict)) :
    Prepares (reviewResultAdmitted e runId actorId review) := by
  cases review with
  | none => exact trivial
  | some review => exact within_bind (ask_prepares _ rfl) (fun _ _ => trivial)

theorem admitRunBundle_prepares (run : RunRow) (bundle : EventBundle)
    (exceptionId : String) : Prepares (admitRunBundle e run bundle exceptionId) := by
  refine within_bind (ask_prepares _ rfl) (fun _ _ => ?_)
  refine within_bind (check_prepares _) (fun _ _ => ?_)
  refine within_bind (check_prepares _) (fun _ _ => ?_)
  refine within_bind (denyUnless_prepares) (fun _ _ => ?_)
  refine within_bind (reviewRequestAdmitted_prepares _ _ _) (fun _ _ => ?_)
  refine within_bind (denyUnless_prepares) (fun _ _ => ?_)
  refine within_bind (reviewResultAdmitted_prepares _ _ _ _) (fun _ _ => ?_)
  refine within_bind (denyUnless_prepares) (fun _ _ => ?_)
  exact within_bind (ask_prepares _ rfl) (fun _ _ => check_prepares _)

theorem admitRunBundles_prepares (run : RunRow) (bundles : List EventBundle)
    (exceptionId : String) : Prepares (admitRunBundles e run bundles exceptionId) := by
  refine within_bind (ask_prepares _ rfl) (fun actors _ => ?_)
  refine within_bind (check_prepares _) (fun _ _ => ?_)
  refine within_bind (ask_prepares _ rfl) (fun prior _ => ?_)
  dsimp only
  split
  · exact deny_prepares _ _ _
  · exact within_bind (ask_prepares _ rfl) (fun _ _ => check_prepares _)

theorem readExistingClaims_prepares (claims : List RunClaimRow) :
    Prepares (readExistingClaims runId claims) :=
  within_ite trivial (ask_prepares (.readClaims runId _) rfl)

/-- The batch of expired actors is not the last. -/
theorem reconcile_makes {β : Type} {A : LeadOp → Prop} (projectId runId : String) (now : Nat)
    (f : Unit → LeadProcess β) (h : ∀ batch, A (.reconcile batch)) (hf : ∀ a, Makes A (f a)) :
    Makes A (reconcileExpiredElasticActors projectId runId now >>= f) := by
  refine ⟨within_bind (?_ : Within _ (fun _ => True) _) (fun a _ => (hf a).within),
    settles_bind f _ ?_ (fun a => (hf a).settles)⟩
  · refine within_bind (ask_within (.readExpiredActors ..) (Or.inl rfl))
      (fun ids _ => ?_)
    refine within_ite trivial (ask_within (.reconcile _) ?_)
    exact Or.inr (h _)
  · refine within_bind (ask_within (.readExpiredActors ..) (fun h => h rfl))
      (fun ids _ => ?_)
    refine within_ite trivial (ask_within (.reconcile _) ?_)
    exact fun hsome => hsome rfl

theorem replacementSlot_prepares (slot : Option Nat) :
    Prepares (replacementSlot runId slot) := by
  cases slot with
  | some k => exact trivial
  | none =>
      refine within_bind (ask_prepares _ rfl) (fun occupied _ => ?_)
      refine within_bind (check_prepares _) (fun available _ => ?_)
      cases available with
      | nil => exact trivial
      | cons slot slots => exact trivial

theorem reportingActor_prepares (actorId : Option String) :
    Prepares (reportingActor e runId actorId) := by
  cases actorId with
  | none => exact trivial
  | some actorId => exact within_bind (ask_prepares _ rfl) (fun _ _ => check_prepares _)

end

theorem startLeadRun_makes (input : StartRunInput) : Makes (fun op => op.operation = some .startRun)
    (startLeadRun input) := by
  refine mutation_makes (ask_makes rfl (fun item => ?_))
  refine check_makes (fun _ => check_makes (fun workPacketId => ?_))
  refine check_makes (fun policyId => ask_makes rfl (fun _ => ?_))
  exact settle_makes _ _ _ _ _ rfl

theorem registerRunActor_makes (input : RegisterActorInput) :
    Makes (fun op => op.operation = some .registerActor)
    (registerRunActor input) := by
  refine check_makes (fun _ => mutation_makes ?_)
  refine ask_makes rfl (fun read => check_makes (fun run => ?_))
  refine ask_makes rfl (fun plane => check_makes (fun _ => ?_))
  split
  · exact makes_of_prepares _ (deny_prepares _ _ _)
  · refine ask_makes rfl (fun taken => check_makes (fun _ => ?_))
    refine ask_makes rfl (fun lease => check_makes (fun _ => ?_))
    exact ask_makes rfl (fun _ => commit_makes _ _ (Or.inr rfl))

theorem completeLeadWorkItem_makes (input : CompleteInput) :
    Makes (fun op => op.operation = some .completeWorkItem)
    (completeLeadWorkItem input) := by
  refine mutation_makes (ask_makes rfl (fun read => ?_))
  refine check_makes (fun run => check_makes (fun _ => ?_))
  refine ask_makes rfl (fun blocked => check_makes (fun _ => ?_))
  refine ask_makes rfl (fun reviewed => check_makes (fun _ => ?_))
  refine ask_makes rfl (fun covered => check_makes (fun _ => ?_))
  refine ask_makes rfl (fun accepted => check_makes (fun _ => ?_))
  exact commit_makes _ _ (Or.inr rfl)

section

variable (format : LeadFormat)

theorem registerRunActorsBatch_makes (input : RegisterActorsInput) :
    Makes (fun op => op.operation = some .registerActorsBatch ∨ op.reconciles = true)
    (registerRunActorsBatch format input) := by
  refine check_makes (fun _ => mutation_makes ?_)
  refine ask_makes rfl (fun read => check_makes (fun run => ?_))
  refine reconcile_makes _ _ _ _ (fun _ => Or.inr rfl) (fun _ => ?_)
  refine ask_makes rfl (fun plane? => check_makes (fun plane => ?_))
  refine check_makes (fun _ => ask_makes rfl (fun taken => ?_))
  refine check_makes (fun _ => ask_makes rfl (fun lease? => ?_))
  refine check_makes (fun lease => ask_makes rfl (fun occupied => ?_))
  refine check_makes (fun slots => ask_makes rfl (fun _ => ?_))
  exact ask_makes rfl (fun deltas => settle_makes _ _ _ _ _ (Or.inl rfl))

theorem recoverRunActor_makes (input : RecoverActorInput) :
    Makes (fun op => op.operation = some .recoverActor ∨ op.reconciles = true)
    (recoverRunActor format input) := by
  refine check_makes (fun _ => mutation_makes ?_)
  refine ask_makes rfl (fun read => ?_)
  refine reconcile_makes _ _ _ _ (fun _ => Or.inr rfl) (fun _ => ?_)
  refine ask_makes rfl (fun plane? => check_makes (fun plane => ?_))
  refine check_makes (fun run => ask_makes rfl (fun actor? => ?_))
  refine check_makes (fun abandoned => ask_makes rfl (fun recovered => ?_))
  refine check_makes (fun _ => ask_makes rfl (fun taken => ?_))
  refine check_makes (fun _ => ask_makes rfl (fun slot? => ?_))
  refine check_makes (fun slot => check_makes (fun _ => ?_))
  refine check_makes (fun _ => ask_makes rfl (fun lease? => ?_))
  refine check_makes (fun lease => ?_)
  refine bind_makes _ _ (replacementSlot_prepares _ _) (fun activeSlot => ?_)
  refine check_makes (fun _ => ask_makes rfl (fun _ => ?_))
  exact ask_makes rfl (fun deltas => settle_makes _ _ _ _ _ (Or.inl rfl))

theorem submitRunBundle_makes (input : SubmitBundleInput) :
    Makes (fun op => op.operation = some .submitBundle)
    (submitRunBundle format input) := by
  refine check_makes (fun _ => mutation_makes ?_)
  refine ask_makes rfl (fun read => check_makes (fun run => ?_))
  refine ask_makes rfl (fun plane => check_makes (fun _ => ?_))
  refine bind_makes _ _ (admitRunBundle_prepares _ _ _ _) (fun _ => ?_)
  refine ask_makes rfl (fun _ => bind_makes _ _ (denyUnless_prepares) (fun _ => ?_))
  refine bind_makes _ _ (readExistingClaims_prepares _ _) (fun existing => ?_)
  exact ask_makes rfl (fun _ => commit_makes _ _ (Or.inr rfl))

theorem submitRunBundlesBatch_makes (input : SubmitBundlesInput) :
    Makes (fun op => op.operation = some .submitBundlesBatch)
    (submitRunBundlesBatch format input) := by
  refine check_makes (fun _ => mutation_makes ?_)
  refine ask_makes rfl (fun read => check_makes (fun run => ?_))
  refine ask_makes rfl (fun plane => check_makes (fun _ => ?_))
  refine bind_makes _ _ (admitRunBundles_prepares _ _ _ _) (fun _ => ?_)
  refine ask_makes rfl (fun _ => check_makes (fun _ => ?_))
  refine ask_makes rfl (fun budget? => check_makes (fun budget => ?_))
  refine bind_makes _ _ (denyUnless_prepares) (fun _ => ask_makes rfl (fun _ => ?_))
  refine bind_makes _ _ (readExistingClaims_prepares _ _) (fun existing => ?_)
  refine ask_makes rfl (fun _ => ask_makes rfl (fun deltas => ?_))
  exact settle_makes _ _ _ _ _ rfl

theorem submitRunBudgetEntry_makes (input : SubmitBudgetEntryInput) :
    Makes (fun op => op.operation = some .submitBudgetEntry)
    (submitRunBudgetEntry format input) := by
  refine check_makes (fun _ => mutation_makes ?_)
  refine ask_makes rfl (fun read => check_makes (fun run => ?_))
  refine ask_makes rfl (fun plane => check_makes (fun _ => ?_))
  refine ask_makes rfl (fun budget? => check_makes (fun budget => ?_))
  refine bind_makes _ _ (denyUnless_prepares) (fun _ => ?_)
  refine bind_makes _ _ (reportingActor_prepares _ _ _) (fun _ => ?_)
  refine ask_makes rfl (fun plane => check_makes (fun _ => ?_))
  refine ask_makes rfl (fun taken => check_makes (fun _ => ?_))
  refine ask_makes rfl (fun _ => ask_makes rfl (fun deltas => ?_))
  exact settle_makes _ _ _ _ _ rfl

/-- A call ends with the batch it makes its mutation by. -/
theorem process_settles (call : LeadCall) :
    (call.process format).Settles (fun op => op.operation ≠ none) := by
  cases call with
  | startLeadRun input => exact (startLeadRun_makes input).settles
  | registerRunActor input => exact (registerRunActor_makes input).settles
  | submitRunBundle input => exact (submitRunBundle_makes format input).settles
  | completeLeadWorkItem input => exact (completeLeadWorkItem_makes input).settles
  | registerRunActorsBatch input => exact (registerRunActorsBatch_makes format input).settles
  | submitRunBundlesBatch input => exact (submitRunBundlesBatch_makes format input).settles
  | recoverRunActor input => exact (recoverRunActor_makes format input).settles
  | submitRunBudgetEntry input => exact (submitRunBudgetEntry_makes format input).settles
  | createWorkItem item => exact settles_request _ _
  | acknowledgeCheckpoint point => exact settles_request _ _
  | resolveProjectException projectId exceptionId now => exact settles_request _ _

/-- So does every call of a run. -/
theorem run_settles {ι : Type} [DecidableEq ι] (calls : ι → LeadCall) (db : LeadDb)
    (es : List (ι × Outside)) (i : ι) :
    ((Pool.run exec (startPool format calls db) es).calls i).Settles
      (fun op => op.operation ≠ none) :=
  Run.runFrom_keeps _
    (fun c : LeadPool ι => (c.calls i).Settles (fun op : LeadOp => op.operation ≠ none))
    (fun c e h => Pool.step_settles c e i h) _ es (process_settles format (calls i))

end

/-! ## What a call relies on -/

theorem require_ok (c : Bool) (code : LeadOperationProblemCode) (u : Unit)
    (h : require c code = .ok u) : c = true := by
  unfold require at h
  split at h
  · assumption
  · cases h

theorem found_ok {α : Type} (x : Option α) (code : LeadOperationProblemCode) (a : α)
    (h : found x code = .ok a) : x = some a := by
  unfold found at h
  split at h
  · cases h
  · rw [Except.ok.injEq] at h
    rw [h]

/-- What is read of a Run that is active. -/
theorem activeRun_ok (workItemId : Option String) (read : Option RunRow) (run : RunRow)
    (h : activeRun workItemId read = .ok run) :
    read = some run ∧ run.status = .active ∧ workItemId.all (fun id => run.workItemId = id) := by
  unfold activeRun found at h
  split at h
  · cases h
  · next run' hfilter =>
    rw [Except.ok.injEq] at h
    subst h
    rcases Option.filter_eq_some_iff.mp hfilter with ⟨hread, hactive⟩
    rw [Bool.and_eq_true, decide_eq_true_eq] at hactive
    exact ⟨hread, hactive⟩

section

variable {C : LeadOp → Outside → LeadDb → Prop} {I : LeadDb → Prop} {R : LeadDb → LeadDb → Prop}
  {P : LeadOp → LeadDb → Prop}

/-- A process keeps to what `P` allows, where others keep to `R` and the tables
    to `I`. -/
abbrev Keeps {α : Type} (C : LeadOp → Outside → LeadDb → Prop) (I : LeadDb → Prop)
    (R : LeadDb → LeadDb → Prop) (P : LeadOp → LeadDb → Prop) (p : LeadProcess α) (db : LeadDb) :
    Prop :=
  p.Meets exec C I R P (fun _ _ => True) db

/-- A fact that neither requests nor others disturb. -/
structure Stable (C : LeadOp → Outside → LeadDb → Prop) (I : LeadDb → Prop)
    (R : LeadDb → LeadDb → Prop) (P : LeadOp → LeadDb → Prop) (K : LeadDb → Prop) : Prop where
  others : ∀ s t, K s → R s t → K t
  requests : ∀ op w t, I t → P op t → C op w t → K t → K (exec op w t).2

theorem stable_true : Stable C I R P (fun _ => True) :=
  ⟨fun _ _ _ _ => trivial, fun _ _ _ _ _ _ _ => trivial⟩

variable (hP : ∀ op t, op.prepares = true → P op t) {K : LeadDb → Prop} (hK : Stable C I R P K)

include hP hK

/-- A process that makes nothing else keeps to what is allowed where that is. -/
theorem within_keeps {α : Type} {A : LeadOp → Prop} (p : LeadProcess α) (s : LeadDb) (hs : K s)
    (hA : ∀ op t, I t → K t → A op → P op t)
    (hp : p.Within (fun op => op.prepares = true ∨ A op) (fun _ => True)) : Keeps C I R P p s := by
  refine meets_of_within K hK.others hK.requests (fun op t hI ht hop => ?_) (fun _ _ _ => trivial)
    p s hs hp
  rcases hop with hop | hop
  · exact hP op t hop
  · exact hA op t hI ht hop

/-- What only prepares is followed by what relies on the same fact. -/
theorem bind_keeps {α β : Type} (f : α → LeadProcess β) (p : LeadProcess α) (s : LeadDb)
    (hs : K s) (hp : Prepares p) (hf : ∀ a t, K t → Keeps C I R P (f a) t) :
    Keeps C I R P (p >>= f) s := by
  refine meets_bind f p s (meets_of_within K hK.others hK.requests (fun op t _ _ hop => hP op t hop)
    (fun r t ht => ?_) p s hs hp)
  cases r with
  | ok a => exact hf a t ht
  | error e => exact trivial

theorem mutation_keeps (e : Envelope) (operation : LeadOperation) (mutate : LeadProcess LeadResult)
    (s : LeadDb) (hs : K s) (h : ∀ t, K t → Keeps C I R P mutate t) :
    Keeps C I R P (mutation e operation mutate) s := by
  refine bind_keeps hP hK _ _ s hs (beginMutation_prepares e operation) (fun prior t ht => ?_)
  cases prior with
  | none => exact h t ht
  | some result => exact trivial

/-- What was read is there when the process goes on. -/
theorem read_keeps {β : Type} (op : LeadOp) (f : op.Ret → LeadProcess β) (s : LeadDb)
    (hs : K s) (hop : op.prepares = true) (hwrites : ∀ w, op.writes w = [])
    (hf : ∀ r w t, I t → K t → op.answer w t = .ok r → Keeps C I R P (f r) t) :
    Keeps C I R P (ask op >>= f) s := by
  refine meets_request op f s (fun t hI hst => ⟨hP op t hop, fun w _ => ⟨fun r hr => ?_,
    fun _ _ => trivial⟩⟩)
  rw [exec_read op w t (hwrites w)]
  exact hf r w t hI (hK.others s t hs hst) (exec_ok op w t r hr).1

theorem commit_keeps (op : LeadOp) (result : LeadResult) (s : LeadDb) (hs : K s)
    (hop : ∀ t, I t → K t → P op t) : Keeps C I R P (commit op result) s := by
  refine within_keeps hP hK (A := Eq op) _ s hs ?_ (commit_makes op result (Or.inr rfl)).within
  rintro _ t hI ht rfl
  exact hop t hI ht

theorem settle_keeps (e : Envelope) (operation : LeadOperation) (rethrow : LeadError → LeadError)
    (op : LeadOp) (result : LeadResult) (s : LeadDb) (hs : K s) (hop : ∀ t, I t → K t → P op t) :
    Keeps C I R P (settle e operation rethrow op result) s := by
  refine within_keeps hP hK (A := Eq op) _ s hs ?_
    (settle_makes e operation rethrow op result rfl).within
  rintro _ t hI ht rfl
  exact hop t hI ht

end

end Mdevolved.Lead
