import Mdevolved.Policy.Drills

/-!
# Calls of the Policy

Any number of calls run over the same tables, each of them a function with its input,
and between two requests of one there may be any number of requests of others. What
happens around the policy is a call of one request.

## Main definitions

* `PolicyCall`: The functions, with their input.
* `PolicyCall.process`: The requests of a function.
* `PolicyPool`, `startPool`: Calls over the same tables.
* `PolicyOp.quiet`: A request that has no say over schedules, requests and records.
* `PolicyOp.reads`: A request that writes nothing of a project.

## Theorems

* `exec_quiet`: What a quiet request leaves.
* `runScheduledPolicyOperations_within` and so on: The requests of each function.
-/

namespace Mdevolved.Policy

open Process

inductive PolicyCall
  | runScheduledPolicyOperations (input : PassInput)
  | completeContinuityDrill (input : DrillInput)
  | activateProjectPolicyBinding (input : ActivateInput)
  | surrounding (op : Surrounding)

/-- What a call ends with. -/
inductive PolicyResult
  | done
  | drill (result : DrillResult)
  | activated (binding : PolicyBinding)

/-- The requests of a function. -/
def PolicyCall.process (format : PolicyFormat) : PolicyCall → PolicyProcess PolicyResult
  | runScheduledPolicyOperations input => do
      Policy.runScheduledPolicyOperations format input
      pure .done
  | completeContinuityDrill input => do
      let result ← Policy.completeContinuityDrill format input
      pure (.drill result)
  | activateProjectPolicyBinding input => do
      let binding ← Policy.activateProjectPolicyBinding format input
      pure (.activated binding)
  | surrounding op => do
      ask (.surrounding op)
      pure .done

/-- Calls over the same tables. -/
abbrev PolicyPool (ι : Type) :=
  Pool ι PolicyOp (fun op => Except PolicyError op.Ret) PolicyDb PolicyError PolicyResult

def startPool {ι : Type} (format : PolicyFormat) (calls : ι → PolicyCall) (db : PolicyDb) :
    PolicyPool ι :=
  { shared := db, calls := fun i => (calls i).process format }

/-- A request that has no say over schedules, requests and the records behind them. -/
def PolicyOp.quiet : PolicyOp → Bool
  | insertRequest _ | insertReport _ | advance _ | completeDrill _ | activate _ => false
  | _ => true

/-- A request that writes nothing of a project. -/
def PolicyOp.reads : PolicyOp → Bool
  | putRecord _ | surrounding _ => false
  | op => op.quiet

theorem PolicyOp.quiet_of_reads (op : PolicyOp) (h : op.reads = true) : op.quiet = true := by
  cases op with
  | putRecord _ | surrounding _ => cases h
  | _ => exact h

/-- What such a request leaves: everything that the schedule of a project is about. -/
theorem exec_quiet (op : PolicyOp) (w : Outside) (db : PolicyDb) (h : op.quiet = true) :
    (exec op w db).2.requests = db.requests ∧ (exec op w db).2.schedules = db.schedules ∧
      (exec op w db).2.records = db.records ∧ (exec op w db).2.drillReceipts = db.drillReceipts := by
  rcases policy.exec_cases op w db with hsame | ⟨-, hwritten⟩
  · rw [hsame]
    exact ⟨rfl, rfl, rfl, rfl⟩
  · rw [hwritten]
    have hput : ∀ (object : StoredObject) (message : String),
        ((putObject object message).update db).requests = db.requests ∧
          ((putObject object message).update db).schedules = db.schedules ∧
          ((putObject object message).update db).records = db.records ∧
          ((putObject object message).update db).drillReceipts = db.drillReceipts := by
      intro object message
      unfold putObject
      dsimp only
      split <;> exact ⟨rfl, rfl, rfl, rfl⟩
    cases op with
    | insertRequest _ | insertReport _ | advance _ | completeDrill _ | activate _ => cases h
    | putRecord object => exact hput object _
    | surrounding op =>
        cases op with
        | putBody object => exact hput object _
        | _ => exact ⟨rfl, rfl, rfl, rfl⟩
    | _ => exact ⟨rfl, rfl, rfl, rfl⟩

/-! ## The requests of each function -/

section Within

variable {A : PolicyOp → Prop}

theorem ask_within (op : PolicyOp) (h : A op) : (ask op).Within A (fun _ => True) :=
  within_request op h

theorem check_within {α : Type} (r : Except PolicyError α) :
    (check r).Within A (fun _ => True) :=
  within_ofExcept r

variable (format : PolicyFormat) (hreads : ∀ op, PolicyOp.reads op = true → A op)
  (hput : ∀ record id, A (.putRecord (prepared format record id).object))

include hreads

theorem readContinuityPointBody_within (row? : Option PointRow) :
    (readContinuityPointBody format row?).Within A (fun _ => True) := by
  cases row? with
  | none => exact trivial
  | some row =>
      refine within_bind (ask_within _ (hreads _ rfl)) (fun object _ => ?_)
      exact within_bind (check_within _) (fun _ _ => trivial)

theorem readSourcePoint_within (input : ScheduledRequestInput) :
    (readSourcePoint format input).Within A (fun _ => True) := by
  unfold readSourcePoint
  cases input.kind with
  | continuityPoint => exact trivial
  | continuityDrill =>
      exact within_bind (ask_within _ (hreads _ rfl))
        (fun row? _ => readContinuityPointBody_within format hreads row?)

omit format in
theorem sourcePointValid_within (input : ScheduledRequestInput)
    (sourcePoint : Option StoredContinuityPoint) :
    (sourcePointValid input sourcePoint).Within A (fun _ => True) := by
  unfold sourcePointValid
  cases input.kind with
  | continuityPoint => exact trivial
  | continuityDrill =>
      cases sourcePoint with
      | none => exact trivial
      | some p => exact within_ite trivial (ask_within _ (hreads _ rfl))

omit hreads in
include hput in
theorem prepare_within (record : PolicyOperationalRecord) (portableObjectId : String) :
    (preparePolicyOperationalRecord format record portableObjectId).Within A (fun _ => True) := by
  refine within_ite trivial (within_ite trivial ?_)
  exact within_bind (ask_within _ (hput _ _)) (fun _ _ => trivial)

include hput in
theorem createScheduledRequest_within (input : ScheduledRequestInput)
    (hrequest : ∀ b sourcePoint, b.evidence = requestEvidence format input sourcePoint →
      A (.insertRequest b)) :
    (createScheduledRequest format input).Within A (fun _ => True) := by
  refine within_bind (readSourcePoint_within format hreads input) (fun sourcePoint _ => ?_)
  refine within_bind (sourcePointValid_within hreads input sourcePoint) (fun valid _ => ?_)
  refine within_ite trivial (within_ite trivial ?_)
  refine within_bind (ask_within _ (hreads _ rfl)) (fun already _ => ?_)
  refine within_ite trivial ?_
  refine within_bind (ask_within _ (hreads _ rfl)) (fun overlapping _ => ?_)
  refine within_ite trivial ?_
  refine within_bind (prepare_within format hput _ _) (fun record _ => ?_)
  refine within_tryCatch _ _ ?_ (fun error => ?_)
  · exact within_bind (ask_within _ (hrequest _ sourcePoint rfl)) (fun _ _ => trivial)
  · refine within_bind (ask_within _ (hreads _ rfl)) (fun raced _ => ?_)
    exact within_ite trivial trivial

theorem scanBodies_within (candidates : List IntegrityCandidate) :
    (scanBodies format candidates).Within A (fun _ => True) := by
  induction candidates with
  | nil => exact trivial
  | cons c cs ih =>
      refine within_bind (ask_within _ (hreads _ rfl)) (fun _ _ => ?_)
      exact within_bind ih (fun _ _ => trivial)

include hput in
theorem scanProjectIntegrity_within
    (hreport : ∀ b : RequestBatch, b.evidence.requestRow = none → A (.insertReport b))
    (projectId : String) (now : Int) (portableObjectId : String) :
    (scanProjectIntegrity format projectId now portableObjectId).Within A (fun _ => True) := by
  refine within_bind (ask_within _ (hreads _ rfl)) (fun count _ => ?_)
  refine within_bind (ask_within _ (hreads _ rfl)) (fun candidates _ => ?_)
  refine within_bind (scanBodies_within format hreads _) (fun scanned _ => ?_)
  refine within_ite trivial ?_
  refine within_bind (ask_within _ (hreads _ rfl)) (fun existing _ => ?_)
  refine within_ite trivial ?_
  refine within_bind (prepare_within format hput _ _) (fun record _ => ?_)
  refine within_tryCatch _ _ (ask_within _ (hreport _ rfl)) (fun error => ?_)
  refine within_bind (ask_within _ (hreads _ rfl)) (fun raced _ => ?_)
  exact within_ite trivial trivial

include hput in
theorem serveClock_within (input : PassInput) (schedule : ScheduleRow) (kind : RequestKind)
    (hrequest : ∀ b sourcePoint,
      b.evidence = requestEvidence format (input.request schedule kind) sourcePoint →
        A (.insertRequest b)) :
    (serveClock format input schedule kind).Within A
      (fun as => ∀ a ∈ as, a = input.advance schedule kind) := by
  refine within_ite ?_ (fun a ha => absurd ha List.not_mem_nil)
  refine within_bind (createScheduledRequest_within format hreads hput _ hrequest)
    (fun created _ => ?_)
  cases created with
  | false => exact fun a ha => absurd ha List.not_mem_nil
  | true => exact fun a ha => List.mem_singleton.mp ha

include hput in
theorem serveSchedule_within (input : PassInput) (schedule : ScheduleRow)
    (hrequest : ∀ b kind sourcePoint,
      b.evidence = requestEvidence format (input.request schedule kind) sourcePoint →
        A (.insertRequest b))
    (hadvance : ∀ as : List Advance, (∀ a ∈ as, ∃ kind, a = input.advance schedule kind) →
      A (.advance as))
    (hreport : ∀ b : RequestBatch, b.evidence.requestRow = none → A (.insertReport b)) :
    (serveSchedule format input schedule).Within A (fun _ => True) := by
  refine within_bind (serveClock_within format hreads hput input schedule _
    (fun b sourcePoint => hrequest b .continuityPoint sourcePoint)) (fun point hpoint => ?_)
  refine within_bind (serveClock_within format hreads hput input schedule _
    (fun b sourcePoint => hrequest b .continuityDrill sourcePoint)) (fun drill hdrill => ?_)
  refine within_bind (T := fun _ => True) ?_ (fun _ _ => ?_)
  · refine within_ite trivial (ask_within _ (hadvance _ (fun a ha => ?_)))
    rcases List.mem_append.mp ha with ha | ha
    · exact ⟨_, hpoint a ha⟩
    · exact ⟨_, hdrill a ha⟩
  · exact scanProjectIntegrity_within format hreads hput hreport _ _ _

include hput in
theorem runScheduledPolicyOperations_within (hrequest : ∀ b, A (.insertRequest b))
    (hadvance : ∀ as, A (.advance as))
    (hreport : ∀ b : RequestBatch, b.evidence.requestRow = none → A (.insertReport b))
    (input : PassInput) :
    (runScheduledPolicyOperations format input).Within A (fun _ => True) := by
  have hschedules : ∀ schedules, (serveSchedules format input schedules).Within A
      (fun _ => True) := by
    intro schedules
    induction schedules with
    | nil => exact trivial
    | cons schedule rest ih =>
        refine within_bind (T := fun _ => True) ?_ (fun _ _ => ih)
        exact serveSchedule_within format hreads hput input schedule (fun b _ _ _ => hrequest b)
          (fun as _ => hadvance as) hreport
  refine within_bind (ask_within _ (hreads _ rfl)) (fun schedules _ => ?_)
  exact within_bind (hschedules schedules) (fun _ _ => ask_within _ (hreads _ rfl))

theorem readPolicyOperationalRecord_within (operationalRecordId : String) :
    (readPolicyOperationalRecord format operationalRecordId).Within A (fun _ => True) := by
  refine within_bind (ask_within _ (hreads _ rfl)) (fun row? _ => ?_)
  cases row? with
  | none => exact trivial
  | some row =>
      refine within_bind (ask_within _ (hreads _ rfl)) (fun object _ => ?_)
      exact within_bind (check_within _) (fun _ _ => trivial)

omit format in
theorem cleanup_within {α : Type} (e : PolicyError) :
    (ask .queueCleanup >>= fun _ => (Process.done (.error e) : PolicyProcess α)).Within A
      (fun _ => True) :=
  within_bind (ask_within _ (hreads .queueCleanup rfl)) (fun _ _ => trivial)

theorem readDrillBodies_within (scheduled : RequestRow) (continuityPointId : String) :
    (readDrillBodies format scheduled continuityPointId).Within A (fun _ => True) := by
  refine within_tryCatch _ _ ?_ (fun _ => trivial)
  refine within_bind (readPolicyOperationalRecord_within format hreads _) (fun _ _ => ?_)
  refine within_bind (T := fun _ => True) ?_ (fun _ _ => trivial)
  exact within_bind (ask_within _ (hreads _ rfl))
    (fun row? _ => readContinuityPointBody_within format hreads row?)

include hput in
theorem completeContinuityDrill_within (hdrill : ∀ b, A (.completeDrill b)) (input : DrillInput) :
    (completeContinuityDrill format input).Within A (fun _ => True) := by
  refine within_ite trivial ?_
  refine within_bind (ask_within _ (hreads _ rfl)) (fun _ _ => ?_)
  refine within_bind (ask_within _ (hreads _ rfl)) (fun prior _ => ?_)
  cases prior with
  | some row => exact within_ite trivial trivial
  | none =>
      refine within_bind (ask_within _ (hreads _ rfl)) (fun scheduled? _ => ?_)
      cases scheduled? with
      | none => exact trivial
      | some scheduled =>
          refine within_bind (readDrillBodies_within format hreads _ _) (fun bodies _ => ?_)
          refine within_bind (ask_within _ (hreads _ rfl)) (fun context? _ => ?_)
          cases context? with
          | none => exact trivial
          | some context =>
              refine within_ite ?_ trivial
              refine within_bind (prepare_within format hput _ _) (fun _ _ => ?_)
              refine within_tryCatch _ _ ?_ (cleanup_within hreads)
              exact within_bind (ask_within _ (hdrill _)) (fun _ _ => trivial)

include hput in
theorem activateProjectPolicyBinding_within (hactivate : ∀ b, A (.activate b))
    (input : ActivateInput) :
    (activateProjectPolicyBinding format input).Within A (fun _ => True) := by
  have hrecords : ∀ records ids, (prepareRecords format records ids).Within A (fun _ => True) := by
    intro records
    induction records with
    | nil => exact fun _ => trivial
    | cons record records ih =>
        intro ids
        refine within_bind (prepare_within format hput _ _) (fun _ _ => ?_)
        exact within_bind (ih ids.tail) (fun _ _ => trivial)
  refine within_ite trivial ?_
  refine within_bind (T := fun _ => True) ?_ (fun existing _ => ?_)
  · refine within_bind (ask_within _ (hreads _ rfl)) (fun row? _ => ?_)
    cases row? with
    | none => exact trivial
    | some row =>
        refine within_bind (readPolicyOperationalRecord_within format hreads _) (fun _ _ => ?_)
        exact within_bind (check_within _) (fun _ _ => trivial)
  · refine within_bind (ask_within _ (hreads _ rfl)) (fun row? _ => ?_)
    cases row? with
    | none => exact trivial
    | some row =>
        refine within_ite trivial ?_
        refine within_bind (ask_within _ (hreads _ rfl)) (fun _ _ => ?_)
        refine within_bind (T := fun _ => True) ?_ (fun keep _ => within_ite trivial ?_)
        · cases existing with
          | none => exact trivial
          | some existing =>
              refine within_bind (check_within _) (fun keep _ => ?_)
              refine within_ite ?_ trivial
              exact within_bind (ask_within _ (hreads _ rfl)) (fun _ _ => trivial)
        · refine within_bind (hrecords _ _) (fun _ _ => ?_)
          refine within_tryCatch _ _ ?_ (cleanup_within hreads)
          exact within_bind (ask_within _ (hactivate _)) (fun _ _ => trivial)

end Within

end Mdevolved.Policy
