import Mdevolved.Learning.Drafts
import Mdevolved.Learning.Profile

/-!
# Changes of the Working Profile

Any number of calls that change the profile, under any schedule. A change is one batch, and
its receipt is part of it, so an idempotency key has one effect at most, whatever happens.

The rest depends on what a call has read being still there when its batch is committed: the
version that the next one follows, the skill that is attached, how many preferences there
are. The batch does not look again. So it holds in runs in which each batch finds the rows
that it is about as they were.

## Main definitions

* `ProfileCall`: The calls.
* `Changed`: What a call that reports success has done.
* `ProfileBatch.current`: What a batch is about is as it was.
* `Chained`: Records that follow each other.
* `ProfileKept`: What holds of the profile.

## Theorems

* `current_first`: What a batch finds as it was.
* `lawful_written`: What a batch that is current does to the profile.
-/

namespace Mdevolved.Learning

open Batch (Passes written)
open Interface (Returns)

/-! ## Calls -/

/-- A call that changes the profile. -/
inductive ProfileCall
  | savePreference (input : SaveWorkingPreferenceRequest)
  | deletePreference (input : DeleteWorkingPreferenceRequest)
  | importSkill (input : ImportAgentSkillRequest)
  | deleteSkill (input : DeleteAgentSkillRequest)
  | mutateSkill (input : ProjectSkillMutationRequest) (attach : Bool)

namespace ProfileCall

def operation : ProfileCall → WorkingProfileOperation
  | savePreference _ => .preferenceSave
  | deletePreference _ => .preferenceDelete
  | importSkill _ => .skillImport
  | deleteSkill _ => .skillDelete
  | mutateSkill _ attach => if attach then .skillAttach else .skillDetach

def idempotencyKey : ProfileCall → String
  | savePreference input => input.idempotencyKey
  | deletePreference input => input.idempotencyKey
  | importSkill input => input.idempotencyKey
  | deleteSkill input => input.idempotencyKey
  | mutateSkill input _ => input.idempotencyKey

def toJson : ProfileCall → Json
  | savePreference input => input.toJson
  | deletePreference input => input.toJson
  | importSkill input => input.toJson
  | deleteSkill input => input.toJson
  | mutateSkill input _ => input.toJson

/-- What the receipt of a call is found by. -/
def identity (h : Encoding) (call : ProfileCall) : ReceiptIdentity :=
  receiptIdentity h call.operation call.idempotencyKey call.toJson

def run (h : Encoding) : ProfileCall → LearningCalls ProfileResponse
  | savePreference input => saveWorkingPreference h input
  | deletePreference input => deleteWorkingPreference h input
  | importSkill input => importAgentSkill h input
  | deleteSkill input => deleteAgentSkill h input
  | mutateSkill input attach => mutateProjectSkill h input attach

end ProfileCall

/-- What a call that is answered with a response has changed, from the rows before to the rows
    after: the rows that it names are as the response says. -/
def ProfileCall.Changed (call : ProfileCall) (response : ProfileResponse)
    (before after : LearningDb) : Prop :=
  match call with
  | savePreference input => ∃ p, response = .preference p ∧ p.value = input.value ∧
      ∃ row ∈ after.preferences, row.preferenceId = p.preferenceId ∧
        row.currentRecordId = p.versionRecordId ∧ row.status = .active ∧
        row.value = some input.value
  | deletePreference input => ∃ recordId, response = .deleted recordId ∧
      (∃ row ∈ before.preferences, row.preferenceId = input.preferenceId ∧ row.status = .active) ∧
      ∃ row ∈ after.preferences, row.preferenceId = input.preferenceId ∧
        row.currentRecordId = recordId ∧ row.status = .deleted
  | importSkill input => ∃ k, response = .skill k ∧
      (∀ asked, input.skillId = some asked → k.skillId = asked) ∧
      ∃ row ∈ after.skills, row.skillId = k.skillId ∧
        row.currentVersionRecordId = k.versionRecordId ∧ row.status = .active
  | deleteSkill input => ∃ recordId, response = .deleted recordId ∧
      (∃ row ∈ before.skills, row.skillId = input.skillId ∧ row.status = .active) ∧
      ∃ row ∈ after.skills, row.skillId = input.skillId ∧
        row.currentVersionRecordId = recordId ∧ row.status = .deleted
  | mutateSkill input true => ∃ m, response = .mutation m ∧ m.attached = true ∧
      ∃ row ∈ after.attachments, row.projectId = input.projectId ∧ row.skillId = input.skillId ∧
        row.attachedRecordId = m.recordId ∧ row.skillVersionRecordId = m.versionRecordId
  | mutateSkill input false => ∃ m, response = .mutation m ∧ m.attached = false ∧
      (∃ row ∈ before.attachments, row.projectId = input.projectId ∧
        row.skillId = input.skillId) ∧
      ∀ row ∈ after.attachments, ¬ (row.projectId = input.projectId ∧ row.skillId = input.skillId)

/-- The batches of a call. -/
inductive CommittedBy (h : Encoding) : ProfileCall → ProfileBatch → Prop
  | savePreference (input : SaveWorkingPreferenceRequest) (existing : Option PreferenceRow)
      (preferenceId recordId : String) (stored : StoredBody) (now : Nat) :
      CommittedBy h (.savePreference input)
        { statements := [.insertRecord (input.record existing preferenceId recordId stored now),
            .upsertPreference (input.row preferenceId recordId now)]
          receipt := receiptOf ((ProfileCall.savePreference input).identity h) .preferenceSave
            (input.response preferenceId recordId now) now }
  | deletePreference (input : DeleteWorkingPreferenceRequest) (row : PreferenceRow)
      (recordId : String) (stored : StoredBody) (now : Nat) :
      CommittedBy h (.deletePreference input)
        { statements := [.insertRecord (input.record row recordId stored now),
            .deletePreference input.preferenceId recordId now]
          receipt := receiptOf ((ProfileCall.deletePreference input).identity h) .preferenceDelete
            (.deleted recordId) now }
  | importSkill (input : ImportAgentSkillRequest) (metadata : SkillMetadata)
      (existing : Option SkillRow) (skillId recordId : String) (stored : StoredBody) (now : Nat)
      (hskill : ∀ asked, input.skillId = some asked → skillId = asked) :
      CommittedBy h (.importSkill input)
        { statements := [.insertRecord (importRecord existing skillId recordId stored now),
            .upsertSkill (metadata.row skillId recordId now)]
          receipt := receiptOf ((ProfileCall.importSkill input).identity h) .skillImport
            (metadata.response skillId recordId now) now }
  | deleteSkill (input : DeleteAgentSkillRequest) (skill : SkillRow) (recordId : String)
      (stored : StoredBody) (now : Nat) (detachments : List WorkingProfileRecord)
      (hdetachments : ∀ r ∈ detachments, r.preferenceId = none) :
      CommittedBy h (.deleteSkill input)
        { statements :=
            (skill.deletion input.skillId recordId stored now :: detachments).map .insertRecord ++
              [.deleteAttachments input.skillId, .deleteSkill input.skillId recordId now]
          receipt := receiptOf ((ProfileCall.deleteSkill input).identity h) .skillDelete
            (.deleted recordId) now }
  | attachSkill (input : ProjectSkillMutationRequest) (skill : SkillRow) (slots : AttachmentSlots)
      (recordId : String) (stored : StoredBody) (now : Nat) :
      CommittedBy h (.mutateSkill input true)
        { statements := [.insertRecord (input.attachment skill recordId stored now),
            .attach (input.row skill slots recordId now)]
          receipt := receiptOf ((ProfileCall.mutateSkill input true).identity h) .skillAttach
            (input.response true recordId skill.currentVersionRecordId) now }
  | detachSkill (input : ProjectSkillMutationRequest) (attached : AttachmentRow)
      (recordId : String) (stored : StoredBody) (now : Nat) :
      CommittedBy h (.mutateSkill input false)
        { statements := [
            .insertRecord (detachment input.projectId input.skillId attached recordId stored now),
            .detach input.projectId input.skillId]
          receipt := receiptOf ((ProfileCall.mutateSkill input false).identity h) .skillDetach
            (input.response false recordId attached.skillVersionRecordId) now }

/-- A call commits its own batches. -/
def Commits (h : Encoding) (call : ProfileCall) : LearningOp → Prop
  | .commitProfile batch => CommittedBy h call batch
  | _ => True

section Kinds

open Process

variable (h : Encoding) {call : ProfileCall}

theorem publish_commits (body : Body) (recordId : String) :
    (publishWorkingProfileBody h body recordId).Within (Commits h call) (fun _ => True) := by
  unfold publishWorkingProfileBody
  refine within_tryCatch _ _ (putImmutableBody_within h _ _ _ (fun _ => trivial)
    (fun _ => trivial)) (fun e => ?_)
  exact within_bind (within_request _ trivial) (fun _ _ => trivial)

theorem require_commits (holds : Bool) (problem : WorkingProfileProblem) :
    (require holds problem).Within (Commits h call) (fun _ => True) := by
  unfold require
  exact within_ite trivial trivial

theorem requireProject_commits (projectId : Option String) :
    (requireProject projectId).Within (Commits h call) (fun _ => True) := by
  unfold requireProject
  cases projectId with
  | none => exact trivial
  | some projectId =>
      exact within_bind (within_request _ trivial) (fun active _ => require_commits h _ _)

theorem unlessReplayed_commits (identity : ReceiptIdentity) (operation : WorkingProfileOperation)
    (rest : LearningCalls ProfileResponse) (hrest : rest.Within (Commits h call) (fun _ => True)) :
    (unlessReplayed identity operation rest).Within (Commits h call) (fun _ => True) := by
  unfold unlessReplayed replay
  refine within_bind (T := fun _ => True) ?_ (fun prior _ => ?_)
  · exact within_bind (within_request _ trivial) (fun _ _ => within_ofExcept _)
  · cases prior with
    | some response => exact trivial
    | none => exact hrest

theorem commit_commits (statements : List ProfileStatement) (identity : ReceiptIdentity)
    (operation : WorkingProfileOperation) (response : ProfileResponse) (now : Nat)
    (publishedObjectKeys : List String)
    (hbatch : CommittedBy h call
      { statements := statements, receipt := receiptOf identity operation response now }) :
    (commit statements identity operation response now publishedObjectKeys).Within
      (Commits h call) (fun _ => True) := by
  unfold commit
  refine within_tryCatch _ _ ?_ (fun e => ?_)
  · exact within_bind (within_request _ hbatch) (fun _ _ => trivial)
  · refine within_bind (within_request _ trivial) (fun _ _ => ?_)
    exact unlessReplayed_commits h identity operation _ trivial

theorem saveWorkingPreference_commits (input : SaveWorkingPreferenceRequest) :
    (saveWorkingPreference h input).Within (Commits h (.savePreference input))
      (fun _ => True) := by
  unfold saveWorkingPreference
  refine within_bind (require_commits h _ _) (fun _ _ => ?_)
  refine within_bind (requireProject_commits h _) (fun _ _ => ?_)
  refine unlessReplayed_commits h _ _ _ ?_
  unfold saveNewVersion
  refine within_bind (within_request _ trivial) (fun existing _ => ?_)
  refine within_bind (require_commits h _ _) (fun _ _ => ?_)
  refine within_bind (T := fun _ => True) ?_ (fun preferenceId _ => ?_)
  · unfold savedId
    split
    · exact trivial
    · exact within_bind (within_request _ trivial) (fun _ _ => trivial)
  refine within_bind (T := fun _ => True) ?_ (fun _ _ => ?_)
  · unfold requirePlace
    refine within_ite trivial ?_
    exact within_bind (within_request _ trivial) (fun _ _ => require_commits h _ _)
  refine within_bind (within_request _ trivial) (fun drawn _ => ?_)
  unfold savePreferenceVersion
  refine within_bind (publish_commits h _ _) (fun stored _ => ?_)
  refine within_tryCatch _ _ (commit_commits h _ _ _ _ _ _ (.savePreference ..)) (fun e => ?_)
  unfold unlessSaved
  refine within_bind (within_request _ trivial) (fun _ _ => ?_)
  exact within_ite trivial trivial

theorem deleteWorkingPreference_commits (input : DeleteWorkingPreferenceRequest) :
    (deleteWorkingPreference h input).Within (Commits h (.deletePreference input))
      (fun _ => True) := by
  unfold deleteWorkingPreference
  refine unlessReplayed_commits h _ _ _ ?_
  refine within_bind (within_request _ trivial) (fun read _ => ?_)
  refine within_bind (within_ofExcept _) (fun row _ => ?_)
  unfold deletePreferenceRow
  refine within_bind (within_request _ trivial) (fun drawn _ => ?_)
  refine within_bind (publish_commits h _ _) (fun stored _ => ?_)
  exact commit_commits h _ _ _ _ _ _ (.deletePreference ..)

theorem replacedSkill_commits (skillId : Option String) :
    (replacedSkill skillId).Within (Commits h call) (fun _ => True) := by
  unfold replacedSkill
  cases skillId with
  | none => exact trivial
  | some skillId =>
      refine within_bind (within_request _ trivial) (fun read _ => ?_)
      exact within_bind (within_ofExcept _) (fun _ _ => trivial)

theorem importAgentSkill_commits (input : ImportAgentSkillRequest) :
    (importAgentSkill h input).Within (Commits h (.importSkill input)) (fun _ => True) := by
  unfold importAgentSkill
  refine unlessReplayed_commits h _ _ _ ?_
  unfold importNewVersion
  refine within_bind (within_ofExcept _) (fun metadata _ => ?_)
  refine within_bind (replacedSkill_commits h _) (fun existing _ => ?_)
  refine within_bind (within_request _ trivial) (fun owner _ => ?_)
  refine within_bind (require_commits h _ _) (fun _ _ => ?_)
  refine within_bind (T := fun _ => True) ?_ (fun _ _ => ?_)
  · unfold requireSkillPlace
    refine within_ite trivial ?_
    exact within_bind (within_request _ trivial) (fun _ _ => require_commits h _ _)
  -- A skill that is asked for keeps its id.
  refine within_bind (T := fun skillId => ∀ asked, input.skillId = some asked → skillId = asked) ?_ (fun skillId hskill => ?_)
  · unfold importedId
    split
    · next skillId hasked =>
      intro asked h
      rw [hasked] at h
      exact Option.some.inj h
    · next hnone =>
      refine within_bind (within_request _ trivial) (fun drawn _ => ?_)
      intro asked h
      rw [hnone] at h
      cases h
  refine within_bind (within_request _ trivial) (fun drawn _ => ?_)
  unfold importVersion
  refine within_bind (publish_commits h _ _) (fun stored _ => ?_)
  refine within_tryCatch _ _
    (commit_commits h _ _ _ _ _ _ (.importSkill input metadata existing skillId _ stored _ hskill))
    (fun e => ?_)
  unfold unlessNamed
  refine within_bind (within_request _ trivial) (fun _ _ => ?_)
  exact within_ite trivial trivial

theorem currentSkill_commits (skillId : String) :
    (currentSkill skillId).Within (Commits h call) (fun _ => True) := by
  unfold currentSkill
  exact within_bind (within_request _ trivial) (fun _ _ => within_ofExcept _)

/-- What is detached is not about preferences. -/
theorem detachAll_commits (skillId : String) (now : Nat) (attachments : List AttachmentRow) :
    (detachAll h skillId now attachments).Within (Commits h call)
      (fun records => ∀ r ∈ records, r.preferenceId = none) := by
  induction attachments with
  | nil => exact fun _ hr => absurd hr List.not_mem_nil
  | cons attached rest ih =>
      refine within_bind (within_request _ trivial) (fun drawn _ => ?_)
      refine within_bind (publish_commits h _ _) (fun stored _ => ?_)
      refine within_bind ih (fun records hrecords => ?_)
      intro r hr
      rcases List.mem_cons.mp hr with rfl | hr
      · rfl
      · exact hrecords r hr

theorem deleteAgentSkill_commits (input : DeleteAgentSkillRequest) :
    (deleteAgentSkill h input).Within (Commits h (.deleteSkill input)) (fun _ => True) := by
  unfold deleteAgentSkill
  refine unlessReplayed_commits h _ _ _ ?_
  unfold deleteCurrentSkill
  refine within_bind (currentSkill_commits h _) (fun skill _ => ?_)
  refine within_bind (within_request _ trivial) (fun attachments _ => ?_)
  refine within_bind (require_commits h _ _) (fun _ _ => ?_)
  refine within_bind (within_request _ trivial) (fun drawn _ => ?_)
  refine within_bind (publish_commits h _ _) (fun stored _ => ?_)
  refine within_bind (detachAll_commits h _ _ _) (fun detachments hdetachments => ?_)
  exact commit_commits h _ _ _ _ _ _
    (.deleteSkill input skill _ stored _ detachments hdetachments)

theorem mutateOnce_commits (input : ProjectSkillMutationRequest) (attach : Bool)
    (again : LearningCalls ProfileResponse)
    (hagain : attach = true →
      again.Within (Commits h (.mutateSkill input true)) (fun _ => True)) :
    (mutateOnce h input attach again).Within (Commits h (.mutateSkill input attach))
      (fun _ => True) := by
  unfold mutateOnce
  refine unlessReplayed_commits h _ _ _ ?_
  refine within_bind (requireProject_commits h _) (fun _ _ => ?_)
  refine within_bind (currentSkill_commits h _) (fun skill _ => ?_)
  refine within_bind (within_request _ trivial) (fun existing _ => ?_)
  unfold mutateAttachment
  split
  · exact trivial
  · unfold attachSkill
    refine within_bind (within_request _ trivial) (fun occupied _ => ?_)
    refine within_bind (within_ofExcept _) (fun slots _ => ?_)
    refine within_bind (within_request _ trivial) (fun drawn _ => ?_)
    refine within_bind (publish_commits h _ _) (fun stored _ => ?_)
    refine within_tryCatch _ _ (commit_commits h _ _ _ _ _ _ (.attachSkill ..)) (fun e => ?_)
    unfold unlessAttached
    refine within_bind (within_request _ trivial) (fun attached _ => ?_)
    exact within_ite trivial (hagain rfl)
  · unfold detachSkill
    refine within_bind (within_request _ trivial) (fun drawn _ => ?_)
    refine within_bind (publish_commits h _ _) (fun stored _ => ?_)
    exact commit_commits h _ _ _ _ _ _ (.detachSkill ..)
  · exact trivial

theorem run_commits (call : ProfileCall) :
    (call.run h).Within (Commits h call) (fun _ => True) := by
  cases call with
  | savePreference input => exact saveWorkingPreference_commits h input
  | deletePreference input => exact deleteWorkingPreference_commits h input
  | importSkill input => exact importAgentSkill_commits h input
  | deleteSkill input => exact deleteAgentSkill_commits h input
  | mutateSkill input attach =>
      refine mutateOnce_commits h input attach _ (fun _ => ?_)
      exact mutateOnce_commits h input true _ (fun _ => trivial)

end Kinds

/-! ## What requests do to the profile -/

/-- The profile is the same. -/
structure SameProfile (db db' : LearningDb) : Prop where
  records : db'.records = db.records
  preferences : db'.preferences = db.preferences
  skills : db'.skills = db.skills
  attachments : db'.attachments = db.attachments
  receipts : db'.receipts = db.receipts

theorem sameProfile_refl (db : LearningDb) : SameProfile db db :=
  ⟨rfl, rfl, rfl, rfl, rfl⟩

/-- A request other than a change leaves the profile as it is. -/
theorem exec_sameProfile (op : LearningOp) (w : Outside) (db : LearningDb)
    (hop : ∀ batch, op ≠ .commitProfile batch) : SameProfile db (store.exec op w db).2 := by
  rcases store.exec_cases op w db with hsame | ⟨-, hwritten⟩
  · rw [hsame]
    exact sameProfile_refl db
  · rw [hwritten]
    cases op with
    | commitProfile batch => exact absurd rfl (hop batch)
    | put object =>
        simp only [store, LearningOp.writes, insertOrIgnore, Batch.Write.always,
          Batch.written_cons, Batch.written_nil]
        split <;> exact ⟨rfl, rfl, rfl, rfl, rfl⟩
    | commitDraft record row =>
        rw [written_commitDraft]
        exact ⟨rfl, rfl, rfl, rfl, rfl⟩
    | claim c =>
        simp only [store, LearningOp.writes, insertOrIgnore, Batch.Write.always,
          Batch.written_cons, Batch.written_nil]
        split <;> exact ⟨rfl, rfl, rfl, rfl, rfl⟩
    | _ => exact ⟨rfl, rfl, rfl, rfl, rfl⟩

/-- A statement leaves the receipts as they are. -/
theorem statement_receipts (statement : ProfileStatement) (db : LearningDb) :
    (statement.write.update db).receipts = db.receipts := by
  cases statement with
  | upsertPreference row =>
      simp only [ProfileStatement.write, upsertOne]
      split <;> rfl
  | upsertSkill row =>
      simp only [ProfileStatement.write, upsertOne]
      split <;> rfl
  | _ => rfl

/-- A change that takes effect adds its receipt, which is new. -/
theorem written_receipts (batch : ProfileBatch) (db : LearningDb)
    (h : Passes batch.writes db) : batch.receipt.admits db.receipts = true ∧
      (written batch.writes db).receipts = db.receipts ++ [batch.receipt] := by
  unfold ProfileBatch.writes at h ⊢
  rcases (Batch.passes_append _ _ db).mp h with ⟨hstatements, hreceipt⟩
  have hkeeps : (written (batch.statements.map ProfileStatement.write) db).receipts =
      db.receipts := by
    refine Batch.written_keeps (fun t => t.receipts = db.receipts) _ db (fun w hw t _ ht => ?_)
      hstatements rfl
    rcases List.mem_map.mp hw with ⟨statement, -, rfl⟩
    exact (statement_receipts statement t).trans ht
  have hadmits := hreceipt.1
  rw [insertOne_passes] at hadmits
  rw [Batch.written_append]
  refine ⟨hkeeps ▸ hadmits, ?_⟩
  exact congrArg (fun rows => rows ++ [batch.receipt]) hkeeps

def ReceiptsGrow (db db' : LearningDb) : Prop :=
  db.receipts <+: db'.receipts

theorem exec_receipts (op : LearningOp) (w : Outside) (db : LearningDb) :
    ReceiptsGrow db (store.exec op w db).2 := by
  unfold ReceiptsGrow
  by_cases hop : ∃ batch, op = .commitProfile batch
  · rcases hop with ⟨batch, rfl⟩
    rcases store.exec_cases (.commitProfile batch) w db with hsame | ⟨hpasses, hwritten⟩
    · rw [hsame]
    · rw [hwritten]
      have hadded := (written_receipts batch db hpasses).2
      exact hadded ▸ List.prefix_append _ _
  · rw [(exec_sameProfile op w db (fun batch heq => hop ⟨batch, heq⟩)).receipts]

/-! ## A call that returns has its receipt -/

/-- There is a receipt of a request, with a response. -/
def HasReceipt (identity : ReceiptIdentity) (operation : WorkingProfileOperation)
    (response : ProfileResponse) (db : LearningDb) : Prop :=
  ∃ r ∈ db.receipts, r.idempotencyKeyHash = identity.idempotencyKeyHash ∧
    r.inputSha256 = identity.inputSha256 ∧ r.operation = operation ∧ r.response = response

theorem hasReceipt_grows (identity : ReceiptIdentity) (operation : WorkingProfileOperation)
    (response : ProfileResponse) (s t : LearningDb) (h : ReceiptsGrow s t)
    (hs : HasReceipt identity operation response s) : HasReceipt identity operation response t := by
  rcases hs with ⟨r, hr, hmatch⟩
  exact ⟨r, h.subset hr, hmatch⟩

section Receipted

open Process hiding bind tryCatch

variable (h : Encoding) (identity : ReceiptIdentity) (operation : WorkingProfileOperation)

/-- A call that returns something has a receipt of it. -/
abbrev Receipted (p : LearningCalls ProfileResponse) (db : LearningDb) : Prop :=
  p.Meets store.exec (fun _ _ _ => True) (fun _ => True) ReceiptsGrow (fun _ _ => True)
    (Returns (fun response t => HasReceipt identity operation response t)) db

variable {identity operation} in
theorem reports_then {α : Type} {p : LearningCalls α} {f : α → LearningCalls ProfileResponse}
    {db : LearningDb} (hf : ∀ a db, Receipted identity operation (f a) db) :
    Receipted identity operation (p >>= f) db :=
  Interface.meets_then (M := fun _ _ => True)
    (Interface.meets_anyhow (fun _ _ => trivial) _ db (fun _ _ => trivial))
    (fun a t _ => hf a t)

theorem reports_ite (c : Prop) [Decidable c] (p q : LearningCalls ProfileResponse)
    (db : LearningDb) (hp : Receipted identity operation p db)
    (hq : Receipted identity operation q db) :
    Receipted identity operation (if c then p else q) db :=
  meets_ite (fun _ => hp) (fun _ => hq)

/-- What is caught of a call that reports is answered by one that does. -/
theorem reports_tryCatch (p : LearningCalls ProfileResponse)
    (f : LearningError → LearningCalls ProfileResponse) (db : LearningDb)
    (hp : Receipted identity operation p db) (hf : ∀ e db, Receipted identity operation (f e) db) :
    Receipted identity operation (tryCatch p f) db := by
  refine meets_tryCatch f p db (meets_mono (fun _ _ hop => hop) (fun r t hr => ?_) p db hp)
  cases r with
  | ok response => exact hr
  | error e => exact hf e t

theorem unlessReplayed_reports (rest : LearningCalls ProfileResponse) (db : LearningDb)
    (hrest : ∀ db, Receipted identity operation rest db) :
    Receipted identity operation (unlessReplayed identity operation rest) db := by
  unfold unlessReplayed replay
  rw [bind_bind]
  refine meets_request (LearningOp.readReceipt identity.idempotencyKeyHash) _ db (fun t _ _ =>
    ⟨trivial, fun w _ => ⟨fun (read : Option ProfileReceipt) hread => ?_, fun _ _ => trivial⟩⟩)
  have hfound := (store.exec_ok (.readReceipt identity.idempotencyKeyHash) w t read hread).1
  rw [store.exec_read (.readReceipt identity.idempotencyKeyHash) w t rfl]
  refine meets_ofExcept _ _ t (fun prior hprior => ?_) (fun _ _ => trivial)
  cases prior with
  | none => exact hrest t
  | some response =>
      -- The receipt that was read is of this request.
      rw [← Except.ok.inj hfound] at hprior
      unfold replayed at hprior
      split at hprior
      · cases hprior
      · next r hr =>
        split at hprior
        · cases hprior
        · next hmatch =>
          rw [not_or, not_not, not_not] at hmatch
          have hkey := List.find?_some hr
          cases hprior
          exact ⟨r, List.mem_of_find?_eq_some hr, of_decide_eq_true hkey, hmatch.2, hmatch.1, rfl⟩

theorem commit_reports (statements : List ProfileStatement) (response : ProfileResponse)
    (now : Nat) (publishedObjectKeys : List String) (db : LearningDb) :
    Receipted identity operation
      (commit statements identity operation response now publishedObjectKeys) db := by
  unfold commit
  refine reports_tryCatch identity operation _ _ db ?_ (fun e db => ?_)
  · unfold committed
    refine meets_request (LearningOp.commitProfile _) _ db (fun t _ _ =>
      ⟨trivial, fun w _ => ⟨fun r hr => ?_, fun _ _ => trivial⟩⟩)
    have hdone := store.exec_ok
      (.commitProfile ⟨statements, receiptOf identity operation response now⟩) w t r hr
    have hadded := (written_receipts _ t hdone.2.1).2
    rw [hdone.2.2]
    refine ⟨receiptOf identity operation response now, ?_, rfl, rfl, rfl, rfl⟩
    exact hadded ▸ List.mem_append_right _ List.mem_cons_self
  · unfold recovered
    refine reports_then (fun _ db => ?_)
    exact unlessReplayed_reports identity operation _ db (fun _ => trivial)

theorem saveWorkingPreference_reports (input : SaveWorkingPreferenceRequest) (db : LearningDb) :
    Receipted ((ProfileCall.savePreference input).identity h) .preferenceSave
      (saveWorkingPreference h input) db := by
  unfold saveWorkingPreference
  refine reports_then (fun _ db => reports_then (fun _ db => ?_))
  refine unlessReplayed_reports _ _ _ db (fun db => ?_)
  unfold saveNewVersion
  refine reports_then (fun existing db => reports_then (fun _ db => ?_))
  refine reports_then (fun preferenceId db =>
    reports_then (fun _ db => reports_then (fun drawn db => ?_)))
  unfold savePreferenceVersion
  refine reports_then (fun stored db => ?_)
  refine reports_tryCatch _ _ _ _ db (commit_reports _ _ _ _ _ _ db) (fun e db => ?_)
  unfold unlessSaved
  exact reports_then (fun _ db => reports_ite _ _ _ _ _ db trivial trivial)

theorem deleteWorkingPreference_reports (input : DeleteWorkingPreferenceRequest)
    (db : LearningDb) :
    Receipted ((ProfileCall.deletePreference input).identity h) .preferenceDelete
      (deleteWorkingPreference h input) db := by
  unfold deleteWorkingPreference
  refine unlessReplayed_reports _ _ _ db (fun db => ?_)
  refine reports_then (fun read db => reports_then (fun row db => ?_))
  unfold deletePreferenceRow
  refine reports_then (fun drawn db => reports_then (fun stored db => ?_))
  exact commit_reports _ _ _ _ _ _ db

theorem importAgentSkill_reports (input : ImportAgentSkillRequest) (db : LearningDb) :
    Receipted ((ProfileCall.importSkill input).identity h) .skillImport (importAgentSkill h input)
      db := by
  unfold importAgentSkill
  refine unlessReplayed_reports _ _ _ db (fun db => ?_)
  unfold importNewVersion
  refine reports_then (fun metadata db => reports_then (fun existing db => ?_))
  refine reports_then (fun owner db => reports_then (fun _ db => ?_))
  refine reports_then (fun _ db =>
    reports_then (fun skillId db => reports_then (fun drawn db => ?_)))
  unfold importVersion
  refine reports_then (fun stored db => ?_)
  refine reports_tryCatch _ _ _ _ db (commit_reports _ _ _ _ _ _ db) (fun e db => ?_)
  unfold unlessNamed
  exact reports_then (fun _ db => reports_ite _ _ _ _ _ db trivial trivial)

theorem deleteAgentSkill_reports (input : DeleteAgentSkillRequest) (db : LearningDb) :
    Receipted ((ProfileCall.deleteSkill input).identity h) .skillDelete (deleteAgentSkill h input)
      db := by
  unfold deleteAgentSkill
  refine unlessReplayed_reports _ _ _ db (fun db => ?_)
  unfold deleteCurrentSkill
  refine reports_then (fun skill db => reports_then (fun attachments db => ?_))
  refine reports_then (fun _ db => reports_then (fun drawn db => ?_))
  refine reports_then (fun stored db => reports_then (fun _ db => ?_))
  exact commit_reports _ _ _ _ _ _ db

theorem mutateOnce_reports (input : ProjectSkillMutationRequest) (attach : Bool)
    (again : LearningCalls ProfileResponse) (db : LearningDb)
    (hagain : attach = true → ∀ db,
      Receipted ((ProfileCall.mutateSkill input true).identity h) .skillAttach again db) :
    Receipted ((ProfileCall.mutateSkill input attach).identity h)
      (ProfileCall.mutateSkill input attach).operation (mutateOnce h input attach again) db := by
  unfold mutateOnce
  refine unlessReplayed_reports _ _ _ db (fun db => ?_)
  refine reports_then (fun _ db => reports_then (fun skill db => ?_))
  refine reports_then (fun existing db => ?_)
  unfold mutateAttachment
  split
  · exact trivial
  · unfold attachSkill
    refine reports_then (fun occupied db => reports_then (fun slots db => ?_))
    refine reports_then (fun drawn db => reports_then (fun stored db => ?_))
    refine reports_tryCatch _ _ _ _ db (commit_reports _ _ _ _ _ _ db) (fun e db => ?_)
    unfold unlessAttached
    refine reports_then (fun attached db => ?_)
    exact reports_ite _ _ _ _ _ db trivial (hagain rfl db)
  · unfold detachSkill
    refine reports_then (fun drawn db => reports_then (fun stored db => ?_))
    exact commit_reports _ _ _ _ _ _ db
  · exact trivial

theorem run_reports (call : ProfileCall) (db : LearningDb) :
    Receipted (call.identity h) call.operation (call.run h) db := by
  cases call with
  | savePreference input => exact saveWorkingPreference_reports h input db
  | deletePreference input => exact deleteWorkingPreference_reports h input db
  | importSkill input => exact importAgentSkill_reports h input db
  | deleteSkill input => exact deleteAgentSkill_reports h input db
  | mutateSkill input attach =>
      refine mutateOnce_reports h input attach _ db (fun _ db => ?_)
      exact mutateOnce_reports h input true _ db (fun _ _ => trivial)

end Receipted

/-! ## What a batch is about -/

/-- Rows that a statement is about are as they were read: the record that is inserted follows
    the current one, a preference that becomes active has a place, and skills that are changed
    are not deleted. -/
def ProfileStatement.current (db : LearningDb) (dependencies : List String) :
    ProfileStatement → Bool
  | upsertPreference row =>
      dependencies = ((db.preferences.find? (fun p => p.preferenceId = row.preferenceId)).map
        (·.currentRecordId)).toList &&
      (db.preferences.any (fun p => p.preferenceId = row.preferenceId && p.status = .active) ||
        db.preferences.countP (fun p => p.status = .active) < maxPreferences)
  | deletePreference preferenceId _ _ =>
      db.preferences.any (fun p => p.preferenceId = preferenceId && p.status = .active &&
        dependencies = [p.currentRecordId])
  | upsertSkill row => db.skills.all (fun s => s.skillId ≠ row.skillId || s.status = .active)
  | deleteSkill skillId _ _ => db.skills.any (fun s => s.skillId = skillId && s.status = .active)
  | attach row => db.skills.any (fun s => s.skillId = row.skillId && s.status = .active)
  | detach projectId skillId =>
      db.attachments.any (fun a => a.projectId = projectId && a.skillId = skillId)
  | _ => true

/-- What the first record of a batch follows. -/
def ProfileBatch.dependencies (batch : ProfileBatch) : List String :=
  match batch.statements with
  | .insertRecord record :: _ => record.dependencies
  | _ => []

/-- What a batch is about is as it was when it was read. -/
def ProfileBatch.current (batch : ProfileBatch) (db : LearningDb) : Bool :=
  batch.statements.all (ProfileStatement.current db batch.dependencies)

/-! ## What holds of the profile -/

/-- The records of a preference, in the order in which they were written. -/
def LearningDb.versionsOf (db : LearningDb) (preferenceId : String) :
    List WorkingProfileRecord :=
  db.records.filter (fun r => r.preferenceId = some preferenceId)

/-- Records that follow each other: the first depends on none, and each of the others on the
    one before it. The last of them is given by its id. -/
inductive Chained : List WorkingProfileRecord → String → Prop
  | first (r : WorkingProfileRecord) (h : r.dependencies = []) : Chained [r] r.recordId
  | next (rows : List WorkingProfileRecord) (last : String) (r : WorkingProfileRecord)
      (h : Chained rows last) (hr : r.dependencies = [last]) : Chained (rows ++ [r]) r.recordId

/-- The versions of each preference follow each other up to the current one, and not too many
    are active. -/
structure PreferencesKept (db : LearningDb) : Prop where
  distinct : (db.preferences.map PreferenceRow.preferenceId).Nodup
  chains : ∀ p ∈ db.preferences, Chained (db.versionsOf p.preferenceId) p.currentRecordId
  unversioned : ∀ id, (∀ p ∈ db.preferences, p.preferenceId ≠ id) → db.versionsOf id = []
  places : db.preferences.countP (fun p => p.status = .active) ≤ maxPreferences

/-- Skills that are attached to a project are active. -/
structure SkillsKept (db : LearningDb) : Prop where
  distinct : (db.skills.map SkillRow.skillId).Nodup
  attached : ∀ a ∈ db.attachments, ∃ s ∈ db.skills, s.skillId = a.skillId ∧ s.status = .active

/-- What holds of the profile. -/
structure ProfileKept (db : LearningDb) : Prop where
  receipts : (db.receipts.map ProfileReceipt.idempotencyKeyHash).Nodup
  preferences : PreferencesKept db
  skills : SkillsKept db

/-- Skills that are deleted stay so. -/
def SkillsEnd (db db' : LearningDb) : Prop :=
  ∀ s ∈ db.skills, s.status = .deleted →
    ∃ s' ∈ db'.skills, s'.skillId = s.skillId ∧ s'.status = .deleted

theorem profileKept_empty : ProfileKept LearningDb.empty :=
  ⟨List.nodup_nil,
    ⟨List.nodup_nil, fun _ hp => absurd hp List.not_mem_nil, fun _ _ => rfl, Nat.zero_le _⟩,
    ⟨List.nodup_nil, fun _ ha => absurd ha List.not_mem_nil⟩⟩

section

variable (s t : LearningDb)

theorem skillsEnd_of_same (h : t.skills = s.skills) : SkillsEnd s t := by
  intro k hk hdeleted
  exact ⟨k, h ▸ hk, rfl, hdeleted⟩

theorem skillsEnd_trans (s t u : LearningDb) (h : SkillsEnd s t) (h' : SkillsEnd t u) :
    SkillsEnd s u := by
  intro k hk hdeleted
  rcases h k hk hdeleted with ⟨k', hk', hid, hdeleted'⟩
  rcases h' k' hk' hdeleted' with ⟨k'', hk'', hid', hdeleted''⟩
  exact ⟨k'', hk'', hid'.trans hid, hdeleted''⟩

theorem preferencesKept_of_same (hs : PreferencesKept s)
    (hpreferences : t.preferences = s.preferences)
    (hversions : ∀ id, t.versionsOf id = s.versionsOf id) : PreferencesKept t := by
  refine ⟨?_, fun p hp => ?_, fun id hid => ?_, ?_⟩
  · rw [hpreferences]
    exact hs.distinct
  · rw [hversions]
    exact hs.chains p (hpreferences ▸ hp)
  · rw [hversions]
    exact hs.unversioned id (fun p hp => hid p (hpreferences ▸ hp))
  · rw [hpreferences]
    exact hs.places

theorem skillsKept_of_same (hs : SkillsKept s) (hskills : t.skills = s.skills)
    (hattachments : t.attachments = s.attachments) : SkillsKept t := by
  refine ⟨?_, fun a ha => ?_⟩
  · rw [hskills]
    exact hs.distinct
  · rcases hs.attached a (hattachments ▸ ha) with ⟨k, hk, hactive⟩
    exact ⟨k, hskills ▸ hk, hactive⟩

/-- Records that are about no preference add no version. -/
theorem versionsOf_other (new : List WorkingProfileRecord)
    (hrecords : t.records = s.records ++ new) (hnew : ∀ r ∈ new, r.preferenceId = none)
    (id : String) : t.versionsOf id = s.versionsOf id := by
  unfold LearningDb.versionsOf
  rw [hrecords, List.filter_append]
  have hnone : new.filter (fun r => r.preferenceId = some id) = [] := by
    rw [List.filter_eq_nil_iff]
    intro r hr h
    rw [decide_eq_true_eq, hnew r hr] at h
    cases h
  rw [hnone, List.append_nil]

/-- A record adds a version to the preference that it is about. -/
theorem versionsOf_concat (record : WorkingProfileRecord)
    (preferenceId : String) (hrecords : t.records = s.records ++ [record])
    (hrecord : record.preferenceId = some preferenceId) (id : String) :
    t.versionsOf id =
      if id = preferenceId then s.versionsOf id ++ [record] else s.versionsOf id := by
  unfold LearningDb.versionsOf
  rw [hrecords, List.filter_append]
  by_cases hid : id = preferenceId
  · rw [if_pos hid, List.filter_cons_of_pos (by rw [hrecord, hid, decide_eq_true_eq]),
      List.filter_nil]
  · rw [if_neg hid, List.filter_cons_of_neg, List.filter_nil, List.append_nil]
    rw [decide_eq_true_eq, hrecord, Option.some.injEq]
    exact fun heq => hid heq.symm

end

/-! ## Preferences that change -/

section Preferences

variable (s t : LearningDb) (record : WorkingProfileRecord)

/-- What an upsert leaves of the preferences. -/
abbrev savedRows (row : PreferenceRow) (rows : List PreferenceRow) : List PreferenceRow :=
  Table.upsert PreferenceRow.preferenceId (fun old new => new.merge old) rows row

theorem preferencesKept_saved (row : PreferenceRow) (hs : PreferencesKept s)
    (hrecords : t.records = s.records ++ [record])
    (hpreferences : t.preferences = savedRows row s.preferences)
    (hpreference : record.preferenceId = some row.preferenceId)
    (hrecord : record.recordId = row.currentRecordId)
    (hcurrent : ProfileStatement.current s record.dependencies (.upsertPreference row) = true) :
    PreferencesKept t := by
  simp only [ProfileStatement.current, Bool.and_eq_true, decide_eq_true_eq, Bool.or_eq_true]
    at hcurrent
  rcases hcurrent with ⟨hdependencies, hplace⟩
  have hversions := versionsOf_concat s t record row.preferenceId hrecords hpreference
  refine ⟨?_, fun p hp => ?_, fun id hid => ?_, ?_⟩
  · rw [hpreferences]
    exact Table.upsert_nodup _ _ _ _ (fun _ _ => rfl) hs.distinct
  · rw [hpreferences] at hp
    rcases Table.mem_upsert_cases _ _ _ _ p hp with
      ⟨old, hold, hkey, rfl⟩ | ⟨hold, hkey⟩ | ⟨hnone, rfl⟩
    · -- The next version follows the one that was current.
      have hfound := Table.find?_of_mem PreferenceRow.preferenceId s.preferences old hs.distinct hold
      rw [hkey] at hfound
      rw [hfound] at hdependencies
      have hkey' : (row.merge old).preferenceId = row.preferenceId := hkey
      rw [hversions, if_pos hkey', hkey']
      have hchain := Chained.next _ _ record (hs.chains old hold) hdependencies
      rw [hrecord, hkey] at hchain
      exact hchain
    · rw [hversions, if_neg hkey]
      exact hs.chains p hold
    · -- A new preference has its first version.
      have hfound : s.preferences.find? (fun q => q.preferenceId = p.preferenceId) = none := by
        rw [List.find?_eq_none]
        exact fun q hq h => hnone q hq (of_decide_eq_true h)
      rw [hfound] at hdependencies
      rw [hversions, if_pos rfl, hs.unversioned p.preferenceId hnone]
      have hchain := Chained.first record hdependencies
      rwa [hrecord] at hchain
  · have hid' : id ≠ row.preferenceId := by
      rintro rfl
      rcases Table.upsert_there PreferenceRow.preferenceId (fun old new => new.merge old)
        s.preferences row (fun _ _ => rfl) with ⟨p, hp, hkey, -⟩
      exact hid p (hpreferences ▸ hp) hkey
    rw [hversions, if_neg hid']
    refine hs.unversioned id (fun p hp heq => hid p ?_ heq)
    rw [hpreferences]
    exact Table.mem_upsert _ _ _ _ p hp (fun hkey => absurd (heq.symm.trans hkey) hid')
  · rw [hpreferences]
    rcases hplace with hactive | hroom
    · rcases List.any_eq_true.mp hactive with ⟨old, hold, hmatch⟩
      simp only [Bool.and_eq_true, decide_eq_true_eq] at hmatch
      refine (Table.countP_upsert_same _ _ _ _ _ old hold hmatch.1 (fun p hp hkey => ?_)).trans
        hs.places
      -- The row of the key is the active one.
      have hsame := List.inj_on_of_nodup_map hs.distinct hp hold (hkey.trans hmatch.1.symm)
      rw [hsame, decide_eq_true_eq]
      exact hmatch.2
    · have hone := Table.countP_upsert_le PreferenceRow.preferenceId (fun old new => new.merge old)
        s.preferences row (fun p => p.status = .active) hs.distinct
      exact hone.trans hroom

/-- A preference as it is deleted. -/
def PreferenceRow.deleted (recordId : String) (now : Nat) (p : PreferenceRow) : PreferenceRow :=
  { p with currentRecordId := recordId, status := .deleted, value := none, updatedAt := now }

theorem preferencesKept_deleted (preferenceId recordId : String) (now : Nat)
    (hs : PreferencesKept s) (hrecords : t.records = s.records ++ [record])
    (hpreferences : t.preferences = Table.update
      (fun p => p.preferenceId = preferenceId && p.status = .active)
      (PreferenceRow.deleted recordId now) s.preferences)
    (hpreference : record.preferenceId = some preferenceId) (hrecord : record.recordId = recordId)
    (hcurrent : ProfileStatement.current s record.dependencies
      (.deletePreference preferenceId recordId now) = true) : PreferencesKept t := by
  simp only [ProfileStatement.current, List.any_eq_true, Bool.and_eq_true, decide_eq_true_eq]
    at hcurrent
  rcases hcurrent with ⟨old, hold, ⟨hid, hactive⟩, hdependencies⟩
  have hversions := versionsOf_concat s t record preferenceId hrecords hpreference
  have hkeys : t.preferences.map PreferenceRow.preferenceId =
      s.preferences.map PreferenceRow.preferenceId := by
    rw [hpreferences]
    exact Table.map_update _ _ (PreferenceRow.deleted recordId now) (fun _ => rfl) _
  refine ⟨?_, fun p hp => ?_, fun id hid' => ?_, ?_⟩
  · rw [hkeys]
    exact hs.distinct
  · rw [hpreferences] at hp
    rcases Table.mem_update _ _ _ p hp with ⟨q, hq, ⟨hmatch, rfl⟩ | ⟨hmatch, rfl⟩⟩
    · -- The row that is deleted is the one that was read.
      simp only [Bool.and_eq_true, decide_eq_true_eq] at hmatch
      have hsame := List.inj_on_of_nodup_map hs.distinct hq hold (hmatch.1.trans hid.symm)
      rw [hsame] at hmatch ⊢
      have hkey : (PreferenceRow.deleted recordId now old).preferenceId = preferenceId := hid
      have hchain := Chained.next _ _ record (hs.chains old hold) hdependencies
      rw [hversions, if_pos hkey, hkey]
      rw [hid, hrecord] at hchain
      exact hchain
    · -- Any other row is of another preference, as the one that was read is active.
      have hother : p.preferenceId ≠ preferenceId := by
        intro heq
        have hsame := List.inj_on_of_nodup_map hs.distinct hq hold (heq.trans hid.symm)
        rw [hsame, decide_eq_true hid, decide_eq_true hactive] at hmatch
        cases hmatch
      rw [hversions, if_neg hother]
      exact hs.chains p hq
  · have hnone : ∀ p ∈ s.preferences, p.preferenceId ≠ id := by
      intro p hp heq
      have hmem : id ∈ t.preferences.map PreferenceRow.preferenceId := by
        rw [hkeys, ← heq]
        exact List.mem_map_of_mem hp
      rcases List.mem_map.mp hmem with ⟨q, hq, hkey⟩
      exact hid' q hq hkey
    rw [hversions, if_neg (fun heq => hnone old hold (hid.trans heq.symm))]
    exact hs.unversioned id hnone
  · rw [hpreferences]
    have hfewer := Table.countP_update_add
      (fun p : PreferenceRow => p.preferenceId = preferenceId && p.status = .active)
      (fun p => p.status = .active) (PreferenceRow.deleted recordId now) s.preferences
      (fun _ _ => rfl)
    have hplaces := hs.places
    omega

end Preferences

/-! ## Skills that change -/

section Skills

variable (s t : LearningDb)

theorem skillsKept_imported (row : SkillRow) (hs : SkillsKept s) (hactive : row.status = .active)
    (hskills : t.skills = Table.upsert SkillRow.skillId (fun old new => new.merge old) s.skills row)
    (hattachments : t.attachments = s.attachments)
    (hcurrent : ProfileStatement.current s [] (.upsertSkill row) = true) :
    SkillsKept t ∧ SkillsEnd s t := by
  have hlive : ∀ k ∈ s.skills, k.skillId = row.skillId → k.status = .active := by
    intro k hk hkey
    have hrow := List.all_eq_true.mp hcurrent k hk
    rw [Bool.or_eq_true, decide_eq_true_eq, decide_eq_true_eq] at hrow
    exact hrow.resolve_left (fun hne => hne hkey)
  refine ⟨⟨?_, fun a ha => ?_⟩, fun k hk hdeleted => ?_⟩
  · rw [hskills]
    exact Table.upsert_nodup _ _ _ _ (fun _ _ => rfl) hs.distinct
  · rcases hs.attached a (hattachments ▸ ha) with ⟨k, hk, hid, hkactive⟩
    by_cases hkey : k.skillId = row.skillId
    · rcases Table.upsert_there SkillRow.skillId (fun old new => new.merge old) s.skills row
        (fun _ _ => rfl) with ⟨k', hk', hkey', hcase⟩
      refine ⟨k', hskills ▸ hk', hkey'.trans (hkey.symm.trans hid), ?_⟩
      rcases hcase with rfl | ⟨old, -, rfl⟩
      · exact hactive
      · rfl
    · refine ⟨k, ?_, hid, hkactive⟩
      rw [hskills]
      exact Table.mem_upsert _ _ _ _ k hk (fun heq => absurd heq hkey)
  · -- A deleted skill is not the one that is imported.
    refine ⟨k, ?_, rfl, hdeleted⟩
    rw [hskills]
    refine Table.mem_upsert _ _ _ _ k hk (fun hkey => ?_)
    rw [hlive k hk hkey] at hdeleted
    cases hdeleted

/-- A skill as it is deleted. -/
def SkillRow.deleted (recordId : String) (now : Nat) (k : SkillRow) : SkillRow :=
  { k with currentVersionRecordId := recordId, status := .deleted, updatedAt := now }

theorem skillsKept_deleted (skillId recordId : String) (now : Nat) (hs : SkillsKept s)
    (hskills : t.skills = Table.update (fun k => k.skillId = skillId && k.status = .active)
      (SkillRow.deleted recordId now) s.skills)
    (hattachments : t.attachments = s.attachments.filter (fun a => a.skillId ≠ skillId)) :
    SkillsKept t ∧ SkillsEnd s t := by
  have hstays : ∀ k ∈ s.skills, ¬ (k.skillId = skillId ∧ k.status = .active) → k ∈ t.skills := by
    intro k hk hnot
    have hmem := Table.update_mem (fun k : SkillRow => k.skillId = skillId && k.status = .active)
      (SkillRow.deleted recordId now) s.skills k hk
    rw [if_neg (by simpa only [Bool.and_eq_true, decide_eq_true_eq] using hnot)] at hmem
    exact hskills ▸ hmem
  refine ⟨⟨?_, fun a ha => ?_⟩, fun k hk hdeleted => ?_⟩
  · rw [hskills, Table.map_update SkillRow.skillId _ (SkillRow.deleted recordId now)
      (fun _ => rfl)]
    exact hs.distinct
  · rw [hattachments, List.mem_filter, decide_eq_true_eq] at ha
    rcases hs.attached a ha.1 with ⟨k, hk, hid, hactive⟩
    exact ⟨k, hstays k hk (fun h => ha.2 (hid.symm.trans h.1)), hid, hactive⟩
  · refine ⟨k, hstays k hk (fun h => ?_), rfl, hdeleted⟩
    rw [h.2] at hdeleted
    cases hdeleted

theorem skillsKept_attached (row : AttachmentRow) (hs : SkillsKept s) (hskills : t.skills = s.skills)
    (hattachments : t.attachments = s.attachments ++ [row])
    (hcurrent : ProfileStatement.current s [] (.attach row) = true) : SkillsKept t := by
  refine ⟨?_, fun a ha => ?_⟩
  · rw [hskills]
    exact hs.distinct
  · rw [hskills]
    rw [hattachments] at ha
    rcases List.mem_append.mp ha with hold | hnew
    · exact hs.attached a hold
    · rcases List.any_eq_true.mp hcurrent with ⟨k, hk, hmatch⟩
      simp only [Bool.and_eq_true, decide_eq_true_eq] at hmatch
      rw [List.mem_singleton.mp hnew]
      exact ⟨k, hk, hmatch⟩

theorem skillsKept_detached (p : AttachmentRow → Bool) (hs : SkillsKept s)
    (hskills : t.skills = s.skills) (hattachments : t.attachments = s.attachments.filter p) :
    SkillsKept t := by
  refine ⟨?_, fun a ha => ?_⟩
  · rw [hskills]
    exact hs.distinct
  · rw [hskills]
    rw [hattachments] at ha
    exact hs.attached a (List.mem_filter.mp ha).1

end Skills

/-! ## What batches write -/

/-- An upsert merges a row or adds it. -/
theorem upsertOne_update {ρ κ : Type} [DecidableEq κ] (rows : LearningDb → List ρ)
    (set : LearningDb → List ρ → LearningDb) (key : ρ → κ) (admits : List ρ → ρ → Bool)
    (merge : ρ → ρ → ρ) (row : ρ) (db : LearningDb) :
    (upsertOne rows set (fun t => key t = key row) admits (merge row) row).update db =
      set db (Table.upsert key (fun old new => merge new old) (rows db) row) := by
  unfold upsertOne Table.upsert
  dsimp only
  split <;> rfl

theorem written_records (records : List WorkingProfileRecord) (db : LearningDb) :
    written ((records.map .insertRecord).map ProfileStatement.write) db =
      { db with records := db.records ++ records } := by
  induction records generalizing db with
  | nil => simp only [List.map_nil, Batch.written_nil, List.append_nil]
  | cons record records ih =>
      rw [List.map_cons, List.map_cons, Batch.written_cons, ih]
      simp only [ProfileStatement.write, insertOne, Batch.Write.insertAll, List.append_assoc,
        List.singleton_append]

section Written

variable (db : LearningDb) (receipt : ProfileReceipt)

theorem written_savePreference (record : WorkingProfileRecord) (row : PreferenceRow) :
    written (ProfileBatch.writes
      { statements := [.insertRecord record, .upsertPreference row], receipt := receipt }) db =
      { db with
        records := db.records ++ [record]
        preferences := savedRows row db.preferences
        receipts := db.receipts ++ [receipt] } := by
  simp only [ProfileBatch.writes, List.map_cons, List.map_nil, List.cons_append, List.nil_append,
    Batch.written_cons, Batch.written_nil, ProfileStatement.write]
  rw [upsertOne_update (·.preferences) _ PreferenceRow.preferenceId _ PreferenceRow.merge]
  rfl

theorem written_importSkill (record : WorkingProfileRecord) (row : SkillRow) :
    written (ProfileBatch.writes
      { statements := [.insertRecord record, .upsertSkill row], receipt := receipt }) db =
      { db with
        records := db.records ++ [record]
        skills := Table.upsert SkillRow.skillId (fun old new => new.merge old) db.skills row
        receipts := db.receipts ++ [receipt] } := by
  simp only [ProfileBatch.writes, List.map_cons, List.map_nil, List.cons_append, List.nil_append,
    Batch.written_cons, Batch.written_nil, ProfileStatement.write]
  rw [upsertOne_update (·.skills) _ SkillRow.skillId _ SkillRow.merge]
  rfl

theorem written_deleteSkill (records : List WorkingProfileRecord) (skillId recordId : String)
    (now : Nat) :
    written (ProfileBatch.writes
      { statements := records.map .insertRecord ++
          [.deleteAttachments skillId, .deleteSkill skillId recordId now]
        receipt := receipt }) db =
      { db with
        records := db.records ++ records
        attachments := db.attachments.filter (fun a => a.skillId ≠ skillId)
        skills := Table.update (fun k => k.skillId = skillId && k.status = .active)
          (SkillRow.deleted recordId now) db.skills
        receipts := db.receipts ++ [receipt] } := by
  unfold ProfileBatch.writes
  rw [List.map_append, Batch.written_append, Batch.written_append, written_records]
  rfl

end Written

/-! ## A batch that is current -/

theorem receiptsKept (batch : ProfileBatch) (db : LearningDb)
    (hdb : (db.receipts.map ProfileReceipt.idempotencyKeyHash).Nodup)
    (hpasses : Passes batch.writes db) :
    ((written batch.writes db).receipts.map ProfileReceipt.idempotencyKeyHash).Nodup := by
  rcases written_receipts batch db hpasses with ⟨hadmits, hadded⟩
  rw [hadded]
  refine Table.map_concat_nodup _ _ _ hdb (fun r hr => ?_)
  exact of_decide_eq_true (List.all_eq_true.mp hadmits r hr)

/-- What a batch that is current leaves. -/
structure Lawfully (call : ProfileCall) (response : ProfileResponse) (db db' : LearningDb) :
    Prop where
  preferences : PreferencesKept db'
  skills : SkillsKept db'
  ends : SkillsEnd db db'
  changed : call.Changed response db db'

theorem current_first (batch : ProfileBatch) (statement : ProfileStatement) (db : LearningDb)
    (hcurrent : batch.current db = true) (h : statement ∈ batch.statements) :
    ProfileStatement.current db batch.dependencies statement = true :=
  List.all_eq_true.mp hcurrent statement h

variable (h : Encoding)

theorem lawful_savePreference (input : SaveWorkingPreferenceRequest)
    (existing : Option PreferenceRow) (preferenceId recordId : String) (stored : StoredBody)
    (now : Nat) (receipt : ProfileReceipt) (db : LearningDb) (hdb : ProfileKept db)
    (hcurrent : ProfileBatch.current
      { statements := [.insertRecord (input.record existing preferenceId recordId stored now),
          .upsertPreference (input.row preferenceId recordId now)]
        receipt := receipt } db = true) :
    Lawfully (.savePreference input) (input.response preferenceId recordId now) db
      (written (ProfileBatch.writes
        { statements := [.insertRecord (input.record existing preferenceId recordId stored now),
            .upsertPreference (input.row preferenceId recordId now)]
          receipt := receipt }) db) := by
  have hstatement := current_first _ (.upsertPreference (input.row preferenceId recordId now)) db
    hcurrent (List.mem_cons_of_mem _ List.mem_cons_self)
  rw [written_savePreference]
  refine ⟨?_, skillsKept_of_same db _ hdb.skills rfl rfl, skillsEnd_of_same db _ rfl, ?_⟩
  · exact preferencesKept_saved db _ (input.record existing preferenceId recordId stored now)
      (input.row preferenceId recordId now) hdb.preferences rfl rfl rfl rfl hstatement
  · rcases Table.upsert_there PreferenceRow.preferenceId (fun old new => new.merge old)
      db.preferences (input.row preferenceId recordId now) (fun _ _ => rfl) with
      ⟨row, hrow, hkey, hcase⟩
    refine ⟨_, rfl, rfl, row, hrow, hkey, ?_⟩
    rcases hcase with rfl | ⟨old, -, rfl⟩ <;> exact ⟨rfl, rfl, rfl⟩

theorem lawful_deletePreference (input : DeleteWorkingPreferenceRequest) (row : PreferenceRow)
    (recordId : String) (stored : StoredBody) (now : Nat) (receipt : ProfileReceipt)
    (db : LearningDb) (hdb : ProfileKept db)
    (hcurrent : ProfileBatch.current
      { statements := [.insertRecord (input.record row recordId stored now),
          .deletePreference input.preferenceId recordId now]
        receipt := receipt } db = true) :
    Lawfully (.deletePreference input) (.deleted recordId) db
      (written (ProfileBatch.writes
        { statements := [.insertRecord (input.record row recordId stored now),
            .deletePreference input.preferenceId recordId now]
          receipt := receipt }) db) := by
  have hstatement := current_first _ (.deletePreference input.preferenceId recordId now) db
    hcurrent (List.mem_cons_of_mem _ List.mem_cons_self)
  refine ⟨?_, skillsKept_of_same db _ hdb.skills rfl rfl, skillsEnd_of_same db _ rfl, ?_⟩
  · exact preferencesKept_deleted db _ (input.record row recordId stored now) input.preferenceId
      recordId now hdb.preferences rfl rfl rfl rfl hstatement
  · rcases List.any_eq_true.mp hstatement with ⟨old, hold, hmatch⟩
    simp only [Bool.and_eq_true, decide_eq_true_eq] at hmatch
    refine ⟨recordId, rfl, ⟨old, hold, hmatch.1⟩, PreferenceRow.deleted recordId now old, ?_,
      hmatch.1.1, rfl, rfl⟩
    have hmem := Table.update_mem
      (fun p : PreferenceRow => p.preferenceId = input.preferenceId && p.status = .active)
      (PreferenceRow.deleted recordId now) db.preferences old hold
    rwa [if_pos (by simpa only [Bool.and_eq_true, decide_eq_true_eq] using hmatch.1)] at hmem

theorem lawful_importSkill (input : ImportAgentSkillRequest) (metadata : SkillMetadata)
    (existing : Option SkillRow) (skillId recordId : String) (stored : StoredBody) (now : Nat)
    (receipt : ProfileReceipt) (hskill : ∀ asked, input.skillId = some asked → skillId = asked)
    (db : LearningDb) (hdb : ProfileKept db)
    (hcurrent : ProfileBatch.current
      { statements := [.insertRecord (importRecord existing skillId recordId stored now),
          .upsertSkill (metadata.row skillId recordId now)]
        receipt := receipt } db = true) :
    Lawfully (.importSkill input) (metadata.response skillId recordId now) db
      (written (ProfileBatch.writes
        { statements := [.insertRecord (importRecord existing skillId recordId stored now),
            .upsertSkill (metadata.row skillId recordId now)]
          receipt := receipt }) db) := by
  have hstatement := current_first _ (.upsertSkill (metadata.row skillId recordId now)) db
    hcurrent (List.mem_cons_of_mem _ List.mem_cons_self)
  rw [written_importSkill]
  have hskills := skillsKept_imported db
    { db with
      records := db.records ++ [importRecord existing skillId recordId stored now]
      skills := Table.upsert SkillRow.skillId (fun old new => new.merge old) db.skills
        (metadata.row skillId recordId now)
      receipts := db.receipts ++ [receipt] }
    (metadata.row skillId recordId now) hdb.skills rfl rfl rfl hstatement
  refine ⟨?_, hskills.1, hskills.2, ?_⟩
  · refine preferencesKept_of_same db _ hdb.preferences rfl (versionsOf_other db _
      [importRecord existing skillId recordId stored now] rfl (fun r hr => ?_))
    rw [List.mem_singleton.mp hr]
    rfl
  · rcases Table.upsert_there SkillRow.skillId (fun old new => new.merge old) db.skills
      (metadata.row skillId recordId now) (fun _ _ => rfl) with ⟨row, hrow, hkey, hcase⟩
    refine ⟨_, rfl, hskill, row, hrow, hkey, ?_⟩
    rcases hcase with rfl | ⟨old, -, rfl⟩ <;> exact ⟨rfl, rfl⟩

theorem lawful_deleteSkill (input : DeleteAgentSkillRequest) (skill : SkillRow)
    (recordId : String) (stored : StoredBody) (now : Nat)
    (detachments : List WorkingProfileRecord) (receipt : ProfileReceipt)
    (hdetachments : ∀ r ∈ detachments, r.preferenceId = none) (db : LearningDb)
    (hdb : ProfileKept db)
    (hcurrent : ProfileBatch.current
      { statements :=
          (skill.deletion input.skillId recordId stored now :: detachments).map .insertRecord ++
            [.deleteAttachments input.skillId, .deleteSkill input.skillId recordId now]
        receipt := receipt } db = true) :
    Lawfully (.deleteSkill input) (.deleted recordId) db
      (written (ProfileBatch.writes
        { statements :=
            (skill.deletion input.skillId recordId stored now :: detachments).map .insertRecord ++
              [.deleteAttachments input.skillId, .deleteSkill input.skillId recordId now]
          receipt := receipt }) db) := by
  have hstatement := current_first _ (.deleteSkill input.skillId recordId now) db hcurrent
    (List.mem_append_right _ (List.mem_cons_of_mem _ List.mem_cons_self))
  rw [written_deleteSkill]
  have hskills := skillsKept_deleted db
    { db with
      records := db.records ++ (skill.deletion input.skillId recordId stored now :: detachments)
      attachments := db.attachments.filter (fun a => a.skillId ≠ input.skillId)
      skills := Table.update (fun k => k.skillId = input.skillId && k.status = .active)
        (SkillRow.deleted recordId now) db.skills
      receipts := db.receipts ++ [receipt] }
    input.skillId recordId now hdb.skills rfl rfl
  refine ⟨?_, hskills.1, hskills.2, ?_⟩
  · refine preferencesKept_of_same db _ hdb.preferences rfl
      (versionsOf_other db _ _ rfl (fun r hr => ?_))
    rcases List.mem_cons.mp hr with rfl | hr
    · rfl
    · exact hdetachments r hr
  · rcases List.any_eq_true.mp hstatement with ⟨old, hold, hmatch⟩
    simp only [Bool.and_eq_true, decide_eq_true_eq] at hmatch
    refine ⟨recordId, rfl, ⟨old, hold, hmatch⟩, SkillRow.deleted recordId now old, ?_,
      hmatch.1, rfl, rfl⟩
    have hmem := Table.update_mem
      (fun k : SkillRow => k.skillId = input.skillId && k.status = .active)
      (SkillRow.deleted recordId now) db.skills old hold
    rwa [if_pos (by simpa only [Bool.and_eq_true, decide_eq_true_eq] using hmatch)] at hmem

theorem lawful_attachSkill (input : ProjectSkillMutationRequest) (skill : SkillRow)
    (slots : AttachmentSlots) (recordId : String) (stored : StoredBody) (now : Nat)
    (receipt : ProfileReceipt) (db : LearningDb) (hdb : ProfileKept db)
    (hcurrent : ProfileBatch.current
      { statements := [.insertRecord (input.attachment skill recordId stored now),
          .attach (input.row skill slots recordId now)]
        receipt := receipt } db = true) :
    Lawfully (.mutateSkill input true)
      (input.response true recordId skill.currentVersionRecordId) db
      (written (ProfileBatch.writes
        { statements := [.insertRecord (input.attachment skill recordId stored now),
            .attach (input.row skill slots recordId now)]
          receipt := receipt }) db) := by
  have hstatement := current_first _ (.attach (input.row skill slots recordId now)) db hcurrent
    (List.mem_cons_of_mem _ List.mem_cons_self)
  refine ⟨?_, skillsKept_attached db _ (input.row skill slots recordId now) hdb.skills rfl rfl
    hstatement, skillsEnd_of_same db _ rfl, ?_⟩
  · refine preferencesKept_of_same db _ hdb.preferences rfl
      (versionsOf_other db _ [input.attachment skill recordId stored now] rfl (fun r hr => ?_))
    rw [List.mem_singleton.mp hr]
    rfl
  · exact ⟨_, rfl, rfl, input.row skill slots recordId now,
      List.mem_append_right _ List.mem_cons_self, rfl, rfl, rfl, rfl⟩

theorem lawful_detachSkill (input : ProjectSkillMutationRequest) (attached : AttachmentRow)
    (recordId : String) (stored : StoredBody) (now : Nat) (receipt : ProfileReceipt)
    (db : LearningDb) (hdb : ProfileKept db)
    (hcurrent : ProfileBatch.current
      { statements := [
          .insertRecord (detachment input.projectId input.skillId attached recordId stored now),
          .detach input.projectId input.skillId]
        receipt := receipt } db = true) :
    Lawfully (.mutateSkill input false)
      (input.response false recordId attached.skillVersionRecordId) db
      (written (ProfileBatch.writes
        { statements := [
            .insertRecord (detachment input.projectId input.skillId attached recordId stored now),
            .detach input.projectId input.skillId]
          receipt := receipt }) db) := by
  have hstatement := current_first _ (.detach input.projectId input.skillId) db hcurrent
    (List.mem_cons_of_mem _ List.mem_cons_self)
  refine ⟨?_, skillsKept_detached db _ _ hdb.skills rfl rfl, skillsEnd_of_same db _ rfl, ?_⟩
  · refine preferencesKept_of_same db _ hdb.preferences rfl (versionsOf_other db _
      [detachment input.projectId input.skillId attached recordId stored now] rfl
      (fun r hr => ?_))
    rw [List.mem_singleton.mp hr]
    rfl
  · rcases List.any_eq_true.mp hstatement with ⟨old, hold, hmatch⟩
    simp only [Bool.and_eq_true, decide_eq_true_eq] at hmatch
    refine ⟨_, rfl, rfl, ⟨old, hold, hmatch⟩, fun row hrow hboth => ?_⟩
    have hleft := (List.mem_filter.mp hrow).2
    simp only [hboth.1, hboth.2, decide_true, Bool.and_self, Bool.not_true,
      Bool.false_eq_true] at hleft

/-- A batch that is current keeps what holds of the profile. -/
theorem lawful_written (call : ProfileCall) (batch : ProfileBatch)
    (hbatch : CommittedBy h call batch) (db : LearningDb) (hdb : ProfileKept db)
    (hcurrent : batch.current db = true) :
    Lawfully call batch.receipt.response db (written batch.writes db) := by
  cases hbatch with
  | savePreference input existing preferenceId recordId stored now =>
      exact lawful_savePreference input existing preferenceId recordId stored now _ db hdb hcurrent
  | deletePreference input row recordId stored now =>
      exact lawful_deletePreference input row recordId stored now _ db hdb hcurrent
  | importSkill input metadata existing skillId recordId stored now hskill =>
      exact lawful_importSkill input metadata existing skillId recordId stored now _ hskill db hdb
        hcurrent
  | deleteSkill input skill recordId stored now detachments hdetachments =>
      exact lawful_deleteSkill input skill recordId stored now detachments _ hdetachments db hdb
        hcurrent
  | attachSkill input skill slots recordId stored now =>
      exact lawful_attachSkill input skill slots recordId stored now _ db hdb hcurrent
  | detachSkill input attached recordId stored now =>
      exact lawful_detachSkill input attached recordId stored now _ db hdb hcurrent

end Mdevolved.Learning
