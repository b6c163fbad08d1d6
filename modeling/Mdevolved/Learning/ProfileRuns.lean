import Mdevolved.Learning.Changes
import Mdevolved.Learning.Repeats

/-!
# Runs of the Working Profile

Any number of calls change the profile, under any schedule, and may be cut off. A step of a
run does nothing to the profile, or commits one batch of the call whose step it is.

An idempotency key takes effect at most once, in every run. The rest holds in runs in which
no batch goes through that is not current: versions follow each other, what is deleted stays
so, not too many preferences are active, and a call that reports success, or an earlier one
with the same receipt, has done what it says.

## Main definitions

* `changing`: Calls that change the profile.
* `Effect`: A step that changes the profile.
* `Orderly`: No batch goes through that is not current.

## Theorems

* `changing_step`: What a step does.
* `effect_once`: A key takes effect once.
* `orderly_step`: What an orderly step keeps.
* `profile_of_run`: What holds in every run, and in orderly ones.
* `import_revives`: A run that is not orderly.
-/

namespace Mdevolved.Learning

open Batch (Passes written Outcome)
open Process

section Runs

variable {ι : Type} [DecidableEq ι] (h : Encoding) (requests : ι → ProfileCall)

/-- Calls that change the profile, none of which has begun. -/
def changing : LearningPool ι ProfileResponse :=
  { shared := LearningDb.empty, calls := fun i => (requests i).run h }

/-- The calls after a run. -/
abbrev changed (es : List (ι × Option Outside)) : LearningPool ι ProfileResponse :=
  Run.runFrom stepLearning (changing h requests) es

theorem changed_concat (es : List (ι × Option Outside)) (e : ι × Option Outside) :
    changed h requests (es ++ [e]) = stepLearning (changed h requests es) e :=
  Run.runFrom_concat stepLearning _ es e

/-- The next step of a run changes the profile. -/
def Effect (es : List (ι × Option Outside)) (e : ι × Option Outside) : Prop :=
  ¬ SameProfile (changed h requests es).shared (changed h requests (es ++ [e])).shared

/-- The change that an operation commits. -/
def LearningOp.batch : LearningOp → Option ProfileBatch
  | commitProfile batch => some batch
  | _ => none

/-- No batch goes through that is not current. -/
def Orderly (c : LearningPool ι ProfileResponse) (e : ι × Option Outside) : Prop :=
  ∀ w ∈ e.2, ∀ op ∈ c.next e.1, ∀ batch ∈ op.batch, w.outcome ≠ .refused →
    Passes batch.writes c.shared → batch.current c.shared = true

/-- The calls commit their own batches. -/
def OwnBatches (c : LearningPool ι ProfileResponse) : Prop :=
  ∀ i, (c.calls i).Within (Commits h (requests i)) (fun _ => True)

theorem ownBatches_step (c : LearningPool ι ProfileResponse) (e : ι × Option Outside)
    (hc : OwnBatches h requests c) : OwnBatches h requests (stepLearning c e) :=
  fun i => stepOrCut_within c e i (hc i)

omit [DecidableEq ι] in
theorem changing_ownBatches : OwnBatches h requests (changing h requests) :=
  fun i => run_commits h (requests i)

theorem ownBatches_run (es : List (ι × Option Outside)) :
    OwnBatches h requests (changed h requests es) :=
  Run.runFrom_keeps stepLearning (OwnBatches h requests)
    (fun c e hc => ownBatches_step h requests c e hc) _ es (changing_ownBatches h requests)

/-- What a step commits. -/
structure Committing (c : LearningPool ι ProfileResponse) (e : ι × Option Outside) (w : Outside)
    (batch : ProfileBatch) : Prop where
  outside : e.2 = some w
  taken : w.outcome ≠ .refused
  next : c.next e.1 = some (.commitProfile batch)
  own : CommittedBy h (requests e.1) batch
  passes : Passes batch.writes c.shared
  leaves : (stepLearning c e).shared = written batch.writes c.shared

/-- A step leaves the profile as it is, or commits one batch. -/
theorem changing_step (c : LearningPool ι ProfileResponse) (e : ι × Option Outside)
    (hc : OwnBatches h requests c) : SameProfile c.shared (stepLearning c e).shared ∨
      ∃ w batch, Committing h requests c e w batch := by
  rcases e with ⟨i, _ | w⟩
  · exact Or.inl (sameProfile_refl c.shared)
  rcases Pool.step_shared store.exec c (i, w) with ⟨-, hsame⟩ | ⟨op, hnext, hshared⟩
  · have hstep : (stepLearning c (i, some w)).shared = c.shared := hsame
    rw [hstep]
    exact Or.inl (sameProfile_refl c.shared)
  have hstep : (stepLearning c (i, some w)).shared = (store.exec op w c.shared).2 := hshared
  by_cases hop : ∃ batch, op = .commitProfile batch
  · rcases hop with ⟨batch, rfl⟩
    have hown : CommittedBy h (requests i) batch := Pool.next_within c i _ (hc i) hnext
    by_cases hw : w.outcome = .refused
    · rw [hstep, store.exec_refused (.commitProfile batch) w c.shared hw]
      exact Or.inl (sameProfile_refl c.shared)
    rcases store.exec_cases (.commitProfile batch) w c.shared with hsame | ⟨hpasses, hwritten⟩
    · rw [hstep, hsame]
      exact Or.inl (sameProfile_refl c.shared)
    · exact Or.inr ⟨w, batch, rfl, hw, hnext, hown, hpasses, hstep.trans hwritten⟩
  · rw [hstep]
    exact Or.inl (exec_sameProfile op w c.shared (fun batch heq => hop ⟨batch, heq⟩))

/-! ## Receipts -/

/-- The receipt of a batch is found by what its call is found by. -/
theorem committedBy_receipt (call : ProfileCall) (batch : ProfileBatch)
    (hbatch : CommittedBy h call batch) :
    batch.receipt.idempotencyKeyHash = (call.identity h).idempotencyKeyHash ∧
      batch.receipt.inputSha256 = (call.identity h).inputSha256 ∧
      batch.receipt.operation = call.operation := by
  cases hbatch <;> exact ⟨rfl, rfl, rfl⟩

/-- What is committed adds a receipt whose key was not used. -/
theorem committing_receipts (c : LearningPool ι ProfileResponse) (e : ι × Option Outside)
    (w : Outside) (batch : ProfileBatch) (hbatch : Committing h requests c e w batch) :
    (∀ r ∈ c.shared.receipts, r.idempotencyKeyHash ≠ batch.receipt.idempotencyKeyHash) ∧
      (stepLearning c e).shared.receipts = c.shared.receipts ++ [batch.receipt] := by
  rcases written_receipts batch c.shared hbatch.passes with ⟨hadmits, hadded⟩
  refine ⟨fun r hr => of_decide_eq_true (List.all_eq_true.mp hadmits r hr), ?_⟩
  rw [hbatch.leaves]
  exact hadded

theorem receipts_step (c : LearningPool ι ProfileResponse) (e : ι × Option Outside)
    (hc : OwnBatches h requests c) : ReceiptsGrow c.shared (stepLearning c e).shared := by
  unfold ReceiptsGrow
  rcases changing_step h requests c e hc with hsame | ⟨w, batch, hbatch⟩
  · rw [hsame.receipts]
  · rw [(committing_receipts h requests c e w batch hbatch).2]
    exact List.prefix_append _ _

theorem receipts_run (es fs : List (ι × Option Outside)) :
    ReceiptsGrow (changed h requests es).shared (changed h requests (es ++ fs)).shared := by
  induction fs using List.reverseRecOn with
  | nil =>
      rw [List.append_nil]
      exact List.prefix_refl _
  | append_singleton fs e ih =>
      rw [← List.append_assoc, changed_concat]
      exact ih.trans (receipts_step h requests _ e (ownBatches_run h requests (es ++ fs)))

section

variable (es : List (ι × Option Outside))

/-- The receipt of a step that changes the profile is there in whatever follows. -/
theorem effect_receipt (e : ι × Option Outside)
    (heffect : Effect h requests es e) (fs : List (ι × Option Outside)) :
    ∃ r ∈ (changed h requests (es ++ e :: fs)).shared.receipts,
      r.idempotencyKeyHash = h.sha256Hex (requests e.1).idempotencyKey := by
  have hown := ownBatches_run h requests es
  unfold Effect at heffect
  rw [changed_concat] at heffect
  rcases changing_step h requests _ e hown with hsame | ⟨w, batch, hbatch⟩
  · exact absurd hsame heffect
  · have hadded := (committing_receipts h requests _ e w batch hbatch).2
    have hgrows := receipts_run h requests (es ++ [e]) fs
    rw [List.append_assoc, List.singleton_append, changed_concat] at hgrows
    refine ⟨batch.receipt, hgrows.subset ?_, (committedBy_receipt h _ batch hbatch.own).1⟩
    rw [hadded]
    exact List.mem_append_right _ List.mem_cons_self

/-- An idempotency key takes effect at most once. -/
theorem effect_once (es fs : List (ι × Option Outside)) (e e' : ι × Option Outside)
    (hfirst : Effect h requests es e) (hsecond : Effect h requests (es ++ e :: fs) e') :
    (requests e.1).idempotencyKey ≠ (requests e'.1).idempotencyKey := by
  intro hkey
  rcases effect_receipt h requests es e hfirst fs with ⟨r, hr, hhash⟩
  have hown := ownBatches_run h requests (es ++ e :: fs)
  unfold Effect at hsecond
  rw [changed_concat] at hsecond
  rcases changing_step h requests _ e' hown with hsame | ⟨w, batch, hbatch⟩
  · exact hsecond hsame
  · -- The second batch would have used the key again.
    refine (committing_receipts h requests _ e' w batch hbatch).1 r hr ?_
    rw [hhash, hkey]
    exact (committedBy_receipt h _ batch hbatch.own).1.symm

/-- Each receipt was added by a step of a call that it is found by. -/
theorem receipt_committed (r : ProfileReceipt)
    (hr : r ∈ (changed h requests es).shared.receipts) :
    ∃ es₁ e es₂ w batch, es = es₁ ++ e :: es₂ ∧
      Committing h requests (changed h requests es₁) e w batch ∧ batch.receipt = r := by
  induction es using List.reverseRecOn with
  | nil => exact absurd hr List.not_mem_nil
  | append_singleton es e ih =>
      have hown := ownBatches_run h requests es
      have hbefore : r ∈ (changed h requests es).shared.receipts → ∃ es₁ e' es₂ w batch,
          es ++ [e] = es₁ ++ e' :: es₂ ∧
            Committing h requests (changed h requests es₁) e' w batch ∧ batch.receipt = r := by
        intro hold
        rcases ih hold with ⟨es₁, e', es₂, w, batch, rfl, hbatch⟩
        refine ⟨es₁, e', es₂ ++ [e], w, batch, ?_, hbatch⟩
        rw [List.append_assoc, List.cons_append]
      rw [changed_concat] at hr
      rcases changing_step h requests _ e hown with hsame | ⟨w, batch, hbatch⟩
      · rw [hsame.receipts] at hr
        exact hbefore hr
      · rw [(committing_receipts h requests _ e w batch hbatch).2] at hr
        rcases List.mem_append.mp hr with hold | hnew
        · exact hbefore hold
        · exact ⟨es, e, [], w, batch, rfl, hbatch, (List.mem_singleton.mp hnew).symm⟩

/-- A call that has returned has its receipt. -/
theorem returned_receipt (i : ι) (response : ProfileResponse)
    (hreturns : (changed h requests es).result i = some (.ok response)) :
    HasReceipt ((requests i).identity h) (requests i).operation response
      (changed h requests es).shared := by
  have hsound : Pool.SoundEach store.exec (fun _ _ _ _ => True) (fun _ => True)
      (fun _ => ReceiptsGrow) (fun _ _ _ => True)
      (fun i => Interface.Returns (fun response t =>
        HasReceipt ((requests i).identity h) (requests i).operation response t))
      (changed h requests es) := by
    refine Run.runFrom_keeps stepLearning _ (fun c e hc => ?_) _ es
      ⟨trivial, fun i => ⟨LearningDb.empty, ?_, ?_⟩⟩
    · exact stepOrCut_sound (R := fun _ => ReceiptsGrow) (fun _ s _ => List.prefix_refl _)
        (fun _ s t u hst htu => List.IsPrefix.trans hst htu)
        (fun i op w s _ _ _ => ⟨trivial, fun _ _ => exec_receipts op w s⟩)
        (fun _ _ => trivial) c e hc (fun _ _ _ _ => trivial)
    · exact List.prefix_refl _
    · exact run_reports h (requests i) _
  refine Pool.result_of_sound _ i _ (fun s t hst hs => ?_) hsound
    (Pool.calls_of_result _ i _ hreturns)
  exact hasReceipt_grows _ _ response s t hst hs

end

/-! ## Orderly runs -/

/-- What holds of the calls and of the profile. -/
structure InOrder (c : LearningPool ι ProfileResponse) : Prop where
  own : OwnBatches h requests c
  kept : ProfileKept c.shared

/-- What an orderly step commits is as its call says. -/
theorem committing_lawful (c : LearningPool ι ProfileResponse) (e : ι × Option Outside)
    (w : Outside) (batch : ProfileBatch) (hc : ProfileKept c.shared) (he : Orderly c e)
    (hbatch : Committing h requests c e w batch) :
    Lawfully (requests e.1) batch.receipt.response c.shared (stepLearning c e).shared := by
  have hcurrent := he w hbatch.outside (.commitProfile batch) hbatch.next batch rfl hbatch.taken
    hbatch.passes
  rw [hbatch.leaves]
  exact lawful_written h (requests e.1) batch hbatch.own c.shared hc hcurrent

/-- An orderly step keeps what holds, and deleted skills stay so. -/
theorem orderly_step (c : LearningPool ι ProfileResponse) (e : ι × Option Outside)
    (hc : InOrder h requests c) (he : Orderly c e) :
    InOrder h requests (stepLearning c e) ∧ SkillsEnd c.shared (stepLearning c e).shared := by
  have hown := ownBatches_step h requests c e hc.own
  rcases changing_step h requests c e hc.own with hsame | ⟨w, batch, hbatch⟩
  · have hversions : ∀ id, (stepLearning c e).shared.versionsOf id = c.shared.versionsOf id := by
      intro id
      unfold LearningDb.versionsOf
      rw [hsame.records]
    refine ⟨⟨hown, ⟨?_, ?_, ?_⟩⟩, skillsEnd_of_same _ _ hsame.skills⟩
    · rw [hsame.receipts]
      exact hc.kept.receipts
    · exact preferencesKept_of_same _ _ hc.kept.preferences hsame.preferences hversions
    · exact skillsKept_of_same _ _ hc.kept.skills hsame.skills hsame.attachments
  · have hlawful := committing_lawful h requests c e w batch hc.kept he hbatch
    refine ⟨⟨hown, ⟨?_, hlawful.preferences, hlawful.skills⟩⟩, hlawful.ends⟩
    rw [hbatch.leaves]
    exact receiptsKept batch c.shared hc.kept.receipts hbatch.passes

theorem inOrder_run (es : List (ι × Option Outside))
    (hes : Run.Along Orderly stepLearning (changing h requests) es) :
    InOrder h requests (changed h requests es) :=
  Run.runFrom_invariant stepLearning (InOrder h requests)
    (fun c e hc he => (orderly_step h requests c e hc he).1) _ es
    ⟨changing_ownBatches h requests, profileKept_empty⟩ hes

/-- Skills that are deleted stay so to the end of an orderly run. -/
theorem skillsEnd_run (es fs : List (ι × Option Outside))
    (hes : Run.Along Orderly stepLearning (changing h requests) (es ++ fs)) :
    SkillsEnd (changed h requests es).shared (changed h requests (es ++ fs)).shared := by
  induction fs using List.reverseRecOn with
  | nil =>
      rw [List.append_nil]
      exact skillsEnd_of_same _ _ rfl
  | append_singleton fs e ih =>
      rw [← List.append_assoc] at hes ⊢
      rcases (Run.along_append _ _ _ (es ++ fs) [e]).mp hes with ⟨hbefore, hlast⟩
      rw [changed_concat]
      refine skillsEnd_trans _ _ _ (ih hbefore) ?_
      exact (orderly_step h requests _ e (inOrder_run h requests (es ++ fs) hbefore) hlast.1).2

/-- A call that reports success, or an earlier one with the same receipt, has changed what
    its response names. -/
theorem returned_changed (es : List (ι × Option Outside)) (i : ι) (response : ProfileResponse)
    (hes : Run.Along Orderly stepLearning (changing h requests) es)
    (hreturns : (changed h requests es).result i = some (.ok response)) :
    ∃ es₁ e es₂, es = es₁ ++ e :: es₂ ∧
      (requests e.1).identity h = (requests i).identity h ∧
      (requests e.1).operation = (requests i).operation ∧
      (requests e.1).Changed response (changed h requests es₁).shared
        (changed h requests (es₁ ++ [e])).shared := by
  rcases returned_receipt h requests es i response hreturns with
    ⟨r, hr, hhash, hinput, hoperation, hresponse⟩
  rcases receipt_committed h requests es r hr with ⟨es₁, e, es₂, w, batch, hsplit, hbatch, hreceipt⟩
  have hfound := committedBy_receipt h _ batch hbatch.own
  rw [hreceipt] at hfound
  refine ⟨es₁, e, es₂, hsplit, ?_, hfound.2.2.symm.trans hoperation, ?_⟩
  · have hidentity : ∀ a b : ReceiptIdentity, a.idempotencyKeyHash = b.idempotencyKeyHash →
        a.inputSha256 = b.inputSha256 → a = b := by
      rintro ⟨_, _⟩ ⟨_, _⟩ rfl rfl
      rfl
    exact hidentity _ _ (hfound.1.symm.trans hhash) (hfound.2.1.symm.trans hinput)
  · -- The run up to that step is orderly, and so is the step.
    rw [hsplit] at hes
    rcases (Run.along_append _ _ _ es₁ (e :: es₂)).mp hes with ⟨hbefore, hstep⟩
    have hlawful := committing_lawful h requests _ e w batch
      (inOrder_run h requests es₁ hbefore).kept hstep.1 hbatch
    rw [hreceipt, hresponse] at hlawful
    rw [changed_concat]
    exact hlawful.changed

/-- In every run an idempotency key takes effect at most once. If the run is orderly, then
    after each part of it the profile is as it should be, what is deleted stays deleted to
    its end, and whoever reports success has changed what is named. -/
theorem profile_of_run (es : List (ι × Option Outside)) :
    (∀ es₁ e es₂ e' es₃, es = es₁ ++ e :: es₂ ++ e' :: es₃ → Effect h requests es₁ e →
      Effect h requests (es₁ ++ e :: es₂) e' →
      (requests e.1).idempotencyKey ≠ (requests e'.1).idempotencyKey) ∧
    (Run.Along Orderly stepLearning (changing h requests) es →
      (∀ es₁ es₂, es = es₁ ++ es₂ → ProfileKept (changed h requests es₁).shared ∧
        SkillsEnd (changed h requests es₁).shared (changed h requests es).shared) ∧
      ∀ i response, (changed h requests es).result i = some (.ok response) →
        ∃ es₁ e es₂, es = es₁ ++ e :: es₂ ∧
          (requests e.1).identity h = (requests i).identity h ∧
          (requests e.1).operation = (requests i).operation ∧
          (requests e.1).Changed response (changed h requests es₁).shared
            (changed h requests (es₁ ++ [e])).shared) := by
  refine ⟨fun es₁ e es₂ e' es₃ _ => effect_once h requests es₁ es₂ e e', fun hes => ⟨?_, ?_⟩⟩
  · rintro es₁ es₂ rfl
    have hbefore := ((Run.along_append _ _ _ es₁ es₂).mp hes).1
    exact ⟨(inOrder_run h requests es₁ hbefore).kept, skillsEnd_run h requests es₁ es₂ hes⟩
  · exact fun i response => returned_changed h requests es i response hes

instance decidableOrderly (c : LearningPool ι ProfileResponse) (e : ι × Option Outside) :
    Decidable (Orderly c e) :=
  inferInstanceAs (Decidable (∀ w ∈ e.2, ∀ op ∈ c.next e.1, ∀ batch ∈ op.batch,
    w.outcome ≠ .refused → Passes batch.writes c.shared → batch.current c.shared = true))

end Runs

/-! ## An import that began before a deletion -/

def revivedSkillId : String := "103"

/-- A skill is imported, imported once more, and deleted. -/
def revivingCalls : Fin 3 → ProfileCall
  | 0 => .importSkill
      { files := [{ contentBase64 := "a", path := "SKILL.md" }]
        idempotencyKey := "k0"
        skillId := none }
  | 1 => .importSkill
      { files := [{ contentBase64 := "a", path := "SKILL.md" }]
        idempotencyKey := "k1"
        skillId := some revivedSkillId }
  | 2 => .deleteSkill { idempotencyKey := "k2", skillId := revivedSkillId }

/-- The second import has not committed its batch when the deletion begins. -/
def revivingSteps : List (Fin 3 × Option Outside) :=
  answeredSteps 0 100 8 ++ answeredSteps 1 200 6 ++ answeredSteps 2 300 7

/-- A skill has a status. -/
def LearningDb.skillIs (db : LearningDb) (skillId : String) (status : RowStatus) : Bool :=
  db.skills.any (fun k => k.skillId = skillId && k.status = status)

instance decidableSkillsEnd (db db' : LearningDb) : Decidable (SkillsEnd db db') :=
  inferInstanceAs (Decidable (∀ s ∈ db.skills, s.status = .deleted →
    ∃ s' ∈ db'.skills, s'.skillId = s.skillId ∧ s'.status = .deleted))

/-- The deletion has reported success, and then the skill becomes active again. -/
theorem import_revives :
    (changed sampleEncoding revivingCalls revivingSteps).result 2 = some (.ok (.deleted "303")) ∧
      (changed sampleEncoding revivingCalls revivingSteps).shared.skillIs revivedSkillId .deleted =
        true ∧
      (changed sampleEncoding revivingCalls (revivingSteps ++ answeredSteps 1 206 1)).shared.skillIs
        revivedSkillId .active = true ∧
      ¬ SkillsEnd (changed sampleEncoding revivingCalls revivingSteps).shared
        (changed sampleEncoding revivingCalls (revivingSteps ++ answeredSteps 1 206 1)).shared := by
  decide +kernel

/-- The same calls, one after the other. -/
def orderlySteps : List (Fin 3 × Option Outside) :=
  answeredSteps 0 100 8 ++ answeredSteps 1 200 7 ++ answeredSteps 2 300 7

/-- Then the skill stays deleted. -/
theorem profile_of_orderly_run :
    ProfileKept (changed sampleEncoding revivingCalls orderlySteps).shared ∧
      ∃ es₁ e es₂, orderlySteps = es₁ ++ e :: es₂ ∧
        (revivingCalls e.1).Changed (.deleted "303")
          (changed sampleEncoding revivingCalls es₁).shared
          (changed sampleEncoding revivingCalls (es₁ ++ [e])).shared := by
  have hrun : Run.Along Orderly stepLearning (changing sampleEncoding revivingCalls) orderlySteps ∧
      (changed sampleEncoding revivingCalls orderlySteps).result 2 =
        some (.ok (.deleted "303")) := by
    decide +kernel
  have hprofile := (profile_of_run sampleEncoding revivingCalls orderlySteps).2 hrun.1
  refine ⟨(hprofile.1 orderlySteps [] (List.append_nil _).symm).1, ?_⟩
  rcases hprofile.2 2 _ hrun.2 with ⟨es₁, e, es₂, hsplit, -, -, hchanged⟩
  exact ⟨es₁, e, es₂, hsplit, hchanged⟩

end Mdevolved.Learning
