import Mdevolved.Learning.Repeats

/-!
# Drafts for the Same Thing

Two drafts that wait for their review and are for the same thing, with different contents,
are to be marked as in conflict, both of them. Whether there is another one is read before
a draft is inserted, and the other one is marked afterwards, in a statement of its own.

So both are marked as long as what was read still holds where the draft is inserted, and
the statement that marks the other takes effect. A call that has inserted such a draft is
about to mark the others, and until it does it owes that.

## Main definitions

* `Symmetric`: Drafts that contradict each other are marked.
* `drafting`: Calls that make drafts.
* `Attentive`: What is asked of the steps of a run.
* `Owed`: What is not marked yet, somebody is about to mark.

## Theorems

* `createDraftIfReady_leads`: A draft with a conflict is followed by marking.
* `owed_step`: A step keeps what is owed.
* `conflicts_marked`: In attentive runs drafts that contradict each other are marked.
* `inserted_at_once`: In others they are not.
-/

namespace Mdevolved.Learning

open Batch (Outcome written)
open Process

/-- Two drafts wait for their review, are for the same thing, and have different contents. -/
def DraftRow.contradicts (d d' : DraftRow) : Bool :=
  d.open_ && d'.open_ && d.candidate.rivals d'.candidate && d.fingerprint ≠ d'.fingerprint

/-- Drafts that contradict each other are marked, both of them. -/
def Symmetric (db : LearningDb) : Prop :=
  ∀ d ∈ db.drafts, ∀ d' ∈ db.drafts, d.contradicts d' = true →
    d.conflict = true ∧ d'.conflict = true

instance decidableSymmetric (db : LearningDb) : Decidable (Symmetric db) :=
  inferInstanceAs (Decidable (∀ d ∈ db.drafts, ∀ d' ∈ db.drafts, d.contradicts d' = true →
    d.conflict = true ∧ d'.conflict = true))

/-! ## Candidates for the same thing -/

namespace CompoundingCandidate

theorem rivals_iff (c c' : CompoundingCandidate) : c.rivals c' = true ↔
    c.kind = c'.kind ∧ c.scope = c'.scope ∧ c.projectId = c'.projectId ∧ c.key = c'.key := by
  simp only [rivals, Bool.and_eq_true, decide_eq_true_eq, and_assoc]

theorem rivals_symm (c c' : CompoundingCandidate) (h : c.rivals c' = true) :
    c'.rivals c = true := by
  rw [rivals_iff] at h ⊢
  exact ⟨h.1.symm, h.2.1.symm, h.2.2.1.symm, h.2.2.2.symm⟩

theorem rivals_trans (c c' c'' : CompoundingCandidate) (h : c.rivals c' = true)
    (h' : c'.rivals c'' = true) : c.rivals c'' = true := by
  rw [rivals_iff] at h h' ⊢
  exact ⟨h.1.trans h'.1, h.2.1.trans h'.2.1, h.2.2.1.trans h'.2.2.1, h.2.2.2.trans h'.2.2.2⟩

end CompoundingCandidate

theorem DraftRow.contradicts_iff (d d' : DraftRow) : d.contradicts d' = true ↔
    d.open_ = true ∧ d'.open_ = true ∧ d.candidate.rivals d'.candidate = true ∧
      d.fingerprint ≠ d'.fingerprint := by
  simp only [contradicts, Bool.and_eq_true, decide_eq_true_eq, and_assoc]

theorem DraftRow.contradicts_symm (d d' : DraftRow) (h : d.contradicts d' = true) :
    d'.contradicts d = true := by
  rw [contradicts_iff] at h ⊢
  exact ⟨h.2.1, h.1, d.candidate.rivals_symm _ h.2.2.1, h.2.2.2.symm⟩

/-! ## Marking follows inserting -/

/-- A draft with a conflict that was inserted is followed by marking the others. -/
def marking : (op : LearningOp) → store.Ret op → Option LearningOp
  | .commitDraft _ row, inserted =>
      if (inserted : Bool) && row.conflict then some (.markConflicts row.candidate) else none
  | _, _ => none

/-- Nothing has to follow. -/
def Unmarked (op : LearningOp) : Prop :=
  ∀ r, marking op r = none

section Marking

variable (h : Encoding)

theorem markCompetitors_marks (draft : CompoundingDraft) (hconflict : draft.conflict = true) :
    ∃ k, markCompetitors draft true = .call (.markConflicts draft.candidate) k := by
  unfold markCompetitors
  rw [if_neg (by decide), if_pos hconflict]
  exact ⟨_, rfl⟩

theorem insertDraft_leads (draft : CompoundingDraft) (now : Nat) :
    (insertDraft h draft now).Leads marking := by
  unfold insertDraft
  refine leads_bind _ _ (putImmutableBody_within (A := Unmarked) h _ _ _ (fun _ _ => rfl)
    (fun _ _ => rfl)) (fun stored _ => ⟨fun (inserted : Bool) op hfollow => ?_, fun r => ?_⟩)
  · cases hmarks : inserted && draft.conflict with
    | false =>
        simp only [marking, draftRow, hmarks, Bool.false_eq_true, if_false, reduceCtorEq]
          at hfollow
    | true =>
        simp only [marking, draftRow, hmarks, if_true, Option.some.injEq] at hfollow
        rw [Bool.and_eq_true] at hmarks
        rw [← hfollow, hmarks.1]
        exact markCompetitors_marks draft hmarks.2
  · refine leads_of_within (T := fun _ => True) _ ?_
    cases r with
    | ok inserted => exact markCompetitors_within draft inserted (fun _ => rfl)
    | error e =>
        refine within_bind (T := fun _ => True) (f := markCompetitors draft) (p := unlessDrafted draft.fingerprint e) ?_
          (fun inserted _ => markCompetitors_within draft inserted (fun _ => rfl))
        unfold unlessDrafted
        refine within_bind (within_request _ (fun _ => rfl)) (fun winner _ => ?_)
        exact within_ite trivial trivial

theorem createDraftIfReady_leads (candidate : CompoundingCandidate) (fingerprint : String)
    (now : Nat) : (createDraftIfReady h candidate fingerprint now).Leads marking := by
  unfold createDraftIfReady createDraft
  refine leads_request (LearningOp.countPoints fingerprint) _ (fun _ => rfl) (fun (points : Nat) => ?_)
  refine leads_ite _ _ _ trivial ?_
  refine leads_request (LearningOp.draftOf fingerprint) _ (fun _ => rfl)
    (fun (existing : Option DraftRow) => ?_)
  refine leads_ite _ _ _ trivial ?_
  refine leads_request LearningOp.countPending _ (fun _ => rfl) (fun (pending : Nat) => ?_)
  refine leads_ite _ _ _ trivial ?_
  refine leads_request (LearningOp.evidenceFor fingerprint) _ (fun _ => rfl)
    (fun (found : List CompoundingEvidence) => ?_)
  refine leads_ite _ _ _ trivial ?_
  refine leads_request (LearningOp.competitors candidate) _ (fun _ => rfl)
    (fun (competing : List String) => ?_)
  exact insertDraft_leads h _ now

end Marking

/-! ## What is owed -/

section Runs

variable {ι : Type} [DecidableEq ι] (h : Encoding)

/-- Calls that make drafts, none of which has begun. -/
def drafting (candidate : ι → CompoundingCandidate) (now : ι → Nat) (db : LearningDb) :
    LearningPool ι (Option String) :=
  { shared := db
    calls := fun i =>
      createDraftIfReady h (candidate i) (fingerprint h (candidate i)) (now i) }

/-- A draft that contradicts another one knows of the conflict when it is inserted, and
    that it was inserted is answered. Marking takes effect. -/
def Heeds : LearningOp → Outside → LearningDb → Prop
  | .commitDraft _ row, w, db => row.admits db.drafts = true →
      (∃ d ∈ db.drafts, row.contradicts d = true) → row.conflict = true ∧ w.outcome ≠ .lost
  | .markConflicts _, w, _ => w.outcome ≠ .refused
  | _, _, _ => True

def LearningOp.marks : LearningOp → Bool
  | markConflicts _ => true
  | _ => false

/-- What is asked of a step. Nor is a call cut off that is about to mark. -/
def Attentive (c : LearningPool ι (Option String)) : ι × Option Outside → Prop
  | (i, some w) => ∀ op, c.next i = some op → Heeds op w c.shared
  | (i, none) => ∀ op, c.next i = some op → op.marks = false

/-- Somebody is about to mark what is for the same thing as a candidate. -/
def AboutToMark (c : LearningPool ι (Option String)) (candidate : CompoundingCandidate) : Prop :=
  ∃ i marked, c.next i = some (.markConflicts marked) ∧ marked.rivals candidate = true

/-- Drafts that contradict each other are marked, or somebody is about to mark them. -/
def Owed (c : LearningPool ι (Option String)) : Prop :=
  ∀ d ∈ c.shared.drafts, ∀ d' ∈ c.shared.drafts, d.contradicts d' = true →
    (d.conflict = true ∧ d'.conflict = true) ∨ AboutToMark c d.candidate

/-- A draft that is inserted is answered for, unless the answer is lost. -/
theorem exec_inserted (record : CompoundingRecord) (row : DraftRow) (w : Outside)
    (db : LearningDb) (hadded : (store.exec (.commitDraft record row) w db).2 ≠ db)
    (hw : w.outcome ≠ .lost) :
    (store.exec (.commitDraft record row) w db).1 = .ok (row.admits db.drafts) := by
  cases hout : w.outcome with
  | lost => exact absurd hout hw
  | refused => exact absurd (store.exec_refused (.commitDraft record row) w db hout) hadded
  | answered =>
      rcases store.exec_cases (.commitDraft record row) w db with hsame | ⟨hpasses, -⟩
      · exact absurd hsame hadded
      · rw [store.exec_answered (.commitDraft record row) w db _ hout rfl hpasses]

section

variable (c : LearningPool ι (Option String)) (e : ι × Option Outside)
  (candidate : CompoundingCandidate)

/-- Marking marks all that is for the same thing. -/
theorem exec_markConflicts (w : Outside) (db : LearningDb)
    (hw : w.outcome ≠ .refused) : (store.exec (.markConflicts candidate) w db).2.drafts =
      Table.update (fun d => d.open_ && d.candidate.rivals candidate)
        (fun d => { d with conflict := true }) db.drafts := by
  rw [store.exec_taken (.markConflicts candidate) w db () hw rfl ⟨rfl, trivial⟩]
  rfl

/-- Whoever is about to mark still is after a step of another call. -/
theorem aboutToMark_step (h : AboutToMark c candidate)
    (hother : ∀ marked, c.next e.1 = some (.markConflicts marked) →
      marked.rivals candidate = false) : AboutToMark (stepLearning c e) candidate := by
  rcases h with ⟨i, marked, hnext, hrivals⟩
  have hi : i ≠ e.1 := by
    intro heq
    rw [heq] at hnext
    rw [hother marked hnext] at hrivals
    cases hrivals
  exact ⟨i, marked, (stepOrCut_next c e i hi).trans hnext, hrivals⟩

/-- Where the drafts stay as they are, what is owed stays so. -/
theorem owed_same (hc : Owed c)
    (hdrafts : (stepLearning c e).shared.drafts = c.shared.drafts)
    (hnot : ∀ marked, c.next e.1 ≠ some (.markConflicts marked)) : Owed (stepLearning c e) := by
  intro d hd d' hd' hcontra
  rw [hdrafts] at hd hd'
  refine (hc d hd d' hd' hcontra).imp id (fun habout => ?_)
  exact aboutToMark_step c e d.candidate habout (fun marked hnext => absurd hnext (hnot marked))

/-- Once a draft is inserted whose call is about to mark, what it contradicts is owed. -/
theorem owed_inserted (row : DraftRow)
    (hc : Owed c) (hadded : (stepLearning c e).shared.drafts = c.shared.drafts ++ [row])
    (hnot : ∀ marked, c.next e.1 ≠ some (.markConflicts marked))
    (hmarks : (∃ d ∈ c.shared.drafts, row.contradicts d = true) →
      (stepLearning c e).next e.1 = some (.markConflicts row.candidate)) :
    Owed (stepLearning c e) := by
  intro d hd d' hd' hcontra
  rw [hadded] at hd hd'
  have hrivals := ((d.contradicts_iff d').mp hcontra).2.2.1
  rcases List.mem_append.mp hd with hold | hnew
  · rcases List.mem_append.mp hd' with hold' | hnew'
    · refine (hc d hold d' hold' hcontra).imp id (fun habout => ?_)
      exact aboutToMark_step c e d.candidate habout
        (fun marked hnext => absurd hnext (hnot marked))
    · rw [List.mem_singleton.mp hnew'] at hcontra hrivals
      exact Or.inr ⟨e.1, row.candidate, hmarks ⟨d, hold, d.contradicts_symm row hcontra⟩,
        d.candidate.rivals_symm _ hrivals⟩
  · rw [List.mem_singleton.mp hnew] at hcontra hrivals ⊢
    rcases List.mem_append.mp hd' with hold' | hnew'
    · refine Or.inr ⟨e.1, row.candidate, hmarks ⟨d', hold', hcontra⟩, ?_⟩
      exact row.candidate.rivals_trans _ _ hrivals (row.candidate.rivals_symm _ hrivals)
    · rw [List.mem_singleton.mp hnew'] at hcontra
      exact absurd rfl ((row.contradicts_iff row).mp hcontra).2.2.2

/-- Once the drafts for one thing are marked, nothing of them is owed. -/
theorem owed_marked (hc : Owed c)
    (hnext : c.next e.1 = some (.markConflicts candidate))
    (hmarked : (stepLearning c e).shared.drafts =
      Table.update (fun d => d.open_ && d.candidate.rivals candidate)
        (fun d => { d with conflict := true }) c.shared.drafts) : Owed (stepLearning c e) := by
  intro d hd d' hd' hcontra
  rw [hmarked] at hd hd'
  rcases Table.mem_update _ _ _ _ hd with ⟨old, hold, hcase⟩
  rcases Table.mem_update _ _ _ _ hd' with ⟨old', hold', hcase'⟩
  have hcontra' : old.contradicts old' = true := by
    rcases hcase with ⟨-, rfl⟩ | ⟨-, rfl⟩ <;> rcases hcase' with ⟨-, rfl⟩ | ⟨-, rfl⟩ <;> exact hcontra
  have hpair := (old.contradicts_iff old').mp hcontra'
  -- Either both are for the marked thing, or neither is.
  rcases hcase with ⟨hp, rfl⟩ | ⟨hp, rfl⟩
  · have hp' : (old'.open_ && old'.candidate.rivals candidate) = true := by
      rw [Bool.and_eq_true] at hp ⊢
      exact ⟨hpair.2.1, old'.candidate.rivals_trans _ _
        (old.candidate.rivals_symm _ hpair.2.2.1) hp.2⟩
    rcases hcase' with ⟨-, rfl⟩ | ⟨hp'', -⟩
    · exact Or.inl ⟨rfl, rfl⟩
    · rw [hp'] at hp''
      cases hp''
  · have hrivals : d.candidate.rivals candidate = false := by
      rw [hpair.1, Bool.true_and] at hp
      exact hp
    rcases hcase' with ⟨hp', -⟩ | ⟨-, rfl⟩
    · rw [Bool.and_eq_true] at hp'
      rw [d.candidate.rivals_trans _ _ hpair.2.2.1 hp'.2] at hrivals
      cases hrivals
    · refine (hc d hold d' hold' hcontra).imp id (fun habout => ?_)
      refine aboutToMark_step c e d.candidate habout (fun marked hnext' => ?_)
      rw [hnext, Option.some.injEq, LearningOp.markConflicts.injEq] at hnext'
      rw [← hnext']
      cases hback : candidate.rivals d.candidate with
      | false => rfl
      | true => rw [candidate.rivals_symm _ hback] at hrivals; cases hrivals

/-- What holds of the calls, whatever they have come to. -/
structure Drafting (c : LearningPool ι (Option String)) : Prop where
  leads : ∀ i, (c.calls i).Leads marking
  about : ∀ i, ∃ F, (c.calls i).Within (About F) (fun _ => True)
  owed : Owed c

/-- A draft that was inserted, and what comes next. -/
theorem owed_commitDraft (i : ι) (w : Outside)
    (record : CompoundingRecord) (row : DraftRow) (hc : Drafting c)
    (hnext : c.next i = some (.commitDraft record row))
    (hheeds : Heeds (.commitDraft record row) w c.shared)
    (hshared : (stepLearning c (i, some w)).shared =
      (store.exec (.commitDraft record row) w c.shared).2) : Owed (stepLearning c (i, some w)) := by
  have hnot : ∀ marked, c.next i ≠ some (.markConflicts marked) := by
    intro marked hmarked
    rw [hnext] at hmarked
    cases hmarked
  by_cases hsame : (store.exec (.commitDraft record row) w c.shared).2 = c.shared
  · exact owed_same c (i, some w) hc.owed (by rw [hshared, hsame]) hnot
  rcases exec_commitDraft record row w c.shared with hsame' | ⟨-, hwritten⟩
  · exact absurd hsame' hsame
  by_cases hadmits : row.admits c.shared.drafts = true
  · refine owed_inserted c (i, some w) row hc.owed ?_ hnot (fun hrival => ?_)
    · rw [hshared, hwritten, if_pos hadmits]
    · -- The draft knows of the conflict, so its call goes on to mark the others.
      rcases hheeds hadmits hrival with ⟨hconflict, hw⟩
      have hok := exec_inserted record row w c.shared hsame hw
      refine stepOrCut_led c i w (.commitDraft record row) _ _ (hc.leads i) hnext hok ?_
      simp only [marking, hadmits, hconflict, Bool.and_self, if_true]
  · refine owed_same c (i, some w) hc.owed ?_ hnot
    rw [hshared, hwritten, if_neg hadmits]

/-- A step keeps what is owed, if it is attentive. -/
theorem owed_step (hc : Drafting c)
    (he : Attentive c e) : Owed (stepLearning c e) := by
  rcases e with ⟨i, _ | w⟩
  · refine owed_same c (i, none) hc.owed rfl (fun marked hmarked => ?_)
    have hnot := he _ hmarked
    cases hnot
  rcases Pool.step_shared store.exec c (i, w) with ⟨hnone, hsame⟩ | ⟨op, hnext, hshared⟩
  · refine owed_same c (i, some w) hc.owed (congrArg LearningDb.drafts hsame) ?_
    intro marked hmarked
    have hnone' : c.next i = none := hnone
    rw [hnone'] at hmarked
    cases hmarked
  · have hheeds : Heeds op w c.shared := he op hnext
    cases hdrafting : op.drafting with
    | false =>
        refine owed_same c (i, some w) hc.owed ?_ ?_
        · exact (congrArg LearningDb.drafts hshared).trans (exec_drafts op w c.shared hdrafting)
        · intro marked hmarked
          have hnext' : c.next i = some op := hnext
          rw [hnext', Option.some.injEq] at hmarked
          rw [hmarked] at hdrafting
          cases hdrafting
    | true =>
        cases op with
        | commitDraft record row => exact owed_commitDraft c i w record row hc hnext hheeds hshared
        | markConflicts candidate =>
            refine owed_marked c (i, some w) candidate hc.owed hnext ?_
            exact (congrArg LearningDb.drafts hshared).trans
              (exec_markConflicts candidate w c.shared hheeds)
        | commitAction record draftId candidate status receipt =>
            rcases hc.about i with ⟨F, hwithin⟩
            exact absurd (Pool.next_within c i _ hwithin hnext) id
        | _ => cases hdrafting

theorem drafting_step (hc : Drafting c) (he : Attentive c e) : Drafting (stepLearning c e) := by
  refine ⟨fun i => stepOrCut_leads c e i (hc.leads i), fun i => ?_, owed_step c e hc he⟩
  rcases hc.about i with ⟨F, hwithin⟩
  exact ⟨F, stepOrCut_within c e i hwithin⟩

end

/-! ## Runs -/

/-- No call is under way: each has not begun, or has ended. -/
def AtRest (candidate : ι → CompoundingCandidate) (now : ι → Nat)
    (c : LearningPool ι (Option String)) : Prop :=
  ∀ i, c.calls i = createDraftIfReady h (candidate i) (fingerprint h (candidate i)) (now i) ∨
    ∃ r, c.calls i = .done r

omit [DecidableEq ι] in
/-- Nobody is about to mark where no call is under way. -/
theorem atRest_next (candidate : ι → CompoundingCandidate) (now : ι → Nat)
    (c : LearningPool ι (Option String)) (hc : AtRest h candidate now c) (i : ι)
    (marked : CompoundingCandidate) : c.next i ≠ some (.markConflicts marked) := by
  intro hnext
  unfold Pool.next at hnext
  rcases hc i with hbegins | ⟨r, hends⟩
  · rw [hbegins] at hnext
    cases hnext
  · rw [hends] at hnext
    cases hnext

/-- In runs that are attentive at each step, drafts that contradict each other are marked
    whenever no call is under way. -/
theorem conflicts_marked (candidate : ι → CompoundingCandidate) (now : ι → Nat)
    (db : LearningDb) (hdb : Symmetric db) (es : List (ι × Option Outside))
    (hes : Run.Along Attentive stepLearning (drafting h candidate now db) es)
    (hrest : AtRest h candidate now (Run.runFrom stepLearning (drafting h candidate now db) es)) :
    Symmetric (Run.runFrom stepLearning (drafting h candidate now db) es).shared := by
  have hbegins : Drafting (drafting h candidate now db) := by
    refine ⟨fun i => createDraftIfReady_leads h _ _ _,
      fun i => ⟨_, createDraftIfReady_about h _ _ _⟩, fun d hd d' hd' hcontra => ?_⟩
    exact Or.inl (hdb d hd d' hd' hcontra)
  have hruns := Run.runFrom_invariant stepLearning Drafting
    (fun c e hc he => drafting_step c e hc he) (drafting h candidate now db) es hbegins hes
  intro d hd d' hd' hcontra
  refine (hruns.owed d hd d' hd' hcontra).resolve_right ?_
  rintro ⟨i, marked, hnext, -⟩
  exact atRest_next h candidate now _ hrest i marked hnext

omit [DecidableEq ι] in
theorem atRest_of_results (candidate : ι → CompoundingCandidate) (now : ι → Nat)
    (c : LearningPool ι (Option String)) (hc : ∀ i, (c.result i).isSome = true) :
    AtRest h candidate now c := by
  intro i
  rcases Option.isSome_iff_exists.mp (hc i) with ⟨r, hr⟩
  exact Or.inr ⟨r, Pool.calls_of_result c i r hr⟩

instance decidableHeeds (op : LearningOp) (w : Outside) (db : LearningDb) :
    Decidable (Heeds op w db) := by
  cases op with
  | commitDraft record row =>
      exact inferInstanceAs (Decidable (row.admits db.drafts = true →
        (∃ d ∈ db.drafts, row.contradicts d = true) → row.conflict = true ∧ w.outcome ≠ .lost))
  | markConflicts candidate => exact inferInstanceAs (Decidable (w.outcome ≠ .refused))
  | _ => exact isTrue trivial

instance decidableAttentive (c : LearningPool ι (Option String)) :
    (e : ι × Option Outside) → Decidable (Attentive c e)
  | (i, some w) => inferInstanceAs (Decidable (∀ op ∈ c.next i, Heeds op w c.shared))
  | (i, none) => inferInstanceAs (Decidable (∀ op ∈ c.next i, op.marks = false))

end Runs

/-! ## Two drafts at once -/

/-- The candidates of two calls, for the same thing. -/
def rivalCandidate (second : Bool) : CompoundingCandidate :=
  .preference "tone" none .personal (if second then "long" else "brief")

/-- Each of them was observed at two points. -/
def rivalObservations : LearningDb :=
  let row (n : String) (second : Bool) : ObservationRow :=
    { observationId := n
      checkpointId := n
      projectId := "project"
      fingerprint := fingerprint sampleEncoding (rivalCandidate second)
      candidate := rivalCandidate second
      pointId := n
      pointContentSha256 := "sha"
      producerClientId := "client"
      acknowledgedAt := 1
      recordId := n }
  { LearningDb.empty with
    observations := [row "1" false, row "2" false, row "3" true, row "4" true] }

def rivalCalls : LearningPool Bool (Option String) :=
  drafting sampleEncoding rivalCandidate (fun _ => 1) rivalObservations

/-- Both calls look for a competitor before either of them inserts its draft. -/
def atOnce : List (Bool × Option Outside) :=
  answeredSteps false 100 7 ++ answeredSteps true 200 7 ++ answeredSteps false 300 1 ++
    answeredSteps true 400 1

/-- Then neither draft is marked. -/
theorem inserted_at_once :
    Symmetric rivalObservations ∧
      AtRest sampleEncoding rivalCandidate (fun _ => 1)
        (Run.runFrom stepLearning rivalCalls atOnce) ∧
      ¬ Symmetric (Run.runFrom stepLearning rivalCalls atOnce).shared := by
  have hrun : Symmetric rivalObservations ∧
      ((Run.runFrom stepLearning rivalCalls atOnce).result false).isSome = true ∧
      ((Run.runFrom stepLearning rivalCalls atOnce).result true).isSome = true ∧
      ¬ Symmetric (Run.runFrom stepLearning rivalCalls atOnce).shared := by
    decide +kernel
  refine ⟨hrun.1, atRest_of_results sampleEncoding _ _ _ (fun i => ?_), hrun.2.2.2⟩
  cases i with
  | false => exact hrun.2.1
  | true => exact hrun.2.2.1

/-- One call after the other. -/
def inTurn : List (Bool × Option Outside) :=
  answeredSteps false 100 8 ++ answeredSteps true 200 9

/-- Where one draft is made after the other, both are marked. -/
theorem conflicts_marked_inTurn :
    Symmetric (Run.runFrom stepLearning rivalCalls inTurn).shared := by
  have hrun : Symmetric rivalObservations ∧ Run.Along Attentive stepLearning rivalCalls inTurn ∧
      ((Run.runFrom stepLearning rivalCalls inTurn).result false).isSome = true ∧
      ((Run.runFrom stepLearning rivalCalls inTurn).result true).isSome = true ∧
      (Run.runFrom stepLearning rivalCalls inTurn).shared.drafts.length = 2 := by
    decide +kernel
  refine conflicts_marked sampleEncoding rivalCandidate (fun _ => 1) rivalObservations hrun.1
    inTurn hrun.2.1 (atRest_of_results sampleEncoding _ _ _ (fun i => ?_))
  cases i with
  | false => exact hrun.2.2.1
  | true => exact hrun.2.2.2.1

end Mdevolved.Learning
