import Mdevolved.Learning.Drafts

/-!
# Observing a Checkpoint Again

A call that was cut off is made again. What it had recorded is passed over then, so that
a draft is left only if there was one already. What it had not recorded it records now,
and goes on to the draft.

The draft may still fail on what is stored under its key. A body that was put there by a
call that came no further says what was true then, and a different one is not put over it.
So a call that goes on to the draft leaves one if it returns.

## Main definitions

* `Reports`: A checkpoint reports a fingerprint.
* `again`: Observing it by itself.

## Theorems

* `recorded_drafts_iff`: Where the fingerprint was recorded.
* `unrecorded_drafts`: Where it was not.
* `drafts_of_run`: What holds in every run, and after it.
* `cut_off_drafts_nothing`: A run after which there is no draft.
-/

namespace Mdevolved.Learning

open Batch (Outcome written)
open Interface (Returns)
open Process

/-- A checkpoint reports a fingerprint. -/
def Reports (h : Encoding) (input : CheckpointObservationInput) (F : String) : Prop :=
  ∃ signals, input.learningSignals = some signals ∧
    ∃ signal ∈ signals, fingerprint h (candidateFromSignal signal) = F

/-- What observing a checkpoint by itself ends with, and leaves. -/
def again (h : Encoding) (input : CheckpointObservationInput) (ws : ℕ → Outside)
    (db : LearningDb) : Except LearningError CompoundingObservationResult × LearningDb :=
  finish store.exec (observeCompoundingCheckpoint h input) ws db

/-! ## What was recorded -/

theorem hasDraft_iff (F : String) (db : LearningDb) :
    HasDraft F db ↔ F ∈ db.drafts.map DraftRow.fingerprint := by
  simp only [HasDraft, List.mem_map]

theorem recorded_grows (checkpointId F : String) (s t : LearningDb) (h : Grows s t)
    (hs : Recorded checkpointId F s) : Recorded checkpointId F t := by
  rcases hs with ⟨o, ho, hmatch⟩
  exact ⟨o, h.subset ho, hmatch⟩

/-- Requests that insert nothing of a fingerprint, and act on no draft. -/
def Elsewhere (F : String) : LearningOp → Prop
  | .commitObservation _ row => row.fingerprint ≠ F
  | .commitDraft _ row => row.fingerprint ≠ F
  | .commitAction _ _ _ _ _ => False
  | _ => True

theorem elsewhere_of_about (F G : String) (hne : G ≠ F) (op : LearningOp) (h : About G op) :
    Elsewhere F op := by
  cases op with
  | commitObservation record row =>
      have hrow : row.fingerprint = G := h
      exact fun heq => hne (hrow.symm.trans heq)
  | commitDraft record row =>
      have hrow : row.fingerprint = G := h
      exact fun heq => hne (hrow.symm.trans heq)
  | commitAction record draftId candidate status receipt => exact h
  | _ => exact trivial

theorem exec_hasDraft (F : String) (op : LearningOp) (hop : Elsewhere F op) (w : Outside)
    (db : LearningDb) : HasDraft F (store.exec op w db).2 ↔ HasDraft F db := by
  rw [hasDraft_iff, hasDraft_iff]
  rcases exec_fingerprints op w db with hsame | ⟨record, row, rfl, -, hadded⟩
  · rw [hsame]
  · have hrow : row.fingerprint ≠ F := hop
    rw [hadded, List.map_append, List.mem_append, List.map_singleton, List.mem_singleton]
    exact or_iff_left hrow.symm

section Recorded

variable (h : Encoding) (F : String) (b : Prop)

/-- A fingerprint was recorded with a checkpoint, and has a draft or not. -/
def Passed (checkpointId : String) (db : LearningDb) : Prop :=
  Recorded checkpointId F db ∧ (HasDraft F db ↔ b)

abbrev PassesOver {α : Type} (checkpointId : String) (p : LearningCalls α) (db : LearningDb) :
    Prop :=
  p.Meets store.exec (fun _ _ _ => True) (Passed F b checkpointId) Eq
    (fun op _ => Elsewhere F op) (fun _ _ => True) db

theorem exec_passed (checkpointId : String) (op : LearningOp) (w : Outside) (db : LearningDb)
    (hdb : Passed F b checkpointId db) (hop : Elsewhere F op) :
    Passed F b checkpointId (store.exec op w db).2 := by
  refine ⟨recorded_grows checkpointId F db _ (exec_grows op w db) hdb.1, ?_⟩
  rw [exec_hasDraft F op hop w db]
  exact hdb.2

theorem passesOver_bind {α β : Type} {checkpointId : String} (f : α → LearningCalls β)
    (p : LearningCalls α) (db : LearningDb) (hp : PassesOver F b checkpointId p db)
    (hf : ∀ a db, PassesOver F b checkpointId (f a) db) :
    PassesOver F b checkpointId (p >>= f) db := by
  refine meets_bind f p db (meets_mono (fun _ _ hop => hop) (fun r t _ => ?_) p db hp)
  cases r with
  | ok a => exact hf a t
  | error e => exact trivial

section

variable (input : CheckpointObservationInput)

theorem observeSignal_passesOver (signal : LearningSignal)
    (db : LearningDb) :
    PassesOver F b input.checkpointId (observeSignal h input signal) db := by
  by_cases hF : fingerprint h (candidateFromSignal signal) = F
  · unfold observeSignal
    refine meets_ite (fun _ => trivial) (fun _ => ?_)
    refine meets_request (LearningOp.findObservation input.checkpointId _) _ db (fun t ht _ =>
      ⟨trivial, fun w _ => ⟨fun (existing : Option String) hread => ?_, fun _ _ => trivial⟩⟩)
    -- The observation that was recorded is found.
    have hfound := (store.exec_ok (.findObservation input.checkpointId _) w t existing hread).1
    have hsome : existing.isSome = true := by
      rw [← Except.ok.inj hfound, Option.isSome_map, List.find?_isSome]
      rcases ht.1 with ⟨o, ho, hcheckpoint, hmatch⟩
      refine ⟨o, ho, ?_⟩
      simp only [hcheckpoint, hmatch, hF, decide_true, Bool.and_self]
    rw [if_pos hsome]
    exact trivial
  · exact meets_of_within (fun _ => True) (fun _ _ _ _ => trivial)
      (fun _ _ _ _ _ _ _ => trivial) (fun op _ _ _ hop => elsewhere_of_about F _ hF op hop) (fun _ _ _ => trivial) _
      db trivial (observeSignal_about h input signal)

theorem observeSignals_passesOver (signals : List LearningSignal) (result : CompoundingObservationResult) (db : LearningDb) :
    PassesOver F b input.checkpointId (observeSignals h input signals result) db := by
  induction signals generalizing result db with
  | nil => exact trivial
  | cons signal signals ih =>
      exact passesOver_bind F b _ _ db (observeSignal_passesOver h F b input signal db)
        (fun outcome db => ih (result.add outcome) db)

/-- Observing a checkpoint again leaves a draft of what it had recorded exactly if there
    was one. -/
theorem recorded_drafts_iff (ws : ℕ → Outside)
    (db : LearningDb) (hdb : Recorded input.checkpointId F db) :
    HasDraft F (again h input ws db).2 ↔ HasDraft F db := by
  have hmeets : PassesOver F (HasDraft F db) input.checkpointId
      (observeCompoundingCheckpoint h input) db := by
    unfold observeCompoundingCheckpoint
    split
    · exact trivial
    · refine meets_ite (fun _ => trivial) (fun _ => ?_)
      refine passesOver_bind F _ _ _ db (fun t _ _ => ⟨trivial, fun _ _ => trivial⟩)
        (fun active db => ?_)
      exact meets_ite (fun _ => trivial)
        (fun _ => observeSignals_passesOver h F _ input _ _ db)
  exact (meets_finish (fun op w s hs hop _ => exec_passed F _ _ op w s hs hop) _ ws db
    ⟨hdb, Iff.rfl⟩ hmeets (takenAll_of_forall (P := fun _ => True) _ ws db (fun _ => trivial))).1.2

end

end Recorded

/-! ## What was not recorded -/

section Unrecorded

variable (h : Encoding) (F : String)

/-- No draft of another fingerprint has the ids of the draft of this one. -/
def OwnIds (db : LearningDb) : Prop :=
  ∀ d ∈ db.drafts, d.draftId = deterministicUuid h "draft" F ∨
    d.currentRecordId = draftRecordId h F → d.fingerprint = F

/-- There is a draft, unless its ids are taken. -/
def Drafted (db : LearningDb) : Prop :=
  OwnIds h F db → HasDraft F db

def DraftRow.ids (d : DraftRow) : String × String × String :=
  (d.draftId, d.currentRecordId, d.fingerprint)

section

variable (draft : CompoundingDraft) (op : LearningOp) (input : CheckpointObservationInput)

/-- Drafts that are not acted on keep their ids. -/
theorem exec_ids (hop : Elsewhere F op) (w : Outside) (db : LearningDb) :
    db.drafts.map DraftRow.ids <+: (store.exec op w db).2.drafts.map DraftRow.ids := by
  cases hdrafting : op.drafting with
  | false => rw [exec_drafts op w db hdrafting]
  | true =>
      cases op with
      | commitDraft record row =>
          rcases exec_commitDraft record row w db with hsame | ⟨-, hwritten⟩
          · rw [hsame]
          · rw [hwritten]
            by_cases hadmits : row.admits db.drafts = true
            · rw [if_pos hadmits, List.map_append]
              exact List.prefix_append _ _
            · rw [if_neg hadmits]
      | markConflicts candidate =>
          rcases store.exec_cases (.markConflicts candidate) w db with hsame | ⟨-, hwritten⟩
          · rw [hsame]
          · rw [hwritten]
            have hids : (written (store.writes (.markConflicts candidate) w) db).drafts.map
                DraftRow.ids = db.drafts.map DraftRow.ids := by
              refine Table.map_update DraftRow.ids
                (fun d => d.open_ && d.candidate.rivals candidate) _ ?_ db.drafts
              exact fun _ => rfl
            rw [hids]
      | commitAction record draftId candidate status receipt => exact absurd hop id
      | _ => cases hdrafting

theorem ownIds_of_grown (s t : LearningDb)
    (hids : s.drafts.map DraftRow.ids <+: t.drafts.map DraftRow.ids) (ht : OwnIds h F t) :
    OwnIds h F s := by
  intro d hd hmatch
  rcases List.mem_map.mp (hids.subset (List.mem_map_of_mem hd)) with ⟨d', hd', heq⟩
  simp only [DraftRow.ids, Prod.mk.injEq] at heq
  rw [← heq.2.2]
  refine ht d' hd' ?_
  rw [heq.1, heq.2.1]
  exact hmatch

theorem exec_drafted (hop : Elsewhere F op) (w : Outside) (db : LearningDb)
    (hdb : Drafted h F db) : Drafted h F (store.exec op w db).2 := by
  intro hids
  rw [exec_hasDraft F op hop w db]
  exact hdb (ownIds_of_grown h F db _ (exec_ids F op hop w db) hids)

/-- Nor do others come in between: what a call leaves that returns. -/
abbrev Leaves {α : Type} (Q : α → LearningDb → Prop) (p : LearningCalls α) (db : LearningDb) :
    Prop :=
  p.Meets store.exec (fun _ _ _ => True) (fun _ => True) Eq (fun _ _ => True) (Returns Q) db

/-- A request that only reads is gone on from in the same state. -/
theorem leaves_read {β : Type} {Q : β → LearningDb → Prop} (op : LearningOp)
    (f : op.Ret → LearningCalls β) (db : LearningDb) (hwrites : ∀ w, store.writes op w = [])
    (hf : ∀ w r, op.answer w db = .ok r → Leaves Q (f r) db) : Leaves Q (ask op >>= f) db := by
  refine meets_request op f db ?_
  rintro t - rfl
  refine ⟨trivial, fun w _ => ⟨fun r hr => ?_, fun _ _ => trivial⟩⟩
  rw [store.exec_read op w db (hwrites w)]
  exact hf w r (store.exec_ok op w db r hr).1

/-- What requests about other fingerprints keep, a call that makes no others keeps. -/
theorem leaves_kept {α : Type} {T : α → Prop} (K : LearningDb → Prop) (A : LearningOp → Prop)
    (hK : ∀ op, A op → ∀ w db, K db → K (store.exec op w db).2) (p : LearningCalls α)
    (db : LearningDb) (hdb : K db) (hp : p.Within A T) : Leaves (fun _ t => K t) p db := by
  induction p generalizing db with
  | done r =>
      cases r with
      | ok a => exact hdb
      | error e => exact trivial
  | call op next ih =>
      rintro t - rfl
      exact ⟨trivial, fun w _ => ih _ _ (hK op hp.1 w db hdb) (hp.2 _)⟩

/-- A draft that cannot be inserted is there already. -/
theorem hasDraft_of_refused (hid : draft.draftId = deterministicUuid h "draft" draft.fingerprint)
    (horder : draft.firstObservedAt ≤ draft.lastObservedAt) (db : LearningDb)
    (hrefused : (draftRow h draft).admits db.drafts = false) :
    Drafted h draft.fingerprint db := by
  intro hids
  have hall : (db.drafts.all fun t => t.draftId ≠ draft.draftId &&
      t.fingerprint ≠ draft.fingerprint &&
      t.currentRecordId ≠ draftRecordId h draft.fingerprint) = false := by
    have horder' : decide ((draftRow h draft).firstObservedAt ≤
        (draftRow h draft).lastObservedAt) = true := decide_eq_true horder
    unfold DraftRow.admits at hrefused
    rwa [horder', Bool.and_true] at hrefused
  rcases List.all_eq_false.mp hall with ⟨d, hd, hclash⟩
  simp only [Bool.and_eq_true, decide_eq_true_eq, not_and_or, not_not] at hclash
  rcases hclash with (hdraft | hfingerprint) | hrecord
  · exact ⟨d, hd, hids d hd (Or.inl (hdraft.trans hid))⟩
  · exact ⟨d, hd, hfingerprint⟩
  · exact ⟨d, hd, hids d hd (Or.inr hrecord)⟩

theorem commitDraft_leaves (stored : StoredBody) (now : Nat)
    (hid : draft.draftId = deterministicUuid h "draft" draft.fingerprint)
    (horder : draft.firstObservedAt ≤ draft.lastObservedAt) (db : LearningDb) :
    Leaves (fun _ t => Drafted h draft.fingerprint t) (commitDraft h draft stored now) db := by
  unfold commitDraft
  refine meets_tryCatch _ _ db ?_
  rintro t - rfl
  refine ⟨trivial, fun w _ => ?_⟩
  cases hr : (store.exec (.commitDraft (draftRecord h draft stored now) (draftRow h draft)) w
    db).1 with
  | ok inserted =>
      have hdone := store.exec_ok (.commitDraft (draftRecord h draft stored now)
        (draftRow h draft)) w db inserted hr
      rw [hdone.2.2, written_commitDraft]
      by_cases hadmits : (draftRow h draft).admits db.drafts = true
      · intro _
        rw [if_pos hadmits]
        exact ⟨draftRow h draft, List.mem_append_right _ List.mem_cons_self, rfl⟩
      · rw [if_neg hadmits]
        exact hasDraft_of_refused h draft hid horder db (Bool.not_eq_true _ ▸ hadmits)
  | error e =>
      unfold unlessDrafted
      refine leaves_read (.draftOf draft.fingerprint) _ _ (fun _ => rfl)
        (fun w' winner hread => ?_)
      refine meets_ite (fun hwinner _ => ?_) (fun _ => trivial)
      rw [← Except.ok.inj hread, List.find?_isSome] at hwinner
      rcases hwinner with ⟨d, hd, hmatch⟩
      exact ⟨d, hd, of_decide_eq_true hmatch⟩

theorem insertDraft_leaves (now : Nat)
    (hid : draft.draftId = deterministicUuid h "draft" draft.fingerprint)
    (horder : draft.firstObservedAt ≤ draft.lastObservedAt) (db : LearningDb) :
    Leaves (fun _ t => Drafted h draft.fingerprint t) (insertDraft h draft now) db := by
  unfold insertDraft
  refine Interface.meets_then (M := fun _ _ => True)
    (Interface.meets_anyhow (fun _ _ => trivial) _ db (fun _ _ => trivial)) (fun stored t _ => ?_)
  refine Interface.meets_then (commitDraft_leaves h draft stored now hid horder t)
    (fun inserted u hu => ?_)
  exact leaves_kept _ (Elsewhere draft.fingerprint)
    (fun op hop w db hdb => exec_drafted h draft.fingerprint op hop w db hdb) _ u hu
    (markCompetitors_within draft inserted trivial)

/-- An observation that is not later than another. -/
abbrev Earlier (o o' : ObservationRow) : Prop :=
  Table.Ranks o.acknowledgedAt o.observationId o'.acknowledgedAt o'.observationId

theorem earlier_acknowledged (o o' : ObservationRow) (h : Earlier o o') :
    o.acknowledgedAt ≤ o'.acknowledgedAt :=
  h.elim Nat.le_of_lt (fun hsame => hsame.1.le)

instance earlierTotal : Std.Total Earlier := by
  refine ⟨fun o o' => ?_⟩
  rcases lt_trichotomy o.acknowledgedAt o'.acknowledgedAt with h | h | h
  · exact Or.inl (Or.inl h)
  · exact (le_total o.observationId o'.observationId).imp (fun hid => Or.inr ⟨h, hid⟩)
      (fun hid => Or.inr ⟨h.symm, hid⟩)
  · exact Or.inr (Or.inl h)

instance earlierTrans : IsTrans ObservationRow Earlier := by
  refine ⟨fun a b c hab hbc => ?_⟩
  rcases hab with hab | ⟨hab, hid⟩
  · exact Or.inl (lt_of_lt_of_le hab (earlier_acknowledged b c hbc))
  · rcases hbc with hbc | ⟨hbc, hid'⟩
    · exact Or.inl (hab ▸ hbc)
    · exact Or.inr ⟨hab.trans hbc, hid.trans hid'⟩

/-- Of what was observed twice two pieces of evidence are found, the earlier one first. -/
theorem evidenceFor_two (db : LearningDb) (hdb : ObservedTwice F db) :
    ∃ e e', (db.evidenceFor F).take 2 = [e, e'] ∧ e.acknowledgedAt ≤ e'.acknowledgedAt := by
  rw [observedTwice_iff] at hdb
  have hlength : 2 ≤ ((db.observations.filter (fun o => o.fingerprint = F)).insertionSort
      Earlier).length := by
    have hdedup := (List.dedup_sublist (db.pointsOf F)).length_le
    rw [LearningDb.pointsOf, List.length_map] at hdedup
    rw [List.length_insertionSort]
    exact hdb.trans hdedup
  have hsorted := List.pairwise_insertionSort Earlier
    (db.observations.filter (fun o => o.fingerprint = F))
  unfold LearningDb.evidenceFor
  generalize (db.observations.filter (fun o => o.fingerprint = F)).insertionSort Earlier =
    sorted at hlength hsorted ⊢
  rcases sorted with _ | ⟨o, _ | ⟨o', rest⟩⟩
  · exact absurd hlength (by decide)
  · exact absurd hlength (by simp only [List.length_singleton]; omega)
  · refine ⟨o.evidence, o'.evidence, rfl, ?_⟩
    exact earlier_acknowledged o o' (List.rel_of_pairwise_cons hsorted List.mem_cons_self)

theorem createDraft_leaves (candidate : CompoundingCandidate) (now : Nat) (db : LearningDb)
    (hdb : ObservedTwice F db) :
    Leaves (fun _ t => Drafted h F t) (createDraft h candidate F now) db := by
  rcases evidenceFor_two F db hdb with ⟨e, e', htake, horder⟩
  unfold createDraft
  refine leaves_read (.evidenceFor F) _ db (fun _ => rfl) (fun _ found hread => ?_)
  rw [← Except.ok.inj hread, htake]
  refine meets_ite (fun hfew => absurd hfew (Nat.lt_irrefl 2)) (fun _ => ?_)
  refine leaves_read (.competitors candidate) _ db (fun _ => rfl) (fun _ competing _ => ?_)
  have hid : (draftFor h candidate F (competing.any (fun f => f ≠ F)) [e, e'] now).draftId =
      deterministicUuid h "draft" F := by
    rw [draftFor]
  exact insertDraft_leaves h (draftFor h candidate F (competing.any (fun f => f ≠ F)) [e, e'] now)
    now hid horder db

theorem createDraftIfReady_leaves (candidate : CompoundingCandidate) (now : Nat)
    (db : LearningDb) :
    Leaves (fun _ t => ObservedTwice F t → Drafted h F t) (createDraftIfReady h candidate F now)
      db := by
  unfold createDraftIfReady
  refine leaves_read (.countPoints F) _ db (fun _ => rfl) (fun _ (points : Nat) hread => ?_)
  have hcount : points = db.distinctPoints F := (Except.ok.inj hread).symm
  refine meets_ite (fun hfew htwice => ?_) (fun hready => ?_)
  · rw [observedTwice_iff] at htwice
    omega
  refine leaves_read (.draftOf F) _ db (fun _ => rfl) (fun _ existing hread => ?_)
  refine meets_ite (fun hexists _ _ => ?_) (fun _ => ?_)
  · rw [← Except.ok.inj hread, List.find?_isSome] at hexists
    rcases hexists with ⟨d, hd, hmatch⟩
    exact ⟨d, hd, of_decide_eq_true hmatch⟩
  refine leaves_read .countPending _ db (fun _ => rfl) (fun _ (pending : Nat) _ => ?_)
  refine meets_ite (fun _ => trivial) (fun _ => ?_)
  have htwice : ObservedTwice F db := by
    rw [observedTwice_iff]
    omega
  refine Process.meets_mono (fun _ _ hop => hop) (fun r t hr => ?_) _ db
    (createDraft_leaves h F candidate now db htwice)
  cases r with
  | ok a => exact fun _ => hr
  | error e => exact trivial

/-- What was observed twice is drafted. -/
def Settled (db : LearningDb) : Prop :=
  ObservedTwice F db → Drafted h F db

/-- Requests about other fingerprints add no observation of this one. -/
theorem exec_observation (hop : Elsewhere F op) (w : Outside) (db : LearningDb)
    (o : ObservationRow) (ho : o ∈ (store.exec op w db).2.observations)
    (hF : o.fingerprint = F) : o ∈ db.observations := by
  rcases exec_observations op w db with hsame | ⟨record, row, rfl, -, hadded⟩
  · rwa [hsame] at ho
  · rw [hadded] at ho
    rcases List.mem_append.mp ho with hold | hnew
    · exact hold
    · rw [List.mem_singleton.mp hnew] at hF
      exact absurd hF hop

theorem exec_settled (hop : Elsewhere F op) (w : Outside) (db : LearningDb)
    (hdb : Settled h F db) : Settled h F (store.exec op w db).2 := by
  rintro ⟨o, ho, o', ho', hF, hF', hpoints⟩
  refine exec_drafted h F op hop w db (hdb ⟨o, ?_, o', ?_, hF, hF', hpoints⟩)
  · exact exec_observation F op hop w db o ho hF
  · exact exec_observation F op hop w db o' ho' hF'

theorem exec_unrecorded (checkpointId : String) (op : LearningOp) (hop : Elsewhere F op)
    (w : Outside) (db : LearningDb) (hdb : ¬ Recorded checkpointId F db) :
    ¬ Recorded checkpointId F (store.exec op w db).2 := by
  rintro ⟨o, ho, hcheckpoint, hF⟩
  exact hdb ⟨o, exec_observation F op hop w db o ho hF, hcheckpoint, hF⟩

/-- A signal that is not recorded yet is recorded, and goes on to its draft. -/
theorem observeSignal_leaves (signal : LearningSignal)
    (hF : fingerprint h (candidateFromSignal signal) = F) (db : LearningDb)
    (hdb : Settled h F db ∨ ¬ Recorded input.checkpointId F db) :
    Leaves (fun _ t => Settled h F t) (observeSignal h input signal) db := by
  unfold observeSignal
  refine meets_ite (fun _ => trivial) (fun _ => ?_)
  dsimp only
  rw [hF]
  refine leaves_read (.findObservation input.checkpointId F) _ db (fun _ => rfl)
    (fun _ existing hread => ?_)
  refine meets_ite (fun hfound => ?_) (fun _ => ?_)
  · refine hdb.resolve_right (fun hnot => hnot ?_)
    rw [← Except.ok.inj hread, Option.isSome_map, List.find?_isSome] at hfound
    rcases hfound with ⟨o, ho, hmatch⟩
    simp only [Bool.and_eq_true, decide_eq_true_eq] at hmatch
    exact ⟨o, ho, hmatch⟩
  · refine Interface.meets_then (M := fun _ _ => True)
      (Interface.meets_anyhow (fun _ _ => trivial) _ db (fun _ _ => trivial)) (fun _ t _ => ?_)
    exact Interface.meets_then (createDraftIfReady_leaves h F _ _ t) (fun _ _ hu => hu)

theorem observeSignals_leaves (signals : List LearningSignal) (result : CompoundingObservationResult) (db : LearningDb)
    (hdb : Settled h F db ∨ (¬ Recorded input.checkpointId F db ∧
      ∃ signal ∈ signals, fingerprint h (candidateFromSignal signal) = F)) :
    Leaves (fun _ t => Settled h F t) (observeSignals h input signals result) db := by
  induction signals generalizing result db with
  | nil =>
      refine hdb.resolve_right ?_
      rintro ⟨-, signal, hsignal, -⟩
      exact List.not_mem_nil hsignal
  | cons signal signals ih =>
      unfold observeSignals
      by_cases hF : fingerprint h (candidateFromSignal signal) = F
      · refine Interface.meets_then
          (observeSignal_leaves h F input signal hF db (hdb.imp id (fun hnot => hnot.1)))
          (fun outcome t ht => ih _ t (Or.inl ht))
      · have helsewhere := within_mono (fun op hop => elsewhere_of_about F _ hF op hop) _
          (observeSignal_about h input signal)
        rcases hdb with hsettled | ⟨hnot, other, hother, hmatch⟩
        · exact Interface.meets_then (leaves_kept (Settled h F) (Elsewhere F)
            (fun op hop w db hdb => exec_settled h F op hop w db hdb) _ db hsettled helsewhere)
            (fun outcome t ht => ih _ t (Or.inl ht))
        · have hlater := (List.mem_cons.mp hother).resolve_left
            (fun heq => hF (heq ▸ hmatch))
          exact Interface.meets_then
            (leaves_kept (fun t => ¬ Recorded input.checkpointId F t) (Elsewhere F)
              (fun op hop w db hdb => exec_unrecorded F _ op hop w db hdb) _ db hnot helsewhere)
            (fun outcome t ht => ih _ t (Or.inr ⟨ht, other, hlater, hmatch⟩))

/-- Observing a checkpoint that had not recorded a fingerprint leaves a draft of it where it
    has been observed twice then, if the call returns. -/
theorem unrecorded_drafts (ws : ℕ → Outside)
    (db : LearningDb) (hreports : Reports h input F)
    (hdb : ¬ Recorded input.checkpointId F db) (result : CompoundingObservationResult)
    (hreturns : (again h input ws db).1 = .ok result) (htwice : ObservedTwice F (again h input ws db).2)
    (hids : OwnIds h F (again h input ws db).2) : HasDraft F (again h input ws db).2 := by
  rcases hreports with ⟨signals, hsignals, hsignal⟩
  have hmeets : Leaves (fun _ t => Settled h F t) (observeCompoundingCheckpoint h input) db := by
    unfold observeCompoundingCheckpoint
    rw [hsignals]
    refine meets_ite (fun _ => trivial) (fun _ => ?_)
    refine leaves_read (.activeProjectExists input.projectId) _ db (fun _ => rfl)
      (fun _ active _ => ?_)
    exact meets_ite (fun _ => trivial)
      (fun _ => observeSignals_leaves h F input signals _ db (Or.inr ⟨hdb, hsignal⟩))
  have hends := (meets_finish (fun _ _ _ _ _ _ => trivial) _ ws db trivial hmeets
    (takenAll_of_forall (P := fun _ => True) _ ws db (fun _ => trivial))).2
  unfold again at hreturns htwice hids ⊢
  rw [hreturns] at hends
  exact hends htwice hids

end

end Unrecorded

/-! ## Runs -/

section Runs

variable {ι : Type} [DecidableEq ι] (h : Encoding)

/-- Whatever calls there are and wherever they are cut off, what they leave is founded, and
    observing a checkpoint once more leaves a draft of what it had recorded exactly if there
    is one. What it had not recorded it drafts, if it returns. -/
theorem drafts_of_run (inputs : ι → CheckpointObservationInput) (db : LearningDb)
    (hdb : Founded db) (es : List (ι × Option Outside)) :
    Founded (observed h inputs db es) ∧
      ∀ input F ws,
        (Recorded input.checkpointId F (observed h inputs db es) →
          (HasDraft F (again h input ws (observed h inputs db es)).2 ↔
            HasDraft F (observed h inputs db es))) ∧
        (¬ Recorded input.checkpointId F (observed h inputs db es) → Reports h input F →
          (∃ result, (again h input ws (observed h inputs db es)).1 = .ok result) →
          OwnIds h F (again h input ws (observed h inputs db es)).2 →
          ObservedTwice F (again h input ws (observed h inputs db es)).2 →
          HasDraft F (again h input ws (observed h inputs db es)).2) := by
  refine ⟨founded_run h inputs db hdb es, fun input F ws => ⟨?_, ?_⟩⟩
  · exact recorded_drafts_iff h F input ws (observed h inputs db es)
  · rintro hnot hreports ⟨result, hreturns⟩ hids htwice
    exact unrecorded_drafts h F input ws _ hreports hnot result hreturns htwice hids

end Runs

/-! ## A run that is cut off -/

def hexDigit (n : Nat) : Char :=
  ['0', '1', '2', '3', '4', '5', '6', '7', '8', '9', 'a', 'b', 'c', 'd', 'e', 'f'].getD n '0'

/-- A hash of 64 digits that tells short texts apart. -/
def shortHash (text : String) : String :=
  let n := text.toUTF8.data.toList.foldl (fun n byte => (n * 65599 + byte.toNat) % 2 ^ 256) 7
  String.ofList ((List.range 64).map (fun i => hexDigit (n / 16 ^ i % 16)))

/-- What tells bodies apart that are stored under different keys. -/
def Body.label : Body → String
  | observation _ _ _ _ recordId => recordId
  | draft _ suggested recordId => recordId ++ ":" ++ toString suggested.conflict
  | preferenceVersion _ _ _ recordId _ _ value => recordId ++ ":" ++ value
  | preferenceDeleted _ _ recordId => recordId
  | skillVersion _ _ _ recordId _ => recordId
  | skillDeleted recordId _ => recordId
  | skillAttached _ _ recordId _ _ => recordId

def sampleEncoding : Encoding :=
  { sha256Hex := shortHash
    bodySha256 := fun body => shortHash body.label
    bodyLength := fun body => body.label.length
    containsCredential := fun _ => false
    skillMetadata := fun _ => .ok { description := "d", name := "n" }
    base64Utf8 := id }

def sampleSignal (value : String) : LearningSignal :=
  { content := .preference "tone" none .personal value
    agrees := by simp [CompoundingCandidate.scope, CompoundingCandidate.projectId] }

def sampleCheckpoint (checkpointId : String) (value : String) : CheckpointObservationInput :=
  { acknowledgedAt := 1
    checkpointId := checkpointId
    learningSignals := some [sampleSignal value]
    pointContentSha256 := "sha"
    producerClientId := "client"
    projectId := "project" }

def sampleOutside (n : Nat) : Outside :=
  { outcome := .answered, active := true, uuid := toString n, now := 5 }

/-- Requests of one call that are answered, each with an id of its own. -/
def answeredSteps {ι : Type} (i : ι) (first count : Nat) : List (ι × Option Outside) :=
  (List.range count).map (fun n => (i, some (sampleOutside (first + n))))

/-- The second of two checkpoints is cut off after its observation. -/
def cutOffRun : List (Bool × Option Outside) :=
  answeredSteps false 100 9 ++ answeredSteps true 200 8 ++ [(true, none)]

def cutOffInputs (second : Bool) : CheckpointObservationInput :=
  sampleCheckpoint (if second then "point-2" else "point-1") "brief"

def sampleFingerprint : String :=
  fingerprint sampleEncoding (.preference "tone" none .personal "brief")

instance decidableHasDraft (F : String) (db : LearningDb) : Decidable (HasDraft F db) :=
  inferInstanceAs (Decidable (∃ d ∈ db.drafts, d.fingerprint = F))

instance decidableObservedTwice (F : String) (db : LearningDb) :
    Decidable (ObservedTwice F db) :=
  inferInstanceAs (Decidable (∃ o ∈ db.observations, ∃ o' ∈ db.observations,
    o.fingerprint = F ∧ o'.fingerprint = F ∧ o.pointId ≠ o'.pointId))

instance decidableRecorded (checkpointId F : String) (db : LearningDb) :
    Decidable (Recorded checkpointId F db) :=
  inferInstanceAs (Decidable (∃ o ∈ db.observations,
    o.checkpointId = checkpointId ∧ o.fingerprint = F))

instance decidableOwnIds (h : Encoding) (F : String) (db : LearningDb) :
    Decidable (OwnIds h F db) :=
  inferInstanceAs (Decidable (∀ d ∈ db.drafts, d.draftId = deterministicUuid h "draft" F ∨
    d.currentRecordId = draftRecordId h F → d.fingerprint = F))

/-- Both points are recorded, and observing the second once more returns without a draft. -/
theorem cut_off_drafts_nothing :
    ObservedTwice sampleFingerprint (observed sampleEncoding cutOffInputs .empty cutOffRun) ∧
      (observed sampleEncoding cutOffInputs .empty cutOffRun).drafts.countP DraftRow.open_ <
        maxPendingDrafts ∧
      (again sampleEncoding (cutOffInputs true) sampleOutside
        (observed sampleEncoding cutOffInputs .empty cutOffRun)).1 =
          .ok { createdDraftIds := [], observed := 0 } ∧
      ¬ HasDraft sampleFingerprint (again sampleEncoding (cutOffInputs true) sampleOutside
        (observed sampleEncoding cutOffInputs .empty cutOffRun)).2 := by
  decide +kernel

/-- The second of two checkpoints is cut off before its observation. -/
def unrecordedRun : List (Bool × Option Outside) :=
  answeredSteps false 100 9 ++ answeredSteps true 200 7 ++ [(true, none)]

/-- Then observing it once more leaves a draft. -/
theorem drafts_of_cut_off_run :
    Founded (observed sampleEncoding cutOffInputs .empty cutOffRun) ∧
      HasDraft sampleFingerprint (again sampleEncoding (cutOffInputs true) sampleOutside
        (observed sampleEncoding cutOffInputs .empty unrecordedRun)).2 := by
  refine ⟨(drafts_of_run sampleEncoding cutOffInputs .empty founded_empty cutOffRun).1, ?_⟩
  have hrun := drafts_of_run sampleEncoding cutOffInputs .empty founded_empty unrecordedRun
  have hends :
      ¬ Recorded "point-2" sampleFingerprint (observed sampleEncoding cutOffInputs .empty unrecordedRun) ∧
      (again sampleEncoding (cutOffInputs true) sampleOutside
        (observed sampleEncoding cutOffInputs .empty unrecordedRun)).1 =
        .ok { createdDraftIds := [deterministicUuid sampleEncoding "draft" sampleFingerprint]
              observed := 1 } ∧
      OwnIds sampleEncoding sampleFingerprint (again sampleEncoding (cutOffInputs true)
        sampleOutside (observed sampleEncoding cutOffInputs .empty unrecordedRun)).2 ∧
      ObservedTwice sampleFingerprint (again sampleEncoding (cutOffInputs true) sampleOutside
        (observed sampleEncoding cutOffInputs .empty unrecordedRun)).2 := by
    decide +kernel
  exact (hrun.2 (cutOffInputs true) sampleFingerprint sampleOutside).2 hends.1
    ⟨_, rfl, sampleSignal "brief", List.mem_cons_self, rfl⟩ ⟨_, hends.2.1⟩ hends.2.2.1 hends.2.2.2

end Mdevolved.Learning
