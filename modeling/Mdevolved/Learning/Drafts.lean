import Mdevolved.Learning.Observe

/-!
# Drafts of What Was Observed Twice

Whatever calls observe checkpoints, however they overlap and wherever they are cut off: a
checkpoint has one observation of a fingerprint, a fingerprint has one draft, and a draft
has two points behind it. The tables see to the first two. The last holds because
observations only grow, so that what was counted is still there when the draft is inserted.

## Main definitions

* `HasDraft`, `Recorded`, `ObservedTwice`: What is there of a fingerprint.
* `Founded`: What holds of observations and drafts.
* `About`: The requests that concern one fingerprint.
* `observing`, `observed`: Calls that observe checkpoints, and what a run of them leaves.

## Theorems

* `exec_observations`, `exec_fingerprints`: What a request does to observations and drafts.
* `observeSignal_about`: What is requested for a signal.
* `observeCompoundingCheckpoint_lawful`: Drafts are inserted of what was observed twice.
* `founded_run`: What holds of them in every run.
-/

namespace Mdevolved.Learning

open Batch (Passes written)
open Interface (Returns)

/-! ## What requests do to observations and drafts -/

/-- A fingerprint has a draft. -/
def HasDraft (fingerprint : String) (db : LearningDb) : Prop :=
  ∃ d ∈ db.drafts, d.fingerprint = fingerprint

/-- A checkpoint has an observation of a fingerprint. -/
def Recorded (checkpointId fingerprint : String) (db : LearningDb) : Prop :=
  ∃ o ∈ db.observations, o.checkpointId = checkpointId ∧ o.fingerprint = fingerprint

/-- A fingerprint was observed at two points. -/
def ObservedTwice (fingerprint : String) (db : LearningDb) : Prop :=
  ∃ o ∈ db.observations, ∃ o' ∈ db.observations,
    o.fingerprint = fingerprint ∧ o'.fingerprint = fingerprint ∧ o.pointId ≠ o'.pointId

/-- Observations are only added. -/
def Grows (db db' : LearningDb) : Prop :=
  db.observations <+: db'.observations

theorem grows_trans (s t u : LearningDb) (h : Grows s t) (h' : Grows t u) : Grows s u :=
  h.trans h'

/-- A change of the profile is about other tables. -/
theorem profile_written (batch : ProfileBatch) (db : LearningDb) (h : Passes batch.writes db) :
    (written batch.writes db).observations = db.observations ∧
      (written batch.writes db).drafts = db.drafts ∧
      (written batch.writes db).ledger = db.ledger := by
  refine Batch.written_keeps (fun t => t.observations = db.observations ∧ t.drafts = db.drafts ∧
    t.ledger = db.ledger) batch.writes db (fun w hw t _ ht => ?_) h ⟨rfl, rfl, rfl⟩
  rcases List.mem_append.mp hw with hstatement | hreceipt
  · rcases List.mem_map.mp hstatement with ⟨statement, -, rfl⟩
    cases statement with
    | upsertPreference row =>
        simp only [ProfileStatement.write, upsertOne]
        split <;> exact ht
    | upsertSkill row =>
        simp only [ProfileStatement.write, upsertOne]
        split <;> exact ht
    | _ => exact ht
  · rw [List.mem_singleton.mp hreceipt]
    exact ht

section

variable (op : LearningOp) (w : Outside) (db : LearningDb)

/-- Observations stay as they are, or one that is admitted is added. -/
theorem exec_observations :
    (store.exec op w db).2.observations = db.observations ∨
      ∃ record row, op = .commitObservation record row ∧ row.admits db.observations = true ∧
        (store.exec op w db).2.observations = db.observations ++ [row] := by
  rcases store.exec_cases op w db with hsame | ⟨hpasses, hwritten⟩
  · rw [hsame]
    exact Or.inl rfl
  · rw [hwritten]
    cases op with
    | commitObservation record row =>
        have hadmits := hpasses.2.1
        rw [insertOne_passes] at hadmits
        exact Or.inr ⟨record, row, rfl, hadmits, rfl⟩
    | commitProfile batch => exact Or.inl (profile_written batch db hpasses).1
    | put object =>
        refine Or.inl ?_
        simp only [store, LearningOp.writes, insertOrIgnore, Batch.Write.always,
          Batch.written_cons, Batch.written_nil]
        split <;> rfl
    | commitDraft record row =>
        refine Or.inl ?_
        simp only [store, LearningOp.writes, insertOrIgnore, insertCompoundingRecord, insertOne,
          Batch.Write.always, Batch.Write.insertAll, Batch.written_cons, Batch.written_nil]
        split <;> rfl
    | claim c =>
        refine Or.inl ?_
        simp only [store, LearningOp.writes, insertOrIgnore, Batch.Write.always,
          Batch.written_cons, Batch.written_nil]
        split <;> rfl
    | _ => exact Or.inl rfl

theorem exec_grows :
    Grows db (store.exec op w db).2 := by
  rcases exec_observations op w db with hsame | ⟨record, row, -, -, hadded⟩
  · rw [Grows, hsame]
  · rw [Grows, hadded]
    exact List.prefix_append _ _

/-- Requests that change drafts. -/
def LearningOp.drafting : LearningOp → Bool
  | commitDraft _ _ => true
  | markConflicts _ => true
  | commitAction _ _ _ _ _ => true
  | _ => false

/-- Any other request leaves the drafts alone. -/
theorem exec_drafts (h : op.drafting = false) :
    (store.exec op w db).2.drafts = db.drafts := by
  rcases store.exec_cases op w db with hsame | ⟨hpasses, hwritten⟩
  · rw [hsame]
  · rw [hwritten]
    cases op with
    | commitDraft record draft => cases h
    | markConflicts candidate => cases h
    | commitAction record draftId candidate status receipt => cases h
    | commitProfile batch => exact (profile_written batch db hpasses).2.1
    | put _ | claim _ =>
        simp only [store, LearningOp.writes, insertOrIgnore, Batch.Write.always,
          Batch.written_cons, Batch.written_nil]
        split <;> rfl
    | _ => rfl

theorem written_commitDraft (record : CompoundingRecord) (row : DraftRow) (w : Outside)
    (db : LearningDb) : written (store.writes (.commitDraft record row) w) db =
      { db with
        ledger := db.ledger ++ [record]
        drafts := if row.admits db.drafts then db.drafts ++ [row] else db.drafts } := by
  simp only [store, LearningOp.writes, insertOrIgnore, insertCompoundingRecord, insertOne,
    Batch.Write.always, Batch.Write.insertAll, Batch.written_cons, Batch.written_nil]
  split <;> rfl

/-- A draft is inserted, with its record, if it is admitted. -/
theorem exec_commitDraft (record : CompoundingRecord) (row : DraftRow) (w : Outside)
    (db : LearningDb) :
    (store.exec (.commitDraft record row) w db).2 = db ∨
      (record.admits db.ledger = true ∧ (store.exec (.commitDraft record row) w db).2 =
        { db with
          ledger := db.ledger ++ [record]
          drafts := if row.admits db.drafts then db.drafts ++ [row] else db.drafts }) := by
  rcases store.exec_cases (.commitDraft record row) w db with hsame | ⟨hpasses, hwritten⟩
  · exact Or.inl hsame
  · have hadmits := hpasses.1
    rw [insertCompoundingRecord, insertOne_passes] at hadmits
    exact Or.inr ⟨hadmits, hwritten.trans (written_commitDraft record row w db)⟩

/-- Drafts keep their fingerprints, and one that is inserted brings a new one. -/
theorem exec_fingerprints :
    (store.exec op w db).2.drafts.map DraftRow.fingerprint = db.drafts.map DraftRow.fingerprint ∨
      ∃ record row, op = .commitDraft record row ∧ row.admits db.drafts = true ∧
        (store.exec op w db).2.drafts = db.drafts ++ [row] := by
  cases hop : op.drafting with
  | false => exact Or.inl (by rw [exec_drafts op w db hop])
  | true =>
      cases op with
      | commitDraft record row =>
          rcases exec_commitDraft record row w db with hsame | ⟨-, hwritten⟩
          · exact Or.inl (by rw [hsame])
          · by_cases hadmits : row.admits db.drafts = true
            · refine Or.inr ⟨record, row, rfl, hadmits, ?_⟩
              rw [hwritten, if_pos hadmits]
            · refine Or.inl ?_
              rw [hwritten, if_neg hadmits]
      | markConflicts candidate =>
          refine Or.inl ?_
          rcases store.exec_cases (.markConflicts candidate) w db with hsame | ⟨-, hwritten⟩
          · rw [hsame]
          · rw [hwritten]
            refine Table.map_update DraftRow.fingerprint
              (fun d => d.open_ && d.candidate.rivals candidate) _ ?_ db.drafts
            exact fun _ => rfl
      | commitAction record draftId candidate status receipt =>
          refine Or.inl ?_
          rcases store.exec_cases (.commitAction record draftId candidate status receipt) w db with
            hsame | ⟨-, hwritten⟩
          · rw [hsame]
          · rw [hwritten]
            refine Table.map_update DraftRow.fingerprint
              (fun d => d.draftId = draftId && d.open_) _ ?_ db.drafts
            exact fun _ => rfl
      | _ => cases hop

end

/-! ## Drafts have two points behind them -/

def ObservationRow.identity (o : ObservationRow) : String × String :=
  (o.checkpointId, o.fingerprint)

/-- A checkpoint has one observation of a fingerprint, a fingerprint has one draft, and two
    points are behind it. -/
structure Founded (db : LearningDb) : Prop where
  observations : (db.observations.map ObservationRow.identity).Nodup
  drafts : (db.drafts.map DraftRow.fingerprint).Nodup
  grounds : ∀ d ∈ db.drafts, ObservedTwice d.fingerprint db

theorem founded_empty : Founded LearningDb.empty :=
  ⟨List.nodup_nil, List.nodup_nil, fun _ hd => absurd hd List.not_mem_nil⟩

theorem observedTwice_grows (fingerprint : String) (s t : LearningDb) (h : Grows s t)
    (hs : ObservedTwice fingerprint s) : ObservedTwice fingerprint t := by
  rcases hs with ⟨o, ho, o', ho', hpoints⟩
  exact ⟨o, h.subset ho, o', h.subset ho', hpoints⟩

/-- Two points are counted where there are two. -/
theorem observedTwice_iff (fingerprint : String) (db : LearningDb) :
    ObservedTwice fingerprint db ↔ 2 ≤ db.distinctPoints fingerprint := by
  have hmem : ∀ point, point ∈ db.pointsOf fingerprint ↔
      ∃ o ∈ db.observations, o.fingerprint = fingerprint ∧ o.pointId = point := by
    intro point
    simp only [LearningDb.pointsOf, List.mem_map, List.mem_filter, decide_eq_true_eq, and_assoc]
  rw [LearningDb.distinctPoints, ← List.card_toFinset, ← Nat.lt_iff_add_one_le,
    Finset.one_lt_card]
  simp only [List.mem_toFinset, hmem]
  constructor
  · rintro ⟨o, ho, o', ho', hf, hf', hne⟩
    exact ⟨o.pointId, ⟨o, ho, hf, rfl⟩, o'.pointId, ⟨o', ho', hf', rfl⟩, hne⟩
  · rintro ⟨_, ⟨o, ho, hf, rfl⟩, _, ⟨o', ho', hf', rfl⟩, hne⟩
    exact ⟨o, ho, o', ho', hf, hf', hne⟩

/-- A draft is inserted of what was observed twice. -/
def Grounded : LearningOp → LearningDb → Prop
  | .commitDraft _ row, db => ObservedTwice row.fingerprint db
  | _, _ => True

theorem exec_founded (op : LearningOp) (w : Outside) (db : LearningDb) (hdb : Founded db)
    (hop : Grounded op db) : Founded (store.exec op w db).2 := by
  have hgrows := exec_grows op w db
  refine ⟨?_, ?_, ?_⟩
  · rcases exec_observations op w db with hsame | ⟨record, row, -, hadmits, hadded⟩
    · rw [hsame]
      exact hdb.observations
    · rw [hadded, List.map_append, List.nodup_append']
      refine ⟨hdb.observations, List.nodup_singleton _, ?_⟩
      rw [List.disjoint_left]
      intro identity hold hnew
      rcases List.mem_map.mp hold with ⟨o, ho, rfl⟩
      have hrow := List.all_eq_true.mp hadmits o ho
      simp only [Bool.and_eq_true, decide_eq_true_eq] at hrow
      exact hrow.2 (List.mem_singleton.mp hnew)
  · rcases exec_fingerprints op w db with hsame | ⟨record, row, -, hadmits, hadded⟩
    · rw [hsame]
      exact hdb.drafts
    · rw [hadded, List.map_append, List.nodup_append']
      refine ⟨hdb.drafts, List.nodup_singleton _, ?_⟩
      rw [List.disjoint_left]
      intro fingerprint hold hnew
      rcases List.mem_map.mp hold with ⟨d, hd, rfl⟩
      simp only [DraftRow.admits, Bool.and_eq_true, List.all_eq_true, decide_eq_true_eq]
        at hadmits
      exact (hadmits.1 d hd).1.2 (List.mem_singleton.mp hnew)
  · intro d hd
    refine observedTwice_grows _ db _ hgrows ?_
    rcases exec_fingerprints op w db with hsame | ⟨record, row, rfl, -, hadded⟩
    · have hold : d.fingerprint ∈ db.drafts.map DraftRow.fingerprint := by
        rw [← hsame]
        exact List.mem_map_of_mem hd
      rcases List.mem_map.mp hold with ⟨d', hd', heq⟩
      exact heq ▸ hdb.grounds d' hd'
    · rw [hadded] at hd
      rcases List.mem_append.mp hd with hold | hnew
      · exact hdb.grounds d hold
      · rw [List.mem_singleton.mp hnew]
        exact hop

/-! ## What calls come to -/

/-- Observations and drafts of one fingerprint are inserted, and no draft is acted on. -/
def About (fingerprint : String) : LearningOp → Prop
  | .commitObservation _ row => row.fingerprint = fingerprint
  | .commitDraft _ row => row.fingerprint = fingerprint
  | .commitAction _ _ _ _ _ => False
  | _ => True

/-- No draft is inserted or acted on. -/
def Draftless : LearningOp → Prop
  | .commitDraft _ _ => False
  | .commitAction _ _ _ _ _ => False
  | _ => True

theorem grounded_of_draftless (op : LearningOp) (db : LearningDb) (h : Draftless op) :
    Grounded op db := by
  cases op with
  | commitDraft record row => exact absurd h id
  | _ => exact trivial

section Kinds

open Process

variable (h : Encoding) {A : LearningOp → Prop}

theorem putImmutableBody_within (area : BodyArea) (body : Body) (recordId : String)
    (hhead : ∀ key, A (.head key)) (hput : ∀ object, A (.put object)) :
    (putImmutableBody h area body recordId).Within A (fun _ => True) := by
  unfold putImmutableBody
  refine within_bind (within_request _ (hhead _)) (fun existing _ => ?_)
  cases existing with
  | some o => exact within_ite trivial trivial
  | none =>
      refine within_bind (within_request _ (hput _)) (fun created _ => ?_)
      unfold unlessRaced
      refine within_ite trivial ?_
      refine within_bind (within_request _ (hhead _)) (fun raced _ => ?_)
      exact within_ite trivial trivial

section

variable (input : CheckpointObservationInput) (signal : LearningSignal)

theorem recordObservation_within (fingerprint : String) (hdraw : A .draw) (hhead : ∀ key, A (.head key))
    (hput : ∀ object, A (.put object))
    (hcommit : ∀ record row, row.fingerprint = fingerprint → A (.commitObservation record row)) :
    (recordObservation h input signal fingerprint).Within A (fun _ => True) := by
  unfold recordObservation
  refine within_bind (within_request _ hdraw) (fun observation _ => ?_)
  refine within_bind (within_request _ hdraw) (fun record _ => ?_)
  refine within_bind (putImmutableBody_within h _ _ _ hhead hput) (fun stored _ => ?_)
  refine within_bind (within_request _ hdraw) (fun now _ => ?_)
  exact within_request _ (hcommit _ _ rfl)

theorem recordObservation_draftless (fingerprint : String) :
    (recordObservation h input signal fingerprint).Within Draftless (fun _ => True) :=
  recordObservation_within h input signal fingerprint trivial (fun _ => trivial)
    (fun _ => trivial) (fun _ _ _ => trivial)

theorem markCompetitors_within (draft : CompoundingDraft) (inserted : Bool)
    (hmark : A (.markConflicts draft.candidate)) :
    (markCompetitors draft inserted).Within A (fun _ => True) := by
  unfold markCompetitors
  refine within_ite trivial (within_ite ?_ trivial)
  exact within_bind (within_request _ hmark) (fun _ _ => trivial)

theorem insertDraft_about (draft : CompoundingDraft) (now : Nat) :
    (insertDraft h draft now).Within (About draft.fingerprint) (fun _ => True) := by
  unfold insertDraft
  refine within_bind (putImmutableBody_within h _ _ _ (fun _ => trivial) (fun _ => trivial))
    (fun stored _ => ?_)
  refine within_bind (T := fun _ => True) ?_
    (fun inserted _ => markCompetitors_within draft inserted trivial)
  unfold commitDraft
  refine within_tryCatch _ _ (within_request _ rfl) (fun e => ?_)
  unfold unlessDrafted
  refine within_bind (within_request _ trivial) (fun winner _ => ?_)
  exact within_ite trivial trivial

theorem createDraft_about (candidate : CompoundingCandidate) (fingerprint : String)
    (now : Nat) :
    (createDraft h candidate fingerprint now).Within (About fingerprint) (fun _ => True) := by
  unfold createDraft
  refine within_bind (within_request _ trivial) (fun found _ => ?_)
  refine within_ite trivial ?_
  refine within_bind (within_request _ trivial) (fun competing _ => ?_)
  exact insertDraft_about h _ now

theorem createDraftIfReady_about (candidate : CompoundingCandidate) (fingerprint : String)
    (now : Nat) : (createDraftIfReady h candidate fingerprint now).Within (About fingerprint)
      (fun _ => True) := by
  unfold createDraftIfReady
  refine within_bind (within_request _ trivial) (fun points _ => ?_)
  refine within_ite trivial ?_
  refine within_bind (within_request _ trivial) (fun existing _ => ?_)
  refine within_ite trivial ?_
  refine within_bind (within_request _ trivial) (fun pending _ => ?_)
  exact within_ite trivial (createDraft_about h candidate fingerprint now)

theorem observeSignal_about :
    (observeSignal h input signal).Within (About (fingerprint h (candidateFromSignal signal)))
      (fun _ => True) := by
  unfold observeSignal
  refine within_ite trivial ?_
  refine within_bind (within_request _ trivial) (fun existing _ => ?_)
  refine within_ite trivial ?_
  refine within_bind (recordObservation_within h input signal _ trivial (fun _ => trivial)
    (fun _ => trivial) (fun _ _ hrow => hrow)) (fun _ _ => ?_)
  exact within_bind (createDraftIfReady_about h _ _ _) (fun _ _ => trivial)

end

end Kinds

/-! ## Drafts are grounded -/

section Grounds

open Process

variable (h : Encoding) {α β : Type}

/-- A call inserts drafts only of what was observed twice. -/
abbrev Lawful (p : LearningCalls α) (db : LearningDb) : Prop :=
  p.Meets store.exec (fun _ _ _ => True) Founded Grows Grounded (fun _ _ => True) db

theorem lawful_bind (f : α → LearningCalls β) (p : LearningCalls α) (db : LearningDb)
    (hp : Lawful p db) (hf : ∀ a db, Lawful (f a) db) : Lawful (p >>= f) db := by
  refine meets_bind f p db (meets_mono (fun _ _ hop => hop) (fun r t _ => ?_) p db hp)
  cases r with
  | ok a => exact hf a t
  | error e => exact trivial

theorem lawful_draftless {T : α → Prop} (p : LearningCalls α) (db : LearningDb)
    (hp : p.Within Draftless T) : Lawful p db :=
  meets_of_within (fun _ => True) (fun _ _ _ _ => trivial) (fun _ _ _ _ _ _ _ => trivial)
    (fun op t _ _ hop => grounded_of_draftless op t hop) (fun _ _ _ => trivial) p db trivial hp

theorem within_answered {A : LearningOp → Prop} {T : β → Prop} (op : LearningOp)
    (f : op.Ret → LearningCalls β) (r : op.Ret) (hp : (ask op >>= f).Within A T) :
    (f r).Within A T :=
  hp.2 (.ok r)

/-- What was counted is still there when the draft is inserted. -/
theorem createDraftIfReady_lawful (candidate : CompoundingCandidate) (fingerprint : String)
    (now : Nat) (db : LearningDb) : Lawful (createDraftIfReady h candidate fingerprint now) db := by
  unfold createDraftIfReady
  refine meets_request _ _ db (fun t _ _ => ⟨trivial, fun w _ => ⟨?_, fun _ _ => trivial⟩⟩)
  intro (points : Nat) hpoints
  have hcount : points = t.distinctPoints fingerprint :=
    (Except.ok.inj (store.exec_ok (.countPoints fingerprint) w t points hpoints).1).symm
  rw [store.exec_read (.countPoints fingerprint) w t rfl]
  refine meets_ite (fun _ => trivial) (fun hready => ?_)
  have htwice : ObservedTwice fingerprint t := by
    rw [observedTwice_iff]
    omega
  -- What follows inserts drafts of this fingerprint only.
  have hrest := within_answered (.countPoints fingerprint) _ points
    (createDraftIfReady_about h candidate fingerprint now)
  rw [if_neg hready] at hrest
  refine meets_of_within (ObservedTwice fingerprint)
    (fun s t hs hst => observedTwice_grows fingerprint s t hst hs)
    (fun op w t _ _ _ ht => observedTwice_grows fingerprint t _ (exec_grows op w t) ht)
    (fun op t _ ht hop => ?_) (fun _ _ _ => trivial) _ t htwice hrest
  cases op with
  | commitDraft record row =>
      have hrow : row.fingerprint = fingerprint := hop
      rw [Grounded, hrow]
      exact ht
  | _ => exact trivial

section

variable (input : CheckpointObservationInput)

theorem observeSignal_lawful (signal : LearningSignal)
    (db : LearningDb) : Lawful (observeSignal h input signal) db := by
  unfold observeSignal
  refine meets_ite (fun _ => trivial) (fun _ => ?_)
  refine lawful_bind _ _ db (lawful_draftless _ db (within_request _ trivial))
    (fun existing db => ?_)
  refine meets_ite (fun _ => trivial) (fun _ => ?_)
  refine lawful_bind _ _ db (lawful_draftless _ db (recordObservation_draftless h input signal _))
    (fun _ db => ?_)
  exact lawful_bind _ _ db (createDraftIfReady_lawful h _ _ _ db) (fun _ _ => trivial)

theorem observeSignals_lawful (signals : List LearningSignal)
    (result : CompoundingObservationResult) (db : LearningDb) :
    Lawful (observeSignals h input signals result) db := by
  induction signals generalizing result db with
  | nil => exact trivial
  | cons signal signals ih =>
      exact lawful_bind _ _ db (observeSignal_lawful h input signal db)
        (fun outcome db => ih (result.add outcome) db)

theorem observeCompoundingCheckpoint_lawful (db : LearningDb) : Lawful (observeCompoundingCheckpoint h input) db := by
  unfold observeCompoundingCheckpoint
  split
  · exact trivial
  · refine meets_ite (fun _ => trivial) (fun _ => ?_)
    refine lawful_bind _ _ db (lawful_draftless _ db (within_request _ trivial))
      (fun active db => ?_)
    exact meets_ite (fun _ => trivial) (fun _ => observeSignals_lawful h input _ _ db)

end

end Grounds

/-! ## Runs -/

/-- Calls over one database. -/
abbrev LearningPool (ι α : Type) :=
  Process.Pool ι LearningOp (fun op => Except LearningError (store.Ret op)) LearningDb
    LearningError α

section Runs

variable {ι α : Type} [DecidableEq ι] (h : Encoding)

/-- Let one call take its next operation, or cut it off. -/
abbrev stepLearning (c : LearningPool ι α) (e : ι × Option Outside) : LearningPool ι α :=
  Process.stepOrCut store.exec .terminated c e

/-- Calls that observe checkpoints, none of which has begun. -/
def observing (inputs : ι → CheckpointObservationInput) (db : LearningDb) :
    LearningPool ι CompoundingObservationResult :=
  { shared := db, calls := fun i => observeCompoundingCheckpoint h (inputs i) }

/-- The database after a run of them. -/
def observed (inputs : ι → CheckpointObservationInput) (db : LearningDb)
    (es : List (ι × Option Outside)) : LearningDb :=
  (Run.runFrom stepLearning (observing h inputs db) es).shared

theorem founded_run (inputs : ι → CheckpointObservationInput) (db : LearningDb)
    (hdb : Founded db) (es : List (ι × Option Outside)) : Founded (observed h inputs db es) := by
  refine (Run.runFrom_keeps stepLearning (Process.Pool.SoundEach store.exec
    (fun _ _ _ _ => True) Founded (fun _ => Grows) (fun _ => Grounded) (fun _ _ _ => True))
    (fun c e hc => ?_) (observing h inputs db) es ⟨hdb, fun i => ⟨db, ?_, ?_⟩⟩).1
  · refine Process.stepOrCut_sound (R := fun _ => Grows) (fun _ s _ => List.prefix_refl _)
      (fun _ s t u hst htu => grows_trans s t u hst htu)
      (fun i op w s hs hop _ => ⟨exec_founded op w s hs hop, fun _ _ => exec_grows op w s⟩)
      (fun _ _ => trivial) c e hc (fun _ _ _ _ => trivial)
  · exact List.prefix_refl _
  · exact observeCompoundingCheckpoint_lawful h (inputs i) db

end Runs

end Mdevolved.Learning
