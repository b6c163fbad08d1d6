import Mdevolved.Lib.Collector
import Mdevolved.Lib.Run
import Mdevolved.Lib.Table

/-!
# Ledger Objects

The rows of the ledgers name the objects that hold their bodies. A submission
writes its objects first, each under a key that is made from its content, and
leaves alone what is there already. It then commits all its rows with one batch,
and queues the objects for deletion where the batch fails. A collection reads
what was queued at least a minute ago together with whether a row names it, and
deletes what no row does. Retention deletes rows, and queues what they named.

Any number of these calls are at work at once. Each is at some point of its
text, with what it has found so far, and may be cut off there. What a call writes
and commits is arbitrary, so that a call stands for every kind of submission, and
for one that comes again with the same content.

A row is committed by what its submission saw of its objects, and an object
deleted by what the collection saw of the rows. `apart` says that neither is
overtaken by the other.

## Main definitions

* `Submission`: What is written and committed. Its rows name its objects.
* `Call`, `LedgerState`: Calls at work over the tables and the objects.
* `putImmutableObject`, `queueCollaborationObjectCleanup`, `retentionCandidates`,
  `queuedObjects`, `finishCollection`: The requests they make.
* `LedgerEvent`, `step`: What may happen.
* `apart`: A step that does not come between what another call saw and does.

## Theorems

* `put_refines`, `commit_refines`, `collect_refines`, `deleteObject_refines`,
  `step_refines`: What steps are for writers and collectors.
* `committed_rows_backed`: When every row has its object.
* `overtaken_unbacked`: A run that leaves a row without one.
-/

namespace Mdevolved.Ledger

open Batch (Outcome)

/-! ## Tables and objects -/

/-- The tables whose rows name an object by its key. -/
inductive LedgerTable
  | collaborationRecords | collaborationContentObjects | projectContinuityPoints
  | projectOperationRecords | projectElasticRecords | projectOperationalRecords
  | workingProfileRecords | compoundingRecords
  deriving DecidableEq

structure LedgerRow where
  table : LedgerTable
  id : String
  bodyObjectKey : String
  /-- Until when a row of two of the tables is kept. -/
  retainUntil : Option Nat
  deriving DecidableEq

/-- One row of `collaboration_gc_objects`. -/
structure GcObjectRow where
  objectKey : String
  queuedAt : Nat
  attempts : Nat
  lastAttemptAt : Option Nat

/-- An object, and the hash that was stored with it. -/
structure ContentObject where
  bytes : List UInt8
  sha256 : String

/-- An object to be written. -/
structure ObjectWrite where
  objectKey : String
  bytes : List UInt8
  contentSha256 : String
  deriving DecidableEq

inductive LedgerError
  | objectCollision | constraint | unavailable

abbrev Storage := String → Option ContentObject

/-- Write an object, unless it is there already. -/
def putImmutableObject (input : ObjectWrite) (storage : Storage) : Except LedgerError Storage :=
  match storage input.objectKey with
  | some existing =>
      if existing.bytes.length ≠ input.bytes.length ∨ existing.sha256 ≠ input.contentSha256 then
        .error .objectCollision
      else .ok storage
  | none => .ok (Function.update storage input.objectKey
      (some { bytes := input.bytes, sha256 := input.contentSha256 }))

/-! ## Calls -/

/-- What a call submits: the objects it writes, and the rows it then commits, which
    name them. Another order of its writes is another submission. -/
structure Submission where
  objects : List ObjectWrite
  rows : List LedgerRow
  now : Nat
  named : ∀ r ∈ rows, r.bodyObjectKey ∈ objects.map ObjectWrite.objectKey
  deriving DecidableEq

/-- How far a call has come. -/
inductive Call
  /-- The first `written` objects of a submission were found or written. -/
  | submitting (submission : Submission) (written : Nat)
  /-- Objects are about to be queued for deletion. -/
  | cleaning (keys : List String) (now : Nat)
  /-- Rows are about to be deleted. -/
  | retaining (candidates : List LedgerRow) (now : Nat)
  /-- Objects that no row named are about to be deleted. -/
  | collecting (pending completed failures : List String) (now : Nat)
  | ended
  deriving DecidableEq

structure LedgerState where
  rows : List LedgerRow
  queue : List GcObjectRow
  storage : Storage
  calls : List Call

def emptyLedger : LedgerState :=
  { rows := [], queue := [], storage := fun _ => none, calls := [] }

/-- The objects a call has found or written for the rows it is about to commit. -/
def Call.held : Call → List String
  | .submitting submission written => (submission.objects.take written).map ObjectWrite.objectKey
  | _ => []

/-- The objects a call is about to delete. -/
def Call.doomed : Call → List String
  | .collecting pending _ _ _ => pending
  | _ => []

/-! ## Requests -/

def gcBatchSize : Nat := 64

def gcGraceSeconds : Nat := 60

def retentionBatchSize : Nat := 64

/-- What comes first in an order by a time and then by a text. -/
def ranks (at₁ : Nat) (id₁ : String) (at₂ : Nat) (id₂ : String) : Prop :=
  at₁ < at₂ ∨ at₁ = at₂ ∧ id₁ ≤ id₂

instance (at₁ : Nat) (id₁ : String) (at₂ : Nat) (id₂ : String) :
    Decidable (ranks at₁ id₁ at₂ id₂) :=
  inferInstanceAs (Decidable (_ ∨ _))

/-- The batch of a submission, which the guards of its statements may refuse. -/
def commitRows (rows : List LedgerRow) (accepted : Bool) (s : LedgerState) :
    Except LedgerError (Unit × LedgerState) :=
  if accepted && rows.all (fun r => !s.rows.any (fun r' => r'.table = r.table && r'.id = r.id)) then
    .ok ((), { s with rows := s.rows ++ rows })
  else .error .constraint

/-- Queue objects for deletion, those that are not queued yet. -/
def queueCollaborationObjectCleanup (keys : List String) (now : Nat) (s : LedgerState) :
    LedgerState :=
  { s with
    queue := keys.dedup.foldl (fun rows key =>
      if rows.any (fun r => r.objectKey = key) then rows
      else rows ++ [{ objectKey := key, queuedAt := now, attempts := 0, lastAttemptAt := none }])
      s.queue }

/-- The rows of a table that are past the time they are kept for. What the other
    tables say of them keeps the ones in `kept`. -/
def retentionCandidates (table : LedgerTable) (kept : List String) (now : Nat)
    (s : LedgerState) : List LedgerRow :=
  ((s.rows.filter (fun r => r.table = table && r.retainUntil.any (fun t => t ≤ now) &&
    !kept.contains r.id)).insertionSort (fun r t =>
      ranks (r.retainUntil.getD 0) r.id (t.retainUntil.getD 0) t.id)).take retentionBatchSize

def deleteRows (candidates : List LedgerRow) (s : LedgerState) : LedgerState :=
  { s with
    rows := s.rows.filter (fun r =>
      !candidates.any (fun c => c.table = r.table && c.id = r.id)) }

/-- Whether any row names an object. -/
def referenced (s : LedgerState) (key : String) : Bool :=
  s.rows.any (fun r => r.bodyObjectKey = key)

/-- The objects that were queued long enough ago, the first of them. -/
def queuedObjects (now : Nat) (s : LedgerState) : List String :=
  (((s.queue.filter (fun r => r.queuedAt + gcGraceSeconds ≤ now)).insertionSort (fun r t =>
    ranks r.queuedAt r.objectKey t.queuedAt t.objectKey)).take gcBatchSize).map
      GcObjectRow.objectKey

/-- The batch that a collection ends with. -/
def finishCollection (completed failures : List String) (now : Nat) (s : LedgerState) :
    LedgerState :=
  { s with
    queue := Table.update (fun r => failures.contains r.objectKey)
      (fun r => { r with attempts := r.attempts + 1, lastAttemptAt := some now })
      (s.queue.filter (fun r => !completed.contains r.objectKey)) }

/-! ## Steps -/

/-- What may happen: a call begins, takes its next request, or is cut off. -/
inductive LedgerEvent
  | submit (submission : Submission)
  | retain (table : LedgerTable) (kept : List String) (now : Nat)
  | collect (now : Nat)
  | put (i : Nat) (w : Outcome)
  | commit (i : Nat) (accepted : Bool) (w : Outcome)
  | queue (i : Nat) (w : Outcome)
  | deleteRows (i : Nat) (w : Outcome)
  /-- Objects are deleted six at a time, in any order. A collection looks again
      whether one is `gone`. -/
  | deleteObject (i : Nat) (key : String) (w : Outcome) (gone : Bool)
  | finish (i : Nat) (w : Outcome)
  | stop (i : Nat)

def LedgerState.call (s : LedgerState) (i : Nat) : Call :=
  s.calls.getD i .ended

def LedgerState.set (s : LedgerState) (i : Nat) (c : Call) : LedgerState :=
  { s with calls := s.calls.set i c }

def LedgerState.begin (s : LedgerState) (c : Call) : LedgerState :=
  { s with calls := s.calls ++ [c] }

/-- The next object of a submission. A call whose write throws has ended. -/
def put (s : LedgerState) (i : Nat) (w : Outcome) : LedgerState :=
  match s.call i with
  | .submitting submission written =>
      match submission.objects[written]? with
      | none => s
      | some input =>
          match w, putImmutableObject input s.storage with
          | .answered, .ok storage =>
              { s with storage := storage }.set i (.submitting submission (written + 1))
          | .lost, .ok storage => { s with storage := storage }.set i .ended
          | _, _ => s.set i .ended
  | _ => s

/-- The batch of a submission, once its objects are there. One that throws queues
    them. -/
def commit (s : LedgerState) (i : Nat) (accepted : Bool) (w : Outcome) : LedgerState :=
  match s.call i with
  | .submitting submission written =>
      if written = submission.objects.length then
        let sent := Batch.send .unavailable w (commitRows submission.rows accepted) s
        match sent.1 with
        | .ok _ => sent.2.set i .ended
        | .error _ => sent.2.set i
            (.cleaning (submission.objects.map ObjectWrite.objectKey) submission.now)
      else s
  | _ => s

def step (s : LedgerState) : LedgerEvent → LedgerState
  | .submit submission => s.begin (.submitting submission 0)
  | .retain table kept now => s.begin (.retaining (retentionCandidates table kept now s) now)
  | .collect now =>
      let queued := queuedObjects now s
      s.begin (.collecting (queued.filter (fun key => !referenced s key))
        (queued.filter (referenced s)) [] now)
  | .put i w => put s i w
  | .commit i accepted w => commit s i accepted w
  | .queue i w =>
      match s.call i with
      | .cleaning keys now =>
          (if w = .refused then s else queueCollaborationObjectCleanup keys now s).set i .ended
      | _ => s
  | .deleteRows i w =>
      match s.call i with
      | .retaining candidates now =>
          (if w = .refused then s else deleteRows candidates s).set i
            (if w = .answered then
              .cleaning (candidates.map LedgerRow.bodyObjectKey) now else .ended)
      | _ => s
  | .deleteObject i key w gone =>
      match s.call i with
      | .collecting pending completed failures now =>
          if key ∈ pending then
            (if w = .refused then s
              else { s with storage := Function.update s.storage key none }).set i
              (if w = .answered && gone then
                .collecting (pending.erase key) (completed ++ [key]) failures now
              else .collecting (pending.erase key) completed (failures ++ [key]) now)
          else s
      | _ => s
  | .finish i w =>
      match s.call i with
      | .collecting [] completed failures now =>
          (if w = .refused then s else finishCollection completed failures now s).set i .ended
      | _ => s
  | .stop i => s.set i .ended

/-! ## Writers and collectors -/

/-- Whether a step is apart from what other calls are at: rows are committed that
    name nothing a collection is about to delete, and nothing is deleted that a
    submission has found or written and has yet to commit. -/
def apart (s : LedgerState) : LedgerEvent → Bool
  | .commit i accepted w =>
      match s.call i with
      | .submitting submission _ =>
          !accepted || w = .refused || submission.rows.all (fun r =>
            s.calls.all (fun c => !c.doomed.contains r.bodyObjectKey))
      | _ => true
  | .deleteObject _ key w _ => w = .refused || s.calls.all (fun c => !c.held.contains key)
  | _ => true

/-- The objects and what is known of them, whatever else there is. -/
def view (s : LedgerState) : Collector.Store Nat Nat String :=
  { objects := {key | (s.storage key).isSome}
    named := {key | ∃ r ∈ s.rows, r.bodyObjectKey = key}
    held := fun i => {key | key ∈ (s.call i).held}
    doomed := fun i => {key | key ∈ (s.call i).doomed} }

section

variable (s : LedgerState) (i : Nat)

theorem call_set (i j : Nat) (c : Call) (h : (s.set i c).call j ≠ s.call j) :
    j = i ∧ (s.set i c).call j = c := by
  by_cases hij : j = i
  · subst hij
    refine ⟨rfl, ?_⟩
    simp only [LedgerState.call, LedgerState.set, List.getD_eq_getElem?_getD] at h ⊢
    by_cases hlt : j < s.calls.length
    · rw [List.getElem?_set_self hlt]
      rfl
    · rw [List.set_eq_of_length_le (Nat.not_lt.mp hlt)] at h
      exact absurd rfl h
  · refine absurd ?_ h
    simp only [LedgerState.call, LedgerState.set, List.getD_eq_getElem?_getD]
    rw [List.getElem?_set_ne (fun heq => hij heq.symm)]

theorem call_begin (c : Call) (j : Nat) (h : (s.begin c).call j ≠ s.call j) :
    j = s.calls.length ∧ (s.begin c).call j = c := by
  simp only [LedgerState.call, LedgerState.begin, List.getD_eq_getElem?_getD] at h ⊢
  rcases Nat.lt_trichotomy j s.calls.length with hlt | heq | hgt
  · rw [List.getElem?_append_left hlt] at h
    exact absurd rfl h
  · rw [heq, List.getElem?_append_right (Nat.le_refl _), Nat.sub_self]
    exact ⟨rfl, rfl⟩
  · rw [List.getElem?_eq_none (by rw [List.length_append, List.length_singleton]; omega),
      List.getElem?_eq_none (by omega)] at h
    exact absurd rfl h

/-- A state whose calls are those of `s` but for one is within a store that has what
    that call holds. -/
theorem within_set {s t : LedgerState} {e : Collector.Event Nat Nat String} (i : Nat) (c : Call)
    (hcalls : t.calls = s.calls)
    (hobjects : (Collector.step (view s) e).objects ⊆ (view t).objects)
    (hnamed : (view t).named ⊆ (Collector.step (view s) e).named)
    (hheld : ∀ k ∈ c.held, k ∈ (Collector.step (view s) e).held i)
    (hdoomed : ∀ k ∈ c.doomed, k ∈ (Collector.step (view s) e).doomed i)
    (hkept : ∀ j, (view s).doomed j ⊆ (Collector.step (view s) e).doomed j) :
    Collector.Within (view (t.set i c)) (Collector.step (view s) e) := by
  have hsame : ∀ j, (t.set i c).call j = (s.set i c).call j := by
    intro j
    simp only [LedgerState.call, LedgerState.set, hcalls]
  refine ⟨hobjects, hnamed, fun j k hk => ?_, fun j k hk => ?_⟩
  · have hmem : k ∈ ((s.set i c).call j).held := hsame j ▸ hk
    by_cases hchanged : (s.set i c).call j = s.call j
    · rw [hchanged] at hmem
      exact Collector.step_held (view s) e j hmem
    · rcases call_set s i j c hchanged with ⟨rfl, hc⟩
      exact hheld k (hc ▸ hmem)
  · have hmem : k ∈ ((s.set i c).call j).doomed := hsame j ▸ hk
    by_cases hchanged : (s.set i c).call j = s.call j
    · rw [hchanged] at hmem
      exact hkept j hmem
    · rcases call_set s i j c hchanged with ⟨rfl, hc⟩
      exact hdoomed k (hc ▸ hmem)

/-- A call that ends, or goes on with nothing found and nothing to delete. -/
theorem within_end {s t : LedgerState} (i : Nat) (c : Call) (hcalls : t.calls = s.calls)
    (hobjects : (view s).objects ⊆ (view t).objects) (hnamed : (view t).named ⊆ (view s).named)
    (hheld : c.held = []) (hdoomed : c.doomed = []) :
    Collector.Within (view (t.set i c)) (Collector.step (view s) .rest) := by
  refine within_set i c hcalls hobjects hnamed ?_ ?_ (fun _ => Set.Subset.refl _)
  · rw [hheld]
    exact nofun
  · rw [hdoomed]
    exact nofun

theorem within_self :
    Collector.Within (view s) (Collector.step (view s) .rest) :=
  ⟨Set.Subset.refl _, Set.Subset.refl _, fun _ => Set.Subset.refl _, fun _ => Set.Subset.refl _⟩

/-- A call that begins with nothing found. -/
theorem within_begin {s : LedgerState} {e : Collector.Event Nat Nat String} (c : Call)
    (hobjects : (Collector.step (view s) e).objects ⊆ (view s).objects)
    (hnamed : (view s).named ⊆ (Collector.step (view s) e).named) (hheld : c.held = [])
    (hdoomed : ∀ k ∈ c.doomed, k ∈ (Collector.step (view s) e).doomed s.calls.length)
    (hkept : ∀ j, (view s).doomed j ⊆ (Collector.step (view s) e).doomed j) :
    Collector.Within (view (s.begin c)) (Collector.step (view s) e) := by
  refine ⟨hobjects, hnamed, fun j k hk => ?_, fun j k hk => ?_⟩
  · have hmem : k ∈ ((s.begin c).call j).held := hk
    by_cases hchanged : (s.begin c).call j = s.call j
    · rw [hchanged] at hmem
      exact Collector.step_held (view s) e j hmem
    · rw [(call_begin s c j hchanged).2, hheld] at hmem
      cases hmem
  · have hmem : k ∈ ((s.begin c).call j).doomed := hk
    by_cases hchanged : (s.begin c).call j = s.call j
    · rw [hchanged] at hmem
      exact hkept j hmem
    · rcases call_begin s c j hchanged with ⟨rfl, hc⟩
      exact hdoomed k (hc ▸ hmem)

/-- What a step comes to for those who write and those who collect. -/
def Refines (s t : LedgerState) : Prop :=
  ∃ e, Collector.Allowed (view s) e ∧ Collector.Apart (view s) e ∧
    Collector.Within (view t) (Collector.step (view s) e)

theorem Refines.rest {s t : LedgerState}
    (h : Collector.Within (view t) (Collector.step (view s) .rest)) : Refines s t :=
  ⟨.rest, trivial, trivial, h⟩

theorem put_refines (w : Outcome) : Refines s (put s i w) := by
  unfold put
  split
  · next submission written hcall =>
    split
    · exact .rest (within_self s)
    · next input hinput =>
      have hput : ∀ storage, putImmutableObject input s.storage = .ok storage →
          {key | (storage key).isSome} = insert input.objectKey (view s).objects := by
        intro storage hok
        unfold putImmutableObject at hok
        ext key
        split at hok
        · next existing hthere =>
          split at hok
          · cases hok
          · rw [← Except.ok.inj hok]
            refine ⟨Or.inr, ?_⟩
            rintro (rfl | hmem)
            · simp only [Set.mem_ofPred_eq, hthere, Option.isSome_some]
            · exact hmem
        · rw [← Except.ok.inj hok]
          by_cases hkey : key = input.objectKey
          · simp only [hkey, Set.mem_ofPred_eq, Function.update_self, Option.isSome_some,
              Set.mem_insert_iff, true_or]
          · simp only [Set.mem_ofPred_eq, Function.update_of_ne hkey, Set.mem_insert_iff, hkey,
              false_or, view]
      cases hok : putImmutableObject input s.storage with
      | error err =>
          cases w <;>
            exact .rest (within_end i .ended rfl (Set.Subset.refl _) (Set.Subset.refl _) rfl rfl)
      | ok storage =>
          cases w with
          | answered =>
              -- The object is there, and the submission has one more of them.
              refine ⟨.find i input.objectKey, trivial, trivial, ?_⟩
              refine within_set i _ rfl (hput storage hok).symm.subset (Set.Subset.refl _) ?_ nofun
                (fun _ => Set.Subset.refl _)
              intro k hk
              simp only [Call.held, List.take_add_one, hinput, List.map_append,
                Option.toList_some, List.map_cons, List.map_nil] at hk
              simp only [Collector.step, Function.update_self]
              rcases List.mem_append.mp hk with hold | hnew
              · refine Or.inr ?_
                simp only [view, hcall, Call.held, Set.mem_ofPred_eq]
                exact hold
              · exact Or.inl (List.mem_singleton.mp hnew)
          | lost =>
              refine .rest (within_end i .ended rfl ?_ (Set.Subset.refl _) rfl rfl)
              have hmore : (view s).objects ⊆ insert input.objectKey (view s).objects :=
                Set.subset_insert _ _
              exact hmore.trans (hput storage hok).symm.subset
          | refused =>
              exact .rest (within_end i .ended rfl (Set.Subset.refl _) (Set.Subset.refl _) rfl rfl)
  · exact .rest (within_self s)

theorem call_mem (j : Nat) : s.call j ∈ s.calls ∨ s.call j = .ended := by
  unfold LedgerState.call
  rw [List.getD_eq_getElem?_getD]
  cases h : s.calls[j]? with
  | none => exact Or.inr rfl
  | some c => exact Or.inl (List.mem_of_getElem? h)

/-- The rows of a batch that was taken name what the submission holds and nothing
    that is about to be deleted. -/
theorem commit_refines (accepted : Bool) (w : Outcome)
    (h : apart s (.commit i accepted w) = true) : Refines s (commit s i accepted w) := by
  unfold commit
  split
  · next submission written hcall =>
    split
    · next hall =>
      simp only [apart, hcall] at h
      have hother : ∀ c : Call, c.held = [] → c.doomed = [] → Refines s (s.set i c) := by
        intro c hheld hdoomed
        exact .rest (within_end i c rfl (Set.Subset.refl _) (Set.Subset.refl _) hheld hdoomed)
      cases hrows : commitRows submission.rows accepted s with
      | error err =>
          cases w with
          | answered =>
              simp only [Batch.send, hrows]
              exact hother _ rfl rfl
          | refused =>
              simp only [Batch.send]
              exact hother _ rfl rfl
          | lost =>
              simp only [Batch.send, hrows]
              exact hother _ rfl rfl
      | ok rt =>
          have hnew : accepted = true ∧ rt.2 = { s with rows := s.rows ++ submission.rows } := by
            unfold commitRows at hrows
            split at hrows
            · next hcond =>
              rw [Bool.and_eq_true] at hcond
              rw [← Except.ok.inj hrows]
              exact ⟨hcond.1, rfl⟩
            · cases hrows
          have htaken : w ≠ .refused → ∀ c : Call, c.held = [] → c.doomed = [] →
              Refines s (rt.2.set i c) := by
            intro hw c hheld hdoomed
            have hfree : ∀ r ∈ submission.rows, ∀ c ∈ s.calls,
                c.doomed.contains r.bodyObjectKey = false := by
              simp only [hnew.1, Bool.not_true, Bool.false_or, decide_eq_false hw,
                List.all_eq_true, Bool.not_eq_true'] at h
              exact h
            refine ⟨.commit i {key | ∃ r ∈ submission.rows, r.bodyObjectKey = key}, ?_, ?_, ?_⟩
            · rintro key ⟨r, hr, rfl⟩
              have hheld' : r.bodyObjectKey ∈ (s.call i).held := by
                rw [hcall, Call.held, hall, List.take_length]
                exact submission.named r hr
              exact hheld'
            · refine fun j => Set.disjoint_left.mpr ?_
              rintro key ⟨r, hr, rfl⟩ hdoom
              rcases call_mem s j with hmem | hended
              · have hnot := hfree r hr (s.call j) hmem
                rw [List.contains_eq_mem, decide_eq_false_iff_not] at hnot
                exact hnot hdoom
              · have hnone : r.bodyObjectKey ∈ (s.call j).doomed := hdoom
                rw [hended] at hnone
                cases hnone
            · rw [hnew.2]
              refine within_set i c rfl (Set.Subset.refl _) ?_ (by rw [hheld]; rintro _ ⟨⟩)
                (by rw [hdoomed]; rintro _ ⟨⟩) (fun _ => Set.Subset.refl _)
              rintro key ⟨r, hr, rfl⟩
              rcases List.mem_append.mp hr with hold | hrow
              · exact Or.inl ⟨r, hold, rfl⟩
              · exact Or.inr ⟨r, hrow, rfl⟩
          cases w with
          | answered =>
              simp only [Batch.send, hrows]
              exact htaken (fun h => by cases h) _ rfl rfl
          | refused =>
              simp only [Batch.send]
              exact hother _ rfl rfl
          | lost =>
              simp only [Batch.send, hrows]
              exact htaken (fun h => by cases h) _ rfl rfl
    · exact .rest (within_self s)
  · exact .rest (within_self s)

/-- What a collection finds nobody to name is named by no row. -/
theorem collect_refines (now : Nat) : Refines s (step s (.collect now)) := by
  let pending := (queuedObjects now s).filter (fun key => !referenced s key)
  refine ⟨.check s.calls.length {key | key ∈ pending}, ?_, trivial, ?_⟩
  · refine Set.disjoint_left.mpr ?_
    rintro key hkey ⟨r, hr, rfl⟩
    have hfree := (List.mem_filter.mp hkey).2
    rw [Bool.not_eq_true', referenced, List.any_eq_false] at hfree
    exact hfree r hr (decide_eq_true rfl)
  · refine within_begin _ (Set.Subset.refl _) (Set.Subset.refl _) rfl ?_ (fun j => ?_)
    · intro k hk
      simp only [Collector.step, Function.update_self]
      exact hk
    · by_cases hj : j = s.calls.length
      · subst hj
        -- No call was there before.
        have hended : s.call s.calls.length = .ended := by
          rw [LedgerState.call, List.getD_eq_getElem?_getD,
            List.getElem?_eq_none (Nat.le_refl _)]
          rfl
        simp only [view, hended]
        rintro _ ⟨⟩
      · simp only [Collector.step, Function.update_of_ne hj]
        exact Set.Subset.refl _

theorem deleteObject_refines (key : String) (w : Outcome)
    (gone : Bool) (h : apart s (.deleteObject i key w gone) = true) :
    Refines s (step s (.deleteObject i key w gone)) := by
  simp only [step]
  split
  · next pending completed failures now hcall =>
    split
    · next hmem =>
      have hmem' : key ∈ (s.call i).doomed := by
        rw [hcall]
        exact hmem
      have hless : ∀ (pending' completed' failures' : List String), pending' = pending.erase key →
          ∀ k ∈ (Call.collecting pending' completed' failures' now).doomed,
            k ∈ (view s).doomed i := by
        rintro pending' completed' failures' rfl k hk
        simp only [view, hcall, Set.mem_ofPred_eq]
        exact List.mem_of_mem_erase hk
      by_cases hw : w = .refused
      · rw [if_pos hw]
        refine ⟨.rest, trivial, trivial, ?_⟩
        split
        · exact within_set i _ rfl (Set.Subset.refl _) (Set.Subset.refl _) nofun
            (hless _ _ _ rfl) (fun _ => Set.Subset.refl _)
        · exact within_set i _ rfl (Set.Subset.refl _) (Set.Subset.refl _) nofun
            (hless _ _ _ rfl) (fun _ => Set.Subset.refl _)
      · rw [if_neg hw]
        have hfree : ∀ c ∈ s.calls, c.held.contains key = false := by
          simp only [apart, decide_eq_false hw, Bool.false_or, List.all_eq_true,
            Bool.not_eq_true'] at h
          exact h
        have hobjects : (Collector.step (view s) (.delete i key)).objects ⊆
            {k | (Function.update s.storage key none k).isSome} := by
          rintro k ⟨hk, hne⟩
          rw [Set.mem_ofPred_eq, Function.update_of_ne hne]
          exact hk
        refine ⟨.delete i key, hmem', ?_, ?_⟩
        · intro j hheld
          rcases call_mem s j with hthere | hended
          · have hnot := hfree (s.call j) hthere
            rw [List.contains_eq_mem, decide_eq_false_iff_not] at hnot
            exact hnot hheld
          · have hnone : key ∈ (s.call j).held := hheld
            rw [hended] at hnone
            cases hnone
        · split
          · exact within_set i _ rfl hobjects (Set.Subset.refl _) nofun (hless _ _ _ rfl)
              (fun _ => Set.Subset.refl _)
          · exact within_set i _ rfl hobjects (Set.Subset.refl _) nofun (hless _ _ _ rfl)
              (fun _ => Set.Subset.refl _)
    · exact .rest (within_self s)
  · exact .rest (within_self s)

theorem step_refines (e : LedgerEvent) (h : apart s e = true) :
    Refines s (step s e) := by
  have hended : ∀ (t : LedgerState) (i : Nat), t.calls = s.calls → t.storage = s.storage →
      t.rows ⊆ s.rows → ∀ c : Call, c.held = [] → c.doomed = [] → Refines s (t.set i c) := by
    intro t i hcalls hstorage hrows c hheld hdoomed
    refine .rest (within_end i c hcalls ?_ ?_ hheld hdoomed)
    · simp only [view, hstorage]
      exact Set.Subset.refl _
    · rintro key ⟨r, hr, rfl⟩
      exact ⟨r, hrows hr, rfl⟩
  cases e with
  | submit submission =>
      exact .rest (within_begin _ (Set.Subset.refl _) (Set.Subset.refl _) rfl nofun
        (fun _ => Set.Subset.refl _))
  | retain table kept now =>
      exact .rest (within_begin _ (Set.Subset.refl _) (Set.Subset.refl _) rfl nofun
        (fun _ => Set.Subset.refl _))
  | collect now => exact collect_refines s now
  | put i w => exact put_refines s i w
  | commit i accepted w => exact commit_refines s i accepted w h
  | queue i w =>
      simp only [step]
      split
      · split
        · exact hended s i rfl rfl (List.Subset.refl _) _ rfl rfl
        · exact hended _ i rfl rfl (List.Subset.refl _) _ rfl rfl
      · exact .rest (within_self s)
  | deleteRows i w =>
      simp only [step]
      split
      · next candidates now _ =>
        cases w with
        | refused => exact hended s i rfl rfl (List.Subset.refl _) _ rfl rfl
        | answered =>
            exact hended (deleteRows candidates s) i rfl rfl
              (fun _ hr => List.mem_of_mem_filter hr) _ rfl rfl
        | lost =>
            exact hended (deleteRows candidates s) i rfl rfl
              (fun _ hr => List.mem_of_mem_filter hr) _ rfl rfl
      · exact .rest (within_self s)
  | deleteObject i key w gone => exact deleteObject_refines s i key w gone h
  | finish i w =>
      simp only [step]
      split
      · split
        · exact hended s i rfl rfl (List.Subset.refl _) _ rfl rfl
        · exact hended _ i rfl rfl (List.Subset.refl _) _ rfl rfl
      · exact .rest (within_self s)
  | stop i => exact hended s i rfl rfl (List.Subset.refl _) _ rfl rfl

end

/-! ## Every committed row has its object -/

/-- The object that a row names is there. -/
def RowsBacked (s : LedgerState) : Prop :=
  ∀ r ∈ s.rows, s.storage r.bodyObjectKey ≠ none

theorem emptyLedger_intact : Collector.Intact (view emptyLedger) := by
  refine ⟨?_, fun i => nofun, fun j => Set.disjoint_left.mpr nofun⟩
  rintro key ⟨r, hr, -⟩
  cases hr

/-- In every state that a run leads to, the object of every committed row is there,
    as long as no submission commits what a collection is about to delete and no
    collection deletes what a submission has found or written. -/
theorem committed_rows_backed (es : List LedgerEvent)
    (h : Run.Along (fun s e => apart s e = true) step emptyLedger es) :
    ∀ pre, pre <+: es → RowsBacked (Run.runFrom step emptyLedger pre) := by
  rintro pre ⟨rest, rfl⟩ r hr
  have hpre := ((Run.along_append _ step emptyLedger pre rest).mp h).1
  have hintact := Run.runFrom_invariant step (fun s => Collector.Intact (view s))
    (fun s e hs hp => by
      rcases step_refines s e hp with ⟨e', hallowed, hapart, hwithin⟩
      exact (Collector.step_intact (view s) e' hs hallowed hapart).of_within hwithin)
    emptyLedger pre emptyLedger_intact hpre
  have hthere : r.bodyObjectKey ∈ (view (Run.runFrom step emptyLedger pre)).objects :=
    hintact.named ⟨r, hr, rfl⟩
  exact Option.isSome_iff_ne_none.mp hthere

/-! ## A bundle that is submitted again -/

/-- A bundle whose record is the only object of its submission. -/
def bundleSubmission (now : Nat) : Submission :=
  { objects := [{ objectKey := "o", bytes := [1], contentSha256 := "h" }]
    rows := [{
      table := .projectOperationRecords, id := "b", bodyObjectKey := "o", retainUntil := none }]
    now := now
    named := by decide }

/-- The bundle is refused and its object queued; it is submitted again while the
    queue is worked off, but committed only after the collection. -/
def resubmitted : List LedgerEvent :=
  [.submit (bundleSubmission 100), .put 0 .answered, .commit 0 true .refused, .queue 0 .answered,
    .collect 165, .deleteObject 1 "o" .answered true, .finish 1 .answered,
    .submit (bundleSubmission 170), .put 2 .answered, .commit 2 true .answered]

/-- The same, but the object is found again before it is deleted. -/
def overtaken : List LedgerEvent :=
  [.submit (bundleSubmission 100), .put 0 .answered, .commit 0 true .refused, .queue 0 .answered,
    .submit (bundleSubmission 150), .put 1 .answered, .collect 165,
    .deleteObject 2 "o" .answered true, .commit 1 true .answered]

theorem resubmitted_backed :
    (Run.runFrom step emptyLedger resubmitted).rows.length = 1 ∧
      ∀ pre, pre <+: resubmitted → RowsBacked (Run.runFrom step emptyLedger pre) :=
  ⟨by decide +kernel, committed_rows_backed resubmitted (by decide +kernel)⟩

/-- The row of the bundle names an object that is gone. -/
theorem overtaken_unbacked : ¬ RowsBacked (Run.runFrom step emptyLedger overtaken) := by
  intro h
  have hgone : (Run.runFrom step emptyLedger overtaken).rows.any (fun r =>
      ((Run.runFrom step emptyLedger overtaken).storage r.bodyObjectKey).isNone) = true := by
    decide +kernel
  rcases List.any_eq_true.mp hgone with ⟨r, hr, hnone⟩
  exact h r hr (Option.isNone_iff_eq_none.mp hnone)

end Mdevolved.Ledger
