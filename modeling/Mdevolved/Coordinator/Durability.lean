import Mdevolved.Coordinator.Calls

/-!
# Receipts and Crashes

What a receipt of the coordinator is worth. A call is given one once its update
is in the document in memory and the document has been saved. A save compares
state vectors and is skipped where the vector is the one last persisted. As a
state vector counts insertions only, deletions alone do not change it, and a
save that finds nothing but deletions is skipped although storage lacks them.

So a receipt is worth what it says exactly as far as saves that are skipped
leave nothing out, which `SavesAll` asks of the state a save begins in. In a
history of lives, each ended by a crash, in which all saves begin so, what a
call has been given a receipt for is loaded again after any of the crashes that
follow (`receipt_durable`). The proof is a rely and guarantee argument: what is
stored and what is in memory only grow, and nobody but the first of the chain
changes what is stored.

## Main definitions

* `durable`: What is kept in storage.
* `Intact`: What holds of a vault at any time.
* `Relies`: What a call relies on of the others.
* `VaultAllowed`: What an operation needs of the state it is taken from.
* `SavesAll`: A save that would be skipped leaves nothing out.

## Theorems

* `effect_keeps`: An allowed operation keeps a vault intact.
* `executeSave_meets`: After a save that went well all is kept.
* `receipt_durable`: What a call has a receipt for survives crashes.
* `deletion_lost`: A receipt for a deletion that a crash undoes.
-/

namespace Mdevolved.Coordinator

open Process Mdevolved.Materialization

section Durability

variable {Y : Yjs}

/-- What is kept in storage. -/
def durable (Y : Yjs) (store : DocStore) : Set (Change Y.Item) :=
  ⋃ u ∈ store.updates, Y.carries u

theorem durable_appendUpdate (store : DocStore) (delta : List UInt8) :
    durable Y (store.appendUpdate delta) = durable Y store ∪ Y.carries delta := by
  unfold DocStore.appendUpdate
  split
  · next hnil => rw [hnil, Y.carries_nil, Set.union_empty]
  · ext c
    simp only [durable, DocStore.updates, ← List.append_assoc, List.mem_append,
      List.mem_singleton, Set.mem_iUnion, exists_prop, Set.mem_union]
    constructor
    · rintro ⟨u, hu | rfl, hc⟩
      · exact Or.inl ⟨u, hu, hc⟩
      · exact Or.inr hc
    · rintro (⟨u, hu, hc⟩ | hc)
      · exact ⟨u, Or.inl hu, hc⟩
      · exact ⟨delta, Or.inr rfl, hc⟩

theorem durable_rewriteCheckpoint (checkpoint : Checkpoint) :
    durable Y (DocStore.rewriteCheckpoint checkpoint) = Y.carries checkpoint.update := by
  simp only [durable, DocStore.updates, DocStore.rewriteCheckpoint, Option.map_some,
    Option.toList_some, List.append_nil, List.mem_singleton, Set.iUnion_iUnion_eq_left]

/-- Loading adds what is stored. -/
theorem content_loadDocument (s : VaultState Y) :
    Y.content (loadDocument s).document = Y.content s.document ∪ durable Y s.store :=
  content_applyUpdates Y s.store.updates s.document

/-- A state vector counts nothing but what is in a set. -/
def CountsWithin (Y : Yjs) (v : List UInt8) (D : Set (Change Y.Item)) : Prop :=
  ∀ i ∈ Y.counts v, .insertion i ∈ D

theorem CountsWithin.mono {v : List UInt8} {D E : Set (Change Y.Item)} (h : CountsWithin Y v D)
    (hsub : D ⊆ E) : CountsWithin Y v E :=
  fun i hi => hsub (h i hi)

/-- State vectors say no more than what is stored, and a document that has been
    loaded has all of that. -/
structure Intact (s : VaultState Y) : Prop where
  checkpoint : ∀ c, s.store.checkpoint = some c →
    CountsWithin Y c.stateVector (durable Y s.store)
  persisted : ∀ v, s.lastPersistedStateVector = some v →
    CountsWithin Y v (durable Y s.store)
  loaded : s.documentLoaded = true → durable Y s.store ⊆ Y.content s.document
  unloaded : s.documentLoaded = false → Y.content s.document = ∅

/-- Nothing is taken back. -/
structure Grows (s t : VaultState Y) : Prop where
  content : Y.content s.document ⊆ Y.content t.document
  durable : durable Y s.store ⊆ durable Y t.store
  loaded : s.documentLoaded = true → t.documentLoaded = true

theorem Grows.refl (s : VaultState Y) : Grows s s :=
  { content := fun _ h => h, durable := fun _ h => h, loaded := id }

theorem Grows.trans {s t u : VaultState Y} (h : Grows s t) (h' : Grows t u) : Grows s u :=
  { content := h.content.trans h'.content
    durable := h.durable.trans h'.durable
    loaded := h'.loaded ∘ h.loaded }

/-- Whoever is the first of the chain stays so, and nobody else changes what is
    stored. -/
def KeepsTurn (call : Nat) (s t : VaultState Y) : Prop :=
  s.saveChain.head? = some call → t.saveChain.head? = some call ∧ t.store = s.store

/-- What a call relies on of the others. -/
structure Relies (call : Nat) (s t : VaultState Y) : Prop where
  grows : Grows s t
  turn : KeepsTurn call s t

theorem Relies.refl (call : Nat) (s : VaultState Y) : Relies call s s :=
  ⟨Grows.refl s, fun h => ⟨h, rfl⟩⟩

theorem Relies.trans {call : Nat} {s t u : VaultState Y} (h : Relies call s t)
    (h' : Relies call t u) : Relies call s u :=
  ⟨h.grows.trans h'.grows, fun hs =>
    ⟨(h'.turn (h.turn hs).1).1, (h'.turn (h.turn hs).1).2.trans (h.turn hs).2⟩⟩

/-- A checkpoint that has all that is stored, and nothing that is not in
    memory. -/
structure Whole (checkpoint : Checkpoint) (s : VaultState Y) : Prop where
  durable : durable Y s.store ⊆ Y.carries checkpoint.update
  content : Y.carries checkpoint.update ⊆ Y.content s.document
  counted : CountsWithin Y checkpoint.stateVector (Y.carries checkpoint.update)

/-- What an operation needs of the state it is taken from. Storage is changed by
    the first of the chain only. -/
def VaultAllowed (call : Nat) (op : VaultOp) (s : VaultState Y) : Prop :=
  match op with
  | .applyUpdate _ => s.documentLoaded = true
  | .appendUpdate _ delta => s.saveChain.head? = some call ∧ s.documentLoaded = true ∧
      Y.carries delta ⊆ Y.content s.document
  | .rewriteCheckpoint _ checkpoint => s.saveChain.head? = some call ∧
      s.documentLoaded = true ∧ Whole checkpoint s
  | .saveAppended _ v _ | .checkpointWritten _ v => CountsWithin Y v (durable Y s.store)
  | .endSave _ => s.saveChain.head? = some call
  | _ => True

/-- A save that is skipped because of the state vector leaves nothing out. -/
def SavesAll (op : VaultOp) (s : VaultState Y) : Prop :=
  match op with
  | .beginSave _ => s.lastPersistedStateVector = some (Y.encodeStateVector s.document) →
      Y.content s.document ⊆ durable Y s.store
  | _ => True

/-- The condition operations are taken under. -/
def InTurn (op : VaultOp) (_ : Batch.Outcome) (s : VaultState Y) : Prop :=
  ready op s = true ∧ SavesAll op s

/-! ## One operation -/

/-- What an operation that changes neither document nor storage keeps. -/
theorem keeps_of_same (s t : VaultState Y) (hi : Intact s) (hdocument : t.document = s.document)
    (hloaded : t.documentLoaded = s.documentLoaded) (hstore : t.store = s.store)
    (hpersisted : ∀ v, t.lastPersistedStateVector = some v →
      CountsWithin Y v (durable Y s.store)) : Intact t ∧ Grows s t := by
  refine ⟨⟨?_, ?_, ?_, ?_⟩, ⟨?_, ?_, ?_⟩⟩
  · rw [hstore]; exact hi.checkpoint
  · rw [hstore]; exact hpersisted
  · rw [hloaded, hstore, hdocument]; exact hi.loaded
  · rw [hloaded, hdocument]; exact hi.unloaded
  · rw [hdocument]
  · rw [hstore]
  · rw [hloaded]; exact id

/-- An update applied to a document that has been loaded. -/
theorem keeps_applyUpdate (s : VaultState Y) (update : List UInt8) (hi : Intact s)
    (hloaded : s.documentLoaded = true) :
    Intact { s with document := Y.applyUpdate s.document update } ∧
      Grows s { s with document := Y.applyUpdate s.document update } := by
  have hcontent : Y.content s.document ⊆ Y.content (Y.applyUpdate s.document update) := by
    rw [Y.content_applyUpdate]
    exact Set.subset_union_left
  refine ⟨⟨hi.checkpoint, hi.persisted, fun h => (hi.loaded h).trans hcontent, ?_⟩,
    ⟨hcontent, fun _ h => h, id⟩⟩
  intro h
  rw [hloaded] at h
  cases h

/-- Loading makes the document what is stored. -/
theorem keeps_loadDocument (s : VaultState Y) (hi : Intact s)
    (hunloaded : s.documentLoaded = false) :
    Intact (loadDocument s) ∧ Grows s (loadDocument s) := by
  have hcontent : Y.content (loadDocument s).document = durable Y s.store := by
    rw [content_loadDocument, hi.unloaded hunloaded, Set.empty_union]
  refine ⟨⟨hi.checkpoint, ?_, fun _ => hcontent.ge, nofun⟩, ⟨?_, fun _ h => h, fun _ => rfl⟩⟩
  · intro v hv
    have hcases : s.store.checkpoint.map Checkpoint.stateVector = some v ∨
        v = Y.encodeStateVector (loadDocument s).document := by
      simp only [loadDocument] at hv ⊢
      split at hv
      · next hcheckpoint _ => exact Or.inl (by rw [hcheckpoint, Option.map_some, hv])
      · exact Or.inr (Option.some.inj hv).symm
    rcases hcases with hcheckpoint | rfl
    · rcases Option.map_eq_some_iff.mp hcheckpoint with ⟨c, hc, rfl⟩
      exact hi.checkpoint c hc
    · intro i hmem
      exact hcontent ▸ Y.counts_encode _ i hmem
  · rw [hi.unloaded hunloaded]
    exact Set.empty_subset _

/-- An allowed operation keeps a vault intact, takes nothing back and leaves
    alone what whoever else has the turn relies on. -/
theorem effect_keeps (call : Nat) (op : VaultOp) (s t : VaultState Y) (r : op.Ret)
    (hi : Intact s) (hallowed : VaultAllowed call op s) (hready : ready op s = true)
    (h : effect s op = .ok (r, t)) :
    Intact t ∧ Grows s t ∧ ∀ j, j ≠ call → KeepsTurn j s t := by
  -- The first of the chain is one call only.
  have hother : ∀ j, j ≠ call → s.saveChain.head? = some call → s.saveChain.head? ≠ some j := by
    intro j hj hcall hhead
    rw [hcall, Option.some.injEq] at hhead
    exact hj hhead.symm
  have hsame : Intact s ∧ Grows s s ∧ ∀ j, j ≠ call → KeepsTurn j s s :=
    ⟨hi, Grows.refl s, fun _ _ hhead => ⟨hhead, rfl⟩⟩
  have hstill : ∀ t : VaultState Y, t.document = s.document →
      t.documentLoaded = s.documentLoaded → t.store = s.store →
      (∀ v, t.lastPersistedStateVector = some v → CountsWithin Y v (durable Y s.store)) →
      t.saveChain = s.saveChain → Intact t ∧ Grows s t ∧ ∀ j, j ≠ call → KeepsTurn j s t := by
    intro t hdocument hloaded hstore hpersisted hchain
    have hkept := keeps_of_same s t hi hdocument hloaded hstore hpersisted
    exact ⟨hkept.1, hkept.2, fun j _ hhead => ⟨hchain ▸ hhead, hstore⟩⟩
  cases op with
  | ensureDocumentLoaded =>
      simp only [effect, Batch.ok_inj, true_and] at h
      split at h
      · exact h ▸ hsame
      · next hunloaded =>
        have hkept := keeps_loadDocument s hi (by simpa using hunloaded)
        exact h ▸ ⟨hkept.1, hkept.2, fun _ _ hhead => ⟨hhead, rfl⟩⟩
  | applyUpdate update =>
      simp only [effect] at h
      split at h
      · simp only [Batch.ok_inj, true_and] at h
        have hkept := keeps_applyUpdate s update hi hallowed
        exact h ▸ ⟨hkept.1, hkept.2, fun _ _ hhead => ⟨hhead, rfl⟩⟩
      · cases h
  | handleMessage update =>
      simp only [effect, Batch.ok_inj, true_and] at h
      split at h
      · have hkept := keeps_applyUpdate s update hi hready
        exact h ▸ ⟨hkept.1, hkept.2, fun _ _ hhead => ⟨hhead, rfl⟩⟩
      · exact h ▸ hsame
  | enqueueSave j =>
      simp only [effect, Batch.ok_inj, true_and] at h
      have hkept := keeps_of_same s t hi (h ▸ rfl) (h ▸ rfl) (h ▸ rfl) (h ▸ hi.persisted)
      refine ⟨hkept.1, hkept.2, fun j' _ hhead => ⟨?_, h ▸ rfl⟩⟩
      rw [← h]
      simp only [List.head?_append, hhead, Option.some_or]
  | appendUpdate j delta =>
      simp only [effect, Batch.ok_inj] at h
      have hdurable := durable_appendUpdate (Y := Y) s.store delta
      have hgrows : durable Y s.store ⊆ durable Y (s.store.appendUpdate delta) :=
        hdurable ▸ Set.subset_union_left
      have hcheckpoint : (s.store.appendUpdate delta).checkpoint = s.store.checkpoint := by
        unfold DocStore.appendUpdate
        split <;> rfl
      rw [← h.2]
      refine ⟨⟨fun c hc => ?_, fun v hv => ?_, fun _ => ?_, hi.unloaded⟩,
        ⟨fun _ hc => hc, hgrows, id⟩, fun j' hj hhead => absurd hhead (hother j' hj hallowed.1)⟩
      · exact (hi.checkpoint c (hcheckpoint ▸ hc)).mono hgrows
      · exact (hi.persisted v hv).mono hgrows
      · rw [hdurable]
        exact Set.union_subset (hi.loaded hallowed.2.1) hallowed.2.2
  | rewriteCheckpoint j checkpoint =>
      simp only [effect, Batch.ok_inj, true_and] at h
      have hdurable := durable_rewriteCheckpoint (Y := Y) checkpoint
      have hwhole := hallowed.2.2
      have hgrows : durable Y s.store ⊆ durable Y (DocStore.rewriteCheckpoint checkpoint) :=
        hdurable ▸ hwhole.durable
      rw [← h]
      refine ⟨⟨fun c hc => ?_, fun v hv => ?_, fun _ => ?_, hi.unloaded⟩,
        ⟨fun _ hc => hc, hgrows, id⟩, fun j' hj hhead => absurd hhead (hother j' hj hallowed.1)⟩
      · have heq : checkpoint = c := Option.some.inj hc
        rw [← heq, hdurable]
        exact hwhole.counted
      · exact (hi.persisted v hv).mono hgrows
      · rw [hdurable]
        exact hwhole.content
  | endSave j =>
      simp only [effect, Batch.ok_inj, true_and] at h
      have hkept := keeps_of_same s t hi (h ▸ rfl) (h ▸ rfl) (h ▸ rfl) (h ▸ hi.persisted)
      exact ⟨hkept.1, hkept.2, fun j' hj hhead => absurd hhead (hother j' hj hallowed)⟩
  | saveAppended j v stats =>
      simp only [effect, Batch.ok_inj] at h
      refine hstill t (h.2 ▸ rfl) (h.2 ▸ rfl) (h.2 ▸ rfl) (fun v' hv' => ?_) (h.2 ▸ rfl)
      rw [← h.2, Option.some.injEq] at hv'
      exact hv' ▸ hallowed
  | checkpointWritten j v =>
      simp only [effect, Batch.ok_inj, true_and] at h
      refine hstill t (h ▸ rfl) (h ▸ rfl) (h ▸ rfl) (fun v' hv' => ?_) (h ▸ rfl)
      rw [← h, Option.some.injEq] at hv'
      exact hv' ▸ hallowed
  | requirePersistedStateVector =>
      simp only [effect] at h
      split at h
      · cases h
      · simp only [Batch.ok_inj] at h
        exact h.2 ▸ hsame
  | _ =>
      simp only [effect, Batch.ok_inj] at h
      exact hstill t (h.2 ▸ rfl) (h.2 ▸ rfl) (h.2 ▸ rfl) (h.2 ▸ hi.persisted) (h.2 ▸ rfl)

/-- What an operation leaves is what it does, or what was there. -/
theorem exec_cases (op : VaultOp) (w : Batch.Outcome) (s : VaultState Y) :
    (exec op w s).2 = s ∨ ∃ r, effect s op = .ok (r, (exec op w s).2) := by
  have hsend : ∀ w', (Batch.send VaultError.unavailable w' (fun s => effect s op) s).2 = s ∨
      ∃ r, effect s op =
        .ok (r, (Batch.send VaultError.unavailable w' (fun s => effect s op) s).2) := by
    intro w'
    exact (Batch.send_cases _ w' _ s).imp id (fun ⟨r, h, _⟩ => ⟨r, h⟩)
  cases op with
  | ensureDocumentLoaded =>
      simp only [exec]
      split
      · exact hsend .answered
      · exact Or.inl rfl
  | sendEcho v => exact Or.inl rfl
  | _ => exact hsend _

/-- An operation that goes through does what it answers for. -/
theorem exec_ok (op : VaultOp) (hop : ∀ v, op ≠ .sendEcho v) (w : Batch.Outcome)
    (s : VaultState Y) (r : op.Ret) (h : (exec op w s).1 = .ok r) :
    effect s op = .ok (r, (exec op w s).2) := by
  cases op with
  | ensureDocumentLoaded =>
      simp only [exec] at h ⊢
      split at h
      · next hanswered =>
        rw [if_pos hanswered]
        exact Batch.send_ok _ _ _ s r h
      · cases h
  | sendEcho v => exact absurd rfl (hop v)
  | _ => exact Batch.send_ok _ _ _ s r h

theorem exec_keeps (call : Nat) (op : VaultOp) (w : Batch.Outcome) (s : VaultState Y)
    (hi : Intact s) (hallowed : VaultAllowed call op s) (hready : ready op s = true) :
    Intact (exec op w s).2 ∧ Grows s (exec op w s).2 ∧
      ∀ j, j ≠ call → KeepsTurn j s (exec op w s).2 := by
  rcases exec_cases op w s with hsame | ⟨r, h⟩
  · rw [hsame]
    exact ⟨hi, Grows.refl s, fun _ _ hhead => ⟨hhead, rfl⟩⟩
  · exact effect_keeps call op s _ r hi hallowed hready h

/-! ## One save -/

variable (call : Nat)

/-- What a call does, given what the others do. -/
abbrev MeetsVault {α : Type} (Q : Except VaultError α → VaultState Y → Prop)
    (p : VaultProcess α) (s : VaultState Y) : Prop :=
  p.Meets exec InTurn Intact (Relies call) (VaultAllowed call) Q s

/-- Storage has all of a set. -/
def Stored (A : Set (Change Y.Item)) (s : VaultState Y) : Prop :=
  A ⊆ durable Y s.store

theorem Stored.relies {A : Set (Change Y.Item)} {s t : VaultState Y} (h : Stored A s)
    (hst : Relies call s t) : Stored A t :=
  h.trans hst.grows.durable

theorem Stored.exec {A : Set (Change Y.Item)} {s : VaultState Y} (h : Stored A s) (op : VaultOp)
    (w : Batch.Outcome) (hi : Intact s) (hallowed : VaultAllowed call op s)
    (hC : InTurn op w s) : Stored A (exec op w s).2 :=
  h.trans (exec_keeps call op w s hi hallowed hC.1).2.1.durable

/-- What is stored stays stored, whoever acts. -/
theorem meets_stored {α : Type} {Q : Except VaultError α → VaultState Y → Prop}
    (A : Set (Change Y.Item)) (p : VaultProcess α) (s : VaultState Y) (hA : Stored A s)
    (h : MeetsVault call Q p s) : MeetsVault call (fun r t => Q r t ∧ Stored A t) p s :=
  meets_frame (Stored A) (fun _ _ hA hst => hA.relies call hst)
    (fun op w _ hi hallowed hC hA => hA.exec call op w hi hallowed hC) p s hA h

/-- It is a call's turn to save, and a document in memory has what it is about. -/
structure Turn (A : Set (Change Y.Item)) (s : VaultState Y) : Prop where
  loaded : s.documentLoaded = true
  content : A ⊆ Y.content s.document
  head : s.saveChain.head? = some call

variable {call}

theorem Turn.relies {A : Set (Change Y.Item)} {s t : VaultState Y} (h : Turn call A s)
    (hst : Relies call s t) : Turn call A t :=
  { loaded := hst.grows.loaded h.loaded
    content := h.content.trans hst.grows.content
    head := (hst.turn h.head).1 }

/-- The operations of a save, from its turn on. -/
def VaultOp.ofSave : VaultOp → Bool
  | .beginSave _ | .appendUpdate _ _ | .rewriteCheckpoint _ _ | .getJournalStats
  | .saveAppended _ _ _ | .appendFailed _ | .checkpointWritten _ _ | .saveFailed _ => true
  | _ => false

/-- They leave the chain alone. -/
theorem effect_saveChain (op : VaultOp) (hop : op.ofSave = true) (s t : VaultState Y) (r : op.Ret)
    (h : effect s op = .ok (r, t)) : t.saveChain = s.saveChain := by
  cases op <;> simp only [VaultOp.ofSave, Bool.false_eq_true] at hop <;>
    simp only [effect, Batch.ok_inj] at h <;> rw [← h.2]

/-- One operation of a save, in the turn of the call. -/
theorem meets_ofSave {α : Type} {Q : Except VaultError α → VaultState Y → Prop}
    {A : Set (Change Y.Item)} (op : VaultOp) (hop : op.ofSave = true) (f : op.Ret → VaultProcess α)
    (s : VaultState Y) (hturn : Turn call A s)
    (h : ∀ t, Intact t → Turn call A t → t.store = s.store → Grows s t →
      VaultAllowed call op t ∧ ∀ u, Turn call A u → Grows t u →
        (∀ r, effect t op = .ok (r, u) → SavesAll op t → MeetsVault call Q (f r) u) ∧
        ∀ e, Q (.error e) u) :
    MeetsVault call Q (ask op >>= f) s := by
  refine meets_request op f s (fun t hi hst => ?_)
  have ht := hturn.relies hst
  have hallowed := h t hi ht (hst.turn hturn.head).2 hst.grows
  refine ⟨hallowed.1, fun w hC => ?_⟩
  have hgrows := (exec_keeps call op w t hi hallowed.1 hC.1).2.1
  have hu : Turn call A (exec op w t).2 := by
    refine ⟨hgrows.loaded ht.loaded, ht.content.trans hgrows.content, ?_⟩
    rcases exec_cases op w t with hsame | ⟨r, hr⟩
    · rw [hsame]; exact ht.head
    · rw [effect_saveChain op hop t _ r hr]; exact ht.head
  have hnext := hallowed.2 _ hu hgrows
  refine ⟨fun r hr => hnext.1 r (exec_ok op (fun v hv => ?_) w t r hr) hC.2,
    fun e _ => hnext.2 e⟩
  rw [hv] at hop
  cases hop

theorem Whole.grows {checkpoint : Checkpoint} {s t : VaultState Y} (h : Whole checkpoint s)
    (hstore : t.store = s.store) (hgrows : Grows s t) : Whole checkpoint t :=
  { durable := hstore ▸ h.durable
    content := h.content.trans hgrows.content
    counted := h.counted }

section

variable (A : Set (Change Y.Item)) (s : VaultState Y)

/-- A document that has been loaded makes a whole checkpoint. -/
theorem currentCheckpoint_whole (hi : Intact s)
    (hloaded : s.documentLoaded = true) : Whole (currentCheckpoint s) s := by
  have hcarries : Y.carries (currentCheckpoint s).update = Y.content s.document :=
    Y.carries_encode_all s.document
  refine ⟨hcarries ▸ hi.loaded hloaded, hcarries.le, ?_⟩
  rw [hcarries]
  exact Y.counts_encode s.document

/-- A process ends in its turn, and if it says so, what it is about is stored. -/
def Ends {α : Type} (call : Nat) (A : Set (Change Y.Item)) (saved : α → Bool) :
    Except VaultError α → VaultState Y → Prop
  | .ok r, s => Turn call A s ∧ (saved r = true → Stored A s)
  | .error _, _ => True

/-- A checkpoint that was written has all it should. -/
theorem saveCheckpoint_meets (checkpoint : Checkpoint)
    (s : VaultState Y) (hturn : Turn call A s) (hwhole : Whole checkpoint s)
    (hA : A ⊆ Y.carries checkpoint.update) :
    MeetsVault call (Ends call A id) (saveCheckpoint call checkpoint) s := by
  have hfailed : ∀ t : VaultState Y, Turn call A t → Ends call A id (.ok false) t :=
    fun t ht => ⟨ht, fun h => absurd h (by decide)⟩
  refine meets_tryCatch _ _ s ?_
  refine meets_ofSave (.rewriteCheckpoint call checkpoint) rfl _ s hturn
    (fun t _ ht hstore hgrows => ⟨⟨ht.head, ht.loaded, hwhole.grows hstore hgrows⟩,
      fun u hu _ => ⟨fun _ hr _ => ?_, fun _ => hfailed u hu⟩⟩)
  simp only [effect, Batch.ok_inj, true_and] at hr
  have hdurable : durable Y u.store = Y.carries checkpoint.update := by
    rw [← hr, durable_rewriteCheckpoint]
  -- Nobody else changes what is stored before the vector is recorded.
  refine meets_ofSave (.checkpointWritten call checkpoint.stateVector) rfl _ u hu
    (fun t₂ _ _ hstore₂ _ => ⟨?_, fun u₂ hu₂ hgrows₂ => ⟨fun _ _ _ => ?_, fun _ => hfailed u₂ hu₂⟩⟩)
  · unfold VaultAllowed
    rw [hstore₂, hdurable]
    exact hwhole.counted
  · have hstored : Stored A u₂ := by
      refine Set.Subset.trans ?_ hgrows₂.durable
      rw [hstore₂, hdurable]
      exact hA
    exact meets_ofSave .getJournalStats rfl _ u₂ hu₂
      (fun t₃ _ _ hstore₃ _ => ⟨trivial, fun u₃ hu₃ hgrows₃ =>
        ⟨fun _ _ _ => ⟨hu₃, fun _ => (hstored.trans (hstore₃ ▸ hgrows₃.durable))⟩,
          fun _ => hfailed u₃ hu₃⟩⟩)

/-- A save that says it went well has stored all it is about. -/
abbrev EndsSave (call : Nat) (A : Set (Change Y.Item)) :
    Except VaultError SaveResult → VaultState Y → Prop :=
  Ends call A SaveResult.success

theorem endsSave_failed {A : Set (Change Y.Item)} {method : SaveMethod} {s : VaultState Y}
    (hturn : Turn call A s) : EndsSave call A (.ok { success := false, method := method }) s :=
  ⟨hturn, fun h => absurd h Bool.false_ne_true⟩

theorem executeCheckpointFallback_meets (checkpoint : Checkpoint)
    (s : VaultState Y) (hturn : Turn call A s) (hwhole : Whole checkpoint s)
    (hA : A ⊆ Y.carries checkpoint.update) :
    MeetsVault call (EndsSave call A) (executeCheckpointFallback call checkpoint) s := by
  refine meets_bind _ _ s (meets_mono (fun _ _ h => h) ?_ _ s
    (saveCheckpoint_meets A checkpoint s hturn hwhole hA))
  intro r t hends
  cases r with
  | error e => exact trivial
  | ok success =>
      cases success with
      | true => exact ⟨hends.1, fun _ => hends.2 rfl⟩
      | false =>
          exact meets_ofSave (.saveFailed call) rfl _ t hends.1 (fun _ _ _ _ _ =>
            ⟨trivial, fun _ hu _ => ⟨fun _ _ _ => endsSave_failed hu, fun _ => trivial⟩⟩)

/-- A checkpoint in place of an update that could not be appended. -/
theorem executeImmediateFallback_meets (hturn : Turn call A s) :
    MeetsVault call (EndsSave call A) (executeImmediateFallback call) s := by
  refine meets_ofSave (.appendFailed call) rfl _ s hturn (fun t hi ht _ _ =>
    ⟨trivial, fun u hu _ => ⟨fun fallback hr _ => ?_, fun _ => trivial⟩⟩)
  simp only [effect, Batch.ok_inj] at hr
  cases fallback with
  | none => exact endsSave_failed hu
  | some checkpoint =>
      have heq : currentCheckpoint t = checkpoint := by
        have hsome := hr.1
        split at hsome
        · exact Option.some.inj hsome
        · cases hsome
      have hwhole : Whole checkpoint u := by
        rw [← heq, ← hr.2]
        exact (currentCheckpoint_whole t hi ht.loaded).grows rfl ⟨fun _ h => h, fun _ h => h, id⟩
      have hA : A ⊆ Y.carries checkpoint.update := by
        rw [← heq, currentCheckpoint, Y.carries_encode_all]
        exact ht.content
      refine meets_bind _ _ u (meets_mono (fun _ _ h => h) ?_ _ u
        (saveCheckpoint_meets A checkpoint u hu hwhole hA))
      intro r v hends
      cases r with
      | error e => exact trivial
      | ok success => exact hends

/-- What was appended stays stored, whether or not a checkpoint follows. -/
theorem executeCompaction_meets (stateVector : List UInt8)
    (stats : JournalStats) (s : VaultState Y) (hturn : Turn call A s) (hA : Stored A s)
    (hcounts : CountsWithin Y stateVector (durable Y s.store)) :
    MeetsVault call (EndsSave call A) (executeCompaction call stateVector stats) s := by
  refine meets_ofSave (.saveAppended call stateVector stats) rfl _ s hturn
    (fun t hi ht hstore _ => ⟨?_, fun u hu hgrows => ⟨fun compacted hr _ => ?_, fun _ => trivial⟩⟩)
  · unfold VaultAllowed
    rw [hstore]
    exact hcounts
  · have hstored : Stored A u := hA.trans (hstore ▸ hgrows.durable)
    simp only [effect, Batch.ok_inj] at hr
    cases compacted with
    | none => exact ⟨hu, fun _ => hstored⟩
    | some checkpoint =>
        have heq : currentCheckpoint t = checkpoint := by
          have hsome := hr.1
          unfold compaction at hsome
          split at hsome
          · exact Option.some.inj hsome
          · cases hsome
        have hwhole : Whole checkpoint u := by
          rw [← heq, ← hr.2]
          exact (currentCheckpoint_whole t hi ht.loaded).grows rfl ⟨fun _ h => h, fun _ h => h, id⟩
        have hcarried : A ⊆ Y.carries checkpoint.update := by
          rw [← heq, currentCheckpoint, Y.carries_encode_all]
          exact ht.content
        refine meets_bind _ _ u (meets_mono (fun _ _ h => h) ?_ _ u (meets_stored call A _ u hstored
          (saveCheckpoint_meets A checkpoint u hu hwhole hcarried)))
        rintro r v ⟨hends, hkept⟩
        cases r with
        | error e => exact trivial
        | ok success => exact ⟨hends.1, fun _ => hkept⟩

theorem executeAppend_meets (delta stateVector : List UInt8)
    (s : VaultState Y) (hturn : Turn call A s) (hdelta : Y.carries delta ⊆ Y.content s.document)
    (hA : A ⊆ durable Y s.store ∪ Y.carries delta)
    (hcounts : CountsWithin Y stateVector (durable Y s.store ∪ Y.carries delta)) :
    MeetsVault call (EndsSave call A) (executeAppend call delta stateVector) s := by
  refine meets_bind _ _ s (meets_tryCatch _ _ s ?_)
  refine meets_ofSave (.appendUpdate call delta) rfl _ s hturn (fun t _ ht hstore hgrows =>
    ⟨⟨ht.head, ht.loaded, hdelta.trans hgrows.content⟩, fun u hu _ =>
      ⟨fun stats hr _ => ?_, fun _ => executeImmediateFallback_meets A u hu⟩⟩)
  simp only [effect, Batch.ok_inj] at hr
  have hdurable : durable Y u.store = durable Y s.store ∪ Y.carries delta := by
    rw [← hr.2, durable_appendUpdate, hstore]
  refine executeCompaction_meets A stateVector stats u hu ?_ ?_
  · unfold Stored
    rw [hdurable]
    exact hA
  · rw [hdurable]
    exact hcounts

/-- What is in memory is stored, or in the change since the last save. -/
theorem content_stored_or_delta (hi : Intact s) :
    Y.content s.document ⊆ durable Y s.store ∪
      Y.carries (Y.encodeStateAsUpdate s.document s.lastPersistedStateVector) := by
  cases hlast : s.lastPersistedStateVector with
  | none =>
      rw [Y.carries_encode_all]
      exact Set.subset_union_right
  | some v => exact carries_encode_union Y s.document v _ (hi.persisted v hlast)

theorem carries_delta (d : Y.Doc) (v : Option (List UInt8)) :
    Y.carries (Y.encodeStateAsUpdate d v) ⊆ Y.content d := by
  cases v with
  | none => exact (Y.carries_encode_all d).le
  | some v => exact Y.carries_encode_le d v

/-- A save has its turn as it begins. -/
theorem executeSave_meets (hloaded : s.documentLoaded = true) (hA : A ⊆ Y.content s.document) :
    MeetsVault call (EndsSave call A) (executeSave call) s := by
  refine meets_request (VaultOp.beginSave call) _ s (fun t hi hst => ⟨trivial, fun w hC =>
    ⟨fun plan hplan => ?_, fun _ _ => trivial⟩⟩)
  have hhead : t.saveChain.head? = some call := by
    simpa only [ready, decide_eq_true_eq] using hC.1
  have hu := exec_ok (.beginSave call) (fun _ => nofun) w t plan hplan
  simp only [effect, Batch.ok_inj] at hu
  rw [← hu.2]
  have hturn : Turn call A t :=
    ⟨hst.grows.loaded hloaded, hA.trans hst.grows.content, hhead⟩
  have hall := content_stored_or_delta t hi
  have hplanned := hu.1
  unfold planSave at hplanned
  dsimp only at hplanned
  split at hplanned
  · -- The state vector is the one last persisted.
    next heq =>
    rw [← hplanned]
    exact ⟨hturn, fun _ => hturn.content.trans (hC.2 heq)⟩
  · split at hplanned
    · -- There is nothing to append.
      next hnil =>
      rw [← hplanned]
      rw [List.length_eq_zero_iff.mp hnil, Y.carries_nil, Set.union_empty] at hall
      exact ⟨hturn, fun _ => hturn.content.trans hall⟩
    · split at hplanned
      · rw [← hplanned]
        refine executeCheckpointFallback_meets A _ t hturn
          (currentCheckpoint_whole t hi hturn.loaded) ?_
        rw [currentCheckpoint, Y.carries_encode_all]
        exact hturn.content
      · rw [← hplanned]
        refine executeAppend_meets A _ _ t hturn (carries_delta _ _) (hturn.content.trans hall) ?_
        exact CountsWithin.mono (Y.counts_encode t.document) hall

/-- A save waits for its turn, and makes room for the next. -/
theorem enqueueSave_meets (hloaded : s.documentLoaded = true) (hA : A ⊆ Y.content s.document) :
    MeetsVault call (fun r t => ∀ result, r = .ok result → result.success = true → Stored A t)
      (enqueueSave call) s := by
  refine meets_request (VaultOp.enqueueSave call) _ s (fun t hi hst => ⟨trivial, fun w hC =>
    ⟨fun _ _ => ?_, fun _ _ => nofun⟩⟩)
  have hgrows := (exec_keeps call (.enqueueSave call) w t hi trivial hC.1).2.1
  have hloaded₁ := hgrows.loaded (hst.grows.loaded hloaded)
  have hA₁ := (hA.trans hst.grows.content).trans hgrows.content
  refine meets_bind _ _ _ (meets_mono (fun _ _ h => h) ?_ _ _
    (executeSave_meets A _ hloaded₁ hA₁))
  intro r v hends
  cases r with
  | error e => exact nofun
  | ok result =>
      refine meets_request (VaultOp.endSave call) _ v (fun v₂ hi₂ hst₂ =>
        ⟨(hst₂.turn hends.1.head).1, fun w₂ hC₂ => ⟨fun _ _ => ?_, fun _ _ => nofun⟩⟩)
      rintro result' heq hsuccess
      rw [Except.ok.injEq] at heq
      exact ((hends.2 (heq ▸ hsuccess)).relies call hst₂).exec call _ w₂ hi₂
        (hst₂.turn hends.1.head).1 hC₂

end

/-! ## The calls -/

/-- Operations that need nothing and change neither document nor storage. -/
def VaultOp.ofRecord : VaultOp → Prop
  | .requirePersistedStateVector | .readRecordedStateVector | .recordStateVector _ _
  | .clearRetry | .readSyncState | .setAlarm _ | .sendEcho _ | .closeConnection => True
  | _ => False

theorem within_ask (op : VaultOp) (h : op.ofRecord) :
    (ask op).Within VaultOp.ofRecord (fun _ => True) :=
  within_request op h

section

variable (sha256 : List UInt8 → String) (now : Nat)

theorem within_recordPersistedState :
    (recordPersistedState sha256 now).Within VaultOp.ofRecord (fun _ => True) := by
  refine within_bind (within_ask .requirePersistedStateVector trivial) (fun v _ => ?_)
  refine within_bind (within_ask .readRecordedStateVector trivial) (fun old _ => ?_)
  have hrest : (do
      let state ← ask .readSyncState
      if state.any (fun r => r.initialSyncAt.isSome && r.libraryStale && r.lastErrorCode = none) then
        ask (.setAlarm automaticMaterializationDebounceMs)
      else pure () : VaultProcess Unit).Within VaultOp.ofRecord (fun _ => True) := by
    refine within_bind (within_ask .readSyncState trivial) (fun state _ => ?_)
    split
    · exact within_ask (.setAlarm automaticMaterializationDebounceMs) trivial
    · exact trivial
  refine within_bind (within_ask (.recordStateVector (sha256 v) now) trivial)
    (fun _ _ => ?_)
  dsimp only
  split
  · exact within_bind (within_ask .clearRetry trivial) (fun _ _ => hrest)
  · exact hrest

/-- What is stored stays stored while it is recorded and told. -/
theorem meets_ofRecord {α : Type} (A : Set (Change Y.Item)) (p : VaultProcess α)
    (s : VaultState Y) (hA : Stored A s) (hp : p.Within VaultOp.ofRecord (fun _ => True)) :
    MeetsVault call (fun _ t => Stored A t) p s :=
  meets_of_within (Stored A) (fun _ _ hA hst => hA.relies call hst)
    (fun op w _ hi hallowed hC hA => hA.exec call op w hi hallowed hC)
    (fun op _ _ _ hop => by cases op <;> first | exact trivial | cases hop) (fun _ _ h => h) p s hA
    hp

/-- A document that has been asked for is loaded. -/
theorem loaded_of_ensured (s t : VaultState Y) (r : Unit)
    (h : effect s .ensureDocumentLoaded = .ok (r, t)) : t.documentLoaded = true := by
  simp only [effect, Batch.ok_inj] at h
  rw [← h.2]
  split
  · next hloaded => exact hloaded
  · rfl

/-- What a call says it has stored. -/
def StoresWhere {α : Type} (A : Set (Change Y.Item)) (receipt : α → Bool) :
    Except VaultError α → VaultState Y → Prop
  | .ok r, s => receipt r = true → Stored A s
  | .error _, _ => True

theorem persistCurrentDocument_meets (A : Set (Change Y.Item)) (s : VaultState Y) (hA : A ⊆ Y.content s.document) :
    MeetsVault call (StoresWhere A SaveResult.success)
      (persistCurrentDocument sha256 call now) s := by
  refine meets_request VaultOp.ensureDocumentLoaded _ s (fun t hi hst => ⟨trivial, fun w hC =>
    ⟨fun r hr => ?_, fun _ _ => trivial⟩⟩)
  have hgrows := (exec_keeps call .ensureDocumentLoaded w t hi trivial hC.1).2.1
  have hloaded := loaded_of_ensured t _ r (exec_ok .ensureDocumentLoaded (fun _ => nofun) w t r hr)
  have hA₁ := (hA.trans hst.grows.content).trans hgrows.content
  refine meets_bind _ _ _ (meets_mono (fun _ _ h => h) ?_ _ _
    (enqueueSave_meets A _ hloaded hA₁))
  intro saved v hsaved
  cases saved with
  | error e => exact trivial
  | ok result =>
      unfold Then
      dsimp only
      split
      · next hsuccess =>
        refine meets_bind _ _ v (meets_mono (fun _ _ h => h) ?_ _ v
          (meets_ofRecord A _ v (hsaved result rfl hsuccess)
            (within_recordPersistedState sha256 now)))
        intro r' v' hstored
        cases r' with
        | error e => exact trivial
        | ok _ => exact fun _ => hstored
      · next hfailed => exact fun hsuccess => absurd hsuccess hfailed

/-- What follows a save that went well only tells of it. -/
theorem meets_afterSave {α : Type} (sha256 : List UInt8 → String) (now : Nat)
    (A : Set (Change Y.Item)) (receipt : α → Bool) (f : SaveResult → VaultProcess α)
    (hsaved : ∀ result, result.success = true →
      (f result).Within VaultOp.ofRecord (fun _ => True))
    (hfailed : ∀ result (t : VaultState Y), result.success = false →
      MeetsVault call (StoresWhere A receipt) (f result) t)
    (s : VaultState Y) (hA : A ⊆ Y.content s.document) :
    MeetsVault call (StoresWhere A receipt) (persistCurrentDocument sha256 call now >>= f) s := by
  refine meets_bind _ _ s (meets_mono (fun _ _ h => h) ?_ _ s
    (persistCurrentDocument_meets sha256 now A s hA))
  intro r t hr
  cases r with
  | error e => exact trivial
  | ok result =>
      cases hsuccess : result.success with
      | false => exact hfailed result t hsuccess
      | true =>
          refine meets_mono (fun _ _ h => h) ?_ _ t
            (meets_ofRecord A _ t (hr hsuccess) (hsaved result hsuccess))
          intro r' t' hstored
          cases r' with
          | error e => exact trivial
          | ok _ => exact fun _ => hstored

theorem applyUpdate_meets (update : List UInt8) (now : Nat)
    (s : VaultState Y) :
    MeetsVault call (StoresWhere (Y.carries update) Option.isSome)
      (applyUpdate sha256 update call now) s := by
  refine meets_request VaultOp.ensureDocumentLoaded _ s (fun t hi hst => ⟨trivial, fun w hC =>
    ⟨fun r hr => ?_, fun _ _ => trivial⟩⟩)
  have hloaded := loaded_of_ensured t _ r (exec_ok .ensureDocumentLoaded (fun _ => nofun) w t r hr)
  refine meets_request (VaultOp.applyUpdate update) _ _ (fun t₂ hi₂ hst₂ =>
    ⟨hst₂.grows.loaded hloaded, fun w₂ hC₂ => ⟨fun r₂ hr₂ => ?_, fun _ _ => trivial⟩⟩)
  have happlied := exec_ok (.applyUpdate update) (fun _ => nofun) w₂ t₂ r₂ hr₂
  have hA : Y.carries update ⊆ Y.content (exec (.applyUpdate update) w₂ t₂).2.document := by
    simp only [effect] at happlied
    split at happlied
    · simp only [Batch.ok_inj] at happlied
      rw [← happlied.2, Y.content_applyUpdate]
      exact Set.subset_union_right
    · cases happlied
  refine meets_afterSave sha256 now (Y.carries update) Option.isSome _ ?_ ?_ _ hA
  · intro result hsuccess
    rw [if_pos hsuccess]
    exact within_bind (within_ask .requirePersistedStateVector trivial)
      (fun _ _ => trivial)
  · intro result t₃ hfailed
    rw [if_neg (by rw [hfailed]; decide)]
    exact trivial

/-- A message that is no update carries nothing. -/
theorem onMessage_meets (update : List UInt8) (now : Nat)
    (s : VaultState Y) :
    MeetsVault call (StoresWhere (Y.carries update) Option.isSome)
      (onMessage sha256 update call now) s := by
  refine meets_request (VaultOp.handleMessage update) _ s (fun t hi hst => ⟨trivial, fun w hC =>
    ⟨fun r hr => ?_, fun _ _ => trivial⟩⟩)
  have hhandled := exec_ok (.handleMessage update) (fun _ => nofun) w t r hr
  have hA : Y.carries update ⊆ Y.content (exec (.handleMessage update) w t).2.document := by
    simp only [effect, Batch.ok_inj] at hhandled
    rw [← hhandled.2]
    split
    · rw [Y.content_applyUpdate]
      exact Set.subset_union_right
    · next hmalformed =>
      rw [Y.carries_malformed update (by simpa using hmalformed)]
      exact Set.empty_subset _
  refine meets_afterSave sha256 now (Y.carries update) Option.isSome _ ?_ ?_ _ hA
  · intro result hsuccess
    rw [if_pos hsuccess]
    exact within_bind (within_ask .requirePersistedStateVector trivial)
      (fun v _ => within_bind (within_ask (.sendEcho v) trivial) (fun _ _ => trivial))
  · intro result t₂ hfailed
    rw [if_neg (by rw [hfailed]; decide)]
    refine meets_request VaultOp.closeConnection _ t₂ (fun _ _ _ => ⟨trivial, fun _ _ =>
      ⟨fun _ _ => fun h => absurd h Bool.false_ne_true, fun _ _ => trivial⟩⟩)

theorem onSave_meets (s : VaultState Y) :
    MeetsVault call (StoresWhere ∅ Option.isSome) (onSave sha256 call now) s := by
  refine meets_afterSave sha256 now ∅ Option.isSome _ ?_ ?_ s (Set.empty_subset _)
  · intro result hsuccess
    rw [if_pos hsuccess]
    exact trivial
  · intro result t hfailed
    rw [if_neg (by rw [hfailed]; decide)]
    exact trivial

/-- What the update of a call carries, if it has one. -/
def VaultCall.carries (Y : Yjs) (c : VaultCall) : Set (Change Y.Item) :=
  c.update.elim ∅ Y.carries

theorem vaultCall_meets (c : VaultCall) (s : VaultState Y) :
    MeetsVault call (StoresWhere (c.carries Y) Option.isSome) (c.process sha256 call) s := by
  cases c with
  | applyUpdate update now => exact applyUpdate_meets sha256 update now s
  | message update now => exact onMessage_meets sha256 update now s
  | save now => exact onSave_meets sha256 now s

end

/-! ## Lives and crashes -/

/-- What happens between the start of a vault's object and its end: calls, and
    in which order their operations are taken. -/
structure Lifetime where
  calls : Nat → VaultCall
  schedule : List (Nat × Batch.Outcome)

/-- What a crash leaves: storage and the database, and nothing of the memory. -/
def restart (s : VaultState Y) : VaultState Y :=
  { s with
    document := Y.empty
    documentLoaded := false
    lastPersistedStateVector := none
    consecutiveSaveFailures := 0
    saveChain := [] }

/-- The calls of a life, none of which has begun. -/
def startLife (sha256 : List UInt8 → String) (s : VaultState Y) (life : Lifetime) : VaultPool Y :=
  { shared := restart s, calls := fun i => (life.calls i).process sha256 i }

/-- A life, up to its end. -/
def live (sha256 : List UInt8 → String) (s : VaultState Y) (life : Lifetime) : VaultPool Y :=
  Run.runFrom (Pool.stepWhen exec ready) (startLife sha256 s life) life.schedule

/-- The vault after a life. -/
def afterLife (sha256 : List UInt8 → String) (s : VaultState Y) (life : Lifetime) : VaultState Y :=
  (live sha256 s life).shared

/-- All saves of a life begin so that skipping them leaves nothing out. -/
def LifeSavesAll (sha256 : List UInt8 → String) (s : VaultState Y) (life : Lifetime) : Prop :=
  Run.Along (Pool.Takes (fun op _ s => ready op s = true → SavesAll op s))
    (Pool.stepWhen exec ready) (startLife sha256 s life) life.schedule

/-- What is known of storage between two lives. -/
def Sealed (s : VaultState Y) : Prop :=
  ∀ c, s.store.checkpoint = some c → CountsWithin Y c.stateVector (durable Y s.store)

theorem restart_intact (s : VaultState Y) (h : Sealed s) : Intact (restart s) :=
  { checkpoint := h
    persisted := nofun
    loaded := nofun
    unloaded := fun _ => Y.content_empty }

/-- Every call keeps its bounds. -/
abbrev SoundLife (calls : Nat → VaultCall) (c : VaultPool Y) : Prop :=
  Pool.Sound exec InTurn Intact Relies VaultAllowed
    (fun i => StoresWhere ((calls i).carries Y) Option.isSome) c

/-- In a life that saves all, every call keeps its bounds and nothing stored is
    lost. -/
theorem live_sound (sha256 : List UInt8 → String) (s : VaultState Y) (life : Lifetime)
    (hs : Sealed s) (hall : LifeSavesAll sha256 s life) :
    SoundLife life.calls (live sha256 s life) ∧
      durable Y s.store ⊆ durable Y (live sha256 s life).shared.store := by
  refine Run.runFrom_invariant _ (fun c : VaultPool Y => SoundLife life.calls c ∧
    durable Y s.store ⊆ durable Y c.shared.store) ?_ _ life.schedule ⟨⟨restart_intact s hs,
      fun i => ⟨restart s, Relies.refl i _, ?_⟩⟩, fun _ h => h⟩ hall
  · rintro c e ⟨hsound, hkept⟩ htakes
    refine ⟨?_, ?_⟩
    · refine Pool.stepWhen_sound ready (fun i s _ => Relies.refl i s)
        (fun _ _ _ _ h h' => h.trans h') ?_ c e hsound
        (fun op hop hready => ⟨hready, htakes op hop hready⟩)
      intro i op w t hi hallowed hC
      have hkeeps := exec_keeps i op w t hi hallowed hC.1
      exact ⟨hkeeps.1, fun j hj => ⟨hkeeps.2.1, hkeeps.2.2 j hj⟩⟩
    · rcases Pool.stepWhen_shared exec ready c e with hsame | ⟨op, hop, hready, hstep⟩
      · rw [hsame]
        exact hkept
      · rw [hstep]
        have hallowed := Pool.takes_allowed c e.1 op hsound hop
        exact hkept.trans (exec_keeps e.1 op e.2 _ hsound.1 hallowed hready).2.1.durable
  · exact vaultCall_meets sha256 (life.calls i) _

/-- Lives that save all leave storage sealed, and nothing stored is lost. -/
theorem lives_sealed (sha256 : List UInt8 → String) (s : VaultState Y) (lives : List Lifetime)
    (hs : Sealed s) (hall : Run.Along (LifeSavesAll sha256) (afterLife sha256) s lives) :
    Sealed (Run.runFrom (afterLife sha256) s lives) ∧
      durable Y s.store ⊆ durable Y (Run.runFrom (afterLife sha256) s lives).store := by
  refine Run.runFrom_invariant _ (fun t : VaultState Y => Sealed t ∧
    durable Y s.store ⊆ durable Y t.store) ?_ s lives ⟨hs, fun _ h => h⟩ hall
  rintro t life ⟨ht, hkept⟩ hlife
  have hlived := live_sound sha256 t life ht hlife
  exact ⟨hlived.1.1.checkpoint, hkept.trans hlived.2⟩

/-- In every history of lives all of whose saves leave nothing out, what a call
    has been given a receipt for is there again after any crash that follows. -/
theorem receipt_durable (sha256 : List UInt8 → String) (s : VaultState Y)
    (hfresh : s.store = DocStore.empty) (before after : List Lifetime) (life : Lifetime)
    (hall : Run.Along (LifeSavesAll sha256) (afterLife sha256) s (before ++ life :: after))
    (call : Nat) (stateVector : List UInt8)
    (hreceipt : (live sha256 (Run.runFrom (afterLife sha256) s before) life).calls call =
      .done (.ok (some stateVector))) :
    (life.calls call).carries Y ⊆ Y.content (loadDocument (restart
      (Run.runFrom (afterLife sha256) s (before ++ life :: after)))).document := by
  have hsealed : Sealed s := by
    intro c hc
    rw [hfresh] at hc
    cases hc
  rw [Run.along_append] at hall
  have hbefore := lives_sealed sha256 s before hsealed hall.1
  have hlived := live_sound sha256 _ life hbefore.1 hall.2.1
  have hstored : Stored ((life.calls call).carries Y)
      (live sha256 (Run.runFrom (afterLife sha256) s before) life).shared :=
    Pool.result_of_sound _ call _ (fun _ _ hst hQ h => (hQ h).relies call hst) hlived.1 hreceipt rfl
  have hafter := lives_sealed sha256 _ after hlived.1.1.checkpoint hall.2.2
  rw [content_loadDocument, Run.runFrom_append, Run.runFrom_cons]
  exact (hstored.trans hafter.2).trans Set.subset_union_right

end Durability

/-! ## A note that is written and cleared -/

/-- An empty vault of an author who has registered nothing. -/
def emptyVault : VaultState singleAuthor :=
  { vaultId := "vault"
    document := []
    documentLoaded := false
    store := DocStore.empty
    lastPersistedStateVector := none
    consecutiveSaveFailures := 0
    saveChain := []
    retryCount := none
    alarm := none
    db := freshDb [{ id := "vault", status := .active }] [] }

/-- Something is inserted by the first call, and deleted by the second. -/
def writeAndClear (steps : Nat) : Lifetime :=
  { calls := fun i => .applyUpdate (if i = 0 then [0, 7] else [1, 7]) i
    schedule := (List.replicate 16 (0, .answered)) ++ List.replicate steps (1, .answered) }

/-- A save that finds a new state vector is not skipped for an old one. -/
def FindsNewVector (op : VaultOp) (s : VaultState singleAuthor) : Bool :=
  match op with
  | .beginSave _ =>
      s.lastPersistedStateVector ≠ some (singleAuthor.encodeStateVector s.document)
  | _ => true

theorem written_survives : singleAuthor.carries [0, 7] ⊆ singleAuthor.content
    (loadDocument (restart (Run.runFrom (afterLife (fun _ => "digest")) emptyVault
      ([] ++ writeAndClear 0 :: [])))).document := by
  refine receipt_durable (fun _ => "digest") emptyVault rfl [] [] (writeAndClear 0)
    ⟨?_, trivial⟩ 0 [7] (Pool.calls_of_result _ _ _ (by decide +kernel))
  have hfinds : Run.Along (Pool.Takes (fun op _ s => FindsNewVector op s = true))
      (Pool.stepWhen exec ready)
      (startLife (fun _ => "digest") emptyVault (writeAndClear 0)) (writeAndClear 0).schedule := by
    decide +kernel
  refine Run.along_mono _ (fun c e htakes op hop _ => ?_) _ _ hfinds
  have hnew := htakes op hop
  cases op with
  | beginSave call =>
      intro hold
      simp only [FindsNewVector, hold, ne_eq, not_true_eq_false, decide_false,
        Bool.false_eq_true] at hnew
  | _ => exact trivial

/-- The second call is given a receipt as well, and a crash undoes what it
    deleted. -/
theorem deletion_lost :
    ¬ ∀ (Y : Yjs) (sha256 : List UInt8 → String) (s : VaultState Y),
      s.store = DocStore.empty → ∀ (before after : List Lifetime) (life : Lifetime) (call : Nat)
      (stateVector : List UInt8),
      (live sha256 (Run.runFrom (afterLife sha256) s before) life).calls call =
        .done (.ok (some stateVector)) →
      (life.calls call).carries Y ⊆ Y.content (loadDocument (restart
        (Run.runFrom (afterLife sha256) s (before ++ life :: after)))).document := by
  intro h
  have hkept := h singleAuthor (fun _ => "digest") emptyVault rfl [] [] (writeAndClear 16) 1 [7]
    (Pool.calls_of_result _ _ _ (by decide +kernel))
  have hcarried : Change.deletion 7 ∈ (decodeChanges [1, 7]).getD [] := by decide
  have hlost : List.elem (Change.deletion 7) (loadDocument (restart (Run.runFrom
      (afterLife (fun _ => "digest")) emptyVault ([] ++ writeAndClear 16 :: [])))).document =
        false := by
    decide +kernel
  exact absurd (List.elem_eq_true_of_mem (hkept hcarried)) (by rw [hlost]; decide)

end Mdevolved.Coordinator
