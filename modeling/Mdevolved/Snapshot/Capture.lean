import Mdevolved.Snapshot.Plan

/-!
# Snapshot Capture

The steps of a capture, any of which may stop at any of its operations. An object that is
written for a content has a key of its own, so a step that stops before its row is complete
only leaves a row behind. The object of an intelligence item and the manifest have keys that
follow from the snapshot, and they are only ever written where there is none. A step that
stops between such a write and the row that records it leaves a key that no later step can
write.

Where the keys of what is pending are vacant, steps that are not interrupted make the
snapshot ready, however many were interrupted before.

## Main definitions

* `Vacant`, `Clear`: The keys of what is pending are not taken.
* `Smooth`: What an operation of a step that is not interrupted meets with.
* `Attempt`, `WholeStep`: A step that may stop anywhere, and one that does not.
* `ReadyAsPlanned`: What a capture is for.

## Theorems

* `resumed_ready`: From a clear state enough whole steps make a snapshot ready.
* `occupied_stuck`: An interrupted step may leave one that a whole step fails on.
-/

namespace Mdevolved.Snapshot

open Process

/-! ## Keys -/

def itemKey (id portableObjectId : String) : String :=
  "snapshots/" ++ id ++ "/intelligence/" ++ portableObjectId ++ ".age"

def manifestKey (id : String) : String :=
  "snapshots/" ++ id ++ "/manifest.age"

def objectKeyOf (recipientFingerprint uuid : String) : String :=
  "snapshots/objects/" ++ recipientFingerprint ++ "/" ++ uuid ++ ".age"

/-- The keys that follow from a snapshot. -/
def snapshotKeys (db : SnapshotDb) (id : String) : List String :=
  manifestKey id :: (itemsOf db id).map (fun i => itemKey id i.portableObjectId)

theorem itemKey_inj (id p q : String) (h : itemKey id p = itemKey id q) : p = q := by
  unfold itemKey at h
  have hlist := congrArg String.toList h
  simp only [String.toList_append, List.append_assoc] at hlist
  have hcancel := List.append_cancel_left (List.append_cancel_left (List.append_cancel_left hlist))
  exact String.toList_injective (List.append_cancel_right hcancel)

theorem itemKey_ne_manifestKey (id p : String) : itemKey id p ≠ manifestKey id := by
  intro h
  unfold itemKey manifestKey at h
  have hlist := congrArg String.toList h
  simp only [String.toList_append, List.append_assoc] at hlist
  have hcancel := List.append_cancel_left (List.append_cancel_left hlist)
  have hhead := congrArg (fun l => l[1]?) hcancel
  simp at hhead

/-- Neither the manifest nor an item that is pending has its object written. -/
def Vacant (id : String) (s : SnapshotState) : Prop :=
  s.storage (manifestKey id) = none ∧
    ∀ i ∈ itemsOf s.db id, i.stored = none → s.storage (itemKey id i.portableObjectId) = none

instance (id : String) (s : SnapshotState) : Decidable (Vacant id s) :=
  inferInstanceAs (Decidable (_ ∧ _))

/-- So it is while the snapshot is being created. -/
def Clear (id : String) (s : SnapshotState) : Prop :=
  (snapshotOf s.db id).any (fun row => row.status = .creating) = true → Vacant id s

instance (id : String) (s : SnapshotState) : Decidable (Clear id s) :=
  inferInstanceAs (Decidable (_ → _))

/-! ## Pending work -/

/-- The portable objects that have no recovery object yet. -/
def pendingPortables (db : SnapshotDb) (id : String) : Finset String :=
  (((entriesOf db id).filter (fun e => e.recoveryObjectId.isNone)).map
    SnapshotEntryRow.portableObjectId).toFinset

theorem mem_pendingPortables (db : SnapshotDb) (id p : String) :
    p ∈ pendingPortables db id ↔
      ∃ e ∈ entriesOf db id, e.recoveryObjectId = none ∧ e.portableObjectId = p := by
  unfold pendingPortables
  simp only [List.mem_toFinset, List.mem_map, List.mem_filter, Option.isNone_iff_eq_none, and_assoc]

/-- The items that have no object yet. -/
def pendingItemIds (db : SnapshotDb) (id : String) : Finset String :=
  (((itemsOf db id).filter (fun i => i.stored.isNone)).map IntelligenceItemRow.itemId).toFinset

theorem mem_pendingItemIds (db : SnapshotDb) (id x : String) :
    x ∈ pendingItemIds db id ↔ ∃ i ∈ itemsOf db id, i.stored = none ∧ i.itemId = x := by
  unfold pendingItemIds
  simp only [List.mem_toFinset, List.mem_map, List.mem_filter, Option.isNone_iff_eq_none, and_assoc]

/-! ## Steps -/

/-- An identifier that nothing has yet. -/
def FreshUuid (id : String) (s : SnapshotState) (uuid : String) : Prop :=
  (∀ o ∈ s.db.objects, o.id ≠ uuid) ∧ ∀ recipient ∈ s.db.recipient,
    s.storage (objectKeyOf recipient uuid) = none ∧
      (∀ o ∈ s.db.objects, o.objectKey ≠ objectKeyOf recipient uuid) ∧
        objectKeyOf recipient uuid ∉ snapshotKeys s.db id

instance (id : String) (s : SnapshotState) (uuid : String) : Decidable (FreshUuid id s uuid) :=
  inferInstanceAs (Decidable (_ ∧ _))

/-- An operation is answered, and an identifier that it draws is fresh. -/
def Smooth (id : String) (op : SnapshotOp) (w : Outside) (s : SnapshotState) : Prop :=
  w.outcome = .answered ∧ (op = .randomUUID → FreshUuid id s w.uuid)

instance (id : String) (op : SnapshotOp) (w : Outside) (s : SnapshotState) :
    Decidable (Smooth id op w s) :=
  inferInstanceAs (Decidable (_ ∧ _))

section Rules

variable (params : SnapshotParams) (id : String) (start : SnapshotState) (smooth : Prop)

/-- What a process of a capture does where it returns, and that it returns where nothing
    interrupts it. -/
abbrev Advances {α : Type} (p : SnapshotProcess α) (Q : α → SnapshotState → Prop)
    (s : SnapshotState) : Prop :=
  p.Meets (exec params) (fun op w s => smooth → Smooth id op w s) (Progress params id start) Eq
    (Captures params id start)
    (fun r t => (∀ a, r = .ok a → Q a t) ∧ (smooth → ∃ a, r = .ok a)) s

variable {params id start smooth} {α β : Type} {Q : α → SnapshotState → Prop}

theorem advances_pure (a : α) (s : SnapshotState) (h : Q a s) :
    Advances params id start smooth (pure a) Q s := by
  refine ⟨fun b hb => ?_, fun _ => ⟨a, rfl⟩⟩
  rw [← Except.ok.inj hb]
  exact h

/-- An error is one that an interruption led to. -/
theorem advances_throw (e : SnapshotError) (s : SnapshotState) (h : ¬ smooth) :
    Advances params id start smooth (throw e : SnapshotProcess α) Q s :=
  ⟨fun _ h => (nomatch h), fun hs => absurd hs h⟩

theorem advances_bind {Q' : β → SnapshotState → Prop} (f : β → SnapshotProcess α)
    (p : SnapshotProcess β) (s : SnapshotState) (hp : Advances params id start smooth p Q' s)
    (hf : ∀ b t, Q' b t → Advances params id start smooth (f b) Q t) :
    Advances params id start smooth (p >>= f) Q s := by
  refine meets_bind f p s (meets_mono (fun _ _ h => h) (fun r t hr => ?_) p s hp)
  cases r with
  | ok b => exact hf b t (hr.1 b rfl)
  | error e =>
      refine ⟨fun _ h => (nomatch h), fun hs => ?_⟩
      rcases hr.2 hs with ⟨_, h⟩
      cases h

theorem advances_mono {Q' : α → SnapshotState → Prop} (hQ : ∀ a t, Q' a t → Q a t)
    (p : SnapshotProcess α) (s : SnapshotState) (h : Advances params id start smooth p Q' s) :
    Advances params id start smooth p Q s :=
  meets_mono (fun _ _ h => h) (fun _ t hr => ⟨fun a ha => hQ a t (hr.1 a ha), hr.2⟩) p s h

theorem advances_tryCatch (f : SnapshotError → SnapshotProcess α) (p : SnapshotProcess α)
    (s : SnapshotState) (hp : Advances params id start smooth p Q s)
    (hf : ¬ smooth → ∀ e t, Advances params id start smooth (f e) Q t) :
    Advances params id start smooth (Process.tryCatch p f) Q s := by
  refine meets_tryCatch f p s (meets_mono (fun _ _ h => h) (fun r t hr => ?_) p s hp)
  cases r with
  | ok a => exact hr
  | error e =>
      refine hf (fun hs => ?_) e t
      rcases hr.2 hs with ⟨_, h⟩
      cases h

/-- A request and what follows its answer. Where nothing interrupts it, it has to go through. -/
theorem advances_ask (op : SnapshotOp) (f : op.Ret → SnapshotProcess α) (s : SnapshotState)
    (hop : Progress params id start s → Captures params id start op s)
    (hthrough : smooth → Progress params id start s → ∀ w, Smooth id op w s →
      ∃ r t, effect params w s op = .ok (r, t))
    (hok : ∀ w r t, Progress params id start s → Progress params id start t →
      (smooth → Smooth id op w s) → effect params w s op = .ok (r, t) →
        Advances params id start smooth (f r) Q t) :
    Advances params id start smooth (ask op >>= f) Q s := by
  refine meets_request op f s (fun t hs hst => ?_)
  subst hst
  refine ⟨hop hs, fun w hw => ⟨fun r hr => ?_, fun e he => ?_⟩⟩
  · exact hok w r _ hs (progress_exec op w s hs (hop hs)) hw (exec_ok params op w s r hr)
  · refine ⟨fun _ h => (nomatch h), fun hsmooth => ?_⟩
    rcases hthrough hsmooth hs w (hw hsmooth) with ⟨r, t, heffect⟩
    rw [exec_answered params op w s t r (hw hsmooth).1 heffect] at he
    cases he

/-- A request that only reads. -/
theorem advances_read (op : SnapshotOp) (g : Outside → SnapshotState → op.Ret)
    (f : op.Ret → SnapshotProcess α) (s : SnapshotState)
    (heffect : ∀ w t, effect params w t op = reading (g w) t)
    (hop : Captures params id start op s)
    (hok : ∀ w, Progress params id start s → (smooth → Smooth id op w s) →
      Advances params id start smooth (f (g w s)) Q s) :
    Advances params id start smooth (ask op >>= f) Q s := by
  refine advances_ask op f s (fun _ => hop) (fun _ _ w _ => ⟨_, _, heffect w s⟩)
    (fun w r t hs _ hw h => ?_)
  rw [heffect, reading, Batch.ok_inj] at h
  rw [← h.1, ← h.2]
  exact hok w hs hw

/-- A request that only reads, and that nothing follows. -/
theorem advances_last (op : SnapshotOp) (g : Outside → SnapshotState → op.Ret)
    {Q : op.Ret → SnapshotState → Prop} (s : SnapshotState)
    (heffect : ∀ w t, effect params w t op = reading (g w) t)
    (hop : Captures params id start op s) (hok : ∀ w, Q (g w s) s) :
    Advances params id start smooth (ask op) Q s := by
  intro t _ hst
  subst hst
  refine ⟨hop, fun w hw => ⟨fun r hr => ?_, fun hsmooth => ?_⟩⟩
  · have h := exec_ok params op w s r hr
    rw [heffect, reading, Batch.ok_inj] at h
    rw [← h.1, ← h.2]
    exact hok w
  · exact ⟨g w s, congrArg Prod.fst (exec_answered params op w s s (g w s) (hw hsmooth).1
      (heffect w s))⟩

/-- A request that only changes the database. -/
theorem advances_write (op : SnapshotOp) (g : SnapshotState → op.Ret)
    (h : SnapshotState → SnapshotDb) (f : op.Ret → SnapshotProcess α) (s : SnapshotState)
    (heffect : ∀ w t, effect params w t op = writing (g t) (h t) t)
    (hop : Progress params id start s → Captures params id start op s)
    (hok : Progress params id start s → Progress params id start { s with db := h s } →
      Advances params id start smooth (f (g s)) Q { s with db := h s }) :
    Advances params id start smooth (ask op >>= f) Q s := by
  refine advances_ask op f s hop (fun _ _ w _ => ⟨_, _, heffect w s⟩)
    (fun w r t hs ht _ heq => ?_)
  rw [heffect, writing, Batch.ok_inj] at heq
  rw [← heq.2] at ht ⊢
  rw [← heq.1]
  exact hok hs ht

end Rules

variable {params : SnapshotParams} {id : String} {start : SnapshotState} {smooth : Prop}

/-! ## Objects -/

/-- An object that was written under a key that was vacant. -/
theorem advances_encrypt (key : String) (plaintext : Plaintext) (s : SnapshotState)
    (hvacant : smooth → s.storage key = none) :
    Advances params id start smooth (encryptObjectToR2 params key plaintext)
      (fun written t => t.db = s.db ∧ (∃ object, t.storage key = some object ∧
        object.receipt key = { toCiphertext := written, key := key } ∧
          object.plaintext = some plaintext) ∧ ∀ k, k ≠ key → t.storage k = s.storage k) s := by
  refine advances_ask _ _ s (fun _ => trivial) (fun _ _ w _ => ?_) (fun w written t _ _ _ h => ?_)
  · rw [effect]
    split
    · exact ⟨_, _, rfl⟩
    · exact ⟨_, _, rfl⟩
  · rw [effect] at h
    split at h
    · next hsome =>
      rw [Batch.ok_inj] at h
      rw [← h.1]
      refine advances_throw _ t (fun hsmooth => ?_)
      rw [hvacant hsmooth] at hsome
      cases hsome
    · rw [Batch.ok_inj] at h
      rw [← h.1, ← h.2]
      refine meets_ite (fun hsize => absurd rfl hsize) (fun _ => ?_)
      refine advances_read _ (fun _ t => t.storage key) _ _ (fun _ _ => by rw [effect]) trivial
        (fun _ _ _ => ?_)
      simp only [Function.update_self]
      refine meets_ite (fun _ => advances_pure _ _ ?_) (fun hnot => ?_)
      · refine ⟨rfl, ⟨_, Function.update_self key _ _, rfl, rfl⟩, fun k hk => ?_⟩
        exact Function.update_of_ne hk _ _
      · exact absurd ((storedObjectMatches_iff _ _).mpr ⟨_, rfl, rfl⟩) hnot

/-- What writing an object for a content leaves as it is. -/
structure Besides (smooth : Prop) (id : String) (s t : SnapshotState) : Prop where
  entries : t.db.entries = s.db.entries
  items : t.db.items = s.db.items
  snapshots : t.db.snapshots = s.db.snapshots
  keys : smooth → ∀ k ∈ snapshotKeys s.db id, t.storage k = s.storage k

theorem besides_refl (s : SnapshotState) : Besides smooth id s s :=
  ⟨rfl, rfl, rfl, fun _ _ _ => rfl⟩

theorem snapshotKeys_of_items (db db' : SnapshotDb) (h : db'.items = db.items) :
    snapshotKeys db' id = snapshotKeys db id := by
  rw [snapshotKeys, snapshotKeys, itemsOf, itemsOf, h]

theorem besides_trans (s t u : SnapshotState) (h : Besides smooth id s t)
    (h' : Besides smooth id t u) : Besides smooth id s u := by
  refine ⟨h'.entries.trans h.entries, h'.items.trans h.items, h'.snapshots.trans h.snapshots,
    fun hsmooth k hk => ?_⟩
  have hk' : k ∈ snapshotKeys t.db id := by
    rw [snapshotKeys_of_items _ _ h.items]
    exact hk
  rw [h'.keys hsmooth k hk', h.keys hsmooth k hk]

theorem advances_completeRecoveryObject (context : SnapshotContext) (row : SnapshotObjectRow)
    (s : SnapshotState) (hrow : Creating s.db row)
    (hvacant : smooth → s.storage row.objectKey = none ∧ row.objectKey ∉ snapshotKeys s.db id) :
    Advances params id start smooth (completeRecoveryObject params context row)
      (fun o t => Backed t o.id ∧ Besides smooth id s t) s := by
  refine advances_bind _ _ s (advances_encrypt _ _ s (fun h => (hvacant h).1))
    (fun written t ht => ?_)
  rcases ht with ⟨hdb, ⟨object, hobject, hreceipt, -⟩, hother⟩
  rcases hrow with ⟨o, ho, hstatus, hkey⟩
  rw [← hdb] at ho
  let p : SnapshotObjectRow → Bool := fun o => o.id = row.id && o.status = .creating
  let f : SnapshotObjectRow → SnapshotObjectRow := fun o =>
    { o with status := .ready, stored := some written, verifiedAt := some context.now }
  have hp : p o = true := by
    rw [Bool.and_eq_true, decide_eq_true_eq, decide_eq_true_eq]
    exact ⟨(Table.mem_of_find? SnapshotObjectRow.id _ _ _ ho).2, hstatus⟩
  have hany : t.db.objects.any p = true :=
    List.any_eq_true.mpr ⟨o, List.mem_of_find?_eq_some ho, hp⟩
  refine advances_write _ (fun t => returning (t.db.objects.any p) row.id)
    (fun t => updateObjects p f t.db) _ t (fun _ _ => by rw [effect]) (fun _ => trivial)
    (fun _ _ => ?_)
  refine meets_ite (fun hnot => ?_) (fun _ => advances_pure _ _ ⟨?_, ?_⟩)
  · rw [hany] at hnot
    exact absurd rfl hnot
  · have hfind : objectOf (updateObjects p f t.db) row.id = some (f o) := by
      unfold objectOf updateObjects
      rw [Table.find?_update SnapshotObjectRow.id p f (fun _ => rfl), show
        t.db.objects.find? (fun r => r.id = row.id) = some o from ho, Option.map_some, if_pos hp]
    refine ⟨f o, { toCiphertext := written, key := row.objectKey }, hfind,
      fun h => (by cases h), ?_, object, hobject, hreceipt⟩
    rw [← hkey]
    rfl
  · refine ⟨by rw [← hdb]; rfl, by rw [← hdb]; rfl, by rw [← hdb]; rfl, fun hsmooth k hk => ?_⟩
    exact hother k (fun heq => (hvacant hsmooth).2 (heq ▸ hk))

theorem sourceMatches_grows (s : SnapshotState) (key : String) (byteLength : Nat) (hash : String)
    (hgrows : ∀ key o, start.storage key = some o → s.storage key = some o)
    (h : sourceMatches (start.storage key) byteLength hash = true) :
    sourceMatches (s.storage key) byteLength hash = true := by
  cases hstart : start.storage key with
  | none => rw [hstart] at h; cases h
  | some o =>
      rw [hgrows key o hstart]
      rw [hstart] at h
      exact h

theorem advances_createRecoveryObject (context : SnapshotContext) (group : GroupKey)
    (byteLength : Nat) (sourceR2Key : String) (s : SnapshotState)
    (hstart : start.db.recipient = some context.recipientFingerprint)
    (hsource : sourceMatches (start.storage sourceR2Key) byteLength group.contentSha256 = true) :
    Advances params id start smooth
      (createRecoveryObject params context group byteLength sourceR2Key)
      (fun o t => Backed t o.id ∧ Besides smooth id s t) s := by
  refine advances_read _ (fun _ s => s.storage sourceR2Key) _ s (fun _ _ => by rw [effect]) trivial
    (fun _ hs _ => ?_)
  have hrecipient : s.db.recipient = some context.recipientFingerprint :=
    hs.plan.recipient.trans hstart
  refine meets_ite (fun hnot => ?_) (fun _ => ?_)
  · rw [sourceMatches_grows s sourceR2Key _ _ hs.grows hsource] at hnot
    exact absurd hnot (by decide)
  refine advances_read _ (fun w _ => w.uuid) _ s (fun _ _ => by rw [effect]) trivial
    (fun w _ hw => ?_)
  refine advances_read _ (fun w _ => w.uuid) _ s (fun _ _ => by rw [effect]) trivial
    (fun w' _ hw' => ?_)
  -- Where nothing interrupts the step, the row is admitted and its key is vacant.
  have hfresh : smooth → FreshUuid id s w.uuid ∧ FreshUuid id s w'.uuid := fun hsmooth =>
    ⟨(hw hsmooth).2 rfl, (hw' hsmooth).2 rfl⟩
  let row := creatingRow context w.uuid (objectKeyOf context.recipientFingerprint w'.uuid) group
    byteLength
  refine advances_ask (.insertObject row) _ s (fun _ => trivial) (fun hsmooth _ _ _ => ?_)
    (fun _ _ t _ _ _ h => ?_)
  · have hadmits : admitsObject s.db.objects row = true := by
      refine List.all_eq_true.mpr (fun r hr => ?_)
      rw [Bool.and_eq_true, decide_eq_true_eq, decide_eq_true_eq]
      exact ⟨(hfresh hsmooth).1.1 r hr, ((hfresh hsmooth).2.2 _ hrecipient).2.1 r hr⟩
    rw [effect, (Table.insert_eq_some admitsObject _ _ row).mpr ⟨hadmits, rfl⟩]
    exact ⟨_, _, rfl⟩
  · rw [effect] at h
    split at h
    · cases h
    · next objects hobjects =>
      rcases (Table.insert_eq_some _ _ _ _).mp hobjects with ⟨hadmits, rfl⟩
      rw [writing, Batch.ok_inj] at h
      have hbesides : Besides smooth id s t := by
        rw [← h.2]
        exact ⟨rfl, rfl, rfl, fun _ _ _ => rfl⟩
      have hcreating : Creating t.db row := by
        -- No row had its identifier, so it is the one that is found.
        refine ⟨row, ?_, rfl, rfl⟩
        rw [← h.2]
        unfold objectOf
        rw [List.find?_append, List.find?_eq_none.mpr, Option.none_or,
          List.find?_cons_of_pos (by rw [decide_eq_true_eq])]
        intro r hr
        have hne := List.all_eq_true.mp hadmits r hr
        rw [Bool.and_eq_true, decide_eq_true_eq] at hne
        rw [decide_eq_true_eq]
        exact hne.1
      refine advances_tryCatch _ _ t (advances_mono ?_ _ t
        (advances_completeRecoveryObject context row t hcreating (fun hsmooth => ?_)))
        (fun hnot e u => ?_)
      · exact fun o u hu => ⟨hu.1, besides_trans s t u hbesides hu.2⟩
      · have hkey := (hfresh hsmooth).2.2 _ hrecipient
        rw [← h.2]
        exact ⟨hkey.1, hkey.2.2⟩
      · exact advances_ask _ _ u (fun _ => trivial) (fun hsmooth => absurd hsmooth hnot)
          (fun _ _ v _ _ _ _ => advances_throw e v hnot)

/-- Rows that are there with the ciphertext that was read. -/
def StillThere (db : SnapshotDb) (rows : List SnapshotObjectRow) : Prop :=
  ∀ o ∈ rows, ∃ o', objectOf db o.id = some o' ∧ o'.status ≠ .creating ∧ o'.stored = o.stored ∧
    o'.objectKey = o.objectKey

theorem advances_firstPresent (rows : List SnapshotObjectRow) (s : SnapshotState)
    (hrows : StillThere s.db rows) :
    Advances params id start smooth (firstPresent rows)
      (fun r t => (∀ o, r = some o → Backed t o.id) ∧ Besides smooth id s t) s := by
  induction rows generalizing s with
  | nil => exact advances_pure _ s ⟨fun _ h => (nomatch h), besides_refl s⟩
  | cons row rest ih =>
      refine advances_read _ (fun _ s => s.storage row.objectKey) _ s (fun _ _ => by rw [effect])
        trivial (fun _ _ _ => ?_)
      refine meets_ite (fun hpresent => advances_pure _ s ⟨?_, besides_refl s⟩) (fun _ => ?_)
      · intro o ho
        rw [Option.some.injEq] at ho
        subst ho
        rcases hc : row.stored with _ | c
        · rw [hc] at hpresent
          cases hpresent
        rw [hc, Option.any_some] at hpresent
        have hmatches := hpresent
        rcases (storedObjectMatches_iff _ c).mp hmatches with ⟨object, hobject, rfl⟩
        rcases hrows row List.mem_cons_self with ⟨o', ho', hstatus, hstored, hkey⟩
        refine ⟨o', object.receipt row.objectKey, ho', hstatus, ?_, object, hobject, rfl⟩
        rw [SnapshotObjectRow.receipt, hstored, hc, hkey]
        rfl
      · let p : SnapshotObjectRow → Bool := fun o => o.id = row.id && o.status = .ready
        let f : SnapshotObjectRow → SnapshotObjectRow := fun o =>
          { o with status := .failed, failureCode := some .ciphertextMissing }
        refine advances_write _ (fun _ => ()) (fun s => updateObjects p f s.db) _ s
          (fun _ _ => by rw [effect]) (fun _ => trivial) (fun _ _ => ?_)
        have hu := undisturbed_updateObjects id p f s.db (fun _ => rfl) (fun _ _ _ =>
          ⟨by simp only [f, ne_eq, reduceCtorEq, not_false_eq_true], rfl, rfl⟩)
        refine advances_mono ?_ _ _ (ih { s with db := updateObjects p f s.db } ?_)
        · intro r t ht
          have hfirst : Besides smooth id s { s with db := updateObjects p f s.db } :=
            ⟨rfl, rfl, rfl, fun _ _ _ => rfl⟩
          exact ⟨ht.1, besides_trans s _ t hfirst ht.2⟩
        · intro o ho
          rcases hrows o (List.mem_cons_of_mem row ho) with ⟨o', ho', hstatus, hstored, hkey⟩
          rcases hu.objects _ o' ho' hstatus with ⟨o'', ho'', hstatus', hstored', hkey'⟩
          exact ⟨o'', ho'', hstatus', hstored'.trans hstored, hkey'.trans hkey⟩

theorem advances_findReusableObject (recipientFingerprint : String) (group : GroupKey)
    (byteLength : Nat) (s : SnapshotState) :
    Advances params id start smooth (findReusableObject recipientFingerprint group byteLength)
      (fun r t => (∀ o, r = some o → Backed t o.id) ∧ Besides smooth id s t) s := by
  refine advances_read _ (fun _ s => reusableObjects s.db recipientFingerprint group byteLength) _ s
    (fun _ _ => by rw [effect]) trivial (fun _ hs _ => ?_)
  refine advances_firstPresent _ s (fun o ho => ?_)
  have hmem := (List.mem_insertionSort _).mp (List.mem_of_mem_take ho)
  rw [List.mem_filter] at hmem
  refine ⟨o, Table.find?_of_mem SnapshotObjectRow.id _ o hs.objects_distinct hmem.1, ?_, rfl, rfl⟩
  intro hcreating
  simp only [hcreating, reduceCtorEq, decide_false, Bool.false_and, Bool.false_eq_true,
    and_false] at hmem

/-! ## Pending objects -/

/-- What a capture needs for a pending object. -/
def Sourced (start : SnapshotState) (item : PendingObject) : Prop :=
  ∃ key, item.sourceR2Key = some key ∧
    sourceMatches (start.storage key) item.byteLength item.group.contentSha256 = true

theorem entries_same_of_progress (hplan : Planned params id start) (s : SnapshotState)
    (hs : Progress params id start s) (e f : SnapshotEntryRow) (he : e ∈ entriesOf s.db id)
    (hf : f ∈ entriesOf s.db id) (hport : e.portableObjectId = f.portableObjectId) :
    e.group = f.group ∧ e.byteLength = f.byteLength ∧ e.sourceR2Key = f.sourceR2Key := by
  rcases planEntry_of_samePlan id _ _ hs.plan e he with ⟨e₀, he₀, heq⟩
  rcases planEntry_of_samePlan id _ _ hs.plan f hf with ⟨f₀, hf₀, hfeq⟩
  rcases eq_of_planEntry _ _ heq with ⟨hgroup, hbytes, hsource, -⟩
  rcases eq_of_planEntry _ _ hfeq with ⟨hgroup', hbytes', hsource', -⟩
  have hp₀ : e₀.portableObjectId = f₀.portableObjectId :=
    ((congrArg GroupKey.portableObjectId hgroup).trans hport).trans
      (congrArg GroupKey.portableObjectId hgroup').symm
  have hsame := hplan.entries_same e₀ he₀ f₀ hf₀ hp₀
  rw [← hgroup, ← hbytes, ← hsource, hsame.1, hsame.2.1, hsame.2.2.1]
  exact ⟨hgroup', hbytes', hsource'⟩

theorem sourced_of_pending (hplan : Planned params id start) (s : SnapshotState)
    (hs : Progress params id start s) (item : PendingObject) (h : item ∈ pendingObjects s.db id) :
    Sourced start item := by
  rcases List.mem_map.mp h with ⟨key, hkey, rfl⟩
  rcases (mem_groupKeys _ key).mp hkey with ⟨e, he, rfl⟩
  have hmem := (List.mem_filter.mp he).1
  rcases planEntry_of_samePlan id _ _ hs.plan e hmem with ⟨e₀, he₀, heq⟩
  rcases hplan.entries_source e₀ he₀ with ⟨key, hsource, hmatches⟩
  rcases eq_of_planEntry _ _ heq with ⟨hgroup₀, hbytes₀, hsource₀, -⟩
  have hsource' : e.sourceR2Key = some key := hsource₀.symm.trans hsource
  -- All rows of the group say the same, so its aggregates do.
  let grouped := ((entriesOf s.db id).filter (fun e => e.recoveryObjectId.isNone)).filter
    (fun f => f.group = e.group)
  have hgrouped : ∀ f ∈ grouped, f.byteLength = e.byteLength ∧ f.sourceR2Key = some key := by
    intro f hf
    rcases List.mem_filter.mp hf with ⟨hf, hgroup⟩
    have hport := congrArg GroupKey.portableObjectId (of_decide_eq_true hgroup)
    have hsame := entries_same_of_progress hplan s hs f e (List.mem_filter.mp hf).1 hmem hport
    exact ⟨hsame.2.1, hsame.2.2.trans hsource'⟩
  have hself : e ∈ grouped := List.mem_filter.mpr ⟨he, decide_eq_true rfl⟩
  have hbytes : (grouped.map SnapshotEntryRow.byteLength).foldl max 0 = e.byteLength := by
    refine foldl_max_of_const _ _ 0 (Nat.zero_le _)
      (List.ne_nil_of_mem (List.mem_map_of_mem hself)) ?_
    intro n hn
    rcases List.mem_map.mp hn with ⟨f, hf, rfl⟩
    exact (hgrouped f hf).1
  have htext : minText (grouped.filterMap SnapshotEntryRow.sourceR2Key) = some key := by
    refine minText_of_const _ _
      (List.ne_nil_of_mem (List.mem_filterMap.mpr ⟨e, hself, hsource'⟩)) ?_
    intro t ht
    rcases List.mem_filterMap.mp ht with ⟨f, hf, hft⟩
    rw [(hgrouped f hf).2, Option.some.injEq] at hft
    exact hft.symm
  have hhash₀ : e₀.contentSha256 = e.contentSha256 := congrArg GroupKey.contentSha256 hgroup₀
  rw [hbytes₀, hhash₀, ← hbytes] at hmatches
  exact ⟨key, htext, hmatches⟩

theorem advances_recoveryObjectFor (context : SnapshotContext) (item : PendingObject)
    (s : SnapshotState) (hrecipient : start.db.recipient = some context.recipientFingerprint)
    (hsource : Sourced start item) :
    Advances params id start smooth (recoveryObjectFor params context item)
      (fun o t => Backed t o.id ∧ Besides smooth id s t) s := by
  refine advances_bind _ _ s (advances_findReusableObject _ _ _ s) (fun r t ht => ?_)
  cases r with
  | some o => exact advances_pure _ t ⟨ht.1 o rfl, ht.2⟩
  | none =>
      rcases hsource with ⟨key, hkey, hmatches⟩
      rw [hkey]
      refine advances_mono ?_ _ t (advances_createRecoveryObject context item.group item.byteLength
        key t hrecipient hmatches)
      exact fun o u hu => ⟨hu.1, besides_trans s t u ht.2 hu.2⟩

/-- What a part of a capture leaves of the pending objects, and that it leaves the rest. -/
structure Pursues (smooth : Prop) (id : String) (done : List String) (s t : SnapshotState) :
    Prop where
  items : t.db.items = s.db.items
  snapshots : t.db.snapshots = s.db.snapshots
  keys : smooth → ∀ k ∈ snapshotKeys s.db id, t.storage k = s.storage k
  pending : pendingPortables t.db id ⊆ pendingPortables s.db id \ done.toFinset

theorem pursues_of_besides (s t : SnapshotState) (h : Besides smooth id s t) :
    Pursues smooth id [] s t := by
  refine ⟨h.items, h.snapshots, h.keys, fun p hp => ?_⟩
  rw [mem_pendingPortables, entriesOf, h.entries] at hp
  rw [Finset.mem_sdiff, List.mem_toFinset, mem_pendingPortables]
  exact ⟨hp, List.not_mem_nil⟩

theorem pursues_trans (done done' : List String) (s t u : SnapshotState)
    (h : Pursues smooth id done s t) (h' : Pursues smooth id done' t u) :
    Pursues smooth id (done ++ done') s u := by
  refine ⟨h'.items.trans h.items, h'.snapshots.trans h.snapshots, fun hsmooth k hk => ?_,
    fun p hp => ?_⟩
  · have hk' : k ∈ snapshotKeys t.db id := by
      rw [snapshotKeys_of_items _ _ h.items]
      exact hk
    rw [h'.keys hsmooth k hk', h.keys hsmooth k hk]
  · have hpt := Finset.mem_sdiff.mp (h'.pending hp)
    have hps := Finset.mem_sdiff.mp (h.pending hpt.1)
    rw [Finset.mem_sdiff, List.toFinset_append, Finset.mem_union, not_or]
    exact ⟨hps.1, hps.2, hpt.2⟩

/-- A portable object whose recovery object is set is no longer pending. -/
theorem pursues_setRecoveryObject (portableObjectId objectId : String) (s t : SnapshotState)
    (hstorage : t.storage = s.storage)
    (hdb : t.db = updateEntries (setsRecovery id portableObjectId)
      (fun e => { e with recoveryObjectId := some objectId }) s.db) :
    Pursues smooth id [portableObjectId] s t := by
  refine ⟨by rw [hdb]; rfl, by rw [hdb]; rfl, fun _ _ _ => by rw [hstorage], fun p hp => ?_⟩
  rcases (mem_pendingPortables _ id p).mp hp with ⟨f, hf, hnone, rfl⟩
  rw [hdb, setRecoveryObject_entries] at hf
  rcases Table.mem_update _ _ _ f hf with ⟨e, he, ⟨-, rfl⟩ | ⟨hnot, rfl⟩⟩
  · cases hnone
  · rw [Finset.mem_sdiff, mem_pendingPortables, List.mem_toFinset, List.mem_singleton]
    refine ⟨⟨f, he, hnone, rfl⟩, fun hp => ?_⟩
    have hid := (List.mem_filter.mp he).2
    rw [setsRecovery, hid, hp, hnone] at hnot
    simp only [decide_true, Option.isNone_none, Bool.and_self, Bool.true_eq_false] at hnot

theorem advances_processPendingObjects (context : SnapshotContext) (L : List PendingObject)
    (s : SnapshotState) (hid : context.snapshotId = id)
    (hstart : start.db.recipient = some context.recipientFingerprint)
    (hL : ∀ item ∈ L, Sourced start item) :
    Advances params id start smooth (processPendingObjects params context L)
      (fun _ t => Pursues smooth id (L.map (fun item => item.group.portableObjectId)) s t) s := by
  induction L generalizing s with
  | nil => exact advances_pure _ s (pursues_of_besides s s (besides_refl s))
  | cons item rest ih =>
      refine advances_bind _ _ s (advances_recoveryObjectFor context item s hstart
        (hL item List.mem_cons_self)) (fun o t ht => ?_)
      refine advances_ask _ _ t (fun _ => ht.1) (fun _ _ w _ => ?_) (fun w r u _ _ _ h => ?_)
      · -- Its row is there, so it may be named.
        rcases ht.1 with ⟨row, -, hrow, -⟩
        rw [effect, withRecoveryObject, hrow, Option.isNone_some, Bool.and_false,
          if_neg Bool.false_ne_true]
        exact ⟨_, _, rfl⟩
      · rw [effect] at h
        split at h
        · cases h
        · next db hdb =>
          rw [writing, Batch.ok_inj] at h
          rw [hid] at hdb
          have hset : Pursues smooth id [item.group.portableObjectId] t u :=
            pursues_setRecoveryObject item.group.portableObjectId o.id t u (by rw [← h.2]) (by rw [← h.2]; exact withRecoveryObject_ok _ _ _ _ hdb)
          refine advances_mono ?_ _ u (ih u (fun d hd => hL d (List.mem_cons_of_mem item hd)))
          intro _ v hv
          have hfirst := pursues_trans _ _ s t u (pursues_of_besides s t ht.2) hset
          exact pursues_trans _ _ s u v hfirst hv

/-! ## Pending items -/

/-- What processing items leaves of them, and that it leaves the rest. -/
structure PursuesItems (smooth : Prop) (id : String) (done : List String) (s t : SnapshotState) :
    Prop where
  entries : t.db.entries = s.db.entries
  snapshots : t.db.snapshots = s.db.snapshots
  vacant : smooth → Vacant id t
  pending : pendingItemIds t.db id ⊆ pendingItemIds s.db id \ done.toFinset
  left : ∀ i ∈ itemsOf s.db id, i.itemId ∉ done → i ∈ itemsOf t.db id

theorem itemSourceMatches_grows (s : SnapshotState) (key : String) (byteLength : Nat)
    (hash : String) (hgrows : ∀ key o, start.storage key = some o → s.storage key = some o)
    (h : itemSourceMatches (start.storage key) byteLength hash = true) :
    itemSourceMatches (s.storage key) byteLength hash = true := by
  cases hstart : start.storage key with
  | none => rw [hstart] at h; cases h
  | some o =>
      rw [hgrows key o hstart]
      rw [hstart] at h
      exact h

theorem items_portable_of_progress (hplan : Planned params id start) (s : SnapshotState)
    (hs : Progress params id start s) :
    ((itemsOf s.db id).map IntelligenceItemRow.portableObjectId).Nodup := by
  have hmap : ∀ db : SnapshotDb, (itemsOf db id).map IntelligenceItemRow.portableObjectId =
      ((itemsOf db id).map planItem).map IntelligenceItemRow.portableObjectId := by
    intro db
    rw [List.map_map]
    rfl
  rw [hmap, hs.plan.items, ← hmap]
  exact hplan.items_portable

/-- Recording an item's object takes it off the pending ones and leaves the others vacant. -/
theorem pursuesItems_completeItem (hplan : Planned params id start) (item : IntelligenceItemRow)
    (written : Receipt) (s t u : SnapshotState) (hs : Progress params id start s)
    (hitem : item ∈ itemsOf s.db id) (hvacant : smooth → Vacant id s) (ht : t.db = s.db)
    (hother : ∀ k, k ≠ itemKey id item.portableObjectId → t.storage k = s.storage k)
    (hstorage : u.storage = t.storage)
    (hdb : u.db = updateItems (completesItem id item.itemId)
      (fun i => { i with stored := some written }) t.db) :
    PursuesItems smooth id [item.itemId] s u := by
  have hitems : itemsOf u.db id = Table.update (completesItem id item.itemId)
      (fun i => { i with stored := some written }) (itemsOf s.db id) := by
    rw [hdb, ht]
    exact completeItem_items id id item.itemId written s.db
  -- What is still pending was pending, and it is another item.
  have hrow : ∀ j ∈ itemsOf u.db id, j.stored = none →
      j ∈ itemsOf s.db id ∧ j.itemId ≠ item.itemId := by
    intro j hj hnone
    rw [hitems] at hj
    rcases Table.mem_update _ _ _ j hj with ⟨i, hi, ⟨-, rfl⟩ | ⟨hnot, rfl⟩⟩
    · cases hnone
    · refine ⟨hi, fun heq => ?_⟩
      rw [completesItem, (List.mem_filter.mp hi).2, heq, hnone] at hnot
      simp only [decide_true, Option.isNone_none, Bool.and_self, Bool.true_eq_false] at hnot
  refine ⟨by rw [hdb, ← ht]; rfl, by rw [hdb, ← ht]; rfl, fun hsmooth => ⟨?_, fun j hj hnone => ?_⟩,
    fun x hx => ?_, fun i hi hnot => ?_⟩
  · rw [hstorage, hother _ (itemKey_ne_manifestKey id _).symm]
    exact (hvacant hsmooth).1
  · rcases hrow j hj hnone with ⟨hmem, hne⟩
    have hkey : itemKey id j.portableObjectId ≠ itemKey id item.portableObjectId := by
      intro heq
      have hsame := List.inj_on_of_nodup_map (items_portable_of_progress hplan s hs) hmem hitem
        (itemKey_inj id _ _ heq)
      exact hne (congrArg IntelligenceItemRow.itemId hsame)
    rw [hstorage, hother _ hkey]
    exact (hvacant hsmooth).2 j hmem hnone
  · rcases (mem_pendingItemIds _ id x).mp hx with ⟨j, hj, hnone, rfl⟩
    rcases hrow j hj hnone with ⟨hmem, hne⟩
    rw [Finset.mem_sdiff, mem_pendingItemIds, List.mem_toFinset, List.mem_singleton]
    exact ⟨⟨j, hmem, hnone, rfl⟩, hne⟩
  · rw [hitems]
    have hkept := Table.update_mem (completesItem id item.itemId)
      (fun i => { i with stored := some written }) (itemsOf s.db id) i hi
    have hp : completesItem id item.itemId i = false := by
      rw [List.mem_singleton] at hnot
      simp only [completesItem, hnot, decide_false, Bool.and_false, Bool.false_and]
    rw [hp, if_neg Bool.false_ne_true] at hkept
    exact hkept

theorem advances_processPendingItem (hplan : Planned params id start) (item : IntelligenceItemRow)
    (s : SnapshotState) (hitem : item ∈ itemsOf s.db id) (hpending : item.stored = none)
    (hvacant : smooth → Vacant id s) :
    Advances params id start smooth (processPendingItem params id item)
      (fun _ t => PursuesItems smooth id [item.itemId] s t) s := by
  refine advances_read _ (fun _ s => s.storage item.sourceObjectKey) _ s (fun _ _ => by rw [effect])
    trivial (fun _ hs _ => ?_)
  have hsource : itemSourceMatches (s.storage item.sourceObjectKey) item.byteLength
      item.contentSha256 = true := by
    rcases planItem_of_samePlan id _ _ hs.plan item hitem with ⟨i₀, hi₀, heq⟩
    rcases eq_of_planItem _ _ heq with ⟨-, -, hkey, hbytes, hhash⟩
    have hmatches := hplan.items_source i₀ hi₀
    rw [hkey, hbytes, hhash] at hmatches
    exact itemSourceMatches_grows s _ _ _ hs.grows hmatches
  refine meets_ite (fun hnot => ?_) (fun _ => ?_)
  · rw [hsource] at hnot
    exact absurd hnot (by decide)
  refine advances_bind _ _ s (advances_encrypt (itemKey id item.portableObjectId) _ s
    (fun hsmooth => (hvacant hsmooth).2 item hitem hpending)) (fun written t ht => ?_)
  rcases ht with ⟨hdb, ⟨object, hobject, hreceipt, -⟩, hother⟩
  have hany : t.db.items.any (completesItem id item.itemId) = true := by
    rw [hdb]
    refine List.any_eq_true.mpr ⟨item, (List.mem_filter.mp hitem).1, ?_⟩
    rw [completesItem, (List.mem_filter.mp hitem).2, hpending]
    simp only [decide_true, Option.isNone_none, Bool.and_self]
  let receipt : Receipt := { toCiphertext := written, key := itemKey id item.portableObjectId }
  refine advances_write (.completeItem id item.itemId receipt)
    (fun t => returning (t.db.items.any (completesItem id item.itemId)) item.itemId)
    (fun t => updateItems (completesItem id item.itemId)
      (fun i => { i with stored := some receipt }) t.db) _ t (fun _ _ => by rw [effect]; rfl)
    (fun _ => ⟨object, hobject, hreceipt⟩) (fun _ _ => ?_)
  refine meets_ite (fun hnot => ?_) (fun _ => advances_pure _ _ ?_)
  · rw [hany] at hnot
    exact absurd rfl hnot
  · exact pursuesItems_completeItem hplan item receipt s t _ hs hitem hvacant hdb hother rfl rfl

theorem pursuesItems_trans (done done' : List String) (s t u : SnapshotState)
    (h : PursuesItems smooth id done s t) (h' : PursuesItems smooth id done' t u) :
    PursuesItems smooth id (done ++ done') s u := by
  refine ⟨h'.entries.trans h.entries, h'.snapshots.trans h.snapshots, h'.vacant, fun x hx => ?_,
    fun i hi hnot => ?_⟩
  · have hxt := Finset.mem_sdiff.mp (h'.pending hx)
    have hxs := Finset.mem_sdiff.mp (h.pending hxt.1)
    rw [Finset.mem_sdiff, List.toFinset_append, Finset.mem_union, not_or]
    exact ⟨hxs.1, hxs.2, hxt.2⟩
  · rw [List.mem_append, not_or] at hnot
    exact h'.left i (h.left i hi hnot.1) hnot.2

theorem advances_processPendingItems (hplan : Planned params id start)
    (L : List IntelligenceItemRow) (s : SnapshotState)
    (hL : ∀ item ∈ L, item ∈ itemsOf s.db id ∧ item.stored = none)
    (hdistinct : (L.map IntelligenceItemRow.itemId).Nodup) (hvacant : smooth → Vacant id s) :
    Advances params id start smooth (processPendingItems params id L)
      (fun _ t => PursuesItems smooth id (L.map IntelligenceItemRow.itemId) s t) s := by
  induction L generalizing s with
  | nil =>
      refine advances_pure _ s ⟨rfl, rfl, hvacant, fun x hx => ?_, fun i hi _ => hi⟩
      rw [List.map_nil, List.toFinset_nil, Finset.sdiff_empty]
      exact hx
  | cons item rest ih =>
      rw [List.map_cons, List.nodup_cons] at hdistinct
      have hitem := hL item List.mem_cons_self
      refine advances_bind _ _ s (advances_processPendingItem hplan item s hitem.1 hitem.2 hvacant)
        (fun _ t ht => ?_)
      refine advances_mono (fun _ u hu => pursuesItems_trans _ _ s t u ht hu) _ t
        (ih t (fun d hd => ?_) hdistinct.2 ht.vacant)
      have hd' := hL d (List.mem_cons_of_mem item hd)
      refine ⟨ht.left d hd'.1 (fun hmem => ?_), hd'.2⟩
      rw [List.mem_singleton] at hmem
      exact hdistinct.1 (hmem ▸ List.mem_map_of_mem hd)

/-- The items that a step processes. -/
def nextItems (db : SnapshotDb) (id : String) : List IntelligenceItemRow :=
  (pendingItems db id).take snapshotObjectBatchSize

theorem mem_pendingItems (db : SnapshotDb) (id : String) (i : IntelligenceItemRow) :
    i ∈ pendingItems db id ↔ i ∈ itemsOf db id ∧ i.stored = none := by
  unfold pendingItems
  rw [List.mem_insertionSort, List.mem_filter, Option.isNone_iff_eq_none]

theorem pendingItems_nodup (hplan : Planned params id start) (s : SnapshotState)
    (hs : Progress params id start s) :
    ((pendingItems s.db id).map IntelligenceItemRow.itemId).Nodup := by
  have hmap : ∀ db : SnapshotDb, (itemsOf db id).map IntelligenceItemRow.itemId =
      ((itemsOf db id).map planItem).map IntelligenceItemRow.itemId := by
    intro db
    rw [List.map_map]
    rfl
  have hitems : ((itemsOf s.db id).map IntelligenceItemRow.itemId).Nodup := by
    rw [hmap, hs.plan.items, ← hmap]
    exact hplan.items_distinct
  unfold pendingItems
  rw [((List.perm_insertionSort _ _).map _).nodup_iff]
  exact hitems.sublist (List.filter_sublist.map _)

theorem advances_processPendingIntelligence (hplan : Planned params id start) (s : SnapshotState)
    (hvacant : smooth → Vacant id s) :
    Advances params id start smooth (processPendingIntelligence params id)
      (fun n t => PursuesItems smooth id ((nextItems s.db id).map IntelligenceItemRow.itemId) s t ∧
        n = (pendingItems t.db id).length) s := by
  refine advances_read _ (fun _ s => nextItems s.db id) _ s (fun _ _ => by rw [effect]; rfl) trivial
    (fun _ hs _ => ?_)
  refine advances_bind _ _ s (advances_processPendingItems hplan _ s (fun item hitem => ?_) ?_
    hvacant) (fun _ t ht => ?_)
  · exact (mem_pendingItems _ id item).mp (List.mem_of_mem_take hitem)
  · exact (pendingItems_nodup hplan s hs).sublist ((List.take_sublist _ _).map _)
  · exact advances_last _ (fun _ s => (pendingItems s.db id).length) t (fun _ _ => by rw [effect])
      trivial (fun _ => ⟨ht, rfl⟩)

/-! ## Manifest -/

/-- Everything that a snapshot plans is stored. -/
def AllStored (id : String) (s : SnapshotState) : Prop :=
  (∀ e ∈ entriesOf s.db id, e.recoveryObjectId.isSome = true) ∧
    ∀ i ∈ itemsOf s.db id, i.stored.isSome = true

theorem advances_buildManifest (hplan : Planned params id start) (row : SnapshotRow)
    (captureCompletedAt : Nat) (s : SnapshotState) (hrow : snapshotOf s.db id = some row)
    (hall : AllStored id s) :
    Advances params id start smooth (buildWorkspaceSnapshotManifest params row captureCompletedAt)
      (fun manifest t => t = s ∧ manifest = planManifest params start.db id captureCompletedAt) s := by
  have hid : row.id = id := (Table.mem_of_find? SnapshotRow.id _ _ _ hrow).2
  refine advances_read _ (fun _ s => vaultsOf s.db row.id) _ s (fun _ _ => by rw [effect]; rfl)
    trivial (fun _ hs _ => ?_)
  rw [hid]
  have hvaults := hs.plan.vaults
  refine meets_ite (fun hnone => ?_) (fun _ => ?_)
  · rw [hvaults] at hnone
    exact absurd hnone hplan.vaults_some
  refine advances_read _ (fun _ s => snapshotEntries s.db id) _ s (fun _ _ => by rw [effect]) trivial
    (fun _ _ _ => ?_)
  have hcount : (snapshotEntries s.db id).length = row.itemCount := by
    rcases hplan.row with ⟨row₀, hrow₀, -, -, hitemCount, -⟩
    rcases hs.plan.row row₀ hrow₀ with ⟨row', hrow', -, hsame, -⟩
    rw [hrow, Option.some.injEq] at hrow'
    have hlength := congrArg List.length hs.plan.entries
    rw [List.length_map, List.length_map] at hlength
    unfold snapshotEntries
    rw [List.length_map, List.length_insertionSort, hlength, ← hitemCount, hrow', hsame]
  have hstored : (snapshotEntries s.db id).any (fun e => !e.2.any (fun o => o.stored.isSome)) =
      false := by
    rw [List.any_eq_false]
    intro r hr
    rcases List.mem_map.mp hr with ⟨e, he, rfl⟩
    rw [List.mem_insertionSort] at he
    rcases Option.isSome_iff_exists.mp (hall.1 e he) with ⟨objectId, hnames⟩
    rcases hs.entries_backed e he objectId hnames with ⟨o, receipt, ho, -, hreceipt, -⟩
    have hsome : o.stored.isSome = true := by
      unfold SnapshotObjectRow.receipt at hreceipt
      cases hc : o.stored with
      | none => rw [hc] at hreceipt; cases hreceipt
      | some c => rfl
    simp only [hnames, Option.bind_some, ho, Option.any_some, hsome, Bool.not_true,
      Bool.false_eq_true, not_false_eq_true]
  refine meets_ite (fun hnot => ?_) (fun _ => ?_)
  · rw [hstored] at hnot
    rcases hnot with hnot | hnot
    · exact absurd hcount hnot
    · cases hnot
  refine advances_read _ (fun _ s => ((itemsOf s.db id).filter (fun i => i.stored.isSome)).insertionSort
    (fun i i' => i.portableObjectId ≤ i'.portableObjectId)) _ s (fun _ _ => by rw [effect]) trivial
    (fun _ _ _ => ?_)
  have hmanifest : manifestOf params (vaultsOf s.db id) ((snapshotEntries s.db id).map Prod.fst)
      (((itemsOf s.db id).filter (fun i => i.stored.isSome)).insertionSort
        (fun i i' => i.portableObjectId ≤ i'.portableObjectId)) captureCompletedAt =
      planManifest params start.db id captureCompletedAt := by
    rw [← planManifest_samePlan params id _ _ hs.plan, List.filter_eq_self.mpr hall.2]
    unfold snapshotEntries planManifest
    rw [List.map_map]
    congr 1
    exact List.map_id _
  simp only [hmanifest]
  refine meets_ite (fun _ => advances_pure _ s ⟨rfl, rfl⟩) (fun hnot => ?_)
  exact absurd (hplan.schema captureCompletedAt) hnot

/-! ## The end of a capture -/

/-- A snapshot that is being created. -/
def BeingCreated (id : String) (s : SnapshotState) : Prop :=
  ∃ row, snapshotOf s.db id = some row ∧ row.status = .creating

/-- The request that completes a snapshot makes it complete. -/
theorem complete_of_completed (written : Receipt) (bytes now : Nat) (row : SnapshotRow)
    (s t : SnapshotState) (ht : Progress params id start t) (hrow : snapshotOf s.db id = some row)
    (hstatus : row.status = .creating) (hcount : row.processedObjectCount = row.totalObjectCount)
    (hdb : t.db = updateSnapshots (fun r => r.id = id && r.status = .creating &&
        r.processedObjectCount = r.totalObjectCount) (fun r =>
      { r with
        status := .ready, captureCompletedAt := some now, completedAt := some now
        verifiedAt := some now, integrityStatus := .verified, manifest := some written
        newlyStoredBytes := bytes }) s.db) : Complete params id start t := by
  rcases ht.status with ⟨row', hrow', hcreating⟩ | hcomplete
  · -- Its row is not being created any more.
    let p : SnapshotRow → Bool := fun r => r.id = id && r.status = .creating &&
      r.processedObjectCount = r.totalObjectCount
    let f : SnapshotRow → SnapshotRow := fun r =>
      { r with
        status := .ready, captureCompletedAt := some now, completedAt := some now
        verifiedAt := some now, integrityStatus := .verified, manifest := some written
        newlyStoredBytes := bytes }
    have hp : p row = true := by
      rw [Bool.and_eq_true, Bool.and_eq_true, decide_eq_true_eq, decide_eq_true_eq,
        decide_eq_true_eq]
      exact ⟨⟨(Table.mem_of_find? SnapshotRow.id _ _ _ hrow).2, hstatus⟩, hcount⟩
    have hupdate := Table.find?_update SnapshotRow.id p f (fun _ => rfl) s.db.snapshots id
    unfold snapshotOf at hrow hrow'
    rw [hrow, Option.map_some, if_pos hp] at hupdate
    rw [hdb] at hrow'
    have hsame := hrow'.symm.trans hupdate
    rw [Option.some.injEq] at hsame
    rw [hsame] at hcreating
    cases hcreating
  · exact hcomplete

theorem advances_finalize (hplan : Planned params id start) (now : Nat) (row : SnapshotRow)
    (s : SnapshotState) (hrow : snapshotOf s.db id = some row) (hstatus : row.status = .creating)
    (hcount : row.processedObjectCount = row.totalObjectCount) (hall : AllStored id s)
    (hvacant : smooth → Vacant id s) :
    Advances params id start smooth (finalizeWorkspaceSnapshot params id now)
      (fun _ t => Complete params id start t) s := by
  have hid : row.id = id := (Table.mem_of_find? SnapshotRow.id _ _ _ hrow).2
  refine advances_read _ (fun _ s => (snapshotOf s.db id).filter (fun r => r.status = .creating)) _ s
    (fun _ _ => by rw [effect]) trivial (fun _ hs _ => ?_)
  have hfilter : (snapshotOf s.db id).filter (fun r => r.status = .creating) = some row :=
    Option.filter_eq_some_iff.mpr ⟨hrow, decide_eq_true hstatus⟩
  have hrecipient : recipientIs s.db.recipient row.recipientFingerprint = true := by
    rcases hplan.row with ⟨row₀, hrow₀, -, hpresent, -⟩
    rcases hs.plan.row row₀ hrow₀ with ⟨row', hrow', hsame, -⟩
    rw [hrow, Option.some.injEq] at hrow'
    unfold recipientIs
    rw [hs.plan.recipient, hpresent, hrow', hsame]
    exact decide_eq_true rfl
  rw [hfilter]
  refine advances_bind _ _ s (advances_buildManifest hplan row now s hrow hall)
    (fun manifest t ht => ?_)
  rcases ht with ⟨rfl, rfl⟩
  refine advances_read _ (fun _ s => s.db.recipient) _ t (fun _ _ => by rw [effect]) trivial
    (fun _ _ _ => ?_)
  refine meets_ite (fun hnot => ?_) (fun _ => ?_)
  · rw [hrecipient] at hnot
    exact absurd hnot (by decide)
  refine advances_bind _ _ t (advances_encrypt (manifestKey id) _ t
    (fun hsmooth => (hvacant hsmooth).1)) (fun written u hu => ?_)
  rcases hu with ⟨hdb, ⟨object, hobject, hreceipt, hplaintext⟩, -⟩
  refine advances_read _ (fun _ s => ((s.db.objects.filter (fun o =>
    o.createdBySnapshotId = some id && o.status = .ready)).filterMap
      (fun o => o.stored.map Ciphertext.bytes)).sum) _ u (fun _ _ => by rw [effect]) trivial
    (fun _ _ _ => ?_)
  let p : SnapshotRow → Bool := fun r => r.id = id && r.status = .creating &&
    r.processedObjectCount = r.totalObjectCount
  have hrow' : snapshotOf u.db id = some row := by
    rw [hdb]
    exact hrow
  have hany : u.db.snapshots.any p = true := by
    refine List.any_eq_true.mpr ⟨row, List.mem_of_find?_eq_some hrow', ?_⟩
    rw [Bool.and_eq_true, Bool.and_eq_true, decide_eq_true_eq, decide_eq_true_eq,
      decide_eq_true_eq]
    exact ⟨⟨hid, hstatus⟩, hcount⟩
  have hall' : AllStored id u := by
    unfold AllStored
    rw [hdb]
    exact hall
  refine advances_ask _ _ u (fun _ _ => ⟨⟨object, now, hobject, hreceipt, hplaintext⟩, hall'⟩)
    (fun _ _ w _ => ⟨_, _, by rw [effect, writing]⟩) (fun w r v _ hv _ h => ?_)
  rw [effect, writing, Batch.ok_inj] at h
  refine meets_ite (fun hnot => ?_) (fun _ => advances_pure _ v ?_)
  · refine absurd ?_ hnot
    rw [← h.1, show u.db.snapshots.any _ = true from hany]
    rfl
  · exact complete_of_completed _ _ now row u v hv hrow' hstatus hcount (by rw [← h.2])

theorem advances_readSnapshot (s : SnapshotState)
    (hrow : Progress params id start s → ∃ row, snapshotOf s.db id = some row) :
    Advances params id start smooth (readWorkspaceSnapshot id) (fun _ t => t = s) s := by
  refine advances_read _ (fun _ s => snapshotOf s.db id) _ s (fun _ _ => by rw [effect]) trivial
    (fun _ hs _ => ?_)
  rcases hrow hs with ⟨row, hrow⟩
  rw [hrow]
  exact advances_pure _ s rfl

/-! ## Counting -/

/-- Taking the first of a list off leaves so many fewer. -/
theorem card_sdiff_take (S : Finset String) (l : List String) (n : Nat) (hl : l.Nodup)
    (hS : l.toFinset = S) : (S \ (l.take n).toFinset).card = S.card - n := by
  have hsub : (l.take n).toFinset ⊆ S := by
    intro x hx
    rw [← hS]
    exact List.mem_toFinset.mpr (List.mem_of_mem_take (List.mem_toFinset.mp hx))
  rw [Finset.card_sdiff_of_subset hsub, ← hS, List.toFinset_card_of_nodup hl,
    List.toFinset_card_of_nodup (hl.sublist (List.take_sublist _ _)), List.length_take]
  omega

/-- The portable objects of the pending objects, each once. -/
theorem pendingObjects_portables (hplan : Planned params id start) (s : SnapshotState)
    (hs : Progress params id start s) :
    ((pendingObjects s.db id).map (fun item => item.group.portableObjectId)).Nodup ∧
      ((pendingObjects s.db id).map (fun item => item.group.portableObjectId)).toFinset =
        pendingPortables s.db id := by
  let pending := (entriesOf s.db id).filter (fun e => e.recoveryObjectId.isNone)
  have hmap : (pendingObjects s.db id).map (fun item => item.group.portableObjectId) =
      (groupKeys pending).map GroupKey.portableObjectId := by
    unfold pendingObjects
    rw [List.map_map]
    rfl
  rw [hmap]
  constructor
  · have hnodup : (groupKeys pending).Nodup :=
      (List.perm_insertionSort _ _).nodup_iff.mpr (List.nodup_dedup _)
    refine List.Nodup.map_on (fun k hk k' hk' heq => ?_) hnodup
    rcases (mem_groupKeys pending k).mp hk with ⟨e, he, rfl⟩
    rcases (mem_groupKeys pending k').mp hk' with ⟨f, hf, rfl⟩
    exact (entries_same_of_progress hplan s hs e f (List.mem_filter.mp he).1
      (List.mem_filter.mp hf).1 heq).1
  · ext p
    rw [List.mem_toFinset, List.mem_map, mem_pendingPortables]
    constructor
    · rintro ⟨k, hk, rfl⟩
      rcases (mem_groupKeys pending k).mp hk with ⟨e, he, rfl⟩
      rcases List.mem_filter.mp he with ⟨hmem, hnone⟩
      exact ⟨e, hmem, Option.isNone_iff_eq_none.mp hnone, rfl⟩
    · rintro ⟨e, hmem, hnone, rfl⟩
      refine ⟨e.group, (mem_groupKeys pending _).mpr ⟨e, ?_, rfl⟩, rfl⟩
      exact List.mem_filter.mpr ⟨hmem, Option.isNone_iff_eq_none.mpr hnone⟩

theorem pendingItems_ids (s : SnapshotState) :
    ((pendingItems s.db id).map IntelligenceItemRow.itemId).toFinset = pendingItemIds s.db id := by
  ext x
  rw [List.mem_toFinset, List.mem_map, mem_pendingItemIds]
  simp only [mem_pendingItems, and_assoc]

/-- As many portable objects have a recovery object as there are where each entry has one. -/
theorem objectCounts_eq_iff (s : SnapshotState) (hs : Progress params id start s) :
    (objectCounts s.db id).1 = (objectCounts s.db id).2 ↔
      ∀ e ∈ entriesOf s.db id, e.recoveryObjectId.isSome = true := by
  unfold objectCounts
  simp only
  constructor
  · intro hcount e he
    rw [← List.card_toFinset, ← List.card_toFinset] at hcount
    have hsub : (((entriesOf s.db id).filter (fun e => e.recoveryObjectId.isSome)).map
        SnapshotEntryRow.portableObjectId).toFinset ⊆
          ((entriesOf s.db id).map SnapshotEntryRow.portableObjectId).toFinset := by
      intro x hx
      exact List.mem_toFinset.mpr
        ((List.filter_sublist.map _).subset (List.mem_toFinset.mp hx))
    have heq := Finset.eq_of_subset_of_card_le hsub (le_of_eq hcount.symm)
    have hmem : e.portableObjectId ∈
        ((entriesOf s.db id).map SnapshotEntryRow.portableObjectId).toFinset :=
      List.mem_toFinset.mpr (List.mem_map_of_mem he)
    rw [← heq, List.mem_toFinset] at hmem
    rcases List.mem_map.mp hmem with ⟨f, hf, hport⟩
    rcases List.mem_filter.mp hf with ⟨hfmem, hsome⟩
    rw [← hs.uniform f hfmem e he hport]
    exact hsome
  · intro hall
    rw [List.filter_eq_self.mpr hall]

theorem objectCounts_total (hplan : Planned params id start) (s : SnapshotState)
    (hs : Progress params id start s) (row : SnapshotRow) (hrow : snapshotOf s.db id = some row) :
    (objectCounts s.db id).2 = row.totalObjectCount := by
  rcases hplan.row with ⟨row₀, hrow₀, -, -, -, htotal⟩
  rcases hs.plan.row row₀ hrow₀ with ⟨row', hrow', -, -, hsame⟩
  rw [hrow, Option.some.injEq] at hrow'
  have hmap : ∀ db : SnapshotDb, (entriesOf db id).map SnapshotEntryRow.portableObjectId =
      ((entriesOf db id).map planEntry).map SnapshotEntryRow.portableObjectId := by
    intro db
    rw [List.map_map]
    rfl
  rw [hrow', hsame, htotal]
  unfold objectCounts
  simp only
  rw [hmap, hs.plan.entries, ← hmap]

/-! ## A step -/

/-- What a step that is not interrupted comes to: the snapshot is complete, or less of it is
    pending. -/
def Advanced (params : SnapshotParams) (id : String) (start s t : SnapshotState) : Prop :=
  Complete params id start t ∨ BeingCreated id t ∧ Vacant id t ∧
    (pendingPortables t.db id).card ≤ (pendingPortables s.db id).card - snapshotObjectBatchSize ∧
    (pendingItemIds t.db id).card ≤ (pendingItemIds s.db id).card - snapshotObjectBatchSize ∧
    ((pendingPortables t.db id).card ≠ 0 ∨ (pendingItemIds t.db id).card ≠ 0)

/-- Recording how far a capture is. -/
def recordProcessed (id : String) (processed : Nat) (db : SnapshotDb) : SnapshotDb :=
  updateSnapshots (fun r => r.id = id && r.status = .creating)
    (fun r => { r with processedObjectCount := processed }) db

theorem snapshotOf_recordProcessed (processed : Nat) (db : SnapshotDb) (row : SnapshotRow)
    (hrow : snapshotOf db id = some row) (hstatus : row.status = .creating) :
    snapshotOf (recordProcessed id processed db) id =
      some { row with processedObjectCount := processed } := by
  let p : SnapshotRow → Bool := fun r => r.id = id && r.status = .creating
  let f : SnapshotRow → SnapshotRow := fun r => { r with processedObjectCount := processed }
  have hp : p row = true := by
    rw [Bool.and_eq_true, decide_eq_true_eq, decide_eq_true_eq]
    exact ⟨(Table.mem_of_find? SnapshotRow.id _ _ _ hrow).2, hstatus⟩
  have hupdate := Table.find?_update SnapshotRow.id p f (fun _ => rfl) db.snapshots id
  unfold snapshotOf at hrow
  rw [hrow, Option.map_some, if_pos hp] at hupdate
  exact hupdate

theorem advances_captureNext (hplan : Planned params id start) (context : SnapshotContext)
    (s : SnapshotState) (hid : context.snapshotId = id)
    (hstart : start.db.recipient = some context.recipientFingerprint)
    (hcreating : BeingCreated id s) (hvacant : smooth → Vacant id s) :
    Advances params id start smooth (captureNext params context)
      (fun _ t => smooth → Advanced params id start s t) s := by
  subst hid
  rcases hcreating with ⟨row, hrow, hstatus⟩
  refine advances_read _ (fun _ s => (pendingObjects s.db context.snapshotId).take
    snapshotObjectBatchSize) _ s (fun _ _ => by rw [effect]) trivial (fun _ hs _ => ?_)
  refine advances_bind _ _ s (advances_processPendingObjects context _ s rfl hstart
    (fun item hitem => sourced_of_pending hplan s hs item (List.mem_of_mem_take hitem)))
    (fun _ t ht => ?_)
  -- The keys of the items and of the manifest are as vacant as they were.
  have hvacant' : smooth → Vacant context.snapshotId t := by
    intro hsmooth
    have hkeys := ht.keys hsmooth
    refine ⟨?_, fun i hi hnone => ?_⟩
    · rw [hkeys _ List.mem_cons_self]
      exact (hvacant hsmooth).1
    · rw [itemsOf, ht.items] at hi
      rw [hkeys _ (List.mem_cons_of_mem _ (List.mem_map_of_mem hi))]
      exact (hvacant hsmooth).2 i hi hnone
  refine advances_bind _ _ t (advances_processPendingIntelligence hplan t hvacant')
    (fun n u hu => ?_)
  rcases hu with ⟨hu, hn⟩
  refine advances_read _ (fun _ s => objectCounts s.db context.snapshotId) _ u
    (fun _ _ => by rw [effect]) trivial (fun _ hprogress _ => ?_)
  let processed := (objectCounts u.db context.snapshotId).1
  refine advances_write _ (fun _ => ()) (fun s => recordProcessed context.snapshotId processed s.db)
    _ u (fun _ _ => by rw [effect]; rfl) (fun _ => trivial) (fun _ _ => ?_)
  have hrow' : snapshotOf u.db context.snapshotId = some row := by
    rw [snapshotOf, hu.snapshots, ht.snapshots]
    exact hrow
  have hrecorded := snapshotOf_recordProcessed processed u.db row hrow' hstatus
  have hitems : n = 0 ↔ ∀ i ∈ itemsOf u.db context.snapshotId, i.stored.isSome = true := by
    rw [hn, List.length_eq_zero_iff, List.eq_nil_iff_forall_not_mem]
    simp only [mem_pendingItems, not_and, Option.isSome_iff_ne_none, ne_eq]
  refine meets_ite (fun hdone => ?_) (fun hnot => ?_)
  · have hall : AllStored context.snapshotId u :=
      ⟨(objectCounts_eq_iff u hprogress).mp hdone.1, hitems.mp hdone.2⟩
    refine advances_bind _ _ _ (advances_finalize hplan context.now _ _ hrecorded hstatus ?_ hall
      hu.vacant) (fun _ v hv => ?_)
    · exact hdone.1.trans (objectCounts_total hplan u hprogress row hrow')
    · refine advances_mono ?_ _ v (advances_readSnapshot v (fun hv' => ?_))
      · rintro _ x rfl _
        exact Or.inl hv
      · rcases hv with ⟨row', _, _, _, hrow', -⟩
        exact ⟨row', hrow'⟩
  · refine advances_mono ?_ _ _ (advances_readSnapshot _ (fun _ => ⟨_, hrecorded⟩))
    rintro _ x rfl hsmooth
    refine Or.inr ⟨⟨_, hrecorded, hstatus⟩, hu.vacant hsmooth, ?_, ?_, ?_⟩
    · -- The first pending objects were set.
      have hportables := pendingObjects_portables hplan s hs
      have hset := ht.pending
      rw [List.map_take] at hset
      have hcard := Finset.card_le_card hset
      rw [card_sdiff_take _ _ _ hportables.1 hportables.2] at hcard
      have hsame : pendingPortables (recordProcessed context.snapshotId processed u.db)
          context.snapshotId = pendingPortables t.db context.snapshotId := by
        have hentries : entriesOf (recordProcessed context.snapshotId processed u.db)
            context.snapshotId = entriesOf t.db context.snapshotId := by
          rw [entriesOf, entriesOf, ← hu.entries]
          rfl
        rw [pendingPortables, pendingPortables, hentries]
      rw [hsame]
      exact hcard
    · -- So were the objects of the first pending items.
      have hset := hu.pending
      unfold nextItems at hset
      rw [List.map_take] at hset
      have hcard := Finset.card_le_card hset
      have hbefore : itemsOf t.db context.snapshotId = itemsOf s.db context.snapshotId := by
        rw [itemsOf, itemsOf, ht.items]
      have hids : pendingItemIds t.db context.snapshotId =
          pendingItemIds s.db context.snapshotId := by
        rw [pendingItemIds, pendingItemIds, hbefore]
      have hpending : pendingItems t.db context.snapshotId =
          pendingItems s.db context.snapshotId := by
        rw [pendingItems, pendingItems, hbefore]
      rw [hids, hpending, card_sdiff_take _ _ _ (pendingItems_nodup hplan s hs) (pendingItems_ids s)] at hcard
      exact hcard
    · by_contra hnone
      rw [not_or, not_not, not_not, Finset.card_eq_zero, Finset.card_eq_zero] at hnone
      refine hnot ⟨(objectCounts_eq_iff u hprogress).mpr (fun e he => ?_), hitems.mpr (fun i hi => ?_)⟩
      · by_contra hne
        rw [Bool.not_eq_true, Option.isSome_eq_false_iff, Option.isNone_iff_eq_none] at hne
        have hmem : e.portableObjectId ∈ pendingPortables
            (recordProcessed context.snapshotId processed u.db) context.snapshotId :=
          (mem_pendingPortables _ _ _).mpr ⟨e, he, hne, rfl⟩
        rw [hnone.1] at hmem
        exact absurd hmem (Finset.notMem_empty _)
      · by_contra hne
        rw [Bool.not_eq_true, Option.isSome_eq_false_iff, Option.isNone_iff_eq_none] at hne
        have hmem : i.itemId ∈ pendingItemIds
            (recordProcessed context.snapshotId processed u.db) context.snapshotId :=
          (mem_pendingItemIds _ _ _).mpr ⟨i, hi, hne, rfl⟩
        rw [hnone.2] at hmem
        exact absurd hmem (Finset.notMem_empty _)

variable (smooth) in
/-- A step of a capture. One on a complete snapshot leaves it so. -/
theorem advances_continue (hplan : Planned params id start) (now : Nat) (s : SnapshotState)
    (hcreating : BeingCreated id s ∨ Complete params id start s)
    (hvacant : smooth → BeingCreated id s → Vacant id s) :
    Advances params id start smooth (continueWorkspaceSnapshot params id now)
      (fun _ t => smooth → (Complete params id start s → Complete params id start t) ∧
        (BeingCreated id s → Advanced params id start s t)) s := by
  refine advances_read _ (fun _ s => (snapshotOf s.db id).map
    (fun r => (r.status, r.recipientFingerprint))) _ s (fun _ _ => by rw [effect]) trivial
    (fun _ hs _ => ?_)
  rcases hcreating with ⟨row, hrow, hstatus⟩ | hcomplete
  · rw [hrow, Option.map_some, hstatus]
    refine meets_ite (fun h => by cases h) (fun _ => ?_)
    refine meets_ite (fun h => absurd rfl h) (fun _ => ?_)
    rcases hplan.row with ⟨row₀, hrow₀, -, hpresent, -⟩
    rcases hs.plan.row row₀ hrow₀ with ⟨row', hrow', hsame, -⟩
    rw [hrow, Option.some.injEq] at hrow'
    have hstart : start.db.recipient = some row.recipientFingerprint := by
      rw [hpresent, hrow', hsame]
    refine advances_read _ (fun _ s => s.db.recipient) _ s (fun _ _ => by rw [effect]) trivial
      (fun _ _ _ => ?_)
    have hrecipient : recipientIs s.db.recipient row.recipientFingerprint = true := by
      unfold recipientIs
      rw [hs.plan.recipient, hstart]
      exact decide_eq_true rfl
    refine meets_ite (fun hnot => ?_) (fun _ => ?_)
    · rw [hrecipient] at hnot
      exact absurd hnot (by decide)
    refine advances_mono ?_ _ s (advances_captureNext hplan
      { snapshotId := id, recipientFingerprint := row.recipientFingerprint, now := now } s rfl hstart
      ⟨row, hrow, hstatus⟩ (fun hsmooth => hvacant hsmooth ⟨row, hrow, hstatus⟩))
    intro _ t ht hsmooth
    refine ⟨fun hcomplete => ?_, fun _ => ht hsmooth⟩
    rcases hcomplete with ⟨row', _, _, _, hrow', hready, -⟩
    rw [hrow, Option.some.injEq] at hrow'
    rw [← hrow', hstatus] at hready
    cases hready
  · have hready := hcomplete
    rcases hready with ⟨row, _, _, _, hrow, hready, -⟩
    rw [hrow, Option.map_some, hready]
    refine meets_ite (fun _ => ?_) (fun hnot => absurd rfl hnot)
    refine advances_mono ?_ _ s (advances_readSnapshot s (fun _ => ⟨row, hrow⟩))
    rintro _ t rfl _
    refine ⟨fun h => h, fun hcreating => ?_⟩
    rcases hcreating with ⟨row', hrow', hcreating⟩
    rw [hrow, Option.some.injEq] at hrow'
    rw [← hrow', hready] at hcreating
    cases hcreating

/-! ## Runs -/

/-- A step that may stop at any of its operations, with what comes from outside with each. It
    stops where that runs out. -/
structure Attempt where
  now : Nat
  outside : List Outside

/-- A step that runs to its end. -/
structure WholeStep where
  now : Nat
  outside : ℕ → Outside

/-- What a capture is for. The snapshot is ready, and its manifest is there and lists each planned
    path and item once, all of whose objects are there. -/
def ReadyAsPlanned (id : String) (start s : SnapshotState) : Prop :=
  ∃ row receipt object manifest, snapshotOf s.db id = some row ∧ row.status = .ready ∧
    row.manifest = some receipt ∧ s.storage receipt.key = some object ∧
    object.receipt receipt.key = receipt ∧ object.plaintext = some (.manifest manifest) ∧
    manifest.entries.Perm ((entriesOf start.db id).map manifestEntry) ∧
    manifest.intelligence.Perm ((itemsOf start.db id).map IntelligenceItemRow.portableObjectId) ∧
    (entriesOf s.db id).map manifestEntry = (entriesOf start.db id).map manifestEntry ∧
    (∀ e ∈ entriesOf s.db id, ∃ r, entryReceipt s.db e = some r ∧ Present s r) ∧
    (itemsOf s.db id).map IntelligenceItemRow.portableObjectId =
      (itemsOf start.db id).map IntelligenceItemRow.portableObjectId ∧
    ∀ i ∈ itemsOf s.db id, ∃ r, i.stored = some r ∧ Present s r

/-- Rows taken key by key are the rows. -/
theorem flatMap_filter_perm {α β κ : Type} [DecidableEq κ] (key : β → κ) (keyOf : α → κ)
    (vs : List β) (es : List α) (hvs : (vs.map key).Nodup) :
    (vs.flatMap (fun v => es.filter (fun e => keyOf e = key v))).Perm
      (es.filter (fun e => keyOf e ∈ vs.map key)) := by
  induction vs with
  | nil => simp only [List.flatMap_nil, List.map_nil, List.not_mem_nil, decide_false,
      List.filter_false, List.Perm.refl]
  | cons v vs ih =>
      rw [List.map_cons, List.nodup_cons] at hvs
      rw [List.flatMap_cons]
      refine (List.Perm.append_left _ (ih hvs.2)).trans ?_
      refine List.Perm.trans (List.Perm.of_eq ?_) (List.filter_append_perm
        (fun e => decide (keyOf e = key v)) (es.filter (fun e => keyOf e ∈ (v :: vs).map key)))
      rw [List.filter_filter, List.filter_filter]
      congr 1
      · refine List.filter_congr (fun e _ => ?_)
        by_cases he : keyOf e = key v
        · simp [he]
        · simp [he]
      · refine List.filter_congr (fun e _ => ?_)
        by_cases he : keyOf e = key v
        · simp [he, hvs.1]
        · simp [he]

theorem planManifest_perm (hplan : Planned params id start) (captureCompletedAt : Nat) :
    (planManifest params start.db id captureCompletedAt).entries.Perm
        ((entriesOf start.db id).map manifestEntry) ∧
      (planManifest params start.db id captureCompletedAt).intelligence.Perm
        ((itemsOf start.db id).map IntelligenceItemRow.portableObjectId) := by
  constructor
  · have hsorted := List.perm_insertionSort listsBefore (entriesOf start.db id)
    have hall : ((entriesOf start.db id).insertionSort listsBefore).filter (fun e =>
        e.snapshotVaultId ∈ (vaultsOf start.db id).map SnapshotVaultRow.snapshotVaultId) =
          (entriesOf start.db id).insertionSort listsBefore := by
      refine List.filter_eq_self.mpr (fun e he => decide_eq_true ?_)
      exact hplan.entries_vault e ((List.mem_insertionSort _).mp he)
    have hperm := flatMap_filter_perm SnapshotVaultRow.snapshotVaultId
      SnapshotEntryRow.snapshotVaultId (vaultsOf start.db id)
      ((entriesOf start.db id).insertionSort listsBefore) hplan.vaults_distinct
    rw [hall] at hperm
    have hmap := (hperm.trans hsorted).map manifestEntry
    rw [List.map_flatMap] at hmap
    exact hmap
  · exact (List.perm_insertionSort itemBefore (itemsOf start.db id)).map _

theorem ready_of_complete (hplan : Planned params id start) (s : SnapshotState)
    (hs : Progress params id start s) (h : Complete params id start s) :
    ReadyAsPlanned id start s := by
  rcases h with ⟨row, receipt, object, at', hrow, hstatus, hmanifest, hobject, hreceipt, hplaintext,
    hentries, hitems⟩
  have hperm := planManifest_perm hplan at'
  have hplanned : ∀ db : SnapshotDb, (entriesOf db id).map manifestEntry =
      ((entriesOf db id).map planEntry).map manifestEntry := by
    intro db
    rw [List.map_map]
    rfl
  have hported : ∀ db : SnapshotDb, (itemsOf db id).map IntelligenceItemRow.portableObjectId =
      ((itemsOf db id).map planItem).map IntelligenceItemRow.portableObjectId := by
    intro db
    rw [List.map_map]
    rfl
  refine ⟨row, receipt, object, _, hrow, hstatus, hmanifest, hobject, hreceipt, hplaintext, hperm.1,
    hperm.2, ?_, fun e he => ?_, ?_, fun i hi => ?_⟩
  · rw [hplanned, hs.plan.entries, ← hplanned]
  · rcases Option.isSome_iff_exists.mp (hentries e he) with ⟨objectId, hnames⟩
    rcases hs.entries_backed e he objectId hnames with ⟨o, r, ho, -, hr, hpresent⟩
    refine ⟨r, ?_, hpresent⟩
    unfold entryReceipt
    rw [hnames, Option.bind_some, ho, Option.bind_some, hr]
  · rw [hported, hs.plan.items, ← hported]
  · rcases Option.isSome_iff_exists.mp (hitems i hi) with ⟨r, hr⟩
    exact ⟨r, hr, hs.items_backed i hi r hr⟩

variable (params id)

def attempted (s : SnapshotState) (a : Attempt) : SnapshotState :=
  (runOn (exec params) (continueWorkspaceSnapshot params id a.now) a.outside s).2

def carriedOn (s : SnapshotState) (c : WholeStep) : SnapshotState :=
  (finish (exec params) (continueWorkspaceSnapshot params id c.now) c.outside s).2

/-- Nothing interrupts a step. -/
def Uninterrupted (s : SnapshotState) (c : WholeStep) : Prop :=
  TakenAll (exec params) (Smooth id) (continueWorkspaceSnapshot params id c.now) c.outside s

variable {params id}

/-- Wherever a step stops, it leaves a point of the capture. -/
theorem progress_attempted (hplan : Planned params id start) (s : SnapshotState) (a : Attempt)
    (hs : Progress params id start s) : Progress params id start (attempted params id s a) := by
  have hadvances := advances_continue False hplan a.now s hs.status
    (fun h => h.elim)
  exact (meets_runOn (fun op w s hs hop _ => progress_exec op w s hs hop) _ a.outside s hs hadvances
    (takenOn_of_forall (fun _ _ _ h => h.elim) _ _ _)).1

/-- A whole step from a clear point completes the snapshot or leaves less of it pending. -/
theorem carriedOn_advanced (hplan : Planned params id start) (s : SnapshotState) (c : WholeStep)
    (hs : Progress params id start s) (hvacant : BeingCreated id s → Vacant id s)
    (hc : Uninterrupted params id s c) :
    Progress params id start (carriedOn params id s c) ∧
      (Complete params id start s → Complete params id start (carriedOn params id s c)) ∧
        (BeingCreated id s → Advanced params id start s (carriedOn params id s c)) := by
  have hadvances := advances_continue True hplan c.now s hs.status (fun _ => hvacant)
  have hends := meets_finish (fun op w s hs hop _ => progress_exec op w s hs hop) _ c.outside s hs
    hadvances (takenAll_mono (fun _ _ _ h _ => h) _ _ _ hc)
  rcases hends.2.2 trivial with ⟨a, ha⟩
  exact ⟨hends.1, hends.2.1 a ha trivial⟩

/-- What is left of a capture takes at most so many steps that are not interrupted. -/
def WithinSteps (params : SnapshotParams) (id : String) (start s : SnapshotState) (n : Nat) : Prop :=
  Complete params id start s ∨ BeingCreated id s ∧ Vacant id s ∧ 0 < n ∧
    (pendingPortables s.db id).card ≤ snapshotObjectBatchSize * n ∧
      (pendingItemIds s.db id).card ≤ snapshotObjectBatchSize * n

theorem withinSteps_carriedOn (hplan : Planned params id start) (s : SnapshotState) (c : WholeStep)
    (n : Nat) (hs : Progress params id start s) (h : WithinSteps params id start s (n + 1))
    (hc : Uninterrupted params id s c) :
    Progress params id start (carriedOn params id s c) ∧
      WithinSteps params id start (carriedOn params id s c) n := by
  have hvacant : BeingCreated id s → Vacant id s := by
    intro hcreating
    rcases h with hcomplete | ⟨-, hvacant, -⟩
    · rcases hcomplete with ⟨row, _, _, _, hrow, hready, -⟩
      rcases hcreating with ⟨row', hrow', hcreating⟩
      rw [hrow, Option.some.injEq] at hrow'
      rw [← hrow', hready] at hcreating
      cases hcreating
    · exact hvacant
  have hstep := carriedOn_advanced hplan s c hs hvacant hc
  refine ⟨hstep.1, ?_⟩
  rcases h with hcomplete | ⟨hcreating, -, -, hportables, hitems⟩
  · exact Or.inl (hstep.2.1 hcomplete)
  · rcases hstep.2.2 hcreating with hcomplete | ⟨hcreating', hvacant', hp, hi, hleft⟩
    · exact Or.inl hcomplete
    · -- Something is left, so there is a step left for it.
      rw [Nat.mul_succ] at hportables hitems
      refine Or.inr ⟨hcreating', hvacant', Nat.pos_of_ne_zero (fun hzero => ?_), by omega, by omega⟩
      rw [hzero] at hportables hitems
      omega

theorem complete_of_steps (hplan : Planned params id start) (steps : List WholeStep)
    (s : SnapshotState) (hs : Progress params id start s)
    (h : WithinSteps params id start s steps.length)
    (hc : Run.Along (Uninterrupted params id) (carriedOn params id) s steps) :
    Progress params id start (Run.runFrom (carriedOn params id) s steps) ∧
      Complete params id start (Run.runFrom (carriedOn params id) s steps) := by
  induction steps generalizing s with
  | nil =>
      rcases h with hcomplete | ⟨-, -, hpos, -⟩
      · exact ⟨hs, hcomplete⟩
      · exact absurd hpos (Nat.lt_irrefl 0)
  | cons c rest ih =>
      have hstep := withinSteps_carriedOn hplan s c rest.length hs h hc.1
      exact ih _ hstep.1 hstep.2 hc.2

section Examples

def openParams : SnapshotParams :=
  { ageSize := fun _ => 1
    localeBefore := fun p q => decide (p ≤ q)
    manifestSchema := fun _ => true }

/-- A snapshot of one note and one item, as it is planned. -/
def plannedDb : SnapshotDb :=
  { recipient := some "r"
    snapshots := [{
      id := "s", status := .creating, integrityStatus := .pending, recipientFingerprint := "r"
      captureStartedAt := 0, captureCompletedAt := none, itemCount := 1
      processedObjectCount := 0, totalObjectCount := 1, newlyStoredBytes := 0
      manifest := none, pinned := false, completedAt := none, verifiedAt := none
      failureCode := none }]
    vaults := [{ snapshotId := "s", snapshotVaultId := "w" }]
    entries := [{
      snapshotId := "s", snapshotVaultId := "w", sectionName := .notes, path := "n"
      pathKey := "n", contentSha256 := "h", byteLength := 1, portableObjectId := "a"
      recoveryObjectId := none, sourceR2Key := some "c" }]
    objects := []
    items := [{
      snapshotId := "s", itemId := "i", portableObjectId := "b", sourceObjectKey := "d"
      contentSha256 := "g", byteLength := 1, stored := none }]
    gcObjects := [] }

def sourceObject (sha256 : String) : R2Object :=
  { size := 1, etag := "e", version := "v", sha256 := some sha256, contentSha256 := some sha256
    plaintext := none }

/-- The same, with the sources of both in storage. -/
def plannedSnapshot : SnapshotState :=
  { db := plannedDb
    storage := fun key =>
      if key = "c" then some (sourceObject "h")
      else if key = "d" then some (sourceObject "g")
      else none }

theorem plannedSnapshot_planned : Planned openParams "s" plannedSnapshot where
  row := ⟨_, rfl, by decide, by decide, by decide, by decide⟩
  snapshots_distinct := by decide
  objects_distinct := by decide
  vaults_some := by decide
  vaults_distinct := by decide
  entries_vault := by decide
  entries_same := by decide
  entries_source := by
    intro e he
    rw [List.mem_singleton.mp he]
    exact ⟨"c", rfl, by decide⟩
  entries_backed := by
    intro e he objectId hnames
    rw [List.mem_singleton.mp he] at hnames
    cases hnames
  items_source := by decide
  items_distinct := by decide
  items_portable := by decide
  items_backed := by
    intro i hi receipt hstored
    rw [List.mem_singleton.mp hi] at hstored
    cases hstored
  schema := fun _ => rfl

def answeredOutside (uuid : String) : Outside :=
  { outcome := .answered, uuid := uuid, etag := "f", version := "x" }

/-- A whole step, every operation of which draws an identifier of its own. -/
def wholeStep (named : String) : WholeStep :=
  { now := 1
    outside := fun n => answeredOutside (named ++ String.ofList (List.replicate n '1')) }

/-- A step that stops after some of its operations. -/
def stoppedStep (operations : Nat) : Attempt :=
  { now := 1, outside := (List.range operations).map (wholeStep "t").outside }

end Examples

end Mdevolved.Snapshot
