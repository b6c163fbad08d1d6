import Mdevolved.Snapshot.Candidates

/-!
# Snapshot Verification

A sequence of requests to verify and repair a snapshot. Each looks at the objects after a
continuation identifier its caller names, and the one that finds no more says that the
snapshot is verified. Objects may be lost from storage between requests, and a request may
fail or stop at any of its operations.

Nothing ties that identifier to what was looked at. Where no request skips an object that
the requests before it have not found or replaced, a snapshot becomes verified only once
each of its objects was seen as the tables have it. A caller that goes on from the identifier
a request of the sequence answered with skips none. A caller that begins past the last
object has the snapshot verified at once.

## Main definitions

* `RepairRequest`, `serve`: A request, and what it leaves.
* `NothingSkipped`: The objects up to the identifier of a request were found.
* `Vouched`: A snapshot becomes verified with everything found.

## Theorems

* `verified_found`: In a sequence that skips nothing, a verified snapshot was looked at in
  full.
* `unscanned_verified`: Otherwise it need not have been.
-/

namespace Mdevolved.Snapshot

open Process

variable (params : SnapshotParams) (id : String)

/-! ## Processes -/

/-- What a process of a repair does where it returns. It starts from a snapshot as its capture
    leaves it, and nobody else changes it. -/
abbrev Does {α : Type} (p : SnapshotProcess α) (Q : α → Sighted → Prop) (s : Sighted) : Prop :=
  p.Meets (sightedExec params) (fun _ _ _ => True) (fun s => Captured id s.state.db) Eq
    (Repairs id) (fun r t => ∀ a, r = .ok a → Q a t) s

/-- A fact that a repair does not undo. -/
def Lasting (K : Sighted → Prop) : Prop :=
  ∀ s t, Moves id s t → K s → K t

variable {params id}

section Rules

variable {α β : Type} {Q : α → Sighted → Prop}

theorem does_pure (a : α) (s : Sighted) (h : Q a s) : Does params id (pure a) Q s := by
  intro b hb
  rw [← Except.ok.inj hb]
  exact h

theorem does_throw (e : SnapshotError) (s : Sighted) :
    Does params id (throw e : SnapshotProcess α) Q s :=
  fun _ h => nomatch h

theorem does_bind {M : β → Sighted → Prop} (f : β → SnapshotProcess α) (p : SnapshotProcess β)
    (s : Sighted) (hp : Does params id p M s)
    (hf : ∀ b t, M b t → Does params id (f b) Q t) : Does params id (p >>= f) Q s := by
  refine meets_bind f p s (meets_mono (fun _ _ h => h) (fun r t hr => ?_) p s hp)
  cases r with
  | ok b => exact hf b t (hr b rfl)
  | error e => exact fun _ h => nomatch h

theorem does_mono {Q' : α → Sighted → Prop} (hQ : ∀ a t, Q' a t → Q a t) (p : SnapshotProcess α)
    (s : Sighted) (h : Does params id p Q' s) : Does params id p Q s :=
  meets_mono (fun _ _ h => h) (fun _ t hr a ha => hQ a t (hr a ha)) p s h

/-- Where an error is passed on, only what goes through counts. -/
theorem does_tryCatch (f : SnapshotError → SnapshotProcess α) (p : SnapshotProcess α) (s : Sighted)
    (hp : Does params id p Q s) (hf : ∀ e t, Does params id (f e) Q t) :
    Does params id (Process.tryCatch p f) Q s := by
  refine meets_tryCatch f p s (meets_mono (fun _ _ h => h) (fun r t hr => ?_) p s hp)
  cases r with
  | ok a => exact hr
  | error e => exact hf e t

/-- What lasts is there at the end of a process as well. -/
theorem does_lasting (K : Sighted → Prop) (hK : Lasting id K) (p : SnapshotProcess α) (s : Sighted)
    (hs : K s) (h : Does params id p Q s) : Does params id p (fun a t => Q a t ∧ K t) s := by
  have hframe := meets_frame K (fun s t hs (heq : s = t) => heq ▸ hs) (fun op w t hcap hrep _ ht =>
    hK t _ (moves_exec params id op w t hcap hrep).1 ht) p s hs h
  exact meets_mono (fun _ _ h => h) (fun _ _ hr a ha => ⟨hr.1 a ha, hr.2⟩) p s hframe

/-- A request and what follows its answer. -/
theorem does_ask (op : SnapshotOp) (f : op.Ret → SnapshotProcess α) (s : Sighted)
    (hrep : Captured id s.state.db → Repairs id op s)
    (hok : ∀ w r t, Captured id s.state.db → effect params w s.state op = .ok (r, t.state) →
      t.seen = shows op (.ok r) ++ s.seen → Moves id s t → Does params id (f r) Q t) :
    Does params id (ask op >>= f) Q s := by
  refine meets_request op f s (fun t hcap hst => ?_)
  subst hst
  refine ⟨hrep hcap, fun w _ => ⟨fun r hr => ?_, fun e _ => fun _ h => nomatch h⟩⟩
  have heffect := exec_ok params op w s.state r hr
  refine hok w r _ hcap heffect ?_ (moves_exec params id op w s hcap (hrep hcap)).1
  exact congrArg (fun x => shows op x ++ s.seen) hr

/-- A request that nothing follows. -/
theorem does_last (op : SnapshotOp) {Q : op.Ret → Sighted → Prop} (s : Sighted)
    (hrep : Captured id s.state.db → Repairs id op s)
    (hok : ∀ w r t, Captured id s.state.db → effect params w s.state op = .ok (r, t.state) →
      t.seen = shows op (.ok r) ++ s.seen → Moves id s t → Q r t) : Does params id (ask op) Q s := by
  intro t hcap hst
  subst hst
  refine ⟨hrep hcap, fun w _ r hr => ?_⟩
  have heffect := exec_ok params op w s.state r hr
  refine hok w r _ hcap heffect ?_ (moves_exec params id op w s hcap (hrep hcap)).1
  exact congrArg (fun x => shows op x ++ s.seen) hr

/-- A request that only reads. -/
theorem does_read (op : SnapshotOp) (g : Outside → SnapshotState → op.Ret)
    (f : op.Ret → SnapshotProcess α) (s : Sighted)
    (heffect : ∀ w t, effect params w t op = reading (g w) t) (hrep : Repairs id op s)
    (hshows : ∀ r, shows op (.ok r) = [])
    (hok : ∀ w, Captured id s.state.db → Does params id (f (g w s.state)) Q s) :
    Does params id (ask op >>= f) Q s := by
  refine does_ask op f s (fun _ => hrep) (fun w r t hcap h hseen _ => ?_)
  rw [heffect, reading, Batch.ok_inj] at h
  rw [hshows, List.nil_append] at hseen
  have ht : t = s := by
    cases t
    cases s
    simp only at h hseen
    rw [h.2, hseen]
  rw [ht, ← h.1]
  exact hok w hcap

end Rules

/-! ## Writing -/

/-- A match shows the receipt that was asked for. -/
theorem shows_of_matches (key : String) (object : Option R2Object) (c : Ciphertext)
    (h : storedObjectMatches object c = true) :
    { toCiphertext := c, key := key } ∈ shows (.headObject key) (.ok object) := by
  rcases (storedObjectMatches_iff object c).mp h with ⟨o, rfl, rfl⟩
  exact List.mem_singleton.mpr rfl

/-- What was written was seen, and the tables are what they were. -/
theorem does_encrypt (key : String) (plaintext : Plaintext) (s : Sighted) :
    Does params id (encryptObjectToR2 params key plaintext)
      (fun written t => t.state.db = s.state.db ∧ { toCiphertext := written, key := key } ∈ t.seen)
      s := by
  refine does_ask _ _ s (fun _ => trivial) (fun w written t _ heffect _ _ => ?_)
  have hput : t.state.db = s.state.db := by
    rw [effect] at heffect
    split at heffect <;> rw [Batch.ok_inj] at heffect <;> rw [← heffect.2]
  cases written with
  | none => exact does_throw _ t
  | some written =>
      refine meets_ite (fun _ => does_throw _ t) (fun _ => ?_)
      refine does_ask _ _ t (fun _ => trivial) (fun w verified u _ heffect hseen _ => ?_)
      rw [effect] at heffect
      refine meets_ite (fun hmatches => ?_) (fun _ => does_throw _ u)
      refine does_pure _ u ⟨?_, ?_⟩
      · rw [reading_ok _ _ _ _ heffect]
        exact hput
      · rw [hseen]
        exact List.mem_append_left _ (shows_of_matches key verified _ hmatches)

theorem does_completeRecoveryObject (context : SnapshotContext) (row : SnapshotObjectRow)
    (s : Sighted) (hrow : Creating s.state.db row) :
    Does params id (completeRecoveryObject params context row) (fun o t => Fresh t o.id) s := by
  refine does_bind _ _ s (does_encrypt _ _ s) (fun written t ht => ?_)
  refine does_ask _ _ t (fun _ => trivial) (fun w completed u _ heffect hseen _ => ?_)
  refine meets_ite (fun _ => does_throw _ u) (fun _ => does_pure _ u ?_)
  rcases hrow with ⟨o, ho, hstatus, hkey⟩
  rw [← ht.1] at ho
  have hdb := writing_ok heffect
  let p : SnapshotObjectRow → Bool := fun o => o.id = row.id && o.status = .creating
  let f : SnapshotObjectRow → SnapshotObjectRow := fun o =>
    { o with status := .ready, stored := some written, verifiedAt := some context.now }
  have hp : p o = true := by
    rw [Bool.and_eq_true, decide_eq_true_eq, decide_eq_true_eq]
    exact ⟨objectOf_id _ _ _ ho, hstatus⟩
  have hfind : objectOf u.state.db row.id = some (f o) := by
    rw [hdb]
    unfold objectOf updateObjects
    rw [Table.find?_update SnapshotObjectRow.id p f (fun _ => rfl), show
      t.state.db.objects.find? (fun r => r.id = row.id) = some o from ho, Option.map_some, if_pos hp]
  refine ⟨f o, { toCiphertext := written, key := row.objectKey }, hfind, ?_, ?_, ?_⟩
  · exact fun h => nomatch h
  · rw [← hkey]
    rfl
  · rw [hseen]
    exact ht.2

theorem does_createRecoveryObject (context : SnapshotContext) (group : GroupKey) (byteLength : Nat)
    (sourceR2Key : String) (s : Sighted) :
    Does params id (createRecoveryObject params context group byteLength sourceR2Key)
      (fun o t => Fresh t o.id) s := by
  refine does_read _ (fun _ s => s.storage sourceR2Key) _ s (fun _ _ => by rw [effect]) trivial
    (fun _ => rfl) (fun _ _ => ?_)
  refine meets_ite (fun _ => does_throw _ s) (fun _ => ?_)
  refine does_read _ (fun w _ => w.uuid) _ s (fun _ _ => by rw [effect]) trivial (fun _ => rfl)
    (fun w _ => ?_)
  refine does_read _ (fun w _ => w.uuid) _ s (fun _ _ => by rw [effect]) trivial (fun _ => rfl)
    (fun w' _ => ?_)
  refine does_ask _ _ s (fun _ => trivial) (fun _ _ t _ heffect _ _ => ?_)
  refine does_tryCatch _ _ t (does_completeRecoveryObject _ _ t ?_) (fun e u => ?_)
  · rw [effect] at heffect
    split at heffect
    · cases heffect
    · next objects hobjects =>
      rcases (Table.insert_eq_some _ _ _ _).mp hobjects with ⟨hadmits, rfl⟩
      -- No row had its identifier, so it is the one that is found.
      refine ⟨_, ?_, rfl, rfl⟩
      unfold objectOf
      rw [writing_ok heffect, List.find?_append, List.find?_eq_none.mpr]
      · rw [Option.none_or, List.find?_cons_of_pos (by rw [decide_eq_true_eq])]
      · intro r hr
        have hne := List.all_eq_true.mp hadmits r hr
        rw [Bool.and_eq_true, decide_eq_true_eq] at hne
        rw [decide_eq_true_eq]
        exact hne.1
  · exact does_ask _ _ u (fun _ => trivial) (fun _ _ v _ _ _ _ => does_throw e v)

/-! ## Candidates -/

/-- A content whose object is named by whatever has it is found once the object was seen. -/
theorem foundAt_of_due (c : ContentCandidate) (s : Sighted) (hdue : Due id s (.content c))
    (hseen : ∀ ciphertext, c.stored = some ciphertext →
      { toCiphertext := ciphertext, key := c.objectKey } ∈ s.seen) :
    FoundAt id c.group.portableObjectId s := by
  refine ⟨fun e he hp => ?_, fun i hi hp => absurd hp (hdue.2 i hi)⟩
  rcases hdue.1 e he hp with hfound | ⟨-, ciphertext, hstored, hreceipt⟩
  · exact hfound
  · exact ⟨_, hseen ciphertext hstored, hreceipt⟩

/-- It is found as well once the object was replaced. -/
theorem foundAt_of_replaced (id' replacementId : String) (bytes : Nat) (c : ContentCandidate)
    (now : Nat) (s t : Sighted) (hcap : Captured id s.state.db) (hmoves : Moves id s t)
    (hfresh : Fresh s replacementId) (hdue : Due id s (.content c))
    (h : replaceObject id' replacementId bytes c now s.state.db = .ok t.state.db) :
    FoundAt id c.group.portableObjectId t := by
  refine ⟨fun f hf hp => ?_, fun j hj hp => ?_⟩
  · rcases replaceObject_found id id' replacementId bytes c now s t hcap hmoves.seen hfresh h f hf
      with ⟨e, he, hgroup, -, ⟨-, -, hfound⟩ | ⟨hother, -, hsame⟩⟩
    · exact hfound
    · have hport : e.portableObjectId = c.group.portableObjectId :=
        (congrArg GroupKey.portableObjectId hgroup).symm.trans hp
      rcases hdue.1 e he hport with hfound | ⟨hnames, -⟩
      · rw [hsame]
        exact found_of_subset s t _ hmoves.seen hfound
      · exact absurd hnames hother
  · rcases hmoves.items j hj with ⟨i, hi, hport, -⟩
    exact absurd (hport.symm.trans hp) (hdue.2 i hi)

section

variable (context : SnapshotContext) (c : ItemCandidate) (s : Sighted)

theorem does_repairContent (c : ContentCandidate) (s : Sighted)
    (hdue : Due id s (.content c)) :
    Does params id (repairContent params context c)
      (fun _ t => FoundAt id c.group.portableObjectId t) s := by
  refine does_ask _ _ s (fun _ => trivial) (fun _ object t _ _ hseen hmoves => ?_)
  have hdue' := due_moves id s t _ hmoves hdue
  refine meets_ite (fun hmatches => ?_) (fun _ => ?_)
  · have hfound : FoundAt id c.group.portableObjectId t := by
      refine foundAt_of_due c t hdue' (fun ciphertext hstored => ?_)
      rw [hstored, Option.any_some] at hmatches
      rw [hseen]
      exact List.mem_append_left _ (shows_of_matches c.objectKey object ciphertext hmatches)
    exact does_last _ t (fun _ => trivial)
      (fun _ _ u _ _ _ hmoves' => foundAt_moves id _ t u hmoves' hfound)
  · refine does_ask _ _ t (fun _ => trivial) (fun _ _ u _ _ _ hmoves' => ?_)
    have hdue'' := due_moves id t u _ hmoves' hdue'
    cases c.sourceR2Key with
    | none => exact does_throw _ u
    | some sourceR2Key =>
        refine does_bind _ _ u (does_lasting (fun t => Due id t (.content c))
          (fun s t hst => due_moves id s t _ hst) _ u hdue''
          (does_createRecoveryObject context c.group c.byteLength sourceR2Key u))
          (fun replacement v hv => ?_)
        refine does_last _ v (fun _ => hv.1) (fun _ _ x hcap heffect _ hmoves'' => ?_)
        rw [effect] at heffect
        split at heffect
        · cases heffect
        · next db hdb =>
          rw [← writing_ok heffect] at hdb
          exact foundAt_of_replaced _ _ _ c _ v x hcap hmoves'' hv.1 hv.2 hdb

/-- An item whose object is the one that was read is found once that was seen. -/
theorem foundAt_of_item (hdue : Due id s (.intelligence c))
    (hseen : c.stored ∈ s.seen) : FoundAt id c.portableObjectId s := by
  refine ⟨fun e he hp => absurd hp (hdue.2 e he), fun i hi hp => ?_⟩
  rcases hdue.1 i hi hp with hfound | ⟨-, hstored⟩
  · exact hfound
  · exact ⟨_, hseen, hstored⟩

/-- Where the row of an item was changed, it is found. -/
theorem foundAt_of_replaceItem (written : Receipt) (now : Nat) (s t : Sighted)
    (hmoves : Moves id s t) (hwritten : written ∈ s.seen) (hdue : Due id s (.intelligence c))
    (hdb : t.state.db = (replaceItem id c written now s.state.db).2) :
    FoundAt id c.portableObjectId t := by
  have hdue' := due_moves id s t _ hmoves hdue
  refine ⟨fun e he hp => absurd hp (hdue'.2 e he), fun j hj hp => ?_⟩
  rcases List.mem_filter.mp hj with ⟨hmem, hid⟩
  rw [hdb] at hmem
  rcases Table.mem_update _ _ _ j hmem with ⟨i, hi, ⟨-, rfl⟩ | ⟨hnot, rfl⟩⟩
  · exact ⟨written, hmoves.seen hwritten, rfl⟩
  · rcases hdue.1 j (List.mem_filter.mpr ⟨hi, hid⟩) hp with hfound | ⟨hitem, hstored⟩
    · exact found_of_subset s t _ hmoves.seen hfound
    · -- The row that was read is the one that is changed.
      rw [hitem, hstored, hid, Option.any_some] at hnot
      simp only [decide_true, Bool.and_self, Bool.true_eq_false] at hnot

theorem does_repairSnapshotIntelligenceObject (hcontext : context.snapshotId = id) (hdue : Due id s (.intelligence c)) :
    Does params id (repairSnapshotIntelligenceObject params context c)
      (fun _ t => FoundAt id c.portableObjectId t) s := by
  refine does_read _ (fun _ s => s.storage c.sourceObjectKey) _ s (fun _ _ => by rw [effect])
    trivial (fun _ => rfl) (fun _ _ => ?_)
  refine meets_ite (fun _ => does_throw _ s) (fun _ => ?_)
  refine does_read _ (fun w _ => w.uuid) _ s (fun _ _ => by rw [effect]) trivial (fun _ => rfl)
    (fun w _ => ?_)
  refine does_bind _ _ s (does_lasting (fun t => Due id t (.intelligence c))
    (fun s t hst => due_moves id s t _ hst) _ s hdue (does_encrypt _ _ s)) (fun written t ht => ?_)
  refine does_ask _ _ t (fun _ => ht.1.2) (fun _ updated u _ heffect _ hmoves => ?_)
  have hfound : FoundAt id c.portableObjectId u := by
    refine foundAt_of_replaceItem c _ context.now t u hmoves ht.1.2 ht.2 ?_
    rw [writing_ok heffect, hcontext]
  refine meets_ite (fun _ => ?_) (fun _ => does_pure _ u hfound)
  exact does_ask _ _ u (fun _ => trivial) (fun _ _ v _ _ _ _ => does_throw _ v)

theorem does_repairItem (hcontext : context.snapshotId = id) (hdue : Due id s (.intelligence c)) :
    Does params id (repairItem params context c) (fun _ t => FoundAt id c.portableObjectId t) s := by
  refine does_ask _ _ s (fun _ => trivial) (fun _ object t _ _ hseen hmoves => ?_)
  have hdue' := due_moves id s t _ hmoves hdue
  refine meets_ite (fun hmatches => ?_) (fun _ => ?_)
  · refine does_pure _ t (foundAt_of_item c t hdue' ?_)
    rw [hseen]
    exact List.mem_append_left _ (shows_of_matches c.stored.key object c.stored.toCiphertext hmatches)
  · refine does_ask _ _ t (fun _ => trivial) (fun _ _ u _ _ _ hmoves' => ?_)
    exact does_repairSnapshotIntelligenceObject context c u hcontext (due_moves id t u _ hmoves' hdue')

/-- Whatever a request looks at it finds or replaces, or it fails. -/
theorem does_repairCandidates (cs : List RepairCandidate) (s : Sighted)
    (hcontext : context.snapshotId = id) (hdue : ∀ c ∈ cs, Due id s c) :
    Does params id (repairCandidates params context cs)
      (fun _ t => ∀ c ∈ cs, FoundAt id c.portableObjectId t) s := by
  induction cs generalizing s with
  | nil => exact does_pure _ s (fun c hc => absurd hc List.not_mem_nil)
  | cons c cs ih =>
      -- The rest stays due while the first is looked at, and that stays found afterwards.
      have hrest : ∀ t, (∀ d ∈ cs, Due id t d) → FoundAt id c.portableObjectId t →
          Does params id (repairCandidates params context cs)
            (fun _ u => ∀ d ∈ c :: cs, FoundAt id d.portableObjectId u) t := by
        intro t ht hfound
        refine does_mono ?_ _ t (does_lasting (FoundAt id c.portableObjectId)
          (fun s t hst => foundAt_moves id _ s t hst) _ t hfound (ih t ht))
        intro _ u hu d hd
        rcases List.mem_cons.mp hd with rfl | hd
        · exact hu.2
        · exact hu.1 d hd
      have hlasting : Lasting id (fun t => ∀ d ∈ cs, Due id t d) :=
        fun s t hst h d hd => due_moves id s t d hst (h d hd)
      have hcs := fun d hd => hdue d (List.mem_cons_of_mem c hd)
      have hc := hdue c List.mem_cons_self
      cases c with
      | content c =>
          exact does_bind _ _ s (does_lasting _ hlasting _ s hcs (does_repairContent context c s hc))
            (fun _ t ht => hrest t ht.2 ht.1)
      | intelligence c =>
          exact does_bind _ _ s
            (does_lasting _ hlasting _ s hcs (does_repairItem context c s hcontext hc))
            (fun _ t ht => hrest t ht.2 ht.1)

end

/-! ## Manifest -/

/-- Building a manifest only reads. -/
theorem does_buildManifest (row : SnapshotRow) (captureCompletedAt : Nat) (s : Sighted) :
    Does params id (buildWorkspaceSnapshotManifest params row captureCompletedAt)
      (fun _ _ => True) s := by
  refine does_read _ (fun _ s => s.db.vaults.filter (fun v => v.snapshotId = row.id)) _ s
    (fun _ _ => by rw [effect]) trivial (fun _ => rfl) (fun _ _ => ?_)
  refine meets_ite (fun _ => does_throw _ s) (fun _ => ?_)
  refine does_read _ (fun _ s => snapshotEntries s.db row.id) _ s (fun _ _ => by rw [effect]) trivial
    (fun _ => rfl) (fun _ _ => ?_)
  refine meets_ite (fun _ => does_throw _ s) (fun _ => ?_)
  refine does_ask _ _ s (fun _ => trivial) (fun _ items t _ _ _ _ => ?_)
  refine meets_ite (fun _ => does_pure _ t trivial) (fun _ => does_throw _ t)

/-- Where a row was changed, it was that of the snapshot. -/
theorem manifestFound_of_replaced (written : Receipt) (replaced : Option Receipt) (now : Nat)
    (s t : Sighted) (hcap : Captured id s.state.db) (hmoves : Moves id s t)
    (hwritten : written ∈ s.seen)
    (hdb : t.state.db = (replaceManifest id written replaced now s.state.db).2)
    (hreturned : (replaceManifest id written replaced now s.state.db).1 = some id) :
    ManifestFound id t := by
  let p : SnapshotRow → Bool := fun r => r.id = id && r.status = .ready
  let f : SnapshotRow → SnapshotRow := fun r =>
    { r with
      manifest := some written
      newlyStoredBytes := r.newlyStoredBytes + written.bytes }
  have hany : s.state.db.snapshots.any p = true := by
    by_contra hnone
    rw [Bool.not_eq_true] at hnone
    have hnothing : (replaceManifest id written replaced now s.state.db).1 =
        returning (s.state.db.snapshots.any p) id := rfl
    rw [hnothing, hnone] at hreturned
    cases hreturned
  rcases List.any_eq_true.mp hany with ⟨r, hr, hp⟩
  have hid : r.id = id := by
    rw [Bool.and_eq_true, decide_eq_true_eq] at hp
    exact hp.1
  have hfind := Table.find?_of_mem SnapshotRow.id _ r hcap.snapshots_distinct hr
  rw [hid] at hfind
  have hafter : snapshotOf t.state.db id = some (f r) := by
    have hupdate := Table.find?_update SnapshotRow.id p f (fun _ => rfl) s.state.db.snapshots id
    rw [hfind, Option.map_some, if_pos hp] at hupdate
    rw [hdb]
    exact hupdate
  refine ⟨written, hmoves.seen hwritten, ?_⟩
  unfold manifestReceipt
  rw [hafter]
  rfl

theorem does_repairManifest (row : SnapshotRow) (now : Nat) (s : Sighted) (hrow : row.id = id)
    (hmanifest : manifestReceipt s.state.db id = row.manifest) :
    Does params id (repairWorkspaceSnapshotManifest params row now)
      (fun _ t => ManifestFound id t) s := by
  subst hrow
  -- It is there already, or it is written anew.
  have hanew : ∀ captureCompletedAt t, Does params row.id (do
      ask (.degrade row.id)
      let manifest ← buildWorkspaceSnapshotManifest params row captureCompletedAt
      let uuid ← ask .randomUUID
      let replacementKey := "snapshots/" ++ row.id ++ "/manifests/" ++ uuid ++ ".age"
      let written ← encryptObjectToR2 params replacementKey (.manifest manifest)
      let updated ← ask (.replaceManifest row.id
        { toCiphertext := written, key := replacementKey } row.manifest now)
      if updated ≠ some row.id then do
        ask (.queueObject replacementKey now)
        throw .unavailable
      else pure ()) (fun _ t => ManifestFound row.id t) t := by
    intro captureCompletedAt t
    refine does_ask _ _ t (fun _ => trivial) (fun _ _ u _ _ _ _ => ?_)
    refine does_bind _ _ u (does_buildManifest row captureCompletedAt u) (fun manifest v _ => ?_)
    refine does_read _ (fun w _ => w.uuid) _ v (fun _ _ => by rw [effect]) trivial
      (fun _ => rfl) (fun w _ => ?_)
    refine does_bind _ _ v (does_encrypt _ _ v) (fun written x hx => ?_)
    refine does_ask _ _ x (fun _ => hx.2) (fun _ updated y hcap heffect _ hmoves => ?_)
    refine meets_ite (fun _ => ?_) (fun hupdated => does_pure _ y ?_)
    · exact does_ask _ _ y (fun _ => trivial) (fun _ _ z _ _ _ _ => does_throw _ z)
    · rw [not_not] at hupdated
      have hdb := writing_ok heffect
      let receipt : Receipt :=
        { toCiphertext := written
          key := "snapshots/" ++ row.id ++ "/manifests/" ++ w.uuid ++ ".age" }
      have hreturned : (replaceManifest row.id receipt row.manifest now x.state.db).1 =
          updated := by
        rw [effect, writing, Batch.ok_inj] at heffect
        exact heffect.1
      rw [hupdated] at hreturned
      exact manifestFound_of_replaced _ _ now x y hcap hmoves hx.2 hdb hreturned
  unfold repairWorkspaceSnapshotManifest
  cases hm : row.manifest with
  | none =>
      rw [hm] at hanew
      cases row.captureCompletedAt with
      | none => exact does_throw _ s
      | some captureCompletedAt => exact hanew captureCompletedAt s
  | some manifest =>
      refine does_ask _ _ s (fun _ => trivial) (fun _ object t _ heffect hseen hmoves => ?_)
      refine meets_ite (fun hmatches => does_pure _ t ?_) (fun _ => ?_)
      · have hdb : t.state.db = s.state.db := by
          rw [effect] at heffect
          rw [reading_ok _ _ _ _ heffect]
        refine ⟨manifest, ?_, ?_⟩
        · rw [hseen]
          exact List.mem_append_left _ (shows_of_matches manifest.key object _ hmatches)
        · rw [hdb, hmanifest, hm]
      · rw [hm] at hanew
        cases row.captureCompletedAt with
        | none => exact does_throw _ t
        | some captureCompletedAt => exact hanew captureCompletedAt t

/-! ## Requests -/

/-- The portable objects up to the identifier that a request goes on from were all found. -/
def NothingSkipped (id : String) (after : Option String) (s : Sighted) : Prop :=
  ∀ p ∈ portables s.state.db id, p ≤ after.getD "" → FoundAt id p s

instance (id : String) (after : Option String) (s : Sighted) :
    Decidable (NothingSkipped id after s) :=
  inferInstanceAs (Decidable (∀ p ∈ _, _))

theorem nothingSkipped_moves (after : Option String) : Lasting id (NothingSkipped id after) := by
  intro s t hmoves h p hp hle
  rw [hmoves.portables] at hp
  exact foundAt_moves id p s t hmoves (h p hp hle)

/-- What a request answers with skips nothing, and it says that a snapshot is verified only
    with everything found. -/
theorem does_repairNext (context : SnapshotContext) (after : Option String) (s : Sighted)
    (hcontext : context.snapshotId = id) (hlocale : LocaleOrders params (portables s.state.db id))
    (hskipped : NothingSkipped id after s) (hmanifest : ManifestFound id s) :
    Does params id (repairNext params context after)
      (fun result t => ∀ next, result.nextPortableObjectId = some next →
        NothingSkipped id (some next) t) s := by
  subst hcontext
  refine does_read _ (fun _ s => contentCandidates s.db context.snapshotId (after.getD "")
    (snapshotRepairBatchSize + 1)) _ s (fun _ _ => by rw [effect]) trivial (fun _ => rfl)
    (fun _ hcap => ?_)
  refine does_read _ (fun _ s => itemCandidates s.db context.snapshotId (after.getD "")
    (snapshotRepairBatchSize + 1)) _ s (fun _ _ => by rw [effect]) trivial (fun _ => rfl)
    (fun _ _ => ?_)
  have hdue : ∀ c ∈ (candidatesOf params s.state.db context.snapshotId (after.getD "")).take
      snapshotRepairBatchSize, Due context.snapshotId s c := fun c hc =>
    candidatesOf_due params context.snapshotId (after.getD "") s hcap c (List.mem_of_mem_take hc)
  -- What was found before, and which objects there are, is the same afterwards.
  have hlasting : Lasting context.snapshotId (fun t => NothingSkipped context.snapshotId after t ∧
      ManifestFound context.snapshotId t ∧
        portables t.state.db context.snapshotId = portables s.state.db context.snapshotId) :=
    fun t u hmoves h => ⟨nothingSkipped_moves after t u hmoves h.1,
      manifestFound_moves _ t u hmoves h.2.1, (hmoves.portables).trans h.2.2⟩
  refine does_bind _ _ s (does_lasting _ hlasting _ s ⟨hskipped, hmanifest, rfl⟩
    (does_repairCandidates context _ s rfl hdue)) (fun _ t ht => ?_)
  rcases ht with ⟨hfound, hskipped', hmanifest', hports⟩
  have hreached : ∀ p ∈ portables t.state.db context.snapshotId,
      (∀ next, nextPortableObjectId (candidatesOf params s.state.db context.snapshotId
        (after.getD "")) = some next → p ≤ next) → FoundAt context.snapshotId p t := by
    intro p hp hnext
    by_cases hafter : after.getD "" < p
    · rw [hports] at hp
      rcases mem_candidates params s.state.db context.snapshotId (after.getD "") hcap hlocale p hp
        hafter hnext with ⟨c, hc, rfl⟩
      exact hfound c hc
    · exact hskipped' p hp (not_lt.mp hafter)
  unfold candidatesOf at hreached
  cases hn : nextPortableObjectId (mergeCandidates params
      (contentCandidates s.state.db context.snapshotId (after.getD "") (snapshotRepairBatchSize + 1))
      (itemCandidates s.state.db context.snapshotId (after.getD "") (snapshotRepairBatchSize + 1))) with
  | none =>
      refine does_ask _ _ t (fun _ _ => ⟨fun p hp => hreached p hp (fun next h => ?_), hmanifest'⟩)
        (fun _ _ u _ _ _ _ => ?_)
      · rw [hn] at h
        cases h
      · refine does_bind (M := fun _ _ => True) _ _ u ?_ (fun summary v _ => does_pure _ v ?_)
        · refine does_ask _ _ u (fun _ => trivial) (fun _ summary v _ _ _ _ => ?_)
          cases summary with
          | none => exact does_throw _ v
          | some row => exact does_pure _ v trivial
        · exact fun _ h => by cases h
  | some next =>
      have hnext : NothingSkipped context.snapshotId (some next) t := by
        intro p hp hle
        refine hreached p hp (fun next' h => ?_)
        rw [hn, Option.some.injEq] at h
        rw [← h]
        exact hle
      refine does_bind _ _ t (does_lasting (Q := fun _ _ => True) _ (nothingSkipped_moves (some next))
        _ t hnext ?_) (fun summary v hv => does_pure _ v ?_)
      · refine does_ask _ _ t (fun _ => trivial) (fun _ summary v _ _ _ _ => ?_)
        cases summary with
        | none => exact does_throw _ v
        | some row => exact does_pure _ v trivial
      · intro next' h
        rw [← h]
        exact hv.2

/-- A request that skips nothing. -/
theorem does_repairWorkspaceSnapshot (after : Option String) (now : Nat) (s : Sighted)
    (hlocale : LocaleOrders params (portables s.state.db id)) (hskipped : NothingSkipped id after s) :
    Does params id (repairWorkspaceSnapshot params id after now)
      (fun result t => ∀ next, result.nextPortableObjectId = some next →
        NothingSkipped id (some next) t) s := by
  refine does_read _ (fun _ s => (snapshotOf s.db id).filter (fun r => r.status = .ready)) _ s
    (fun _ _ => by rw [effect]) trivial (fun _ => rfl) (fun _ _ => ?_)
  cases hrow : (snapshotOf s.state.db id).filter (fun r => r.status = .ready) with
  | none => exact does_throw _ s
  | some row =>
      have hfind : snapshotOf s.state.db id = some row := (Option.filter_eq_some_iff.mp hrow).1
      have hid := (Table.mem_of_find? SnapshotRow.id _ _ _ hfind).2
      refine does_read _ (fun _ s => s.db.recipient) _ s (fun _ _ => by rw [effect]) trivial
        (fun _ => rfl) (fun _ _ => ?_)
      refine meets_ite (fun _ => does_throw _ s) (fun _ => ?_)
      have hlasting : Lasting id (fun t => NothingSkipped id after t ∧
          LocaleOrders params (portables t.state.db id)) := fun t u hmoves h =>
        ⟨nothingSkipped_moves after t u hmoves h.1, hmoves.portables ▸ h.2⟩
      refine does_bind _ _ s (does_lasting _ hlasting _ s ⟨hskipped, hlocale⟩
        (does_repairManifest row now s hid (by rw [manifestReceipt, hfind, Option.bind_some])))
        (fun _ t ht => ?_)
      exact does_repairNext _ after t rfl ht.2.2 ht.2.1 ht.1

/-! ## Sequences -/

/-- A request to verify and repair a snapshot, with the objects that storage has lost before it
    and what comes from outside with each of its operations. It stops where that runs out. -/
structure RepairRequest where
  after : Option String
  now : Nat
  lost : List String
  outside : List Outside

def lose (keys : List String) (s : Sighted) : Sighted :=
  { s with
    state :=
      { s.state with
        storage := fun key => if key ∈ keys then none else s.state.storage key } }

variable (params id)

/-- A request as far as it comes. -/
def served (s : Sighted) (r : RepairRequest) : SnapshotProcess RepairResult × Sighted :=
  runOn (sightedExec params) (repairWorkspaceSnapshot params id r.after r.now) r.outside
    (lose r.lost s)

def serve (s : Sighted) (r : RepairRequest) : Sighted :=
  (served params id s r).2

def marksVerified : SnapshotOp → Bool
  | .markVerified id' _ => id' = id
  | _ => false

/-- Where an operation makes a snapshot verified, or says so once more, each of its objects was
    found. -/
def Vouched (op : SnapshotOp) (w : Outside) (s : Sighted) : Prop :=
  marksVerified id op = true ∨ integrityOf s.state.db id ≠ some .verified →
    integrityOf (sightedExec params op w s).2.state.db id = some .verified →
      AllFound id (sightedExec params op w s).2

/-- So it is with each operation of a request. -/
def VouchedAlong (s : Sighted) (r : RepairRequest) : Prop :=
  TakenOn (sightedExec params) (Vouched params id)
    (repairWorkspaceSnapshot params id r.after r.now) r.outside (lose r.lost s)

variable {params id}

/-- An operation of a repair makes a snapshot verified with everything found. -/
theorem vouched_of_repairs (op : SnapshotOp) (w : Outside) (s : Sighted)
    (hcap : Captured id s.state.db) (hrep : Repairs id op s) : Vouched params id op w s := by
  intro hbefore hafter
  have hmoves := (moves_exec params id op w s hcap hrep).1
  refine allFound_moves id s _ hmoves ?_
  rcases hbefore with hmarks | hbefore
  · cases op with
    | markVerified id' now => exact hrep (of_decide_eq_true hmarks)
    | _ => cases hmarks
  · exact (hmoves.integrity hafter).resolve_left hbefore

/-- What a request that skips nothing does, however far it comes. -/
theorem served_sound (s : Sighted) (r : RepairRequest) (hcap : Captured id s.state.db)
    (hlocale : LocaleOrders params (portables s.state.db id)) (hskipped : NothingSkipped id r.after s) :
    Captured id (serve params id s r).state.db ∧ VouchedAlong params id s r ∧
      (∀ K, Lasting id K → K (lose r.lost s) → K (serve params id s r)) ∧
      ∀ result next, (served params id s r).1 = .done (.ok result) →
        result.nextPortableObjectId = some next → NothingSkipped id (some next) (serve params id s r)
    := by
  have hdoes := does_repairWorkspaceSnapshot r.after r.now (lose r.lost s) hlocale
    hskipped
  have hrun := meets_runOn (fun op w s hcap hrep _ => (moves_exec params id op w s hcap hrep).2)
    _ r.outside (lose r.lost s) hcap hdoes (takenOn_of_forall (fun _ _ _ => trivial) _ _ _)
  refine ⟨hrun.1, ?_, fun K hK hs => ?_, fun result next hdone hnext => ?_⟩
  · exact takenOn_mono (fun op w s h => vouched_of_repairs op w s h.1 h.2) _ _ _ hrun.2.2
  · exact runOn_keeps K (fun op w s h hs => hK s _ (moves_exec params id op w s h.1 h.2).1 hs) _ _ _
      hrun.2.2 hs
  · have hends := hrun.2.1
    rw [show (runOn (sightedExec params) (repairWorkspaceSnapshot params id r.after r.now) r.outside
      (lose r.lost s)).1 = .done (.ok result) from hdone] at hends
    exact hends result rfl next hnext

/-- What has to be so for a request is so again after one that skips nothing. -/
theorem serve_lasting (s : Sighted) (r : RepairRequest) (hcap : Captured id s.state.db)
    (hlocale : LocaleOrders params (portables s.state.db id)) (hskipped : NothingSkipped id r.after s) :
    Captured id (serve params id s r).state.db ∧
      LocaleOrders params (portables (serve params id s r).state.db id) := by
  have hsound := served_sound s r hcap hlocale hskipped
  refine ⟨hsound.1, hsound.2.2.1 (fun t => LocaleOrders params (portables t.state.db id)) ?_ hlocale⟩
  intro t u hmoves h
  rw [hmoves.portables]
  exact h

/-- In a sequence of requests none of which skips an object, whichever operation makes the
    snapshot verified finds each of its objects seen in the sequence as the tables have it, and a
    snapshot that was not verified before is so at the end only then. -/
theorem verified_found (s : SnapshotState) (rs : List RepairRequest) (hcap : Captured id s.db)
    (hlocale : LocaleOrders params (portables s.db id))
    (h : Run.Along (fun s r => NothingSkipped id r.after s) (serve params id)
      { state := s, seen := [] } rs) :
    Run.Along (VouchedAlong params id) (serve params id) { state := s, seen := [] } rs ∧
      (integrityOf s.db id ≠ some .verified →
        integrityOf (Run.runFrom (serve params id) { state := s, seen := [] } rs).state.db id =
          some .verified →
        AllFound id (Run.runFrom (serve params id) { state := s, seen := [] } rs)) := by
  constructor
  · refine Run.along_of_invariant _ (fun t => Captured id t.state.db ∧
      LocaleOrders params (portables t.state.db id)) (fun t r ht hskipped => ?_) _ rs
        ⟨hcap, hlocale⟩ h
    exact ⟨(served_sound t r ht.1 ht.2 hskipped).2.1, serve_lasting t r ht.1 ht.2 hskipped⟩
  · intro hbefore
    -- A snapshot that is not yet verified becomes so with everything found, which lasts.
    have hvouched : Lasting id (fun t => integrityOf t.state.db id = some .verified →
        AllFound id t) := by
      intro t u hmoves ht hu
      refine allFound_moves id t u hmoves ?_
      rcases hmoves.integrity hu with hverified | hall
      · exact ht hverified
      · exact hall
    have hrun := Run.runFrom_invariant (serve params id) (fun t => (Captured id t.state.db ∧
        LocaleOrders params (portables t.state.db id)) ∧
          (integrityOf t.state.db id = some .verified → AllFound id t))
      (fun t r ht hskipped => ⟨serve_lasting t r ht.1.1 ht.1.2 hskipped,
        (served_sound t r ht.1.1 ht.1.2 hskipped).2.2.1 _ hvouched ht.2⟩)
      { state := s, seen := [] } rs ⟨⟨hcap, hlocale⟩, fun hv => absurd hv hbefore⟩ h
    exact hrun.2

section Examples

def unitParams : SnapshotParams :=
  { ageSize := fun _ => 1
    localeBefore := fun p q => decide (p ≤ q)
    manifestSchema := fun _ => true }

def unitObject : R2Object :=
  { size := 1, etag := "e", version := "v", sha256 := none, contentSha256 := none, plaintext := none }

/-- A snapshot of one note, not known to be whole. -/
def degradedDb : SnapshotDb :=
  { recipient := some "r"
    snapshots := [{
      id := "s", status := .ready, integrityStatus := .degraded, recipientFingerprint := "r"
      captureStartedAt := 0, captureCompletedAt := some 0, itemCount := 1
      processedObjectCount := 1, totalObjectCount := 1, newlyStoredBytes := 2
      manifest := some (unitObject.receipt "m"), pinned := false, completedAt := some 0
      verifiedAt := some 0, failureCode := none }]
    vaults := [{ snapshotId := "s", snapshotVaultId := "w" }]
    entries := [{
      snapshotId := "s", snapshotVaultId := "w", sectionName := .notes, path := "n"
      pathKey := "n", contentSha256 := "h", byteLength := 1, portableObjectId := "a"
      recoveryObjectId := some "o", sourceR2Key := some "c" }]
    objects := [{
      id := "o", status := .ready, sectionName := .notes, recipientFingerprint := "r"
      contentSha256 := "h", plaintextBytes := 1, objectKey := "k"
      stored := some unitObject.ciphertext, createdBySnapshotId := some "s", createdAt := 0
      verifiedAt := some 0, failureCode := none }]
    items := []
    gcObjects := [] }

/-- The same, with what storage has. -/
def degradedSnapshot (keys : List String) : SnapshotState :=
  { db := degradedDb
    storage := fun key => if key ∈ keys then some unitObject else none }

theorem degradedDb_captured : Captured "s" degradedDb := by
  refine ⟨fun e he => ?_, by decide, by decide, by decide, by decide, by decide, by decide⟩
  rw [List.mem_singleton.mp he]
  exact ⟨"o", rfl, _, rfl, by decide, rfl⟩

/-- A request all of whose operations are answered. -/
def answeredRequest (after : Option String) (operations : Nat) : RepairRequest :=
  { after := after
    now := 1
    lost := []
    outside := List.replicate operations
      { outcome := .answered, uuid := "u", etag := "f", version := "w" } }

/-- A request that goes on past the last object has the snapshot verified, although its one note
    is nowhere in storage and was not looked for. -/
theorem unscanned_verified :
    let end' := Run.runFrom (serve unitParams "s")
      { state := degradedSnapshot ["m"], seen := [] } [answeredRequest (some "b") 7]
    Captured "s" degradedDb ∧ LocaleOrders unitParams (portables degradedDb "s") ∧
      integrityOf degradedDb "s" = some .degraded ∧
      integrityOf end'.state.db "s" = some .verified ∧ ¬ AllFound "s" end' :=
  ⟨degradedDb_captured, by decide +kernel, by decide +kernel, by decide +kernel,
    by decide +kernel⟩

/-- A request from the beginning has it verified with everything found. -/
theorem scanned_verified :
    let end' := Run.runFrom (serve unitParams "s")
      { state := degradedSnapshot ["m", "k"], seen := [] } [answeredRequest none 9]
    integrityOf end'.state.db "s" = some .verified ∧ AllFound "s" end' := by
  have hverified : integrityOf (Run.runFrom (serve unitParams "s")
      { state := degradedSnapshot ["m", "k"], seen := [] } [answeredRequest none 9]).state.db "s" =
        some .verified := by decide +kernel
  exact ⟨hverified, (verified_found (degradedSnapshot ["m", "k"]) [answeredRequest none 9]
    degradedDb_captured (by decide +kernel) (by decide +kernel)).2 (by decide +kernel)
      hverified⟩

end Examples

end Mdevolved.Snapshot
