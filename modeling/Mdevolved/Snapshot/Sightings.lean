import Mdevolved.Snapshot.Calls

/-!
# Snapshot Sightings

What has been seen of the objects of a snapshot. Beside the tables and the object
store goes a list of what storage has shown under which key, one receipt for each
answered `headObject`. An object of the snapshot is found where the receipt that the
tables have of it is on that list.

A repair changes the tables between its sightings. `Moves` says all it can do to them
that matters here: an entry or an item keeps its portable object, and what it names is
either unchanged or found. So whatever has been found stays found, although rows are
replaced and deleted on the way.

## Main definitions

* `Sighted`, `sightedExec`: The state and what was seen, and a request on them.
* `Captured`: The rows of a snapshot as its capture leaves them.
* `FoundAt`, `ManifestFound`, `AllFound`: What was seen of a snapshot.
* `Repairs`: The requests a repair makes, where it makes them.
* `Moves`: What they can do to a snapshot.

## Theorems

* `moves_exec`: A request of a repair moves a snapshot and leaves it captured.
* `foundAt_moves`, `manifestFound_moves`: What is found stays found.
* `replaceObject_found`: A replacement is named wherever its object was.
-/

namespace Mdevolved.Snapshot

/-! ## Seeing -/

/-- The tables and the object store, and what storage has shown. -/
structure Sighted where
  state : SnapshotState
  seen : List Receipt

theorem storedObjectMatches_iff (object : Option R2Object) (c : Ciphertext) :
    storedObjectMatches object c = true ↔ ∃ o, object = some o ∧ o.ciphertext = c := by
  unfold storedObjectMatches R2Object.ciphertext
  cases object with
  | none => simp only [Option.any_none, Bool.false_eq_true, reduceCtorEq, false_and, exists_false]
  | some o =>
      cases c
      simp only [Option.any_some, Bool.and_eq_true, decide_eq_true_eq, Option.some.injEq,
        exists_eq_left', Ciphertext.mk.injEq, and_assoc]

/-- What an answer shows of the object store. -/
def shows : (op : SnapshotOp) → Except SnapshotError op.Ret → List Receipt
  | .headObject key, .ok (some object) => [object.receipt key]
  | _, _ => []

def sightedExec (params : SnapshotParams) (op : SnapshotOp) (w : Outside) (s : Sighted) :
    Except SnapshotError op.Ret × Sighted :=
  let r := exec params op w s.state
  (r.1, { state := r.2, seen := shows op r.1 ++ s.seen })

def Found (s : Sighted) (receipt : Option Receipt) : Prop :=
  ∃ seen ∈ s.seen, receipt = some seen

instance (s : Sighted) (receipt : Option Receipt) : Decidable (Found s receipt) :=
  inferInstanceAs (Decidable (∃ seen ∈ s.seen, _))

/-- What the tables have of the object of an entry. -/
def entryReceipt (db : SnapshotDb) (e : SnapshotEntryRow) : Option Receipt :=
  (e.recoveryObjectId.bind (objectOf db)).bind SnapshotObjectRow.receipt

/-- What the tables have of the manifest of a snapshot. -/
def manifestReceipt (db : SnapshotDb) (id : String) : Option Receipt :=
  (snapshotOf db id).bind SnapshotRow.manifest

/-- What a snapshot is said to be. -/
def integrityOf (db : SnapshotDb) (id : String) : Option IntegrityStatus :=
  (snapshotOf db id).map SnapshotRow.integrityStatus

/-- The portable objects of a snapshot. -/
def portables (db : SnapshotDb) (id : String) : List String :=
  (entriesOf db id).map SnapshotEntryRow.portableObjectId ++
    (itemsOf db id).map IntelligenceItemRow.portableObjectId

/-- Whatever has a portable object names an object that was seen. -/
def FoundAt (id p : String) (s : Sighted) : Prop :=
  (∀ e ∈ entriesOf s.state.db id, e.portableObjectId = p → Found s (entryReceipt s.state.db e)) ∧
    ∀ i ∈ itemsOf s.state.db id, i.portableObjectId = p → Found s i.stored

instance (id p : String) (s : Sighted) : Decidable (FoundAt id p s) :=
  inferInstanceAs (Decidable (_ ∧ _))

def ManifestFound (id : String) (s : Sighted) : Prop :=
  Found s (manifestReceipt s.state.db id)

instance (id : String) (s : Sighted) : Decidable (ManifestFound id s) :=
  inferInstanceAs (Decidable (Found _ _))

/-- Every object that a snapshot names was seen as the tables have it. -/
def AllFound (id : String) (s : Sighted) : Prop :=
  (∀ p ∈ portables s.state.db id, FoundAt id p s) ∧ ManifestFound id s

instance (id : String) (s : Sighted) : Decidable (AllFound id s) :=
  inferInstanceAs (Decidable (_ ∧ _))

/-! ## Captured snapshots -/

/-- A row that is there and whose object is about to be written. -/
def Creating (db : SnapshotDb) (row : SnapshotObjectRow) : Prop :=
  ∃ o, objectOf db row.id = some o ∧ o.status = .creating ∧ o.objectKey = row.objectKey

/-- An object that is there, as far as the tables say. -/
def Stored (db : SnapshotDb) (objectId : String) : Prop :=
  ∃ o, objectOf db objectId = some o ∧ o.status ≠ .creating ∧ o.stored.isSome = true

/-- The rows of a snapshot as its capture leaves them. Everything has its object, and
    a portable object has one content and one recovery object. -/
structure Captured (id : String) (db : SnapshotDb) : Prop where
  entries_stored : ∀ e ∈ entriesOf db id, ∃ objectId, e.recoveryObjectId = some objectId ∧
    Stored db objectId
  entries_same : ∀ e ∈ entriesOf db id, ∀ f ∈ entriesOf db id,
    e.portableObjectId = f.portableObjectId →
      e.group = f.group ∧ e.recoveryObjectId = f.recoveryObjectId
  items_stored : ∀ i ∈ itemsOf db id, i.stored.isSome = true
  items_distinct : ((itemsOf db id).map IntelligenceItemRow.portableObjectId).Nodup
  apart : ∀ e ∈ entriesOf db id, ∀ i ∈ itemsOf db id, e.portableObjectId ≠ i.portableObjectId
  named : ∀ p ∈ portables db id, p ≠ ""
  snapshots_distinct : (db.snapshots.map SnapshotRow.id).Nodup

/-! ## Moves -/

/-- What a repair of a snapshot can do to it. -/
structure Moves (id : String) (s t : Sighted) : Prop where
  seen : s.seen ⊆ t.seen
  portables : portables t.state.db id = portables s.state.db id
  entries : ∀ f ∈ entriesOf t.state.db id, ∃ e ∈ entriesOf s.state.db id, f.group = e.group ∧
    (Found t (entryReceipt t.state.db f) ∨
      f.recoveryObjectId = e.recoveryObjectId ∧
        entryReceipt t.state.db f = entryReceipt s.state.db e)
  items : ∀ j ∈ itemsOf t.state.db id, ∃ i ∈ itemsOf s.state.db id,
    j.portableObjectId = i.portableObjectId ∧
      (Found t j.stored ∨ j.itemId = i.itemId ∧ j.stored = i.stored)
  manifest : Found t (manifestReceipt t.state.db id) ∨
    manifestReceipt t.state.db id = manifestReceipt s.state.db id
  integrity : integrityOf t.state.db id = some .verified →
    integrityOf s.state.db id = some .verified ∨ AllFound id s

section

variable (id : String) (s t : Sighted)

theorem found_of_subset (receipt : Option Receipt) (hseen : s.seen ⊆ t.seen)
    (h : Found s receipt) : Found t receipt := by
  rcases h with ⟨seen, hmem, heq⟩
  exact ⟨seen, hseen hmem, heq⟩

theorem foundAt_moves (id p : String) (s t : Sighted) (hmoves : Moves id s t)
    (h : FoundAt id p s) : FoundAt id p t := by
  constructor
  · intro f hf hp
    rcases hmoves.entries f hf with ⟨e, he, hgroup, hfound | ⟨-, hsame⟩⟩
    · exact hfound
    · have hport : e.portableObjectId = p :=
        (congrArg GroupKey.portableObjectId hgroup).symm.trans hp
      rw [hsame]
      exact found_of_subset s t _ hmoves.seen (h.1 e he hport)
  · intro j hj hp
    rcases hmoves.items j hj with ⟨i, hi, hport, hfound | ⟨-, hsame⟩⟩
    · exact hfound
    · rw [hsame]
      exact found_of_subset s t _ hmoves.seen (h.2 i hi (hport.symm.trans hp))

theorem manifestFound_moves (hmoves : Moves id s t)
    (h : ManifestFound id s) : ManifestFound id t := by
  rcases hmoves.manifest with hfound | hsame
  · exact hfound
  · unfold ManifestFound
    rw [hsame]
    exact found_of_subset s t _ hmoves.seen h

theorem allFound_moves (hmoves : Moves id s t)
    (h : AllFound id s) : AllFound id t := by
  refine ⟨fun p hp => ?_, manifestFound_moves id s t hmoves h.2⟩
  rw [hmoves.portables] at hp
  exact foundAt_moves id p s t hmoves (h.1 p hp)

/-- What is neither an entry nor an item nor a manifest, and no ciphertext that is
    recorded. -/
structure Undisturbed (id : String) (db db' : SnapshotDb) : Prop where
  entries : db'.entries = db.entries
  items : db'.items = db.items
  ids : db'.snapshots.map SnapshotRow.id = db.snapshots.map SnapshotRow.id
  manifest : manifestReceipt db' id = manifestReceipt db id
  objects : ∀ objectId o, objectOf db objectId = some o → o.status ≠ .creating →
    ∃ o', objectOf db' objectId = some o' ∧ o'.status ≠ .creating ∧ o'.stored = o.stored ∧
      o'.objectKey = o.objectKey

theorem undisturbed_refl (db : SnapshotDb) : Undisturbed id db db :=
  ⟨rfl, rfl, rfl, rfl, fun _ o ho hstatus => ⟨o, ho, hstatus, rfl, rfl⟩⟩

theorem stored_undisturbed (id objectId : String) (db db' : SnapshotDb)
    (h : Undisturbed id db db') (hstored : Stored db objectId) : Stored db' objectId := by
  rcases hstored with ⟨o, ho, hstatus, hsome⟩
  rcases h.objects objectId o ho hstatus with ⟨o', ho', hstatus', hstored', -⟩
  exact ⟨o', ho', hstatus', by rw [hstored']; exact hsome⟩

/-- An entry whose object is there has the same receipt afterwards. -/
theorem entryReceipt_undisturbed (db db' : SnapshotDb) (e : SnapshotEntryRow)
    (h : Undisturbed id db db')
    (hstored : ∃ objectId, e.recoveryObjectId = some objectId ∧ Stored db objectId) :
    entryReceipt db' e = entryReceipt db e := by
  rcases hstored with ⟨objectId, hnames, o, ho, hstatus, -⟩
  rcases h.objects objectId o ho hstatus with ⟨o', ho', -, hstored', hkey'⟩
  unfold entryReceipt
  rw [hnames, Option.bind_some, Option.bind_some, ho, ho', Option.bind_some, Option.bind_some,
    SnapshotObjectRow.receipt, SnapshotObjectRow.receipt, hstored', hkey']

theorem moves_undisturbed (hcap : Captured id s.state.db)
    (hseen : s.seen ⊆ t.seen) (h : Undisturbed id s.state.db t.state.db)
    (hintegrity : integrityOf t.state.db id = some .verified →
      integrityOf s.state.db id = some .verified ∨ AllFound id s) :
    Moves id s t ∧ Captured id t.state.db := by
  have hentries : entriesOf t.state.db id = entriesOf s.state.db id := by
    rw [entriesOf, entriesOf, h.entries]
  have hitems : itemsOf t.state.db id = itemsOf s.state.db id := by
    rw [itemsOf, itemsOf, h.items]
  have hports : portables t.state.db id = portables s.state.db id := by
    rw [portables, portables, hentries, hitems]
  constructor
  · refine ⟨hseen, hports, fun f hf => ?_, fun j hj => ?_, Or.inr h.manifest, hintegrity⟩
    · rw [hentries] at hf
      exact ⟨f, hf, rfl, Or.inr ⟨rfl, entryReceipt_undisturbed id _ _ f h (hcap.entries_stored f hf)⟩⟩
    · rw [hitems] at hj
      exact ⟨j, hj, rfl, Or.inr ⟨rfl, rfl⟩⟩
  · constructor
    · intro e he
      rw [hentries] at he
      rcases hcap.entries_stored e he with ⟨objectId, hnames, hstored⟩
      exact ⟨objectId, hnames, stored_undisturbed id objectId _ _ h hstored⟩
    · rw [hentries]; exact hcap.entries_same
    · rw [hitems]; exact hcap.items_stored
    · rw [hitems]; exact hcap.items_distinct
    · rw [hentries, hitems]; exact hcap.apart
    · rw [hports]; exact hcap.named
    · rw [h.ids]; exact hcap.snapshots_distinct

end

/-! ## Single changes -/

theorem undisturbed_updateSnapshots (id : String) (p : SnapshotRow → Bool)
    (f : SnapshotRow → SnapshotRow) (db : SnapshotDb) (hid : ∀ r, (f r).id = r.id)
    (hmanifest : ∀ r, (f r).manifest = r.manifest) :
    Undisturbed id db (updateSnapshots p f db) := by
  refine ⟨rfl, rfl, Table.map_update SnapshotRow.id p f hid _, ?_,
    fun _ o ho hstatus => ⟨o, ho, hstatus, rfl, rfl⟩⟩
  unfold manifestReceipt snapshotOf updateSnapshots
  rw [Table.find?_update SnapshotRow.id p f hid, Option.bind_map]
  congr 1
  funext r
  by_cases hp : p r = true
  · rw [Function.comp, if_pos hp, hmanifest]
  · rw [Function.comp, if_neg hp]

/-- Where the row of a snapshot is not made verified, it does not become so. -/
theorem integrityOf_updateSnapshots (id : String) (p : SnapshotRow → Bool)
    (f : SnapshotRow → SnapshotRow) (db : SnapshotDb) (hid : ∀ r, (f r).id = r.id)
    (hf : ∀ r, r.id = id → p r = true → (f r).integrityStatus = .verified →
      r.integrityStatus = .verified)
    (h : integrityOf (updateSnapshots p f db) id = some .verified) :
    integrityOf db id = some .verified := by
  unfold integrityOf snapshotOf updateSnapshots at h
  rw [Table.find?_update SnapshotRow.id p f hid, Option.map_map, Option.map_eq_some_iff] at h
  rcases h with ⟨r, hr, hverified⟩
  have hbefore : r.integrityStatus = .verified := by
    by_cases hp : p r = true
    · rw [Function.comp, if_pos hp] at hverified
      exact hf r (Table.mem_of_find? SnapshotRow.id _ _ _ hr).2 hp hverified
    · rw [Function.comp, if_neg hp] at hverified
      exact hverified
  unfold integrityOf snapshotOf
  rw [hr, Option.map_some, hbefore]

theorem undisturbed_updateObjects (id : String) (p : SnapshotObjectRow → Bool)
    (f : SnapshotObjectRow → SnapshotObjectRow) (db : SnapshotDb) (hid : ∀ o, (f o).id = o.id)
    (hf : ∀ o, p o = true → o.status ≠ .creating → (f o).status ≠ .creating ∧
      (f o).stored = o.stored ∧ (f o).objectKey = o.objectKey) :
    Undisturbed id db (updateObjects p f db) := by
  refine ⟨rfl, rfl, rfl, rfl, fun objectId o ho hstatus => ?_⟩
  have hfind : objectOf (updateObjects p f db) objectId = some (if p o then f o else o) := by
    unfold objectOf updateObjects
    rw [Table.find?_update SnapshotObjectRow.id p f hid]
    exact congrArg _ ho
  refine ⟨_, hfind, ?_⟩
  by_cases hp : p o = true
  · rw [if_pos hp]
    exact hf o hp hstatus
  · rw [if_neg hp]
    exact ⟨hstatus, rfl, rfl⟩

theorem undisturbed_insertObject (id : String) (row : SnapshotObjectRow) (db : SnapshotDb)
    (objects : List SnapshotObjectRow)
    (h : Table.insert admitsObject db.objects row = some objects) :
    Undisturbed id db { db with objects := objects } := by
  rcases (Table.insert_eq_some admitsObject db.objects objects row).mp h with ⟨-, hobjects⟩
  refine ⟨rfl, rfl, rfl, rfl, fun objectId o ho hstatus => ⟨o, ?_, hstatus, rfl, rfl⟩⟩
  unfold objectOf at ho ⊢
  simp only [hobjects, List.find?_append, ho, Option.some_or]

/-! ## Replacements -/

/-- A new manifest that was seen. -/
theorem moves_replaceManifest (id id' : String) (written : Receipt) (replaced : Option Receipt)
    (now : Nat) (s t : Sighted) (hcap : Captured id s.state.db) (hseen : s.seen ⊆ t.seen)
    (hwritten : written ∈ s.seen)
    (hdb : t.state.db = (replaceManifest id' written replaced now s.state.db).2) :
    Moves id s t ∧ Captured id t.state.db := by
  have hentries : t.state.db.entries = s.state.db.entries := by rw [hdb]; rfl
  have hitems : t.state.db.items = s.state.db.items := by rw [hdb]; rfl
  have hobjects : t.state.db.objects = s.state.db.objects := by rw [hdb]; rfl
  -- Seen from the database it was before, only the manifest has moved.
  have hrest := moves_undisturbed id s
    { t with state := { t.state with db := { t.state.db with snapshots := s.state.db.snapshots } } }
    hcap hseen ⟨hentries, hitems, rfl, rfl, fun objectId o ho hstatus =>
      ⟨o, by rw [objectOf, hobjects]; exact ho, hstatus, rfl, rfl⟩⟩ Or.inl
  let p : SnapshotRow → Bool := fun r => r.id = id' && r.status = .ready
  let f : SnapshotRow → SnapshotRow := fun r =>
    { r with
      manifest := some written
      newlyStoredBytes := r.newlyStoredBytes + written.bytes }
  have hfind : snapshotOf t.state.db id = (snapshotOf s.state.db id).map (fun r =>
      if p r then f r else r) := by
    rw [hdb]
    exact Table.find?_update SnapshotRow.id p f (fun _ => rfl) s.state.db.snapshots id
  have hids : t.state.db.snapshots.map SnapshotRow.id = s.state.db.snapshots.map SnapshotRow.id := by
    rw [hdb]
    exact Table.map_update SnapshotRow.id p f (fun _ => rfl) s.state.db.snapshots
  have hintegrity : integrityOf t.state.db id = some .verified →
      integrityOf s.state.db id = some .verified := by
    rw [hdb]
    exact integrityOf_updateSnapshots id p f s.state.db (fun _ => rfl) (fun _ _ _ hr => hr)
  refine ⟨⟨hseen, hrest.1.portables, hrest.1.entries, hrest.1.items, ?_,
    fun h => Or.inl (hintegrity h)⟩, hrest.2.entries_stored, hrest.2.entries_same,
    hrest.2.items_stored, hrest.2.items_distinct, hrest.2.apart, hrest.2.named, ?_⟩
  swap
  · rw [hids]; exact hcap.snapshots_distinct
  unfold manifestReceipt
  rw [hfind]
  cases hrow : snapshotOf s.state.db id with
  | none => exact Or.inr rfl
  | some r =>
      by_cases hr : p r = true
      · refine Or.inl ⟨written, hseen hwritten, ?_⟩
        rw [Option.map_some, Option.bind_some, if_pos hr]
      · refine Or.inr ?_
        rw [Option.map_some, Option.bind_some, Option.bind_some, if_neg hr]

/-- A new object of an item that was seen. -/
theorem moves_replaceItem (id id' : String) (candidate : ItemCandidate) (written : Receipt)
    (now : Nat) (s t : Sighted) (hcap : Captured id s.state.db) (hseen : s.seen ⊆ t.seen)
    (hwritten : written ∈ s.seen)
    (hdb : t.state.db = (replaceItem id' candidate written now s.state.db).2) :
    Moves id s t ∧ Captured id t.state.db := by
  let p : IntelligenceItemRow → Bool := fun i =>
    i.snapshotId = id' && i.itemId = candidate.itemId &&
      i.stored.any (fun r => r.key = candidate.stored.key)
  let f : IntelligenceItemRow → IntelligenceItemRow := fun i => { i with stored := some written }
  have hentries : entriesOf t.state.db id = entriesOf s.state.db id := by rw [hdb]; rfl
  have hobjects : t.state.db.objects = s.state.db.objects := by rw [hdb]; rfl
  have hitems : itemsOf t.state.db id = Table.update p f (itemsOf s.state.db id) := by
    rw [hdb]
    exact Table.filter_update _ p f _ (fun _ _ => rfl)
  have hmap : (itemsOf t.state.db id).map IntelligenceItemRow.portableObjectId =
      (itemsOf s.state.db id).map IntelligenceItemRow.portableObjectId := by
    rw [hitems]
    exact Table.map_update _ p f (fun _ => rfl) _
  have hports : portables t.state.db id = portables s.state.db id := by
    rw [portables, portables, hentries, hmap]
  have hreceipt : ∀ e, entryReceipt t.state.db e = entryReceipt s.state.db e := by
    intro e
    unfold entryReceipt objectOf
    rw [hobjects]
  have hrow : ∀ j ∈ itemsOf t.state.db id, ∃ i ∈ itemsOf s.state.db id,
      j.portableObjectId = i.portableObjectId ∧
        (j.stored = some written ∨ j.itemId = i.itemId ∧ j.stored = i.stored) := by
    intro j hj
    rw [hitems] at hj
    rcases Table.mem_update p f _ j hj with ⟨i, hi, ⟨-, rfl⟩ | ⟨-, rfl⟩⟩
    · exact ⟨i, hi, rfl, Or.inl rfl⟩
    · exact ⟨j, hi, rfl, Or.inr ⟨rfl, rfl⟩⟩
  let q : SnapshotRow → Bool := fun r => r.id = id' && (false || r.status = .ready)
  let g : SnapshotRow → SnapshotRow := fun r =>
    { r with newlyStoredBytes := r.newlyStoredBytes + written.bytes }
  have hbytes := undisturbed_updateSnapshots id q g s.state.db (fun _ => rfl) (fun _ => rfl)
  constructor
  · refine ⟨hseen, hports, fun e he => ?_, fun j hj => ?_, Or.inr ?_, fun hverified => Or.inl ?_⟩
    · rw [hentries] at he
      exact ⟨e, he, rfl, Or.inr ⟨rfl, hreceipt e⟩⟩
    · rcases hrow j hj with ⟨i, hi, hport, hw | hsame⟩
      · exact ⟨i, hi, hport, Or.inl ⟨written, hseen hwritten, hw⟩⟩
      · exact ⟨i, hi, hport, Or.inr hsame⟩
    · rw [hdb]
      exact hbytes.manifest
    · rw [hdb] at hverified
      exact integrityOf_updateSnapshots id q g s.state.db (fun _ => rfl) (fun _ _ _ hr => hr)
        hverified
  · constructor
    · intro e he
      rw [hentries] at he
      rcases hcap.entries_stored e he with ⟨objectId, hnames, o, ho, hstored⟩
      exact ⟨objectId, hnames, o, by rw [objectOf, hobjects]; exact ho, hstored⟩
    · rw [hentries]; exact hcap.entries_same
    · intro j hj
      rcases hrow j hj with ⟨i, hi, -, hw | ⟨-, hsame⟩⟩
      · rw [hw]; rfl
      · rw [hsame]; exact hcap.items_stored i hi
    · rw [hmap]; exact hcap.items_distinct
    · intro e he j hj
      rw [hentries] at he
      rcases hrow j hj with ⟨i, hi, hport, -⟩
      rw [hport]
      exact hcap.apart e he i hi
    · rw [hports]; exact hcap.named
    · rw [hdb]
      exact hbytes.ids ▸ hcap.snapshots_distinct

/-- An object that was written and seen. -/
def Fresh (s : Sighted) (objectId : String) : Prop :=
  ∃ o receipt, objectOf s.state.db objectId = some o ∧ o.status ≠ .creating ∧
    o.receipt = some receipt ∧ receipt ∈ s.seen

theorem withRecoveryObject_ok (p : SnapshotEntryRow → Bool) (objectId : String)
    (db db' : SnapshotDb) (h : withRecoveryObject p objectId db = .ok db') :
    db' = updateEntries p (fun e => { e with recoveryObjectId := some objectId }) db := by
  unfold withRecoveryObject at h
  split at h
  · cases h
  · exact (Except.ok.inj h).symm

theorem deleteObjectRow_ok (objectId : String) (db db' : SnapshotDb)
    (h : deleteObjectRow objectId db = .ok db') :
    (∀ e ∈ db.entries, e.recoveryObjectId = some objectId → objectOf db objectId = none) ∧
      db' = { db with objects := db.objects.filter (fun o => o.id ≠ objectId) } := by
  unfold deleteObjectRow at h
  split at h
  · cases h
  · next hnone =>
    refine ⟨fun e he hnames => ?_, (Except.ok.inj h).symm⟩
    have hany : db.entries.any (fun e => e.recoveryObjectId = some objectId) = true :=
      List.any_eq_true.mpr ⟨e, he, decide_eq_true hnames⟩
    rw [hany, Bool.true_and, Bool.not_eq_true, Option.isSome_eq_false_iff,
      Option.isNone_iff_eq_none] at hnone
    exact hnone

/-- What a replacement leaves. The entries that named the object name the new one, and the
    row of the object is gone unless it is still needed. -/
theorem replaceObject_ok (id' replacementId : String) (bytes : Nat) (candidate : ContentCandidate)
    (now : Nat) (db db' : SnapshotDb)
    (h : replaceObject id' replacementId bytes candidate now db = .ok db') :
    db'.entries = Table.update (fun e => e.recoveryObjectId = some candidate.recoveryObjectId)
        (fun e => { e with recoveryObjectId := some replacementId }) db.entries ∧
      db'.items = db.items ∧ (∃ p f, db'.snapshots = Table.update p f db.snapshots ∧
        ∀ r, (f r).id = r.id ∧ (f r).manifest = r.manifest ∧
          (f r).integrityStatus = r.integrityStatus) ∧
      db'.objects = db.objects.filter (fun o => o.id ≠ candidate.recoveryObjectId) ∧
      ∀ e ∈ db'.entries, e.recoveryObjectId = some candidate.recoveryObjectId →
        objectOf db candidate.recoveryObjectId = none := by
  unfold replaceObject at h
  cases hnamed : withRecoveryObject
      (fun e => e.recoveryObjectId = some candidate.recoveryObjectId) replacementId db with
  | error e => rw [hnamed] at h; cases h
  | ok named =>
      rw [hnamed] at h
      cases hdeleted : deleteObjectRow candidate.recoveryObjectId
          (queueObjects [candidate.objectKey] now named) with
      | error e => simp only [bind, Except.bind, hdeleted, reduceCtorEq] at h
      | ok deleted =>
          simp only [bind, Except.bind, hdeleted, pure, Except.pure, Except.ok.injEq] at h
          rcases deleteObjectRow_ok _ _ _ hdeleted with ⟨hneeded, rfl⟩
          have hupdate := withRecoveryObject_ok _ _ _ _ hnamed
          subst hupdate
          subst h
          exact ⟨rfl, rfl, ⟨fun s => s.id = id' && (true || s.status = .ready),
            fun s => { s with newlyStoredBytes := s.newlyStoredBytes + bytes }, rfl,
            fun _ => ⟨rfl, rfl, rfl⟩⟩, rfl, hneeded⟩

/-- Wherever its object was named, a replacement is afterwards. -/
theorem replaceObject_found (id id' replacementId : String) (bytes : Nat)
    (candidate : ContentCandidate) (now : Nat) (s t : Sighted) (hcap : Captured id s.state.db)
    (hseen : s.seen ⊆ t.seen) (hfresh : Fresh s replacementId)
    (h : replaceObject id' replacementId bytes candidate now s.state.db = .ok t.state.db) :
    ∀ f ∈ entriesOf t.state.db id, ∃ e ∈ entriesOf s.state.db id, f.group = e.group ∧
      (∃ objectId, f.recoveryObjectId = some objectId ∧ Stored t.state.db objectId) ∧
      ((e.recoveryObjectId = some candidate.recoveryObjectId ∧
          f.recoveryObjectId = some replacementId ∧ Found t (entryReceipt t.state.db f)) ∨
        e.recoveryObjectId ≠ some candidate.recoveryObjectId ∧
          f.recoveryObjectId = e.recoveryObjectId ∧
            entryReceipt t.state.db f = entryReceipt s.state.db e) := by
  rcases replaceObject_ok id' replacementId bytes candidate now _ _ h with
    ⟨hentries, -, -, hobjects, hneeded⟩
  -- An object that is there under another identifier is still there.
  have hkept : ∀ objectId, objectId ≠ candidate.recoveryObjectId →
      objectOf t.state.db objectId = objectOf s.state.db objectId := by
    intro objectId hne
    unfold objectOf
    rw [hobjects, List.find?_filter]
    congr 1
    funext o
    by_cases ho : o.id = objectId
    · simp [ho, hne]
    · simp [ho]
  intro f hf
  rcases List.mem_filter.mp hf with ⟨hmem, hid⟩
  have hin := hmem
  rw [hentries] at hmem
  rcases Table.mem_update _ _ _ f hmem with ⟨e, he, ⟨hp, rfl⟩ | ⟨hp, rfl⟩⟩
  · have hnamed : e.recoveryObjectId = some candidate.recoveryObjectId := of_decide_eq_true hp
    rcases hfresh with ⟨o, receipt, ho, hstatus, hreceipt, hsaw⟩
    have hne : replacementId ≠ candidate.recoveryObjectId := by
      intro heq
      have hgone := hneeded _ hin (congrArg some heq)
      rw [← heq, ho] at hgone
      cases hgone
    have hfind := (hkept replacementId hne).trans ho
    have hstored : o.stored.isSome = true := by
      unfold SnapshotObjectRow.receipt at hreceipt
      cases hs : o.stored with
      | none => rw [hs] at hreceipt; cases hreceipt
      | some c => rfl
    refine ⟨e, List.mem_filter.mpr ⟨he, hid⟩, rfl, ⟨replacementId, rfl, o, hfind, hstatus, hstored⟩,
      Or.inl ⟨hnamed, rfl, receipt, hseen hsaw, ?_⟩⟩
    unfold entryReceipt
    rw [Option.bind_some, hfind, Option.bind_some, hreceipt]
  · have hother : f.recoveryObjectId ≠ some candidate.recoveryObjectId := of_decide_eq_false hp
    have hmem' : f ∈ entriesOf s.state.db id := List.mem_filter.mpr ⟨he, hid⟩
    rcases hcap.entries_stored f hmem' with ⟨objectId, hnames, o, ho, hstatus, hstored⟩
    have hne : objectId ≠ candidate.recoveryObjectId :=
      fun heq => hother (hnames.trans (congrArg some heq))
    have hfind := (hkept objectId hne).trans ho
    refine ⟨f, hmem', rfl, ⟨objectId, hnames, o, hfind, hstatus, hstored⟩,
      Or.inr ⟨hother, rfl, ?_⟩⟩
    unfold entryReceipt
    rw [hnames, Option.bind_some, Option.bind_some, hfind, ho]

theorem moves_replaceObject (id id' replacementId : String) (bytes : Nat)
    (candidate : ContentCandidate) (now : Nat) (s t : Sighted) (hcap : Captured id s.state.db)
    (hseen : s.seen ⊆ t.seen) (hfresh : Fresh s replacementId)
    (h : replaceObject id' replacementId bytes candidate now s.state.db = .ok t.state.db) :
    Moves id s t ∧ Captured id t.state.db := by
  have hrows := replaceObject_found id id' replacementId bytes candidate now s t hcap hseen hfresh h
  rcases replaceObject_ok id' replacementId bytes candidate now _ _ h with
    ⟨hentries, hitems, ⟨p, f, hsnapshots, hf⟩, -, -⟩
  -- Of the snapshots it only counts bytes.
  have hcounts := undisturbed_updateSnapshots id p f s.state.db (fun r => (hf r).1)
    (fun r => (hf r).2.1)
  have hfind : snapshotOf t.state.db id = snapshotOf (updateSnapshots p f s.state.db) id := by
    rw [snapshotOf, hsnapshots]
    rfl
  have hmanifest : manifestReceipt t.state.db id = manifestReceipt s.state.db id := by
    rw [manifestReceipt, hfind]
    exact hcounts.manifest
  have hintegrity : integrityOf t.state.db id = some .verified →
      integrityOf s.state.db id = some .verified := by
    rw [integrityOf, hfind]
    exact integrityOf_updateSnapshots id p f s.state.db (fun r => (hf r).1)
      (fun r _ _ hr => (hf r).2.2 ▸ hr)
  have hitems' : itemsOf t.state.db id = itemsOf s.state.db id := by
    rw [itemsOf, itemsOf, hitems]
  have hports : portables t.state.db id = portables s.state.db id := by
    have hmap : (entriesOf t.state.db id).map SnapshotEntryRow.portableObjectId =
        (entriesOf s.state.db id).map SnapshotEntryRow.portableObjectId := by
      have hupdate := Table.filter_update (fun e => decide (e.snapshotId = id))
        (fun e => decide (e.recoveryObjectId = some candidate.recoveryObjectId))
        (fun e => { e with recoveryObjectId := some replacementId }) s.state.db.entries
        (fun _ _ => rfl)
      rw [entriesOf, entriesOf, hentries, hupdate]
      exact Table.map_update SnapshotEntryRow.portableObjectId _
        (fun e => { e with recoveryObjectId := some replacementId }) (fun _ => rfl) _
    rw [portables, portables, hmap, hitems']
  constructor
  · refine ⟨hseen, hports, fun f hf => ?_, fun j hj => ?_, Or.inr hmanifest,
      fun h => Or.inl (hintegrity h)⟩
    · rcases hrows f hf with ⟨e, he, hgroup, -, ⟨-, -, hfound⟩ | ⟨-, hsame⟩⟩
      · exact ⟨e, he, hgroup, Or.inl hfound⟩
      · exact ⟨e, he, hgroup, Or.inr hsame⟩
    · rw [hitems'] at hj
      exact ⟨j, hj, rfl, Or.inr ⟨rfl, rfl⟩⟩
  · constructor
    · intro f hf
      rcases hrows f hf with ⟨e, he, hgroup, hstored, -⟩
      exact hstored
    · intro f hf f' hf' hport
      rcases hrows f hf with ⟨e, he, hgroup, -, hcase⟩
      rcases hrows f' hf' with ⟨e', he', hgroup', -, hcase'⟩
      have hsame := hcap.entries_same e he e' he' (by
        have h1 := congrArg GroupKey.portableObjectId hgroup
        have h2 := congrArg GroupKey.portableObjectId hgroup'
        exact (h1.symm.trans hport).trans h2)
      refine ⟨by rw [hgroup, hgroup', hsame.1], ?_⟩
      -- Both named the object that was replaced, or neither did.
      rcases hcase with ⟨hold, hnew, -⟩ | ⟨hother, hkept, -⟩ <;>
        rcases hcase' with ⟨hold', hnew', -⟩ | ⟨hother', hkept', -⟩
      · rw [hnew, hnew']
      · exact absurd (hsame.2.symm.trans hold) hother'
      · exact absurd (hsame.2.trans hold') hother
      · rw [hkept, hkept', hsame.2]
    · rw [hitems']; exact hcap.items_stored
    · rw [hitems']; exact hcap.items_distinct
    · intro f hf i hi
      rcases hrows f hf with ⟨e, he, hgroup, -⟩
      rw [hitems'] at hi
      have hne := hcap.apart e he i hi
      rw [show f.portableObjectId = e.portableObjectId from
        congrArg GroupKey.portableObjectId hgroup]
      exact hne
    · rw [hports]; exact hcap.named
    · rw [hsnapshots]
      exact hcounts.ids ▸ hcap.snapshots_distinct

/-! ## Requests -/

/-- The requests that a repair of a snapshot makes, where it makes them. What it records it
    has seen, and it says that the snapshot is verified once everything was. -/
def Repairs (id : String) : SnapshotOp → Sighted → Prop
  | .setRecoveryObject _ _ _, _ | .completeItem _ _ _, _ | .completeSnapshot _ _ _ _, _ => False
  | .replaceManifest _ written _ _, s | .replaceItem _ _ written _, s => written ∈ s.seen
  | .replaceObject _ replacementId _ _ _, s => Fresh s replacementId
  | .markVerified id' _, s => id' = id → AllFound id s
  | _, _ => True

theorem reading_ok {α : Type} (f : SnapshotState → α) (s s' : SnapshotState) (a : α)
    (h : reading f s = .ok (a, s')) : s' = s := by
  unfold reading at h
  rw [Batch.ok_inj] at h
  exact h.2.symm

theorem writing_ok {α : Type} {a a' : α} {db : SnapshotDb} {s s' : SnapshotState}
    (h : writing a db s = .ok (a', s')) : s'.db = db := by
  unfold writing at h
  rw [Batch.ok_inj] at h
  rw [← h.2]

/-- A request of a repair does what a repair can do. -/
theorem moves_effect (params : SnapshotParams) (id : String) (op : SnapshotOp) (w : Outside)
    (s t : Sighted) (r : op.Ret) (hcap : Captured id s.state.db) (hrep : Repairs id op s)
    (hseen : s.seen ⊆ t.seen) (h : effect params w s.state op = .ok (r, t.state)) :
    Moves id s t ∧ Captured id t.state.db := by
  have hundisturbed : ∀ db, t.state.db = db → Undisturbed id s.state.db db →
      (integrityOf db id = some .verified → integrityOf s.state.db id = some .verified ∨
        AllFound id s) → Moves id s t ∧ Captured id t.state.db := by
    intro db hdb hu hintegrity
    exact moves_undisturbed id s t hcap hseen (hdb ▸ hu) (hdb ▸ hintegrity)
  have hsame : t.state = s.state → Moves id s t ∧ Captured id t.state.db := by
    intro hstate
    exact hundisturbed _ (congrArg SnapshotState.db hstate) (undisturbed_refl id _) Or.inl
  have hsnapshots : ∀ p f, t.state.db = updateSnapshots p f s.state.db →
      (∀ r, (f r).id = r.id ∧ (f r).manifest = r.manifest) →
      (∀ r, r.id = id → p r = true → (f r).integrityStatus = .verified →
        r.integrityStatus = .verified) → Moves id s t ∧ Captured id t.state.db := by
    intro p f hdb hf hintegrity
    exact hundisturbed _ hdb
      (undisturbed_updateSnapshots id p f _ (fun r => (hf r).1) (fun r => (hf r).2))
      (fun h => Or.inl (integrityOf_updateSnapshots id p f _ (fun r => (hf r).1) hintegrity h))
  cases op with
  | setRecoveryObject id' p objectId => exact hrep.elim
  | completeItem id' itemId written => exact hrep.elim
  | completeSnapshot id' written bytes now => exact hrep.elim
  | replaceManifest id' written replaced now =>
      exact moves_replaceManifest id id' written replaced now s t hcap hseen hrep
        (writing_ok h)
  | replaceItem id' candidate written now =>
      exact moves_replaceItem id id' candidate written now s t hcap hseen hrep
        (writing_ok h)
  | replaceObject id' replacementId bytes candidate now =>
      rw [effect] at h
      split at h
      · cases h
      · next db hdb =>
        rw [← writing_ok h] at hdb
        exact moves_replaceObject id id' replacementId bytes candidate now s t hcap hseen hrep hdb
  | markFailed id' code now =>
      exact hsnapshots _ _ (writing_ok h) (fun _ => ⟨rfl, rfl⟩) (fun _ _ _ hr => hr)
  | setProcessed id' processed =>
      exact hsnapshots _ _ (writing_ok h) (fun _ => ⟨rfl, rfl⟩) (fun _ _ _ hr => hr)
  | degrade id' =>
      exact hsnapshots _ _ (writing_ok h) (fun _ => ⟨rfl, rfl⟩)
        (fun _ _ _ hr => by cases hr)
  | markVerified id' now =>
      by_cases hid : id' = id
      · exact hundisturbed _ (writing_ok h)
          (undisturbed_updateSnapshots id _ _ _ (fun _ => rfl) (fun _ => rfl))
          (fun _ => Or.inr (hrep hid))
      · refine hsnapshots _ _ (writing_ok h) (fun _ => ⟨rfl, rfl⟩) (fun r hr hp _ => ?_)
        -- The row that is made verified is that of another snapshot.
        rw [Bool.and_eq_true, decide_eq_true_eq] at hp
        exact absurd (hp.1.symm.trans hr) hid
  | failMissing _ | failEncryption _ =>
      exact hundisturbed _ (writing_ok h)
        (undisturbed_updateObjects id _ _ _ (fun _ => rfl)
          (fun _ _ _ => ⟨by simp only [ne_eq, reduceCtorEq, not_false_eq_true], rfl, rfl⟩)) Or.inl
  | verifyObject objectId now =>
      exact hundisturbed _ (writing_ok h)
        (undisturbed_updateObjects id _ _ _ (fun _ => rfl) (fun _ _ hstatus => ⟨hstatus, rfl, rfl⟩))
        Or.inl
  | completeObject objectId written now =>
      refine hundisturbed _ (writing_ok h)
        (undisturbed_updateObjects id _ _ _ (fun _ => rfl) (fun o hp hstatus => ?_)) Or.inl
      -- Only an object that is being written is completed.
      rw [Bool.and_eq_true, decide_eq_true_eq, decide_eq_true_eq] at hp
      exact absurd hp.2 hstatus
  | insertObject row =>
      rw [effect] at h
      split at h
      · cases h
      · next objects hobjects =>
        exact hundisturbed _ (writing_ok h)
          (undisturbed_insertObject id row _ objects hobjects) Or.inl
  | queueObject key now =>
      exact hundisturbed _ (writing_ok h)
        ⟨rfl, rfl, rfl, rfl, fun _ o ho hstatus => ⟨o, ho, hstatus, rfl, rfl⟩⟩ Or.inl
  | putObject key plaintext =>
      rw [effect] at h
      split at h
      · rw [Batch.ok_inj] at h
        exact hsame h.2.symm
      · rw [Batch.ok_inj] at h
        exact hundisturbed _ (congrArg SnapshotState.db h.2).symm (undisturbed_refl id _) Or.inl
  | randomUUID | readStatus | readSummary | readReady | readCreating | readRecipient
  | readPending | readReusable | getObject | headObject | readPendingItems
  | countPendingItems | countObjects | readVaults | readEntries | readReadyItems
  | sumNewBytes | readContentCandidates | readItemCandidates =>
      rw [effect] at h
      exact hsame (reading_ok _ _ _ _ h)

/-- So does a request that is thrown, or whose answer is lost. -/
theorem moves_exec (params : SnapshotParams) (id : String) (op : SnapshotOp) (w : Outside)
    (s : Sighted) (hcap : Captured id s.state.db) (hrep : Repairs id op s) :
    Moves id s (sightedExec params op w s).2 ∧
      Captured id (sightedExec params op w s).2.state.db := by
  have hseen : s.seen ⊆ (sightedExec params op w s).2.seen := List.subset_append_right _ _
  rcases exec_cases params op w s.state with hsame | ⟨r, heffect, -⟩
  · have hdb : (sightedExec params op w s).2.state.db = s.state.db :=
      congrArg SnapshotState.db hsame
    exact moves_undisturbed id s _ hcap hseen (hdb ▸ undisturbed_refl id _)
      (fun hv => Or.inl (hdb ▸ hv))
  · exact moves_effect params id op w s _ r hcap hrep hseen heffect

end Mdevolved.Snapshot
