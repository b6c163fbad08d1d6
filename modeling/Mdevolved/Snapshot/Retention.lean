import Mdevolved.Lib.Weights
import Mdevolved.Snapshot.Tables

/-!
# Snapshot Retention

The scheduled deletion of old snapshots. A run selects the snapshots beyond the number that
is to be kept, the oldest first, and after them as many more as bring the retained bytes
under the limit, and it deletes the first four of its selection. Pinned snapshots and the
newest verified one are protected.

The retained bytes are not counted again for each snapshot that is selected: from the count
for the present tables a run takes away what each snapshot could free by itself. Snapshots
share their objects, so that is not what a selection frees together. Two old snapshots with
the same files hold every object of theirs twice, and neither frees any of them alone. And
an object that has been found missing counts as freed though it was not counted as retained.
`retained_together` says what the difference is.

So a run that has already selected enough may go on selecting, and delete snapshots that
were to be kept. `retention_sound_iff` says on which tables no run does: at each selection
the limit calls for, the objects that several selected snapshots share have as many bytes as
the missing ones that one of them holds.

## Main definitions

* `retainedCiphertextBytes`, `removableCiphertextBytes`: What is counted.
* `queueSnapshotDeletion`, `withoutSnapshots`: The deletion of a snapshot.
* `selection`: The selection of a run, after each of the snapshots it looks at.
* `enforceSnapshotRetention`: A run.
* `RetentionSound`: What is expected of a run.

## Theorems

* `retained_together`: What a selection frees, and what the run takes it to free.
* `selection_cases`, `selection_reaches`: The selections of a run.
* `retention_sound_iff`: When a run is sound.
* `retention_oversteps`: A run that deletes snapshots that were to be kept.
-/

namespace Mdevolved.Snapshot

open Weights

/-- The row of `snapshot_retention_policy`. -/
structure RetentionPolicy where
  enabled : Bool
  keepReadyCount : Nat
  maxRetainedCiphertextBytes : Option Nat

def retentionDeleteBatchSize : Nat := 4

/-! ## Bytes -/

/-- The column of the manifest's bytes, which counts for nothing where it is null. -/
def SnapshotRow.manifestCiphertextBytes (s : SnapshotRow) : Nat :=
  (s.manifest.map (fun r => r.bytes)).getD 0

def SnapshotObjectRow.ciphertextBytes (o : SnapshotObjectRow) : Nat :=
  (o.stored.map (fun c => c.bytes)).getD 0

def IntelligenceItemRow.encryptedBytes (i : IntelligenceItemRow) : Nat :=
  (i.stored.map (fun r => r.bytes)).getD 0

/-- Whether any entry names an object. -/
def referenced (db : SnapshotDb) (o : SnapshotObjectRow) : Bool :=
  db.entries.any (fun e => e.recoveryObjectId = some o.id)

/-- The bytes of all that is kept for the snapshots. -/
def retainedCiphertextBytes (db : SnapshotDb) : Nat :=
  total SnapshotRow.manifestCiphertextBytes (fun s => s.status = .ready) db.snapshots +
    total SnapshotObjectRow.ciphertextBytes (fun o => o.status = .ready && referenced db o)
      db.objects +
    total IntelligenceItemRow.encryptedBytes (fun i => i.stored.isSome) db.items

/-- Whether an object is named by the entries of one snapshot and of no other. -/
def ownedBy (db : SnapshotDb) (snapshotId : String) (o : SnapshotObjectRow) : Bool :=
  db.entries.any (fun e => e.snapshotId = snapshotId && e.recoveryObjectId = some o.id) &&
    !db.entries.any (fun e => e.snapshotId ≠ snapshotId && e.recoveryObjectId = some o.id)

/-- The bytes that one snapshot would free by itself. -/
def removableCiphertextBytes (db : SnapshotDb) (snapshotId : String) (manifestBytes : Nat) : Nat :=
  manifestBytes +
    (total SnapshotObjectRow.ciphertextBytes (ownedBy db snapshotId) db.objects +
      total IntelligenceItemRow.encryptedBytes
        (fun i => i.snapshotId = snapshotId && i.stored.isSome) db.items)

/-! ## Deletion -/

/-- The snapshots that are ready, the newest first. -/
def readySnapshots (db : SnapshotDb) : List SnapshotRow :=
  (db.snapshots.filter (fun s => s.status = .ready)).insertionSort (fun s t =>
    Table.Ranks t.captureStartedAt t.id s.captureStartedAt s.id)

/-- The newest snapshot that is verified. -/
def latestKnownGood (db : SnapshotDb) : Option SnapshotRow :=
  (readySnapshots db).find? (fun s => s.integrityStatus = .verified)

/-- The row of a snapshot, where it may be deleted. -/
def deletable (db : SnapshotDb) (snapshotId : String) : Option SnapshotRow :=
  db.snapshots.find? (fun s => s.id = snapshotId && s.status = .ready && !s.pinned &&
    s.id ≠ ((latestKnownGood db).map SnapshotRow.id).getD "")

/-- The keys of the objects that only a snapshot's entries name. -/
def ownedKeys (db : SnapshotDb) (snapshotId : String) : List String :=
  (db.objects.filter (ownedBy db snapshotId)).map SnapshotObjectRow.objectKey

def itemKeys (db : SnapshotDb) (snapshotId : String) : List String :=
  (itemsOf db snapshotId).filterMap (fun i => i.stored.map (fun r => r.key))

/-- Snapshots are gone, with the rows that refer to them. The objects they created stay. -/
def withoutSnapshots (db : SnapshotDb) (ids : List String) : SnapshotDb :=
  { db with
    snapshots := db.snapshots.filter (fun s => !ids.contains s.id)
    vaults := db.vaults.filter (fun v => !ids.contains v.snapshotId)
    entries := db.entries.filter (fun e => !ids.contains e.snapshotId)
    items := db.items.filter (fun i => !ids.contains i.snapshotId)
    objects := db.objects.map (fun o =>
      if o.createdBySnapshotId.any (fun id => ids.contains id) then
        { o with createdBySnapshotId := none }
      else o) }

/-- The rows of objects are gone that are queued and that no entry names. -/
def forgetObjects (db : SnapshotDb) : SnapshotDb :=
  { db with
    objects := db.objects.filter (fun o =>
      !(db.gcObjects.any (fun g => g.objectKey = o.objectKey) && !referenced db o)) }

def queueSnapshotDeletion (db : SnapshotDb) (snapshotId : String) (now : Nat) :
    Bool × SnapshotDb :=
  match deletable db snapshotId with
  | none => (false, db)
  | some snapshot =>
      let queued := queueObjects ((snapshot.manifest.map (fun r => r.key)).toList ++
        ownedKeys db snapshotId ++ itemKeys db snapshotId) now db
      if (deletable queued snapshotId).isSome then
        (true, forgetObjects (withoutSnapshots queued [snapshotId]))
      else (false, queued)

/-! ## Selection -/

/-- The snapshots that a run has selected, and the bytes it expects to be left. -/
structure Selection where
  selected : List SnapshotRow
  projectedBytes : Int

def protectedIds (db : SnapshotDb) : List String :=
  ((readySnapshots db).filter SnapshotRow.pinned).map SnapshotRow.id ++
    ((latestKnownGood db).map SnapshotRow.id).toList

/-- One more snapshot is selected, and what it could free is taken off. -/
def Selection.push (db : SnapshotDb) (selection : Selection) (snapshot : SnapshotRow) :
    Selection :=
  { selected := selection.selected ++ [snapshot]
    projectedBytes := selection.projectedBytes -
      removableCiphertextBytes db snapshot.id snapshot.manifestCiphertextBytes }

/-- The snapshots beyond the number that is to be kept, the oldest first. -/
def beyondKept (db : SnapshotDb) (keepReadyCount : Nat) : List SnapshotRow :=
  ((readySnapshots db).drop keepReadyCount).reverse.filter (fun s =>
    !(protectedIds db).contains s.id)

def firstSelection (db : SnapshotDb) (keepReadyCount : Nat) : Selection :=
  (beyondKept db keepReadyCount).foldl (Selection.push db)
    { selected := [], projectedBytes := retainedCiphertextBytes db }

/-- Whether more is to be selected: the limit is passed, and more than two are left. -/
def overLimit (db : SnapshotDb) (limit : Nat) (selection : Selection) : Bool :=
  !(selection.projectedBytes ≤ limit ||
    (readySnapshots db).length - selection.selected.length ≤ 2)

/-- The loop over the snapshots, the oldest first, that ends when the limit is met. -/
def selectOldest (db : SnapshotDb) (limit : Nat) : List SnapshotRow → Selection → Selection
  | [], selection => selection
  | snapshot :: rest, selection =>
      if overLimit db limit selection then
        if (protectedIds db).contains snapshot.id ||
            selection.selected.any (fun s => s.id = snapshot.id) then
          selectOldest db limit rest selection
        else selectOldest db limit rest (selection.push db snapshot)
      else selection

/-- The selection of a run, when it has looked at some rows for the limit. -/
def selection (db : SnapshotDb) (policy : RetentionPolicy) (rows : List SnapshotRow) :
    Selection :=
  let first := firstSelection db policy.keepReadyCount
  match policy.maxRetainedCiphertextBytes with
  | none => first
  | some limit =>
      if (limit : Int) < first.projectedBytes then selectOldest db limit rows first else first

/-- One deletion after the other, with the number of those that took place. -/
def deleteSelected (now : Nat) (r : Nat × SnapshotDb) (snapshot : SnapshotRow) :
    Nat × SnapshotDb :=
  match queueSnapshotDeletion r.2 snapshot.id now with
  | (true, db) => (r.1 + 1, db)
  | (false, db) => (r.1, db)

def enforceSnapshotRetention (db : SnapshotDb) (policy : RetentionPolicy) (now : Nat) :
    Nat × SnapshotDb :=
  if policy.enabled then
    ((selection db policy (readySnapshots db).reverse).selected.take
      retentionDeleteBatchSize).foldl (deleteSelected now) (0, db)
  else (0, db)

/-! ## What is freed -/

/-- The snapshots whose entries name an object. -/
def holders (db : SnapshotDb) (o : SnapshotObjectRow) : List String :=
  ((db.entries.filter (fun e => e.recoveryObjectId = some o.id)).map
    SnapshotEntryRow.snapshotId).dedup

section

variable (db : SnapshotDb)

theorem mem_holders (o : SnapshotObjectRow) (id : String) :
    id ∈ holders db o ↔ ∃ e ∈ db.entries, e.recoveryObjectId = some o.id ∧ e.snapshotId = id := by
  simp only [holders, List.mem_dedup, List.mem_map, List.mem_filter, decide_eq_true_eq, and_assoc]

theorem referenced_iff (o : SnapshotObjectRow) :
    referenced db o = true ↔ holders db o ≠ [] := by
  rw [List.ne_nil_iff_exists_cons]
  simp only [referenced, List.any_eq_true, decide_eq_true_eq]
  constructor
  · rintro ⟨e, he, ho⟩
    have hmem := (mem_holders db o e.snapshotId).mpr ⟨e, he, ho, rfl⟩
    cases hl : holders db o with
    | nil =>
        rw [hl] at hmem
        exact absurd hmem List.not_mem_nil
    | cons id ids => exact ⟨id, ids, rfl⟩
  · rintro ⟨id, ids, hl⟩
    obtain ⟨e, he, ho, -⟩ := (mem_holders db o id).mp (hl ▸ List.mem_cons_self)
    exact ⟨e, he, ho⟩

/-- What one snapshot frees has it as the only holder. -/
theorem ownedBy_eq_sole (id : String) (o : SnapshotObjectRow) :
    ownedBy db id o = sole (holders db) id o := by
  rw [Bool.eq_iff_iff]
  simp only [ownedBy, sole, Bool.and_eq_true, List.any_eq_true, decide_eq_true_eq,
    Bool.not_eq_true', List.any_eq_false, not_and]
  constructor
  · rintro ⟨⟨e, he, hid, ho⟩, hothers⟩
    have hall : ∀ x ∈ holders db o, x = id := by
      intro x hx
      obtain ⟨e', he', ho', rfl⟩ := (mem_holders db o x).mp hx
      by_contra hne
      exact hothers e' he' hne ho'
    have hmem := (mem_holders db o id).mpr ⟨e, he, ho, hid⟩
    have hnd : (holders db o).Nodup := List.nodup_dedup _
    cases hl : holders db o with
    | nil =>
        rw [hl] at hmem
        exact absurd hmem List.not_mem_nil
    | cons x xs =>
        rw [hl] at hall hnd
        have hx := hall x List.mem_cons_self
        cases xs with
        | nil => rw [hx]
        | cons y ys =>
            have hy := hall y (List.mem_cons_of_mem x List.mem_cons_self)
            rw [hx, hy] at hnd
            exact absurd List.mem_cons_self (List.nodup_cons.mp hnd).1
  · intro hl
    obtain ⟨e, he, ho, hid⟩ := (mem_holders db o id).mp (hl ▸ List.mem_cons_self)
    refine ⟨⟨e, he, hid, ho⟩, fun e' he' hne ho' => ?_⟩
    have hmem := (mem_holders db o e'.snapshotId).mpr ⟨e', he', ho', rfl⟩
    rw [hl, List.mem_singleton] at hmem
    exact hne hmem

/-- Without some snapshots, the objects they free together are named no more. -/
theorem referenced_without (ids : List String) (o : SnapshotObjectRow) :
    referenced (withoutSnapshots db ids) o =
      (referenced db o && !freed (holders db) ids o) := by
  rw [Bool.eq_iff_iff, Bool.and_eq_true, referenced_iff db, Bool.not_eq_true']
  simp only [referenced, withoutSnapshots, List.any_eq_true, List.mem_filter, Bool.not_eq_true',
    decide_eq_true_eq, freed, Bool.and_eq_false_iff, decide_eq_false_iff_not, not_not,
    List.all_eq_false, List.contains_eq_mem]
  constructor
  · rintro ⟨e, ⟨he, hid⟩, ho⟩
    have hmem := (mem_holders db o e.snapshotId).mpr ⟨e, he, ho, rfl⟩
    exact ⟨List.ne_nil_of_mem hmem, Or.inr ⟨e.snapshotId, hmem, hid⟩⟩
  · rintro ⟨hne, hor⟩
    obtain ⟨id, hmem, hid⟩ := hor.resolve_left hne
    obtain ⟨e, he, ho, rfl⟩ := (mem_holders db o id).mp hmem
    exact ⟨e, ⟨he, hid⟩, ho⟩

/-- What is retained with some snapshots is retained without them, or was theirs. -/
theorem retained_without (ids : List String) :
    retainedCiphertextBytes db = retainedCiphertextBytes (withoutSnapshots db ids) +
      (total SnapshotRow.manifestCiphertextBytes
          (fun s => decide (s.status = .ready) && ids.contains s.id) db.snapshots +
        total SnapshotObjectRow.ciphertextBytes
          (fun o => decide (o.status = .ready) && freed (holders db) ids o) db.objects +
        total IntelligenceItemRow.encryptedBytes
          (fun i => i.stored.isSome && ids.contains i.snapshotId) db.items) := by
  have hsnapshots : total SnapshotRow.manifestCiphertextBytes (fun s => s.status = .ready)
      (withoutSnapshots db ids).snapshots = total SnapshotRow.manifestCiphertextBytes
        (fun s => decide (s.status = .ready) && !ids.contains s.id) db.snapshots := by
    simp only [withoutSnapshots, total_filter, Bool.and_comm]
  have hitems : total IntelligenceItemRow.encryptedBytes (fun i => i.stored.isSome)
      (withoutSnapshots db ids).items = total IntelligenceItemRow.encryptedBytes
        (fun i => i.stored.isSome && !ids.contains i.snapshotId) db.items := by
    simp only [withoutSnapshots, total_filter, Bool.and_comm]
  -- Whose snapshot created an object makes no difference to the count.
  have hobjects : total SnapshotObjectRow.ciphertextBytes
      (fun o => o.status = .ready && referenced (withoutSnapshots db ids) o)
      (withoutSnapshots db ids).objects = total SnapshotObjectRow.ciphertextBytes
        (fun o => decide (o.status = .ready) && referenced db o && !freed (holders db) ids o)
        db.objects := by
    rw [withoutSnapshots, total_map]
    · apply total_congr
      intro o _
      rw [← withoutSnapshots, referenced_without, Bool.and_assoc]
    · intro o _
      split <;> rfl
    · intro o _
      split <;> rfl
  have hfreed : total SnapshotObjectRow.ciphertextBytes
      (fun o => decide (o.status = .ready) && referenced db o && freed (holders db) ids o)
      db.objects = total SnapshotObjectRow.ciphertextBytes
        (fun o => decide (o.status = .ready) && freed (holders db) ids o) db.objects := by
    apply total_congr
    intro o _
    cases hf : freed (holders db) ids o with
    | false => simp
    | true =>
        have hne : holders db o ≠ [] := by
          simp only [freed, Bool.and_eq_true, decide_eq_true_eq] at hf
          exact hf.1
        rw [(referenced_iff db o).mpr hne, Bool.and_true]
  unfold retainedCiphertextBytes
  rw [hsnapshots, hitems, hobjects,
    total_split SnapshotRow.manifestCiphertextBytes (fun s => decide (s.status = .ready))
      (fun s => ids.contains s.id),
    total_split SnapshotObjectRow.ciphertextBytes
      (fun o => decide (o.status = .ready) && referenced db o) (freed (holders db) ids),
    total_split IntelligenceItemRow.encryptedBytes (fun i => i.stored.isSome)
      (fun i => ids.contains i.snapshotId), hfreed]
  omega

/-- What a snapshot of the tables could free by itself. -/
def removable (db : SnapshotDb) (s : SnapshotRow) : Nat :=
  removableCiphertextBytes db s.id s.manifestCiphertextBytes

/-- The rows of a selection are the ready rows with its ids. -/
theorem sum_manifests (hids : (db.snapshots.map SnapshotRow.id).Nodup)
    (rows : List SnapshotRow) (hrows : rows.Nodup)
    (hmem : ∀ s ∈ rows, s ∈ db.snapshots ∧ s.status = .ready) :
    (rows.map SnapshotRow.manifestCiphertextBytes).sum =
      total SnapshotRow.manifestCiphertextBytes
        (fun s => decide (s.status = .ready) && (rows.map SnapshotRow.id).contains s.id)
        db.snapshots := by
  have hperm : rows.Perm (db.snapshots.filter (fun s =>
      decide (s.status = .ready) && (rows.map SnapshotRow.id).contains s.id)) := by
    apply (List.perm_ext_iff_of_nodup hrows ((List.Nodup.of_map _ hids).filter _)).mpr
    intro s
    simp only [List.mem_filter, Bool.and_eq_true, decide_eq_true_eq, List.contains_iff_mem]
    constructor
    · intro hs
      exact ⟨(hmem s hs).1, (hmem s hs).2, List.mem_map_of_mem hs⟩
    · rintro ⟨hs, -, hin⟩
      obtain ⟨t, ht, hid⟩ := List.mem_map.mp hin
      rwa [← List.inj_on_of_nodup_map hids (hmem t ht).1 hs hid]
  exact (hperm.map _).sum_eq

/-- What the snapshots of a selection could free one by one. -/
theorem sum_removable (hids : (db.snapshots.map SnapshotRow.id).Nodup)
    (rows : List SnapshotRow) (hrows : (rows.map SnapshotRow.id).Nodup)
    (hmem : ∀ s ∈ rows, s ∈ db.snapshots ∧ s.status = .ready) :
    (rows.map (removable db)).sum =
      total SnapshotRow.manifestCiphertextBytes
          (fun s => decide (s.status = .ready) && (rows.map SnapshotRow.id).contains s.id)
          db.snapshots +
        total SnapshotObjectRow.ciphertextBytes
          (single (holders db) (rows.map SnapshotRow.id)) db.objects +
        total IntelligenceItemRow.encryptedBytes
          (fun i => i.stored.isSome && (rows.map SnapshotRow.id).contains i.snapshotId)
          db.items := by
  have hsplit : (rows.map (removable db)).sum =
      (rows.map SnapshotRow.manifestCiphertextBytes).sum +
        ((rows.map SnapshotRow.id).map (fun id =>
          total SnapshotObjectRow.ciphertextBytes (sole (holders db) id) db.objects)).sum +
        ((rows.map SnapshotRow.id).map (fun id =>
          total IntelligenceItemRow.encryptedBytes
            (fun i => decide (i.snapshotId = id) && i.stored.isSome) db.items)).sum := by
    have howned : ∀ id, ownedBy db id = sole (holders db) id :=
      fun id => funext (ownedBy_eq_sole db id)
    clear hrows hmem
    induction rows with
    | nil => rfl
    | cons s rows ih =>
        simp only [List.map_cons, List.sum_cons, ih, removable, removableCiphertextBytes, howned]
        omega
  have hitems := total_any IntelligenceItemRow.encryptedBytes
    (fun (id : String) (i : IntelligenceItemRow) =>
      decide (i.snapshotId = id) && i.stored.isSome) (rows.map SnapshotRow.id) db.items
    (hrows.imp (fun {id id'} hne i _ hi => by
      simp only [Bool.and_eq_true, decide_eq_true_eq] at hi
      simp [hi.1, hne]))
  have hany : total IntelligenceItemRow.encryptedBytes
      (fun i => (rows.map SnapshotRow.id).any (fun id =>
        decide (i.snapshotId = id) && i.stored.isSome)) db.items =
      total IntelligenceItemRow.encryptedBytes
        (fun i => i.stored.isSome && (rows.map SnapshotRow.id).contains i.snapshotId)
        db.items := by
    apply total_congr
    intro i _
    rw [Bool.eq_iff_iff]
    simp only [List.any_eq_true, Bool.and_eq_true, decide_eq_true_eq, List.contains_iff_mem]
    constructor
    · rintro ⟨id, hid, rfl, hstored⟩
      exact ⟨hstored, hid⟩
    · rintro ⟨hstored, hid⟩
      exact ⟨i.snapshotId, hid, rfl, hstored⟩
  rw [hsplit, sum_sole SnapshotObjectRow.ciphertextBytes _ _ _ hrows, hitems, hany,
    sum_manifests db hids rows (List.Nodup.of_map _ hrows) hmem]

/-- The objects that several of a selection share have as many bytes as the missing ones
    that one of it holds. -/
def Balanced (db : SnapshotDb) (ids : List String) : Prop :=
  total SnapshotObjectRow.ciphertextBytes
      (fun o => decide (o.status = .ready) && shared (holders db) ids o) db.objects =
    total SnapshotObjectRow.ciphertextBytes
      (fun o => decide (o.status ≠ .ready) && single (holders db) ids o) db.objects

/-- What a selection frees together, and what its snapshots free one by one. -/
theorem retained_together (hids : (db.snapshots.map SnapshotRow.id).Nodup)
    (rows : List SnapshotRow) (hrows : (rows.map SnapshotRow.id).Nodup)
    (hmem : ∀ s ∈ rows, s ∈ db.snapshots ∧ s.status = .ready) :
    retainedCiphertextBytes db +
        total SnapshotObjectRow.ciphertextBytes (fun o => decide (o.status ≠ .ready) &&
          single (holders db) (rows.map SnapshotRow.id) o) db.objects =
      retainedCiphertextBytes (withoutSnapshots db (rows.map SnapshotRow.id)) +
        (rows.map (removable db)).sum +
        total SnapshotObjectRow.ciphertextBytes (fun o => decide (o.status = .ready) &&
          shared (holders db) (rows.map SnapshotRow.id) o) db.objects := by
  have htogether := freed_total SnapshotObjectRow.ciphertextBytes (holders db)
    (rows.map SnapshotRow.id) (db.objects.filter (fun o => o.status = .ready))
  rw [total_filter, total_filter, total_filter] at htogether
  -- The objects with a single holder are there, or they are missing.
  have hsingle := total_split SnapshotObjectRow.ciphertextBytes
    (single (holders db) (rows.map SnapshotRow.id)) (fun o => decide (o.status = .ready)) db.objects
  simp only [Bool.and_comm (single (holders db) (rows.map SnapshotRow.id) _),
    ← decide_not] at hsingle
  rw [retained_without db (rows.map SnapshotRow.id), sum_removable db hids rows hrows hmem,
    htogether, hsingle]
  simp only [ne_eq]
  omega

end

/-! ## The order of the selection -/

/-- The snapshots that are not protected, the oldest first. -/
def unprotected (db : SnapshotDb) : List SnapshotRow :=
  (readySnapshots db).reverse.filter (fun s => !(protectedIds db).contains s.id)

def isOlder (s t : SnapshotRow) : Bool :=
  s.captureStartedAt < t.captureStartedAt ||
    s.captureStartedAt = t.captureStartedAt && s.id < t.id

section

variable (db : SnapshotDb)

theorem mem_readySnapshots (s : SnapshotRow) :
    s ∈ readySnapshots db ↔ s ∈ db.snapshots ∧ s.status = .ready := by
  rw [readySnapshots, List.mem_insertionSort, List.mem_filter, decide_eq_true_eq]

theorem readySnapshots_nodup (hids : (db.snapshots.map SnapshotRow.id).Nodup) :
    ((readySnapshots db).map SnapshotRow.id).Nodup := by
  rw [readySnapshots, ((List.perm_insertionSort _ _).map _).nodup_iff]
  exact hids.sublist ((List.filter_sublist).map _)

theorem mem_unprotected (s : SnapshotRow) :
    s ∈ unprotected db ↔ s ∈ readySnapshots db ∧ s.id ∉ protectedIds db := by
  rw [unprotected, List.mem_filter, List.mem_reverse, Bool.not_eq_true', ← Bool.not_eq_true,
    List.contains_iff_mem]

theorem unprotected_nodup (hids : (db.snapshots.map SnapshotRow.id).Nodup) :
    ((unprotected db).map SnapshotRow.id).Nodup := by
  refine List.Nodup.sublist ((List.filter_sublist).map _) ?_
  rw [List.map_reverse, List.nodup_reverse]
  exact readySnapshots_nodup db hids

/-- The snapshots that are ready stand newest first. -/
theorem readySnapshots_pairwise (hids : (db.snapshots.map SnapshotRow.id).Nodup) :
    (readySnapshots db).Pairwise (fun s t => isOlder t s = true) := by
  have htotal : Std.Total (fun s t : SnapshotRow =>
      Table.Ranks t.captureStartedAt t.id s.captureStartedAt s.id) := by
    refine ⟨fun s t => ?_⟩
    rcases lt_trichotomy s.captureStartedAt t.captureStartedAt with h | h | h
    · exact Or.inr (Or.inl h)
    · exact (String.le_total t.id s.id).imp (fun hid => Or.inr ⟨h.symm, hid⟩)
        (fun hid => Or.inr ⟨h, hid⟩)
    · exact Or.inl (Or.inl h)
  have htrans : IsTrans SnapshotRow (fun s t =>
      Table.Ranks t.captureStartedAt t.id s.captureStartedAt s.id) := by
    refine ⟨fun s t u hst htu => ?_⟩
    rcases hst with hst | ⟨hst, hid⟩
    · rcases htu with htu | ⟨htu, -⟩
      · exact Or.inl (htu.trans hst)
      · exact Or.inl (htu ▸ hst)
    · rcases htu with htu | ⟨htu, hid'⟩
      · exact Or.inl (hst ▸ htu)
      · exact Or.inr ⟨htu.trans hst, String.le_trans hid' hid⟩
  have hsorted := List.pairwise_insertionSort (fun s t : SnapshotRow =>
    Table.Ranks t.captureStartedAt t.id s.captureStartedAt s.id)
    (db.snapshots.filter (fun s => s.status = .ready))
  have hnd := List.pairwise_map.mp (readySnapshots_nodup db hids)
  refine (List.Pairwise.and hsorted hnd).imp (fun {s t} h => ?_)
  simp only [isOlder, Bool.or_eq_true, Bool.and_eq_true, decide_eq_true_eq]
  rcases h.1 with hlt | ⟨heq, hle⟩
  · exact Or.inl hlt
  · refine Or.inr ⟨heq, ?_⟩
    by_contra hlt
    exact h.2 (String.le_antisymm (String.not_lt.mp hlt) hle)

/-- The unprotected snapshots before one of them are those that are older. -/
theorem unprotected_before (hids : (db.snapshots.map SnapshotRow.id).Nodup)
    (k : Nat) (hk : k < (unprotected db).length) :
    (unprotected db).filter (fun t => isOlder t (unprotected db)[k]) =
      (unprotected db).take k := by
  have hsorted : (unprotected db).Pairwise (fun s t => isOlder s t = true) :=
    (List.pairwise_reverse.mpr (readySnapshots_pairwise db hids)).filter _
  have hasymm : ∀ s t : SnapshotRow, isOlder s t = true → isOlder t s = false := by
    intro s t h
    rw [← Bool.not_eq_true]
    intro h'
    simp only [isOlder, Bool.or_eq_true, Bool.and_eq_true, decide_eq_true_eq] at h h'
    rcases h with h | ⟨h, hid⟩
    · rcases h' with h' | ⟨h', -⟩ <;> omega
    · rcases h' with h' | ⟨-, hid'⟩
      · omega
      · exact String.lt_irrefl s.id (String.lt_trans hid hid')
  have hirrefl : ∀ s : SnapshotRow, isOlder s s = false := by
    intro s
    simp [isOlder]
  generalize hs : (unprotected db)[k] = s
  have hsplit : unprotected db = (unprotected db).take k ++ s :: (unprotected db).drop (k + 1) := by
    rw [← hs, List.getElem_cons_drop, List.take_append_drop]
  generalize (unprotected db).take k = before at hsplit ⊢
  generalize (unprotected db).drop (k + 1) = after at hsplit
  rw [hsplit] at hsorted ⊢
  rcases List.pairwise_append.mp hsorted with ⟨-, hafter, hbefore⟩
  rw [List.filter_append, List.filter_cons_of_neg (by rw [hirrefl]; decide),
    List.filter_eq_self.mpr (fun t ht => hbefore t ht s List.mem_cons_self),
    List.filter_eq_nil_iff.mpr, List.append_nil]
  intro t ht
  rw [hasymm s t ((List.pairwise_cons.mp hafter).1 t ht)]
  decide

end

/-! ## The selections of a run -/

/-- The selection of the first unprotected snapshots. -/
def chosen (db : SnapshotDb) (k : Nat) : Selection :=
  { selected := (unprotected db).take k
    projectedBytes := (retainedCiphertextBytes db : Int) -
      (((unprotected db).take k).map (removable db)).sum }

/-- How many unprotected snapshots are among some rows. -/
def unprotectedAmong (db : SnapshotDb) (rows : List SnapshotRow) : Nat :=
  (rows.filter (fun s => !(protectedIds db).contains s.id)).length

section

variable (db : SnapshotDb) (keepReadyCount : Nat)

/-- The unprotected snapshots among the first rows are the first unprotected ones. -/
theorem filter_eq_take (seen rest : List SnapshotRow)
    (h : (readySnapshots db).reverse = seen ++ rest) :
    seen.filter (fun s => !(protectedIds db).contains s.id) =
      (unprotected db).take (unprotectedAmong db seen) := by
  rw [unprotected, h, List.filter_append, unprotectedAmong, List.take_left']
  rfl

theorem foldl_push (rows : List SnapshotRow) (selection : Selection) :
    rows.foldl (Selection.push db) selection =
      { selected := selection.selected ++ rows
        projectedBytes := selection.projectedBytes - (rows.map (removable db)).sum } := by
  induction rows generalizing selection with
  | nil => simp
  | cons s rows ih =>
      rw [List.foldl_cons, ih]
      simp only [Selection.push, List.append_assoc, List.singleton_append, List.map_cons,
        List.sum_cons, removable, Int.natCast_add, Selection.mk.injEq, true_and]
      omega

theorem chosen_push (k : Nat) (hk : k < (unprotected db).length) :
    (chosen db k).push db (unprotected db)[k] = chosen db (k + 1) := by
  have htake : (unprotected db).take (k + 1) = (unprotected db).take k ++ [(unprotected db)[k]] :=
    (List.take_concat_get' (unprotected db) k hk).symm
  unfold chosen Selection.push
  rw [htake]
  simp only [List.map_append, List.map_singleton, List.sum_append, List.sum_singleton, removable,
    Int.natCast_add, Selection.mk.injEq, true_and]
  omega

/-- The snapshots beyond those to be kept come first. -/
theorem beyondKept_eq_take :
    beyondKept db keepReadyCount =
      (unprotected db).take (beyondKept db keepReadyCount).length := by
  apply filter_eq_take db _ ((readySnapshots db).take keepReadyCount).reverse
  rw [← List.reverse_append, List.take_append_drop]

theorem beyondKept_le :
    (beyondKept db keepReadyCount).length ≤ (unprotected db).length := by
  have h := congrArg List.length (beyondKept_eq_take db keepReadyCount)
  rw [List.length_take] at h
  omega

theorem firstSelection_eq :
    firstSelection db keepReadyCount = chosen db (beyondKept db keepReadyCount).length := by
  rw [firstSelection, foldl_push, chosen, ← beyondKept_eq_take, List.nil_append]

/-- The loop looks at a row: it is the next unprotected snapshot, or nothing changes. -/
theorem selectOldest_cons (hids : (db.snapshots.map SnapshotRow.id).Nodup)
    (limit b : Nat) (seen rest rows : List SnapshotRow) (s : SnapshotRow)
    (h : (readySnapshots db).reverse = seen ++ s :: rest)
    (hover : overLimit db limit (chosen db (max b (unprotectedAmong db seen))) = true) :
    selectOldest db limit (s :: rows) (chosen db (max b (unprotectedAmong db seen))) =
      selectOldest db limit rows (chosen db (max b (unprotectedAmong db (seen ++ [s])))) := by
  rw [selectOldest, if_pos hover]
  have hnext : (readySnapshots db).reverse = (seen ++ [s]) ++ rest := by
    rw [h, List.append_assoc, List.singleton_append]
  have hseen := filter_eq_take db seen (s :: rest) h
  have hafter := filter_eq_take db (seen ++ [s]) rest hnext
  generalize hc : unprotectedAmong db seen = c at *
  cases hprotected : (protectedIds db).contains s.id with
  | true =>
      have hsame : unprotectedAmong db (seen ++ [s]) = c := by
        rw [← hc, unprotectedAmong, unprotectedAmong, List.filter_append,
          List.filter_cons_of_neg (by simp only [hprotected]; decide), List.filter_nil,
          List.append_nil]
      rw [hsame, if_pos (by simp)]
  | false =>
      have hmore : unprotectedAmong db (seen ++ [s]) = c + 1 := by
        rw [← hc, unprotectedAmong, unprotectedAmong, List.filter_append,
          List.filter_cons_of_pos (by simp only [hprotected]; decide), List.filter_nil,
          List.length_append, List.length_singleton]
      rw [hmore, List.filter_append, List.filter_cons_of_pos (by simp only [hprotected]; decide),
        List.filter_nil, hseen] at hafter
      have hlen : c < (unprotected db).length := by
        have hl := congrArg List.length hafter
        simp only [List.length_append, List.length_take, List.length_singleton] at hl
        omega
      have hs : (unprotected db)[c] = s := by
        rw [← List.take_concat_get' (unprotected db) c hlen] at hafter
        exact (List.singleton_inj.mp (List.append_cancel_left hafter)).symm
      rw [hmore, Bool.false_or]
      -- The row has been selected as one beyond those to be kept, or it comes now.
      by_cases hb : c < b
      · have hin : s ∈ (unprotected db).take (max b c) := by
          rw [← hs, List.mem_take_iff_getElem]
          exact ⟨c, by omega, rfl⟩
        rw [if_pos, max_eq_left (by omega), max_eq_left (by omega)]
        exact List.any_eq_true.mpr ⟨s, hin, by simp⟩
      · rw [max_eq_right (by omega), max_eq_right (by omega), if_neg, ← hs, chosen_push]
        intro hany
        obtain ⟨t, ht, hid⟩ := List.any_eq_true.mp hany
        obtain ⟨i, hi, heq⟩ := List.mem_take_iff_getElem.mp ht
        have hnd := unprotected_nodup db hids
        have hinj := List.nodup_iff_injective_getElem.mp hnd
        have hsame := @hinj ⟨i, by rw [List.length_map]; omega⟩
          ⟨c, by rw [List.length_map]; omega⟩ (by simpa [heq, hs] using hid)
        simp only [Fin.mk.injEq] at hsame
        omega

/-- The loop over some rows takes the next unprotected snapshots as long as the limit is
    passed, and no longer. -/
theorem selectOldest_cases (hids : (db.snapshots.map SnapshotRow.id).Nodup)
    (limit b : Nat) (rows seen rest : List SnapshotRow)
    (h : (readySnapshots db).reverse = seen ++ rows ++ rest) :
    ∃ m, max b (unprotectedAmong db seen) ≤ m ∧
      m ≤ max b (unprotectedAmong db (seen ++ rows)) ∧
      selectOldest db limit rows (chosen db (max b (unprotectedAmong db seen))) = chosen db m ∧
      (∀ i, max b (unprotectedAmong db seen) ≤ i → i < m →
        overLimit db limit (chosen db i) = true) ∧
      (m < max b (unprotectedAmong db (seen ++ rows)) →
        overLimit db limit (chosen db m) = false) := by
  induction rows generalizing seen with
  | nil =>
      rw [List.append_nil]
      exact ⟨_, le_refl _, le_refl _, rfl, fun i h₁ h₂ => absurd h₁ (by omega),
        fun hlt => absurd hlt (lt_irrefl _)⟩
  | cons s rows ih =>
      have hnext : (readySnapshots db).reverse = (seen ++ [s]) ++ rows ++ rest := by
        rw [h]
        simp
      have hstep : (readySnapshots db).reverse = seen ++ s :: (rows ++ rest) := by
        rw [h]
        simp
      have hall : seen ++ s :: rows = (seen ++ [s]) ++ rows := by simp
      have hmono : unprotectedAmong db seen ≤ unprotectedAmong db (seen ++ [s]) ∧
          unprotectedAmong db (seen ++ [s]) ≤ unprotectedAmong db seen + 1 := by
        simp only [unprotectedAmong, List.filter_append, List.length_append]
        have := List.length_filter_le (fun s => !(protectedIds db).contains s.id) [s]
        rw [List.length_singleton] at this
        omega
      have hgrow : unprotectedAmong db (seen ++ [s]) ≤
          unprotectedAmong db ((seen ++ [s]) ++ rows) := by
        simp only [unprotectedAmong, List.filter_append, List.length_append]
        omega
      by_cases hover : overLimit db limit (chosen db (max b (unprotectedAmong db seen))) = true
      · obtain ⟨m, hlow, hhigh, heq, hbetween, hend⟩ := ih (seen ++ [s]) hnext
        rw [hall]
        refine ⟨m, by omega, hhigh, ?_, fun i h₁ h₂ => ?_, hend⟩
        · rw [selectOldest_cons db hids limit b seen (rows ++ rest) rows s hstep hover, heq]
        · rcases Nat.eq_or_lt_of_le h₁ with rfl | hlt
          · exact hover
          · exact hbetween i (by omega) h₂
      · rw [selectOldest, if_neg hover, hall]
        exact ⟨_, le_refl _, by omega, rfl, fun i h₁ h₂ => absurd h₁ (by omega),
          fun _ => Bool.not_eq_true _ ▸ hover⟩

/-- Any number of the elements that meet a condition is met among the first ones. -/
theorem exists_take_filter {α : Type*} (p : α → Bool) (l : List α) (m : Nat)
    (hm : m ≤ (l.filter p).length) : ∃ j, ((l.take j).filter p).length = m := by
  induction l generalizing m with
  | nil => exact ⟨0, (Nat.le_zero.mp hm).symm⟩
  | cons a l ih =>
      cases m with
      | zero => exact ⟨0, rfl⟩
      | succ m =>
          by_cases ha : p a = true
          · rw [List.filter_cons_of_pos ha, List.length_cons] at hm
            obtain ⟨j, hj⟩ := ih m (by omega)
            exact ⟨j + 1, by rw [List.take_succ_cons, List.filter_cons_of_pos ha,
              List.length_cons, hj]⟩
          · rw [List.filter_cons_of_neg ha] at hm
            obtain ⟨j, hj⟩ := ih (m + 1) hm
            exact ⟨j + 1, by rw [List.take_succ_cons, List.filter_cons_of_neg ha, hj]⟩

/-- The selections of a run: the first unprotected snapshots, as many as the limit was found
    passed for. -/
theorem selection_cases (hids : (db.snapshots.map SnapshotRow.id).Nodup)
    (policy : RetentionPolicy) (j : Nat) :
    ∃ m, (beyondKept db policy.keepReadyCount).length ≤ m ∧ m ≤ (unprotected db).length ∧
      selection db policy ((readySnapshots db).reverse.take j) = chosen db m ∧
      ∀ i, (beyondKept db policy.keepReadyCount).length ≤ i → i < m →
        ∃ limit, policy.maxRetainedCiphertextBytes = some limit ∧
          overLimit db limit (chosen db i) = true := by
  have hle := beyondKept_le db policy.keepReadyCount
  have hfirst := firstSelection_eq db policy.keepReadyCount
  generalize (beyondKept db policy.keepReadyCount).length = b at hle hfirst
  cases hlimit : policy.maxRetainedCiphertextBytes with
  | none =>
      refine ⟨b, le_refl b, hle, ?_, fun i h₁ h₂ => absurd h₁ (by omega)⟩
      simp only [selection, hlimit, hfirst]
  | some limit =>
      by_cases hover : (limit : Int) < (chosen db b).projectedBytes
      · obtain ⟨m, hlow, hhigh, heq, hbetween, -⟩ := selectOldest_cases db hids limit b
          ((readySnapshots db).reverse.take j) [] ((readySnapshots db).reverse.drop j)
          (by rw [List.nil_append, List.take_append_drop])
        have hzero : max b (unprotectedAmong db []) = b := max_eq_left (Nat.zero_le b)
        rw [hzero] at hlow heq hbetween
        have hamong : unprotectedAmong db ([] ++ (readySnapshots db).reverse.take j) ≤
            (unprotected db).length := by
          rw [List.nil_append]
          exact ((List.take_sublist j _).filter _).length_le
        refine ⟨m, hlow, by omega, ?_, fun i h₁ h₂ => ⟨limit, rfl, hbetween i h₁ h₂⟩⟩
        simp only [selection, hlimit, hfirst, if_pos hover, heq]
      · refine ⟨b, le_refl b, hle, ?_, fun i h₁ h₂ => absurd h₁ (by omega)⟩
        simp only [selection, hlimit, hfirst, if_neg hover]

/-- As long as the limit is found passed, a run goes on. -/
theorem selection_reaches (hids : (db.snapshots.map SnapshotRow.id).Nodup)
    (policy : RetentionPolicy) (m : Nat)
    (hlow : (beyondKept db policy.keepReadyCount).length ≤ m)
    (hhigh : m ≤ (unprotected db).length)
    (hover : ∀ i, (beyondKept db policy.keepReadyCount).length ≤ i → i < m →
      ∃ limit, policy.maxRetainedCiphertextBytes = some limit ∧
        overLimit db limit (chosen db i) = true) :
    ∃ j, selection db policy ((readySnapshots db).reverse.take j) = chosen db m := by
  have hfirst := firstSelection_eq db policy.keepReadyCount
  generalize (beyondKept db policy.keepReadyCount).length = b at hlow hover hfirst
  obtain ⟨j, hj⟩ := exists_take_filter
    (fun s : SnapshotRow => !(protectedIds db).contains s.id) (readySnapshots db).reverse m hhigh
  by_cases hb : b = m
  · refine ⟨0, ?_⟩
    rw [List.take_zero, ← hb]
    cases hlimit : policy.maxRetainedCiphertextBytes with
    | none => simp only [selection, hlimit, hfirst]
    | some limit => simp only [selection, hlimit, hfirst, selectOldest, ite_self]
  · refine ⟨j, ?_⟩
    obtain ⟨limit, hlimit, hpassed⟩ := hover b (le_refl b) (by omega)
    have hall : ∀ i, b ≤ i → i < m → overLimit db limit (chosen db i) = true := by
      intro i h₁ h₂
      obtain ⟨limit', hlimit', h⟩ := hover i h₁ h₂
      rw [hlimit, Option.some.injEq] at hlimit'
      rwa [hlimit']
    have hamong : unprotectedAmong db ([] ++ (readySnapshots db).reverse.take j) = m := hj
    have hzero : max b (unprotectedAmong db []) = b := max_eq_left (Nat.zero_le b)
    obtain ⟨k, hk, hk', heq, -, hend⟩ := selectOldest_cases db hids limit b
      ((readySnapshots db).reverse.take j) [] ((readySnapshots db).reverse.drop j)
      (by rw [List.nil_append, List.take_append_drop])
    rw [hzero] at hk heq
    rw [hamong, max_eq_right hlow] at hk' hend
    have hkm : k = m := by
      by_contra hne
      have hstop := hend (by omega)
      rw [hall k hk (by omega)] at hstop
      exact absurd hstop (by decide)
    have hpassed' : (limit : Int) < (chosen db b).projectedBytes := by
      simp only [overLimit, Bool.not_eq_true', Bool.or_eq_false_iff, decide_eq_false_iff_not,
        not_le] at hpassed
      exact hpassed.1
    simp only [selection, hlimit, hfirst, if_pos hpassed', heq, hkm]

end

/-! ## The deletions of a run -/

/-- A deletion takes nothing but the snapshot. -/
theorem kept_of_deletion (db : SnapshotDb) (id : String) (now : Nat) (s : SnapshotRow)
    (hs : s ∈ db.snapshots) (hne : s.id ≠ id) :
    s ∈ (queueSnapshotDeletion db id now).2.snapshots := by
  unfold queueSnapshotDeletion
  split
  · exact hs
  · dsimp only
    split
    · exact List.mem_filter.mpr ⟨hs, by simpa using hne⟩
    · exact hs

/-- What a run deletes it has selected. -/
theorem selected_of_deleted (db : SnapshotDb) (policy : RetentionPolicy) (now : Nat)
    (s : SnapshotRow) (hs : s ∈ db.snapshots)
    (hgone : s ∉ (enforceSnapshotRetention db policy now).2.snapshots) :
    policy.enabled = true ∧
      ∃ t ∈ (selection db policy (readySnapshots db).reverse).selected, t.id = s.id := by
  unfold enforceSnapshotRetention at hgone
  cases henabled : policy.enabled with
  | false =>
      rw [henabled, if_neg (by decide)] at hgone
      exact absurd hs hgone
  | true =>
      rw [henabled, if_pos rfl] at hgone
      refine ⟨rfl, ?_⟩
      by_contra hnone
      have hother : ∀ t ∈ (selection db policy (readySnapshots db).reverse).selected.take
          retentionDeleteBatchSize, t.id ≠ s.id :=
        fun t ht hid => hnone ⟨t, List.mem_of_mem_take ht, hid⟩
      refine hgone (?_ : _ ∈ _)
      generalize (selection db policy (readySnapshots db).reverse).selected.take
        retentionDeleteBatchSize = rows at hother
      clear hgone hnone
      generalize hn : (0 : Nat) = n
      clear hn
      induction rows generalizing n db with
      | nil => exact hs
      | cons t rows ih =>
          rw [List.foldl_cons]
          have hkept := kept_of_deletion db t.id now s hs (hother t List.mem_cons_self).symm
          unfold deleteSelected
          generalize queueSnapshotDeletion db t.id now = r at hkept
          obtain ⟨done, db'⟩ := r
          cases done <;>
            exact ih db' hkept (fun u hu => hother u (List.mem_cons_of_mem t hu)) _

/-! ## Runs -/

/-- The ids of the first unprotected snapshots. -/
def oldestIds (db : SnapshotDb) (k : Nat) : List String :=
  ((unprotected db).take k).map SnapshotRow.id

/-- What is expected of a run: it deletes no protected snapshot, and one of those to be kept
    only where more is retained than the limit without all older ones; what it expects to be
    left is what is retained without its selection, at each snapshot it looks at. -/
structure RetentionSound (db : SnapshotDb) (policy : RetentionPolicy) (now : Nat) : Prop where
  protects : ∀ s ∈ db.snapshots, s ∉ (enforceSnapshotRetention db policy now).2.snapshots →
    s.pinned = false ∧ latestKnownGood db ≠ some s
  limited : ∀ s ∈ db.snapshots, s ∉ (enforceSnapshotRetention db policy now).2.snapshots →
    s ∈ (readySnapshots db).take policy.keepReadyCount →
      ∃ limit, policy.maxRetainedCiphertextBytes = some limit ∧
        limit < retainedCiphertextBytes (withoutSnapshots db
          (((unprotected db).filter (fun t => isOlder t s)).map SnapshotRow.id))
  projects : policy.enabled = true → ∀ j,
    let sel := selection db policy ((readySnapshots db).reverse.take j)
    sel.projectedBytes = retainedCiphertextBytes (withoutSnapshots db
      (sel.selected.map SnapshotRow.id))

/-- The first unprotected snapshots are to go: those beyond the number to be kept, and
    further ones as long as more is retained than the limit and more than two are left. -/
def DueSelection (db : SnapshotDb) (policy : RetentionPolicy) (k : Nat) : Prop :=
  (beyondKept db policy.keepReadyCount).length ≤ k ∧ k ≤ (unprotected db).length ∧
    ∀ j, (beyondKept db policy.keepReadyCount).length ≤ j → j < k →
      ∃ limit, policy.maxRetainedCiphertextBytes = some limit ∧
        limit < retainedCiphertextBytes (withoutSnapshots db (oldestIds db j)) ∧
        j + 2 < (readySnapshots db).length

section

variable (db : SnapshotDb)

/-- What a run expects to be left is right where the shared bytes make up for the missing
    ones. -/
theorem projected_iff (hids : (db.snapshots.map SnapshotRow.id).Nodup)
    (k : Nat) : (chosen db k).projectedBytes =
      retainedCiphertextBytes (withoutSnapshots db (oldestIds db k)) ↔
        Balanced db (oldestIds db k) := by
  have htogether := retained_together db hids ((unprotected db).take k)
    ((unprotected_nodup db hids).sublist ((List.take_sublist k _).map _))
    (fun s hs => (mem_readySnapshots db s).mp
      ((mem_unprotected db s).mp (List.mem_of_mem_take hs)).1)
  unfold Balanced chosen oldestIds
  dsimp only
  omega

theorem overLimit_iff (limit k : Nat) (hk : k ≤ (unprotected db).length) :
    overLimit db limit (chosen db k) = true ↔
      (limit : Int) < (chosen db k).projectedBytes ∧ k + 2 < (readySnapshots db).length := by
  have hlen : (chosen db k).selected.length = k := by
    rw [chosen, List.length_take]
    omega
  simp only [overLimit, hlen, Bool.not_eq_true', Bool.or_eq_false_iff, decide_eq_false_iff_not,
    not_le]
  omega

/-- Where the selections that are due are balanced, the selections of a run are due. -/
theorem due_of_over (hids : (db.snapshots.map SnapshotRow.id).Nodup)
    (policy : RetentionPolicy)
    (h : ∀ k, DueSelection db policy k → Balanced db (oldestIds db k)) (m : Nat)
    (hm : m ≤ (unprotected db).length)
    (hover : ∀ i, (beyondKept db policy.keepReadyCount).length ≤ i → i < m →
      ∃ limit, policy.maxRetainedCiphertextBytes = some limit ∧
        overLimit db limit (chosen db i) = true) (k : Nat)
    (hlow : (beyondKept db policy.keepReadyCount).length ≤ k) (hk : k ≤ m) :
    DueSelection db policy k := by
  induction k using Nat.strong_induction_on with
  | _ k ih =>
      refine ⟨hlow, by omega, fun j hj hjk => ?_⟩
      obtain ⟨limit, hlimit, hpassed⟩ := hover j hj (by omega)
      have hright := (projected_iff db hids j).mpr (h j (ih j hjk hj (by omega)))
      have hboth := (overLimit_iff db limit j (by omega)).mp hpassed
      exact ⟨limit, hlimit, by omega, hboth.2⟩

/-- Where a run is right at each snapshot it looks at, it gets to each selection that is
    due. -/
theorem projected_of_due (hids : (db.snapshots.map SnapshotRow.id).Nodup)
    (policy : RetentionPolicy)
    (h : ∀ j, (selection db policy ((readySnapshots db).reverse.take j)).projectedBytes =
      retainedCiphertextBytes (withoutSnapshots db
        ((selection db policy ((readySnapshots db).reverse.take j)).selected.map SnapshotRow.id)))
    (k : Nat) (hdue : DueSelection db policy k) : (chosen db k).projectedBytes =
      retainedCiphertextBytes (withoutSnapshots db (oldestIds db k)) := by
  induction k using Nat.strong_induction_on with
  | _ k ih =>
      rcases hdue with ⟨hlow, hhigh, hpassed⟩
      obtain ⟨j, hj⟩ := selection_reaches db hids policy k hlow hhigh (fun i hi hik => by
        obtain ⟨limit, hlimit, hover, hleft⟩ := hpassed i hi hik
        have hright := ih i hik ⟨hi, by omega, fun j hj hji => hpassed j hj (by omega)⟩
        exact ⟨limit, hlimit, (overLimit_iff db limit i (by omega)).mpr ⟨by omega, hleft⟩⟩)
      have hprojected := h j
      rw [hj] at hprojected
      exact hprojected

/-- What a run deletes is one of the unprotected snapshots it has selected. -/
theorem deleted_unprotected (hids : (db.snapshots.map SnapshotRow.id).Nodup)
    (policy : RetentionPolicy) (now : Nat) (s : SnapshotRow) (hs : s ∈ db.snapshots)
    (hgone : s ∉ (enforceSnapshotRetention db policy now).2.snapshots) :
    ∃ m, ∃ k, k < m ∧ m ≤ (unprotected db).length ∧ (unprotected db)[k]? = some s ∧
      ∀ i, (beyondKept db policy.keepReadyCount).length ≤ i → i < m →
        ∃ limit, policy.maxRetainedCiphertextBytes = some limit ∧
          overLimit db limit (chosen db i) = true := by
  obtain ⟨-, t, ht, hid⟩ := selected_of_deleted db policy now s hs hgone
  obtain ⟨m, -, hm, heq, hover⟩ := selection_cases db hids policy (readySnapshots db).length
  rw [List.take_of_length_le (by rw [List.length_reverse])] at heq
  rw [heq] at ht
  have hin : t ∈ db.snapshots := ((mem_readySnapshots db t).mp
    ((mem_unprotected db t).mp (List.mem_of_mem_take ht)).1).1
  obtain rfl := List.inj_on_of_nodup_map hids hin hs hid
  obtain ⟨k, hk, hget⟩ := List.mem_take_iff_getElem.mp ht
  refine ⟨m, k, by omega, hm, ?_, hover⟩
  rw [List.getElem?_eq_getElem (by omega), hget]

theorem unprotected_spares (s : SnapshotRow) (hs : s ∈ unprotected db) :
    s.pinned = false ∧ latestKnownGood db ≠ some s := by
  rcases (mem_unprotected db s).mp hs with ⟨hready, hid⟩
  rw [protectedIds, List.mem_append, not_or] at hid
  constructor
  · rw [← Bool.not_eq_true]
    intro hpinned
    exact hid.1 (List.mem_map_of_mem (List.mem_filter.mpr ⟨hready, hpinned⟩))
  · intro hgood
    exact hid.2 (by rw [hgood]; exact List.mem_singleton_self s.id)

/-- One of the snapshots to be kept is not among those beyond them. -/
theorem beyond_le_of_kept (hids : (db.snapshots.map SnapshotRow.id).Nodup)
    (keepReadyCount k : Nat) (s : SnapshotRow) (hget : (unprotected db)[k]? = some s)
    (hkept : s ∈ (readySnapshots db).take keepReadyCount) :
    (beyondKept db keepReadyCount).length ≤ k := by
  by_contra hlt
  have hbeyond : s ∈ beyondKept db keepReadyCount := by
    rw [beyondKept_eq_take, List.mem_take_iff_getElem]
    obtain ⟨hk, heq⟩ := List.getElem?_eq_some_iff.mp hget
    exact ⟨k, by omega, heq⟩
  rw [beyondKept, List.mem_filter, List.mem_reverse] at hbeyond
  have hnd := List.Nodup.of_map _ (readySnapshots_nodup db hids)
  rw [← List.take_append_drop keepReadyCount (readySnapshots db)] at hnd
  exact (List.disjoint_of_nodup_append hnd) hkept hbeyond.1

end

/-- A run is sound exactly where it is disabled or the selections that are due are balanced. -/
theorem retention_sound_iff (db : SnapshotDb) (policy : RetentionPolicy) (now : Nat)
    (hids : (db.snapshots.map SnapshotRow.id).Nodup) :
    RetentionSound db policy now ↔
      (policy.enabled = true → ∀ k, DueSelection db policy k → Balanced db (oldestIds db k)) := by
  constructor
  · intro h henabled k hdue
    exact (projected_iff db hids k).mp
      (projected_of_due db hids policy (h.projects henabled) k hdue)
  · intro h
    refine ⟨fun s hs hgone => ?_, fun s hs hgone hkept => ?_, fun henabled j => ?_⟩
    · obtain ⟨-, k, -, -, hget, -⟩ := deleted_unprotected db hids policy now s hs hgone
      exact unprotected_spares db s (List.mem_of_getElem? hget)
    · have henabled := (selected_of_deleted db policy now s hs hgone).1
      obtain ⟨m, k, hkm, hm, hget, hover⟩ := deleted_unprotected db hids policy now s hs hgone
      have hlow := beyond_le_of_kept db hids policy.keepReadyCount k s hget hkept
      obtain ⟨limit, hlimit, hpassed⟩ := hover k hlow hkm
      -- The snapshots selected before it are the older ones, and what is left of them is known.
      have hright := (projected_iff db hids k).mpr
        (h henabled k (due_of_over db hids policy (h henabled) m hm hover k hlow (by omega)))
      have hboth := (overLimit_iff db limit k (by omega)).mp hpassed
      obtain ⟨hk, rfl⟩ := List.getElem?_eq_some_iff.mp hget
      rw [unprotected_before db hids k hk]
      exact ⟨limit, hlimit, by rw [oldestIds] at hright; omega⟩
    · obtain ⟨m, hlow, hm, heq, hover⟩ := selection_cases db hids policy j
      dsimp only
      rw [heq]
      exact (projected_iff db hids m).mpr
        (h henabled m (due_of_over db hids policy (h henabled) m hm hover m hlow (le_refl m)))

/-! ## Snapshots with the same files -/

section Example

private def taken (id : String) (captured : Nat) : SnapshotRow :=
  { id := id, status := .ready, integrityStatus := .verified, recipientFingerprint := "r"
    captureStartedAt := captured, captureCompletedAt := some captured, itemCount := 1
    processedObjectCount := 1, totalObjectCount := 1, newlyStoredBytes := 0
    manifest := some { bytes := 1, etag := "e", version := "v", key := id }
    pinned := false, completedAt := some captured, verifiedAt := some captured
    failureCode := none }

private def encrypted (id : String) (bytes : Nat) : SnapshotObjectRow :=
  { id := id, status := .ready, sectionName := .notes, recipientFingerprint := "r"
    contentSha256 := id, plaintextBytes := bytes, objectKey := id
    stored := some { bytes := bytes, etag := "e", version := "v" }
    createdBySnapshotId := none, createdAt := 0, verifiedAt := none, failureCode := none }

private def lists (snapshotId objectId : String) : SnapshotEntryRow :=
  { snapshotId := snapshotId, snapshotVaultId := "v", sectionName := .notes, path := objectId
    pathKey := objectId, contentSha256 := objectId, byteLength := 1, portableObjectId := objectId
    recoveryObjectId := some objectId, sourceR2Key := none }

/-- Six snapshots, with the entries given. -/
private def sixSnapshots (entries : List SnapshotEntryRow) : SnapshotDb :=
  { recipient := some "r"
    snapshots := [taken "a" 1, taken "b" 2, taken "c" 3, taken "d" 4, taken "e" 5, taken "f" 6]
    vaults := []
    entries := entries
    objects := [encrypted "old" 100, encrypted "new" 3]
    items := []
    gcObjects := [] }

private def keepFour : RetentionPolicy :=
  { enabled := true, keepReadyCount := 4, maxRetainedCiphertextBytes := some 10 }

/-- The two oldest snapshots have a file in common that no other has. Without them seven
    bytes are retained, and yet the run deletes the two after them. -/
theorem retention_oversteps :
    ((sixSnapshots [lists "a" "old", lists "b" "old", lists "f" "new"]).snapshots.map
        SnapshotRow.id).Nodup ∧
      ¬RetentionSound (sixSnapshots [lists "a" "old", lists "b" "old", lists "f" "new"])
        keepFour 100 := by
  refine ⟨by decide +kernel, fun h => ?_⟩
  obtain ⟨limit, hlimit, hpassed⟩ := h.limited (taken "c" 3) (by decide +kernel)
    (by decide +kernel) (by decide +kernel)
  rw [keepFour, Option.some.injEq] at hlimit
  rw [← hlimit] at hpassed
  exact absurd hpassed (by decide +kernel)

/-- Where only the first has the file, the run is sound: it ends when two are deleted. -/
theorem retention_sound_sixSnapshots :
    RetentionSound (sixSnapshots [lists "a" "old", lists "f" "new"]) keepFour 100 := by
  refine (retention_sound_iff _ keepFour 100 (by decide +kernel)).mpr (fun _ k hdue => ?_)
  have hk : k < 6 := Nat.lt_of_le_of_lt hdue.2.1 (by decide +kernel)
  clear hdue
  unfold Balanced
  revert k
  decide +kernel

end Example

end Mdevolved.Snapshot
