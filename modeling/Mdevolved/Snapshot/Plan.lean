import Mdevolved.Snapshot.Sightings

/-!
# Snapshot Plans

What a capture works from and what it works towards. A plan is the rows of a snapshot
without the columns that a capture fills in: the recovery object of an entry and the stored
object of an item. A capture never changes the plan, so the manifest it will write is known
from the start but for its time.

`Progress` is what holds at any point of a capture, whatever was interrupted on the way.
The plan is the one it started from, an object that is named is there, and the snapshot is
either being created or complete.

## Main definitions

* `planEntry`, `planItem`, `planManifest`: A plan, and the manifest it leads to.
* `Present`, `Backed`: An object that is there as it was recorded.
* `Planned`: A plan that can be carried out.
* `Complete`: A snapshot that is ready, with the manifest of its plan.
* `Progress`: What holds at any point of a capture.

## Theorems

* `planManifest_samePlan`: The manifest of a plan.
* `progress_exec`: A request of a capture leaves a point of a capture.
-/

namespace Mdevolved.Snapshot

/-! ## Plans -/

def planEntry (e : SnapshotEntryRow) : SnapshotEntryRow :=
  { e with recoveryObjectId := none }

def planItem (i : IntelligenceItemRow) : IntelligenceItemRow :=
  { i with stored := none }

def vaultsOf (db : SnapshotDb) (id : String) : List SnapshotVaultRow :=
  db.vaults.filter (fun v => v.snapshotId = id)

/-- The manifest of a snapshot all of whose objects are there. -/
def planManifest (params : SnapshotParams) (db : SnapshotDb) (id : String)
    (captureCompletedAt : Nat) : SnapshotManifest :=
  manifestOf params (vaultsOf db id) ((entriesOf db id).insertionSort listsBefore)
    ((itemsOf db id).insertionSort (fun i i' => i.portableObjectId ≤ i'.portableObjectId))
    captureCompletedAt

/-- What a capture leaves as it is. -/
structure SamePlan (id : String) (db db' : SnapshotDb) : Prop where
  entries : (entriesOf db' id).map planEntry = (entriesOf db id).map planEntry
  items : (itemsOf db' id).map planItem = (itemsOf db id).map planItem
  vaults : vaultsOf db' id = vaultsOf db id
  recipient : db'.recipient = db.recipient
  ids : db'.snapshots.map SnapshotRow.id = db.snapshots.map SnapshotRow.id
  row : ∀ row, snapshotOf db id = some row → ∃ row', snapshotOf db' id = some row' ∧
    row'.recipientFingerprint = row.recipientFingerprint ∧ row'.itemCount = row.itemCount ∧
      row'.totalObjectCount = row.totalObjectCount

theorem samePlan_refl (id : String) (db : SnapshotDb) : SamePlan id db db :=
  ⟨rfl, rfl, rfl, rfl, rfl, fun row h => ⟨row, h, rfl, rfl, rfl⟩⟩

theorem samePlan_trans (id : String) (db₁ db₂ db₃ : SnapshotDb) (h : SamePlan id db₁ db₂)
    (h' : SamePlan id db₂ db₃) : SamePlan id db₁ db₃ := by
  refine ⟨h'.entries.trans h.entries, h'.items.trans h.items, h'.vaults.trans h.vaults,
    h'.recipient.trans h.recipient, h'.ids.trans h.ids, fun row hrow => ?_⟩
  rcases h.row row hrow with ⟨row', hrow', hr, hi, ht⟩
  rcases h'.row row' hrow' with ⟨row'', hrow'', hr', hi', ht'⟩
  exact ⟨row'', hrow'', hr'.trans hr, hi'.trans hi, ht'.trans ht⟩

/-- Entries of one plan agree on what a capture does not set. -/
theorem eq_of_planEntry (e f : SnapshotEntryRow) (h : planEntry e = planEntry f) :
    e.group = f.group ∧ e.byteLength = f.byteLength ∧ e.sourceR2Key = f.sourceR2Key ∧
      manifestEntry e = manifestEntry f := by
  have hgroup := congrArg SnapshotEntryRow.group h
  have hbytes := congrArg SnapshotEntryRow.byteLength h
  have hsource := congrArg SnapshotEntryRow.sourceR2Key h
  have hmanifest := congrArg manifestEntry h
  exact ⟨hgroup, hbytes, hsource, hmanifest⟩

theorem eq_of_planItem (i j : IntelligenceItemRow) (h : planItem i = planItem j) :
    i.itemId = j.itemId ∧ i.portableObjectId = j.portableObjectId ∧
      i.sourceObjectKey = j.sourceObjectKey ∧ i.byteLength = j.byteLength ∧
        i.contentSha256 = j.contentSha256 := by
  have hid := congrArg IntelligenceItemRow.itemId h
  have hport := congrArg IntelligenceItemRow.portableObjectId h
  have hsource := congrArg IntelligenceItemRow.sourceObjectKey h
  have hbytes := congrArg IntelligenceItemRow.byteLength h
  have hhash := congrArg IntelligenceItemRow.contentSha256 h
  exact ⟨hid, hport, hsource, hbytes, hhash⟩

/-- An entry has its plan among those it started from. -/
theorem planEntry_of_samePlan (id : String) (db db' : SnapshotDb) (h : SamePlan id db db')
    (f : SnapshotEntryRow) (hf : f ∈ entriesOf db' id) :
    ∃ e ∈ entriesOf db id, planEntry e = planEntry f := by
  have hmem : planEntry f ∈ (entriesOf db id).map planEntry := by
    rw [← h.entries]
    exact List.mem_map_of_mem hf
  exact List.mem_map.mp hmem

theorem planItem_of_samePlan (id : String) (db db' : SnapshotDb) (h : SamePlan id db db')
    (j : IntelligenceItemRow) (hj : j ∈ itemsOf db' id) :
    ∃ i ∈ itemsOf db id, planItem i = planItem j := by
  have hmem : planItem j ∈ (itemsOf db id).map planItem := by
    rw [← h.items]
    exact List.mem_map_of_mem hj
  exact List.mem_map.mp hmem

/-- A manifest is made of the plan of its rows. -/
theorem manifestOf_plan (params : SnapshotParams) (vaults : List SnapshotVaultRow)
    (entries : List SnapshotEntryRow) (items : List IntelligenceItemRow) (captureCompletedAt : Nat) :
    manifestOf params vaults (entries.map planEntry) (items.map planItem) captureCompletedAt =
      manifestOf params vaults entries items captureCompletedAt := by
  unfold manifestOf
  rw [List.foldl_map, List.map_map]
  have hentries : ∀ v : SnapshotVaultRow,
      ((entries.map planEntry).filter (fun e => e.snapshotVaultId = v.snapshotVaultId)).map
          manifestEntry =
        (entries.filter (fun e => e.snapshotVaultId = v.snapshotVaultId)).map manifestEntry := by
    intro v
    rw [List.filter_map, List.map_map]
    rfl
  simp only [hentries]
  rfl

theorem map_planEntry_sort (es : List SnapshotEntryRow) :
    (es.insertionSort listsBefore).map planEntry = (es.map planEntry).insertionSort listsBefore :=
  List.map_insertionSort listsBefore listsBefore planEntry es (fun _ _ _ _ => Iff.rfl)

/-- The order in which items are listed. -/
def itemBefore (i i' : IntelligenceItemRow) : Prop := i.portableObjectId ≤ i'.portableObjectId

instance (i i' : IntelligenceItemRow) : Decidable (itemBefore i i') :=
  inferInstanceAs (Decidable (_ ≤ _))

theorem map_planItem_sort (is : List IntelligenceItemRow) :
    (is.insertionSort itemBefore).map planItem = (is.map planItem).insertionSort itemBefore :=
  List.map_insertionSort itemBefore itemBefore planItem is (fun _ _ _ _ => Iff.rfl)

theorem planManifest_samePlan (params : SnapshotParams) (id : String) (db db' : SnapshotDb)
    (h : SamePlan id db db') (captureCompletedAt : Nat) :
    planManifest params db' id captureCompletedAt = planManifest params db id captureCompletedAt := by
  have hplan : ∀ db : SnapshotDb, planManifest params db id captureCompletedAt =
      manifestOf params (vaultsOf db id) (((entriesOf db id).map planEntry).insertionSort listsBefore)
        (((itemsOf db id).map planItem).insertionSort itemBefore) captureCompletedAt := by
    intro db
    rw [← map_planEntry_sort, ← map_planItem_sort, manifestOf_plan]
    rfl
  rw [hplan, hplan, h.entries, h.items, h.vaults]

/-! ## Objects -/

/-- An object is there as it was recorded. -/
def Present (s : SnapshotState) (receipt : Receipt) : Prop :=
  ∃ object, s.storage receipt.key = some object ∧ object.receipt receipt.key = receipt

/-- A row names an object that is there. -/
def Backed (s : SnapshotState) (objectId : String) : Prop :=
  ∃ o receipt, objectOf s.db objectId = some o ∧ o.status ≠ .creating ∧
    o.receipt = some receipt ∧ Present s receipt

theorem present_grows (s t : SnapshotState) (receipt : Receipt)
    (hgrows : ∀ key o, s.storage key = some o → t.storage key = some o) (h : Present s receipt) :
    Present t receipt := by
  rcases h with ⟨object, hobject, hreceipt⟩
  exact ⟨object, hgrows _ _ hobject, hreceipt⟩

/-- What a capture starts from: its sources are there, and its manifest is one that its schema
    takes. -/
structure Planned (params : SnapshotParams) (id : String) (s : SnapshotState) : Prop where
  row : ∃ row, snapshotOf s.db id = some row ∧ row.status = .creating ∧
    s.db.recipient = some row.recipientFingerprint ∧ row.itemCount = (entriesOf s.db id).length ∧
      row.totalObjectCount =
        ((entriesOf s.db id).map SnapshotEntryRow.portableObjectId).dedup.length
  snapshots_distinct : (s.db.snapshots.map SnapshotRow.id).Nodup
  objects_distinct : (s.db.objects.map SnapshotObjectRow.id).Nodup
  vaults_some : vaultsOf s.db id ≠ []
  vaults_distinct : ((vaultsOf s.db id).map SnapshotVaultRow.snapshotVaultId).Nodup
  entries_vault : ∀ e ∈ entriesOf s.db id,
    e.snapshotVaultId ∈ (vaultsOf s.db id).map SnapshotVaultRow.snapshotVaultId
  entries_same : ∀ e ∈ entriesOf s.db id, ∀ f ∈ entriesOf s.db id,
    e.portableObjectId = f.portableObjectId → e.group = f.group ∧ e.byteLength = f.byteLength ∧
      e.sourceR2Key = f.sourceR2Key ∧ e.recoveryObjectId = f.recoveryObjectId
  entries_source : ∀ e ∈ entriesOf s.db id, ∃ key, e.sourceR2Key = some key ∧
    sourceMatches (s.storage key) e.byteLength e.contentSha256 = true
  entries_backed : ∀ e ∈ entriesOf s.db id, ∀ objectId, e.recoveryObjectId = some objectId →
    Backed s objectId
  items_source : ∀ i ∈ itemsOf s.db id,
    itemSourceMatches (s.storage i.sourceObjectKey) i.byteLength i.contentSha256 = true
  items_distinct : ((itemsOf s.db id).map IntelligenceItemRow.itemId).Nodup
  items_portable : ((itemsOf s.db id).map IntelligenceItemRow.portableObjectId).Nodup
  items_backed : ∀ i ∈ itemsOf s.db id, ∀ receipt, i.stored = some receipt → Present s receipt
  schema : ∀ captureCompletedAt,
    params.manifestSchema (planManifest params s.db id captureCompletedAt) = true

/-! ## Progress -/

section Progress

variable (params : SnapshotParams) (id : String) (start : SnapshotState)

/-- A snapshot that is ready, with everything of its plan stored and its manifest written. -/
def Complete (s : SnapshotState) : Prop :=
  ∃ row receipt object captureCompletedAt, snapshotOf s.db id = some row ∧ row.status = .ready ∧
    row.manifest = some receipt ∧ s.storage receipt.key = some object ∧
    object.receipt receipt.key = receipt ∧
    object.plaintext = some (.manifest (planManifest params start.db id captureCompletedAt)) ∧
    (∀ e ∈ entriesOf s.db id, e.recoveryObjectId.isSome = true) ∧
    ∀ i ∈ itemsOf s.db id, i.stored.isSome = true

/-- What holds at any point of a capture. -/
structure Progress (s : SnapshotState) : Prop where
  plan : SamePlan id start.db s.db
  grows : ∀ key o, start.storage key = some o → s.storage key = some o
  objects_distinct : (s.db.objects.map SnapshotObjectRow.id).Nodup
  uniform : ∀ e ∈ entriesOf s.db id, ∀ f ∈ entriesOf s.db id,
    e.portableObjectId = f.portableObjectId → e.recoveryObjectId = f.recoveryObjectId
  entries_backed : ∀ e ∈ entriesOf s.db id, ∀ objectId, e.recoveryObjectId = some objectId →
    Backed s objectId
  items_backed : ∀ i ∈ itemsOf s.db id, ∀ receipt, i.stored = some receipt → Present s receipt
  status : (∃ row, snapshotOf s.db id = some row ∧ row.status = .creating) ∨
    Complete params id start s

/-- The requests that a capture makes, where it makes them. What it names is there, and it
    completes the snapshot once everything is. -/
def Captures : SnapshotOp → SnapshotState → Prop
  | .degrade _, _ | .replaceManifest _ _ _ _, _ | .queueObject _ _, _ | .replaceItem _ _ _ _, _
  | .verifyObject _ _, _ | .replaceObject _ _ _ _ _, _ | .markVerified _ _, _
  | .markFailed _ _ _, _ => False
  | .setRecoveryObject _ _ objectId, s => Backed s objectId
  | .completeItem _ _ written, s => Present s written
  | .completeSnapshot id' written _ _, s => id' = id →
      (∃ object captureCompletedAt, s.storage written.key = some object ∧
        object.receipt written.key = written ∧
        object.plaintext = some (.manifest (planManifest params start.db id captureCompletedAt))) ∧
      (∀ e ∈ entriesOf s.db id, e.recoveryObjectId.isSome = true) ∧
      ∀ i ∈ itemsOf s.db id, i.stored.isSome = true
  | _, _ => True

end Progress

variable {params : SnapshotParams} {id : String} {start : SnapshotState}

theorem progress_of_planned (h : Planned params id start) : Progress params id start start := by
  rcases h.row with ⟨row, hrow, hstatus, -⟩
  exact ⟨samePlan_refl id _, fun _ _ ho => ho, h.objects_distinct,
    fun e he f hf hp => (h.entries_same e he f hf hp).2.2.2, h.entries_backed, h.items_backed,
    Or.inl ⟨row, hrow, hstatus⟩⟩

/-- The row of a snapshot says the same of what a capture looks at. -/
def SameRow (id : String) (db db' : SnapshotDb) : Prop :=
  ∀ row, snapshotOf db id = some row → ∃ row', snapshotOf db' id = some row' ∧
    row'.recipientFingerprint = row.recipientFingerprint ∧ row'.itemCount = row.itemCount ∧
      row'.totalObjectCount = row.totalObjectCount ∧ row'.status = row.status ∧
        row'.manifest = row.manifest

theorem sameRow_refl (id : String) (db : SnapshotDb) : SameRow id db db :=
  fun row h => ⟨row, h, rfl, rfl, rfl, rfl, rfl⟩

theorem sameRow_updateSnapshots (id : String) (p : SnapshotRow → Bool)
    (f : SnapshotRow → SnapshotRow) (db : SnapshotDb) (hid : ∀ r, (f r).id = r.id)
    (hf : ∀ r, (f r).recipientFingerprint = r.recipientFingerprint ∧ (f r).itemCount = r.itemCount ∧
      (f r).totalObjectCount = r.totalObjectCount ∧ (f r).status = r.status ∧
        (f r).manifest = r.manifest) : SameRow id db (updateSnapshots p f db) := by
  intro row hrow
  have hfind : snapshotOf (updateSnapshots p f db) id = some (if p row then f row else row) := by
    unfold snapshotOf updateSnapshots
    rw [Table.find?_update SnapshotRow.id p f hid]
    exact congrArg _ hrow
  refine ⟨_, hfind, ?_⟩
  by_cases hp : p row = true
  · rw [if_pos hp]
    exact hf row
  · rw [if_neg hp]
    exact ⟨rfl, rfl, rfl, rfl, rfl⟩

theorem backed_undisturbed (s t : SnapshotState) (objectId : String)
    (h : Undisturbed id s.db t.db) (hgrows : ∀ key o, s.storage key = some o → t.storage key = some o)
    (hbacked : Backed s objectId) : Backed t objectId := by
  rcases hbacked with ⟨o, receipt, ho, hstatus, hreceipt, hpresent⟩
  rcases h.objects objectId o ho hstatus with ⟨o', ho', hstatus', hstored', hkey'⟩
  refine ⟨o', receipt, ho', hstatus', ?_, present_grows s t receipt hgrows hpresent⟩
  rw [← hreceipt, SnapshotObjectRow.receipt, SnapshotObjectRow.receipt, hstored', hkey']

/-- A change of what is neither an entry nor an item, nor what a capture looks at. -/
theorem progress_undisturbed (s t : SnapshotState) (hs : Progress params id start s)
    (h : Undisturbed id s.db t.db) (hvaults : t.db.vaults = s.db.vaults)
    (hrecipient : t.db.recipient = s.db.recipient) (hrow : SameRow id s.db t.db)
    (hdistinct : (t.db.objects.map SnapshotObjectRow.id).Nodup)
    (hgrows : ∀ key o, s.storage key = some o → t.storage key = some o) :
    Progress params id start t := by
  have hentries : entriesOf t.db id = entriesOf s.db id := by
    rw [entriesOf, entriesOf, h.entries]
  have hitems : itemsOf t.db id = itemsOf s.db id := by
    rw [itemsOf, itemsOf, h.items]
  have hplan : SamePlan id s.db t.db := by
    refine ⟨by rw [hentries], by rw [hitems], by rw [vaultsOf, vaultsOf, hvaults], hrecipient, h.ids,
      fun row hr => ?_⟩
    rcases hrow row hr with ⟨row', hr', hfp, hi, ht, -⟩
    exact ⟨row', hr', hfp, hi, ht⟩
  refine ⟨samePlan_trans id _ _ _ hs.plan hplan, fun key o ho => hgrows key o (hs.grows key o ho),
    hdistinct, ?_, ?_, ?_, ?_⟩
  · rw [hentries]
    exact hs.uniform
  · intro e he objectId hnames
    rw [hentries] at he
    exact backed_undisturbed s t objectId h hgrows (hs.entries_backed e he objectId hnames)
  · intro i hi receipt hstored
    rw [hitems] at hi
    exact present_grows s t receipt hgrows (hs.items_backed i hi receipt hstored)
  · rcases hs.status with ⟨row, hr, hstatus⟩ | ⟨row, receipt, object, at', hr, hstatus, hmanifest,
      hobject, hreceipt, hplaintext, hallEntries, hallItems⟩
    · rcases hrow row hr with ⟨row', hr', -, -, -, hstatus', -⟩
      exact Or.inl ⟨row', hr', hstatus'.trans hstatus⟩
    · rcases hrow row hr with ⟨row', hr', -, -, -, hstatus', hmanifest'⟩
      refine Or.inr ⟨row', receipt, object, at', hr', hstatus'.trans hstatus,
        hmanifest'.trans hmanifest, hgrows _ _ hobject, hreceipt, hplaintext, ?_, ?_⟩
      · rw [hentries]
        exact hallEntries
      · rw [hitems]
        exact hallItems

/-- The entries that a recovery object is set for. -/
def setsRecovery (id' portableObjectId : String) (e : SnapshotEntryRow) : Bool :=
  e.snapshotId = id' && e.portableObjectId = portableObjectId && e.recoveryObjectId.isNone

theorem setRecoveryObject_entries (id id' portableObjectId objectId : String) (db : SnapshotDb) :
    entriesOf (updateEntries (setsRecovery id' portableObjectId)
        (fun e => { e with recoveryObjectId := some objectId }) db) id =
      Table.update (setsRecovery id' portableObjectId)
        (fun e => { e with recoveryObjectId := some objectId }) (entriesOf db id) :=
  Table.filter_update (fun e : SnapshotEntryRow => e.snapshotId = id) (setsRecovery id' portableObjectId)
    (fun e => { e with recoveryObjectId := some objectId }) db.entries (fun _ _ => rfl)

/-- Setting a recovery object that is there. -/
theorem progress_setRecoveryObject (id' portableObjectId objectId : String) (s t : SnapshotState)
    (hs : Progress params id start s) (hbacked : Backed s objectId)
    (hstorage : t.storage = s.storage)
    (hdb : t.db = updateEntries (setsRecovery id' portableObjectId)
      (fun e => { e with recoveryObjectId := some objectId }) s.db) :
    Progress params id start t := by
  have hentries : entriesOf t.db id = Table.update (setsRecovery id' portableObjectId)
      (fun e => { e with recoveryObjectId := some objectId }) (entriesOf s.db id) := by
    rw [hdb]
    exact setRecoveryObject_entries id id' portableObjectId objectId s.db
  have hkept : ∀ x, Backed s x → Backed t x := by
    rintro x ⟨o, receipt, ho, hstatus, hreceipt, hpresent⟩
    refine ⟨o, receipt, by rw [hdb]; exact ho, hstatus, hreceipt, ?_⟩
    exact present_grows s t receipt (fun _ _ h => by rw [hstorage]; exact h) hpresent
  -- An entry names what it named, or the new object where it named none.
  have hrow : ∀ f ∈ entriesOf t.db id, ∃ e ∈ entriesOf s.db id,
      f.portableObjectId = e.portableObjectId ∧
        ((setsRecovery id' portableObjectId e = true ∧ f.recoveryObjectId = some objectId) ∨
          setsRecovery id' portableObjectId e = false ∧ f = e) := by
    intro f hf
    rw [hentries] at hf
    rcases Table.mem_update _ _ _ f hf with ⟨e, he, ⟨hp, rfl⟩ | ⟨hp, rfl⟩⟩
    · exact ⟨e, he, rfl, Or.inl ⟨hp, rfl⟩⟩
    · exact ⟨f, he, rfl, Or.inr ⟨hp, rfl⟩⟩
  refine ⟨samePlan_trans id _ _ _ hs.plan ⟨?_, by rw [hdb]; rfl, by rw [hdb]; rfl, by rw [hdb]; rfl,
    by rw [hdb]; rfl, fun row hr => ⟨row, by rw [hdb]; exact hr, rfl, rfl, rfl⟩⟩,
    fun key o ho => by rw [hstorage]; exact hs.grows key o ho, by rw [hdb]; exact hs.objects_distinct,
    ?_, ?_, ?_, ?_⟩
  · rw [hentries]
    exact Table.map_update planEntry _ (fun e => { e with recoveryObjectId := some objectId })
      (fun _ => rfl) _
  · intro f hf f' hf' hp
    rcases hrow f hf with ⟨e, he, hport, hcase⟩
    rcases hrow f' hf' with ⟨e', he', hport', hcase'⟩
    have hports : e.portableObjectId = e'.portableObjectId := (hport.symm.trans hp).trans hport'
    have hsame := hs.uniform e he e' he' hports
    -- They are of one snapshot, so both are set or neither is.
    have hid : e.snapshotId = e'.snapshotId := by
      rw [of_decide_eq_true (List.mem_filter.mp he).2, of_decide_eq_true (List.mem_filter.mp he').2]
    have hsets : setsRecovery id' portableObjectId e = setsRecovery id' portableObjectId e' := by
      unfold setsRecovery
      rw [hid, hports, hsame]
    rcases hcase with ⟨hp1, hnew⟩ | ⟨hp1, rfl⟩ <;> rcases hcase' with ⟨hp2, hnew'⟩ | ⟨hp2, rfl⟩
    · rw [hnew, hnew']
    · rw [hsets, hp2] at hp1
      cases hp1
    · rw [hsets, hp2] at hp1
      cases hp1
    · exact hsame
  · intro f hf x hnames
    rcases hrow f hf with ⟨e, he, -, ⟨-, hnew⟩ | ⟨-, rfl⟩⟩
    · rw [hnew, Option.some.injEq] at hnames
      rw [← hnames]
      exact hkept objectId hbacked
    · exact hkept x (hs.entries_backed f he x hnames)
  · intro i hi receipt hstored
    have hi' : i ∈ itemsOf s.db id := by
      rw [hdb] at hi
      exact hi
    exact present_grows s t receipt (fun _ _ h => by rw [hstorage]; exact h)
      (hs.items_backed i hi' receipt hstored)
  · rcases hs.status with ⟨row, hr, hstatus⟩ | ⟨row, receipt, object, at', hr, hstatus, hmanifest,
      hobject, hreceipt, hplaintext, hallEntries, hallItems⟩
    · exact Or.inl ⟨row, by rw [hdb]; exact hr, hstatus⟩
    · refine Or.inr ⟨row, receipt, object, at', by rw [hdb]; exact hr, hstatus, hmanifest,
        by rw [hstorage]; exact hobject, hreceipt, hplaintext, ?_, by rw [hdb]; exact hallItems⟩
      intro f hf
      rcases hrow f hf with ⟨e, he, -, ⟨-, hnew⟩ | ⟨-, rfl⟩⟩
      · rw [hnew]
        rfl
      · exact hallEntries f he

/-- The items that a stored object is recorded for. -/
def completesItem (id' itemId : String) (i : IntelligenceItemRow) : Bool :=
  i.snapshotId = id' && i.itemId = itemId && i.stored.isNone

theorem completeItem_items (id id' itemId : String) (written : Receipt) (db : SnapshotDb) :
    itemsOf (updateItems (completesItem id' itemId) (fun i => { i with stored := some written }) db)
        id =
      Table.update (completesItem id' itemId) (fun i => { i with stored := some written })
        (itemsOf db id) :=
  Table.filter_update (fun i : IntelligenceItemRow => i.snapshotId = id) (completesItem id' itemId)
    (fun i => { i with stored := some written }) db.items (fun _ _ => rfl)

/-- Recording the object of an item that is there. -/
theorem progress_completeItem (id' itemId : String) (written : Receipt) (s t : SnapshotState)
    (hs : Progress params id start s) (hpresent : Present s written) (hstorage : t.storage = s.storage)
    (hdb : t.db = updateItems (completesItem id' itemId)
      (fun i => { i with stored := some written }) s.db) :
    Progress params id start t := by
  have hitems : itemsOf t.db id = Table.update (completesItem id' itemId)
      (fun i => { i with stored := some written }) (itemsOf s.db id) := by
    rw [hdb]
    exact completeItem_items id id' itemId written s.db
  have hgrows : ∀ key o, s.storage key = some o → t.storage key = some o := fun _ _ h => by
    rw [hstorage]
    exact h
  have hrow : ∀ j ∈ itemsOf t.db id, j.stored = some written ∨ j ∈ itemsOf s.db id := by
    intro j hj
    rw [hitems] at hj
    rcases Table.mem_update _ _ _ j hj with ⟨i, hi, ⟨-, rfl⟩ | ⟨-, rfl⟩⟩
    · exact Or.inl rfl
    · exact Or.inr hi
  have hentries : entriesOf t.db id = entriesOf s.db id := by rw [hdb]; rfl
  refine ⟨samePlan_trans id _ _ _ hs.plan ⟨by rw [hentries], ?_, by rw [hdb]; rfl, by rw [hdb]; rfl,
    by rw [hdb]; rfl, fun row hr => ⟨row, by rw [hdb]; exact hr, rfl, rfl, rfl⟩⟩,
    fun key o ho => hgrows key o (hs.grows key o ho), by rw [hdb]; exact hs.objects_distinct,
    by rw [hentries]; exact hs.uniform, ?_, ?_, ?_⟩
  · rw [hitems]
    exact Table.map_update planItem _ (fun i => { i with stored := some written }) (fun _ => rfl) _
  · intro e he x hnames
    rw [hentries] at he
    rcases hs.entries_backed e he x hnames with ⟨o, receipt, ho, hstatus, hreceipt, hthere⟩
    exact ⟨o, receipt, by rw [hdb]; exact ho, hstatus, hreceipt,
      present_grows s t receipt hgrows hthere⟩
  · intro j hj receipt hstored
    rcases hrow j hj with hnew | hj
    · rw [hnew, Option.some.injEq] at hstored
      rw [← hstored]
      exact present_grows s t written hgrows hpresent
    · exact present_grows s t receipt hgrows (hs.items_backed j hj receipt hstored)
  · rcases hs.status with ⟨row, hr, hstatus⟩ | ⟨row, receipt, object, at', hr, hstatus, hmanifest,
      hobject, hreceipt, hplaintext, hallEntries, hallItems⟩
    · exact Or.inl ⟨row, by rw [hdb]; exact hr, hstatus⟩
    · refine Or.inr ⟨row, receipt, object, at', by rw [hdb]; exact hr, hstatus, hmanifest,
        hgrows _ _ hobject, hreceipt, hplaintext, by rw [hentries]; exact hallEntries, ?_⟩
      intro j hj
      rcases hrow j hj with hnew | hj
      · rw [hnew]
        rfl
      · exact hallItems j hj

/-- Completing a snapshot whose objects and manifest are there. -/
theorem progress_completeSnapshot (id' : String) (written : Receipt) (bytes now : Nat)
    (s t : SnapshotState) (hs : Progress params id start s)
    (hwritten : Captures params id start (.completeSnapshot id' written bytes now) s)
    (hstorage : t.storage = s.storage)
    (hdb : t.db = updateSnapshots (fun r => r.id = id' && r.status = .creating &&
        r.processedObjectCount = r.totalObjectCount) (fun r =>
      { r with
        status := .ready, captureCompletedAt := some now, completedAt := some now
        verifiedAt := some now, integrityStatus := .verified, manifest := some written
        newlyStoredBytes := bytes }) s.db) :
    Progress params id start t := by
  let p : SnapshotRow → Bool := fun r => r.id = id' && r.status = .creating &&
    r.processedObjectCount = r.totalObjectCount
  let f : SnapshotRow → SnapshotRow := fun r =>
    { r with
      status := .ready, captureCompletedAt := some now, completedAt := some now
      verifiedAt := some now, integrityStatus := .verified, manifest := some written
      newlyStoredBytes := bytes }
  have hfind : ∀ row, snapshotOf s.db id = some row →
      snapshotOf t.db id = some (if p row then f row else row) := by
    intro row hrow
    have hupdate := Table.find?_update SnapshotRow.id p f (fun _ => rfl) s.db.snapshots id
    unfold snapshotOf at hrow ⊢
    rw [hdb]
    exact hupdate.trans (congrArg _ hrow)
  have hentries : entriesOf t.db id = entriesOf s.db id := by rw [hdb]; rfl
  have hitems : itemsOf t.db id = itemsOf s.db id := by rw [hdb]; rfl
  have hgrows : ∀ key o, s.storage key = some o → t.storage key = some o := fun _ _ h => by
    rw [hstorage]
    exact h
  refine ⟨samePlan_trans id _ _ _ hs.plan ⟨by rw [hentries], by rw [hitems], by rw [hdb]; rfl,
    by rw [hdb]; rfl, ?_, fun row hr => ?_⟩, fun key o ho => hgrows key o (hs.grows key o ho),
    by rw [hdb]; exact hs.objects_distinct, by rw [hentries]; exact hs.uniform, ?_, ?_, ?_⟩
  · rw [hdb]
    exact Table.map_update SnapshotRow.id p f (fun _ => rfl) s.db.snapshots
  · refine ⟨_, hfind row hr, ?_⟩
    by_cases hp : p row = true
    · rw [if_pos hp]
      exact ⟨rfl, rfl, rfl⟩
    · rw [if_neg hp]
      exact ⟨rfl, rfl, rfl⟩
  · intro e he x hnames
    rw [hentries] at he
    rcases hs.entries_backed e he x hnames with ⟨o, receipt, ho, hstatus, hreceipt, hthere⟩
    exact ⟨o, receipt, by rw [hdb]; exact ho, hstatus, hreceipt,
      present_grows s t receipt hgrows hthere⟩
  · intro i hi receipt hstored
    rw [hitems] at hi
    exact present_grows s t receipt hgrows (hs.items_backed i hi receipt hstored)
  · rcases hs.status with ⟨row, hr, hstatus⟩ | ⟨row, receipt, object, at', hr, hstatus, hmanifest,
      hobject, hreceipt, hplaintext, hallEntries, hallItems⟩
    · by_cases hp : p row = true
      · -- It is this snapshot, and it is complete now.
        have hid : id' = id := by
          rw [Bool.and_eq_true, Bool.and_eq_true, decide_eq_true_eq] at hp
          rw [← hp.1.1]
          exact (Table.mem_of_find? SnapshotRow.id _ _ _ hr).2
        rcases hwritten hid with ⟨⟨object, at', hobject, hreceipt, hplaintext⟩, hallEntries,
          hallItems⟩
        refine Or.inr ⟨f row, written, object, at', ?_, rfl, rfl, hgrows _ _ hobject, hreceipt,
          hplaintext, by rw [hentries]; exact hallEntries, by rw [hitems]; exact hallItems⟩
        rw [hfind row hr, if_pos hp]
      · exact Or.inl ⟨row, by rw [hfind row hr, if_neg hp], hstatus⟩
    · have hp : ¬ p row = true := by
        intro hp
        rw [Bool.and_eq_true, Bool.and_eq_true, decide_eq_true_eq, decide_eq_true_eq, hstatus] at hp
        exact absurd hp.1.2 (fun h => nomatch h)
      exact Or.inr ⟨row, receipt, object, at', by rw [hfind row hr, if_neg hp], hstatus, hmanifest,
        hgrows _ _ hobject, hreceipt, hplaintext, by rw [hentries]; exact hallEntries,
        by rw [hitems]; exact hallItems⟩

/-- A request of a capture leaves a point of a capture. -/
theorem progress_effect (op : SnapshotOp) (w : Outside) (s t : SnapshotState) (r : op.Ret)
    (hs : Progress params id start s) (hop : Captures params id start op s)
    (h : effect params w s op = .ok (r, t)) : Progress params id start t := by
  have hsame : t = s → Progress params id start t := by
    rintro rfl
    exact hs
  have hobjects : ∀ db, t = { s with db := db } → Undisturbed id s.db db →
      db.vaults = s.db.vaults → db.recipient = s.db.recipient → SameRow id s.db db →
        (db.objects.map SnapshotObjectRow.id).Nodup → Progress params id start t := by
    rintro db rfl hu hv hr hrow hdistinct
    exact progress_undisturbed s _ hs hu hv hr hrow hdistinct (fun _ _ h => h)
  have hids : ∀ (p : SnapshotObjectRow → Bool) (f : SnapshotObjectRow → SnapshotObjectRow),
      (∀ o, (f o).id = o.id) → ((updateObjects p f s.db).objects.map SnapshotObjectRow.id).Nodup := by
    intro p f hf
    have hmap := Table.map_update SnapshotObjectRow.id p f hf s.db.objects
    exact hmap ▸ hs.objects_distinct
  cases op with
  | degrade | replaceManifest | queueObject | replaceItem | verifyObject | replaceObject
  | markVerified | markFailed => exact hop.elim
  | setRecoveryObject id' p objectId =>
      rw [effect] at h
      split at h
      · cases h
      · next db hdb =>
        rw [writing, Batch.ok_inj] at h
        have hset := withRecoveryObject_ok _ _ _ _ hdb
        exact progress_setRecoveryObject id' p objectId s t hs hop (by rw [← h.2])
          (by rw [← h.2, hset]; rfl)
  | completeItem id' itemId written =>
      rw [effect, writing, Batch.ok_inj] at h
      exact progress_completeItem id' itemId written s t hs hop (by rw [← h.2]) (by rw [← h.2]; rfl)
  | completeSnapshot id' written bytes now =>
      rw [effect, writing, Batch.ok_inj] at h
      exact progress_completeSnapshot id' written bytes now s t hs hop (by rw [← h.2])
        (by rw [← h.2])
  | setProcessed id' processed =>
      rw [effect, writing, Batch.ok_inj] at h
      exact hobjects _ h.2.symm
        (undisturbed_updateSnapshots id _ _ _ (fun _ => rfl) (fun _ => rfl)) rfl rfl
        (sameRow_updateSnapshots id _ _ _ (fun _ => rfl) (fun _ => ⟨rfl, rfl, rfl, rfl, rfl⟩))
        hs.objects_distinct
  | failMissing _ | failEncryption _ =>
      rw [effect, writing, Batch.ok_inj] at h
      exact hobjects _ h.2.symm (undisturbed_updateObjects id _ _ _ (fun _ => rfl)
        (fun _ _ _ => ⟨by simp only [ne_eq, reduceCtorEq, not_false_eq_true], rfl, rfl⟩)) rfl rfl
        (sameRow_refl id _) (hids _ _ (fun _ => rfl))
  | completeObject objectId written now =>
      rw [effect, writing, Batch.ok_inj] at h
      refine hobjects _ h.2.symm (undisturbed_updateObjects id _ _ _ (fun _ => rfl)
        (fun o hp hstatus => ?_)) rfl rfl (sameRow_refl id _) (hids _ _ (fun _ => rfl))
      rw [Bool.and_eq_true, decide_eq_true_eq, decide_eq_true_eq] at hp
      exact absurd hp.2 hstatus
  | insertObject row =>
      rw [effect] at h
      split at h
      · cases h
      · next objects hinsert =>
        rw [writing, Batch.ok_inj] at h
        refine hobjects _ h.2.symm (undisturbed_insertObject id row _ objects hinsert) rfl rfl
          (sameRow_refl id _) ?_
        rcases (Table.insert_eq_some _ _ _ _).mp hinsert with ⟨hadmits, rfl⟩
        refine Table.map_concat_nodup SnapshotObjectRow.id _ row hs.objects_distinct ?_
        intro r hr
        have hne := List.all_eq_true.mp hadmits r hr
        rw [Bool.and_eq_true, decide_eq_true_eq] at hne
        exact hne.1
  | putObject key plaintext =>
      rw [effect] at h
      split at h
      · rw [Batch.ok_inj] at h
        exact hsame h.2.symm
      · next hvacant =>
        rw [Batch.ok_inj] at h
        have hdb : t.db = s.db := by rw [← h.2]
        refine progress_undisturbed s t hs (hdb ▸ undisturbed_refl id _) (by rw [hdb]) (by rw [hdb])
          (hdb ▸ sameRow_refl id _) (by rw [hdb]; exact hs.objects_distinct) (fun key' o ho => ?_)
        have hne : key' ≠ key := by
          rintro rfl
          rw [hvacant] at ho
          cases ho
        rw [← h.2]
        simp only [Function.update_of_ne hne]
        exact ho
  | randomUUID | readStatus | readSummary | readReady | readCreating | readRecipient
  | readPending | readReusable | getObject | headObject | readPendingItems
  | countPendingItems | countObjects | readVaults | readEntries | readReadyItems
  | sumNewBytes | readContentCandidates | readItemCandidates =>
      rw [effect] at h
      exact hsame (reading_ok _ _ _ _ h)

theorem progress_exec (op : SnapshotOp) (w : Outside) (s : SnapshotState)
    (hs : Progress params id start s) (hop : Captures params id start op s) :
    Progress params id start (exec params op w s).2 := by
  rcases exec_cases params op w s with hsame | ⟨r, heffect, -⟩
  · rw [hsame]
    exact hs
  · exact progress_effect op w s _ r hs hop heffect

end Mdevolved.Snapshot
