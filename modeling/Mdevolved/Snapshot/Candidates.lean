import Mdevolved.Lib.Keyset
import Mdevolved.Snapshot.Sightings

/-!
# Snapshot Candidates

What a request to repair a snapshot looks at. It reads the first portable objects of the
notes and the first intelligence items after its continuation identifier, merges them in
the order of a locale, and takes as many as a request looks at. The columns of a content
candidate are aggregates over the entries that share a portable object, each column by
itself. Where a snapshot is captured they describe one object.

## Main definitions

* `Due`: A candidate is as the tables have it, or what it is for was found.
* `candidatesOf`: The candidates of a request.

## Theorems

* `candidatesOf_due`: What a request reads is as the tables have it.
* `due_moves`: It stays so, or is found.
* `mem_candidates`: Whatever lies between two continuation identifiers is looked at.
-/

namespace Mdevolved.Snapshot

/-! ## Aggregates -/

/-- The rows of one object say the ciphertext of that object. -/
theorem groupCiphertext_of_const (rows : List SnapshotObjectRow) (c : Ciphertext)
    (hne : rows ≠ []) (h : ∀ o ∈ rows, o.stored = some c) : groupCiphertext rows = some c := by
  have hstored : ∀ x ∈ rows.filterMap SnapshotObjectRow.stored, x = c := by
    intro x hx
    rcases List.mem_filterMap.mp hx with ⟨o, ho, heq⟩
    rw [h o ho, Option.some.injEq] at heq
    exact heq.symm
  have hnonempty : rows.filterMap SnapshotObjectRow.stored ≠ [] := by
    cases rows with
    | nil => exact absurd rfl hne
    | cons o os => rw [List.filterMap_cons_some (h o List.mem_cons_self)]; exact List.cons_ne_nil _ _
  have hcolumn : ∀ {α : Type} (f : Ciphertext → α),
      ∀ x ∈ (rows.filterMap SnapshotObjectRow.stored).map f, x = f c := by
    intro α f x hx
    rcases List.mem_map.mp hx with ⟨y, hy, rfl⟩
    rw [hstored y hy]
  have hetag := minText_of_const _ _ (by simpa using hnonempty) (hcolumn Ciphertext.etag)
  have hversion := minText_of_const _ _ (by simpa using hnonempty) (hcolumn Ciphertext.version)
  have hbytes := foldl_max_of_const _ _ 0 (Nat.zero_le _) (by simpa using hnonempty)
    (hcolumn Ciphertext.bytes)
  simp only [groupCiphertext, hetag, hversion, hbytes, Option.bind_some, Option.map_some]

/-! ## Content -/

section

variable (db : SnapshotDb) (id after : String)

theorem objectOf_id (objectId : String) (o : SnapshotObjectRow)
    (h : objectOf db objectId = some o) : o.id = objectId :=
  (Table.mem_of_find? SnapshotObjectRow.id db.objects objectId o h).2

theorem mem_joinedEntries (id : String) (r : SnapshotEntryRow × SnapshotObjectRow) :
    r ∈ joinedEntries db id ↔ r.1 ∈ entriesOf db id ∧ r.1.recoveryObjectId.bind (objectOf db) = some r.2 := by
  unfold joinedEntries
  rw [List.mem_filterMap]
  constructor
  · rintro ⟨e, he, heq⟩
    rw [Option.map_eq_some_iff] at heq
    rcases heq with ⟨o, ho, rfl⟩
    exact ⟨he, ho⟩
  · rintro ⟨he, ho⟩
    exact ⟨r.1, he, by rw [ho]; rfl⟩

/-- The rows that a request reads candidates from. -/
def rowsAfter (db : SnapshotDb) (id after : String) : List (SnapshotEntryRow × SnapshotObjectRow) :=
  (joinedEntries db id).filter (fun r => after < r.1.portableObjectId)

theorem mem_rowsAfter (r : SnapshotEntryRow × SnapshotObjectRow) :
    r ∈ rowsAfter db id after ↔ (r.1 ∈ entriesOf db id ∧
      r.1.recoveryObjectId.bind (objectOf db) = some r.2) ∧ after < r.1.portableObjectId := by
  unfold rowsAfter
  rw [List.mem_filter, mem_joinedEntries, decide_eq_true_eq]

/-- The rows of one content describe one object. -/
theorem contentCandidate_of_rows (rows : List (SnapshotEntryRow × SnapshotObjectRow))
    (key : GroupKey) (o : SnapshotObjectRow) (c : Ciphertext)
    (hne : rows.filter (fun r => r.1.group = key) ≠ [])
    (hsame : ∀ r ∈ rows, r.1.group = key → r.2 = o) (hstored : o.stored = some c) :
    ∃ candidate, contentCandidate rows key = some candidate ∧ candidate.group = key ∧
      candidate.recoveryObjectId = o.id ∧ candidate.objectKey = o.objectKey ∧
        candidate.stored = some c := by
  have hgrouped : ∀ r ∈ rows.filter (fun r => r.1.group = key), r.2 = o := by
    intro r hr
    rw [List.mem_filter, decide_eq_true_eq] at hr
    exact hsame r hr.1 hr.2
  have hcolumn : ∀ {α : Type} (f : SnapshotObjectRow → α),
      ∀ x ∈ (rows.filter (fun r => r.1.group = key)).map (fun r => f r.2), x = f o := by
    intro α f x hx
    rcases List.mem_map.mp hx with ⟨r, hr, rfl⟩
    rw [hgrouped r hr]
  have hid := minText_of_const _ _ (by simpa using hne) (hcolumn SnapshotObjectRow.id)
  have hkey := minText_of_const _ _ (by simpa using hne) (hcolumn SnapshotObjectRow.objectKey)
  have hciphertext := groupCiphertext_of_const ((rows.filter (fun r => r.1.group = key)).map Prod.snd)
    c (by simpa using hne) (fun o' ho' => by rw [hcolumn id o' ho']; exact hstored)
  unfold contentCandidate
  simp only [hid, hkey, hciphertext, Option.bind_some, Option.map_some]
  exact ⟨_, rfl, rfl, rfl, rfl, rfl⟩

/-- In a captured snapshot a content candidate is what its entries name. -/
theorem contentCandidate_of_entry (hcap : Captured id db)
    (e : SnapshotEntryRow) (he : e ∈ entriesOf db id) (hafter : after < e.portableObjectId) :
    ∃ candidate ciphertext, contentCandidate (rowsAfter db id after) e.group = some candidate ∧
      candidate.group = e.group ∧ e.recoveryObjectId = some candidate.recoveryObjectId ∧
        candidate.stored = some ciphertext ∧
          entryReceipt db e = some { toCiphertext := ciphertext, key := candidate.objectKey } := by
  rcases hcap.entries_stored e he with ⟨objectId, hnames, o, ho, -, hsome⟩
  rcases Option.isSome_iff_exists.mp hsome with ⟨ciphertext, hciphertext⟩
  have hrow : (e, o) ∈ rowsAfter db id after := by
    rw [mem_rowsAfter]
    exact ⟨⟨he, by rw [hnames]; exact ho⟩, hafter⟩
  have hne : (rowsAfter db id after).filter (fun r => r.1.group = e.group) ≠ [] :=
    List.ne_nil_of_mem (List.mem_filter.mpr ⟨hrow, decide_eq_true rfl⟩)
  have hsame : ∀ r ∈ rowsAfter db id after, r.1.group = e.group → r.2 = o := by
    intro r hr hgroup
    rw [mem_rowsAfter] at hr
    have hrec := (hcap.entries_same r.1 hr.1.1 e he
      (congrArg GroupKey.portableObjectId hgroup)).2
    have hobject := hr.1.2
    rw [hrec, hnames, Option.bind_some, ho, Option.some.injEq] at hobject
    exact hobject.symm
  rcases contentCandidate_of_rows _ _ o ciphertext hne hsame hciphertext with
    ⟨candidate, hcandidate, hgroup, hid, hkey, hstored⟩
  refine ⟨candidate, ciphertext, hcandidate, hgroup, ?_, hstored, ?_⟩
  · rw [hnames, hid, objectOf_id db objectId o ho]
  · unfold entryReceipt
    rw [hnames, Option.bind_some, ho, Option.bind_some, SnapshotObjectRow.receipt, hciphertext, hkey]
    rfl

/-- The content candidates after a portable object, all of them. -/
def contentsAfter (db : SnapshotDb) (id after : String) : List ContentCandidate :=
  (groupKeys ((rowsAfter db id after).map Prod.fst)).filterMap
    (contentCandidate (rowsAfter db id after))

theorem contentCandidates_eq (limit : Nat) :
    contentCandidates db id after limit = (contentsAfter db id after).take limit := rfl

theorem mem_keysAfter (key : GroupKey)
    (h : key ∈ groupKeys ((rowsAfter db id after).map Prod.fst)) :
    ∃ e ∈ entriesOf db id, after < e.portableObjectId ∧ e.group = key := by
  rcases (mem_groupKeys _ key).mp h with ⟨e, he, hgroup⟩
  rcases List.mem_map.mp he with ⟨r, hr, rfl⟩
  rw [mem_rowsAfter] at hr
  exact ⟨r.1, hr.1.1, hr.2, hgroup⟩

theorem mem_contentsAfter (hcap : Captured id db)
    (candidate : ContentCandidate) (h : candidate ∈ contentsAfter db id after) :
    ∃ e ∈ entriesOf db id, after < e.portableObjectId ∧ candidate.group = e.group ∧
      e.recoveryObjectId = some candidate.recoveryObjectId ∧ ∃ ciphertext,
        candidate.stored = some ciphertext ∧
          entryReceipt db e = some { toCiphertext := ciphertext, key := candidate.objectKey } := by
  rcases List.mem_filterMap.mp h with ⟨key, hkey, hcandidate⟩
  rcases mem_keysAfter db id after key hkey with ⟨e, he, hafter, rfl⟩
  rcases contentCandidate_of_entry db id after hcap e he hafter with
    ⟨candidate', ciphertext, hsame, hgroup, hrest⟩
  rw [hcandidate, Option.some.injEq] at hsame
  subst hsame
  exact ⟨e, he, hafter, hgroup, hrest.1, ciphertext, hrest.2⟩

/-- Every entry past a portable object has its candidate. -/
theorem contentsAfter_cover (hcap : Captured id db)
    (e : SnapshotEntryRow) (he : e ∈ entriesOf db id) (hafter : after < e.portableObjectId) :
    e.portableObjectId ∈
      (contentsAfter db id after).map (fun c => c.group.portableObjectId) := by
  rcases contentCandidate_of_entry db id after hcap e he hafter with
    ⟨candidate, -, hcandidate, hgroup, -⟩
  rcases hcap.entries_stored e he with ⟨objectId, hnames, o, ho, -⟩
  have hrow : (e, o) ∈ rowsAfter db id after := by
    rw [mem_rowsAfter]
    exact ⟨⟨he, by rw [hnames]; exact ho⟩, hafter⟩
  have hkey : e.group ∈ groupKeys ((rowsAfter db id after).map Prod.fst) :=
    (mem_groupKeys _ _).mpr ⟨e, List.mem_map.mpr ⟨(e, o), hrow, rfl⟩, rfl⟩
  refine List.mem_map.mpr ⟨candidate, List.mem_filterMap.mpr ⟨_, hkey, hcandidate⟩, ?_⟩
  rw [hgroup]
  rfl

/-- Content candidates come in the order of their portable objects, which are distinct. -/
theorem contentsAfter_pairwise (hcap : Captured id db) :
    ((contentsAfter db id after).map (fun c => c.group.portableObjectId)).Pairwise (· < ·) := by
  have hsorted : (groupKeys ((rowsAfter db id after).map Prod.fst)).Pairwise
      (fun k k' => k.portableObjectId ≤ k'.portableObjectId) :=
    List.pairwise_insertionSort (fun k k' : GroupKey => k.portableObjectId ≤ k'.portableObjectId) _
  have hdistinct : (groupKeys ((rowsAfter db id after).map Prod.fst)).Nodup :=
    (List.perm_insertionSort _ _).nodup_iff.mpr (List.nodup_dedup _)
  have hstrict := (hsorted.and hdistinct).imp_of_mem
    (S := fun k k' => k.portableObjectId < k'.portableObjectId) (by
      intro k k' hk hk' hle
      rcases mem_keysAfter db id after k hk with ⟨e, he, -, rfl⟩
      rcases mem_keysAfter db id after k' hk' with ⟨e', he', -, rfl⟩
      refine lt_of_le_of_ne hle.1 (fun heq => hle.2 ?_)
      exact (hcap.entries_same e he e' he' heq).1)
  rw [List.pairwise_map]
  unfold contentsAfter
  rw [List.pairwise_filterMap]
  refine hstrict.imp_of_mem (fun {k k'} hk hk' hlt c hc c' hc' => ?_)
  have hgroup : ∀ key ∈ groupKeys ((rowsAfter db id after).map Prod.fst), ∀ candidate,
      contentCandidate (rowsAfter db id after) key = some candidate → candidate.group = key := by
    intro key hkey candidate hcandidate
    rcases mem_keysAfter db id after key hkey with ⟨e, he, hafter, rfl⟩
    rcases contentCandidate_of_entry db id after hcap e he hafter with ⟨_, _, hsame, hgroup, -⟩
    rw [hcandidate, Option.some.injEq] at hsame
    rw [hsame, hgroup]
  rw [hgroup k hk c hc, hgroup k' hk' c' hc']
  exact hlt

end

/-! ## Items -/

/-- The item candidates after a portable object, all of them. -/
def itemsAfter (db : SnapshotDb) (id after : String) : List ItemCandidate :=
  (((itemsOf db id).filter (fun i => after < i.portableObjectId)).filterMap
    itemCandidate).insertionSort (fun i i' => i.portableObjectId ≤ i'.portableObjectId)

section

variable (db : SnapshotDb) (id after : String)

theorem itemCandidates_eq (limit : Nat) :
    itemCandidates db id after limit = (itemsAfter db id after).take limit := rfl

theorem mem_itemsAfter (candidate : ItemCandidate) :
    candidate ∈ itemsAfter db id after ↔ ∃ i ∈ itemsOf db id, after < i.portableObjectId ∧
      itemCandidate i = some candidate := by
  unfold itemsAfter
  rw [List.mem_insertionSort, List.mem_filterMap]
  simp only [List.mem_filter, decide_eq_true_eq, and_assoc]

theorem itemCandidate_some (i : IntelligenceItemRow) (candidate : ItemCandidate)
    (h : itemCandidate i = some candidate) :
    candidate.portableObjectId = i.portableObjectId ∧ candidate.itemId = i.itemId ∧
      i.stored = some candidate.stored := by
  unfold itemCandidate at h
  rw [Option.map_eq_some_iff] at h
  rcases h with ⟨stored, hstored, rfl⟩
  exact ⟨rfl, rfl, hstored⟩

theorem itemsAfter_cover (hcap : Captured id db)
    (i : IntelligenceItemRow) (hi : i ∈ itemsOf db id) (hafter : after < i.portableObjectId) :
    i.portableObjectId ∈ (itemsAfter db id after).map ItemCandidate.portableObjectId := by
  rcases Option.isSome_iff_exists.mp (hcap.items_stored i hi) with ⟨stored, hstored⟩
  have hcandidate : itemCandidate i = some
      { itemId := i.itemId
        portableObjectId := i.portableObjectId
        sourceObjectKey := i.sourceObjectKey
        contentSha256 := i.contentSha256
        byteLength := i.byteLength
        stored := stored } := by
    unfold itemCandidate
    rw [hstored]
    rfl
  exact List.mem_map.mpr ⟨_, (mem_itemsAfter db id after _).mpr ⟨i, hi, hafter, hcandidate⟩, rfl⟩

theorem itemsAfter_pairwise (hcap : Captured id db) :
    ((itemsAfter db id after).map ItemCandidate.portableObjectId).Pairwise (· < ·) := by
  have hsorted : ((itemsAfter db id after).map ItemCandidate.portableObjectId).Pairwise (· ≤ ·) := by
    rw [List.pairwise_map]
    exact List.pairwise_insertionSort
      (fun i i' : ItemCandidate => i.portableObjectId ≤ i'.portableObjectId) _
  have hapart : (((itemsOf db id).filter (fun i => after < i.portableObjectId)).filterMap
      itemCandidate).Pairwise (fun c c' => c.portableObjectId ≠ c'.portableObjectId) := by
    rw [List.pairwise_filterMap]
    refine (List.Pairwise.filter _ (List.pairwise_map.mp hcap.items_distinct)).imp ?_
    intro i i' hne c hc c' hc'
    rw [(itemCandidate_some i c hc).1, (itemCandidate_some i' c' hc').1]
    exact hne
  have hdistinct : ((itemsAfter db id after).map ItemCandidate.portableObjectId).Nodup :=
    (((List.perm_insertionSort _ _).map _).nodup_iff).mpr (List.pairwise_map.mpr hapart)
  exact (hsorted.and hdistinct).imp (fun h => lt_of_le_of_ne h.1 h.2)

end

/-! ## Candidates -/

/-- A candidate is as the tables have it, or what it is for was found. -/
def Due (id : String) (s : Sighted) : RepairCandidate → Prop
  | .content c =>
      (∀ e ∈ entriesOf s.state.db id, e.portableObjectId = c.group.portableObjectId →
        Found s (entryReceipt s.state.db e) ∨ e.recoveryObjectId = some c.recoveryObjectId ∧
          ∃ ciphertext, c.stored = some ciphertext ∧ entryReceipt s.state.db e =
            some { toCiphertext := ciphertext, key := c.objectKey }) ∧
      ∀ i ∈ itemsOf s.state.db id, i.portableObjectId ≠ c.group.portableObjectId
  | .intelligence c =>
      (∀ i ∈ itemsOf s.state.db id, i.portableObjectId = c.portableObjectId →
        Found s i.stored ∨ i.itemId = c.itemId ∧ i.stored = some c.stored) ∧
      ∀ e ∈ entriesOf s.state.db id, e.portableObjectId ≠ c.portableObjectId

theorem due_moves (id : String) (s t : Sighted) (c : RepairCandidate) (hmoves : Moves id s t)
    (h : Due id s c) : Due id t c := by
  -- No row has a portable object that none had before.
  have hport : ∀ e f : SnapshotEntryRow, f.group = e.group →
      f.portableObjectId = e.portableObjectId := fun _ _ hgroup =>
    congrArg GroupKey.portableObjectId hgroup
  cases c with
  | content c =>
      constructor
      · intro f hf hp
        rcases hmoves.entries f hf with ⟨e, he, hgroup, hfound | ⟨hrec, hsame⟩⟩
        · exact Or.inl hfound
        · rw [hrec, hsame]
          rcases h.1 e he ((hport e f hgroup).symm.trans hp) with hfound | hrest
          · exact Or.inl (found_of_subset s t _ hmoves.seen hfound)
          · exact Or.inr hrest
      · intro j hj
        rcases hmoves.items j hj with ⟨i, hi, hp, -⟩
        rw [hp]
        exact h.2 i hi
  | intelligence c =>
      constructor
      · intro j hj hp
        rcases hmoves.items j hj with ⟨i, hi, hport', hfound | ⟨hitem, hsame⟩⟩
        · exact Or.inl hfound
        · rw [hitem, hsame]
          rcases h.1 i hi (hport'.symm.trans hp) with hfound | hrest
          · exact Or.inl (found_of_subset s t _ hmoves.seen hfound)
          · exact Or.inr hrest
      · intro f hf
        rcases hmoves.entries f hf with ⟨e, he, hgroup, -⟩
        rw [hport e f hgroup]
        exact h.2 e he

theorem content_due (id after : String) (s : Sighted) (hcap : Captured id s.state.db)
    (c : ContentCandidate) (h : c ∈ contentsAfter s.state.db id after) : Due id s (.content c) := by
  rcases mem_contentsAfter _ id after hcap c h with
    ⟨e, he, -, hgroup, hnames, ciphertext, hstored, hreceipt⟩
  have hport : c.group.portableObjectId = e.portableObjectId :=
    congrArg GroupKey.portableObjectId hgroup
  constructor
  · intro f hf hp
    have hrec := (hcap.entries_same f hf e he (hp.trans hport)).2
    refine Or.inr ⟨hrec.trans hnames, ciphertext, hstored, ?_⟩
    rw [← hreceipt, entryReceipt, entryReceipt, hrec]
  · intro i hi
    rw [hport]
    exact (hcap.apart e he i hi).symm

theorem item_due (id after : String) (s : Sighted) (hcap : Captured id s.state.db)
    (c : ItemCandidate) (h : c ∈ itemsAfter s.state.db id after) :
    Due id s (.intelligence c) := by
  rcases (mem_itemsAfter _ id after c).mp h with ⟨i, hi, -, hc⟩
  rcases itemCandidate_some i c hc with ⟨hport, hitem, hstored⟩
  constructor
  · intro j hj hp
    have hsame := List.inj_on_of_nodup_map hcap.items_distinct hj hi (hp.trans hport)
    subst hsame
    exact Or.inr ⟨hitem.symm, hstored⟩
  · intro e he
    rw [hport]
    exact hcap.apart e he i hi

/-- The candidates that a request reads after a portable object. -/
def candidatesOf (params : SnapshotParams) (db : SnapshotDb) (id after : String) :
    List RepairCandidate :=
  mergeCandidates params (contentCandidates db id after (snapshotRepairBatchSize + 1))
    (itemCandidates db id after (snapshotRepairBatchSize + 1))

theorem candidatesOf_due (params : SnapshotParams) (id after : String) (s : Sighted)
    (hcap : Captured id s.state.db) (c : RepairCandidate)
    (h : c ∈ candidatesOf params s.state.db id after) : Due id s c := by
  unfold candidatesOf mergeCandidates at h
  rw [List.mem_insertionSort, List.mem_append, List.mem_map, List.mem_map] at h
  rcases h with ⟨c, hc, rfl⟩ | ⟨c, hc, rfl⟩
  · exact content_due id after s hcap c (List.mem_of_mem_take hc)
  · exact item_due id after s hcap c (List.mem_of_mem_take hc)

/-! ## Coverage -/

/-- The order of the locale is that of the database, on the portable objects of a
    snapshot. -/
def LocaleOrders (params : SnapshotParams) (ids : List String) : Prop :=
  ∀ p ∈ ids, ∀ q ∈ ids, (params.localeBefore p q = true ↔ p ≤ q)

instance (params : SnapshotParams) (ids : List String) : Decidable (LocaleOrders params ids) :=
  inferInstanceAs (Decidable (∀ p ∈ ids, ∀ q ∈ ids, _))

/-- The portable objects that the candidates of a request are for. -/
def candidateIds (params : SnapshotParams) (db : SnapshotDb) (id after : String) : List String :=
  (candidatesOf params db id after).map RepairCandidate.portableObjectId

section

variable (params : SnapshotParams) (db : SnapshotDb) (id after : String)

/-- They are the first of each kind, in order. -/
theorem candidateIds_eq (hcap : Captured id db) (hlocale : LocaleOrders params (portables db id)) :
    candidateIds params db id after =
      (((contentsAfter db id after).map (fun c => c.group.portableObjectId)).take
          (snapshotRepairBatchSize + 1) ++
        ((itemsAfter db id after).map ItemCandidate.portableObjectId).take
          (snapshotRepairBatchSize + 1)).insertionSort (· ≤ ·) := by
  have hmem : ∀ c ∈ (contentCandidates db id after (snapshotRepairBatchSize + 1)).map
      RepairCandidate.content ++ (itemCandidates db id after (snapshotRepairBatchSize + 1)).map
        RepairCandidate.intelligence, c.portableObjectId ∈ portables db id := by
    intro c hc
    rw [List.mem_append, List.mem_map, List.mem_map] at hc
    rcases hc with ⟨c, hc, rfl⟩ | ⟨c, hc, rfl⟩
    · rcases mem_contentsAfter db id after hcap c (List.mem_of_mem_take hc) with ⟨e, he, -, hgroup, -⟩
      refine List.mem_append_left _ (List.mem_map.mpr ⟨e, he, ?_⟩)
      exact (congrArg GroupKey.portableObjectId hgroup).symm
    · rcases (mem_itemsAfter db id after c).mp (List.mem_of_mem_take hc) with ⟨i, hi, -, hcand⟩
      exact List.mem_append_right _
        (List.mem_map.mpr ⟨i, hi, (itemCandidate_some i c hcand).1.symm⟩)
  unfold candidateIds candidatesOf mergeCandidates
  rw [List.map_insertionSort (s := (· ≤ ·)) _ _ _
    (fun c hc d hd => hlocale _ (hmem c hc) _ (hmem d hd)), List.map_append, List.map_map,
    List.map_map, contentCandidates_eq, itemCandidates_eq, List.map_take, List.map_take]
  rfl

theorem candidateIds_pairwise (hcap : Captured id db) (hlocale : LocaleOrders params (portables db id)) :
    (candidateIds params db id after).Pairwise (· < ·) := by
  have hcontents := contentsAfter_pairwise db id after hcap
  have hitems := itemsAfter_pairwise db id after hcap
  rw [candidateIds_eq params db id after hcap hlocale]
  have hnodup := ((List.perm_insertionSort (· ≤ ·)
      (((contentsAfter db id after).map (fun c => c.group.portableObjectId)).take
          (snapshotRepairBatchSize + 1) ++
        ((itemsAfter db id after).map ItemCandidate.portableObjectId).take
          (snapshotRepairBatchSize + 1))).nodup_iff).mpr (by
    rw [List.nodup_append]
    refine ⟨(hcontents.imp ne_of_lt).sublist (List.take_sublist _ _),
      (hitems.imp ne_of_lt).sublist (List.take_sublist _ _), ?_⟩
    intro p hp q hq
    rcases List.mem_map.mp (List.mem_of_mem_take hp) with ⟨c, hc, rfl⟩
    rcases List.mem_map.mp (List.mem_of_mem_take hq) with ⟨d, hd, rfl⟩
    rcases mem_contentsAfter db id after hcap c hc with ⟨e, he, -, hgroup, -⟩
    rcases (mem_itemsAfter db id after d).mp hd with ⟨i, hi, -, hcand⟩
    rw [(itemCandidate_some i d hcand).1,
      show c.group.portableObjectId = e.portableObjectId from
        congrArg GroupKey.portableObjectId hgroup]
    exact hcap.apart e he i hi)
  exact ((List.pairwise_insertionSort (· ≤ ·) _).and hnodup).imp
    (fun h => lt_of_le_of_ne h.1 h.2)

/-- Whatever lies between the identifier a request starts from and the one it answers with is
    among what it looks at. -/
theorem mem_candidates (hcap : Captured id db) (hlocale : LocaleOrders params (portables db id)) (p : String)
    (hp : p ∈ portables db id) (hafter : after < p)
    (hnext : ∀ next, nextPortableObjectId (candidatesOf params db id after) = some next →
      p ≤ next) :
    ∃ c ∈ (candidatesOf params db id after).take snapshotRepairBatchSize,
      c.portableObjectId = p := by
  have hsorted := candidateIds_pairwise params db id after hcap hlocale
  have hlast : ∀ last, snapshotRepairBatchSize < (candidateIds params db id after).length →
      ((candidateIds params db id after).take snapshotRepairBatchSize).getLast? = some last →
        p ≤ last := by
    intro last hlong hlast
    refine hnext last ?_
    unfold candidateIds at hlong hlast
    rw [List.length_map] at hlong
    rw [← List.map_take, List.getLast?_map] at hlast
    unfold nextPortableObjectId
    rw [if_pos hlong, hlast]
  have hmem : p ∈ (candidateIds params db id after).take snapshotRepairBatchSize := by
    rcases List.mem_append.mp hp with hp | hp
    · rcases List.mem_map.mp hp with ⟨e, he, rfl⟩
      refine Keyset.mem_take_of_merged (fun x => x) _ _ _ (by decide)
        (contentsAfter_pairwise db id after hcap) hsorted ?_ _
        (contentsAfter_cover db id after hcap e he hafter) hlast
      intro q hq
      rw [candidateIds_eq params db id after hcap hlocale, List.mem_insertionSort]
      exact List.mem_append_left _ hq
    · rcases List.mem_map.mp hp with ⟨i, hi, rfl⟩
      refine Keyset.mem_take_of_merged (fun x => x) _ _ _ (by decide)
        (itemsAfter_pairwise db id after hcap) hsorted ?_ _
        (itemsAfter_cover db id after hcap i hi hafter) hlast
      intro q hq
      rw [candidateIds_eq params db id after hcap hlocale, List.mem_insertionSort]
      exact List.mem_append_right _ hq
  unfold candidateIds at hmem
  rw [← List.map_take] at hmem
  exact List.mem_map.mp hmem

end

end Mdevolved.Snapshot
