import Mdevolved.Lead.Calls
import Mdevolved.Lib.Ledger

/-!
# Budgets of Runs

The budget of an elastic Run is kept three times over: as what has been used of it,
as the entries it was used by, and as a version for each of them. An entry is taken
from it by three statements of one batch. The first advances the budget where it is
still at the version that was read and the entry fits, the second records a version
where the budget then has what was computed, and the third inserts the entry, which
refers to that version. None of them fails where the budget has moved on. Then the
budget stays as it is, and either there is no version for the entry to refer to or
there is one already that another entry led to, so the batch fails as a whole.

A batch that is not accepted leaves no trace in the budget, in its versions and
entries, in bundles and claims, and in what Runs count. Only the batch that a call
ends with changes those, and once it is answered the call has its result.

## Main definitions

* `Accounted`: A budget is what its entries have used of it.
* `BudgetLedger`: Every budget is accounted for.
* `Charged`: An entry was taken from a budget.
* `accounts`: What a batch that is not accepted leaves as it was.

## Theorems

* `accountEntry_passes`: An entry only goes through where it is taken from a budget.
* `exec_ledger`: Every request leaves the budgets accounted for.
* `exec_accounts`: Only the batch that a call ends with changes what is accounted.
* `budgets_accounted`: Budgets in every run.
-/

namespace Mdevolved.Lead

open Batch Process

/-! ## What a budget has been used for -/

def entriesOf (db : LeadDb) (budgetId : String) : List RunBudgetEntryRow :=
  db.budgetEntries.filter (fun e => e.budgetId = budgetId)

def versionsOf (db : LeadDb) (budgetId : String) : List RunBudgetVersionRow :=
  db.budgetVersions.filter (fun v => v.budgetId = budgetId)

/-- What an entry takes from a budget, in logical units and in cost. -/
def RunBudgetEntryRow.usage (e : RunBudgetEntryRow) : Nat × Nat :=
  (e.logicalUnits, e.costMicrounits)

def RunBudgetRow.used (b : RunBudgetRow) : Nat × Nat :=
  (b.logicalUnitsUsed, b.costMicrounitsUsed)

/-- The balance that a version records. -/
def RunBudgetVersionRow.balance (v : RunBudgetVersionRow) : Nat × (Nat × Nat) :=
  (v.budgetVersion, (v.logicalUnitsUsed, v.costMicrounitsUsed))

/-- A budget is what its entries have used of it, which is within its limits, and
    there is a version for every number of entries it has had. -/
structure Accounted (db : LeadDb) (b : RunBudgetRow) : Prop where
  used : b.used = ((entriesOf db b.budgetId).map RunBudgetEntryRow.usage).sum
  logicalUnits : b.logicalUnitsUsed ≤ b.logicalUnitLimit
  costMicrounits : b.costMicrounitsUsed ≤ b.costMicrounitLimit
  version : b.accountingVersion = (entriesOf db b.budgetId).length
  numbered : (entriesOf db b.budgetId).map RunBudgetEntryRow.budgetVersion =
    (List.range (entriesOf db b.budgetId).length).map (fun k => k + 1)
  balances : (versionsOf db b.budgetId).map RunBudgetVersionRow.balance =
    Ledger.prefixSums RunBudgetEntryRow.usage (entriesOf db b.budgetId)

/-- Every budget is accounted for, and every entry and version is one of a budget. -/
structure BudgetLedger (db : LeadDb) : Prop where
  keys : (db.budgets.map RunBudgetRow.budgetId).Nodup
  accounted : ∀ b ∈ db.budgets, Accounted db b
  entries : ∀ e ∈ db.budgetEntries, ∃ b ∈ db.budgets, b.budgetId = e.budgetId
  versions : ∀ v ∈ db.budgetVersions, ∃ b ∈ db.budgets, b.budgetId = v.budgetId

/-- The versions of a budget are numbered from none to all of its entries. -/
theorem Accounted.version_mem {db : LeadDb} {b : RunBudgetRow} (h : Accounted db b) (k : Nat) :
    (∃ v ∈ db.budgetVersions, v.budgetId = b.budgetId ∧ v.budgetVersion = k) ↔
      k ≤ b.accountingVersion := by
  have hnumbers : ((versionsOf db b.budgetId).map RunBudgetVersionRow.budgetVersion) =
      List.range (b.accountingVersion + 1) := by
    have hfst := congrArg (List.map Prod.fst) h.balances
    rw [Ledger.prefixSums, List.map_map, List.map_map] at hfst
    rw [h.version]
    exact hfst.trans (List.map_id _)
  rw [← Nat.lt_succ_iff, ← List.mem_range, ← hnumbers, List.mem_map]
  constructor
  · rintro ⟨v, hv, hid, hk⟩
    exact ⟨v, List.mem_filter.mpr ⟨hv, decide_eq_true hid⟩, hk⟩
  · rintro ⟨v, hv, hk⟩
    rcases List.mem_filter.mp hv with ⟨hmem, hid⟩
    exact ⟨v, hmem, of_decide_eq_true hid, hk⟩

/-- The entries of a budget are numbered from one. -/
theorem Accounted.entry_mem {db : LeadDb} {b : RunBudgetRow} (h : Accounted db b) (k : Nat)
    (hk : k < b.accountingVersion) :
    ∃ e ∈ db.budgetEntries, e.budgetId = b.budgetId ∧ e.budgetVersion = k + 1 := by
  have hmem : k + 1 ∈ (entriesOf db b.budgetId).map RunBudgetEntryRow.budgetVersion := by
    rw [h.numbered]
    exact List.mem_map.mpr ⟨k, List.mem_range.mpr (by rw [← h.version]; exact hk), rfl⟩
  rcases List.mem_map.mp hmem with ⟨e, he, hnumber⟩
  rcases List.mem_filter.mp he with ⟨he', hid⟩
  exact ⟨e, he', of_decide_eq_true hid, hnumber⟩

theorem BudgetLedger.unique {db : LeadDb} (h : BudgetLedger db) (b b' : RunBudgetRow)
    (hb : b ∈ db.budgets) (hb' : b' ∈ db.budgets) (heq : b.budgetId = b'.budgetId) : b = b' :=
  List.inj_on_of_nodup_map h.keys hb hb' heq

/-! ## Taking an entry from a budget -/

/-- A budget after an entry was taken from it. -/
def RunBudgetRow.charged (b : RunBudgetRow) (entry : BudgetEntry) (now : Nat) : RunBudgetRow :=
  { b with
    logicalUnitsUsed := b.logicalUnitsUsed + entry.logicalUnits
    costMicrounitsUsed := b.costMicrounitsUsed + entry.costMicrounits
    accountingVersion := b.accountingVersion + 1
    updatedAt := now }

/-- The version that a budget is at. -/
def RunBudgetRow.recorded (b : RunBudgetRow) (now : Nat) : RunBudgetVersionRow :=
  { budgetId := b.budgetId
    budgetVersion := b.accountingVersion
    logicalUnitsUsed := b.logicalUnitsUsed
    costMicrounitsUsed := b.costMicrounitsUsed
    recordedAt := now }

/-- An entry was taken from a budget that was at the version before, and has recorded
    what it came to. -/
structure Charged (entry : BudgetEntry) (now version : Nat) (b : RunBudgetRow)
    (db db' : LeadDb) : Prop where
  mem : b ∈ db.budgets
  id : b.budgetId = entry.budgetId
  current : b.accountingVersion = version
  fits : b.fits entry.logicalUnits entry.costMicrounits = true
  budgets : db'.budgets = Table.update (fun b' => b'.budgetId = entry.budgetId)
    (fun b' => b'.charged entry now) db.budgets
  versions : db'.budgetVersions = db.budgetVersions ++ [(b.charged entry now).recorded now]
  entries : db'.budgetEntries =
    db.budgetEntries ++ [{ entry with budgetVersion := version + 1 }]

section

variable (selects : RunBudgetRow → Bool) (now version logicalUnitsUsed costMicrounitsUsed : Nat)
  (entry : BudgetEntry)

/-- The budgets that an entry is taken from. -/
def chargeable (b : RunBudgetRow) : Bool :=
  b.budgetId = entry.budgetId && selects b && b.accountingVersion = version &&
    b.fits entry.logicalUnits entry.costMicrounits

/-- The budgets of which a version is recorded. -/
def recordable (b : RunBudgetRow) : Bool :=
  b.budgetId = entry.budgetId && b.accountingVersion = version + 1 &&
    b.logicalUnitsUsed = logicalUnitsUsed && b.costMicrounitsUsed = costMicrounitsUsed

theorem accountEntry_written (db : LeadDb) :
    written (accountEntry selects now version logicalUnitsUsed costMicrounitsUsed entry) db =
      { db with
        budgets := Table.update (chargeable selects version entry)
          (fun b => b.charged entry now) db.budgets
        budgetVersions := db.budgetVersions ++
          ((Table.update (chargeable selects version entry) (fun b => b.charged entry now)
            db.budgets).filter (recordable version logicalUnitsUsed costMicrounitsUsed entry)).map
              (fun b => b.recorded now)
        budgetEntries := db.budgetEntries ++ [{ entry with budgetVersion := version + 1 }] } := rfl

/-- An entry does not lead to a version that another has led to. -/
theorem entry_fresh (rows : List RunBudgetEntryRow) (e : RunBudgetEntryRow)
    (h : rows.all (fun e' => !(e'.budgetId = e.budgetId && e'.budgetVersion = e.budgetVersion)) =
      true) : ∀ e' ∈ rows, ¬ (e'.budgetId = e.budgetId ∧ e'.budgetVersion = e.budgetVersion) := by
  intro e' he' hsame
  have hnot := List.all_eq_true.mp h e' he'
  rw [hsame.1, hsame.2, decide_eq_true rfl, decide_eq_true rfl] at hnot
  cases hnot

/-- An entry only goes through where it is taken from a budget. Where the budget has
    moved on, the version is recorded already or the entry has no version to refer to. -/
theorem accountEntry_passes (db : LeadDb) (hl : BudgetLedger db)
    (h : Passes (accountEntry selects now version logicalUnitsUsed costMicrounitsUsed entry) db) :
    ∃ b, Charged entry now version b db
      (written (accountEntry selects now version logicalUnitsUsed costMicrounitsUsed entry)
        db) := by
  rcases h with ⟨-, -, -, -, hentry, hforeign, -⟩
  have hnumbered := Write.insertAll_fresh _ _ _ _ _ _ _ entry_fresh hentry
    { entry with budgetVersion := version + 1 } (List.mem_singleton_self _)
  have hreferred := (Write.require_passes _ _ _).mp hforeign
  simp only [Bool.and_eq_true, List.any_eq_true, decide_eq_true_eq] at hreferred
  rcases hreferred.1.1 with ⟨v, hv, hvid, hvversion⟩
  -- A budget that is past the version already has an entry that led there.
  have hpast : ∀ b ∈ db.budgets, b.budgetId = entry.budgetId → ¬ version < b.accountingVersion := by
    intro b hb hid hlt
    rcases (hl.accounted b hb).entry_mem version hlt with ⟨e, he, heid, hnumber⟩
    exact hnumbered e he ⟨heid.trans hid, hnumber⟩
  rw [accountEntry_written]
  change v ∈ db.budgetVersions ++ _ at hv
  rcases List.mem_append.mp hv with hold | hnew
  · rcases hl.versions v hold with ⟨b, hb, hid⟩
    have hle := ((hl.accounted b hb).version_mem (version + 1)).mp ⟨v, hold, hid.symm, hvversion⟩
    exact absurd hle (hpast b hb (hid.trans hvid))
  · rcases List.mem_map.mp hnew with ⟨b', hb', rfl⟩
    rcases List.mem_filter.mp hb' with ⟨hmem, hrec⟩
    rcases Table.mem_update _ _ _ _ hmem with ⟨b, hb, ⟨hcharge, hb''⟩ | ⟨-, rfl⟩⟩
    · have hcharge' := hcharge
      simp only [Bool.and_eq_true, decide_eq_true_eq] at hcharge'
      rcases hcharge' with ⟨⟨⟨hid, -⟩, hcurrent⟩, hfits⟩
      have honly : ∀ t ∈ db.budgets, t.budgetId = entry.budgetId → t = b :=
        fun t ht htid => hl.unique t b ht hb (htid.trans hid.symm)
      refine ⟨b, hb, hid, hcurrent, hfits, ?_, ?_, rfl⟩
      · refine Table.update_congr _ _ _ _ _ (fun t ht => ⟨?_, rfl⟩)
        by_cases htid : t.budgetId = entry.budgetId
        · rw [honly t ht htid, decide_eq_true hid]
          exact hcharge
        · rw [decide_eq_false htid, chargeable, decide_eq_false htid]
          rfl
      · -- The budget that was charged is the only one of which a version is recorded.
        have hkeys : ((Table.update (chargeable selects version entry)
            (fun b => b.charged entry now) db.budgets).map RunBudgetRow.budgetId).Nodup := by
          rw [Table.map_update RunBudgetRow.budgetId _ (fun b => b.charged entry now) (fun _ => rfl)]
          exact hl.keys
        have hselected := Table.filter_of_key RunBudgetRow.budgetId
          (recordable version logicalUnitsUsed costMicrounitsUsed entry) _ b' hkeys hmem hrec
          (fun t _ ht => ?_)
        · dsimp only
          rw [hselected, hb'']
          rfl
        · simp only [recordable, Bool.and_eq_true, decide_eq_true_eq] at ht
          rw [hb'']
          exact ht.1.1.1.trans hid.symm
    · -- One that was not charged is past the version too.
      simp only [Bool.and_eq_true, decide_eq_true_eq] at hrec
      exact absurd (by omega) (hpast b' hb hrec.1.1.1)

end

theorem Charged.entriesOf {entry : BudgetEntry} {now version : Nat} {b : RunBudgetRow}
    {db db' : LeadDb} (h : Charged entry now version b db db') (budgetId : String) :
    entriesOf db' budgetId = entriesOf db budgetId ++
      if entry.budgetId = budgetId then [{ entry with budgetVersion := version + 1 }] else [] := by
  unfold Lead.entriesOf
  rw [h.entries, List.filter_append, List.filter_singleton, Bool.cond_decide]

theorem Charged.versionsOf {entry : BudgetEntry} {now version : Nat} {b : RunBudgetRow}
    {db db' : LeadDb} (h : Charged entry now version b db db') (budgetId : String) :
    versionsOf db' budgetId = versionsOf db budgetId ++
      if entry.budgetId = budgetId then [(b.charged entry now).recorded now] else [] := by
  unfold Lead.versionsOf
  have hsame : ((b.charged entry now).recorded now).budgetId = entry.budgetId := h.id
  rw [h.versions, List.filter_append, List.filter_singleton, hsame, Bool.cond_decide]

/-- Budgets that nothing was taken from are accounted for as before. -/
theorem Accounted.of_same {db db' : LeadDb} {b : RunBudgetRow} (h : Accounted db b)
    (hentries : Lead.entriesOf db' b.budgetId = Lead.entriesOf db b.budgetId)
    (hversions : Lead.versionsOf db' b.budgetId = Lead.versionsOf db b.budgetId) :
    Accounted db' b := by
  constructor
  · rw [hentries]; exact h.used
  · exact h.logicalUnits
  · exact h.costMicrounits
  · rw [hentries]; exact h.version
  · rw [hentries]; exact h.numbered
  · rw [hentries, hversions]; exact h.balances

/-- The budget that an entry was taken from has used that much more. -/
theorem Charged.accounted {entry : BudgetEntry} {now version : Nat} {b : RunBudgetRow}
    {db db' : LeadDb} (h : Charged entry now version b db db') (hb : Accounted db b) :
    Accounted db' (b.charged entry now) := by
  have hentries := h.entriesOf b.budgetId
  have hversions := h.versionsOf b.budgetId
  rw [if_pos h.id.symm] at hentries hversions
  have hlength : (Lead.entriesOf db' b.budgetId).length =
      (Lead.entriesOf db b.budgetId).length + 1 := by
    rw [hentries, List.length_append, List.length_singleton]
  have hused : (b.charged entry now).used = b.used + (entry.logicalUnits, entry.costMicrounits) :=
    rfl
  have hfits := h.fits
  rw [RunBudgetRow.fits, Bool.and_eq_true, decide_eq_true_eq, decide_eq_true_eq] at hfits
  refine ⟨?_, hfits.1, hfits.2, ?_, ?_, ?_⟩
  · change _ = ((Lead.entriesOf db' b.budgetId).map RunBudgetEntryRow.usage).sum
    rw [hentries, List.map_append, List.sum_append, ← hb.used, hused, List.map_singleton,
      List.sum_singleton]
    rfl
  · change b.accountingVersion + 1 = (Lead.entriesOf db' b.budgetId).length
    rw [hlength, hb.version]
  · change (Lead.entriesOf db' b.budgetId).map RunBudgetEntryRow.budgetVersion =
      (List.range (Lead.entriesOf db' b.budgetId).length).map (fun k => k + 1)
    rw [hlength, hentries, List.map_append, hb.numbered, List.range_succ, List.map_append,
      List.map_singleton, List.map_singleton, ← hb.version, h.current]
  · change (Lead.versionsOf db' b.budgetId).map RunBudgetVersionRow.balance =
      Ledger.prefixSums RunBudgetEntryRow.usage (Lead.entriesOf db' b.budgetId)
    rw [hversions, hentries, List.map_append, hb.balances, Ledger.prefixSums_concat,
      Ledger.upTo_length, ← hb.used, List.map_singleton, ← hb.version]
    rfl

/-- An entry that goes through leaves all budgets accounted for. -/
theorem Charged.ledger {entry : BudgetEntry} {now version : Nat} {b : RunBudgetRow}
    {db db' : LeadDb} (h : Charged entry now version b db db') (hl : BudgetLedger db) :
    BudgetLedger db' := by
  have hkept : ∀ t ∈ db.budgets, ∃ t' ∈ db'.budgets, t'.budgetId = t.budgetId := by
    intro t ht
    rw [h.budgets]
    refine ⟨_, Table.update_mem _ _ _ t ht, ?_⟩
    split
    · rfl
    · rfl
  refine ⟨?_, ?_, ?_, ?_⟩
  · rw [h.budgets, Table.map_update RunBudgetRow.budgetId _ (fun b' => b'.charged entry now)
      (fun _ => rfl)]
    exact hl.keys
  · intro t' ht'
    rw [h.budgets] at ht'
    rcases Table.mem_update _ _ _ _ ht' with ⟨t, ht, ⟨hid, rfl⟩ | ⟨hid, rfl⟩⟩
    · have hsame : t = b := hl.unique t b ht h.mem ((of_decide_eq_true hid).trans h.id.symm)
      rw [hsame]
      exact h.accounted (hl.accounted b h.mem)
    · have hother : ¬ entry.budgetId = t'.budgetId := fun heq => of_decide_eq_false hid heq.symm
      refine (hl.accounted t' ht).of_same ?_ ?_
      · rw [h.entriesOf, if_neg hother, List.append_nil]
      · rw [h.versionsOf, if_neg hother, List.append_nil]
  · intro e he
    rw [h.entries] at he
    rcases List.mem_append.mp he with hold | hnew
    · rcases hl.entries e hold with ⟨t, ht, hid⟩
      rcases hkept t ht with ⟨t', ht', hid'⟩
      exact ⟨t', ht', hid'.trans hid⟩
    · rcases hkept b h.mem with ⟨t', ht', hid'⟩
      rw [List.mem_singleton.mp hnew]
      exact ⟨t', ht', hid'.trans h.id⟩
  · intro v hv
    rw [h.versions] at hv
    rcases List.mem_append.mp hv with hold | hnew
    · rcases hl.versions v hold with ⟨t, ht, hid⟩
      rcases hkept t ht with ⟨t', ht', hid'⟩
      exact ⟨t', ht', hid'.trans hid⟩
    · rcases hkept b h.mem with ⟨t', ht', hid'⟩
      rw [List.mem_singleton.mp hnew]
      exact ⟨t', ht', hid'⟩

/-! ## What requests do to the budgets -/

/-- Whether budgets are accounted for depends on three tables only. -/
theorem BudgetLedger.congr {db db' : LeadDb} (hl : BudgetLedger db)
    (hbudgets : db'.budgets = db.budgets) (hversions : db'.budgetVersions = db.budgetVersions)
    (hentries : db'.budgetEntries = db.budgetEntries) : BudgetLedger db' := by
  refine ⟨?_, ?_, ?_, ?_⟩
  · rw [hbudgets]; exact hl.keys
  · intro b hb
    rw [hbudgets] at hb
    refine (hl.accounted b hb).of_same ?_ ?_
    · rw [entriesOf, hentries]; rfl
    · rw [versionsOf, hversions]; rfl
  · rw [hbudgets, hentries]; exact hl.entries
  · rw [hbudgets, hversions]; exact hl.versions

/-- One entry after the other. -/
theorem accountEntries_ledger (selects : RunBudgetRow → Bool) (now : Nat)
    (entries : List BudgetEntry) (version logicalUnitsUsed costMicrounitsUsed : Nat) (db : LeadDb)
    (hl : BudgetLedger db)
    (h : Passes (accountEntries selects now version logicalUnitsUsed costMicrounitsUsed entries)
      db) :
    BudgetLedger (written
      (accountEntries selects now version logicalUnitsUsed costMicrounitsUsed entries) db) := by
  induction entries generalizing version logicalUnitsUsed costMicrounitsUsed db with
  | nil => exact hl
  | cons entry entries ih =>
      rw [accountEntries, passes_append] at h
      rcases accountEntry_passes selects now version _ _ entry db hl h.1 with ⟨b, hcharged⟩
      rw [accountEntries, written_append]
      exact ih _ _ _ _ (hcharged.ledger hl) h.2

/-- A budget that is new has no entries, and the version it starts with. -/
theorem BudgetLedger.start {db db' : LeadDb} (hl : BudgetLedger db) (elastic : ElasticStart)
    (hfresh : ∀ t ∈ db.budgets, t.budgetId ≠ elastic.budgetId)
    (hbudgets : db'.budgets = db.budgets ++ [elastic.budget])
    (hversions : db'.budgetVersions = db.budgetVersions ++ [elastic.budget.recorded elastic.now])
    (hentries : db'.budgetEntries = db.budgetEntries) : BudgetLedger db' := by
  have hnone : entriesOf db' elastic.budgetId = [] := by
    rw [entriesOf, hentries]
    refine List.filter_eq_nil_iff.mpr (fun e he hid => ?_)
    rcases hl.entries e he with ⟨t, ht, htid⟩
    exact hfresh t ht (htid.trans (of_decide_eq_true hid))
  have hunversioned : versionsOf db elastic.budgetId = [] := by
    refine List.filter_eq_nil_iff.mpr (fun v hv hid => ?_)
    rcases hl.versions v hv with ⟨t, ht, htid⟩
    exact hfresh t ht (htid.trans (of_decide_eq_true hid))
  have hversionsOf : ∀ budgetId, versionsOf db' budgetId = versionsOf db budgetId ++
      if elastic.budgetId = budgetId then [elastic.budget.recorded elastic.now] else [] := by
    intro budgetId
    rw [versionsOf, hversions, List.filter_append, List.filter_singleton, Bool.cond_decide]
    rfl
  refine ⟨?_, ?_, ?_, ?_⟩
  · rw [hbudgets]
    exact Table.map_concat_nodup RunBudgetRow.budgetId db.budgets elastic.budget hl.keys hfresh
  · intro t ht
    rw [hbudgets] at ht
    rcases List.mem_append.mp ht with hold | hnew
    · refine (hl.accounted t hold).of_same ?_ ?_
      · rw [entriesOf, hentries]; rfl
      · -- The version of the new budget is none of an older one.
        rw [hversionsOf, if_neg (fun heq => hfresh t hold heq.symm), List.append_nil]
    · rw [List.mem_singleton.mp hnew]
      refine ⟨?_, Nat.zero_le _, Nat.zero_le _, ?_, ?_, ?_⟩
      · change _ = ((entriesOf db' elastic.budgetId).map RunBudgetEntryRow.usage).sum
        rw [hnone]
        rfl
      · change 0 = (entriesOf db' elastic.budgetId).length
        rw [hnone]
        rfl
      · change (entriesOf db' elastic.budgetId).map RunBudgetEntryRow.budgetVersion =
          (List.range (entriesOf db' elastic.budgetId).length).map (fun k => k + 1)
        rw [hnone]
        rfl
      · change (versionsOf db' elastic.budgetId).map RunBudgetVersionRow.balance =
          Ledger.prefixSums RunBudgetEntryRow.usage (entriesOf db' elastic.budgetId)
        rw [hnone, hversionsOf, hunversioned, if_pos rfl, Ledger.prefixSums_nil]
        rfl
  · intro e he
    rw [hentries] at he
    rcases hl.entries e he with ⟨t, ht, hid⟩
    exact ⟨t, by rw [hbudgets]; exact List.mem_append_left _ ht, hid⟩
  · intro v hv
    rw [hversions] at hv
    rcases List.mem_append.mp hv with hold | hnew
    · rcases hl.versions v hold with ⟨t, ht, hid⟩
      exact ⟨t, by rw [hbudgets]; exact List.mem_append_left _ ht, hid⟩
    · rw [List.mem_singleton.mp hnew]
      refine ⟨elastic.budget, ?_, rfl⟩
      rw [hbudgets]
      exact List.mem_append_right _ (List.mem_singleton_self _)

/-- An elastic Run starts with a budget that nothing was used of. -/
theorem startRun_ledger (b : StartRunBatch) (w : Outside) (db : LeadDb) (hl : BudgetLedger db)
    (h : Passes (b.writes w) db) : BudgetLedger (written (b.writes w) db) := by
  unfold StartRunBatch.writes at h ⊢
  cases helastic : b.elastic with
  | none => exact hl.congr rfl rfl rfl
  | some elastic =>
      rw [helastic] at h
      rcases h with ⟨-, -, -, -, -, -, -, -, hbudget, -⟩
      refine hl.start elastic ?_ rfl rfl rfl
      refine Write.insertAll_fresh _ _ _ _ _ _ (fun t r => t.budgetId ≠ r.budgetId) ?_ hbudget
        elastic.budget (List.mem_singleton_self _)
      intro rows r hadm t ht
      have hboth := List.all_eq_true.mp hadm t ht
      rw [Bool.and_eq_true, decide_eq_true_eq] at hboth
      exact hboth.1

/-- Exceptions and a receipt leave the budgets as they are. -/
theorem insertReceipt_ledger (liveFence : Bool) (exceptions : List ExceptionRow)
    (extraFence : LeadDb → Bool) (row : ReceiptRow) (db : LeadDb) (hl : BudgetLedger db) :
    BudgetLedger (written
      (insertExceptions liveFence exceptions ++ insertReceipt liveFence extraFence row) db) :=
  hl.congr rfl rfl rfl

/-- A batch of bundles takes its entries one after the other, and nothing else from
    the budgets. -/
theorem submitBundles_ledger (b : SubmitBundlesBatch) (w : Outside) (db : LeadDb)
    (hl : BudgetLedger db) (h : Passes (b.writes w) db) :
    BudgetLedger (written (b.writes w) db) := by
  unfold SubmitBundlesBatch.writes at h ⊢
  rw [List.append_assoc, passes_append, passes_append] at h
  rw [List.append_assoc, written_append]
  refine insertReceipt_ledger _ _ _ _ _ ?_
  rw [written_append]
  refine accountEntries_ledger _ _ _ _ _ _ _ ?_ h.1.2
  exact hl.congr rfl rfl rfl

/-- So do deltas and a receipt. -/
theorem deltas_ledger (deltas : List Elastic.PreparedDelta) (liveFence : Bool)
    (extraFence : LeadDb → Bool) (row : ReceiptRow) (db : LeadDb) (hl : BudgetLedger db) :
    BudgetLedger (written ([insertDeltas deltas] ++ insertReceipt liveFence extraFence row) db) :=
  hl.congr rfl rfl rfl

theorem submitBudgetEntry_ledger (b : SubmitBudgetEntryBatch) (w : Outside) (db : LeadDb)
    (hl : BudgetLedger db) (h : Passes (b.writes w) db) :
    BudgetLedger (written (b.writes w) db) := by
  unfold SubmitBudgetEntryBatch.writes at h ⊢
  rw [List.append_assoc, passes_append, passes_append] at h
  rw [List.append_assoc, written_append]
  refine deltas_ledger _ _ _ _ _ ?_
  rw [written_append]
  have hbefore : BudgetLedger (written [insertElasticRecords
      (b.entry.entryId :: b.deltas.map Elastic.PreparedDelta.elasticRecordId)] db) :=
    hl.congr rfl rfl rfl
  rcases accountEntry_passes _ _ _ _ _ _ _ hbefore h.1.2 with ⟨budget, hcharged⟩
  exact hcharged.ledger hbefore

/-- Every request leaves the budgets accounted for. -/
theorem exec_ledger (op : LeadOp) (w : Outside) (db : LeadDb) (hl : BudgetLedger db) :
    BudgetLedger (exec op w db).2 := by
  rcases exec_cases op w db with hsame | ⟨-, hpasses, hwritten, -⟩
  · rw [hsame]; exact hl
  · rw [hwritten]
    cases op with
    | startRun b => exact startRun_ledger b w db hl hpasses
    | submitBundles b => exact submitBundles_ledger b w db hl hpasses
    | submitBudgetEntry b => exact submitBudgetEntry_ledger b w db hl hpasses
    | _ => exact hl.congr rfl rfl rfl

/-! ## What is left as it was -/

/-- What a batch that is not accepted leaves as it was. -/
structure Accounts where
  budgets : List RunBudgetRow
  versions : List RunBudgetVersionRow
  entries : List RunBudgetEntryRow
  bundles : List EventBundleRow
  claims : List RunClaimRow
  /-- Of every Run, its actors, its bundles and their bytes. -/
  counters : List (String × Nat × Nat × Nat)

def RunRow.counters (run : RunRow) : String × Nat × Nat × Nat :=
  (run.runId, run.actorCount, run.bundleCount, run.logicalBytes)

def accounts (db : LeadDb) : Accounts :=
  { budgets := db.budgets
    versions := db.budgetVersions
    entries := db.budgetEntries
    bundles := db.bundles
    claims := db.claims
    counters := db.runs.map RunRow.counters }

/-- Requests that make no mutation leave the accounts as they are. -/
theorem exec_accounts (op : LeadOp) (w : Outside) (db : LeadDb) (h : op.operation = none) :
    accounts (exec op w db).2 = accounts db := by
  rcases exec_cases op w db with hsame | ⟨-, -, hwritten, -⟩
  · rw [hsame]
  · rw [hwritten]
    cases op with
    | startRun _ | registerActor _ | submitBundle _ | complete _ | registerActors _
    | submitBundles _ | recoverActor _ | submitBudgetEntry _ => cases h
    | _ => rfl

/-- A request that does not go through leaves the tables as they are, unless only
    its answer was lost. -/
theorem exec_error (op : LeadOp) (w : Outside) (db : LeadDb) (e : LeadError)
    (h : (exec op w db).1 = .error e) (hlost : w.outcome ≠ .lost)
    (hanswer : op.operation ≠ none) : (exec op w db).2 = db := by
  rcases exec_cases op w db with hsame | ⟨-, -, -, heq | hlost'⟩
  · exact hsame
  · rw [h] at heq
    cases op with
    | startRun _ | registerActor _ | submitBundle _ | complete _ | registerActors _
    | submitBundles _ | recoverActor _ | submitBudgetEntry _ => cases heq
    | _ => exact absurd rfl hanswer
  · exact absurd hlost' hlost

section

variable {ι : Type} [DecidableEq ι] (format : LeadFormat) (calls : ι → LeadCall)

/-- A step changes the accounts only where its call has a result then, unless the
    answer was lost. -/
theorem step_accounts (c : LeadPool ι) (e : ι × Outside)
    (hc : (c.calls e.1).Settles (fun op => op.operation ≠ none)) (hlost : e.2.outcome ≠ .lost)
    (hnone : ∀ result, (Pool.step exec c e).result e.1 ≠ some (.ok result)) :
    accounts (Pool.step exec c e).shared = accounts c.shared := by
  rcases Pool.step_shared exec c e with ⟨-, hsame⟩ | ⟨op, hnext, hstep⟩
  · rw [hsame]
  · rw [hstep]
    by_cases hop : op.operation = none
    · exact exec_accounts op e.2 c.shared hop
    · cases hanswer : (exec op e.2 c.shared).1 with
      | error error => rw [exec_error op e.2 c.shared error hanswer hlost hop]
      | ok r =>
          rcases Pool.step_settled c e op r hc hnext hop hanswer with ⟨result, hresult⟩
          exact absurd hresult (hnone result)

/-- In every run of the lead's functions every budget is what its entries have used
    of it, entry by entry, and no more than its limits. What a call does to budgets,
    bundles, claims and counters it does in the step that it succeeds with, except
    where the answer to that was lost: any other step, and so every step of a call
    that fails, leaves them as they are. -/
theorem budgets_accounted (es : List (ι × Outside)) :
    (∀ b ∈ (Pool.run exec (startPool format calls emptyDb) es).shared.budgets,
      Accounted (Pool.run exec (startPool format calls emptyDb) es).shared b) ∧
    ∀ pre e, e.2.outcome ≠ .lost →
      (∀ result, (Pool.run exec (startPool format calls emptyDb) (pre ++ [e])).result e.1 ≠
        some (.ok result)) →
      accounts (Pool.run exec (startPool format calls emptyDb) (pre ++ [e])).shared =
        accounts (Pool.run exec (startPool format calls emptyDb) pre).shared := by
  constructor
  · have hledger : BudgetLedger (Pool.run exec (startPool format calls emptyDb) es).shared := by
      refine Run.runFrom_keeps _ (fun c : LeadPool ι => BudgetLedger c.shared) (fun c e hl => ?_) _
        es ⟨List.nodup_nil, ?_, ?_, ?_⟩
      · rcases Pool.step_shared exec c e with ⟨-, hsame⟩ | ⟨op, -, hstep⟩
        · rw [hsame]; exact hl
        · rw [hstep]; exact exec_ledger op e.2 c.shared hl
      · exact fun b hb => absurd hb List.not_mem_nil
      · exact fun e he => absurd he List.not_mem_nil
      · exact fun v hv => absurd hv List.not_mem_nil
    exact hledger.accounted
  · intro pre e hlost hnone
    rw [Pool.run, Run.runFrom_concat] at hnone ⊢
    exact step_accounts _ e (run_settles format calls emptyDb pre e.1) hlost hnone

end

end Mdevolved.Lead
