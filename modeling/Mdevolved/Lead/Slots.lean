import Mdevolved.Lead.Calls

/-!
# Slots of Actors

The actors of an elastic Run take slots, and the plane and the account of the Run
say how many slots there are and how many of them are active. Completing a Run and
reconciling its expired actors take the numbers from the slots, or set them to what
the slots come to. Registering actors adds as many as slots are added. Replacing an
actor adds one and gives up the slot of the actor it replaces, if that is active: the
slot is read before the batch is made, and whether it is active is not looked at
again.

So the numbers are right as long as the slot of a replaced actor is as it was when it
was read. They are not where the actor expires in between and its slot is given up by
another call, since the batch then takes one off the number of active slots that is no
longer there. Nor is the number put right by what follows, until the expired actors of
the Run are reconciled once more.

## Main definitions

* `Counted`: The plane and the account of every Run count its slots.
* `SlotLedger`: What counting the slots rests on.
* `NamesRun`: Actors are added to a Run of the project.
* `SlotCurrent`: The slot of a replaced actor is as it was when it was read.
* `KeepsRuns`: Runs stay where they are.

## Theorems

* `SlotLedger.change`: What a batch does to the slots of one Run.
* `exec_slots`: Every request leaves the slots counted.
* `process_names`: Every function adds actors to a Run of the project.
* `slots_counted`: The slots in every run.
* `replacedLate_miscounted`: A slot that is given up meanwhile.
-/

namespace Mdevolved.Lead

open Batch Process

/-! ## Runs and what counts their slots -/

/-- What tells a Run apart, and the project it is of. -/
def RunRow.key (r : RunRow) : String × String :=
  (r.runId, r.projectId)

def ActorRow.runKey (a : ActorRow) : String × String :=
  (a.runId, a.projectId)

def ElasticPlaneRow.runKey (p : ElasticPlaneRow) : String × String :=
  (p.runId, p.projectId)

def ElasticAccountRow.runKey (a : ElasticAccountRow) : String × String :=
  (a.runId, a.projectId)

/-- A Run of a project. -/
def KnownRun (db : LeadDb) (projectId runId : String) : Prop :=
  (runId, projectId) ∈ db.runs.map RunRow.key

/-- Counters that say how many slots of a Run there are and how many of them are
    active, of which there is a limit to both. -/
structure Counts (db : LeadDb) (runId : String) (activeCount recordCount : Nat) : Prop where
  active : activeCount = activeSlotCount db runId
  records : recordCount = recordSlotCount db runId
  activeLimit : activeCount ≤ maxR3ActiveActors
  recordLimit : recordCount ≤ maxR3ActorRecords

/-- The plane and the account of every elastic Run count its slots. -/
structure Counted (db : LeadDb) : Prop where
  planes : ∀ p ∈ db.planes, Counts db p.runId p.activeActorCount p.actorRecordCount
  accounts : ∀ a ∈ db.accounts, Counts db a.runId a.activeActorCount a.actorRecordCount

/-- What counting the slots rests on: planes, accounts and actors are of Runs that
    are there, slots of Runs that have a plane, and an actor has one slot at most. -/
structure SlotLedger (db : LeadDb) : Prop where
  counted : Counted db
  runIds : ((db.runs.map RunRow.key).map Prod.fst).Nodup
  planes : db.planes.map ElasticPlaneRow.runKey ⊆ db.runs.map RunRow.key
  accounts : db.accounts.map ElasticAccountRow.runKey ⊆ db.runs.map RunRow.key
  actors : db.actors.map ActorRow.runKey ⊆ db.runs.map RunRow.key
  slots : db.slots.map ActorSlotRow.runId ⊆ db.planes.map ElasticPlaneRow.runId
  actorIds : (db.slots.map ActorSlotRow.actorId).Nodup

/-- A Run is of one project only. -/
theorem SlotLedger.project {db : LeadDb} (hl : SlotLedger db) {projectId projectId' runId : String}
    (h : (runId, projectId) ∈ db.runs.map RunRow.key)
    (h' : (runId, projectId') ∈ db.runs.map RunRow.key) : projectId = projectId' :=
  (Prod.mk.inj (List.inj_on_of_nodup_map hl.runIds h h' rfl)).2

theorem Counts.of_same {db db' : LeadDb} {runId : String} {activeCount recordCount : Nat}
    (h : Counts db runId activeCount recordCount)
    (hactive : activeSlotCount db' runId = activeSlotCount db runId)
    (hrecords : recordSlotCount db' runId = recordSlotCount db runId) :
    Counts db' runId activeCount recordCount :=
  ⟨h.active.trans hactive.symm, h.records.trans hrecords.symm, h.activeLimit, h.recordLimit⟩

/-- Counters stay right where they are changed for the only Run whose slots are. -/
theorem counts_update {ρ : Type} (key : ρ → String) (active records : ρ → Nat) (q : ρ → Bool)
    (f : ρ → ρ) (rows : List ρ) (db db' : LeadDb) (runId : String)
    (hother : ∀ id, id ≠ runId → activeSlotCount db' id = activeSlotCount db id ∧
      recordSlotCount db' id = recordSlotCount db id)
    (hkey : ∀ r, key (f r) = key r) (hq : ∀ r ∈ rows, q r = true ↔ key r = runId)
    (hcounts : ∀ r ∈ rows, q r = true → Counts db runId (active r) (records r) →
      Counts db' runId (active (f r)) (records (f r)))
    (h : ∀ r ∈ rows, Counts db (key r) (active r) (records r)) :
    ∀ r ∈ Table.update q f rows, Counts db' (key r) (active r) (records r) := by
  intro r hr
  rcases Table.mem_update _ _ _ _ hr with ⟨t, ht, ⟨hqt, rfl⟩ | ⟨hqt, rfl⟩⟩
  · have hid : key t = runId := (hq t ht).mp hqt
    rw [hkey, hid]
    exact hcounts t ht hqt (hid ▸ h t ht)
  · have hid : key r ≠ runId := fun hid => by
      rw [(hq r ht).mpr hid] at hqt
      cases hqt
    exact (h r ht).of_same (hother _ hid).1 (hother _ hid).2

/-- What a batch does to the slots of one Run and to what counts them. -/
theorem SlotLedger.change {db db' : LeadDb} (hl : SlotLedger db) (runId : String)
    (qp : ElasticPlaneRow → Bool) (fp : ElasticPlaneRow → ElasticPlaneRow)
    (qa : ElasticAccountRow → Bool) (fa : ElasticAccountRow → ElasticAccountRow)
    (hplanes : db'.planes = Table.update qp fp db.planes)
    (haccounts : db'.accounts = Table.update qa fa db.accounts)
    (hfp : ∀ p, (fp p).runKey = p.runKey) (hfa : ∀ a, (fa a).runKey = a.runKey)
    (hqp : ∀ p ∈ db.planes, qp p = true ↔ p.runId = runId)
    (hqa : ∀ a ∈ db.accounts, qa a = true ↔ a.runId = runId)
    (hcp : ∀ p ∈ db.planes, qp p = true → Counts db runId p.activeActorCount p.actorRecordCount →
      Counts db' runId (fp p).activeActorCount (fp p).actorRecordCount)
    (hca : ∀ a ∈ db.accounts, qa a = true →
      Counts db runId a.activeActorCount a.actorRecordCount →
      Counts db' runId (fa a).activeActorCount (fa a).actorRecordCount)
    (hother : ∀ id, id ≠ runId → activeSlotCount db' id = activeSlotCount db id ∧
      recordSlotCount db' id = recordSlotCount db id)
    (hruns : db'.runs.map RunRow.key = db.runs.map RunRow.key)
    (hactors : db'.actors.map ActorRow.runKey ⊆ db.runs.map RunRow.key)
    (hslots : db'.slots.map ActorSlotRow.runId ⊆ db.planes.map ElasticPlaneRow.runId)
    (hids : (db'.slots.map ActorSlotRow.actorId).Nodup) : SlotLedger db' := by
  refine ⟨⟨?_, ?_⟩, ?_, ?_, ?_, ?_, ?_, hids⟩
  · rw [hplanes]
    exact counts_update ElasticPlaneRow.runId _ _ qp fp _ db db' runId hother
      (fun p => congrArg Prod.fst (hfp p)) hqp hcp hl.counted.planes
  · rw [haccounts]
    exact counts_update ElasticAccountRow.runId _ _ qa fa _ db db' runId hother
      (fun a => congrArg Prod.fst (hfa a)) hqa hca hl.counted.accounts
  · rw [hruns]; exact hl.runIds
  · rw [hruns, hplanes, Table.map_update _ _ _ hfp]; exact hl.planes
  · rw [hruns, haccounts, Table.map_update _ _ _ hfa]; exact hl.accounts
  · rw [hruns]; exact hactors
  · rw [hplanes, Table.map_update ElasticPlaneRow.runId _ _ (fun p => congrArg Prod.fst (hfp p))]
    exact hslots

/-- What a batch does that leaves slots, planes and accounts alone. -/
theorem SlotLedger.congr {db db' : LeadDb} (hl : SlotLedger db) (hplanes : db'.planes = db.planes)
    (haccounts : db'.accounts.map (fun a => (a.runKey, a.activeActorCount, a.actorRecordCount)) =
      db.accounts.map (fun a => (a.runKey, a.activeActorCount, a.actorRecordCount)))
    (hslots : db'.slots = db.slots)
    (hruns : db'.runs.map RunRow.key = db.runs.map RunRow.key)
    (hactors : db'.actors.map ActorRow.runKey ⊆ db.runs.map RunRow.key) : SlotLedger db' := by
  have hactive : ∀ id, activeSlotCount db' id = activeSlotCount db id := fun id => by
    rw [activeSlotCount, hslots]; rfl
  have hrecords : ∀ id, recordSlotCount db' id = recordSlotCount db id := fun id => by
    rw [recordSlotCount, hslots]; rfl
  have hkeys : db'.accounts.map ElasticAccountRow.runKey =
      db.accounts.map ElasticAccountRow.runKey := by
    have hfst := congrArg (List.map Prod.fst) haccounts
    rw [List.map_map, List.map_map] at hfst
    exact hfst
  refine ⟨⟨?_, ?_⟩, ?_, ?_, ?_, ?_, ?_, ?_⟩
  · rw [hplanes]
    exact fun p hp => (hl.counted.planes p hp).of_same (hactive _) (hrecords _)
  · intro a' ha'
    have hmem := List.mem_map_of_mem
      (f := fun a : ElasticAccountRow => (a.runKey, a.activeActorCount, a.actorRecordCount)) ha'
    rw [haccounts] at hmem
    rcases List.mem_map.mp hmem with ⟨a, ha, heq⟩
    simp only [Prod.mk.injEq] at heq
    have hid : a.runId = a'.runId := congrArg Prod.fst heq.1
    rw [← heq.2.1, ← heq.2.2, ← hid]
    exact (hl.counted.accounts a ha).of_same (hactive _) (hrecords _)
  · rw [hruns]; exact hl.runIds
  · rw [hruns, hplanes]; exact hl.planes
  · rw [hruns, hkeys]; exact hl.accounts
  · rw [hruns]; exact hactors
  · rw [hslots, hplanes]; exact hl.slots
  · rw [hslots]; exact hl.actorIds

/-- What a batch does that leaves alone whatever the counters rest on. -/
theorem SlotLedger.congr' {db db' : LeadDb} (hl : SlotLedger db) (hplanes : db'.planes = db.planes)
    (haccounts : db'.accounts = db.accounts) (hslots : db'.slots = db.slots)
    (hruns : db'.runs = db.runs) (hactors : db'.actors = db.actors) : SlotLedger db' := by
  refine hl.congr hplanes ?_ hslots ?_ ?_
  · rw [haccounts]
  · rw [hruns]
  · rw [hactors]; exact hl.actors

/-! ## Slots that are taken and released -/

/-- Every actor that was given a slot has an active one. -/
theorem actorSlots_counts (runId : String) (now : Nat) (actors : List ActorRow)
    (activeSlots : List Nat) (recordSlotStart : Nat) (hlength : activeSlots.length = actors.length) :
    (actorSlots runId now actors activeSlots recordSlotStart).countP
      (fun s => s.runId = runId && s.activeSlot.isSome) = actors.length ∧
    (actorSlots runId now actors activeSlots recordSlotStart).countP
      (fun s => s.runId = runId) = actors.length := by
  have hcount : ∀ q : ActorSlotRow → Bool,
      (∀ s ∈ actorSlots runId now actors activeSlots recordSlotStart, q s = true) →
      (actorSlots runId now actors activeSlots recordSlotStart).countP q = actors.length := by
    intro q hq
    rw [List.countP_eq_length.mpr hq, actorSlots, List.length_mapIdx]
  constructor
  · refine hcount _ (fun s hs => ?_)
    rcases List.mem_mapIdx.mp hs with ⟨index, hindex, rfl⟩
    rw [← hlength] at hindex
    rw [Bool.and_eq_true, decide_eq_true_eq, List.getElem?_eq_getElem hindex]
    exact ⟨rfl, rfl⟩
  · refine hcount _ (fun s hs => ?_)
    rcases List.mem_mapIdx.mp hs with ⟨index, hindex, rfl⟩
    exact decide_eq_true rfl

theorem actorSlots_other (runId : String) (now : Nat) (actors : List ActorRow)
    (activeSlots : List Nat) (recordSlotStart : Nat) (q : ActorSlotRow → Bool)
    (hq : ∀ s, s.runId = runId → q s = false) :
    (actorSlots runId now actors activeSlots recordSlotStart).countP q = 0 := by
  refine List.countP_eq_zero.mpr (fun s hs => ?_)
  rcases List.mem_mapIdx.mp hs with ⟨index, hindex, rfl⟩
  rw [hq _ rfl]
  exact Bool.false_ne_true

def ActorSlotRow.release (s : ActorSlotRow) : ActorSlotRow :=
  { s with activeSlot := none }

/-- Slots that are released are no longer active, and still there. -/
def released (q : ActorSlotRow → Bool) (slots : List ActorSlotRow) : List ActorSlotRow :=
  Table.update q ActorSlotRow.release slots

section

variable (q : ActorSlotRow → Bool) (slots : List ActorSlotRow)

theorem released_runIds :
    (released q slots).map ActorSlotRow.runId = slots.map ActorSlotRow.runId :=
  Table.map_update ActorSlotRow.runId q ActorSlotRow.release (fun _ => rfl) slots

theorem released_actorIds :
    (released q slots).map ActorSlotRow.actorId = slots.map ActorSlotRow.actorId :=
  Table.map_update ActorSlotRow.actorId q ActorSlotRow.release (fun _ => rfl) slots

/-- Releasing slots of a Run does not change how many it has, nor anything for other
    Runs. -/
theorem released_records (id : String) :
    (released q slots).countP (fun s => s.runId = id) = slots.countP (fun s => s.runId = id) :=
  Table.countP_update _ _ _ _ (fun _ _ _ => rfl)

theorem released_other (runId id : String)
    (hq : ∀ s, q s = true → s.runId = runId) (hid : id ≠ runId) :
    (released q slots).countP (fun s => s.runId = id && s.activeSlot.isSome) =
      slots.countP (fun s => s.runId = id && s.activeSlot.isSome) := by
  refine Table.countP_update _ _ _ _ (fun s _ hs => ?_)
  have hne : s.runId ≠ id := fun heq => hid (heq.symm.trans (hq s hs))
  change (decide (s.runId = id) && false) = (decide (s.runId = id) && s.activeSlot.isSome)
  rw [decide_eq_false hne, Bool.false_and, Bool.false_and]

end

/-! ## What the batches do -/

/-- Slots that were admitted are those of actors without one, in Runs with a plane. -/
theorem slots_admitted (db : LeadDb) (new : List ActorSlotRow)
    (h : Passes (actorSlotRowsStatement new) db) (hids : (db.slots.map ActorSlotRow.actorId).Nodup) :
    ((db.slots ++ new).map ActorSlotRow.actorId).Nodup ∧
      new.map ActorSlotRow.runId ⊆ db.planes.map ElasticPlaneRow.runId := by
  rcases h with ⟨-, hinsert, hforeign, -⟩
  constructor
  · refine List.pairwise_map.mpr (Write.insertAll_pairwise _ _ _ _ _ db _ ?_ hinsert
      (List.pairwise_map.mp hids))
    intro rows s hadm t ht
    have hdiffers := List.all_eq_true.mp hadm t ht
    rw [Bool.and_eq_true, Bool.and_eq_true, decide_eq_true_eq] at hdiffers
    exact hdiffers.1.1
  · intro id hid
    rcases List.mem_map.mp hid with ⟨s, hs, rfl⟩
    have hany := List.all_eq_true.mp ((Write.require_passes _ _ _).mp hforeign) s hs
    rw [Bool.and_eq_true, List.any_eq_true] at hany
    rcases hany.1 with ⟨p, hp, hpid⟩
    exact List.mem_map.mpr ⟨p, hp, of_decide_eq_true hpid⟩

/-- Where a Run is known by its project, what is of the Run is of the project. -/
theorem SlotLedger.ofRun_iff {ρ : Type} {db : LeadDb} (hl : SlotLedger db) (key : ρ → String × String)
    (rows : List ρ) (hrows : rows.map key ⊆ db.runs.map RunRow.key) {projectId runId : String}
    (hknown : KnownRun db projectId runId) (r : ρ) (hr : r ∈ rows) :
    ((key r).2 = projectId && (key r).1 = runId) = true ↔ (key r).1 = runId := by
  rw [Bool.and_eq_true, decide_eq_true_eq, decide_eq_true_eq]
  refine ⟨fun hq => hq.2, fun hid => ⟨?_, hid⟩⟩
  have hmem : (runId, (key r).2) ∈ db.runs.map RunRow.key := by
    rw [← hid]
    exact hrows (List.mem_map_of_mem hr)
  exact hl.project hmem hknown

/-- Rows that are changed keep what they are of. -/
theorem update_keys_subset {ρ κ : Type} (key : ρ → κ) (p : ρ → Bool) (f : ρ → ρ) (rows : List ρ)
    (keys : List κ) (hkey : ∀ r, key (f r) = key r) (h : rows.map key ⊆ keys) :
    (Table.update p f rows).map key ⊆ keys := by
  rw [Table.map_update key p f hkey]
  exact h

theorem subset_update_keys {ρ κ : Type} (key : ρ → κ) (p : ρ → Bool) (f : ρ → ρ) (rows : List ρ)
    (hkey : ∀ r, key (f r) = key r) : rows.map key ⊆ (Table.update p f rows).map key := by
  rw [Table.map_update key p f hkey]
  exact List.Subset.refl _

theorem registerActors_slots (b : RegisterActorsBatch) (w : Outside) (db : LeadDb)
    (hl : SlotLedger db) (hknown : KnownRun db b.envelope.projectId b.runId)
    (hlength : b.activeSlots.length = b.registrations.length) (h : Passes (b.writes w) db) :
    SlotLedger (written (b.writes w) db) := by
  rcases h with ⟨-, -, -, -, hchecked, hinserted, hforeign, hplanes, haccounts, -⟩
  have hslots : Passes (actorSlotRowsStatement b.slots) _ :=
    ⟨hchecked, hinserted, hforeign, trivial⟩
  rcases slots_admitted _ _ hslots hl.actorIds with ⟨hids, hof⟩
  have hcount : b.actors.length = b.registrations.length := List.length_map ..
  rcases actorSlots_counts b.runId b.envelope.now b.actors b.activeSlots b.recordSlotStart
    (hlength.trans hcount.symm) with ⟨hactive, hrecords⟩
  -- Every counter is advanced by as many slots as there are actors.
  have hcounts : ∀ activeCount recordCount : Nat, Counts db b.runId activeCount recordCount →
      activeCount + b.actors.length ≤ maxR3ActiveActors →
      recordCount + b.actors.length ≤ maxR3ActorRecords →
      Counts (written (b.writes w) db) b.runId (activeCount + b.actors.length)
        (recordCount + b.actors.length) := by
    intro activeCount recordCount hc hactiveLimit hrecordLimit
    refine ⟨?_, ?_, hactiveLimit, hrecordLimit⟩
    · change _ = (db.slots ++ b.slots).countP _
      rw [List.countP_append, hc.active]
      exact congrArg _ hactive.symm
    · change _ = (db.slots ++ b.slots).countP _
      rw [List.countP_append, hc.records]
      exact congrArg _ hrecords.symm
  refine hl.change b.runId _ _ _ _ rfl rfl (fun _ => rfl) (fun _ => rfl) ?_ ?_ ?_ ?_ ?_ ?_ ?_ ?_ ?_
  · exact hl.ofRun_iff ElasticPlaneRow.runKey db.planes hl.planes hknown
  · exact hl.ofRun_iff ElasticAccountRow.runKey db.accounts hl.accounts hknown
  · intro p hp hq hc
    have hadm := (Write.updateAll_passes _ _ _ _ _ _ _).mp hplanes p hp hq
    simp only [ElasticPlaneRow.admitted, Bool.and_eq_true, decide_eq_true_eq] at hadm
    exact hcounts _ _ hc hadm.1.1.1 hadm.1.1.2
  · intro a ha hq hc
    have hadm := (Write.updateAll_passes _ _ _ _ _ _ _).mp haccounts a ha hq
    simp only [ElasticAccountRow.admitted, Bool.and_eq_true, decide_eq_true_eq] at hadm
    exact hcounts _ _ hc hadm.1.1 hadm.1.2
  · intro id hid
    constructor
    · change (db.slots ++ b.slots).countP _ = db.slots.countP _
      rw [List.countP_append, RegisterActorsBatch.slots, actorSlots_other, Nat.add_zero]
      intro s hs
      rw [decide_eq_false (fun heq => hid (heq.symm.trans hs)), Bool.false_and]
    · change (db.slots ++ b.slots).countP _ = db.slots.countP _
      rw [List.countP_append, RegisterActorsBatch.slots, actorSlots_other, Nat.add_zero]
      exact fun s hs => decide_eq_false (fun heq => hid (heq.symm.trans hs))
  · exact Table.map_update RunRow.key _ (fun r => { r with
      actorCount := min maxR2ActorsPerRun (r.actorCount + b.actors.length) }) (fun _ => rfl) db.runs
  · change (db.actors ++ b.actors).map ActorRow.runKey ⊆ _
    rw [List.map_append]
    refine List.append_subset.mpr ⟨hl.actors, ?_⟩
    intro k hk
    rcases List.mem_map.mp hk with ⟨a, ha, rfl⟩
    rcases List.mem_map.mp ha with ⟨registration, -, rfl⟩
    exact hknown
  · change (db.slots ++ b.slots).map ActorSlotRow.runId ⊆ _
    rw [List.map_append]
    exact List.append_subset.mpr ⟨hl.slots, hof⟩
  · exact hids

/-- The slot of the abandoned actor. -/
def RecoverActorBatch.abandons (b : RecoverActorBatch) (s : ActorSlotRow) : Bool :=
  s.runId = b.runId && s.actorId = b.abandonedActorId

/-- The slot of the abandoned actor is as it was when it was read. -/
def RecoverActorBatch.slotCurrent (b : RecoverActorBatch) (db : LeadDb) : Bool :=
  b.abandonedSlotActive = db.slots.any (fun s => b.abandons s && s.activeSlot.isSome)

/-- A plane after a recovery. -/
def ElasticPlaneRow.recovered (b : RecoverActorBatch) (p : ElasticPlaneRow) : ElasticPlaneRow :=
  { p with
    activeActorCount := p.activeActorCount - b.released + 1
    actorRecordCount := p.actorRecordCount + 1
    updatedAt := b.envelope.now }

/-- As many active slots are released as the batch has counted on. -/
theorem RecoverActorBatch.released_active (b : RecoverActorBatch) (db : LeadDb)
    (hl : SlotLedger db) (hcurrent : b.slotCurrent db = true) :
    (Lead.released b.abandons db.slots).countP
      (fun s => s.runId = b.runId && s.activeSlot.isSome) + b.released =
      activeSlotCount db b.runId := by
  have hadd := Table.countP_update_add b.abandons
    (fun s => s.runId = b.runId && s.activeSlot.isSome) ActorSlotRow.release db.slots
    (fun s _ => Bool.and_false _)
  have hone := Table.countP_of_key ActorSlotRow.actorId
    (fun s => (s.runId = b.runId && s.activeSlot.isSome) && b.abandons s) db.slots hl.actorIds (by
      intro s _ t _ hs ht
      simp only [abandons, Bool.and_eq_true, decide_eq_true_eq] at hs ht
      rw [hs.2.2, ht.2.2])
  have hany : db.slots.any (fun s => (s.runId = b.runId && s.activeSlot.isSome) && b.abandons s) =
      b.abandonedSlotActive := by
    rw [of_decide_eq_true hcurrent]
    refine congrArg (List.any db.slots) (funext (fun s => ?_))
    unfold abandons
    cases decide (s.runId = b.runId) <;> cases decide (s.actorId = b.abandonedActorId) <;>
      cases s.activeSlot.isSome <;> rfl
  rw [hone, hany] at hadd
  exact hadd

theorem recoverActor_slots (b : RecoverActorBatch) (w : Outside) (db : LeadDb)
    (hl : SlotLedger db) (hknown : KnownRun db b.envelope.projectId b.runId)
    (hcurrent : b.slotCurrent db = true) (h : Passes (b.writes w) db) :
    SlotLedger (written (b.writes w) db) := by
  have hreleased := b.released_active db hl hcurrent
  rcases h with ⟨-, -, hreleases, -, -, -, -, hchecked, hinserted, hforeign, hplanes, haccounts, -⟩
  have hslots : Passes (actorSlotRowsStatement b.slots) _ :=
    ⟨hchecked, hinserted, hforeign, trivial⟩
  have hids := (released_actorIds b.abandons db.slots).symm ▸ hl.actorIds
  rcases slots_admitted _ _ hslots hids with ⟨hids, hof⟩
  rcases actorSlots_counts b.runId b.envelope.now [b.replacement] [b.replacementActiveSlot]
    b.recordSlotStart rfl with ⟨hactive, hrecords⟩
  -- The counters give up what was released, and are advanced by one.
  have hcounts : ∀ activeCount recordCount : Nat,
      activeCount + b.released = activeSlotCount db b.runId + 1 →
      recordCount = recordSlotCount db b.runId + 1 →
      activeCount ≤ maxR3ActiveActors → recordCount ≤ maxR3ActorRecords →
      Counts (written (b.writes w) db) b.runId activeCount recordCount := by
    intro activeCount recordCount hactiveCount hrecordCount hactiveLimit hrecordLimit
    refine ⟨?_, ?_, hactiveLimit, hrecordLimit⟩
    · change _ = (Lead.released b.abandons db.slots ++ b.slots).countP
        (fun s => s.runId = b.runId && s.activeSlot.isSome)
      rw [List.countP_append]
      have hnew : b.slots.countP (fun s => s.runId = b.runId && s.activeSlot.isSome) = 1 := hactive
      rw [hnew]
      omega
    · change _ = (Lead.released b.abandons db.slots ++ b.slots).countP (fun s => s.runId = b.runId)
      have hnew : b.slots.countP (fun s => s.runId = b.runId) = 1 := hrecords
      rw [List.countP_append, released_records, hnew]
      exact hrecordCount
  refine hl.change b.runId (fun p => p.runId = b.runId) (ElasticPlaneRow.recovered b) _ _
    (Table.update_update _ _ _ _ (fun _ => rfl)) rfl (fun _ => rfl) (fun _ => rfl)
    (fun p _ => decide_eq_true_iff) (fun a _ => decide_eq_true_iff) ?_ ?_ ?_ rfl ?_ ?_ ?_
  · intro p hp hq hc
    have hle := of_decide_eq_true (Bool.and_eq_true _ _ ▸
      (Write.updateAll_passes _ _ _ _ _ _ _).mp hreleases p hp hq).1
    have hadm := (Write.updateAll_passes _ _ _ _ _ _ _).mp hplanes _
      (Table.update_mem _ _ _ p hp) (by rw [if_pos hq]; exact hq)
    rw [if_pos hq] at hadm
    simp only [ElasticPlaneRow.admitted, Bool.and_eq_true, decide_eq_true_eq] at hadm
    refine hcounts _ _ ?_ (congrArg (· + 1) hc.records) hadm.1.1.1 hadm.1.1.2
    have hactiveBefore := hc.active
    change p.activeActorCount - b.released + 1 + b.released = _
    omega
  · intro a ha hq hc
    have hadm := (Write.updateAll_passes _ _ _ _ _ _ _).mp haccounts a ha hq
    simp only [ElasticAccountRow.admitted, Bool.and_eq_true, decide_eq_true_eq] at hadm
    refine hcounts _ _ ?_ (congrArg (· + 1) hc.records) hadm.1.1 hadm.1.2
    have hactiveBefore := hc.active
    have hone : b.released ≤ 1 := by unfold RecoverActorBatch.released; split <;> omega
    change a.activeActorCount + (1 - b.released) + b.released = _
    omega
  · intro id hid
    have hq : ∀ s, b.abandons s = true → s.runId = b.runId := by
      intro s hs
      rw [RecoverActorBatch.abandons, Bool.and_eq_true, decide_eq_true_eq] at hs
      exact hs.1
    constructor
    · change (Lead.released b.abandons db.slots ++ b.slots).countP _ = db.slots.countP _
      rw [List.countP_append, RecoverActorBatch.slots, actorSlots_other, Nat.add_zero]
      · exact released_other _ db.slots b.runId id hq hid
      · intro s hs
        rw [decide_eq_false (fun heq => hid (heq.symm.trans hs)), Bool.false_and]
    · change (Lead.released b.abandons db.slots ++ b.slots).countP _ = db.slots.countP _
      rw [List.countP_append, RecoverActorBatch.slots, actorSlots_other, Nat.add_zero]
      · exact released_records _ db.slots id
      · exact fun s hs => decide_eq_false (fun heq => hid (heq.symm.trans hs))
  · change (Table.update _ _ db.actors ++ [b.replacement]).map ActorRow.runKey ⊆ _
    rw [List.map_append]
    refine List.append_subset.mpr ⟨?_, ?_⟩
    · exact update_keys_subset ActorRow.runKey _ _ db.actors _ (fun _ => rfl) hl.actors
    · intro k hk
      rw [List.map_singleton, List.mem_singleton] at hk
      rw [hk]
      exact hknown
  · change (Lead.released b.abandons db.slots ++ b.slots).map ActorSlotRow.runId ⊆ _
    rw [List.map_append, released_runIds]
    refine List.append_subset.mpr ⟨hl.slots, fun id hid => ?_⟩
    refine update_keys_subset ElasticPlaneRow.runId _ _ db.planes _ ?_ (List.Subset.refl _) (hof hid)
    exact fun _ => rfl
  · exact hids

/-- Of a Run that is completed no slot is active. -/
theorem complete_slots (b : CompleteBatch) (w : Outside) (db : LeadDb) (hl : SlotLedger db)
    (h : Passes (b.writes w) db) : SlotLedger (written (b.writes w) db) := by
  have hruns : (written (b.writes w) db).runs.map RunRow.key = db.runs.map RunRow.key := by
    refine Table.map_update RunRow.key _ _ ?_ _
    exact fun _ => rfl
  have hknown : KnownRun db b.envelope.projectId b.runId := by
    rcases h with ⟨-, -, -, -, -, -, hreceipt, -⟩
    have hfence := (Write.require_passes _ _ _).mp hreceipt
    rw [Bool.and_eq_true, Bool.and_eq_true, Bool.and_eq_true, List.any_eq_true] at hfence
    rcases hfence.2.1.1 with ⟨r, hr, hkey⟩
    simp only [Bool.and_eq_true, decide_eq_true_eq] at hkey
    rw [KnownRun, ← hruns]
    refine List.mem_map.mpr ⟨r, hr, ?_⟩
    rw [RunRow.key, hkey.1.1.1.1, hkey.1.1.1.2]
  have hcounts : ∀ activeCount recordCount : Nat, Counts db b.runId activeCount recordCount →
      Counts (written (b.writes w) db) b.runId 0 recordCount := by
    intro activeCount recordCount hc
    refine ⟨?_, ?_, Nat.zero_le _, hc.recordLimit⟩
    · change 0 = (Lead.released (fun s => s.runId = b.runId) db.slots).countP
        (fun s => s.runId = b.runId && s.activeSlot.isSome)
      refine (List.countP_eq_zero.mpr (fun s hs => ?_)).symm
      rcases Table.mem_update _ _ _ _ hs with ⟨t, -, ⟨-, rfl⟩ | ⟨hq, rfl⟩⟩
      · change ¬ (decide _ && false) = true
        rw [Bool.and_false]
        exact Bool.false_ne_true
      · rw [hq, Bool.false_and]
        exact Bool.false_ne_true
    · change _ = (Lead.released _ db.slots).countP _
      rw [released_records]
      exact hc.records
  refine hl.change b.runId _ _ _ _ rfl rfl (fun _ => rfl) (fun _ => rfl) ?_ ?_ ?_ ?_ ?_ hruns ?_ ?_ ?_
  · intro p hp
    rw [Bool.and_eq_true, and_comm, ← Bool.and_eq_true]
    exact hl.ofRun_iff ElasticPlaneRow.runKey db.planes hl.planes hknown p hp
  · intro a ha
    rw [Bool.and_eq_true, and_comm, ← Bool.and_eq_true]
    exact hl.ofRun_iff ElasticAccountRow.runKey db.accounts hl.accounts hknown a ha
  · exact fun p _ _ hc => hcounts _ _ hc
  · exact fun a _ _ hc => hcounts _ _ hc
  · intro id hid
    refine ⟨?_, ?_⟩
    · exact released_other (fun s => s.runId = b.runId) db.slots b.runId id
        (fun s hs => of_decide_eq_true hs) hid
    · exact released_records (fun s => s.runId = b.runId) db.slots id
  · exact update_keys_subset ActorRow.runKey _ _ db.actors _ (fun _ => rfl) hl.actors
  · exact update_keys_subset ActorSlotRow.runId _ _ db.slots _ (fun _ => rfl) hl.slots
  · exact (released_actorIds _ db.slots).symm ▸ hl.actorIds

/-- What actors that have expired give up the counters are taken anew from. -/
theorem reconcile_slots (b : ReconcileBatch) (db : LeadDb) (hl : SlotLedger db)
    (hknown : KnownRun db b.projectId b.runId) (h : Passes b.writes db) :
    SlotLedger (written b.writes db) := by
  rcases h with ⟨-, -, hplanes, haccounts, -⟩
  refine hl.change b.runId _ _ _ _ rfl rfl (fun _ => rfl) (fun _ => rfl) ?_ ?_ ?_ ?_ ?_ rfl ?_ ?_ ?_
  · exact hl.ofRun_iff ElasticPlaneRow.runKey db.planes hl.planes hknown
  · exact hl.ofRun_iff ElasticAccountRow.runKey db.accounts hl.accounts hknown
  · intro p hp hq hc
    have hadm := (Write.updateAll_passes _ _ _ _ _ _ _).mp hplanes p hp hq
    simp only [ElasticPlaneRow.admitted, Bool.and_eq_true, decide_eq_true_eq] at hadm
    refine ⟨?_, ?_, hadm.1.1.1, hc.recordLimit⟩
    · rw [Bool.and_eq_true, decide_eq_true_eq, decide_eq_true_eq] at hq
      exact congrArg (activeSlotCount (written b.writes db)) hq.2
    · exact hc.records.trans (released_records _ db.slots b.runId).symm
  · intro a ha hq hc
    have hadm := (Write.updateAll_passes _ _ _ _ _ _ _).mp haccounts a ha hq
    simp only [ElasticAccountRow.admitted, Bool.and_eq_true, decide_eq_true_eq] at hadm
    refine ⟨?_, ?_, hadm.1.1, hc.recordLimit⟩
    · rw [Bool.and_eq_true, decide_eq_true_eq, decide_eq_true_eq] at hq
      exact congrArg (activeSlotCount (written b.writes db)) hq.2
    · exact hc.records.trans (released_records _ db.slots b.runId).symm
  · intro id hid
    constructor
    · refine released_other _ db.slots b.runId id (fun s hs => ?_) hid
      rw [Bool.and_eq_true, decide_eq_true_eq] at hs
      exact hs.1
    · exact released_records _ db.slots id
  · exact update_keys_subset ActorRow.runKey _ _ db.actors _ (fun _ => rfl) hl.actors
  · exact update_keys_subset ActorSlotRow.runId _ _ db.slots _ (fun _ => rfl) hl.slots
  · exact (released_actorIds _ db.slots).symm ▸ hl.actorIds

/-- A Run that is new has no slots, and counters that say so. -/
theorem startRun_slots (b : StartRunBatch) (w : Outside) (db : LeadDb) (hl : SlotLedger db)
    (h : Passes (b.writes w) db) : SlotLedger (written (b.writes w) db) := by
  have hfresh : ∀ r ∈ db.runs, r.runId ≠ b.runId := by
    rcases h with ⟨-, -, hinsert, -⟩
    refine Write.insertAll_fresh _ _ _ _ _ _ (fun t r => t.runId ≠ r.runId) ?_ hinsert b.run
      (List.mem_singleton_self b.run)
    intro rows r hadm t ht
    have hboth := List.all_eq_true.mp hadm t ht
    rw [Bool.and_eq_true, decide_eq_true_eq] at hboth
    exact hboth.1
  have hkept : ∀ keys : List (String × String), keys ⊆ db.runs.map RunRow.key →
      keys ⊆ (db.runs ++ [b.run]).map RunRow.key := by
    intro keys hkeys
    rw [List.map_append]
    exact List.Subset.trans hkeys (List.subset_append_left _ _)
  have hnew : (b.runId, b.envelope.projectId) ∈ (db.runs ++ [b.run]).map RunRow.key := by
    rw [List.map_append]
    exact List.mem_append_right _ (List.mem_singleton_self _)
  have hids : (((db.runs ++ [b.run]).map RunRow.key).map Prod.fst).Nodup := by
    have hdistinct := hl.runIds
    rw [List.map_map] at hdistinct ⊢
    exact Table.map_concat_nodup (Prod.fst ∘ RunRow.key) db.runs b.run hdistinct hfresh
  have hnone : db.slots.countP (fun s => s.runId = b.runId) = 0 := by
    refine List.countP_eq_zero.mpr (fun s hs hid => ?_)
    rcases List.mem_map.mp (hl.slots (List.mem_map_of_mem hs)) with ⟨p, hp, hpid⟩
    rcases List.mem_map.mp (hl.planes (List.mem_map_of_mem hp)) with ⟨r, hr, hrkey⟩
    have hrid : r.runId = p.runId := congrArg Prod.fst hrkey
    exact hfresh r hr (hrid.trans (hpid.trans (of_decide_eq_true hid)))
  have hstart : Counts db b.runId 0 0 := by
    refine ⟨?_, hnone.symm, Nat.zero_le _, Nat.zero_le _⟩
    have hle : activeSlotCount db b.runId ≤ recordSlotCount db b.runId :=
      List.countP_mono_left (fun s _ hs => (Bool.and_eq_true _ _ ▸ hs).1)
    rw [recordSlotCount, hnone] at hle
    exact (Nat.le_zero.mp hle).symm
  unfold StartRunBatch.writes
  cases helastic : b.elastic with
  | none =>
      refine ⟨⟨fun p hp => ?_, fun a ha => ?_⟩, hids, hkept _ hl.planes, hkept _ hl.accounts,
        hkept _ hl.actors, hl.slots, hl.actorIds⟩
      · exact (hl.counted.planes p hp).of_same rfl rfl
      · exact (hl.counted.accounts a ha).of_same rfl rfl
  | some elastic =>
      have hkey : (elastic.runId, elastic.projectId) = (b.runId, b.envelope.projectId) := by
        rcases Option.map_eq_some_iff.mp helastic with ⟨ids, -, rfl⟩
        rfl
      have hid : elastic.runId = b.runId := congrArg Prod.fst hkey
      rw [← hkey] at hnew
      refine ⟨⟨fun p hp => ?_, fun a ha => ?_⟩, hids, ?_, ?_, hkept _ hl.actors, ?_, hl.actorIds⟩
      · rcases List.mem_append.mp hp with hold | hnew'
        · exact (hl.counted.planes p hold).of_same rfl rfl
        · rw [List.mem_singleton.mp hnew']
          exact (hid ▸ hstart : Counts db elastic.runId 0 0).of_same rfl rfl
      · rcases List.mem_append.mp ha with hold | hnew'
        · exact (hl.counted.accounts a hold).of_same rfl rfl
        · rw [List.mem_singleton.mp hnew']
          exact (hid ▸ hstart : Counts db elastic.runId 0 0).of_same rfl rfl
      · change (db.planes ++ [elastic.plane]).map ElasticPlaneRow.runKey ⊆ _
        rw [List.map_append]
        refine List.append_subset.mpr ⟨hkept _ hl.planes, fun k hk => ?_⟩
        rw [List.mem_singleton.mp hk]
        exact hnew
      · change (db.accounts ++ [elastic.account]).map ElasticAccountRow.runKey ⊆ _
        rw [List.map_append]
        refine List.append_subset.mpr ⟨hkept _ hl.accounts, fun k hk => ?_⟩
        rw [List.mem_singleton.mp hk]
        exact hnew
      · change _ ⊆ (db.planes ++ [elastic.plane]).map ElasticPlaneRow.runId
        rw [List.map_append]
        exact List.Subset.trans hl.slots (List.subset_append_left _ _)

theorem registerActor_slots (b : RegisterActorBatch) (w : Outside) (db : LeadDb) (hl : SlotLedger db)
    (hknown : KnownRun db b.envelope.projectId b.runId) :
    SlotLedger (written (b.writes w) db) := by
  refine hl.congr rfl rfl rfl (Table.map_update RunRow.key _ _ ?_ db.runs) ?_
  · exact fun _ => rfl
  · change (db.actors ++ [b.actor]).map ActorRow.runKey ⊆ _
    rw [List.map_append]
    refine List.append_subset.mpr ⟨hl.actors, fun k hk => ?_⟩
    rw [List.mem_singleton.mp hk]
    exact hknown

theorem submitBundle_slots (b : SubmitBundleBatch) (w : Outside) (db : LeadDb)
    (hl : SlotLedger db) : SlotLedger (written (b.writes w) db) := by
  refine hl.congr rfl rfl rfl (Table.map_update RunRow.key _ _ ?_ db.runs) hl.actors
  exact fun _ => rfl

theorem accountEntries_slots (selects : RunBudgetRow → Bool) (now : Nat)
    (entries : List BudgetEntry) (version logicalUnitsUsed costMicrounitsUsed : Nat) (db : LeadDb)
    (hl : SlotLedger db) : SlotLedger (written
      (accountEntries selects now version logicalUnitsUsed costMicrounitsUsed entries) db) := by
  rcases accountEntries_frame selects now entries version logicalUnitsUsed costMicrounitsUsed db
    with ⟨budgets, versions, budgetEntries, hframe⟩
  rw [hframe]
  exact hl.congr' rfl rfl rfl rfl rfl

theorem submitBundles_slots (b : SubmitBundlesBatch) (w : Outside) (db : LeadDb)
    (hl : SlotLedger db) : SlotLedger (written (b.writes w) db) := by
  unfold SubmitBundlesBatch.writes
  rw [written_append, written_append, written_append]
  refine (accountEntries_slots _ _ _ _ _ _ _ ?_).congr' rfl rfl rfl rfl rfl
  refine hl.congr rfl ?_ rfl ?_ hl.actors
  · refine Table.map_update
      (fun a : ElasticAccountRow => (a.runKey, a.activeActorCount, a.actorRecordCount)) _ _ ?_
      db.accounts
    exact fun _ => rfl
  · refine Table.map_update RunRow.key _ _ ?_ db.runs
    exact fun _ => rfl

theorem submitBudgetEntry_slots (b : SubmitBudgetEntryBatch) (w : Outside) (db : LeadDb)
    (hl : SlotLedger db) : SlotLedger (written (b.writes w) db) :=
  hl.congr' rfl rfl rfl rfl rfl

/-! ## What every request does -/

/-- Actors and slots are added and reconciled in a Run of the project, as many slots
    as actors. -/
def NamesRun (op : LeadOp) (db : LeadDb) : Prop :=
  match op with
  | .registerActor b => KnownRun db b.envelope.projectId b.runId
  | .registerActors b =>
      KnownRun db b.envelope.projectId b.runId ∧ b.activeSlots.length = b.registrations.length
  | .recoverActor b => KnownRun db b.envelope.projectId b.runId
  | .reconcile b => KnownRun db b.projectId b.runId
  | _ => True

/-- When an actor is replaced, its slot is as it was when it was read. -/
def SlotCurrent (op : LeadOp) (_ : Outside) (db : LeadDb) : Prop :=
  match op with
  | .recoverActor b => b.slotCurrent db = true
  | _ => True

instance (op : LeadOp) (w : Outside) (db : LeadDb) : Decidable (SlotCurrent op w db) := by
  cases op <;> unfold SlotCurrent <;> infer_instance

/-- Every request leaves the slots counted, where an actor that is replaced has the
    slot that was read. -/
theorem exec_slots (op : LeadOp) (w : Outside) (db : LeadDb) (hl : SlotLedger db)
    (hnames : NamesRun op db) (hcurrent : SlotCurrent op w db) : SlotLedger (exec op w db).2 := by
  rcases exec_cases op w db with hsame | ⟨-, hpasses, hwritten, -⟩
  · rw [hsame]; exact hl
  · rw [hwritten]
    cases op with
    | startRun b => exact startRun_slots b w db hl hpasses
    | registerActor b => exact registerActor_slots b w db hl hnames
    | submitBundle b => exact submitBundle_slots b w db hl
    | complete b => exact complete_slots b w db hl hpasses
    | registerActors b => exact registerActors_slots b w db hl hnames.1 hnames.2 hpasses
    | submitBundles b => exact submitBundles_slots b w db hl
    | recoverActor b => exact recoverActor_slots b w db hl hnames hcurrent hpasses
    | submitBudgetEntry b => exact submitBudgetEntry_slots b w db hl
    | reconcile b => exact reconcile_slots b db hl hnames hpasses
    | _ => exact hl.congr' rfl rfl rfl rfl rfl

/-- Runs are neither removed nor renamed. -/
theorem exec_runs (op : LeadOp) (w : Outside) (db : LeadDb) :
    db.runs.map RunRow.key ⊆ (exec op w db).2.runs.map RunRow.key := by
  have hsame : ∀ runs, runs = db.runs → db.runs.map RunRow.key ⊆ runs.map RunRow.key := by
    intro runs hruns
    rw [hruns]
    exact List.Subset.refl _
  have hframe : ∀ (selects : RunBudgetRow → Bool) (now : Nat) (entries : List BudgetEntry)
      (version logicalUnitsUsed costMicrounitsUsed : Nat) (db : LeadDb), db.runs.map RunRow.key ⊆
      (written (accountEntries selects now version logicalUnitsUsed costMicrounitsUsed entries)
        db).runs.map RunRow.key := by
    intro selects now entries version logicalUnitsUsed costMicrounitsUsed db
    rcases accountEntries_frame selects now entries version logicalUnitsUsed costMicrounitsUsed db
      with ⟨budgets, versions, budgetEntries, hframe⟩
    rw [hframe]
    exact List.Subset.refl _
  rcases exec_cases op w db with hsame' | ⟨-, -, hwritten, -⟩
  · exact hsame _ (congrArg LeadDb.runs hsame')
  · rw [hwritten]
    cases op with
    | startRun b =>
        have hruns : (written (b.writes w) db).runs = db.runs ++ [b.run] := by
          unfold StartRunBatch.writes
          cases b.elastic <;> rfl
        change _ ⊆ (written (b.writes w) db).runs.map RunRow.key
        rw [hruns, List.map_append]
        exact List.subset_append_left _ _
    | registerActor b | submitBundle b | complete b | registerActors b =>
        refine subset_update_keys RunRow.key _ _ db.runs ?_
        exact fun _ => rfl
    | submitBundles b =>
        change _ ⊆ (written (b.writes w) db).runs.map RunRow.key
        unfold SubmitBundlesBatch.writes
        rw [written_append, written_append, written_append]
        refine List.Subset.trans ?_ (hframe _ _ _ _ _ _ _)
        refine subset_update_keys RunRow.key _ _ db.runs ?_
        exact fun _ => rfl
    | _ => exact hsame _ rfl

/-! ## What every call does -/

/-- Runs stay where they are. -/
def KeepsRuns (s t : LeadDb) : Prop :=
  s.runs.map RunRow.key ⊆ t.runs.map RunRow.key

theorem KeepsRuns.refl (s : LeadDb) : KeepsRuns s s :=
  List.Subset.refl _

theorem KeepsRuns.trans {s t u : LeadDb} (h : KeepsRuns s t) (h' : KeepsRuns t u) : KeepsRuns s u :=
  List.Subset.trans h h'

theorem prepares_names (op : LeadOp) (db : LeadDb) (h : op.prepares = true) : NamesRun op db := by
  cases op with
  | registerActor b | registerActors b | recoverActor b | reconcile b => cases h
  | _ => exact trivial

theorem stable_known (projectId runId : String) :
    Stable SlotCurrent SlotLedger KeepsRuns NamesRun (fun db => KnownRun db projectId runId) :=
  ⟨fun _ _ hs hst => hst hs, fun op w t _ _ _ ht => exec_runs op w t ht⟩

theorem known_of_read (db : LeadDb) (projectId runId : String) (run : RunRow)
    (h : runOf db projectId runId = some run) : KnownRun db projectId runId := by
  have hkey := List.find?_some h
  rw [Bool.and_eq_true, decide_eq_true_eq, decide_eq_true_eq] at hkey
  refine List.mem_map.mpr ⟨run, List.mem_of_find?_eq_some h, ?_⟩
  rw [RunRow.key, hkey.1, hkey.2]

section

variable {ι : Type} (format : LeadFormat)

/-- A function that reads a Run first goes on with a Run of the project. -/
theorem readRun_keeps {β : Type} (projectId runId : String) (workItemId : Option String)
    (f : RunRow → LeadProcess β) (db : LeadDb)
    (hf : ∀ run t, KnownRun t projectId runId →
      Keeps SlotCurrent SlotLedger KeepsRuns NamesRun (f run) t) :
    Keeps SlotCurrent SlotLedger KeepsRuns NamesRun
      (ask (.readRunRow projectId runId) >>= fun read => check (activeRun workItemId read) >>= f)
      db := by
  refine read_keeps prepares_names stable_true _ _ db trivial rfl (fun _ => rfl)
    (fun read w t _ _ hread => ?_)
  refine meets_ofExcept _ _ t (fun run hrun => ?_) (fun _ _ => trivial)
  have hread' : runOf t projectId runId = read := Except.ok.inj hread
  rw [(activeRun_ok workItemId read run hrun).1] at hread'
  exact hf run t (known_of_read t projectId runId run hread')

theorem check_keeps {α β : Type} {K : LeadDb → Prop}
    (hK : Stable SlotCurrent SlotLedger KeepsRuns NamesRun K) {r : Except LeadError α}
    {f : α → LeadProcess β} {db : LeadDb} (hdb : K db)
    (hf : ∀ a t, K t → Keeps SlotCurrent SlotLedger KeepsRuns NamesRun (f a) t) :
    Keeps SlotCurrent SlotLedger KeepsRuns NamesRun (check r >>= f) db :=
  bind_keeps prepares_names hK f _ db hdb (check_prepares r) hf

theorem ask_keeps {β : Type} {K : LeadDb → Prop}
    (hK : Stable SlotCurrent SlotLedger KeepsRuns NamesRun K) {op : LeadOp}
    {f : op.Ret → LeadProcess β} {db : LeadDb} (hdb : K db) (hop : op.prepares = true)
    (hf : ∀ a t, K t → Keeps SlotCurrent SlotLedger KeepsRuns NamesRun (f a) t) :
    Keeps SlotCurrent SlotLedger KeepsRuns NamesRun (ask op >>= f) db :=
  bind_keeps prepares_names hK f _ db hdb (ask_prepares op hop) hf

theorem registerRunActor_names (input : RegisterActorInput) (db : LeadDb) :
    Keeps SlotCurrent SlotLedger KeepsRuns NamesRun (registerRunActor input) db := by
  refine check_keeps stable_true trivial (fun _ t _ => ?_)
  refine mutation_keeps prepares_names stable_true _ _ _ t trivial (fun t _ => ?_)
  refine readRun_keeps _ _ _ _ t (fun run t ht => ?_)
  have hK := stable_known input.envelope.projectId input.runId
  refine ask_keeps hK ht rfl (fun plane t ht => ?_)
  refine check_keeps hK ht (fun _ t ht => ?_)
  split
  · exact within_keeps prepares_names hK _ t ht (fun _ _ _ _ hop => absurd hop id)
      (makes_of_prepares (A := fun _ => False) _ (deny_prepares _ _ _)).within
  · refine ask_keeps hK ht rfl (fun taken t ht => ?_)
    refine check_keeps hK ht (fun _ t ht => ?_)
    refine ask_keeps hK ht rfl (fun lease t ht => ?_)
    refine check_keeps hK ht (fun _ t ht => ?_)
    refine ask_keeps hK ht rfl (fun _ t ht => ?_)
    exact commit_keeps prepares_names hK _ _ t ht (fun t _ ht => ht)

/-- Actors that have expired are those of a Run of the project. -/
theorem reconcile_keeps {K : LeadDb → Prop} {β : Type}
    (hK : Stable SlotCurrent SlotLedger KeepsRuns NamesRun K) (projectId runId : String) (now : Nat)
    (f : Unit → LeadProcess β) (db : LeadDb) (hdb : K db)
    (hf : ∀ t, K t → Keeps SlotCurrent SlotLedger KeepsRuns NamesRun (f ()) t) :
    Keeps SlotCurrent SlotLedger KeepsRuns NamesRun
      (reconcileExpiredElasticActors projectId runId now >>= f) db := by
  refine meets_bind f _ db (meets_request (LeadOp.readExpiredActors projectId runId now) _ db
    (fun t hI hst => ⟨trivial, fun w _ => ⟨fun ids hids => ?_, fun _ _ => trivial⟩⟩))
  have ht : K t := hK.others db t hdb hst
  rw [exec_read _ w t rfl]
  refine meets_ite (fun _ => hf t ht) (fun hsome => ?_)
  have hanswer : expiredActors t projectId runId now = ids :=
    Except.ok.inj (exec_ok _ w t ids hids).1
  have hknown : KnownRun t projectId runId := by
    cases ids with
    | nil => exact absurd rfl hsome
    | cons id ids =>
        have hmem : id ∈ expiredActors t projectId runId now := by
          rw [hanswer]
          exact List.mem_cons_self
        rcases List.mem_map.mp (List.mem_of_mem_take hmem) with ⟨a, ha, -⟩
        rcases List.mem_filter.mp ha with ⟨ha, hof⟩
        simp only [Bool.and_eq_true, decide_eq_true_eq] at hof
        have hkey := hI.actors (List.mem_map_of_mem ha)
        rw [ActorRow.runKey, hof.1.1.1.1, hof.1.1.1.2] at hkey
        exact hkey
  intro u hIu htu
  refine ⟨htu hknown, fun w hcurrent => ?_⟩
  cases hr : (exec (.reconcile _) w u).1 with
  | error e => exact trivial
  | ok r => exact hf _ (hK.requests _ w u hIu (htu hknown) hcurrent (hK.others t u ht htu))

/-- As many slots are taken as there are actors. -/
theorem availableActiveSlots_length (count : Nat) (occupied slots : List Nat)
    (h : availableActiveSlots count occupied = .ok slots) : slots.length = count := by
  unfold availableActiveSlots at h
  dsimp only at h
  split at h
  · next hlength =>
    rw [Except.ok.injEq] at h
    rw [← h]
    exact hlength
  · cases h

theorem registerRunActorsBatch_names (input : RegisterActorsInput) (db : LeadDb) :
    Keeps SlotCurrent SlotLedger KeepsRuns NamesRun (registerRunActorsBatch format input) db := by
  refine check_keeps stable_true trivial (fun _ t _ => ?_)
  refine mutation_keeps prepares_names stable_true _ _ _ t trivial (fun t _ => ?_)
  refine readRun_keeps _ _ _ _ t (fun run t ht => ?_)
  have hK := stable_known input.envelope.projectId input.runId
  refine reconcile_keeps hK _ _ _ _ t ht (fun t ht => ?_)
  refine ask_keeps hK ht rfl (fun plane? t ht => ?_)
  refine check_keeps hK ht (fun plane t ht => ?_)
  refine check_keeps hK ht (fun _ t ht => ?_)
  refine ask_keeps hK ht rfl (fun taken t ht => ?_)
  refine check_keeps hK ht (fun _ t ht => ?_)
  refine ask_keeps hK ht rfl (fun lease? t ht => ?_)
  refine check_keeps hK ht (fun lease t ht => ?_)
  refine ask_keeps hK ht rfl (fun occupied t ht => ?_)
  refine meets_ofExcept _ _ t (fun slots hslots => ?_) (fun _ _ => trivial)
  have hlength := availableActiveSlots_length _ _ _ hslots
  refine ask_keeps hK ht rfl (fun _ t ht => ?_)
  refine ask_keeps hK ht rfl (fun deltas t ht => ?_)
  exact settle_keeps prepares_names hK _ _ _ _ _ t ht (fun t _ ht => ⟨ht, hlength⟩)

theorem recoverRunActor_names (input : RecoverActorInput) (db : LeadDb) :
    Keeps SlotCurrent SlotLedger KeepsRuns NamesRun (recoverRunActor format input) db := by
  refine check_keeps stable_true trivial (fun _ t _ => ?_)
  refine mutation_keeps prepares_names stable_true _ _ _ t trivial (fun t _ => ?_)
  refine read_keeps prepares_names stable_true _ _ t trivial rfl (fun _ => rfl)
    (fun read w t _ _ hread => ?_)
  -- The Run that was read is only looked at after the expired actors are reconciled.
  have hread' : runOf t input.envelope.projectId input.runId = read := Except.ok.inj hread
  have hK : Stable SlotCurrent SlotLedger KeepsRuns NamesRun (fun u => read ≠ none →
      KnownRun u input.envelope.projectId input.runId) := by
    have hknown := stable_known input.envelope.projectId input.runId
    exact ⟨fun s u hs hsu hsome => hknown.others s u (hs hsome) hsu,
      fun op w u hI hop hC hu hsome => hknown.requests op w u hI hop hC (hu hsome)⟩
  have ht : read ≠ none → KnownRun t input.envelope.projectId input.runId := by
    intro hsome
    rcases Option.ne_none_iff_exists'.mp hsome with ⟨run, hrun⟩
    exact known_of_read t _ _ run (hread'.trans hrun)
  refine reconcile_keeps hK _ _ _ _ t ht (fun t ht => ?_)
  refine ask_keeps hK ht rfl (fun plane? t ht => ?_)
  refine check_keeps hK ht (fun plane t ht => ?_)
  refine meets_ofExcept _ _ t (fun run hrun => ?_) (fun _ _ => trivial)
  have hsome : read ≠ none := by
    rw [(activeRun_ok _ _ _ hrun).1]
    exact Option.some_ne_none run
  refine ask_keeps hK ht rfl (fun actor? t ht => ?_)
  refine check_keeps hK ht (fun abandoned t ht => ?_)
  refine ask_keeps hK ht rfl (fun recovered t ht => ?_)
  refine check_keeps hK ht (fun _ t ht => ?_)
  refine ask_keeps hK ht rfl (fun taken t ht => ?_)
  refine check_keeps hK ht (fun _ t ht => ?_)
  refine ask_keeps hK ht rfl (fun slot? t ht => ?_)
  refine check_keeps hK ht (fun slot t ht => ?_)
  refine check_keeps hK ht (fun _ t ht => ?_)
  refine check_keeps hK ht (fun _ t ht => ?_)
  refine ask_keeps hK ht rfl (fun lease? t ht => ?_)
  refine check_keeps hK ht (fun lease t ht => ?_)
  refine bind_keeps prepares_names hK _ _ t ht (replacementSlot_prepares _ _)
    (fun activeSlot t ht => ?_)
  refine check_keeps hK ht (fun _ t ht => ?_)
  refine ask_keeps hK ht rfl (fun _ t ht => ?_)
  refine ask_keeps hK ht rfl (fun deltas t ht => ?_)
  exact settle_keeps prepares_names hK _ _ _ _ _ t ht (fun t _ ht => ht hsome)

/-- Every function adds actors and slots to a Run of the project only. -/
theorem process_names (call : LeadCall) (db : LeadDb) :
    Keeps SlotCurrent SlotLedger KeepsRuns NamesRun (call.process format) db := by
  have hother : ∀ (A : LeadOp → Prop) (p : LeadProcess LeadResult), Makes A p →
      (∀ op t, A op → NamesRun op t) → Keeps SlotCurrent SlotLedger KeepsRuns NamesRun p db :=
    fun A p hp hA => within_keeps prepares_names stable_true p db trivial
      (fun op t _ _ hop => hA op t hop) hp.within
  have hkind : ∀ (operation : LeadOperation), operation ≠ .registerActor →
      operation ≠ .registerActorsBatch → operation ≠ .recoverActor →
      ∀ (op : LeadOp) t, op.operation = some operation → NamesRun op t := by
    intro operation hregister hregisters hrecover op t hop
    cases op with
    | registerActor b => exact absurd (Option.some.inj hop).symm hregister
    | registerActors b => exact absurd (Option.some.inj hop).symm hregisters
    | recoverActor b => exact absurd (Option.some.inj hop).symm hrecover
    | reconcile b => cases hop
    | _ => exact trivial
  cases call with
  | startLeadRun input =>
      exact hother _ _ (startLeadRun_makes input) (hkind _ nofun nofun nofun)
  | registerRunActor input => exact registerRunActor_names input db
  | submitRunBundle input =>
      exact hother _ _ (submitRunBundle_makes format input) (hkind _ nofun nofun nofun)
  | completeLeadWorkItem input =>
      exact hother _ _ (completeLeadWorkItem_makes input) (hkind _ nofun nofun nofun)
  | registerRunActorsBatch input => exact registerRunActorsBatch_names format input db
  | submitRunBundlesBatch input =>
      exact hother _ _ (submitRunBundlesBatch_makes format input) (hkind _ nofun nofun nofun)
  | recoverRunActor input => exact recoverRunActor_names format input db
  | submitRunBudgetEntry input =>
      exact hother _ _ (submitRunBudgetEntry_makes format input) (hkind _ nofun nofun nofun)
  | createWorkItem item =>
      exact hother _ _ (commit_makes (A := fun _ => False) _ _ (Or.inl rfl)) (fun _ _ => False.elim)
  | acknowledgeCheckpoint point =>
      exact hother _ _ (commit_makes (A := fun _ => False) _ _ (Or.inl rfl)) (fun _ _ => False.elim)
  | resolveProjectException projectId exceptionId now =>
      exact hother _ _ (request_makes (A := fun _ => False) _ _ (Or.inl rfl)) (fun _ _ => False.elim)

/-- The slots are counted, and every call keeps to a Run of its project. -/
abbrev SlotSound (c : LeadPool ι) : Prop :=
  Pool.Sound exec SlotCurrent SlotLedger (fun _ => KeepsRuns) (fun _ => NamesRun)
    (fun _ _ _ => True) c

theorem step_slotSound [DecidableEq ι] (c : LeadPool ι) (e : ι × Outside) (hc : SlotSound c)
    (hcurrent : Pool.Takes SlotCurrent c e) : SlotSound (Pool.step exec c e) := by
  refine Pool.step_sound (fun _ s _ => KeepsRuns.refl s)
    (fun _ _ _ _ hst htu => KeepsRuns.trans hst htu) ?_ c e hc hcurrent
  intro i op w s hs hnames hslot
  exact ⟨exec_slots op w s hs hnames hslot, fun _ _ => exec_runs op w s⟩

/-- In every run in which an actor is replaced only while its slot is as it was when
    it was read, the plane and the account of every Run count its slots. -/
theorem slots_counted [DecidableEq ι] (calls : ι → LeadCall) (es : List (ι × Outside))
    (h : Run.Along (Pool.Takes SlotCurrent) (Pool.step exec) (startPool format calls emptyDb) es) :
    Counted (Pool.run exec (startPool format calls emptyDb) es).shared := by
  have hstart : SlotSound (startPool format calls emptyDb) := by
    refine ⟨⟨⟨nofun, nofun⟩, List.nodup_nil, ?_, ?_, ?_, ?_, List.nodup_nil⟩, fun i => ?_⟩
    · exact List.nil_subset _
    · exact List.nil_subset _
    · exact List.nil_subset _
    · exact List.nil_subset _
    · exact ⟨emptyDb, KeepsRuns.refl emptyDb, process_names format (calls i) emptyDb⟩
  have hsound := Run.runFrom_invariant _ _ step_slotSound _ es hstart h
  exact hsound.1.counted

end

/-! ## A slot that is given up meanwhile -/

def elasticFormat : LeadFormat :=
  { byteLength := fun _ => 1
    contentSha256 := fun _ => "0000000000000000000000000000000000000000000000000000000000000000"
    isProtectedPath := fun _ => false }

def envelopeAt (now : Nat) (key : String) : Envelope :=
  { projectId := "project", grantId := "grant", idempotencyKeySha256 := key
    requestSha256 := key, now := now }

/-- An actor that may submit bundles. -/
def contributor (actorId : String) (lifetimeSeconds : Nat) : ActorRegistrationInput :=
  { actorId := actorId, claimedIdentity := actorId, scopes := [.runBundleSubmit]
    lifetimeSeconds := lifetimeSeconds, metadata := none }

/-- A Run with an actor that lasts and one that does not. The second is replaced
    while a later registration finds it expired. -/
def staleSlot : Nat → LeadCall
  | 0 => .createWorkItem
      { workItemId := "item", projectId := "project", status := .opened, createdAt := 1 }
  | 1 => .startLeadRun
      { envelope := envelopeAt 1 "start", workItemId := "item", purpose := .coding
        completionMode := none, elastic := true, workPacketId := .ok "packet"
        policyId := .ok ("policy", false), runId := "run"
        elasticIds := { planeRecordId := "plane", accountId := "account", budgetId := "budget" } }
  | 2 => .registerRunActorsBatch
      { envelope := envelopeAt 1 "register", runId := "run", workItemId := "item"
        actors := [contributor "short" 10, contributor "long" 900], uuids := ["d1", "d2"] }
  | 3 => .recoverRunActor
      { envelope := envelopeAt 5 "recover", runId := "run", workItemId := "item"
        abandonedActorId := "short", reason := .abandoned, detectedAt := 5
        allowedScopes := [.runBundleSubmit], replacement := contributor "new" 900
        recoveryId := "recovery", uuids := ["d3", "d4"] }
  | _ => .registerRunActorsBatch
      { envelope := envelopeAt 20 "later", runId := "run", workItemId := "item"
        actors := [contributor "later" 900], uuids := ["d5"] }

def answered : Outside :=
  { outcome := .answered, problem := none, liveFence := true, policyFence := true
    leaseExpiresAt := some 1000, policy := .ok none }

/-- A call takes as many operations. -/
def turns (i n : Nat) : List (Nat × Outside) :=
  List.replicate n (i, answered)

/-- The slot is replaced before anyone else comes. -/
def replacedAtOnce : List (Nat × Outside) :=
  turns 0 1 ++ turns 1 5 ++ turns 2 11 ++ turns 3 13

theorem replacedAtOnce_counted :
    Counted (Pool.run exec (startPool elasticFormat staleSlot emptyDb) replacedAtOnce).shared :=
  slots_counted elasticFormat staleSlot replacedAtOnce (by decide +kernel)

/-- The slot is reconciled between the read and the batch. -/
def replacedLate : List (Nat × Outside) :=
  turns 0 1 ++ turns 1 5 ++ turns 2 11 ++ turns 3 12 ++ turns 4 5 ++ turns 3 1

/-- Two slots are active then, and both counters say one. -/
theorem replacedLate_miscounted :
    ¬ ∀ (format : LeadFormat) (calls : Nat → LeadCall) (es : List (Nat × Outside)),
      Counted (Pool.run exec (startPool format calls emptyDb) es).shared := by
  intro h
  have hcounted := h elasticFormat staleSlot replacedLate
  have hplane : (Pool.run exec (startPool elasticFormat staleSlot emptyDb)
      replacedLate).shared.planes.map (fun p => (p.activeActorCount, activeSlotCount (Pool.run exec
        (startPool elasticFormat staleSlot emptyDb) replacedLate).shared p.runId)) = [(1, 2)] := by
    decide +kernel
  have hmem := hplane.symm ▸ List.mem_singleton_self (1, 2)
  rcases List.mem_map.mp hmem with ⟨p, hp, heq⟩
  have hactive := (hcounted.planes p hp).active
  rw [Prod.mk.injEq] at heq
  omega

end Mdevolved.Lead
