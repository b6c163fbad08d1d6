import Mdevolved.Policy.Windows

/-!
# Receipts of Drills

A drill is completed by one batch, which stores the receipt of the drill and closes
its request. What a lead has read before it sends the batch may no longer be so. The
batch checks by itself what may change, that the request was still open and the lease
is still current. What a receipt says of the request it has from the record of the
request, and a record does not change.

So there is a receipt of a request exactly if the request is completed, and there is
one at most, since no two receipts are of one drill.

## Main definitions

* `Recorded`: A record has given contents.
* `NamesPoint`: The record of a request names a checkpoint.
* `Receipted`: A receipt is of a request.
* `Drilled`: Requests are completed exactly where there are receipts.
* `Ready`: What a lead knows when it completes a drill.

## Theorems

* `completeDrill_drilled`: What the batch does.
* `completeContinuityDrill_ready`: What a lead knows.
* `drills_completed`: Drills in every run.
* `sampleRun_receipt`: A receipt that has no due time.
-/

namespace Mdevolved.Policy

open Batch Process

/-- What never changes of a request. -/
def RequestRow.subject (r : RequestRow) : RequestRow :=
  { r with status := .pending, completedAt := none }

theorem subject_fields (q q' : RequestRow) (h : q'.subject = q.subject) :
    q'.requestId = q.requestId ∧ q'.dueAt = q.dueAt ∧ q'.requestKind = q.requestKind ∧
      q'.operationalRecordId = q.operationalRecordId := by
  unfold RequestRow.subject at h
  rw [RequestRow.mk.injEq] at h
  rcases h with ⟨hid, hrecord, -, -, hkind, -, hdue, -⟩
  exact ⟨hid, hdue, hkind, hrecord⟩

/-! ## Records -/

section Records

variable (format : PolicyFormat)

/-- There is a record under an identifier that has the hash of given contents. -/
def Recorded (db : PolicyDb) (id : String) (record : PolicyOperationalRecord) : Prop :=
  ∃ row ∈ db.records, row.operationalRecordId = id ∧
    row.contentSha256 = format.contentSha256 (.operational record)

/-- The record of a request has its due time and names a checkpoint. -/
def NamesPoint (db : PolicyDb) (q : RequestRow) (continuityPointId : String) : Prop :=
  ∃ e, Recorded format db q.requestId (.evidence e) ∧ e.evidenceId = q.requestId ∧
    ∃ window workItemId workPacketId, e.detail =
      .continuityDrillRequest q.dueAt window continuityPointId workItemId workPacketId

/-- A receipt is of a request: of the checkpoint that the request names, after it was
    due. -/
structure Receipted (db : PolicyDb) (r : DrillReceiptRow) (q : RequestRow) : Prop where
  drill : r.drillId = q.requestId
  kind : q.requestKind = .continuityDrill
  completed : q.status = .completed
  names : NamesPoint format db q r.restoredContinuityPointId
  record : ∃ receipt : ContinuityReceipt, Recorded format db r.receiptId (.receipt receipt) ∧
    receipt.drillId = q.requestId ∧
    receipt.restoredContinuityPointId = r.restoredContinuityPointId ∧
    q.dueAt ≤ receipt.simulatedLeadLossAt

/-- Requests are completed exactly where there is a receipt of them, and there is one
    receipt of a drill at most. -/
structure Drilled (db : PolicyDb) : Prop where
  ids : (db.requests.map RequestRow.requestId).Nodup
  recorded : ∀ q ∈ db.requests, q.operationalRecordId = q.requestId
  drills : (db.drillReceipts.map DrillReceiptRow.drillId).Nodup
  receipts : ∀ r ∈ db.drillReceipts, ∃ q ∈ db.requests, Receipted format db r q
  completed : ∀ q ∈ db.requests, q.status = .completed →
    ∃ r ∈ db.drillReceipts, r.drillId = q.requestId

/-- What the requests of others leave: requests but for their status, and records. -/
structure Grows (s t : PolicyDb) : Prop where
  requests : ∀ q ∈ s.requests, ∃ q' ∈ t.requests, q'.subject = q.subject
  records : ∀ row ∈ s.records, row ∈ t.records

theorem grows_refl (s : PolicyDb) : Grows s s :=
  ⟨fun q hq => ⟨q, hq, rfl⟩, fun _ h => h⟩

theorem grows_trans (s t u : PolicyDb) (h : Grows s t) (h' : Grows t u) : Grows s u := by
  refine ⟨fun q hq => ?_, fun row hrow => h'.records row (h.records row hrow)⟩
  rcases h.requests q hq with ⟨q', hq', hsubject⟩
  rcases h'.requests q' hq' with ⟨q'', hq'', hsubject'⟩
  exact ⟨q'', hq'', hsubject'.trans hsubject⟩

variable {format}

theorem recorded_grows (s t : PolicyDb) (h : Grows s t) (id : String)
    (record : PolicyOperationalRecord) (hrecord : Recorded format s id record) :
    Recorded format t id record := by
  rcases hrecord with ⟨row, hrow, hid, hhash⟩
  exact ⟨row, h.records row hrow, hid, hhash⟩

/-- What the record of a request names is not up to its status. -/
theorem namesPoint_grows (s t : PolicyDb) (h : Grows s t) (q q' : RequestRow)
    (hsubject : q'.subject = q.subject) (pointId : String) (hnames : NamesPoint format s q pointId) :
    NamesPoint format t q' pointId := by
  rcases subject_fields q q' hsubject with ⟨hid, hdue, -, -⟩
  rcases hnames with ⟨e, hrecord, hevidence, hdetail⟩
  refine ⟨e, ?_, ?_, ?_⟩
  · rw [hid]
    exact recorded_grows s t h _ _ hrecord
  · rw [hid]
    exact hevidence
  · rw [hdue]
    exact hdetail

theorem receipted_grows (s t : PolicyDb) (h : Grows s t) (r : DrillReceiptRow) (q q' : RequestRow)
    (hsubject : q'.subject = q.subject) (hstatus : q'.status = .completed)
    (hreceipt : Receipted format s r q) : Receipted format t r q' := by
  rcases subject_fields q q' hsubject with ⟨hid, hdue, hkind, -⟩
  rcases hreceipt.record with ⟨receipt, hrecord, hdrill, hpoint, hloss⟩
  refine ⟨hreceipt.drill.trans hid.symm, hkind.trans hreceipt.kind, hstatus,
    namesPoint_grows s t h q q' hsubject _ hreceipt.names, receipt,
    recorded_grows s t h _ _ hrecord, hdrill.trans hid.symm, hpoint, ?_⟩
  rw [hdue]
  exact hloss

/-! ## Requests that complete no drill -/

/-- What only adds records and open requests leaves drills as they are. -/
theorem drilled_same (db db' : PolicyDb) (h : Drilled format db) (new : Option RequestRow)
    (hnew : ∀ r ∈ new, r.status = .pending ∧ r.operationalRecordId = r.requestId)
    (hrequests : db'.requests = new.elim db.requests (insertOrIgnore db.requests))
    (hrecords : ∀ row ∈ db.records, row ∈ db'.records)
    (hreceipts : db'.drillReceipts = db.drillReceipts) : Drilled format db' ∧ Grows db db' := by
  have hcases : db'.requests = db.requests ∨ ∃ r ∈ new, RequestRow.admits db.requests r = true ∧
      db'.requests = db.requests ++ [r] := by
    cases new with
    | none => exact Or.inl hrequests
    | some r =>
        change db'.requests = insertOrIgnore db.requests r at hrequests
        unfold insertOrIgnore at hrequests
        split at hrequests
        · next hadm => exact Or.inr ⟨r, rfl, hadm, hrequests⟩
        · exact Or.inl hrequests
  have hmono : ∀ q ∈ db.requests, q ∈ db'.requests := by
    intro q hq
    rcases hcases with hsame | ⟨r, -, -, hadded⟩
    · rw [hsame]; exact hq
    · rw [hadded]; exact List.mem_append_left _ hq
  have hgrows : Grows db db' := ⟨fun q hq => ⟨q, hmono q hq, rfl⟩, hrecords⟩
  refine ⟨⟨?_, ?_, ?_, ?_, ?_⟩, hgrows⟩
  · rcases hcases with hsame | ⟨r, -, hadm, hadded⟩
    · rw [hsame]; exact h.ids
    · rw [hadded]
      simp only [RequestRow.admits, Bool.and_eq_true] at hadm
      exact Table.map_concat_nodup RequestRow.requestId _ r h.ids
        ((fresh_iff _ _ _).mp hadm.1.1.1.1.1)
  · intro q hq
    rcases hcases with hsame | ⟨r, hr, -, hadded⟩
    · exact h.recorded q (hsame ▸ hq)
    · rw [hadded] at hq
      rcases List.mem_append.mp hq with hold | hlast
      · exact h.recorded q hold
      · rw [List.mem_singleton.mp hlast]
        exact (hnew r hr).2
  · rw [hreceipts]; exact h.drills
  · intro r hr
    rw [hreceipts] at hr
    rcases h.receipts r hr with ⟨q, hq, hreceipted⟩
    exact ⟨q, hmono q hq, receipted_grows db db' hgrows r q q rfl hreceipted.completed hreceipted⟩
  · intro q hq hcompleted
    rw [hreceipts]
    rcases hcases with hsame | ⟨r, hr, -, hadded⟩
    · exact h.completed q (hsame ▸ hq) hcompleted
    · rw [hadded] at hq
      rcases List.mem_append.mp hq with hold | hlast
      · exact h.completed q hold hcompleted
      · rw [List.mem_singleton.mp hlast, (hnew r hr).1] at hcompleted
        cases hcompleted

/-! ## Requests that complete a drill -/

variable (format) in
/-- What a lead knows when it completes a drill. -/
structure Ready (input : DrillInput) (b : DrillBatch) (db : PolicyDb) : Prop where
  request : b.requestId = input.requestId
  project : b.projectId = input.projectId
  grant : b.grantId = input.grantId
  fence : b.fence = input.fence
  now : b.now = input.now
  drill : b.receipt.drillId = b.requestId
  record : b.prepared.operationalRecordId = b.receipt.receiptId ∧
    b.prepared.contentSha256 = format.contentSha256 (.operational (.receipt b.receipt))
  named : ∃ q ∈ db.requests, q.requestId = b.requestId ∧ q.requestKind = .continuityDrill ∧
    NamesPoint format db q b.receipt.restoredContinuityPointId ∧
    q.dueAt ≤ b.receipt.simulatedLeadLossAt

/-- What the batch does to a request. -/
def DrillBatch.close (b : DrillBatch) (r : RequestRow) : RequestRow :=
  if b.completes r then { r with status := .completed, completedAt := some b.now } else r

theorem close_subject (b : DrillBatch) (r : RequestRow) : (b.close r).subject = r.subject := by
  unfold DrillBatch.close
  split <;> rfl

/-- What a batch that goes through has found: the lease is current, the receipt is of a
    drill that had none, and the request was open. -/
theorem completeDrill_passes (b : DrillBatch) (w : Outside) (db : PolicyDb)
    (hdrilled : Drilled format db) (hdrill : b.receipt.drillId = b.requestId)
    (h : Passes (b.writes w) db) :
    (∃ l ∈ db.leases, l.current b.projectId b.grantId b.fence b.now = true) ∧
      (∀ r ∈ db.drillReceipts, r.drillId ≠ b.requestId) ∧
      ∃ q ∈ db.requests, b.completes q = true := by
  unfold DrillBatch.writes insertReceipt at h
  rcases h with ⟨-, hreceipt, -, -, hrequire, -⟩
  rw [Write.require_passes, Bool.and_eq_true] at hrequire
  rcases hrequire with ⟨hfence, hsettled⟩
  have hfresh : ∀ r ∈ db.drillReceipts, r.drillId ≠ b.requestId := by
    have hadmits := (Write.insertAll_single _ _ _ _ _ _).mp hreceipt
    simp only [DrillReceiptRow.admits, Bool.and_eq_true] at hadmits
    have hnew := (fresh_iff _ _ _).mp hadmits.1.2
    intro r hr heq
    exact hnew r hr (heq.trans hdrill.symm)
  refine ⟨?_, hfresh, ?_⟩
  · simp only [liveFence, Bool.and_eq_true] at hfence
    exact List.any_eq_true.mp hfence.1.1
  · simp only [DrillBatch.settled, Bool.and_eq_true] at hsettled
    rcases List.any_eq_true.mp hsettled.1 with ⟨q, hq, hclosed⟩
    simp only [Bool.and_eq_true, decide_eq_true_eq] at hclosed
    rcases List.mem_map.mp hq with ⟨q', hq', rfl⟩
    by_cases hcompletes : b.completes q' = true
    · exact ⟨q', hq', hcompletes⟩
    · -- A request that was completed before has a receipt.
      rw [if_neg hcompletes] at hclosed
      rcases hdrilled.completed q' hq' hclosed.1.2 with ⟨r, hr, hid⟩
      exact absurd (hid.trans hclosed.1.1.1) (hfresh r hr)

/-- A drill that is completed has its receipt, and its request is closed. -/
theorem completeDrill_drilled (input : DrillInput) (b : DrillBatch) (w : Outside) (db : PolicyDb)
    (h : Drilled format db) (hready : Ready format input b db) (hpasses : Passes (b.writes w) db) :
    Drilled format (written (b.writes w) db) ∧ Grows db (written (b.writes w) db) := by
  rcases completeDrill_passes b w db h hready.drill hpasses with ⟨-, hfresh, -⟩
  have hrequests : (written (b.writes w) db).requests = db.requests.map b.close := rfl
  have hreceipts : (written (b.writes w) db).drillReceipts = db.drillReceipts ++ [b.receiptRow] := rfl
  have hrecords : (written (b.writes w) db).records = db.records ++ [b.prepared.row] := rfl
  have hgrows : Grows db (written (b.writes w) db) := by
    refine ⟨fun q hq => ⟨b.close q, hrequests ▸ List.mem_map_of_mem hq, close_subject b q⟩, ?_⟩
    intro row hrow
    rw [hrecords]
    exact List.mem_append_left _ hrow
  have hid : ∀ q, (b.close q).requestId = q.requestId := fun q =>
    (subject_fields q _ (close_subject b q)).1
  refine ⟨⟨?_, ?_, ?_, ?_, ?_⟩, hgrows⟩
  · have hids : (written (b.writes w) db).requests.map RequestRow.requestId =
        db.requests.map RequestRow.requestId := by
      rw [hrequests, List.map_map]
      exact List.map_congr_left (fun q _ => hid q)
    rw [hids]
    exact h.ids
  · intro q hq
    rw [hrequests] at hq
    rcases List.mem_map.mp hq with ⟨q', hq', rfl⟩
    rw [hid, ← h.recorded q' hq']
    exact (subject_fields q' _ (close_subject b q')).2.2.2
  · rw [hreceipts]
    exact Table.map_concat_nodup DrillReceiptRow.drillId _ b.receiptRow h.drills
      (fun r hr heq => hfresh r hr (heq.trans hready.drill))
  · intro r hr
    rw [hreceipts] at hr
    rcases List.mem_append.mp hr with hold | hnew
    · rcases h.receipts r hold with ⟨q, hq, hreceipted⟩
      -- A request that has a receipt is not the one that is closed now.
      have hstays : b.close q = q := by
        unfold DrillBatch.close
        rw [if_neg]
        intro hcompletes
        simp only [DrillBatch.completes, RequestRow.isOpen, Bool.and_eq_true,
          decide_eq_true_eq] at hcompletes
        exact hfresh r hold (hreceipted.drill.trans hcompletes.1.1)
      refine ⟨q, ?_, receipted_grows db _ hgrows r q q rfl hreceipted.completed hreceipted⟩
      rw [hrequests]
      exact hstays ▸ List.mem_map_of_mem hq
    · rw [List.mem_singleton.mp hnew]
      rcases hready.named with ⟨q, hq, hqid, hkind, hnames, hdue⟩
      rcases (completeDrill_passes b w db h hready.drill hpasses).2.2 with ⟨q', hq', hcompletes⟩
      have hsame : q' = q := by
        simp only [DrillBatch.completes, Bool.and_eq_true, decide_eq_true_eq] at hcompletes
        exact List.inj_on_of_nodup_map h.ids hq' hq (hcompletes.1.1.trans hqid.symm)
      rw [hsame] at hcompletes
      have hstatus : (b.close q).status = .completed := by
        unfold DrillBatch.close
        rw [if_pos hcompletes]
      refine ⟨b.close q, hrequests ▸ List.mem_map_of_mem hq, ?_, ?_, hstatus,
        namesPoint_grows db _ hgrows q _ (close_subject b q) _ hnames, b.receipt, ?_, ?_, rfl, ?_⟩
      · exact hready.drill.trans (hqid.symm.trans (hid q).symm)
      · exact (subject_fields q _ (close_subject b q)).2.2.1.trans hkind
      · refine ⟨b.prepared.row, ?_, hready.record.1, hready.record.2⟩
        rw [hrecords]
        exact List.mem_append_right _ (List.mem_singleton_self _)
      · exact hready.drill.trans (hqid.symm.trans (hid q).symm)
      · exact (subject_fields q _ (close_subject b q)).2.1.le.trans hdue
  · intro q hq hcompleted
    rw [hreceipts]
    rw [hrequests] at hq
    rcases List.mem_map.mp hq with ⟨q', hq', rfl⟩
    rw [hid]
    by_cases hcompletes : b.completes q' = true
    · refine ⟨b.receiptRow, List.mem_append_right _ (List.mem_singleton_self _), ?_⟩
      simp only [DrillBatch.completes, Bool.and_eq_true, decide_eq_true_eq] at hcompletes
      exact hready.drill.trans hcompletes.1.1.symm
    · unfold DrillBatch.close at hcompleted
      rw [if_neg hcompletes] at hcompleted
      rcases h.completed q' hq' hcompleted with ⟨r, hr, hdrill⟩
      exact ⟨r, List.mem_append_left _ hr, hdrill⟩

variable (format) in
/-- A call completes no drill but the one it was made for. -/
def CompletesOwn (call : PolicyCall) (op : PolicyOp) (db : PolicyDb) : Prop :=
  match op with
  | .completeDrill b => ∃ input, call = .completeContinuityDrill input ∧ Ready format input b db
  | _ => True

/-- A request that completes a drill. -/
def PolicyOp.drills : PolicyOp → Bool
  | completeDrill _ => true
  | _ => false

/-- What a call may send that completes no drill. -/
def NoDrill (op : PolicyOp) : Prop :=
  op.drills = false

/-- Clocks that are moved change nothing but the schedules. -/
theorem advances_written (as : List Advance) (db : PolicyDb) :
    ∃ schedules, written (as.map Advance.write) db = { db with schedules := schedules } := by
  induction as generalizing db with
  | nil => exact ⟨_, rfl⟩
  | cons a as ih =>
      rcases ih (a.write.update db) with ⟨schedules, hrest⟩
      exact ⟨schedules, hrest⟩

/-- A request that completes no drill leaves the receipts. -/
theorem exec_drillReceipts (op : PolicyOp) (w : Outside) (db : PolicyDb)
    (h : NoDrill op) : (exec op w db).2.drillReceipts = db.drillReceipts := by
  by_cases hquiet : op.quiet = true
  · exact (exec_quiet op w db hquiet).2.2.2
  · rcases policy.exec_cases op w db with hsame | ⟨-, hwritten⟩
    · rw [hsame]
    · rw [hwritten]
      cases op with
      | insertRequest b => exact rfl
      | insertReport b => exact rfl
      | advance as =>
          rcases advances_written as db with ⟨schedules, heq⟩
          change (written (as.map Advance.write) db).drillReceipts = _
          rw [heq]
      | completeDrill b => cases h
      | activate b =>
          change (written b.writes db).drillReceipts = _
          unfold ActivateBatch.writes
          rw [written_append, written_append, insertRecords_written]
          unfold ActivateBatch.supersede
          cases b.existingBindingId <;> rfl
      | _ => exact absurd rfl hquiet

/-- Every request leaves drills as they should be. -/
theorem exec_drilled (call : PolicyCall) (op : PolicyOp) (w : Outside) (db : PolicyDb)
    (h : Drilled format db) (hop : CompletesOwn format call op db) :
    Drilled format (exec op w db).2 ∧ Grows db (exec op w db).2 := by
  by_cases hquiet : op.quiet = true
  · rcases exec_quiet op w db hquiet with ⟨hrequests, -, hrecords, hreceipts⟩
    exact drilled_same db _ h none nofun hrequests (fun row hrow => hrecords ▸ hrow) hreceipts
  · rcases policy.exec_cases op w db with hsame | ⟨hpasses, hwritten⟩
    · rw [hsame]
      exact ⟨h, grows_refl db⟩
    · rw [hwritten]
      have hbatch : ∀ b : RequestBatch,
          Drilled format (written b.writes db) ∧ Grows db (written b.writes db) := by
        intro b
        refine drilled_same db _ h b.evidence.requestRow (fun r hr => ?_) rfl (fun row hrow => ?_) rfl
        · rcases requestRow_facts b.evidence r hr with ⟨hid, hrecord, hstatus⟩
          exact ⟨hstatus, hrecord.trans hid.symm⟩
        · exact List.mem_append_left _ hrow
      cases op with
      | insertRequest b => exact hbatch b
      | insertReport b => exact hbatch b
      | advance as =>
          rcases advances_written as db with ⟨schedules, heq⟩
          change Drilled format (written (as.map Advance.write) db) ∧
            Grows db (written (as.map Advance.write) db)
          rw [heq]
          exact drilled_same db _ h none nofun rfl (fun _ hrow => hrow) rfl
      | completeDrill b =>
          rcases hop with ⟨input, -, hready⟩
          exact completeDrill_drilled input b w db h hready hpasses
      | activate b =>
          rcases activate_written b db with ⟨db₁, -, -, hrecords₁, -, hrequests, hrecords, -⟩
          refine drilled_same db _ h none nofun hrequests (fun row hrow => ?_)
            (hwritten ▸ exec_drillReceipts (.activate b) w db rfl)
          change row ∈ (written b.writes db).records
          rw [hrecords, hrecords₁]
          exact List.mem_append_left _ hrow
      | _ => exact absurd rfl hquiet

/-! ## The lead that completes a drill -/

/-- A call goes on with a result that has a property, and completes no drill but its
    own, whatever others do. -/
abbrev Completes {α : Type} (format : PolicyFormat) (call : PolicyCall) (Q : α → PolicyDb → Prop)
    (p : PolicyProcess α) (s : PolicyDb) : Prop :=
  p.Meets exec (fun _ _ _ => True) (Drilled format) Grows (CompletesOwn format call)
    (Interface.Returns Q) s

/-- A fact that no request of others can make false. -/
abbrev Stays (K : PolicyDb → Prop) : Prop :=
  ∀ s t, Grows s t → K s → K t

theorem reads_noDrill (op : PolicyOp) (h : op.reads = true) : NoDrill op := by
  cases op with
  | completeDrill b => cases h
  | _ => exact rfl

theorem ask_noDrill (op : PolicyOp) (h : op.drills = false) :
    (ask op).Within NoDrill (fun _ => True) :=
  ask_within op h

variable (call : PolicyCall)

theorem own_of_noDrill (op : PolicyOp) (h : NoDrill op) (t : PolicyDb) :
    CompletesOwn format call op t := by
  cases op with
  | completeDrill b => cases h
  | _ => exact trivial

/-- What only reads and stores leaves a fact that stays. -/
theorem within_completes {α : Type} (K : PolicyDb → Prop) (hK : Stays K) (p : PolicyProcess α)
    (s : PolicyDb) (hs : K s) (hp : p.Within NoDrill (fun _ => True)) :
    Completes format call (fun _ => K) p s := by
  refine Interface.meets_quiet K hK (fun op w t hJ hop _ => (exec_drilled call op w t hJ hop).2) p s hs
    (within_mono (fun op hop => own_of_noDrill call op hop) p hp)

/-- What was read still holds, and so does what stays. -/
theorem read_completes (K : PolicyDb → Prop) (hK : Stays K) (op : PolicyOp)
    (hop : NoDrill op) (hwrites : ∀ w, policy.writes op w = []) (s : PolicyDb) (hs : K s) :
    Completes format call (fun r t => K t ∧ ∃ w, policy.answer op w t = .ok r) (ask op) s := by
  refine meets_mono (fun _ _ h => h) (fun r t h => ?_) _ s
    (Interface.meets_read K hK op (own_of_noDrill call op hop) hwrites s hs)
  cases r with
  | ok a => exact h.2
  | error e => exact trivial

/-- A fact that stays holds besides. -/
theorem frame_completes {α : Type} {Q : α → PolicyDb → Prop} (K : PolicyDb → Prop) (hK : Stays K)
    (p : PolicyProcess α) (s : PolicyDb) (hs : K s) (hp : Completes format call Q p s) :
    Completes format call (fun a t => Q a t ∧ K t) p s :=
  Interface.meets_beside K hK (fun op w t hJ hop _ => (exec_drilled call op w t hJ hop).2) p s hs hp

/-- A record that was read has the contents that were read. -/
theorem recordOf_recorded (row : OperationalRecordRow) (object : Option StoredObject)
    (record : PolicyOperationalRecord) (h : recordOf format row object = .ok record) :
    row.contentSha256 = format.contentSha256 (.operational record) := by
  unfold recordOf at h
  split at h
  · cases h
  · next object =>
    split at h
    · cases h
    · next hintact =>
      split at h
      · next r hbody =>
        split at h
        · rw [← Except.ok.inj h, ← hbody]
          simp only [Bool.or_eq_true, decide_eq_true_eq, not_or, not_not] at hintact
          exact hintact.2.symm
        · cases h
      · cases h

theorem readPolicyOperationalRecord_completes (id : String) (s : PolicyDb) :
    Completes format call (fun record? t => ∀ record ∈ record?, Recorded format t id record)
      (readPolicyOperationalRecord format id) s := by
  refine Interface.meets_then (read_completes call (fun _ => True) (fun _ _ _ h => h)
    (.readRecordRow id) rfl (fun _ => rfl) s trivial) ?_
  rintro row? t ⟨-, w, hread⟩
  cases row? with
  | none =>
      intro record hrecord
      exact absurd hrecord (Option.not_mem_none record)
  | some row =>
      have hfound := Except.ok.inj hread
      have hrow : row ∈ t.records ∧ row.operationalRecordId = id := by
        have hid := List.find?_some hfound
        exact ⟨List.mem_of_find?_eq_some hfound, of_decide_eq_true hid⟩
      refine Interface.meets_then (read_completes call (fun t => row ∈ t.records)
        (fun _ _ h hmem => h.records row hmem) (.getObject row.bodyObjectKey) rfl (fun _ => rfl) t
          hrow.1) ?_
      rintro object u ⟨hmem, -, -⟩
      refine meets_ofExcept _ _ u (fun record hrecord => ?_) (fun _ _ => trivial)
      intro record' hrecord'
      rw [← Option.some.inj hrecord']
      exact ⟨row, hmem, hrow.2, recordOf_recorded row object record hrecord⟩

/-- What a lead has found of a request. -/
structure Found (input : DrillInput) (scheduled : RequestRow) (db : PolicyDb) : Prop where
  request : ∃ q ∈ db.requests, q.subject = scheduled.subject
  id : scheduled.requestId = input.requestId
  kind : scheduled.requestKind = .continuityDrill

section

variable (input : DrillInput) (scheduled : RequestRow)

theorem found_stays :
    Stays (Found input scheduled) := by
  intro s t h hfound
  rcases hfound.request with ⟨q, hq, hsubject⟩
  rcases h.requests q hq with ⟨q', hq', hsubject'⟩
  exact { hfound with request := ⟨q', hq', hsubject'.trans hsubject⟩ }

theorem readScheduledRequest_found (w : Outside) (db : PolicyDb)
    (scheduled : RequestRow)
    (h : policy.answer (.readScheduledRequest input.requestId input.projectId) w db =
      .ok (some scheduled)) : Found input scheduled db := by
  have hfound := Except.ok.inj h
  have hpassed := List.find?_some hfound
  simp only [Bool.and_eq_true, decide_eq_true_eq] at hpassed
  exact ⟨⟨scheduled, List.mem_of_find?_eq_some hfound, rfl⟩, hpassed.1.1.1.1, hpassed.1.1.2⟩

/-- The record of the request, as it was read. -/
theorem readDrillBodies_completes (pointId : String)
    (s : PolicyDb) (hs : Found input scheduled s) :
    Completes format call (fun bodies t => (∀ record ∈ bodies.1,
        Recorded format t scheduled.operationalRecordId record) ∧ Found input scheduled t)
      (readDrillBodies format scheduled pointId) s := by
  refine frame_completes call _ (found_stays input scheduled) _ s hs ?_
  refine meets_tryCatch _ _ s (meets_bind _ _ s ?_)
  refine meets_mono (fun _ _ h => h) (fun r t h => ?_) _ s
    (readPolicyOperationalRecord_completes call scheduled.operationalRecordId s)
  cases r with
  | error e => exact trivial
  | ok record? =>
      refine meets_bind _ _ t ?_
      refine meets_mono (fun _ _ h => h) (fun r u h' => ?_) _ t
        (within_completes call (fun t => ∀ record ∈ record?, Recorded format t _ record)
          (fun s t hgrows hk record hrecord => recorded_grows s t hgrows _ _ (hk record hrecord)) _ t h
          (within_bind (ask_noDrill _ rfl) (fun row? _ =>
            readContinuityPointBody_within format reads_noDrill row?)))
      cases r with
      | error e => exact trivial
      | ok point => exact h'

/-- A receipt that is accepted is of what the record of the request says. -/
theorem accepts_named (record? : Option PolicyOperationalRecord) (point : Option StoredContinuityPoint)
    (context : PointContext) (h : input.accepts scheduled record? point context = true) :
    (∃ e window workItemId workPacketId, record? = some (.evidence e) ∧
      e.evidenceId = input.requestId ∧ e.detail = .continuityDrillRequest scheduled.dueAt window
        input.receipt.restoredContinuityPointId workItemId workPacketId) ∧
      scheduled.dueAt ≤ input.receipt.simulatedLeadLossAt := by
  simp only [DrillInput.accepts, Bool.and_eq_true, decide_eq_true_eq] at h
  refine ⟨?_, h.1.2⟩
  have hnames := h.1.1.1.1.1.1.1
  unfold DrillInput.names at hnames
  split at hnames
  · next e =>
    simp only [Bool.and_eq_true, decide_eq_true_eq] at hnames
    rcases hnames with ⟨⟨⟨hid, -⟩, -⟩, hdetail⟩
    split at hdetail
    · next dueAt window pointId workItemId workPacketId hkind =>
      simp only [Bool.and_eq_true, decide_eq_true_eq] at hdetail
      refine ⟨e, window, workItemId, workPacketId, rfl, hid, ?_⟩
      rw [hkind, hdetail.1.1.1, hdetail.1.1.2]
    · cases hdetail
  · cases hnames

/-- What the lead has found is what the batch needs. -/
theorem ready_of_found (db : PolicyDb)
    (hdrilled : Drilled format db) (hvalid : input.valid = true) (hfound : Found input scheduled db)
    (record? : Option PolicyOperationalRecord) (point : Option StoredContinuityPoint)
    (context : PointContext)
    (hrecord : ∀ record ∈ record?, Recorded format db scheduled.operationalRecordId record)
    (haccepts : input.accepts scheduled record? point context = true) :
    Ready format input (input.batch format
      (prepared format (.receipt input.receipt) input.portableObjectId) context.contentSha256) db := by
  simp only [DrillInput.valid, Bool.and_eq_true, decide_eq_true_eq] at hvalid
  refine ⟨rfl, rfl, rfl, rfl, rfl, hvalid.1.2, ⟨rfl, rfl⟩, ?_⟩
  rcases accepts_named input scheduled record? point context haccepts with
    ⟨⟨e, window, workItemId, workPacketId, hsome, hid, hdetail⟩, hdue⟩
  rcases hfound.request with ⟨q, hq, hsubject⟩
  rcases subject_fields scheduled q hsubject with ⟨hqid, hqdue, hqkind, hqrecord⟩
  refine ⟨q, hq, hqid.trans hfound.id, hqkind.trans hfound.kind, ?_, hqdue.le.trans hdue⟩
  refine ⟨e, ?_, hid.trans (hqid.trans hfound.id).symm, window, workItemId, workPacketId, ?_⟩
  · rw [← hdrilled.recorded q hq, hqrecord]
    exact hrecord _ hsome
  · rw [hqdue]
    exact hdetail

theorem commitDrill_completes (pointSha256 : String) (s : PolicyDb)
    (hready : ∀ t, Drilled format t → Grows s t → Ready format input (input.batch format
      (prepared format (.receipt input.receipt) input.portableObjectId) pointSha256) t) :
    Completes format (.completeContinuityDrill input) (fun _ _ => True)
      (commitDrill format input pointSha256) s := by
  refine Interface.meets_then (M := fun record t => record = prepared format
      (.receipt input.receipt) input.portableObjectId ∧ Grows s t) ?_ ?_
  · refine meets_ite (fun _ => trivial) (fun _ => ?_)
    refine meets_ite (fun _ => trivial) (fun _ => ?_)
    refine Interface.meets_then (within_completes _ (fun t => Grows s t)
      (fun t u h hk => grows_trans s t u hk h) _ s (grows_refl s) (ask_noDrill _ rfl)) ?_
    exact fun _ t ht => ⟨rfl, ht⟩
  · rintro record t ⟨rfl, ht⟩
    refine meets_tryCatch _ _ t (meets_request _ _ t (fun u hu htu => ⟨?_, fun w _ => ⟨?_, ?_⟩⟩))
    · exact ⟨input, rfl, hready u hu (grows_trans s t u ht htu)⟩
    · exact fun _ _ => trivial
    · intro error _
      exact Interface.meets_then (within_completes _ (fun _ => True) (fun _ _ _ h => h) _ _
        trivial (ask_noDrill _ rfl)) (fun _ _ _ => trivial)

/-- A lead completes only the drill it was asked to, and it knows what the batch needs. -/
theorem completeContinuityDrill_ready (s : PolicyDb) :
    Completes format (.completeContinuityDrill input) (fun _ _ => True)
      (completeContinuityDrill format input) s := by
  have hread : ∀ op : PolicyOp, NoDrill op → (∀ w, policy.writes op w = []) →
      ∀ t, Completes format (.completeContinuityDrill input)
        (fun r t => True ∧ ∃ w, policy.answer op w t = .ok r) (ask op) t :=
    fun op hop hwrites t => read_completes _ (fun _ => True) (fun _ _ _ h => h) op hop hwrites t trivial
  refine meets_ite (fun _ => trivial) (fun hvalid => ?_)
  rw [Bool.not_eq_true', Bool.not_eq_false] at hvalid
  refine Interface.meets_then (hread (.authorizeLead ..) rfl (fun _ => rfl) s)
    (fun _ t _ => ?_)
  refine Interface.meets_then (hread (.readReceipt ..) rfl (fun _ => rfl) t)
    (fun prior u _ => ?_)
  cases prior with
  | some row => exact meets_ite (fun _ => trivial) (fun _ => trivial)
  | none =>
      refine Interface.meets_then (hread (.readScheduledRequest ..) rfl (fun _ => rfl) u) ?_
      rintro scheduled? v ⟨-, w, hscheduled⟩
      cases scheduled? with
      | none => exact trivial
      | some scheduled =>
          refine Interface.meets_then (readDrillBodies_completes _ input scheduled _ v
            (readScheduledRequest_found input w v scheduled hscheduled)) (fun bodies x hx => ?_)
          have hlasts : Stays (fun t => (∀ record ∈ bodies.1,
              Recorded format t scheduled.operationalRecordId record) ∧ Found input scheduled t) :=
            fun s t h hk => ⟨fun record hrecord => recorded_grows s t h _ _ (hk.1 record hrecord),
              found_stays input scheduled s t h hk.2⟩
          refine Interface.meets_then (read_completes _ _ hlasts (.readPointContext ..) rfl
            (fun _ => rfl) x hx) ?_
          rintro context? y ⟨hy, -⟩
          cases context? with
          | none => exact trivial
          | some context =>
              refine meets_ite (fun haccepts => ?_) (fun _ => trivial)
              refine commitDrill_completes input context.contentSha256 y (fun t ht hyt => ?_)
              rcases hlasts y t hyt hy with ⟨hrecord, hfound⟩
              exact ready_of_found input scheduled t ht hvalid hfound bodies.1 bodies.2 context hrecord
                haccepts

end

/-- Every function completes no drill but the one it was made for. -/
theorem process_completes (s : PolicyDb) :
    (call.process format).Meets exec (fun _ _ _ => True) (Drilled format) Grows
      (CompletesOwn format call) (fun _ _ => True) s := by
  have hrest : ∀ p : PolicyProcess PolicyResult,
      p.Within NoDrill (fun _ => True) →
      p.Meets exec (fun _ _ _ => True) (Drilled format) Grows (CompletesOwn format call)
        (fun _ _ => True) s := fun p hp =>
    meets_mono (fun _ _ h => h) (fun _ _ _ => trivial) p s
      (within_completes call (fun _ => True) (fun _ _ _ h => h) p s trivial hp)
  cases call with
  | runScheduledPolicyOperations input =>
      exact hrest _ (within_bind (runScheduledPolicyOperations_within format
        reads_noDrill (fun _ _ => rfl) (fun _ => rfl) (fun _ => rfl) (fun _ _ => rfl) input) (fun _ _ => trivial))
  | completeContinuityDrill input =>
      refine meets_mono (Q := Interface.Returns (fun _ _ => True)) (fun _ _ h => h)
        (fun _ _ _ => trivial) _ s ?_
      exact Interface.meets_then (completeContinuityDrill_ready input s) (fun _ _ _ => trivial)
  | activateProjectPolicyBinding input =>
      exact hrest _ (within_bind (activateProjectPolicyBinding_within format
        reads_noDrill (fun _ _ => rfl) (fun _ => rfl) input) (fun _ _ => trivial))
  | surrounding op => exact hrest _ (within_bind (ask_noDrill _ rfl) (fun _ _ => trivial))

end Records

/-! ## Runs -/

section Runs

variable {ι : Type} [DecidableEq ι] (format : PolicyFormat) (calls : ι → PolicyCall)

/-- In a pool of calls there are receipts exactly of what was completed, and every call
    completes no drill but its own. -/
abbrev Completing (c : PolicyPool ι) : Prop :=
  Pool.Sound exec (fun _ _ _ => True) (Drilled format) (fun _ => Grows)
    (fun i => CompletesOwn format (calls i)) (fun _ _ _ => True) c

theorem run_completing (es : List (ι × Outside)) :
    Completing format calls (Pool.run exec (startPool format calls emptyDb) es) := by
  refine Run.runFrom_keeps _ (Completing format calls) (fun c e hc => ?_) _ es ⟨?_, fun i =>
    ⟨emptyDb, grows_refl emptyDb, process_completes (calls i) emptyDb⟩⟩
  · refine Pool.step_sound (R := fun _ => Grows) (fun _ s _ => grows_refl s)
      (fun _ => grows_trans) ?_ c e hc (fun _ _ => trivial)
    intro i op w s hs hop _
    rcases exec_drilled (calls i) op w s hs hop with ⟨hdrilled, hgrows⟩
    exact ⟨hdrilled, fun _ _ => hgrows⟩
  · exact ⟨List.nodup_nil, nofun, List.nodup_nil, nofun, nofun⟩

/-- There is one receipt of a request at most, each receipt is of a request and of what
    its record names, and a request is completed exactly if there is its receipt. -/
structure SingleReceipts (db : PolicyDb) : Prop where
  single : (db.drillReceipts.map DrillReceiptRow.drillId).Nodup
  names : ∀ r ∈ db.drillReceipts, ∃ q ∈ db.requests, Receipted format db r q
  completed : ∀ q ∈ db.requests,
    q.status = .completed ↔ ∃ r ∈ db.drillReceipts, r.drillId = q.requestId

/-- A receipt that is there after a step of a call and was not before is that of a lead
    that held the lease, of a request that was open. -/
def ReceiptsFenced (call : PolicyCall) (db db' : PolicyDb) : Prop :=
  ∀ r ∈ db'.drillReceipts, r ∉ db.drillReceipts → ∃ input, call = .completeContinuityDrill input ∧
    r.drillId = input.requestId ∧
    (∃ l ∈ db.leases, l.current input.projectId input.grantId input.fence input.now = true) ∧
    ∃ q ∈ db.requests, q.requestId = input.requestId ∧ q.isOpen = true

variable {format}

theorem singleReceipts_of_drilled (db : PolicyDb) (h : Drilled format db) :
    SingleReceipts format db := by
  refine ⟨h.drills, h.receipts, fun q hq => ⟨h.completed q hq, ?_⟩⟩
  rintro ⟨r, hr, hdrill⟩
  rcases h.receipts r hr with ⟨q', hq', hreceipted⟩
  have hsame : q' = q :=
    List.inj_on_of_nodup_map h.ids hq' hq (hreceipted.drill.symm.trans hdrill)
  exact hsame ▸ hreceipted.completed

/-- Only the batch of a lead that completes a drill adds a receipt. -/
theorem exec_fenced (call : PolicyCall) (op : PolicyOp) (w : Outside) (db : PolicyDb)
    (h : Drilled format db) (hop : CompletesOwn format call op db) :
    ReceiptsFenced call db (exec op w db).2 := by
  intro r hr hnew
  cases hdrill : op.drills with
  | false =>
      rw [exec_drillReceipts op w db hdrill] at hr
      exact absurd hr hnew
  | true =>
      cases op with
      | completeDrill b =>
          rcases hop with ⟨input, hcall, hready⟩
          rcases policy.exec_cases (.completeDrill b) w db with hsame | ⟨hpasses, hwritten⟩
          · rw [hsame] at hr
            exact absurd hr hnew
          · rcases completeDrill_passes b w db h hready.drill hpasses with
              ⟨⟨l, hl, hcurrent⟩, -, q, hq, hopen⟩
            rw [hready.project, hready.grant, hready.fence, hready.now] at hcurrent
            have hadded : (exec (.completeDrill b) w db).2.drillReceipts =
                db.drillReceipts ++ [b.receiptRow] := congrArg PolicyDb.drillReceipts hwritten
            rw [hadded] at hr
            have hr' := List.mem_singleton.mp ((List.mem_append.mp hr).resolve_left hnew)
            simp only [DrillBatch.completes, Bool.and_eq_true, decide_eq_true_eq] at hopen
            refine ⟨input, hcall, ?_, ⟨l, hl, hcurrent⟩, q, hq, hopen.1.1.trans hready.request, hopen.2⟩
            rw [hr']
            exact hready.drill.trans hready.request
      | _ => cases hdrill

theorem step_fenced (c : PolicyPool ι) (e : ι × Outside) (hc : Completing format calls c) :
    ReceiptsFenced (calls e.1) c.shared (Pool.step exec c e).shared := by
  rcases Pool.step_shared exec c e with ⟨-, hsame⟩ | ⟨op, hnext, hshared⟩
  · rw [hsame]
    exact fun r hr hnew => absurd hr hnew
  · rw [hshared]
    exact exec_fenced (calls e.1) op e.2 c.shared hc.1 (Pool.takes_allowed c e.1 op hc hnext)

variable (format)

/-- Whatever the calls, however their requests are interleaved and fail: in every state
    there is one receipt of a request at most, of the checkpoint that the record of the
    request names and of a loss after it was due, and there is one exactly if the
    request is completed. A receipt is added under the lease that is current, while the
    request is open. -/
theorem drills_completed (es : List (ι × Outside)) :
    (∀ pre, pre <+: es →
      SingleReceipts format (Pool.run exec (startPool format calls emptyDb) pre).shared) ∧
    ∀ pre e, pre ++ [e] <+: es →
      ReceiptsFenced (calls e.1) (Pool.run exec (startPool format calls emptyDb) pre).shared
        (Pool.run exec (startPool format calls emptyDb) (pre ++ [e])).shared := by
  constructor
  · intro pre _
    exact singleReceipts_of_drilled _ (run_completing format calls pre).1
  · intro pre e _
    have hrun : Pool.run exec (startPool format calls emptyDb) (pre ++ [e]) =
        Pool.step exec (Pool.run exec (startPool format calls emptyDb) pre) e :=
      Run.runFrom_concat _ _ pre e
    rw [hrun]
    exact step_fenced calls _ e (run_completing format calls pre)

end Runs

/-! ## A drill -/

section Sample

/-- A format under which every text is its own hash. -/
def plainFormat : PolicyFormat :=
  { sha256Hex := fun text => text
    contentSha256 := fun body =>
      match body with
      | .operational record => record.recordId
      | .point point => point.continuityPointId
      | .text text => text
    byteLength := fun _ => 1 }

/-- A request that is answered, while every grant is in force. -/
def answered : Outside :=
  { outcome := .answered, problem := none, grantValid := true, holderValid := true
    verified := true, epoch := 100 }

/-- The checkpoint that the lead acknowledges. -/
def samplePoint : ContinuityPoint :=
  { continuityPointId := "point", knowledgeSpaceVersionId := "space", workPacketId := "packet"
    workPacketSha256 := "packet", previousContinuityPointId := none, projectId := "project"
    projectVersionId := "project-version", acknowledgedAt := 100, leadFencingToken := 1
    workItemId := "item", workItemVersionId := "item-version" }

def sampleRecord (id : String) (recordType : CollaborationRecordType)
    (workItemId : Option String) : CollaborationRecordRow :=
  { id := id, recordType := recordType, projectId := some "project", workItemId := workItemId
    bodyObjectKey := id, byteLength := 1, contentSha256 := id, receivedAt := 10
    restoredAt := none, disposition := .pending }

/-- The owner makes a project with a policy, and a lead acknowledges a checkpoint. -/
def sampleSurroundings : List Surrounding :=
  [.createProject ⟨"project", "project-version", "space", .active⟩,
    .createWorkItem ⟨"item", "project", "item-version", .opened⟩,
    .insertRecord (sampleRecord "project-version" .projectVersion none) [],
    .insertRecord (sampleRecord "packet" .workPacket (some "item")) [],
    .insertPolicy ⟨"policy", "project", "project-version"⟩,
    .insertOperationRecord ⟨"policy", "project", "policy", 1, "policy"⟩,
    .claimLease "project" "lease" "grant" 50 1000,
    .putBody ⟨"point", 1, "point", .point samplePoint⟩,
    .acknowledgePoint
      { grantId := "grant", references := []
        point :=
          { continuityPointId := "point", projectId := "project"
            projectVersionId := "project-version", workItemId := "item"
            workItemVersionId := "item-version", knowledgeSpaceVersionId := "space"
            workPacketId := "packet", previousContinuityPointId := none
            sourceLeaseId := some "lease", sourceFencingToken := 1, bodyObjectKey := "point"
            contentSha256 := "point", byteLength := 1, acknowledgedAt := 100, restoredAt := none } }]

/-- The owner activates a binding. -/
def sampleActivation : ActivateInput :=
  { projectId := "project", checkpointIntervalSeconds := 3600, drillIntervalSeconds := 3600
    soloVerified := false, now := 200, bindingId := "binding", scheduleId := "schedule"
    evidenceIds := ["upgrade", "rollback", "health"]
    portableObjectIds := ["p1", "p2", "p3", "p4", "p5"] }

/-- Both clocks show a window before this pass. -/
def samplePass : PassInput :=
  { scheduledTime := 4000, now := 4000, ids := fun _ => ⟨"p6", "p7", "p8"⟩ }

def sampleRequestId : String :=
  requestEvidenceId plainFormat "schedule" .continuityDrill 3800

def sampleReceipt : ContinuityReceipt :=
  { receiptId := "receipt", temporaryObjectsRemoved := 0, drillId := sampleRequestId
    emittedAt := 5000, continuityAgeSeconds := 4900, recoveryChecksPassed := 1
    recoveryChecksTotal := 1, recoveryQualityBps := 10000, rpoSeconds := 4100, rtoSeconds := 100
    runtimeIndependent := true, outcome := .pass, projectId := "project"
    restoredContinuityPointId := "point", latestAcknowledgedPointAt := 100
    receiptEmittedAt := 5000, replacementProductiveAt := 4300, restoredPointAcknowledgedAt := 100
    simulatedLeadLossAt := 4200 }

/-- Another lead completes the drill. -/
def sampleDrill : DrillInput :=
  { projectId := "project", requestId := sampleRequestId, receipt := sampleReceipt
    fence := ⟨"lease2", 2⟩, grantId := "grant2", idempotencyKey := "key", requestSha256 := "sha"
    now := 5000, portableObjectId := "p9" }

def sampleCalls : List PolicyCall :=
  sampleSurroundings.map .surrounding ++
    [.activateProjectPolicyBinding sampleActivation, .runScheduledPolicyOperations samplePass,
      .surrounding (.claimLease "project" "lease2" "grant2" 4100 9000),
      .completeContinuityDrill sampleDrill]

def sampleCall (i : ℕ) : PolicyCall :=
  sampleCalls.getD i (.surrounding (.revokeLease ""))

/-- The requests of the calls, one call after the other. -/
def sampleSteps : List (ℕ × Outside) :=
  (List.range 9).map (fun i => (i, answered)) ++ List.replicate 9 (9, answered) ++
    List.replicate 40 (10, answered) ++ [(11, answered)] ++ List.replicate 12 (12, answered)

def sampleRun : PolicyPool ℕ :=
  Pool.run exec (startPool plainFormat sampleCall emptyDb) sampleSteps

/-- All that a receipt says of time. -/
def ContinuityReceipt.times (r : ContinuityReceipt) : List Int :=
  [r.emittedAt, r.latestAcknowledgedPointAt, r.receiptEmittedAt, r.replacementProductiveAt,
    r.restoredPointAcknowledgedAt, r.simulatedLeadLossAt]

/-- The lead of this run loses its lease a while after the drill was due, and nothing in
    the receipt is the time the drill was due at. -/
theorem sampleRun_receipt : ∃ r ∈ sampleRun.shared.drillReceipts,
    ∃ q ∈ sampleRun.shared.requests, r.drillId = q.requestId ∧
      Recorded plainFormat sampleRun.shared r.receiptId (.receipt sampleReceipt) ∧
      q.dueAt ∉ sampleReceipt.times := by
  unfold Recorded
  decide +kernel

end Sample

end Mdevolved.Policy
