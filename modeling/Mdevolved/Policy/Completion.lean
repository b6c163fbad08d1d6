import Mdevolved.Policy.Grounds

/-!
# Drills That Can Be Completed

An open drill stands in the way of every later one of its schedule, so there had
better be a way to complete it. The checkpoint it names has to be of the versions that
project and work item have when it is completed, and its packet must not have been
turned down. When the request is made all that is so, but nothing keeps it so while the
request is open: the owner may edit the brief, and the drill can then never be
completed, nor can it be given up.

As long as the versions and the packet stay as they are, there is a receipt that is
accepted, since everything else that is asked of it is on record. The receipt is one
that no mutation has used before.

## Main definitions

* `drillPoint`: The checkpoint that the record of a drill names.
* `Spares`: A request of the pool leaves the checkpoints of open drills in use.
* `Setting`: The state a lead completes a drill in.
* `Answerable`: There is a receipt that is accepted.

## Theorems

* `exec_inUseAll`: What leaves the checkpoints of open drills in use.
* `answerable_of_grounds`: A drill whose checkpoint is in use can be completed.
* `inUse_of_answerable`: No other drill can.
* `drills_answerable`: Drills in every run, and along a run that spares them.
* `editedRun_unanswerable`: A brief that is edited while a drill is open.
-/

namespace Mdevolved.Policy

open Batch Process

/-! ## Checkpoints of drills -/

/-- The checkpoint that a drill is requested of. -/
def EvidenceDetail.sourcePointId : EvidenceDetail → Option String
  | .continuityDrillRequest _ _ id _ _ => some id
  | _ => none

/-- The checkpoint that the record of a drill names. -/
def Body.drillPointId : Body → Option String
  | .operational (.evidence e) => e.detail.sourcePointId
  | _ => none

/-- The checkpoint of a drill: the one its record names. -/
def drillPoint (db : PolicyDb) (q : RequestRow) : Option PointRow :=
  (db.records.find? (fun r => r.operationalRecordId = q.operationalRecordId)).bind (fun row =>
    (db.objects.find? (fun o => o.key = row.bodyObjectKey)).bind (fun object =>
      object.body.drillPointId.bind (fun id =>
        db.points.find? (fun p => p.continuityPointId = id))))

section Drills

variable {format : PolicyFormat}

/-- An object that contains a record contains it. -/
theorem recordOf_body (row : OperationalRecordRow) (object : StoredObject)
    (record : PolicyOperationalRecord) (h : recordOf format row (some object) = .ok record) :
    object.body = .operational record := by
  unfold recordOf at h
  dsimp only at h
  split at h
  · cases h
  · split at h
    · next r hbody =>
      split at h
      · rw [hbody, Except.ok.inj h]
      · cases h
    · cases h

/-- The checkpoint on record about a drill is the one its record names. -/
theorem drillPoint_of_grounds (db : PolicyDb) (h : Tidy format db) (q : RequestRow) (p : PointRow)
    (hp : Grounds format db q p) : drillPoint db q = some p := by
  rcases hp.record with ⟨row, object, e, window, hrow, hobject, hread, -, -, -, hdetail⟩
  have hid : object.body.drillPointId = some p.continuityPointId := by
    rw [recordOf_body row object _ hread]
    simp only [Body.drillPointId, hdetail, EvidenceDetail.sourcePointId]
  unfold drillPoint
  rw [hrow, Option.bind_some, hobject, Option.bind_some, hid, Option.bind_some]
  exact Table.find?_of_mem PointRow.continuityPointId db.points p h.pointIds hp.point

/-- A request of the pool leaves the checkpoints of open drills in use, and a drill is
    only stored while its checkpoint is in use. -/
def Spares (op : PolicyOp) (_ : Outside) (db : PolicyDb) : Prop :=
  (∀ q ∈ db.requests, q.openDrill = true → ∀ p ∈ drillPoint db q, SparesPoint db p op) ∧
    match op with
    | .insertRequest b => ∀ id ∈ b.evidence.detail.sourcePointId,
        ∀ p ∈ db.points.find? (fun p => p.continuityPointId = id), InUse db p
    | _ => True

instance (op : PolicyOp) (w : Outside) (db : PolicyDb) : Decidable (Spares op w db) := by
  unfold Spares
  refine @instDecidableAnd _ _ _ ?_
  split <;> infer_instance

/-- The checkpoints of open drills are in use. -/
def InUseAll (db : PolicyDb) : Prop :=
  ∀ q ∈ db.requests, q.openDrill = true → ∀ p ∈ drillPoint db q, InUse db p

/-- A request that spares them leaves them in use. -/
theorem exec_inUseAll (op : PolicyOp) (w : Outside) (db : PolicyDb) (h : Standing format db)
    (hop : Founded format op db) (hspares : Spares op w db) (hin : InUseAll db) :
    InUseAll (exec op w db).2 := by
  intro q' hq' hopen p' hp'
  have hafter := exec_tidy op w db h.toTidy hop
  have hreport : ∀ b, op = .insertReport b → b.evidence.requestRow = none := by
    rintro b rfl
    exact hop
  rcases exec_requests op w db hreport q' hq' with ⟨q, hq, hsubject, hwas⟩ | ⟨b, rfl, hrow, hpasses, heq⟩
  · rcases h.drills q hq (hwas hopen) with ⟨p, hp⟩
    have hpoint := drillPoint_of_grounds _ hafter q' p
      (grounds_extends format db _ (exec_extends op w db) q q' hsubject p hp)
    rw [hpoint] at hp'
    rw [← Option.some.inj hp']
    have hbefore := drillPoint_of_grounds db h.toTidy q p hp
    exact exec_inUse op w db p (hin q hq (hwas hopen) p hbefore)
      (hspares.1 q hq (hwas hopen) p hbefore)
  · have hkind : q'.requestKind = .continuityDrill := by
      simp only [RequestRow.openDrill, Bool.and_eq_true, decide_eq_true_eq] at hopen
      exact hopen.1
    rcases hop q' hrow hkind with ⟨p, hp⟩
    have hpoint := drillPoint_of_grounds _ hafter q' p
      (heq ▸ sourced_grounds b q' p db h.toTidy hrow hp hpasses)
    rw [hpoint] at hp'
    rw [← Option.some.inj hp']
    rcases hp.detail with ⟨window, hdetail⟩
    refine exec_inUse _ w db p (hspares.2 p.continuityPointId ?_ p ?_) trivial
    · rw [hdetail]
      exact rfl
    · exact Table.find?_of_mem PointRow.continuityPointId db.points p h.pointIds hp.point

end Drills

/-! ## A receipt that is accepted -/

section Answers

/-- What is documented of a format: the hashes of keys and of receipts do not collide, and
    a receipt is not too large to be stored. -/
structure PolicyFormat.Sound (format : PolicyFormat) : Prop where
  keys_apart : ∀ a b, format.sha256Hex a = format.sha256Hex b → a = b
  receipts_apart : ∀ r r' : ContinuityReceipt, format.contentSha256 (.operational (.receipt r)) =
    format.contentSha256 (.operational (.receipt r')) → r.receiptId = r'.receiptId
  receipt_size : ∀ r : ContinuityReceipt, 0 < format.byteLength (.operational (.receipt r)) ∧
    format.byteLength (.operational (.receipt r)) ≤ maxOperationalRecordBytes

/-- A request that is answered, of a lead whose grant is in force. -/
structure Undisturbed (w : Outside) : Prop where
  outcome : w.outcome = .answered
  problem : w.problem = none
  grant : w.grantValid = true

/-- The state a lead completes a drill in: the project is active, the lease is current and
    not the one the checkpoint was acknowledged under, and the drill is due. -/
structure Setting (db : PolicyDb) (q : RequestRow) (p : PointRow) (grantId : String)
    (fence : Fence) (now : Int) : Prop where
  active : ∃ r ∈ db.projects, r.projectId = q.projectId ∧ r.status = .active
  lease : ∃ l ∈ db.leases, l.current q.projectId grantId fence now = true
  other : p.sourceLeaseId ≠ some fence.leaseId
  due : q.dueAt ≤ now
  acknowledged : p.acknowledgedAt ≤ now

instance (db : PolicyDb) (q : RequestRow) (p : PointRow) (grantId : String) (fence : Fence)
    (now : Int) : Decidable (Setting db q p grantId fence now) :=
  decidable_of_iff (_ ∧ _ ∧ _ ∧ _ ∧ _) ⟨fun h => ⟨h.1, h.2.1, h.2.2.1, h.2.2.2.1, h.2.2.2.2⟩,
    fun h => ⟨h.1, h.2, h.3, h.4, h.5⟩⟩

/-- There is a receipt with which a lead completes a drill. -/
def Answerable (format : PolicyFormat) (db : PolicyDb) (q : RequestRow) (grantId : String)
    (fence : Fence) (now : Int) : Prop :=
  ∃ input : DrillInput, input.requestId = q.requestId ∧ input.projectId = q.projectId ∧
    input.grantId = grantId ∧ input.fence = fence ∧ input.now = now ∧
    ∀ (digest : String) (ws : ℕ → Outside), (∀ n, Undisturbed (ws n)) →
      (finish exec (completeContinuityDrill format { input with requestSha256 := digest }) ws db).1 =
        .ok (.completed input.receipt)

/-- The receipt of a drill whose lead was lost as late as it can be told. -/
def drillReceipt (q : RequestRow) (p : PointRow) (now : Int) (receiptId : String) :
    ContinuityReceipt :=
  let lossAt := max q.dueAt p.acknowledgedAt
  { receiptId := receiptId, temporaryObjectsRemoved := 0, drillId := q.requestId, emittedAt := now
    continuityAgeSeconds := now - p.acknowledgedAt, recoveryChecksPassed := 1
    recoveryChecksTotal := 1, recoveryQualityBps := 10000
    rpoSeconds := lossAt - p.acknowledgedAt, rtoSeconds := now - lossAt, runtimeIndependent := true
    outcome := .pass, projectId := q.projectId, restoredContinuityPointId := p.continuityPointId
    latestAcknowledgedPointAt := p.acknowledgedAt, receiptEmittedAt := now
    replacementProductiveAt := now, restoredPointAcknowledgedAt := p.acknowledgedAt
    simulatedLeadLossAt := lossAt }

theorem drillReceipt_valid (q : RequestRow) (p : PointRow) (now : Int) (receiptId : String)
    (hpoint : 0 ≤ p.acknowledgedAt) (hdue : q.dueAt ≤ now) (hacknowledged : p.acknowledgedAt ≤ now) :
    (drillReceipt q p now receiptId).valid = true := by
  have hloss : max q.dueAt p.acknowledgedAt ≤ now := max_le hdue hacknowledged
  have hafter : p.acknowledgedAt ≤ max q.dueAt p.acknowledgedAt := le_max_right _ _
  have hnow : 0 ≤ now := hpoint.trans hacknowledged
  have hrpo : max q.dueAt p.acknowledgedAt - p.acknowledgedAt =
      max 0 (max q.dueAt p.acknowledgedAt - p.acknowledgedAt) :=
    (max_eq_right (Int.sub_nonneg_of_le hafter)).symm
  have hquality : 10000 = 10000 * 1 / 1 := by rw [Nat.mul_one, Nat.div_one]
  unfold ContinuityReceipt.valid
  simp only [Bool.and_eq_true, decide_eq_true_eq, and_assoc]
  exact ⟨hnow, hpoint, hnow, hnow, hpoint, hpoint.trans hafter, Nat.one_pos, le_refl _, rfl, hafter,
    hloss, hacknowledged, le_refl _, rfl, hrpo, rfl, rfl, hquality, le_refl _, rfl⟩

/-- A text that is in no list, and that a function maps into none. -/
theorem exists_fresh_text (f : String → String) (hf : ∀ a b, f a = f b → a = b) (as bs : List String) :
    ∃ x, x ∉ as ∧ f x ∉ bs := by
  have hinj : Set.InjOn f (Set.preimage f ↑bs.toFinset) := fun a _ b _ heq => hf a b heq
  rcases Infinite.exists_notMem_finset (as.toFinset ∪ bs.toFinset.preimage f hinj) with ⟨x, hx⟩
  rw [Finset.mem_union, Finset.mem_preimage, List.mem_toFinset, List.mem_toFinset, not_or] at hx
  exact ⟨x, hx⟩

variable {format : PolicyFormat}

/-- A checkpoint in use, of a project that is active, can be continued from. -/
theorem pointContext_of_inUse (db : PolicyDb) (h : Tidy format db) (p : PointRow) (hp : p ∈ db.points)
    (hrestored : p.restoredAt = none) (hin : InUse db p)
    (hactive : ∃ r ∈ db.projects, r.projectId = p.projectId ∧ r.status = .active) :
    pointContext db p.continuityPointId p.projectId = some p.context := by
  have hvalid : contextValid db p.projectId p.workItemId p.workPacketId p.projectVersionId
      p.workItemVersionId = true := by
    simp only [contextValid, Bool.and_eq_true, Bool.or_eq_true, List.any_eq_true, decide_eq_true_eq]
    refine ⟨⟨?_, ?_⟩, hin.packet⟩
    · -- The project that is active is the one of the version.
      rcases hin.project with ⟨r, hr, hid, hversion⟩
      rcases hactive with ⟨r', hr', hid', hstatus⟩
      have hsame : r' = r :=
        List.inj_on_of_nodup_map h.projectIds hr' hr (hid'.trans hid.symm)
      exact ⟨r, hr, ⟨hid, hsame ▸ hstatus⟩, hversion⟩
    · rcases hin.workItem with ⟨i, hi, ⟨hid, hproject, hversion⟩, hstatus⟩
      exact ⟨i, hi, ⟨⟨hid, hproject⟩, hversion⟩, hstatus⟩
  unfold pointContext
  rw [Table.find?_of_unique _ db.points p hp ?_ (fun t ht htp => ?_)]
  · rfl
  · simp only [hrestored, hvalid, decide_true, Option.isNone_none, Bool.and_self]
  · simp only [Bool.and_eq_true, decide_eq_true_eq] at htp
    exact List.inj_on_of_nodup_map h.pointIds ht hp htp.1.1.1

/-- What can be continued from is in use. -/
theorem inUse_of_pointContext (db : PolicyDb) (h : Tidy format db) (p : PointRow)
    (hp : p ∈ db.points) (projectId : String) (context : PointContext)
    (hcontext : pointContext db p.continuityPointId projectId = some context) : InUse db p := by
  rcases Option.map_eq_some_iff.mp hcontext with ⟨t, hfound, -⟩
  have hpassed := List.find?_some hfound
  simp only [Bool.and_eq_true, decide_eq_true_eq] at hpassed
  have hsame : t = p := List.inj_on_of_nodup_map h.pointIds (List.mem_of_find?_eq_some hfound) hp
    hpassed.1.1.1
  have hvalid := hpassed.2
  rw [hsame] at hvalid
  simp only [contextValid, Bool.and_eq_true, Bool.or_eq_true, List.any_eq_true,
    decide_eq_true_eq] at hvalid
  rcases hvalid with ⟨⟨⟨r, hr, ⟨hid, -⟩, hversion⟩, i, hi, ⟨hitem, hitemVersion⟩, hstatus⟩, hpacket⟩
  exact ⟨⟨r, hr, hid, hversion⟩, ⟨i, hi, ⟨hitem.1, hitem.2, hitemVersion⟩, hstatus⟩, hpacket⟩

/-- An open drill of a schedule is found. -/
theorem readScheduledRequest_of_open (db : PolicyDb) (h : Drilled format db) (q : RequestRow)
    (hq : q ∈ db.requests) (hopen : q.openDrill = true)
    (hschedule : ∃ s ∈ db.schedules, s.scheduleId = q.scheduleId ∧ s.projectId = q.projectId)
    (w : Outside) :
    policy.answer (.readScheduledRequest q.requestId q.projectId) w db = .ok (some q) := by
  rcases hschedule with ⟨s, hs, hid, hproject⟩
  simp only [RequestRow.openDrill, Bool.and_eq_true, decide_eq_true_eq] at hopen
  refine congrArg Except.ok (Table.find?_of_unique _ db.requests q hq ?_ (fun t ht htq => ?_))
  · simp only [Bool.and_eq_true, decide_eq_true_eq, List.any_eq_true, true_and, and_self]
    exact ⟨hopen, s, hs, hid, hproject⟩
  · simp only [Bool.and_eq_true, decide_eq_true_eq] at htq
    exact List.inj_on_of_nodup_map h.ids ht hq htq.1.1.1.1

/-- A mutation of a lead that completes a drill. -/
def drillInput (q : RequestRow) (p : PointRow) (grantId : String) (fence : Fence) (now : Int)
    (receiptId portableObjectId key digest : String) : DrillInput :=
  { projectId := q.projectId, requestId := q.requestId, receipt := drillReceipt q p now receiptId
    fence := fence, grantId := grantId, idempotencyKey := key, requestSha256 := digest, now := now
    portableObjectId := portableObjectId }

/-- What is on record about a drill is what is asked of its receipt. -/
theorem drillInput_accepted (db : PolicyDb) (q : RequestRow) (p : PointRow) (grantId : String)
    (fence : Fence) (now : Int) (hp : Grounds format db q p)
    (hsetting : Setting db q p grantId fence now) (e : OperationalEvidence) (window : Int)
    (stored : StoredContinuityPoint) (object : StoredObject) (hid : e.evidenceId = q.requestId)
    (hproject : e.projectId = q.projectId) (hschedule : e.scheduleId = some q.scheduleId)
    (hdetail : e.detail = .continuityDrillRequest q.dueAt window p.continuityPointId p.workItemId
      p.workPacketId) (hstored : pointOf format p (some object) = .ok stored)
    (receiptId portableObjectId key digest : String) :
    (drillInput q p grantId fence now receiptId portableObjectId key digest).accepts q
      (some (.evidence e)) (some stored) p.context = true := by
  have hmatches := (pointOf_ok p (some object) stored hstored).1
  simp only [ContinuityPoint.matches, Bool.and_eq_true, decide_eq_true_eq] at hmatches
  rcases hmatches with ⟨⟨⟨⟨⟨⟨⟨⟨⟨-, hpproject⟩, hversion⟩, -⟩, hitem⟩, -⟩, -⟩, -⟩, htoken⟩, -⟩
  have hlease : p.sourceLeaseId.isSome = true := Option.isSome_iff_ne_none.mpr hp.acknowledged.2
  have hloss : q.dueAt ≤ max q.dueAt p.acknowledgedAt := le_max_left _ _
  simp only [DrillInput.accepts, DrillInput.names, drillInput, drillReceipt, PointRow.context, hid,
    hproject, hschedule, hdetail, Option.any_some, hpproject, hp.project, hversion, hitem, htoken,
    hlease, hsetting.other, hloss, decide_true, Bool.and_self, ne_eq, not_false_eq_true]

/-- What a mutation makes has not been there. -/
structure Unused (format : PolicyFormat) (db : PolicyDb) (input : DrillInput) : Prop where
  records : ∀ r ∈ db.records, r.operationalRecordId ≠ input.receipt.receiptId ∧
    r.portableObjectId ≠ input.portableObjectId ∧
    r.bodyObjectKey ≠ (prepared format (.receipt input.receipt) input.portableObjectId).bodyObjectKey
  objects : ∀ o ∈ db.objects,
    o.key ≠ (prepared format (.receipt input.receipt) input.portableObjectId).bodyObjectKey
  dependencies : ∀ d ∈ db.dependencies, d.operationalRecordId ≠ input.receipt.receiptId
  drillReceipts : ∀ r ∈ db.drillReceipts, r.receiptId ≠ input.receipt.receiptId ∧
    r.operationalRecordId ≠ input.receipt.receiptId
  receipts : ∀ r ∈ db.receipts, r.idempotencyKeySha256 ≠ format.sha256Hex input.idempotencyKey

theorem exists_unused (hformat : format.Sound) (db : PolicyDb) (q : RequestRow) (p : PointRow)
    (grantId : String) (fence : Fence) (now : Int) : ∃ receiptId portableObjectId key, ∀ digest,
      Unused format db (drillInput q p grantId fence now receiptId portableObjectId key digest) := by
  have hkeys : ∀ a b : String,
      (prepared format (.receipt (drillReceipt q p now a)) "").bodyObjectKey =
        (prepared format (.receipt (drillReceipt q p now b)) "").bodyObjectKey → a = b := by
    intro a b heq
    have hsha := (String.append_right_inj _).mp ((String.append_left_inj _).mp heq)
    exact hformat.receipts_apart _ _ hsha
  rcases exists_fresh_text _ hkeys
    (db.records.map OperationalRecordRow.operationalRecordId ++
      (db.dependencies.map DependencyRow.operationalRecordId ++
        (db.drillReceipts.map DrillReceiptRow.receiptId ++
          db.drillReceipts.map DrillReceiptRow.operationalRecordId)))
    (db.records.map OperationalRecordRow.bodyObjectKey ++ db.objects.map StoredObject.key) with
    ⟨receiptId, hid, hkey⟩
  rcases exists_fresh_text id (fun _ _ h => h) (db.records.map OperationalRecordRow.portableObjectId)
    [] with ⟨portableObjectId, hportable, -⟩
  rcases exists_fresh_text format.sha256Hex hformat.keys_apart []
    (db.receipts.map OperationReceiptRow.idempotencyKeySha256) with ⟨key, -, hmutation⟩
  simp only [List.mem_append, not_or] at hid hkey
  have hne : ∀ {ρ : Type} (f : ρ → String) (rows : List ρ) (x : String), x ∉ rows.map f →
      ∀ r ∈ rows, f r ≠ x := fun f rows x hx r hr heq => hx (heq ▸ List.mem_map_of_mem hr)
  refine ⟨receiptId, portableObjectId, key, fun digest => ⟨fun r hr => ⟨?_, ?_, ?_⟩, ?_, ?_,
    fun r hr => ⟨?_, ?_⟩, ?_⟩⟩
  · exact hne _ _ _ hid.1 r hr
  · exact hne _ _ _ hportable r hr
  · exact hne _ _ _ hkey.1 r hr
  · exact hne _ _ _ hkey.2
  · exact hne _ _ _ hid.2.1
  · exact hne _ _ _ hid.2.2.1 r hr
  · exact hne _ _ _ hid.2.2.2 r hr
  · exact hne _ _ _ hmutation

/-- The batch of a mutation that is new goes through while the lease is current, whatever
    is in storage. -/
theorem drillInput_passes (hformat : format.Sound) (db : PolicyDb) (hdrilled : Drilled format db)
    (q : RequestRow) (hq : q ∈ db.requests) (hopen : q.openDrill = true) (p : PointRow)
    (grantId : String) (fence : Fence) (now : Int) (hnow : 0 ≤ now)
    (hsetting : Setting db q p grantId fence now) (receiptId portableObjectId key digest : String)
    (hnew : Unused format db
      (drillInput q p grantId fence now receiptId portableObjectId key digest))
    (pointSha256 : String) (w : Outside) (hw : Undisturbed w) (objects : List StoredObject) :
    Passes (((drillInput q p grantId fence now receiptId portableObjectId key digest).batch format
      (prepared format (.receipt (drillReceipt q p now receiptId)) portableObjectId)
        pointSha256).writes w) { db with objects := objects } := by
  simp only [RequestRow.openDrill, Bool.and_eq_true, decide_eq_true_eq] at hopen
  have hsize := hformat.receipt_size (drillReceipt q p now receiptId)
  have hdrill : ∀ r ∈ db.drillReceipts, r.drillId ≠ q.requestId := by
    -- A request of which there is a receipt is not open.
    intro r hr heq
    rcases hdrilled.receipts r hr with ⟨q', hq', hreceipted⟩
    have hsame : q' = q :=
      List.inj_on_of_nodup_map hdrilled.ids hq' hq (hreceipted.drill.symm.trans heq)
    have hstatus := hopen.2
    rw [← hsame] at hstatus
    simp only [RequestRow.isOpen, hreceipted.completed, reduceCtorEq, decide_false, Bool.or_self,
      Bool.false_eq_true] at hstatus
  have hretain : now ≤ now + PolicyOperationalRecord.longRetentionSeconds :=
    Int.le_add_of_nonneg_right (by decide)
  unfold DrillBatch.writes insertReceipt
  refine ⟨?_, ?_, ?_, rfl, ?_, ?_, trivial⟩
  · refine (Write.insertAll_single _ _ _ _ _ _).mpr ?_
    simp only [OperationalRecordRow.admits, Bool.and_eq_true, decide_eq_true_eq, fresh_iff]
    exact ⟨⟨⟨⟨⟨⟨fun r hr => (hnew.records r hr).1, fun r hr => (hnew.records r hr).2.1⟩,
      fun r hr => (hnew.records r hr).2.2⟩, hsize.1⟩, hsize.2⟩, hnow⟩, hretain⟩
  · refine (Write.insertAll_single _ _ _ _ _ _).mpr ?_
    simp only [DrillReceiptRow.admits, Bool.and_eq_true, decide_eq_true_eq, fresh_iff]
    exact ⟨⟨⟨fun r hr => (hnew.drillReceipts r hr).1, fun r hr => (hnew.drillReceipts r hr).2⟩,
      hdrill⟩, hnow⟩
  · refine (Write.insertAll_single _ _ _ (fun _ => DrillBatch.dependency _) _ _).mpr ?_
    refine (fresh_iff _ _ _).mpr (fun d hd heq => ?_)
    exact hnew.dependencies d hd (congrArg Prod.fst heq)
  · refine (Write.require_passes _ _ _).mpr ?_
    simp only [liveFence, DrillBatch.settled, Bool.and_eq_true, List.any_eq_true,
      decide_eq_true_eq, hw.grant, and_true]
    refine ⟨⟨hsetting.lease, ?_⟩, ?_, ?_⟩
    · rcases hsetting.active with ⟨r, hr, hid, hactive⟩
      exact ⟨r, hr, hid, hactive⟩
    · refine ⟨_, Table.update_mem _ _ db.requests q hq, ?_⟩
      rw [if_pos (by simp only [DrillBatch.completes, DrillInput.batch, drillInput, decide_true,
        hopen.2, Bool.and_self])]
      exact ⟨⟨⟨rfl, rfl⟩, rfl⟩, rfl⟩
    · exact ⟨_, List.mem_append_right _ (List.mem_singleton_self _), rfl, rfl⟩
  · refine (Write.insertAll_single _ _ _ (fun _ => DrillBatch.operationReceipt _) _ _).mpr ?_
    refine (fresh_iff _ _ _).mpr (fun r hr heq => ?_)
    exact hnew.receipts r hr (congrArg (fun k => k.2.2) heq)

/-! ## The lead that sends it -/

/-- A function that nobody disturbs returns, and leaves a fact. -/
abbrev Succeeds {α : Type} (Q : α → PolicyDb → Prop) (p : PolicyProcess α) (s : PolicyDb) : Prop :=
  p.Meets exec (fun _ w _ => Undisturbed w) (fun _ => True) Eq (fun _ _ => True)
    (Interface.Yields Q) s

theorem read_succeeds (op : PolicyOp) (r : op.Ret) (s : PolicyDb)
    (hwrites : ∀ w, policy.writes op w = [])
    (hanswer : ∀ w, Undisturbed w → policy.answer op w s = .ok r) :
    Succeeds (fun a t => a = r ∧ t = s) (ask op) s := by
  refine meets_mono (fun _ _ h => h) (fun a t h => ?_) _ s
    (Interface.yields_read op r s trivial (fun w hw => hw.outcome) hwrites hanswer)
  cases a with
  | error e => exact h
  | ok a => exact ⟨h.1, h.2.1⟩

theorem readPolicyOperationalRecord_succeeds (id : String) (row : OperationalRecordRow)
    (object : StoredObject) (record : PolicyOperationalRecord) (s : PolicyDb)
    (hrow : s.records.find? (fun r => r.operationalRecordId = id) = some row)
    (hobject : s.objects.find? (fun o => o.key = row.bodyObjectKey) = some object)
    (hrecord : recordOf format row (some object) = .ok record) :
    Succeeds (fun a t => a = some record ∧ t = s) (readPolicyOperationalRecord format id) s := by
  refine Interface.yields_then (read_succeeds (.readRecordRow id) (some row) s (fun _ => rfl)
    (fun _ _ => congrArg Except.ok hrow)) ?_
  rintro _ _ ⟨rfl, rfl⟩
  refine Interface.yields_then (read_succeeds (.getObject row.bodyObjectKey) (some object) _
    (fun _ => rfl) (fun _ _ => congrArg Except.ok hobject)) ?_
  rintro _ _ ⟨rfl, rfl⟩
  refine Interface.yields_then (M := fun a t => a = record ∧ t = _)
    (Interface.yields_ofExcept _ record _ hrecord ⟨rfl, rfl⟩) ?_
  rintro _ _ ⟨rfl, rfl⟩
  exact ⟨rfl, rfl⟩

theorem readContinuityPoint_succeeds (p : PointRow) (object : StoredObject)
    (stored : StoredContinuityPoint) (s : PolicyDb)
    (hpoint : s.points.find? (fun t => t.continuityPointId = p.continuityPointId) = some p)
    (hobject : s.objects.find? (fun o => o.key = p.bodyObjectKey) = some object)
    (hstored : pointOf format p (some object) = .ok stored) :
    Succeeds (fun a t => a = some stored ∧ t = s)
      (readContinuityPoint format p.continuityPointId) s := by
  refine Interface.yields_then (read_succeeds (.readPoint p.continuityPointId) (some p) s
    (fun _ => rfl) (fun _ _ => congrArg Except.ok hpoint)) ?_
  rintro _ _ ⟨rfl, rfl⟩
  refine Interface.yields_then (read_succeeds (.getObject p.bodyObjectKey) (some object) _
    (fun _ => rfl) (fun _ _ => congrArg Except.ok hobject)) ?_
  rintro _ _ ⟨rfl, rfl⟩
  refine Interface.yields_then (M := fun a t => a = stored ∧ t = _)
    (Interface.yields_ofExcept _ stored _ hstored ⟨rfl, rfl⟩) ?_
  rintro _ _ ⟨rfl, rfl⟩
  exact ⟨rfl, rfl⟩

/-- A record whose object is new is put away. -/
theorem prepare_succeeds (record : PolicyOperationalRecord) (id : String) (s : PolicyDb)
    (hvalid : record.valid = true)
    (hsize : format.byteLength (.operational record) ≤ maxOperationalRecordBytes)
    (hnew : ∀ o ∈ s.objects, o.key ≠ (prepared format record id).bodyObjectKey) :
    Succeeds (fun a t => a = prepared format record id ∧
        t = { s with objects := s.objects ++ [(prepared format record id).object] })
      (preparePolicyOperationalRecord format record id) s := by
  have hput : written [putObject (prepared format record id).object "operational_object_collision"] s =
      { s with objects := s.objects ++ [(prepared format record id).object] } := by
    change (putObject (prepared format record id).object _).update s = _
    unfold putObject
    dsimp only
    rw [if_neg]
    intro hany
    rcases List.any_eq_true.mp hany with ⟨o, ho, hkey⟩
    exact hnew o ho (of_decide_eq_true hkey)
  have hpasses : Passes
      [putObject (prepared format record id).object "operational_object_collision"] s := by
    refine ⟨?_, trivial⟩
    unfold putObject
    dsimp only
    rw [if_pos]
    refine List.all_eq_true.mpr (fun o ho => ?_)
    simp only [Bool.or_eq_true, decide_eq_true_eq]
    exact Or.inl (hnew o ho)
  unfold preparePolicyOperationalRecord
  rw [hvalid, if_neg (by decide), if_neg (not_lt.mpr hsize)]
  refine Interface.yields_then (Interface.yields_request (PolicyOp.putRecord _) () s trivial
    (fun _ hw => Undisturbed.outcome hw) (fun _ _ => rfl) (fun _ _ => hpasses)) ?_
  rintro _ _ ⟨-, w, -, rfl⟩
  exact ⟨rfl, hput⟩

section

variable (hformat : format.Sound) (db : PolicyDb) (hdrilled : Drilled format db)
  (htidy : Tidy format db) (q : RequestRow) (hq : q ∈ db.requests) (hopen : q.openDrill = true)
  (p : PointRow) (hp : Grounds format db q p) (grantId : String) (fence : Fence) (now : Int)
  (hsetting : Setting db q p grantId fence now) (receiptId portableObjectId key digest : String)
  (hnew : Unused format db
    (drillInput q p grantId fence now receiptId portableObjectId key digest))

include hformat hdrilled htidy hq hopen hp hsetting hnew in
theorem commitDrill_succeeds (pointSha256 : String) :
    Succeeds (fun a _ => a = .completed (drillReceipt q p now receiptId))
      (commitDrill format (drillInput q p grantId fence now receiptId portableObjectId key digest)
        pointSha256) db := by
  have hpoint := htidy.acknowledged p hp.point
  have hvalid := drillReceipt_valid q p now receiptId hpoint hsetting.due hsetting.acknowledged
  refine Interface.yields_then (prepare_succeeds (.receipt (drillReceipt q p now receiptId))
    portableObjectId db hvalid (hformat.receipt_size _).2 hnew.objects) ?_
  rintro _ _ ⟨rfl, rfl⟩
  refine Interface.yields_tryCatch _ _ _ (Interface.yields_then (Interface.yields_request
    (PolicyOp.completeDrill _) () _ trivial (fun _ hw => Undisturbed.outcome hw) (fun _ _ => rfl)
    (fun w hw => ?_)) (fun _ _ _ => rfl))
  exact drillInput_passes hformat db hdrilled q hq hopen p grantId fence now
    (hpoint.trans hsetting.acknowledged) hsetting receiptId portableObjectId key digest hnew
    pointSha256 w hw _

include htidy hp in
theorem readDrillBodies_succeeds : ∃ e window stored object,
    Succeeds (fun a t => a = (some (.evidence e), some stored) ∧ t = db)
        (readDrillBodies format q p.continuityPointId) db ∧
      pointOf format p (some object) = .ok stored ∧ e.evidenceId = q.requestId ∧
      e.projectId = q.projectId ∧ e.scheduleId = some q.scheduleId ∧
      e.detail = .continuityDrillRequest q.dueAt window p.continuityPointId p.workItemId
        p.workPacketId := by
  rcases hp.record with ⟨row, object, e, window, hrow, hobject, hread, hsays⟩
  rcases hp.body with ⟨body, stored, hbody, hstored⟩
  refine ⟨e, window, stored, body, ?_, hstored, hsays⟩
  have hpoint := Table.find?_of_mem PointRow.continuityPointId db.points p htidy.pointIds hp.point
  refine Interface.yields_tryCatch _ _ db (Interface.yields_then
    (readPolicyOperationalRecord_succeeds _ row object _ db hrow hobject hread) ?_)
  rintro _ _ ⟨rfl, rfl⟩
  refine Interface.yields_then
    (readContinuityPoint_succeeds p body stored _ hpoint hbody hstored) ?_
  rintro _ _ ⟨rfl, rfl⟩
  exact ⟨rfl, rfl⟩

variable (hin : InUse db p)

include hformat hdrilled htidy hq hopen hp hsetting hnew hin in
/-- A lead that nobody disturbs completes a drill whose checkpoint is in use. -/
theorem completeContinuityDrill_succeeds :
    Succeeds (fun a _ => a = .completed (drillReceipt q p now receiptId))
      (completeContinuityDrill format
        (drillInput q p grantId fence now receiptId portableObjectId key digest)) db := by
  have hvalid : (drillInput q p grantId fence now receiptId portableObjectId key digest).valid =
      true := by
    rcases hsetting.lease with ⟨l, hl, hcurrent⟩
    simp only [LeaseRow.current, Bool.and_eq_true, decide_eq_true_eq] at hcurrent
    have htoken : 0 < fence.fencingToken := hcurrent.1.2 ▸ htidy.tokens l hl
    simp only [DrillInput.valid, Bool.and_eq_true, decide_eq_true_eq]
    exact ⟨⟨⟨drillReceipt_valid q p now receiptId (htidy.acknowledged p hp.point) hsetting.due
      hsetting.acknowledged, rfl⟩, rfl⟩, htoken⟩
  unfold completeContinuityDrill
  rw [hvalid, if_neg (by decide)]
  refine Interface.yields_then (read_succeeds (.authorizeLead ..) () db (fun _ => rfl)
    (fun w hw => ?_)) ?_
  · have hlease : db.leases.any (fun l => l.current q.projectId grantId fence now) = true :=
      List.any_eq_true.mpr hsetting.lease
    simp only [PolicyOp.answer, hw.problem, drillInput, hlease, if_true]
  rintro _ _ ⟨rfl, rfl⟩
  refine Interface.yields_then (read_succeeds (.readReceipt ..) none _ (fun _ => rfl)
    (fun w _ => ?_)) ?_
  · refine congrArg Except.ok (List.find?_eq_none.mpr (fun r hr hsame => ?_))
    simp only [Bool.and_eq_true, decide_eq_true_eq] at hsame
    exact hnew.receipts r hr hsame.2
  rintro _ _ ⟨rfl, rfl⟩
  refine Interface.yields_then (read_succeeds (.readScheduledRequest ..) (some q) _
    (fun _ => rfl) (fun w _ => readScheduledRequest_of_open _ hdrilled q hq hopen hp.schedule w)) ?_
  rintro _ _ ⟨rfl, rfl⟩
  rcases readDrillBodies_succeeds _ htidy q p hp with
    ⟨e, window, stored, object, hbodies, hstored, hid, hproject, hschedule, hdetail⟩
  refine Interface.yields_then hbodies ?_
  rintro _ _ ⟨rfl, rfl⟩
  refine Interface.yields_then (read_succeeds (.readPointContext ..) (some p.context) _
    (fun _ => rfl) (fun w _ => ?_)) ?_
  · have hcontext := pointContext_of_inUse _ htidy p hp.point hp.acknowledged.1 hin
      (hp.project ▸ hsetting.active)
    rw [hp.project] at hcontext
    exact congrArg Except.ok hcontext
  rintro _ _ ⟨rfl, rfl⟩
  have haccepts := drillInput_accepted _ q p grantId fence now hp hsetting e window stored object hid
    hproject hschedule hdetail hstored receiptId portableObjectId key digest
  refine meets_ite (fun _ => ?_) (fun hnot => absurd haccepts hnot)
  exact commitDrill_succeeds hformat _ hdrilled htidy q hq hopen p hp grantId fence now hsetting
    receiptId portableObjectId key digest hnew _

end

/-- There is a receipt for a drill whose checkpoint is in use. -/
theorem answerable_of_grounds (hformat : format.Sound) (db : PolicyDb)
    (hdrilled : Drilled format db) (htidy : Tidy format db) (q : RequestRow) (hq : q ∈ db.requests)
    (hopen : q.openDrill = true) (p : PointRow) (hp : Grounds format db q p) (hin : InUse db p)
    (grantId : String) (fence : Fence) (now : Int) (hsetting : Setting db q p grantId fence now) :
    Answerable format db q grantId fence now := by
  rcases exists_unused hformat db q p grantId fence now with
    ⟨receiptId, portableObjectId, key, hnew⟩
  refine ⟨drillInput q p grantId fence now receiptId portableObjectId key "", rfl, rfl, rfl, rfl, rfl,
    fun digest ws hws => ?_⟩
  have hsucceeds := completeContinuityDrill_succeeds hformat db hdrilled htidy q hq hopen p hp grantId
    fence now hsetting receiptId portableObjectId key digest (hnew digest) hin
  have hends := (meets_finish (fun _ _ _ _ _ _ => trivial) _ ws db trivial hsucceeds
    (takenAll_of_forall _ ws db hws)).2
  change (finish exec (completeContinuityDrill format
    (drillInput q p grantId fence now receiptId portableObjectId key digest)) ws db).1 = _
  cases hfinish : (finish exec (completeContinuityDrill format
      (drillInput q p grantId fence now receiptId portableObjectId key digest)) ws db).1 with
  | error e =>
      rw [hfinish] at hends
      exact absurd hends id
  | ok a =>
      rw [hfinish] at hends
      exact congrArg Except.ok hends

/-! ## A receipt that was accepted -/

/-- A function that nobody disturbs leaves a fact if it returns, whatever becomes of its
    requests. -/
abbrev Leaves {α : Type} (Q : α → PolicyDb → Prop) (p : PolicyProcess α) (s : PolicyDb) : Prop :=
  p.Meets exec (fun _ _ _ => True) (fun _ => True) Eq (fun _ _ => True) (Interface.Returns Q) s

theorem read_leaves (op : PolicyOp) (s : PolicyDb) (hwrites : ∀ w, policy.writes op w = []) :
    Leaves (fun a t => t = s ∧ ∃ w, policy.answer op w s = .ok a) (ask op) s := by
  refine meets_mono (fun _ _ h => h) (fun r t h => ?_) _ s (Interface.meets_read (R := Eq)
    (fun t => t = s) (fun _ _ heq h => heq ▸ h) op (fun _ => trivial) hwrites s rfl)
  cases r with
  | error e => exact trivial
  | ok a =>
      rcases h with ⟨-, rfl, hread⟩
      exact ⟨rfl, hread⟩

/-- The record that a lead has read of a drill is the one on record. -/
theorem readDrillBodies_leaves (db : PolicyDb) (q : RequestRow) (p : PointRow)
    (hp : Grounds format db q p) (pointId : String) :
    Leaves (fun bodies t => t = db ∧ ∀ record ∈ bodies.1, ∃ e window, record = .evidence e ∧
        e.detail = .continuityDrillRequest q.dueAt window p.continuityPointId p.workItemId
          p.workPacketId) (readDrillBodies format q pointId) db := by
  rcases hp.record with ⟨row, object, e, window, hrow, hobject, hread, -, -, -, hdetail⟩
  have hrecord : Leaves (fun record? t => t = db ∧ ∀ record ∈ record?, record = .evidence e)
      (readPolicyOperationalRecord format q.operationalRecordId) db := by
    refine Interface.meets_then (read_leaves (.readRecordRow _) db (fun _ => rfl)) ?_
    rintro row? _ ⟨rfl, w, hfound⟩
    cases row? with
    | none => exact ⟨rfl, fun record h => absurd h (Option.not_mem_none record)⟩
    | some row' =>
        have hsame : row = row' := Option.some.inj (hrow.symm.trans (Except.ok.inj hfound))
        rw [← hsame]
        refine Interface.meets_then (read_leaves (.getObject row.bodyObjectKey) _
          (fun _ => rfl)) ?_
        rintro object? _ ⟨rfl, w', hgot⟩
        have hgot' : object? = some object := (Except.ok.inj hgot).symm.trans hobject
        refine meets_ofExcept _ _ _ (fun record hok => ⟨rfl, fun record' h => ?_⟩) (fun _ _ => trivial)
        rw [hgot', hread] at hok
        rw [← Option.some.inj h, ← Except.ok.inj hok]
  refine meets_tryCatch _ _ db (meets_bind _ _ db ?_)
  refine meets_mono (fun _ _ h => h) (fun r t h => ?_) _ db hrecord
  cases r with
  | error e => exact trivial
  | ok record? =>
      rcases h with ⟨rfl, hrecord?⟩
      refine meets_bind _ _ _ ?_
      -- Whatever is read of the checkpoint, nothing is written.
      have hpoint : Leaves (fun _ u => u = t) (readContinuityPoint format pointId) t := by
        refine Interface.meets_then (read_leaves (.readPoint pointId) t (fun _ => rfl)) ?_
        rintro row? _ ⟨rfl, -⟩
        cases row? with
        | none => exact rfl
        | some row' =>
            refine Interface.meets_then (read_leaves (.getObject row'.bodyObjectKey) _
              (fun _ => rfl)) ?_
            rintro object? _ ⟨rfl, -⟩
            exact meets_ofExcept _ _ _ (fun _ _ => rfl) (fun _ _ => trivial)
      refine meets_mono (fun _ _ h => h) (fun r u h => ?_) _ t hpoint
      cases r with
      | error e => exact trivial
      | ok point =>
          refine ⟨h, fun record hmem => ?_⟩
          exact ⟨e, window, hrecord? record hmem, hdetail⟩

/-- A drill is only completed while its checkpoint is in use. -/
theorem completeContinuityDrill_leaves (db : PolicyDb) (hdrilled : Drilled format db)
    (htidy : Tidy format db) (q : RequestRow) (hq : q ∈ db.requests) (p : PointRow)
    (hp : Grounds format db q p) (input : DrillInput) (hrequest : input.requestId = q.requestId) :
    Leaves (fun a _ => ∀ receipt, a = .completed receipt → InUse db p)
      (completeContinuityDrill format input) db := by
  refine meets_ite (fun _ => trivial) (fun _ => ?_)
  refine Interface.meets_then (read_leaves (.authorizeLead ..) db (fun _ => rfl)) ?_
  rintro _ _ ⟨rfl, -⟩
  refine Interface.meets_then (read_leaves (.readReceipt ..) _ (fun _ => rfl)) ?_
  rintro prior _ ⟨rfl, -⟩
  cases prior with
  | some row =>
      exact meets_ite (fun _ _ h => DrillResult.noConfusion h) (fun _ => trivial)
  | none =>
      refine Interface.meets_then (read_leaves (.readScheduledRequest ..) _ (fun _ => rfl)) ?_
      rintro scheduled? t ⟨rfl, w, hread⟩
      cases scheduled? with
      | none => exact trivial
      | some scheduled =>
          have hfound := Except.ok.inj hread
          have hpassed := List.find?_some hfound
          simp only [Bool.and_eq_true, decide_eq_true_eq] at hpassed
          have hsame : scheduled = q := List.inj_on_of_nodup_map hdrilled.ids
            (List.mem_of_find?_eq_some hfound) hq (hpassed.1.1.1.1.trans hrequest)
          rw [hsame]
          refine Interface.meets_then (readDrillBodies_leaves _ q p hp _) ?_
          rintro bodies t ⟨rfl, hrecord⟩
          refine Interface.meets_then (read_leaves (.readPointContext ..) _ (fun _ => rfl)) ?_
          rintro context? t ⟨rfl, w', hcontext⟩
          cases context? with
          | none => exact trivial
          | some context =>
              refine meets_ite (fun haccepts => ?_) (fun _ => trivial)
              refine Interface.meets_anyhow (fun _ _ => trivial) _ _ (fun _ _ _ _ => ?_)
              rcases (accepts_named input q bodies.1 bodies.2 context haccepts).1 with
                ⟨e, window, item, packet, hsome, -, hdetail⟩
              rcases hrecord _ hsome with ⟨e', window', he, hdetail'⟩
              rw [PolicyOperationalRecord.evidence.injEq] at he
              rw [he, hdetail', EvidenceDetail.continuityDrillRequest.injEq] at hdetail
              exact inUse_of_pointContext _ htidy p hp.point _ context
                (hdetail.2.2.1 ▸ Except.ok.inj hcontext)

theorem inUse_of_answerable (db : PolicyDb) (hdrilled : Drilled format db)
    (htidy : Tidy format db) (q : RequestRow) (hq : q ∈ db.requests) (p : PointRow)
    (hp : Grounds format db q p) (grantId : String) (fence : Fence) (now : Int)
    (h : Answerable format db q grantId fence now) : InUse db p := by
  rcases h with ⟨input, hrequest, -, -, -, -, hanswers⟩
  have hleaves := completeContinuityDrill_leaves db hdrilled htidy q hq p hp
    { input with requestSha256 := "" } hrequest
  have hends := (meets_finish (fun _ _ _ _ _ _ => trivial) _ (fun _ => answered) db trivial hleaves
    (takenAll_of_forall _ _ db (fun _ => trivial))).2
  rw [hanswers "" (fun _ => answered) (fun _ => ⟨rfl, rfl, rfl⟩)] at hends
  exact hends input.receipt rfl

end Answers

/-! ## Runs -/

section Runs

variable {ι : Type} [DecidableEq ι] (format : PolicyFormat) (calls : ι → PolicyCall)

/-- In a pool of calls there is something on record about every open drill, and no call
    stores one about which there is nothing. -/
abbrev StandingPool (c : PolicyPool ι) : Prop :=
  Pool.Sound exec Unambiguous (Standing format) (fun _ => Extends) (fun _ => Founded format)
    (fun _ _ _ => True) c

theorem step_standing (c : PolicyPool ι) (e : ι × Outside) (hc : StandingPool format c)
    (he : Pool.Takes Unambiguous c e) : StandingPool format (Pool.step exec c e) := by
  refine Pool.step_sound (R := fun _ => Extends) (fun _ s _ => extends_refl s)
    (fun _ => extends_trans) ?_ c e hc he
  intro i op w s hs hop _
  exact ⟨exec_standing op w s hs hop, fun _ _ => exec_extends op w s⟩

theorem run_standing (hcalls : ∀ i, (calls i).Intact format) (es : List (ι × Outside))
    (hbodies : Run.Along (Pool.Takes Unambiguous) (Pool.step exec) (startPool format calls emptyDb)
      es) : StandingPool format (Pool.run exec (startPool format calls emptyDb) es) := by
  refine Run.runFrom_invariant _ (StandingPool format) (step_standing format) _ es ⟨?_, fun i =>
    ⟨emptyDb, extends_refl emptyDb, process_founds (calls i) (hcalls i) emptyDb⟩⟩ hbodies
  exact ⟨⟨fun _ h => absurd h List.not_mem_nil, List.nodup_nil,
    fun _ h => absurd h List.not_mem_nil, List.nodup_nil, fun _ h => absurd h List.not_mem_nil⟩,
    fun _ h => absurd h List.not_mem_nil⟩

/-- A step that spares the checkpoints of open drills leaves them in use. -/
theorem step_inUse (c : PolicyPool ι) (e : ι × Outside) (hc : StandingPool format c)
    (hin : InUseAll c.shared) (he : Pool.Takes Spares c e) :
    InUseAll (Pool.step exec c e).shared := by
  rcases Pool.step_shared exec c e with ⟨-, hsame⟩ | ⟨op, hnext, hshared⟩
  · rw [hsame]
    exact hin
  · rw [hshared]
    exact exec_inUseAll op e.2 c.shared hc.1 (Pool.takes_allowed c e.1 op hc hnext) (he op hnext) hin

theorem run_inUse (hcalls : ∀ i, (calls i).Intact format) (es : List (ι × Outside))
    (hbodies : Run.Along (Pool.Takes Unambiguous) (Pool.step exec) (startPool format calls emptyDb)
      es)
    (hspares : Run.Along (Pool.Takes Spares) (Pool.step exec) (startPool format calls emptyDb) es) :
    InUseAll (Pool.run exec (startPool format calls emptyDb) es).shared := by
  induction es using List.reverseRecOn with
  | nil => exact fun _ h => absurd h List.not_mem_nil
  | append_singleton es e ih =>
      rw [Run.along_append] at hbodies hspares
      have hrun : Pool.run exec (startPool format calls emptyDb) (es ++ [e]) =
          Pool.step exec (Pool.run exec (startPool format calls emptyDb) es) e :=
        Run.runFrom_concat _ _ es e
      rw [hrun]
      exact step_inUse format _ e (run_standing format calls hcalls es hbodies.1)
        (ih hbodies.1 hspares.1) hspares.2.1

/-- Every open drill names a checkpoint, and a lead whose lease is not the one it was
    acknowledged under can complete it. -/
def DrillsAnswerable (db : PolicyDb) : Prop :=
  ∀ q ∈ db.requests, q.openDrill = true → ∃ p, drillPoint db q = some p ∧
    ∀ grantId fence now, Setting db q p grantId fence now →
      Answerable format db q grantId fence now

/-- In every state of a run something is on record about every open drill. -/
theorem run_grounds (hcalls : ∀ i, (calls i).Intact format) (es : List (ι × Outside))
    (hbodies : Run.Along (Pool.Takes Unambiguous) (Pool.step exec) (startPool format calls emptyDb)
      es) (db : PolicyDb) (hdb : db = (Pool.run exec (startPool format calls emptyDb) es).shared) :
    Tidy format db ∧ Drilled format db ∧ ∀ q ∈ db.requests, q.openDrill = true →
      ∃ p, drillPoint db q = some p ∧ Grounds format db q p := by
  have hc := run_standing format calls hcalls es hbodies
  rw [hdb]
  refine ⟨hc.1.toTidy, (run_completing format calls es).1, fun q hq hopen => ?_⟩
  rcases hc.1.drills q hq hopen with ⟨p, hp⟩
  exact ⟨p, drillPoint_of_grounds _ hc.1.toTidy q p hp, hp⟩

/-- In every state of a run exactly those open drills can be completed whose checkpoint
    is in use. So along a run that leaves the checkpoints of open drills in use, every
    open drill can be completed in every state. -/
theorem drills_answerable (hformat : format.Sound) (hcalls : ∀ i, (calls i).Intact format)
    (es : List (ι × Outside))
    (hbodies : Run.Along (Pool.Takes Unambiguous) (Pool.step exec) (startPool format calls emptyDb)
      es) :
    (∀ pre, pre <+: es → ∀ db, db = (Pool.run exec (startPool format calls emptyDb) pre).shared →
      ∀ q ∈ db.requests, q.openDrill = true → ∃ p, drillPoint db q = some p ∧
        ∀ grantId fence now, Setting db q p grantId fence now →
          (Answerable format db q grantId fence now ↔ InUse db p)) ∧
    (Run.Along (Pool.Takes Spares) (Pool.step exec) (startPool format calls emptyDb) es →
      ∀ pre, pre <+: es →
        DrillsAnswerable format (Pool.run exec (startPool format calls emptyDb) pre).shared) := by
  have hgrounds : ∀ pre, pre <+: es → ∀ db,
      db = (Pool.run exec (startPool format calls emptyDb) pre).shared → Tidy format db ∧
        Drilled format db ∧ ∀ q ∈ db.requests, q.openDrill = true →
          ∃ p, drillPoint db q = some p ∧ Grounds format db q p := by
    rintro pre ⟨rest, rfl⟩
    exact run_grounds format calls hcalls pre ((Run.along_append _ _ _ _ _).mp hbodies).1
  constructor
  · intro pre hpre db hdb q hq hopen
    rcases hgrounds pre hpre db hdb with ⟨htidy, hdrilled, hopens⟩
    rcases hopens q hq hopen with ⟨p, hpoint, hp⟩
    refine ⟨p, hpoint, fun grantId fence now hsetting => ⟨?_, fun hin => ?_⟩⟩
    · exact inUse_of_answerable db hdrilled htidy q hq p hp grantId fence now
    · exact answerable_of_grounds hformat db hdrilled htidy q hq hopen p hp hin grantId fence now
        hsetting
  · intro hspares pre hpre q hq hopen
    rcases hgrounds pre hpre _ rfl with ⟨htidy, hdrilled, hopens⟩
    rcases hopens q hq hopen with ⟨p, hpoint, hp⟩
    rcases hpre with ⟨rest, rfl⟩
    have hin := run_inUse format calls hcalls pre ((Run.along_append _ _ _ _ _).mp hbodies).1
      ((Run.along_append _ _ _ _ _).mp hspares).1
    exact ⟨p, hpoint, fun grantId fence now hsetting => answerable_of_grounds hformat _ hdrilled htidy
      q hq hopen p hp (hin q hq hopen p hpoint) grantId fence now hsetting⟩

end Runs

/-! ## A brief that is edited while a drill is open -/

section Sample

theorem plainFormat_sound : plainFormat.Sound :=
  ⟨fun _ _ h => h, fun _ _ h => h, fun _ => ⟨Nat.one_pos, (by decide : 1 ≤ maxOperationalRecordBytes)⟩⟩

theorem sampleCall_intact (i : ℕ) : (sampleCall i).Intact plainFormat := by
  have hall : ∀ call ∈ sampleCalls, call.Intact plainFormat := by
    simp only [sampleCalls, sampleSurroundings, List.map_cons, List.map_nil, List.cons_append,
      List.nil_append, List.forall_mem_cons, PolicyCall.Intact, StoredObject.intact, plainFormat,
      samplePoint, true_and, and_true]
    exact fun _ h => absurd h List.not_mem_nil
  unfold sampleCall
  rw [List.getD_eq_getElem?_getD]
  cases hget : sampleCalls[i]? with
  | none => exact trivial
  | some call => exact hall call (List.mem_of_getElem? hget)

/-- The run in which a drill is completed, up to when it is requested and another lead has
    its lease. -/
def openSteps : List (ℕ × Outside) :=
  sampleSteps.take 30 ++ [(11, answered)]

/-- While it is open the drill of that run can be completed. -/
theorem sampleRun_answerable :
    (∃ q ∈ (Pool.run exec (startPool plainFormat sampleCall emptyDb) openSteps).shared.requests,
      q.openDrill = true) ∧
    DrillsAnswerable plainFormat
      (Pool.run exec (startPool plainFormat sampleCall emptyDb) openSteps).shared :=
  ⟨by decide +kernel, (drills_answerable plainFormat sampleCall plainFormat_sound sampleCall_intact
    openSteps (by decide +kernel)).2 (by decide +kernel) openSteps (List.prefix_refl _)⟩

def sampleEdit : BriefBatch :=
  { projectId := "project", workItemId := "item", expectedProjectVersionId := "project-version"
    expectedWorkItemVersionId := "item-version", nextProjectVersionId := "project-version-2"
    nextWorkItemVersionId := "item-version-2", references := []
    records := [sampleRecord "project-version-2" .projectVersion none,
      sampleRecord "item-version-2" .workItemVersion (some "item")] }

/-- The owner edits the brief instead. -/
def editedCall (i : ℕ) : PolicyCall :=
  if i = 12 then .surrounding (.updateBrief sampleEdit) else sampleCall i

theorem editedCall_intact (i : ℕ) : (editedCall i).Intact plainFormat := by
  unfold editedCall
  split
  · exact trivial
  · exact sampleCall_intact i

def editedRun : PolicyPool ℕ :=
  Pool.run exec (startPool plainFormat editedCall emptyDb) (openSteps ++ [(12, answered)])

/-- After that no receipt is accepted any more. -/
theorem editedRun_unanswerable : ¬ DrillsAnswerable plainFormat editedRun.shared := by
  intro h
  rcases run_grounds plainFormat editedCall editedCall_intact (openSteps ++ [(12, answered)])
    (by decide +kernel) editedRun.shared rfl with ⟨htidy, hdrilled, hopens⟩
  have hstuck : ∃ q ∈ editedRun.shared.requests, q.openDrill = true ∧
      ∀ p ∈ drillPoint editedRun.shared q,
        Setting editedRun.shared q p "grant2" ⟨"lease2", 2⟩ 5000 ∧ ¬ InUse editedRun.shared p := by
    decide +kernel
  rcases hstuck with ⟨q, hq, hopen, hpoint⟩
  rcases hopens q hq hopen with ⟨p, hp, hgrounds⟩
  rcases h q hq hopen with ⟨p', hp', hanswers⟩
  have hsame : p' = p := Option.some.inj (hp'.symm.trans hp)
  rw [hsame] at hanswers
  rcases hpoint p hp with ⟨hsetting, hnot⟩
  exact hnot (inUse_of_answerable _ hdrilled htidy q hq p hgrounds "grant2" ⟨"lease2", 2⟩ 5000
    (hanswers _ _ _ hsetting))

end Sample

end Mdevolved.Policy
