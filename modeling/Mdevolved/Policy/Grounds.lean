import Mdevolved.Policy.Receipts

/-!
# What Is on Record of a Drill

A drill is of a checkpoint. When a pass stores the request of a drill, it has read the
body of the checkpoint and put away the record of the request, and neither ever
changes. So there is something on record about every open drill: its record names the
checkpoint, and both can be read.

Whether the checkpoint can still be continued from is another matter. Project and work
item may be given other versions, and the packet may be turned down, while the drill is
open.

## Main definitions

* `InUse`: Project, work item and packet are still those of a checkpoint.
* `SparesPoint`: A request leaves a checkpoint in use.
* `Extends`: What no request takes away.
* `Grounds`: What is on record about a request and its checkpoint.
* `Founded`: A request stores only drills about which there is something on record.

## Theorems

* `exec_inUse`: What leaves a checkpoint in use.
* `exec_extends`, `exec_tidy`, `exec_requests`: What every request leaves.
* `exec_standing`: There is something on record about every open drill.
* `createScheduledRequest_founds`: What a pass knows of a drill it stores.
* `process_founds`: What every function does.
-/

namespace Mdevolved.Policy

open Batch Process

/-- A drill that nobody has completed. -/
def RequestRow.openDrill (r : RequestRow) : Bool :=
  r.requestKind = .continuityDrill && r.isOpen

/-! ## Checkpoints in use -/

/-- Project and work item have the versions that a checkpoint was acknowledged for, and
    its packet may be continued from. -/
structure InUse (db : PolicyDb) (p : PointRow) : Prop where
  project : ∃ r ∈ db.projects, r.projectId = p.projectId ∧
    r.activeProjectVersionId = p.projectVersionId
  workItem : ∃ i ∈ db.workItems, (i.workItemId = p.workItemId ∧ i.projectId = p.projectId ∧
    i.activeWorkItemVersionId = p.workItemVersionId) ∧ (i.status = .opened ∨ i.status = .closed)
  packet : ∃ r ∈ db.collaborationRecords,
    r.usablePacket p.workPacketId p.projectId p.workItemId = true

instance (db : PolicyDb) (p : PointRow) : Decidable (InUse db p) :=
  decidable_of_iff (_ ∧ _ ∧ _) ⟨fun h => ⟨h.1, h.2.1, h.2.2⟩, fun h => ⟨h.1, h.2, h.3⟩⟩

/-- A disposition that a packet may be continued from under. -/
def Disposition.usable (d : Disposition) : Bool :=
  d = .pending || d = .accepted

/-- A fact about some row stays where no row is changed so that it loses it. -/
theorem exists_update {ρ : Type} (rows : List ρ) (p : ρ → Bool) (f : ρ → ρ) (Q : ρ → Prop)
    (hf : ∀ r, p r = true → Q r → Q (f r)) (h : ∃ r ∈ rows, Q r) : ∃ r ∈ Table.update p f rows, Q r := by
  rcases h with ⟨r, hr, hQ⟩
  refine ⟨_, Table.update_mem p f rows r hr, ?_⟩
  by_cases hp : p r = true
  · rw [if_pos hp]
    exact hf r hp hQ
  · rw [if_neg hp]
    exact hQ

theorem exists_append {ρ : Type} (rows new : List ρ) (Q : ρ → Prop) (h : ∃ r ∈ rows, Q r) :
    ∃ r ∈ rows ++ new, Q r := by
  rcases h with ⟨r, hr, hQ⟩
  exact ⟨r, List.mem_append_left _ hr, hQ⟩

/-- A request of the pool that leaves a checkpoint in use: an edit of the brief is of
    another project or refused, and a disposition is of another packet or a good one. -/
def SparesPoint (db : PolicyDb) (p : PointRow) : PolicyOp → Prop
  | .surrounding (.updateBrief b) => b.stale db = true ∨ b.projectId ≠ p.projectId
  | .surrounding (.applyOwnerRecordAction id d) => d.usable = true ∨ id ≠ p.workPacketId
  | _ => True

instance (db : PolicyDb) (p : PointRow) (op : PolicyOp) : Decidable (SparesPoint db p op) := by
  unfold SparesPoint
  split <;> infer_instance

/-- What changes none of the tables of projects, work items and packets. -/
theorem inUse_same (db db' : PolicyDb) (p : PointRow) (h : InUse db p)
    (hprojects : db'.projects = db.projects) (hworkItems : db'.workItems = db.workItems)
    (hrecords : db'.collaborationRecords = db.collaborationRecords) : InUse db' p := by
  refine ⟨?_, ?_, ?_⟩
  · rw [hprojects]; exact h.project
  · rw [hworkItems]; exact h.workItem
  · rw [hrecords]; exact h.packet

theorem updateBrief_inUse (b : BriefBatch) (db : PolicyDb) (p : PointRow) (h : InUse db p)
    (hspares : b.stale db = true ∨ b.projectId ≠ p.projectId) (hpasses : Passes b.writes db) :
    InUse (written b.writes db) p := by
  have hother : b.projectId ≠ p.projectId := by
    rcases hspares with hstale | hother
    · have hrequire := (Write.require_passes _ _ _).mp hpasses.1
      rw [hstale] at hrequire
      cases hrequire
    · exact hother
  refine ⟨?_, ?_, ?_⟩
  · refine exists_update db.projects _ _ _ (fun r hr hQ => ?_) h.project
    simp only [Bool.and_eq_true, decide_eq_true_eq] at hr
    exact absurd (hr.1.symm.trans hQ.1) hother
  · refine exists_update db.workItems _ _ _ (fun i hi hQ => ?_) h.workItem
    simp only [Bool.and_eq_true, decide_eq_true_eq] at hi
    exact absurd (hi.1.1.symm.trans hQ.1.2.1) hother
  · exact exists_append db.collaborationRecords _ _ h.packet

theorem applyOwnerRecordAction_inUse (id : String) (d : Disposition) (w : Outside)
    (db : PolicyDb) (p : PointRow) (h : InUse db p)
    (hspares : d.usable = true ∨ id ≠ p.workPacketId) :
    InUse (written ((Surrounding.applyOwnerRecordAction id d).writes w) db) p := by
  refine ⟨h.project, h.workItem, exists_update db.collaborationRecords _ _ _ (fun r hr hQ => ?_) h.packet⟩
  have hid : r.id = id := of_decide_eq_true hr
  simp only [CollaborationRecordRow.usablePacket, Bool.and_eq_true, decide_eq_true_eq] at hQ ⊢
  refine ⟨hQ.1, ?_⟩
  rcases hspares with husable | hother
  · exact husable
  · exact absurd (hid.symm.trans hQ.1.1.1.1.1) hother

/-- A request that spares a checkpoint leaves it in use. -/
theorem exec_inUse (op : PolicyOp) (w : Outside) (db : PolicyDb) (p : PointRow) (h : InUse db p)
    (hspares : SparesPoint db p op) : InUse (exec op w db).2 p := by
  rcases policy.exec_cases op w db with hsame | ⟨hpasses, hwritten⟩
  · rw [hsame]
    exact h
  · rw [hwritten]
    have hput : ∀ (object : StoredObject) (message : String),
        InUse ((putObject object message).update db) p := by
      intro object message
      unfold putObject
      dsimp only
      split
      · exact h
      · exact inUse_same db _ p h rfl rfl rfl
    cases op with
    | putRecord object => exact hput object _
    | advance as =>
        rcases advances_written as db with ⟨schedules, heq⟩
        change InUse (written (as.map Advance.write) db) p
        rw [heq]
        exact inUse_same db _ p h rfl rfl rfl
    | activate b =>
        change InUse (written b.writes db) p
        unfold ActivateBatch.writes
        rw [written_append, written_append, insertRecords_written]
        unfold ActivateBatch.supersede
        cases b.existingBindingId <;> exact inUse_same db _ p h rfl rfl rfl
    | surrounding op =>
        cases op with
        | putBody object => exact hput object _
        | createProject row =>
            exact ⟨exists_append db.projects _ _ h.project, h.workItem, h.packet⟩
        | createWorkItem row =>
            exact ⟨h.project, exists_append db.workItems _ _ h.workItem, h.packet⟩
        | insertRecord row references =>
            exact ⟨h.project, h.workItem, exists_append db.collaborationRecords _ _ h.packet⟩
        | updateBrief b => exact updateBrief_inUse b db p h hspares hpasses
        | applyOwnerRecordAction id d => exact applyOwnerRecordAction_inUse id d w db p h hspares
        | setArchived projectId archived =>
            exact ⟨exists_update db.projects _ _ _ (fun _ _ hQ => hQ) h.project, h.workItem, h.packet⟩
        | closeWorkItem workItemId =>
            exact ⟨h.project, exists_update db.workItems _ _ _ (fun _ _ hQ => ⟨hQ.1, Or.inr rfl⟩)
              h.workItem, h.packet⟩
        | reopenWorkItem projectId workItemId =>
            exact ⟨h.project, exists_update db.workItems _ _ _ (fun _ _ hQ => ⟨hQ.1, Or.inl rfl⟩)
              h.workItem, h.packet⟩
        | _ => exact inUse_same db _ p h rfl rfl rfl
    | _ => exact inUse_same db _ p h rfl rfl rfl

/-! ## What is on record -/

section Grounds

variable (format : PolicyFormat)

/-- What no request takes away: records, checkpoints and objects, and that a schedule is
    of a project. -/
structure Extends (s t : PolicyDb) : Prop where
  records : s.records <+: t.records
  points : s.points <+: t.points
  objects : s.objects <+: t.objects
  schedules : ∀ x ∈ s.schedules, ∃ y ∈ t.schedules, y.scheduleId = x.scheduleId ∧
    y.projectId = x.projectId

theorem extends_of_schedules (s t : PolicyDb) (hrecords : s.records <+: t.records)
    (hpoints : s.points <+: t.points) (hobjects : s.objects <+: t.objects)
    (hschedules : s.schedules <+: t.schedules) : Extends s t :=
  ⟨hrecords, hpoints, hobjects, fun x hx => ⟨x, hschedules.subset hx, rfl, rfl⟩⟩

theorem extends_refl (s : PolicyDb) : Extends s s :=
  extends_of_schedules s s (List.prefix_refl _) (List.prefix_refl _) (List.prefix_refl _)
    (List.prefix_refl _)

theorem extends_trans (s t u : PolicyDb) (h : Extends s t) (h' : Extends t u) : Extends s u := by
  refine ⟨h.records.trans h'.records, h.points.trans h'.points, h.objects.trans h'.objects, ?_⟩
  intro x hx
  rcases h.schedules x hx with ⟨y, hy, hid, hproject⟩
  rcases h'.schedules y hy with ⟨z, hz, hid', hproject'⟩
  exact ⟨z, hz, hid'.trans hid, hproject'.trans hproject⟩

/-- An object is put at the end, unless it is there. -/
theorem putObject_extends (object : StoredObject) (message : String) (db : PolicyDb) :
    Extends db ((putObject object message).update db) := by
  unfold putObject
  dsimp only
  split
  · exact extends_refl db
  · exact extends_of_schedules db _ (List.prefix_refl _) (List.prefix_refl _)
      (List.prefix_append _ _) (List.prefix_refl _)

/-- Schedules that are changed stay schedules of their projects. -/
theorem extends_of_update (db : PolicyDb) (p : ScheduleRow → Bool) (f : ScheduleRow → ScheduleRow)
    (hf : ∀ s, (f s).scheduleId = s.scheduleId ∧ (f s).projectId = s.projectId) :
    Extends db { db with schedules := Table.update p f db.schedules } := by
  refine ⟨List.prefix_refl _, List.prefix_refl _, List.prefix_refl _, fun x hx => ?_⟩
  refine ⟨_, Table.update_mem p f db.schedules x hx, ?_⟩
  by_cases hp : p x = true
  · rw [if_pos hp]
    exact hf x
  · rw [if_neg hp]
    exact ⟨rfl, rfl⟩

theorem advances_extends (as : List Advance) (db : PolicyDb) :
    Extends db (written (as.map Advance.write) db) := by
  induction as generalizing db with
  | nil => exact extends_refl db
  | cons a as ih =>
      refine extends_trans db (a.write.update db) _ (extends_of_update db _ _ (fun s => ?_)) (ih _)
      cases a.kind <;> simp only [ScheduleRow.setNext, and_self]

theorem activate_extends (b : ActivateBatch) (db : PolicyDb) :
    Extends db (written b.writes db) := by
  have hsupersede : Extends db (written b.supersede db) := by
    unfold ActivateBatch.supersede
    cases b.existingBindingId with
    | none => exact extends_refl db
    | some bindingId =>
        exact extends_trans db _ _ (extends_of_update db _ (fun s => { s with status := .paused })
          (fun _ => ⟨rfl, rfl⟩)) (extends_of_schedules _ _ (List.prefix_refl _) (List.prefix_refl _)
            (List.prefix_refl _) (List.prefix_refl _))
  refine extends_trans db _ _ hsupersede ?_
  unfold ActivateBatch.writes
  rw [written_append, written_append, insertRecords_written]
  exact extends_of_schedules _ _ (List.prefix_append _ _) (List.prefix_refl _) (List.prefix_refl _)
    (List.prefix_append _ _)

/-- No request takes any of that away. -/
theorem exec_extends (op : PolicyOp) (w : Outside) (db : PolicyDb) :
    Extends db (exec op w db).2 := by
  rcases policy.exec_cases op w db with hsame | ⟨-, hwritten⟩
  · rw [hsame]
    exact extends_refl db
  · rw [hwritten]
    cases op with
    | putRecord object => exact putObject_extends object _ db
    | advance as => exact advances_extends as db
    | activate b => exact activate_extends b db
    | insertRequest b | insertReport b | completeDrill b =>
        exact extends_of_schedules db _ (List.prefix_append _ _) (List.prefix_refl _)
          (List.prefix_refl _) (List.prefix_refl _)
    | touchClock scheduledTime now =>
        exact extends_of_schedules db _ (List.prefix_refl _) (List.prefix_refl _)
          (List.prefix_refl _) (List.prefix_refl _)
    | surrounding op =>
        cases op with
        | putBody object => exact putObject_extends object _ db
        | acknowledgePoint b =>
            exact extends_of_schedules db _ (List.prefix_refl _) (List.prefix_append _ _)
              (List.prefix_refl _) (List.prefix_refl _)
        | _ =>
            exact extends_of_schedules db _ (List.prefix_refl _) (List.prefix_refl _)
              (List.prefix_refl _) (List.prefix_refl _)
    | _ => exact extends_refl db

/-- An object is put away under the hash and the size of what it contains. -/
def StoredObject.intact (o : StoredObject) : Prop :=
  o.sha256 = format.contentSha256 o.body ∧ o.size = format.byteLength o.body

/-- What is on record about a request and its checkpoint: the record of the request names
    the checkpoint, and both can be read. -/
structure Grounds (db : PolicyDb) (q : RequestRow) (p : PointRow) : Prop where
  record : ∃ row object e window,
    db.records.find? (fun r => r.operationalRecordId = q.operationalRecordId) = some row ∧
      db.objects.find? (fun o => o.key = row.bodyObjectKey) = some object ∧
      recordOf format row (some object) = .ok (.evidence e) ∧ e.evidenceId = q.requestId ∧
      e.projectId = q.projectId ∧ e.scheduleId = some q.scheduleId ∧
      e.detail = .continuityDrillRequest q.dueAt window p.continuityPointId p.workItemId
        p.workPacketId
  body : ∃ object stored, db.objects.find? (fun o => o.key = p.bodyObjectKey) = some object ∧
    pointOf format p (some object) = .ok stored
  point : p ∈ db.points
  project : p.projectId = q.projectId
  acknowledged : p.restoredAt = none ∧ p.sourceLeaseId ≠ none
  schedule : ∃ s ∈ db.schedules, s.scheduleId = q.scheduleId ∧ s.projectId = q.projectId

/-- What is on record stays there. -/
theorem grounds_extends (s t : PolicyDb) (h : Extends s t) (q q' : RequestRow)
    (hsubject : q'.subject = q.subject) (p : PointRow) (hg : Grounds format s q p) :
    Grounds format t q' p := by
  have hq : Grounds format t q p := by
    rcases hg.record with ⟨row, object, e, window, hrow, hobject, hread⟩
    rcases hg.body with ⟨body, stored, hbody, hpoint⟩
    rcases hg.schedule with ⟨x, hx, hid, hproject⟩
    rcases h.schedules x hx with ⟨y, hy, hid', hproject'⟩
    exact ⟨⟨row, object, e, window, h.records.find?_eq_some hrow, h.objects.find?_eq_some hobject, hread⟩,
      ⟨body, stored, h.objects.find?_eq_some hbody, hpoint⟩, h.points.subset hg.point, hg.project,
      hg.acknowledged, ⟨y, hy, hid'.trans hid, hproject'.trans hproject⟩⟩
  -- What is on record is said of the subject of a request.
  have hsame : ∀ r : RequestRow, Grounds format t r p ↔ Grounds format t r.subject p := fun r =>
    ⟨fun ⟨a, b, c, d, e, f⟩ => ⟨a, b, c, d, e, f⟩, fun ⟨a, b, c, d, e, f⟩ => ⟨a, b, c, d, e, f⟩⟩
  rw [hsame, hsubject, ← hsame]
  exact hq

/-- Objects are intact, identifiers single, and numbers not negative. -/
structure Tidy (db : PolicyDb) : Prop where
  objects : ∀ o ∈ db.objects, o.intact format
  pointIds : (db.points.map PointRow.continuityPointId).Nodup
  acknowledged : ∀ p ∈ db.points, 0 ≤ p.acknowledgedAt
  projectIds : (db.projects.map ProjectRow.projectId).Nodup
  tokens : ∀ l ∈ db.leases, 0 < l.fencingToken

/-- There is something on record about every open drill. -/
structure Standing (db : PolicyDb) : Prop extends Tidy format db where
  drills : ∀ q ∈ db.requests, q.openDrill = true → ∃ p, Grounds format db q p

/-- What is on record of a drill that is stored: its record was put away, and its
    checkpoint can be read. -/
structure Sourced (db : PolicyDb) (b : RequestBatch) (q : RequestRow) (p : PointRow) : Prop where
  prepared : ∃ id, b.prepared = prepared format (.evidence b.evidence) id
  valid : b.evidence.valid = true
  stored : ∃ object, db.objects.find? (fun o => o.key = b.prepared.bodyObjectKey) = some object ∧
    object.body = .operational (.evidence b.evidence)
  detail : ∃ window, b.evidence.detail = .continuityDrillRequest q.dueAt window p.continuityPointId
    p.workItemId p.workPacketId
  body : ∃ object stored, db.objects.find? (fun o => o.key = p.bodyObjectKey) = some object ∧
    pointOf format p (some object) = .ok stored
  point : p ∈ db.points
  project : p.projectId = q.projectId
  acknowledged : p.restoredAt = none ∧ p.sourceLeaseId ≠ none
  schedule : ∃ s ∈ db.schedules, s.scheduleId = q.scheduleId ∧ s.projectId = q.projectId

/-- What a call may send: objects that are intact, and requests of drills about which
    there is something on record. -/
def Founded (op : PolicyOp) (db : PolicyDb) : Prop :=
  match op with
  | .insertRequest b => ∀ q, b.evidence.requestRow = some q → q.requestKind = .continuityDrill →
      ∃ p, Sourced format db b q p
  | .insertReport b => b.evidence.requestRow = none
  | .putRecord o => o.intact format
  | .surrounding (.putBody o) => o.intact format
  | _ => True

variable {format}

/-! ## What every request leaves -/

theorem tidy_same (db db' : PolicyDb) (h : Tidy format db) (hobjects : db'.objects = db.objects)
    (hpoints : db'.points = db.points) (hprojects : db'.projects = db.projects)
    (hleases : db'.leases = db.leases) : Tidy format db' := by
  refine ⟨?_, ?_, ?_, ?_, ?_⟩
  · rw [hobjects]; exact h.objects
  · rw [hpoints]; exact h.pointIds
  · rw [hpoints]; exact h.acknowledged
  · rw [hprojects]; exact h.projectIds
  · rw [hleases]; exact h.tokens

theorem putObject_tidy (object : StoredObject) (message : String) (db : PolicyDb)
    (h : Tidy format db) (hintact : object.intact format) :
    Tidy format ((putObject object message).update db) := by
  unfold putObject
  dsimp only
  split
  · exact h
  · refine ⟨fun o ho => ?_, h.pointIds, h.acknowledged, h.projectIds, h.tokens⟩
    rcases List.mem_append.mp ho with hold | hnew
    · exact h.objects o hold
    · rw [List.mem_singleton.mp hnew]
      exact hintact

section

variable (op : PolicyOp) (w : Outside) (db : PolicyDb)

/-- Projects that are changed keep their identifiers. -/
theorem tidy_projects (h : Tidy format db) (p : ProjectRow → Bool)
    (f : ProjectRow → ProjectRow) (hf : ∀ r, (f r).projectId = r.projectId) :
    Tidy format { db with projects := Table.update p f db.projects } := by
  refine ⟨h.objects, h.pointIds, h.acknowledged, ?_, h.tokens⟩
  rw [Table.map_update ProjectRow.projectId p f hf db.projects]
  exact h.projectIds

/-- Leases that are changed keep a token that is not zero. -/
theorem tidy_leases (h : Tidy format db) (p : LeaseRow → Bool)
    (f : LeaseRow → LeaseRow) (hf : ∀ l, 0 < l.fencingToken → 0 < (f l).fencingToken) :
    Tidy format { db with leases := Table.update p f db.leases } := by
  refine ⟨h.objects, h.pointIds, h.acknowledged, h.projectIds, fun l hl => ?_⟩
  rcases Table.mem_update p f db.leases l hl with ⟨l', hl', ⟨-, heq⟩ | ⟨-, heq⟩⟩
  · rw [heq]
    exact hf l' (h.tokens l' hl')
  · rw [heq]
    exact h.tokens l' hl'

theorem claimLease_tidy (h : Tidy format db) (w : Outside)
    (projectId leaseId grantId : String) (now expiresAt : Int) : Tidy format { db with
      leases := claimLeases db.leases w projectId leaseId grantId now expiresAt } := by
  unfold claimLeases
  split
  · exact tidy_leases db h _ _ (fun _ _ => Nat.succ_pos _)
  · refine ⟨h.objects, h.pointIds, h.acknowledged, h.projectIds, fun l hl => ?_⟩
    rcases List.mem_append.mp hl with hold | hnew
    · exact h.tokens l hold
    · rw [List.mem_singleton.mp hnew]
      exact Nat.one_pos

theorem acknowledgePoint_tidy (b : PointBatch) (w : Outside) (db : PolicyDb)
    (h : Tidy format db) (hpasses : Passes (b.writes w) db) :
    Tidy format (written (b.writes w) db) := by
  have hadmits := (Write.insertAll_single _ _ _ _ _ _).mp hpasses.2.1
  simp only [PointRow.admits, Bool.and_eq_true, decide_eq_true_eq] at hadmits
  refine ⟨h.objects, ?_, fun p hp => ?_, h.projectIds, h.tokens⟩
  · exact Table.map_concat_nodup PointRow.continuityPointId db.points b.point h.pointIds
      ((fresh_iff _ _ _).mp hadmits.1.1.1.1)
  · rcases List.mem_append.mp hp with hold | hnew
    · exact h.acknowledged p hold
    · rw [List.mem_singleton.mp hnew]
      exact hadmits.1.2

/-- Every request leaves objects intact and identifiers single. -/
theorem exec_tidy (h : Tidy format db)
    (hop : Founded format op db) : Tidy format (exec op w db).2 := by
  rcases policy.exec_cases op w db with hsame | ⟨hpasses, hwritten⟩
  · rw [hsame]
    exact h
  · rw [hwritten]
    cases op with
    | putRecord object => exact putObject_tidy object _ db h hop
    | advance as =>
        rcases advances_written as db with ⟨schedules, heq⟩
        change Tidy format (written (as.map Advance.write) db)
        rw [heq]
        exact tidy_same db _ h rfl rfl rfl rfl
    | activate b =>
        change Tidy format (written b.writes db)
        unfold ActivateBatch.writes
        rw [written_append, written_append, insertRecords_written]
        unfold ActivateBatch.supersede
        cases b.existingBindingId <;> exact tidy_same db _ h rfl rfl rfl rfl
    | surrounding op =>
        cases op with
        | putBody object => exact putObject_tidy object _ db h hop
        | createProject row =>
            have hadmits := (Write.insertAll_single _ _ _ _ _ _).mp hpasses.1
            exact ⟨h.objects, h.pointIds, h.acknowledged,
              Table.map_concat_nodup ProjectRow.projectId db.projects row h.projectIds
                ((fresh_iff _ _ _).mp hadmits), h.tokens⟩
        | updateBrief b =>
            have hprojects := tidy_projects db h
              (fun p => p.projectId = b.projectId &&
                p.activeProjectVersionId = b.expectedProjectVersionId)
              (fun p => { p with activeProjectVersionId := b.nextProjectVersionId }) (fun _ => rfl)
            exact tidy_same _ _ hprojects rfl rfl rfl rfl
        | setArchived projectId archived => exact tidy_projects db h _ _ (fun _ => rfl)
        | claimLease projectId leaseId grantId now expiresAt =>
            exact claimLease_tidy db h w projectId leaseId grantId now expiresAt
        | renewLease projectId grantId fence now expiresAt =>
            exact tidy_leases db h _ _ (fun _ hl => hl)
        | revokeLease projectId => exact tidy_leases db h _ _ (fun _ hl => hl)
        | acknowledgePoint b => exact acknowledgePoint_tidy b w db h hpasses
        | _ => exact tidy_same db _ h rfl rfl rfl rfl
    | _ => exact tidy_same db _ h rfl rfl rfl rfl

/-- What becomes of requests: they stay what they are, an open one was open before, and
    one that is new was sent. -/
theorem exec_requests (hreport : ∀ b, op = .insertReport b → b.evidence.requestRow = none) (q' : RequestRow)
    (hq' : q' ∈ (exec op w db).2.requests) :
    (∃ q ∈ db.requests, q'.subject = q.subject ∧ (q'.openDrill = true → q.openDrill = true)) ∨
      ∃ b, op = .insertRequest b ∧ b.evidence.requestRow = some q' ∧ Passes b.writes db ∧
        (exec op w db).2 = written b.writes db := by
  have hsubject : ∀ q ∈ db.requests, q' = q → ∃ q ∈ db.requests, q'.subject = q.subject ∧
      (q'.openDrill = true → q.openDrill = true) := by
    rintro q hq rfl
    exact ⟨q', hq, rfl, id⟩
  by_cases hquiet : op.quiet = true
  · rw [(exec_quiet op w db hquiet).1] at hq'
    exact Or.inl (hsubject q' hq' rfl)
  · rcases policy.exec_cases op w db with hsame | ⟨hpasses, hwritten⟩
    · rw [hsame] at hq'
      exact Or.inl (hsubject q' hq' rfl)
    · rw [hwritten] at hq'
      cases op with
      | insertRequest b =>
          change q' ∈ b.evidence.requestRow.elim db.requests (insertOrIgnore db.requests) at hq'
          cases hrow : b.evidence.requestRow with
          | none =>
              rw [hrow] at hq'
              exact Or.inl (hsubject q' hq' rfl)
          | some r =>
              rw [hrow] at hq'
              change q' ∈ insertOrIgnore db.requests r at hq'
              unfold insertOrIgnore at hq'
              split at hq'
              · rcases List.mem_append.mp hq' with hold | hnew
                · exact Or.inl (hsubject q' hold rfl)
                · rw [List.mem_singleton.mp hnew]
                  exact Or.inr ⟨b, rfl, hrow, hpasses, hwritten⟩
              · exact Or.inl (hsubject q' hq' rfl)
      | insertReport b =>
          change q' ∈ b.evidence.requestRow.elim db.requests (insertOrIgnore db.requests) at hq'
          rw [hreport b rfl] at hq'
          exact Or.inl (hsubject q' hq' rfl)
      | advance as =>
          rcases advances_written as db with ⟨schedules, heq⟩
          change q' ∈ (written (as.map Advance.write) db).requests at hq'
          rw [heq] at hq'
          exact Or.inl (hsubject q' hq' rfl)
      | completeDrill b =>
          rcases List.mem_map.mp (hq' : q' ∈ db.requests.map b.close) with ⟨q, hq, rfl⟩
          refine Or.inl ⟨q, hq, close_subject b q, fun hopen => ?_⟩
          split at hopen
          · simp only [RequestRow.openDrill, RequestRow.isOpen, reduceCtorEq, decide_false,
              Bool.or_self, Bool.and_false, Bool.false_eq_true] at hopen
          · exact hopen
      | activate b =>
          rcases activate_written b db with ⟨-, -, -, -, -, hrequests, -⟩
          change q' ∈ (written b.writes db).requests at hq'
          rw [hrequests] at hq'
          exact Or.inl (hsubject q' hq' rfl)
      | _ => exact absurd rfl hquiet

/-- The row of a request is of the project and the schedule of its record. -/
theorem requestRow_schedule (e : OperationalEvidence) (q : RequestRow) (h : e.requestRow = some q) :
    q.projectId = e.projectId ∧ e.scheduleId = some q.scheduleId := by
  unfold OperationalEvidence.requestRow at h
  split at h
  · next kind window dueAt scheduleId hdetail hschedule =>
    rw [← Option.some.inj h]
    exact ⟨rfl, hschedule⟩
  · cases h

/-- What is intact and contains a record is what the row of the record says. -/
theorem recordOf_put (record : PolicyOperationalRecord) (hvalid : record.valid = true) (id : String)
    (object : StoredObject) (hintact : object.intact format) (hbody : object.body = .operational record) :
    recordOf format (prepared format record id).row (some object) = .ok record := by
  have hsize : object.size = (prepared format record id).row.byteLength := by
    rw [hintact.2, hbody]
    rfl
  have hsha : object.sha256 = (prepared format record id).row.contentSha256 := by
    rw [hintact.1, hbody]
    rfl
  have hcontent : format.contentSha256 object.body = (prepared format record id).row.contentSha256 :=
    hintact.1.symm.trans hsha
  unfold recordOf
  dsimp only
  rw [if_neg, hbody]
  · exact if_pos hvalid
  · rw [hsize, hsha, hcontent]
    simp only [ne_eq, not_true, decide_false, Bool.or_self, Bool.false_eq_true, not_false_iff]

/-- There is something on record about a drill that is stored. -/
theorem sourced_grounds (b : RequestBatch) (q : RequestRow) (p : PointRow) (db : PolicyDb) (h : Tidy format db)
    (hrow : b.evidence.requestRow = some q) (hs : Sourced format db b q p)
    (hpasses : Passes b.writes db) : Grounds format (written b.writes db) q p := by
  rcases hs.prepared with ⟨id, hprepared⟩
  rcases hs.stored with ⟨object, hobject, hbody⟩
  rcases hs.detail with ⟨window, hdetail⟩
  rcases requestRow_facts b.evidence q hrow with ⟨hid, hrecord, -⟩
  rcases requestRow_schedule b.evidence q hrow with ⟨hproject, hschedule⟩
  have hfound : (db.records ++ [b.prepared.row]).find?
      (fun r => r.operationalRecordId = q.operationalRecordId) = some b.prepared.row := by
    -- The identifier of the record is new.
    have hadmits := (Write.insertAll_single _ _ _ _ _ _).mp hpasses.1
    simp only [OperationalRecordRow.admits, Bool.and_eq_true] at hadmits
    have hfresh := (fresh_iff _ _ _).mp hadmits.1.1.1.1.1.1
    have hsame : b.prepared.row.operationalRecordId = q.operationalRecordId := by
      rw [hprepared, hrecord]
      rfl
    refine Table.find?_of_unique _ _ _ (List.mem_append_right _ (List.mem_singleton_self _))
      (decide_eq_true hsame) (fun t ht heq => ?_)
    rcases List.mem_append.mp ht with hold | hnew
    · exact absurd ((of_decide_eq_true heq).trans hsame.symm) (hfresh t hold)
    · exact List.mem_singleton.mp hnew
  refine ⟨⟨b.prepared.row, object, b.evidence, window, hfound, hobject, ?_, hid.symm, hproject.symm,
    hschedule, hdetail⟩, hs.body, hs.point, hs.project, hs.acknowledged, hs.schedule⟩
  rw [hprepared]
  exact recordOf_put (.evidence b.evidence) hs.valid id object
    (h.objects object (List.mem_of_find?_eq_some hobject)) hbody

/-- Every request leaves something on record about every open drill. -/
theorem exec_standing (h : Standing format db)
    (hop : Founded format op db) : Standing format (exec op w db).2 := by
  refine ⟨exec_tidy op w db h.toTidy hop, fun q' hq' hopen => ?_⟩
  have hreport : ∀ b, op = .insertReport b → b.evidence.requestRow = none := by
    rintro b rfl
    exact hop
  rcases exec_requests op w db hreport q' hq' with ⟨q, hq, hsubject, hwas⟩ | ⟨b, rfl, hrow, hpasses, heq⟩
  · rcases h.drills q hq (hwas hopen) with ⟨p, hp⟩
    exact ⟨p, grounds_extends format db _ (exec_extends op w db) q q' hsubject p hp⟩
  · have hkind : q'.requestKind = .continuityDrill := by
      simp only [RequestRow.openDrill, Bool.and_eq_true, decide_eq_true_eq] at hopen
      exact hopen.1
    rcases hop q' hrow hkind with ⟨p, hp⟩
    refine ⟨p, ?_⟩
    rw [heq]
    exact sourced_grounds b q' p db h.toTidy hrow hp hpasses

end

/-! ## What a pass has read -/

/-- What a request puts into storage. -/
def PolicyOp.puts : PolicyOp → Option StoredObject
  | putRecord object | surrounding (.putBody object) => some object
  | _ => none

/-- A text is not put away under the hash of another. -/
def Unambiguous (op : PolicyOp) (_ : Outside) (db : PolicyDb) : Prop :=
  ∀ object ∈ op.puts, ∀ o ∈ db.objects, o.sha256 = object.sha256 → o.body = object.body

instance (op : PolicyOp) (w : Outside) (db : PolicyDb) : Decidable (Unambiguous op w db) :=
  inferInstanceAs (Decidable (∀ object ∈ op.puts, _))

/-- A function that stores only drills about which there is something on record. -/
abbrev Founds {α : Type} (format : PolicyFormat) (Q : α → PolicyDb → Prop) (p : PolicyProcess α)
    (s : PolicyDb) : Prop :=
  p.Meets exec Unambiguous (Standing format) Extends (Founded format) (Interface.Returns Q) s

/-- A fact about what is never taken away. -/
abbrev Remains (K : PolicyDb → Prop) : Prop :=
  ∀ s t, Extends s t → K s → K t

theorem beside_founds {α : Type} {Q : α → PolicyDb → Prop} (K : PolicyDb → Prop)
    (hK : Remains K) (p : PolicyProcess α) (s : PolicyDb) (hs : K s) (hp : Founds format Q p s) :
    Founds format (fun a t => Q a t ∧ K t) p s :=
  Interface.meets_beside K hK (fun op w t _ _ _ => exec_extends op w t) p s hs hp

theorem reads_founded (op : PolicyOp) (h : op.reads = true) (db : PolicyDb) :
    Founded format op db := by
  cases op with
  | insertRequest _ | insertReport _ | putRecord _ | surrounding _ => cases h
  | _ => exact trivial

theorem ask_founded (op : PolicyOp) (h : op.reads = true) :
    (ask op).Within (fun op => ∀ db, Founded format op db) (fun _ => True) :=
  ask_within (A := fun op => ∀ db, Founded format op db) op (reads_founded op h)

theorem put_founded (record : PolicyOperationalRecord) (id : String) (db : PolicyDb) :
    Founded format (.putRecord (prepared format record id).object) db :=
  ⟨rfl, rfl⟩

/-- What only does what is always allowed leaves a fact that remains. -/
theorem within_founds {α : Type} (K : PolicyDb → Prop) (hK : Remains K) (p : PolicyProcess α)
    (s : PolicyDb) (hs : K s)
    (hp : p.Within (fun op => ∀ db, Founded format op db) (fun _ => True)) :
    Founds format (fun _ => K) p s :=
  Interface.meets_quiet K hK (fun op w t _ _ _ => exec_extends op w t) p s hs hp

/-- The body of a checkpoint says what its row says. -/
theorem pointOf_ok (row : PointRow) (object : Option StoredObject) (stored : StoredContinuityPoint)
    (h : pointOf format row object = .ok stored) :
    stored.point.matches row = true ∧ stored.contentSha256 = row.contentSha256 ∧
      stored.restoredAt = row.restoredAt ∧ stored.sourceLeaseId = row.sourceLeaseId := by
  unfold pointOf at h
  split at h
  · cases h
  · split at h
    · cases h
    · split at h
      · cases h
      · split at h
        · split at h
          · next hmatches =>
            rw [← Except.ok.inj h]
            exact ⟨hmatches, rfl, rfl, rfl⟩
          · cases h
        · cases h

/-- A checkpoint that was read is one of a project, and can be read again. -/
def PointRead (format : PolicyFormat) (projectId : String) (stored : StoredContinuityPoint)
    (db : PolicyDb) : Prop :=
  ∃ p ∈ db.points, p.projectId = projectId ∧
    ∃ object, db.objects.find? (fun o => o.key = p.bodyObjectKey) = some object ∧
      pointOf format p (some object) = .ok stored

theorem pointRead_remains (projectId : String) (stored : StoredContinuityPoint) :
    Remains (PointRead format projectId stored) := by
  rintro s t h ⟨p, hp, hproject, object, hobject, hread⟩
  exact ⟨p, h.points.subset hp, hproject, object, h.objects.find?_eq_some hobject, hread⟩

section

variable (input : ScheduledRequestInput) (sourcePoint : Option StoredContinuityPoint)
  (s : PolicyDb)

theorem readSourcePoint_founds :
    Founds format (fun sp t => ∀ stored ∈ sp, PointRead format input.schedule.projectId stored t)
      (readSourcePoint format input) s := by
  unfold readSourcePoint
  cases input.kind with
  | continuityPoint =>
      intro stored hstored
      exact absurd hstored (Option.not_mem_none stored)
  | continuityDrill =>
      refine Interface.meets_then (Interface.meets_read (fun _ => True) (fun _ _ _ _ => trivial)
        (PolicyOp.readLatestPoint input.schedule.projectId) (fun _ => trivial) (fun _ => rfl) s trivial) ?_
      rintro row? t ⟨-, -, w, hread⟩
      cases row? with
      | none =>
          intro stored hstored
          exact absurd hstored (Option.not_mem_none stored)
      | some row =>
          have hfound : latestPoint t input.schedule.projectId = some row := Except.ok.inj hread
          unfold latestPoint at hfound
          have hmem : row ∈ t.points := List.mem_of_find?_eq_some hfound
          have hproject : row.projectId = input.schedule.projectId := by
            have hpassed := List.find?_some hfound
            simp only [Bool.and_eq_true, decide_eq_true_eq] at hpassed
            exact hpassed.1
          refine Interface.meets_then (Interface.meets_read (fun t => row ∈ t.points)
            (fun _ _ h hmem => h.points.subset hmem) (PolicyOp.getObject row.bodyObjectKey)
            (fun _ => trivial) (fun _ => rfl) t hmem) ?_
          rintro object u ⟨-, hmem, w', hobject⟩
          refine meets_ofExcept _ _ u (fun stored hstored => ?_) (fun _ _ => trivial)
          intro stored' hstored'
          rw [← Option.some.inj hstored']
          cases object with
          | none => cases hstored
          | some object => exact ⟨row, hmem, hproject, object, Except.ok.inj hobject, hstored⟩

/-- A schedule that was read is still there, and of the same project. -/
def Listed (schedule : ScheduleRow) (db : PolicyDb) : Prop :=
  ∃ x ∈ db.schedules, x.scheduleId = schedule.scheduleId ∧ x.projectId = schedule.projectId

theorem listed_remains (schedule : ScheduleRow) : Remains (Listed schedule) := by
  rintro s t h ⟨x, hx, hid, hproject⟩
  rcases h.schedules x hx with ⟨y, hy, hid', hproject'⟩
  exact ⟨y, hy, hid'.trans hid, hproject'.trans hproject⟩

/-- What a pass knows of a drill it is to request: of its checkpoint and its schedule. -/
structure DrillSource (format : PolicyFormat) (input : ScheduledRequestInput)
    (sourcePoint : Option StoredContinuityPoint) (db : PolicyDb) : Prop where
  point : input.kind = .continuityDrill → ∃ stored, sourcePoint = some stored ∧
    stored.usable = true ∧ PointRead format input.schedule.projectId stored db
  schedule : Listed input.schedule db

theorem drillSource_remains :
    Remains (DrillSource format input sourcePoint) := by
  intro s t h hsource
  refine ⟨fun hkind => ?_, listed_remains _ s t h hsource.schedule⟩
  rcases hsource.point hkind with ⟨stored, hstored, husable, hread⟩
  exact ⟨stored, hstored, husable, pointRead_remains _ stored s t h hread⟩

/-- A record is in storage. -/
def Put (p : PreparedRecord) (db : PolicyDb) : Prop :=
  ∃ object, db.objects.find? (fun o => o.key = p.bodyObjectKey) = some object ∧
    object.body = .operational p.record

theorem put_remains (p : PreparedRecord) : Remains (Put p) := by
  rintro s t h ⟨object, hobject, hbody⟩
  exact ⟨object, h.objects.find?_eq_some hobject, hbody⟩

/-- A text that was put away is there. -/
theorem putObject_stored (object : StoredObject) (message : String) (db : PolicyDb)
    (hbodies : ∀ o ∈ db.objects, o.sha256 = object.sha256 → o.body = object.body)
    (h : Passes [putObject object message] db) :
    ∃ o, (written [putObject object message] db).objects.find? (fun o => o.key = object.key) =
      some o ∧ o.body = object.body := by
  have hpasses : db.objects.all (fun o => o.key ≠ object.key ||
      (o.size = object.size && o.sha256 = object.sha256)) = true := by
    by_contra hnot
    have hfails := h.1
    simp only [putObject, if_neg hnot, reduceCtorEq] at hfails
  change ∃ o, ((putObject object message).update db).objects.find? _ = some o ∧ _
  unfold putObject
  dsimp only
  split
  · next hany =>
    rcases Option.isSome_iff_exists.mp (List.find?_isSome.mpr (List.any_eq_true.mp hany)) with
      ⟨o, ho⟩
    have hfound := List.find?_some ho
    have hkey : o.key = object.key := of_decide_eq_true hfound
    have hsame := List.all_eq_true.mp hpasses o (List.mem_of_find?_eq_some ho)
    simp only [hkey, ne_eq, not_true, decide_false, Bool.false_or, Bool.and_eq_true,
      decide_eq_true_eq] at hsame
    exact ⟨o, ho, hbodies o (List.mem_of_find?_eq_some ho) hsame.2⟩
  · next hnone =>
    refine ⟨object, ?_, rfl⟩
    dsimp only
    rw [List.find?_append, List.find?_eq_none.mpr (fun o ho hkey => hnone
      (List.any_eq_true.mpr ⟨o, ho, hkey⟩)), Option.none_or]
    exact List.find?_cons_of_pos (decide_eq_true rfl)

theorem prepare_founds (K : PolicyDb → Prop) (hK : Remains K) (record : PolicyOperationalRecord)
    (id : String) (s : PolicyDb) (hs : K s) :
    Founds format (fun p t => p = prepared format record id ∧ record.valid = true ∧ Put p t ∧ K t)
      (preparePolicyOperationalRecord format record id) s := by
  refine meets_ite (fun _ => trivial) (fun hvalid => ?_)
  rw [Bool.not_eq_true', Bool.not_eq_false] at hvalid
  refine meets_ite (fun _ => trivial) (fun _ => ?_)
  refine meets_request _ _ s (fun t _ hst => ⟨put_founded record id t, fun w hw => ⟨?_, ?_⟩⟩)
  · intro answer hanswer
    have hdone := policy.exec_ok _ w t answer hanswer
    refine ⟨rfl, hvalid, ?_, hK t _ (exec_extends _ w t) (hK s t hst hs)⟩
    rw [hdone.2.2]
    exact putObject_stored _ _ t (hw _ rfl) hdone.2.1
  · exact fun _ _ => trivial

/-- What a pass knows of a drill is what has to be on record of it. -/
theorem sourced_of_source (db : PolicyDb)
    (hsource : DrillSource format input sourcePoint db) (id : String)
    (hvalid : (requestEvidence format input sourcePoint).valid = true)
    (hput : Put (prepared format (.evidence (requestEvidence format input sourcePoint)) id) db)
    (q : RequestRow) (hrow : (requestEvidence format input sourcePoint).requestRow = some q)
    (hkind : q.requestKind = .continuityDrill) :
    ∃ p, Sourced format db
      { prepared := prepared format (.evidence (requestEvidence format input sourcePoint)) id
        evidence := requestEvidence format input sourcePoint
        dependencies := requestDependencies (requestEvidence format input sourcePoint)
          input.schedule.scheduleId sourcePoint } q p := by
  rcases requestRow_schedule _ q hrow with ⟨hproject, hschedule⟩
  have hscheduleId : q.scheduleId = input.schedule.scheduleId := (Option.some.inj hschedule).symm
  have hinput : input.kind = .continuityDrill := by
    cases hk : input.kind with
    | continuityDrill => rfl
    | continuityPoint =>
        simp only [OperationalEvidence.requestRow, requestEvidence, hk, EvidenceDetail.request,
          Option.some.injEq] at hrow
        rw [← hrow] at hkind
        cases hkind
  rcases hsource.point hinput with ⟨stored, rfl, husable, p, hp, hpproject, object, hobject, hread⟩
  rcases pointOf_ok p (some object) stored hread with ⟨hmatches, -, hrestored, hlease⟩
  simp only [StoredContinuityPoint.usable, hrestored, hlease, Bool.and_eq_true,
    Option.isNone_iff_eq_none, Option.isSome_iff_ne_none] at husable
  simp only [ContinuityPoint.matches, Bool.and_eq_true, decide_eq_true_eq] at hmatches
  rcases hmatches with ⟨⟨⟨⟨⟨⟨⟨⟨⟨hid, -⟩, -⟩, hworkItem⟩, -⟩, -⟩, hpacket⟩, -⟩, -⟩, -⟩
  refine ⟨p, ⟨id, rfl⟩, hvalid, hput, ?_, ⟨object, stored, hobject, hread⟩, hp,
    hpproject.trans hproject.symm, husable, ?_⟩
  · refine ⟨input.scheduleWindow, ?_⟩
    simp only [OperationalEvidence.requestRow, requestEvidence, hinput, EvidenceDetail.request,
      Option.some.injEq] at hrow
    simp only [requestEvidence, hinput, ← hrow, hid, hworkItem, hpacket]
  · rcases hsource.schedule with ⟨x, hx, hxid, hxproject⟩
    exact ⟨x, hx, hxid.trans hscheduleId.symm, hxproject.trans hproject.symm⟩

theorem storeRequest_founds (hs : DrillSource format input sourcePoint s)
    (hvalid : (requestEvidence format input sourcePoint).valid = true) :
    Founds format (fun _ _ => True)
      (storeRequest format input (requestEvidence format input sourcePoint) sourcePoint) s := by
  refine Interface.meets_then (prepare_founds (DrillSource format input sourcePoint)
    (drillSource_remains input sourcePoint) _ _ s hs) ?_
  rintro record t ⟨rfl, -, hput, hsource⟩
  refine meets_tryCatch _ _ t (meets_request _ _ t (fun u _ htu => ⟨?_, fun w _ => ⟨?_, ?_⟩⟩))
  · intro q hrow hkind
    exact sourced_of_source input sourcePoint u (drillSource_remains input sourcePoint t u htu hsource)
      input.portableObjectId hvalid (put_remains _ t u htu hput) q hrow hkind
  · exact fun _ _ => trivial
  · intro error _
    refine Interface.meets_then (within_founds (fun _ => True) (fun _ _ _ h => h) _ _ trivial
      (ask_founded _ rfl)) (fun raced v _ => ?_)
    exact meets_ite (fun _ => trivial) (fun _ => trivial)

theorem createScheduledRequest_founds (hs : Listed input.schedule s) :
    Founds format (fun _ _ => True) (createScheduledRequest format input) s := by
  refine Interface.meets_then (beside_founds _ (listed_remains input.schedule) _ s hs
    (readSourcePoint_founds input s)) (fun sourcePoint t ht => ?_)
  refine Interface.meets_then (M := fun valid u => valid = true →
    DrillSource format input sourcePoint u) ?_ (fun valid u hsource => ?_)
  · unfold sourcePointValid
    cases hkind : input.kind with
    | continuityPoint => exact fun _ => ⟨fun h => absurd (hkind.symm.trans h) nofun, ht.2⟩
    | continuityDrill =>
        cases sourcePoint with
        | none => exact nofun
        | some stored =>
            refine meets_ite (fun _ => nofun) (fun husable => ?_)
            rw [Bool.not_eq_true', Bool.not_eq_false] at husable
            have hknown : DrillSource format input (some stored) t :=
              ⟨fun _ => ⟨stored, rfl, husable, ht.1 stored rfl⟩, ht.2⟩
            refine meets_mono (fun _ _ h => h) (fun r u h => ?_) _ t
              (within_founds _ (drillSource_remains input (some stored)) _ t hknown
                (ask_founded _ rfl))
            cases r with
            | ok valid => exact fun _ => h
            | error e => exact trivial
  · have hask : ∀ (K : PolicyDb → Prop) (_ : Remains K) (op : PolicyOp) (_ : op.reads = true)
        (v : PolicyDb), K v → Founds format (fun _ => K) (ask op) v := fun K hK op hop v hv =>
      within_founds K hK _ v hv (ask_founded op hop)
    refine meets_ite (fun _ => trivial) (fun hvalid => ?_)
    rw [Bool.not_eq_true', Bool.not_eq_false] at hvalid
    refine meets_ite (fun _ => trivial) (fun hevidence => ?_)
    rw [Bool.not_eq_true', Bool.not_eq_false] at hevidence
    refine Interface.meets_then (hask _ (drillSource_remains input sourcePoint)
      (.requestExists ..) rfl u (hsource hvalid)) (fun already v hv => ?_)
    refine meets_ite (fun _ => trivial) (fun _ => ?_)
    refine Interface.meets_then (hask _ (drillSource_remains input sourcePoint)
      (.requestOpen ..) rfl v hv) (fun overlapping v' hv' => ?_)
    refine meets_ite (fun _ => trivial) (fun _ => ?_)
    exact storeRequest_founds input sourcePoint v' hv' hevidence

end

theorem serveClock_founds (input : PassInput) (schedule : ScheduleRow) (kind : RequestKind)
    (s : PolicyDb) (hs : Listed schedule s) :
    Founds format (fun _ t => Listed schedule t) (serveClock format input schedule kind) s := by
  refine meets_ite (fun _ => ?_) (fun _ => hs)
  refine Interface.meets_then (beside_founds _ (listed_remains schedule) _ s hs
    (createScheduledRequest_founds (input.request schedule kind) s hs)) ?_
  exact fun _ _ h => h.2

theorem serveSchedule_founds (input : PassInput) (schedule : ScheduleRow) (s : PolicyDb)
    (hs : Listed schedule s) :
    Founds format (fun _ _ => True) (serveSchedule format input schedule) s := by
  refine Interface.meets_then (serveClock_founds input schedule _ s hs) (fun point t ht => ?_)
  refine Interface.meets_then (serveClock_founds input schedule _ t ht) (fun drill u _ => ?_)
  refine Interface.meets_then (M := fun _ _ => True) ?_ (fun _ v _ => ?_)
  · exact meets_ite (fun _ => trivial) (fun _ =>
      within_founds (fun _ => True) (fun _ _ _ h => h) _ u trivial (ask_within
        (A := fun op => ∀ db, Founded format op db) _ (fun _ => trivial)))
  · exact within_founds (fun _ => True) (fun _ _ _ h => h) _ v trivial
      (scanProjectIntegrity_within format reads_founded put_founded (fun _ hrow _ => hrow) _ _ _)

theorem serveSchedules_founds (input : PassInput) (schedules : List ScheduleRow) (s : PolicyDb)
    (hs : ∀ schedule ∈ schedules, Listed schedule s) :
    Founds format (fun _ _ => True) (serveSchedules format input schedules) s := by
  induction schedules generalizing s with
  | nil => exact trivial
  | cons schedule rest ih =>
      have hrest : Remains (fun t => ∀ schedule ∈ rest, Listed schedule t) :=
        fun s t h hk schedule hmem => listed_remains schedule s t h (hk schedule hmem)
      refine Interface.meets_then (beside_founds _ hrest _ s
        (fun a ha => hs a (List.mem_cons_of_mem _ ha))
          (serveSchedule_founds input schedule s (hs schedule List.mem_cons_self))) ?_
      exact fun _ t ht => ih t ht.2

/-- A pass stores only drills about which there is something on record. -/
theorem runScheduledPolicyOperations_founds (input : PassInput) (s : PolicyDb) :
    Founds format (fun _ _ => True) (runScheduledPolicyOperations format input) s := by
  refine Interface.meets_then (Interface.meets_read (fun _ => True) (fun _ _ _ _ => trivial)
    (PolicyOp.readDueSchedules input.scheduledTime) (fun _ => trivial) (fun _ => rfl) s trivial) ?_
  rintro schedules t ⟨-, -, w, hread⟩
  have hread' : dueSchedules t input.scheduledTime = schedules := Except.ok.inj hread
  refine Interface.meets_then (serveSchedules_founds input schedules t (fun schedule hmem => ?_))
    (fun _ u _ => ?_)
  · rw [← hread'] at hmem
    exact ⟨schedule, (dueSchedules_mem t input.scheduledTime schedule hmem).1, rfl, rfl⟩
  · exact within_founds (fun _ => True) (fun _ _ _ h => h) _ u trivial (ask_founded _ rfl)

/-- A call puts away only what is intact. -/
def PolicyCall.Intact (format : PolicyFormat) : PolicyCall → Prop
  | .surrounding (.putBody o) => o.intact format
  | _ => True

theorem process_founds (call : PolicyCall) (hcall : call.Intact format) (s : PolicyDb) :
    (call.process format).Meets exec Unambiguous (Standing format) Extends (Founded format)
      (fun _ _ => True) s := by
  have hrest : ∀ p : PolicyProcess PolicyResult,
      p.Within (fun op => ∀ db, Founded format op db) (fun _ => True) →
      p.Meets exec Unambiguous (Standing format) Extends (Founded format)
        (fun _ _ => True) s := fun p hp =>
    meets_mono (fun _ _ h => h) (fun _ _ _ => trivial) p s
      (within_founds (fun _ => True) (fun _ _ _ h => h) p s trivial hp)
  cases call with
  | runScheduledPolicyOperations input =>
      refine meets_mono (Q := Interface.Returns (fun _ _ => True)) (fun _ _ h => h)
        (fun _ _ _ => trivial) _ s ?_
      exact Interface.meets_then (runScheduledPolicyOperations_founds input s)
        (fun _ _ _ => trivial)
  | completeContinuityDrill input =>
      exact hrest _ (within_bind (completeContinuityDrill_within format reads_founded put_founded
        (fun _ _ => trivial) input) (fun _ _ => trivial))
  | activateProjectPolicyBinding input =>
      exact hrest _ (within_bind (activateProjectPolicyBinding_within format reads_founded
        put_founded (fun _ _ => trivial) input) (fun _ _ => trivial))
  | surrounding op =>
      refine hrest _ (within_bind (ask_within
        (A := fun op => ∀ db, Founded format op db) _ (fun db => ?_)) (fun _ _ => trivial))
      cases op with
      | putBody o => exact hcall
      | _ => exact trivial

end Grounds

end Mdevolved.Policy
