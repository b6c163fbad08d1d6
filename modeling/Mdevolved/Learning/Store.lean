import Mdevolved.Learning.Tables
import Mdevolved.Lib.Interface

/-!
# Requests of What Is Learned

What the two services ask of the database and of storage, one request for each await. A
body is put into storage only where nothing is stored under its key. Ids and the time come
from outside, and so does which projects are active.

## Main definitions

* `LearningOp`: The requests.
* `LearningOp.answer`, `LearningOp.writes`: What a request reads and writes.
* `store`: Both together.
* `putImmutableBody`: Storing a body once.
-/

namespace Mdevolved.Learning

open Batch (Outcome Write)

/-- What is decided outside of a request: what becomes of it, which projects are active, and
    the next id and the time. -/
structure Outside where
  outcome : Outcome
  active : Bool
  uuid : String
  now : Nat

/-! ## What is read -/

def LearningDb.pointsOf (db : LearningDb) (fingerprint : String) : List String :=
  (db.observations.filter (fun o => o.fingerprint = fingerprint)).map ObservationRow.pointId

/-- `COUNT(DISTINCT point_id)` -/
def LearningDb.distinctPoints (db : LearningDb) (fingerprint : String) : Nat :=
  (db.pointsOf fingerprint).dedup.length

def ObservationRow.evidence (o : ObservationRow) : CompoundingEvidence :=
  { acknowledgedAt := o.acknowledgedAt
    continuityPointId := o.pointId
    contentSha256 := o.pointContentSha256
    producerClientId := o.producerClientId }

def maxEvidence : Nat := 16

/-- The evidence for a fingerprint, the earliest first. -/
def LearningDb.evidenceFor (db : LearningDb) (fingerprint : String) : List CompoundingEvidence :=
  (((db.observations.filter (fun o => o.fingerprint = fingerprint)).insertionSort
    (fun o o' => Table.Ranks o.acknowledgedAt o.observationId o'.acknowledgedAt
      o'.observationId)).take maxEvidence).map ObservationRow.evidence

/-- A draft that waits for its review. -/
def DraftRow.open_ (d : DraftRow) : Bool :=
  d.status = .pending

/-- The fingerprints of drafts that wait and are for the same thing as a candidate. -/
def LearningDb.competitors (db : LearningDb) (candidate : CompoundingCandidate) : List String :=
  (db.drafts.filter (fun d => d.open_ && d.candidate.rivals candidate)).map DraftRow.fingerprint

/-- What an attachment takes of the places of its project and of its skill. -/
structure OccupiedSlots where
  project : List Nat
  skill : List Nat

def LearningDb.occupiedSlots (db : LearningDb) (projectId skillId : String) : OccupiedSlots :=
  { project := (db.attachments.filter (fun a => a.projectId = projectId)).map (·.projectSlot)
    skill := (db.attachments.filter (fun a => a.skillId = skillId)).map (·.skillSlot) }

def LearningDb.preferenceByKey (db : LearningDb) (key : String) (projectId : Option String) :
    Option PreferenceRow :=
  db.preferences.find? (fun p => p.preferenceKey = key && p.projectId = projectId)

def LearningDb.activePreference (db : LearningDb) (preferenceId : String) : Option PreferenceRow :=
  db.preferences.find? (fun p => p.preferenceId = preferenceId && p.status = .active)

def LearningDb.activeSkill (db : LearningDb) (skillId : String) : Option SkillRow :=
  db.skills.find? (fun s => s.skillId = skillId && s.status = .active)

/-- The active skill that a name belongs to. -/
def LearningDb.nameOwner (db : LearningDb) (name : String) : Option String :=
  (db.skills.find? (fun s => sameName s.name name && s.status = .active)).map SkillRow.skillId

def LearningDb.attachmentsOf (db : LearningDb) (skillId : String) : List AttachmentRow :=
  (db.attachments.filter (fun a => a.skillId = skillId)).insertionSort
    (fun a a' => a.projectId ≤ a'.projectId)

def LearningDb.attachment (db : LearningDb) (projectId skillId : String) : Option AttachmentRow :=
  db.attachments.find? (fun a => a.projectId = projectId && a.skillId = skillId)

def LearningDb.object (db : LearningDb) (key : String) : Option ObjectRow :=
  db.objects.find? (fun o => o.key = key)

/-! ## Requests -/

inductive LearningOp
  | draw
  | activeProjectExists (projectId : String)
  | head (key : String)
  | put (object : ObjectRow)
  | queueCleanup (keys : List String)
  | findObservation (checkpointId fingerprint : String)
  | commitObservation (record : CompoundingRecord) (observation : ObservationRow)
  | countPoints (fingerprint : String)
  | draftOf (fingerprint : String)
  | countPending
  | evidenceFor (fingerprint : String)
  | competitors (candidate : CompoundingCandidate)
  | commitDraft (record : CompoundingRecord) (draft : DraftRow)
  | markConflicts (candidate : CompoundingCandidate)
  | readDraftReceipt (idempotencyKeySha256 : String)
  | readDraftRow (draftId : String)
  | readCompoundingRecord (recordId : String)
  | claim (claim : DraftClaim)
  | readClaim (draftId : String)
  | recoverClaim (claim : DraftClaim) (notAfter : Int)
  | commitAction (record : CompoundingRecord) (draftId : String)
      (candidate : CompoundingCandidate) (status : DraftStatus) (receipt : DraftReceipt)
  | releaseClaim (draftId idempotencyKeySha256 : String)
  | readReceipt (idempotencyKeyHash : String)
  | preferenceByKey (key : String) (projectId : Option String)
  | countPreferences
  | activePreference (preferenceId : String)
  | activeSkill (skillId : String)
  | nameOwner (name : String)
  | countSkills
  | attachmentsOf (skillId : String)
  | attachment (projectId skillId : String)
  | occupiedSlots (projectId skillId : String)
  | commitProfile (batch : ProfileBatch)

abbrev LearningOp.Ret : LearningOp → Type
  | draw => String × Nat
  | activeProjectExists _ => Bool
  | head _ => Option ObjectRow
  | put _ => Bool
  | queueCleanup _ => Unit
  | findObservation _ _ => Option String
  | commitObservation _ _ => Unit
  | countPoints _ => Nat
  | draftOf _ => Option DraftRow
  | countPending => Nat
  | evidenceFor _ => List CompoundingEvidence
  | competitors _ => List String
  | commitDraft _ _ => Bool
  | markConflicts _ => Unit
  | readDraftReceipt _ => Option DraftReceipt
  | readDraftRow _ => Option DraftRow
  | readCompoundingRecord _ => Option CompoundingRecord
  | claim _ => Bool
  | readClaim _ => Option DraftClaim
  | recoverClaim _ _ => Bool
  | commitAction _ _ _ _ _ => Unit
  | releaseClaim _ _ => Unit
  | readReceipt _ => Option ProfileReceipt
  | preferenceByKey _ _ => Option PreferenceRow
  | countPreferences => Nat
  | activePreference _ => Option PreferenceRow
  | activeSkill _ => Option SkillRow
  | nameOwner _ => Option String
  | countSkills => Nat
  | attachmentsOf _ => List AttachmentRow
  | attachment _ _ => Option AttachmentRow
  | occupiedSlots _ _ => OccupiedSlots
  | commitProfile _ => Unit

/-- More rows than this are not read of the attachments of a skill. -/
def attachmentReadLimit : Nat := maxSkillProjectAttachments + 1

/-- A claim that may be taken over. -/
def DraftClaim.stale (draftId : String) (notAfter : Int) (c : DraftClaim) : Bool :=
  c.draftId = draftId && (c.createdAt : Int) ≤ notAfter

def LearningOp.answer (op : LearningOp) (w : Outside) (db : LearningDb) :
    Except LearningError op.Ret :=
  match op with
  | draw => .ok (w.uuid, w.now)
  | activeProjectExists _ => .ok w.active
  | head key => .ok (db.object key)
  | put object => .ok (db.object object.key).isNone
  | queueCleanup _ => .ok ()
  | findObservation checkpointId fingerprint =>
      .ok ((db.observations.find? (fun o =>
        o.checkpointId = checkpointId && o.fingerprint = fingerprint)).map (·.observationId))
  | commitObservation _ _ => .ok ()
  | countPoints fingerprint => .ok (db.distinctPoints fingerprint)
  | draftOf fingerprint => .ok (db.drafts.find? (fun d => d.fingerprint = fingerprint))
  | countPending => .ok (db.drafts.countP DraftRow.open_)
  | evidenceFor fingerprint => .ok (db.evidenceFor fingerprint)
  | competitors candidate => .ok (db.competitors candidate)
  | commitDraft _ draft => .ok (draft.admits db.drafts)
  | markConflicts _ => .ok ()
  | readDraftReceipt key => .ok (db.draftReceipts.find? (fun r => r.idempotencyKeySha256 = key))
  | readDraftRow draftId => .ok (db.drafts.find? (fun d => d.draftId = draftId))
  | readCompoundingRecord recordId => .ok (db.ledger.find? (fun r => r.recordId = recordId))
  | claim c => .ok (c.admits db.claims)
  | readClaim draftId => .ok (db.claims.find? (fun c => c.draftId = draftId))
  | recoverClaim c notAfter => .ok (db.claims.any (DraftClaim.stale c.draftId notAfter))
  | commitAction _ _ _ _ _ => .ok ()
  | releaseClaim _ _ => .ok ()
  | readReceipt key => .ok (db.receipts.find? (fun r => r.idempotencyKeyHash = key))
  | preferenceByKey key projectId => .ok (db.preferenceByKey key projectId)
  | countPreferences => .ok (db.preferences.countP (fun p => p.status = .active))
  | activePreference preferenceId => .ok (db.activePreference preferenceId)
  | activeSkill skillId => .ok (db.activeSkill skillId)
  | nameOwner name => .ok (db.nameOwner name)
  | countSkills => .ok (db.skills.countP (fun s => s.status = .active))
  | attachmentsOf skillId => .ok ((db.attachmentsOf skillId).take attachmentReadLimit)
  | attachment projectId skillId => .ok (db.attachment projectId skillId)
  | occupiedSlots projectId skillId => .ok (db.occupiedSlots projectId skillId)
  | commitProfile _ => .ok ()

/-- The rows of an action on a draft that is still pending. -/
def DraftRow.acted (candidate : CompoundingCandidate) (status : DraftStatus) (recordId : String)
    (d : DraftRow) : DraftRow :=
  { d with candidate := candidate, status := status, currentRecordId := recordId }

def LearningOp.writes (op : LearningOp) (_ : Outside) : List LearningWrite :=
  match op with
  | put object =>
      [insertOrIgnore (·.objects) (fun db rows => { db with objects := rows })
        (fun rows o => rows.all (fun t => t.key ≠ o.key)) object]
  | commitObservation record observation =>
      [insertCompoundingRecord record,
        insertOne (·.observations) (fun db rows => { db with observations := rows })
          ObservationRow.admits observation]
  | commitDraft record draft =>
      [insertCompoundingRecord record,
        insertOrIgnore (·.drafts) (fun db rows => { db with drafts := rows }) DraftRow.admits draft]
  | markConflicts candidate =>
      [.changeAll (·.drafts) (fun db rows => { db with drafts := rows })
        (fun _ d => d.open_ && d.candidate.rivals candidate) (fun _ d => { d with conflict := true })]
  | claim c =>
      [insertOrIgnore (·.claims) (fun db rows => { db with claims := rows }) DraftClaim.admits c]
  | recoverClaim c notAfter =>
      [.updateAll (·.claims) (fun db rows => { db with claims := rows })
        (fun _ t => DraftClaim.stale c.draftId notAfter t)
        (fun _ _ => c)
        (fun db t => (db.claims.filter (fun t' => t'.draftId ≠ t.draftId)).all (fun t' =>
          t'.idempotencyKeySha256 ≠ c.idempotencyKeySha256)) .storage]
  | commitAction record draftId candidate status receipt =>
      [insertCompoundingRecord record,
        .changeAll (·.drafts) (fun db rows => { db with drafts := rows })
          (fun _ d => d.draftId = draftId && d.open_)
          (fun _ => DraftRow.acted candidate status record.recordId),
        insertOne (·.draftReceipts) (fun db rows => { db with draftReceipts := rows })
          DraftReceipt.admits receipt,
        .always (fun db => { db with
          claims := db.claims.filter (fun c =>
            !(c.draftId = draftId && c.idempotencyKeySha256 = receipt.idempotencyKeySha256)) })]
  | releaseClaim draftId key =>
      [.always (fun db => { db with
        claims := db.claims.filter (fun c =>
          !(c.draftId = draftId && c.idempotencyKeySha256 = key)) })]
  | commitProfile batch => batch.writes
  | _ => []

/-- What the requests read and write, and what becomes of them. -/
def store : Interface LearningOp Outside LearningDb LearningError :=
  { Ret := LearningOp.Ret
    answer := LearningOp.answer
    writes := LearningOp.writes
    outcome := Outside.outcome
    fault := .storage }

abbrev LearningCalls (α : Type) := store.Calls α

def ask (op : LearningOp) : LearningCalls op.Ret :=
  Process.request op

/-! ## Bodies -/

/-- Where a body is stored. -/
inductive BodyArea
  | compounding | workingProfile

def BodyArea.key : BodyArea → String → String
  | compounding, recordId => "compounding/" ++ recordId ++ ".json"
  | workingProfile, recordId => "working-profile/" ++ recordId ++ ".json"

def objectOf (h : Encoding) (area : BodyArea) (body : Body) (recordId : String) : ObjectRow :=
  { key := area.key recordId
    body := body
    size := h.bodyLength body
    contentSha256 := h.bodySha256 body }

def ObjectRow.stored (o : ObjectRow) : StoredBody :=
  { bodyObjectKey := o.key, byteLength := o.size, contentSha256 := o.contentSha256 }

/-- What is stored under a key is the body that is to be stored. -/
def ObjectRow.matches (o o' : ObjectRow) : Bool :=
  o.size = o'.size && o.contentSha256 = o'.contentSha256

/-- Storing a body failed because another came first, unless that is the same. -/
def unlessRaced (object : ObjectRow) (created : Bool) : LearningCalls StoredBody := do
  if created then return object.stored
  else
    let raced ← ask (.head object.key)
    if raced.any (fun o => o.matches object) then return object.stored
    else throw .bodyCollision

/-- Store a body under the key of its record, unless it is there. A body of the profile that
    is there is read and hashed again, which its metadata stand for here. -/
def putImmutableBody (h : Encoding) (area : BodyArea) (body : Body) (recordId : String) :
    LearningCalls StoredBody := do
  let object := objectOf h area body recordId
  let existing ← ask (.head object.key)
  match existing with
  | some o => if o.matches object then return object.stored else throw .bodyCollision
  | none => do
      let created ← ask (.put object)
      unlessRaced object created

end Mdevolved.Learning
