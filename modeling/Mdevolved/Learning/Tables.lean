import Mdevolved.Lib.CanonicalJson
import Mdevolved.Lib.Writes

/-!
# Tables of What Is Learned

Two services share a database. The working profile keeps the preferences and skills of an
owner, each with the records of its versions. Compounding suggests new ones: what agents
report with their checkpoints is observed, and what was observed at two points becomes a
draft, which the owner accepts or turns down.

Each change of the profile is a batch of statements, and the last of them is its receipt.
Bodies of records are stored once, under keys made of the ids of the records.

## Main definitions

* `CompoundingCandidate`, `LearningSignal`: What is suggested, and what is reported.
* `Encoding`, `fingerprint`, `deterministicUuid`: How it is told apart.
* `LearningDb`: The tables, and the bodies in storage.
* `ProfileStatement`, `ProfileBatch`: A change of the profile.
-/

namespace Mdevolved.Learning

open Batch (Outcome Write)

/-! ## Problems -/

inductive WorkingProfileProblem
  | idempotencyConflict | preferenceConflict | preferenceNotFound | projectNotActive
  | projectSkillLimitExceeded | skillAlreadyAttached | skillConflict | skillNotAttached
  | skillNotFound | skillPackageInvalid | skillPackageTooLarge
  deriving DecidableEq

inductive CompoundingProblem
  | candidateConflict | draftNotFound | draftNotPending | projectNotActive | signalInvalid
  | signalLimitExceeded | idempotencyConflict | pendingDraftLimitExceeded
  deriving DecidableEq

/-- What a function ends with where it does not return: a problem of one of the services or
    of its store, a request that did not go through, or that it was cut off. -/
inductive LearningError
  | profile (problem : WorkingProfileProblem)
  | compounding (problem : CompoundingProblem)
  | bodyCollision | bodyIntegrityMismatch | storage | terminated
  deriving DecidableEq

/-! ## Candidates -/

inductive LearningScope
  | personal | project
  deriving DecidableEq

def LearningScope.text : LearningScope → String
  | personal => "personal"
  | project => "project"

inductive CandidateKind
  | preference | skill
  deriving DecidableEq

def CandidateKind.text : CandidateKind → String
  | preference => "preference"
  | skill => "skill"

/-- A preference or a skill that may be suggested. -/
inductive CompoundingCandidate
  | preference (key : String) (projectId : Option String) (scope : LearningScope)
      (value : String)
  | skill (description instruction name : String) (projectId : Option String)
      (scope : LearningScope)
  deriving DecidableEq

namespace CompoundingCandidate

def kind : CompoundingCandidate → CandidateKind
  | preference .. => .preference
  | skill .. => .skill

def projectId : CompoundingCandidate → Option String
  | preference _ projectId _ _ => projectId
  | skill _ _ _ projectId _ => projectId

def scope : CompoundingCandidate → LearningScope
  | preference _ _ scope _ => scope
  | skill _ _ _ _ scope => scope

/-- `candidateKey` -/
def key : CompoundingCandidate → String
  | preference key _ _ _ => key
  | skill _ _ name _ _ => name

/-- What is searched for credentials. -/
def text : CompoundingCandidate → String
  | preference _ _ _ value => value
  | skill description instruction _ _ _ => description ++ "\n" ++ instruction

/-- Two candidates that are for the same thing. -/
def rivals (c c' : CompoundingCandidate) : Bool :=
  c.kind = c'.kind && c.scope = c'.scope && c.projectId = c'.projectId && c.key = c'.key

def toJson (c : CompoundingCandidate) : Json :=
  let project := (c.projectId.map Json.str).getD .null
  match c with
  | preference key _ scope value =>
      .obj [("key", .str key), ("kind", .str "preference"), ("projectId", project),
        ("scope", .str scope.text), ("value", .str value)]
  | skill description instruction name _ scope =>
      .obj [("description", .str description), ("instruction", .str instruction),
        ("kind", .str "skill"), ("name", .str name), ("projectId", project),
        ("scope", .str scope.text)]

end CompoundingCandidate

/-- What an agent reports with a checkpoint. The scope says whether there is a project. -/
structure LearningSignal where
  content : CompoundingCandidate
  agrees : content.scope = .project ↔ content.projectId.isSome = true
  deriving DecidableEq

/-- `candidateFromSignal`, which takes over every field. -/
def candidateFromSignal (signal : LearningSignal) : CompoundingCandidate :=
  signal.content

structure CompoundingEvidence where
  acknowledgedAt : Nat
  continuityPointId : String
  contentSha256 : String
  producerClientId : String
  deriving DecidableEq

inductive DraftStatus
  | pending | accepted | ignored | deleted
  deriving DecidableEq

/-- A draft as it is shown and kept in bodies. Scope and project are those of the
    candidate. -/
structure CompoundingDraft where
  candidate : CompoundingCandidate
  conflict : Bool
  draftId : String
  evidence : List CompoundingEvidence
  fingerprint : String
  firstObservedAt : Nat
  lastObservedAt : Nat
  observationCount : Nat
  status : DraftStatus
  deriving DecidableEq

structure AgentSkillPackageFile where
  contentBase64 : String
  path : String
  deriving DecidableEq

/-! ## Bodies -/

inductive CompoundingRecordType
  | checkpointObservation | draftVersion | draftAccepted | draftIgnored | draftDeleted
  deriving DecidableEq

/-- What is stored of a record besides its row. -/
inductive Body
  | observation (fingerprint : String) (signal : LearningSignal) (observationId : String)
      (point : CompoundingEvidence) (recordId : String)
  | draft (type : CompoundingRecordType) (draft : CompoundingDraft) (recordId : String)
  | preferenceVersion (key preferenceId : String) (projectId : Option String)
      (recordId sourceLabel : String) (sourceUrl : Option String) (value : String)
  | preferenceDeleted (preferenceId : String) (projectId : Option String) (recordId : String)
  | skillVersion (description : String) (files : List AgentSkillPackageFile) (name : String)
      (recordId skillId : String)
  | skillDeleted (recordId skillId : String)
  | skillAttached (attached : Bool) (projectId recordId skillId skillVersionRecordId : String)
  deriving DecidableEq

/-- A body in storage, with what its metadata say of it. -/
structure ObjectRow where
  key : String
  body : Body
  size : Nat
  contentSha256 : String
  deriving DecidableEq

/-- What is known of a body that was stored. -/
structure StoredBody where
  bodyObjectKey : String
  byteLength : Nat
  contentSha256 : String
  deriving DecidableEq

/-! ## Fingerprints -/

/-- The name and description in the head of a skill. -/
structure SkillMetadata where
  description : String
  name : String

/-- How texts and bodies are hashed, and what they are searched for and parsed with. -/
structure Encoding where
  sha256Hex : String → String
  bodySha256 : Body → String
  bodyLength : Body → Nat
  containsCredential : String → Bool
  skillMetadata : List AgentSkillPackageFile → Except WorkingProfileProblem SkillMetadata
  base64Utf8 : String → String

def fingerprint (h : Encoding) (candidate : CompoundingCandidate) : String :=
  h.sha256Hex (Json.canonicalize (.obj [("content", candidate.toJson),
    ("kind", .str candidate.kind.text),
    ("projectId", (candidate.projectId.map Json.str).getD .null),
    ("scope", .str candidate.scope.text)]))

/-- The digits of a hash from one place to another. -/
def slice (hash : String) (start stop : Nat) : String :=
  String.ofList ((hash.toList.take stop).drop start)

def hexValue (c : Char) : Option Nat :=
  if '0' ≤ c ∧ c ≤ '9' then some (c.toNat - '0'.toNat)
  else if 'a' ≤ c ∧ c ≤ 'f' then some (c.toNat - 'a'.toNat + 10)
  else if 'A' ≤ c ∧ c ≤ 'F' then some (c.toNat - 'A'.toNat + 10)
  else none

/-- `Number.parseInt(digits, 16)`, where what is no number counts as zero in what is done
    with it. -/
def parseHex (digits : String) : Nat :=
  ((digits.toList.map hexValue).takeWhile Option.isSome).foldl
    (fun n digit => 16 * n + digit.getD 0) 0

/-- `n.toString(16).padStart(2, "0")` -/
def hexByte (n : Nat) : String :=
  let digits := Nat.toDigits 16 n
  String.ofList (List.replicate (2 - digits.length) '0' ++ digits)

/-- An id that is told by a namespace and a fingerprint. -/
def deterministicUuid (h : Encoding) («namespace» fingerprint : String) : String :=
  let hash := h.sha256Hex («namespace» ++ ":" ++ fingerprint)
  slice hash 0 8 ++ "-" ++ slice hash 8 12 ++ "-5" ++ slice hash 13 16 ++ "-" ++
    hexByte (parseHex (slice hash 16 18) % 64 ||| 128) ++ slice hash 18 20 ++ "-" ++
    slice hash 20 32

/-! ## Rows of compounding -/

structure CompoundingRecord where
  recordId : String
  recordType : CompoundingRecordType
  projectId : Option String
  draftId : Option String
  observationId : Option String
  fingerprint : String
  body : StoredBody
  createdAt : Nat
  deriving DecidableEq

structure ObservationRow where
  observationId : String
  checkpointId : String
  projectId : String
  fingerprint : String
  candidate : CompoundingCandidate
  pointId : String
  pointContentSha256 : String
  producerClientId : String
  acknowledgedAt : Nat
  recordId : String
  deriving DecidableEq

/-- A draft. Kind, scope and project are those of its candidate. -/
structure DraftRow where
  draftId : String
  fingerprint : String
  candidate : CompoundingCandidate
  status : DraftStatus
  conflict : Bool
  observationCount : Nat
  evidence : List CompoundingEvidence
  firstObservedAt : Nat
  lastObservedAt : Nat
  currentRecordId : String
  deriving DecidableEq

inductive DraftOperation
  | accept | edit | ignore | delete
  deriving DecidableEq

inductive DraftEffect
  | preferenceSaved | skillSaved | none
  deriving DecidableEq

structure DraftActionResponse where
  draft : CompoundingDraft
  effect : DraftEffect
  replayed : Bool
  deriving DecidableEq

structure DraftReceipt where
  idempotencyKeySha256 : String
  operation : DraftOperation
  inputSha256 : String
  response : DraftActionResponse
  createdAt : Nat
  deriving DecidableEq

/-- A claim of an action on a draft. -/
structure DraftClaim where
  draftId : String
  idempotencyKeySha256 : String
  operation : DraftOperation
  inputSha256 : String
  createdAt : Nat
  deriving DecidableEq

/-! ## Rows of the profile -/

inductive ProfileRecordType
  | preferenceVersion | preferenceDeleted | skillVersion | skillDeleted | skillAttached
  | skillDetached
  deriving DecidableEq

structure WorkingProfileRecord where
  recordId : String
  recordType : ProfileRecordType
  projectId : Option String
  preferenceId : Option String
  skillId : Option String
  dependencies : List String
  body : StoredBody
  createdAt : Nat
  deriving DecidableEq

inductive RowStatus
  | active | deleted
  deriving DecidableEq

structure PreferenceRow where
  preferenceId : String
  projectId : Option String
  preferenceKey : String
  currentRecordId : String
  status : RowStatus
  value : Option String
  sourceLabel : String
  sourceUrl : Option String
  updatedAt : Nat
  deriving DecidableEq

structure SkillRow where
  skillId : String
  name : String
  description : String
  currentVersionRecordId : String
  status : RowStatus
  updatedAt : Nat
  deriving DecidableEq

structure AttachmentRow where
  projectId : String
  skillId : String
  skillVersionRecordId : String
  projectSlot : Nat
  skillSlot : Nat
  attachedRecordId : String
  attachedAt : Nat
  deriving DecidableEq

inductive WorkingProfileOperation
  | preferenceSave | preferenceDelete | skillImport | skillDelete | skillAttach | skillDetach
  deriving DecidableEq

structure WorkingPreference where
  key : String
  preferenceId : String
  projectId : Option String
  sourceLabel : String
  sourceUrl : Option String
  updatedAt : Nat
  value : String
  versionRecordId : String
  deriving DecidableEq

structure AgentSkillSummary where
  description : String
  name : String
  skillId : String
  updatedAt : Nat
  versionRecordId : String
  deriving DecidableEq

structure ProjectSkillMutation where
  attached : Bool
  projectId : String
  recordId : String
  skillId : String
  versionRecordId : String
  deriving DecidableEq

inductive ProfileResponse
  | preference (preference : WorkingPreference)
  | deleted (recordId : String)
  | skill (skill : AgentSkillSummary)
  | mutation (mutation : ProjectSkillMutation)
  deriving DecidableEq

structure ProfileReceipt where
  idempotencyKeyHash : String
  operation : WorkingProfileOperation
  inputSha256 : String
  response : ProfileResponse
  createdAt : Nat
  deriving DecidableEq

/-! ## The database -/

structure LearningDb where
  ledger : List CompoundingRecord
  observations : List ObservationRow
  drafts : List DraftRow
  draftReceipts : List DraftReceipt
  claims : List DraftClaim
  records : List WorkingProfileRecord
  preferences : List PreferenceRow
  skills : List SkillRow
  attachments : List AttachmentRow
  receipts : List ProfileReceipt
  objects : List ObjectRow
  deriving DecidableEq

def LearningDb.empty : LearningDb :=
  { ledger := [], observations := [], drafts := [], draftReceipts := [], claims := []
    records := [], preferences := [], skills := [], attachments := [], receipts := []
    objects := [] }

abbrev LearningWrite := Write LearningDb LearningError

def maxBodyBytes : Nat := 524288

/-! ### What the tables admit -/

def CompoundingRecord.admits (rows : List CompoundingRecord) (r : CompoundingRecord) : Bool :=
  rows.all (fun t => t.recordId ≠ r.recordId && t.body.bodyObjectKey ≠ r.body.bodyObjectKey) &&
    0 < r.body.byteLength && r.body.byteLength ≤ maxBodyBytes

def ObservationRow.admits (rows : List ObservationRow) (r : ObservationRow) : Bool :=
  rows.all (fun t => t.observationId ≠ r.observationId && t.recordId ≠ r.recordId &&
    (t.checkpointId, t.fingerprint) ≠ (r.checkpointId, r.fingerprint))

def DraftRow.admits (rows : List DraftRow) (r : DraftRow) : Bool :=
  rows.all (fun t => t.draftId ≠ r.draftId && t.fingerprint ≠ r.fingerprint &&
    t.currentRecordId ≠ r.currentRecordId) && r.firstObservedAt ≤ r.lastObservedAt

def DraftReceipt.admits (rows : List DraftReceipt) (r : DraftReceipt) : Bool :=
  rows.all (fun t => t.idempotencyKeySha256 ≠ r.idempotencyKeySha256)

def DraftClaim.admits (rows : List DraftClaim) (r : DraftClaim) : Bool :=
  rows.all (fun t => t.draftId ≠ r.draftId && t.idempotencyKeySha256 ≠ r.idempotencyKeySha256)

def WorkingProfileRecord.admits (rows : List WorkingProfileRecord) (r : WorkingProfileRecord) :
    Bool :=
  rows.all (fun t => t.recordId ≠ r.recordId && t.body.bodyObjectKey ≠ r.body.bodyObjectKey) &&
    0 < r.body.byteLength && r.body.byteLength ≤ maxBodyBytes

/-- A preference is the only one of its key in its project, or among the personal ones. -/
def PreferenceRow.admits (rows : List PreferenceRow) (r : PreferenceRow) : Bool :=
  rows.all (fun t => t.preferenceId ≠ r.preferenceId && t.currentRecordId ≠ r.currentRecordId &&
    (t.projectId, t.preferenceKey) ≠ (r.projectId, r.preferenceKey))

/-- Names that are the same up to the case of letters of ASCII. -/
def sameName (name name' : String) : Bool :=
  name.toList.map Char.toLower = name'.toList.map Char.toLower

/-- An active skill is the only one of its name. -/
def SkillRow.admits (rows : List SkillRow) (r : SkillRow) : Bool :=
  rows.all (fun t => t.skillId ≠ r.skillId && t.currentVersionRecordId ≠ r.currentVersionRecordId &&
    !(t.status = .active && r.status = .active && sameName t.name r.name))

def maxProjectSkillAttachments : Nat := 32

def maxSkillProjectAttachments : Nat := 31

def AttachmentRow.admits (rows : List AttachmentRow) (r : AttachmentRow) : Bool :=
  rows.all (fun t => (t.projectId, t.skillId) ≠ (r.projectId, r.skillId) &&
    t.attachedRecordId ≠ r.attachedRecordId &&
    (t.projectId, t.projectSlot) ≠ (r.projectId, r.projectSlot) &&
    (t.skillId, t.skillSlot) ≠ (r.skillId, r.skillSlot)) &&
    r.projectSlot < maxProjectSkillAttachments && r.skillSlot < maxSkillProjectAttachments

def ProfileReceipt.admits (rows : List ProfileReceipt) (r : ProfileReceipt) : Bool :=
  rows.all (fun t => t.idempotencyKeyHash ≠ r.idempotencyKeyHash)

/-! ### Statements -/

/-- `INSERT OR IGNORE` -/
def insertOrIgnore {ρ : Type} (rows : LearningDb → List ρ) (set : LearningDb → List ρ → LearningDb)
    (admits : List ρ → ρ → Bool) (row : ρ) : LearningWrite :=
  .always (fun db => if admits (rows db) row then set db (rows db ++ [row]) else db)

def insertOne {ρ : Type} (rows : LearningDb → List ρ) (set : LearningDb → List ρ → LearningDb)
    (admits : List ρ → ρ → Bool) (row : ρ) : LearningWrite :=
  .insertAll rows set admits (fun _ => [row]) .storage

theorem insertOne_passes {ρ : Type} (rows : LearningDb → List ρ)
    (set : LearningDb → List ρ → LearningDb) (admits : List ρ → ρ → Bool) (row : ρ)
    (db : LearningDb) : (insertOne rows set admits row).fails db = none ↔
      admits (rows db) row = true :=
  Batch.Write.insertAll_single rows set admits (fun _ => row) _ db

def insertCompoundingRecord (record : CompoundingRecord) : LearningWrite :=
  insertOne (·.ledger) (fun db rows => { db with ledger := rows }) CompoundingRecord.admits record

/-- `INSERT .. ON CONFLICT(id) DO UPDATE`: a row of the same id is changed, if the others
    admit it then. -/
def upsertOne {ρ : Type} (rows : LearningDb → List ρ) (set : LearningDb → List ρ → LearningDb)
    (same : ρ → Bool) (admits : List ρ → ρ → Bool) (merge : ρ → ρ) (row : ρ) : LearningWrite :=
  { fails := fun db =>
      match (rows db).find? same with
      | some old =>
          if admits ((rows db).filter (fun t => !same t)) (merge old) then none else some .storage
      | none => if admits (rows db) row then none else some .storage
    update := fun db =>
      if (rows db).any same then set db (Table.update same merge (rows db))
      else set db (rows db ++ [row]) }

/-- A statement of a change of the profile. -/
inductive ProfileStatement
  | insertRecord (record : WorkingProfileRecord)
  | upsertPreference (row : PreferenceRow)
  | deletePreference (preferenceId recordId : String) (now : Nat)
  | upsertSkill (row : SkillRow)
  | deleteAttachments (skillId : String)
  | deleteSkill (skillId recordId : String) (now : Nat)
  | attach (row : AttachmentRow)
  | detach (projectId skillId : String)

/-- What an import changes of a skill that is there. -/
def SkillRow.merge (row old : SkillRow) : SkillRow :=
  { old with
    name := row.name
    description := row.description
    currentVersionRecordId := row.currentVersionRecordId
    status := .active
    updatedAt := row.updatedAt }

/-- What is changed of a preference that is there. Its key and project stay. -/
def PreferenceRow.merge (row old : PreferenceRow) : PreferenceRow :=
  { old with
    currentRecordId := row.currentRecordId
    status := .active
    value := row.value
    sourceLabel := row.sourceLabel
    sourceUrl := row.sourceUrl
    updatedAt := row.updatedAt }

def ProfileStatement.write : ProfileStatement → LearningWrite
  | insertRecord record =>
      insertOne (·.records) (fun db rows => { db with records := rows })
        WorkingProfileRecord.admits record
  | upsertPreference row =>
      upsertOne (·.preferences) (fun db rows => { db with preferences := rows })
        (fun t => t.preferenceId = row.preferenceId) PreferenceRow.admits row.merge row
  | deletePreference preferenceId recordId now =>
      .changeAll (·.preferences) (fun db rows => { db with preferences := rows })
        (fun _ t => t.preferenceId = preferenceId && t.status = .active)
        (fun _ t => { t with
          currentRecordId := recordId, status := .deleted, value := none, updatedAt := now })
  | upsertSkill row =>
      upsertOne (·.skills) (fun db rows => { db with skills := rows })
        (fun t => t.skillId = row.skillId) SkillRow.admits row.merge row
  | deleteAttachments skillId =>
      .always (fun db => { db with
        attachments := db.attachments.filter (fun t => t.skillId ≠ skillId) })
  | deleteSkill skillId recordId now =>
      .changeAll (·.skills) (fun db rows => { db with skills := rows })
        (fun _ t => t.skillId = skillId && t.status = .active)
        (fun _ t => { t with
          currentVersionRecordId := recordId, status := .deleted, updatedAt := now })
  | attach row =>
      insertOne (·.attachments) (fun db rows => { db with attachments := rows })
        AttachmentRow.admits row
  | detach projectId skillId =>
      .always (fun db => { db with
        attachments := db.attachments.filter (fun t =>
          !(t.projectId = projectId && t.skillId = skillId)) })

/-- A change of the profile with its receipt. -/
structure ProfileBatch where
  statements : List ProfileStatement
  receipt : ProfileReceipt

def ProfileBatch.writes (batch : ProfileBatch) : List LearningWrite :=
  batch.statements.map ProfileStatement.write ++
    [insertOne (·.receipts) (fun db rows => { db with receipts := rows }) ProfileReceipt.admits
      batch.receipt]

end Mdevolved.Learning
