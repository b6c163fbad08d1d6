import Mdevolved.Learning.Store

/-!
# The Working Profile

What the owner does to preferences and skills. Each function looks for the receipt of its
idempotency key first, then reads what it is about, stores the bodies of its records, and
commits one batch: the records, the change of the rows, and the receipt.

A change is built from what was read, and the batch does not look again.

## Main definitions

* `replay`, `commit`: How a receipt is found and how it is left.
* `saveWorkingPreference`, `deleteWorkingPreference`: The preferences.
* `importAgentSkill`, `deleteAgentSkill`: The skills.
* `mutateProjectSkill`: The skills of projects.
-/

namespace Mdevolved.Learning

variable (h : Encoding)

def maxPreferences : Nat := 256

def maxSkills : Nat := 256

def maxPreferenceBytes : Nat := 512

def WorkingProfileOperation.text : WorkingProfileOperation → String
  | preferenceSave => "preference.save"
  | preferenceDelete => "preference.delete"
  | skillImport => "skill.import"
  | skillDelete => "skill.delete"
  | skillAttach => "skill.attach"
  | skillDetach => "skill.detach"

/-! ## Receipts -/

/-- What a receipt is found by, and what its request is told by. -/
structure ReceiptIdentity where
  idempotencyKeyHash : String
  inputSha256 : String

def receiptIdentity (operation : WorkingProfileOperation) (idempotencyKey : String)
    (input : Json) : ReceiptIdentity :=
  { idempotencyKeyHash := h.sha256Hex idempotencyKey
    inputSha256 := h.sha256Hex
      (Json.canonicalize (.obj [("input", input), ("operation", .str operation.text)])) }

/-- What the receipt of a request says. The type of the response is that of the operation. -/
def replayed (identity : ReceiptIdentity) (operation : WorkingProfileOperation) :
    Option ProfileReceipt → Except LearningError (Option ProfileResponse)
  | none => .ok none
  | some receipt =>
      if receipt.operation ≠ operation ∨ receipt.inputSha256 ≠ identity.inputSha256 then
        .error (.profile .idempotencyConflict)
      else .ok (some receipt.response)

def replay (identity : ReceiptIdentity) (operation : WorkingProfileOperation) :
    LearningCalls (Option ProfileResponse) := do
  let receipt : Option ProfileReceipt ← ask (.readReceipt identity.idempotencyKeyHash)
  Process.ofExcept (replayed identity operation receipt)

/-- A request that has its receipt is answered with it, and any other goes on. -/
def unlessReplayed (identity : ReceiptIdentity) (operation : WorkingProfileOperation)
    (rest : LearningCalls ProfileResponse) : LearningCalls ProfileResponse := do
  let prior ← replay identity operation
  match prior with
  | some response => return response
  | none => rest

/-- A batch that failed may have been committed by another call, or by this one. -/
def recovered (identity : ReceiptIdentity) (operation : WorkingProfileOperation)
    (publishedObjectKeys : List String) (e : LearningError) : LearningCalls ProfileResponse := do
  ask (.queueCleanup publishedObjectKeys)
  unlessReplayed identity operation (throw e)

def receiptOf (identity : ReceiptIdentity) (operation : WorkingProfileOperation)
    (response : ProfileResponse) (now : Nat) : ProfileReceipt :=
  { idempotencyKeyHash := identity.idempotencyKeyHash
    operation := operation
    inputSha256 := identity.inputSha256
    response := response
    createdAt := now }

def committed (batch : ProfileBatch) : LearningCalls ProfileResponse := do
  ask (.commitProfile batch)
  return batch.receipt.response

/-- Commit a change with its receipt. -/
def commit (statements : List ProfileStatement) (identity : ReceiptIdentity)
    (operation : WorkingProfileOperation) (response : ProfileResponse) (now : Nat)
    (publishedObjectKeys : List String) : LearningCalls ProfileResponse :=
  tryCatch (committed
      { statements := statements, receipt := receiptOf identity operation response now })
    (recovered identity operation publishedObjectKeys)

/-- Store the body of a record. One that may have been stored anyway is cleaned up. -/
def publishWorkingProfileBody (body : Body) (recordId : String) : LearningCalls StoredBody :=
  tryCatch (putImmutableBody h .workingProfile body recordId)
    (fun e => do
      ask (.queueCleanup [BodyArea.workingProfile.key recordId])
      throw e)

/-- A condition of a request. -/
def require (holds : Bool) (problem : WorkingProfileProblem) : LearningCalls Unit :=
  if holds then pure () else throw (.profile problem)

/-- What is there, or a problem. -/
def found {α : Type} (read : Option α) (problem : WorkingProfileProblem) :
    Except LearningError α :=
  match read with
  | some a => .ok a
  | none => .error (.profile problem)

/-- A project is active, where one is meant. -/
def requireProject (projectId : Option String) : LearningCalls Unit :=
  match projectId with
  | none => pure ()
  | some projectId => do
      let active : Bool ← ask (.activeProjectExists projectId)
      require active .projectNotActive

/-! ## Preferences -/

structure SaveWorkingPreferenceRequest where
  idempotencyKey : String
  key : String
  preferenceId : Option String
  projectId : Option String
  sourceLabel : String
  sourceUrl : Option String
  value : String

/-- A member of an object that may be missing. -/
def optionalMember (name : String) (value : Option String) : List (String × Json) :=
  (value.map (fun text => (name, Json.str text))).toList

def nullable (value : Option String) : Json :=
  (value.map Json.str).getD .null

def SaveWorkingPreferenceRequest.toJson (input : SaveWorkingPreferenceRequest) : Json :=
  .obj ([("idempotencyKey", .str input.idempotencyKey), ("key", .str input.key)] ++
    optionalMember "preferenceId" input.preferenceId ++
    [("projectId", nullable input.projectId), ("sourceLabel", .str input.sourceLabel),
      ("sourceUrl", nullable input.sourceUrl), ("value", .str input.value)])

/-- The id that is asked for is that of the preference that is there. -/
def SaveWorkingPreferenceRequest.agrees (input : SaveWorkingPreferenceRequest)
    (existing : Option PreferenceRow) : Bool :=
  input.preferenceId.all (fun preferenceId =>
    existing.any (fun row => row.preferenceId = preferenceId))

def SaveWorkingPreferenceRequest.record (input : SaveWorkingPreferenceRequest)
    (existing : Option PreferenceRow) (preferenceId recordId : String) (stored : StoredBody)
    (now : Nat) : WorkingProfileRecord :=
  { recordId := recordId
    recordType := .preferenceVersion
    projectId := input.projectId
    preferenceId := some preferenceId
    skillId := none
    dependencies := (existing.map (·.currentRecordId)).toList
    body := stored
    createdAt := now }

def SaveWorkingPreferenceRequest.row (input : SaveWorkingPreferenceRequest)
    (preferenceId recordId : String) (now : Nat) : PreferenceRow :=
  { preferenceId := preferenceId
    projectId := input.projectId
    preferenceKey := input.key
    currentRecordId := recordId
    status := .active
    value := some input.value
    sourceLabel := input.sourceLabel
    sourceUrl := input.sourceUrl
    updatedAt := now }

def SaveWorkingPreferenceRequest.response (input : SaveWorkingPreferenceRequest)
    (preferenceId recordId : String) (now : Nat) : ProfileResponse :=
  .preference
    { key := input.key
      preferenceId := preferenceId
      projectId := input.projectId
      sourceLabel := input.sourceLabel
      sourceUrl := input.sourceUrl
      updatedAt := now
      value := input.value
      versionRecordId := recordId }

/-- A new preference needs a place. -/
def requirePlace (existing : Option PreferenceRow) : LearningCalls Unit :=
  if existing.isSome then pure ()
  else do
    let count : Nat ← ask .countPreferences
    require (count < maxPreferences) .preferenceConflict

/-- The id of the preference that is saved: the one that is there, or a new one. -/
def savedId (input : SaveWorkingPreferenceRequest) (existing : Option PreferenceRow) :
    LearningCalls String :=
  match existing.map (·.preferenceId) <|> input.preferenceId with
  | some preferenceId => pure preferenceId
  | none => do
      let drawn : String × Nat ← ask .draw
      return drawn.1

/-- A preference that was saved under another id in the meantime. -/
def unlessSaved (input : SaveWorkingPreferenceRequest) (preferenceId : String)
    (e : LearningError) : LearningCalls ProfileResponse := do
  let winner : Option PreferenceRow ← ask (.preferenceByKey input.key input.projectId)
  if winner.any (fun row => row.preferenceId ≠ preferenceId) then
    throw (.profile .preferenceConflict)
  else throw e

/-- Store the next version of a preference and commit it. -/
def savePreferenceVersion (input : SaveWorkingPreferenceRequest) (identity : ReceiptIdentity)
    (existing : Option PreferenceRow) (preferenceId recordId : String) (now : Nat) :
    LearningCalls ProfileResponse := do
  let stored ← publishWorkingProfileBody h
    (.preferenceVersion input.key preferenceId input.projectId recordId input.sourceLabel
      input.sourceUrl input.value) recordId
  tryCatch (commit
      [.insertRecord (input.record existing preferenceId recordId stored now),
        .upsertPreference (input.row preferenceId recordId now)]
      identity .preferenceSave (input.response preferenceId recordId now) now
      [stored.bodyObjectKey])
    (unlessSaved input preferenceId)

def saveNewVersion (input : SaveWorkingPreferenceRequest) (identity : ReceiptIdentity) :
    LearningCalls ProfileResponse := do
  let existing : Option PreferenceRow ← ask (.preferenceByKey input.key input.projectId)
  require (input.agrees existing) .preferenceConflict
  let preferenceId ← savedId input existing
  requirePlace existing
  let drawn : String × Nat ← ask .draw
  savePreferenceVersion h input identity existing preferenceId drawn.1 drawn.2

def saveWorkingPreference (input : SaveWorkingPreferenceRequest) :
    LearningCalls ProfileResponse := do
  require (input.value.utf8ByteSize ≤ maxPreferenceBytes) .preferenceConflict
  requireProject input.projectId
  let identity := receiptIdentity h .preferenceSave input.idempotencyKey input.toJson
  unlessReplayed identity .preferenceSave (saveNewVersion h input identity)

structure DeleteWorkingPreferenceRequest where
  idempotencyKey : String
  preferenceId : String

def DeleteWorkingPreferenceRequest.toJson (input : DeleteWorkingPreferenceRequest) : Json :=
  .obj [("idempotencyKey", .str input.idempotencyKey),
    ("preferenceId", .str input.preferenceId)]

def DeleteWorkingPreferenceRequest.record (input : DeleteWorkingPreferenceRequest)
    (row : PreferenceRow) (recordId : String) (stored : StoredBody) (now : Nat) :
    WorkingProfileRecord :=
  { recordId := recordId
    recordType := .preferenceDeleted
    projectId := row.projectId
    preferenceId := some input.preferenceId
    skillId := none
    dependencies := [row.currentRecordId]
    body := stored
    createdAt := now }

/-- Delete the preference that was read. -/
def deletePreferenceRow (input : DeleteWorkingPreferenceRequest) (row : PreferenceRow)
    (identity : ReceiptIdentity) : LearningCalls ProfileResponse := do
  let drawn : String × Nat ← ask .draw
  let stored ← publishWorkingProfileBody h
    (.preferenceDeleted input.preferenceId row.projectId drawn.1) drawn.1
  commit
    [.insertRecord (input.record row drawn.1 stored drawn.2),
      .deletePreference input.preferenceId drawn.1 drawn.2]
    identity .preferenceDelete (.deleted drawn.1) drawn.2 [stored.bodyObjectKey]

def deleteWorkingPreference (input : DeleteWorkingPreferenceRequest) :
    LearningCalls ProfileResponse :=
  let identity := receiptIdentity h .preferenceDelete input.idempotencyKey input.toJson
  unlessReplayed identity .preferenceDelete (do
    let read : Option PreferenceRow ← ask (.activePreference input.preferenceId)
    let row ← Process.ofExcept (found read .preferenceNotFound)
    deletePreferenceRow h input row identity)

/-! ## Skills -/

structure ImportAgentSkillRequest where
  files : List AgentSkillPackageFile
  idempotencyKey : String
  skillId : Option String

def AgentSkillPackageFile.toJson (file : AgentSkillPackageFile) : Json :=
  .obj [("contentBase64", .str file.contentBase64), ("path", .str file.path)]

def ImportAgentSkillRequest.toJson (input : ImportAgentSkillRequest) : Json :=
  .obj ([("files", .arr (input.files.map AgentSkillPackageFile.toJson)),
    ("idempotencyKey", .str input.idempotencyKey)] ++ optionalMember "skillId" input.skillId)

def importRecord (existing : Option SkillRow) (skillId recordId : String) (stored : StoredBody)
    (now : Nat) : WorkingProfileRecord :=
  { recordId := recordId
    recordType := .skillVersion
    projectId := none
    preferenceId := none
    skillId := some skillId
    dependencies := (existing.map (·.currentVersionRecordId)).toList
    body := stored
    createdAt := now }

def SkillMetadata.row (metadata : SkillMetadata) (skillId recordId : String) (now : Nat) :
    SkillRow :=
  { skillId := skillId
    name := metadata.name
    description := metadata.description
    currentVersionRecordId := recordId
    status := .active
    updatedAt := now }

def SkillMetadata.response (metadata : SkillMetadata) (skillId recordId : String) (now : Nat) :
    ProfileResponse :=
  .skill
    { description := metadata.description
      name := metadata.name
      skillId := skillId
      updatedAt := now
      versionRecordId := recordId }

/-- The skill that is replaced, if one is meant. -/
def replacedSkill (skillId : Option String) : LearningCalls (Option SkillRow) :=
  match skillId with
  | none => pure none
  | some skillId => do
      let read : Option SkillRow ← ask (.activeSkill skillId)
      let row ← Process.ofExcept (found read .skillNotFound)
      return some row

/-- A new skill needs a place. -/
def requireSkillPlace (existing : Option SkillRow) : LearningCalls Unit :=
  if existing.isSome then pure ()
  else do
    let count : Nat ← ask .countSkills
    require (count < maxSkills) .skillPackageTooLarge

def importedId (skillId : Option String) : LearningCalls String :=
  match skillId with
  | some skillId => pure skillId
  | none => do
      let drawn : String × Nat ← ask .draw
      return drawn.1

/-- A skill whose name was taken in the meantime. -/
def unlessNamed (name skillId : String) (e : LearningError) : LearningCalls ProfileResponse := do
  let winner : Option String ← ask (.nameOwner name)
  if winner.any (fun owner => owner ≠ skillId) then throw (.profile .skillConflict) else throw e

/-- Store the next version of a skill and commit it. -/
def importVersion (input : ImportAgentSkillRequest) (identity : ReceiptIdentity)
    (metadata : SkillMetadata) (existing : Option SkillRow) (skillId recordId : String)
    (now : Nat) : LearningCalls ProfileResponse := do
  let stored ← publishWorkingProfileBody h
    (.skillVersion metadata.description input.files metadata.name recordId skillId) recordId
  tryCatch (commit
      [.insertRecord (importRecord existing skillId recordId stored now),
        .upsertSkill (metadata.row skillId recordId now)]
      identity .skillImport (metadata.response skillId recordId now) now [stored.bodyObjectKey])
    (unlessNamed metadata.name skillId)

def importNewVersion (input : ImportAgentSkillRequest) (identity : ReceiptIdentity) :
    LearningCalls ProfileResponse := do
  let metadata ← Process.ofExcept ((h.skillMetadata input.files).mapError LearningError.profile)
  let existing ← replacedSkill input.skillId
  let owner : Option String ← ask (.nameOwner metadata.name)
  require (owner.all (fun owner => input.skillId = some owner)) .skillConflict
  requireSkillPlace existing
  let skillId ← importedId input.skillId
  let drawn : String × Nat ← ask .draw
  importVersion h input identity metadata existing skillId drawn.1 drawn.2

def importAgentSkill (input : ImportAgentSkillRequest) : LearningCalls ProfileResponse :=
  let identity := receiptIdentity h .skillImport input.idempotencyKey input.toJson
  unlessReplayed identity .skillImport (importNewVersion h input identity)

def currentSkill (skillId : String) : LearningCalls SkillRow := do
  let read : Option SkillRow ← ask (.activeSkill skillId)
  Process.ofExcept (found read .skillNotFound)

structure DeleteAgentSkillRequest where
  idempotencyKey : String
  skillId : String

def DeleteAgentSkillRequest.toJson (input : DeleteAgentSkillRequest) : Json :=
  .obj [("idempotencyKey", .str input.idempotencyKey), ("skillId", .str input.skillId)]

/-- The record of a skill that is taken from a project. -/
def detachment (projectId skillId : String) (attached : AttachmentRow) (recordId : String)
    (stored : StoredBody) (now : Nat) : WorkingProfileRecord :=
  { recordId := recordId
    recordType := .skillDetached
    projectId := some projectId
    preferenceId := none
    skillId := some skillId
    dependencies := [attached.attachedRecordId, attached.skillVersionRecordId]
    body := stored
    createdAt := now }

/-- Store the bodies that say that a skill is taken from its projects. -/
def detachAll (skillId : String) (now : Nat) :
    List AttachmentRow → LearningCalls (List WorkingProfileRecord)
  | [] => pure []
  | attached :: rest => do
      let drawn : String × Nat ← ask .draw
      let stored ← publishWorkingProfileBody h
        (.skillAttached false attached.projectId drawn.1 skillId attached.skillVersionRecordId)
        drawn.1
      let records ← detachAll skillId now rest
      return detachment attached.projectId skillId attached drawn.1 stored now :: records

def SkillRow.deletion (skill : SkillRow) (skillId recordId : String) (stored : StoredBody)
    (now : Nat) : WorkingProfileRecord :=
  { recordId := recordId
    recordType := .skillDeleted
    projectId := none
    preferenceId := none
    skillId := some skillId
    dependencies := [skill.currentVersionRecordId]
    body := stored
    createdAt := now }

def deleteCurrentSkill (input : DeleteAgentSkillRequest) (identity : ReceiptIdentity) :
    LearningCalls ProfileResponse := do
  let skill ← currentSkill input.skillId
  let attachments : List AttachmentRow ← ask (.attachmentsOf input.skillId)
  require (attachments.length ≤ maxSkillProjectAttachments) .projectSkillLimitExceeded
  let drawn : String × Nat ← ask .draw
  let stored ← publishWorkingProfileBody h (.skillDeleted drawn.1 input.skillId) drawn.1
  let detachments ← detachAll h input.skillId drawn.2 attachments
  let records := skill.deletion input.skillId drawn.1 stored drawn.2 :: detachments
  commit
    (records.map .insertRecord ++
      [.deleteAttachments input.skillId, .deleteSkill input.skillId drawn.1 drawn.2])
    identity .skillDelete (.deleted drawn.1) drawn.2
    (records.map (fun record => record.body.bodyObjectKey))

def deleteAgentSkill (input : DeleteAgentSkillRequest) : LearningCalls ProfileResponse :=
  let identity := receiptIdentity h .skillDelete input.idempotencyKey input.toJson
  unlessReplayed identity .skillDelete (deleteCurrentSkill h input identity)

/-! ## Skills of projects -/

structure ProjectSkillMutationRequest where
  idempotencyKey : String
  projectId : String
  skillId : String

def ProjectSkillMutationRequest.toJson (input : ProjectSkillMutationRequest) : Json :=
  .obj [("idempotencyKey", .str input.idempotencyKey), ("projectId", .str input.projectId),
    ("skillId", .str input.skillId)]

/-- The first place that is not taken. -/
def firstOpenSlot (slots : List Nat) (limit : Nat) : Option Nat :=
  (List.range limit).find? (fun slot => !slots.contains slot)

structure AttachmentSlots where
  projectSlot : Nat
  skillSlot : Nat

def OccupiedSlots.open_ (occupied : OccupiedSlots) : Option AttachmentSlots := do
  let projectSlot ← firstOpenSlot occupied.project maxProjectSkillAttachments
  let skillSlot ← firstOpenSlot occupied.skill maxSkillProjectAttachments
  return { projectSlot := projectSlot, skillSlot := skillSlot }

namespace ProjectSkillMutationRequest

variable (input : ProjectSkillMutationRequest)

def response (attached : Bool) (recordId versionRecordId : String) : ProfileResponse :=
  .mutation
    { attached := attached
      projectId := input.projectId
      recordId := recordId
      skillId := input.skillId
      versionRecordId := versionRecordId }

def attachment (skill : SkillRow) (recordId : String) (stored : StoredBody) (now : Nat) :
    WorkingProfileRecord :=
  { recordId := recordId
    recordType := .skillAttached
    projectId := some input.projectId
    preferenceId := none
    skillId := some input.skillId
    dependencies := [skill.currentVersionRecordId]
    body := stored
    createdAt := now }

def row (skill : SkillRow) (slots : AttachmentSlots) (recordId : String) (now : Nat) :
    AttachmentRow :=
  { projectId := input.projectId
    skillId := input.skillId
    skillVersionRecordId := skill.currentVersionRecordId
    projectSlot := slots.projectSlot
    skillSlot := slots.skillSlot
    attachedRecordId := recordId
    attachedAt := now }

end ProjectSkillMutationRequest

/-- A skill that could not be attached is, or its place was taken, and it is tried again. -/
def unlessAttached (input : ProjectSkillMutationRequest)
    (again : LearningCalls ProfileResponse) (_ : LearningError) :
    LearningCalls ProfileResponse := do
  let attached : Option AttachmentRow ← ask (.attachment input.projectId input.skillId)
  if attached.isSome then throw (.profile .skillAlreadyAttached) else again

/-- Attach the skill that was read. -/
def attachSkill (input : ProjectSkillMutationRequest) (identity : ReceiptIdentity)
    (skill : SkillRow) (again : LearningCalls ProfileResponse) :
    LearningCalls ProfileResponse := do
  let occupied : OccupiedSlots ← ask (.occupiedSlots input.projectId input.skillId)
  let slots ← Process.ofExcept (found occupied.open_ .projectSkillLimitExceeded)
  let drawn : String × Nat ← ask .draw
  let stored ← publishWorkingProfileBody h
    (.skillAttached true input.projectId drawn.1 input.skillId skill.currentVersionRecordId)
    drawn.1
  tryCatch (commit
      [.insertRecord (input.attachment skill drawn.1 stored drawn.2),
        .attach (input.row skill slots drawn.1 drawn.2)]
      identity .skillAttach (input.response true drawn.1 skill.currentVersionRecordId) drawn.2
      [stored.bodyObjectKey])
    (unlessAttached input again)

/-- Detach the skill that was read. -/
def detachSkill (input : ProjectSkillMutationRequest) (identity : ReceiptIdentity)
    (attached : AttachmentRow) : LearningCalls ProfileResponse := do
  let drawn : String × Nat ← ask .draw
  let stored ← publishWorkingProfileBody h
    (.skillAttached false input.projectId drawn.1 input.skillId attached.skillVersionRecordId)
    drawn.1
  commit
    [.insertRecord (detachment input.projectId input.skillId attached drawn.1 stored drawn.2),
      .detach input.projectId input.skillId]
    identity .skillDetach (input.response false drawn.1 attached.skillVersionRecordId) drawn.2
    [stored.bodyObjectKey]

/-- What is done to the attachment that was read. -/
def mutateAttachment (input : ProjectSkillMutationRequest) (attach : Bool)
    (identity : ReceiptIdentity) (again : LearningCalls ProfileResponse) (skill : SkillRow)
    (existing : Option AttachmentRow) : LearningCalls ProfileResponse :=
  match attach, existing with
  | true, some _ => throw (.profile .skillAlreadyAttached)
  | true, none => attachSkill h input identity skill again
  | false, some attached => detachSkill h input identity attached
  | false, none => throw (.profile .skillNotAttached)

def mutateOnce (input : ProjectSkillMutationRequest) (attach : Bool)
    (again : LearningCalls ProfileResponse) : LearningCalls ProfileResponse :=
  let operation := if attach then .skillAttach else .skillDetach
  let identity := receiptIdentity h operation input.idempotencyKey input.toJson
  unlessReplayed identity operation (do
    requireProject (some input.projectId)
    let skill ← currentSkill input.skillId
    let existing : Option AttachmentRow ← ask (.attachment input.projectId input.skillId)
    mutateAttachment h input attach identity again skill existing)

/-- A skill whose place was taken is attached once more. -/
def mutateProjectSkill (input : ProjectSkillMutationRequest) (attach : Bool) :
    LearningCalls ProfileResponse :=
  mutateOnce h input attach (mutateOnce h input true (throw (.profile .skillConflict)))

end Mdevolved.Learning
