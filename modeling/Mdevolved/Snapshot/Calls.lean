import Mdevolved.Snapshot.Requests

/-!
# Snapshot Calls

The functions that capture a snapshot and that repair one, as processes over the
requests of `Requests`. A capture is continued step by step: each call encrypts up
to twenty objects and up to twenty items, and finishes the snapshot once they are
all there. A repair looks at up to twenty-four objects after one that its caller
names, writes those anew that are not there as they were recorded, and says after
which one to go on.

## Main definitions

* `encryptObjectToR2`: Writing an object and seeing that it is there.
* `findReusableObject`, `createRecoveryObject`: An object for a content.
* `continueWorkspaceSnapshot`: One step of a capture.
* `finalizeWorkspaceSnapshot`: The end of a capture.
* `repairWorkspaceSnapshot`: One step of a repair.
-/

namespace Mdevolved.Snapshot

abbrev SnapshotProcess (α : Type) : Type :=
  Process SnapshotOp (fun op => Except SnapshotError op.Ret) SnapshotError α

/-- Make a request and wait for its answer. -/
def ask (op : SnapshotOp) : SnapshotProcess op.Ret :=
  Process.request op

def snapshotObjectBatchSize : Nat := 20

def snapshotRepairBatchSize : Nat := 24

/-! ## Objects -/

/-- The first of some rows whose object is there as it was recorded. Those whose
    object is not are given up. -/
def firstPresent : List SnapshotObjectRow → SnapshotProcess (Option SnapshotObjectRow)
  | [] => pure none
  | row :: rest => do
      let object ← ask (.headObject row.objectKey)
      if row.stored.any (storedObjectMatches object) then pure (some row)
      else do
        ask (.failMissing row.id)
        firstPresent rest

def findReusableObject (recipientFingerprint : String) (group : GroupKey) (byteLength : Nat) :
    SnapshotProcess (Option SnapshotObjectRow) := do
  let rows ← ask (.readReusable recipientFingerprint group byteLength)
  firstPresent rows

/-- Write an object where there is none, and see that it is there. -/
def encryptObjectToR2 (params : SnapshotParams) (objectKey : String) (plaintext : Plaintext) :
    SnapshotProcess Ciphertext := do
  let written ← ask (.putObject objectKey plaintext)
  match written with
  | none => throw .unavailable
  | some written =>
      if written.size ≠ params.ageSize plaintext then throw .unavailable
      else do
        let verified ← ask (.headObject objectKey)
        if storedObjectMatches verified written.ciphertext then pure written.ciphertext
        else throw .unavailable

/-- What a capture and a repair know of their snapshot. -/
structure SnapshotContext where
  snapshotId : String
  recipientFingerprint : String
  now : Nat

/-- Whether a content is there as it should be. -/
def sourceMatches (source : Option R2Object) (byteLength : Nat) (contentSha256 : String) : Bool :=
  source.any (fun o => o.size = byteLength && o.sha256 = some contentSha256)

/-- The row of an object that is about to be written. -/
def creatingRow (context : SnapshotContext) (objectId objectKey : String) (group : GroupKey)
    (byteLength : Nat) : SnapshotObjectRow :=
  { id := objectId
    status := .creating
    sectionName := group.sectionName
    recipientFingerprint := context.recipientFingerprint
    contentSha256 := group.contentSha256
    plaintextBytes := byteLength
    objectKey := objectKey
    stored := none
    createdBySnapshotId := some context.snapshotId
    createdAt := context.now
    verifiedAt := none
    failureCode := none }

/-- Write the object of a row that was added, and record that it is there. -/
def completeRecoveryObject (params : SnapshotParams) (context : SnapshotContext)
    (row : SnapshotObjectRow) : SnapshotProcess SnapshotObjectRow := do
  let written ← encryptObjectToR2 params row.objectKey
    (.content row.contentSha256 row.plaintextBytes)
  let completed ← ask (.completeObject row.id written context.now)
  if completed ≠ some row.id then throw .unavailable
  else pure { row with
    status := .ready, stored := some written, verifiedAt := some context.now }

def createRecoveryObject (params : SnapshotParams) (context : SnapshotContext) (group : GroupKey)
    (byteLength : Nat) (sourceR2Key : String) : SnapshotProcess SnapshotObjectRow := do
  let source ← ask (.getObject sourceR2Key)
  if !sourceMatches source byteLength group.contentSha256 then throw .sourceUnavailable
  else do
    let objectId ← ask .randomUUID
    let uuid ← ask .randomUUID
    let objectKey := "snapshots/objects/" ++ context.recipientFingerprint ++ "/" ++ uuid ++ ".age"
    let row := creatingRow context objectId objectKey group byteLength
    ask (.insertObject row)
    Process.tryCatch (completeRecoveryObject params context row) (fun e => do
      ask (.failEncryption objectId)
      throw e)

/-! ## Intelligence -/

/-- Whether the source of an item is there as it should be. -/
def itemSourceMatches (source : Option R2Object) (byteLength : Nat) (contentSha256 : String) :
    Bool :=
  source.any (fun o => o.size = byteLength && o.contentSha256 = some contentSha256 &&
    o.sha256.all (fun hash => hash = contentSha256))

def processPendingItem (params : SnapshotParams) (snapshotId : String)
    (item : IntelligenceItemRow) : SnapshotProcess Unit := do
  let source ← ask (.getObject item.sourceObjectKey)
  if !itemSourceMatches source item.byteLength item.contentSha256 then throw .sourceUnavailable
  else do
    let objectKey := "snapshots/" ++ snapshotId ++ "/intelligence/" ++ item.portableObjectId ++ ".age"
    let written ← encryptObjectToR2 params objectKey (.content item.contentSha256 item.byteLength)
    let updated ← ask (.completeItem snapshotId item.itemId
      { toCiphertext := written, key := objectKey })
    if updated ≠ some item.itemId then throw .stateInvalid
    else pure ()

def processPendingItems (params : SnapshotParams) (snapshotId : String) :
    List IntelligenceItemRow → SnapshotProcess Unit
  | [] => pure ()
  | item :: rest => do
      processPendingItem params snapshotId item
      processPendingItems params snapshotId rest

/-- Encrypt the next items, and say how many are left. -/
def processPendingIntelligence (params : SnapshotParams) (snapshotId : String) :
    SnapshotProcess Nat := do
  let pending ← ask (.readPendingItems snapshotId snapshotObjectBatchSize)
  processPendingItems params snapshotId pending
  ask (.countPendingItems snapshotId)

/-! ## Manifests -/

/-- The content objects of entries, one for each portable object: where several
    entries have it, the last of them in place of the first. -/
def addManifestObject (objects : List ManifestObject) (e : SnapshotEntryRow) :
    List ManifestObject :=
  let object : ManifestObject :=
    { portableObjectId := e.portableObjectId
      sectionName := e.sectionName
      contentSha256 := e.contentSha256
      byteLength := e.byteLength }
  if objects.any (fun o => o.portableObjectId = e.portableObjectId) then
    objects.map (fun o => if o.portableObjectId = e.portableObjectId then object else o)
  else objects ++ [object]

def manifestEntry (e : SnapshotEntryRow) : ManifestEntry :=
  { snapshotVaultId := e.snapshotVaultId
    sectionName := e.sectionName
    path := e.path
    contentSha256 := e.contentSha256
    byteLength := e.byteLength
    portableObjectId := e.portableObjectId }

/-- The manifest of rows, which list every path of every vault. -/
def manifestOf (params : SnapshotParams) (vaults : List SnapshotVaultRow)
    (entries : List SnapshotEntryRow) (items : List IntelligenceItemRow)
    (captureCompletedAt : Nat) : SnapshotManifest :=
  { captureCompletedAt := captureCompletedAt
    objects := (entries.foldl addManifestObject []).insertionSort
      (fun o p => params.localeBefore o.portableObjectId p.portableObjectId)
    entries := vaults.flatMap (fun v =>
      (entries.filter (fun e => e.snapshotVaultId = v.snapshotVaultId)).map manifestEntry)
    intelligence := items.map IntelligenceItemRow.portableObjectId }

def buildWorkspaceSnapshotManifest (params : SnapshotParams) (row : SnapshotRow)
    (captureCompletedAt : Nat) : SnapshotProcess SnapshotManifest := do
  let vaults ← ask (.readVaults row.id)
  if vaults = [] then throw .invalid
  else do
    let entries ← ask (.readEntries row.id)
    if entries.length ≠ row.itemCount ∨
        entries.any (fun e => !e.2.any (fun o => o.stored.isSome)) then
      throw .stateInvalid
    else do
      let items ← ask (.readReadyItems row.id)
      let manifest := manifestOf params vaults (entries.map Prod.fst) items captureCompletedAt
      if params.manifestSchema manifest then pure manifest
      else throw .other

/-! ## Capturing -/

/-- Whether the recipient that was read is the one of the snapshot. -/
def recipientIs (recipient : Option String) (recipientFingerprint : String) : Bool :=
  recipient = some recipientFingerprint

/-- Fail a snapshot whose recipient is not the present one. -/
def failRecipient {α : Type} (snapshotId : String) (now : Nat) : SnapshotProcess α := do
  ask (.markFailed snapshotId .recipientChanged now)
  throw .recipientChanged

def finalizeWorkspaceSnapshot (params : SnapshotParams) (snapshotId : String) (now : Nat) :
    SnapshotProcess Unit := do
  let row ← ask (.readCreating snapshotId)
  match row with
  | none => throw .stateInvalid
  | some row => do
      let manifest ← buildWorkspaceSnapshotManifest params row now
      let recipient ← ask .readRecipient
      if !recipientIs recipient row.recipientFingerprint then failRecipient snapshotId now
      else do
        let objectKey := "snapshots/" ++ snapshotId ++ "/manifest.age"
        let written ← encryptObjectToR2 params objectKey (.manifest manifest)
        let contentNewBytes ← ask (.sumNewBytes snapshotId)
        let completed ← ask (.completeSnapshot snapshotId
          { toCiphertext := written, key := objectKey } (contentNewBytes + written.bytes) now)
        if completed ≠ some snapshotId then throw .unavailable
        else pure ()

/-- The recovery object of a pending one: one that may be used again, or a new one. -/
def recoveryObjectFor (params : SnapshotParams) (context : SnapshotContext)
    (item : PendingObject) : SnapshotProcess SnapshotObjectRow := do
  let object ← findReusableObject context.recipientFingerprint item.group item.byteLength
  match object with
  | some object => pure object
  | none =>
      match item.sourceR2Key with
      | none => throw .sourceUnavailable
      | some sourceR2Key =>
          createRecoveryObject params context item.group item.byteLength sourceR2Key

def processPendingObjects (params : SnapshotParams) (context : SnapshotContext) :
    List PendingObject → SnapshotProcess Unit
  | [] => pure ()
  | item :: rest => do
      let object ← recoveryObjectFor params context item
      ask (.setRecoveryObject context.snapshotId item.group.portableObjectId object.id)
      processPendingObjects params context rest

/-- A snapshot as its caller sees it. -/
def readWorkspaceSnapshot (snapshotId : String) : SnapshotProcess SnapshotRow := do
  let summary ← ask (.readSummary snapshotId)
  match summary with
  | none => throw .notFound
  | some summary => pure summary

/-- A step of a capture whose recipient is the present one. -/
def captureNext (params : SnapshotParams) (context : SnapshotContext) :
    SnapshotProcess SnapshotRow := do
  let pending ← ask (.readPending context.snapshotId snapshotObjectBatchSize)
  processPendingObjects params context pending
  let pendingIntelligenceCount ← processPendingIntelligence params context.snapshotId
  let counts ← ask (.countObjects context.snapshotId)
  ask (.setProcessed context.snapshotId counts.1)
  if counts.1 = counts.2 ∧ pendingIntelligenceCount = 0 then do
    finalizeWorkspaceSnapshot params context.snapshotId context.now
    readWorkspaceSnapshot context.snapshotId
  else readWorkspaceSnapshot context.snapshotId

def continueWorkspaceSnapshot (params : SnapshotParams) (snapshotId : String) (now : Nat) :
    SnapshotProcess SnapshotRow := do
  let existing ← ask (.readStatus snapshotId)
  match existing with
  | none => throw .notFound
  | some (status, recipientFingerprint) =>
      if status = .ready then readWorkspaceSnapshot snapshotId
      else if status ≠ .creating then throw .stateInvalid
      else do
        let recipient ← ask .readRecipient
        let context : SnapshotContext :=
          { snapshotId := snapshotId, recipientFingerprint := recipientFingerprint, now := now }
        if !recipientIs recipient recipientFingerprint then failRecipient snapshotId now
        else captureNext params context

/-! ## Repairing -/

/-- Write the manifest anew unless it is there as it was recorded. -/
def repairWorkspaceSnapshotManifest (params : SnapshotParams) (row : SnapshotRow) (now : Nat) :
    SnapshotProcess Unit := do
  let present ← match row.manifest with
    | none => pure false
    | some manifest => do
        let object ← ask (.headObject manifest.key)
        pure (storedObjectMatches object manifest.toCiphertext)
  if present then pure ()
  else
    match row.captureCompletedAt with
    | none => throw .invalid
    | some captureCompletedAt => do
        ask (.degrade row.id)
        let manifest ← buildWorkspaceSnapshotManifest params row captureCompletedAt
        let uuid ← ask .randomUUID
        let replacementKey := "snapshots/" ++ row.id ++ "/manifests/" ++ uuid ++ ".age"
        let written ← encryptObjectToR2 params replacementKey (.manifest manifest)
        let updated ← ask (.replaceManifest row.id
          { toCiphertext := written, key := replacementKey } row.manifest now)
        if updated ≠ some row.id then do
          ask (.queueObject replacementKey now)
          throw .unavailable
        else pure ()

def repairSnapshotIntelligenceObject (params : SnapshotParams) (context : SnapshotContext)
    (candidate : ItemCandidate) : SnapshotProcess Unit := do
  let source ← ask (.getObject candidate.sourceObjectKey)
  if !itemSourceMatches source candidate.byteLength candidate.contentSha256 then
    throw .repairUnavailable
  else do
    let uuid ← ask .randomUUID
    let replacementKey := "snapshots/" ++ context.snapshotId ++ "/intelligence/" ++
      candidate.portableObjectId ++ "-" ++ uuid ++ ".age"
    let replacement ← encryptObjectToR2 params replacementKey
      (.content candidate.contentSha256 candidate.byteLength)
    let updated ← ask (.replaceItem context.snapshotId candidate
      { toCiphertext := replacement, key := replacementKey } context.now)
    if updated ≠ some candidate.itemId then do
      ask (.queueObject replacementKey context.now)
      throw .unavailable
    else pure ()

/-- See that an item's object is there as it was recorded, or write it anew. -/
def repairItem (params : SnapshotParams) (context : SnapshotContext) (candidate : ItemCandidate) :
    SnapshotProcess Unit := do
  let object ← ask (.headObject candidate.stored.key)
  if storedObjectMatches object candidate.stored.toCiphertext then pure ()
  else do
    ask (.degrade context.snapshotId)
    repairSnapshotIntelligenceObject params context candidate

/-- The same of a content object, which other entries may have as well. -/
def repairContent (params : SnapshotParams) (context : SnapshotContext)
    (candidate : ContentCandidate) : SnapshotProcess Unit := do
  let object ← ask (.headObject candidate.objectKey)
  if candidate.stored.any (storedObjectMatches object) then
    ask (.verifyObject candidate.recoveryObjectId context.now)
  else do
    ask (.degrade context.snapshotId)
    match candidate.sourceR2Key with
    | none => throw .repairUnavailable
    | some sourceR2Key => do
        let replacement ← createRecoveryObject params context candidate.group candidate.byteLength
          sourceR2Key
        ask (.replaceObject context.snapshotId replacement.id
          (replacement.stored.elim 0 Ciphertext.bytes) candidate context.now)

def repairCandidates (params : SnapshotParams) (context : SnapshotContext) :
    List RepairCandidate → SnapshotProcess Unit
  | [] => pure ()
  | .content candidate :: rest => do
      repairContent params context candidate
      repairCandidates params context rest
  | .intelligence candidate :: rest => do
      repairItem params context candidate
      repairCandidates params context rest

/-- The candidates of both kinds, in the order of the locale. -/
def mergeCandidates (params : SnapshotParams) (contents : List ContentCandidate)
    (items : List ItemCandidate) : List RepairCandidate :=
  (contents.map RepairCandidate.content ++ items.map RepairCandidate.intelligence).insertionSort
    (fun c d => params.localeBefore c.portableObjectId d.portableObjectId)

structure RepairResult where
  nextPortableObjectId : Option String
  summary : SnapshotRow

/-- After which portable object the next request is to go on, if there are more. -/
def nextPortableObjectId (candidates : List RepairCandidate) : Option String :=
  if snapshotRepairBatchSize < candidates.length then
    ((candidates.take snapshotRepairBatchSize).getLast?).map RepairCandidate.portableObjectId
  else none

/-- Look at the next objects of a snapshot whose manifest is there. -/
def repairNext (params : SnapshotParams) (context : SnapshotContext)
    (afterPortableObjectId : Option String) : SnapshotProcess RepairResult := do
  let contents ← ask (.readContentCandidates context.snapshotId (afterPortableObjectId.getD "")
    (snapshotRepairBatchSize + 1))
  let items ← ask (.readItemCandidates context.snapshotId (afterPortableObjectId.getD "")
    (snapshotRepairBatchSize + 1))
  let candidates := mergeCandidates params contents items
  repairCandidates params context (candidates.take snapshotRepairBatchSize)
  match nextPortableObjectId candidates with
  | none => do
      ask (.markVerified context.snapshotId context.now)
      let summary ← readWorkspaceSnapshot context.snapshotId
      pure { nextPortableObjectId := none, summary := summary }
  | some next => do
      let summary ← readWorkspaceSnapshot context.snapshotId
      pure { nextPortableObjectId := some next, summary := summary }

def repairWorkspaceSnapshot (params : SnapshotParams) (snapshotId : String)
    (afterPortableObjectId : Option String) (now : Nat) : SnapshotProcess RepairResult := do
  let snapshot ← ask (.readReady snapshotId)
  match snapshot with
  | none => throw .notFound
  | some snapshot => do
      let recipient ← ask .readRecipient
      if !recipientIs recipient snapshot.recipientFingerprint then throw .recipientMissing
      else do
        repairWorkspaceSnapshotManifest params snapshot now
        let context : SnapshotContext :=
          { snapshotId := snapshotId
            recipientFingerprint := snapshot.recipientFingerprint
            now := now }
        repairNext params context afterPortableObjectId

end Mdevolved.Snapshot
