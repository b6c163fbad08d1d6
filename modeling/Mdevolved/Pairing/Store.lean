import Mdevolved.Lib.Process
import Mdevolved.Pairing.Schema

/-!
# Pairing

The functions that create grants, exchange them for credentials, confirm a
first synchronisation and revoke, as processes over the pairing tables. A
process takes one request to the database at a time, and a batch is one request
whose statements all take effect or none.

A grant can be exchanged in two ways. `exchangePairingGrant` leaves a credential
that belongs to no device. Where the client sends a device along, the exchange
goes through `exchangeSourceDeviceGrant`, which enrolls the device, and which
recognises an enrollment it has seen before by its idempotency key.

## Main definitions

* `PairingOp`: One request to the database.
* `effect`, `exec`: What a request does, and how it ends.
* `exchangePairingGrant`, `exchangeSourceDeviceGrant`: The two exchanges.
* `createPairingGrant`, `confirmVaultSync`, `revokeVault`:
  The other functions.
* `PairingCall`: The calls the deployment receives.
-/

namespace Mdevolved.Pairing

open Process (Pool)

def pairingGrantLifetimeSeconds : Nat := 10 * 60

def deviceHistoryLimit : Nat := 64

def activeDeviceLimit : Nat := 16

/-! ## Statements -/

/-- One statement, returning the vault it is about. -/
abbrev PairingStatement : Type :=
  Batch.Statement PairingDb PairingError (Option String)

/-- Use a grant, if there is one to be used. -/
def redeemGrant (usable : PairingDb → GrantRow → Bool) (now : Nat) (exchangeId : String) :
    PairingStatement :=
  fun db =>
    match db.grants.find? (usable db) with
    | none => .ok (none, db)
    | some grant =>
        if db.grants.any (fun g => g.grantHash ≠ grant.grantHash && g.exchangeId = some exchangeId)
        then .error .uniqueConstraint
        else .ok (some grant.vaultId, { db with
          grants := Table.update (fun g => g.grantHash = grant.grantHash)
            (fun g => { g with usedAt := some now, exchangeId := some exchangeId }) db.grants })

/-- The grant that an exchange has used. -/
def exchangedGrant (db : PairingDb) (grantHash exchangeId : String) : Option GrantRow :=
  db.grants.find? (fun g => g.grantHash = grantHash && g.exchangeId = some exchangeId)

/-- Insert a credential for the grant that was used, if `row` has one for it. -/
def insertCredential (grantHash exchangeId : String)
    (row : PairingDb → GrantRow → Option CredentialRow) : PairingStatement :=
  fun db =>
    match (exchangedGrant db grantHash exchangeId).bind (row db) with
    | none => .ok (none, db)
    | some credential =>
        if admitsCredential db.credentials credential then
          .ok (some credential.vaultId, { db with credentials := db.credentials ++ [credential] })
        else .error .uniqueConstraint

/-- Record that something happened, if `occurred` says so. -/
def insertAuditEvent (event : AuditEventRow) (occurred : PairingDb → Bool) : PairingStatement :=
  fun db =>
    if occurred db then
      if db.auditEvents.any (fun a => a.id = event.id) then .error .uniqueConstraint
      else .ok (none, { db with auditEvents := db.auditEvents ++ [event] })
    else .ok (none, db)

/-- Whether a grant was issued for a deployment. -/
def hasOrigin (db : PairingDb) (grantHash deploymentOrigin : String) : Bool :=
  db.origins.any (fun o => o.grantHash = grantHash && o.deploymentOrigin = deploymentOrigin)

/-- What an exchange writes. -/
structure ExchangeBatch where
  now : Nat
  requestId : String
  deploymentUrl : String
  grantHash : String
  exchangeId : String
  credentialId : String
  auditId : String
  tokenHash : String
  vaultName : String
  pluginVersion : String
  schemaVersion : Nat
  descriptor : Option SourceDescriptor

/-- The grants an exchange may use. -/
def ExchangeBatch.usable (input : ExchangeBatch) (db : PairingDb) (g : GrantRow) : Bool :=
  g.grantHash = input.grantHash && g.usedAt = none && input.now < g.expiresAt &&
    hasOrigin db g.grantHash input.deploymentUrl &&
    db.vaults.any (fun v => v.id = g.vaultId && (v.sourceDescriptor.isNone ||
      input.descriptor.isNone || v.sourceDescriptor.map SourceDescriptor.descriptorSha256 =
        input.descriptor.map SourceDescriptor.descriptorSha256))

def ExchangeBatch.credential (input : ExchangeBatch) (g : GrantRow) : CredentialRow :=
  { id := input.credentialId
    vaultId := g.vaultId
    tokenHash := input.tokenHash
    pluginVersion := input.pluginVersion
    schemaVersion := input.schemaVersion
    createdAt := input.now
    lastUsedAt := none
    revokedAt := none
    sourceDeviceId := none }

/-- The vault of the grant that was used is paired, and called what the client
    calls it. -/
def ExchangeBatch.activateVault (input : ExchangeBatch) : PairingStatement :=
  fun db =>
    match exchangedGrant db input.grantHash input.exchangeId with
    | none => .ok (none, db)
    | some g =>
        .ok (none, { db with
          vaults := Table.update (fun v => v.id = g.vaultId)
            (fun v => { v with
              displayName := some input.vaultName, status := .active, pairedAt := some input.now
              sourceDescriptor := v.sourceDescriptor.or input.descriptor }) db.vaults })

def ExchangeBatch.statements (input : ExchangeBatch) : List PairingStatement :=
  [redeemGrant input.usable input.now input.exchangeId,
    insertCredential input.grantHash input.exchangeId (fun _ g => some (input.credential g)),
    input.activateVault,
    insertAuditEvent
      { id := input.auditId, eventType := "vault.paired", requestId := input.requestId
        createdAt := input.now }
      (fun db => (exchangedGrant db input.grantHash input.exchangeId).isSome)]

/-- What the enrollment of a device writes. -/
structure EnrollmentBatch where
  now : Nat
  requestId : String
  deploymentUrl : String
  grantHash : String
  exchangeId : String
  credentialId : String
  auditId : String
  vaultId : String
  vaultName : String
  pluginVersion : String
  schemaVersion : Nat
  descriptor : SourceDescriptor
  enrollment : SourceDeviceEnrollment
  requestSha256 : String
  originSha256 : String

/-- A vault takes the boundary if it has none, or the same. -/
def EnrollmentBatch.fits (input : EnrollmentBatch) (v : VaultRow) : Bool :=
  v.sourceBoundarySha256.all (fun sha => sha = input.enrollment.boundary.boundarySha256)

/-- How many devices of a vault are active at a time. -/
def activeDeviceCount (db : PairingDb) (vaultId : String) (now : Nat) : Nat :=
  (db.devices.filter (fun d =>
    d.vaultId = vaultId && d.status = .active && before now d.expiresAt)).length

/-- How many devices a vault has ever had. -/
def deviceCount (db : PairingDb) (vaultId : String) : Nat :=
  (db.devices.filter (fun d => d.vaultId = vaultId)).length

/-- The grants an enrollment may use. -/
def EnrollmentBatch.usable (input : EnrollmentBatch) (db : PairingDb) (g : GrantRow) : Bool :=
  g.grantHash = input.grantHash && g.usedAt = none && input.now < g.expiresAt &&
    db.vaults.any (fun v => v.id = g.vaultId && v.status ≠ .revoked && input.fits v) &&
    !db.devices.any (fun d => d.id = input.enrollment.deviceId ||
      d.enrollmentIdempotencyKey = input.enrollment.idempotencyKey) &&
    !db.devices.any (fun d => d.vaultId = g.vaultId &&
      d.rootFingerprintSha256 = input.enrollment.rootFingerprintSha256 && d.status = .active) &&
    deviceCount db g.vaultId < deviceHistoryLimit &&
    activeDeviceCount db g.vaultId input.now < activeDeviceLimit &&
    hasOrigin db g.grantHash input.deploymentUrl

def EnrollmentBatch.device (input : EnrollmentBatch) (g : GrantRow) : SourceDeviceRow :=
  { id := input.enrollment.deviceId
    vaultId := g.vaultId
    displayName := input.enrollment.displayName
    rootFingerprintSha256 := input.enrollment.rootFingerprintSha256
    boundary := input.enrollment.boundary
    boundarySha256 := input.enrollment.boundary.boundarySha256
    clientVersion := input.pluginVersion
    syncSchemaVersion := input.schemaVersion
    status := .active
    enrollmentIdempotencyKey := input.enrollment.idempotencyKey
    enrollmentRequestSha256 := input.requestSha256
    enrollmentGrantSha256 := input.grantHash
    enrollmentOriginSha256 := input.originSha256
    enrolledAt := input.now
    expiresAt := g.deviceExpiresAt
    revokedAt := none
    lastSeenAt := none
    lastPublishedAt := none
    lastPublishedStateVectorSha256 := none
    lastPublishedCredentialId := none
    lastPublishedSequence := none }

/-- The device of the grant that was used, while its vault has room for one. -/
def EnrollmentBatch.insertDevice (input : EnrollmentBatch) : PairingStatement :=
  fun db =>
    match exchangedGrant db input.grantHash input.exchangeId with
    | none => .ok (none, db)
    | some g =>
        if db.vaults.any (fun v => v.id = g.vaultId && input.fits v) &&
            activeDeviceCount db g.vaultId input.now < activeDeviceLimit then
          if !(before input.now g.deviceExpiresAt) then .error .checkConstraint
          else if admitsDevice db.devices (input.device g) then
            .ok (some g.vaultId, { db with devices := db.devices ++ [input.device g] })
          else .error .uniqueConstraint
        else .ok (none, db)

def EnrollmentBatch.credential (input : EnrollmentBatch) (db : PairingDb) (g : GrantRow) :
    Option CredentialRow :=
  if db.devices.any (fun d => d.id = input.enrollment.deviceId && d.vaultId = g.vaultId) then
    some {
      id := input.credentialId
      vaultId := g.vaultId
      tokenHash := input.enrollment.credentialSha256
      pluginVersion := input.pluginVersion
      schemaVersion := input.schemaVersion
      createdAt := input.now
      lastUsedAt := none
      revokedAt := none
      sourceDeviceId := some input.enrollment.deviceId }
  else none

/-- What pairing changes of a vault. -/
def EnrollmentBatch.pair (input : EnrollmentBatch) (v : VaultRow) : VaultRow :=
  { v with
    displayName := v.displayName.or (some input.vaultName)
    status := .active
    pairedAt := v.pairedAt.or (some input.now)
    sourceDescriptor := v.sourceDescriptor.or (some input.descriptor)
    sourceBoundary := v.sourceBoundary.or (some input.enrollment.boundary)
    sourceBoundarySha256 :=
      v.sourceBoundarySha256.or (some input.enrollment.boundary.boundarySha256) }

/-- The vault the grant was read for is paired, whatever became of the grant
    since. -/
def EnrollmentBatch.activateVault (input : EnrollmentBatch) : PairingStatement :=
  fun db =>
    .ok (if db.vaults.any (fun v => v.id = input.vaultId && input.fits v) then some input.vaultId
        else none,
      { db with
        vaults := Table.update (fun v => v.id = input.vaultId && input.fits v) input.pair
          db.vaults })

def EnrollmentBatch.statements (input : EnrollmentBatch) : List PairingStatement :=
  [redeemGrant input.usable input.now input.exchangeId,
    input.insertDevice,
    insertCredential input.grantHash input.exchangeId input.credential,
    input.activateVault,
    insertAuditEvent
      { id := input.auditId, eventType := "source.device_enrolled", requestId := input.requestId
        createdAt := input.now }
      (fun db => db.devices.any (fun d =>
        d.id = input.enrollment.deviceId && d.vaultId = input.vaultId))]

/-- What the creation of a grant writes. -/
structure GrantBatch where
  now : Nat
  requestId : String
  deploymentUrl : String
  grantHash : String
  vaultId : String
  newVault : Bool
  maxVaults : Option Nat
  deviceEnrollment : Bool
  deviceExpiresAt : Option Nat
  auditId : String

/-- Grants that have expired or been used are deleted, and their origins with
    them. -/
def deleteSpentGrants (now : Nat) : PairingStatement :=
  fun db =>
    let grants := db.grants.filter (fun g => !(g.expiresAt ≤ now || g.usedAt.isSome))
    .ok (none, { db with
      grants := grants
      origins := db.origins.filter (fun o => grants.any (fun g => g.grantHash = o.grantHash)) })

/-- Vaults that were never paired and cannot be any more are deleted. -/
def deleteAbandonedVaults : PairingStatement :=
  fun db =>
    .ok (none, { db with
      vaults := db.vaults.filter (fun v => !(v.status = .pending &&
        !db.grants.any (fun g => g.vaultId = v.id) &&
        !db.credentials.any (fun c => c.vaultId = v.id))) })

def GrantBatch.insertVault (input : GrantBatch) : PairingStatement :=
  fun db =>
    if input.maxVaults.all (fun limit =>
        (db.vaults.filter (fun v => v.status = .active || v.status = .pending)).length < limit)
    then
      if db.vaults.any (fun v => v.id = input.vaultId) then .error .uniqueConstraint
      else .ok (none, { db with
        vaults := db.vaults ++ [{
          id := input.vaultId
          displayName := none
          status := .pending
          createdAt := input.now
          pairedAt := none
          sourceDescriptor := none
          sourceBoundary := none
          sourceBoundarySha256 := none }] })
    else .ok (none, db)

def GrantBatch.grant (input : GrantBatch) : GrantRow :=
  { grantHash := input.grantHash
    vaultId := input.vaultId
    exchangeId := none
    createdAt := input.now
    expiresAt := input.now + pairingGrantLifetimeSeconds
    usedAt := none
    deviceEnrollment := input.deviceEnrollment
    deviceExpiresAt := input.deviceExpiresAt }

def GrantBatch.insertGrant (input : GrantBatch) : PairingStatement :=
  fun db =>
    if db.vaults.any (fun v => v.id = input.vaultId) then
      if !(before input.now input.deviceExpiresAt) then .error .checkConstraint
      else if db.grants.any (fun g => g.grantHash = input.grantHash) then .error .uniqueConstraint
      else .ok (some input.vaultId, { db with grants := db.grants ++ [input.grant] })
    else .ok (none, db)

def GrantBatch.insertOrigin (input : GrantBatch) : PairingStatement :=
  fun db =>
    if db.grants.any (fun g => g.grantHash = input.grantHash) then
      if db.origins.any (fun o => o.grantHash = input.grantHash) then .error .uniqueConstraint
      else .ok (none, { db with
        origins := db.origins ++ [{
          grantHash := input.grantHash, deploymentOrigin := input.deploymentUrl }] })
    else .ok (none, db)

/-- A grant, and the vault it is for where that is a new one. -/
def GrantBatch.statements (input : GrantBatch) : List PairingStatement :=
  [deleteSpentGrants input.now, deleteAbandonedVaults] ++
    (if input.newVault then [input.insertVault] else []) ++
    [input.insertGrant, input.insertOrigin,
      insertAuditEvent
        { id := input.auditId, eventType := "vault.pairing_grant_created"
          requestId := input.requestId, createdAt := input.now }
        (fun db => db.grants.any (fun g => g.grantHash = input.grantHash))]

/-- Which of its results says that the grant was created. -/
def GrantBatch.grantStatementIndex (input : GrantBatch) : Nat :=
  if input.newVault then 3 else 2

/-- What the confirmation of a synchronisation writes. -/
structure ConfirmationBatch where
  now : Nat
  requestId : String
  vaultId : String
  credential : CredentialRow
  pluginVersion : String
  schemaVersion : Nat
  auditId : String

def ConfirmationBatch.isOwn (input : ConfirmationBatch) (c : CredentialRow) : Bool :=
  c.id = input.credential.id && c.vaultId = input.vaultId && c.revokedAt.isNone

def ConfirmationBatch.touchCredential (input : ConfirmationBatch) : PairingStatement :=
  fun db =>
    .ok (if db.credentials.any input.isOwn then some input.vaultId else none, { db with
      credentials := Table.update input.isOwn
        (fun c => { c with
          pluginVersion := input.pluginVersion, schemaVersion := input.schemaVersion
          lastUsedAt := some input.now }) db.credentials })

/-- The credentials that a confirmation replaces: the older ones, unless it is
    a device that confirms. -/
def ConfirmationBatch.replaces (input : ConfirmationBatch) (c : CredentialRow) : Bool :=
  c.vaultId = input.vaultId && c.id ≠ input.credential.id && c.revokedAt.isNone &&
    c.createdAt < input.credential.createdAt && input.credential.sourceDeviceId.isNone

def ConfirmationBatch.revokeOthers (input : ConfirmationBatch) : PairingStatement :=
  fun db =>
    .ok (none, { db with
      credentials := Table.update input.replaces
        (fun c => { c with revokedAt := c.revokedAt.or (some input.now) }) db.credentials })

def ConfirmationBatch.statements (input : ConfirmationBatch) : List PairingStatement :=
  [input.touchCredential, input.revokeOthers,
    insertAuditEvent
      { id := input.auditId, eventType := "vault.initial_sync_confirmed"
        requestId := input.requestId, createdAt := input.now }
      (fun db => db.credentials.any input.isOwn)]

/-- What a device that has published writes. -/
structure PublicationBatch where
  now : Nat
  requestId : String
  vaultId : String
  deviceId : String
  credentialId : String
  stateVectorSha256 : String
  auditId : String

def PublicationBatch.publishes (input : PublicationBatch) (db : PairingDb)
    (d : SourceDeviceRow) : Bool :=
  d.id = input.deviceId && d.vaultId = input.vaultId && d.status = .active &&
    before input.now d.expiresAt &&
    db.credentials.any (fun c => c.id = input.credentialId && c.vaultId = d.vaultId &&
      c.sourceDeviceId = some d.id && c.revokedAt.isNone)

/-- The number of a vault's next publication. -/
def nextPublication (db : PairingDb) (vaultId : String) : Nat :=
  ((db.devices.filter (fun d => d.vaultId = vaultId)).filterMap
    SourceDeviceRow.lastPublishedSequence).foldl max 0 + 1

def PublicationBatch.markPublished (input : PublicationBatch) : PairingStatement :=
  fun db =>
    .ok (if db.devices.any (input.publishes db) then some input.deviceId else none, { db with
      devices := Table.update (input.publishes db)
        (fun d => { d with
          lastSeenAt := some input.now
          lastPublishedAt := some input.now
          lastPublishedStateVectorSha256 := some input.stateVectorSha256
          lastPublishedCredentialId := some input.credentialId
          lastPublishedSequence := some (nextPublication db input.vaultId) }) db.devices })

def PublicationBatch.statements (input : PublicationBatch) : List PairingStatement :=
  [input.markPublished,
    insertAuditEvent
      { id := input.auditId, eventType := "source.device_published"
        requestId := input.requestId, createdAt := input.now }
      (fun db => db.devices.any (fun d => d.id = input.deviceId && d.vaultId = input.vaultId &&
        d.lastPublishedStateVectorSha256 = some input.stateVectorSha256))]

/-- What a revocation writes, of a vault or of one of its devices. -/
structure RevocationBatch where
  now : Nat
  requestId : String
  vaultId : String
  auditId : String

def RevocationBatch.revokeVault (input : RevocationBatch) : PairingStatement :=
  fun db =>
    .ok ((vaultOf db input.vaultId).map VaultRow.id, { db with
      vaults := Table.update (fun v => v.id = input.vaultId)
        (fun v => { v with status := .revoked }) db.vaults })

def RevocationBatch.revokeCredentials (input : RevocationBatch) (concerned : CredentialRow → Bool) :
    PairingStatement :=
  fun db =>
    .ok (none, { db with
      credentials := Table.update (fun c => concerned c && c.vaultId = input.vaultId)
        (fun c => { c with revokedAt := c.revokedAt.or (some input.now) }) db.credentials })

def RevocationBatch.revokeDevices (input : RevocationBatch) (concerned : SourceDeviceRow → Bool) :
    PairingStatement :=
  fun db =>
    .ok ((db.devices.find? (fun d => concerned d && d.vaultId = input.vaultId)).map
        SourceDeviceRow.id, { db with
      devices := Table.update (fun d => concerned d && d.vaultId = input.vaultId)
        (fun d => { d with status := .revoked, revokedAt := d.revokedAt.or (some input.now) })
        db.devices })

def RevocationBatch.vaultStatements (input : RevocationBatch) : List PairingStatement :=
  [input.revokeVault, input.revokeCredentials (fun _ => true), input.revokeDevices (fun _ => true),
    insertAuditEvent
      { id := input.auditId, eventType := "vault.revoked", requestId := input.requestId
        createdAt := input.now }
      (fun db => db.vaults.any (fun v => v.id = input.vaultId))]

def RevocationBatch.deviceStatements (input : RevocationBatch) (deviceId : String) :
    List PairingStatement :=
  [input.revokeDevices (fun d => d.id = deviceId && d.status = .active),
    input.revokeCredentials (fun c => c.sourceDeviceId = some deviceId),
    insertAuditEvent
      { id := input.auditId, eventType := "source.device_revoked", requestId := input.requestId
        createdAt := input.now }
      (fun db => db.devices.any (fun d => d.id = deviceId && d.vaultId = input.vaultId))]

/-! ## Requests -/

/-- What an enrollment reads of the grant it is given. -/
structure DeviceGrant where
  vaultId : String
  vaultStatus : VaultStatus
  deviceEnrollment : Bool
  deviceExpiresAt : Option Nat
  sourceBoundary : Option SourceBoundary
  sourceBoundarySha256 : Option String
  sourceDescriptor : Option SourceDescriptor

inductive PairingOp
  | readSourceDeviceByEnrollmentKey (idempotencyKey : String)
  | readDeviceGrant (grantHash deploymentUrl : String) (now : Nat)
  | readDeviceConflict (deviceId idempotencyKey : String)
  | countSourceDevices (vaultId : String)
  | enrollDevice (input : EnrollmentBatch)
  | readGrantDescriptor (grantHash deploymentUrl : String) (now : Nat)
  | exchange (input : ExchangeBatch)
  | readActiveVault (vaultId : String)
  | createGrant (input : GrantBatch)
  | readVaultCredential (vaultId tokenHash : String) (now : Nat)
  | readVaultCredentialById (vaultId credentialId : String) (now : Nat)
  | confirmSync (input : ConfirmationBatch)
  | markPublished (input : PublicationBatch)
  | revokeVault (input : RevocationBatch)
  | revokeDevice (input : RevocationBatch) (deviceId : String)

/-- What a request returns. -/
abbrev PairingOp.Ret : PairingOp → Type
  | .readSourceDeviceByEnrollmentKey _ => Option SourceDeviceRow
  | .readDeviceGrant _ _ _ => Option DeviceGrant
  | .readDeviceConflict _ _ | .readActiveVault _ => Bool
  | .countSourceDevices _ => Nat
  | .readGrantDescriptor _ _ _ => Option (Option SourceDescriptor)
  | .readVaultCredential _ _ _ | .readVaultCredentialById _ _ _ => Option CredentialRow
  | _ => List (Option String)

/-- The grant that can still be exchanged, and its vault. -/
def openGrant (db : PairingDb) (grantHash deploymentUrl : String) (now : Nat) :
    Option (GrantRow × VaultRow) :=
  (db.grants.find? (fun g => g.grantHash = grantHash && g.usedAt = none && now < g.expiresAt &&
    hasOrigin db grantHash deploymentUrl)).bind (fun g =>
      (vaultOf db g.vaultId).map (fun v => (g, v)))

/-- The credential of a vault that is accepted at a time, if `named` names
    one. -/
def findCredential (db : PairingDb) (vaultId : String) (named : CredentialRow → Bool) (now : Nat) :
    Option CredentialRow :=
  db.credentials.find? (fun c => c.vaultId = vaultId && named c && acceptedCredential db now c)

/-- Send a batch. -/
def batch (statements : List PairingStatement) (db : PairingDb) :
    Except PairingError (List (Option String) × PairingDb) :=
  Batch.run statements db

/-- What a request does by itself. -/
def effect (db : PairingDb) : (op : PairingOp) → Except PairingError (op.Ret × PairingDb)
  | .readSourceDeviceByEnrollmentKey key =>
      .ok (db.devices.find? (fun d => d.enrollmentIdempotencyKey = key), db)
  | .readDeviceGrant grantHash deploymentUrl now =>
      .ok ((openGrant db grantHash deploymentUrl now).map (fun gv =>
        { vaultId := gv.1.vaultId
          vaultStatus := gv.2.status
          deviceEnrollment := gv.1.deviceEnrollment
          deviceExpiresAt := gv.1.deviceExpiresAt
          sourceBoundary := gv.2.sourceBoundary
          sourceBoundarySha256 := gv.2.sourceBoundarySha256
          sourceDescriptor := gv.2.sourceDescriptor }), db)
  | .readDeviceConflict deviceId key =>
      .ok (db.devices.any (fun d => d.id = deviceId || d.enrollmentIdempotencyKey = key), db)
  | .countSourceDevices vaultId => .ok (deviceCount db vaultId, db)
  | .enrollDevice input => batch input.statements db
  | .readGrantDescriptor grantHash deploymentUrl now =>
      .ok ((openGrant db grantHash deploymentUrl now).map (fun gv => gv.2.sourceDescriptor), db)
  | .exchange input => batch input.statements db
  | .readActiveVault vaultId => .ok (statusOf db vaultId = some .active, db)
  | .createGrant input => batch input.statements db
  | .readVaultCredential vaultId tokenHash now =>
      .ok (findCredential db vaultId (fun c => c.tokenHash = tokenHash) now, db)
  | .readVaultCredentialById vaultId credentialId now =>
      .ok (findCredential db vaultId (fun c => c.id = credentialId) now, db)
  | .confirmSync input => batch input.statements db
  | .markPublished input => batch input.statements db
  | .revokeVault input => batch input.vaultStatements db
  | .revokeDevice input deviceId => batch (input.deviceStatements deviceId) db

/-- A request, under what becomes of it. -/
def exec (op : PairingOp) (w : Batch.Outcome) (db : PairingDb) :
    Except PairingError op.Ret × PairingDb :=
  Batch.send .unavailable w (fun db => effect db op) db

/-! ## Functions -/

/-- A function of the deployment. -/
abbrev PairingProcess (α : Type) : Type :=
  Process PairingOp (fun op => Except PairingError op.Ret) PairingError α

def ask (op : PairingOp) : PairingProcess op.Ret :=
  Process.request op

inductive DeviceStanding
  | active | revoked | expired

/-- What is told of a device. -/
structure SourceDeviceSummary where
  deviceId : String
  displayName : String
  standing : DeviceStanding
  boundary : SourceBoundary
  enrolledAt : Nat
  expiresAt : Option Nat
  revokedAt : Option Nat
  lastSeenAt : Option Nat
  lastPublishedAt : Option Nat
  lastPublishedStateVectorSha256 : Option String

def summary (row : SourceDeviceRow) (now : Nat) : SourceDeviceSummary :=
  { deviceId := row.id
    displayName := row.displayName
    standing :=
      if row.status = .revoked then .revoked
      else if before now row.expiresAt then .active
      else .expired
    boundary := row.boundary
    enrolledAt := row.enrolledAt
    expiresAt := row.expiresAt
    revokedAt := row.revokedAt
    lastSeenAt := row.lastSeenAt
    lastPublishedAt := row.lastPublishedAt
    lastPublishedStateVectorSha256 := row.lastPublishedStateVectorSha256 }

/-- What an exchange answers: a credential of its own making, or that the
    credential the client made was accepted for a device. -/
inductive PairingExchangeResponse
  | credential (deploymentUrl vaultId token : String)
  | accepted (deploymentUrl vaultId : String) (sourceDevice : SourceDeviceSummary)

/-- A request to exchange a grant, as it arrives, and what is drawn for it. -/
structure ExchangeInput where
  request : PairingExchangeRequest
  deploymentUrl : String
  now : Nat
  requestId : String
  token : String
  exchangeId : String
  credentialId : String
  auditId : String

section Functions

variable (sha256Hex : String → String)

def storedSourceDescriptor (input : Option SourceDescriptorInput) (now : Nat) :
    Option SourceDescriptor :=
  input.map (fun d => { d with
    pairedAt := now, descriptorSha256 := sha256Hex (Json.stringify (descriptorJson d)) })

/-- A boundary has the hash it says it has. -/
def verifySourceBoundary (boundary : SourceBoundary) : Except PairingError SourceBoundary :=
  if sha256Hex (canonicalBoundary boundary) = boundary.boundarySha256 then .ok boundary
  else .error .sourceBoundaryInvalid

/-- The hash an enrollment is recognised by. -/
def ExchangeInput.requestSha256 (input : ExchangeInput) (enrollment : SourceDeviceEnrollment) :
    String :=
  sha256Hex (requestText (sha256Hex input.request.grant) (sha256Hex input.deploymentUrl)
    input.request enrollment)

/-- A device that was enrolled before is recognised by all that was sent
    then. -/
def ExchangeInput.recognises (input : ExchangeInput) (enrollment : SourceDeviceEnrollment)
    (d : SourceDeviceRow) : Bool :=
  d.enrollmentGrantSha256 = sha256Hex input.request.grant &&
    d.enrollmentOriginSha256 = sha256Hex input.deploymentUrl &&
    d.enrollmentRequestSha256 = input.requestSha256 sha256Hex enrollment

/-- What an enrollment checks of the grant and its vault before it is written. -/
def checkDeviceGrant (grant : DeviceGrant) (descriptor : Option SourceDescriptor)
    (boundary : SourceBoundary) : Except PairingError SourceDescriptor :=
  if grant.vaultStatus = .active ∧ grant.deviceEnrollment = false then .error .sourceDeviceDenied
  else
    match descriptor with
    | none => .error .sourceBoundaryMismatch
    | some d =>
        if d.sourceKind ≠ boundary.sourceKind ∨ d.capabilities ≠ boundary.capabilities then
          .error .sourceBoundaryMismatch
        else if grant.sourceDescriptor.any (fun stored =>
            stored.sourceKind ≠ d.sourceKind || stored.capabilities ≠ d.capabilities) then
          .error .sourceBoundaryMismatch
        else if grant.sourceBoundarySha256.any (fun sha => sha ≠ boundary.boundarySha256) then
          .error .sourceBoundaryMismatch
        else
          match grant.sourceBoundary with
          | none => .ok d
          | some stored =>
              match verifySourceBoundary sha256Hex stored with
              | .error e => .error e
              | .ok parsed =>
                  if parsed.boundarySha256 ≠ boundary.boundarySha256 then
                    .error .sourceBoundaryMismatch
                  else .ok d

def ExchangeInput.enrollmentBatch (input : ExchangeInput) (enrollment : SourceDeviceEnrollment)
    (descriptor : SourceDescriptor) (vaultId : String) : EnrollmentBatch :=
  { now := input.now
    requestId := input.requestId
    deploymentUrl := input.deploymentUrl
    grantHash := sha256Hex input.request.grant
    exchangeId := input.exchangeId
    credentialId := input.credentialId
    auditId := input.auditId
    vaultId := vaultId
    vaultName := input.request.vaultName
    pluginVersion := input.request.pluginVersion
    schemaVersion := input.request.schemaVersion
    descriptor := descriptor
    enrollment := enrollment
    requestSha256 := input.requestSha256 sha256Hex enrollment
    originSha256 := sha256Hex input.deploymentUrl }

def ExchangeInput.accepted (input : ExchangeInput) (vaultId : String) (d : SourceDeviceRow) :
    PairingExchangeResponse :=
  .accepted input.deploymentUrl vaultId (summary d input.now)

/-- Send the enrollment, and find out what became of it. -/
def enrollDevice (input : ExchangeInput) (enrollment : SourceDeviceEnrollment)
    (descriptor : SourceDescriptor) (vaultId : String) :
    PairingProcess (Option PairingExchangeResponse) := do
  let results ← Process.tryCatch
    (ask (.enrollDevice (input.enrollmentBatch sha256Hex enrollment descriptor vaultId)))
    (fun e => Process.ofExcept (.error
      (if e = .uniqueConstraint then .sourceDeviceConflict else e)))
  if results.take 4 = List.replicate 4 (some vaultId) then do
    let enrolled ← ask (.readSourceDeviceByEnrollmentKey enrollment.idempotencyKey)
    pure (enrolled.map (fun d => input.accepted vaultId d))
  else do
    let raced ← ask (.readSourceDeviceByEnrollmentKey enrollment.idempotencyKey)
    match raced with
    | none => pure none
    | some d =>
        if d.vaultId = vaultId && input.recognises sha256Hex enrollment d then
          pure (some (input.accepted d.vaultId d))
        else throw .idempotencyConflict

/-- Exchange a grant for a device of its own. -/
def exchangeSourceDeviceGrant (input : ExchangeInput) (enrollment : SourceDeviceEnrollment)
    (descriptor : Option SourceDescriptor) :
    PairingProcess (Option PairingExchangeResponse) := do
  let boundary ← Process.ofExcept (verifySourceBoundary sha256Hex enrollment.boundary)
  let replay ← ask (.readSourceDeviceByEnrollmentKey enrollment.idempotencyKey)
  match replay with
  | some d =>
      if input.recognises sha256Hex enrollment d then pure (some (input.accepted d.vaultId d))
      else throw .idempotencyConflict
  | none => do
      let grant ←
        ask (.readDeviceGrant (sha256Hex input.request.grant) input.deploymentUrl input.now)
      match grant with
      | none => pure none
      | some grant =>
          if grant.vaultStatus = .revoked then pure none
          else do
            let d ← Process.ofExcept (checkDeviceGrant sha256Hex grant descriptor boundary)
            let conflict ← ask (.readDeviceConflict enrollment.deviceId enrollment.idempotencyKey)
            if conflict then throw .sourceDeviceConflict
            else do
              let count ← ask (.countSourceDevices grant.vaultId)
              if deviceHistoryLimit ≤ count then throw .sourceDeviceLimit
              else enrollDevice sha256Hex input enrollment d grant.vaultId

def ExchangeInput.exchangeBatch (input : ExchangeInput) (descriptor : Option SourceDescriptor) :
    ExchangeBatch :=
  { now := input.now
    requestId := input.requestId
    deploymentUrl := input.deploymentUrl
    grantHash := sha256Hex input.request.grant
    exchangeId := input.exchangeId
    credentialId := input.credentialId
    auditId := input.auditId
    tokenHash := sha256Hex input.token
    vaultName := input.request.vaultName
    pluginVersion := input.request.pluginVersion
    schemaVersion := input.request.schemaVersion
    descriptor := descriptor }

/-- Exchange a grant for a credential, with a device or without one. -/
def exchangePairingGrant (input : ExchangeInput) :
    PairingProcess (Option PairingExchangeResponse) := do
  let descriptor := storedSourceDescriptor sha256Hex input.request.sourceDescriptor input.now
  match input.request.sourceDevice with
  | some enrollment => exchangeSourceDeviceGrant sha256Hex input enrollment descriptor
  | none => do
      let current ←
        ask (.readGrantDescriptor (sha256Hex input.request.grant) input.deploymentUrl input.now)
      match current with
      | none => pure none
      | some existing =>
          if existing.isSome ∧ descriptor.isSome ∧
              existing.map SourceDescriptor.descriptorSha256 ≠
                descriptor.map SourceDescriptor.descriptorSha256 then
            pure none
          else do
            let results ← ask (.exchange (input.exchangeBatch sha256Hex descriptor))
            pure ((results[0]?).join.map (fun vaultId =>
              .credential input.deploymentUrl vaultId input.token))

/-- A request for a grant, and what is drawn for it. -/
structure CreateGrantInput where
  deploymentUrl : String
  now : Nat
  requestId : String
  maxVaults : Option Nat
  vaultId : Option String
  deviceEnrollment : Bool
  deviceExpiresAt : Option Nat
  newVaultId : String
  grant : String
  auditId : String

def CreateGrantInput.grantBatch (input : CreateGrantInput) : GrantBatch :=
  { now := input.now
    requestId := input.requestId
    deploymentUrl := input.deploymentUrl
    grantHash := sha256Hex input.grant
    vaultId := input.vaultId.getD input.newVaultId
    newVault := input.vaultId.isNone
    maxVaults := input.maxVaults
    deviceEnrollment := input.deviceEnrollment
    deviceExpiresAt := input.deviceExpiresAt
    auditId := input.auditId }

/-- What the links that pair with a vault carry. -/
structure PairingGrantResponse where
  vaultId : String
  deploymentUrl : String
  grant : String
  expiresAt : Nat

/-- Create a grant, for a new vault or for one that is active. -/
def createPairingGrant (input : CreateGrantInput) :
    PairingProcess (Option PairingGrantResponse) := do
  let found ← match input.vaultId with
    | none => pure true
    | some vaultId => ask (.readActiveVault vaultId)
  if found then do
    let written := input.grantBatch sha256Hex
    let results ← ask (.createGrant written)
    if (results[written.grantStatementIndex]?).join = some written.vaultId then
      pure (some {
        vaultId := written.vaultId
        deploymentUrl := input.deploymentUrl
        grant := input.grant
        expiresAt := input.now + pairingGrantLifetimeSeconds })
    else pure none
  else pure none

/-- A client confirms that it has synchronised. -/
structure ConfirmInput where
  vaultId : String
  credentialToken : String
  now : Nat
  requestId : String
  pluginVersion : String
  schemaVersion : Nat
  stateVectorSha256 : String
  auditId : String
  publicationAuditId : String

/-- Confirm that the client of a credential has synchronised. -/
def confirmVaultSync (input : ConfirmInput) (credential : CredentialRow) :
    PairingProcess Bool := do
  let results ← ask (.confirmSync {
    now := input.now
    requestId := input.requestId
    vaultId := input.vaultId
    credential := credential
    pluginVersion := input.pluginVersion
    schemaVersion := input.schemaVersion
    auditId := input.auditId })
  if (results[0]?).join = some input.vaultId then
    match credential.sourceDeviceId with
    | none => pure true
    | some deviceId => do
        let published ← ask (.markPublished {
          now := input.now
          requestId := input.requestId
          vaultId := input.vaultId
          deviceId := deviceId
          credentialId := credential.id
          stateVectorSha256 := input.stateVectorSha256
          auditId := input.publicationAuditId })
        pure ((published[0]?).join = some deviceId)
  else pure false

/-- The route that confirms, which reads the credential first. -/
def confirmRoute (input : ConfirmInput) : PairingProcess Bool := do
  let credential ←
    ask (.readVaultCredential input.vaultId (sha256Hex input.credentialToken) input.now)
  match credential with
  | none => pure false
  | some credential => confirmVaultSync input credential

/-- The calls the deployment receives. -/
inductive PairingCall
  | createPairingGrant (input : CreateGrantInput)
  | exchangePairingGrant (input : ExchangeInput)
  | confirmVaultSync (input : ConfirmInput)
  | revokeVault (input : RevocationBatch)
  | revokeSourceDevice (input : RevocationBatch) (deviceId : String)
  | readVaultCredential (vaultId tokenHash : String) (now : Nat)
  | readVaultCredentialById (vaultId credentialId : String) (now : Nat)

inductive PairingAnswer
  | granted (response : Option PairingGrantResponse)
  | exchanged (response : Option PairingExchangeResponse)
  | done (success : Bool)
  | credential (record : Option CredentialRow)

def PairingCall.process : PairingCall → PairingProcess PairingAnswer
  | .createPairingGrant input => do
      let response ← Pairing.createPairingGrant sha256Hex input
      pure (.granted response)
  | .exchangePairingGrant input => do
      let response ← Pairing.exchangePairingGrant sha256Hex input
      pure (.exchanged response)
  | .confirmVaultSync input => do
      let confirmed ← confirmRoute sha256Hex input
      pure (.done confirmed)
  | .revokeVault input => do
      let results ← ask (.revokeVault input)
      pure (.done ((results[0]?).join = some input.vaultId))
  | .revokeSourceDevice input deviceId => do
      let results ← ask (.revokeDevice input deviceId)
      pure (.done ((results[0]?).join = some deviceId))
  | .readVaultCredential vaultId tokenHash now => do
      let record ← ask (.readVaultCredential vaultId tokenHash now)
      pure (.credential record)
  | .readVaultCredentialById vaultId credentialId now => do
      let record ← ask (.readVaultCredentialById vaultId credentialId now)
      pure (.credential record)

end Functions

/-- The tables and the calls that work on them. -/
abbrev PairingPool (ι : Type) : Type :=
  Pool ι PairingOp (fun op => Except PairingError op.Ret) PairingDb PairingError PairingAnswer

/-- Any calls, about to begin. -/
def startPool {ι : Type} (sha256Hex : String → String) (calls : ι → PairingCall)
    (db : PairingDb) : PairingPool ι :=
  { shared := db, calls := fun i => (calls i).process sha256Hex }

end Mdevolved.Pairing
