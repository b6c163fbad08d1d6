import Mdevolved.Lib.Json
import Mdevolved.Lib.Table

/-!
# Pairing Tables

The tables that decide who may synchronise a vault: vaults, the single-use
grants that pair with one, the deployment each grant was issued for, the
credentials that pairing leaves behind, and the source devices they belong to.

A column that holds the text of a descriptor or of a boundary holds the value
here, since nothing but a valid one is ever written to it. The rows of a table
stand in the order they were inserted.

## Main definitions

* `PairingDb`: The tables.
* `PairingExchangeRequest`: What a client sends to pair.
* `requestText`: The texts that are hashed.
* `admitsCredential`, `admitsDevice`: What the unique indexes allow.
* `acceptedCredential`: Whether a credential is accepted at a time.
-/

namespace Mdevolved.Pairing

inductive SourceKind
  | folder | obsidian
  deriving DecidableEq

inductive SourceCapability
  | markdown | attachments | editorIntegration | watch
  deriving DecidableEq

def SourceKind.text : SourceKind → String
  | .folder => "folder"
  | .obsidian => "obsidian"

def SourceCapability.text : SourceCapability → String
  | .markdown => "markdown"
  | .attachments => "attachments"
  | .editorIntegration => "editor-integration"
  | .watch => "watch"

/-- What a client says of its source. -/
structure SourceDescriptorInput where
  sourceKind : SourceKind
  label : String
  capabilities : List SourceCapability
  clientVersion : String
  syncSchemaVersion : Nat
  deriving DecidableEq

/-- The same, with when it was paired and the hash of its text. -/
structure SourceDescriptor extends SourceDescriptorInput where
  pairedAt : Nat
  descriptorSha256 : String
  deriving DecidableEq

/-- What of a source is synchronised. -/
structure SourceBoundary where
  sourceKind : SourceKind
  capabilities : List SourceCapability
  boundarySha256 : String
  deriving DecidableEq

structure SourceDeviceEnrollment where
  deviceId : String
  displayName : String
  rootFingerprintSha256 : String
  boundary : SourceBoundary
  credentialSha256 : String
  idempotencyKey : String

structure PairingExchangeRequest where
  grant : String
  vaultName : String
  pluginVersion : String
  schemaVersion : Nat
  sourceDescriptor : Option SourceDescriptorInput
  sourceDevice : Option SourceDeviceEnrollment

/-! ## Texts that are hashed -/

def capabilitiesJson (capabilities : List SourceCapability) : Json :=
  .arr (capabilities.map (fun c => .str c.text))

/-- The members of a boundary that its hash is over. -/
def boundaryMembers (sourceKind : SourceKind) (capabilities : List SourceCapability) :
    List (String × Json) :=
  [("version", .num (Decimal.ofNat 1)), ("root", .str "."),
    ("pathPolicy", .str "mdevolved-markdown-v1"), ("sourceKind", .str sourceKind.text),
    ("capabilities", capabilitiesJson capabilities)]

def canonicalBoundary (boundary : SourceBoundary) : String :=
  Json.stringify (.obj (boundaryMembers boundary.sourceKind boundary.capabilities))

def descriptorJson (input : SourceDescriptorInput) : Json :=
  .obj [("sourceKind", .str input.sourceKind.text), ("label", .str input.label),
    ("capabilities", capabilitiesJson input.capabilities),
    ("clientVersion", .str input.clientVersion),
    ("syncSchemaVersion", .num (Decimal.ofNat input.syncSchemaVersion))]

def enrollmentJson (enrollment : SourceDeviceEnrollment) : Json :=
  .obj [("contractVersion", .num (Decimal.ofNat 1)), ("deviceId", .str enrollment.deviceId),
    ("displayName", .str enrollment.displayName),
    ("rootFingerprintSha256", .str enrollment.rootFingerprintSha256),
    ("boundary", .obj (boundaryMembers enrollment.boundary.sourceKind
      enrollment.boundary.capabilities ++
        [("boundarySha256", .str enrollment.boundary.boundarySha256)])),
    ("credentialSha256", .str enrollment.credentialSha256),
    ("idempotencyKey", .str enrollment.idempotencyKey)]

/-- The text an enrollment is recognised by. A descriptor that was not sent has
    no member. -/
def requestText (grantSha256 originSha256 : String) (request : PairingExchangeRequest)
    (enrollment : SourceDeviceEnrollment) : String :=
  Json.stringify (.obj ([("grantSha256", .str grantSha256), ("originSha256", .str originSha256),
    ("vaultName", .str request.vaultName), ("pluginVersion", .str request.pluginVersion),
    ("schemaVersion", .num (Decimal.ofNat request.schemaVersion))] ++
    (request.sourceDescriptor.map (fun d => ("sourceDescriptor", descriptorJson d))).toList ++
    [("sourceDevice", enrollmentJson enrollment)]))

/-! ## Tables -/

inductive VaultStatus
  | pending | active | revoked
  deriving DecidableEq

inductive DeviceStatus
  | active | revoked
  deriving DecidableEq

structure VaultRow where
  id : String
  displayName : Option String
  status : VaultStatus
  createdAt : Nat
  pairedAt : Option Nat
  sourceDescriptor : Option SourceDescriptor
  sourceBoundary : Option SourceBoundary
  sourceBoundarySha256 : Option String
  deriving DecidableEq

structure GrantRow where
  grantHash : String
  vaultId : String
  exchangeId : Option String
  createdAt : Nat
  expiresAt : Nat
  usedAt : Option Nat
  deviceEnrollment : Bool
  deviceExpiresAt : Option Nat
  deriving DecidableEq

structure GrantOriginRow where
  grantHash : String
  deploymentOrigin : String
  deriving DecidableEq

structure CredentialRow where
  id : String
  vaultId : String
  tokenHash : String
  pluginVersion : String
  schemaVersion : Nat
  createdAt : Nat
  lastUsedAt : Option Nat
  revokedAt : Option Nat
  sourceDeviceId : Option String
  deriving DecidableEq

structure SourceDeviceRow where
  id : String
  vaultId : String
  displayName : String
  rootFingerprintSha256 : String
  boundary : SourceBoundary
  boundarySha256 : String
  clientVersion : String
  syncSchemaVersion : Nat
  status : DeviceStatus
  enrollmentIdempotencyKey : String
  enrollmentRequestSha256 : String
  enrollmentGrantSha256 : String
  enrollmentOriginSha256 : String
  enrolledAt : Nat
  expiresAt : Option Nat
  revokedAt : Option Nat
  lastSeenAt : Option Nat
  lastPublishedAt : Option Nat
  lastPublishedStateVectorSha256 : Option String
  lastPublishedCredentialId : Option String
  lastPublishedSequence : Option Nat
  deriving DecidableEq

structure AuditEventRow where
  id : String
  eventType : String
  requestId : String
  createdAt : Nat
  deriving DecidableEq

structure PairingDb where
  vaults : List VaultRow
  grants : List GrantRow
  origins : List GrantOriginRow
  credentials : List CredentialRow
  devices : List SourceDeviceRow
  auditEvents : List AuditEventRow
  deriving DecidableEq

/-- A deployment nobody has paired with. -/
def emptyDb : PairingDb :=
  { vaults := [], grants := [], origins := [], credentials := [], devices := [],
    auditEvents := [] }

/-- What a request to the store ends with where it does not go through. -/
inductive PairingError
  | sourceBoundaryInvalid | sourceBoundaryMismatch | sourceDeviceConflict | sourceDeviceLimit
  | idempotencyConflict | sourceDeviceDenied
  | uniqueConstraint | checkConstraint | unavailable
  deriving DecidableEq

/-! ## Constraints -/

/-- A credential has an identifier, a token and, while it is not revoked, a
    device of its own. -/
def admitsCredential (rows : List CredentialRow) (row : CredentialRow) : Bool :=
  rows.all (fun r => r.id ≠ row.id && r.tokenHash ≠ row.tokenHash &&
    (row.sourceDeviceId.isNone || r.sourceDeviceId ≠ row.sourceDeviceId ||
      row.revokedAt.isSome || r.revokedAt.isSome))

/-- A device has an identifier, an idempotency key and, while it is active, the
    root of its vault to itself. -/
def admitsDevice (rows : List SourceDeviceRow) (row : SourceDeviceRow) : Bool :=
  rows.all (fun r => r.id ≠ row.id &&
    r.enrollmentIdempotencyKey ≠ row.enrollmentIdempotencyKey &&
    (r.vaultId ≠ row.vaultId || r.rootFingerprintSha256 ≠ row.rootFingerprintSha256 ||
      r.status ≠ .active || row.status ≠ .active))

/-- Whether a time is before an end, where there is one. -/
def before (now : Nat) (expiresAt : Option Nat) : Bool :=
  expiresAt.all (fun e => now < e)

def vaultOf (db : PairingDb) (vaultId : String) : Option VaultRow :=
  db.vaults.find? (fun v => v.id = vaultId)

def statusOf (db : PairingDb) (vaultId : String) : Option VaultStatus :=
  (vaultOf db vaultId).map VaultRow.status

/-- Whether a device of a vault is active at a time. -/
def activeDevice (db : PairingDb) (deviceId vaultId : String) (now : Nat) : Bool :=
  db.devices.any (fun d => d.id = deviceId && d.vaultId = vaultId && d.status = .active &&
    before now d.expiresAt)

/-- Whether a credential is accepted at a time: it is not revoked, nor is its
    vault, and its device is active if it has one. -/
def acceptedCredential (db : PairingDb) (now : Nat) (c : CredentialRow) : Bool :=
  c.revokedAt.isNone && c.sourceDeviceId.all (fun d => activeDevice db d c.vaultId now) &&
    statusOf db c.vaultId = some .active

end Mdevolved.Pairing
