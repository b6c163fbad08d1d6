import Mdevolved.Lib.Run
import Mdevolved.Lib.Table

/-!
# Claiming a Deployment

The tables that decide who owns a deployment, and the functions that lead to a
first owner. A browser asks for a challenge, answers it, and is committed as the
owner. A managed deployment is claimed by invitation only: a challenge is bound
to an invitation when it is created, and the commit looks for that binding again
before it uses the invitation up.

Each function sends one request to the database. A batch is one request whose
statements all take effect or none, so that a function is what that request does,
after what the function checks of its input. `changes` is the number of rows
that the last statement has changed, which two statements of a commit read.

A column that holds the text of a list or of a key holds the value here.

## Main definitions

* `AuthDb`: The tables.
* `createChallenge`, `consumeChallenge`, `commitFirstOwner`: The ceremony.
* `installManagedOwnerInvitation`: What an operator does to invite an owner.
* `AuthOp`, `effect`, `step`: The functions as requests, and what they do.
-/

namespace Mdevolved.Auth

inductive Ceremony
  | authentication | registration
  deriving DecidableEq

inductive DeviceType
  | singleDevice | multiDevice
  deriving DecidableEq

/-! ## Tables -/

/-- The owner, whose identifier can only be 1. -/
structure OwnerRow where
  id : Nat
  webauthnUserId : String
  credentialId : String
  publicKey : List UInt8
  counter : Nat
  transports : List String
  deviceType : DeviceType
  backedUp : Bool
  createdAt : Nat
  lastAuthenticatedAt : Option Nat
  deriving DecidableEq

structure OwnerCredentialRow where
  credentialId : String
  ownerId : Nat
  webauthnUserId : String
  publicKey : List UInt8
  counter : Nat
  transports : List String
  deviceType : DeviceType
  backedUp : Bool
  createdAt : Nat
  lastAuthenticatedAt : Option Nat

structure AuthChallengeRow where
  flowHash : String
  ceremony : Ceremony
  challenge : String
  webauthnUserId : Option String
  expectedOrigin : String
  expectedRpId : String
  createdAt : Nat
  expiresAt : Nat
  usedAt : Option Nat

structure SessionRow where
  tokenHash : String
  ownerId : Nat
  csrfHash : String
  createdAt : Nat
  expiresAt : Nat

structure AuthRateLimitRow where
  keyHash : String
  action : String
  bucketStart : Nat
  count : Nat
  updatedAt : Nat

structure AuditEventRow where
  id : String
  eventType : String
  requestId : String
  createdAt : Nat

/-- What a managed deployment is configured to. There is at most one such row. -/
structure OwnerClaimConfigurationRow where
  expectedHostname : String
  trialDays : Nat
  configuredAt : Nat
  claimedAt : Option Int

structure OwnerClaimInvitationRow where
  tokenHash : String
  invitationRef : String
  expectedHostname : String
  createdAt : Nat
  expiresAt : Nat
  consumedAt : Option Nat

/-- A challenge that was created for an invitation. -/
structure OwnerClaimChallengeRow where
  flowHash : String
  webauthnUserId : String
  invitationTokenHash : String
  expectedHostname : String
  expiresAt : Nat

structure AuthDb where
  owners : List OwnerRow
  credentials : List OwnerCredentialRow
  challenges : List AuthChallengeRow
  sessions : List SessionRow
  rateLimits : List AuthRateLimitRow
  auditEvents : List AuditEventRow
  configuration : Option OwnerClaimConfigurationRow
  invitations : List OwnerClaimInvitationRow
  claimChallenges : List OwnerClaimChallengeRow
  /-- What the only row of the transaction assertions holds. -/
  ownerInserted : Option Nat
  changes : Nat

/-- A deployment nobody has claimed, and that nobody was invited to. -/
def emptyDb : AuthDb :=
  { owners := [], credentials := [], challenges := [], sessions := [], rateLimits := []
    auditEvents := [], configuration := none, invitations := [], claimChallenges := []
    ownerInserted := none, changes := 0 }

inductive AuthError
  | invalidInput | webauthnUserIdRequired | ownerInvitationInvalid
  | uniqueConstraint | foreignKeyConstraint | checkConstraint | unavailable
  deriving DecidableEq

abbrev AuthStatement : Type := Batch.Statement AuthDb AuthError Unit

/-! ## Challenges -/

structure OwnerClaim where
  expectedHostname : String
  invitationTokenHash : String
  deriving DecidableEq

structure CreateChallengeInput where
  ceremony : Ceremony
  challenge : String
  expectedOrigin : String
  expectedRpId : String
  flowHash : String
  now : Nat
  ownerClaim : Option OwnerClaim
  webauthnUserId : Option String

def CreateChallengeInput.expiresAt (input : CreateChallengeInput) : Nat :=
  input.now + 300

/-- Challenges that have expired or been used are deleted, and what was bound to
    them with them. -/
def deleteSpentChallenges (now : Nat) : AuthStatement :=
  fun db =>
    let challenges := db.challenges.filter (fun c => !(c.expiresAt ≤ now || c.usedAt.isSome))
    .ok ((), { db with
      challenges := challenges
      claimChallenges :=
        db.claimChallenges.filter (fun b => challenges.any (fun c => c.flowHash = b.flowHash))
      changes := db.challenges.length - challenges.length })

def deleteExpiredSessions (now : Nat) : AuthStatement :=
  fun db =>
    let sessions := db.sessions.filter (fun s => !(s.expiresAt ≤ now))
    .ok ((), { db with sessions := sessions, changes := db.sessions.length - sessions.length })

def deleteOldRateLimits (now : Nat) : AuthStatement :=
  fun db =>
    let rateLimits := db.rateLimits.filter (fun r => !(r.updatedAt + 86400 < now))
    .ok ((), { db with
      rateLimits := rateLimits, changes := db.rateLimits.length - rateLimits.length })

def CreateChallengeInput.insertChallenge (input : CreateChallengeInput) : AuthStatement :=
  fun db =>
    if db.challenges.any (fun c => c.flowHash = input.flowHash) then .error .uniqueConstraint
    else .ok ((), { db with
      challenges := db.challenges ++ [{
        flowHash := input.flowHash
        ceremony := input.ceremony
        challenge := input.challenge
        webauthnUserId := input.webauthnUserId
        expectedOrigin := input.expectedOrigin
        expectedRpId := input.expectedRpId
        createdAt := input.now
        expiresAt := input.expiresAt
        usedAt := none }]
      changes := 1 })

def deleteExpiredClaimChallenges (now : Nat) : AuthStatement :=
  fun db =>
    let claimChallenges := db.claimChallenges.filter (fun b => !(b.expiresAt ≤ now))
    .ok ((), { db with
      claimChallenges := claimChallenges
      changes := db.claimChallenges.length - claimChallenges.length })

/-- A flow is bound to one invitation, and a WebAuthn user to one flow. -/
def insertClaimChallenge (row : OwnerClaimChallengeRow) : AuthStatement :=
  fun db =>
    if db.claimChallenges.any (fun b =>
        b.flowHash = row.flowHash || b.webauthnUserId = row.webauthnUserId) then
      .error .uniqueConstraint
    else if row.expiresAt = 0 then .error .checkConstraint
    else if db.challenges.any (fun c => c.flowHash = row.flowHash) &&
        db.invitations.any (fun i => i.tokenHash = row.invitationTokenHash) then
      .ok ((), { db with claimChallenges := db.claimChallenges ++ [row], changes := 1 })
    else .error .foreignKeyConstraint

/-! ## Texts that are checked -/

def isTokenHash (s : String) : Bool :=
  s.toList.length = 64 &&
    s.toList.all (fun c => ('0' ≤ c && c ≤ '9') || ('a' ≤ c && c ≤ 'f'))

def isAlphanumeric (c : Char) : Bool :=
  ('a' ≤ c && c ≤ 'z') || ('0' ≤ c && c ≤ '9')

def isInvitationReference (s : String) : Bool :=
  s.toList.take 4 = ['i', 'n', 'v', '_'] && 20 ≤ (s.toList.drop 4).length &&
    (s.toList.drop 4).length ≤ 32 && (s.toList.drop 4).all isAlphanumeric

/-- A part of a hostname, between two dots. -/
def isLabel (l : List Char) : Bool :=
  l.length ≤ 63 && l.head?.any isAlphanumeric && l.getLast?.any isAlphanumeric &&
    l.all (fun c => isAlphanumeric c || c = '-')

/-- The last part of a hostname, which has two characters and starts with a
    letter. -/
def isTopLabel (l : List Char) : Bool :=
  isLabel l && 2 ≤ l.length && l.head?.any (fun c => 'a' ≤ c && c ≤ 'z')

def isHostname (s : String) : Bool :=
  let labels := s.toList.splitOn '.'
  s.toList.length ≤ 253 && 2 ≤ labels.length && labels.dropLast.all isLabel &&
    labels.getLast?.any isTopLabel

/-! ## Functions -/

/-- Create a challenge, bound to an invitation where it is created for one. -/
def createChallenge (input : CreateChallengeInput) (db : AuthDb) :
    Except AuthError (Unit × AuthDb) :=
  let statements := [deleteSpentChallenges input.now, deleteExpiredSessions input.now,
    deleteOldRateLimits input.now, input.insertChallenge]
  match input.ownerClaim with
  | none => (Batch.run statements db).map (fun r => ((), r.2))
  | some claim =>
      -- The source tests the identifier for truth, so an empty one is none.
      match input.webauthnUserId.filter (fun u => u ≠ "") with
      | none => .error .webauthnUserIdRequired
      | some webauthnUserId =>
          if isTokenHash claim.invitationTokenHash && isHostname claim.expectedHostname then
            (Batch.run (statements ++ [deleteExpiredClaimChallenges input.now,
              insertClaimChallenge {
                flowHash := input.flowHash
                webauthnUserId := webauthnUserId
                invitationTokenHash := claim.invitationTokenHash
                expectedHostname := claim.expectedHostname
                expiresAt := input.expiresAt }]) db).map (fun r => ((), r.2))
          else .error .invalidInput

structure ChallengeRecord where
  challenge : String
  ceremony : Ceremony
  expectedOrigin : String
  expectedRpId : String
  webauthnUserId : Option String
  deriving DecidableEq

/-- Use a challenge, once and before it expires. -/
def consumeChallenge (flowHash : String) (ceremony : Ceremony) (now : Nat) (db : AuthDb) :
    Except AuthError (Option ChallengeRecord × AuthDb) :=
  let open' : AuthChallengeRow → Bool := fun c =>
    c.flowHash = flowHash && c.ceremony = ceremony && c.usedAt.isNone && now < c.expiresAt
  .ok ((db.challenges.find? open').map (fun c =>
      { challenge := c.challenge
        ceremony := c.ceremony
        expectedOrigin := c.expectedOrigin
        expectedRpId := c.expectedRpId
        webauthnUserId := c.webauthnUserId }), { db with
    challenges := Table.update open' (fun c => { c with usedAt := some now }) db.challenges
    changes := (db.challenges.filter open').length })

structure OwnerInvitationInput where
  configuredAt : Nat
  expectedHostname : String
  expiresAt : Nat
  invitationRef : String
  tokenHash : String
  trialDays : Nat

/-- What is checked of an invitation before it is written. -/
def OwnerInvitationInput.valid (input : OwnerInvitationInput) : Bool :=
  isHostname input.expectedHostname &&
    !".workers.dev".toList.isSuffixOf input.expectedHostname.toList &&
    0 < input.expiresAt && isInvitationReference input.invitationRef &&
    isTokenHash input.tokenHash && 1 ≤ input.trialDays && input.trialDays ≤ 90 &&
    input.configuredAt < input.expiresAt

/-- The first invitation configures the deployment. -/
def OwnerInvitationInput.insertConfiguration (input : OwnerInvitationInput) : AuthStatement :=
  fun db =>
    match db.configuration with
    | some _ => .ok ((), { db with changes := 0 })
    | none => .ok ((), { db with
        configuration := some {
          expectedHostname := input.expectedHostname
          trialDays := input.trialDays
          configuredAt := input.configuredAt
          claimedAt := none }
        changes := 1 })

/-- An invitation is to the hostname the deployment is configured to. -/
def OwnerInvitationInput.insertInvitation (input : OwnerInvitationInput) : AuthStatement :=
  fun db =>
    if db.invitations.any (fun i =>
        i.tokenHash = input.tokenHash || i.invitationRef = input.invitationRef) then
      .error .uniqueConstraint
    else if db.configuration.any (fun c => c.expectedHostname = input.expectedHostname) then
      .ok ((), { db with
        invitations := db.invitations ++ [{
          tokenHash := input.tokenHash
          invitationRef := input.invitationRef
          expectedHostname := input.expectedHostname
          createdAt := input.configuredAt
          expiresAt := input.expiresAt
          consumedAt := none }]
        changes := 1 })
    else .error .foreignKeyConstraint

/-- Invite somebody to own a managed deployment. -/
def installManagedOwnerInvitation (input : OwnerInvitationInput) (db : AuthDb) :
    Except AuthError (Unit × AuthDb) :=
  if input.valid then
    (Batch.run [input.insertConfiguration, input.insertInvitation] db).map (fun r => ((), r.2))
  else .error .invalidInput

/-! ## The first owner -/

structure FirstOwnerInput where
  backedUp : Bool
  counter : Nat
  credentialId : String
  deviceType : DeviceType
  publicKey : List UInt8
  transports : List String
  webauthnUserId : String

structure SessionMaterial where
  csrfHash : String
  csrfToken : String
  expiresAt : Nat
  maxAgeSeconds : Nat
  token : String
  tokenHash : String

structure OwnerCommit where
  owner : FirstOwnerInput
  session : SessionMaterial
  requestId : String
  auditId : String
  now : Nat
  requireManagedInvitation : Bool

/-- A flow of this user is bound to an invitation that can be used. -/
def OwnerCommit.invited (input : OwnerCommit) (db : AuthDb)
    (configuration : OwnerClaimConfigurationRow) : Bool :=
  db.claimChallenges.any (fun b => b.webauthnUserId = input.owner.webauthnUserId &&
    b.expectedHostname = configuration.expectedHostname && input.now < b.expiresAt &&
    db.invitations.any (fun i => i.tokenHash = b.invitationTokenHash &&
      i.expectedHostname = configuration.expectedHostname && i.consumedAt.isNone &&
      input.now < i.expiresAt))

/-- Whether an owner is to be inserted. A deployment that was never configured
    takes any. -/
def OwnerCommit.admitted (input : OwnerCommit) (db : AuthDb) : Bool :=
  !input.requireManagedInvitation ||
    match db.configuration with
    | none => true
    | some configuration => configuration.claimedAt.isNone && input.invited db configuration

def OwnerCommit.ownerRow (input : OwnerCommit) : OwnerRow :=
  { id := 1
    webauthnUserId := input.owner.webauthnUserId
    credentialId := input.owner.credentialId
    publicKey := input.owner.publicKey
    counter := input.owner.counter
    transports := input.owner.transports
    deviceType := input.owner.deviceType
    backedUp := input.owner.backedUp
    createdAt := input.now
    lastAuthenticatedAt := none }

def OwnerCommit.insertOwner (input : OwnerCommit) : AuthStatement :=
  fun db =>
    if input.admitted db then
      if db.owners.any (fun o => o.id = 1 || o.webauthnUserId = input.owner.webauthnUserId ||
          o.credentialId = input.owner.credentialId) then
        .error .uniqueConstraint
      else .ok ((), { db with owners := db.owners ++ [input.ownerRow], changes := 1 })
    else .ok ((), { db with changes := 0 })

/-- A batch that has inserted no owner fails here. -/
def assertOwnerInserted : AuthStatement :=
  fun db =>
    if db.changes = 1 then .ok ((), { db with ownerInserted := some db.changes, changes := 1 })
    else .error .ownerInvitationInvalid

/-- The invitation that a flow of this user is bound to. -/
def OwnerCommit.boundTokenHash (input : OwnerCommit) (db : AuthDb) : Option String :=
  (db.claimChallenges.find? (fun b =>
    b.webauthnUserId = input.owner.webauthnUserId && input.now < b.expiresAt)).map
      OwnerClaimChallengeRow.invitationTokenHash

/-- The invitations that are used up, of which there is one at most. -/
def OwnerCommit.consumes (input : OwnerCommit) (db : AuthDb) (i : OwnerClaimInvitationRow) : Bool :=
  input.boundTokenHash db = some i.tokenHash && db.configuration.isSome && i.consumedAt.isNone &&
    input.now < i.expiresAt

def OwnerCommit.consumeInvitation (input : OwnerCommit) : AuthStatement :=
  fun db =>
    if db.invitations.any (fun i => input.consumes db i && input.now < i.createdAt) then
      .error .checkConstraint
    else .ok ((), { db with
      invitations := Table.update (input.consumes db)
        (fun i => { i with consumedAt := some input.now }) db.invitations
      changes := (db.invitations.filter (input.consumes db)).length })

/-- The configuration is claimed, which it is not where no invitation was used
    up. -/
def OwnerCommit.claimConfiguration (input : OwnerCommit) : AuthStatement :=
  fun db =>
    match db.configuration with
    | none => .ok ((), { db with changes := 0 })
    | some configuration =>
        if configuration.claimedAt.isSome then .ok ((), { db with changes := 0 })
        else
          let claimedAt : Int := if db.changes = 1 then input.now else -1
          if claimedAt < configuration.configuredAt then .error .ownerInvitationInvalid
          else .ok ((), { db with
            configuration := some { configuration with claimedAt := some claimedAt }
            changes := 1 })

def ownerCredential (o : OwnerRow) : OwnerCredentialRow :=
  { credentialId := o.credentialId
    ownerId := o.id
    webauthnUserId := o.webauthnUserId
    publicKey := o.publicKey
    counter := o.counter
    transports := o.transports
    deviceType := o.deviceType
    backedUp := o.backedUp
    createdAt := o.createdAt
    lastAuthenticatedAt := none }

def insertOwnerCredential : AuthStatement :=
  fun db =>
    let new := ((db.owners.filter (fun o => o.id = 1)).map ownerCredential).filter (fun c =>
      !db.credentials.any (fun c' => c'.credentialId = c.credentialId))
    .ok ((), { db with credentials := db.credentials ++ new, changes := new.length })

def OwnerCommit.insertSession (input : OwnerCommit) : AuthStatement :=
  fun db =>
    if db.sessions.any (fun s => s.tokenHash = input.session.tokenHash) then
      .error .uniqueConstraint
    else if input.session.expiresAt ≤ input.now then .error .checkConstraint
    else if db.owners.any (fun o => o.id = 1) then
      .ok ((), { db with
        sessions := db.sessions ++ [{
          tokenHash := input.session.tokenHash
          ownerId := 1
          csrfHash := input.session.csrfHash
          createdAt := input.now
          expiresAt := input.session.expiresAt }]
        changes := 1 })
    else .error .foreignKeyConstraint

def OwnerCommit.insertAuditEvent (input : OwnerCommit) : AuthStatement :=
  fun db =>
    if db.auditEvents.any (fun a => a.id = input.auditId) then .error .uniqueConstraint
    else .ok ((), { db with
      auditEvents := db.auditEvents ++ [{
        id := input.auditId
        eventType := "owner.claimed"
        requestId := input.requestId
        createdAt := input.now }]
      changes := 1 })

def OwnerCommit.statements (input : OwnerCommit) : List AuthStatement :=
  [input.insertOwner] ++
    (if input.requireManagedInvitation then
      [assertOwnerInserted, input.consumeInvitation, input.claimConfiguration]
    else []) ++
    [insertOwnerCredential, input.insertSession, input.insertAuditEvent]

/-- Commit the first owner, its credential and its session. -/
def commitFirstOwner (input : OwnerCommit) (db : AuthDb) : Except AuthError (Unit × AuthDb) :=
  (Batch.run input.statements db).map (fun r => ((), r.2))

/-! ## Requests -/

inductive AuthOp
  | createChallenge (input : CreateChallengeInput)
  | consumeChallenge (flowHash : String) (ceremony : Ceremony) (now : Nat)
  | installManagedOwnerInvitation (input : OwnerInvitationInput)
  | commitFirstOwner (input : OwnerCommit)

/-- What a request does by itself. -/
def effect (op : AuthOp) (db : AuthDb) : Except AuthError (Option ChallengeRecord × AuthDb) :=
  match op with
  | .createChallenge input => (createChallenge input db).map (fun r => (none, r.2))
  | .consumeChallenge flowHash ceremony now => consumeChallenge flowHash ceremony now db
  | .installManagedOwnerInvitation input =>
      (installManagedOwnerInvitation input db).map (fun r => (none, r.2))
  | .commitFirstOwner input => (commitFirstOwner input db).map (fun r => (none, r.2))

/-- A request, under what becomes of it. -/
def exec (e : AuthOp × Batch.Outcome) (db : AuthDb) :
    Except AuthError (Option ChallengeRecord) × AuthDb :=
  Batch.send .unavailable e.2 (effect e.1) db

/-- The tables after one more request. -/
def step (db : AuthDb) (e : AuthOp × Batch.Outcome) : AuthDb :=
  (exec e db).2

end Mdevolved.Auth
