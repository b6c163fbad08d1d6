import Mdevolved.Pairing.Store

/-!
# What a Pairing Batch Does

Each batch of the pairing tables, as the tables it leaves. A batch that
exchanges a grant has two outcomes: it finds a grant it can use and writes all
it has to, or it finds none. For `exchange` the second outcome changes nothing,
and for `enrollDevice` it still pairs the vault that was read before.

The statements of a batch recognise what the first of them did by the
identifier of the exchange, which is drawn for it. `drawsFresh` says that no
grant has it yet.

## Main definitions

* `Keyed`: Grants are told apart by their hash.
* `drawsFresh`: The identifier of an exchange is a new one.
* `ExchangeBatch.exchanged`, `EnrollmentBatch.enrolled`: The tables after an
  exchange that went through.
* `EnrollmentBatch.missed`: The tables after an enrollment that found no grant.

## Theorems

* `exchange_ok`, `enrollDevice_ok`, `createGrant_ok`, `confirmSync_ok`,
  `markPublished_ok`, `revokeVault_ok`, `revokeDevice_ok`: What each batch does.
* `exec_keyed`: Grants stay told apart.
-/

namespace Mdevolved.Pairing

/-- Grants are told apart by their hash. -/
def Keyed (db : PairingDb) : Prop :=
  (db.grants.map GrantRow.grantHash).Nodup

/-- No grant has the identifier of an exchange yet. -/
def freshExchange (db : PairingDb) (exchangeId : String) : Bool :=
  db.grants.all (fun g => g.exchangeId ≠ some exchangeId)

/-- The identifier drawn for an exchange is a new one. -/
def drawsFresh (op : PairingOp) (db : PairingDb) : Bool :=
  match op with
  | .exchange input => freshExchange db input.exchangeId
  | .enrollDevice input => freshExchange db input.exchangeId
  | _ => true

/-- A grant once an exchange has used it. -/
def GrantRow.used (g : GrantRow) (now : Nat) (exchangeId : String) : GrantRow :=
  { g with usedAt := some now, exchangeId := some exchangeId }

/-- The grants, once one of them has been used. -/
def useGrant (db : PairingDb) (g : GrantRow) (now : Nat) (exchangeId : String) : PairingDb :=
  { db with
    grants := Table.update (fun g' => g'.grantHash = g.grantHash)
      (fun g' => g'.used now exchangeId) db.grants }

theorem redeemGrant_ok (usable : PairingDb → GrantRow → Bool) (now : Nat) (exchangeId : String)
    (db db' : PairingDb) (r : Option String)
    (h : redeemGrant usable now exchangeId db = .ok (r, db')) :
    (db.grants.find? (usable db) = none ∧ r = none ∧ db' = db) ∨
      ∃ g, db.grants.find? (usable db) = some g ∧ r = some g.vaultId ∧
        db' = useGrant db g now exchangeId := by
  unfold redeemGrant at h
  cases hfind : db.grants.find? (usable db) with
  | none =>
      simp only [hfind, Batch.ok_inj] at h
      exact Or.inl ⟨rfl, h.1.symm, h.2.symm⟩
  | some g =>
      simp only [hfind] at h
      split at h
      · cases h
      · simp only [Batch.ok_inj] at h
        exact Or.inr ⟨g, rfl, h.1.symm, h.2.symm⟩

/-- Before an identifier is used, no grant has it. -/
theorem exchangedGrant_fresh (db : PairingDb) (grantHash exchangeId : String)
    (h : freshExchange db exchangeId = true) : exchangedGrant db grantHash exchangeId = none := by
  refine List.find?_eq_none.mpr (fun g hg => ?_)
  have hne := List.all_eq_true.mp h g hg
  simp only [ne_eq, decide_eq_true_eq] at hne
  simp only [hne, decide_false, Bool.and_false, Bool.false_eq_true, not_false_eq_true]

/-- Afterwards the grant that was used has it. -/
theorem exchangedGrant_useGrant (db : PairingDb) (g : GrantRow) (now : Nat) (exchangeId : String)
    (hk : Keyed db) (hfresh : freshExchange db exchangeId = true) (hg : g ∈ db.grants) :
    exchangedGrant (useGrant db g now exchangeId) g.grantHash exchangeId =
      some (g.used now exchangeId) := by
  have hmem := Table.update_mem (fun g' => g'.grantHash = g.grantHash)
    (fun g' => g'.used now exchangeId) db.grants g hg
  rw [if_pos (decide_eq_true rfl)] at hmem
  refine Table.find?_of_unique _ _ _ hmem
    (by simp only [GrantRow.used, decide_true, Bool.and_self]) ?_
  intro t ht hp
  rcases Table.mem_update _ _ db.grants t ht with ⟨g', hg', ⟨hsame, rfl⟩ | ⟨_, rfl⟩⟩
  · have heq : g' = g := List.inj_on_of_nodup_map hk hg' hg (of_decide_eq_true hsame)
    rw [heq]
  · have hne := List.all_eq_true.mp hfresh t hg'
    simp only [ne_eq, decide_eq_true_eq] at hne
    simp only [hne, decide_false, Bool.and_false, Bool.false_eq_true] at hp

theorem exchangedGrant_congr (db db' : PairingDb) (h : db'.grants = db.grants)
    (grantHash exchangeId : String) :
    exchangedGrant db' grantHash exchangeId = exchangedGrant db grantHash exchangeId := by
  rw [exchangedGrant, exchangedGrant, h]

theorem insertAuditEvent_ok (event : AuditEventRow) (occurred : PairingDb → Bool)
    (db db' : PairingDb) (r : Option String)
    (h : insertAuditEvent event occurred db = .ok (r, db')) :
    r = none ∧ db' = { db with
      auditEvents := db.auditEvents ++ if occurred db then [event] else [] } := by
  unfold insertAuditEvent at h
  split at h
  · next hoccurred =>
    split at h
    · cases h
    · simp only [Batch.ok_inj] at h
      rw [if_pos hoccurred]
      exact ⟨h.1.symm, h.2.symm⟩
  · next hnot =>
    simp only [Batch.ok_inj] at h
    rw [if_neg hnot, List.append_nil]
    exact ⟨h.1.symm, h.2.symm⟩

theorem insertCredential_ok (grantHash exchangeId : String)
    (row : PairingDb → GrantRow → Option CredentialRow) (db db' : PairingDb) (r : Option String)
    (h : insertCredential grantHash exchangeId row db = .ok (r, db')) :
    ((exchangedGrant db grantHash exchangeId).bind (row db) = none ∧ r = none ∧ db' = db) ∨
      ∃ c, (exchangedGrant db grantHash exchangeId).bind (row db) = some c ∧
        admitsCredential db.credentials c = true ∧ r = some c.vaultId ∧
        db' = { db with credentials := db.credentials ++ [c] } := by
  unfold insertCredential at h
  cases hrow : (exchangedGrant db grantHash exchangeId).bind (row db) with
  | none =>
      simp only [hrow, Batch.ok_inj] at h
      exact Or.inl ⟨rfl, h.1.symm, h.2.symm⟩
  | some c =>
      simp only [hrow] at h
      split at h
      · next hadmits =>
        simp only [Batch.ok_inj] at h
        exact Or.inr ⟨c, rfl, hadmits, h.1.symm, h.2.symm⟩
      · cases h

/-! ## Exchanges -/

/-- The vaults, once the vault of a grant was paired. -/
def ExchangeBatch.pairVaults (input : ExchangeBatch) (db : PairingDb) (g : GrantRow) : PairingDb :=
  { db with
    vaults := Table.update (fun v => v.id = g.vaultId)
      (fun v => { v with
        displayName := some input.vaultName, status := .active, pairedAt := some input.now
        sourceDescriptor := v.sourceDescriptor.or input.descriptor }) db.vaults }

/-- The tables after an exchange that has used a grant. -/
def ExchangeBatch.exchanged (input : ExchangeBatch) (db : PairingDb) (g : GrantRow) : PairingDb :=
  { input.pairVaults (useGrant db g input.now input.exchangeId) g with
    credentials := db.credentials ++ [input.credential g]
    auditEvents := db.auditEvents ++ [{
      id := input.auditId, eventType := "vault.paired", requestId := input.requestId
      createdAt := input.now }] }

section

variable (input : ExchangeBatch) (db db' : PairingDb)

theorem ExchangeBatch.activateVault_unused (r : Option String) (hunused : exchangedGrant db input.grantHash input.exchangeId = none)
    (h : input.activateVault db = .ok (r, db')) : r = none ∧ db' = db := by
  unfold activateVault at h
  rw [hunused] at h
  simp only [Batch.ok_inj] at h
  exact ⟨h.1.symm, h.2.symm⟩

theorem ExchangeBatch.activateVault_used (r : Option String) (g : GrantRow)
    (hused : exchangedGrant db input.grantHash input.exchangeId = some g)
    (h : input.activateVault db = .ok (r, db')) : r = none ∧ db' = input.pairVaults db g := by
  unfold activateVault at h
  rw [hused] at h
  simp only [Batch.ok_inj] at h
  exact ⟨h.1.symm, h.2.symm⟩

/-- An exchange changes nothing, or all it has to. -/
theorem exchange_ok (rs : List (Option String))
    (hk : Keyed db) (hfresh : freshExchange db input.exchangeId = true)
    (h : effect db (.exchange input) = .ok (rs, db')) :
    (db.grants.find? (input.usable db) = none ∧ db' = db ∧ rs = [none, none, none, none]) ∨
      ∃ g, db.grants.find? (input.usable db) = some g ∧
        admitsCredential db.credentials (input.credential g) = true ∧
        db' = input.exchanged db g ∧ (rs[0]?).join = some g.vaultId := by
  rcases Batch.run_cons_ok.mp h with ⟨r₁, rs₁, t₁, h₁, hrest₁, rfl⟩
  rcases Batch.run_cons_ok.mp hrest₁ with ⟨r₂, rs₂, t₂, h₂, hrest₂, rfl⟩
  rcases Batch.run_cons_ok.mp hrest₂ with ⟨r₃, rs₃, t₃, h₃, hrest₃, rfl⟩
  rcases Batch.run_cons_ok.mp hrest₃ with ⟨r₄, rs₄, t₄, h₄, hrest₄, rfl⟩
  rw [Batch.run_nil, Batch.ok_inj] at hrest₄
  rcases hrest₄ with ⟨rfl, rfl⟩
  have haudit := insertAuditEvent_ok _ _ _ _ _ h₄
  rcases redeemGrant_ok _ _ _ _ _ _ h₁ with ⟨hnone, rfl, rfl⟩ | ⟨g, hfind, rfl, rfl⟩
  · -- Nothing was used, so the statements that follow find nothing either.
    have hunused := exchangedGrant_fresh t₁ input.grantHash input.exchangeId hfresh
    have h₂' := insertCredential_ok _ _ _ _ _ _ h₂
    rw [hunused, Option.bind_none] at h₂'
    rcases h₂' with ⟨_, rfl, rfl⟩ | ⟨c, hc, _⟩
    · rcases input.activateVault_unused _ _ _ hunused h₃ with ⟨rfl, rfl⟩
      rw [hunused, Option.isSome_none, if_neg Bool.false_ne_true, List.append_nil] at haudit
      exact Or.inl ⟨hnone, haudit.2, by rw [haudit.1]⟩
    · cases hc
  · have hg : g ∈ db.grants := List.mem_of_find?_eq_some hfind
    have hhash : g.grantHash = input.grantHash := by
      have husable := List.find?_some hfind
      simp only [ExchangeBatch.usable, Bool.and_eq_true, decide_eq_true_eq] at husable
      exact husable.1.1.1.1
    have hused : exchangedGrant (useGrant db g input.now input.exchangeId) input.grantHash
        input.exchangeId = some (g.used input.now input.exchangeId) :=
      hhash ▸ exchangedGrant_useGrant db g input.now input.exchangeId hk hfresh hg
    have h₂' := insertCredential_ok _ _ _ _ _ _ h₂
    rw [hused, Option.bind_some] at h₂'
    rcases h₂' with ⟨hc, _⟩ | ⟨c, hc, hadmits, rfl, ht₂⟩
    · cases hc
    · rw [Option.some.injEq] at hc
      have hused₂ := (exchangedGrant_congr _ t₂ (congrArg PairingDb.grants ht₂) _ _).trans hused
      rcases input.activateVault_used _ _ _ _ hused₂ h₃ with ⟨rfl, ht₃⟩
      have hused₃ := (exchangedGrant_congr _ t₃ (congrArg PairingDb.grants ht₃) _ _).trans hused₂
      refine Or.inr ⟨g, hfind, hc ▸ hadmits, ?_, rfl⟩
      rw [haudit.2, hused₃, Option.isSome_some, if_pos rfl, ht₃, ht₂, ← hc]
      rfl

end

/-! ## Enrollments -/

/-- The vaults, once the vault that was read was paired. -/
def EnrollmentBatch.pairVaults (input : EnrollmentBatch) (db : PairingDb) : PairingDb :=
  { db with
    vaults := Table.update (fun v => v.id = input.vaultId && input.fits v) input.pair db.vaults }

def EnrollmentBatch.auditEvent (input : EnrollmentBatch) : AuditEventRow :=
  { id := input.auditId, eventType := "source.device_enrolled", requestId := input.requestId
    createdAt := input.now }

/-- Whether the device of an enrollment is there, in the vault that was read. -/
def EnrollmentBatch.isEnrolled (input : EnrollmentBatch) (db : PairingDb) : Bool :=
  db.devices.any (fun d => d.id = input.enrollment.deviceId && d.vaultId = input.vaultId)

/-- The tables after an enrollment that found no grant. -/
def EnrollmentBatch.missed (input : EnrollmentBatch) (db : PairingDb) : PairingDb :=
  { input.pairVaults db with
    auditEvents := db.auditEvents ++ if input.isEnrolled db then [input.auditEvent] else [] }

/-- The credential of the device. -/
def EnrollmentBatch.deviceCredential (input : EnrollmentBatch) (g : GrantRow) : CredentialRow :=
  { id := input.credentialId
    vaultId := g.vaultId
    tokenHash := input.enrollment.credentialSha256
    pluginVersion := input.pluginVersion
    schemaVersion := input.schemaVersion
    createdAt := input.now
    lastUsedAt := none
    revokedAt := none
    sourceDeviceId := some input.enrollment.deviceId }

/-- The tables after an enrollment that has used a grant. -/
def EnrollmentBatch.enrolled (input : EnrollmentBatch) (db : PairingDb) (g : GrantRow) :
    PairingDb :=
  { input.pairVaults (useGrant db g input.now input.exchangeId) with
    devices := db.devices ++ [input.device g]
    credentials := db.credentials ++ [input.deviceCredential g]
    auditEvents := db.auditEvents ++
      if (db.devices ++ [input.device g]).any (fun d =>
        d.id = input.enrollment.deviceId && d.vaultId = input.vaultId)
      then [input.auditEvent] else [] }

section

variable (input : EnrollmentBatch) (db db' : PairingDb) (r : Option String)

theorem EnrollmentBatch.activateVault_ok (h : input.activateVault db = .ok (r, db')) :
    r = (if db.vaults.any (fun v => v.id = input.vaultId && input.fits v) then some input.vaultId
      else none) ∧ db' = input.pairVaults db := by
  simp only [activateVault, Batch.ok_inj] at h
  exact ⟨h.1.symm, h.2.symm⟩

theorem EnrollmentBatch.insertDevice_unused (hunused : exchangedGrant db input.grantHash input.exchangeId = none)
    (h : input.insertDevice db = .ok (r, db')) : r = none ∧ db' = db := by
  unfold insertDevice at h
  rw [hunused] at h
  simp only [Batch.ok_inj] at h
  exact ⟨h.1.symm, h.2.symm⟩

/-- There is still room for the device where the grant could be used. -/
theorem EnrollmentBatch.insertDevice_used (g : GrantRow)
    (hused : exchangedGrant db input.grantHash input.exchangeId = some g)
    (hroom : db.vaults.any (fun v => v.id = g.vaultId && input.fits v) = true ∧
      activeDeviceCount db g.vaultId input.now < activeDeviceLimit)
    (h : input.insertDevice db = .ok (r, db')) :
    before input.now g.deviceExpiresAt = true ∧ admitsDevice db.devices (input.device g) = true ∧
      r = some g.vaultId ∧ db' = { db with devices := db.devices ++ [input.device g] } := by
  unfold insertDevice at h
  rw [hused] at h
  dsimp only at h
  rw [if_pos (by rw [hroom.1, decide_eq_true hroom.2, Bool.and_self])] at h
  split at h
  · cases h
  · next hbefore =>
    split at h
    · next hadmits =>
      simp only [Batch.ok_inj] at h
      exact ⟨by simpa using hbefore, hadmits, h.1.symm, h.2.symm⟩
    · cases h

/-- What makes a grant usable for an enrollment. -/
structure EnrollmentBatch.Usable (input : EnrollmentBatch) (db : PairingDb) (g : GrantRow) :
    Prop where
  grantHash : g.grantHash = input.grantHash
  unused : g.usedAt = none
  unexpired : input.now < g.expiresAt
  vault : ∃ v ∈ db.vaults, v.id = g.vaultId ∧ v.status ≠ .revoked ∧ input.fits v = true
  newDevice : ∀ d ∈ db.devices, d.id ≠ input.enrollment.deviceId ∧
    d.enrollmentIdempotencyKey ≠ input.enrollment.idempotencyKey
  newRoot : ∀ d ∈ db.devices, d.vaultId = g.vaultId →
    d.rootFingerprintSha256 = input.enrollment.rootFingerprintSha256 → d.status ≠ .active
  history : deviceCount db g.vaultId < deviceHistoryLimit
  room : activeDeviceCount db g.vaultId input.now < activeDeviceLimit
  origin : hasOrigin db g.grantHash input.deploymentUrl = true

theorem EnrollmentBatch.usable_iff (db : PairingDb) (g : GrantRow) :
    input.usable db g = true ↔ input.Usable db g := by
  simp only [usable, Bool.and_eq_true, decide_eq_true_eq, List.any_eq_true, Bool.not_eq_true',
    List.any_eq_false, Bool.or_eq_true, not_or, not_and, ne_eq]
  constructor
  · rintro ⟨⟨⟨⟨⟨⟨⟨⟨hhash, hunused⟩, htime⟩, v, hv, ⟨hid, hstatus⟩, hfits⟩, hnew⟩, hroot⟩,
      hhistory⟩, hroom⟩, horigin⟩
    exact ⟨hhash, hunused, htime, ⟨v, hv, hid, hstatus, hfits⟩, hnew,
      fun d hd h h' => hroot d hd ⟨h, h'⟩, hhistory, hroom, horigin⟩
  · rintro ⟨hhash, hunused, htime, ⟨v, hv, hid, hstatus, hfits⟩, hnew, hroot, hhistory, hroom,
      horigin⟩
    exact ⟨⟨⟨⟨⟨⟨⟨⟨hhash, hunused⟩, htime⟩, v, hv, ⟨hid, hstatus⟩, hfits⟩, hnew⟩,
      fun d hd h => hroot d hd h.1 h.2⟩, hhistory⟩, hroom⟩, horigin⟩

/-- An enrollment writes all it has to, or finds no grant. -/
theorem enrollDevice_ok (rs : List (Option String))
    (hk : Keyed db) (hfresh : freshExchange db input.exchangeId = true)
    (h : effect db (.enrollDevice input) = .ok (rs, db')) :
    (db.grants.find? (input.usable db) = none ∧ db' = input.missed db ∧
        (rs[0]?).join = none) ∨
      ∃ g, db.grants.find? (input.usable db) = some g ∧ input.Usable db g ∧
        before input.now g.deviceExpiresAt = true ∧
        admitsDevice db.devices (input.device g) = true ∧
        admitsCredential db.credentials (input.deviceCredential g) = true ∧
        db' = input.enrolled db g ∧ (rs[0]?).join = some g.vaultId := by
  rcases Batch.run_cons_ok.mp h with ⟨r₁, rs₁, t₁, h₁, hrest₁, rfl⟩
  rcases Batch.run_cons_ok.mp hrest₁ with ⟨r₂, rs₂, t₂, h₂, hrest₂, rfl⟩
  rcases Batch.run_cons_ok.mp hrest₂ with ⟨r₃, rs₃, t₃, h₃, hrest₃, rfl⟩
  rcases Batch.run_cons_ok.mp hrest₃ with ⟨r₄, rs₄, t₄, h₄, hrest₄, rfl⟩
  rcases Batch.run_cons_ok.mp hrest₄ with ⟨r₅, rs₅, t₅, h₅, hrest₅, rfl⟩
  rw [Batch.run_nil, Batch.ok_inj] at hrest₅
  rcases hrest₅ with ⟨rfl, rfl⟩
  have haudit := insertAuditEvent_ok _ _ _ _ _ h₅
  have hpaired := input.activateVault_ok _ _ _ h₄
  have hcredential := insertCredential_ok _ _ _ _ _ _ h₃
  rcases redeemGrant_ok _ _ _ _ _ _ h₁ with ⟨hnone, rfl, rfl⟩ | ⟨g, hfind, rfl, rfl⟩
  · have hunused := exchangedGrant_fresh t₁ input.grantHash input.exchangeId hfresh
    rcases input.insertDevice_unused _ _ _ hunused h₂ with ⟨rfl, rfl⟩
    rw [hunused, Option.bind_none] at hcredential
    rcases hcredential with ⟨_, rfl, rfl⟩ | ⟨c, hc, _⟩
    · refine Or.inl ⟨hnone, ?_, rfl⟩
      rw [haudit.2, hpaired.2]
      rfl
    · cases hc
  · have hg : g ∈ db.grants := List.mem_of_find?_eq_some hfind
    have husable := (input.usable_iff db g).mp (List.find?_some hfind)
    have hused : exchangedGrant (useGrant db g input.now input.exchangeId) input.grantHash
        input.exchangeId = some (g.used input.now input.exchangeId) :=
      husable.grantHash ▸ exchangedGrant_useGrant db g input.now input.exchangeId hk hfresh hg
    have hroom : (useGrant db g input.now input.exchangeId).vaults.any (fun v =>
          v.id = (g.used input.now input.exchangeId).vaultId && input.fits v) = true ∧
        activeDeviceCount (useGrant db g input.now input.exchangeId)
          (g.used input.now input.exchangeId).vaultId input.now < activeDeviceLimit := by
      rcases husable.vault with ⟨v, hv, hid, _, hfits⟩
      refine ⟨List.any_eq_true.mpr ⟨v, hv, ?_⟩, husable.room⟩
      rw [hfits, Bool.and_true]
      exact decide_eq_true hid
    rcases input.insertDevice_used _ _ _ _ hused hroom h₂ with ⟨hbefore, hadmits, rfl, ht₂⟩
    have hused₂ := (exchangedGrant_congr _ t₂ (congrArg PairingDb.grants ht₂) _ _).trans hused
    have hthere : input.credential t₂ (g.used input.now input.exchangeId) =
        some (input.deviceCredential g) := by
      refine if_pos (List.any_eq_true.mpr ⟨input.device g, ?_, ?_⟩)
      · rw [ht₂]
        exact List.mem_append_right _ (List.mem_singleton_self _)
      · simp only [EnrollmentBatch.device, GrantRow.used, decide_true, Bool.and_self]
    rw [hused₂, Option.bind_some, hthere] at hcredential
    rcases hcredential with ⟨hc, _⟩ | ⟨c, hc, hadmits', rfl, ht₃⟩
    · cases hc
    · rw [Option.some.injEq] at hc
      have hadmitted : admitsCredential db.credentials (input.deviceCredential g) = true := by
        rw [ht₂] at hadmits'
        exact hc ▸ hadmits'
      refine Or.inr ⟨g, hfind, husable, hbefore, hadmits, hadmitted, ?_, rfl⟩
      rw [haudit.2, hpaired.2, ht₃, ht₂, ← hc]
      rfl

end

/-! ## The other batches -/

/-- A grant that is kept when others are created: it can still be used. -/
def GrantRow.kept (g : GrantRow) (now : Nat) : Bool :=
  !(g.expiresAt ≤ now || g.usedAt.isSome)

/-- What the creation of a grant leaves: grants that were kept and perhaps the new
    one, vaults except some that were never paired, and perhaps the new one. -/
structure GrantBatch.Created (input : GrantBatch) (db db' : PairingDb) : Prop where
  credentials : db'.credentials = db.credentials
  devices : db'.devices = db.devices
  grants : db'.grants = db.grants.filter (fun g => g.kept input.now) ∨
    (db'.grants = db.grants.filter (fun g => g.kept input.now) ++ [input.grant] ∧
      before input.now input.deviceExpiresAt = true ∧
      ∀ g ∈ db.grants, g.kept input.now = true → g.grantHash ≠ input.grantHash)
  vaults : ∃ keep new, db'.vaults = db.vaults.filter keep ++ new ∧
    (∀ v, v.status ≠ .pending → keep v = true) ∧
    ∀ v ∈ new, v.status = .pending ∧ ∀ v' ∈ db.vaults.filter keep, v'.id ≠ v.id

/-- Creating a grant takes effect statement by statement. -/
theorem createGrant_ok (input : GrantBatch) (db db' : PairingDb) (rs : List (Option String))
    (h : effect db (.createGrant input) = .ok (rs, db')) : input.Created db db' := by
  rcases Batch.run_append_ok h with ⟨t₂, rs₁, rs₂, hfirst, hlast, rfl⟩
  rcases Batch.run_append_ok hfirst with ⟨t₁, rs₃, rs₄, hdelete, hvault, rfl⟩
  rcases Batch.run_cons_ok.mp hdelete with ⟨_, _, d₁, h₁, hdelete₁, rfl⟩
  rcases Batch.run_cons_ok.mp hdelete₁ with ⟨_, _, d₂, h₂, hdelete₂, rfl⟩
  rw [Batch.run_nil, Batch.ok_inj] at hdelete₂
  simp only [deleteSpentGrants, Batch.ok_inj] at h₁
  simp only [deleteAbandonedVaults, Batch.ok_inj] at h₂
  rcases Batch.run_cons_ok.mp hlast with ⟨_, _, l₁, h₃, hlast₁, rfl⟩
  rcases Batch.run_cons_ok.mp hlast₁ with ⟨_, _, l₂, h₄, hlast₂, rfl⟩
  rcases Batch.run_cons_ok.mp hlast₂ with ⟨_, _, l₃, h₅, hlast₃, rfl⟩
  rw [Batch.run_nil, Batch.ok_inj] at hlast₃
  have haudit := (insertAuditEvent_ok _ _ _ _ _ h₅).2
  have horigin : l₂.credentials = l₁.credentials ∧ l₂.devices = l₁.devices ∧
      l₂.grants = l₁.grants ∧ l₂.vaults = l₁.vaults := by
    simp only [GrantBatch.insertOrigin] at h₄
    split at h₄
    · split at h₄
      · cases h₄
      · simp only [Batch.ok_inj] at h₄
        rw [← h₄.2]
        exact ⟨rfl, rfl, rfl, rfl⟩
    · simp only [Batch.ok_inj] at h₄
      rw [h₄.2]
      exact ⟨rfl, rfl, rfl, rfl⟩
  have hgrant : l₁.credentials = t₂.credentials ∧ l₁.devices = t₂.devices ∧
      l₁.vaults = t₂.vaults ∧ (l₁.grants = t₂.grants ∨ (l₁.grants = t₂.grants ++ [input.grant] ∧
        before input.now input.deviceExpiresAt = true ∧
        ∀ g ∈ t₂.grants, g.grantHash ≠ input.grantHash)) := by
    simp only [GrantBatch.insertGrant] at h₃
    split at h₃
    · split at h₃
      · cases h₃
      · next hbefore =>
        split at h₃
        · cases h₃
        · next hnew =>
          simp only [Batch.ok_inj] at h₃
          rw [← h₃.2]
          refine ⟨rfl, rfl, rfl, Or.inr ⟨rfl, by simpa using hbefore, ?_⟩⟩
          intro g hg heq
          exact hnew (List.any_eq_true.mpr ⟨g, hg, decide_eq_true heq⟩)
    · simp only [Batch.ok_inj] at h₃
      rw [h₃.2]
      exact ⟨rfl, rfl, rfl, Or.inl rfl⟩
  have hnew : t₂.credentials = t₁.credentials ∧ t₂.devices = t₁.devices ∧
      t₂.grants = t₁.grants ∧ ∃ new, t₂.vaults = t₁.vaults ++ new ∧
        ∀ v ∈ new, v.status = .pending ∧ ∀ v' ∈ t₁.vaults, v'.id ≠ v.id := by
    split at hvault
    · rcases Batch.run_cons_ok.mp hvault with ⟨_, _, n₁, h₆, hvault₁, rfl⟩
      rw [Batch.run_nil, Batch.ok_inj] at hvault₁
      rw [← hvault₁.2]
      simp only [GrantBatch.insertVault] at h₆
      split at h₆
      · split at h₆
        · cases h₆
        · next hfree =>
          simp only [Batch.ok_inj] at h₆
          rw [← h₆.2]
          refine ⟨rfl, rfl, rfl, _, rfl, fun v hv => ?_⟩
          rw [List.mem_singleton.mp hv]
          exact ⟨rfl, fun v' hv' heq =>
            hfree (List.any_eq_true.mpr ⟨v', hv', decide_eq_true heq⟩)⟩
      · simp only [Batch.ok_inj] at h₆
        rw [h₆.2]
        exact ⟨rfl, rfl, rfl, [], (List.append_nil _).symm, fun v hv => absurd hv List.not_mem_nil⟩
    · rw [Batch.run_nil, Batch.ok_inj] at hvault
      rw [← hvault.2]
      exact ⟨rfl, rfl, rfl, [], (List.append_nil _).symm, fun v hv => absurd hv List.not_mem_nil⟩
  have ht₁ : t₁.credentials = db.credentials ∧ t₁.devices = db.devices ∧
      t₁.grants = db.grants.filter (fun g => g.kept input.now) := by
    rw [← hdelete₂.2, ← h₂.2, ← h₁.2]
    exact ⟨rfl, rfl, rfl⟩
  have hend : db'.credentials = l₂.credentials ∧ db'.devices = l₂.devices ∧
      db'.grants = l₂.grants ∧ db'.vaults = l₂.vaults := by
    rw [← hlast₃.2, haudit]
    exact ⟨rfl, rfl, rfl, rfl⟩
  have hgrants : t₂.grants = db.grants.filter (fun g => g.kept input.now) :=
    hnew.2.2.1.trans ht₁.2.2
  refine ⟨?_, ?_, ?_, ?_⟩
  · rw [hend.1, horigin.1, hgrant.1, hnew.1, ht₁.1]
  · rw [hend.2.1, horigin.2.1, hgrant.2.1, hnew.2.1, ht₁.2.1]
  · rw [hend.2.2.1, horigin.2.2.1, ← hgrants]
    refine hgrant.2.2.2.imp id (fun hadded => ⟨hadded.1, hadded.2.1, fun g hg hkept => ?_⟩)
    exact hadded.2.2 g (hgrants ▸ List.mem_filter.mpr ⟨hg, hkept⟩)
  · rcases hnew.2.2.2 with ⟨new, hvaults, hfree⟩
    refine ⟨fun v => !(v.status = .pending && !d₁.grants.any (fun g => g.vaultId = v.id) &&
      !d₁.credentials.any (fun c => c.vaultId = v.id)), new, ?_, ?_, ?_⟩
    · rw [hend.2.2.2, horigin.2.2.2, hgrant.2.2.1, hvaults, ← hdelete₂.2, ← h₂.2, ← h₁.2]
    · intro v hv
      simp only [hv, decide_false, Bool.false_and, Bool.not_false]
    · intro v hv
      refine ⟨(hfree v hv).1, fun v' hv' => (hfree v hv).2 v' ?_⟩
      rw [← hdelete₂.2, ← h₂.2]
      rw [← h₁.2] at hv' ⊢
      exact hv'

/-- A confirmation changes credentials only. -/
theorem confirmSync_ok (input : ConfirmationBatch) (db db' : PairingDb)
    (rs : List (Option String)) (h : effect db (.confirmSync input) = .ok (rs, db')) :
    ∃ events, db' = { db with
      credentials := Table.update input.replaces
        (fun c => { c with revokedAt := c.revokedAt.or (some input.now) })
        (Table.update input.isOwn
          (fun c => { c with
            pluginVersion := input.pluginVersion, schemaVersion := input.schemaVersion
            lastUsedAt := some input.now }) db.credentials)
      auditEvents := events } := by
  have hrun : Batch.run input.statements db = .ok (rs, db') := h
  rcases Batch.run_cons_ok.mp hrun with ⟨_, _, t₁, h₁, hrest₁, rfl⟩
  rcases Batch.run_cons_ok.mp hrest₁ with ⟨_, _, t₂, h₂, hrest₂, rfl⟩
  rcases Batch.run_cons_ok.mp hrest₂ with ⟨_, _, t₃, h₃, hrest₃, rfl⟩
  rw [Batch.run_nil, Batch.ok_inj] at hrest₃
  simp only [ConfirmationBatch.touchCredential, Batch.ok_inj] at h₁
  simp only [ConfirmationBatch.revokeOthers, Batch.ok_inj] at h₂
  have haudit := (insertAuditEvent_ok _ _ _ _ _ h₃).2
  rw [← hrest₃.2, haudit, ← h₂.2, ← h₁.2]
  exact ⟨_, rfl⟩

/-- A publication changes devices only. -/
theorem markPublished_ok (input : PublicationBatch) (db db' : PairingDb)
    (rs : List (Option String)) (h : effect db (.markPublished input) = .ok (rs, db')) :
    ∃ events, db' = { db with
      devices := Table.update (input.publishes db)
        (fun d => { d with
          lastSeenAt := some input.now
          lastPublishedAt := some input.now
          lastPublishedStateVectorSha256 := some input.stateVectorSha256
          lastPublishedCredentialId := some input.credentialId
          lastPublishedSequence := some (nextPublication db input.vaultId) }) db.devices
      auditEvents := events } := by
  have hrun : Batch.run input.statements db = .ok (rs, db') := h
  rcases Batch.run_cons_ok.mp hrun with ⟨_, _, t₁, h₁, hrest₁, rfl⟩
  rcases Batch.run_cons_ok.mp hrest₁ with ⟨_, _, t₂, h₂, hrest₂, rfl⟩
  rw [Batch.run_nil, Batch.ok_inj] at hrest₂
  simp only [PublicationBatch.markPublished, Batch.ok_inj] at h₁
  have haudit := (insertAuditEvent_ok _ _ _ _ _ h₂).2
  rw [← hrest₂.2, haudit, ← h₁.2]
  exact ⟨_, rfl⟩

/-- The tables with credentials and devices of a vault revoked. -/
def RevocationBatch.revoked (input : RevocationBatch) (credentials : CredentialRow → Bool)
    (devices : SourceDeviceRow → Bool) (db : PairingDb) : PairingDb :=
  { db with
    credentials := Table.update (fun c => credentials c && c.vaultId = input.vaultId)
      (fun c => { c with revokedAt := c.revokedAt.or (some input.now) }) db.credentials
    devices := Table.update (fun d => devices d && d.vaultId = input.vaultId)
      (fun d => { d with status := .revoked, revokedAt := d.revokedAt.or (some input.now) })
      db.devices }

theorem revokeVault_ok (input : RevocationBatch) (db db' : PairingDb) (rs : List (Option String))
    (h : effect db (.revokeVault input) = .ok (rs, db')) :
    ∃ events, db' = { input.revoked (fun _ => true) (fun _ => true) db with
      vaults := Table.update (fun v => v.id = input.vaultId)
        (fun v => { v with status := .revoked }) db.vaults
      auditEvents := events } := by
  have hrun : Batch.run input.vaultStatements db = .ok (rs, db') := h
  rcases Batch.run_cons_ok.mp hrun with ⟨_, _, t₁, h₁, hrest₁, rfl⟩
  rcases Batch.run_cons_ok.mp hrest₁ with ⟨_, _, t₂, h₂, hrest₂, rfl⟩
  rcases Batch.run_cons_ok.mp hrest₂ with ⟨_, _, t₃, h₃, hrest₃, rfl⟩
  rcases Batch.run_cons_ok.mp hrest₃ with ⟨_, _, t₄, h₄, hrest₄, rfl⟩
  rw [Batch.run_nil, Batch.ok_inj] at hrest₄
  simp only [RevocationBatch.revokeVault, Batch.ok_inj] at h₁
  simp only [RevocationBatch.revokeCredentials, Batch.ok_inj] at h₂
  simp only [RevocationBatch.revokeDevices, Batch.ok_inj] at h₃
  have haudit := (insertAuditEvent_ok _ _ _ _ _ h₄).2
  rw [← hrest₄.2, haudit, ← h₃.2, ← h₂.2, ← h₁.2]
  exact ⟨_, rfl⟩

theorem revokeDevice_ok (input : RevocationBatch) (deviceId : String) (db db' : PairingDb)
    (rs : List (Option String)) (h : effect db (.revokeDevice input deviceId) = .ok (rs, db')) :
    ∃ events, db' = { input.revoked (fun c => c.sourceDeviceId = some deviceId)
      (fun d => d.id = deviceId && d.status = .active) db with auditEvents := events } := by
  have hrun : Batch.run (input.deviceStatements deviceId) db = .ok (rs, db') := h
  rcases Batch.run_cons_ok.mp hrun with ⟨_, _, t₁, h₁, hrest₁, rfl⟩
  rcases Batch.run_cons_ok.mp hrest₁ with ⟨_, _, t₂, h₂, hrest₂, rfl⟩
  rcases Batch.run_cons_ok.mp hrest₂ with ⟨_, _, t₃, h₃, hrest₃, rfl⟩
  rw [Batch.run_nil, Batch.ok_inj] at hrest₃
  simp only [RevocationBatch.revokeDevices, Batch.ok_inj] at h₁
  simp only [RevocationBatch.revokeCredentials, Batch.ok_inj] at h₂
  have haudit := (insertAuditEvent_ok _ _ _ _ _ h₃).2
  rw [← hrest₃.2, haudit, ← h₂.2, ← h₁.2]
  exact ⟨_, rfl⟩

/-! ## Requests -/

/-- A request leaves the tables alone, or leaves them as it would by itself. -/
theorem exec_cases (op : PairingOp) (w : Batch.Outcome) (db : PairingDb) :
    (exec op w db).2 = db ∨ ∃ r, effect db op = .ok (r, (exec op w db).2) :=
  (Batch.send_cases _ w _ db).imp id (fun ⟨r, h, _⟩ => ⟨r, h⟩)

/-- A read leaves the tables alone. -/
def PairingOp.isRead : PairingOp → Bool
  | .enrollDevice _ | .exchange _ | .createGrant _ | .confirmSync _ | .markPublished _
  | .revokeVault _ | .revokeDevice _ _ => false
  | _ => true

theorem effect_read (op : PairingOp) (hop : op.isRead = true) (db db' : PairingDb) (r : op.Ret)
    (h : effect db op = .ok (r, db')) : db' = db := by
  cases op <;> simp only [PairingOp.isRead, Bool.false_eq_true] at hop <;>
    simp only [effect, Batch.ok_inj] at h <;> exact h.2.symm

theorem useGrant_keyed (db : PairingDb) (g : GrantRow) (now : Nat) (exchangeId : String)
    (hk : Keyed db) : Keyed (useGrant db g now exchangeId) := by
  have hsame := Table.map_update GrantRow.grantHash (fun g' => g'.grantHash = g.grantHash)
    (fun g' => g'.used now exchangeId) (fun _ => rfl) db.grants
  exact (congrArg List.Nodup hsame).mpr hk

/-- Grants stay told apart. -/
theorem effect_keyed (op : PairingOp) (db db' : PairingDb) (r : op.Ret) (hk : Keyed db)
    (hfresh : drawsFresh op db = true) (h : effect db op = .ok (r, db')) : Keyed db' := by
  cases op with
  | exchange input =>
      rcases exchange_ok input db db' r hk hfresh h with ⟨_, rfl, _⟩ | ⟨g, _, _, rfl, _⟩
      · exact hk
      · exact useGrant_keyed db g _ _ hk
  | enrollDevice input =>
      rcases enrollDevice_ok input db db' r hk hfresh h with ⟨_, rfl, _⟩ | ⟨g, _, _, _, _, _, rfl, _⟩
      · exact hk
      · exact useGrant_keyed db g _ _ hk
  | createGrant input =>
      have hkept : ((db.grants.filter (fun g => g.kept input.now)).map GrantRow.grantHash).Nodup :=
        hk.sublist (List.filter_sublist.map _)
      have hcreated := (createGrant_ok input db db' r h).grants
      unfold Keyed
      rcases hcreated with hgrants | ⟨hgrants, _, hnew⟩
      · rw [hgrants]
        exact hkept
      · rw [hgrants, List.map_append, List.map_singleton]
        refine List.nodup_append.mpr ⟨hkept, List.nodup_singleton _, ?_⟩
        intro k hk' k' hsingle heq
        rcases List.mem_map.mp hk' with ⟨g, hg, hgk⟩
        rw [List.mem_filter] at hg
        rw [List.mem_singleton] at hsingle
        exact hnew g hg.1 hg.2 (hgk.trans (heq.trans hsingle))
  | confirmSync input =>
      rcases confirmSync_ok input db db' r h with ⟨events, rfl⟩
      exact hk
  | markPublished input =>
      rcases markPublished_ok input db db' r h with ⟨events, rfl⟩
      exact hk
  | revokeVault input =>
      rcases revokeVault_ok input db db' r h with ⟨events, rfl⟩
      exact hk
  | revokeDevice input deviceId =>
      rcases revokeDevice_ok input deviceId db db' r h with ⟨events, rfl⟩
      exact hk
  | _ => exact effect_read _ rfl db db' r h ▸ hk

theorem exec_keyed (op : PairingOp) (w : Batch.Outcome) (db : PairingDb) (hk : Keyed db)
    (hfresh : drawsFresh op db = true) : Keyed (exec op w db).2 := by
  rcases exec_cases op w db with hsame | ⟨r, h⟩
  · rw [hsame]; exact hk
  · exact effect_keyed op db _ r hk hfresh h

end Mdevolved.Pairing
