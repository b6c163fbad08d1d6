import Mdevolved.Pairing.Batches

/-!
# Revocation of a Vault

What becomes of a vault that is revoked. Its credentials and devices are revoked
with it, and a reader accepts credentials of active vaults only. But the grants
that were issued for it stay, and both exchanges make a vault active without
looking at its status where they do: `exchangePairingGrant` never reads it, and
`exchangeSourceDeviceGrant` reads it before its batch, which then pairs the vault
whether or not the grant could be used.

`sparesRevoked` says of the state a batch is sent in that it does not do so to a
revoked vault. Along a run of such batches, and of any other requests, a revoked
vault stays revoked, has no new credential and none that is accepted
(`revoked_for_good`).

A credential does not come back with its vault. No request deletes one, gives it
another token or takes its revocation away, and a new one shares no token with
those there are (`refused_for_good`).

## Main definitions

* `Revoked`: A vault is there and revoked.
* `sparesRevoked`: A batch leaves revoked vaults alone.
* `NothingNew`: A vault stays revoked and has no new credential.
* `CredentialsLater`: What the credentials of a state have become, and new ones.

## Theorems

* `effect_nothingNew`: What one request does to a revoked vault.
* `revoked_for_good`: What any run does to a revoked vault.
* `revoked_vault_paired`: A run that makes a revoked vault active.
* `refused_for_good`: What any run does to a credential that is revoked.
-/

namespace Mdevolved.Pairing

open Process

/-- A vault is there, and it is revoked. -/
def Revoked (db : PairingDb) (vaultId : String) : Prop :=
  (∃ v ∈ db.vaults, v.id = vaultId) ∧ ∀ v ∈ db.vaults, v.id = vaultId → v.status = .revoked

def revokedVault (db : PairingDb) (vaultId : String) : Bool :=
  db.vaults.any (fun v => v.id = vaultId && v.status = .revoked)

theorem revokedVault_of_revoked (db : PairingDb) (vaultId : String) (h : Revoked db vaultId) :
    revokedVault db vaultId = true := by
  rcases h.1 with ⟨v, hv, hid⟩
  refine List.any_eq_true.mpr ⟨v, hv, ?_⟩
  simp only [hid, h.2 v hv hid, decide_true, Bool.and_self]

/-- A batch does not pair with a revoked vault. -/
def sparesRevoked (op : PairingOp) (db : PairingDb) : Bool :=
  match op with
  | .exchange input => (db.grants.find? (input.usable db)).all (fun g => !revokedVault db g.vaultId)
  | .enrollDevice input =>
      db.vaults.all (fun v => !(v.id = input.vaultId && input.fits v && v.status = .revoked))
  | _ => true

/-- A vault stays revoked, and has no credential that it did not have. -/
def NothingNew (vaultId : String) (db db' : PairingDb) : Prop :=
  Revoked db' vaultId ∧ ∀ c ∈ db'.credentials, c.vaultId = vaultId →
    ∃ c' ∈ db.credentials, c'.id = c.id ∧ c'.vaultId = vaultId

theorem NothingNew.refl {vaultId : String} {db : PairingDb} (h : Revoked db vaultId) :
    NothingNew vaultId db db :=
  ⟨h, fun c hc hv => ⟨c, hc, rfl, hv⟩⟩

theorem NothingNew.trans {vaultId : String} {db db' db'' : PairingDb}
    (h : NothingNew vaultId db db') (h' : NothingNew vaultId db' db'') :
    NothingNew vaultId db db'' := by
  refine ⟨h'.1, fun c hc hv => ?_⟩
  rcases h'.2 c hc hv with ⟨c', hc', hid, hv'⟩
  rcases h.2 c' hc' hv' with ⟨c'', hc'', hid', hv''⟩
  exact ⟨c'', hc'', hid'.trans hid, hv''⟩

/-! ## One request -/

section

variable (db db' : PairingDb)

/-- Changing rows leaves a vault revoked, where it changes no identifier and not
    the status of that vault. -/
theorem revoked_update (p : VaultRow → Bool) (f : VaultRow → VaultRow)
    (vaultId : String) (hvaults : db'.vaults = Table.update p f db.vaults)
    (hid : ∀ v, (f v).id = v.id)
    (hstatus : ∀ v ∈ db.vaults, v.id = vaultId → v.status = .revoked → p v = true →
      (f v).status = .revoked)
    (h : Revoked db vaultId) : Revoked db' vaultId := by
  unfold Revoked
  rw [hvaults]
  constructor
  · rcases h.1 with ⟨v, hv, hvid⟩
    have hmem := Table.update_mem p f db.vaults v hv
    refine ⟨_, hmem, ?_⟩
    split
    · exact (hid v).trans hvid
    · exact hvid
  · intro v hv hvid
    rcases Table.mem_update p f db.vaults v hv with ⟨v', hv', ⟨hp, rfl⟩ | ⟨_, rfl⟩⟩
    · have hvid' : v'.id = vaultId := (hid v').symm.trans hvid
      exact hstatus v' hv' hvid' (h.2 v' hv' hvid') hp
    · exact h.2 _ hv' hvid

/-- Changing credentials makes none. -/
theorem nothingNew_update (p : CredentialRow → Bool)
    (f : CredentialRow → CredentialRow) (vaultId : String)
    (hcredentials : db'.credentials = Table.update p f db.credentials)
    (hid : ∀ c, (f c).id = c.id) (hvault : ∀ c, (f c).vaultId = c.vaultId)
    (h : Revoked db' vaultId) : NothingNew vaultId db db' := by
  refine ⟨h, fun c hc hv => ?_⟩
  rw [hcredentials] at hc
  rcases Table.mem_update p f db.credentials c hc with ⟨c', hc', ⟨_, rfl⟩ | ⟨_, rfl⟩⟩
  · exact ⟨c', hc', (hid c').symm, (hvault c').symm.trans hv⟩
  · exact ⟨_, hc', rfl, hv⟩

theorem nothingNew_same (vaultId : String)
    (hvaults : db'.vaults = db.vaults) (hcredentials : db'.credentials = db.credentials)
    (h : Revoked db vaultId) : NothingNew vaultId db db' := by
  refine ⟨?_, fun c hc hv => ⟨c, hcredentials ▸ hc, rfl, hv⟩⟩
  unfold Revoked
  rw [hvaults]
  exact h

/-- A new credential is none of a vault it does not belong to. -/
theorem nothingNew_insert (c : CredentialRow) (vaultId : String)
    (hcredentials : db'.credentials = db.credentials ++ [c]) (hother : c.vaultId ≠ vaultId)
    (h : Revoked db' vaultId) : NothingNew vaultId db db' := by
  refine ⟨h, fun c' hc hv => ?_⟩
  rw [hcredentials] at hc
  rcases List.mem_append.mp hc with hold | hnew
  · exact ⟨c', hold, rfl, hv⟩
  · exact absurd (List.mem_singleton.mp hnew ▸ hv) hother

end

/-- Pairing a vault that was read pairs no revoked one. -/
theorem revoked_pairVaults (input : EnrollmentBatch) (db db' : PairingDb) (vaultId : String)
    (hspares : sparesRevoked (.enrollDevice input) db = true)
    (hvaults : db'.vaults = (input.pairVaults db).vaults) (h : Revoked db vaultId) :
    Revoked db' vaultId := by
  refine revoked_update db db' (fun v => v.id = input.vaultId && input.fits v) input.pair vaultId
    hvaults (fun _ => rfl) ?_ h
  intro v hv _ hstatus hp
  have hspared := List.all_eq_true.mp hspares v hv
  simp only [hstatus, decide_true, Bool.and_true, hp, Bool.not_true, Bool.false_eq_true] at hspared

/-- What a request does to a revoked vault. -/
theorem effect_nothingNew (op : PairingOp) (db db' : PairingDb) (r : op.Ret) (vaultId : String)
    (hk : Keyed db) (hfresh : drawsFresh op db = true) (hspares : sparesRevoked op db = true)
    (hrevoked : Revoked db vaultId) (h : effect db op = .ok (r, db')) :
    NothingNew vaultId db db' := by
  cases op with
  | exchange input =>
      rcases exchange_ok input db db' r hk hfresh h with ⟨_, rfl, _⟩ | ⟨g, hfind, _, rfl, _⟩
      · exact NothingNew.refl hrevoked
      · -- The vault of the grant that was used is not the revoked one.
        have hother : g.vaultId ≠ vaultId := by
          rintro rfl
          simp only [sparesRevoked, hfind, Option.all_some, revokedVault_of_revoked db _ hrevoked,
            Bool.not_true, Bool.false_eq_true] at hspares
        refine nothingNew_insert db _ (input.credential g) vaultId rfl hother ?_
        refine revoked_update db _ _ _ vaultId rfl (fun _ => rfl) ?_ hrevoked
        intro v _ hvid _ hp
        exact absurd (of_decide_eq_true hp ▸ hvid) hother
  | enrollDevice input =>
      rcases enrollDevice_ok input db db' r hk hfresh h with
        ⟨_, rfl, _⟩ | ⟨g, _, husable, _, _, _, rfl, _⟩
      · exact nothingNew_update db _ (fun _ => false) id vaultId (List.map_id _).symm
          (fun _ => rfl) (fun _ => rfl) (revoked_pairVaults input db _ vaultId hspares rfl hrevoked)
      · have hother : g.vaultId ≠ vaultId := by
          rintro rfl
          rcases husable.vault with ⟨v, hv, hid, hstatus, _⟩
          exact hstatus (hrevoked.2 v hv hid)
        exact nothingNew_insert db _ (input.deviceCredential g) vaultId rfl hother
          (revoked_pairVaults input db _ vaultId hspares rfl hrevoked)
  | createGrant input =>
      have hcreated := createGrant_ok input db db' r h
      rcases hcreated.vaults with ⟨keep, new, hvaults, hkeep, hnew⟩
      have hstays : ∀ v ∈ db.vaults, v.id = vaultId → v ∈ db.vaults.filter keep := by
        intro v hv hid
        refine List.mem_filter.mpr ⟨hv, hkeep v ?_⟩
        rw [hrevoked.2 v hv hid]
        exact nofun
      refine ⟨?_, fun c hc hv => ⟨c, hcreated.credentials ▸ hc, rfl, hv⟩⟩
      unfold Revoked
      rw [hvaults]
      rcases hrevoked.1 with ⟨v, hv, hid⟩
      refine ⟨⟨v, List.mem_append_left _ (hstays v hv hid), hid⟩, fun v' hv' hid' => ?_⟩
      rcases List.mem_append.mp hv' with hold | hadded
      · exact hrevoked.2 v' (List.mem_of_mem_filter hold) hid'
      · exact absurd (hid.trans hid'.symm) ((hnew v' hadded).2 v (hstays v hv hid))
  | confirmSync input =>
      rcases confirmSync_ok input db db' r h with ⟨events, rfl⟩
      have htouched : NothingNew vaultId db { db with
          credentials := Table.update input.isOwn
            (fun c => { c with
              pluginVersion := input.pluginVersion, schemaVersion := input.schemaVersion
              lastUsedAt := some input.now }) db.credentials } :=
        nothingNew_update db _ _ _ vaultId rfl (fun _ => rfl) (fun _ => rfl) hrevoked
      exact htouched.trans
        (nothingNew_update _ _ _ _ vaultId rfl (fun _ => rfl) (fun _ => rfl) hrevoked)
  | markPublished input =>
      rcases markPublished_ok input db db' r h with ⟨events, rfl⟩
      exact nothingNew_same db _ vaultId rfl rfl hrevoked
  | revokeVault input =>
      rcases revokeVault_ok input db db' r h with ⟨events, rfl⟩
      exact nothingNew_update db _ _ _ vaultId rfl (fun _ => rfl) (fun _ => rfl)
        (revoked_update db _ _ _ vaultId rfl (fun _ => rfl) (fun _ _ _ _ _ => rfl) hrevoked)
  | revokeDevice input deviceId =>
      rcases revokeDevice_ok input deviceId db db' r h with ⟨events, rfl⟩
      exact nothingNew_update db _ _ _ vaultId rfl (fun _ => rfl) (fun _ => rfl) hrevoked
  | _ =>
      rw [effect_read _ rfl db db' r h]
      exact NothingNew.refl hrevoked

theorem exec_nothingNew (op : PairingOp) (w : Batch.Outcome) (db : PairingDb) (vaultId : String)
    (hk : Keyed db) (hfresh : drawsFresh op db = true) (hspares : sparesRevoked op db = true)
    (hrevoked : Revoked db vaultId) : NothingNew vaultId db (exec op w db).2 := by
  rcases exec_cases op w db with hsame | ⟨r, h⟩
  · rw [hsame]; exact NothingNew.refl hrevoked
  · exact effect_nothingNew op db _ r vaultId hk hfresh hspares hrevoked h

/-- No credential of a revoked vault is accepted, at any time. -/
theorem findCredential_revoked (db : PairingDb) (vaultId : String) (named : CredentialRow → Bool)
    (now : Nat) (h : Revoked db vaultId) : findCredential db vaultId named now = none := by
  refine List.find?_eq_none.mpr (fun c _ hfound => ?_)
  simp only [acceptedCredential, Bool.and_eq_true, decide_eq_true_eq] at hfound
  have hactive := hfound.2.2
  rw [hfound.1.1, statusOf] at hactive
  rcases Option.map_eq_some_iff.mp hactive with ⟨v, hv, hstatus⟩
  have hfind := Table.mem_of_find? VaultRow.id db.vaults vaultId v hv
  rw [h.2 v hfind.1 hfind.2] at hstatus
  cases hstatus

/-! ## Runs -/

variable {ι : Type} [DecidableEq ι]

/-- What every request of a run is to meet: what is drawn is new, and revoked
    vaults are spared. -/
def Spares (op : PairingOp) (_ : Batch.Outcome) (db : PairingDb) : Prop :=
  (drawsFresh op db && sparesRevoked op db) = true

instance (op : PairingOp) (w : Batch.Outcome) (db : PairingDb) : Decidable (Spares op w db) :=
  inferInstanceAs (Decidable (_ = true))

/-- In every run that spares revoked vaults, from whenever a vault is revoked it
    stays revoked, is given no credential, and has none that is accepted. -/
theorem revoked_for_good (sha256Hex : String → String) (calls : ι → PairingCall) (db : PairingDb)
    (hk : Keyed db) (es es' : List (ι × Batch.Outcome))
    (hspares : Run.Along (Pool.Takes Spares) (Pool.step exec) (startPool sha256Hex calls db)
      (es ++ es'))
    (vaultId : String)
    (hrevoked : Revoked (Pool.run exec (startPool sha256Hex calls db) es).shared vaultId) :
    NothingNew vaultId (Pool.run exec (startPool sha256Hex calls db) es).shared
        (Pool.run exec (startPool sha256Hex calls db) (es ++ es')).shared ∧
      ∀ named now, findCredential (Pool.run exec (startPool sha256Hex calls db) (es ++ es')).shared
        vaultId named now = none := by
  rw [Run.along_append] at hspares
  have hkeyed : Keyed (Pool.run exec (startPool sha256Hex calls db) es).shared := by
    refine Run.runFrom_invariant _ (fun c : PairingPool ι => Keyed c.shared) ?_ _ es hk hspares.1
    intro c e hc htakes
    rcases Pool.step_shared exec c e with ⟨-, hsame⟩ | ⟨op, hnext, hstep⟩
    · rw [hsame]; exact hc
    · rw [hstep]
      exact exec_keyed op e.2 c.shared hc ((Bool.and_eq_true _ _).mp (htakes op hnext)).1
  have hlast := Run.runFrom_invariant (Pool.step exec) (fun c : PairingPool ι => Keyed c.shared ∧
    NothingNew vaultId (Pool.run exec (startPool sha256Hex calls db) es).shared c.shared) ?_ _ es'
      ⟨hkeyed, NothingNew.refl hrevoked⟩ hspares.2
  · have hrun : Pool.run exec (startPool sha256Hex calls db) (es ++ es') =
        Run.runFrom (Pool.step exec) (Pool.run exec (startPool sha256Hex calls db) es) es' :=
      Run.runFrom_append _ _ es es'
    rw [hrun]
    exact ⟨hlast.2, fun named now => findCredential_revoked _ vaultId named now hlast.2.1⟩
  · rintro c e ⟨hc, hnothing⟩ htakes
    rcases Pool.step_shared exec c e with ⟨-, hsame⟩ | ⟨op, hnext, hstep⟩
    · rw [hsame]; exact ⟨hc, hnothing⟩
    · have hboth := (Bool.and_eq_true _ _).mp (htakes op hnext)
      rw [hstep]
      exact ⟨exec_keyed op e.2 c.shared hc hboth.1, hnothing.trans
        (exec_nothingNew op e.2 c.shared vaultId hc hboth.1 hboth.2 hnothing.1)⟩

/-! ## A vault that is revoked with a grant outstanding -/

/-- A grant for a vault, a new one at first and then for the one that is
    there. -/
def grantCall (grant : String) (vaultId : Option String) : PairingCall :=
  .createPairingGrant {
    deploymentUrl := "origin", now := 1, requestId := "request", maxVaults := none
    vaultId := vaultId, deviceEnrollment := false, deviceExpiresAt := none
    newVaultId := "vault", grant := grant, auditId := "created " ++ grant }

def exchangeCall (grant : String) : PairingCall :=
  .exchangePairingGrant {
    request := {
      grant := grant, vaultName := "Notes", pluginVersion := "1.0.0", schemaVersion := 3
      sourceDescriptor := none, sourceDevice := none }
    deploymentUrl := "origin", now := 2, requestId := "request", token := "token " ++ grant
    exchangeId := "exchange " ++ grant, credentialId := "credential " ++ grant
    auditId := "paired " ++ grant }

def revokeCall : PairingCall :=
  .revokeVault { now := 3, requestId := "request", vaultId := "vault", auditId := "revoked" }

/-- A vault is paired, a second grant is issued for it, and it is revoked. The
    second grant is exchanged afterwards. -/
def outstandingGrant : Nat → PairingCall
  | 0 => grantCall "first" none
  | 1 => exchangeCall "first"
  | 2 => grantCall "second" (some "vault")
  | 3 => revokeCall
  | _ => exchangeCall "second"

/-- The calls up to the revocation, one after the other. -/
def untilRevoked : List (Nat × Batch.Outcome) :=
  [(0, .answered), (1, .answered), (1, .answered), (2, .answered), (2, .answered), (3, .answered)]

theorem outstandingGrant_spared :
    NothingNew "vault"
        (Pool.run exec (startPool id outstandingGrant emptyDb) untilRevoked).shared
        (Pool.run exec (startPool id outstandingGrant emptyDb)
          (untilRevoked ++ [(4, .answered)])).shared ∧
      ∀ named now, findCredential (Pool.run exec (startPool id outstandingGrant emptyDb)
        (untilRevoked ++ [(4, .answered)])).shared "vault" named now = none := by
  refine revoked_for_good id outstandingGrant emptyDb List.nodup_nil untilRevoked
    [(4, .answered)] (by decide +kernel) "vault" ?_
  unfold Revoked
  decide +kernel

/-- The exchange makes the vault active again, and leaves it a credential that is
    accepted. -/
theorem revoked_vault_paired :
    ¬ ∀ (sha256Hex : String → String) (calls : Nat → PairingCall) (db : PairingDb), Keyed db →
      ∀ es es' : List (Nat × Batch.Outcome),
      Run.Along (Pool.Takes (fun op _ db => drawsFresh op db = true)) (Pool.step exec)
        (startPool sha256Hex calls db) (es ++ es') →
      ∀ vaultId, Revoked (Pool.run exec (startPool sha256Hex calls db) es).shared vaultId →
      NothingNew vaultId (Pool.run exec (startPool sha256Hex calls db) es).shared
          (Pool.run exec (startPool sha256Hex calls db) (es ++ es')).shared ∧
        ∀ named now, findCredential (Pool.run exec (startPool sha256Hex calls db)
          (es ++ es')).shared vaultId named now = none := by
  intro h
  have hnone := (h id outstandingGrant emptyDb List.nodup_nil untilRevoked
    [(4, .answered), (4, .answered)] (by decide +kernel) "vault"
    (by unfold Revoked; decide +kernel)).2 (fun c => c.tokenHash = "token second") 5
  have hsome : (findCredential (Pool.run exec (startPool id outstandingGrant emptyDb)
      (untilRevoked ++ [(4, .answered), (4, .answered)])).shared "vault"
      (fun c => c.tokenHash = "token second") 5).isSome = true := by
    decide +kernel
  rw [hnone] at hsome
  cases hsome

/-! ## Credentials that are revoked -/

/-- A credential is still the same one later, and was revoked when it was. -/
structure CredentialRow.Later (c c' : CredentialRow) : Prop where
  id : c'.id = c.id
  vaultId : c'.vaultId = c.vaultId
  tokenHash : c'.tokenHash = c.tokenHash
  sourceDeviceId : c'.sourceDeviceId = c.sourceDeviceId
  revokedAt : c.revokedAt.isSome = true → c'.revokedAt = c.revokedAt

/-- The credentials of a state are those of an earlier one and new ones, which share no identifier
    and no token with them. -/
def CredentialsLater (db db' : PairingDb) : Prop :=
  ∃ f new, db'.credentials = db.credentials.map f ++ new ∧ (∀ c, CredentialRow.Later c (f c)) ∧
    ∀ n ∈ new, ∀ c ∈ db.credentials, c.id ≠ n.id ∧ c.tokenHash ≠ n.tokenHash

theorem later_refl (c : CredentialRow) : CredentialRow.Later c c where
  id := rfl
  vaultId := rfl
  tokenHash := rfl
  sourceDeviceId := rfl
  revokedAt := fun _ => rfl

theorem CredentialRow.Later.trans {c c' c'' : CredentialRow} (h : c.Later c') (h' : c'.Later c'') :
    c.Later c'' where
  id := h'.id.trans h.id
  vaultId := h'.vaultId.trans h.vaultId
  tokenHash := h'.tokenHash.trans h.tokenHash
  sourceDeviceId := h'.sourceDeviceId.trans h.sourceDeviceId
  revokedAt := by
    intro hrevoked
    have hfirst := h.revokedAt hrevoked
    rw [← hfirst] at hrevoked
    exact (h'.revokedAt hrevoked).trans hfirst

section

variable {db db' db'' : PairingDb}

theorem credentialsLater_same (h : db'.credentials = db.credentials) : CredentialsLater db db' :=
  ⟨id, [], by rw [h, List.map_id, List.append_nil], later_refl, by simp⟩

theorem CredentialsLater.trans (h : CredentialsLater db db') (h' : CredentialsLater db' db'') :
    CredentialsLater db db'' := by
  obtain ⟨f, new, hrows, hlater, hnew⟩ := h
  obtain ⟨f', new', hrows', hlater', hnew'⟩ := h'
  refine ⟨f' ∘ f, new.map f' ++ new', ?_, fun c => (hlater c).trans (hlater' (f c)), ?_⟩
  · rw [hrows', hrows, List.map_append, List.map_map, List.append_assoc]
  · intro n hn c hc
    rcases List.mem_append.mp hn with hold | hadded
    · obtain ⟨n', hn', rfl⟩ := List.mem_map.mp hold
      rw [(hlater' n').id, (hlater' n').tokenHash]
      exact hnew n' hn' c hc
    · have hc' : f c ∈ db'.credentials := by
        rw [hrows]
        exact List.mem_append_left new (List.mem_map_of_mem hc)
      rw [← (hlater c).id, ← (hlater c).tokenHash]
      exact hnew' n hadded (f c) hc'

theorem credentialsLater_update (p : CredentialRow → Bool) (f : CredentialRow → CredentialRow)
    (hf : ∀ c, CredentialRow.Later c (f c))
    (h : db'.credentials = Table.update p f db.credentials) : CredentialsLater db db' := by
  refine ⟨fun c => if p c then f c else c, [], by rw [h, List.append_nil, Table.update], ?_, by simp⟩
  intro c
  dsimp only
  split
  · exact hf c
  · exact later_refl c

theorem credentialsLater_insert (c : CredentialRow) (hc : admitsCredential db.credentials c = true)
    (h : db'.credentials = db.credentials ++ [c]) : CredentialsLater db db' := by
  refine ⟨id, [c], by rw [h, List.map_id], later_refl, ?_⟩
  intro n hn r hr
  have hadmits := List.all_eq_true.mp hc r hr
  rw [List.mem_singleton.mp hn]
  simp only [ne_eq, Bool.and_eq_true, decide_eq_true_eq] at hadmits
  exact hadmits.1

end

/-- Revoking a credential again does not change when it was revoked. -/
theorem later_revoked (now : Nat) (c : CredentialRow) :
    CredentialRow.Later c { c with revokedAt := c.revokedAt.or (some now) } := by
  refine ⟨rfl, rfl, rfl, rfl, fun hrevoked => ?_⟩
  obtain ⟨time, htime⟩ := Option.isSome_iff_exists.mp hrevoked
  rw [htime]
  rfl

theorem effect_credentialsLater (op : PairingOp) (db db' : PairingDb) (r : op.Ret) (hk : Keyed db)
    (hfresh : drawsFresh op db = true) (h : effect db op = .ok (r, db')) :
    CredentialsLater db db' := by
  cases op with
  | exchange input =>
      rcases exchange_ok input db db' r hk hfresh h with ⟨_, rfl, _⟩ | ⟨g, _, hadmits, rfl, _⟩
      · exact credentialsLater_same rfl
      · exact credentialsLater_insert _ hadmits rfl
  | enrollDevice input =>
      rcases enrollDevice_ok input db db' r hk hfresh h with
        ⟨_, rfl, _⟩ | ⟨g, _, _, _, _, hadmits, rfl, _⟩
      · exact credentialsLater_same rfl
      · exact credentialsLater_insert _ hadmits rfl
  | createGrant input => exact credentialsLater_same (createGrant_ok input db db' r h).credentials
  | confirmSync input =>
      obtain ⟨events, rfl⟩ := confirmSync_ok input db db' r h
      have htouched : CredentialsLater db { db with
          credentials := Table.update input.isOwn
            (fun c => { c with
              pluginVersion := input.pluginVersion, schemaVersion := input.schemaVersion
              lastUsedAt := some input.now }) db.credentials } := by
        refine credentialsLater_update input.isOwn _ ?_ rfl
        exact fun c => ⟨rfl, rfl, rfl, rfl, fun _ => rfl⟩
      exact htouched.trans (credentialsLater_update _ _ (later_revoked input.now) rfl)
  | markPublished input =>
      obtain ⟨events, rfl⟩ := markPublished_ok input db db' r h
      exact credentialsLater_same rfl
  | revokeVault input =>
      obtain ⟨events, rfl⟩ := revokeVault_ok input db db' r h
      exact credentialsLater_update _ _ (later_revoked input.now) rfl
  | revokeDevice input deviceId =>
      obtain ⟨events, rfl⟩ := revokeDevice_ok input deviceId db db' r h
      exact credentialsLater_update _ _ (later_revoked input.now) rfl
  | _ =>
      rw [effect_read _ rfl db db' r h]
      exact credentialsLater_same rfl

/-- No credential with a token is accepted later, if all that have it were revoked before and one
    has it. -/
theorem findCredential_later (db db' : PairingDb) (h : CredentialsLater db db') (tokenHash : String)
    (hissued : ∃ c ∈ db.credentials, c.tokenHash = tokenHash)
    (hrevoked : ∀ c ∈ db.credentials, c.tokenHash = tokenHash → c.revokedAt.isSome = true)
    (vaultId : String) (now : Nat) :
    findCredential db' vaultId (fun c => c.tokenHash = tokenHash) now = none := by
  refine List.find?_eq_none.mpr (fun c hc hfound => ?_)
  simp only [acceptedCredential, Bool.and_eq_true, decide_eq_true_eq] at hfound
  obtain ⟨f, new, hrows, hlater, hnew⟩ := h
  rw [hrows] at hc
  rcases List.mem_append.mp hc with hold | hadded
  · obtain ⟨c', hc', rfl⟩ := List.mem_map.mp hold
    have hsome := hrevoked c' hc' ((hlater c').tokenHash.symm.trans hfound.1.2)
    have haccepted := hfound.2.1.1
    rw [(hlater c').revokedAt hsome, Option.isNone_iff_eq_none] at haccepted
    rw [haccepted] at hsome
    cases hsome
  · -- A credential that was added shares no token with one that was there.
    obtain ⟨c', hc', htoken⟩ := hissued
    exact (hnew c hadded c' hc').2 (htoken.trans hfound.1.2.symm)

/-- In every run, whatever becomes of its vault, a credential keeps its vault, its token, its device
    and, from when it is revoked, its revocation. Its token is not accepted again. -/
theorem refused_for_good (sha256Hex : String → String) (calls : ι → PairingCall) (db : PairingDb)
    (hk : Keyed db) (es es' : List (ι × Batch.Outcome))
    (hfresh : Run.Along (Pool.Takes (fun op _ db => drawsFresh op db = true)) (Pool.step exec)
      (startPool sha256Hex calls db) (es ++ es')) :
    CredentialsLater (Pool.run exec (startPool sha256Hex calls db) es).shared
        (Pool.run exec (startPool sha256Hex calls db) (es ++ es')).shared ∧
      ∀ c ∈ (Pool.run exec (startPool sha256Hex calls db) es).shared.credentials,
        (∀ c' ∈ (Pool.run exec (startPool sha256Hex calls db) es).shared.credentials,
          c'.tokenHash = c.tokenHash → c'.revokedAt.isSome = true) →
        ∀ vaultId now, findCredential
          (Pool.run exec (startPool sha256Hex calls db) (es ++ es')).shared vaultId
          (fun c' => c'.tokenHash = c.tokenHash) now = none := by
  rw [Run.along_append] at hfresh
  have hkeyed : ∀ (c : PairingPool ι) (e : ι × Batch.Outcome), Keyed c.shared →
      Pool.Takes (fun op _ db => drawsFresh op db = true) c e →
      Keyed (Pool.step exec c e).shared ∧
        CredentialsLater c.shared (Pool.step exec c e).shared := by
    intro c e hc htakes
    rcases Pool.step_shared exec c e with ⟨-, hsame⟩ | ⟨op, hnext, hstep⟩
    · rw [hsame]
      exact ⟨hc, credentialsLater_same rfl⟩
    · rw [hstep]
      refine ⟨exec_keyed op e.2 c.shared hc (htakes op hnext), ?_⟩
      rcases exec_cases op e.2 c.shared with hsame | ⟨r, h⟩
      · rw [hsame]
        exact credentialsLater_same rfl
      · exact effect_credentialsLater op c.shared _ r hc (htakes op hnext) h
  -- The first part of the run has to leave keys distinct for the second.
  have hfirst := Run.runFrom_invariant (Pool.step exec) (fun c : PairingPool ι => Keyed c.shared)
    (fun c e hc htakes => (hkeyed c e hc htakes).1) _ es hk hfresh.1
  have hlast := Run.runFrom_invariant (Pool.step exec) (fun c : PairingPool ι => Keyed c.shared ∧
    CredentialsLater (Pool.run exec (startPool sha256Hex calls db) es).shared c.shared)
    (fun c e hc htakes => ⟨(hkeyed c e hc.1 htakes).1, hc.2.trans (hkeyed c e hc.1 htakes).2⟩)
    _ es' ⟨hfirst, credentialsLater_same rfl⟩ hfresh.2
  have hlater : CredentialsLater (Pool.run exec (startPool sha256Hex calls db) es).shared
      (Pool.run exec (startPool sha256Hex calls db) (es ++ es')).shared := by
    rw [show Pool.run exec (startPool sha256Hex calls db) (es ++ es') =
      Run.runFrom (Pool.step exec) (Pool.run exec (startPool sha256Hex calls db) es) es' from
        Run.runFrom_append _ _ es es']
    exact hlast.2
  exact ⟨hlater, fun c hc hrevoked => findCredential_later _ _ hlater c.tokenHash ⟨c, hc, rfl⟩
    hrevoked⟩

theorem refused_for_good_paired :
    findCredential (Pool.run exec (startPool id outstandingGrant emptyDb)
      (untilRevoked ++ [(4, .answered), (4, .answered)])).shared "vault"
      (fun c => c.tokenHash = "token first") 9 = none := by
  obtain ⟨c, hc, htoken⟩ : ∃ c ∈ (Pool.run exec (startPool id outstandingGrant emptyDb)
      untilRevoked).shared.credentials, c.tokenHash = "token first" := by decide +kernel
  have hrevoked : ∀ c ∈ (Pool.run exec (startPool id outstandingGrant emptyDb)
      untilRevoked).shared.credentials,
      c.tokenHash = "token first" → c.revokedAt.isSome = true := by decide +kernel
  have hrefused := (refused_for_good id outstandingGrant emptyDb List.nodup_nil untilRevoked
    [(4, .answered), (4, .answered)] (by decide +kernel)).2 c hc (by rwa [htoken]) "vault" 9
  rwa [htoken] at hrefused

end Mdevolved.Pairing
