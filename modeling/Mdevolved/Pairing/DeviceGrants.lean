import Mdevolved.Pairing.Acceptance

/-!
# Grants That Enroll a Device

A grant that was created with `deviceEnrollment` is for one more device of a
vault, which expires when the grant says. `exchangeSourceDeviceGrant` keeps to
that: the credential it leaves is bound to the device it enrolls, no reader
accepts it once the device has expired, and confirming it replaces no other
credential (`Enrolls`).

The other exchange does not look at `device_enrollment`. A request that carries
no device is given a credential of no device, so whether an exchange keeps to
its grant is exactly whether its request carries a device
(`enrolls_iff_device`).

## Main definitions

* `GrantsApart`: No two calls draw one grant.
* `Enrolls`: What an exchange and the runs after it make of a credential.

## Theorems

* `accepted_before_expiry`: A credential is accepted before its device expires.
* `confirmed_spares`: Confirming a credential of a device revokes nothing.
* `enrolls_iff_device`: When an exchange keeps to its grant.
* `plain_exchange_unbound`: A run in which one does not.
-/

namespace Mdevolved.Pairing

open Process

variable {ι : Type} (sha256Hex : String → String) (calls : ι → PairingCall)

/-- No two calls draw one grant. -/
def GrantsApart : Prop :=
  ∀ i j created created', calls i = .createPairingGrant created →
    calls j = .createPairingGrant created' →
    sha256Hex created.grant = sha256Hex created'.grant → i = j

theorem grantedBy_unique (hapart : GrantsApart sha256Hex calls) (grantHash : String)
    (created created' : CreateGrantInput) (h : GrantedBy sha256Hex calls grantHash created)
    (h' : GrantedBy sha256Hex calls grantHash created') : created = created' := by
  rcases h with ⟨i, hcall, hhash⟩
  rcases h' with ⟨j, hcall', hhash'⟩
  have hij := hapart i j created created' hcall hcall' (hhash.trans hhash'.symm)
  rw [hij, hcall'] at hcall
  exact (PairingCall.createPairingGrant.inj hcall).symm

/-- No credential is revoked that was not. -/
def RevokesNone (db db' : PairingDb) : Prop :=
  ∀ c ∈ db.credentials, ∃ c' ∈ db'.credentials, c'.id = c.id ∧ c'.revokedAt = c.revokedAt

theorem revokesNone_update (db db' : PairingDb) (p : CredentialRow → Bool)
    (f : CredentialRow → CredentialRow) (hcredentials : db'.credentials = Table.update p f db.credentials)
    (hid : ∀ c, (f c).id = c.id) (hrevoked : ∀ c, (f c).revokedAt = c.revokedAt) :
    RevokesNone db db' := by
  intro c hc
  rw [hcredentials]
  refine ⟨_, Table.update_mem p f db.credentials c hc, ?_⟩
  split
  · exact ⟨hid c, hrevoked c⟩
  · exact ⟨rfl, rfl⟩

/-! ## One credential -/

/-- A credential is accepted before its device expires, whatever else has
    happened to the device. -/
theorem accepted_before_expiry (db : PairingDb) (hd : Distinct db) (c c' : CredentialRow)
    (d : SourceDeviceRow) (hc : c.issued ∈ issuedCredentials db)
    (hdevice : d.enrolled ∈ enrolledDevices db) (howner : c.sourceDeviceId = some d.id)
    (hc' : c' ∈ db.credentials) (hid : c'.id = c.id) (now : Nat)
    (haccepted : acceptedCredential db now c' = true) : before now d.expiresAt = true := by
  have hissued : c'.issued = c.issued :=
    List.inj_on_of_nodup_map hd.credentialIds (List.mem_map_of_mem hc') hc hid
  have howner' : c'.sourceDeviceId = some d.id :=
    (sameCredential CredentialRow.sourceDeviceId (fun _ => rfl) hissued).trans howner
  simp only [acceptedCredential, howner', Option.all_some, Bool.and_eq_true] at haccepted
  rcases List.any_eq_true.mp haccepted.1.2 with ⟨d', hd', hactive⟩
  simp only [Bool.and_eq_true, decide_eq_true_eq] at hactive
  have hsame : d'.enrolled = d.enrolled :=
    List.inj_on_of_nodup_map hd.deviceIds (List.mem_map_of_mem hd') hdevice hactive.1.1.1
  have hexpiry := sameDevice SourceDeviceRow.expiresAt (fun _ => rfl) hsame
  exact hexpiry ▸ hactive.2

/-- Confirming a credential of a device revokes nothing. -/
theorem confirmed_spares (db : PairingDb) (hd : Distinct db) (c : CredentialRow) (deviceId : String)
    (hc : c.issued ∈ issuedCredentials db) (howner : c.sourceDeviceId = some deviceId)
    (b : ConfirmationBatch) (hissued : b.credential.issued ∈ issuedCredentials db)
    (hid : b.credential.id = c.id) (w : Batch.Outcome) :
    RevokesNone db (exec (.confirmSync b) w db).2 := by
  rcases exec_cases (.confirmSync b) w db with hsame | ⟨r, h⟩
  · rw [hsame]
    exact fun c hc => ⟨c, hc, rfl, rfl⟩
  · have hsame : b.credential.issued = c.issued :=
      List.inj_on_of_nodup_map hd.credentialIds hissued hc hid
    have howner' : b.credential.sourceDeviceId = some deviceId :=
      (sameCredential CredentialRow.sourceDeviceId (fun _ => rfl) hsame).trans howner
    rcases confirmSync_ok b db _ r h with ⟨events, hafter⟩
    rw [hafter]
    -- It is a device that confirms, so there is none that it replaces.
    have hnone : ∀ (f : CredentialRow → CredentialRow) (rows : List CredentialRow),
        Table.update b.replaces f rows = rows := by
      intro f rows
      unfold Table.update
      refine List.map_id'' (fun c' => ?_) rows
      simp only [ConfirmationBatch.replaces, howner', Option.isNone_some, Bool.and_false,
        Bool.false_eq_true, if_false]
    exact revokesNone_update db _ b.isOwn _ (hnone _ _) (fun _ => rfl) (fun _ => rfl)

/-! ## One exchange -/

variable [DecidableEq ι]

/-- A request that yields a credential is one of the two exchanges. -/
theorem yields_cases (c : PairingPool ι) (e : ι × Batch.Outcome) (hc : PoolSound sha256Hex calls c)
    (hfresh : Pool.Takes Fresh c e) (input : ExchangeInput)
    (hcall : calls e.1 = .exchangePairingGrant input) (credential : CredentialRow)
    (hyields : (Pool.step exec c e).shared.credentials = c.shared.credentials ++ [credential]) :
    (input.request.sourceDevice = none ∧ credential.sourceDeviceId = none) ∨
      (input.request.sourceDevice.isSome = true ∧ ∃ (b : EnrollmentBatch) (g : GrantRow),
        b.grantHash = sha256Hex input.request.grant ∧ b.Usable c.shared g ∧
        g ∈ c.shared.grants ∧ credential = b.deviceCredential g ∧
        (Pool.step exec c e).shared = b.enrolled c.shared g) := by
  have hmore : ∀ rows : List CredentialRow, rows ≠ rows ++ [credential] :=
    fun rows heq => List.cons_ne_nil _ _ (List.append_cancel_left (heq.symm.trans
      (List.append_nil rows).symm))
  rcases Pool.step_shared exec c e with ⟨-, hsame⟩ | ⟨op, hnext, hstep⟩
  · rw [hsame] at hyields
    exact absurd hyields (hmore _)
  · have hallowed := Pool.takes_allowed c e.1 op hc hnext
    rw [hstep] at hyields ⊢
    rcases exec_cases op e.2 c.shared with hsame | ⟨r, h⟩
    · rw [hsame] at hyields
      exact absurd hyields (hmore _)
    · cases effect_rows op c.shared _ r hc.1.distinct.keyed (hfresh op hnext) h with
      | kept _ _ hcredentials =>
          -- Nothing was yielded, since no credential was added.
          have hlength := congrArg List.length hcredentials
          rw [issuedCredentials, issuedCredentials, hyields, List.length_map, List.length_map,
            List.length_append, List.length_singleton] at hlength
          omega
      | exchanged b g _ _ hafter =>
          rcases hallowed with ⟨input', descriptor, hcall', hnone, rfl⟩
          rw [hcall, PairingCall.exchangePairingGrant.injEq] at hcall'
          rw [hafter] at hyields
          have heq := List.append_cancel_left hyields
          rw [List.cons.injEq] at heq
          exact Or.inl ⟨hcall' ▸ hnone, heq.1 ▸ rfl⟩
      | enrolled b g hfind husable _ _ _ hafter =>
          rcases hallowed with ⟨input', enrollment, descriptor, vaultId, hcall', hdevice, _, rfl⟩
          rw [hcall, PairingCall.exchangePairingGrant.injEq] at hcall'
          subst hcall'
          rw [hafter] at hyields
          have heq := List.append_cancel_left hyields
          rw [List.cons.injEq] at heq
          exact Or.inr ⟨by rw [hdevice]; rfl, _, g, rfl, husable, List.mem_of_find?_eq_some hfind,
            heq.1.symm, hafter⟩

/-- What an exchange, and any run after it, make of a credential that it
    yields. -/
structure Enrolls (created : CreateGrantInput) (credential : CredentialRow) (c : PairingPool ι)
    (e : ι × Batch.Outcome) : Prop where
  bound : ∃ d ∈ (Pool.step exec c e).shared.devices, credential.sourceDeviceId = some d.id ∧
    d.vaultId = credential.vaultId ∧ d.expiresAt = created.deviceExpiresAt
  expires : ∀ es, Run.Along (Pool.Takes Fresh) (Pool.step exec) (Pool.step exec c e) es →
    ∀ vaultId named now found,
      findCredential (Pool.run exec (Pool.step exec c e) es).shared vaultId named now = some found →
      found.id = credential.id → before now created.deviceExpiresAt = true
  exchange : RevokesNone c.shared (Pool.step exec c e).shared
  confirmation : ∀ es, Run.Along (Pool.Takes Fresh) (Pool.step exec) (Pool.step exec c e) es →
    ∀ e' b, (Pool.run exec (Pool.step exec c e) es).next e'.1 = some (.confirmSync b) →
      b.credential.id = credential.id →
      RevokesNone (Pool.run exec (Pool.step exec c e) es).shared
        (Pool.step exec (Pool.run exec (Pool.step exec c e) es) e').shared

/-- An exchange that enrolls a device keeps to its grant. -/
theorem enrolled_enrolls (hapart : GrantsApart sha256Hex calls) (c : PairingPool ι)
    (e : ι × Batch.Outcome) (hc : PoolSound sha256Hex calls c) (hfresh : Pool.Takes Fresh c e)
    (created : CreateGrantInput) (b : EnrollmentBatch)
    (hby : GrantedBy sha256Hex calls b.grantHash created) (g : GrantRow)
    (husable : b.Usable c.shared g) (hg : g ∈ c.shared.grants)
    (hafter : (Pool.step exec c e).shared = b.enrolled c.shared g) :
    Enrolls created (b.deviceCredential g) c e := by
  have hlast := step_poolSound sha256Hex calls c e hc hfresh
  have hexpiry : (b.device g).expiresAt = created.deviceExpiresAt := by
    rcases hc.1.sourced.grants g hg with ⟨created', hby', heq⟩
    rw [husable.grantHash] at hby'
    rw [grantedBy_unique sha256Hex calls hapart b.grantHash created created' hby hby']
    exact congrArg GrantRow.deviceExpiresAt heq
  have hcredential : (b.deviceCredential g).issued ∈
      issuedCredentials (Pool.step exec c e).shared := by
    rw [hafter, issuedCredentials_enrolled]
    exact List.mem_append_right _ (List.mem_singleton_self _)
  have hdevice : (b.device g).enrolled ∈ enrolledDevices (Pool.step exec c e).shared := by
    rw [hafter, enrolledDevices_enrolled]
    exact List.mem_append_right _ (List.mem_singleton_self _)
  refine ⟨?_, ?_, ?_, ?_⟩
  · rw [hafter]
    exact ⟨b.device g, List.mem_append_right _ (List.mem_singleton_self _), rfl, rfl, hexpiry⟩
  · intro es hes vaultId named now found hfind hid
    rcases run_poolSound sha256Hex calls _ es hlast hes with ⟨hthen, hpersist⟩
    have haccepted := List.find?_some hfind
    rw [Bool.and_eq_true] at haccepted
    rw [← hexpiry]
    exact accepted_before_expiry _ hthen.1.distinct (b.deviceCredential g) found (b.device g)
      (hpersist.credentials.subset hcredential) (hpersist.devices.subset hdevice) rfl
      (List.mem_of_find?_eq_some hfind) hid now haccepted.2
  · rw [hafter]
    exact fun c' hc' => ⟨c', List.mem_append_left _ hc', rfl, rfl⟩
  · intro es hes e' b' hnext hid
    rcases run_poolSound sha256Hex calls _ es hlast hes with ⟨hthen, hpersist⟩
    have hissued := Pool.takes_allowed _ e'.1 _ hthen hnext
    rcases Pool.step_shared exec (Pool.run exec (Pool.step exec c e) es) e' with
      ⟨hnone, -⟩ | ⟨op, hop, hstep⟩
    · rw [hnone] at hnext
      cases hnext
    · rw [hnext, Option.some.injEq] at hop
      rw [hstep, ← hop]
      exact confirmed_spares _ hthen.1.distinct (b.deviceCredential g) _
        (hpersist.credentials.subset hcredential) rfl b' hissued.2 hid e'.2

/-! ## Runs -/

/-- In every run, an exchange that yields a credential for a grant keeps to the
    grant exactly if its request carries a device. -/
theorem enrolls_iff_device (hapart : GrantsApart sha256Hex calls) (es : List (ι × Batch.Outcome))
    (e : ι × Batch.Outcome)
    (hfresh : Run.Along (Pool.Takes Fresh) (Pool.step exec) (startPool sha256Hex calls emptyDb)
      (es ++ [e]))
    (i : ι) (created : CreateGrantInput) (hcreated : calls i = .createPairingGrant created)
    (input : ExchangeInput) (hcall : calls e.1 = .exchangePairingGrant input)
    (hpresented : input.request.grant = created.grant)
    (c : PairingPool ι) (hc : Pool.run exec (startPool sha256Hex calls emptyDb) es = c)
    (credential : CredentialRow)
    (hyields : (Pool.step exec c e).shared.credentials = c.shared.credentials ++ [credential]) :
    Enrolls created credential c e ↔ input.request.sourceDevice.isSome = true := by
  rw [Run.along_append] at hfresh
  have hsound := sound_run sha256Hex calls es hfresh.1
  have htakes : Pool.Takes Fresh c e := hc ▸ hfresh.2.1
  rw [hc] at hsound
  rcases yields_cases sha256Hex calls c e hsound htakes input hcall credential hyields with
    ⟨hnone, hunbound⟩ | ⟨hsome, b, g, hhash, husable, hg, rfl, hafter⟩
  · rw [hnone]
    refine ⟨fun henrolls => ?_, fun h => nomatch h⟩
    rcases henrolls.bound with ⟨d, _, howner, _⟩
    rw [hunbound] at howner
    cases howner
  · refine ⟨fun _ => hsome, fun _ => ?_⟩
    have hby : GrantedBy sha256Hex calls b.grantHash created :=
      ⟨i, hcreated, by rw [hhash, hpresented]⟩
    exact enrolled_enrolls sha256Hex calls hapart c e hsound htakes created b hby g husable hg hafter

/-! ## A grant for a device that is exchanged without one -/

/-- A grant for one more device, which expires. -/
def deviceGrant : CreateGrantInput :=
  { deploymentUrl := "origin", now := 2, requestId := "request", maxVaults := none
    vaultId := some "vault", deviceEnrollment := true, deviceExpiresAt := some 100
    newVaultId := "", grant := "device", auditId := "created device" }

/-- A vault is paired, and a grant for one more device of it is exchanged with a
    device and without one. -/
def deviceGrantCalls : Nat → PairingCall
  | 0 => grantCall "first" none
  | 1 => exchangeCall "first"
  | 2 => .createPairingGrant deviceGrant
  | 3 => .exchangePairingGrant (enrollInput "device" "laptop" 4)
  | _ => exchangeCall "device"

/-- The calls up to where the grant has been created. -/
def untilGranted : List (Nat × Batch.Outcome) :=
  [(0, .answered), (1, .answered), (1, .answered), (2, .answered), (2, .answered)]

theorem deviceGrantCalls_apart : GrantsApart id deviceGrantCalls := by
  intro i j created created' hcall hcall' hsame
  match i, j with
  | 0, 0 => rfl
  | 2, 2 => rfl
  | 0, 2 => cases hcall; cases hcall'; exact absurd hsame (by decide)
  | 2, 0 => cases hcall; cases hcall'; exact absurd hsame (by decide)
  | 1, _ => cases hcall
  | 3, _ => cases hcall
  | _ + 4, _ => cases hcall
  | 0, 1 => cases hcall'
  | 0, 3 => cases hcall'
  | 0, _ + 4 => cases hcall'
  | 2, 1 => cases hcall'
  | 2, 3 => cases hcall'
  | 2, _ + 4 => cases hcall'

/-- Where it is exchanged with a device, it is kept to. -/
theorem device_enrolls :
    Enrolls deviceGrant
      { id := "credential laptop", vaultId := "vault", tokenHash := "token laptop"
        pluginVersion := "1.0.0", schemaVersion := 3, createdAt := 4, lastUsedAt := none
        revokedAt := none, sourceDeviceId := some "device laptop" }
      (Pool.run exec (startPool id deviceGrantCalls emptyDb)
        (untilGranted ++ List.replicate 4 (3, .answered))) (3, .answered) :=
  (enrolls_iff_device id deviceGrantCalls deviceGrantCalls_apart
    (untilGranted ++ List.replicate 4 (3, .answered)) (3, .answered) (by decide +kernel) 2
    deviceGrant rfl (enrollInput "device" "laptop" 4) rfl rfl _ rfl _ (by decide +kernel)).mpr rfl

/-- The exchange without a device leaves a credential of none. -/
theorem plain_exchange_unbound :
    ¬ ∀ (sha256Hex : String → String) (calls : Nat → PairingCall), GrantsApart sha256Hex calls →
      ∀ (es : List (Nat × Batch.Outcome)) (e : Nat × Batch.Outcome),
      Run.Along (Pool.Takes Fresh) (Pool.step exec) (startPool sha256Hex calls emptyDb)
        (es ++ [e]) →
      ∀ (i : Nat) (created : CreateGrantInput), calls i = .createPairingGrant created →
      created.deviceEnrollment = true → ∀ (input : ExchangeInput),
      calls e.1 = .exchangePairingGrant input → input.request.grant = created.grant →
      ∀ credential : CredentialRow,
      (Pool.step exec (Pool.run exec (startPool sha256Hex calls emptyDb) es) e).shared.credentials =
        (Pool.run exec (startPool sha256Hex calls emptyDb) es).shared.credentials ++ [credential] →
      Enrolls created credential (Pool.run exec (startPool sha256Hex calls emptyDb) es) e := by
  intro h
  have henrolls := h id deviceGrantCalls deviceGrantCalls_apart
    (untilGranted ++ [(4, .answered)]) (4, .answered) (by decide +kernel) 2 deviceGrant rfl rfl _
    rfl rfl
    { id := "credential device", vaultId := "vault", tokenHash := "token device"
      pluginVersion := "1.0.0", schemaVersion := 3, createdAt := 2, lastUsedAt := none
      revokedAt := none, sourceDeviceId := none } (by decide +kernel)
  rcases henrolls.bound with ⟨d, _, howner, _⟩
  cases howner

end Mdevolved.Pairing
