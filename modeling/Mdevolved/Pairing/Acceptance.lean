import Mdevolved.Pairing.Calls
import Mdevolved.Pairing.Revocation

/-!
# Whether an Accepted Credential Is Accepted

An exchange that answers that a credential was accepted tells the client to go
on and use it. On all three ways to that answer the call has read the device
that has the idempotency key of the request, and has compared what was sent with
what was enrolled, so the credential it speaks of is the one that belongs to the
device (`credential_of_device`). But no way looks at the standing of the device,
its vault or the credential.

Whether a reader accepts the credential at that moment is thus exactly whether
the device `Stands` (`accepted_iff_stands`).

## Main definitions

* `RequestsApart`: No two enrollments that are asked for have one hash.
* `Stands`: A device, its vault and its credential are in force at a time.

## Theorems

* `recognised_request`: What a call recognises is what it has sent itself.
* `credential_of_device`: The credential of a device is the one that was named.
* `accepted_iff_stands`: When the credential is accepted.
* `replay_of_revoked`: A run that answers for a credential nobody accepts.
* `rows_as_asked`: Where rows come from in every run, and that they stay.
-/

namespace Mdevolved.Pairing

open Process

variable {ι : Type} (sha256Hex : String → String) (calls : ι → PairingCall)

/-- No two enrollments that are asked for have one hash. -/
def RequestsApart : Prop :=
  ∀ i j input input' enrollment enrollment', calls i = .exchangePairingGrant input →
    calls j = .exchangePairingGrant input' → input.request.sourceDevice = some enrollment →
    input'.request.sourceDevice = some enrollment' →
    input.requestSha256 sha256Hex enrollment = input'.requestSha256 sha256Hex enrollment' →
    requestText (sha256Hex input.request.grant) (sha256Hex input.deploymentUrl) input.request
        enrollment =
      requestText (sha256Hex input'.request.grant) (sha256Hex input'.deploymentUrl) input'.request
        enrollment'

/-- The device and its vault are active, and a credential of the device is not
    revoked. -/
def Stands (db : PairingDb) (d : SourceDeviceRow) (now : Nat) : Prop :=
  d.status = .active ∧ before now d.expiresAt = true ∧ statusOf db d.vaultId = some .active ∧
    ∃ c ∈ db.credentials, c.sourceDeviceId = some d.id ∧ c.revokedAt = none

/-! ## Recognised requests -/

/-- What a call recognises is an enrollment that it has sent itself. -/
theorem recognised_request (hapart : RequestsApart sha256Hex calls) (i : ι) (input : ExchangeInput)
    (enrollment enrollment' : SourceDeviceEnrollment) (d : SourceDeviceRow)
    (hcall : calls i = .exchangePairingGrant input)
    (hdevice : input.request.sourceDevice = some enrollment)
    (hrecognises : input.recognises sha256Hex enrollment d = true)
    (hrequested : Requested sha256Hex calls d enrollment') : enrollment' = enrollment := by
  rcases hrequested with ⟨j, input', hcall', hdevice', _, _, _, hrecognises'⟩
  simp only [ExchangeInput.recognises, Bool.and_eq_true, decide_eq_true_eq] at hrecognises
  simp only [ExchangeInput.recognises, Bool.and_eq_true, decide_eq_true_eq] at hrecognises'
  have hhash : input'.requestSha256 sha256Hex enrollment' =
      input.requestSha256 sha256Hex enrollment := hrecognises'.2.symm.trans hrecognises.2
  have htext := hapart j i input' input enrollment' enrollment hcall' hcall hdevice' hdevice hhash
  exact (requestText_injective _ _ _ _ _ _ _ _ htext).2.2.2.2.2.2

/-- The credential of a device that a call recognises is the one that it has
    named. -/
theorem credential_of_device (hapart : RequestsApart sha256Hex calls) (db : PairingDb)
    (hw : Wired sha256Hex calls db) (i : ι) (input : ExchangeInput)
    (enrollment : SourceDeviceEnrollment) (hcall : calls i = .exchangePairingGrant input)
    (hdevice : input.request.sourceDevice = some enrollment) (d : SourceDeviceRow)
    (hd : d ∈ db.devices) (hrecognises : input.recognises sha256Hex enrollment d = true) :
    ∃ c ∈ db.credentials, c.sourceDeviceId = some d.id ∧ c.vaultId = d.vaultId ∧
      c.tokenHash = enrollment.credentialSha256 := by
  rcases hw.sourced.devices d.enrolled (List.mem_map_of_mem hd) with
    ⟨enrollment', hrequested, c', hc', howner, hvault, htoken⟩
  have hsame := recognised_request sha256Hex calls hapart i input enrollment enrollment' d.enrolled
    hcall hdevice hrecognises hrequested
  rcases List.mem_map.mp hc' with ⟨c, hc, rfl⟩
  exact ⟨c, hc, howner, hvault, hsame ▸ htoken⟩

/-- One request repeats another if it sends the same to the same deployment. -/
def ExchangeInput.Repeats (input input' : ExchangeInput) : Prop :=
  input.request = input'.request ∧ input.deploymentUrl = input'.deploymentUrl

/-- What repeats a request recognises the same device. -/
theorem ExchangeInput.Repeats.recognises {sha256Hex : String → String}
    {input input' : ExchangeInput} (h : input.Repeats input')
    (enrollment : SourceDeviceEnrollment) (d : SourceDeviceRow) :
    input.recognises sha256Hex enrollment d = input'.recognises sha256Hex enrollment d := by
  unfold ExchangeInput.recognises ExchangeInput.requestSha256
  rw [h.1, h.2]

omit calls in
/-- A call that finds a device it recognises answers for it, and sends nothing
    else. -/
theorem replay_answers [DecidableEq ι] (c : PairingPool ι) (i : ι) (input : ExchangeInput)
    (enrollment : SourceDeviceEnrollment) (d : SourceDeviceRow)
    (hbegins : c.calls i = (PairingCall.exchangePairingGrant input).process sha256Hex)
    (hdevice : input.request.sourceDevice = some enrollment)
    (hverified : verifySourceBoundary sha256Hex enrollment.boundary = .ok enrollment.boundary)
    (hfind : c.shared.devices.find?
      (fun d => d.enrollmentIdempotencyKey = enrollment.idempotencyKey) = some d)
    (hrecognises : input.recognises sha256Hex enrollment d = true) :
    (Pool.step exec c (i, .answered)).result i =
      some (.ok (.exchanged (some (input.accepted d.vaultId d)))) := by
  have hprocess : ∃ next, (PairingCall.exchangePairingGrant input).process sha256Hex =
      .call (.readSourceDeviceByEnrollmentKey enrollment.idempotencyKey) next ∧
      next (.ok (some d)) = .done (.ok (.exchanged (some (input.accepted d.vaultId d)))) := by
    refine ⟨?next, ?begins, ?ends⟩
    case begins =>
      simp only [PairingCall.process, exchangePairingGrant, hdevice, exchangeSourceDeviceGrant,
        hverified]
      rfl
    case ends =>
      simp only [Process.bind]
      rw [if_pos hrecognises]
      rfl
  rcases hprocess with ⟨next, hnext, hdone⟩
  rw [Pool.step_call exec c (i, .answered) _ next (hbegins.trans hnext)]
  simp only [Pool.result, Function.update_self, exec, effect, Batch.send, hfind, hdone]

/-! ## What a reader finds -/

section

variable (db : PairingDb)

theorem device_unique (hd : Distinct db) {d d' : SourceDeviceRow}
    (hmem : d ∈ db.devices) (hmem' : d' ∈ db.devices) (hid : d.id = d'.id) : d = d' := by
  have hids : (db.devices.map SourceDeviceRow.id).Nodup := by
    have hnodup := hd.deviceIds
    rw [enrolledDevices, List.map_map] at hnodup
    exact hnodup
  exact List.inj_on_of_nodup_map hids hmem hmem' hid

theorem device_unique_key (hd : Distinct db) {d d' : SourceDeviceRow}
    (hmem : d ∈ db.devices) (hmem' : d' ∈ db.devices)
    (hkey : d.enrollmentIdempotencyKey = d'.enrollmentIdempotencyKey) : d = d' := by
  have hkeys : (db.devices.map SourceDeviceRow.enrollmentIdempotencyKey).Nodup := by
    have hnodup := hd.deviceKeys
    rw [enrolledDevices, List.map_map] at hnodup
    exact hnodup
  exact List.inj_on_of_nodup_map hkeys hmem hmem' hkey

theorem credential_unique (hd : Distinct db) {c c' : CredentialRow}
    (hmem : c ∈ db.credentials) (hmem' : c' ∈ db.credentials)
    (htoken : c.tokenHash = c'.tokenHash) : c = c' := by
  have htokens : (db.credentials.map CredentialRow.tokenHash).Nodup := by
    have hnodup := hd.tokens
    rw [issuedCredentials, List.map_map] at hnodup
    exact hnodup
  exact List.inj_on_of_nodup_map htokens hmem hmem' htoken

theorem credential_unique_owner (hd : Distinct db) {c c' : CredentialRow}
    (deviceId : String) (hmem : c ∈ db.credentials) (hmem' : c' ∈ db.credentials)
    (howner : c.sourceDeviceId = some deviceId) (howner' : c'.sourceDeviceId = some deviceId) :
    c = c' := by
  have howners : (db.credentials.filterMap CredentialRow.sourceDeviceId).Nodup := by
    have hnodup := hd.owners
    rw [issuedCredentials, List.filterMap_map] at hnodup
    exact hnodup
  exact Table.eq_of_filterMap_nodup _ db.credentials deviceId c c' howners hmem hmem' howner howner'

theorem activeDevice_iff (hd : Distinct db) (d : SourceDeviceRow)
    (hmem : d ∈ db.devices) (now : Nat) : activeDevice db d.id d.vaultId now = true ↔
      d.status = .active ∧ before now d.expiresAt = true := by
  unfold activeDevice
  rw [List.any_eq_true]
  simp only [Bool.and_eq_true, decide_eq_true_eq]
  constructor
  · rintro ⟨d', hmem', ⟨⟨hid, _⟩, hstatus⟩, hbefore⟩
    have heq := device_unique db hd hmem' hmem hid
    exact ⟨heq ▸ hstatus, heq ▸ hbefore⟩
  · rintro ⟨hstatus, hbefore⟩
    exact ⟨d, hmem, ⟨⟨rfl, rfl⟩, hstatus⟩, hbefore⟩

/-- A reader accepts the credential of a device exactly while the device stands. -/
theorem findCredential_iff (hd : Distinct db) (d : SourceDeviceRow)
    (hmem : d ∈ db.devices) (c : CredentialRow) (hc : c ∈ db.credentials)
    (howner : c.sourceDeviceId = some d.id) (hvault : c.vaultId = d.vaultId) (now : Nat) :
    (findCredential db d.vaultId (fun c' => c'.tokenHash = c.tokenHash) now).isSome = true ↔
      Stands db d now := by
  have haccepted : acceptedCredential db now c = true ↔ Stands db d now := by
    unfold acceptedCredential Stands
    rw [howner, hvault, Option.all_some, Bool.and_eq_true, Bool.and_eq_true,
      activeDevice_iff db hd d hmem now, Option.isNone_iff_eq_none, decide_eq_true_eq]
    constructor
    · rintro ⟨⟨hrevoked, hstatus, hbefore⟩, hactive⟩
      exact ⟨hstatus, hbefore, hactive, c, hc, howner, hrevoked⟩
    · rintro ⟨hstatus, hbefore, hactive, c', hc', howner', hrevoked⟩
      have heq := credential_unique_owner db hd d.id hc' hc howner' howner
      exact ⟨⟨heq ▸ hrevoked, hstatus, hbefore⟩, hactive⟩
  rw [← haccepted, findCredential, List.find?_isSome]
  simp only [Bool.and_eq_true, decide_eq_true_eq]
  constructor
  · rintro ⟨c', hc', ⟨_, htoken⟩, haccepts⟩
    exact credential_unique db hd hc' hc htoken ▸ haccepts
  · intro haccepts
    exact ⟨c, hc, ⟨hvault, rfl⟩, haccepts⟩

end

/-! ## Runs -/

variable [DecidableEq ι]

/-- In every run, at the step at which a call answers that a credential was
    accepted, the credential that its request names is accepted for the vault it
    answers with exactly if the device of the request stands. -/
theorem accepted_iff_stands (hapart : RequestsApart sha256Hex calls)
    (es : List (ι × Batch.Outcome)) (e : ι × Batch.Outcome)
    (hfresh : Run.Along (Pool.Takes Fresh) (Pool.step exec) (startPool sha256Hex calls emptyDb)
      (es ++ [e]))
    (input : ExchangeInput) (enrollment : SourceDeviceEnrollment)
    (hcall : calls e.1 = .exchangePairingGrant input)
    (hdevice : input.request.sourceDevice = some enrollment)
    (url vaultId : String) (source : SourceDeviceSummary)
    (hbefore : (Pool.run exec (startPool sha256Hex calls emptyDb) es).result e.1 = none)
    (hafter : (Pool.run exec (startPool sha256Hex calls emptyDb) (es ++ [e])).result e.1 =
      some (.ok (.exchanged (some (.accepted url vaultId source)))))
    (db : PairingDb) (hdb : (Pool.run exec (startPool sha256Hex calls emptyDb) (es ++ [e])).shared = db)
    (now : Nat) :
    (findCredential db vaultId (fun c => c.tokenHash = enrollment.credentialSha256) now).isSome =
        true ↔
      ∃ d ∈ db.devices, d.enrollmentIdempotencyKey = enrollment.idempotencyKey ∧
        Stands db d now := by
  rw [Run.along_append] at hfresh
  have hsound := sound_run sha256Hex calls es hfresh.1
  have hrun : Pool.run exec (startPool sha256Hex calls emptyDb) (es ++ [e]) =
      Pool.step exec (Pool.run exec (startPool sha256Hex calls emptyDb) es) e :=
    Run.runFrom_concat _ _ es e
  rw [hrun] at hafter hdb
  have hlast := step_poolSound sha256Hex calls _ e hsound hfresh.2.1
  have hends := Pool.ends_of_sound _ e _ hsound hfresh.2.1 hbefore hafter
  rw [hdb] at hends
  have hw : Wired sha256Hex calls db := hdb ▸ hlast.1
  rcases hends with ⟨input', enrollment', hcall', hdevice', d, hd, hkey, hrecognises, _, rfl, _⟩
  rw [hcall, PairingCall.exchangePairingGrant.injEq] at hcall'
  subst hcall'
  rw [hdevice, Option.some.injEq] at hdevice'
  subst hdevice'
  rcases credential_of_device sha256Hex calls hapart db hw e.1 input enrollment hcall hdevice d hd
    hrecognises with ⟨c, hc, howner, hvault, htoken⟩
  rw [← htoken, findCredential_iff db hw.distinct d hd c hc howner hvault now]
  constructor
  · intro hstands
    exact ⟨d, hd, hkey, hstands⟩
  · rintro ⟨d', hd', hkey', hstands⟩
    exact device_unique_key db hw.distinct hd hd' (hkey.trans hkey'.symm) ▸ hstands

/-! ## A device that is revoked before its enrollment is repeated -/

def folderBoundary : SourceBoundary :=
  { sourceKind := .folder, capabilities := [.markdown]
    boundarySha256 := canonicalBoundary {
      sourceKind := .folder, capabilities := [.markdown], boundarySha256 := "" } }

def enrollmentOf (name : String) : SourceDeviceEnrollment :=
  { deviceId := "device " ++ name, displayName := name
    rootFingerprintSha256 := "root " ++ name, boundary := folderBoundary
    credentialSha256 := "token " ++ name, idempotencyKey := "key " ++ name }

/-- The enrollment of a device, at a time. -/
def enrollInput (grant name : String) (now : Nat) : ExchangeInput :=
  { request := {
      grant := grant, vaultName := "Notes", pluginVersion := "1.0.0", schemaVersion := 3
      sourceDescriptor := some {
        sourceKind := .folder, label := "Notes", capabilities := [.markdown]
        clientVersion := "1.0.0", syncSchemaVersion := 3 }
      sourceDevice := some (enrollmentOf name) }
    deploymentUrl := "origin", now := now, requestId := "request", token := "token"
    exchangeId := "exchange " ++ grant, credentialId := "credential " ++ name
    auditId := "enrolled " ++ name }

/-- A device is enrolled and revoked, and then its client sends the enrollment
    again. -/
def repeatedEnrollment : Nat → PairingCall
  | 0 => grantCall "grant" none
  | 1 => .exchangePairingGrant (enrollInput "grant" "laptop" 2)
  | 2 => .revokeSourceDevice
      { now := 3, requestId := "request", vaultId := "vault", auditId := "revoked" } "device laptop"
  | _ => .exchangePairingGrant (enrollInput "grant" "laptop" 4)

/-- The calls up to the answer of the first enrollment, one after the other. -/
def untilEnrolled : List (Nat × Batch.Outcome) :=
  (0, .answered) :: List.replicate 5 (1, .answered)

/-- The calls up to the answer of the second enrollment. -/
def untilRepeated : List (Nat × Batch.Outcome) :=
  untilEnrolled ++ [(1, .answered), (2, .answered)]

theorem repeatedEnrollment_apart : RequestsApart id repeatedEnrollment :=
  fun _ _ _ _ _ _ _ _ _ _ heq => heq

theorem repeatedEnrollment_input (i : Nat) (input : ExchangeInput)
    (h : repeatedEnrollment i = .exchangePairingGrant input) :
    input.Repeats (enrollInput "grant" "laptop" 4) := by
  match i with
  | 0 => cases h
  | 1 => cases h; exact ⟨rfl, rfl⟩
  | 2 => cases h
  | _ + 3 => cases h; exact ⟨rfl, rfl⟩

/-- The vault of a credential that was answered to be accepted. -/
def acceptedFor : Option (Except PairingError PairingAnswer) → Option (String × String)
  | some (.ok (.exchanged (some (.accepted url vaultId _)))) => some (url, vaultId)
  | _ => none

theorem accepted_of_acceptedFor (r : Option (Except PairingError PairingAnswer))
    (url vaultId : String) (h : acceptedFor r = some (url, vaultId)) :
    ∃ source, r = some (.ok (.exchanged (some (.accepted url vaultId source)))) := by
  unfold acceptedFor at h
  split at h
  · next url' vaultId' source =>
    rw [Option.some.injEq, Prod.mk.injEq] at h
    exact ⟨source, by rw [h.1, h.2]⟩
  · cases h

/-- At the first answer the credential is accepted, so the device stands. -/
theorem enrolled_stands :
    ∃ d ∈ (Pool.run exec (startPool id repeatedEnrollment emptyDb)
        (untilEnrolled ++ [(1, .answered)])).shared.devices,
      d.enrollmentIdempotencyKey = (enrollmentOf "laptop").idempotencyKey ∧
        Stands (Pool.run exec (startPool id repeatedEnrollment emptyDb)
          (untilEnrolled ++ [(1, .answered)])).shared d 2 := by
  rcases accepted_of_acceptedFor ((Pool.run exec (startPool id repeatedEnrollment emptyDb)
    (untilEnrolled ++ [(1, .answered)])).result 1) "origin" "vault" (by decide +kernel) with
    ⟨source, hsource⟩
  exact (accepted_iff_stands id repeatedEnrollment repeatedEnrollment_apart untilEnrolled
    (1, .answered) (by decide +kernel) (enrollInput "grant" "laptop" 2) (enrollmentOf "laptop") rfl
    rfl "origin" "vault" source (by decide +kernel) hsource _ rfl 2).mp (by decide +kernel)

/-- The second enrollment is answered that its credential was accepted, which no
    reader does. -/
theorem replay_of_revoked :
    ¬ ∀ (sha256Hex : String → String) (calls : Nat → PairingCall), RequestsApart sha256Hex calls →
      ∀ (es : List (Nat × Batch.Outcome)) (e : Nat × Batch.Outcome),
      Run.Along (Pool.Takes Fresh) (Pool.step exec) (startPool sha256Hex calls emptyDb)
        (es ++ [e]) →
      ∀ (input : ExchangeInput) (enrollment : SourceDeviceEnrollment),
      calls e.1 = .exchangePairingGrant input → input.request.sourceDevice = some enrollment →
      ∀ (url vaultId : String) (source : SourceDeviceSummary),
      (Pool.run exec (startPool sha256Hex calls emptyDb) es).result e.1 = none →
      (Pool.run exec (startPool sha256Hex calls emptyDb) (es ++ [e])).result e.1 =
        some (.ok (.exchanged (some (.accepted url vaultId source)))) →
      (findCredential (Pool.run exec (startPool sha256Hex calls emptyDb) (es ++ [e])).shared vaultId
        (fun c => c.tokenHash = enrollment.credentialSha256) input.now).isSome = true := by
  intro h
  have hfresh : Run.Along (Pool.Takes Fresh) (Pool.step exec)
      (startPool id repeatedEnrollment emptyDb) (untilRepeated ++ [(3, .answered)]) := by
    decide +kernel
  have hsound := sound_run id repeatedEnrollment untilRepeated
    ((Run.along_append _ _ _ _ _).mp hfresh).1
  have hrun := Run.runFrom_concat (Pool.step exec) (startPool id repeatedEnrollment emptyDb)
    untilRepeated (3, .answered)
  have hbegins : (Pool.run exec (startPool id repeatedEnrollment emptyDb) untilRepeated).calls 3 =
      (PairingCall.exchangePairingGrant (enrollInput "grant" "laptop" 4)).process id :=
    Pool.run_calls_of_notMem _ _ 3 (by decide)
  -- The device that was enrolled is the one that the second request asks for.
  rcases Option.isSome_iff_exists.mp (show ((Pool.run exec (startPool id repeatedEnrollment emptyDb)
    untilRepeated).shared.devices.find? (fun d => d.enrollmentIdempotencyKey =
      (enrollmentOf "laptop").idempotencyKey)).isSome = true by decide +kernel) with ⟨d, hfind⟩
  rcases hsound.1.sourced.devices d.enrolled (List.mem_map_of_mem (List.mem_of_find?_eq_some hfind))
    with ⟨enrollment, ⟨i, input, hcall, hdevice, hverified, _, _, hrecognises⟩, _⟩
  have hrepeats := repeatedEnrollment_input i input hcall
  rw [hrepeats.1] at hdevice
  have hlaptop : enrollmentOf "laptop" = enrollment := Option.some.inj hdevice
  rw [hrepeats.recognises, ← hlaptop] at hrecognises
  have hanswer := replay_answers id _ 3 (enrollInput "grant" "laptop" 4) (enrollmentOf "laptop") d
    hbegins rfl (hlaptop ▸ hverified) hfind hrecognises
  have haccepted := h id repeatedEnrollment repeatedEnrollment_apart untilRepeated (3, .answered)
    hfresh (enrollInput "grant" "laptop" 4) (enrollmentOf "laptop") rfl rfl _ _ _
    (by decide +kernel) (hrun ▸ hanswer)
  -- Every credential is revoked by then.
  have hrevoked : (Pool.run exec (startPool id repeatedEnrollment emptyDb)
      (untilRepeated ++ [(3, .answered)])).shared.credentials.all
        (fun c => c.revokedAt.isSome) = true := by
    decide +kernel
  rcases List.find?_isSome.mp haccepted with ⟨c, hc, hfound⟩
  have hrevoked' := List.all_eq_true.mp hrevoked c hc
  simp only [acceptedCredential, Bool.and_eq_true, Option.isNone_iff_eq_none] at hfound
  rw [hfound.2.1.1] at hrevoked'
  cases hrevoked'

/-! ## Where rows come from in every run -/

/-- In every run that draws new identifiers, every grant, device and credential of a device is as a
    call asked for it, rows are told apart, and what was enrolled and issued at some point stays. -/
theorem rows_as_asked (es es' : List (ι × Batch.Outcome))
    (hfresh : Run.Along (Pool.Takes Fresh) (Pool.step exec) (startPool sha256Hex calls emptyDb)
      (es ++ es')) :
    Wired sha256Hex calls
        (Pool.run exec (startPool sha256Hex calls emptyDb) (es ++ es')).shared ∧
      Persist (Pool.run exec (startPool sha256Hex calls emptyDb) es).shared
        (Pool.run exec (startPool sha256Hex calls emptyDb) (es ++ es')).shared := by
  rw [Run.along_append] at hfresh
  have hrun : Pool.run exec (startPool sha256Hex calls emptyDb) (es ++ es') =
      Pool.run exec (Pool.run exec (startPool sha256Hex calls emptyDb) es) es' :=
    Run.runFrom_append _ _ es es'
  have hlast := run_poolSound sha256Hex calls _ es' (sound_run sha256Hex calls es hfresh.1) hfresh.2
  rw [hrun]
  exact ⟨hlast.1.1, hlast.2⟩

/-- Also the rows of the device that is enrolled and revoked. -/
theorem rows_as_asked_repeated :
    Wired id repeatedEnrollment
        (Pool.run exec (startPool id repeatedEnrollment emptyDb) (untilEnrolled ++
          [(1, .answered), (2, .answered)])).shared ∧
      Persist (Pool.run exec (startPool id repeatedEnrollment emptyDb) untilEnrolled).shared
        (Pool.run exec (startPool id repeatedEnrollment emptyDb) (untilEnrolled ++
          [(1, .answered), (2, .answered)])).shared :=
  rows_as_asked id repeatedEnrollment untilEnrolled [(1, .answered), (2, .answered)]
    (by decide +kernel)

end Mdevolved.Pairing
