import Mdevolved.Pairing.Enrollment

/-!
# What Calls Leave Behind

Where the rows of the pairing tables come from in any run of calls. A grant and
its origin are as a call to create one asked for them, and a device is as a call
to exchange a grant asked for it. The credential of a device has the token that
the same request named.

What is in the tables is enough to say so, because a request only adds rows and
a call sends what its own input says. `CallAllowed` says what a call sends, and
`CallAnswers` what its answer tells of the tables it ends in.

## Main definitions

* `Requested`, `GrantedBy`: A device and a grant are as a call asked for them.
* `Sourced`: So are all of them.
* `Wired`: And rows are told apart.
* `CallAllowed`, `CallAnswers`: What a call sends, and what it answers.

## Theorems

* `exec_wired`: What a request keeps.
* `call_meets`: What a call sends and answers, whatever others do.
* `sound_run`, `run_poolSound`: Every run of calls keeps to it, and only adds rows.
-/

namespace Mdevolved.Pairing

open Process

variable {ι : Type} (sha256Hex : String → String) (calls : ι → PairingCall)

/-! ## Where rows come from -/

/-- A device is as one of the calls asked for it. -/
def Requested (d : SourceDeviceRow) (enrollment : SourceDeviceEnrollment) : Prop :=
  ∃ i input, calls i = .exchangePairingGrant input ∧
    input.request.sourceDevice = some enrollment ∧
    verifySourceBoundary sha256Hex enrollment.boundary = .ok enrollment.boundary ∧
    d.id = enrollment.deviceId ∧ d.enrollmentIdempotencyKey = enrollment.idempotencyKey ∧
    input.recognises sha256Hex enrollment d = true

/-- A grant is one that one of the calls creates. -/
def GrantedBy (grantHash : String) (created : CreateGrantInput) : Prop :=
  ∃ i, calls i = .createPairingGrant created ∧ sha256Hex created.grant = grantHash

/-- Every row is as one of the calls asked for it. -/
structure Sourced (db : PairingDb) : Prop where
  grants : ∀ g ∈ db.grants, ∃ created, GrantedBy sha256Hex calls g.grantHash created ∧
    g.issued = (created.grantBatch sha256Hex).grant
  origins : ∀ o ∈ db.origins, ∃ created, GrantedBy sha256Hex calls o.grantHash created ∧
    o.deploymentOrigin = created.deploymentUrl
  devices : ∀ d ∈ enrolledDevices db, ∃ enrollment, Requested sha256Hex calls d enrollment ∧
    ∃ c ∈ issuedCredentials db, c.sourceDeviceId = some d.id ∧ c.vaultId = d.vaultId ∧
      c.tokenHash = enrollment.credentialSha256
  granted : ∀ d ∈ enrolledDevices db, ∃ created,
    GrantedBy sha256Hex calls d.enrollmentGrantSha256 created ∧
      d.expiresAt = created.deviceExpiresAt ∧ d.vaultId = (created.grantBatch sha256Hex).vaultId

structure Wired (db : PairingDb) : Prop where
  distinct : Distinct db
  sourced : Sourced sha256Hex calls db

theorem wired_empty : Wired sha256Hex calls emptyDb :=
  ⟨distinct_empty, ⟨fun _ h => absurd h List.not_mem_nil, fun _ h => absurd h List.not_mem_nil,
    fun _ h => absurd h List.not_mem_nil, fun _ h => absurd h List.not_mem_nil⟩⟩

/-- What a call sends. What it confirms is a credential that was issued. -/
def CallAllowed (call : PairingCall) (op : PairingOp) (db : PairingDb) : Prop :=
  match op with
  | .enrollDevice b => ∃ input enrollment descriptor vaultId,
      call = .exchangePairingGrant input ∧ input.request.sourceDevice = some enrollment ∧
        verifySourceBoundary sha256Hex enrollment.boundary = .ok enrollment.boundary ∧
        b = input.enrollmentBatch sha256Hex enrollment descriptor vaultId
  | .exchange b => ∃ input descriptor, call = .exchangePairingGrant input ∧
      input.request.sourceDevice = none ∧ b = input.exchangeBatch sha256Hex descriptor
  | .createGrant b => ∃ created, call = .createPairingGrant created ∧
      b = created.grantBatch sha256Hex
  | .confirmSync b => (∃ input, call = .confirmVaultSync input) ∧
      b.credential.issued ∈ issuedCredentials db
  | .markPublished _ => ∃ input, call = .confirmVaultSync input
  | .revokeVault b => call = .revokeVault b
  | .revokeDevice b deviceId => call = .revokeSourceDevice b deviceId
  | _ => True

/-- What a call answers: that a credential is accepted only for a device that is
    there and that it recognises, and that it has made one only where no device
    was sent. -/
def CallAnswers (call : PairingCall) : Except PairingError PairingAnswer → PairingDb → Prop
  | .ok (.exchanged (some (.accepted url vaultId source))), db =>
      ∃ input enrollment, call = .exchangePairingGrant input ∧
        input.request.sourceDevice = some enrollment ∧ ∃ d ∈ db.devices,
          d.enrollmentIdempotencyKey = enrollment.idempotencyKey ∧
          input.recognises sha256Hex enrollment d = true ∧ url = input.deploymentUrl ∧
          vaultId = d.vaultId ∧ source = summary d input.now
  | .ok (.exchanged (some (.credential _ _ _))), _ =>
      ∃ input, call = .exchangePairingGrant input ∧ input.request.sourceDevice = none
  | _, _ => True

/-! ## One request -/

section

variable (i : ι) (op : PairingOp)

/-- A device that is enrolled is as the call that enrolls it asked for it. -/
theorem requested_device (input : ExchangeInput) (enrollment : SourceDeviceEnrollment)
    (descriptor : SourceDescriptor) (vaultId : String) (g : GrantRow)
    (hcall : calls i = .exchangePairingGrant input)
    (hdevice : input.request.sourceDevice = some enrollment)
    (hverified : verifySourceBoundary sha256Hex enrollment.boundary = .ok enrollment.boundary) :
    Requested sha256Hex calls
      ((input.enrollmentBatch sha256Hex enrollment descriptor vaultId).device g).enrolled
      enrollment := by
  refine ⟨i, input, hcall, hdevice, hverified, rfl, rfl, ?_⟩
  simp only [ExchangeInput.recognises, SourceDeviceRow.enrolled, EnrollmentBatch.device,
    ExchangeInput.enrollmentBatch, decide_true, Bool.and_self]

theorem effect_sourced (db db' : PairingDb) (r : op.Ret)
    (hw : Wired sha256Hex calls db) (hallowed : CallAllowed sha256Hex (calls i) op db)
    (hfresh : drawsFresh op db = true) (h : effect db op = .ok (r, db')) :
    Sourced sha256Hex calls db' := by
  have hissued := effect_issued op db db' r hw.distinct.keyed hfresh h
  have hrows := effect_rows op db db' r hw.distinct.keyed hfresh h
  have hcreated : ∀ b, op = .createGrant b → ∃ created,
      calls i = .createPairingGrant created ∧ b = created.grantBatch sha256Hex := by
    rintro b rfl
    exact hallowed
  have hgrants : ∀ g ∈ db'.grants, ∃ created, GrantedBy sha256Hex calls g.grantHash created ∧
      g.issued = (created.grantBatch sha256Hex).grant := by
    intro g hg
    rcases hissued.grants g hg with ⟨g', hg', hsame, _⟩ | ⟨b, hop, rfl⟩
    · rcases hw.sourced.grants g' hg' with ⟨created, hby, heq⟩
      have hhash : g'.grantHash = g.grantHash :=
        show g'.issued.grantHash = g.issued.grantHash from congrArg GrantRow.grantHash hsame
      exact ⟨created, hhash ▸ hby, hsame ▸ heq⟩
    · rcases hcreated b hop with ⟨created, hcall, rfl⟩
      exact ⟨created, ⟨i, hcall, rfl⟩, rfl⟩
  have horigins : ∀ o ∈ db'.origins, ∃ created, GrantedBy sha256Hex calls o.grantHash created ∧
      o.deploymentOrigin = created.deploymentUrl := by
    intro o ho
    rcases hissued.origins o ho with hold | ⟨b, hop, rfl⟩
    · exact hw.sourced.origins o hold
    · rcases hcreated b hop with ⟨created, hcall, rfl⟩
      exact ⟨created, ⟨i, hcall, rfl⟩, rfl⟩
  cases hrows with
  | kept _ hdevices hcredentials =>
      refine ⟨hgrants, horigins, ?_, ?_⟩
      · rw [hdevices, hcredentials]; exact hw.sourced.devices
      · rw [hdevices]; exact hw.sourced.granted
  | exchanged input g _ _ hafter =>
      have hdevices : enrolledDevices db' = enrolledDevices db := by rw [hafter]; rfl
      have hcredentials := hafter ▸ issuedCredentials_exchanged input db g
      refine ⟨hgrants, horigins, ?_, ?_⟩
      · rw [hdevices, hcredentials]
        intro d hd
        rcases hw.sourced.devices d hd with ⟨enrollment, hrequested, c, hc, hthe⟩
        exact ⟨enrollment, hrequested, c, List.mem_append_left _ hc, hthe⟩
      · rw [hdevices]; exact hw.sourced.granted
  | enrolled b g hfind husable _ _ _ hafter =>
      have hcredentials := hafter ▸ issuedCredentials_enrolled b db g
      have hdevices := hafter ▸ enrolledDevices_enrolled b db g
      rcases hallowed with ⟨input, enrollment, descriptor, vaultId, hcall, hdevice, hverified, rfl⟩
      refine ⟨hgrants, horigins, ?_, ?_⟩
      · rw [hdevices, hcredentials]
        intro d hd
        rcases List.mem_append.mp hd with hold | hnew
        · rcases hw.sourced.devices d hold with ⟨enrollment', hrequested, c, hc, hthe⟩
          exact ⟨enrollment', hrequested, c, List.mem_append_left _ hc, hthe⟩
        · rw [List.mem_singleton.mp hnew]
          exact ⟨enrollment, requested_device sha256Hex calls i input enrollment descriptor vaultId
            g hcall hdevice hverified, _, List.mem_append_right _ (List.mem_singleton_self _),
            rfl, rfl, rfl⟩
      · -- The new device is of the vault its grant is for, and expires when that says.
        rw [hdevices]
        intro d hd
        rcases List.mem_append.mp hd with hold | hnew
        · exact hw.sourced.granted d hold
        · rw [List.mem_singleton.mp hnew]
          rcases hw.sourced.grants g (List.mem_of_find?_eq_some hfind) with ⟨created, hby, heq⟩
          rw [husable.grantHash] at hby
          exact ⟨created, hby, congrArg GrantRow.deviceExpiresAt heq,
            congrArg GrantRow.vaultId heq⟩

/-- The identifier drawn for an exchange is a new one. -/
def Fresh (op : PairingOp) (_ : Batch.Outcome) (db : PairingDb) : Prop :=
  drawsFresh op db = true

instance (op : PairingOp) (w : Batch.Outcome) (db : PairingDb) : Decidable (Fresh op w db) :=
  inferInstanceAs (Decidable (_ = true))

theorem effect_persist (db db' : PairingDb) (r : op.Ret) (hk : Keyed db)
    (hfresh : drawsFresh op db = true) (h : effect db op = .ok (r, db')) : Persist db db' :=
  (effect_rows op db db' r hk hfresh h).persist

theorem exec_persist (w : Batch.Outcome) (db : PairingDb) (hk : Keyed db)
    (hfresh : Fresh op w db) : Persist db (exec op w db).2 := by
  rcases exec_cases op w db with hsame | ⟨r, h⟩
  · rw [hsame]; exact Persist.refl db
  · exact effect_persist op db _ r hk hfresh h

theorem exec_wired (w : Batch.Outcome) (db : PairingDb)
    (hw : Wired sha256Hex calls db) (hallowed : CallAllowed sha256Hex (calls i) op db)
    (hfresh : Fresh op w db) : Wired sha256Hex calls (exec op w db).2 := by
  rcases exec_cases op w db with hsame | ⟨r, h⟩
  · rw [hsame]; exact hw
  · have hk := effect_keyed op db _ r hw.distinct.keyed hfresh h
    exact ⟨(effect_rows op db _ r hw.distinct.keyed hfresh h).distinct hw.distinct hk,
      effect_sourced sha256Hex calls i op db _ r hw hallowed hfresh h⟩

end

/-! ## One call -/

theorem exec_ok (op : PairingOp) (w : Batch.Outcome) (db : PairingDb) (r : op.Ret)
    (h : (exec op w db).1 = .ok r) : effect db op = .ok (r, (exec op w db).2) :=
  Batch.send_ok _ w _ db r h

theorem exec_read (op : PairingOp) (hop : op.isRead = true) (w : Batch.Outcome) (db : PairingDb) :
    (exec op w db).2 = db := by
  rcases exec_cases op w db with hsame | ⟨r, h⟩
  · exact hsame
  · exact effect_read op hop db _ r h

/-- The device that is found by its key is the one that has it. -/
theorem found_device (db : PairingDb) (hd : Distinct db) (d d' : SourceDeviceRow)
    (key : String) (hmem : d ∈ enrolledDevices db) (hkey : d.enrollmentIdempotencyKey = key)
    (hfind : db.devices.find? (fun d => d.enrollmentIdempotencyKey = key) = some d') :
    d' ∈ db.devices ∧ d'.enrollmentIdempotencyKey = key ∧ d'.enrolled = d := by
  have hfound := Table.mem_of_find? SourceDeviceRow.enrollmentIdempotencyKey db.devices key d' hfind
  refine ⟨hfound.1, hfound.2, ?_⟩
  exact List.inj_on_of_nodup_map hd.deviceKeys (List.mem_map_of_mem hfound.1) hmem
    (hfound.2.trans hkey.symm)

/-- What an exchange answers, as `CallAnswers` has it. -/
def ExchangeAnswers (input : ExchangeInput) :
    Except PairingError (Option PairingExchangeResponse) → PairingDb → Prop
  | .ok (some (.accepted url vaultId source)), db => ∃ enrollment,
      input.request.sourceDevice = some enrollment ∧ ∃ d ∈ db.devices,
        d.enrollmentIdempotencyKey = enrollment.idempotencyKey ∧
        input.recognises sha256Hex enrollment d = true ∧ url = input.deploymentUrl ∧
        vaultId = d.vaultId ∧ source = summary d input.now
  | .ok (some (.credential _ _ _)), _ => input.request.sourceDevice = none
  | _, _ => True

/-- A process of a call that sends what it may and ends as it should. -/
abbrev CallMeets {α : Type} (call : PairingCall) (Q : Except PairingError α → PairingDb → Prop)
    (p : PairingProcess α) (db : PairingDb) : Prop :=
  p.Meets exec Fresh (Wired sha256Hex calls) Persist (CallAllowed sha256Hex call) Q db

/-- A read, which a call may always send. -/
theorem read_meets {α : Type} {call : PairingCall} {Q : Except PairingError α → PairingDb → Prop}
    (op : PairingOp) (hop : op.isRead = true) (f : op.Ret → PairingProcess α) (db : PairingDb)
    (hQ : ∀ e t, Q (.error e) t)
    (h : ∀ t r, Wired sha256Hex calls t → Persist db t → effect t op = .ok (r, t) →
      CallMeets sha256Hex calls call Q (f r) t) :
    CallMeets sha256Hex calls call Q (ask op >>= f) db := by
  refine meets_request op f db (fun t hI hst => ⟨?_, fun w _ => ?_⟩)
  · cases op <;> first | exact trivial | cases hop
  · rw [exec_read op hop w t]
    refine ⟨fun r hr => h t r hI hst ?_, fun e _ => hQ e t⟩
    have heffect := exec_ok op w t r hr
    rwa [exec_read op hop w t] at heffect

theorem enrollDevice_meets (input : ExchangeInput) (enrollment : SourceDeviceEnrollment)
    (descriptor : SourceDescriptor) (vaultId : String) (db : PairingDb)
    (hdevice : input.request.sourceDevice = some enrollment)
    (hverified : verifySourceBoundary sha256Hex enrollment.boundary = .ok enrollment.boundary) :
    CallMeets sha256Hex calls (.exchangePairingGrant input) (ExchangeAnswers sha256Hex input)
      (enrollDevice sha256Hex input enrollment descriptor vaultId) db := by
  refine meets_bind _ _ _ (meets_tryCatch _ _ _ (fun t hI hst => ⟨⟨input, enrollment, descriptor,
    vaultId, rfl, hdevice, hverified, rfl⟩, fun w hC => ?_⟩))
  cases hr : (exec (.enrollDevice
      (input.enrollmentBatch sha256Hex enrollment descriptor vaultId)) w t).1 with
  | error e => exact trivial
  | ok results =>
      have heffect := exec_ok _ w t results hr
      have hexecuted := enrollDevice_ok _ t _ results hI.distinct.keyed hC heffect
      change CallMeets _ _ _ _ (if results.take 4 = List.replicate 4 (some vaultId) then _ else _) _
      split
      · next hall =>
        -- The batch went through, so the device that is read is the one it enrolled.
        have hfirst : (results[0]?).join = some vaultId := by
          have hhead : (results.take 4)[0]? = some (some vaultId) := by
            rw [hall]
            rfl
          rw [List.getElem?_take_of_lt (by omega)] at hhead
          rw [hhead]
          rfl
        rcases hexecuted with ⟨_, _, hnone⟩ | ⟨g, _, _, _, _, _, hafter, hvault⟩
        · rw [hnone] at hfirst
          cases hfirst
        · have hsame : g.vaultId = vaultId := Option.some.inj (hvault.symm.trans hfirst)
          refine read_meets sha256Hex calls _ rfl _ _ (fun _ _ => trivial) ?_
          intro t' r hI' hst' hread
          have hd := enrolledDevices_enrolled
            (input.enrollmentBatch sha256Hex enrollment descriptor vaultId) t g
          have hmem : ((input.enrollmentBatch sha256Hex enrollment descriptor vaultId).device
              g).enrolled ∈ enrolledDevices t' := by
            refine hst'.devices.subset ?_
            rw [hafter, hd]
            exact List.mem_append_right _ (List.mem_singleton_self _)
          simp only [effect, Batch.ok_inj, and_true] at hread
          cases r with
          | none => exact trivial
          | some d =>
              rcases found_device t' hI'.distinct _ d _ hmem rfl hread with ⟨hfound, hkey, heq⟩
              have hrecognised : input.recognises sha256Hex enrollment d.enrolled = true := by
                rw [heq]
                simp only [ExchangeInput.recognises, SourceDeviceRow.enrolled,
                  EnrollmentBatch.device, ExchangeInput.enrollmentBatch, decide_true,
                  Bool.and_self]
              have hvault' : d.vaultId = g.vaultId :=
                congrArg SourceDeviceRow.vaultId heq
              exact ⟨enrollment, hdevice, d, hfound, hkey, hrecognised, rfl,
                (hvault'.trans hsame).symm, rfl⟩
      · refine read_meets sha256Hex calls _ rfl _ _ (fun _ _ => trivial) ?_
        intro t' r hI' _ hread
        simp only [effect, Batch.ok_inj, and_true] at hread
        cases r with
        | none => exact trivial
        | some d =>
            have hfound := Table.mem_of_find? SourceDeviceRow.enrollmentIdempotencyKey _ _ d hread
            change CallMeets _ _ _ _ (if _ then _ else _) _
            split
            · next hrecognised =>
              rw [Bool.and_eq_true] at hrecognised
              exact ⟨enrollment, hdevice, d, hfound.1, hfound.2, hrecognised.2, rfl, rfl, rfl⟩
            · exact trivial

theorem verifySourceBoundary_ok (boundary verified : SourceBoundary)
    (h : verifySourceBoundary sha256Hex boundary = .ok verified) :
    verifySourceBoundary sha256Hex boundary = .ok boundary := by
  unfold verifySourceBoundary at h ⊢
  split at h
  · next heq => rw [if_pos heq]
  · cases h

theorem exchangeSourceDeviceGrant_meets (input : ExchangeInput)
    (enrollment : SourceDeviceEnrollment) (descriptor : Option SourceDescriptor) (db : PairingDb)
    (hdevice : input.request.sourceDevice = some enrollment) :
    CallMeets sha256Hex calls (.exchangePairingGrant input) (ExchangeAnswers sha256Hex input)
      (exchangeSourceDeviceGrant sha256Hex input enrollment descriptor) db := by
  refine meets_ofExcept _ _ db (fun boundary hboundary => ?_) (fun _ _ => trivial)
  have hverified := verifySourceBoundary_ok sha256Hex enrollment.boundary boundary hboundary
  refine read_meets sha256Hex calls _ rfl _ db (fun _ _ => trivial) ?_
  intro t₁ replay _ _ hreplay
  simp only [effect, Batch.ok_inj, and_true] at hreplay
  cases replay with
  | some d =>
      have hfound := Table.mem_of_find? SourceDeviceRow.enrollmentIdempotencyKey _ _ d hreplay
      dsimp only
      split
      · next hrecognised =>
        exact ⟨enrollment, hdevice, d, hfound.1, hfound.2, hrecognised, rfl, rfl, rfl⟩
      · exact trivial
  | none =>
      refine read_meets sha256Hex calls _ rfl _ t₁ (fun _ _ => trivial) ?_
      intro t₂ grant _ _ _
      cases grant with
      | none => exact trivial
      | some grant =>
          dsimp only
          split
          · exact trivial
          · refine meets_ofExcept _ _ t₂ (fun checked _ => ?_) (fun _ _ => trivial)
            refine read_meets sha256Hex calls _ rfl _ t₂ (fun _ _ => trivial) ?_
            intro t₃ conflict _ _ _
            split
            · exact trivial
            · refine read_meets sha256Hex calls _ rfl _ t₃ (fun _ _ => trivial) ?_
              intro t₄ count _ _ _
              split
              · exact trivial
              · exact enrollDevice_meets sha256Hex calls input enrollment checked grant.vaultId t₄
                  hdevice hverified

theorem exchangePairingGrant_meets (input : ExchangeInput) (db : PairingDb) :
    CallMeets sha256Hex calls (.exchangePairingGrant input) (ExchangeAnswers sha256Hex input)
      (exchangePairingGrant sha256Hex input) db := by
  unfold exchangePairingGrant
  cases hdevice : input.request.sourceDevice with
  | some enrollment =>
      exact exchangeSourceDeviceGrant_meets sha256Hex calls input enrollment _ db hdevice
  | none =>
      refine read_meets sha256Hex calls _ rfl _ db (fun _ _ => trivial) ?_
      intro t current _ _ _
      cases current with
      | none => exact trivial
      | some existing =>
          dsimp only
          split
          · exact trivial
          · refine meets_request _ _ t (fun t' _ _ => ⟨⟨input, _, rfl, hdevice, rfl⟩,
              fun w _ => ⟨fun results _ => ?_, fun _ _ => trivial⟩⟩)
            cases (results[0]?).join with
            | none => exact trivial
            | some vaultId => exact hdevice

theorem createPairingGrant_meets (created : CreateGrantInput) (db : PairingDb) :
    CallMeets sha256Hex calls (.createPairingGrant created) (fun _ _ => True)
      (createPairingGrant sha256Hex created) db := by
  have hcreate : ∀ t (f : List (Option String) → PairingProcess (Option PairingGrantResponse)),
      (∀ results t', CallMeets sha256Hex calls (.createPairingGrant created) (fun _ _ => True)
        (f results) t') →
      CallMeets sha256Hex calls (.createPairingGrant created) (fun _ _ => True)
        (ask (.createGrant (created.grantBatch sha256Hex)) >>= f) t := by
    intro t f hf
    exact meets_request _ _ t (fun t' _ _ => ⟨⟨created, rfl, rfl⟩,
      fun w _ => ⟨fun results _ => hf results _, fun _ _ => trivial⟩⟩)
  unfold createPairingGrant
  cases created.vaultId with
  | none =>
      refine hcreate db _ (fun results t' => ?_)
      split <;> exact trivial
  | some vaultId =>
      refine read_meets sha256Hex calls _ rfl _ db (fun _ _ => trivial) ?_
      intro t found _ _ _
      dsimp only
      split
      · refine hcreate t _ (fun results t' => ?_)
        split <;> exact trivial
      · exact trivial

theorem confirmRoute_meets (input : ConfirmInput) (db : PairingDb) :
    CallMeets sha256Hex calls (.confirmVaultSync input) (fun _ _ => True)
      (confirmRoute sha256Hex input) db := by
  refine read_meets sha256Hex calls _ rfl _ db (fun _ _ => trivial) ?_
  intro t credential _ _ hread
  simp only [effect, Batch.ok_inj, and_true] at hread
  cases credential with
  | none => exact trivial
  | some c =>
      -- The credential that was read is still one that was issued when it confirms.
      have hissued : c.issued ∈ issuedCredentials t :=
        List.mem_map_of_mem (List.mem_of_find?_eq_some hread)
      refine meets_request _ _ t (fun t' _ hst => ⟨⟨⟨input, rfl⟩, hst.credentials.subset hissued⟩,
        fun w _ => ⟨fun results _ => ?_, fun _ _ => trivial⟩⟩)
      split
      · cases c.sourceDeviceId with
        | none => exact trivial
        | some deviceId =>
            refine meets_request _ _ _ (fun t'' _ _ => ⟨⟨input, rfl⟩,
              fun w' _ => ⟨fun published _ => ?_, fun _ _ => trivial⟩⟩)
            exact trivial
      · exact trivial

/-- Every call sends what it may and answers as it should, whatever the others
    do. -/
theorem call_meets (call : PairingCall) (db : PairingDb) :
    CallMeets sha256Hex calls call (CallAnswers sha256Hex call) (call.process sha256Hex) db := by
  cases call with
  | createPairingGrant created =>
      refine meets_bind _ _ _ (meets_mono (fun _ _ h => h) (fun r t _ => ?_) _ _
        (createPairingGrant_meets sha256Hex calls created db))
      cases r <;> exact trivial
  | exchangePairingGrant input =>
      refine meets_bind _ _ _ (meets_mono (fun _ _ h => h) (fun r t h => ?_) _ _
        (exchangePairingGrant_meets sha256Hex calls input db))
      rcases r with e | _ | answer
      · exact trivial
      · exact trivial
      · cases answer with
        | credential url vaultId token => exact ⟨input, rfl, h⟩
        | accepted url vaultId source =>
            rcases h with ⟨enrollment, hdevice, hd⟩
            exact ⟨input, enrollment, rfl, hdevice, hd⟩
  | confirmVaultSync input =>
      refine meets_bind _ _ _ (meets_mono (fun _ _ h => h) (fun r t _ => ?_) _ _
        (confirmRoute_meets sha256Hex calls input db))
      cases r <;> exact trivial
  | revokeVault input =>
      exact meets_request _ _ db (fun t _ _ => ⟨rfl, fun w _ =>
        ⟨fun _ _ => trivial, fun _ _ => trivial⟩⟩)
  | revokeSourceDevice input deviceId =>
      exact meets_request _ _ db (fun t _ _ => ⟨rfl, fun w _ =>
        ⟨fun _ _ => trivial, fun _ _ => trivial⟩⟩)
  | readVaultCredential vaultId tokenHash now =>
      exact meets_request _ _ db (fun t _ _ => ⟨trivial, fun w _ =>
        ⟨fun _ _ => trivial, fun _ _ => trivial⟩⟩)
  | readVaultCredentialById vaultId credentialId now =>
      exact meets_request _ _ db (fun t _ _ => ⟨trivial, fun w _ =>
        ⟨fun _ _ => trivial, fun _ _ => trivial⟩⟩)

/-! ## Runs -/

variable [DecidableEq ι]

/-- The tables are as the calls have asked for them, and every call keeps to
    what it may send. -/
def PoolSound (c : PairingPool ι) : Prop :=
  Pool.Sound exec Fresh (Wired sha256Hex calls) (fun _ => Persist)
    (fun i => CallAllowed sha256Hex (calls i)) (fun i => CallAnswers sha256Hex (calls i)) c

theorem step_poolSound (c : PairingPool ι) (e : ι × Batch.Outcome)
    (hc : PoolSound sha256Hex calls c) (hfresh : Pool.Takes Fresh c e) :
    PoolSound sha256Hex calls (Pool.step exec c e) := by
  refine Pool.step_sound (fun _ db _ => Persist.refl db) (fun _ _ _ _ h h' => h.trans h') ?_ c e hc
    hfresh
  intro i op w db hw hallowed hC
  exact ⟨exec_wired sha256Hex calls i op w db hw hallowed hC,
    fun _ _ => exec_persist op w db hw.distinct.keyed hC⟩

/-- A run keeps to it, and only adds rows. -/
theorem run_poolSound (c : PairingPool ι) (es : List (ι × Batch.Outcome))
    (hc : PoolSound sha256Hex calls c) (hfresh : Run.Along (Pool.Takes Fresh) (Pool.step exec) c es) :
    PoolSound sha256Hex calls (Pool.run exec c es) ∧
      Persist c.shared (Pool.run exec c es).shared := by
  refine Run.runFrom_invariant _ (fun c' => PoolSound sha256Hex calls c' ∧
    Persist c.shared c'.shared) ?_ c es ⟨hc, Persist.refl _⟩ hfresh
  rintro c' e ⟨hc', hpersist⟩ htakes
  refine ⟨step_poolSound sha256Hex calls c' e hc' htakes, hpersist.trans ?_⟩
  rcases Pool.step_shared exec c' e with ⟨-, hsame⟩ | ⟨op, hnext, hstep⟩
  · rw [hsame]; exact Persist.refl _
  · rw [hstep]
    exact exec_persist op e.2 c'.shared hc'.1.distinct.keyed (htakes op hnext)

/-- In every run that draws new identifiers the tables are as the calls have
    asked for them. -/
theorem sound_run (es : List (ι × Batch.Outcome))
    (hfresh : Run.Along (Pool.Takes Fresh) (Pool.step exec) (startPool sha256Hex calls emptyDb)
      es) :
    PoolSound sha256Hex calls (Pool.run exec (startPool sha256Hex calls emptyDb) es) := by
  refine (run_poolSound sha256Hex calls _ es ?_ hfresh).1
  exact ⟨wired_empty sha256Hex calls, fun i => ⟨emptyDb, Persist.refl _,
    call_meets sha256Hex calls (calls i) emptyDb⟩⟩

end Mdevolved.Pairing
