import Mdevolved.Pairing.Limits

/-!
# Repeated Enrollments

An enrollment is made once for each idempotency key. A request that repeats one
recognises the device and answers with it, and a request that has the key of
another fails. Where the device was there when the call began, that takes a
single read, and nothing is written.

A call that began earlier goes on with what it has read. It then finds its grant
used, or its device or key taken, and fails although it repeats what went
through; or it comes to send its batch, which finds no grant but pairs the vault
that was read, and records an enrollment that is not its own. `inTurn` says that
neither happens: a call goes on only while nothing that it asks for is enrolled,
and its batch finds nothing to write where its key is taken.

## Main definitions

* `HashesApart`: No two texts that a call compares by their hash have one hash.
* `inTurn`: A call goes on only where it is not overtaken.
* `Orderly`: What every step keeps to.
* `Settled`: What a step of a repeated enrollment keeps to.

## Theorems

* `recognises_iff`: A call recognises exactly what it repeats.
* `repeated_commits_nothing`: What it writes.
* `pairing_in_order`: Every run is orderly, and settled where calls are in turn.
* `overtaken_pairs`: A run that is not.
-/

namespace Mdevolved.Pairing

open Process

variable {ι : Type} (sha256Hex : String → String) (calls : ι → PairingCall)

/-! ## What is recognised -/

/-- The texts that are compared by their hashes when an enrollment is repeated. -/
def comparedTexts : Set String :=
  fun text => ∃ i input, calls i = .exchangePairingGrant input ∧
    (text = input.request.grant ∨ text = input.deploymentUrl ∨
      ∃ enrollment, input.request.sourceDevice = some enrollment ∧
        text = requestText (sha256Hex input.request.grant) (sha256Hex input.deploymentUrl)
          input.request enrollment)

/-- No two of them have one hash. -/
def HashesApart : Prop :=
  Set.InjOn sha256Hex (comparedTexts sha256Hex calls)

theorem HashesApart.requests (h : HashesApart sha256Hex calls) : RequestsApart sha256Hex calls :=
  fun i j input input' enrollment enrollment' hcall hcall' hdevice hdevice' heq =>
    h ⟨i, input, hcall, Or.inr (Or.inr ⟨enrollment, hdevice, rfl⟩)⟩
      ⟨j, input', hcall', Or.inr (Or.inr ⟨enrollment', hdevice', rfl⟩)⟩ heq

/-- A call recognises a device exactly if it repeats the call that enrolled it. -/
theorem recognises_iff (hapart : HashesApart sha256Hex calls) (i j : ι)
    (input original : ExchangeInput) (enrollment enrollment' : SourceDeviceEnrollment)
    (d : SourceDeviceRow) (hcall : calls i = .exchangePairingGrant input)
    (hcall' : calls j = .exchangePairingGrant original)
    (hdevice : input.request.sourceDevice = some enrollment)
    (hdevice' : original.request.sourceDevice = some enrollment')
    (hrecognises : original.recognises sha256Hex enrollment' d = true) :
    input.recognises sha256Hex enrollment d = true ↔ input.Repeats original := by
  constructor
  · intro hagain
    simp only [ExchangeInput.recognises, Bool.and_eq_true, decide_eq_true_eq] at hagain
    simp only [ExchangeInput.recognises, Bool.and_eq_true, decide_eq_true_eq] at hrecognises
    have hgrant : input.request.grant = original.request.grant :=
      hapart ⟨i, input, hcall, Or.inl rfl⟩ ⟨j, original, hcall', Or.inl rfl⟩
        (hagain.1.1.symm.trans hrecognises.1.1)
    have hurl : input.deploymentUrl = original.deploymentUrl :=
      hapart ⟨i, input, hcall, Or.inr (Or.inl rfl)⟩ ⟨j, original, hcall', Or.inr (Or.inl rfl)⟩
        (hagain.1.2.symm.trans hrecognises.1.2)
    have htext := hapart.requests sha256Hex calls i j input original enrollment enrollment' hcall
      hcall' hdevice hdevice' (hagain.2.symm.trans hrecognises.2)
    rcases requestText_injective _ _ _ _ _ _ _ _ htext with
      ⟨_, _, hname, hversion, hschema, hdescriptor, hsame⟩
    refine ⟨?_, hurl⟩
    have hsource : input.request.sourceDevice = original.request.sourceDevice := by
      rw [hdevice, hdevice', hsame]
    rcases hi : input.request with ⟨grant, name, version, schema, descriptor, source⟩
    rcases ho : original.request with ⟨grant', name', version', schema', descriptor', source'⟩
    rw [hi, ho] at hgrant hname hversion hschema hdescriptor hsource
    simp only [PairingExchangeRequest.mk.injEq]
    exact ⟨hgrant, hname, hversion, hschema, hdescriptor, hsource⟩
  · intro hrepeats
    have hsame : enrollment = enrollment' := by
      rw [hrepeats.1, hdevice'] at hdevice
      exact (Option.some.inj hdevice).symm
    rw [hrepeats.recognises, hsame]
    exact hrecognises

/-- A device that a call recognises has the key of its request, and is of the
    vault that its grant is for. -/
theorem recognised_device (hgrants : GrantsApart sha256Hex calls)
    (hrequests : RequestsApart sha256Hex calls) (db : PairingDb) (hw : Wired sha256Hex calls db)
    (i : ι) (input : ExchangeInput) (enrollment : SourceDeviceEnrollment) (d : SourceDeviceRow)
    (hcall : calls i = .exchangePairingGrant input)
    (hdevice : input.request.sourceDevice = some enrollment) (hd : d ∈ db.devices)
    (hrecognises : input.recognises sha256Hex enrollment d = true) :
    verifySourceBoundary sha256Hex enrollment.boundary = .ok enrollment.boundary ∧
      d.enrollmentIdempotencyKey = enrollment.idempotencyKey ∧
      ∀ created, GrantedBy sha256Hex calls (sha256Hex input.request.grant) created →
        d.vaultId = (created.grantBatch sha256Hex).vaultId := by
  have hmem : d.enrolled ∈ enrolledDevices db := List.mem_map_of_mem hd
  rcases hw.sourced.devices d.enrolled hmem with ⟨enrollment', hrequested, _⟩
  have hsame := recognised_request sha256Hex calls hrequests i input enrollment enrollment'
    d.enrolled hcall hdevice hrecognises hrequested
  rcases hrequested with ⟨_, _, _, _, hverified, _, hkey, _⟩
  refine ⟨hsame ▸ hverified, hsame ▸ hkey, fun created hby => ?_⟩
  rcases hw.sourced.granted d.enrolled hmem with ⟨created', hby', _, hvault⟩
  simp only [ExchangeInput.recognises, Bool.and_eq_true, decide_eq_true_eq] at hrecognises
  have hgrant : d.enrolled.enrollmentGrantSha256 = sha256Hex input.request.grant :=
    hrecognises.1.1
  rw [hgrant] at hby'
  rw [grantedBy_unique sha256Hex calls hgrants _ created created' hby hby']
  exact hvault

/-! ## One call -/

/-- A call goes on from its first read only while nothing that it asks for is
    enrolled, and sends its batch only where its key is free or the batch has
    nothing to write. -/
def inTurn (call : PairingCall) (op : PairingOp) (db : PairingDb) : Bool :=
  match call with
  | .exchangePairingGrant input => input.request.sourceDevice.all (fun enrollment =>
      match op with
      | .readSourceDeviceByEnrollmentKey _ => true
      | .enrollDevice b => !db.devices.any (input.recognises sha256Hex enrollment) &&
          (!db.devices.any (fun d => d.enrollmentIdempotencyKey = enrollment.idempotencyKey) ||
            b.missed db = db)
      | _ => !db.devices.any (input.recognises sha256Hex enrollment))
  | _ => true

/-- What every request of a run in turn is to meet. -/
def InTurn (i : ι) (op : PairingOp) (w : Batch.Outcome) (db : PairingDb) : Prop :=
  Fresh op w db ∧ inTurn sha256Hex (calls i) op db = true

instance (i : ι) (op : PairingOp) (w : Batch.Outcome) (db : PairingDb) :
    Decidable (InTurn sha256Hex calls i op w db) :=
  inferInstanceAs (Decidable (_ ∧ _))

/-- What a call answers where a device is there that it recognises: that device,
    unless the store has failed. -/
def RepeatAnswers (input : ExchangeInput) (enrollment : SourceDeviceEnrollment)
    (r : Except PairingError (Option PairingExchangeResponse)) (db : PairingDb) : Prop :=
  ∀ d ∈ db.devices, input.recognises sha256Hex enrollment d = true →
    r = .ok (some (input.accepted d.vaultId d)) ∨ r = .error .unavailable

/-- A process of a call that goes on in turn. -/
abbrev RepeatMeets {α : Type} (input : ExchangeInput)
    (Q : Except PairingError α → PairingDb → Prop) (p : PairingProcess α) (db : PairingDb) : Prop :=
  p.Meets exec (fun op w t => Fresh op w t ∧ inTurn sha256Hex (.exchangePairingGrant input) op t = true)
    (Wired sha256Hex calls) Persist (fun _ _ => True) Q db

theorem effect_read_ok (op : PairingOp) (hop : op.isRead = true) (db : PairingDb) :
    ∃ r, effect db op = .ok (r, db) := by
  cases op <;> first | exact ⟨_, rfl⟩ | cases hop

theorem exec_error (op : PairingOp) (hop : op.isRead = true) (w : Batch.Outcome) (db : PairingDb)
    (e : PairingError) (h : (exec op w db).1 = .error e) : e = .unavailable := by
  rcases effect_read_ok op hop db with ⟨r, hr⟩
  rcases Batch.send_error _ w _ db e h with herror | heq
  · rw [hr] at herror
    cases herror
  · exact heq

theorem read_repeats {α : Type} (input : ExchangeInput)
    (Q : Except PairingError α → PairingDb → Prop) (op : PairingOp) (hop : op.isRead = true)
    (f : op.Ret → PairingProcess α) (db : PairingDb) (hQ : ∀ t, Q (.error .unavailable) t)
    (h : ∀ t r, Wired sha256Hex calls t → Persist db t →
      inTurn sha256Hex (.exchangePairingGrant input) op t = true → effect t op = .ok (r, t) →
      RepeatMeets sha256Hex calls input Q (f r) t) :
    RepeatMeets sha256Hex calls input Q (ask op >>= f) db := by
  refine meets_request op f db (fun t hI hst => ⟨trivial, fun w hC => ?_⟩)
  rw [exec_read op hop w t]
  refine ⟨fun r hr => h t r hI hst hC.2 ?_, fun e he => ?_⟩
  · have heffect := exec_ok op w t r hr
    rwa [exec_read op hop w t] at heffect
  · rw [exec_error op hop w t e he]
    exact hQ t

/-- Where nothing that it recognises is there, a call may answer anything. -/
theorem repeatAnswers_none (input : ExchangeInput) (enrollment : SourceDeviceEnrollment)
    (r : Except PairingError (Option PairingExchangeResponse)) (db : PairingDb)
    (h : db.devices.any (input.recognises sha256Hex enrollment) = false) :
    RepeatAnswers sha256Hex input enrollment r db := by
  intro d hd hrecognises
  have hany := List.any_eq_true.mpr ⟨d, hd, hrecognises⟩
  rw [h] at hany
  cases hany

/-- A call that finds a device by its key answers as it should, if it answers
    with the device where it recognises it. -/
theorem repeatAnswers_found (hgrants : GrantsApart sha256Hex calls)
    (hrequests : RequestsApart sha256Hex calls) (db : PairingDb) (hw : Wired sha256Hex calls db)
    (i : ι) (input : ExchangeInput) (enrollment : SourceDeviceEnrollment)
    (hcall : calls i = .exchangePairingGrant input)
    (hdevice : input.request.sourceDevice = some enrollment)
    (found : Option SourceDeviceRow)
    (hfound : db.devices.find? (fun d => d.enrollmentIdempotencyKey = enrollment.idempotencyKey) =
      found) (r : Except PairingError (Option PairingExchangeResponse))
    (hr : ∀ d, found = some d → input.recognises sha256Hex enrollment d = true →
      r = .ok (some (input.accepted d.vaultId d)) ∨ r = .error .unavailable) :
    RepeatAnswers sha256Hex input enrollment r db := by
  intro d hd hrecognises
  have hkey := (recognised_device sha256Hex calls hgrants hrequests db hw i input enrollment d hcall
    hdevice hd hrecognises).2.1
  cases hsome : found with
  | none =>
      rw [hsome] at hfound
      exact absurd (decide_eq_true hkey) (List.find?_eq_none.mp hfound d hd)
  | some d' =>
      rw [hsome] at hfound
      have hmem := Table.mem_of_find? SourceDeviceRow.enrollmentIdempotencyKey _ _ d' hfound
      have hsame : d' = d :=
        device_unique_key db hw.distinct hmem.1 hd (hmem.2.trans hkey.symm)
      exact hsame ▸ hr d' hsome (hsame ▸ hrecognises)

theorem enrollDevice_repeats (hgrants : GrantsApart sha256Hex calls)
    (hrequests : RequestsApart sha256Hex calls) (i : ι) (input : ExchangeInput)
    (enrollment : SourceDeviceEnrollment) (descriptor : SourceDescriptor) (vaultId : String)
    (db : PairingDb) (hcall : calls i = .exchangePairingGrant input)
    (hdevice : input.request.sourceDevice = some enrollment) (created : CreateGrantInput)
    (hby : GrantedBy sha256Hex calls (sha256Hex input.request.grant) created)
    (hvault : vaultId = (created.grantBatch sha256Hex).vaultId) :
    RepeatMeets sha256Hex calls input (RepeatAnswers sha256Hex input enrollment)
      (enrollDevice sha256Hex input enrollment descriptor vaultId) db := by
  have hanswers : ∀ t, RepeatAnswers sha256Hex input enrollment (.error .unavailable) t :=
    fun _ _ _ _ => Or.inr rfl
  refine meets_bind _ _ _ (meets_tryCatch _ _ _ (fun t hI hst => ⟨trivial, fun w hC => ?_⟩))
  have hturn : t.devices.any (input.recognises sha256Hex enrollment) = false := by
    have hturn := hC.2
    simp only [inTurn, hdevice, Option.all_some, Bool.and_eq_true, Bool.not_eq_true'] at hturn
    exact hturn.1
  cases hr : (exec (.enrollDevice
      (input.enrollmentBatch sha256Hex enrollment descriptor vaultId)) w t).1 with
  | error e =>
      -- The batch has failed by itself and left nothing, or the store has.
      rcases Batch.send_error _ w _ t e hr with herror | rfl
      · have hsame : (exec (.enrollDevice
            (input.enrollmentBatch sha256Hex enrollment descriptor vaultId)) w t).2 = t := by
          rcases exec_cases (.enrollDevice
            (input.enrollmentBatch sha256Hex enrollment descriptor vaultId)) w t with h | ⟨r, h⟩
          · exact h
          · rw [h] at herror
            cases herror
        rw [hsame]
        exact repeatAnswers_none sha256Hex input enrollment _ t hturn
      · exact hanswers _
  | ok results =>
      have heffect := exec_ok _ w t results hr
      have hexecuted := enrollDevice_ok _ t _ results hI.distinct.keyed hC.1 heffect
      change RepeatMeets _ _ _ _ (if results.take 4 = List.replicate 4 (some vaultId) then _ else _) _
      have hof : ∀ t' d, Wired sha256Hex calls t' →
          t'.devices.find? (fun d => d.enrollmentIdempotencyKey = enrollment.idempotencyKey) =
            some d → input.recognises sha256Hex enrollment d = true → d.vaultId = vaultId := by
        intro t' d hI' hfind hrecognises
        have hmem := List.mem_of_find?_eq_some hfind
        rw [hvault]
        exact (recognised_device sha256Hex calls hgrants hrequests t' hI' i input enrollment d
          hcall hdevice hmem hrecognises).2.2 created hby
      split
      · refine read_repeats sha256Hex calls input _ _ rfl _ _ hanswers ?_
        intro t' found hI' _ _ hread
        simp only [effect, Batch.ok_inj, and_true] at hread
        refine repeatAnswers_found sha256Hex calls hgrants hrequests t' hI' i input enrollment
          hcall hdevice found hread _ (fun d hfound hrecognises => ?_)
        rw [hfound, hof t' d hI' (hread.trans hfound) hrecognises]
        exact Or.inl rfl
      · refine read_repeats sha256Hex calls input _ _ rfl _ _ hanswers ?_
        intro t' found hI' _ _ hread
        simp only [effect, Batch.ok_inj, and_true] at hread
        cases hsome : found with
        | none =>
            exact repeatAnswers_found sha256Hex calls hgrants hrequests t' hI' i input enrollment
              hcall hdevice none (hread.trans hsome) _ (fun d hfound => by cases hfound)
        | some d =>
            have hfind := hread.trans hsome
            change RepeatMeets _ _ _ _ (if _ then _ else _) _
            split
            · refine repeatAnswers_found sha256Hex calls hgrants hrequests t' hI' i input enrollment
                hcall hdevice (some d) hfind _ (fun d' hfound _ => ?_)
              rw [Option.some.injEq] at hfound
              rw [hfound]
              exact Or.inl rfl
            · next hdiffers =>
              refine repeatAnswers_found sha256Hex calls hgrants hrequests t' hI' i input enrollment
                hcall hdevice (some d) hfind _ (fun d' hfound hrecognises => ?_)
              rw [Option.some.injEq] at hfound
              subst hfound
              refine absurd ?_ hdiffers
              rw [hrecognises, hof t' d hI' hfind hrecognises, Bool.and_true]
              exact decide_eq_true rfl

/-- The grant that is read is one that a call creates, for the same vault. -/
theorem readDeviceGrant_created (db : PairingDb) (hw : Wired sha256Hex calls db)
    (grantHash deploymentUrl : String) (now : Nat) (grant : DeviceGrant)
    (h : effect db (.readDeviceGrant grantHash deploymentUrl now) = .ok (some grant, db)) :
    ∃ created, GrantedBy sha256Hex calls grantHash created ∧
      grant.vaultId = (created.grantBatch sha256Hex).vaultId := by
  simp only [effect, Batch.ok_inj, and_true, Option.map_eq_some_iff] at h
  rcases h with ⟨⟨g, v⟩, hopen, hgrant⟩
  unfold openGrant at hopen
  rcases Option.bind_eq_some_iff.mp hopen with ⟨g', hfind, hvault⟩
  rcases Option.map_eq_some_iff.mp hvault with ⟨v', _, hpair⟩
  rw [Prod.mk.injEq] at hpair
  have hfound := List.find?_some hfind
  simp only [Bool.and_eq_true, decide_eq_true_eq] at hfound
  rcases hw.sourced.grants g' (List.mem_of_find?_eq_some hfind) with ⟨created, hby, heq⟩
  rw [hfound.1.1.1] at hby
  refine ⟨created, hby, ?_⟩
  rw [← hgrant, ← hpair.1]
  exact congrArg GrantRow.vaultId heq

/-- In turn, a call that repeats an enrollment is answered with its device. -/
theorem exchangeSourceDeviceGrant_repeats (hgrants : GrantsApart sha256Hex calls)
    (hrequests : RequestsApart sha256Hex calls) (i : ι) (input : ExchangeInput)
    (enrollment : SourceDeviceEnrollment) (descriptor : Option SourceDescriptor) (db : PairingDb)
    (hdb : db.devices = []) (hcall : calls i = .exchangePairingGrant input)
    (hdevice : input.request.sourceDevice = some enrollment) :
    RepeatMeets sha256Hex calls input (RepeatAnswers sha256Hex input enrollment)
      (exchangeSourceDeviceGrant sha256Hex input enrollment descriptor) db := by
  have hanswers : ∀ t, RepeatAnswers sha256Hex input enrollment (.error .unavailable) t :=
    fun _ _ _ _ => Or.inr rfl
  refine meets_ofExcept _ _ db (fun boundary _ => ?_)
    (fun _ _ d hd => absurd (hdb ▸ hd) List.not_mem_nil)
  refine read_repeats sha256Hex calls input _ _ rfl _ db hanswers ?_
  intro t₁ replay hI₁ _ _ hreplay
  simp only [effect, Batch.ok_inj, and_true] at hreplay
  cases hsome : replay with
  | some d =>
      have hfind := hreplay.trans hsome
      dsimp only
      split
      · refine repeatAnswers_found sha256Hex calls hgrants hrequests t₁ hI₁ i input enrollment
          hcall hdevice (some d) hfind _ (fun d' hfound _ => ?_)
        rw [Option.some.injEq] at hfound
        rw [hfound]
        exact Or.inl rfl
      · next hdiffers =>
        refine repeatAnswers_found sha256Hex calls hgrants hrequests t₁ hI₁ i input enrollment
          hcall hdevice (some d) hfind _ (fun d' hfound hrecognises => ?_)
        rw [Option.some.injEq] at hfound
        exact absurd (hfound ▸ hrecognises) hdiffers
  | none =>
      refine read_repeats sha256Hex calls input _ _ rfl _ t₁ hanswers ?_
      intro t₂ grant hI₂ _ hturn₂ hgrant
      have hnone₂ : ∀ r, RepeatAnswers sha256Hex input enrollment r t₂ := by
        simp only [inTurn, hdevice, Option.all_some, Bool.not_eq_true'] at hturn₂
        exact fun r => repeatAnswers_none sha256Hex input enrollment r t₂ hturn₂
      cases grant with
      | none => exact hnone₂ _
      | some grant =>
          rcases readDeviceGrant_created sha256Hex calls t₂ hI₂ _ _ _ grant hgrant with
            ⟨created, hby, hvault⟩
          dsimp only
          split
          · exact hnone₂ _
          · refine meets_ofExcept _ _ t₂ (fun checked _ => ?_) (fun _ _ => hnone₂ _)
            refine read_repeats sha256Hex calls input _ _ rfl _ t₂ hanswers ?_
            intro t₃ conflict _ _ hturn₃ _
            simp only [inTurn, hdevice, Option.all_some, Bool.not_eq_true'] at hturn₃
            split
            · exact repeatAnswers_none sha256Hex input enrollment _ t₃ hturn₃
            · refine read_repeats sha256Hex calls input _ _ rfl _ t₃ hanswers ?_
              intro t₄ count _ _ hturn₄ _
              simp only [inTurn, hdevice, Option.all_some, Bool.not_eq_true'] at hturn₄
              split
              · exact repeatAnswers_none sha256Hex input enrollment _ t₄ hturn₄
              · exact enrollDevice_repeats sha256Hex calls hgrants hrequests i input enrollment
                  checked grant.vaultId t₄ hcall hdevice created hby hvault

/-- The same of the whole call, which only passes the answer on. -/
def CallRepeats (call : PairingCall) (r : Except PairingError PairingAnswer) (db : PairingDb) :
    Prop :=
  ∀ input enrollment, call = .exchangePairingGrant input →
    input.request.sourceDevice = some enrollment → ∀ d ∈ db.devices,
      input.recognises sha256Hex enrollment d = true →
      r = .ok (.exchanged (some (input.accepted d.vaultId d))) ∨ r = .error .unavailable

theorem call_repeats (hgrants : GrantsApart sha256Hex calls)
    (hrequests : RequestsApart sha256Hex calls) (i : ι) :
    ((calls i).process sha256Hex).Meets exec (InTurn sha256Hex calls i) (Wired sha256Hex calls)
      Persist (fun op db => CallAllowed sha256Hex (calls i) op db ∧ True)
      (fun r db => CallAnswers sha256Hex (calls i) r db ∧ CallRepeats sha256Hex (calls i) r db)
      emptyDb := by
  have hallowed : ((calls i).process sha256Hex).Meets exec (InTurn sha256Hex calls i)
      (Wired sha256Hex calls) Persist (CallAllowed sha256Hex (calls i))
      (CallAnswers sha256Hex (calls i)) emptyDb :=
    meets_condition (fun _ _ _ h => h.1) _ _ (call_meets sha256Hex calls (calls i) emptyDb)
  refine meets_and _ _ hallowed ?_
  have hvacuous : (∀ input enrollment, calls i = .exchangePairingGrant input →
      input.request.sourceDevice = some enrollment → False) →
      ((calls i).process sha256Hex).Meets exec (InTurn sha256Hex calls i) (Wired sha256Hex calls)
        Persist (fun _ _ => True) (CallRepeats sha256Hex (calls i)) emptyDb :=
    fun hno => meets_mono (fun _ _ _ => trivial)
      (fun _ _ _ input enrollment hcall hdevice => (hno input enrollment hcall hdevice).elim) _ _
      hallowed
  cases hcall : calls i with
  | exchangePairingGrant input =>
      cases hdevice : input.request.sourceDevice with
      | none =>
          rw [← hcall]
          refine hvacuous (fun input' enrollment hcall' hdevice' => ?_)
          rw [hcall, PairingCall.exchangePairingGrant.injEq] at hcall'
          rw [← hcall', hdevice] at hdevice'
          cases hdevice'
      | some enrollment =>
          have hrepeats := exchangeSourceDeviceGrant_repeats sha256Hex calls hgrants hrequests i
            input enrollment (storedSourceDescriptor sha256Hex input.request.sourceDescriptor
              input.now) emptyDb rfl hcall hdevice
          refine meets_bind _ _ _ ?_
          unfold exchangePairingGrant
          rw [hdevice]
          refine meets_mono (fun _ _ h => h) (fun r t h => ?_) _ _
            (meets_condition (fun op w t hC => hcall ▸ hC) _ _ hrepeats)
          have hpassed : ∀ r', (∀ response, r = .ok response → r' = .ok (.exchanged response)) →
              (∀ e, r = .error e → r' = .error e) →
              CallRepeats sha256Hex (.exchangePairingGrant input) r' t := by
            intro r' hok herror input' enrollment' hcall' hdevice' d hd hrecognises
            rw [PairingCall.exchangePairingGrant.injEq] at hcall'
            subst hcall'
            rw [hdevice, Option.some.injEq] at hdevice'
            subst hdevice'
            exact (h d hd hrecognises).imp (hok _) (herror _)
          cases r with
          | ok response =>
              exact hpassed _ (fun _ heq => by rw [Except.ok.inj heq]) (fun _ heq => nomatch heq)
          | error e =>
              exact hpassed _ (fun _ heq => nomatch heq) (fun _ heq => by rw [Except.error.inj heq])
  | _ =>
      rw [← hcall]
      refine hvacuous (fun input' enrollment hcall' => ?_)
      rw [hcall] at hcall'
      cases hcall'

/-- In turn, an enrollment whose key is taken writes nothing. -/
theorem repeated_commits_nothing (i : ι) (input : ExchangeInput)
    (enrollment : SourceDeviceEnrollment) (op : PairingOp) (w : Batch.Outcome) (db : PairingDb)
    (hw : Wired sha256Hex calls db) (hcall : calls i = .exchangePairingGrant input)
    (hdevice : input.request.sourceDevice = some enrollment)
    (hallowed : CallAllowed sha256Hex (calls i) op db) (hturn : InTurn sha256Hex calls i op w db)
    (hthere : ∃ d ∈ db.devices, d.enrollmentIdempotencyKey = enrollment.idempotencyKey) :
    (exec op w db).2 = db := by
  rcases exec_cases op w db with hsame | ⟨r, h⟩
  · exact hsame
  · rw [hcall] at hallowed
    cases op with
    | exchange b =>
        rcases hallowed with ⟨input', _, hcall', hnone, _⟩
        rw [PairingCall.exchangePairingGrant.injEq] at hcall'
        rw [← hcall', hdevice] at hnone
        cases hnone
    | enrollDevice b =>
        rcases hallowed with ⟨input', enrollment', descriptor, vaultId, hcall', hdevice', _, rfl⟩
        rw [PairingCall.exchangePairingGrant.injEq] at hcall'
        subst hcall'
        rw [hdevice, Option.some.injEq] at hdevice'
        subst hdevice'
        rcases hthere with ⟨d, hd, hkey⟩
        have htaken : db.devices.any
            (fun d => d.enrollmentIdempotencyKey = enrollment.idempotencyKey) = true :=
          List.any_eq_true.mpr ⟨d, hd, decide_eq_true hkey⟩
        have hnothing := hturn.2
        simp only [inTurn, hcall, hdevice, Option.all_some, htaken, Bool.not_true, Bool.false_or,
          Bool.and_eq_true, decide_eq_true_eq] at hnothing
        rcases enrollDevice_ok _ db _ r hw.distinct.keyed hturn.1 h with
          ⟨_, hmissed, _⟩ | ⟨g, _, husable, _⟩
        · exact hmissed.trans hnothing.2
        · exact absurd hkey (husable.newDevice d hd).2
    | createGrant b => rcases hallowed with ⟨_, hcreate, _⟩; cases hcreate
    | confirmSync b => rcases hallowed with ⟨⟨_, hconfirm⟩, _⟩; cases hconfirm
    | markPublished b => rcases hallowed with ⟨_, hconfirm⟩; cases hconfirm
    | revokeVault b => cases hallowed
    | revokeDevice b deviceId => cases hallowed
    | _ => exact exec_read _ rfl w db

/-! ## Runs -/

variable [DecidableEq ι]

/-- Every call of a run in turn keeps to what it may send and answers as it
    should. -/
def TurnSound (c : PairingPool ι) : Prop :=
  Pool.SoundEach exec (InTurn sha256Hex calls) (Wired sha256Hex calls) (fun _ => Persist)
    (fun i op db => CallAllowed sha256Hex (calls i) op db ∧ True)
    (fun i r db => CallAnswers sha256Hex (calls i) r db ∧ CallRepeats sha256Hex (calls i) r db) c

theorem step_turnSound (c : PairingPool ι) (e : ι × Batch.Outcome)
    (hc : TurnSound sha256Hex calls c) (hturn : Pool.TakesEach (InTurn sha256Hex calls) c e) :
    TurnSound sha256Hex calls (Pool.step exec c e) := by
  refine Pool.step_sound (fun _ db _ => Persist.refl db) (fun _ _ _ _ h h' => h.trans h') ?_ c e hc
    hturn
  intro i op w db hw hallowed hC
  exact ⟨exec_wired sha256Hex calls i op w db hw hallowed.1 hC.1,
    fun _ _ => exec_persist op w db hw.distinct.keyed hC.1⟩

theorem run_turnSound (hgrants : GrantsApart sha256Hex calls)
    (hrequests : RequestsApart sha256Hex calls) (es : List (ι × Batch.Outcome))
    (hturn : Run.Along (Pool.TakesEach (InTurn sha256Hex calls)) (Pool.step exec)
      (startPool sha256Hex calls emptyDb) es) :
    TurnSound sha256Hex calls (Pool.run exec (startPool sha256Hex calls emptyDb) es) := by
  refine Run.runFrom_invariant _ (TurnSound sha256Hex calls) (step_turnSound sha256Hex calls) _ es ?_
    hturn
  exact ⟨wired_empty sha256Hex calls, fun i => ⟨emptyDb, Persist.refl _,
    call_repeats sha256Hex calls hgrants hrequests i⟩⟩

/-- What every step keeps to: the limits of devices, that a grant is used only
    by an exchange it is for, and that an exchange commits all or nothing. -/
structure Orderly (c : PairingPool ι) (e : ι × Batch.Outcome) : Prop where
  limited : Limited (Pool.step exec c e).shared
  exchanged : ∀ grantHash, Exchanged c.shared (Pool.step exec c e).shared grantHash →
    ∃ input created, ExchangedBy sha256Hex calls (calls e.1) grantHash input created
  together : ∀ input, calls e.1 = .exchangePairingGrant input →
    Together sha256Hex input c.shared (Pool.step exec c e).shared

/-- What a step of an enrollment keeps to where its key is taken: it writes
    nothing, and where it ends the call, this answers with the device exactly if
    it repeats what enrolled it. -/
structure Settled (c : PairingPool ι) (e : ι × Batch.Outcome) (input : ExchangeInput)
    (enrollment : SourceDeviceEnrollment) : Prop where
  commits : (∃ d ∈ c.shared.devices, d.enrollmentIdempotencyKey = enrollment.idempotencyKey) →
    (Pool.step exec c e).shared = c.shared
  answers : c.result e.1 = none → ∀ r, (Pool.step exec c e).result e.1 = some r →
    ∀ d ∈ (Pool.step exec c e).shared.devices,
    d.enrollmentIdempotencyKey = enrollment.idempotencyKey →
    ∀ j original enrollment', calls j = .exchangePairingGrant original →
    original.request.sourceDevice = some enrollment' →
    original.recognises sha256Hex enrollment' d = true →
    (input.Repeats original →
      r = .ok (.exchanged (some (input.accepted d.vaultId d))) ∨ r = .error .unavailable) ∧
    (¬ input.Repeats original → ∀ response, r ≠ .ok (.exchanged (some response)))

theorem step_settled (hhashes : HashesApart sha256Hex calls) (c : PairingPool ι)
    (e : ι × Batch.Outcome) (hc : TurnSound sha256Hex calls c)
    (hturn : Pool.TakesEach (InTurn sha256Hex calls) c e) (input : ExchangeInput)
    (enrollment : SourceDeviceEnrollment) (hcall : calls e.1 = .exchangePairingGrant input)
    (hdevice : input.request.sourceDevice = some enrollment) :
    Settled sha256Hex calls c e input enrollment := by
  constructor
  · intro hthere
    rcases Pool.step_shared exec c e with ⟨-, hsame⟩ | ⟨op, hnext, hstep⟩
    · exact hsame
    · rw [hstep]
      exact repeated_commits_nothing sha256Hex calls e.1 input enrollment op e.2 c.shared hc.1 hcall
        hdevice (Pool.takes_allowed c e.1 op hc hnext).1 (hturn op hnext) hthere
  · intro hbefore r hafter d hd hkey j original enrollment' hcall' hdevice' hrecognises
    have hends := Pool.ends_of_sound c e r hc hturn hbefore hafter
    have hagain := recognises_iff sha256Hex calls hhashes e.1 j input original enrollment enrollment'
      d hcall hcall' hdevice hdevice' hrecognises
    refine ⟨fun hrepeats => hends.2 input enrollment hcall hdevice d hd (hagain.mpr hrepeats), ?_⟩
    rintro hdiffers response rfl
    cases response with
    | credential url vaultId token =>
        rcases hends.1 with ⟨input', hcall'', hnone⟩
        rw [hcall, PairingCall.exchangePairingGrant.injEq] at hcall''
        rw [← hcall'', hdevice] at hnone
        cases hnone
    | accepted url vaultId source =>
        -- What is answered with is the device that has the key.
        rcases hends.1 with ⟨input', enrollment'', hcall'', hdevice'', d', hd', hkey', hrec, _⟩
        rw [hcall, PairingCall.exchangePairingGrant.injEq] at hcall''
        subst hcall''
        rw [hdevice, Option.some.injEq] at hdevice''
        subst hdevice''
        have hlast := (step_turnSound sha256Hex calls c e hc hturn).1
        have hsame := device_unique_key _ hlast.distinct hd' hd (hkey'.trans hkey.symm)
        exact hdiffers (hagain.mp (hsame ▸ hrec))

/-- Every step of every run is orderly, no grant is used twice, and where all
    calls go on in turn, repeated enrollments are settled. -/
theorem pairing_in_order (hgrants : GrantsApart sha256Hex calls)
    (hhashes : HashesApart sha256Hex calls) (es : List (ι × Batch.Outcome)) (e : ι × Batch.Outcome)
    (hfresh : Run.Along (Pool.Takes Fresh) (Pool.step exec) (startPool sha256Hex calls emptyDb)
      (es ++ [e])) :
    Orderly sha256Hex calls (Pool.run exec (startPool sha256Hex calls emptyDb) es) e ∧
      (∀ es₁ e₁ es₂, es = es₁ ++ e₁ :: es₂ → ∀ grantHash,
        Exchanged (Pool.run exec (startPool sha256Hex calls emptyDb) es₁).shared
          (Pool.step exec (Pool.run exec (startPool sha256Hex calls emptyDb) es₁) e₁).shared
          grantHash →
        ¬ Exchanged (Pool.run exec (startPool sha256Hex calls emptyDb) es).shared
          (Pool.step exec (Pool.run exec (startPool sha256Hex calls emptyDb) es) e).shared
          grantHash) ∧
      (Run.Along (Pool.TakesEach (InTurn sha256Hex calls)) (Pool.step exec)
          (startPool sha256Hex calls emptyDb) (es ++ [e]) →
        ∀ input enrollment, calls e.1 = .exchangePairingGrant input →
          input.request.sourceDevice = some enrollment →
          Settled sha256Hex calls (Pool.run exec (startPool sha256Hex calls emptyDb) es) e input
            enrollment) := by
  rw [Run.along_append] at hfresh
  have hkept := run_kept sha256Hex calls hgrants es hfresh.1
  refine ⟨⟨?_, ?_, ?_⟩, ?_, ?_⟩
  · exact (step_kept sha256Hex calls hgrants _ e hkept hfresh.2.1).limited
  · exact step_exchanged sha256Hex calls hgrants _ e hkept.sound hfresh.2.1
  · exact step_together sha256Hex calls _ e hkept.sound hfresh.2.1
  · rintro es₁ e₁ es₂ rfl grantHash hexchanged
    exact used_once sha256Hex calls hgrants es₁ es₂ e₁ e hfresh.1 grantHash hexchanged
  · intro hturn input enrollment hcall hdevice
    rw [Run.along_append] at hturn
    exact step_settled sha256Hex calls hhashes _ e
      (run_turnSound sha256Hex calls hgrants (hhashes.requests sha256Hex calls) es hturn.1)
      hturn.2.1 input enrollment hcall hdevice

theorem repeatedEnrollment_grants : GrantsApart id repeatedEnrollment := by
  intro i j created created' hcall hcall' _
  match i, j with
  | 0, 0 => rfl
  | 0, 1 => cases hcall'
  | 0, 2 => cases hcall'
  | 0, _ + 3 => cases hcall'
  | 1, _ => cases hcall
  | 2, _ => cases hcall
  | _ + 3, _ => cases hcall

/-- An enrollment that is sent again after its device was revoked is settled. -/
theorem repeated_settled :
    Settled id repeatedEnrollment
      (Pool.run exec (startPool id repeatedEnrollment emptyDb) untilRepeated) (3, .answered)
      (enrollInput "grant" "laptop" 4) (enrollmentOf "laptop") :=
  (pairing_in_order id repeatedEnrollment repeatedEnrollment_grants (Set.injOn_id _) untilRepeated
    (3, .answered) (by decide +kernel)).2.2 (by decide +kernel) _ _ rfl rfl

/-! ## A batch that is overtaken -/

/-- A device is enrolled with each of two grants for new vaults, under one
    key. -/
def overtakenCalls : Nat → PairingCall
  | 0 => grantCall "first" none
  | 1 => .createPairingGrant {
      deploymentUrl := "origin", now := 1, requestId := "request", maxVaults := none
      vaultId := none, deviceEnrollment := false, deviceExpiresAt := none
      newVaultId := "other", grant := "second", auditId := "created second" }
  | 2 => .exchangePairingGrant (enrollInput "first" "laptop" 2)
  | _ => .exchangePairingGrant (enrollInput "second" "laptop" 2)

/-- The second enrollment has read all it reads when the first goes through. -/
def untilOvertaken : List (Nat × Batch.Outcome) :=
  [(0, .answered), (1, .answered)] ++ List.replicate 4 (3, .answered) ++
    List.replicate 5 (2, .answered)

theorem overtakenCalls_grants : GrantsApart id overtakenCalls := by
  intro i j created created' hcall hcall' hsame
  match i, j with
  | 0, 0 => rfl
  | 1, 1 => rfl
  | 0, 1 => cases hcall; cases hcall'; exact absurd hsame (by decide)
  | 1, 0 => cases hcall; cases hcall'; exact absurd hsame (by decide)
  | 0, 2 => cases hcall'
  | 1, 2 => cases hcall'
  | 0, _ + 3 => cases hcall'
  | 1, _ + 3 => cases hcall'
  | 2, _ => cases hcall
  | _ + 3, _ => cases hcall

/-- The batch of the second finds its key taken, and pairs the other vault. -/
theorem overtaken_pairs :
    ¬ ∀ (sha256Hex : String → String) (calls : Nat → PairingCall), GrantsApart sha256Hex calls →
      HashesApart sha256Hex calls → ∀ (es : List (Nat × Batch.Outcome)) (e : Nat × Batch.Outcome),
      Run.Along (Pool.Takes Fresh) (Pool.step exec) (startPool sha256Hex calls emptyDb)
        (es ++ [e]) →
      ∀ input enrollment, calls e.1 = .exchangePairingGrant input →
      input.request.sourceDevice = some enrollment →
      Settled sha256Hex calls (Pool.run exec (startPool sha256Hex calls emptyDb) es) e input
        enrollment := by
  intro h
  have hsettled := h id overtakenCalls overtakenCalls_grants (Set.injOn_id _) untilOvertaken
    (3, .answered) (by decide +kernel) (enrollInput "second" "laptop" 2) (enrollmentOf "laptop") rfl
    rfl
  have hsame := hsettled.commits (by decide +kernel)
  have hbefore : (Pool.run exec (startPool id overtakenCalls emptyDb) untilOvertaken).shared.vaults.all
      (fun v => v.id ≠ "other" || v.status = .pending) = true := by
    decide +kernel
  have hafter : (Pool.step exec (Pool.run exec (startPool id overtakenCalls emptyDb) untilOvertaken)
      (3, .answered)).shared.vaults.all (fun v => v.id ≠ "other" || v.status = .pending) = false := by
    decide +kernel
  rw [hsame, hbefore] at hafter
  cases hafter

end Mdevolved.Pairing
