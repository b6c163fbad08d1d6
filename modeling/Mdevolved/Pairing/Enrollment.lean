import Mdevolved.Pairing.Batches

/-!
# Devices and Their Credentials

What holds of the enrolled devices in any run of pairing calls. Rows of devices
and credentials are only added, and the part of a row that says what was
enrolled or issued never changes. So a device can be told by its identifier and
by its idempotency key, and it has one credential, whose token the client chose
in the request that enrolled it.

## Main definitions

* `SourceDeviceRow.enrolled`, `CredentialRow.issued`: What of a row never
  changes.
* `Persist`: Rows are only added.
* `Distinct`: Rows are told apart.

## Theorems

* `requestText_injective`: A request can be read from its text.
* `effect_rows`: Which rows a request adds.
-/

namespace Mdevolved.Pairing

open Process

/-! ## Requests by their text -/

theorem capabilitiesJson_injective : Function.Injective capabilitiesJson := by
  intro cs cs' h
  unfold capabilitiesJson at h
  rw [Json.arr.injEq] at h
  refine List.map_injective_iff.mpr ?_ h
  intro c c' heq
  rw [Json.str.injEq] at heq
  cases c <;> cases c' <;> first | rfl | exact absurd heq (by decide)

theorem SourceKind.text_injective : Function.Injective SourceKind.text := by
  intro k k' h
  cases k <;> cases k' <;> first | rfl | exact absurd h (by decide)

theorem enrollmentJson_injective : Function.Injective enrollmentJson := by
  intro e e' h
  simp only [enrollmentJson, boundaryMembers, Json.obj.injEq, List.cons.injEq, Prod.mk.injEq,
    Json.str.injEq, List.cons_append, List.nil_append, true_and, and_true] at h
  rcases h with ⟨hid, hname, hroot, ⟨hkind, hcapabilities, hboundary⟩, hcredential, hkey⟩
  rcases e with ⟨_, _, _, ⟨_, _, _⟩, _, _⟩
  rcases e' with ⟨_, _, _, ⟨_, _, _⟩, _, _⟩
  simp only [SourceDeviceEnrollment.mk.injEq, SourceBoundary.mk.injEq]
  exact ⟨hid, hname, hroot, ⟨SourceKind.text_injective hkind,
    capabilitiesJson_injective hcapabilities, hboundary⟩, hcredential, hkey⟩

theorem descriptorJson_injective : Function.Injective descriptorJson := by
  intro d d' h
  simp only [descriptorJson, Json.obj.injEq, List.cons.injEq, Prod.mk.injEq, Json.str.injEq,
    Json.num.injEq, true_and, and_true] at h
  rcases h with ⟨hkind, hlabel, hcapabilities, hversion, hschema⟩
  rcases d with ⟨_, _, _, _, _⟩
  rcases d' with ⟨_, _, _, _, _⟩
  simp only [SourceDescriptorInput.mk.injEq]
  exact ⟨SourceKind.text_injective hkind, hlabel, capabilitiesJson_injective hcapabilities,
    hversion, Decimal.ofNat_injective hschema⟩

theorem stringify_injective : Function.Injective Json.stringify := by
  intro j j' h
  have hparse := Json.parse_stringify j
  rw [h, Json.parse_stringify, Option.some.injEq] at hparse
  exact hparse.symm

/-- All that was sent can be read from the text of a request, but for the grant
    and the origin, of which it has the hashes. -/
theorem requestText_injective (grant grant' origin origin' : String)
    (r r' : PairingExchangeRequest) (e e' : SourceDeviceEnrollment)
    (h : requestText grant origin r e = requestText grant' origin' r' e') :
    grant = grant' ∧ origin = origin' ∧ r.vaultName = r'.vaultName ∧
      r.pluginVersion = r'.pluginVersion ∧ r.schemaVersion = r'.schemaVersion ∧
      r.sourceDescriptor = r'.sourceDescriptor ∧ e = e' := by
  have hobj := stringify_injective h
  cases hd : r.sourceDescriptor with
  | none =>
      cases hd' : r'.sourceDescriptor with
      | none =>
          simp only [hd, hd', Json.obj.injEq, List.cons_append, List.nil_append, Option.map_none,
            Option.toList_none, List.cons.injEq, Prod.mk.injEq, Json.str.injEq, Json.num.injEq,
            true_and, and_true] at hobj
          rcases hobj with ⟨hgrant, horigin, hname, hversion, hschema, he⟩
          exact ⟨hgrant, horigin, hname, hversion, Decimal.ofNat_injective hschema, rfl,
            enrollmentJson_injective he⟩
      | some d' => simp [hd, hd'] at hobj
  | some d =>
      cases hd' : r'.sourceDescriptor with
      | none => simp [hd, hd'] at hobj
      | some d' =>
          simp only [hd, hd', Json.obj.injEq, List.cons_append, List.nil_append, Option.map_some,
            Option.toList_some, List.cons.injEq, Prod.mk.injEq, Json.str.injEq, Json.num.injEq,
            true_and, and_true] at hobj
          rcases hobj with ⟨hgrant, horigin, hname, hversion, hschema, hdescriptor, he⟩
          exact ⟨hgrant, horigin, hname, hversion, Decimal.ofNat_injective hschema,
            congrArg some (descriptorJson_injective hdescriptor), enrollmentJson_injective he⟩

/-! ## Rows -/

/-- What was enrolled: the row without what may change later. -/
def SourceDeviceRow.enrolled (d : SourceDeviceRow) : SourceDeviceRow :=
  { d with
    status := .active
    revokedAt := none
    lastSeenAt := none
    lastPublishedAt := none
    lastPublishedStateVectorSha256 := none
    lastPublishedCredentialId := none
    lastPublishedSequence := none }

/-- What was issued: the row without what may change later. -/
def CredentialRow.issued (c : CredentialRow) : CredentialRow :=
  { c with pluginVersion := "", schemaVersion := 0, lastUsedAt := none, revokedAt := none }

def enrolledDevices (db : PairingDb) : List SourceDeviceRow :=
  db.devices.map SourceDeviceRow.enrolled

def issuedCredentials (db : PairingDb) : List CredentialRow :=
  db.credentials.map CredentialRow.issued

/-- What agrees on what was enrolled agrees on the parts of it. -/
theorem sameDevice {α : Type} (f : SourceDeviceRow → α) (hf : ∀ d, f d.enrolled = f d)
    {d d' : SourceDeviceRow} (h : d.enrolled = d'.enrolled) : f d = f d' := by
  rw [← hf d, h, hf d']

theorem sameCredential {α : Type} (f : CredentialRow → α) (hf : ∀ c, f c.issued = f c)
    {c c' : CredentialRow} (h : c.issued = c'.issued) : f c = f c' := by
  rw [← hf c, h, hf c']

/-- Rows are only added. -/
structure Persist (db db' : PairingDb) : Prop where
  devices : enrolledDevices db <+: enrolledDevices db'
  credentials : issuedCredentials db <+: issuedCredentials db'

theorem Persist.refl (db : PairingDb) : Persist db db :=
  ⟨List.prefix_refl _, List.prefix_refl _⟩

theorem Persist.trans {db db' db'' : PairingDb} (h : Persist db db') (h' : Persist db' db'') :
    Persist db db'' :=
  ⟨h.devices.trans h'.devices, h.credentials.trans h'.credentials⟩

/-- What a request does to the rows of devices and credentials: it keeps what
    was enrolled and issued, or it is an exchange that goes through. -/
inductive RowsAfter (db db' : PairingDb) : PairingOp → Prop
  | kept (op : PairingOp) (devices : enrolledDevices db' = enrolledDevices db)
      (credentials : issuedCredentials db' = issuedCredentials db) : RowsAfter db db' op
  | exchanged (input : ExchangeBatch) (g : GrantRow)
      (found : db.grants.find? (input.usable db) = some g)
      (admits : admitsCredential db.credentials (input.credential g) = true)
      (after : db' = input.exchanged db g) : RowsAfter db db' (.exchange input)
  | enrolled (input : EnrollmentBatch) (g : GrantRow)
      (found : db.grants.find? (input.usable db) = some g) (usable : input.Usable db g)
      (unexpired : before input.now g.deviceExpiresAt = true)
      (admitsD : admitsDevice db.devices (input.device g) = true)
      (admitsC : admitsCredential db.credentials (input.deviceCredential g) = true)
      (after : db' = input.enrolled db g) : RowsAfter db db' (.enrollDevice input)

theorem effect_rows (op : PairingOp) (db db' : PairingDb) (r : op.Ret) (hk : Keyed db)
    (hfresh : drawsFresh op db = true) (h : effect db op = .ok (r, db')) :
    RowsAfter db db' op := by
  have hcredentials : ∀ (p : CredentialRow → Bool) (f : CredentialRow → CredentialRow)
      (rows : List CredentialRow), (∀ c, (f c).issued = c.issued) →
      (Table.update p f rows).map CredentialRow.issued = rows.map CredentialRow.issued :=
    fun p f rows hf => Table.map_update CredentialRow.issued p f hf rows
  have hdevices : ∀ (p : SourceDeviceRow → Bool) (f : SourceDeviceRow → SourceDeviceRow)
      (rows : List SourceDeviceRow), (∀ d, (f d).enrolled = d.enrolled) →
      (Table.update p f rows).map SourceDeviceRow.enrolled = rows.map SourceDeviceRow.enrolled :=
    fun p f rows hf => Table.map_update SourceDeviceRow.enrolled p f hf rows
  cases op with
  | exchange input =>
      rcases exchange_ok input db db' r hk hfresh h with ⟨_, rfl, _⟩ | ⟨g, hfind, hadmits, hafter, _⟩
      · exact .kept _ rfl rfl
      · exact .exchanged input g hfind hadmits hafter
  | enrollDevice input =>
      rcases enrollDevice_ok input db db' r hk hfresh h with
        ⟨_, rfl, _⟩ | ⟨g, hfind, husable, hbefore, hdevice, hcredential, hafter, _⟩
      · exact .kept _ rfl rfl
      · exact .enrolled input g hfind husable hbefore hdevice hcredential hafter
  | createGrant input =>
      have hcreated := createGrant_ok input db db' r h
      exact .kept _ (congrArg (List.map SourceDeviceRow.enrolled) hcreated.devices)
        (congrArg (List.map CredentialRow.issued) hcreated.credentials)
  | confirmSync input =>
      rcases confirmSync_ok input db db' r h with ⟨events, rfl⟩
      refine .kept _ rfl ?_
      unfold issuedCredentials
      rw [hcredentials, hcredentials]
      · exact fun _ => rfl
      · exact fun _ => rfl
  | markPublished input =>
      rcases markPublished_ok input db db' r h with ⟨events, rfl⟩
      exact .kept _ (hdevices _ _ _ (fun _ => rfl)) rfl
  | revokeVault input =>
      rcases revokeVault_ok input db db' r h with ⟨events, rfl⟩
      exact .kept _ (hdevices _ _ _ (fun _ => rfl)) (hcredentials _ _ _ (fun _ => rfl))
  | revokeDevice input deviceId =>
      rcases revokeDevice_ok input deviceId db db' r h with ⟨events, rfl⟩
      exact .kept _ (hdevices _ _ _ (fun _ => rfl)) (hcredentials _ _ _ (fun _ => rfl))
  | _ =>
      rw [effect_read _ rfl db db' r h]
      exact .kept _ rfl rfl

theorem issuedCredentials_exchanged (input : ExchangeBatch) (db : PairingDb) (g : GrantRow) :
    issuedCredentials (input.exchanged db g) =
      issuedCredentials db ++ [(input.credential g).issued] := by
  simp only [issuedCredentials, ExchangeBatch.exchanged, List.map_append, List.map_singleton]

theorem issuedCredentials_enrolled (input : EnrollmentBatch) (db : PairingDb) (g : GrantRow) :
    issuedCredentials (input.enrolled db g) =
      issuedCredentials db ++ [(input.deviceCredential g).issued] := by
  simp only [issuedCredentials, EnrollmentBatch.enrolled, List.map_append, List.map_singleton]

theorem enrolledDevices_enrolled (input : EnrollmentBatch) (db : PairingDb) (g : GrantRow) :
    enrolledDevices (input.enrolled db g) = enrolledDevices db ++ [(input.device g).enrolled] := by
  simp only [enrolledDevices, EnrollmentBatch.enrolled, List.map_append, List.map_singleton]

theorem RowsAfter.persist {op : PairingOp} {db db' : PairingDb} (h : RowsAfter db db' op) :
    Persist db db' := by
  cases h with
  | kept _ hdevices hcredentials =>
      exact ⟨hdevices ▸ List.prefix_refl _, hcredentials ▸ List.prefix_refl _⟩
  | exchanged input g _ _ hafter =>
      rw [hafter]
      refine ⟨List.prefix_refl _, ?_⟩
      rw [issuedCredentials_exchanged]
      exact List.prefix_append _ _
  | enrolled input g _ _ _ _ _ hafter =>
      rw [hafter]
      constructor
      · rw [enrolledDevices_enrolled]
        exact List.prefix_append _ _
      · rw [issuedCredentials_enrolled]
        exact List.prefix_append _ _

/-! ## Rows told apart -/

theorem admitsCredential_new (rows : List CredentialRow) (row : CredentialRow)
    (h : admitsCredential rows row = true) :
    ∀ r ∈ rows, r.id ≠ row.id ∧ r.tokenHash ≠ row.tokenHash := by
  intro r hr
  have hall := List.all_eq_true.mp h r hr
  simp only [ne_eq, Bool.and_eq_true, decide_eq_true_eq] at hall
  exact hall.1

theorem admitsDevice_new (rows : List SourceDeviceRow) (row : SourceDeviceRow)
    (h : admitsDevice rows row = true) :
    ∀ r ∈ rows, r.id ≠ row.id ∧ r.enrollmentIdempotencyKey ≠ row.enrollmentIdempotencyKey := by
  intro r hr
  have hall := List.all_eq_true.mp h r hr
  simp only [ne_eq, Bool.and_eq_true, decide_eq_true_eq] at hall
  exact hall.1

/-- What tells rows apart, and that a credential of a device is of one that is
    there. -/
structure Distinct (db : PairingDb) : Prop where
  keyed : Keyed db
  deviceIds : ((enrolledDevices db).map SourceDeviceRow.id).Nodup
  deviceKeys : ((enrolledDevices db).map SourceDeviceRow.enrollmentIdempotencyKey).Nodup
  credentialIds : ((issuedCredentials db).map CredentialRow.id).Nodup
  tokens : ((issuedCredentials db).map CredentialRow.tokenHash).Nodup
  owners : ((issuedCredentials db).filterMap CredentialRow.sourceDeviceId).Nodup
  owned : ∀ c ∈ issuedCredentials db, ∀ id, c.sourceDeviceId = some id →
    id ∈ (enrolledDevices db).map SourceDeviceRow.id

theorem distinct_empty : Distinct emptyDb :=
  ⟨List.nodup_nil, List.nodup_nil, List.nodup_nil, List.nodup_nil, List.nodup_nil,
    List.nodup_nil, fun _ hc => absurd hc List.not_mem_nil⟩

/-- Rows that are exchanged for a grant stay told apart. -/
theorem RowsAfter.distinct {op : PairingOp} {db db' : PairingDb} (h : RowsAfter db db' op)
    (hd : Distinct db) (hk : Keyed db') : Distinct db' := by
  cases h with
  | kept _ hdevices hcredentials =>
      constructor
      · exact hk
      · rw [hdevices]; exact hd.deviceIds
      · rw [hdevices]; exact hd.deviceKeys
      · rw [hcredentials]; exact hd.credentialIds
      · rw [hcredentials]; exact hd.tokens
      · rw [hcredentials]; exact hd.owners
      · rw [hdevices, hcredentials]; exact hd.owned
  | exchanged input g _ hadmits hafter =>
      have hnew : ∀ c ∈ issuedCredentials db, c.id ≠ (input.credential g).id ∧
          c.tokenHash ≠ (input.credential g).tokenHash := by
        intro c hc
        rcases List.mem_map.mp hc with ⟨c', hc', rfl⟩
        exact admitsCredential_new _ _ hadmits c' hc'
      have hcredentials := hafter ▸ issuedCredentials_exchanged input db g
      have hdevices : enrolledDevices db' = enrolledDevices db := by
        rw [hafter]
        rfl
      constructor
      · exact hk
      · rw [hdevices]; exact hd.deviceIds
      · rw [hdevices]; exact hd.deviceKeys
      · rw [hcredentials]
        exact Table.map_concat_nodup _ _ _ hd.credentialIds (fun c hc => (hnew c hc).1)
      · rw [hcredentials]
        exact Table.map_concat_nodup _ _ _ hd.tokens (fun c hc => (hnew c hc).2)
      · rw [hcredentials, List.filterMap_append]
        exact (List.append_nil _).symm ▸ hd.owners
      · rw [hdevices, hcredentials]
        intro c hc id hid
        rcases List.mem_append.mp hc with hold | hlast
        · exact hd.owned c hold id hid
        · rw [List.mem_singleton.mp hlast] at hid
          cases hid
  | enrolled input g _ _ _ hadmitsD hadmitsC hafter =>
      have hnewC : ∀ c ∈ issuedCredentials db, c.id ≠ (input.deviceCredential g).id ∧
          c.tokenHash ≠ (input.deviceCredential g).tokenHash := by
        intro c hc
        rcases List.mem_map.mp hc with ⟨c', hc', rfl⟩
        exact admitsCredential_new _ _ hadmitsC c' hc'
      have hnewD : ∀ d ∈ enrolledDevices db, d.id ≠ (input.device g).id ∧
          d.enrollmentIdempotencyKey ≠ (input.device g).enrollmentIdempotencyKey := by
        intro d hd'
        rcases List.mem_map.mp hd' with ⟨d', hd'', rfl⟩
        exact admitsDevice_new _ _ hadmitsD d' hd''
      have hcredentials := hafter ▸ issuedCredentials_enrolled input db g
      have hdevices := hafter ▸ enrolledDevices_enrolled input db g
      constructor
      · exact hk
      · rw [hdevices]
        exact Table.map_concat_nodup _ _ _ hd.deviceIds (fun d hd' => (hnewD d hd').1)
      · rw [hdevices]
        exact Table.map_concat_nodup _ _ _ hd.deviceKeys (fun d hd' => (hnewD d hd').2)
      · rw [hcredentials]
        exact Table.map_concat_nodup _ _ _ hd.credentialIds (fun c hc => (hnewC c hc).1)
      · rw [hcredentials]
        exact Table.map_concat_nodup _ _ _ hd.tokens (fun c hc => (hnewC c hc).2)
      · -- No credential was of the new device, since there was no such device.
        rw [hcredentials, List.filterMap_append]
        refine List.nodup_append.mpr ⟨hd.owners, List.nodup_singleton _, ?_⟩
        intro id hid id' hid' heq
        rcases List.mem_filterMap.mp hid with ⟨c, hc, hcid⟩
        rcases List.mem_map.mp (hd.owned c hc id hcid) with ⟨d, hd', hdid⟩
        rw [List.mem_singleton.mp hid'] at heq
        exact (hnewD d hd').1 (hdid.trans heq)
      · rw [hdevices, hcredentials, List.map_append]
        intro c hc id hid
        rcases List.mem_append.mp hc with hold | hlast
        · exact List.mem_append_left _ (hd.owned c hold id hid)
        · rw [List.mem_singleton.mp hlast] at hid
          exact List.mem_append_right _ (List.mem_singleton.mpr (Option.some.inj hid).symm)

/-! ## Grants -/

/-- What was granted: the row without its use. -/
def GrantRow.issued (g : GrantRow) : GrantRow :=
  { g with exchangeId := none, usedAt := none }

/-- An origin was there, or is the one of the grant that was created. -/
theorem createGrant_origins (input : GrantBatch) (db db' : PairingDb) (rs : List (Option String))
    (h : effect db (.createGrant input) = .ok (rs, db')) :
    ∀ o ∈ db'.origins, o ∈ db.origins ∨
      o = { grantHash := input.grantHash, deploymentOrigin := input.deploymentUrl } := by
  have hrun : Batch.run input.statements db = .ok (rs, db') := h
  refine Batch.run_keeps (fun t : PairingDb => ∀ o ∈ t.origins, o ∈ db.origins ∨
    o = { grantHash := input.grantHash, deploymentOrigin := input.deploymentUrl }) input.statements
    ?_ db db' rs hrun (fun o ho => Or.inl ho)
  intro q hq t r t' hqt ht o ho
  have hsame : t'.origins = t.origins → o ∈ db.origins ∨
      o = { grantHash := input.grantHash, deploymentOrigin := input.deploymentUrl } :=
    fun heq => ht o (heq ▸ ho)
  simp only [GrantBatch.statements, List.mem_append, List.mem_cons, List.not_mem_nil,
    or_false] at hq
  rcases hq with ((rfl | rfl) | hvault) | rfl | rfl | rfl
  · simp only [deleteSpentGrants, Batch.ok_inj] at hqt
    rw [← hqt.2] at ho
    exact ht o (List.mem_of_mem_filter ho)
  · simp only [deleteAbandonedVaults, Batch.ok_inj] at hqt
    exact hsame (hqt.2 ▸ rfl)
  · split at hvault
    · rw [List.mem_singleton] at hvault
      rw [hvault, GrantBatch.insertVault] at hqt
      split at hqt
      · split at hqt
        · cases hqt
        · simp only [Batch.ok_inj] at hqt
          exact hsame (hqt.2 ▸ rfl)
      · simp only [Batch.ok_inj] at hqt
        exact hsame (hqt.2 ▸ rfl)
    · cases hvault
  · rw [GrantBatch.insertGrant] at hqt
    split at hqt
    · split at hqt
      · cases hqt
      · split at hqt
        · cases hqt
        · simp only [Batch.ok_inj] at hqt
          exact hsame (hqt.2 ▸ rfl)
    · simp only [Batch.ok_inj] at hqt
      exact hsame (hqt.2 ▸ rfl)
  · rw [GrantBatch.insertOrigin] at hqt
    split at hqt
    · split at hqt
      · cases hqt
      · simp only [Batch.ok_inj] at hqt
        rw [← hqt.2] at ho
        rcases List.mem_append.mp ho with hold | hnew
        · exact ht o hold
        · exact Or.inr (List.mem_singleton.mp hnew)
    · simp only [Batch.ok_inj] at hqt
      exact hsame (hqt.2 ▸ rfl)
  · rw [(insertAuditEvent_ok _ _ _ _ _ hqt).2] at ho
    exact ht o ho

/-- A grant is one that was there, and used if that one was. -/
def GrantRow.Since (g : GrantRow) (db : PairingDb) : Prop :=
  ∃ g' ∈ db.grants, g'.issued = g.issued ∧ (g'.usedAt.isSome = true → g.usedAt.isSome = true)

/-- What was granted, and for which deployment, was there or is what a call has
    created. -/
structure GrantsAfter (op : PairingOp) (db db' : PairingDb) : Prop where
  grants : ∀ g ∈ db'.grants, g.Since db ∨ ∃ input, op = .createGrant input ∧ g = input.grant
  origins : ∀ o ∈ db'.origins, o ∈ db.origins ∨ ∃ input, op = .createGrant input ∧
    o = { grantHash := input.grantHash, deploymentOrigin := input.deploymentUrl }

theorem grantsAfter_same {op : PairingOp} {db db' : PairingDb}
    (hgrants : ∀ g ∈ db'.grants, g.Since db)
    (horigins : db'.origins = db.origins) : GrantsAfter op db db' :=
  ⟨fun g hg => Or.inl (hgrants g hg), fun _ ho => Or.inl (horigins ▸ ho)⟩

theorem useGrant_since (db : PairingDb) (g : GrantRow) (now : Nat) (exchangeId : String) :
    ∀ g' ∈ (useGrant db g now exchangeId).grants, g'.Since db := by
  intro g' hg'
  rcases Table.mem_update _ _ db.grants g' hg' with ⟨g'', hg'', ⟨_, rfl⟩ | ⟨_, rfl⟩⟩
  · exact ⟨g'', hg'', rfl, fun _ => rfl⟩
  · exact ⟨_, hg'', rfl, id⟩

theorem effect_issued (op : PairingOp) (db db' : PairingDb) (r : op.Ret) (hk : Keyed db)
    (hfresh : drawsFresh op db = true) (h : effect db op = .ok (r, db')) :
    GrantsAfter op db db' := by
  have hsame : ∀ g ∈ db.grants, g.Since db := fun g hg => ⟨g, hg, rfl, id⟩
  cases op with
  | exchange input =>
      rcases exchange_ok input db db' r hk hfresh h with ⟨_, rfl, _⟩ | ⟨g, _, _, rfl, _⟩
      · exact grantsAfter_same hsame rfl
      · exact grantsAfter_same (useGrant_since db g _ _) rfl
  | enrollDevice input =>
      rcases enrollDevice_ok input db db' r hk hfresh h with
        ⟨_, rfl, _⟩ | ⟨g, _, _, _, _, _, rfl, _⟩
      · exact grantsAfter_same hsame rfl
      · exact grantsAfter_same (useGrant_since db g _ _) rfl
  | createGrant input =>
      have horigins := createGrant_origins input db db' r h
      refine ⟨fun g hg => ?_, fun o ho => (horigins o ho).imp id (fun heq => ⟨input, rfl, heq⟩)⟩
      rcases (createGrant_ok input db db' r h).grants with hgrants | ⟨hgrants, _, _⟩
      · rw [hgrants] at hg
        exact Or.inl (hsame g (List.mem_of_mem_filter hg))
      · rw [hgrants] at hg
        rcases List.mem_append.mp hg with hold | hnew
        · exact Or.inl (hsame g (List.mem_of_mem_filter hold))
        · exact Or.inr ⟨input, rfl, List.mem_singleton.mp hnew⟩
  | confirmSync input =>
      rcases confirmSync_ok input db db' r h with ⟨events, rfl⟩
      exact grantsAfter_same hsame rfl
  | markPublished input =>
      rcases markPublished_ok input db db' r h with ⟨events, rfl⟩
      exact grantsAfter_same hsame rfl
  | revokeVault input =>
      rcases revokeVault_ok input db db' r h with ⟨events, rfl⟩
      exact grantsAfter_same hsame rfl
  | revokeDevice input deviceId =>
      rcases revokeDevice_ok input deviceId db db' r h with ⟨events, rfl⟩
      exact grantsAfter_same hsame rfl
  | _ =>
      rw [effect_read _ rfl db db' r h]
      exact grantsAfter_same hsame rfl

end Mdevolved.Pairing
