import Mdevolved.Pairing.DeviceGrants

/-!
# Limits of Devices and Grants

What every run of pairing calls keeps to. A vault has at most
`deviceHistoryLimit` devices, at most `activeDeviceLimit` of them active and
unexpired at a time no earlier than they were enrolled at, and no two active
ones with one root. The batch that enrolls a device checks all of this itself,
so what was read before it does not matter.

A grant is used by one exchange. The batch that uses it finds it unused, and
once used it stays so as long as it is kept. A grant that was deleted does not
come back: the call that creates it does so once (`Spent`).

## Main definitions

* `Limited`: The limits of a vault's devices.
* `Exchanged`: A grant is used by a step.
* `Together`: An exchange commits all of its rows or none.
* `Spent`: A grant was used, and will not be created again.
* `Kept`: What every run keeps to.

## Theorems

* `effect_devices`: Which devices a request leaves.
* `step_together`: What a step of an exchange commits.
* `step_exchanged`: Which exchange uses a grant.
* `used_once`: A grant is used once.
* `run_kept`: What every run keeps to.
-/

namespace Mdevolved.Pairing

open Process

/-! ## Devices -/

/-- Devices change one by one, and none becomes active again. -/
def NoneActivated (db db' : PairingDb) : Prop :=
  ∃ f : SourceDeviceRow → SourceDeviceRow, db'.devices = db.devices.map f ∧
    ∀ d, (f d).enrolled = d.enrolled ∧ ((f d).status = .active → d.status = .active)

section

variable (db db' : PairingDb)

theorem noneActivated_same (h : db'.devices = db.devices) :
    NoneActivated db db' :=
  ⟨id, by rw [h, List.map_id], fun _ => ⟨rfl, id⟩⟩

theorem noneActivated_update (p : SourceDeviceRow → Bool)
    (f : SourceDeviceRow → SourceDeviceRow) (h : db'.devices = Table.update p f db.devices)
    (hf : ∀ d, (f d).enrolled = d.enrolled ∧ ((f d).status = .active → d.status = .active)) :
    NoneActivated db db' := by
  refine ⟨fun d => if p d then f d else d, h, fun d => ?_⟩
  dsimp only
  by_cases hp : p d = true
  · rw [if_pos hp]; exact hf d
  · rw [if_neg hp]; exact ⟨rfl, id⟩

/-- A request enrolls one device, or makes none active. -/
theorem effect_devices (op : PairingOp) (db db' : PairingDb) (r : op.Ret) (hk : Keyed db)
    (hfresh : drawsFresh op db = true) (h : effect db op = .ok (r, db')) :
    NoneActivated db db' ∨ ∃ (b : EnrollmentBatch) (g : GrantRow), b.Usable db g ∧
      db'.devices = db.devices ++ [b.device g] := by
  cases op with
  | exchange input =>
      rcases exchange_ok input db db' r hk hfresh h with ⟨_, rfl, _⟩ | ⟨g, _, _, rfl, _⟩
      · exact Or.inl (noneActivated_same _ _ rfl)
      · exact Or.inl (noneActivated_same _ _ rfl)
  | enrollDevice input =>
      rcases enrollDevice_ok input db db' r hk hfresh h with
        ⟨_, rfl, _⟩ | ⟨g, _, husable, _, _, _, rfl, _⟩
      · exact Or.inl (noneActivated_same _ _ rfl)
      · exact Or.inr ⟨input, g, husable, rfl⟩
  | createGrant input =>
      exact Or.inl (noneActivated_same _ _ (createGrant_ok input db db' r h).devices)
  | confirmSync input =>
      rcases confirmSync_ok input db db' r h with ⟨events, rfl⟩
      exact Or.inl (noneActivated_same _ _ rfl)
  | markPublished input =>
      rcases markPublished_ok input db db' r h with ⟨events, rfl⟩
      exact Or.inl (noneActivated_update _ _ _ _ rfl (fun _ => ⟨rfl, id⟩))
  | revokeVault input =>
      rcases revokeVault_ok input db db' r h with ⟨events, rfl⟩
      exact Or.inl (noneActivated_update _ _ _ _ rfl (fun _ => ⟨rfl, fun h => nomatch h⟩))
  | revokeDevice input deviceId =>
      rcases revokeDevice_ok input deviceId db db' r h with ⟨events, rfl⟩
      exact Or.inl (noneActivated_update _ _ _ _ rfl (fun _ => ⟨rfl, fun h => nomatch h⟩))
  | _ =>
      rw [effect_read _ rfl db db' r h]
      exact Or.inl (noneActivated_same _ _ rfl)

/-- Two devices of a vault are active and have one root. -/
def SharesRoot (d d' : SourceDeviceRow) : Prop :=
  d.vaultId = d'.vaultId ∧ d.rootFingerprintSha256 = d'.rootFingerprintSha256 ∧
    d.status = .active ∧ d'.status = .active

/-- The limits of a vault's devices, at any time no earlier than they were
    enrolled at. -/
structure Limited (db : PairingDb) : Prop where
  history : ∀ vaultId, deviceCount db vaultId ≤ deviceHistoryLimit
  active : ∀ vaultId now, (∀ d ∈ db.devices, d.vaultId = vaultId → d.enrolledAt ≤ now) →
    activeDeviceCount db vaultId now ≤ activeDeviceLimit
  roots : db.devices.Pairwise (fun d d' => ¬ SharesRoot d d')

theorem limited_empty : Limited emptyDb :=
  ⟨fun _ => Nat.zero_le _, fun _ _ _ => Nat.zero_le _, List.Pairwise.nil⟩

theorem before_antitone {now now' : Nat} (h : now' ≤ now) (expiresAt : Option Nat)
    (hbefore : before now expiresAt = true) : before now' expiresAt = true := by
  cases expiresAt with
  | none => rfl
  | some e =>
      simp only [before, Option.all_some, decide_eq_true_eq] at hbefore ⊢
      omega

/-- Fewer devices are active later. -/
theorem activeDeviceCount_antitone (db : PairingDb) (vaultId : String) {now now' : Nat}
    (h : now' ≤ now) : activeDeviceCount db vaultId now ≤ activeDeviceCount db vaultId now' := by
  unfold activeDeviceCount
  rw [← List.countP_eq_length_filter, ← List.countP_eq_length_filter]
  refine List.countP_mono_left (fun d _ hd => ?_)
  simp only [Bool.and_eq_true, decide_eq_true_eq] at hd ⊢
  exact ⟨hd.1, before_antitone h d.expiresAt hd.2⟩

theorem limited_of_noneActivated (h : NoneActivated db db')
    (hl : Limited db) : Limited db' := by
  rcases h with ⟨f, hdevices, hf⟩
  have hvault : ∀ d, (f d).vaultId = d.vaultId :=
    fun d => sameDevice SourceDeviceRow.vaultId (fun _ => rfl) (hf d).1
  have hexpires : ∀ d, (f d).expiresAt = d.expiresAt :=
    fun d => sameDevice SourceDeviceRow.expiresAt (fun _ => rfl) (hf d).1
  constructor
  · intro vaultId
    refine le_trans ?_ (hl.history vaultId)
    unfold deviceCount
    rw [hdevices, ← List.countP_eq_length_filter, ← List.countP_eq_length_filter, List.countP_map]
    refine List.countP_mono_left (fun d _ hd => ?_)
    simpa only [Function.comp, hvault] using hd
  · intro vaultId now hnow
    have hearlier : ∀ d ∈ db.devices, d.vaultId = vaultId → d.enrolledAt ≤ now := by
      intro d hd hdv
      have henrolledAt : (f d).enrolledAt = d.enrolledAt :=
        sameDevice SourceDeviceRow.enrolledAt (fun _ => rfl) (hf d).1
      exact henrolledAt ▸ hnow (f d) (hdevices ▸ List.mem_map_of_mem hd) ((hvault d).trans hdv)
    refine le_trans ?_ (hl.active vaultId now hearlier)
    unfold activeDeviceCount
    rw [hdevices, ← List.countP_eq_length_filter, ← List.countP_eq_length_filter, List.countP_map]
    refine List.countP_mono_left (fun d _ hd => ?_)
    simp only [Function.comp, hvault, hexpires, Bool.and_eq_true, decide_eq_true_eq] at hd ⊢
    exact ⟨⟨hd.1.1, (hf d).2 hd.1.2⟩, hd.2⟩
  · rw [hdevices, List.pairwise_map]
    refine hl.roots.imp (fun {d d'} hne hshares => hne ?_)
    have hroot : ∀ d, (f d).rootFingerprintSha256 = d.rootFingerprintSha256 :=
      fun d => sameDevice SourceDeviceRow.rootFingerprintSha256 (fun _ => rfl) (hf d).1
    exact ⟨(hvault d).symm.trans (hshares.1.trans (hvault d')),
      (hroot d).symm.trans (hshares.2.1.trans (hroot d')), (hf d).2 hshares.2.2.1,
      (hf d').2 hshares.2.2.2⟩

/-- One more device is within the limits where its grant could be used. -/
theorem limited_of_enrolled (b : EnrollmentBatch) (g : GrantRow)
    (husable : b.Usable db g) (hdevices : db'.devices = db.devices ++ [b.device g])
    (hl : Limited db) : Limited db' := by
  constructor
  · intro vaultId
    have hold := hl.history vaultId
    unfold deviceCount
    rw [hdevices, List.filter_append, List.length_append]
    by_cases hv : g.vaultId = vaultId
    · have hroom := husable.history
      have hone := List.length_filter_le (fun d => d.vaultId = vaultId) [b.device g]
      rw [hv] at hroom
      unfold deviceCount at hroom
      rw [List.length_singleton] at hone
      omega
    · have hnone : ([b.device g].filter (fun d => d.vaultId = vaultId)).length = 0 := by
        rw [List.length_eq_zero_iff, List.filter_eq_nil_iff]
        intro d hd
        rw [List.mem_singleton.mp hd, decide_eq_true_eq]
        exact hv
      unfold deviceCount at hold
      omega
  · intro vaultId now hnow
    have hold := hl.active vaultId now (fun d hd =>
      hnow d (hdevices ▸ List.mem_append_left _ hd))
    unfold activeDeviceCount
    rw [hdevices, List.filter_append, List.length_append]
    by_cases hv : g.vaultId = vaultId
    · -- The devices that were there were counted when this one was enrolled.
      have hnew := hnow (b.device g)
        (hdevices ▸ List.mem_append_right _ (List.mem_singleton_self _)) hv
      have hroom := le_trans (Nat.succ_le_succ (activeDeviceCount_antitone db vaultId hnew))
        (hv ▸ husable.room)
      have hone := List.length_filter_le (fun d =>
        d.vaultId = vaultId && d.status = .active && before now d.expiresAt) [b.device g]
      rw [List.length_singleton] at hone
      unfold activeDeviceCount at hroom
      omega
    · have hnone : ([b.device g].filter (fun d =>
          d.vaultId = vaultId && d.status = .active && before now d.expiresAt)).length = 0 := by
        rw [List.length_eq_zero_iff, List.filter_eq_nil_iff]
        intro d hd hp
        rw [List.mem_singleton.mp hd] at hp
        simp only [Bool.and_eq_true, decide_eq_true_eq] at hp
        exact hv hp.1.1
      unfold activeDeviceCount at hold
      omega
  · rw [hdevices]
    refine List.pairwise_append.mpr ⟨hl.roots, List.pairwise_singleton _ _, ?_⟩
    intro d hd d' hd' hshares
    rw [List.mem_singleton.mp hd'] at hshares
    exact husable.newRoot d hd hshares.1 hshares.2.1 hshares.2.2.1

end

theorem exec_limited (op : PairingOp) (w : Batch.Outcome) (db : PairingDb) (hk : Keyed db)
    (hfresh : Fresh op w db) (hl : Limited db) : Limited (exec op w db).2 := by
  rcases exec_cases op w db with hsame | ⟨r, h⟩
  · rw [hsame]; exact hl
  · rcases effect_devices op db _ r hk hfresh h with hnone | ⟨b, g, husable, hdevices⟩
    · exact limited_of_noneActivated db _ hnone hl
    · exact limited_of_enrolled db _ b g husable hdevices hl

/-! ## Exchanges -/

variable {ι : Type} (sha256Hex : String → String) (calls : ι → PairingCall)

/-- A grant is used: it was there to be used, and is no longer. -/
def Exchanged (db db' : PairingDb) (grantHash : String) : Prop :=
  (∃ g ∈ db.grants, g.grantHash = grantHash ∧ g.usedAt = none) ∧
    ∃ g ∈ db'.grants, g.grantHash = grantHash ∧ g.usedAt.isSome = true

/-- An exchange commits the use of its grant, a credential and, where it has one,
    a device, or none of them. -/
def Together (input : ExchangeInput) (db db' : PairingDb) : Prop :=
  (db'.grants = db.grants ∧ db'.credentials = db.credentials ∧ db'.devices = db.devices) ∨
    (Exchanged db db' (sha256Hex input.request.grant) ∧ ∃ c,
      db'.credentials = db.credentials ++ [c] ∧
        match input.request.sourceDevice with
        | none => c.sourceDeviceId = none ∧ db'.devices = db.devices
        | some enrollment => c.sourceDeviceId = some enrollment.deviceId ∧
            c.tokenHash = enrollment.credentialSha256 ∧
            ∃ d, d.id = enrollment.deviceId ∧ d.vaultId = c.vaultId ∧
              db'.devices = db.devices ++ [d])

theorem exchanged_useGrant (db db' : PairingDb) (g : GrantRow) (now : Nat) (exchangeId : String)
    (hg : g ∈ db.grants) (hunused : g.usedAt = none)
    (hafter : db'.grants = (useGrant db g now exchangeId).grants) :
    Exchanged db db' g.grantHash := by
  have hmem := Table.update_mem (fun g' => g'.grantHash = g.grantHash)
    (fun g' => g'.used now exchangeId) db.grants g hg
  rw [if_pos (decide_eq_true rfl)] at hmem
  exact ⟨⟨g, hg, rfl, hunused⟩, g.used now exchangeId, hafter ▸ hmem, rfl, rfl⟩

theorem ExchangeBatch.usable_ok (input : ExchangeBatch) (db : PairingDb) (g : GrantRow)
    (h : input.usable db g = true) : g.grantHash = input.grantHash ∧ g.usedAt = none ∧
      input.now < g.expiresAt ∧ hasOrigin db g.grantHash input.deploymentUrl = true := by
  simp only [usable, Bool.and_eq_true, decide_eq_true_eq] at h
  exact ⟨h.1.1.1.1, h.1.1.1.2, h.1.1.2, h.1.2⟩

/-- What a batch of a call commits. -/
theorem effect_together (input : ExchangeInput) (op : PairingOp) (db db' : PairingDb) (r : op.Ret)
    (hk : Keyed db) (hfresh : drawsFresh op db = true)
    (hallowed : CallAllowed sha256Hex (.exchangePairingGrant input) op db)
    (h : effect db op = .ok (r, db')) : Together sha256Hex input db db' := by
  cases op with
  | exchange b =>
      rcases hallowed with ⟨input', descriptor, hcall, hnone, rfl⟩
      rw [PairingCall.exchangePairingGrant.injEq] at hcall
      subst hcall
      rcases exchange_ok _ db db' r hk hfresh h with ⟨_, rfl, _⟩ | ⟨g, hfind, _, rfl, _⟩
      · exact Or.inl ⟨rfl, rfl, rfl⟩
      · have husable := ExchangeBatch.usable_ok _ db g (List.find?_some hfind)
        have hhash : g.grantHash = sha256Hex input.request.grant := husable.1
        refine Or.inr ⟨?_, _, rfl, ?_⟩
        · rw [← hhash]
          exact exchanged_useGrant db _ g _ _ (List.mem_of_find?_eq_some hfind) husable.2.1 rfl
        · rw [hnone]
          exact ⟨rfl, rfl⟩
  | enrollDevice b =>
      rcases hallowed with ⟨input', enrollment, descriptor, vaultId, hcall, hdevice, _, rfl⟩
      rw [PairingCall.exchangePairingGrant.injEq] at hcall
      subst hcall
      rcases enrollDevice_ok _ db db' r hk hfresh h with
        ⟨_, rfl, _⟩ | ⟨g, hfind, husable, _, _, _, rfl, _⟩
      · exact Or.inl ⟨rfl, rfl, rfl⟩
      · have hhash : g.grantHash = sha256Hex input.request.grant := husable.grantHash
        refine Or.inr ⟨?_, _, rfl, ?_⟩
        · rw [← hhash]
          exact exchanged_useGrant db _ g _ _ (List.mem_of_find?_eq_some hfind) husable.unused rfl
        · rw [hdevice]
          exact ⟨rfl, rfl, _, rfl, rfl, rfl⟩
  | createGrant b => rcases hallowed with ⟨_, hcall, _⟩; cases hcall
  | confirmSync b => rcases hallowed with ⟨⟨_, hcall⟩, _⟩; cases hcall
  | markPublished b => rcases hallowed with ⟨_, hcall⟩; cases hcall
  | revokeVault b => cases hallowed
  | revokeDevice b deviceId => cases hallowed
  | _ =>
      rw [effect_read _ rfl db db' r h]
      exact Or.inl ⟨rfl, rfl, rfl⟩

/-- A grant is used by an exchange that was sent it, before it expires and by way
    of the deployment it was issued for. -/
structure ExchangedBy (call : PairingCall) (grantHash : String) (input : ExchangeInput)
    (created : CreateGrantInput) : Prop where
  exchange : call = .exchangePairingGrant input
  presented : sha256Hex input.request.grant = grantHash
  granted : GrantedBy sha256Hex calls grantHash created
  unexpired : input.now < created.now + pairingGrantLifetimeSeconds
  origin : input.deploymentUrl = created.deploymentUrl

theorem usable_created (hapart : GrantsApart sha256Hex calls) (db : PairingDb)
    (hw : Wired sha256Hex calls db) (g : GrantRow) (hg : g ∈ db.grants) (now : Nat)
    (deploymentUrl : String) (hnow : now < g.expiresAt)
    (horigin : hasOrigin db g.grantHash deploymentUrl = true) :
    ∃ created, GrantedBy sha256Hex calls g.grantHash created ∧
      now < created.now + pairingGrantLifetimeSeconds ∧ deploymentUrl = created.deploymentUrl := by
  rcases hw.sourced.grants g hg with ⟨created, hby, heq⟩
  rcases List.any_eq_true.mp horigin with ⟨o, ho, hoeq⟩
  rw [Bool.and_eq_true, decide_eq_true_eq, decide_eq_true_eq] at hoeq
  rcases hw.sourced.origins o ho with ⟨created', hby', hurl⟩
  rw [hoeq.1] at hby'
  rw [← grantedBy_unique sha256Hex calls hapart g.grantHash created created' hby hby'] at hurl
  have hexpires : g.expiresAt = created.now + pairingGrantLifetimeSeconds :=
    congrArg GrantRow.expiresAt heq
  exact ⟨created, hby, hexpires ▸ hnow, hoeq.2.symm.trans hurl⟩

/-- A grant that a request uses is one that the request is for. -/
theorem effect_exchanged (hapart : GrantsApart sha256Hex calls) (call : PairingCall)
    (op : PairingOp) (db db' : PairingDb) (r : op.Ret) (hw : Wired sha256Hex calls db)
    (hfresh : drawsFresh op db = true) (hallowed : CallAllowed sha256Hex call op db)
    (h : effect db op = .ok (r, db')) (grantHash : String) (hexchanged : Exchanged db db' grantHash) :
    ∃ input created, ExchangedBy sha256Hex calls call grantHash input created := by
  have hk := hw.distinct.keyed
  rcases hexchanged with ⟨⟨g₀, hg₀, hhash₀, hunused⟩, g₁, hg₁, hhash₁, hused⟩
  -- A grant that was kept as it is was used before already.
  have hkept : ∀ g ∈ db.grants, g.grantHash = grantHash → g.usedAt = none := by
    intro g hg hhash
    have heq : g = g₀ := List.inj_on_of_nodup_map hk hg hg₀ (hhash.trans hhash₀.symm)
    exact heq ▸ hunused
  have hchanged : ∀ (g : GrantRow) now exchangeId, g ∈ db.grants →
      db'.grants = (useGrant db g now exchangeId).grants → g.grantHash = grantHash := by
    intro g now exchangeId _ hafter
    rw [hafter] at hg₁
    rcases Table.mem_update _ _ db.grants g₁ hg₁ with ⟨g', hg', ⟨hsame, rfl⟩ | ⟨_, rfl⟩⟩
    · exact (of_decide_eq_true hsame).symm.trans hhash₁
    · rw [hkept _ hg' hhash₁] at hused
      cases hused
  have hsame : db'.grants = db.grants →
      ∃ input created, ExchangedBy sha256Hex calls call grantHash input created := by
    intro hsame
    rw [hkept g₁ (hsame ▸ hg₁) hhash₁] at hused
    cases hused
  cases op with
  | exchange b =>
      rcases hallowed with ⟨input, descriptor, hcall, hnone, rfl⟩
      rcases exchange_ok _ db db' r hk hfresh h with ⟨_, rfl, _⟩ | ⟨g, hfind, _, rfl, _⟩
      · exact hsame rfl
      · have hg := List.mem_of_find?_eq_some hfind
        have husable := ExchangeBatch.usable_ok _ db g (List.find?_some hfind)
        have hhash := hchanged g _ _ hg rfl
        rcases usable_created sha256Hex calls hapart db hw g hg _ _ husable.2.2.1 husable.2.2.2 with
          ⟨created, hby, hnow, hurl⟩
        exact ⟨input, created, hcall, husable.1.symm.trans hhash, hhash ▸ hby, hnow, hurl⟩
  | enrollDevice b =>
      rcases hallowed with ⟨input, enrollment, descriptor, vaultId, hcall, hdevice, _, rfl⟩
      rcases enrollDevice_ok _ db db' r hk hfresh h with
        ⟨_, rfl, _⟩ | ⟨g, hfind, husable, _, _, _, rfl, _⟩
      · exact hsame rfl
      · have hg := List.mem_of_find?_eq_some hfind
        have hhash := hchanged g _ _ hg rfl
        rcases usable_created sha256Hex calls hapart db hw g hg _ _ husable.unexpired
          husable.origin with ⟨created, hby, hnow, hurl⟩
        exact ⟨input, created, hcall, husable.grantHash.symm.trans hhash, hhash ▸ hby, hnow, hurl⟩
  | createGrant b =>
      have hgrants := (createGrant_ok b db db' r h).grants
      have hold : g₁ ∈ db.grants.filter (fun g => g.kept b.now) → False := by
        intro hmem
        rw [hkept g₁ (List.mem_of_mem_filter hmem) hhash₁] at hused
        cases hused
      rcases hgrants with hgrants | ⟨hgrants, _, _⟩
      · exact (hold (hgrants ▸ hg₁)).elim
      · rw [hgrants] at hg₁
        rcases List.mem_append.mp hg₁ with hmem | hnew
        · exact (hold hmem).elim
        · rw [List.mem_singleton.mp hnew] at hused
          cases hused
  | confirmSync b =>
      rcases confirmSync_ok b db db' r h with ⟨events, rfl⟩
      exact hsame rfl
  | markPublished b =>
      rcases markPublished_ok b db db' r h with ⟨events, rfl⟩
      exact hsame rfl
  | revokeVault b =>
      rcases revokeVault_ok b db db' r h with ⟨events, rfl⟩
      exact hsame rfl
  | revokeDevice b deviceId =>
      rcases revokeDevice_ok b deviceId db db' r h with ⟨events, rfl⟩
      exact hsame rfl
  | _ => exact hsame (congrArg PairingDb.grants (effect_read _ rfl db db' r h))

/-! ## Grants are used once -/

/-- A request that creates a grant. -/
def IsCreation (op : PairingOp) : Prop :=
  ∃ b, op = .createGrant b

/-- A process that creates no grant any more. -/
abbrev CreatesNone {α : Type} (p : PairingProcess α) : Prop :=
  p.Within (fun op => ¬ IsCreation op) (fun _ => True)

/-- A call that creates a grant does so once. -/
theorem createPairingGrant_once (created : CreateGrantInput) :
    ((PairingCall.createPairingGrant created).process sha256Hex).Once IsCreation := by
  refine once_bind _ _ ?_ (fun _ => trivial)
  unfold createPairingGrant
  cases created.vaultId with
  | none =>
      refine once_bind _ (ask _) (once_request _) (fun results => ?_)
      split <;> exact trivial
  | some vaultId =>
      refine within_bind_once _ (ask _) (within_request _ (fun ⟨b, hb⟩ => nomatch hb))
        (fun found => ?_)
      dsimp only
      split
      · refine once_bind _ (ask _) (once_request _) (fun results => ?_)
        split <;> exact trivial
      · exact trivial

/-- Grants that are there have been created, and no call will create one of them
    again. -/
structure Creating (c : PairingPool ι) : Prop where
  once : ∀ i created, calls i = .createPairingGrant created → (c.calls i).Once IsCreation
  past : ∀ g ∈ c.shared.grants, ∀ i created, calls i = .createPairingGrant created →
    sha256Hex created.grant = g.grantHash → CreatesNone (c.calls i)

/-- A grant has been used, if it is still there, and no call will create it
    again. -/
structure Spent (grantHash : String) (c : PairingPool ι) : Prop where
  used : ∀ g ∈ c.shared.grants, g.grantHash = grantHash → g.usedAt.isSome = true
  past : ∀ i created, calls i = .createPairingGrant created →
    sha256Hex created.grant = grantHash → CreatesNone (c.calls i)

theorem creating_start : Creating sha256Hex calls (startPool sha256Hex calls emptyDb) := by
  refine ⟨fun i created hcall => ?_, fun g hg => absurd hg List.not_mem_nil⟩
  have honce := createPairingGrant_once sha256Hex created
  rw [← hcall] at honce
  exact honce

variable [DecidableEq ι]

/-- A grant after a step was there before it, or its creation was the step. -/
theorem step_grants (c : PairingPool ι) (e : ι × Batch.Outcome) (hc : PoolSound sha256Hex calls c)
    (hfresh : Pool.Takes Fresh c e) (g : GrantRow) (hg : g ∈ (Pool.step exec c e).shared.grants) :
    g.Since c.shared ∨ ∃ created, calls e.1 = .createPairingGrant created ∧
      sha256Hex created.grant = g.grantHash ∧
        c.next e.1 = some (.createGrant (created.grantBatch sha256Hex)) := by
  rcases Pool.step_shared exec c e with ⟨-, hsame⟩ | ⟨op, hnext, hstep⟩
  · exact Or.inl ⟨g, hsame ▸ hg, rfl, id⟩
  · rw [hstep] at hg
    rcases exec_cases op e.2 c.shared with hsame | ⟨r, h⟩
    · exact Or.inl ⟨g, hsame ▸ hg, rfl, id⟩
    · have hallowed := Pool.takes_allowed c e.1 op hc hnext
      rcases (effect_issued op c.shared _ r hc.1.distinct.keyed (hfresh op hnext) h).grants g hg with
        hsince | ⟨b, rfl, rfl⟩
      · exact Or.inl hsince
      · rcases hallowed with ⟨created, hcall, rfl⟩
        exact Or.inr ⟨created, hcall, rfl, hnext⟩

theorem GrantRow.Since.sameHash {g : GrantRow} {db : PairingDb} (h : g.Since db) :
    ∃ g' ∈ db.grants, g'.grantHash = g.grantHash ∧
      (g'.usedAt.isSome = true → g.usedAt.isSome = true) := by
  rcases h with ⟨g', hg', hsame, hused⟩
  exact ⟨g', hg', show g'.issued.grantHash = g.issued.grantHash by rw [hsame], hused⟩

theorem step_creating (hapart : GrantsApart sha256Hex calls) (c : PairingPool ι)
    (e : ι × Batch.Outcome) (hc : PoolSound sha256Hex calls c) (hfresh : Pool.Takes Fresh c e)
    (h : Creating sha256Hex calls c) : Creating sha256Hex calls (Pool.step exec c e) := by
  refine ⟨fun i created hcall => Pool.step_once c e i (h.once i created hcall), ?_⟩
  intro g hg i created hcall hhash
  rcases step_grants sha256Hex calls c e hc hfresh g hg with hsince | ⟨created', hcall', hhash', hnext⟩
  · rcases hsince.sameHash with ⟨g', hg', hsame, _⟩
    exact Pool.step_within c e i (h.past g' hg' i created hcall (hhash.trans hsame.symm))
  · -- It is this call that has created the grant, and it does so once.
    have hi : i = e.1 := hapart i e.1 created created' hcall hcall' (hhash.trans hhash'.symm)
    rw [hi]
    exact Pool.step_taken c e _ (h.once e.1 created' hcall') hnext ⟨_, rfl⟩

theorem step_spent (grantHash : String) (c : PairingPool ι) (e : ι × Batch.Outcome)
    (hc : PoolSound sha256Hex calls c) (hfresh : Pool.Takes Fresh c e)
    (h : Spent sha256Hex calls grantHash c) :
    Spent sha256Hex calls grantHash (Pool.step exec c e) := by
  refine ⟨fun g hg hhash => ?_, fun i created hcall hhash =>
    Pool.step_within c e i (h.past i created hcall hhash)⟩
  rcases step_grants sha256Hex calls c e hc hfresh g hg with hsince | ⟨created, hcall, hhash', hnext⟩
  · rcases hsince.sameHash with ⟨g', hg', hsame, hused⟩
    exact hused (h.used g' hg' (hsame.trans hhash))
  · exact absurd ⟨_, rfl⟩
      (Pool.next_within c e.1 _ (h.past e.1 created hcall (hhash'.trans hhash)) hnext)

/-- A grant that a step uses is spent. -/
theorem exchanged_spent (grantHash : String) (c : PairingPool ι) (e : ι × Batch.Outcome)
    (hlast : PoolSound sha256Hex calls (Pool.step exec c e)) (h : Creating sha256Hex calls c)
    (hexchanged : Exchanged c.shared (Pool.step exec c e).shared grantHash) :
    Spent sha256Hex calls grantHash (Pool.step exec c e) := by
  rcases hexchanged with ⟨⟨g, hg, hhash, _⟩, g', hg', hhash', hused⟩
  constructor
  · intro g'' hg'' hhash''
    have heq : g'' = g' :=
      List.inj_on_of_nodup_map hlast.1.distinct.keyed hg'' hg' (hhash''.trans hhash'.symm)
    exact heq ▸ hused
  · intro i created hcall hcreated
    exact Pool.step_within c e i (h.past g hg i created hcall (hcreated.trans hhash.symm))

omit [DecidableEq ι] in
theorem Spent.not_exchanged {grantHash : String} {c : PairingPool ι}
    (h : Spent sha256Hex calls grantHash c) (db : PairingDb) :
    ¬ Exchanged c.shared db grantHash := by
  rintro ⟨⟨g, hg, hhash, hunused⟩, _⟩
  have hused := h.used g hg hhash
  rw [hunused] at hused
  cases hused

/-! ## Runs -/

/-- What every run of calls keeps to, besides where its rows come from. -/
structure Kept (c : PairingPool ι) : Prop where
  sound : PoolSound sha256Hex calls c
  limited : Limited c.shared
  creating : Creating sha256Hex calls c

theorem step_kept (hapart : GrantsApart sha256Hex calls) (c : PairingPool ι)
    (e : ι × Batch.Outcome) (hc : Kept sha256Hex calls c) (hfresh : Pool.Takes Fresh c e) :
    Kept sha256Hex calls (Pool.step exec c e) := by
  refine ⟨step_poolSound sha256Hex calls c e hc.sound hfresh, ?_,
    step_creating sha256Hex calls hapart c e hc.sound hfresh hc.creating⟩
  rcases Pool.step_shared exec c e with ⟨-, hsame⟩ | ⟨op, hnext, hstep⟩
  · rw [hsame]; exact hc.limited
  · rw [hstep]
    exact exec_limited op e.2 c.shared hc.sound.1.distinct.keyed (hfresh op hnext) hc.limited

theorem run_kept (hapart : GrantsApart sha256Hex calls) (es : List (ι × Batch.Outcome))
    (hfresh : Run.Along (Pool.Takes Fresh) (Pool.step exec) (startPool sha256Hex calls emptyDb)
      es) : Kept sha256Hex calls (Pool.run exec (startPool sha256Hex calls emptyDb) es) := by
  refine Run.runFrom_invariant _ (Kept sha256Hex calls) (step_kept sha256Hex calls hapart) _ es ?_
    hfresh
  exact ⟨sound_run sha256Hex calls [] trivial, limited_empty, creating_start sha256Hex calls⟩

theorem step_exchanged (hapart : GrantsApart sha256Hex calls) (c : PairingPool ι)
    (e : ι × Batch.Outcome) (hc : PoolSound sha256Hex calls c) (hfresh : Pool.Takes Fresh c e)
    (grantHash : String)
    (hexchanged : Exchanged c.shared (Pool.step exec c e).shared grantHash) :
    ∃ input created, ExchangedBy sha256Hex calls (calls e.1) grantHash input created := by
  have hno : ¬ Exchanged c.shared c.shared grantHash := by
    rintro ⟨⟨g, hg, hhash, hunused⟩, g', hg', hhash', hused⟩
    have heq : g = g' :=
      List.inj_on_of_nodup_map hc.1.distinct.keyed hg hg' (hhash.trans hhash'.symm)
    rw [← heq, hunused] at hused
    cases hused
  rcases Pool.step_shared exec c e with ⟨-, hsame⟩ | ⟨op, hnext, hstep⟩
  · rw [hsame] at hexchanged
    exact absurd hexchanged hno
  · rw [hstep] at hexchanged
    rcases exec_cases op e.2 c.shared with hsame | ⟨r, h⟩
    · rw [hsame] at hexchanged
      exact absurd hexchanged hno
    · exact effect_exchanged sha256Hex calls hapart (calls e.1) op c.shared _ r hc.1
        (hfresh op hnext) (Pool.takes_allowed c e.1 op hc hnext) h grantHash hexchanged

theorem step_together (c : PairingPool ι) (e : ι × Batch.Outcome)
    (hc : PoolSound sha256Hex calls c) (hfresh : Pool.Takes Fresh c e) (input : ExchangeInput)
    (hcall : calls e.1 = .exchangePairingGrant input) :
    Together sha256Hex input c.shared (Pool.step exec c e).shared := by
  rcases Pool.step_shared exec c e with ⟨-, hsame⟩ | ⟨op, hnext, hstep⟩
  · rw [hsame]
    exact Or.inl ⟨rfl, rfl, rfl⟩
  · rw [hstep]
    rcases exec_cases op e.2 c.shared with hsame | ⟨r, h⟩
    · rw [hsame]
      exact Or.inl ⟨rfl, rfl, rfl⟩
    · exact effect_together sha256Hex input op c.shared _ r hc.1.distinct.keyed (hfresh op hnext)
        (hcall ▸ Pool.takes_allowed c e.1 op hc hnext) h

/-- A grant that one step of a run uses, no later step uses. -/
theorem used_once (hapart : GrantsApart sha256Hex calls) (es es' : List (ι × Batch.Outcome))
    (e e' : ι × Batch.Outcome)
    (hfresh : Run.Along (Pool.Takes Fresh) (Pool.step exec) (startPool sha256Hex calls emptyDb)
      (es ++ e :: es'))
    (grantHash : String)
    (hexchanged : Exchanged (Pool.run exec (startPool sha256Hex calls emptyDb) es).shared
      (Pool.step exec (Pool.run exec (startPool sha256Hex calls emptyDb) es) e).shared grantHash) :
    ¬ Exchanged (Pool.run exec (startPool sha256Hex calls emptyDb) (es ++ e :: es')).shared
      (Pool.step exec (Pool.run exec (startPool sha256Hex calls emptyDb) (es ++ e :: es'))
        e').shared grantHash := by
  rw [Run.along_append] at hfresh
  have hkept := run_kept sha256Hex calls hapart es hfresh.1
  have hlast := step_poolSound sha256Hex calls _ e hkept.sound hfresh.2.1
  have hspent := exchanged_spent sha256Hex calls grantHash _ e hlast hkept.creating hexchanged
  have hstays := (Run.runFrom_invariant (Pool.step exec) (fun c => PoolSound sha256Hex calls c ∧
    Spent sha256Hex calls grantHash c) (fun c e hc htakes =>
      ⟨step_poolSound sha256Hex calls c e hc.1 htakes,
        step_spent sha256Hex calls grantHash c e hc.1 htakes hc.2⟩) _ es' ⟨hlast, hspent⟩
    hfresh.2.2).2
  rw [show Pool.run exec (startPool sha256Hex calls emptyDb) (es ++ e :: es') =
    Run.runFrom (Pool.step exec) (Pool.step exec
      (Pool.run exec (startPool sha256Hex calls emptyDb) es) e) es' from
    Run.runFrom_append _ _ es (e :: es')]
  exact hstays.not_exchanged sha256Hex calls _

end Mdevolved.Pairing
