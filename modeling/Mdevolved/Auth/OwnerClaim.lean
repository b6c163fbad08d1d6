import Mdevolved.Auth.Store

/-!
# The First Owner of a Deployment

There is one owner at most, whoever is committed first, and it stays the owner.
What a managed deployment adds is that an owner comes by invitation, and a commit
looks for the invitation that its user is bound to before it inserts an owner.
But it looks for one only where the deployment has been configured: where no
invitation was ever installed, a commit that requires one goes through without
any.

`Claimed` is what a commit that goes through does to the tables, said once for
both kinds of commit. `Keyed` is what makes the user of a commit lead to one
binding and that to one invitation. Along a run whose commits that require an
invitation find the deployment configured, every owner that is committed was
invited, and its invitation is used up with the same commit
(`first_owner_invited`).

## Main definitions

* `Keyed`: A user is bound once and an invitation has a token of its own.
* `Claimed`: What a commit leaves behind.
* `Sole`: The tables of a deployment that has one owner at most.
* `Invited`: A commit uses up the invitation its user was bound to.
* `ClaimedProperly`: What is asked of one request.

## Theorems

* `commit_claimed`: A commit that goes through.
* `commit_invited`: A commit of a configured deployment.
* `effect_owners`: What one request does to the owners.
* `first_owner_invited`: Runs over configured deployments.
* `owner_without_invitation`: A run that commits an owner nobody invited.
-/

namespace Mdevolved.Auth

open Batch

/-- A user is bound once, and an invitation has a token of its own. -/
structure Keyed (db : AuthDb) : Prop where
  users : (db.claimChallenges.map OwnerClaimChallengeRow.webauthnUserId).Nodup
  tokens : (db.invitations.map OwnerClaimInvitationRow.tokenHash).Nodup

/-- The owner a commit inserts is the first. -/
structure Claimed (input : OwnerCommit) (db db' : AuthDb) : Prop where
  unowned : ∀ o ∈ db.owners, o.id ≠ 1
  owners : db'.owners = db.owners ++ [input.ownerRow]
  credential : ∃ c ∈ db'.credentials, c.credentialId = input.owner.credentialId
  session : ∃ s ∈ db'.sessions, s.tokenHash = input.session.tokenHash ∧ s.ownerId = 1
  admitted : input.admitted db = true

/-- The user of a commit was bound to an invitation to the configured hostname,
    that could still be used, and was used up by the commit. -/
def Invited (input : OwnerCommit) (db db' : AuthDb) : Prop :=
  ∃ c b i, db.configuration = some c ∧ b ∈ db.claimChallenges ∧ i ∈ db.invitations ∧
    b.webauthnUserId = input.owner.webauthnUserId ∧ b.invitationTokenHash = i.tokenHash ∧
    b.expectedHostname = c.expectedHostname ∧ i.expectedHostname = c.expectedHostname ∧
    input.now < b.expiresAt ∧ i.consumedAt = none ∧ input.now < i.expiresAt ∧
    { i with consumedAt := some input.now } ∈ db'.invitations ∧
    ∀ i' ∈ db'.invitations, i'.tokenHash = i.tokenHash → i'.consumedAt = some input.now

/-! ## Statements of a commit -/

section

variable (input : OwnerCommit) (db db' : AuthDb) (r : Unit)

theorem insertOwner_ok (h : input.insertOwner db = .ok (r, db')) :
    (input.admitted db = false ∧ db' = { db with changes := 0 }) ∨
      (input.admitted db = true ∧ (∀ o ∈ db.owners, o.id ≠ 1) ∧
        db' = { db with owners := db.owners ++ [input.ownerRow], changes := 1 }) := by
  unfold OwnerCommit.insertOwner at h
  cases hadm : input.admitted db with
  | false =>
      simp only [hadm, Bool.false_eq_true, if_false, Batch.ok_inj, true_and] at h
      exact Or.inl ⟨rfl, h.symm⟩
  | true =>
      rw [hadm, if_pos rfl] at h
      split at h
      · cases h
      · next hfree =>
        simp only [Batch.ok_inj, true_and] at h
        refine Or.inr ⟨rfl, fun o ho hid => hfree ?_, h.symm⟩
        exact List.any_eq_true.mpr ⟨o, ho, by rw [hid]; rfl⟩

theorem assertOwnerInserted_ok (h : assertOwnerInserted db = .ok (r, db')) :
    db.changes = 1 ∧ db' = { db with ownerInserted := some 1, changes := 1 } := by
  unfold assertOwnerInserted at h
  split at h
  · next hone =>
    simp only [Batch.ok_inj, true_and] at h
    exact ⟨hone, by rw [← h, hone]⟩
  · cases h

theorem consumeInvitation_ok (h : input.consumeInvitation db = .ok (r, db')) :
    db' = { db with
      invitations := Table.update (input.consumes db)
        (fun i => { i with consumedAt := some input.now }) db.invitations
      changes := (db.invitations.filter (input.consumes db)).length } := by
  unfold OwnerCommit.consumeInvitation at h
  split at h
  · cases h
  · simp only [Batch.ok_inj, true_and] at h
    exact h.symm

/-- A configuration that is claimed was not, and an invitation was used up
    before. -/
theorem claimConfiguration_ok (h : input.claimConfiguration db = .ok (r, db')) :
    (∀ c, db.configuration = some c → c.claimedAt = none → db.changes = 1) ∧
      ∃ configuration, db' = { db with
        configuration := configuration, changes := db'.changes } := by
  unfold OwnerCommit.claimConfiguration at h
  cases hc : db.configuration with
  | none =>
      simp only [hc, Batch.ok_inj, true_and] at h
      exact ⟨nofun, none, by rw [← h]⟩
  | some c =>
      simp only [hc] at h
      split at h
      · next hclaimed =>
        simp only [Batch.ok_inj, true_and] at h
        refine ⟨fun c' hc' hnone => ?_, some c, by rw [← h]⟩
        rw [Option.some.injEq] at hc'
        rw [hc', hnone] at hclaimed
        cases hclaimed
      · by_cases hone : db.changes = 1
        · rw [if_pos hone] at h
          split at h
          · cases h
          · simp only [Batch.ok_inj, true_and] at h
            exact ⟨fun _ _ _ => hone, _, by rw [← h]⟩
        · -- Without an invitation used up the time is -1, which no check admits.
          rw [if_neg hone, if_pos (by omega)] at h
          cases h

theorem insertSession_ok (h : input.insertSession db = .ok (r, db')) :
    (∃ s ∈ db'.sessions, s.tokenHash = input.session.tokenHash ∧ s.ownerId = 1) ∧
      db' = { db with sessions := db'.sessions, changes := db'.changes } := by
  unfold OwnerCommit.insertSession at h
  split at h
  · cases h
  · split at h
    · cases h
    · split at h
      · simp only [Batch.ok_inj, true_and] at h
        rw [← h]
        exact ⟨⟨_, List.mem_append_right _ (List.mem_singleton_self _), rfl, rfl⟩, rfl⟩
      · cases h

theorem insertAuditEvent_ok (h : input.insertAuditEvent db = .ok (r, db')) :
    db' = { db with auditEvents := db'.auditEvents, changes := db'.changes } := by
  unfold OwnerCommit.insertAuditEvent at h
  split at h
  · cases h
  · simp only [Batch.ok_inj, true_and] at h
    rw [← h]

end

/-- The owner has its credential, which may have been there before. -/
theorem insertOwnerCredential_owner (db : AuthDb) (o : OwnerRow) (ho : o ∈ db.owners)
    (hid : o.id = 1) (db' : AuthDb) (r : Unit) (h : insertOwnerCredential db = .ok (r, db')) :
    (∃ c ∈ db'.credentials, c.credentialId = o.credentialId) ∧
      db' = { db with credentials := db'.credentials, changes := db'.changes } := by
  simp only [insertOwnerCredential, Batch.ok_inj, true_and] at h
  rw [← h]
  refine ⟨?_, rfl⟩
  dsimp only
  cases hthere : db.credentials.any (fun c' => c'.credentialId = o.credentialId) with
  | true =>
      rcases List.any_eq_true.mp hthere with ⟨c, hc, hcid⟩
      exact ⟨c, List.mem_append_left _ hc, of_decide_eq_true hcid⟩
  | false =>
      refine ⟨ownerCredential o, List.mem_append_right _ (List.mem_filter.mpr ⟨?_, ?_⟩), rfl⟩
      · exact List.mem_map_of_mem (List.mem_filter.mpr ⟨ho, decide_eq_true hid⟩)
      · rw [ownerCredential, hthere]
        rfl

/-! ## A commit -/

section

variable (input : OwnerCommit) (db db' : AuthDb)

/-- What the statements of a commit end with, from where an owner is inserted. -/
theorem commit_rest (rs : List Unit)
    (howner : input.ownerRow ∈ db.owners)
    (h : run [insertOwnerCredential, input.insertSession, input.insertAuditEvent] db =
      .ok (rs, db')) :
    (∃ c ∈ db'.credentials, c.credentialId = input.owner.credentialId) ∧
      (∃ s ∈ db'.sessions, s.tokenHash = input.session.tokenHash ∧ s.ownerId = 1) ∧
      db'.owners = db.owners ∧ db'.invitations = db.invitations ∧
      db'.claimChallenges = db.claimChallenges := by
  rcases run_cons_ok.mp h with ⟨r₁, rs₁, t₁, h₁, hrest₁, -⟩
  rcases run_cons_ok.mp hrest₁ with ⟨r₂, rs₂, t₂, h₂, hrest₂, -⟩
  rcases run_cons_ok.mp hrest₂ with ⟨r₃, rs₃, t₃, h₃, hrest₃, -⟩
  simp only [run_nil, Batch.ok_inj] at hrest₃
  rcases hrest₃ with ⟨-, rfl⟩
  rcases insertOwnerCredential_owner db input.ownerRow howner rfl t₁ r₁ h₁ with ⟨hcred, ht₁⟩
  rcases insertSession_ok input t₁ t₂ r₂ h₂ with ⟨hsession, ht₂⟩
  have ht₃ := insertAuditEvent_ok input t₂ t₃ r₃ h₃
  rw [ht₃]
  refine ⟨?_, hsession, ?_, ?_, ?_⟩
  · rw [ht₂]; exact hcred
  · rw [ht₂, ht₁]
  · rw [ht₂, ht₁]
  · rw [ht₂, ht₁]

/-- A commit that requires an invitation, up to where the owner is inserted. -/
theorem commit_required (rs : List Unit)
    (h : run [input.insertOwner, assertOwnerInserted, input.consumeInvitation,
      input.claimConfiguration] db = .ok (rs, db')) :
    input.admitted db = true ∧ (∀ o ∈ db.owners, o.id ≠ 1) ∧
      db'.owners = db.owners ++ [input.ownerRow] ∧
      db'.invitations = Table.update (input.consumes db)
        (fun i => { i with consumedAt := some input.now }) db.invitations ∧
      (∀ c, db.configuration = some c → c.claimedAt = none →
        (db.invitations.filter (input.consumes db)).length = 1) := by
  rcases run_cons_ok.mp h with ⟨r₁, rs₁, t₁, h₁, hrest₁, -⟩
  rcases run_cons_ok.mp hrest₁ with ⟨r₂, rs₂, t₂, h₂, hrest₂, -⟩
  rcases run_cons_ok.mp hrest₂ with ⟨r₃, rs₃, t₃, h₃, hrest₃, -⟩
  rcases run_cons_ok.mp hrest₃ with ⟨r₄, rs₄, t₄, h₄, hrest₄, -⟩
  simp only [run_nil, Batch.ok_inj] at hrest₄
  rcases hrest₄ with ⟨-, rfl⟩
  rcases assertOwnerInserted_ok t₁ t₂ r₂ h₂ with ⟨hone, ht₂⟩
  rcases insertOwner_ok input db t₁ r₁ h₁ with ⟨_, ht₁⟩ | ⟨hadm, hfree, ht₁⟩
  · -- Where no owner was inserted the assertion fails.
    rw [ht₁] at hone
    cases hone
  have ht₃ := consumeInvitation_ok input t₂ t₃ r₃ h₃
  rcases claimConfiguration_ok input t₃ t₄ r₄ h₄ with ⟨hchanged, configuration, ht₄⟩
  -- Neither of the first two statements touches what the third reads.
  have hsame : input.consumes t₂ = input.consumes db := by
    rw [ht₂, ht₁]
    rfl
  rw [hsame, ht₂, ht₁] at ht₃
  refine ⟨hadm, hfree, ?_, ?_, ?_⟩
  · rw [ht₄, ht₃]
  · rw [ht₄, ht₃]
  · intro c hc hnone
    have hcount := hchanged c (by rw [ht₃]; exact hc) hnone
    rw [ht₃] at hcount
    exact hcount

/-- A function that sends a batch goes through where the batch does. -/
theorem sent_ok (qs : List AuthStatement) (db db' : AuthDb) (r : Unit)
    (h : (run qs db).map (fun r => ((), r.2)) = .ok (r, db')) :
    ∃ rs, run qs db = .ok (rs, db') := by
  cases hrun : run qs db with
  | error e => simp only [hrun, Except.map, reduceCtorEq] at h
  | ok rt =>
      simp only [hrun, Except.map, Batch.ok_inj, true_and] at h
      exact ⟨rt.1, by rw [← h]⟩

/-- A commit that goes through leaves an owner where there was none, with its
    credential and its session. -/
theorem commit_claimed (r : Unit)
    (h : commitFirstOwner input db = .ok (r, db')) : Claimed input db db' := by
  rcases sent_ok input.statements db db' r h with ⟨rs, hrun⟩
  rcases run_append_ok hrun with ⟨t, rs₁, rs₂, hfirst, hrest, -⟩
  have hinserted : input.admitted db = true ∧ (∀ o ∈ db.owners, o.id ≠ 1) ∧
      t.owners = db.owners ++ [input.ownerRow] := by
    cases hreq : input.requireManagedInvitation with
    | true =>
        rw [hreq, if_pos rfl] at hfirst
        have hall := commit_required input db t rs₁ hfirst
        exact ⟨hall.1, hall.2.1, hall.2.2.1⟩
    | false =>
        rw [hreq, if_neg Bool.false_ne_true, List.append_nil] at hfirst
        rcases run_cons_ok.mp hfirst with ⟨r₁, rs₃, t₁, h₁, hnil, -⟩
        simp only [run_nil, Batch.ok_inj] at hnil
        rcases hnil with ⟨-, rfl⟩
        rcases insertOwner_ok input db t₁ r₁ h₁ with ⟨hnot, _⟩ | ⟨hadm, hfree, ht₁⟩
        · simp only [OwnerCommit.admitted, hreq, Bool.not_false, Bool.true_or,
            Bool.true_eq_false] at hnot
        · exact ⟨hadm, hfree, by rw [ht₁]⟩
  rcases hinserted with ⟨hadm, hfree, howners⟩
  have hmem : input.ownerRow ∈ t.owners := by
    rw [howners]
    exact List.mem_append_right _ (List.mem_singleton_self _)
  rcases commit_rest input t db' rs₂ hmem hrest with ⟨hcred, hsession, hkept, _, _⟩
  exact ⟨hfree, hkept.trans howners, hcred, hsession, hadm⟩

/-- What a user finds bound is what there is for it. -/
theorem boundTokenHash_of_mem (db : AuthDb) (hk : Keyed db)
    (b : OwnerClaimChallengeRow) (hb : b ∈ db.claimChallenges)
    (huser : b.webauthnUserId = input.owner.webauthnUserId) (hexp : input.now < b.expiresAt) :
    input.boundTokenHash db = some b.invitationTokenHash := by
  have hfind := Table.find?_of_unique
    (fun b => b.webauthnUserId = input.owner.webauthnUserId && input.now < b.expiresAt)
    db.claimChallenges b hb (by simp only [huser, hexp, decide_true, Bool.and_self])
    (fun t ht hp => ?_)
  · rw [OwnerCommit.boundTokenHash, hfind]
    rfl
  · rw [Bool.and_eq_true, decide_eq_true_eq, decide_eq_true_eq] at hp
    exact List.inj_on_of_nodup_map hk.users ht hb (hp.1.trans huser.symm)

/-- A commit that requires an invitation, where the deployment is configured, uses
    up one that its user was bound to. -/
theorem commit_invited (r : Unit) (hk : Keyed db)
    (hreq : input.requireManagedInvitation = true) (hconf : db.configuration.isSome = true)
    (h : commitFirstOwner input db = .ok (r, db')) : Invited input db db' := by
  rcases sent_ok input.statements db db' r h with ⟨rs, hrun⟩
  rcases run_append_ok hrun with ⟨t, rs₁, rs₂, hfirst, hrest, -⟩
  rw [hreq, if_pos rfl] at hfirst
  rcases commit_required input db t rs₁ hfirst with ⟨hadm, _, howners, hinv, _⟩
  have hmem : input.ownerRow ∈ t.owners := by
    rw [howners]
    exact List.mem_append_right _ (List.mem_singleton_self _)
  rcases commit_rest input t db' rs₂ hmem hrest with ⟨_, _, _, hkept, _⟩
  rcases Option.isSome_iff_exists.mp hconf with ⟨c, hc⟩
  -- The guard of the insertion has found the binding and the invitation.
  simp only [OwnerCommit.admitted, hreq, Bool.not_true, Bool.false_or, hc,
    Bool.and_eq_true] at hadm
  rcases List.any_eq_true.mp hadm.2 with ⟨b, hb, hbound⟩
  simp only [Bool.and_eq_true, decide_eq_true_eq] at hbound
  rcases hbound with ⟨⟨⟨huser, hhost⟩, hexp⟩, hany⟩
  rcases List.any_eq_true.mp hany with ⟨i, hi, hopen⟩
  simp only [Bool.and_eq_true, decide_eq_true_eq, Option.isNone_iff_eq_none] at hopen
  rcases hopen with ⟨⟨⟨htoken, hihost⟩, hunused⟩, hiexp⟩
  -- It is the one that the later statement finds by the user alone.
  have hcons : input.consumes db i = true := by
    simp only [OwnerCommit.consumes, boundTokenHash_of_mem input db hk b hb huser hexp, htoken,
      hconf, hunused, hiexp, decide_true, Option.isNone_none, Bool.and_self]
  have hused : { i with consumedAt := some input.now } ∈ db'.invitations := by
    have hstays := Table.update_mem (input.consumes db)
      (fun i => { i with consumedAt := some input.now }) db.invitations i hi
    rw [if_pos hcons] at hstays
    rw [hkept, hinv]
    exact hstays
  refine ⟨c, b, i, hc, hb, hi, huser, htoken.symm, hhost, hihost, hexp, hunused, hiexp, hused, ?_⟩
  intro i' hi' hsame
  rw [hkept, hinv] at hi'
  rcases Table.mem_update _ _ _ _ hi' with ⟨i₀, hi₀, ⟨_, rfl⟩ | ⟨hnot, rfl⟩⟩
  · rfl
  · have heq : i' = i := List.inj_on_of_nodup_map hk.tokens hi₀ hi hsame
    rw [heq, hcons] at hnot
    cases hnot

end

/-! ## One request -/

theorem Keyed.same {db db' : AuthDb} (hk : Keyed db)
    (hc : db'.claimChallenges = db.claimChallenges) (hi : db'.invitations = db.invitations) :
    Keyed db' :=
  ⟨by rw [hc]; exact hk.users, by rw [hi]; exact hk.tokens⟩

/-- What the statements that create a challenge leave alone. -/
def KeptBut (owners : List OwnerRow) (t : AuthDb) : Prop :=
  Keyed t ∧ t.owners = owners

theorem KeptBut.fewer {owners : List OwnerRow} {t t' : AuthDb} (h : KeptBut owners t)
    (howners : t'.owners = t.owners) (hinv : t'.invitations = t.invitations)
    (hsub : t'.claimChallenges.Sublist t.claimChallenges) : KeptBut owners t' := by
  refine ⟨⟨h.1.users.sublist (hsub.map _), ?_⟩, howners.trans h.2⟩
  rw [hinv]
  exact h.1.tokens

theorem challenge_keeps (input : CreateChallengeInput) (owners : List OwnerRow) :
    ∀ q ∈ [deleteSpentChallenges input.now, deleteExpiredSessions input.now,
      deleteOldRateLimits input.now, input.insertChallenge], ∀ s r t, q s = .ok (r, t) →
      KeptBut owners s → KeptBut owners t := by
  intro q hq s r t h hs
  simp only [List.mem_cons, List.not_mem_nil, or_false] at hq
  rcases hq with rfl | rfl | rfl | rfl
  · simp only [deleteSpentChallenges, Batch.ok_inj] at h
    rw [← h.2]
    exact hs.fewer rfl rfl List.filter_sublist
  · simp only [deleteExpiredSessions, Batch.ok_inj] at h
    rw [← h.2]
    exact hs.fewer rfl rfl (List.Sublist.refl _)
  · simp only [deleteOldRateLimits, Batch.ok_inj] at h
    rw [← h.2]
    exact hs.fewer rfl rfl (List.Sublist.refl _)
  · unfold CreateChallengeInput.insertChallenge at h
    split at h
    · cases h
    · simp only [Batch.ok_inj] at h
      rw [← h.2]
      exact hs.fewer rfl rfl (List.Sublist.refl _)

theorem binding_keeps (row : OwnerClaimChallengeRow) (now : Nat) (owners : List OwnerRow) :
    ∀ q ∈ [deleteExpiredClaimChallenges now, insertClaimChallenge row], ∀ s r t, q s = .ok (r, t) →
      KeptBut owners s → KeptBut owners t := by
  intro q hq s r t h hs
  simp only [List.mem_cons, List.not_mem_nil, or_false] at hq
  rcases hq with rfl | rfl
  · simp only [deleteExpiredClaimChallenges, Batch.ok_inj] at h
    rw [← h.2]
    exact hs.fewer rfl rfl List.filter_sublist
  · unfold insertClaimChallenge at h
    split at h
    · cases h
    · next hfree =>
      split at h
      · cases h
      · split at h
        · simp only [Batch.ok_inj] at h
          rw [← h.2]
          refine ⟨⟨Table.map_concat_nodup _ _ _ hs.1.users (fun b hb heq => hfree ?_),
            hs.1.tokens⟩, hs.2⟩
          refine List.any_eq_true.mpr ⟨b, hb, ?_⟩
          simp only [heq, decide_true, Bool.or_true]
        · cases h

theorem createChallenge_kept (input : CreateChallengeInput) (db db' : AuthDb) (r : Unit)
    (hk : Keyed db) (h : createChallenge input db = .ok (r, db')) : KeptBut db.owners db' := by
  unfold createChallenge at h
  have hbase := challenge_keeps input db.owners
  dsimp only at h
  split at h
  · rcases sent_ok _ db db' r h with ⟨rs, hrun⟩
    exact run_keeps (KeptBut db.owners) _ hbase db db' rs hrun ⟨hk, rfl⟩
  · split at h
    · cases h
    · split at h
      · rcases sent_ok _ db db' r h with ⟨rs, hrun⟩
        refine run_keeps (KeptBut db.owners) _ (fun q hq => ?_) db db' rs hrun ⟨hk, rfl⟩
        rcases List.mem_append.mp hq with hold | hnew
        · exact hbase q hold
        · exact binding_keeps _ input.now db.owners q hnew
      · cases h

theorem install_kept (input : OwnerInvitationInput) (db db' : AuthDb) (r : Unit) (hk : Keyed db)
    (h : installManagedOwnerInvitation input db = .ok (r, db')) : KeptBut db.owners db' := by
  unfold installManagedOwnerInvitation at h
  split at h
  · rcases sent_ok _ db db' r h with ⟨rs, hrun⟩
    refine run_keeps (KeptBut db.owners) _ (fun q hq s r' t hq' hs => ?_) db db' rs hrun ⟨hk, rfl⟩
    simp only [List.mem_cons, List.not_mem_nil, or_false] at hq
    rcases hq with rfl | rfl
    · unfold OwnerInvitationInput.insertConfiguration at hq'
      split at hq'
      · simp only [Batch.ok_inj] at hq'
        rw [← hq'.2]
        exact hs.fewer rfl rfl (List.Sublist.refl _)
      · simp only [Batch.ok_inj] at hq'
        rw [← hq'.2]
        exact hs.fewer rfl rfl (List.Sublist.refl _)
    · unfold OwnerInvitationInput.insertInvitation at hq'
      split at hq'
      · cases hq'
      · next hfree =>
        split at hq'
        · simp only [Batch.ok_inj] at hq'
          rw [← hq'.2]
          refine ⟨⟨hs.1.users,
            Table.map_concat_nodup _ _ _ hs.1.tokens (fun i hi heq => hfree ?_)⟩, hs.2⟩
          refine List.any_eq_true.mpr ⟨i, hi, ?_⟩
          simp only [heq, decide_true, Bool.true_or]
        · cases hq'
  · cases h

/-- The bindings stay, and an invitation stays the invitation it is. -/
theorem commit_keyed (input : OwnerCommit) (db db' : AuthDb) (r : Unit) (hk : Keyed db)
    (h : commitFirstOwner input db = .ok (r, db')) : Keyed db' := by
  rcases sent_ok input.statements db db' r h with ⟨rs, hrun⟩
  refine run_keeps Keyed input.statements (fun q hq s r' t hq' hs => ?_) db db' rs hrun hk
  rcases List.mem_append.mp hq with hfirst | hrest
  · rcases List.mem_append.mp hfirst with hown | hreq
    · rw [List.mem_singleton] at hown
      subst hown
      rcases insertOwner_ok input s t r' hq' with ⟨_, rfl⟩ | ⟨_, _, rfl⟩ <;>
        exact hs.same rfl rfl
    · split at hreq
      · simp only [List.mem_cons, List.not_mem_nil, or_false] at hreq
        rcases hreq with rfl | rfl | rfl
        · rw [(assertOwnerInserted_ok s t r' hq').2]
          exact hs.same rfl rfl
        · have hmap := Table.map_update OwnerClaimInvitationRow.tokenHash (input.consumes s)
            (fun i => { i with consumedAt := some input.now }) (fun _ => rfl) s.invitations
          rw [consumeInvitation_ok input s t r' hq']
          exact ⟨hs.users, hmap.symm ▸ hs.tokens⟩
        · rcases claimConfiguration_ok input s t r' hq' with ⟨_, configuration, ht⟩
          rw [ht]
          exact hs.same rfl rfl
      · cases hreq
  · simp only [List.mem_cons, List.not_mem_nil, or_false] at hrest
    rcases hrest with rfl | rfl | rfl
    · simp only [insertOwnerCredential, Batch.ok_inj] at hq'
      rw [← hq'.2]
      exact hs.same rfl rfl
    · rw [(insertSession_ok input s t r' hq').2]
      exact hs.same rfl rfl
    · rw [insertAuditEvent_ok input s t r' hq']
      exact hs.same rfl rfl

/-- What a request by itself does to the owners: nothing, unless it commits the
    first. -/
theorem effect_owners (op : AuthOp) (db db' : AuthDb) (r : Option ChallengeRecord)
    (hk : Keyed db) (h : effect op db = .ok (r, db')) :
    Keyed db' ∧ (db'.owners = db.owners ∨
      ∃ input, op = .commitFirstOwner input ∧ Claimed input db db' ∧
        commitFirstOwner input db = .ok ((), db')) := by
  cases op with
  | createChallenge input =>
      cases hr : createChallenge input db with
      | error e => simp only [effect, hr, Except.map, reduceCtorEq] at h
      | ok rt =>
          simp only [effect, hr, Except.map, Batch.ok_inj] at h
          rw [← h.2]
          have hkept := createChallenge_kept input db rt.2 rt.1 hk hr
          exact ⟨hkept.1, Or.inl hkept.2⟩
  | consumeChallenge flowHash ceremony now =>
      simp only [effect, consumeChallenge, Batch.ok_inj] at h
      rw [← h.2]
      exact ⟨hk.same rfl rfl, Or.inl rfl⟩
  | installManagedOwnerInvitation input =>
      cases hr : installManagedOwnerInvitation input db with
      | error e => simp only [effect, hr, Except.map, reduceCtorEq] at h
      | ok rt =>
          simp only [effect, hr, Except.map, Batch.ok_inj] at h
          rw [← h.2]
          have hkept := install_kept input db rt.2 rt.1 hk hr
          exact ⟨hkept.1, Or.inl hkept.2⟩
  | commitFirstOwner input =>
      cases hr : commitFirstOwner input db with
      | error e => simp only [effect, hr, Except.map, reduceCtorEq] at h
      | ok rt =>
          simp only [effect, hr, Except.map, Batch.ok_inj] at h
          rw [← h.2]
          exact ⟨commit_keyed input db rt.2 rt.1 hk hr,
            Or.inr ⟨input, rfl, commit_claimed input db rt.2 rt.1 hr, hr⟩⟩

/-! ## Runs -/

/-- What is asked of one request: an owner is committed by a commit, as a whole or
    not at all, and where an invitation is required by one that has used it up. -/
structure ClaimedProperly (db : AuthDb) (e : AuthOp × Outcome) : Prop where
  committed : (step db e).owners ≠ db.owners →
    ∃ input, e.1 = .commitFirstOwner input ∧ Claimed input db (step db e)
  whole : ∀ input, e.1 = .commitFirstOwner input →
    step db e = db ∨ Claimed input db (step db e)
  failed : ∀ input err, e.1 = .commitFirstOwner input → (exec e db).1 = .error err →
    e.2 ≠ .lost → step db e = db
  invited : ∀ input, e.1 = .commitFirstOwner input → input.requireManagedInvitation = true →
    (step db e).owners ≠ db.owners → Invited input db (step db e)

/-- What is asked of a run: there is one owner at most, for good, and every
    request does as it should. -/
def OwnedProperly (es : List (AuthOp × Outcome)) : Prop :=
  ∀ pre, pre <+: es → (Run.runFrom step emptyDb pre).owners.length ≤ 1 ∧
    (Run.runFrom step emptyDb pre).owners <+: (Run.runFrom step emptyDb es).owners ∧
    ∀ e, pre ++ [e] <+: es → ClaimedProperly (Run.runFrom step emptyDb pre) e

/-- A commit that requires an invitation finds the deployment configured. -/
def configured (db : AuthDb) (e : AuthOp × Outcome) : Bool :=
  match e.1 with
  | .commitFirstOwner input => !input.requireManagedInvitation || db.configuration.isSome
  | _ => true

/-- The tables of a deployment that has one owner at most. -/
structure Sole (db : AuthDb) : Prop where
  keyed : Keyed db
  ids : ∀ o ∈ db.owners, o.id = 1
  sole : db.owners.length ≤ 1

theorem Sole.empty : Sole emptyDb :=
  ⟨⟨List.nodup_nil, List.nodup_nil⟩, nofun, Nat.zero_le 1⟩

/-- A commit that goes through is the first. -/
theorem Claimed.first {input : OwnerCommit} {db db' : AuthDb} (hs : Sole db)
    (h : Claimed input db db') : db.owners = [] ∧ db'.owners = [input.ownerRow] := by
  have hnone : db.owners = [] :=
    List.eq_nil_iff_forall_not_mem.mpr (fun o ho => h.unowned o ho (hs.ids o ho))
  exact ⟨hnone, by rw [h.owners, hnone, List.nil_append]⟩

theorem step_sole (db : AuthDb) (e : AuthOp × Outcome) (hs : Sole db) :
    Sole (step db e) ∧ db.owners <+: (step db e).owners := by
  rcases send_cases .unavailable e.2 (effect e.1) db with hsame | ⟨r, hok, -⟩
  · have hstep : step db e = db := hsame
    rw [hstep]
    exact ⟨hs, List.prefix_refl _⟩
  · have hkeyed := effect_owners e.1 db (step db e) r hs.keyed hok
    rcases hkeyed with ⟨hk, hsame | ⟨input, -, hclaimed, -⟩⟩
    · refine ⟨⟨hk, ?_, ?_⟩, ?_⟩
      · rw [hsame]; exact hs.ids
      · rw [hsame]; exact hs.sole
      · rw [hsame]
    · rcases hclaimed.first hs with ⟨hnone, hone⟩
      rw [hone, hnone]
      refine ⟨⟨hk, ?_, ?_⟩, List.nil_prefix⟩
      · rw [hone]
        intro o ho
        rw [List.mem_singleton.mp ho]
        rfl
      · rw [hone]
        exact Nat.le_refl 1

theorem step_claimed (db : AuthDb) (e : AuthOp × Outcome) (hs : Sole db)
    (hconf : configured db e = true) : ClaimedProperly db e := by
  have hcases := send_cases .unavailable e.2 (effect e.1) db
  refine ⟨?_, ?_, ?_, ?_⟩
  · intro hne
    rcases hcases with hsame | ⟨r, hok, -⟩
    · exact absurd (congrArg AuthDb.owners hsame) hne
    · rcases (effect_owners e.1 db (step db e) r hs.keyed hok).2 with hsame | ⟨input, hop, hc, _⟩
      · exact absurd hsame hne
      · exact ⟨input, hop, hc⟩
  · intro input hop
    rcases hcases with hsame | ⟨r, hok, -⟩
    · exact Or.inl hsame
    · rcases e with ⟨op, w⟩
      cases hop
      cases hr : commitFirstOwner input db with
      | error err => simp only [effect, hr, Except.map, reduceCtorEq] at hok
      | ok rt =>
          simp only [effect, hr, Except.map, Batch.ok_inj] at hok
          have hstep : rt.2 = step db (.commitFirstOwner input, w) := hok.2
          rw [← hstep]
          exact Or.inr (commit_claimed input db rt.2 rt.1 hr)
  · intro input err hop herr hlost
    -- Only a request whose answer is lost throws although it took effect.
    rcases e with ⟨op, w⟩
    cases w with
    | refused => rfl
    | lost => exact absurd rfl hlost
    | answered =>
        cases hr : effect op db with
        | error err' => simp only [step, exec, send, hr]
        | ok rt => simp only [exec, send, hr, reduceCtorEq] at herr
  · intro input hop hreq hne
    rcases hcases with hsame | ⟨r, hok, -⟩
    · exact absurd (congrArg AuthDb.owners hsame) hne
    · rcases (effect_owners e.1 db (step db e) r hs.keyed hok).2 with hsame | ⟨input', hop', _, hc⟩
      · exact absurd hsame hne
      · have hinput : input' = input := AuthOp.commitFirstOwner.inj (hop'.symm.trans hop)
        subst hinput
        simp only [configured, hop, hreq, Bool.not_true, Bool.false_or] at hconf
        exact commit_invited input' db (step db e) () hs.keyed hreq hconf hc

/-- A run keeps the owner it has. -/
theorem run_sole (db : AuthDb) (es : List (AuthOp × Outcome)) (hs : Sole db) :
    Sole (Run.runFrom step db es) ∧ db.owners <+: (Run.runFrom step db es).owners := by
  induction es generalizing db with
  | nil => exact ⟨hs, List.prefix_refl _⟩
  | cons e es ih =>
      have hstep := step_sole db e hs
      have hrest := ih (step db e) hstep.1
      exact ⟨hrest.1, hstep.2.trans hrest.2⟩

/-- Along every run whose commits that require an invitation find the deployment
    configured, there is one owner at most, it came by an invitation to the
    configured hostname that is used up with it, and a commit that fails leaves
    nothing. -/
theorem first_owner_invited (es : List (AuthOp × Outcome))
    (h : Run.Along (fun db e => configured db e = true) step emptyDb es) : OwnedProperly es := by
  rintro pre ⟨rest, rfl⟩
  have hpre := run_sole emptyDb pre Sole.empty
  refine ⟨hpre.1.sole, ?_, ?_⟩
  · rw [Run.runFrom_append]
    exact (run_sole _ rest hpre.1).2
  · intro e he
    have hhead : ∃ rest', rest = e :: rest' := by
      rcases he with ⟨rest', heq⟩
      rw [List.append_assoc, List.append_cancel_left_eq] at heq
      exact ⟨rest', heq.symm⟩
    rcases hhead with ⟨rest', rfl⟩
    have hcond := ((Run.along_append _ step emptyDb pre (e :: rest')).mp h).2.1
    exact step_claimed _ e hpre.1 hcond

/-! ## Two runs -/

/-- A registration, for an invitation where there is one. -/
def registration (claim : Option OwnerClaim) : CreateChallengeInput :=
  { ceremony := .registration
    challenge := "c"
    expectedOrigin := "https://w.example.com"
    expectedRpId := "w.example.com"
    flowHash := "f"
    now := 10
    ownerClaim := claim
    webauthnUserId := some "u" }

def invitationHash : String :=
  "0123456789abcdef0123456789abcdef0123456789abcdef0123456789abcdef"

def invitation : OwnerInvitationInput :=
  { configuredAt := 5
    expectedHostname := "w.example.com"
    expiresAt := 1000
    invitationRef := "inv_00000000000000000001"
    tokenHash := invitationHash
    trialDays := 30 }

def managedCommit : OwnerCommit :=
  { owner := {
      backedUp := true
      counter := 0
      credentialId := "k"
      deviceType := .multiDevice
      publicKey := [1]
      transports := ["internal"]
      webauthnUserId := "u" }
    session := {
      csrfHash := "h"
      csrfToken := "x"
      expiresAt := 604820
      maxAgeSeconds := 604800
      token := "t"
      tokenHash := "s" }
    requestId := "r"
    auditId := "a"
    now := 20
    requireManagedInvitation := true }

/-- An owner that was invited. -/
def invitedRun : List (AuthOp × Outcome) :=
  [(.installManagedOwnerInvitation invitation, .answered),
    (.createChallenge (registration (some {
      expectedHostname := "w.example.com", invitationTokenHash := invitationHash })), .answered),
    (.consumeChallenge "f" .registration 15, .answered),
    (.commitFirstOwner managedCommit, .answered)]

/-- The same without an invitation, by a flow that was begun when none was
    asked for. -/
def uninvitedRun : List (AuthOp × Outcome) :=
  [(.createChallenge (registration none), .answered),
    (.consumeChallenge "f" .registration 15, .answered),
    (.commitFirstOwner managedCommit, .answered)]

theorem invited_run_owned :
    (Run.runFrom step emptyDb invitedRun).owners.length = 1 ∧ OwnedProperly invitedRun :=
  ⟨by decide +kernel, first_owner_invited invitedRun (by decide +kernel)⟩

/-- A commit that requires an invitation goes through where none was ever
    installed. -/
theorem owner_without_invitation : ¬ OwnedProperly uninvitedRun := by
  intro h
  have hpre := h (uninvitedRun.take 2) (List.take_prefix 2 _)
  have hlast := hpre.2.2 (.commitFirstOwner managedCommit, .answered) (List.prefix_refl _)
  have hne : (step (Run.runFrom step emptyDb (uninvitedRun.take 2))
      (.commitFirstOwner managedCommit, .answered)).owners ≠
      (Run.runFrom step emptyDb (uninvitedRun.take 2)).owners := by decide +kernel
  have hnone : (Run.runFrom step emptyDb (uninvitedRun.take 2)).configuration = none := by
    decide +kernel
  rcases hlast.invited managedCommit rfl rfl hne with ⟨c, _, _, hc, -⟩
  rw [hnone] at hc
  cases hc

end Mdevolved.Auth
