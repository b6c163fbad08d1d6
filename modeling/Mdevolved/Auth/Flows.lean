import Mdevolved.Auth.OwnerClaim

/-!
# Flows That Claim a Deployment

A flow asks for its invitation, creates a challenge, uses it up and commits, and
any number of others ask for what they like in between. Creating a challenge
clears away those that have expired or been used, and what was bound to them
goes with them. A challenge that was used is one whose flow has yet to commit,
and its commit needs the binding. So whoever creates a challenge then makes the
commit fail, and nobody else does.

What holds of a binding is carried by `Pending` up to the consumption, since a
challenge that is still there has neither expired nor been used. From there on
only the absence of new challenges keeps it.

## Main definitions

* `Created`, `Undisturbed`, `CommitKeeps`, `Installed`: What requests do to
  challenges, bindings and invitations.
* `Grounded`: What holds of the tables of every run.
* `clears`: A request that clears used challenges away.
* `Ready`: What a commit needs.
* `OwnerFlow`, `Around`: A flow, and what is asked around its requests.

## Theorems

* `createChallenge_created`: What creating a challenge does.
* `commitFirstOwner_goes`: A commit that is ready goes through.
* `hostname_settled`: A hostname is configured once and for all.
* `run_pending`: A challenge that is still there is bound.
* `invited_flow_commits`: When a flow is committed.
* `invitedFlow_disturbed`: A flow that another browser makes fail.
-/

namespace Mdevolved.Auth

open Batch

/-! ## What a request does to challenges and bindings -/

/-- A challenge that a new one does not clear away. -/
def AuthChallengeRow.standing (now : Nat) (c : AuthChallengeRow) : Bool :=
  !(c.expiresAt ≤ now || c.usedAt.isSome)

def CreateChallengeInput.row (input : CreateChallengeInput) : AuthChallengeRow :=
  { flowHash := input.flowHash
    ceremony := input.ceremony
    challenge := input.challenge
    webauthnUserId := input.webauthnUserId
    expectedOrigin := input.expectedOrigin
    expectedRpId := input.expectedRpId
    createdAt := input.now
    expiresAt := input.expiresAt
    usedAt := none }

/-- What a challenge is bound to when it is created for an invitation. -/
def CreateChallengeInput.binding (input : CreateChallengeInput) : Option OwnerClaimChallengeRow :=
  match input.ownerClaim, input.webauthnUserId with
  | some claim, some webauthnUserId => some {
      flowHash := input.flowHash
      webauthnUserId := webauthnUserId
      invitationTokenHash := claim.invitationTokenHash
      expectedHostname := claim.expectedHostname
      expiresAt := input.expiresAt }
  | _, _ => none

/-- The challenges that are left when a new one is created. -/
def standing (now : Nat) (db : AuthDb) : List AuthChallengeRow :=
  db.challenges.filter (AuthChallengeRow.standing now)

/-- A challenge was created: those that were used or have expired are gone with what
    was bound to them, and it is there with what it is bound to. -/
structure Created (input : CreateChallengeInput) (db db' : AuthDb) : Prop where
  challenges : db'.challenges = standing input.now db ++ [input.row]
  flow : ∀ c ∈ standing input.now db, c.flowHash ≠ input.flowHash
  bindings : ∀ b ∈ db'.claimChallenges, input.binding = some b ∨
    (b ∈ db.claimChallenges ∧ ∃ c ∈ standing input.now db, c.flowHash = b.flowHash)
  kept : ∀ b ∈ db.claimChallenges, input.now < b.expiresAt →
    (∃ c ∈ standing input.now db, c.flowHash = b.flowHash) → b ∈ db'.claimChallenges
  bound : ∀ b, input.binding = some b → b ∈ db'.claimChallenges
  owners : db'.owners = db.owners
  configuration : db'.configuration = db.configuration
  invitations : db'.invitations = db.invitations

section

variable (input : CreateChallengeInput)

/-- The first four statements of a batch that creates a challenge. -/
theorem createChallenge_rows (db t : AuthDb) (rs : List Unit)
    (h : run [deleteSpentChallenges input.now, deleteExpiredSessions input.now,
      deleteOldRateLimits input.now, input.insertChallenge] db = .ok (rs, t)) :
    t.challenges = standing input.now db ++ [input.row] ∧
      (∀ c ∈ standing input.now db, c.flowHash ≠ input.flowHash) ∧
      t.claimChallenges = db.claimChallenges.filter (fun b =>
        (standing input.now db).any (fun c => c.flowHash = b.flowHash)) ∧
      t.owners = db.owners ∧ t.configuration = db.configuration ∧
      t.invitations = db.invitations := by
  rcases run_cons_ok.mp h with ⟨_, _, t₁, h₁, hrest₁, -⟩
  rcases run_cons_ok.mp hrest₁ with ⟨_, _, t₂, h₂, hrest₂, -⟩
  rcases run_cons_ok.mp hrest₂ with ⟨_, _, t₃, h₃, hrest₃, -⟩
  rcases run_cons_ok.mp hrest₃ with ⟨_, _, t₄, h₄, hrest₄, -⟩
  simp only [deleteSpentChallenges, Batch.ok_inj, true_and] at h₁
  simp only [deleteExpiredSessions, Batch.ok_inj, true_and] at h₂
  simp only [deleteOldRateLimits, Batch.ok_inj, true_and] at h₃
  rw [run_nil, Batch.ok_inj] at hrest₄
  unfold CreateChallengeInput.insertChallenge at h₄
  split at h₄
  · cases h₄
  · next hfree =>
    simp only [Batch.ok_inj, true_and] at h₄
    rw [← hrest₄.2, ← h₄]
    rw [← h₃, ← h₂, ← h₁] at hfree ⊢
    refine ⟨rfl, fun c hc heq => hfree ?_, rfl, rfl, rfl, rfl⟩
    exact List.any_eq_true.mpr ⟨c, hc, decide_eq_true heq⟩

theorem createChallenge_created (db db' : AuthDb) (r : Unit)
    (h : createChallenge input db = .ok (r, db')) : Created input db db' := by
  unfold createChallenge at h
  dsimp only at h
  split at h
  · next hclaim =>
    rcases sent_ok _ db db' r h with ⟨rs, hrun⟩
    rcases createChallenge_rows input db db' rs hrun with ⟨hrows, hflow, hbindings, hrest⟩
    have hnone : input.binding = none := by rw [CreateChallengeInput.binding, hclaim]
    refine ⟨hrows, hflow, fun b hb => Or.inr ?_, fun b hb _ hof => ?_, fun b hb => ?_, hrest.1,
      hrest.2.1, hrest.2.2⟩
    · rw [hbindings] at hb
      rcases List.mem_filter.mp hb with ⟨hmem, hany⟩
      rcases List.any_eq_true.mp hany with ⟨c, hc, heq⟩
      exact ⟨hmem, c, hc, of_decide_eq_true heq⟩
    · rw [hbindings]
      rcases hof with ⟨c, hc, heq⟩
      exact List.mem_filter.mpr ⟨hb, List.any_eq_true.mpr ⟨c, hc, decide_eq_true heq⟩⟩
    · rw [hnone] at hb
      cases hb
  · next claim hclaim =>
    split at h
    · cases h
    · next webauthnUserId huser =>
      split at h
      · rcases sent_ok _ db db' r h with ⟨rs, hrun⟩
        rcases run_append_ok hrun with ⟨t, rs₁, rs₂, hfirst, hsecond, -⟩
        rcases createChallenge_rows input db t rs₁ hfirst with
          ⟨hrows, hflow, hbindings, howners, hconfiguration, hinvitations⟩
        rcases run_cons_ok.mp hsecond with ⟨_, _, t₁, h₁, hrest₁, -⟩
        rcases run_cons_ok.mp hrest₁ with ⟨_, _, t₂, h₂, hrest₂, -⟩
        simp only [deleteExpiredClaimChallenges, Batch.ok_inj, true_and] at h₁
        rw [run_nil, Batch.ok_inj] at hrest₂
        have huser' : input.webauthnUserId = some webauthnUserId :=
          (Option.filter_eq_some_iff.mp huser).1
        have hbinding : input.binding = some {
            flowHash := input.flowHash
            webauthnUserId := webauthnUserId
            invitationTokenHash := claim.invitationTokenHash
            expectedHostname := claim.expectedHostname
            expiresAt := input.expiresAt } := by
          rw [CreateChallengeInput.binding, hclaim, huser']
        rw [← hrest₂.2]
        unfold insertClaimChallenge at h₂
        split at h₂
        · cases h₂
        · split at h₂
          · cases h₂
          · split at h₂
            · simp only [Batch.ok_inj, true_and] at h₂
              rw [← h₂, ← h₁]
              refine ⟨hrows, hflow, fun b hb => ?_, fun b hb hexp hof => ?_, fun b hb => ?_,
                howners, hconfiguration, hinvitations⟩
              · rcases List.mem_append.mp hb with hold | hnew
                · rw [hbindings] at hold
                  rcases List.mem_filter.mp (List.mem_filter.mp hold).1 with ⟨hmem, hany⟩
                  rcases List.any_eq_true.mp hany with ⟨c, hc, heq⟩
                  exact Or.inr ⟨hmem, c, hc, of_decide_eq_true heq⟩
                · rw [List.mem_singleton.mp hnew]
                  exact Or.inl hbinding
              · rcases hof with ⟨c, hc, heq⟩
                refine List.mem_append_left _ (List.mem_filter.mpr ⟨?_, ?_⟩)
                · rw [hbindings]
                  exact List.mem_filter.mpr ⟨hb, List.any_eq_true.mpr ⟨c, hc, decide_eq_true heq⟩⟩
                · rw [decide_eq_false (Nat.not_le.mpr hexp), Bool.not_false]
              · rw [hbinding, Option.some.injEq] at hb
                rw [← hb]
                exact List.mem_append_right _ (List.mem_singleton_self _)
            · cases h₂
      · cases h

/-- What a request leaves that creates no challenge: challenges may be used, and
    nothing is bound anew. -/
structure Undisturbed (db db' : AuthDb) : Prop where
  challenges : ∃ (q : AuthChallengeRow → Bool) (now : Nat), db'.challenges =
    Table.update q (fun c => { c with usedAt := some now }) db.challenges
  bindings : db'.claimChallenges = db.claimChallenges

def hostnames (db : AuthDb) : List String :=
  db.invitations.map OwnerClaimInvitationRow.expectedHostname

/-- The hostname a deployment is configured to. -/
def configuredHostname (db : AuthDb) : Option String :=
  db.configuration.map OwnerClaimConfigurationRow.expectedHostname

/-- What the statements of a commit leave alone. -/
structure CommitKeeps (db t : AuthDb) : Prop where
  challenges : t.challenges = db.challenges
  bindings : t.claimChallenges = db.claimChallenges
  invitations : hostnames t = hostnames db
  configuration : configuredHostname t = configuredHostname db

theorem CommitKeeps.same {db t t' : AuthDb} (h : CommitKeeps db t)
    (hchallenges : t'.challenges = t.challenges) (hbindings : t'.claimChallenges = t.claimChallenges)
    (hinvitations : hostnames t' = hostnames t)
    (hconfiguration : configuredHostname t' = configuredHostname t) : CommitKeeps db t' :=
  ⟨hchallenges.trans h.challenges, hbindings.trans h.bindings, hinvitations.trans h.invitations,
    hconfiguration.trans h.configuration⟩

theorem claimConfiguration_hostname (input : OwnerCommit) (db db' : AuthDb) (r : Unit)
    (h : input.claimConfiguration db = .ok (r, db')) :
    configuredHostname db' = configuredHostname db := by
  unfold OwnerCommit.claimConfiguration at h
  unfold configuredHostname
  cases hc : db.configuration with
  | none =>
      simp only [hc, Batch.ok_inj, true_and] at h
      rw [← h]
  | some c =>
      simp only [hc] at h
      split at h
      · simp only [Batch.ok_inj, true_and] at h
        rw [← h]
      · generalize (if db.changes = 1 then (input.now : Int) else -1) = claimedAt at h
        by_cases hlt : claimedAt < c.configuredAt
        · rw [if_pos hlt] at h
          cases h
        · rw [if_neg hlt, Batch.ok_inj] at h
          rw [← h.2]
          rfl

theorem commit_keeps (input : OwnerCommit) (db : AuthDb) :
    ∀ q ∈ input.statements, ∀ s r t, q s = .ok (r, t) → CommitKeeps db s → CommitKeeps db t := by
  intro q hq s r t h hs
  rcases List.mem_append.mp hq with hfirst | hrest
  · rcases List.mem_append.mp hfirst with hown | hreq
    · rw [List.mem_singleton] at hown
      rw [hown] at h
      rcases insertOwner_ok input s t r h with ⟨-, rfl⟩ | ⟨-, -, rfl⟩
      · exact hs.same rfl rfl rfl rfl
      · exact hs.same rfl rfl rfl rfl
    · split at hreq
      · simp only [List.mem_cons, List.not_mem_nil, or_false] at hreq
        rcases hreq with rfl | rfl | rfl
        · rw [(assertOwnerInserted_ok s t r h).2]
          exact hs.same rfl rfl rfl rfl
        · rw [consumeInvitation_ok input s t r h]
          refine hs.same rfl rfl (Table.map_update _ _ _ ?_ s.invitations) rfl
          exact fun _ => rfl
        · rcases claimConfiguration_ok input s t r h with ⟨-, configuration, ht⟩
          have hhost := claimConfiguration_hostname input s t r h
          rw [ht] at hhost ⊢
          exact hs.same rfl rfl rfl hhost
      · cases hreq
  · simp only [List.mem_cons, List.not_mem_nil, or_false] at hrest
    rcases hrest with rfl | rfl | rfl
    · simp only [insertOwnerCredential, Batch.ok_inj, true_and] at h
      rw [← h]
      exact hs.same rfl rfl rfl rfl
    · rw [(insertSession_ok input s t r h).2]
      exact hs.same rfl rfl rfl rfl
    · rw [insertAuditEvent_ok input s t r h]
      exact hs.same rfl rfl rfl rfl

theorem commitFirstOwner_keeps (input : OwnerCommit) (db db' : AuthDb) (r : Unit)
    (h : commitFirstOwner input db = .ok (r, db')) : CommitKeeps db db' := by
  rcases sent_ok input.statements db db' r h with ⟨rs, hrun⟩
  exact run_keeps (CommitKeeps db) input.statements (commit_keeps input db) db db' rs hrun
    ⟨rfl, rfl, rfl, rfl⟩

/-- An invitation is for the hostname that the deployment is configured to, and
    stays so. -/
structure Installed (db db' : AuthDb) : Prop where
  challenges : db'.challenges = db.challenges
  bindings : db'.claimChallenges = db.claimChallenges
  owners : db'.owners = db.owners
  configuration : ∀ c, db.configuration = some c → db'.configuration = some c
  unclaimed : db.configuration = none → ∀ c, db'.configuration = some c → c.claimedAt = none
  invitations : ∀ host ∈ hostnames db', host ∈ hostnames db ∨ configuredHostname db' = some host

theorem install_installed (input : OwnerInvitationInput) (db db' : AuthDb) (r : Unit)
    (h : installManagedOwnerInvitation input db = .ok (r, db')) : Installed db db' := by
  unfold installManagedOwnerInvitation at h
  split at h
  · rcases sent_ok _ db db' r h with ⟨rs, hrun⟩
    rcases run_cons_ok.mp hrun with ⟨_, _, t₁, h₁, hrest₁, -⟩
    rcases run_cons_ok.mp hrest₁ with ⟨_, _, t₂, h₂, hrest₂, -⟩
    rw [run_nil, Batch.ok_inj] at hrest₂
    rw [← hrest₂.2]
    have hfirst : t₁.challenges = db.challenges ∧ t₁.claimChallenges = db.claimChallenges ∧
        t₁.owners = db.owners ∧ t₁.invitations = db.invitations ∧
        (∀ c, db.configuration = some c → t₁.configuration = some c) ∧
        (db.configuration = none → ∀ c, t₁.configuration = some c → c.claimedAt = none) := by
      unfold OwnerInvitationInput.insertConfiguration at h₁
      cases hc : db.configuration with
      | none =>
          simp only [hc, Batch.ok_inj, true_and] at h₁
          rw [← h₁]
          refine ⟨rfl, rfl, rfl, rfl, nofun, fun _ c hc' => ?_⟩
          rw [← Option.some.inj hc']
      | some c =>
          simp only [hc, Batch.ok_inj, true_and] at h₁
          rw [← h₁]
          exact ⟨rfl, rfl, rfl, rfl, fun c' hc' => by rw [← hc', ← hc], nofun⟩
    rcases hfirst with ⟨hchallenges, hbindings, howners, hinvitations, hkept, hunclaimed⟩
    unfold OwnerInvitationInput.insertInvitation at h₂
    split at h₂
    · cases h₂
    · split at h₂
      · next hhost =>
        simp only [Batch.ok_inj, true_and] at h₂
        rw [← h₂]
        refine ⟨hchallenges, hbindings, howners, hkept, hunclaimed, fun host hmem => ?_⟩
        rcases List.mem_map.mp hmem with ⟨i, hi, rfl⟩
        rcases List.mem_append.mp hi with hold | hnew
        · rw [hinvitations] at hold
          exact Or.inl (List.mem_map_of_mem hold)
        · rw [List.mem_singleton.mp hnew]
          rcases (Option.any_eq_true _ _).mp hhost with ⟨c, hc, heq⟩
          refine Or.inr ?_
          rw [configuredHostname, hc, Option.map_some, of_decide_eq_true heq]
      · cases h₂
  · cases h

def AuthOp.isCreateChallenge : AuthOp → Bool
  | createChallenge _ => true
  | _ => false

theorem effect_created (db db' : AuthDb)
    (r : Option ChallengeRecord) (h : effect (.createChallenge input) db = .ok (r, db')) :
    Created input db db' := by
  simp only [effect] at h
  cases hcreate : createChallenge input db with
  | error e => simp only [hcreate, Except.map, reduceCtorEq] at h
  | ok rt =>
      simp only [hcreate, Except.map, Batch.ok_inj] at h
      exact createChallenge_created input db db' rt.1 (by rw [hcreate, ← h.2])

end

/-- Nothing but creating challenges clears any away, or binds anything. -/
theorem effect_undisturbed (op : AuthOp) (db db' : AuthDb) (r : Option ChallengeRecord)
    (h : effect op db = .ok (r, db')) (hop : op.isCreateChallenge = false) :
    Undisturbed db db' := by
  have hsame : ∀ t : AuthDb, t.challenges = db.challenges → t.claimChallenges = db.claimChallenges →
      Undisturbed db t := by
    intro t hchallenges hbindings
    refine ⟨⟨fun _ => false, 0, ?_⟩, hbindings⟩
    rw [Table.update_of_none _ _ _ (fun _ _ => rfl), hchallenges]
  cases op with
  | createChallenge input => cases hop
  | consumeChallenge flowHash ceremony now =>
      simp only [effect, consumeChallenge, Batch.ok_inj] at h
      rw [← h.2]
      exact ⟨⟨_, now, rfl⟩, rfl⟩
  | installManagedOwnerInvitation input =>
      simp only [effect] at h
      cases hinstall : installManagedOwnerInvitation input db with
      | error e => simp only [hinstall, Except.map, reduceCtorEq] at h
      | ok rt =>
          simp only [hinstall, Except.map, Batch.ok_inj] at h
          rw [← h.2]
          have hinstalled := install_installed input db rt.2 rt.1 hinstall
          exact hsame rt.2 hinstalled.challenges hinstalled.bindings
  | commitFirstOwner input =>
      simp only [effect] at h
      cases hcommit : commitFirstOwner input db with
      | error e => simp only [hcommit, Except.map, reduceCtorEq] at h
      | ok rt =>
          simp only [hcommit, Except.map, Batch.ok_inj] at h
          rw [← h.2]
          have hkeeps := commitFirstOwner_keeps input db rt.2 rt.1 hcommit
          exact hsame rt.2 hkeeps.challenges hkeeps.bindings

/-! ## What always holds -/

/-- Flows are told apart, invitations are for the configured hostname, and a
    deployment that is claimed has an owner. -/
structure Grounded (db : AuthDb) : Prop where
  keyed : Keyed db
  flows : (db.challenges.map AuthChallengeRow.flowHash).Nodup
  invitations : ∀ host ∈ hostnames db, configuredHostname db = some host
  claimed : ∀ c, db.configuration = some c → c.claimedAt ≠ none → db.owners ≠ []

theorem Grounded.empty : Grounded emptyDb :=
  ⟨⟨List.nodup_nil, List.nodup_nil⟩, List.nodup_nil, nofun, nofun⟩

theorem effect_grounded (op : AuthOp) (db db' : AuthDb) (r : Option ChallengeRecord)
    (hg : Grounded db) (h : effect op db = .ok (r, db')) : Grounded db' ∧
      ∀ host, configuredHostname db = some host → configuredHostname db' = some host := by
  have hkeyed := (effect_owners op db db' r hg.keyed h).1
  cases op with
  | createChallenge input =>
      have hc := effect_created input db db' r h
      have hhost : configuredHostname db' = configuredHostname db := by
        rw [configuredHostname, hc.configuration]; rfl
      refine ⟨⟨hkeyed, ?_, ?_, ?_⟩, fun host hconf => hhost.trans hconf⟩
      · rw [hc.challenges]
        refine Table.map_concat_nodup _ _ _ ?_ hc.flow
        exact hg.flows.sublist (List.filter_sublist.map _)
      · rw [hhost, hostnames, hc.invitations]
        exact hg.invitations
      · rw [hc.configuration, hc.owners]
        exact hg.claimed
  | consumeChallenge flowHash ceremony now =>
      simp only [effect, consumeChallenge, Batch.ok_inj] at h
      rw [← h.2] at hkeyed ⊢
      refine ⟨⟨hkeyed, ?_, hg.invitations, hg.claimed⟩, fun _ hconf => hconf⟩
      have hsame := Table.map_update AuthChallengeRow.flowHash
        (fun c => c.flowHash = flowHash && c.ceremony = ceremony && c.usedAt.isNone &&
          now < c.expiresAt) (fun c => { c with usedAt := some now }) (fun _ => rfl) db.challenges
      rw [hsame]
      exact hg.flows
  | installManagedOwnerInvitation input =>
      simp only [effect] at h
      cases hinstall : installManagedOwnerInvitation input db with
      | error e => simp only [hinstall, Except.map, reduceCtorEq] at h
      | ok rt =>
          simp only [hinstall, Except.map, Batch.ok_inj] at h
          rw [← h.2] at hkeyed ⊢
          have hi := install_installed input db rt.2 rt.1 hinstall
          have hhost : ∀ host, configuredHostname db = some host →
              configuredHostname rt.2 = some host := by
            intro host hconf
            rcases Option.map_eq_some_iff.mp hconf with ⟨c, hc, heq⟩
            rw [configuredHostname, hi.configuration c hc, Option.map_some, heq]
          refine ⟨⟨hkeyed, ?_, ?_, ?_⟩, hhost⟩
          · rw [hi.challenges]; exact hg.flows
          · intro host hmem
            rcases hi.invitations host hmem with hold | hnew
            · exact hhost host (hg.invitations host hold)
            · exact hnew
          · intro c hc hclaimed
            rw [hi.owners]
            cases hconf : db.configuration with
            | none => exact absurd (hi.unclaimed hconf c hc) hclaimed
            | some c' =>
                have hsame : c' = c := by
                  rw [hi.configuration c' hconf, Option.some.injEq] at hc
                  exact hc
                exact hg.claimed c' hconf (hsame ▸ hclaimed)
  | commitFirstOwner input =>
      simp only [effect] at h
      cases hcommit : commitFirstOwner input db with
      | error e => simp only [hcommit, Except.map, reduceCtorEq] at h
      | ok rt =>
          simp only [hcommit, Except.map, Batch.ok_inj] at h
          rw [← h.2] at hkeyed ⊢
          have hkeeps := commitFirstOwner_keeps input db rt.2 rt.1 hcommit
          refine ⟨⟨hkeyed, ?_, ?_, ?_⟩, fun host hconf => hkeeps.configuration.trans hconf⟩
          · rw [hkeeps.challenges]; exact hg.flows
          · rw [hkeeps.invitations, hkeeps.configuration]; exact hg.invitations
          · intro c hc hclaimed
            rw [(commit_claimed input db rt.2 rt.1 hcommit).owners]
            exact List.append_ne_nil_of_right_ne_nil _ (List.cons_ne_nil _ _)

section

variable (db : AuthDb) (e : AuthOp × Outcome)

/-- A request takes effect or leaves the tables alone. -/
theorem step_cases :
    step db e = db ∨ ∃ r, effect e.1 db = .ok (r, step db e) := by
  rcases send_cases .unavailable e.2 (effect e.1) db with hsame | ⟨r, hok, -⟩
  · exact Or.inl hsame
  · exact Or.inr ⟨r, hok⟩

theorem step_grounded (hg : Grounded db) :
    Grounded (step db e) ∧
      ∀ host, configuredHostname db = some host → configuredHostname (step db e) = some host := by
  rcases step_cases db e with hsame | ⟨r, hok⟩
  · rw [hsame]
    exact ⟨hg, fun _ h => h⟩
  · exact effect_grounded e.1 db (step db e) r hg hok

theorem run_grounded (es : List (AuthOp × Outcome)) (hg : Grounded db) :
    Grounded (Run.runFrom step db es) ∧
      ∀ host, configuredHostname db = some host →
        configuredHostname (Run.runFrom step db es) = some host := by
  induction es generalizing db with
  | nil => exact ⟨hg, fun _ h => h⟩
  | cons e es ih =>
      have hstep := step_grounded db e hg
      have hrest := ih (step db e) hstep.1
      exact ⟨hrest.1, fun host h => hrest.2 host (hstep.2 host h)⟩

/-- In every run on an unclaimed deployment, whichever requests fail, flows and users are told
    apart, invitations are for the configured hostname, a claimed deployment has an owner, and the
    hostname that is configured at some point is configured ever after. -/
theorem hostname_settled (es es' : List (AuthOp × Outcome)) :
    Grounded (Run.runFrom step emptyDb (es ++ es')) ∧
      ∀ host ∈ configuredHostname (Run.runFrom step emptyDb es),
        configuredHostname (Run.runFrom step emptyDb (es ++ es')) = some host := by
  have hfirst := run_grounded emptyDb es Grounded.empty
  have hlast := run_grounded (Run.runFrom step emptyDb es) es' hfirst.1
  rw [Run.runFrom_append]
  exact ⟨hlast.1, fun host hhost => hlast.2 host (Option.mem_def.mp hhost)⟩

/-- Whether a request clears used challenges away, with what is bound to them. -/
def clears (db : AuthDb) (e : AuthOp × Outcome) : Bool :=
  e.1.isCreateChallenge && (effect e.1 db).isOk && e.2 ≠ .refused

/-- Only a request that clears challenges away takes a binding with it. -/
theorem step_bindings (h : clears db e = false) :
    (step db e).claimChallenges = db.claimChallenges := by
  rcases e with ⟨op, w⟩
  cases hcreate : op.isCreateChallenge with
  | false =>
      rcases step_cases db (op, w) with hsame | ⟨r, hok⟩
      · rw [hsame]
      · exact (effect_undisturbed op db _ r hok hcreate).bindings
  | true =>
      cases heffect : effect op db with
      | error err => cases w <;> simp only [step, exec, send, heffect]
      | ok rt =>
          have hrefused : w = .refused := by
            simp only [clears, hcreate, heffect, Except.isOk, Except.toBool, Bool.true_and,
              decide_eq_false_iff_not, not_not] at h
            exact h
          rw [hrefused]
          rfl

theorem run_bindings (es : List (AuthOp × Outcome))
    (h : Run.Along (fun db e => clears db e = false) step db es) :
    (Run.runFrom step db es).claimChallenges = db.claimChallenges := by
  induction es generalizing db with
  | nil => rfl
  | cons e es ih => exact (ih (step db e) h.2).trans (step_bindings db e h.1)

end

/-! ## A commit that goes through -/

/-- What a commit by invitation needs. -/
structure Ready (input : OwnerCommit) (db : AuthDb) : Prop where
  unowned : db.owners = []
  required : input.requireManagedInvitation = true
  lasting : input.now < input.session.expiresAt
  session : ∀ s ∈ db.sessions, s.tokenHash ≠ input.session.tokenHash
  audit : ∀ a ∈ db.auditEvents, a.id ≠ input.auditId
  bound : ∃ c b i, db.configuration = some c ∧ b ∈ db.claimChallenges ∧ i ∈ db.invitations ∧
    c.claimedAt = none ∧ c.configuredAt ≤ input.now ∧
    b.webauthnUserId = input.owner.webauthnUserId ∧ b.expectedHostname = c.expectedHostname ∧
    input.now < b.expiresAt ∧ b.invitationTokenHash = i.tokenHash ∧
    i.expectedHostname = c.expectedHostname ∧ i.consumedAt = none ∧ input.now < i.expiresAt ∧
    i.createdAt ≤ input.now

section

variable (input : OwnerCommit) (db : AuthDb)

theorem insertOwner_goes (hadm : input.admitted db = true)
    (hnone : db.owners = []) :
    input.insertOwner db = .ok ((), { db with owners := [input.ownerRow], changes := 1 }) := by
  unfold OwnerCommit.insertOwner
  rw [if_pos hadm, hnone, List.any_nil, if_neg Bool.false_ne_true]
  rfl

theorem consumeInvitation_goes (hcreated : ∀ i ∈ db.invitations, input.consumes db i = true → i.createdAt ≤ input.now) :
    ∃ invitations, input.consumeInvitation db = .ok ((), { db with
      invitations := invitations
      changes := (db.invitations.filter (input.consumes db)).length }) := by
  have hnone : db.invitations.any
      (fun i => input.consumes db i && input.now < i.createdAt) = false := by
    rw [List.any_eq_false]
    intro i hi hp
    rw [Bool.and_eq_true, decide_eq_true_eq] at hp
    have hle := hcreated i hi hp.1
    omega
  unfold OwnerCommit.consumeInvitation
  rw [if_neg (Bool.eq_false_iff.mp hnone)]
  exact ⟨_, rfl⟩

theorem claimConfiguration_goes (c : OwnerClaimConfigurationRow) (hc : db.configuration = some c) (hclaimed : c.claimedAt = none)
    (hone : db.changes = 1) (hconfigured : c.configuredAt ≤ input.now) :
    ∃ c', input.claimConfiguration db = .ok ((), { db with
      configuration := some c', changes := 1 }) := by
  unfold OwnerCommit.claimConfiguration
  rw [hc]
  dsimp only
  rw [hclaimed, Option.isSome_none, if_neg Bool.false_ne_true, if_pos hone, if_neg (by omega)]
  exact ⟨_, rfl⟩

/-- What a commit ends with goes through where there is an owner. -/
theorem commit_rest_goes (howner : input.ownerRow ∈ db.owners)
    (hlasting : input.now < input.session.expiresAt)
    (hsession : ∀ s ∈ db.sessions, s.tokenHash ≠ input.session.tokenHash)
    (haudit : ∀ a ∈ db.auditEvents, a.id ≠ input.auditId) :
    ∃ rs db', run [insertOwnerCredential, input.insertSession, input.insertAuditEvent] db =
      .ok (rs, db') := by
  have hfree : db.sessions.any (fun s => s.tokenHash = input.session.tokenHash) = false := by
    rw [List.any_eq_false]
    exact fun s hs heq => hsession s hs (of_decide_eq_true heq)
  have hnew : db.auditEvents.any (fun a => a.id = input.auditId) = false := by
    rw [List.any_eq_false]
    exact fun a ha heq => haudit a ha (of_decide_eq_true heq)
  have hany : db.owners.any (fun o => o.id = 1) = true :=
    List.any_eq_true.mpr ⟨_, howner, rfl⟩
  simp only [run, insertOwnerCredential, OwnerCommit.insertSession, hfree, Bool.false_eq_true,
    if_false, Nat.not_le.mpr hlasting, hany, if_true, OwnerCommit.insertAuditEvent, hnew]
  exact ⟨_, _, rfl⟩

theorem commitFirstOwner_goes (hk : Keyed db)
    (h : Ready input db) : ∃ db', commitFirstOwner input db = .ok ((), db') := by
  rcases h.bound with ⟨c, b, i, hc, hb, hi, hclaimed, hconfigured, huser, hbhost, hbexp, htoken,
    hihost, hunused, hiexp, hcreated⟩
  have hinvited : input.invited db c = true := by
    refine List.any_eq_true.mpr ⟨b, hb, ?_⟩
    have hany : db.invitations.any (fun i' => i'.tokenHash = b.invitationTokenHash &&
        i'.expectedHostname = c.expectedHostname && i'.consumedAt.isNone &&
        input.now < i'.expiresAt) = true :=
      List.any_eq_true.mpr ⟨i, hi, by simp [htoken, hihost, hunused, hiexp]⟩
    rw [hany]
    simp [huser, hbhost, hbexp]
  have hadm : input.admitted db = true := by
    simp [OwnerCommit.admitted, h.required, hc, hclaimed, hinvited]
  -- It is the only invitation that the third statement finds.
  have hbound := boundTokenHash_of_mem input db hk b hb huser hbexp
  have hself : input.consumes db i = true := by
    simp [OwnerCommit.consumes, hbound, htoken, hc, hunused, hiexp]
  have honly : ∀ i' ∈ db.invitations, input.consumes db i' = true → i' = i := by
    intro i' hi' hcons
    simp only [OwnerCommit.consumes, hbound, Bool.and_eq_true, decide_eq_true_eq,
      Option.some.injEq] at hcons
    have hsame : i'.tokenHash = i.tokenHash := hcons.1.1.1.symm.trans htoken
    exact List.inj_on_of_nodup_map hk.tokens hi' hi hsame
  have hone : (db.invitations.filter (input.consumes db)).length = 1 := by
    rw [Table.filter_of_key OwnerClaimInvitationRow.tokenHash _ _ i hk.tokens hi hself
      (fun i' hi' hcons => congrArg _ (honly i' hi' hcons))]
    rfl
  have hfirst := insertOwner_goes input db hadm h.unowned
  rcases consumeInvitation_goes input { db with
    owners := [input.ownerRow], ownerInserted := some 1, changes := 1 }
    (fun i' hi' hcons => honly i' hi' hcons ▸ hcreated) with ⟨invitations, hconsume⟩
  rcases claimConfiguration_goes input { db with
    owners := [input.ownerRow], ownerInserted := some 1, invitations := invitations
    changes := (db.invitations.filter (input.consumes db)).length } c hc hclaimed hone
    hconfigured with ⟨c', hclaim⟩
  rcases commit_rest_goes input { db with
    owners := [input.ownerRow], ownerInserted := some 1, invitations := invitations
    configuration := some c', changes := 1 } (List.mem_singleton_self _) h.lasting h.session
    h.audit with ⟨rs, db', hrest⟩
  have hrun : ∃ rs', run input.statements db = .ok (rs', db') := by
    unfold OwnerCommit.statements
    rw [if_pos h.required]
    refine ⟨() :: () :: () :: () :: rs, run_cons_ok.mpr ⟨_, _, _, hfirst, ?_, rfl⟩⟩
    refine run_cons_ok.mpr ⟨_, _, _, rfl, ?_, rfl⟩
    refine run_cons_ok.mpr ⟨_, _, _, hconsume, ?_, rfl⟩
    exact run_cons_ok.mpr ⟨_, _, _, hclaim, hrest, rfl⟩
  rcases hrun with ⟨rs', hrun⟩
  exact ⟨db', by rw [commitFirstOwner, hrun]; rfl⟩

end

/-! ## A flow -/

/-- What the registration route asks of an invitation before it creates a
    challenge. -/
def requireManagedOwnerInvitation (expectedHostname tokenHash : String) (now : Nat) (db : AuthDb) :
    Except AuthError (Option String) :=
  if isHostname expectedHostname && isTokenHash tokenHash then
    .ok (if db.configuration.any (fun c => c.claimedAt.isNone &&
          c.expectedHostname = expectedHostname) &&
        db.invitations.any (fun i => i.expectedHostname = expectedHostname &&
          i.tokenHash = tokenHash && i.consumedAt.isNone && now < i.expiresAt)
      then some tokenHash else none)
  else .error .invalidInput

/-- A flow that claims a deployment by invitation: what its four requests are
    made with, and the record it reads between them. -/
structure OwnerFlow where
  claim : OwnerClaim
  askedAt : Nat
  create : CreateChallengeInput
  consumedAt : Nat
  record : ChallengeRecord
  commit : OwnerCommit

/-- What is asked by anybody before each of the requests of a flow. -/
structure Around where
  asking : List (AuthOp × Outcome)
  creating : List (AuthOp × Outcome)
  consuming : List (AuthOp × Outcome)
  committing : List (AuthOp × Outcome)

def Around.asks (a : Around) : AuthDb :=
  Run.runFrom step emptyDb a.asking

def Around.creates (a : Around) : AuthDb :=
  Run.runFrom step a.asks a.creating

def Around.created (a : Around) (f : OwnerFlow) : AuthDb :=
  step a.creates (.createChallenge f.create, .answered)

def Around.consumes (a : Around) (f : OwnerFlow) : AuthDb :=
  Run.runFrom step (a.created f) a.consuming

def Around.consumed (a : Around) (f : OwnerFlow) : AuthDb :=
  step (a.consumes f) (.consumeChallenge f.create.flowHash .registration f.consumedAt, .answered)

def Around.commits (a : Around) (f : OwnerFlow) : AuthDb :=
  Run.runFrom step (a.consumed f) a.committing

/-- A flow comes to its commit: it was invited, its challenge was created and used
    up before it expired, nobody owns the deployment, and the invitation can still
    be used. What it draws at random nobody else has drawn. -/
structure Comes (f : OwnerFlow) (a : Around) : Prop where
  claim : f.create.ownerClaim = some f.claim
  user : f.record.webauthnUserId = some f.commit.owner.webauthnUserId
  required : f.commit.requireManagedInvitation = true
  lasting : f.commit.now < f.commit.session.expiresAt
  asked : requireManagedOwnerInvitation f.claim.expectedHostname f.claim.invitationTokenHash
    f.askedAt a.asks = .ok (some f.claim.invitationTokenHash)
  created : (exec (.createChallenge f.create, .answered) a.creates).1 = .ok none
  fresh : ∀ e ∈ a.consuming, ∀ input, e.1 = .createChallenge input →
    input.flowHash ≠ f.create.flowHash
  consumed : (exec (.consumeChallenge f.create.flowHash .registration f.consumedAt, .answered)
    (a.consumes f)).1 = .ok (some f.record)
  unowned : (a.commits f).owners = []
  invitation : ∃ i ∈ (a.commits f).invitations, i.tokenHash = f.claim.invitationTokenHash ∧
    i.consumedAt = none ∧ f.commit.now < i.expiresAt
  session : ∀ s ∈ (a.commits f).sessions, s.tokenHash ≠ f.commit.session.tokenHash
  audit : ∀ e ∈ (a.commits f).auditEvents, e.id ≠ f.commit.auditId

/-- A flow that comes to its commit is committed. -/
def Commits (f : OwnerFlow) (a : Around) : Prop :=
  Comes f a → (exec (.commitFirstOwner f.commit, .answered) (a.commits f)).1 = .ok none

/-- A challenge of a flow is as it was created, and is bound. -/
def Pending (input : CreateChallengeInput) (b : OwnerClaimChallengeRow) (db : AuthDb) : Prop :=
  ∀ c ∈ db.challenges, c.flowHash = input.flowHash →
    c.webauthnUserId = input.webauthnUserId ∧ c.expiresAt = input.expiresAt ∧
      b ∈ db.claimChallenges

section

variable (input : CreateChallengeInput) (b : OwnerClaimChallengeRow)

/-- What is bound to a challenge expires with it. -/
theorem binding_expires (hb : input.binding = some b) : b.flowHash = input.flowHash ∧ b.expiresAt = input.expiresAt ∧
      input.webauthnUserId = some b.webauthnUserId := by
  unfold CreateChallengeInput.binding at hb
  split at hb
  · next claim u hclaim huser =>
    rw [← Option.some.inj hb]
    exact ⟨rfl, rfl, huser⟩
  · cases hb

theorem created_pending (hb : input.binding = some b) (db db' : AuthDb) (h : Created input db db') :
    Pending input b db' := by
  intro c hc hflow
  rw [h.challenges] at hc
  rcases List.mem_append.mp hc with hold | hnew
  · exact absurd hflow (h.flow c hold)
  · rw [List.mem_singleton.mp hnew]
    exact ⟨rfl, rfl, h.bound b hb⟩

/-- No request of another flow unbinds a challenge that is still there. -/
theorem step_pending (hb : input.binding = some b) (db : AuthDb) (e : AuthOp × Outcome)
    (hother : ∀ input', e.1 = .createChallenge input' → input'.flowHash ≠ input.flowHash)
    (h : Pending input b db) : Pending input b (step db e) := by
  rcases binding_expires input b hb with ⟨hbflow, hbexp, -⟩
  rcases step_cases db e with hsame | ⟨r, hok⟩
  · rw [hsame]
    exact h
  cases hcreate : e.1.isCreateChallenge with
  | false =>
      have hund := effect_undisturbed e.1 db (step db e) r hok hcreate
      rcases hund.challenges with ⟨q, now, hrows⟩
      intro c hc hflow
      rw [hrows] at hc
      rw [hund.bindings]
      rcases Table.mem_update _ _ _ _ hc with ⟨c₀, hc₀, ⟨_, rfl⟩ | ⟨_, rfl⟩⟩
      · exact h c₀ hc₀ hflow
      · exact h c hc₀ hflow
  | true =>
      rcases e with ⟨op, w⟩
      cases op with
      | createChallenge input' =>
          have hc := effect_created input' db _ r hok
          intro c hmem hflow
          rw [hc.challenges] at hmem
          rcases List.mem_append.mp hmem with hold | hnew
          · have hthere := List.mem_filter.mp hold
            rcases h c hthere.1 hflow with ⟨huser, hexp, hbound⟩
            -- The binding expires with its challenge, which is not cleared away.
            have hlive : input'.now < b.expiresAt := by
              have hstanding := hthere.2
              simp only [AuthChallengeRow.standing, Bool.not_or, Bool.and_eq_true,
                Bool.not_eq_true', decide_eq_false_iff_not] at hstanding
              omega
            exact ⟨huser, hexp, hc.kept b hbound hlive ⟨c, hold, hflow.trans hbflow.symm⟩⟩
          · rw [List.mem_singleton.mp hnew] at hflow
            exact absurd hflow (hother input' rfl)
      | consumeChallenge flowHash ceremony now => cases hcreate
      | installManagedOwnerInvitation input' => cases hcreate
      | commitFirstOwner input' => cases hcreate

theorem run_pending (hb : input.binding = some b) (db : AuthDb) (es : List (AuthOp × Outcome))
    (hother : ∀ e ∈ es, ∀ input', e.1 = .createChallenge input' →
      input'.flowHash ≠ input.flowHash)
    (h : Pending input b db) : Pending input b (Run.runFrom step db es) := by
  induction es generalizing db with
  | nil => exact h
  | cons e es ih =>
      refine ih (step db e) (fun e' he' => hother e' (List.mem_cons_of_mem _ he')) ?_
      exact step_pending input b hb db e (hother e List.mem_cons_self) h

/-- A challenge for an invitation is created for a user. -/
theorem createChallenge_binds (claim : OwnerClaim)
    (hclaim : input.ownerClaim = some claim) (db db' : AuthDb) (r : Unit)
    (h : createChallenge input db = .ok (r, db')) :
    ∃ b, input.binding = some b ∧ b.expectedHostname = claim.expectedHostname ∧
      b.invitationTokenHash = claim.invitationTokenHash := by
  unfold createChallenge at h
  simp only [hclaim] at h
  split at h
  · cases h
  · next u huser =>
    have huser' : input.webauthnUserId = some u := (Option.filter_eq_some_iff.mp huser).1
    rw [CreateChallengeInput.binding, hclaim, huser']
    exact ⟨_, rfl, rfl, rfl⟩

end

/-- An answered request is one that took effect. -/
theorem exec_answered (op : AuthOp) (db : AuthDb) (r : Option ChallengeRecord)
    (h : (exec (op, .answered) db).1 = .ok r) :
    effect op db = .ok (r, step db (op, .answered)) := by
  cases heffect : effect op db with
  | error err => simp only [exec, send, heffect, reduceCtorEq] at h
  | ok rt =>
      simp only [exec, send, heffect, Except.ok.injEq] at h
      simp only [step, exec, send, heffect, ← h]

/-- Up to its commit, a flow finds what its challenge was bound to. -/
theorem consumed_bound (f : OwnerFlow) (a : Around) (h : Comes f a) :
    ∃ b ∈ (a.consumed f).claimChallenges,
      b.webauthnUserId = f.commit.owner.webauthnUserId ∧
      b.expectedHostname = f.claim.expectedHostname ∧
      b.invitationTokenHash = f.claim.invitationTokenHash ∧ b.expiresAt = f.create.expiresAt := by
  have hcreated := exec_answered _ _ _ h.created
  have hconsumed := exec_answered _ _ _ h.consumed
  have hbinds : ∃ b, f.create.binding = some b ∧
      b.expectedHostname = f.claim.expectedHostname ∧
      b.invitationTokenHash = f.claim.invitationTokenHash := by
    simp only [effect] at hcreated
    cases hcreate : createChallenge f.create a.creates with
    | error err => simp only [hcreate, Except.map, reduceCtorEq] at hcreated
    | ok rt => exact createChallenge_binds f.create f.claim h.claim _ rt.2 rt.1 hcreate
  rcases hbinds with ⟨b, hb, hhost, htoken⟩
  rcases binding_expires f.create b hb with ⟨-, hexp, huser⟩
  have hpending : Pending f.create b (a.consumes f) := by
    refine run_pending f.create b hb _ a.consuming h.fresh ?_
    exact created_pending f.create b hb _ _ (effect_created f.create _ _ _ hcreated)
  -- What the challenge was created with is what the record says.
  have hkept : (a.consumed f).claimChallenges = (a.consumes f).claimChallenges :=
    (effect_undisturbed _ _ _ _ hconsumed rfl).bindings
  simp only [effect, consumeChallenge, Batch.ok_inj] at hconsumed
  rcases Option.map_eq_some_iff.mp hconsumed.1 with ⟨c, hfound, hrecord⟩
  have hopen := List.find?_some hfound
  simp only [Bool.and_eq_true, decide_eq_true_eq] at hopen
  rcases hpending c (List.mem_of_find?_eq_some hfound) hopen.1.1.1 with ⟨hcuser, -, hmem⟩
  have hsame : some b.webauthnUserId = some f.commit.owner.webauthnUserId := by
    rw [← huser, ← hcuser, ← h.user, ← hrecord]
  exact ⟨b, hkept ▸ hmem, Option.some.inj hsame, hhost, htoken, hexp⟩

/-- The deployment is configured to the hostname of a flow that was invited. -/
theorem asked_hostname (f : OwnerFlow) (a : Around) (h : Comes f a) :
    configuredHostname a.asks = some f.claim.expectedHostname := by
  have hasked := h.asked
  unfold requireManagedOwnerInvitation at hasked
  split at hasked
  · rw [Except.ok.injEq] at hasked
    split at hasked
    · next hfound =>
      rw [Bool.and_eq_true] at hfound
      rcases (Option.any_eq_true _ _).mp hfound.1 with ⟨c, hc, hp⟩
      rw [Bool.and_eq_true, decide_eq_true_eq] at hp
      rw [configuredHostname, hc, Option.map_some, hp.2]
    · cases hasked
  · cases hasked

/-- A flow that comes to its commit is committed, whatever others ask, where nobody
    creates a challenge between its consumption and its commit, it commits before
    its challenge expires, and its clock is not behind the installation's. -/
theorem invited_flow_commits (f : OwnerFlow) (a : Around)
    (hquiet : Run.Along (fun db e => clears db e = false) step (a.consumed f) a.committing)
    (hlive : f.commit.now < f.create.expiresAt)
    (hcreated : ∀ i ∈ (a.commits f).invitations, i.tokenHash = f.claim.invitationTokenHash →
      i.createdAt ≤ f.commit.now)
    (hconfigured : ∀ c, (a.commits f).configuration = some c → c.configuredAt ≤ f.commit.now) :
    Commits f a := by
  intro h
  have hasks := run_grounded emptyDb a.asking Grounded.empty
  have hcreates := run_grounded a.asks a.creating hasks.1
  have hmade := step_grounded a.creates (.createChallenge f.create, .answered) hcreates.1
  have hconsumes := run_grounded (a.created f) a.consuming hmade.1
  have hused := step_grounded (a.consumes f)
    (.consumeChallenge f.create.flowHash .registration f.consumedAt, .answered) hconsumes.1
  have hcommits := run_grounded (a.consumed f) a.committing hused.1
  -- The hostname stays as it was when the invitation was asked for.
  have hhost : configuredHostname (a.commits f) = some f.claim.expectedHostname :=
    hcommits.2 _ (hused.2 _ (hconsumes.2 _ (hmade.2 _ (hcreates.2 _ (asked_hostname f a h)))))
  rcases Option.map_eq_some_iff.mp hhost with ⟨c, hc, hchost⟩
  have hclaimed : c.claimedAt = none := by
    by_contra hne
    exact hcommits.1.claimed c hc hne h.unowned
  rcases h.invitation with ⟨i, hi, htoken, hunused, hiexp⟩
  have hihost : i.expectedHostname = c.expectedHostname := by
    have hmem := hcommits.1.invitations i.expectedHostname (List.mem_map_of_mem hi)
    have hsame : some f.claim.expectedHostname = some i.expectedHostname := hhost.symm.trans hmem
    exact (Option.some.inj hsame).symm.trans hchost.symm
  -- No binding is lost between the consumption and the commit.
  rcases consumed_bound f a h with ⟨b, hb, huser, hbhost, hbtoken, hbexp⟩
  have hbound : b ∈ (a.commits f).claimChallenges := by
    rw [Around.commits, run_bindings _ _ hquiet]
    exact hb
  have hready : Ready f.commit (a.commits f) := by
    refine ⟨h.unowned, h.required, h.lasting, h.session, h.audit, c, b, i, hc, hbound, hi,
      hclaimed, hconfigured c hc, huser, hbhost.trans hchost.symm, ?_, hbtoken.trans htoken.symm,
      hihost, hunused, hiexp, hcreated i hi htoken⟩
    rw [hbexp]
    exact hlive
  rcases commitFirstOwner_goes f.commit (a.commits f) hcommits.1.keyed hready with ⟨db', hgoes⟩
  simp only [exec, send, effect, hgoes, Except.map]

/-! ## Two browsers -/

/-- A flow of an invited owner. -/
def invitedFlow : OwnerFlow :=
  { claim := { expectedHostname := "w.example.com", invitationTokenHash := invitationHash }
    askedAt := 8
    create := registration (some {
      expectedHostname := "w.example.com", invitationTokenHash := invitationHash })
    consumedAt := 15
    record := {
      challenge := "c"
      ceremony := .registration
      expectedOrigin := "https://w.example.com"
      expectedRpId := "w.example.com"
      webauthnUserId := some "u" }
    commit := managedCommit }

/-- Nobody else asks for anything. -/
def undisturbed : Around :=
  { asking := [(.installManagedOwnerInvitation invitation, .answered)]
    creating := []
    consuming := []
    committing := [] }

/-- Another browser opens the invitation after the challenge was used. -/
def disturbed : Around :=
  { undisturbed with
    committing := [(.createChallenge { registration (some {
      expectedHostname := "w.example.com", invitationTokenHash := invitationHash }) with
        flowHash := "g", webauthnUserId := some "v", now := 16 }, .answered)] }

theorem invitedFlow_comes (a : Around) (ha : a = undisturbed ∨ a = disturbed) :
    Comes invitedFlow a := by
  rcases ha with rfl | rfl <;>
    exact ⟨by decide +kernel, by decide +kernel, by decide +kernel, by decide +kernel,
      by decide +kernel, by decide +kernel, nofun, by decide +kernel, by decide +kernel,
      by decide +kernel, by decide +kernel, by decide +kernel⟩

theorem invitedFlow_commits : Comes invitedFlow undisturbed ∧
    (exec (.commitFirstOwner managedCommit, .answered) (undisturbed.commits invitedFlow)).1 =
      .ok none := by
  have hcomes := invitedFlow_comes undisturbed (Or.inl rfl)
  refine ⟨hcomes, ?_⟩
  exact invited_flow_commits invitedFlow undisturbed (by decide +kernel) (by decide +kernel)
    (by decide +kernel) (by decide +kernel) hcomes

/-- What another browser asks for takes the binding away that the commit needs. -/
theorem invitedFlow_disturbed : ¬ Commits invitedFlow disturbed := by
  intro h
  have hfails : (exec (.commitFirstOwner managedCommit, .answered)
      (disturbed.commits invitedFlow)).1 = .error .ownerInvitationInvalid := by decide +kernel
  have hgoes := h (invitedFlow_comes disturbed (Or.inr rfl))
  cases hgoes.symm.trans hfails

end Mdevolved.Auth
