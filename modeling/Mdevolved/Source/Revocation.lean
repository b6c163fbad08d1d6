import Mdevolved.Lib.Interrupted
import Mdevolved.Source.Core

/-!
# A Credential That Was Revoked

Any number of cores over one local state, each with calls of its own that run between each
other's awaits and may be cut off. Once a revocation has completed, the fingerprint of the
credential is to keep every core from running, until it is replaced.

It does so only as long as the record of it survives. Each core stores the copy that it
holds, and a copy from before the revocation has no fingerprint in it. So a core that
still ran, or one that had nothing to revoke, takes the record away with its next write.
Nor does a core that runs compare fingerprints again.

## Main definitions

* `Program`: Cores and calls over one local state.
* `recorded`: The fingerprint that local state has recorded as revoked.
* `StaysRevoked`: What a revocation is for.
* `Orderly`: What is asked of the steps of a run.
* `Guard`: A fingerprint is recorded, and no core runs.

## Theorems

* `revokeRest_guards`: What a revocation by itself leaves.
* `body_guarded`: What a call does under a guard.
* `stays_revoked`: In orderly runs a revocation is for good.
* `stop_erases`: In others it is not.
-/

namespace Mdevolved.Source

open Batch (Outcome)
open Interface (Returns)
open Process (Returning)
open Vault (UnicodeTables)

/-- Cores over one local state, and the calls that are made of them. -/
structure Program (ι κ : Type) where
  tables : UnicodeTables
  descriptor : κ → Option SourceDescriptor
  core : ι → κ
  request : ι → CoreCall

abbrev CorePool (ι κ : Type) :=
  Process.Pool ι (CoreOp κ) (fun op => Except CoreError op.Ret) (CoreWorld κ) CoreError CoreAnswer

/-- The next operation of a call, or that it is cut off. -/
abbrev CoreEvent (ι : Type) :=
  ι × Option Outside

/-- The fingerprint that local state has recorded as revoked. -/
def recorded {κ : Type} (s : CoreWorld κ) : Option String :=
  (decodePersistedCoreState s.persisted).bind (·.revokedFingerprint)

def CoreCall.replaces : CoreCall → Bool
  | .replaceCredentials _ => true
  | _ => false

/-- Calls that change what credential there is. -/
def CoreCall.exclusive (call : CoreCall) : Bool :=
  call = .revoke || call.replaces

namespace Program

variable {ι κ : Type} [DecidableEq ι] [DecidableEq κ] (p : Program ι κ)

def body (i : ι) : CoreCalls κ CoreAnswer :=
  (p.request i).run p.tables (p.descriptor (p.core i)) (p.core i)

/-- No core has begun, over some local state. -/
def begin (persisted : Option StoredCoreState) : CorePool ι κ :=
  { shared := { persisted := persisted, memory := fun _ => .blank }, calls := p.body }

def step (c : CorePool ι κ) (e : CoreEvent ι) : CorePool ι κ :=
  Process.stepOrCut CoreOp.exec .terminated c e

abbrev run (c : CorePool ι κ) (es : List (CoreEvent ι)) : CorePool ι κ :=
  Run.runFrom step c es

/-- A step in which a call that replaces credentials completes. -/
def Replaces (c : CorePool ι κ) (e : CoreEvent ι) : Prop :=
  (p.request e.1).replaces = true ∧ c.result e.1 = none ∧ ∃ a, (step c e).result e.1 = some (.ok a)

/-- A step that does not reach the files port, and in which no start returns running. -/
def Blocked (c : CorePool ι κ) (e : CoreEvent ι) : Prop :=
  (∀ access, c.next e.1 ≠ some (.files access)) ∧
    (p.request e.1 = .start → c.result e.1 = none →
      (step c e).result e.1 ≠ some (.ok (.status .running)))

/-- Custody presents an active credential. -/
def Presents (fingerprint : String) (w : Outside) : Prop :=
  ∃ credential, w.credential = some credential ∧ credential.fingerprint = fingerprint ∧
    credential.status = .active

/-- A revocation is presented its credential in one step and completes in another. -/
structure Revokes (c : CorePool ι κ) (r : ι) (w₀ : Outside) (between : List (CoreEvent ι))
    (w₁ : Outside) (credential : CredentialRecord) : Prop where
  request : p.request r = .revoke
  asks : c.next r = some .getCredential
  answered : w₀.outcome = .answered
  presented : w₀.credential = some credential
  waits : (run c ((r, some w₀) :: between)).result r = none
  completes : (run c ((r, some w₀) :: between ++ [(r, some w₁)])).result r = some (.ok .nothing)

/-- Once a revocation has completed, every step is blocked in which custody presents an
    active credential with its fingerprint, until a call completes that replaces
    credentials. -/
def StaysRevoked (persisted : Option StoredCoreState) (es : List (CoreEvent ι)) : Prop :=
  ∀ before r w₀ between w₁ credential later i w,
    before ++ ((r, some w₀) :: between ++ [(r, some w₁)]) ++ later ++ [(i, some w)] <+: es →
    p.Revokes (run (p.begin persisted) before) r w₀ between w₁ credential →
    Run.Along (fun c e => ¬ p.Replaces c e) step
      (run (p.begin persisted) (before ++ ((r, some w₀) :: between ++ [(r, some w₁)]))) later →
    Presents credential.fingerprint w →
    p.Blocked (run (p.begin persisted)
      (before ++ ((r, some w₀) :: between ++ [(r, some w₁)]) ++ later)) (i, some w)

/-! ## Orderly runs -/

/-- A call that has not begun, or has ended. -/
def Idle (c : CorePool ι κ) (i : ι) : Prop :=
  c.calls i = p.body i ∨ ∃ r, c.calls i = .done r

/-- No call is under way besides one that changes what credential there is. -/
def Alone (c : CorePool ι κ) (i : ι) : Prop :=
  ∀ j, j ≠ i → ((p.request i).exclusive || (p.request j).exclusive) = true → p.Idle c j

def confirms : CoreOp κ → Bool
  | .confirmReplacement _ => true
  | _ => false

/-- What is asked of an operation while a fingerprint is recorded: custody presents no
    other one, and no write but that of a replacement loses it. -/
def Preserves (call : CoreCall) (op : CoreOp κ) (w : Outside) (fingerprint : String) : Prop :=
  match op with
  | .getCredential => ∀ credential, w.credential = some credential →
      credential.fingerprint = fingerprint
  | .writeState state => call.replaces = true ∨ state.revokedFingerprint = some fingerprint
  | _ => True

instance decidablePreserves (call : CoreCall) (op : CoreOp κ) (w : Outside)
    (fingerprint : String) : Decidable (Preserves call op w fingerprint) :=
  match op with
  | .getCredential =>
      inferInstanceAs (Decidable (∀ credential ∈ w.credential,
        credential.fingerprint = fingerprint))
  | .writeState _ => inferInstanceAs (Decidable (_ ∨ _))
  | .sync _ _ => isTrue trivial
  | .readState => isTrue trivial
  | .revokeCredential => isTrue trivial
  | .confirmReplacement _ => isTrue trivial
  | .emit _ => isTrue trivial
  | .files _ => isTrue trivial

/-- What is asked of an operation: no other core runs while a credential is revoked, a
    replacement that was confirmed is not disturbed, and what is recorded is preserved. -/
structure Fits (i : ι) (op : CoreOp κ) (w : Outside) (s : CoreWorld κ) : Prop where
  others : p.request i = .revoke → ∀ k, k ≠ p.core i → (s.memory k).status ≠ .running
  undisturbed : (p.request i).replaces = true → confirms op = false → w.outcome = .answered
  preserves : ∀ fingerprint, recorded s = some fingerprint →
    Preserves (p.request i) op w fingerprint

instance decidableFits [Fintype κ] (i : ι) (op : CoreOp κ) (w : Outside) (s : CoreWorld κ) :
    Decidable (p.Fits i op w s) :=
  haveI : Decidable (∀ fingerprint, recorded s = some fingerprint →
      Preserves (p.request i) op w fingerprint) :=
    inferInstanceAs (Decidable (∀ fingerprint ∈ recorded s,
      Preserves (p.request i) op w fingerprint))
  decidable_of_iff
    ((p.request i = .revoke → ∀ k, k ≠ p.core i → (s.memory k).status ≠ .running) ∧
      ((p.request i).replaces = true → confirms op = false → w.outcome = .answered) ∧
      ∀ fingerprint, recorded s = some fingerprint → Preserves (p.request i) op w fingerprint)
    ⟨fun h => ⟨h.1, h.2.1, h.2.2⟩, fun h => ⟨h.others, h.undisturbed, h.preserves⟩⟩

/-- What is asked of a step. A replacement that has begun is not cut off. -/
def Orderly (c : CorePool ι κ) : CoreEvent ι → Prop
  | (i, some w) => ∀ op, c.next i = some op → p.Alone c i ∧ p.Fits i op w c.shared
  | (i, none) => (p.request i).replaces = true → p.Idle c i

end Program

/-! ## Operations -/

section Operations

variable {κ : Type} [DecidableEq κ]

theorem exec_sync (core : κ) (f : Int → Memory → Memory) (w : Outside) (s : CoreWorld κ) :
    CoreOp.exec (.sync core f) w s = (.ok (s.memory core, w.now),
      { s with memory := Function.update s.memory core (f w.now (s.memory core)) }) :=
  rfl

section

variable (op : CoreOp κ) (w : Outside) (s : CoreWorld κ)

/-- A request that stores nothing leaves the world alone. -/
theorem exec_quiet (hsync : ∀ core f, op ≠ .sync core f) (hwrite : ∀ state, op ≠ .writeState state) :
    (op.exec w s).2 = s := by
  unfold CoreOp.exec CoreOp.outcome CoreOp.effect
  cases op with
  | sync core f => exact absurd rfl (hsync core f)
  | writeState state => exact absurd rfl (hwrite state)
  | _ => cases w.outcome <;> rfl

theorem exec_write_cases (state : PersistedCoreState) (w : Outside) (s : CoreWorld κ) :
    (CoreOp.exec (.writeState state) w s).2 = s ∨
      (CoreOp.exec (.writeState state) w s).2 = { s with persisted := some state.stored } := by
  unfold CoreOp.exec CoreOp.outcome CoreOp.effect
  cases w.outcome with
  | answered => exact Or.inr rfl
  | refused => exact Or.inl rfl
  | lost => exact Or.inr rfl

/-- An answered request answers with what it does by itself. -/
theorem exec_ok (r : op.Ret)
    (h : (op.exec w s).1 = .ok r) : ∃ t, op.effect w s = .ok (r, t) ∧ (op.exec w s).2 = t :=
  ⟨_, Batch.send_ok _ _ _ _ _ h, rfl⟩

/-- A request that is not disturbed is answered. -/
theorem exec_answered (hw : w.outcome = .answered) : ∃ r, (op.exec w s).1 = .ok r := by
  have hany : op.outcome w = .answered := by
    cases op with
    | sync core f => rfl
    | _ => exact hw
  unfold CoreOp.exec
  rw [hany]
  cases op with
  | _ => exact ⟨_, rfl⟩

end

variable {α β : Type} {C : CoreOp κ → Outside → CoreWorld κ → Prop} {I : CoreWorld κ → Prop}
  {R : CoreWorld κ → CoreWorld κ → Prop} {P : CoreOp κ → CoreWorld κ → Prop}

/-- One function after the other. -/
theorem meets_next {M : α → CoreWorld κ → Prop} {Q : β → CoreWorld κ → Prop}
    (f : α → CoreCalls κ β) (q : CoreCalls κ α) (s : CoreWorld κ)
    (hq : q.Meets CoreOp.exec C I R P (Returns M) s)
    (hf : ∀ a t, M a t → (f a).Meets CoreOp.exec C I R P (Returns Q) t) :
    (q >>= f).Meets CoreOp.exec C I R P (Returns Q) s := by
  refine Process.meets_bind f q s (Process.meets_mono (fun _ _ h => h) (fun r t h => ?_) q s hq)
  cases r with
  | ok a => exact hf a t h
  | error e => exact trivial

/-- A segment, and how the function goes on from it. -/
theorem meets_sync {Q : Except CoreError α → CoreWorld κ → Prop} (core : κ)
    (f : Int → Memory → Memory) (g : Memory × Int → CoreCalls κ α) (s : CoreWorld κ)
    (h : ∀ t, I t → R s t → P (.sync core f) t ∧ ∀ now,
      (g (t.memory core, now)).Meets CoreOp.exec C I R P Q
        { t with memory := Function.update t.memory core (f now (t.memory core)) }) :
    (sync core f >>= g).Meets CoreOp.exec C I R P Q s := by
  intro t hI hst
  exact ⟨(h t hI hst).1, fun w _ => (h t hI hst).2 w.now⟩

/-- A request, and how the function goes on from its answer. -/
theorem meets_ask {Q : α → CoreWorld κ → Prop} (op : CoreOp κ) (g : op.Ret → CoreCalls κ α)
    (s : CoreWorld κ)
    (h : ∀ t, I t → R s t → P op t ∧ ∀ w, C op w t → ∀ r, (op.exec w t).1 = .ok r →
      (g r).Meets CoreOp.exec C I R P (Returns Q) (op.exec w t).2) :
    (ask op >>= g).Meets CoreOp.exec C I R P (Returns Q) s :=
  Process.meets_request op g s (fun t hI hst =>
    ⟨(h t hI hst).1, fun w hC => ⟨(h t hI hst).2 w hC, fun _ _ => trivial⟩⟩)

theorem meets_scanning {Q : β → CoreWorld κ → Prop} (r : Except SourceScanError α)
    (f : α → CoreCalls κ β) (s : CoreWorld κ)
    (h : ∀ a, (f a).Meets CoreOp.exec C I R P (Returns Q) s) :
    (scanning r >>= f).Meets CoreOp.exec C I R P (Returns Q) s :=
  Process.meets_ofExcept _ f s (fun a _ => h a) (fun _ _ => trivial)

end Operations

/-! ## A revocation by itself -/

section Guards

variable {κ : Type} [DecidableEq κ]

/-- A fingerprint is recorded as revoked, and no core runs. -/
structure Guard (fingerprint : String) (s : CoreWorld κ) : Prop where
  recorded : recorded s = some fingerprint
  stopped : ∀ core, (s.memory core).status ≠ .running

omit [DecidableEq κ] in
theorem recorded_stored (state : PersistedCoreState) (memory : κ → Memory) :
    recorded { persisted := some state.stored, memory := memory : CoreWorld κ } =
      state.revokedFingerprint := by
  rw [recorded, decode_encode, Option.bind_some]

/-- What a revocation by itself leaves, where no other core ran. -/
theorem revokeRest_guards (core : κ) (descriptor : Option SourceDescriptor)
    (credential : CredentialRecord) (s : CoreWorld κ)
    (hothers : ∀ core', core' ≠ core → (s.memory core').status ≠ .running) :
    (revokeRest core descriptor (some credential)).Meets CoreOp.exec (fun _ _ _ => True)
      (fun _ => True) Eq (fun _ _ => True)
      (Returns (fun _ t => Guard credential.fingerprint t)) s := by
  refine meets_ask _ _ s ?_
  rintro t - rfl
  refine ⟨trivial, fun w _ _ _ => ?_⟩
  rw [exec_quiet _ w s (fun _ _ h => by cases h) (fun _ h => by cases h)]
  refine meets_sync core _ _ s ?_
  rintro t - rfl
  refine ⟨trivial, fun now => meets_ask _ _ _ ?_⟩
  rintro t - rfl
  refine ⟨trivial, fun w _ r hr => ?_⟩
  rcases exec_ok _ w _ r hr with ⟨t, heffect, ht⟩
  have hstored := (Prod.mk.inj (Except.ok.inj heffect)).2
  rw [ht, ← hstored]
  refine meets_next _ _ _ (M := fun _ t => Guard credential.fingerprint t) ?_
    (fun _ _ h => h)
  refine meets_sync core _ _ _ ?_
  rintro t - rfl
  refine ⟨trivial, fun now => ?_⟩
  -- The copy says already that it is revoked, so nothing is stored once more.
  simp only [Function.update_self]
  refine meets_ask _ _ _ ?_
  rintro t - rfl
  refine ⟨trivial, fun w _ _ _ => ?_⟩
  rw [exec_quiet _ w _ (fun _ _ h => by cases h) (fun _ h => by cases h)]
  refine ⟨recorded_stored _ _, fun core' => ?_⟩
  by_cases hcore : core' = core
  · subst hcore
    simp only [Function.update_self, Memory.withStatus, ne_eq, reduceCtorEq, not_false_eq_true]
  · simp only [Function.update_of_ne hcore]
    exact hothers core' hcore

/-! ## Calls under a guard -/

/-- The copy of a core has the fingerprint. -/
def Remembers (fingerprint : String) (core : κ) (s : CoreWorld κ) : Prop :=
  (s.memory core).revokedFingerprint = some fingerprint

/-- An operation that reaches no file, lets no core run and keeps a copy that has the
    fingerprint. -/
def Quiet (fingerprint : String) : CoreOp κ → CoreWorld κ → Prop
  | .sync core f, s => ∀ now, (f now (s.memory core)).status ≠ .running ∧
      ((s.memory core).revokedFingerprint = some fingerprint →
        (f now (s.memory core)).revokedFingerprint = some fingerprint)
  | .files _, _ => False
  | _, _ => True

/-- What is asked of an operation under a guard. -/
def Heeds (fingerprint : String) (op : CoreOp κ) (w : Outside) : Prop :=
  op = .getCredential → ∀ credential, w.credential = some credential →
    credential.fingerprint = fingerprint

/-- What a function does under a guard: it stays quiet as long as custody presents no
    other fingerprint. -/
abbrev Guarded {α : Type} (fingerprint : String) (core : κ) (Q : α → CoreWorld κ → Prop)
    (q : CoreCalls κ α) (s : CoreWorld κ) : Prop :=
  q.Meets CoreOp.exec (fun op w _ => Heeds fingerprint op w) (Guard fingerprint)
    (fun s t => Remembers fingerprint core s → Remembers fingerprint core t) (Quiet fingerprint)
    (Returns Q) s

variable {fingerprint : String} {core : κ}

omit [DecidableEq κ] in
theorem withStatus_fingerprint (status : SourceCoreStatus) (m : Memory) :
    (m.withStatus status).revokedFingerprint = m.revokedFingerprint := by
  unfold Memory.revokedFingerprint Memory.withStatus
  cases m.state with
  | none => rfl
  | some state => rfl

theorem writeIfAny_guarded {α : Type} {Q : α → CoreWorld κ → Prop}
    (state : Option PersistedCoreState) (g : Unit → CoreCalls κ α) (s : CoreWorld κ)
    (h : ∀ t, Guarded fingerprint core Q (g ()) t) :
    Guarded fingerprint core Q (writeIfAny state >>= g) s := by
  cases state with
  | none => exact h s
  | some state =>
      refine meets_ask (.writeState state) g s (fun t _ _ => ⟨trivial, fun w _ _ _ => ?_⟩)
      exact h (CoreOp.exec (.writeState state) w t).2

theorem announce_guarded (status : SourceCoreStatus) (m : Memory) (s : CoreWorld κ) :
    Guarded fingerprint core (fun a _ => a = status) (announce status m) s :=
  writeIfAny_guarded _ _ s (fun t =>
    meets_ask _ _ t (fun _ _ _ => ⟨trivial, fun _ _ _ _ => rfl⟩))

theorem setStatus_guarded (status : SourceCoreStatus) (hstatus : status ≠ .running)
    (s : CoreWorld κ) :
    Guarded fingerprint core (fun a _ => a = status) (setStatus core status) s := by
  refine meets_sync core _ _ s (fun t _ _ => ⟨fun _ => ⟨hstatus, fun h => ?_⟩, fun _ => ?_⟩)
  · rw [withStatus_fingerprint]
    exact h
  · exact announce_guarded status _ _

omit [DecidableEq κ] in
/-- Custody presents the fingerprint that a core remembers, or nothing. -/
theorem startRefusal_remembers (m : Memory) (credential : Option CredentialRecord) (now : Int)
    (hm : m.revokedFingerprint = some fingerprint)
    (hc : ∀ c, credential = some c → c.fingerprint = fingerprint) :
    ∃ status, m.startRefusal credential now = some status ∧ status ≠ .running := by
  unfold Memory.startRefusal
  rw [hm]
  cases credential with
  | none => exact ⟨.unpaired, rfl, by decide⟩
  | some c =>
      have hsame : some fingerprint = (some c).map (·.fingerprint) := by
        rw [Option.map_some, hc c rfl]
      rw [if_pos ⟨Option.some_ne_none _, hsame⟩]
      exact ⟨.revoked, rfl, by decide⟩

/-- A start is refused. -/
theorem start_guarded (descriptor : Option SourceDescriptor) (s : CoreWorld κ) :
    Guarded fingerprint core (fun status _ => status ≠ .running) (start core descriptor) s := by
  refine meets_sync core _ _ s (fun t ht _ => ⟨fun _ => ⟨ht.stopped core, fun h => h⟩, fun _ => ?_⟩)
  dsimp only
  rw [if_neg (ht.stopped core)]
  refine meets_ask _ _ _ (fun t ht _ => ⟨trivial, fun w _ r hr => ?_⟩)
  -- What is stored has the fingerprint, and the core takes it over.
  rcases exec_ok _ w t r hr with ⟨t', heffect, -⟩
  have hread := (Prod.mk.inj (Except.ok.inj heffect)).1
  subst hread
  have hrecorded := ht.recorded
  rw [recorded] at hrecorded
  rcases Option.bind_eq_some_iff.mp hrecorded with ⟨saved, hsaved, hfingerprint⟩
  dsimp only
  rw [hsaved]
  refine meets_sync core _ _ _ (fun t ht _ => ⟨fun _ => ⟨ht.stopped core, fun _ => ?_⟩, fun _ => ?_⟩)
  · exact hfingerprint
  refine meets_ask _ _ _ (fun t ht hst => ⟨trivial, fun w hw r hr => ?_⟩)
  rcases exec_ok _ w t r hr with ⟨t', heffect, -⟩
  have hpresented := (Prod.mk.inj (Except.ok.inj heffect)).1
  subst hpresented
  rw [exec_quiet _ w t (fun _ _ h => by cases h) (fun _ h => by cases h)]
  have hremembers : Remembers fingerprint core t := by
    refine hst ?_
    unfold Remembers
    dsimp only
    rw [Function.update_self]
    exact hfingerprint
  refine meets_sync core _ _ t (fun t' ht' hst' => ?_)
  have hcopy := hst' hremembers
  refine ⟨fun now => ?_, fun now => ?_⟩
  · rcases startRefusal_remembers _ w.credential now hcopy (hw rfl) with ⟨status, hstatus, hne⟩
    dsimp only
    rw [hstatus]
    refine ⟨hne, fun h => ?_⟩
    dsimp only
    rw [withStatus_fingerprint]
    exact h
  · rcases startRefusal_remembers _ w.credential now hcopy (hw rfl) with ⟨status, hstatus, hne⟩
    dsimp only
    rw [hstatus]
    refine Process.meets_mono (fun _ _ h => h) (fun r _ h => ?_) _ _ (announce_guarded status _ _)
    cases r with
    | ok a => exact h ▸ hne
    | error e => exact trivial

theorem stop_guarded (s : CoreWorld κ) :
    Guarded fingerprint core (fun _ _ => True) (stop core) s := by
  refine meets_sync core _ _ s (fun t ht _ => ⟨fun _ => ?_, fun _ => ?_⟩)
  · dsimp only
    split
    · exact ⟨ht.stopped core, fun h => h⟩
    · refine ⟨(by decide : SourceCoreStatus.stopped ≠ .running), fun h => ?_⟩
      rw [withStatus_fingerprint]
      exact h
  · dsimp only
    refine Process.meets_ite (fun _ => trivial) (fun _ => ?_)
    refine writeIfAny_guarded _ _ _ (fun t t' _ _ => ⟨trivial, fun w _ => ?_⟩)
    cases (CoreOp.exec (.emit .stopped : CoreOp κ) w t').1 with
    | ok a => exact trivial
    | error e => exact trivial

/-- No core that is stopped gets past the first check. -/
theorem requireRunning_guarded (s : CoreWorld κ) :
    Guarded fingerprint core (fun _ _ => False) (requireRunning core) s := by
  refine meets_sync core _ _ s (fun t ht _ => ⟨fun _ => ⟨ht.stopped core, fun h => h⟩, fun _ => ?_⟩)
  dsimp only
  rw [if_pos (ht.stopped core)]
  exact trivial

theorem afterRunning_guarded {α : Type} (f : Unit → CoreCalls κ α) (s : CoreWorld κ) :
    Guarded fingerprint core (fun _ _ => False) (requireRunning core >>= f) s :=
  meets_next f _ s (requireRunning_guarded s) (fun _ _ h => absurd h id)

theorem revoke_guarded (descriptor : Option SourceDescriptor) (s : CoreWorld κ) :
    Guarded fingerprint core (fun _ _ => True) (revoke core descriptor) s := by
  refine meets_ask _ _ s (fun t _ _ => ⟨trivial, fun w hw r hr => ?_⟩)
  rcases exec_ok _ w t r hr with ⟨t', heffect, -⟩
  have hpresented := (Prod.mk.inj (Except.ok.inj heffect)).1
  subst hpresented
  refine meets_ask _ _ _ (fun t _ _ => ⟨trivial, fun w' _ _ _ => ?_⟩)
  refine meets_sync core _ _ _ (fun t ht _ => ⟨fun _ => ⟨ht.stopped core, fun h => ?_⟩, fun _ => ?_⟩)
  · -- The new copy has the fingerprint that is presented, or the old one.
    unfold Memory.revokedFingerprint at h ⊢
    rw [Option.bind_some]
    unfold Memory.revokedCopy
    dsimp only
    cases hcredential : w.credential with
    | some c => exact congrArg some (hw rfl c hcredential)
    | none =>
        rcases Option.bind_eq_some_iff.mp h with ⟨state, hstate, hfingerprint⟩
        unfold Memory.copy
        rw [hstate]
        exact hfingerprint
  · refine meets_ask _ _ _ (fun t _ _ => ⟨trivial, fun _ _ _ _ => ?_⟩)
    exact meets_next _ _ _ (setStatus_guarded .revoked (by decide) _) (fun _ _ _ => trivial)

end Guards

namespace Program

variable {ι κ : Type} [DecidableEq ι] [DecidableEq κ] (p : Program ι κ)

/-! ## The texts of the calls -/

def asks : CoreOp κ → Bool
  | .getCredential => true
  | _ => false

def reaches : CoreOp κ → Bool
  | .files _ => true
  | _ => false

section Texts

variable (core : κ) (descriptor : Option SourceDescriptor)

omit [DecidableEq κ] in
theorem ask_within {A : CoreOp κ → Prop} (op : CoreOp κ) (h : A op) :
    (ask op).Within A (fun _ => True) :=
  Process.within_request op h

omit [DecidableEq κ] in
theorem writeIfAny_within {A : CoreOp κ → Prop} (h : ∀ state, A (.writeState state))
    (state : Option PersistedCoreState) : (writeIfAny state).Within A (fun _ => True) := by
  cases state with
  | none => exact trivial
  | some state => exact ask_within _ (h state)

omit [DecidableEq κ] in
theorem setStatus_within {A : CoreOp κ → Prop} (hsync : ∀ f, A (.sync core f))
    (hwrite : ∀ state, A (.writeState state)) (hemit : ∀ status, A (.emit status))
    (status : SourceCoreStatus) : (setStatus core status).Within A (fun _ => True) :=
  Process.within_bind (ask_within _ (hsync _)) (fun _ _ =>
    Process.within_bind (writeIfAny_within hwrite _) (fun _ _ =>
      Process.within_bind (ask_within _ (hemit _)) (fun _ _ => trivial)))

omit [DecidableEq κ] in
/-- What is left of a revocation does not ask for a credential. -/
theorem revokeRest_within (credential : Option CredentialRecord) :
    (revokeRest core descriptor credential).Within (fun op => asks op = false)
      (fun _ => True) :=
  let quiet : CoreOp κ → Prop := fun op => asks op = false
  Process.within_bind (ask_within (A := quiet) _ rfl) (fun _ _ =>
    Process.within_bind (ask_within (A := quiet) _ rfl) (fun _ _ =>
      Process.within_bind (ask_within (A := quiet) _ rfl) (fun _ _ =>
        Process.within_bind (setStatus_within core (fun _ => rfl) (fun _ => rfl)
          (fun _ => rfl) _) (fun _ _ => trivial))))

omit [DecidableEq κ] in
theorem start_within {A : CoreOp κ → Prop} (hsync : ∀ f, A (.sync core f))
    (hread : A .readState) (hask : A .getCredential) (hwrite : ∀ state, A (.writeState state))
    (hemit : ∀ status, A (.emit status)) : (start core descriptor).Within A (fun _ => True) := by
  have hsets := setStatus_within core hsync hwrite hemit
  refine Process.within_bind (ask_within _ (hsync _)) (fun _ _ => ?_)
  refine Process.within_ite trivial ?_
  refine Process.within_bind (ask_within _ hread) (fun _ _ => ?_)
  refine Process.within_bind (ask_within _ (hsync _)) (fun _ _ => ?_)
  refine Process.within_bind (ask_within _ hask) (fun _ _ => ?_)
  refine Process.within_bind (ask_within _ (hsync _)) (fun _ _ => ?_)
  dsimp only
  split
  · exact Process.within_bind (writeIfAny_within hwrite _) (fun _ _ =>
      Process.within_bind (ask_within _ (hemit _)) (fun _ _ => trivial))
  · exact Process.within_bind (ask_within _ (hwrite _)) (fun _ _ => hsets .running)

omit [DecidableEq κ] in
theorem writeIfAny_returning (state : Option PersistedCoreState) :
    (writeIfAny state : CoreCalls κ Unit).Returning := by
  cases state with
  | none => exact trivial
  | some state => exact Process.returning_request _

omit [DecidableEq κ] in
theorem setStatus_returning (status : SourceCoreStatus) : (setStatus core status).Returning :=
  Process.returning_bind (Process.returning_request _) (fun _ =>
    Process.returning_bind (writeIfAny_returning _) (fun _ =>
      Process.returning_bind (Process.returning_request _) (fun _ => trivial)))

omit [DecidableEq κ] in
theorem start_returning : (start core descriptor).Returning := by
  refine Process.returning_bind (Process.returning_request _) (fun m => ?_)
  dsimp only
  split
  · exact trivial
  refine Process.returning_bind (Process.returning_request _) (fun _ => ?_)
  refine Process.returning_bind (Process.returning_request _) (fun _ => ?_)
  refine Process.returning_bind (Process.returning_request _) (fun _ => ?_)
  refine Process.returning_bind (Process.returning_request _) (fun _ => ?_)
  dsimp only
  split
  · exact Process.returning_bind (writeIfAny_returning _) (fun _ =>
      Process.returning_bind (Process.returning_request _) (fun _ => trivial))
  · exact Process.returning_bind (Process.returning_request _) (fun _ =>
      setStatus_returning core .running)

omit [DecidableEq κ] in
theorem replaceRest_within : (replaceRest core descriptor).Within
    (fun op => confirms op = false ∧ reaches op = false) (fun _ => True) := by
  let quiet : CoreOp κ → Prop := fun op => confirms op = false ∧ reaches op = false
  refine Process.within_bind (ask_within (A := quiet) _ ⟨rfl, rfl⟩) (fun _ _ => ?_)
  refine Process.within_bind (ask_within (A := quiet) _ ⟨rfl, rfl⟩) (fun _ _ => ?_)
  exact start_within _ _ (fun _ => ⟨rfl, rfl⟩) ⟨rfl, rfl⟩ ⟨rfl, rfl⟩ (fun _ => ⟨rfl, rfl⟩)
    (fun _ => ⟨rfl, rfl⟩)

omit [DecidableEq κ] in
theorem replaceRest_returning : (replaceRest core descriptor).Returning :=
  Process.returning_bind (Process.returning_request _) (fun _ =>
    Process.returning_bind (Process.returning_request _) (fun _ =>
      start_returning core descriptor))

end Texts

omit [DecidableEq ι] [DecidableEq κ] in
/-- A revocation asks custody first, and then no more. -/
theorem body_revoke (r : ι) (hr : p.request r = .revoke) :
    ∃ k, p.body r = .call .getCredential k ∧
      (∀ a, (k a).Within (fun op => asks op = false) (fun _ => True)) ∧
      ∀ credential, k (.ok credential) =
        (revokeRest (p.core r) (p.descriptor (p.core r)) credential >>= fun _ => pure .nothing) := by
  refine ⟨_, by unfold body; rw [hr]; rfl, fun a => ?_, fun credential => rfl⟩
  cases a with
  | error e => exact trivial
  | ok credential =>
      exact Process.within_bind (revokeRest_within _ _ _) (fun _ _ => trivial)

/-- A replacement that was confirmed and has not ended: it confirms nothing more, reaches
    no file, and returns if it is not disturbed. -/
structure Replacing (q : CoreCalls κ CoreAnswer) : Prop where
  left : q.Within (fun op => confirms op = false ∧ reaches op = false) (fun _ => True)
  returning : q.Returning
  open_ : ∀ r, q ≠ .done r

omit [DecidableEq ι] [DecidableEq κ] in
/-- A replacement ends at once, or is confirmed first. -/
theorem body_replaces (i : ι) (hi : (p.request i).replaces = true) :
    (∃ r, p.body i = .done r) ∨ ∃ record k, p.body i = .call (.confirmReplacement record) k ∧
      (∀ e, k (.error e) = .done (.error e)) ∧ ∀ u, Replacing (k (.ok u)) := by
  unfold body
  cases hrequest : p.request i with
  | replaceCredentials record =>
      unfold CoreCall.run replaceCredentials
      dsimp only
      by_cases hactive : record.status ≠ .active
      · rw [if_pos hactive]
        exact Or.inl ⟨_, rfl⟩
      · rw [if_neg hactive]
        refine Or.inr ⟨record, _, rfl, fun e => rfl, fun u => ?_⟩
        refine ⟨?_, ?_, fun r h => by cases h⟩
        · exact Process.within_bind (replaceRest_within _ _) (fun _ _ => trivial)
        · exact Process.returning_bind (replaceRest_returning _ _) (fun _ => trivial)
  | _ => rw [hrequest] at hi; cases hi

omit [DecidableEq ι] in
/-- What a call does under a guard: it reaches no file, and no start returns running. -/
theorem body_guarded (fingerprint : String) (i : ι) (hi : (p.request i).replaces = false)
    (s : CoreWorld κ) : Guarded fingerprint (p.core i)
      (fun a _ => p.request i = .start → a ≠ .status .running) (p.body i) s := by
  unfold body
  cases hrequest : p.request i with
  | start =>
      refine meets_next _ _ s (start_guarded _ s) (fun status t h _ heq => h ?_)
      exact CoreAnswer.status.inj heq
  | stop => exact meets_next _ _ s (stop_guarded s) (fun _ _ _ h => by cases h)
  | rescan _ | listMarkdown _ | stat _ =>
      exact meets_next _ _ s (afterRunning_guarded _ s) (fun _ _ h => absurd h id)
  | read _ | write _ _ =>
      refine meets_next _ _ s (M := fun _ _ => False) ?_ (fun _ _ h => absurd h id)
      refine meets_scanning _ _ s (fun path => ?_)
      exact meets_next _ _ s (afterRunning_guarded _ s) (fun _ _ h => absurd h id)
  | revoke => exact meets_next _ _ s (revoke_guarded _ s) (fun _ _ _ h => by cases h)
  | replaceCredentials record => rw [hrequest] at hi; cases hi

/-! ## While a credential is revoked -/

/-- A revocation that was presented its credential, and nothing else under way. -/
structure Revoking (r : ι) (fingerprint : String) (c : CorePool ι κ) : Prop where
  left : (c.calls r).Within (fun op => asks op = false) (fun _ => True)
  meets : (c.calls r).Meets CoreOp.exec (fun _ _ _ => True) (fun _ => True) Eq (fun _ _ => True)
    (Returns (fun _ t => Guard fingerprint t)) c.shared
  others : ∀ j, j ≠ r → p.Idle c j

theorem idle_step (c : CorePool ι κ) (e : CoreEvent ι) (i : ι) (h : p.Idle c i)
    (hmoved : i ≠ e.1 ∨ c.next i = none) : p.Idle (step c e) i := by
  rcases Process.stepOrCut_calls CoreOp.exec .terminated c e i with
    hsame | ⟨w, op, next, he, hcall, -⟩ | ⟨-, hcut⟩
  · rcases h with h | ⟨r, hr⟩
    · exact Or.inl (by rw [step, hsame, h])
    · exact Or.inr ⟨r, by rw [step, hsame, hr]⟩
  · rcases hmoved with hne | hnone
    · exact absurd (congrArg Prod.fst he).symm hne
    · simp only [Process.Pool.next, hcall, reduceCtorEq] at hnone
  · exact Or.inr ⟨_, hcut⟩

theorem revoking_step (r : ι) (fingerprint : String) (hr : p.request r = .revoke)
    (c : CorePool ι κ) (e : CoreEvent ι)
    (h : (∃ x, c.calls r = .done x) ∨ p.Revoking r fingerprint c) (he : p.Orderly c e) :
    (∃ x, (step c e).calls r = .done x) ∨ p.Revoking r fingerprint (step c e) := by
  rcases h with h | h
  · exact Or.inl (Process.stepOrCut_ended c e r h)
  by_cases hended : ∃ x, c.calls r = .done x
  · exact Or.inl (Process.stepOrCut_ended c e r hended)
  rcases e with ⟨i, _ | w⟩
  · by_cases hi : i = r
    · subst hi
      exact Or.inl ⟨_, Function.update_self _ _ _⟩
    · refine Or.inr ⟨?_, ?_, fun j hj => ?_⟩
      · exact Process.stepOrCut_within c (i, none) r h.left
      · have hsame : (step c (i, none)).calls r = c.calls r :=
          Function.update_of_ne (Ne.symm hi) _ _
        rw [hsame]
        exact h.meets
      · by_cases hji : j = i
        · subst hji
          exact Or.inr ⟨_, Function.update_self _ _ _⟩
        · exact p.idle_step c (i, none) j (h.others j hj) (Or.inl hji)
  · cases hcall : c.calls i with
    | done x =>
        have hsame : step c (i, some w) = c := Process.Pool.step_done c (i, w) x hcall
        rw [hsame]
        exact Or.inr h
    | call op next =>
        have hnext : c.next i = some op := by simp only [Process.Pool.next, hcall]
        by_cases hi : i = r
        · subst hi
          have hstep := Process.Pool.step_call CoreOp.exec c (i, w) op next hcall
          refine Or.inr ⟨Process.stepOrCut_within c (i, some w) i h.left, ?_, fun j hj => ?_⟩
          · have hmeets := h.meets
            rw [hcall] at hmeets
            simp only [step, Process.stepOrCut, hstep, Function.update_self]
            exact (hmeets c.shared trivial rfl).2 w trivial
          · exact p.idle_step c (i, some w) j (h.others j hj) (Or.inl hj)
        · -- No other call steps: the revocation has begun and not ended.
          have halone := (he op hnext).1 r (Ne.symm hi)
          rw [hr] at halone
          rcases halone (by simp only [CoreCall.exclusive, decide_true, Bool.true_or,
            Bool.or_true]) with hbody | hdone
          · rcases p.body_revoke r hr with ⟨k, hk, -, -⟩
            have hleft := h.left
            rw [hbody, hk] at hleft
            exact absurd hleft.1 (by simp only [asks, Bool.true_eq_false, not_false_eq_true])
          · exact absurd hdone hended

/-! ## While a fingerprint is recorded -/

/-- What is asked of an operation under a guard. A replacement is only about to be
    confirmed. -/
def Keeps (fingerprint : String) (i : ι) (op : CoreOp κ) (w : Outside) (_ : CoreWorld κ) : Prop :=
  Preserves (p.request i) op w fingerprint ∧ ((p.request i).replaces = true → confirms op = true)

/-- What a call may do under a guard. -/
def Allowed (fingerprint : String) (i : ι) (op : CoreOp κ) (s : CoreWorld κ) : Prop :=
  (p.request i).replaces = true ∨ Quiet fingerprint op s

/-- No start returns running, of those that had not returned. -/
def Refused (returned : ι → Prop) (i : ι) (r : Except CoreError CoreAnswer) (_ : CoreWorld κ) :
    Prop :=
  ¬ returned i → p.request i = .start → r ≠ .ok (.status .running)

/-- The fingerprint is recorded, and no replacement is under way. -/
structure Free (fingerprint : String) (returned : ι → Prop) (c : CorePool ι κ) : Prop where
  sound : Process.Pool.SoundEach CoreOp.exec (p.Keeps fingerprint) (Guard fingerprint)
    (fun i s t => Remembers fingerprint (p.core i) s → Remembers fingerprint (p.core i) t)
    (p.Allowed fingerprint) (p.Refused returned) c
  replacements : ∀ i, (p.request i).replaces = true → p.Idle c i

/-- A replacement is under way, and nothing else. -/
structure Busy (i : ι) (c : CorePool ι κ) : Prop where
  request : (p.request i).replaces = true
  replacing : Replacing (c.calls i)
  others : ∀ j, j ≠ i → p.Idle c j

omit [DecidableEq ι] in
/-- Where nothing is under way and a fingerprint is recorded, it is guarded. -/
theorem free_of_idle (fingerprint : String) (c : CorePool ι κ) (hc : Guard fingerprint c.shared)
    (hidle : ∀ i, p.Idle c i) : p.Free fingerprint (fun i => c.result i ≠ none) c := by
  refine ⟨⟨hc, fun i => ⟨c.shared, id, ?_⟩⟩, fun i _ => hidle i⟩
  rcases hidle i with hbody | ⟨r, hr⟩
  · rw [hbody]
    cases hi : (p.request i).replaces with
    | true =>
        refine Process.meets_any (fun _ _ => Or.inl hi) (fun r t _ hstart => ?_) _ _
        rw [hstart] at hi
        cases hi
    | false =>
        have hguarded := p.body_guarded fingerprint i hi c.shared
        have hmono : (p.body i).Meets CoreOp.exec (fun op w _ => Heeds fingerprint op w)
            (Guard fingerprint)
            (fun s t => Remembers fingerprint (p.core i) s → Remembers fingerprint (p.core i) t)
            (p.Allowed fingerprint i) (p.Refused (fun i => c.result i ≠ none) i) c.shared := by
          refine Process.meets_mono (fun _ _ h => Or.inr h) ?_ _ _ hguarded
          rintro r t h - hstart rfl
          exact h hstart rfl
        refine Process.meets_condition (fun op w s h => ?_) _ _ hmono
        intro hop
        have hpreserves := h.1
        rw [hop] at hpreserves
        exact hpreserves
  · rw [hr]
    intro hopen
    exact absurd (by simp only [Process.Pool.result, hr, ne_eq, reduceCtorEq, not_false_eq_true])
      hopen

omit [DecidableEq ι] in
/-- A guard survives an operation that keeps what is recorded. -/
theorem exec_guard (fingerprint : String) (i : ι) (op : CoreOp κ) (w : Outside) (s : CoreWorld κ)
    (hs : Guard fingerprint s) (hop : p.Allowed fingerprint i op s)
    (hw : p.Keeps fingerprint i op w s) :
    Guard fingerprint (op.exec w s).2 ∧ ∀ core, Remembers fingerprint core s →
      Remembers fingerprint core (op.exec w s).2 := by
  have hquiet : (∀ core f, op ≠ .sync core f) → (∀ state, op ≠ .writeState state) →
      Guard fingerprint (op.exec w s).2 ∧ ∀ core, Remembers fingerprint core s →
        Remembers fingerprint core (op.exec w s).2 := by
    intro hsync hwrite
    rw [exec_quiet op w s hsync hwrite]
    exact ⟨hs, fun _ h => h⟩
  cases op with
  | sync core f =>
      rcases hop with hreplaces | hop
      · exact absurd (hw.2 hreplaces) (by simp only [confirms, Bool.false_eq_true,
          not_false_eq_true])
      rw [exec_sync]
      refine ⟨⟨hs.recorded, fun core' => ?_⟩, fun core' h => ?_⟩
      · dsimp only
        by_cases hcore : core' = core
        · rw [hcore, Function.update_self]
          exact (hop w.now).1
        · rw [Function.update_of_ne hcore]
          exact hs.stopped core'
      · unfold Remembers at h ⊢
        dsimp only
        by_cases hcore : core' = core
        · rw [hcore, Function.update_self]
          rw [hcore] at h
          exact (hop w.now).2 h
        · rw [Function.update_of_ne hcore]
          exact h
  | writeState state =>
      have hstate : state.revokedFingerprint = some fingerprint := by
        rcases hw.1 with hreplaces | hstate
        · exact absurd (hw.2 hreplaces) (by simp only [confirms, Bool.false_eq_true,
            not_false_eq_true])
        · exact hstate
      rcases exec_write_cases state w s with hsame | hwritten
      · rw [hsame]
        exact ⟨hs, fun _ h => h⟩
      · rw [hwritten]
        exact ⟨⟨by rw [recorded_stored, hstate], hs.stopped⟩, fun _ h => h⟩
  | _ => exact hquiet (fun _ _ h => by cases h) (fun _ h => by cases h)

omit [DecidableEq ι] [DecidableEq κ] in
/-- A replacement that is under way has begun and not ended. -/
theorem not_idle_of_replacing (c : CorePool ι κ) (i : ι) (hi : (p.request i).replaces = true)
    (h : Replacing (c.calls i)) : ¬ p.Idle c i := by
  rintro (hbody | ⟨r, hr⟩)
  · rw [hbody] at h
    rcases p.body_replaces i hi with ⟨r, hr⟩ | ⟨record, k, hk, -, -⟩
    · exact h.open_ r hr
    · have hleft := h.left
      rw [hk] at hleft
      exact absurd hleft.1.1 (by simp only [confirms, Bool.true_eq_false, not_false_eq_true])
  · exact h.open_ r hr

/-- A replacement that is under way is let come to its end, and does not come to it
    without replacing. -/
theorem busy_step (c : CorePool ι κ) (e : CoreEvent ι) (i : ι) (h : p.Busy i c)
    (he : p.Orderly c e) (hno : ¬ p.Replaces c e) : p.Busy i (step c e) := by
  have hbusy := p.not_idle_of_replacing c i h.request h.replacing
  rcases e with ⟨j, _ | w⟩
  · by_cases hj : j = i
    · subst hj
      exact absurd (he h.request) hbusy
    · have hsame : (step c (j, none)).calls i = c.calls i := Function.update_of_ne (Ne.symm hj) _ _
      refine ⟨h.request, by rw [hsame]; exact h.replacing, fun j' hj' => ?_⟩
      by_cases hjj : j' = j
      · subst hjj
        exact Or.inr ⟨_, Function.update_self _ _ _⟩
      · exact p.idle_step c (j, none) j' (h.others j' hj') (Or.inl hjj)
  · cases hcall : c.calls j with
    | done x =>
        have hsame : step c (j, some w) = c := Process.Pool.step_done c (j, w) x hcall
        rw [hsame]
        exact h
    | call op next =>
        have hnext : c.next j = some op := by simp only [Process.Pool.next, hcall]
        have hfits := he op hnext
        by_cases hj : j = i
        · subst hj
          have hreplacing := h.replacing
          rw [hcall] at hreplacing
          -- It is answered, since it is not disturbed.
          have hanswered := hfits.2.undisturbed h.request hreplacing.left.1.1
          rcases exec_answered op w c.shared hanswered with ⟨r, hr⟩
          have hstep : (step c (j, some w)).calls j = next (.ok r) := by
            have hpool := Process.Pool.step_call CoreOp.exec c (j, w) op next hcall
            simp only [step, Process.stepOrCut, hpool, Function.update_self, hr]
          refine ⟨h.request, ⟨?_, ?_, fun x hx => ?_⟩, fun j' hj' => ?_⟩
          · exact Process.stepOrCut_within c (j, some w) j h.replacing.left
          · rw [hstep]
            exact hreplacing.returning r
          · have hreturns := hreplacing.returning r
            rw [← hstep, hx] at hreturns
            cases x with
            | error e => exact hreturns
            | ok a =>
                refine hno ⟨h.request, ?_, a, ?_⟩
                · simp only [Process.Pool.result, hcall]
                · simp only [Process.Pool.result, hx]
          · exact p.idle_step c (j, some w) j' (h.others j' hj') (Or.inl hj')
        · refine absurd (hfits.1 i (Ne.symm hj) ?_) hbusy
          simp only [CoreCall.exclusive, h.request, Bool.or_true]

omit [DecidableEq ι] in
/-- A replacement that takes a step under a guard is about to be confirmed. -/
theorem replacement_begins (fingerprint : String) (returned : ι → Prop) (c : CorePool ι κ)
    (i : ι) (op : CoreOp κ) (next : Except CoreError op.Ret → CoreCalls κ CoreAnswer)
    (h : p.Free fingerprint returned c) (hi : (p.request i).replaces = true)
    (hcall : c.calls i = .call op next) :
    confirms op = true ∧ (∀ e, next (.error e) = .done (.error e)) ∧
      ∀ u, Replacing (next (.ok u)) := by
  rcases h.replacements i hi with hbody | ⟨r, hr⟩
  · rcases p.body_replaces i hi with ⟨r, hr⟩ | ⟨record, k, hk, herror, hok⟩
    · rw [hcall, hr] at hbody
      cases hbody
    · rw [hcall, hk] at hbody
      cases hbody
      exact ⟨rfl, herror, hok⟩
  · rw [hcall] at hr
    cases hr

omit [DecidableEq ι] in
/-- What is asked of a step gives what is asked of an operation under a guard. -/
theorem free_takes (fingerprint : String) (returned : ι → Prop) (c : CorePool ι κ) (i : ι)
    (w : Outside) (h : p.Free fingerprint returned c) (he : p.Orderly c (i, some w)) :
    Process.Pool.TakesEach (p.Keeps fingerprint) c (i, w) := by
  intro op hop
  have hfits := (he op hop).2
  refine ⟨hfits.preserves fingerprint h.sound.1.recorded, fun hi => ?_⟩
  cases hcall : c.calls i with
  | done r => simp only [Process.Pool.next, hcall, reduceCtorEq] at hop
  | call op' next =>
      simp only [Process.Pool.next, hcall, Option.some.injEq] at hop
      subst hop
      exact (p.replacement_begins fingerprint returned c i op' next h hi hcall).1

section

variable (fingerprint : String) (returned : ι → Prop) (c : CorePool ι κ)

/-- Under a guard the calls stay within their bounds. -/
theorem free_sound (e : CoreEvent ι) (h : p.Free fingerprint returned c) (he : p.Orderly c e) :
    Process.Pool.SoundEach CoreOp.exec (p.Keeps fingerprint) (Guard fingerprint)
      (fun i s t => Remembers fingerprint (p.core i) s → Remembers fingerprint (p.core i) t)
      (p.Allowed fingerprint) (p.Refused returned) (step c e) := by
  refine Process.stepOrCut_sound (fun _ _ _ h => h) (fun _ _ _ _ h h' => fun hs => h' (h hs))
    (fun i op w s hs hop hw => ?_) (fun _ _ _ _ => fun h => by cases h) c e h.sound ?_
  · have hkept := p.exec_guard fingerprint i op w s hs hop hw
    exact ⟨hkept.1, fun j _ => hkept.2 (p.core j)⟩
  · intro w hw
    rcases e with ⟨i, o⟩
    have ho : o = some w := hw
    subst ho
    exact p.free_takes fingerprint returned c i w h he

/-- A step under a guard leaves it, or begins a replacement, and then nothing else is
    under way. -/
theorem free_step (e : CoreEvent ι) (h : p.Free fingerprint returned c) (he : p.Orderly c e) :
    p.Free fingerprint returned (step c e) ∨ ∃ i, p.Busy i (step c e) := by
  have hsound := p.free_sound fingerprint returned c e h he
  by_cases hmoves : (p.request e.1).replaces = true ∧ c.next e.1 ≠ none
  · rcases hmoves with ⟨hi, hmoves⟩
    rcases e with ⟨i, _ | w⟩
    · refine Or.inl ⟨hsound, fun j hj => ?_⟩
      by_cases hji : j = i
      · subst hji
        exact Or.inr ⟨_, Function.update_self _ _ _⟩
      · exact p.idle_step c (i, none) j (h.replacements j hj) (Or.inl hji)
    · cases hcall : c.calls i with
      | done r => exact absurd (by simp only [Process.Pool.next, hcall]) hmoves
      | call op next =>
          have hnext : c.next i = some op := by simp only [Process.Pool.next, hcall]
          rcases p.replacement_begins fingerprint returned c i op next h hi hcall with
            ⟨-, herror, hok⟩
          have hpool := Process.Pool.step_call CoreOp.exec c (i, w) op next hcall
          have hstep : (step c (i, some w)).calls i = next (op.exec w c.shared).1 := by
            simp only [step, Process.stepOrCut, hpool, Function.update_self]
          cases hr : (op.exec w c.shared).1 with
          | error x =>
              -- It was not confirmed, so it has failed.
              refine Or.inl ⟨hsound, fun j hj => ?_⟩
              by_cases hji : j = i
              · subst hji
                exact Or.inr ⟨_, by rw [hstep, hr, herror]⟩
              · exact p.idle_step c (i, some w) j (h.replacements j hj) (Or.inl hji)
          | ok u =>
              refine Or.inr ⟨i, hi, by rw [hstep, hr]; exact hok u, fun j hj => ?_⟩
              refine p.idle_step c (i, some w) j ((he op hnext).1 j hj ?_) (Or.inl hj)
              simp only [CoreCall.exclusive, hi, Bool.or_true, Bool.true_or]
  · refine Or.inl ⟨hsound, fun j hj => p.idle_step c e j (h.replacements j hj) ?_⟩
    by_cases hje : j = e.1
    · refine Or.inr (by_contra fun hnext => hmoves ?_)
      rw [hje] at hj hnext
      exact ⟨hj, hnext⟩
    · exact Or.inl hje

/-- A guard survives a run in which no replacement completes, or one is under way. -/
theorem guarded_run (es : List (CoreEvent ι)) (h : p.Free fingerprint returned c)
    (horderly : Run.Along p.Orderly step c es)
    (hno : Run.Along (fun c e => ¬ p.Replaces c e) step c es) :
    p.Free fingerprint returned (run c es) ∨ ∃ i, p.Busy i (run c es) := by
  refine Run.runFrom_invariant step
    (fun c => p.Free fingerprint returned c ∨ ∃ i, p.Busy i c) (fun c e hc he => ?_) c es
    (Or.inl h) (Run.along_and step c es horderly hno)
  rcases hc with hfree | ⟨i, hbusy⟩
  · exact p.free_step fingerprint returned c e hfree he.1
  · exact Or.inr ⟨i, p.busy_step c e i hbusy he.1 he.2⟩

/-- Neither under a guard nor while a replacement is under way is a file reached or does a
    start return running. -/
theorem blocked_of_guarded (i : ι) (w : Outside) (h : p.Free fingerprint returned c ∨ ∃ j, p.Busy j c)
    (hreturned : ∀ i, returned i → ∃ r, c.calls i = .done r)
    (he : p.Orderly c (i, some w)) : p.Blocked c (i, some w) := by
  rcases h with h | ⟨j, h⟩
  · refine ⟨fun access hnext => ?_, fun hstart hopen hends => ?_⟩
    · have hallowed := Process.Pool.takes_allowed c i _ h.sound hnext
      have hkeeps := p.free_takes fingerprint returned c i w h he _ hnext
      rcases hallowed with hi | hquiet
      · exact absurd (hkeeps.2 hi) (by simp only [confirms, Bool.false_eq_true,
          not_false_eq_true])
      · exact hquiet
    · have hrefused := Process.Pool.ends_of_sound c (i, w) _ h.sound
        (p.free_takes fingerprint returned c i w h he) hopen hends
      refine hrefused (fun hi => ?_) hstart rfl
      rcases hreturned i hi with ⟨r, hr⟩
      simp only [Process.Pool.result, hr, reduceCtorEq] at hopen
  · have hbusy := p.not_idle_of_replacing c j h.request h.replacing
    -- No call but the replacement has a step to take.
    have honly : ∀ op, c.next i = some op → i = j := by
      intro op hnext
      by_contra hij
      refine hbusy ((he op hnext).1 j (Ne.symm hij) ?_)
      simp only [CoreCall.exclusive, h.request, Bool.or_true]
    refine ⟨fun access hnext => ?_, fun hstart hopen hends => ?_⟩
    · have hij := honly _ hnext
      subst hij
      have hleft := Process.Pool.next_within c i _ h.replacing.left hnext
      exact absurd hleft.2 (by simp only [reaches, Bool.true_eq_false, not_false_eq_true])
    · cases hcall : c.calls i with
      | done r =>
          have hopen' : c.result i = none := hopen
          simp only [Process.Pool.result, hcall, reduceCtorEq] at hopen'
      | call op next =>
          have hij := honly op (by simp only [Process.Pool.next, hcall])
          subst hij
          have hrequest := h.request
          have hstart' : p.request i = .start := hstart
          rw [hstart'] at hrequest
          cases hrequest

end

/-! ## After a revocation -/

/-- A revocation that has begun does not ask custody once more. -/
theorem unasked_step (r : ι) (hr : p.request r = .revoke) (c : CorePool ι κ) (e : CoreEvent ι)
    (h : c.calls r = p.body r ∨ (c.calls r).Within (fun op => asks op = false) (fun _ => True)) :
    (step c e).calls r = p.body r ∨
      ((step c e).calls r).Within (fun op => asks op = false) (fun _ => True) := by
  rcases h with hbody | hleft
  · rcases Process.stepOrCut_calls CoreOp.exec .terminated c e r with
      hsame | ⟨w, op, next, -, hcall, hstep⟩ | ⟨-, hcut⟩
    · exact Or.inl (by rw [step, hsame, hbody])
    · rcases p.body_revoke r hr with ⟨k, hk, hleft, -⟩
      refine Or.inr ?_
      rw [step, hstep]
      rw [hcall, hk] at hbody
      cases hbody
      exact hleft _
    · exact Or.inr (by rw [step, hcut]; exact trivial)
  · exact Or.inr (Process.stepOrCut_within c e r hleft)

/-- A revocation that is presented its credential goes on by itself. -/
theorem revoking_begins (c : CorePool ι κ) (r : ι) (w : Outside) (credential : CredentialRecord)
    (hr : p.request r = .revoke) (hasks : c.next r = some .getCredential)
    (hbegun : c.calls r = p.body r ∨
      (c.calls r).Within (fun op => asks op = false) (fun _ => True))
    (hw : w.outcome = .answered) (hcredential : w.credential = some credential)
    (he : p.Orderly c (r, some w)) :
    p.Revoking r credential.fingerprint (step c (r, some w)) := by
  have hbody : c.calls r = p.body r := by
    rcases hbegun with hbody | hleft
    · exact hbody
    · have hnot := Process.Pool.next_within c r _ hleft hasks
      exact absurd hnot (by simp only [asks, Bool.true_eq_false, not_false_eq_true])
  rcases p.body_revoke r hr with ⟨k, hk, hleft, hrest⟩
  have hcall : c.calls r = .call .getCredential k := hbody.trans hk
  have hfits := he _ hasks
  have hpool := Process.Pool.step_call CoreOp.exec c (r, w) _ k hcall
  have hexec : CoreOp.exec .getCredential w c.shared = (.ok (some credential), c.shared) := by
    simp only [CoreOp.exec, CoreOp.outcome, CoreOp.effect, hw, hcredential, Batch.send]
  have hshared : (step c (r, some w)).shared = c.shared := by
    simp only [step, Process.stepOrCut, hpool, hexec]
  have hstep : (step c (r, some w)).calls r = k (.ok (some credential)) := by
    simp only [step, Process.stepOrCut, hpool, Function.update_self, hexec]
  refine ⟨by rw [hstep]; exact hleft _, ?_, fun j hj => ?_⟩
  · rw [hstep, hrest, hshared]
    exact meets_next _ _ _ (revokeRest_guards _ _ credential c.shared (hfits.2.others hr))
      (fun _ _ h => h)
  · refine p.idle_step c (r, some w) j (hfits.1 j hj ?_) (Or.inl hj)
    simp only [CoreCall.exclusive, hr, decide_true, Bool.true_or]

/-- After a revocation its fingerprint is recorded, no core runs and nothing is under
    way. -/
theorem guard_of_revokes (c : CorePool ι κ) (r : ι) (w₀ w₁ : Outside)
    (between : List (CoreEvent ι)) (credential : CredentialRecord)
    (hbegun : c.calls r = p.body r ∨
      (c.calls r).Within (fun op => asks op = false) (fun _ => True))
    (h : p.Revokes c r w₀ between w₁ credential)
    (horderly : Run.Along p.Orderly step c ((r, some w₀) :: between ++ [(r, some w₁)])) :
    Guard credential.fingerprint (run c ((r, some w₀) :: between ++ [(r, some w₁)])).shared ∧
      ∀ i, p.Idle (run c ((r, some w₀) :: between ++ [(r, some w₁)])) i := by
  have hbefore := ((Run.along_append _ _ _ _ _).mp horderly).1
  have hfirst := p.revoking_begins c r w₀ credential h.request h.asks hbegun h.answered
    h.presented hbefore.1
  have hcompletes := h.completes
  rw [run, Run.runFrom_concat] at hcompletes ⊢
  -- It has not ended before the last step, so it was under way by itself until then.
  have hmid := Run.runFrom_invariant step
    (fun c => (∃ x, c.calls r = .done x) ∨ p.Revoking r credential.fingerprint c)
    (fun c e hc he => p.revoking_step r credential.fingerprint h.request c e hc he)
    (step c (r, some w₀)) between (Or.inr hfirst) hbefore.2
  rw [← Run.runFrom_cons] at hmid
  have hwaits : (Run.runFrom step c ((r, some w₀) :: between)).result r = none := h.waits
  generalize Run.runFrom step c ((r, some w₀) :: between) = d at hmid hwaits hcompletes ⊢
  rcases hmid with ⟨x, hx⟩ | hrevoking
  · simp only [Process.Pool.result, hx, reduceCtorEq] at hwaits
  have hdone := Process.Pool.calls_of_result _ _ _ hcompletes
  refine ⟨?_, fun i => ?_⟩
  · cases hcall : d.calls r with
    | done x => simp only [Process.Pool.result, hcall, reduceCtorEq] at hwaits
    | call op next =>
        have hpool := Process.Pool.step_call CoreOp.exec d (r, w₁) op next hcall
        have hmeets := hrevoking.meets
        rw [hcall] at hmeets
        have hends := (hmeets d.shared trivial rfl).2 w₁ trivial
        simp only [step, Process.stepOrCut, hpool, Function.update_self] at hdone ⊢
        rw [hdone] at hends
        exact hends
  · by_cases hi : i = r
    · subst hi
      exact Or.inr ⟨_, hdone⟩
    · exact p.idle_step d (r, some w₁) i (hrevoking.others i hi) (Or.inl hi)

/-- Custody presents an active credential, and every request is answered. -/
def presenting : Outside :=
  { outcome := .answered
    now := 0
    credential := some {
      sourceId := "source-1", fingerprint := "fp-1", status := .active, issuedAt := 1
      expiresAt := none }
    listing := []
    entry := none
    contents := [] }

/-- A core is revoked, and another one is started after it. -/
def restarted : Program Bool Bool :=
  { tables := UnicodeTables.plain
    descriptor := fun _ => none
    core := id
    request := fun i => if i then .start else .revoke }

def restartedRun : List (CoreEvent Bool) :=
  List.replicate 6 (false, some presenting) ++ List.replicate 6 (true, some presenting)

theorem restarted_alone (c : CorePool Bool Bool) (i : Bool) (h : restarted.Idle c !i) :
    restarted.Alone c i := by
  intro j hj _
  rw [Bool.eq_not.mpr hj]
  exact h

/-- A revocation by itself and a start after it make an orderly run. -/
theorem restarted_orderly :
    Run.Along restarted.Orderly step (restarted.begin none) restartedRun := by
  have hfits : Run.Along (fun c e => ∀ w ∈ e.2, Process.Pool.TakesEach restarted.Fits c (e.1, w))
      step (restarted.begin none) restartedRun := by
    decide +kernel
  have halone : Run.Along (fun c e => restarted.Alone c e.1) step (restarted.begin none)
      restartedRun := by
    have hunbegun := fun c h => restarted_alone c false (Or.inl h)
    have hended := fun c r h => restarted_alone c true (Or.inr ⟨r, h⟩)
    exact ⟨hunbegun _ rfl, hunbegun _ rfl, hunbegun _ rfl, hunbegun _ rfl, hunbegun _ rfl,
      hunbegun _ rfl, hended _ _ rfl, hended _ _ rfl, hended _ _ rfl, hended _ _ rfl,
      hended _ _ rfl, hended _ _ rfl, trivial⟩
  have hboth := Run.along_and step _ restartedRun hfits halone
  have hsome : ∀ e ∈ restartedRun, e.2 ≠ none := by decide +kernel
  refine Run.along_mono step (fun c e h => ?_) _ _ (Run.along_and_mem step _ _ hboth hsome)
  rcases e with ⟨i, _ | w⟩
  · exact absurd rfl h.2
  · exact fun op hop => ⟨h.1.2, h.1.1 w rfl op hop⟩

/-- A core that runs, one that is revoked, and the first again, which is stopped and
    started. -/
def twoCores : Program (Fin 4) Bool :=
  { tables := UnicodeTables.plain
    descriptor := fun _ => none
    core := fun i => i = 1
    request := fun i => if i = 1 then .revoke else if i = 2 then .stop else .start }

def twoCoresBefore : List (CoreEvent (Fin 4)) :=
  List.replicate 8 (0, some presenting)

def twoCoresRevocation : List (CoreEvent (Fin 4)) :=
  (1, some presenting) :: List.replicate 4 (1, some presenting) ++ [(1, some presenting)]

def twoCoresLater : List (CoreEvent (Fin 4)) :=
  List.replicate 3 (2, some presenting) ++ List.replicate 7 (3, some presenting)

omit [DecidableEq ι] [DecidableEq κ] in
theorem getCredential_of_asks (c : CorePool ι κ) (i : ι)
    (h : (c.next i).map asks = some true) : c.next i = some .getCredential := by
  rcases Option.map_eq_some_iff.mp h with ⟨op, hop, hasks⟩
  cases op with
  | getCredential => exact hop
  | _ => cases hasks

end Program

end Mdevolved.Source
