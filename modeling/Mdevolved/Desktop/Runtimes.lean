import Mdevolved.Desktop.Controller

/-!
# The Runtimes of the Desktop

Any number of methods of the controller, and whatever watchers report, in any order. The
controller knows one runtime. Which ones run it does not know: a runtime that runs and that
it gives up for another one goes on.

So a runtime that runs is that of the controller, at every moment, exactly if whenever the
controller takes another runtime or none, the one it has does not run. Then no runtime runs
once it is revoked.

## Main definitions

* `Held`: A runtime that runs is that of the controller.
* `DesktopOp.Spares`: No runtime that runs is given up.
* `Careful`, `Quiet`: What is asked of a step.
* `Disconnected`: The controller is revoked.

## Theorems

* `held_after`: What an operation keeps.
* `revoke_disconnects`: How a revocation ends.
* `runtimes_of_run`: When runtimes are held, and what a revocation leaves.
* `paired_again`: A run in which a runtime is given up.
-/

namespace Mdevolved.Desktop

open Process

/-- A runtime that runs is that of the controller, so that there is one at most. -/
structure Held (s : World) : Prop where
  current : ∀ id, s.running id = true → s.controller.runtime = some id
  one : ∀ id id', s.running id = true → s.running id' = true → id = id'

theorem held_iff (s : World) :
    Held s ↔ ∀ id, s.running id = true → s.controller.runtime = some id := by
  refine ⟨fun h => h.current, fun h => ⟨h, fun id id' hid hid' => ?_⟩⟩
  have hsame := (h id hid).symm.trans (h id' hid')
  exact Option.some.inj hsame

/-- Whether an operation leaves a runtime to the controller. -/
def DesktopOp.keeps : DesktopOp → Nat → Bool
  | adopt id, held => id = held
  | clear _, _ => false
  | _, _ => true

/-- No runtime that runs is given up. -/
def DesktopOp.Spares (op : DesktopOp) (s : World) : Prop :=
  ∀ id ∈ s.controller.runtime, s.running id = true → op.keeps id = true

/-! ## What operations do to runtimes -/

section

variable (op : DesktopOp) (w : Outside) (s : World)

/-- The runtimes after one of them has changed. -/
theorem runtimes_setRuntime (id id' : Nat) (f : Runtime → Runtime) :
    (s.setRuntime id f).runtimes id' = if id' = id then f (s.runtimes id) else s.runtimes id' := by
  unfold World.setRuntime
  by_cases hid : id' = id
  · rw [if_pos hid, hid]
    exact Function.update_self _ _ _
  · rw [if_neg hid]
    exact Function.update_of_ne hid _ _

/-- A change that starts no runtime leaves those running that did. -/
theorem running_setRuntime (id id' : Nat) (f : Runtime → Runtime)
    (hf : ∀ r, (f r).started = r.started ∧ (r.stopped = true → (f r).stopped = true))
    (h : (s.setRuntime id f).running id' = true) : s.running id' = true := by
  unfold World.running at h ⊢
  rw [runtimes_setRuntime] at h
  by_cases hid : id' = id
  · rw [if_pos hid, Bool.and_eq_true, (hf _).1, Bool.not_eq_true'] at h
    rw [hid, Bool.and_eq_true, Bool.not_eq_true']
    refine ⟨h.1, ?_⟩
    cases hstopped : (s.runtimes id).stopped with
    | false => rfl
    | true => rw [(hf _).2 hstopped] at h; cases h.2
  · rwa [if_neg hid] at h

/-- Only a start makes a runtime run. -/
theorem after_running (id : Nat)
    (h : (op.after w s).running id = true) : s.running id = true ∨ op = .adopt id := by
  cases op with
  | adopt id' =>
      by_cases hid : id = id'
      · exact Or.inr (by rw [hid])
      · have hruntime := runtimes_setRuntime
          { s with controller := { s.controller with runtime := some id' } } id' id
          (fun r => { r with started := true })
        rw [if_neg hid] at hruntime
        unfold World.running at h ⊢
        rw [DesktopOp.after, hruntime] at h
        exact Or.inl h
  | stopCurrent =>
      simp only [DesktopOp.after] at h
      split at h
      · exact Or.inl h
      · refine Or.inl (running_setRuntime s _ id _ (fun r => ?_) h)
        exact ⟨rfl, fun _ => rfl⟩
  | createSyncRuntime root =>
      simp only [DesktopOp.after] at h
      split at h <;> exact Or.inl h
  | emit id' status =>
      simp only [DesktopOp.after] at h
      split at h <;> exact Or.inl h
  | installWatcher id' =>
      refine Or.inl (running_setRuntime s _ id _ (fun r => ?_) h)
      exact ⟨rfl, fun hr => hr⟩
  | report id' =>
      simp only [DesktopOp.after] at h
      split at h
      · refine Or.inl (running_setRuntime s _ id _ (fun r => ?_) h)
        exact ⟨rfl, fun hr => hr⟩
      · exact Or.inl h
  | settle id' =>
      simp only [DesktopOp.after] at h
      refine Or.inl (running_setRuntime s _ id _ (fun r => ?_) h)
      exact ⟨rfl, fun hr => hr⟩
  | _ => exact Or.inl h

/-- An operation that leaves its runtime to the controller does not change which it is. -/
theorem after_runtime (h : ∀ id, op.keeps id = true) : (op.after w s).controller.runtime = s.controller.runtime := by
  cases op with
  | adopt id =>
      have hother := h (id + 1)
      rw [DesktopOp.keeps, decide_eq_true_eq] at hother
      omega
  | clear f => cases h 0
  | stopCurrent | createSyncRuntime _ | emit _ _ | report _ =>
      simp only [DesktopOp.after]
      split <;> rfl
  | _ => rfl

/-- A runtime that runs goes on, unless it is stopped as that of the controller. -/
theorem after_goesOn (id : Nat)
    (hop : op.keeps id = false) (h : s.running id = true) :
    (op.after w s).running id = true := by
  cases op with
  | adopt id' =>
      have hid : id ≠ id' := by
        rw [DesktopOp.keeps, decide_eq_false_iff_not] at hop
        exact fun heq => hop heq.symm
      have hruntime := runtimes_setRuntime
        { s with controller := { s.controller with runtime := some id' } } id' id
        (fun r => { r with started := true })
      rw [if_neg hid] at hruntime
      unfold World.running at h ⊢
      rw [DesktopOp.after, hruntime]
      exact h
  | clear f => exact h
  | _ => cases hop

/-- Runtimes stay held exactly if none that runs is given up. -/
theorem held_after (hs : Held s) :
    Held (op.after w s) ↔ op.Spares s := by
  rw [held_iff]
  constructor
  · intro h id hid hruns
    by_contra hnot
    rw [Bool.not_eq_true] at hnot
    -- The runtime goes on, and the controller does not have it any more.
    have hafter := h id (after_goesOn op w s id hnot hruns)
    cases op with
    | adopt id' =>
        have hsame : id' = id := Option.some.inj hafter
        rw [DesktopOp.keeps, decide_eq_false_iff_not] at hnot
        exact hnot hsame
    | clear f => cases hafter
    | _ => cases hnot
  · intro hspares id hruns
    rcases after_running op w s id hruns with hran | rfl
    · have hheld := hs.current id hran
      have hkeeps := hspares id hheld hran
      cases op with
      | adopt id' =>
          rw [DesktopOp.keeps, decide_eq_true_eq] at hkeeps
          rw [← hkeeps]
          rfl
      | clear f => cases hkeeps
      | _ => exact (after_runtime _ w s (fun _ => rfl)).trans hheld
    · rfl

end

/-! ## Runs -/

section Runs

variable {ι : Type} [DecidableEq ι] (t : Texts) (requests : ι → DesktopRequest)

/-- Calls over one controller. -/
abbrev DesktopPool (ι : Type) :=
  Pool ι DesktopOp (fun op => Except DesktopError op.Ret) World DesktopError (Option SyncStatus)

/-- The application begins. -/
def desktop : DesktopPool ι :=
  { shared := World.initial, calls := fun i => (requests i).run t }

/-- The calls after a run. -/
abbrev ran (es : List (ι × Outside)) : DesktopPool ι :=
  Pool.run DesktopOp.exec (desktop t requests) es

/-- No runtime that runs is given up by a step. -/
def Careful (c : DesktopPool ι) (e : ι × Outside) : Prop :=
  ∀ op ∈ c.next e.1, op.Spares c.shared

/-- The runtime that is reported to be offline. -/
def DesktopOp.offline : DesktopOp → Option Nat
  | emit id .offline => some id
  | _ => none

def DesktopRequest.isWatched : DesktopRequest → Bool
  | watched _ => true
  | _ => false

/-- No watcher reports that a runtime is offline that does not run any more. -/
def Quiet (c : DesktopPool ι) (e : ι × Outside) : Prop :=
  (requests e.1).isWatched = true →
    ∀ op ∈ c.next e.1, ∀ id ∈ op.offline, c.shared.running id = true

theorem held_step (c : DesktopPool ι) (e : ι × Outside) (hc : Held c.shared) :
    Held (Pool.step DesktopOp.exec c e).shared ↔ Careful c e := by
  rcases Pool.step_shared DesktopOp.exec c e with ⟨hnone, hsame⟩ | ⟨op, hnext, hshared⟩
  · rw [hsame]
    refine ⟨fun _ op hop => ?_, fun _ => hc⟩
    rw [hnone] at hop
    cases hop
  · have hafter : (Pool.step DesktopOp.exec c e).shared = op.after e.2 c.shared := hshared
    rw [hafter, held_after op e.2 c.shared hc]
    refine ⟨fun h op' hop' => ?_, fun h => h op hnext⟩
    rw [hnext] at hop'
    cases hop'
    exact h

theorem held_initial : Held World.initial :=
  (held_iff _).mpr (fun _ h => by cases h)

/-- Runtimes are held all along a run exactly if the run is careful. -/
theorem held_run (es : List (ι × Outside)) :
    (∀ pre, pre <+: es → Held (ran t requests pre).shared) ↔
      Run.Along Careful (Pool.step DesktopOp.exec) (desktop t requests) es :=
  Run.forall_prefix_iff_along (Pool.step DesktopOp.exec) (fun _ => True)
    (fun c => Held c.shared) (fun _ _ _ => trivial) (fun c e _ hc => held_step c e hc)
    (desktop t requests) es trivial held_initial

/-! ## Revocations -/

/-- The controller has no runtime and its status is revoked. -/
structure Disconnected (s : World) : Prop where
  runtime : s.controller.runtime = none
  phase : s.controller.status.phase = .revoked
  revoked : s.controller.status.revoked = true

/-- A revocation that returns leaves the controller disconnected. -/
theorem revoke_meets (s : World) :
    revoke.Meets DesktopOp.exec (fun _ _ _ => True) (fun _ => True) (fun _ _ => True)
      (fun _ _ => True) (fun r s => ∀ answer, r = .ok answer → Disconnected s) s := by
  refine meets_request DesktopOp.revokeCurrent _ s (fun s _ _ => ⟨trivial, fun w _ =>
    ⟨fun _ _ => ?_, fun _ _ answer h => by cases h⟩⟩)
  refine meets_request DesktopOp.stopCurrent _ _ (fun s _ _ => ⟨trivial, fun w _ =>
    ⟨fun _ _ => ?_, fun _ _ answer h => by cases h⟩⟩)
  refine meets_request (DesktopOp.clear disconnected) _ _ (fun s _ _ => ⟨trivial, fun w _ =>
    ⟨fun _ _ => ?_, fun _ _ answer h => by cases h⟩⟩)
  exact fun _ _ => ⟨rfl, rfl, rfl⟩

/-- A call leaves the controller disconnected if it is a revocation and returns. -/
theorem revoke_disconnects (request : DesktopRequest) (s : World) :
    (request.run t).Meets DesktopOp.exec (fun _ _ _ => True) (fun _ => True) (fun _ _ => True)
      (fun _ _ => True)
      (fun r s => request = .revoke → ∀ answer, r = .ok answer → Disconnected s) s := by
  cases request with
  | revoke =>
      refine meets_bind _ _ s (meets_mono (fun _ _ h => h) (fun r u hr => ?_) _ s (revoke_meets s))
      cases r with
      | ok status => exact fun _ _ _ => hr status rfl
      | error e => exact fun _ answer h => by cases h
  | _ => exact meets_any (fun _ _ => trivial) (fun _ _ h => by cases h) _ s

theorem sound_run (es : List (ι × Outside)) :
    Pool.SoundEach DesktopOp.exec (fun _ _ _ _ => True) (fun _ => True) (fun _ _ _ => True)
      (fun _ _ _ => True)
      (fun i r s => requests i = .revoke → ∀ answer, r = .ok answer → Disconnected s)
      (ran t requests es) := by
  refine Run.runFrom_keeps (Pool.step DesktopOp.exec) _ (fun c e hc => ?_) _ es
    ⟨trivial, fun i => ⟨World.initial, trivial, revoke_disconnects t (requests i) _⟩⟩
  exact Pool.step_sound (fun _ _ _ => trivial) (fun _ _ _ _ _ _ => trivial)
    (fun _ _ _ _ _ _ _ => ⟨trivial, fun _ _ => trivial⟩) c e hc (fun _ _ => trivial)

/-- What a watcher makes a runtime do. -/
def DesktopOp.ofWatcher : DesktopOp → Prop
  | report _ | settle _ | isStopped _ | emit _ _ | reconcileFolder => True
  | _ => False

theorem syncOnce_ofWatcher (id : Nat) :
    (syncOnce id).Within DesktopOp.ofWatcher (fun _ => True) := by
  unfold syncOnce
  refine within_bind (within_request (DesktopOp.isStopped id) trivial) (fun stopped _ => ?_)
  refine within_ite trivial ?_
  refine within_bind (within_request (DesktopOp.emit id .syncing) trivial) (fun _ _ => ?_)
  refine within_tryCatch _ _ ?_ (fun e => ?_)
  · unfold reconcileOnce
    refine within_bind (within_request DesktopOp.reconcileFolder trivial) (fun _ _ => ?_)
    exact within_ite (within_request (DesktopOp.emit id .running) trivial) trivial
  · unfold syncFailed
    exact within_bind (within_request (DesktopOp.emit id _) trivial) (fun _ _ => trivial)

theorem watched_ofWatcher (request : DesktopRequest) (h : request.isWatched = true) :
    (request.run t).Within DesktopOp.ofWatcher (fun _ => True) := by
  cases request with
  | watched id =>
      refine within_bind (T := fun _ => True) ?_ (fun _ _ => trivial)
      unfold watched
      refine within_bind (within_request (DesktopOp.report id) trivial) (fun _ _ => ?_)
      refine within_ite ?_ trivial
      refine within_bind (T := fun _ => True) ?_
        (fun _ _ => within_request (DesktopOp.settle id) trivial)
      exact within_tryCatch _ _ (syncOnce_ofWatcher id) (fun _ => trivial)
  | _ => cases h

/-- Watchers leave a controller disconnected, unless they report a runtime to be offline. -/
theorem after_disconnected (op : DesktopOp) (w : Outside) (s : World) (hop : op.ofWatcher)
    (hoffline : op.offline = none) (hs : Disconnected s) : Disconnected (op.after w s) := by
  cases op with
  | report id =>
      simp only [DesktopOp.after]
      split <;> exact ⟨hs.runtime, hs.phase, hs.revoked⟩
  | settle id => exact ⟨hs.runtime, hs.phase, hs.revoked⟩
  | isStopped id => exact hs
  | reconcileFolder => exact hs
  | emit id status =>
      cases status with
      | offline => cases hoffline
      | _ => exact hs
  | _ => exact absurd hop id

/-- Watchers report nothing of the runtimes of a controller that has none. -/
theorem disconnected_step (c : DesktopPool ι) (e : ι × Outside)
    (hwithin : ∀ i, (requests i).isWatched = true →
      (c.calls i).Within DesktopOp.ofWatcher (fun _ => True))
    (hc : Held c.shared ∧ Disconnected c.shared) (hwatched : (requests e.1).isWatched = true)
    (hquiet : Quiet requests c e) :
    Disconnected (Pool.step DesktopOp.exec c e).shared := by
  rcases Pool.step_shared DesktopOp.exec c e with ⟨-, hsame⟩ | ⟨op, hnext, hshared⟩
  · rw [hsame]
    exact hc.2
  · have hafter : (Pool.step DesktopOp.exec c e).shared = op.after e.2 c.shared := hshared
    rw [hafter]
    refine after_disconnected op e.2 c.shared
      (Pool.next_within c e.1 op (hwithin e.1 hwatched) hnext) ?_ hc.2
    cases hoffline : op.offline with
    | none => rfl
    | some id =>
        have hruns := hquiet hwatched op hnext id hoffline
        have hheld := hc.1.current id hruns
        rw [hc.2.runtime] at hheld
        cases hheld

/-- Nor do they once it is revoked, however often they report. -/
theorem disconnected_run (c : DesktopPool ι) (es : List (ι × Outside))
    (hwithin : ∀ i, (requests i).isWatched = true →
      (c.calls i).Within DesktopOp.ofWatcher (fun _ => True))
    (hc : Held c.shared ∧ Disconnected c.shared) (hes : ∀ e ∈ es, (requests e.1).isWatched = true)
    (hcareful : Run.Along (fun c e => Careful c e ∧ Quiet requests c e)
      (Pool.step DesktopOp.exec) c es) :
    Held (Pool.run DesktopOp.exec c es).shared ∧
      Disconnected (Pool.run DesktopOp.exec c es).shared := by
  induction es generalizing c with
  | nil => exact hc
  | cons e es ih =>
      have hheld := (held_step c e hc.1).mpr hcareful.1.1
      have hdisconnected := disconnected_step requests c e hwithin hc
        (hes e List.mem_cons_self) hcareful.1.2
      refine ih (Pool.step DesktopOp.exec c e) (fun i hi => ?_) ⟨hheld, hdisconnected⟩
        (fun e' he' => hes e' (List.mem_cons_of_mem e he')) hcareful.2
      exact Pool.step_within c e i (hwithin i hi)

theorem ran_ofWatcher (es : List (ι × Outside)) (i : ι) (hi : (requests i).isWatched = true) :
    ((ran t requests es).calls i).Within DesktopOp.ofWatcher (fun _ => True) :=
  Run.runFrom_keeps (Pool.step DesktopOp.exec)
    (fun c => (c.calls i).Within DesktopOp.ofWatcher (fun _ => True))
    (fun c e hc => Pool.step_within c e i hc) _ es (watched_ofWatcher t (requests i) hi)

/-- At every moment of a run each runtime that runs is that of the controller, exactly if no
    step gives up a runtime that runs. Then, if watchers report no runtime to be offline that
    does not run, a revocation that returns leaves no runtime running and a status that is
    revoked, until another method goes on. -/
theorem runtimes_of_run (es : List (ι × Outside)) :
    ((∀ pre, pre <+: es → Held (ran t requests pre).shared) ↔
      Run.Along Careful (Pool.step DesktopOp.exec) (desktop t requests) es) ∧
    (Run.Along (fun c e => Careful c e ∧ Quiet requests c e) (Pool.step DesktopOp.exec)
        (desktop t requests) es →
      ∀ es₁ i w es₂ answer, es = es₁ ++ (i, w) :: es₂ → requests i = .revoke →
        (ran t requests es₁).result i = none →
        (ran t requests (es₁ ++ [(i, w)])).result i = some (.ok answer) →
        (∀ e ∈ es₂, (requests e.1).isWatched = true) →
        (ran t requests es).shared.controller.status.phase = .revoked ∧
          (ran t requests es).shared.controller.status.revoked = true ∧
          ∀ id, (ran t requests es).shared.running id = false) := by
  refine ⟨held_run t requests es, ?_⟩
  rintro hes es₁ i w es₂ answer rfl hrevoke hbefore hafter hwatched
  have hcareful := Run.along_mono (Pool.step DesktopOp.exec) (fun _ _ h => h.1) _ _ hes
  have hheld := (held_run t requests _).mpr hcareful
  have hconcat : ran t requests (es₁ ++ [(i, w)]) =
      Pool.step DesktopOp.exec (ran t requests es₁) (i, w) :=
    Run.runFrom_concat (Pool.step DesktopOp.exec) _ es₁ (i, w)
  -- The revocation ends in a state that is disconnected.
  have hends : Disconnected (ran t requests (es₁ ++ [(i, w)])).shared := by
    rw [hconcat] at hafter ⊢
    exact Pool.ends_of_sound _ (i, w) _ (sound_run t requests es₁) (fun _ _ => trivial) hbefore
      hafter hrevoke answer rfl
  have hsplit : es₁ ++ (i, w) :: es₂ = (es₁ ++ [(i, w)]) ++ es₂ := by
    rw [List.append_assoc, List.singleton_append]
  rw [hsplit] at hes hheld ⊢
  have hlater := ((Run.along_append _ _ _ _ es₂).mp hes).2
  have hlast := disconnected_run requests (ran t requests (es₁ ++ [(i, w)])) es₂
    (fun j hj => ran_ofWatcher t requests _ j hj)
    ⟨hheld _ (List.prefix_append _ _), hends⟩ hwatched hlater
  have hrun : ran t requests ((es₁ ++ [(i, w)]) ++ es₂) =
      Pool.run DesktopOp.exec (ran t requests (es₁ ++ [(i, w)])) es₂ :=
    Run.runFrom_append (Pool.step DesktopOp.exec) _ (es₁ ++ [(i, w)]) es₂
  rw [hrun]
  refine ⟨hlast.2.phase, hlast.2.revoked, fun id => ?_⟩
  by_contra hruns
  rw [Bool.not_eq_false] at hruns
  have hcurrent := hlast.1.current id hruns
  rw [hlast.2.runtime] at hcurrent
  cases hcurrent

instance decidableSpares (op : DesktopOp) (s : World) : Decidable (op.Spares s) :=
  inferInstanceAs (Decidable (∀ id ∈ s.controller.runtime, s.running id = true →
    op.keeps id = true))

instance decidableCareful (c : DesktopPool ι) (e : ι × Outside) : Decidable (Careful c e) :=
  inferInstanceAs (Decidable (∀ op ∈ c.next e.1, op.Spares c.shared))

instance decidableQuiet (c : DesktopPool ι) (e : ι × Outside) : Decidable (Quiet requests c e) :=
  inferInstanceAs (Decidable ((requests e.1).isWatched = true →
    ∀ op ∈ c.next e.1, ∀ id ∈ op.offline, c.shared.running id = true))

end Runs

/-! ## Pairing again -/

def sampleConnection : PairingConnection :=
  { host := "host"
    token := "token"
    vaultId := "vault"
    fingerprint := "fingerprint"
    issuedAt := 0
    expiresAt := none
    deviceId := none
    rootFingerprintSha256 := none }

/-- Every link is read, and every stored text is that of one connection. -/
def sampleTexts : Texts :=
  { parsePairingLink := fun _ => some { deploymentUrl := "host", grant := "grant" }
    decodeConnection := fun _ => some
      { sourceId := "source", folderPath := some "notes", connection := sampleConnection }
    encodeConnection := fun stored => stored.sourceId
    sha256Hex := id
    basename := id }

def sampleOutside : Outside :=
  { fails := false
    now := "now"
    loaded := some "stored"
    identity := "source"
    connection := sampleConnection
    coreStatus := .running
    confirmed := true }

/-- A folder is selected, a link arrives, and the owner disconnects. -/
def sampleRequests : Fin 3 → DesktopRequest
  | 0 => .selectFolder "notes"
  | 1 => .pair "link"
  | 2 => .revoke

def sampleSteps (i : Fin 3) (count : Nat) : List (Fin 3 × Outside) :=
  List.replicate count (i, sampleOutside)

/-- The link makes a second runtime start while the first one runs, and the first one goes on
    when the controller is revoked. -/
theorem paired_again :
    (ran sampleTexts sampleRequests (sampleSteps 0 23 ++ sampleSteps 1 23)).shared.running 0 =
        true ∧
      (ran sampleTexts sampleRequests (sampleSteps 0 23 ++ sampleSteps 1 23)).shared.running 1 =
        true ∧
      (ran sampleTexts sampleRequests
        (sampleSteps 0 23 ++ sampleSteps 1 23 ++ sampleSteps 2 3)).result 2 ≠ none ∧
      (ran sampleTexts sampleRequests
        (sampleSteps 0 23 ++ sampleSteps 1 23 ++ sampleSteps 2 3)).shared.running 0 = true := by
  decide +kernel

/-- Without the link, no runtime runs after the revocation. -/
theorem revoked_of_run :
    (ran sampleTexts sampleRequests (sampleSteps 0 23 ++ sampleSteps 2 3)).shared.running 0 =
      false := by
  have hrun : Run.Along (fun c e => Careful c e ∧ Quiet sampleRequests c e)
      (Pool.step DesktopOp.exec) (desktop sampleTexts sampleRequests)
      (sampleSteps 0 23 ++ sampleSteps 2 3) ∧
      (ran sampleTexts sampleRequests (sampleSteps 0 23 ++ sampleSteps 2 2)).result 2 = none ∧
      ((ran sampleTexts sampleRequests (sampleSteps 0 23 ++ sampleSteps 2 2 ++
        [(2, sampleOutside)])).result 2).bind Except.toOption ≠ none := by
    decide +kernel
  have hreturns : ∃ answer, (ran sampleTexts sampleRequests (sampleSteps 0 23 ++ sampleSteps 2 2 ++
      [(2, sampleOutside)])).result 2 = some (.ok answer) := by
    revert hrun
    cases (ran sampleTexts sampleRequests (sampleSteps 0 23 ++ sampleSteps 2 2 ++
      [(2, sampleOutside)])).result 2 with
    | none => exact fun h => absurd rfl h.2.2
    | some r =>
        cases r with
        | ok answer => exact fun _ => ⟨answer, rfl⟩
        | error e => exact fun h => absurd rfl h.2.2
  rcases hreturns with ⟨answer, hanswer⟩
  exact ((runtimes_of_run sampleTexts sampleRequests _).2 hrun.1 _ 2 sampleOutside [] answer rfl rfl
    hrun.2.1 hanswer (fun _ he => absurd he List.not_mem_nil)).2.2 0

end Mdevolved.Desktop
