import Mdevolved.Lib.Process
import Mdevolved.Lib.Writes

/-!
# Requests That Read and Write

A function that works on a database sends requests. Each of them reads something
or takes effect through a batch of writes, and what becomes of it is decided
outside: it is answered, refused, or takes effect and fails to answer. An
`Interface` says of every request what it answers with, and what it writes. So
what a request may do to the state is read off its writes, and what an answer says
off what was read.

## Main definitions

* `Interface`: What requests read and write.
* `Interface.effect`: What a request does by itself.
* `Interface.exec`: A request, under what is decided outside.
* `Interface.Calls`: The functions that send such requests.
* `Interface.Returns`: What a function that returns leaves.

## Theorems

* `Interface.exec_cases`: A request leaves the state alone, or its writes pass.
* `Interface.meets_quiet`: A function that only does what is always allowed.
* `Interface.meets_anyhow`: What holds whatever a function does.
* `Interface.yields_then`: A function that returns.
* `Interface.yields_request`, `Interface.yields_read`: A function that nobody disturbs.
-/

open Batch (Outcome Write Passes written runWrites send)

/-- What requests `Op` read of a state and write to it, with an outside value that
    tells what becomes of each. A request that is lost or refused throws `fault`. -/
structure Interface (Op ω σ ε : Type) where
  Ret : Op → Type
  answer : (op : Op) → ω → σ → Except ε (Ret op)
  writes : Op → ω → List (Write σ ε)
  outcome : ω → Outcome
  fault : ε

namespace Interface

variable {Op ω σ ε : Type} (I : Interface Op ω σ ε)

/-- What a request does by itself. -/
def effect (op : Op) (w : ω) (s : σ) : Except ε (I.Ret op × σ) :=
  match I.answer op w s, runWrites (I.writes op w) s with
  | .error e, _ => .error e
  | .ok _, .error e => .error e
  | .ok r, .ok (_, t) => .ok (r, t)

/-- A request, under what is decided outside. -/
def exec (op : Op) (w : ω) (s : σ) : Except ε (I.Ret op) × σ :=
  send I.fault (I.outcome w) (I.effect op w) s

/-- A function that sends such requests. -/
abbrev Calls (α : Type) := Process Op (fun op => Except ε (I.Ret op)) ε α

variable {I}

section

variable (op : Op) (w : ω) (s : σ) (r : I.Ret op)

theorem effect_ok (s t : σ) (r : I.Ret op) (h : I.effect op w s = .ok (r, t)) :
    I.answer op w s = .ok r ∧ Passes (I.writes op w) s ∧ t = written (I.writes op w) s := by
  unfold effect at h
  split at h
  · cases h
  · cases h
  · next r' u s' hanswer hwrites =>
    simp only [Batch.ok_inj] at h
    rcases h with ⟨rfl, rfl⟩
    rcases (Batch.runWrites_ok _ _ _ _).mp hwrites with ⟨hpasses, hwritten⟩
    exact ⟨hanswer, hpasses, hwritten⟩

/-- A request leaves the state alone, or its writes pass and it leaves what they
    write. -/
theorem exec_cases :
    (I.exec op w s).2 = s ∨ (Passes (I.writes op w) s ∧
      (I.exec op w s).2 = written (I.writes op w) s) := by
  rcases Batch.send_cases I.fault (I.outcome w) (I.effect op w) s with hsame | ⟨r, heffect, -⟩
  · exact Or.inl hsame
  · rcases effect_ok op w s _ r heffect with ⟨-, hpasses, hwritten⟩
    exact Or.inr ⟨hpasses, hwritten⟩

/-- What a request answers with it has read, and what it writes has taken effect. -/
theorem exec_ok (h : (I.exec op w s).1 = .ok r) :
    I.answer op w s = .ok r ∧ Passes (I.writes op w) s ∧
      (I.exec op w s).2 = written (I.writes op w) s :=
  effect_ok op w s _ r (Batch.send_ok _ _ _ _ _ h)

/-- A request without writes leaves the state alone. -/
theorem exec_read (h : I.writes op w = []) : (I.exec op w s).2 = s := by
  rcases exec_cases op w s with hsame | ⟨-, hwritten⟩
  · exact hsame
  · rw [hwritten, h, Batch.written_nil]

/-- A request that is answered answers with what it reads and does what it writes. -/
theorem exec_answered (hw : I.outcome w = .answered)
    (hanswer : I.answer op w s = .ok r) (hpasses : Passes (I.writes op w) s) :
    I.exec op w s = (.ok r, written (I.writes op w) s) := by
  have hrun : runWrites (I.writes op w) s = .ok ((), written (I.writes op w) s) :=
    (Batch.runWrites_ok _ _ _ _).mpr ⟨hpasses, rfl⟩
  have heffect : I.effect op w s = .ok (r, written (I.writes op w) s) := by
    unfold effect
    rw [hanswer, hrun]
  unfold exec
  rw [hw]
  simp only [send, heffect]

/-- A request that is refused leaves the state alone. -/
theorem exec_refused (hw : I.outcome w = .refused) :
    (I.exec op w s).2 = s := by
  unfold exec
  rw [hw]
  rfl

/-- Any other request does what it writes, whether or not it is answered. -/
theorem exec_taken (hw : I.outcome w ≠ .refused)
    (hanswer : I.answer op w s = .ok r) (hpasses : Passes (I.writes op w) s) :
    (I.exec op w s).2 = written (I.writes op w) s := by
  have hrun : runWrites (I.writes op w) s = .ok ((), written (I.writes op w) s) :=
    (Batch.runWrites_ok _ _ _ _).mpr ⟨hpasses, rfl⟩
  have heffect : I.effect op w s = .ok (r, written (I.writes op w) s) := by
    unfold effect
    rw [hanswer, hrun]
  unfold exec
  cases hout : I.outcome w with
  | answered => simp only [send, heffect]
  | refused => exact absurd hout hw
  | lost => simp only [send, heffect]

end

/-! ## Functions -/

/-- What a function that returns leaves; one that throws may leave anything. -/
def Returns {α : Type} (Q : α → σ → Prop) : Except ε α → σ → Prop
  | .ok a, s => Q a s
  | .error _, _ => True

section Rules

variable {α β : Type} {C : Op → ω → σ → Prop} {J : σ → Prop} {R : σ → σ → Prop}
  {P : Op → σ → Prop} {Q : β → σ → Prop}

/-- One function after the other. -/
theorem meets_then {M : α → σ → Prop} {f : α → I.Calls β} {p : I.Calls α} {s : σ}
    (hp : p.Meets I.exec C J R P (Returns M) s)
    (hf : ∀ a t, M a t → (f a).Meets I.exec C J R P (Returns Q) t) :
    (p >>= f).Meets I.exec C J R P (Returns Q) s := by
  refine Process.meets_bind f p s (Process.meets_mono (fun _ _ h => h) (fun r t h => ?_) p s hp)
  cases r with
  | ok a => exact hf a t h
  | error e => exact trivial

/-- What was read still holds where the function goes on, and so does a fact that
    nobody disturbs. -/
theorem meets_read (K : σ → Prop) (hK : ∀ s t, R s t → K s → K t) (op : Op)
    (hop : ∀ t, P op t) (hwrites : ∀ w, I.writes op w = []) (s : σ) (hs : K s) :
    (Process.request op : I.Calls (I.Ret op)).Meets I.exec C J R P
      (Returns (fun r t => J t ∧ K t ∧ ∃ w, I.answer op w t = .ok r)) s := by
  intro t hJ hst
  refine ⟨hop t, fun w _ => ?_⟩
  cases hr : (I.exec op w t).1 with
  | error e => exact trivial
  | ok r =>
      have hread := exec_ok op w t r hr
      rw [exec_read op w t (hwrites w)]
      exact ⟨hJ, hK s t hst hs, w, hread.1⟩

/-- A fact that nobody disturbs holds besides what a function leaves. -/
theorem meets_beside (K : σ → Prop) (hK : ∀ s t, R s t → K s → K t)
    (hexec : ∀ op w t, J t → P op t → C op w t → R t (I.exec op w t).2) (p : I.Calls β) (s : σ)
    (hs : K s) (hp : p.Meets I.exec C J R P (Returns Q) s) :
    p.Meets I.exec C J R P (Returns (fun a t => Q a t ∧ K t)) s := by
  have hframe := Process.meets_frame K (fun s t hk h => hK s t h hk)
    (fun op w t hJ hop hC hk => hK t _ (hexec op w t hJ hop hC) hk) p s hs hp
  refine Process.meets_mono (fun _ _ h => h) (fun r t h => ?_) p s hframe
  cases r with
  | ok a => exact h
  | error e => exact trivial

/-- A function that only does what is always allowed leaves a fact that nobody
    disturbs. -/
theorem meets_quiet (K : σ → Prop) (hK : ∀ s t, R s t → K s → K t)
    (hexec : ∀ op w t, J t → P op t → C op w t → R t (I.exec op w t).2) (p : I.Calls α) (s : σ)
    (hs : K s) (hp : p.Within (fun op => ∀ t, P op t) (fun _ => True)) :
    p.Meets I.exec C J R P (Returns (fun _ t => K t)) s := by
  refine Process.meets_of_within K (fun s t hs hst => hK s t hst hs)
    (fun op w t hJ hop hC ht => hK t _ (hexec op w t hJ hop hC) ht) (fun op t _ _ hop => hop t)
    (fun r t ht => ?_) p s hs hp
  cases r with
  | ok a => exact ht
  | error e => exact trivial

/-- What holds anyhow holds after a function, if all it does is allowed. -/
theorem meets_anyhow (hP : ∀ op t, P op t) (p : I.Calls β) (s : σ) (hQ : ∀ a t, Q a t) :
    p.Meets I.exec C J R P (Returns Q) s := by
  induction p generalizing s with
  | done r =>
      cases r with
      | ok a => exact hQ a s
      | error e => exact trivial
  | call op next ih => exact fun t _ _ => ⟨hP op t, fun w _ => ih _ _⟩

end Rules

/-! ## Functions that return -/

/-- A function returns, and leaves a fact. -/
def Yields {α : Type} (Q : α → σ → Prop) : Except ε α → σ → Prop
  | .ok a, s => Q a s
  | .error _, _ => False

section Undisturbed

variable {α β : Type} {C : Op → ω → σ → Prop} {J : σ → Prop} {R : σ → σ → Prop}
  {P : Op → σ → Prop} {Q : β → σ → Prop}

/-- One function after the other. -/
theorem yields_then {M : α → σ → Prop} {f : α → I.Calls β} {p : I.Calls α} {s : σ}
    (hp : p.Meets I.exec C J R P (Yields M) s)
    (hf : ∀ a t, M a t → (f a).Meets I.exec C J R P (Yields Q) t) :
    (p >>= f).Meets I.exec C J R P (Yields Q) s := by
  refine Process.meets_bind f p s (Process.meets_mono (fun _ _ h => h) (fun r t h => ?_) p s hp)
  cases r with
  | ok a => exact hf a t h
  | error e => exact absurd h id

/-- A request that is answered answers with what it reads and does what it writes. -/
theorem yields_request (op : Op) (r : I.Ret op) (s : σ) (hop : P op s)
    (houtcome : ∀ w, C op w s → I.outcome w = .answered)
    (hanswer : ∀ w, C op w s → I.answer op w s = .ok r)
    (hpasses : ∀ w, C op w s → Passes (I.writes op w) s) :
    (Process.request op : I.Calls (I.Ret op)).Meets I.exec C J Eq P
      (Yields (fun a t => a = r ∧ ∃ w, C op w s ∧ t = written (I.writes op w) s)) s := by
  rintro t - rfl
  refine ⟨hop, fun w hw => ?_⟩
  rw [exec_answered op w s r (houtcome w hw) (hanswer w hw) (hpasses w hw)]
  exact ⟨rfl, w, hw, rfl⟩

/-- A request that only reads answers with what is there. -/
theorem yields_read (op : Op) (r : I.Ret op) (s : σ) (hop : P op s)
    (houtcome : ∀ w, C op w s → I.outcome w = .answered) (hwrites : ∀ w, I.writes op w = [])
    (hanswer : ∀ w, C op w s → I.answer op w s = .ok r) :
    (Process.request op : I.Calls (I.Ret op)).Meets I.exec C J Eq P
      (Yields (fun a t => a = r ∧ t = s ∧ ∃ w, C op w s)) s := by
  have hpasses : ∀ w, C op w s → Passes (I.writes op w) s := by
    intro w _
    rw [hwrites w]
    exact trivial
  refine Process.meets_mono (fun _ _ h => h) (fun a t h => ?_) _ s
    (yields_request op r s hop houtcome hanswer hpasses)
  cases a with
  | error e => exact h
  | ok a =>
      rcases h with ⟨ha, w, hw, ht⟩
      rw [hwrites w] at ht
      exact ⟨ha, ht, w, hw⟩

/-- Nothing is caught of a function that returns. -/
theorem yields_tryCatch (f : ε → I.Calls β) (p : I.Calls β) (s : σ)
    (hp : p.Meets I.exec C J R P (Yields Q) s) :
    (tryCatch p f).Meets I.exec C J R P (Yields Q) s := by
  refine Process.meets_tryCatch f p s (Process.meets_mono (fun _ _ h => h) (fun r t h => ?_) p s hp)
  cases r with
  | ok a => exact h
  | error e => exact absurd h id

theorem yields_ofExcept (r : Except ε β) (b : β) (s : σ) (hr : r = .ok b) (hQ : Q b s) :
    (Process.ofExcept r : I.Calls β).Meets I.exec C J R P (Yields Q) s := by
  rw [hr]
  exact hQ

end Undisturbed

end Interface
