import Mdevolved.Lib.Run

/-!
# Processes Over a Shared State

An asynchronous function as the sequence of operations between its awaits. A
process says which operation comes next and how it goes on from the answer;
what an operation does to the shared state is given separately, by `exec`. So
the text of a function is one thing and the state it works on another, and a
statement about an operation is a statement about every function that uses it.

An operation also receives an outside value, which whoever schedules it
chooses: a fresh identifier, or whether a storage call went through. Between
two operations of one process any number of operations of others may run,
which is all that concurrency is here.

A function that may throw ends in an `Except`, so `bind` stops at an error
and `tryCatch` resumes from one, the way `await` and `catch` do.

`Meets` is the rely and guarantee reading of one process. As long as the state
keeps the invariant `I` and others move it within `R`, each operation is one
that `P` allows where it is taken, and the result satisfies `Q` where the
process ends. `meets_bind` is the rule for sequencing and `meets_request` the
one for a single operation, so a proof about a process follows its text.

Where the answers an operation may get do not matter to what is allowed, the
operations of a process can be told from its text alone. That is `Within`, and
`meets_of_within` turns it into `Meets` under a fact that nobody disturbs.

`Pool` runs any number of processes over one state under an arbitrary
schedule, each with what it relies on itself. `step_sound` says that processes
that meet what is asked of them keep meeting it, and keep the invariant, as long
as operations are taken under a condition. At any point of a run of such steps,
`takes_allowed` gives what is known of the operation about to be taken, and
`result_of_sound` what is known of a call that has ended. Where an operation has
to wait for its turn, as in a queue of promises, `stepWhen` leaves the pool as it
is until then.

## Main definitions

* `Process`: An asynchronous function over a shared state.
* `request`: A single operation that may fail by itself.
* `mapOp`: A process as one over further operations.
* `Within`: Every operation of a process is of a kind.
* `Once`: At most one operation of a process is of a kind.

## Theorems

* `bind_bind`: Three processes after each other.
* `Pool.step_within`, `Pool.step_once`, `Pool.step_taken`: What a call has left.
* `Pool.step_settles`, `Pool.step_settled`, `Pool.step_fails`, `Pool.step_failed`: What a
  call ends with.
* `Pool.result_of_sound`: What is known of a call that has ended.
* `Pool.ends_of_sound`: What is known of a call when it ends.
-/

/-- An asynchronous function over operations `Op`, each answered by a value of
    type `Res op`: it has ended, or its next operation is known. -/
inductive Process (Op : Type) (Res : Op → Type) (ε α : Type) : Type
  | done (result : Except ε α)
  | call (op : Op) (next : Res op → Process Op Res ε α)

namespace Process

variable {Op : Type} {Res : Op → Type} {σ ω ε α β : Type}

/-- Run `p`, then `f` on what it returned; an error ends the sequence. -/
def bind : Process Op Res ε α → (α → Process Op Res ε β) → Process Op Res ε β
  | .done (.ok a), f => f a
  | .done (.error e), _ => .done (.error e)
  | .call op next, f => .call op (fun r => (next r).bind f)

/-- Run `p`, and `f` on the error if it threw one. -/
def tryCatch : Process Op Res ε α → (ε → Process Op Res ε α) → Process Op Res ε α
  | .done (.ok a), _ => .done (.ok a)
  | .done (.error e), f => f e
  | .call op next, f => .call op (fun r => (next r).tryCatch f)

instance : Monad (Process Op Res ε) where
  pure a := .done (.ok a)
  bind := bind

instance : MonadExceptOf ε (Process Op Res ε) where
  throw e := .done (.error e)
  tryCatch := tryCatch

/-- Go on with a value that is already there, or throw the error it is. -/
def ofExcept (r : Except ε α) : Process Op Res ε α :=
  .done r

/-- An operation that may fail by itself: go on with what it returns, or throw
    the error it failed with. -/
def request {Ret : Op → Type} (op : Op) : Process Op (fun op => Except ε (Ret op)) ε (Ret op) :=
  .call op .done

/-- A process as one over further operations. -/
def mapOp {Op' : Type} {Res' : Op' → Type} (f : Op → Op') :
    Process Op (fun op => Res' (f op)) ε α → Process Op' Res' ε α
  | .done r => .done r
  | .call op next => .call (f op) (fun r => (next r).mapOp f)

theorem bind_bind {γ : Type} (p : Process Op Res ε α) (f : α → Process Op Res ε β)
    (g : β → Process Op Res ε γ) : p >>= f >>= g = p >>= fun a => f a >>= g := by
  induction p with
  | done r =>
      cases r with
      | ok a => rfl
      | error e => rfl
  | call op next ih => exact congrArg (call op) (funext ih)

variable (exec : (op : Op) → ω → σ → Res op × σ)

/-- While the state keeps `I`, others move it within `R` and operations are
    taken under `C`, every operation of the process is one that `P` allows in
    the state it is taken from, and its result satisfies `Q` in the state it
    ends in. -/
def Meets (C : Op → ω → σ → Prop) (I : σ → Prop) (R : σ → σ → Prop) (P : Op → σ → Prop)
    (Q : Except ε α → σ → Prop) : Process Op Res ε α → σ → Prop
  | .done r, s => Q r s
  | .call op next, s => ∀ t, I t → R s t → P op t ∧
      ∀ w, C op w t → Meets C I R P Q (next (exec op w t).1) (exec op w t).2

/-- The postcondition a process has to meet for `f` to be run after it. -/
def Then (C : Op → ω → σ → Prop) (I : σ → Prop) (R : σ → σ → Prop) (P : Op → σ → Prop)
    (Q : Except ε β → σ → Prop) (f : α → Process Op Res ε β) : Except ε α → σ → Prop
  | .ok a, s => (f a).Meets exec C I R P Q s
  | .error e, s => Q (.error e) s

/-- The postcondition a process has to meet for `f` to catch its errors. -/
def Catching (C : Op → ω → σ → Prop) (I : σ → Prop) (R : σ → σ → Prop) (P : Op → σ → Prop)
    (Q : Except ε α → σ → Prop) (f : ε → Process Op Res ε α) : Except ε α → σ → Prop
  | .ok a, s => Q (.ok a) s
  | .error e, s => (f e).Meets exec C I R P Q s

variable {exec} {C : Op → ω → σ → Prop} {I : σ → Prop} {R : σ → σ → Prop} {P : Op → σ → Prop}

/-- Sequencing: the second process is proved from wherever the first ends. -/
theorem meets_bind {Q : Except ε β → σ → Prop} (f : α → Process Op Res ε β)
    (p : Process Op Res ε α) (s : σ) (h : p.Meets exec C I R P (Then exec C I R P Q f) s) :
    (p >>= f).Meets exec C I R P Q s := by
  induction p generalizing s with
  | done r =>
      cases r with
      | ok a => exact h
      | error e => exact h
  | call op next ih =>
      intro t hI hst
      exact ⟨(h t hI hst).1, fun w hC => ih _ _ ((h t hI hst).2 w hC)⟩

section

variable {Q : Except ε α → σ → Prop} {A : Op → Prop} {T : α → Prop} {Ret : Op → Type}

/-- Resuming from an error: the handler is proved from wherever the error was
    thrown. -/
theorem meets_tryCatch (f : ε → Process Op Res ε α)
    (p : Process Op Res ε α) (s : σ) (h : p.Meets exec C I R P (Catching exec C I R P Q f) s) :
    (tryCatch p f).Meets exec C I R P Q s := by
  induction p generalizing s with
  | done r =>
      cases r with
      | ok a => exact h
      | error e => exact h
  | call op next ih =>
      intro t hI hst
      exact ⟨(h t hI hst).1, fun w hC => ih _ _ ((h t hI hst).2 w hC)⟩

/-- An operation that may fail by itself, from any state the others may have
    left. -/
theorem meets_request {exec : (op : Op) → ω → σ → Except ε (Ret op) × σ}
    {Q : Except ε β → σ → Prop} (op : Op)
    (f : Ret op → Process Op (fun op => Except ε (Ret op)) ε β) (s : σ)
    (h : ∀ t, I t → R s t → P op t ∧ ∀ w, C op w t →
      (∀ r, (exec op w t).1 = .ok r → (f r).Meets exec C I R P Q (exec op w t).2) ∧
      (∀ e, (exec op w t).1 = .error e → Q (.error e) (exec op w t).2)) :
    (request op >>= f).Meets exec C I R P Q s := by
  refine meets_bind f (request op) s (fun t hI hst => ⟨(h t hI hst).1, fun w hC => ?_⟩)
  cases hr : (exec op w t).1 with
  | ok r => exact ((h t hI hst).2 w hC).1 r hr
  | error e => exact ((h t hI hst).2 w hC).2 e hr

/-- A process that goes on only from what it already holds. -/
theorem meets_ofExcept {Q : Except ε β → σ → Prop} (r : Except ε α)
    (f : α → Process Op Res ε β) (s : σ) (hok : ∀ a, r = .ok a → (f a).Meets exec C I R P Q s)
    (herr : ∀ e, r = .error e → Q (.error e) s) :
    (ofExcept r >>= f).Meets exec C I R P Q s := by
  cases r with
  | ok a => exact hok a rfl
  | error e => exact herr e rfl

theorem meets_ite {c : Prop} [Decidable c] {p q : Process Op Res ε α}
    {s : σ} (hp : c → p.Meets exec C I R P Q s) (hq : ¬ c → q.Meets exec C I R P Q s) :
    (if c then p else q).Meets exec C I R P Q s := by
  split
  · next hc => exact hp hc
  · next hc => exact hq hc

/-- A process over further operations does what it does over its own. -/
theorem meets_mapOp {Op' : Type} {Res' : Op' → Type} {exec : (op : Op') → ω → σ → Res' op × σ}
    {C : Op' → ω → σ → Prop} {P : Op' → σ → Prop} {Q : Except ε α → σ → Prop} (f : Op → Op')
    (p : Process Op (fun op => Res' (f op)) ε α) (s : σ)
    (h : p.Meets (fun op => exec (f op)) (fun op => C (f op)) I R (fun op => P (f op)) Q s) :
    (p.mapOp f).Meets exec C I R P Q s := by
  induction p generalizing s with
  | done r => exact h
  | call op next ih =>
      intro t hI hst
      exact ⟨(h t hI hst).1, fun w hC => ih _ _ ((h t hI hst).2 w hC)⟩

theorem meets_mono {P' : Op → σ → Prop} {Q Q' : Except ε α → σ → Prop}
    (hP : ∀ op s, P op s → P' op s) (hQ : ∀ r s, Q r s → Q' r s)
    (p : Process Op Res ε α) (s : σ) (h : p.Meets exec C I R P Q s) : p.Meets exec C I R P' Q' s := by
  induction p generalizing s with
  | done r => exact hQ r s h
  | call op next ih =>
      intro t hI hst
      exact ⟨hP op t (h t hI hst).1, fun w hC => ih _ _ ((h t hI hst).2 w hC)⟩

/-- What a process does under a condition it does under a stronger one. -/
theorem meets_condition {C' : Op → ω → σ → Prop} {Q : Except ε α → σ → Prop}
    (hC : ∀ op w s, C' op w s → C op w s) (p : Process Op Res ε α) (s : σ)
    (h : p.Meets exec C I R P Q s) : p.Meets exec C' I R P Q s := by
  induction p generalizing s with
  | done r => exact h
  | call op next ih =>
      intro t hI hst
      exact ⟨(h t hI hst).1, fun w hw => ih _ _ ((h t hI hst).2 w (hC op w t hw))⟩

/-- What is known of a process in two ways is known of it together. -/
theorem meets_and {P' : Op → σ → Prop} {Q Q' : Except ε α → σ → Prop} (p : Process Op Res ε α)
    (s : σ) (h : p.Meets exec C I R P Q s) (h' : p.Meets exec C I R P' Q' s) :
    p.Meets exec C I R (fun op t => P op t ∧ P' op t) (fun r t => Q r t ∧ Q' r t) s := by
  induction p generalizing s with
  | done r => exact ⟨h, h'⟩
  | call op next ih =>
      intro t hI hst
      refine ⟨⟨(h t hI hst).1, (h' t hI hst).1⟩, fun w hw => ?_⟩
      exact ih _ _ ((h t hI hst).2 w hw) ((h' t hI hst).2 w hw)

/-- What neither the process nor others disturb holds where the process ends. -/
theorem meets_frame (K : σ → Prop) (hR : ∀ s t, K s → R s t → K t)
    (hexec : ∀ op w t, I t → P op t → C op w t → K t → K (exec op w t).2)
    (p : Process Op Res ε α) (s : σ) (hs : K s) (h : p.Meets exec C I R P Q s) :
    p.Meets exec C I R P (fun r t => Q r t ∧ K t) s := by
  induction p generalizing s with
  | done r => exact ⟨h, hs⟩
  | call op next ih =>
      intro t hI hst
      have hop := (h t hI hst).1
      refine ⟨hop, fun w hC => ?_⟩
      exact ih _ _ (hexec op w t hI hop hC (hR s t hs hst)) ((h t hI hst).2 w hC)

/-- Every operation the process may come to is one that `A` allows, and every
    value it may return is one of `T`, whatever the answers. -/
def Within (A : Op → Prop) (T : α → Prop) : Process Op Res ε α → Prop
  | .done (.ok a) => T a
  | .done (.error _) => True
  | .call op next => A op ∧ ∀ r, (next r).Within A T

theorem within_mono {A B : Op → Prop} {T : α → Prop} (h : ∀ op, A op → B op)
    (p : Process Op Res ε α) (hp : p.Within A T) : p.Within B T := by
  induction p with
  | done r =>
      cases r with
      | ok a => exact hp
      | error e => exact trivial
  | call op next ih => exact ⟨h op hp.1, fun r => ih r (hp.2 r)⟩

theorem within_bind {U : β → Prop} {f : α → Process Op Res ε β}
    {p : Process Op Res ε α} (hp : p.Within A T) (hf : ∀ a, T a → (f a).Within A U) :
    (p >>= f).Within A U := by
  induction p with
  | done r =>
      cases r with
      | ok a => exact hf a hp
      | error e => exact trivial
  | call op next ih => exact ⟨hp.1, fun r => ih r (hp.2 r)⟩

theorem within_tryCatch (f : ε → Process Op Res ε α)
    (p : Process Op Res ε α) (hp : p.Within A T) (hf : ∀ e, (f e).Within A T) :
    (tryCatch p f).Within A T := by
  induction p with
  | done r =>
      cases r with
      | ok a => exact hp
      | error e => exact hf e
  | call op next ih => exact ⟨hp.1, fun r => ih r (hp.2 r)⟩

theorem within_request (op : Op) (h : A op) :
    (request op : Process Op (fun op => Except ε (Ret op)) ε (Ret op)).Within A
      (fun _ => True) := by
  refine ⟨h, fun r => ?_⟩
  cases r with
  | ok a => exact trivial
  | error e => exact trivial

theorem within_ite {c : Prop} [Decidable c]
    {p q : Process Op Res ε α} (hp : p.Within A T) (hq : q.Within A T) :
    (if c then p else q).Within A T := by
  split
  · exact hp
  · exact hq

theorem within_ofExcept (r : Except ε α) :
    (ofExcept r : Process Op Res ε α).Within A (fun _ => True) := by
  cases r with
  | ok a => exact trivial
  | error e => exact trivial

/-- An operation of a kind is taken at most once, whatever the answers. -/
def Once (A : Op → Prop) : Process Op Res ε α → Prop
  | .done _ => True
  | .call op next =>
      (A op → ∀ r, (next r).Within (fun op => ¬ A op) (fun _ => True)) ∧ ∀ r, (next r).Once A

theorem once_of_within (p : Process Op Res ε α)
    (h : p.Within (fun op => ¬ A op) (fun _ => True)) : p.Once A := by
  induction p with
  | done r => exact trivial
  | call op next ih => exact ⟨fun hop => absurd hop h.1, fun r => ih r (h.2 r)⟩

/-- Where the first process may take it, the second does not. -/
theorem once_bind (f : α → Process Op Res ε β) (p : Process Op Res ε α)
    (hp : p.Once A) (hf : ∀ a, (f a).Within (fun op => ¬ A op) (fun _ => True)) :
    (p >>= f).Once A := by
  induction p with
  | done r =>
      cases r with
      | ok a => exact once_of_within (f a) (hf a)
      | error e => exact trivial
  | call op next ih =>
      exact ⟨fun hop r => within_bind (p := next r) (hp.1 hop r) (fun a _ => hf a),
        fun r => ih r (hp.2 r)⟩

/-- Where the first does not, the second may. -/
theorem within_bind_once (f : α → Process Op Res ε β) (p : Process Op Res ε α)
    (hp : p.Within (fun op => ¬ A op) (fun _ => True)) (hf : ∀ a, (f a).Once A) :
    (p >>= f).Once A := by
  induction p with
  | done r =>
      cases r with
      | ok a => exact hf a
      | error e => exact trivial
  | call op next ih => exact ⟨fun hop => absurd hop hp.1, fun r => ih r (hp.2 r)⟩

theorem once_request (op : Op) :
    (request op : Process Op (fun op => Except ε (Ret op)) ε (Ret op)).Once A := by
  refine ⟨fun _ r => ?_, fun _ => trivial⟩
  cases r with
  | ok a => exact trivial
  | error e => exact trivial

end

section Settles

variable {A : Op → Prop} {Ret : Op → Type}

/-- Where an operation of a kind is answered, the process has ended with a result. -/
def Settles (A : Op → Prop) : Process Op (fun op => Except ε (Ret op)) ε α → Prop
  | .done _ => True
  | .call op next => (A op → ∀ r, ∃ a, next (.ok r) = .done (.ok a)) ∧ ∀ r, (next r).Settles A

theorem settles_of_within (p : Process Op (fun op => Except ε (Ret op)) ε α)
    (h : p.Within (fun op => ¬ A op) (fun _ => True)) : p.Settles A := by
  induction p with
  | done r => exact trivial
  | call op next ih => exact ⟨fun hop => absurd hop h.1, fun r => ih r (h.2 r)⟩

/-- Only the second process may take it. -/
theorem settles_bind (f : α → Process Op (fun op => Except ε (Ret op)) ε β)
    (p : Process Op (fun op => Except ε (Ret op)) ε α)
    (hp : p.Within (fun op => ¬ A op) (fun _ => True)) (hf : ∀ a, (f a).Settles A) :
    (p >>= f).Settles A := by
  induction p with
  | done r =>
      cases r with
      | ok a => exact hf a
      | error e => exact trivial
  | call op next ih => exact ⟨fun hop => absurd hop hp.1, fun r => ih r (hp.2 r)⟩

/-- Nothing but the result follows the operation. -/
theorem settles_request (op : Op) (g : Ret op → α) :
    (request op >>= fun r => Process.done (.ok (g r)) :
      Process Op (fun op => Except ε (Ret op)) ε α).Settles A := by
  refine ⟨fun _ r => ⟨g r, rfl⟩, fun r => ?_⟩
  cases r with
  | ok a => exact trivial
  | error e => exact trivial

/-- What resumes from an error does not take it. -/
theorem settles_tryCatch (f : ε → Process Op (fun op => Except ε (Ret op)) ε α)
    (p : Process Op (fun op => Except ε (Ret op)) ε α) (hp : p.Settles A)
    (hf : ∀ e, (f e).Within (fun op => ¬ A op) (fun _ => True)) : (tryCatch p f).Settles A := by
  induction p with
  | done r =>
      cases r with
      | ok a => exact trivial
      | error e => exact settles_of_within (f e) (hf e)
  | call op next ih =>
      refine ⟨fun hop r => ?_, fun r => ih r (hp.2 r)⟩
      rcases hp.1 hop r with ⟨a, hdone⟩
      exact ⟨a, congrArg (fun q => tryCatch q f) hdone⟩

/-- Where an operation that is to fail the process is answered, the process has ended
    with the error that belongs to it. -/
def Fails (d : Op → Option ε) : Process Op (fun op => Except ε (Ret op)) ε α → Prop
  | .done _ => True
  | .call op next =>
      (∀ e, d op = some e → ∀ r, next (.ok r) = .done (.error e)) ∧ ∀ r, (next r).Fails d

variable {d : Op → Option ε}

theorem fails_of_within (p : Process Op (fun op => Except ε (Ret op)) ε α)
    (h : p.Within (fun op => d op = none) (fun _ => True)) : p.Fails d := by
  induction p with
  | done r => exact trivial
  | call op next ih =>
      refine ⟨fun e he => ?_, fun r => ih r (h.2 r)⟩
      rw [h.1] at he
      cases he

/-- A process that has failed is not gone on from. -/
theorem fails_bind (f : α → Process Op (fun op => Except ε (Ret op)) ε β)
    (p : Process Op (fun op => Except ε (Ret op)) ε α) (hp : p.Fails d)
    (hf : ∀ a, (f a).Fails d) : (p >>= f).Fails d := by
  induction p with
  | done r =>
      cases r with
      | ok a => exact hf a
      | error e => exact trivial
  | call op next ih =>
      refine ⟨fun e he r => ?_, fun r => ih r (hp.2 r)⟩
      exact congrArg (fun q => q >>= f) (hp.1 e he r)

theorem fails_tryCatch (f : ε → Process Op (fun op => Except ε (Ret op)) ε α)
    (p : Process Op (fun op => Except ε (Ret op)) ε α)
    (hp : p.Within (fun op => d op = none) (fun _ => True)) (hf : ∀ e, (f e).Fails d) :
    (tryCatch p f).Fails d := by
  induction p with
  | done r =>
      cases r with
      | ok a => exact trivial
      | error e => exact hf e
  | call op next ih =>
      refine ⟨fun e he => ?_, fun r => ih r (hp.2 r)⟩
      rw [hp.1] at he
      cases he

end Settles

/-- A process of a kind does what it may as long as `K` holds, if `K` allows
    that kind and neither the process nor others disturb it. -/
theorem meets_of_within {A : Op → Prop} {T : α → Prop} {Q : Except ε α → σ → Prop} (K : σ → Prop)
    (hR : ∀ s t, K s → R s t → K t)
    (hexec : ∀ op w t, I t → P op t → C op w t → K t → K (exec op w t).2)
    (hP : ∀ op t, I t → K t → A op → P op t) (hQ : ∀ r t, K t → Q r t)
    (p : Process Op Res ε α) (s : σ) (hs : K s) (hp : p.Within A T) : p.Meets exec C I R P Q s := by
  induction p generalizing s with
  | done r => exact hQ r s hs
  | call op next ih =>
      intro t hI hst
      have ht : K t := hR s t hs hst
      have hop : P op t := hP op t hI ht hp.1
      exact ⟨hop, fun w hC => ih _ _ (hexec op w t hI hop hC ht) (hp.2 _)⟩

/-- Whatever a process does it may do where nothing is asked of it. -/
theorem meets_any (hP : ∀ op s, P op s) {Q : Except ε α → σ → Prop} (hQ : ∀ r s, Q r s)
    (p : Process Op Res ε α) (s : σ) : p.Meets exec C I R P Q s := by
  induction p generalizing s with
  | done r => exact hQ r s
  | call op next ih => exact fun t _ _ => ⟨hP op t, fun w _ => ih _ _⟩

section Alone

variable (exec)

/-- A process by itself, on the outside values of its operations, until it has ended or
    they run out: what is left of it, and the state it leaves. -/
def runOn : Process Op Res ε α → List ω → σ → Process Op Res ε α × σ
  | .done r, _, s => (.done r, s)
  | .call op next, [], s => (.call op next, s)
  | .call op next, w :: ws, s => runOn (next (exec op w s).1) ws (exec op w s).2

/-- Every operation it takes meets a condition. -/
def TakenOn (P : Op → ω → σ → Prop) : Process Op Res ε α → List ω → σ → Prop
  | .done _, _, _ => True
  | .call _ _, [], _ => True
  | .call op next, w :: ws, s => P op w s ∧ TakenOn P (next (exec op w s).1) ws (exec op w s).2

variable {exec}

theorem takenOn_of_forall {P : Op → ω → σ → Prop} (h : ∀ op w s, P op w s)
    (p : Process Op Res ε α) (ws : List ω) (s : σ) : TakenOn exec P p ws s := by
  induction ws generalizing p s with
  | nil => cases p <;> exact trivial
  | cons w ws ih =>
      cases p with
      | done r => exact trivial
      | call op next => exact ⟨h op w s, ih _ _⟩

theorem takenOn_mono {P P' : Op → ω → σ → Prop} (h : ∀ op w s, P op w s → P' op w s)
    (p : Process Op Res ε α) (ws : List ω) (s : σ) (hP : TakenOn exec P p ws s) :
    TakenOn exec P' p ws s := by
  induction ws generalizing p s with
  | nil => cases p <;> exact trivial
  | cons w ws ih =>
      cases p with
      | done r => exact trivial
      | call op next => exact ⟨h op w s hP.1, ih _ _ hP.2⟩

/-- What none of the operations it takes disturbs holds however far it comes. -/
theorem runOn_keeps {P : Op → ω → σ → Prop} (K : σ → Prop)
    (hK : ∀ op w s, P op w s → K s → K (exec op w s).2) (p : Process Op Res ε α) (ws : List ω)
    (s : σ) (hP : TakenOn exec P p ws s) (hs : K s) : K (runOn exec p ws s).2 := by
  induction ws generalizing p s with
  | nil => cases p <;> exact hs
  | cons w ws ih =>
      cases p with
      | done r => exact hs
      | call op next => exact ih _ _ hP.2 (hK op w s hP.1 hs)

/-- A process that nobody disturbs keeps the invariant and takes only what it is
    allowed, however far it comes. -/
theorem meets_runOn {Q : Except ε α → σ → Prop}
    (hkeep : ∀ op w s, I s → P op s → C op w s → I (exec op w s).2) (p : Process Op Res ε α)
    (ws : List ω) (s : σ) (hs : I s) (h : p.Meets exec C I Eq P Q s)
    (hC : TakenOn exec C p ws s) :
    I (runOn exec p ws s).2 ∧ (runOn exec p ws s).1.Meets exec C I Eq P Q (runOn exec p ws s).2 ∧
      TakenOn exec (fun op _ s => I s ∧ P op s) p ws s := by
  induction ws generalizing p s with
  | nil => cases p <;> exact ⟨hs, h, trivial⟩
  | cons w ws ih =>
      cases p with
      | done r => exact ⟨hs, h, trivial⟩
      | call op next =>
          have hop := h s hs rfl
          have hrest := ih (next (exec op w s).1) (exec op w s).2
            (hkeep op w s hs hop.1 hC.1) (hop.2 w hC.1) hC.2
          exact ⟨hrest.1, hrest.2.1, ⟨hs, hop.1⟩, hrest.2.2⟩

variable (exec) in
/-- A process by itself to its end, on outside values that do not run out. -/
def finish : Process Op Res ε α → (ℕ → ω) → σ → Except ε α × σ
  | .done r, _, s => (r, s)
  | .call op next, ws, s =>
      (next (exec op (ws 0) s).1).finish (fun n => ws (n + 1)) (exec op (ws 0) s).2

variable (exec) in
/-- Every operation it takes on the way meets a condition. -/
def TakenAll (P : Op → ω → σ → Prop) : Process Op Res ε α → (ℕ → ω) → σ → Prop
  | .done _, _, _ => True
  | .call op next, ws, s => P op (ws 0) s ∧
      (next (exec op (ws 0) s).1).TakenAll P (fun n => ws (n + 1)) (exec op (ws 0) s).2

instance decidableTakenAll (P : Op → ω → σ → Prop) [∀ op w s, Decidable (P op w s)] :
    (p : Process Op Res ε α) → (ws : ℕ → ω) → (s : σ) → Decidable (TakenAll exec P p ws s)
  | .done _, _, _ => isTrue trivial
  | .call op next, ws, s =>
      haveI := decidableTakenAll P (next (exec op (ws 0) s).1) (fun n => ws (n + 1))
        (exec op (ws 0) s).2
      inferInstanceAs (Decidable (_ ∧ _))

theorem takenAll_mono {P P' : Op → ω → σ → Prop} (h : ∀ op w s, P op w s → P' op w s)
    (p : Process Op Res ε α) (ws : ℕ → ω) (s : σ) (hP : TakenAll exec P p ws s) :
    TakenAll exec P' p ws s := by
  induction p generalizing ws s with
  | done r => exact trivial
  | call op next ih => exact ⟨h op (ws 0) s hP.1, ih _ _ _ hP.2⟩

theorem takenAll_of_forall {P : ω → Prop} (p : Process Op Res ε α) (ws : ℕ → ω) (s : σ)
    (h : ∀ n, P (ws n)) : TakenAll exec (fun _ w _ => P w) p ws s := by
  induction p generalizing ws s with
  | done r => exact trivial
  | call op next ih => exact ⟨h 0, ih _ _ _ (fun n => h (n + 1))⟩

variable (exec) in
/-- Some operation it takes on the way meets a condition. -/
def TakenSome (P : Op → ω → σ → Prop) : Process Op Res ε α → (ℕ → ω) → σ → Prop
  | .done _, _, _ => False
  | .call op next, ws, s => P op (ws 0) s ∨
      (next (exec op (ws 0) s).1).TakenSome P (fun n => ws (n + 1)) (exec op (ws 0) s).2

/-- What a process that nobody disturbs ends with is as it should be. -/
theorem meets_finish {Q : Except ε α → σ → Prop}
    (hkeep : ∀ op w s, I s → P op s → C op w s → I (exec op w s).2) (p : Process Op Res ε α)
    (ws : ℕ → ω) (s : σ) (hs : I s) (h : p.Meets exec C I Eq P Q s)
    (hC : TakenAll exec C p ws s) :
    I (finish exec p ws s).2 ∧ Q (finish exec p ws s).1 (finish exec p ws s).2 := by
  induction p generalizing ws s with
  | done r => exact ⟨hs, h⟩
  | call op next ih =>
      have hop := h s hs rfl
      exact ih _ _ _ (hkeep op (ws 0) s hs hop.1 hC.1) (hop.2 (ws 0) hC.1) hC.2

end Alone

/-- A shared state and the processes running over it, one for each call. -/
structure Pool (ι Op : Type) (Res : Op → Type) (σ ε α : Type) where
  shared : σ
  calls : ι → Process Op Res ε α

namespace Pool

variable {ι : Type} [DecidableEq ι]

/-- The operation a call takes next, unless it has ended. -/
def next (c : Pool ι Op Res σ ε α) (i : ι) : Option Op :=
  match c.calls i with
  | .done _ => none
  | .call op _ => some op

/-- What a call has ended with. -/
def result (c : Pool ι Op Res σ ε α) (i : ι) : Option (Except ε α) :=
  match c.calls i with
  | .done r => some r
  | .call _ _ => none

variable (exec) in
/-- Let one call take its next operation; one that has ended takes none. -/
def step (c : Pool ι Op Res σ ε α) (e : ι × ω) : Pool ι Op Res σ ε α :=
  match c.calls e.1 with
  | .done _ => c
  | .call op next =>
      { shared := (exec op e.2 c.shared).2
        calls := Function.update c.calls e.1 (next (exec op e.2 c.shared).1) }

variable (exec) in
/-- The pool after a schedule: who goes next, and on which outside value. -/
abbrev run (c : Pool ι Op Res σ ε α) (es : List (ι × ω)) : Pool ι Op Res σ ε α :=
  Run.runFrom (step exec) c es

/-- The operation about to be taken meets what is asked of its call, in the
    state it is taken from. -/
def TakesEach (C : ι → Op → ω → σ → Prop) (c : Pool ι Op Res σ ε α) (e : ι × ω) : Prop :=
  ∀ op, c.next e.1 = some op → C e.1 op e.2 c.shared

/-- The same, where one condition is asked of every call. -/
abbrev Takes (C : Op → ω → σ → Prop) (c : Pool ι Op Res σ ε α) (e : ι × ω) : Prop :=
  TakesEach (fun _ => C) c e

instance decidableTakes (C : ι → Op → ω → σ → Prop) [∀ i op w s, Decidable (C i op w s)]
    (c : Pool ι Op Res σ ε α) (e : ι × ω) : Decidable (TakesEach C c e) :=
  match h : c.next e.1 with
  | none => isTrue (fun op hop => by rw [h] at hop; cases hop)
  | some op =>
      if hC : C e.1 op e.2 c.shared then
        isTrue (fun op' hop' => by rw [h, Option.some.injEq] at hop'; exact hop' ▸ hC)
      else isFalse (fun hall => hC (hall op h))

variable (exec) in
/-- Let one call take its next operation, unless it has to wait for it. -/
def stepWhen (ready : Op → σ → Bool) (c : Pool ι Op Res σ ε α) (e : ι × ω) :
    Pool ι Op Res σ ε α :=
  match c.next e.1 with
  | none => c
  | some op => if ready op c.shared then step exec c e else c

variable (exec) in
/-- The state keeps the invariant, and each call is within its bounds from a
    state the others have moved only within what it relies on. -/
def SoundEach (C : ι → Op → ω → σ → Prop) (I : σ → Prop) (R : ι → σ → σ → Prop)
    (P : ι → Op → σ → Prop) (Q : ι → Except ε α → σ → Prop) (c : Pool ι Op Res σ ε α) : Prop :=
  I c.shared ∧ ∀ i, ∃ s, R i s c.shared ∧ (c.calls i).Meets exec (C i) I (R i) (P i) (Q i) s

variable (exec) in
/-- The same, where one condition is asked of every call. -/
abbrev Sound (C : Op → ω → σ → Prop) (I : σ → Prop) (R : ι → σ → σ → Prop)
    (P : ι → Op → σ → Prop) (Q : ι → Except ε α → σ → Prop) (c : Pool ι Op Res σ ε α) : Prop :=
  SoundEach exec (fun _ => C) I R P Q c

omit [DecidableEq ι] in
theorem calls_of_result (c : Pool ι Op Res σ ε α) (i : ι) (r : Except ε α)
    (h : c.result i = some r) : c.calls i = .done r := by
  unfold result at h
  cases hcall : c.calls i with
  | done r' => rw [hcall, Option.some.injEq] at h; rw [h]
  | call op k => simp only [hcall, reduceCtorEq] at h

theorem step_done (c : Pool ι Op Res σ ε α) (e : ι × ω) (r : Except ε α)
    (h : c.calls e.1 = .done r) : step exec c e = c := by
  simp only [step, h]

variable (exec) in
theorem step_call (c : Pool ι Op Res σ ε α) (e : ι × ω) (op : Op)
    (next : Res op → Process Op Res ε α) (h : c.calls e.1 = .call op next) :
    step exec c e =
      { shared := (exec op e.2 c.shared).2
        calls := Function.update c.calls e.1 (next (exec op e.2 c.shared).1) } := by
  simp only [step, h]

variable (exec) in
/-- What a step does to the state is what the next operation does to it. -/
theorem step_shared (c : Pool ι Op Res σ ε α) (e : ι × ω) :
    (c.next e.1 = none ∧ (step exec c e).shared = c.shared) ∨
      ∃ op, c.next e.1 = some op ∧ (step exec c e).shared = (exec op e.2 c.shared).2 := by
  cases hcall : c.calls e.1 with
  | done r => exact Or.inl ⟨by simp only [next, hcall], by rw [step_done c e r hcall]⟩
  | call op k => exact Or.inr ⟨op, by simp only [next, hcall], by rw [step_call _ c e op k hcall]⟩

variable (exec) in
/-- A step leaves a call where it is, or takes its next operation. -/
theorem step_calls (c : Pool ι Op Res σ ε α) (e : ι × ω) (i : ι) :
    (step exec c e).calls i = c.calls i ∨ ∃ op next, i = e.1 ∧ c.calls i = .call op next ∧
      (step exec c e).calls i = next (exec op e.2 c.shared).1 := by
  cases hcall : c.calls e.1 with
  | done r => exact Or.inl (by rw [step_done c e r hcall])
  | call op k =>
      rw [step_call _ c e op k hcall]
      by_cases hi : i = e.1
      · exact Or.inr ⟨op, k, hi, hi ▸ hcall, by simp only [hi, Function.update_self]⟩
      · exact Or.inl (Function.update_of_ne hi _ _)

section

variable {A : Op → Prop}

/-- What a call may still come to it may still come to after a step. -/
theorem step_within {T : α → Prop} (c : Pool ι Op Res σ ε α) (e : ι × ω) (i : ι)
    (h : (c.calls i).Within A T) : ((step exec c e).calls i).Within A T := by
  rcases step_calls exec c e i with hsame | ⟨op, next, _, hcall, hstep⟩
  · rw [hsame]; exact h
  · rw [hcall] at h
    rw [hstep]
    exact h.2 _

theorem step_once (c : Pool ι Op Res σ ε α) (e : ι × ω) (i : ι)
    (h : (c.calls i).Once A) : ((step exec c e).calls i).Once A := by
  rcases step_calls exec c e i with hsame | ⟨op, next, _, hcall, hstep⟩
  · rw [hsame]; exact h
  · rw [hcall] at h
    rw [hstep]
    exact h.2 _

/-- Once an operation of a kind was taken, none is left. -/
theorem step_taken (c : Pool ι Op Res σ ε α) (e : ι × ω) (op : Op)
    (h : (c.calls e.1).Once A) (hnext : c.next e.1 = some op) (hop : A op) :
    ((step exec c e).calls e.1).Within (fun op => ¬ A op) (fun _ => True) := by
  cases hcall : c.calls e.1 with
  | done r => simp only [next, hcall, reduceCtorEq] at hnext
  | call op' k =>
      simp only [next, hcall, Option.some.injEq] at hnext
      rw [hcall] at h
      rw [step_call _ c e op' k hcall]
      simp only [Function.update_self]
      exact h.1 (hnext ▸ hop) _

/-- So does a process that ends with an operation of a kind. -/
theorem step_settles {Ret : Op → Type}
    {exec : (op : Op) → ω → σ → Except ε (Ret op) × σ}
    (c : Pool ι Op (fun op => Except ε (Ret op)) σ ε α) (e : ι × ω) (i : ι)
    (h : (c.calls i).Settles A) : ((step exec c e).calls i).Settles A := by
  rcases step_calls exec c e i with hsame | ⟨op, next, _, hcall, hstep⟩
  · rw [hsame]; exact h
  · rw [hcall] at h
    rw [hstep]
    exact h.2 _

/-- A call has ended with a result once such an operation is answered. -/
theorem step_settled {Ret : Op → Type}
    {exec : (op : Op) → ω → σ → Except ε (Ret op) × σ}
    (c : Pool ι Op (fun op => Except ε (Ret op)) σ ε α) (e : ι × ω) (op : Op) (r : Ret op)
    (h : (c.calls e.1).Settles A) (hnext : c.next e.1 = some op) (hop : A op)
    (hok : (exec op e.2 c.shared).1 = .ok r) :
    ∃ a, (step exec c e).result e.1 = some (.ok a) := by
  cases hcall : c.calls e.1 with
  | done r' => simp only [next, hcall, reduceCtorEq] at hnext
  | call op' k =>
      simp only [next, hcall, Option.some.injEq] at hnext
      subst hnext
      rw [hcall] at h
      rcases h.1 hop r with ⟨a, hdone⟩
      refine ⟨a, ?_⟩
      rw [result, step_call _ c e op' k hcall]
      simp only [Function.update_self]
      rw [hok, hdone]

end

theorem step_fails {d : Op → Option ε} {Ret : Op → Type}
    {exec : (op : Op) → ω → σ → Except ε (Ret op) × σ}
    (c : Pool ι Op (fun op => Except ε (Ret op)) σ ε α) (e : ι × ω) (i : ι)
    (h : (c.calls i).Fails d) : ((step exec c e).calls i).Fails d := by
  rcases step_calls exec c e i with hsame | ⟨op, next, _, hcall, hstep⟩
  · rw [hsame]; exact h
  · rw [hcall] at h
    rw [hstep]
    exact h.2 _

/-- A call has failed once an operation that is to fail it is answered. -/
theorem step_failed {d : Op → Option ε} {Ret : Op → Type}
    {exec : (op : Op) → ω → σ → Except ε (Ret op) × σ}
    (c : Pool ι Op (fun op => Except ε (Ret op)) σ ε α) (e : ι × ω) (op : Op) (r : Ret op) (x : ε)
    (h : (c.calls e.1).Fails d) (hnext : c.next e.1 = some op) (hop : d op = some x)
    (hok : (exec op e.2 c.shared).1 = .ok r) :
    (step exec c e).result e.1 = some (.error x) := by
  cases hcall : c.calls e.1 with
  | done r' => simp only [next, hcall, reduceCtorEq] at hnext
  | call op' k =>
      simp only [next, hcall, Option.some.injEq] at hnext
      subst hnext
      rw [hcall] at h
      rw [result, step_call _ c e op' k hcall]
      simp only [Function.update_self]
      rw [hok, h.1 x hop r]

omit [DecidableEq ι] in
/-- An operation is of the kind that is left. -/
theorem next_within {A : Op → Prop} {T : α → Prop} (c : Pool ι Op Res σ ε α) (i : ι) (op : Op)
    (h : (c.calls i).Within A T) (hnext : c.next i = some op) : A op := by
  cases hcall : c.calls i with
  | done r => simp only [next, hcall, reduceCtorEq] at hnext
  | call op' k =>
      simp only [next, hcall, Option.some.injEq] at hnext
      rw [hcall] at h
      exact hnext ▸ h.1

/-- A call that is never scheduled has not moved. -/
theorem run_calls_of_notMem (c : Pool ι Op Res σ ε α) (es : List (ι × ω)) (i : ι)
    (h : i ∉ es.map Prod.fst) : (run exec c es).calls i = c.calls i := by
  induction es generalizing c with
  | nil => rfl
  | cons e es ih =>
      rw [List.map_cons, List.mem_cons, not_or] at h
      rcases step_calls exec c e i with hsame | ⟨_, _, hi, _⟩
      · exact (ih (step exec c e) h.2).trans hsame
      · exact absurd hi h.1

variable (exec) in
/-- Nor does a step that may have to wait do anything else. -/
theorem stepWhen_shared (ready : Op → σ → Bool) (c : Pool ι Op Res σ ε α) (e : ι × ω) :
    (stepWhen exec ready c e).shared = c.shared ∨
      ∃ op, c.next e.1 = some op ∧ ready op c.shared = true ∧
        (stepWhen exec ready c e).shared = (exec op e.2 c.shared).2 := by
  unfold stepWhen
  split
  · exact Or.inl rfl
  · next op hnext =>
    split
    · next hready =>
      rcases step_shared exec c e with ⟨hnone, -⟩ | ⟨op', hop', hstep⟩
      · rw [hnone] at hnext
        cases hnext
      · rw [hnext, Option.some.injEq] at hop'
        exact Or.inr ⟨op, hnext, hready, by rw [hstep, hop']⟩
    · exact Or.inl rfl

variable {D : ι → Op → ω → σ → Prop} {R : ι → σ → σ → Prop} {P : ι → Op → σ → Prop}
  {Q : ι → Except ε α → σ → Prop}

omit [DecidableEq ι] in
/-- An operation of a sound pool is one its call is allowed. -/
theorem takes_allowed (c : Pool ι Op Res σ ε α) (i : ι) (op : Op)
    (hc : SoundEach exec D I R P Q c) (h : c.next i = some op) : P i op c.shared := by
  rcases hc.2 i with ⟨s, hs, hm⟩
  cases hcall : c.calls i with
  | done r => simp only [next, hcall, reduceCtorEq] at h
  | call op' k =>
      simp only [next, hcall, Option.some.injEq] at h
      rw [hcall] at hm
      exact h ▸ (hm c.shared hc.1 hs).1

omit [DecidableEq ι] in
/-- What a call of a sound pool has ended with is as it should be, where others
    do not undo that. -/
theorem result_of_sound (c : Pool ι Op Res σ ε α) (i : ι) (r : Except ε α)
    (hstable : ∀ s t, R i s t → Q i r s → Q i r t) (hc : SoundEach exec D I R P Q c)
    (h : c.calls i = .done r) : Q i r c.shared := by
  rcases hc.2 i with ⟨s, hs, hm⟩
  rw [h] at hm
  exact hstable s c.shared hs hm

/-- What a call of a sound pool ends with is as it should be, in the state it
    ends in. -/
theorem ends_of_sound (c : Pool ι Op Res σ ε α) (e : ι × ω) (r : Except ε α)
    (hc : SoundEach exec D I R P Q c) (hD : TakesEach D c e) (hbefore : c.result e.1 = none)
    (hafter : (step exec c e).result e.1 = some r) : Q e.1 r (step exec c e).shared := by
  cases hcall : c.calls e.1 with
  | done r' => simp only [result, hcall, reduceCtorEq] at hbefore
  | call op k =>
      have hnext : c.next e.1 = some op := by simp only [next, hcall]
      have hdone := calls_of_result _ _ _ hafter
      rcases hc.2 e.1 with ⟨s, hs, hm⟩
      rw [hcall] at hm
      have hends := (hm c.shared hc.1 hs).2 e.2 (hD op hnext)
      rw [step_call _ c e op k hcall] at hdone ⊢
      simp only [Function.update_self] at hdone
      rw [hdone] at hends
      exact hends

/-- One operation keeps a pool sound, if an allowed operation taken under the
    condition keeps the invariant and stays within what the other calls rely
    on. -/
theorem step_sound (hrefl : ∀ i s, I s → R i s s)
    (htrans : ∀ i s t u, R i s t → R i t u → R i s u)
    (hkeep : ∀ i op w s, I s → P i op s → D i op w s →
      I (exec op w s).2 ∧ ∀ j, j ≠ i → R j s (exec op w s).2)
    (c : Pool ι Op Res σ ε α) (e : ι × ω) (hc : SoundEach exec D I R P Q c)
    (hC : TakesEach D c e) : SoundEach exec D I R P Q (step exec c e) := by
  cases hcall : c.calls e.1 with
  | done r => rw [step_done c e r hcall]; exact hc
  | call op k =>
      have hnext : c.next e.1 = some op := by simp only [next, hcall]
      have hallowed := takes_allowed c e.1 op hc hnext
      have hkept := hkeep e.1 op e.2 c.shared hc.1 hallowed (hC op hnext)
      rw [step_call _ c e op k hcall]
      refine ⟨hkept.1, fun i => ?_⟩
      by_cases hi : i = e.1
      · -- The acting call goes on from the state it just left.
        rcases hc.2 e.1 with ⟨s, hs, hm⟩
        rw [hcall] at hm
        refine ⟨(exec op e.2 c.shared).2, hrefl i _ hkept.1, ?_⟩
        simp only [hi, Function.update_self]
        exact (hm c.shared hc.1 hs).2 e.2 (hC op hnext)
      · -- Any other call sees one more move within what it relies on.
        rcases hc.2 i with ⟨s, hs, hm⟩
        refine ⟨s, htrans i s _ _ hs (hkept.2 i hi), ?_⟩
        simp only [Function.update_of_ne hi]
        exact hm

/-- So does one operation that a call may have to wait for, where the condition
    holds whenever the operation need not wait. -/
theorem stepWhen_sound (ready : Op → σ → Bool)
    (hrefl : ∀ i s, I s → R i s s) (htrans : ∀ i s t u, R i s t → R i t u → R i s u)
    (hkeep : ∀ i op w s, I s → P i op s → C op w s →
      I (exec op w s).2 ∧ ∀ j, j ≠ i → R j s (exec op w s).2)
    (c : Pool ι Op Res σ ε α) (e : ι × ω) (hc : Sound exec C I R P Q c)
    (hC : Takes (fun op w s => ready op s = true → C op w s) c e) :
    Sound exec C I R P Q (stepWhen exec ready c e) := by
  unfold stepWhen
  split
  · exact hc
  · next op hnext =>
    split
    · next hready =>
      refine step_sound hrefl htrans hkeep c e hc (fun op' hop' => ?_)
      have heq : op = op' := by rw [hnext, Option.some.injEq] at hop'; exact hop'
      subst heq
      exact hC op hnext hready
    · exact hc

end Pool

end Process
