import Mdevolved.Lib.Process

/-!
# Watching Processes

What a call of a pool has learned from its answers is hidden in how it goes on.
To speak of it, each call is given a note that is brought up to date with every
answer and that no operation reads. `note` says what the note keeps of an
answer. So a condition on a step may mention what the call about to take it has
seen, and what the others have.

A call may also be cut off, at any point. It then takes no further step, and what
it has noted is dropped.

`forget_run` says that watching changes nothing. `step_sound` is the rule for
pools that are watched: a call relies on its own note alone to stay as it is.

Where what a call may do depends on its own note alone, whatever the answers are, it
can be told from the text of its process. That is `Informed`, and `step_informed`
asks for nothing else.

## Main definitions

* `stepOrCut`: One operation of one process, or the end of it.
* `tracked`: An operation that also brings a note up to date.
* `Watched.step`: The same step, where calls are watched.
* `Watched.Takes`: A condition on the step about to be taken.
* `watch`, `forget`: A pool with and without its notes.

## Theorems

* `Watched.forget_run`: Watching changes nothing.
* `Watched.step_sound`: A step keeps a watched pool sound.
* `informed_bind`, `informed_tryCatch`, `informed_request`: The rules for such processes.
* `Watched.step_informed`, `Watched.next_informed`: Calls that are informed stay so.
-/

namespace Process

variable {ι Op : Type} {Res : Op → Type} {σ ω ε α γ : Type} [DecidableEq ι]

/-- Let one call take its next operation, or cut it off. -/
def stepOrCut (exec : (op : Op) → ω → σ → Res op × σ) (cut : ε) (c : Pool ι Op Res σ ε α) :
    ι × Option ω → Pool ι Op Res σ ε α
  | (i, some w) => Pool.step exec c (i, w)
  | (i, none) => { c with calls := Function.update c.calls i (.done (.error cut)) }

/-- An operation together with what its call notes of the answer. The outside value
    also says whose operation it is. -/
def tracked (exec : (op : Op) → ω → σ → Res op × σ) (note : (op : Op) → Res op → γ → γ)
    (op : Op) (w : ι × ω) (s : σ × (ι → γ)) : Res op × (σ × (ι → γ)) :=
  ((exec op w.2 s.1).1,
    (exec op w.2 s.1).2, Function.update s.2 w.1 (note op (exec op w.2 s.1).1 (s.2 w.1)))

/-! ## Processes that go by what they noted -/

section Informed

variable {β : Type} (note : (op : Op) → Res op → γ → γ) (A : Op → γ → Prop)

/-- Every operation the process may come to is one that `A` allows by what was noted of
    the answers before it, and what it returns is as `T` says, whatever the answers. -/
def Informed (T : α → γ → Prop) : Process Op Res ε α → γ → Prop
  | .done (.ok a), g => T a g
  | .done (.error _), _ => True
  | .call op next, g => A op g ∧ ∀ r, Informed T (next r) (note op r g)

variable {note A}

theorem informed_bind {T : α → γ → Prop} {U : β → γ → Prop} (f : α → Process Op Res ε β)
    (p : Process Op Res ε α) (g : γ) (hp : p.Informed note A T g)
    (hf : ∀ a g, T a g → (f a).Informed note A U g) : (p >>= f).Informed note A U g := by
  induction p generalizing g with
  | done r =>
      cases r with
      | ok a => exact hf a g hp
      | error e => exact trivial
  | call op next ih => exact ⟨hp.1, fun r => ih r _ (hp.2 r)⟩

/-- A handler is informed of nothing but what was noted when the error was thrown. -/
theorem informed_tryCatch {T : α → γ → Prop} (f : ε → Process Op Res ε α)
    (p : Process Op Res ε α) (g : γ) (hp : p.Informed note A T g)
    (hf : ∀ e g, (f e).Informed note A T g) : (tryCatch p f).Informed note A T g := by
  induction p generalizing g with
  | done r =>
      cases r with
      | ok a => exact hp
      | error e => exact hf e g
  | call op next ih => exact ⟨hp.1, fun r => ih r _ (hp.2 r)⟩

theorem informed_request {Ret : Op → Type} {note : (op : Op) → Except ε (Ret op) → γ → γ}
    {T : α → γ → Prop} (op : Op) (f : Ret op → Process Op (fun op => Except ε (Ret op)) ε α)
    (g : γ) (hop : A op g) (hf : ∀ r, (f r).Informed note A T (note op (.ok r) g)) :
    (request op >>= f).Informed note A T g := by
  refine ⟨hop, fun r => ?_⟩
  cases r with
  | ok a => exact hf a
  | error e => exact trivial

end Informed

namespace Watched

/-- A pool whose calls note nothing yet. -/
def watch (blank : γ) (c : Pool ι Op Res σ ε α) : Pool ι Op Res (σ × (ι → γ)) ε α :=
  { shared := (c.shared, fun _ => blank), calls := c.calls }

/-- A pool without what its calls have noted. -/
def forget (c : Pool ι Op Res (σ × (ι → γ)) ε α) : Pool ι Op Res σ ε α :=
  { shared := c.shared.1, calls := c.calls }

variable (exec : (op : Op) → ω → σ → Res op × σ) (note : (op : Op) → Res op → γ → γ)
  (blank : γ) (cut : ε)

/-- Let one call take its next operation and note the answer, or cut it off. -/
def step (c : Pool ι Op Res (σ × (ι → γ)) ε α) :
    ι × Option ω → Pool ι Op Res (σ × (ι → γ)) ε α
  | (i, some w) => Pool.step (tracked exec note) c (i, (i, w))
  | (i, none) =>
      { shared := (c.shared.1, Function.update c.shared.2 i blank)
        calls := Function.update c.calls i (.done (.error cut)) }

/-- Watching does not change what a step does. -/
theorem forget_step (c : Pool ι Op Res (σ × (ι → γ)) ε α) (e : ι × Option ω) :
    forget (step exec note blank cut c e) = stepOrCut exec cut (forget c) e := by
  rcases e with ⟨i, _ | w⟩
  · rfl
  · simp only [step, stepOrCut]
    cases hcall : c.calls i with
    | done r => rw [Pool.step_done c _ r hcall, Pool.step_done (forget c) (i, w) r hcall]
    | call op next =>
        rw [Pool.step_call _ c _ op next hcall, Pool.step_call _ (forget c) (i, w) op next hcall]
        rfl

theorem forget_run (c : Pool ι Op Res σ ε α) (es : List (ι × Option ω)) :
    forget (Run.runFrom (step exec note blank cut) (watch blank c) es) =
      Run.runFrom (stepOrCut exec cut) c es := by
  have hfrom : ∀ d : Pool ι Op Res (σ × (ι → γ)) ε α,
      forget (Run.runFrom (step exec note blank cut) d es) =
        Run.runFrom (stepOrCut exec cut) (forget d) es := by
    induction es with
    | nil => exact fun d => rfl
    | cons e es ih =>
        intro d
        rw [Run.runFrom_cons, Run.runFrom_cons, ih, forget_step]
  exact hfrom (watch blank c)

/-- The operation about to be taken meets what is asked of it. To be cut off asks
    for nothing. -/
def Takes (C : ι → Op → ω → σ × (ι → γ) → Prop) (c : Pool ι Op Res (σ × (ι → γ)) ε α) :
    ι × Option ω → Prop
  | (i, some w) => Pool.TakesEach C c (i, w)
  | (_, none) => True

instance decidableTakes (C : ι → Op → ω → σ × (ι → γ) → Prop) [∀ i op w s, Decidable (C i op w s)]
    (c : Pool ι Op Res (σ × (ι → γ)) ε α) : (e : ι × Option ω) → Decidable (Takes C c e)
  | (i, some w) => inferInstanceAs (Decidable (Pool.TakesEach C c (i, w)))
  | (_, none) => isTrue trivial

/-- What is asked of an operation that also says whose it is. -/
def Own (C : ι → Op → ω → σ × (ι → γ) → Prop) (i : ι) (op : Op) (w : ι × ω) (s : σ × (ι → γ)) :
    Prop :=
  w.1 = i ∧ C i op w.2 s

variable {exec note blank cut} {C : ι → Op → ω → σ × (ι → γ) → Prop} {I : σ × (ι → γ) → Prop}
  {R : ι → σ × (ι → γ) → σ × (ι → γ) → Prop} {P : ι → Op → σ × (ι → γ) → Prop}

/-- A step keeps a watched pool sound, if allowed operations and dropped notes keep
    the invariant and stay within what the other calls rely on. -/
theorem step_sound (hrefl : ∀ i s, I s → R i s s)
    (htrans : ∀ i s t u, R i s t → R i t u → R i s u)
    (hkeep : ∀ i op w s, I s → P i op s → C i op w s →
      I (tracked exec note op (i, w) s).2 ∧
        ∀ j, j ≠ i → R j s (tracked exec note op (i, w) s).2)
    (hcut : ∀ i s, I s → I (s.1, Function.update s.2 i blank) ∧
      ∀ j, j ≠ i → R j s (s.1, Function.update s.2 i blank))
    (c : Pool ι Op Res (σ × (ι → γ)) ε α) (e : ι × Option ω)
    (hc : Pool.SoundEach (tracked exec note) (Own C) I R P (fun _ _ _ => True) c)
    (he : Takes C c e) :
    Pool.SoundEach (tracked exec note) (Own C) I R P (fun _ _ _ => True)
      (step exec note blank cut c e) := by
  rcases e with ⟨i, _ | w⟩
  · have hkept := hcut i c.shared hc.1
    refine ⟨hkept.1, fun j => ?_⟩
    by_cases hj : j = i
    · refine ⟨_, hrefl j _ hkept.1, ?_⟩
      simp only [step, hj, Function.update_self]
      exact trivial
    · rcases hc.2 j with ⟨s, hs, hm⟩
      refine ⟨s, htrans j s _ _ hs (hkept.2 j hj), ?_⟩
      simp only [step, Function.update_of_ne hj]
      exact hm
  · refine Pool.step_sound hrefl htrans ?_ c (i, (i, w)) hc (fun op hop => ⟨rfl, he op hop⟩)
    rintro i' op ⟨_, w'⟩ s hs hp ⟨rfl, hC⟩
    exact hkeep _ op w' s hs hp hC

/-- A call that goes by what it noted still does after a step. -/
theorem step_informed {A : Op → γ → Prop} {T : α → γ → Prop}
    (c : Pool ι Op Res (σ × (ι → γ)) ε α) (e : ι × Option ω) (i : ι)
    (hc : (c.calls i).Informed note A T (c.shared.2 i)) :
    ((step exec note blank cut c e).calls i).Informed note A T
      ((step exec note blank cut c e).shared.2 i) := by
  rcases e with ⟨j, _ | w⟩
  · by_cases hi : i = j
    · simp only [step, hi, Function.update_self]
      exact trivial
    · simp only [step, Function.update_of_ne hi]
      exact hc
  · simp only [step]
    cases hcall : c.calls j with
    | done r =>
        rw [Pool.step_done c _ r hcall]
        exact hc
    | call op next =>
        rw [Pool.step_call _ c _ op next hcall]
        by_cases hi : i = j
        · subst hi
          rw [hcall] at hc
          simp only [tracked, Function.update_self]
          exact hc.2 _
        · simp only [tracked, Function.update_of_ne hi]
          exact hc

omit [DecidableEq ι] in
/-- The operation such a call takes next is one that it may take by what it noted. -/
theorem next_informed {A : Op → γ → Prop} {T : α → γ → Prop}
    (c : Pool ι Op Res (σ × (ι → γ)) ε α) (i : ι) (op : Op)
    (h : (c.calls i).Informed note A T (c.shared.2 i)) (hnext : c.next i = some op) :
    A op (c.shared.2 i) := by
  cases hcall : c.calls i with
  | done r => simp only [Pool.next, hcall, reduceCtorEq] at hnext
  | call op' next =>
      simp only [Pool.next, hcall, Option.some.injEq] at hnext
      rw [hcall] at h
      exact hnext ▸ h.1

end Watched

end Process
