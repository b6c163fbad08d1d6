import Mdevolved.Lib.Watched

/-!
# Processes That Are Cut Off

A call that is cut off takes no further step. It has ended, with an error of its own, and
the state stays as it is. So what holds of pools whose calls take operations holds also
where they may be cut off, if nothing is asked of a call that was.

A process is `Returning` if it ends with a result as long as every operation of it is
answered. Such a process may fail, but does not throw by itself.

What a process still has to do after an answer is lost when it is cut off. `Leads` says
that an answer is followed by an operation at once, so that whoever was not cut off is
about to take it.

## Main definitions

* `Returning`: A process that returns where its operations are answered.
* `Leads`: An operation that comes next after an answer.

## Theorems

* `stepOrCut_calls`: What a step does to a call.
* `stepOrCut_sound`: A step keeps a pool sound.
* `returning_bind`, `returning_request`: What returns.
* `leads_of_within`, `leads_bind`, `leads_request`: What an answer is followed by.
* `stepOrCut_leads`, `stepOrCut_led`: What a call is about to do after a step.
-/

namespace Process

variable {ι Op : Type} {Res : Op → Type} {σ ω ε α β : Type} [DecidableEq ι]

section Steps

variable {exec : (op : Op) → ω → σ → Res op × σ} {cut : ε}

variable (exec cut) in
/-- A step leaves a call where it is, takes its next operation, or cuts it off. -/
theorem stepOrCut_calls (c : Pool ι Op Res σ ε α) (e : ι × Option ω) (i : ι) :
    (stepOrCut exec cut c e).calls i = c.calls i ∨
      (∃ w op next, e = (i, some w) ∧ c.calls i = .call op next ∧
        (stepOrCut exec cut c e).calls i = next (exec op w c.shared).1) ∨
      (e = (i, none) ∧ (stepOrCut exec cut c e).calls i = .done (.error cut)) := by
  rcases e with ⟨j, _ | w⟩
  · by_cases hi : i = j
    · subst hi
      exact Or.inr (Or.inr ⟨rfl, Function.update_self _ _ _⟩)
    · exact Or.inl (Function.update_of_ne hi _ _)
  · rcases Pool.step_calls exec c (j, w) i with hsame | ⟨op, next, hi, hcall, hstep⟩
    · exact Or.inl hsame
    · have hij : i = j := hi
      subst hij
      exact Or.inr (Or.inl ⟨w, op, next, rfl, hcall, hstep⟩)

/-- What a call may still come to it may still come to after a step. -/
theorem stepOrCut_within {A : Op → Prop} {T : α → Prop} (c : Pool ι Op Res σ ε α)
    (e : ι × Option ω) (i : ι) (h : (c.calls i).Within A T) :
    ((stepOrCut exec cut c e).calls i).Within A T := by
  rcases stepOrCut_calls exec cut c e i with
    hsame | ⟨w, op, next, -, hcall, hstep⟩ | ⟨-, hcut⟩
  · rw [hsame]
    exact h
  · rw [hcall] at h
    rw [hstep]
    exact h.2 _
  · rw [hcut]
    exact trivial

/-- A call that has ended stays so. -/
theorem stepOrCut_ended (c : Pool ι Op Res σ ε α) (e : ι × Option ω) (i : ι)
    (h : ∃ r, c.calls i = .done r) : ∃ r, (stepOrCut exec cut c e).calls i = .done r := by
  rcases h with ⟨r, hr⟩
  rcases stepOrCut_calls exec cut c e i with
    hsame | ⟨w, op, next, -, hcall, -⟩ | ⟨-, hcut⟩
  · exact ⟨r, by rw [hsame, hr]⟩
  · rw [hr] at hcall
    cases hcall
  · exact ⟨_, hcut⟩

variable {C : ι → Op → ω → σ → Prop} {I : σ → Prop} {R : ι → σ → σ → Prop}
  {P : ι → Op → σ → Prop} {Q : ι → Except ε α → σ → Prop}

/-- A step keeps a pool sound, if allowed operations keep the invariant and stay within
    what the other calls rely on. -/
theorem stepOrCut_sound (hrefl : ∀ i s, I s → R i s s)
    (htrans : ∀ i s t u, R i s t → R i t u → R i s u)
    (hkeep : ∀ i op w s, I s → P i op s → C i op w s →
      I (exec op w s).2 ∧ ∀ j, j ≠ i → R j s (exec op w s).2)
    (hcut : ∀ i s, Q i (.error cut) s) (c : Pool ι Op Res σ ε α) (e : ι × Option ω)
    (hc : Pool.SoundEach exec C I R P Q c)
    (hC : ∀ w, e.2 = some w → Pool.TakesEach C c (e.1, w)) :
    Pool.SoundEach exec C I R P Q (stepOrCut exec cut c e) := by
  rcases e with ⟨i, _ | w⟩
  · refine ⟨hc.1, fun j => ?_⟩
    by_cases hj : j = i
    · refine ⟨c.shared, hrefl j _ hc.1, ?_⟩
      simp only [stepOrCut, hj, Function.update_self]
      exact hcut i _
    · simp only [stepOrCut, Function.update_of_ne hj]
      exact hc.2 j
  · exact Pool.step_sound hrefl htrans hkeep c (i, w) hc (hC w rfl)

/-- A step leaves what the other calls are about to do. -/
theorem stepOrCut_next (c : Pool ι Op Res σ ε α) (e : ι × Option ω) (i : ι) (hi : i ≠ e.1) :
    (stepOrCut exec cut c e).next i = c.next i := by
  have hcalls : (stepOrCut exec cut c e).calls i = c.calls i := by
    rcases stepOrCut_calls exec cut c e i with
      hsame | ⟨w, op, next, heq, -, -⟩ | ⟨heq, -⟩
    · exact hsame
    · exact absurd (congrArg Prod.fst heq).symm hi
    · exact absurd (congrArg Prod.fst heq).symm hi
  rw [Pool.next, hcalls, Pool.next]

end Steps

section Returning

variable {Ret : Op → Type}

/-- A process that ends with a result as long as its operations are answered. -/
def Returning : Process Op (fun op => Except ε (Ret op)) ε α → Prop
  | .done (.ok _) => True
  | .done (.error _) => False
  | .call _ next => ∀ r, (next (.ok r)).Returning

theorem returning_bind {f : α → Process Op (fun op => Except ε (Ret op)) ε β}
    {p : Process Op (fun op => Except ε (Ret op)) ε α} (hp : p.Returning)
    (hf : ∀ a, (f a).Returning) : (p >>= f).Returning := by
  induction p with
  | done r =>
      cases r with
      | ok a => exact hf a
      | error e => exact absurd hp id
  | call op next ih => exact fun r => ih (.ok r) (hp r)

theorem returning_request (op : Op) :
    (request op : Process Op (fun op => Except ε (Ret op)) ε (Ret op)).Returning :=
  fun _ => trivial

end Returning

section Leads

variable {Ret : Op → Type} {follow : (op : Op) → Ret op → Option Op}

/-- An answer that an operation is to follow is followed by it. -/
def Leads (follow : (op : Op) → Ret op → Option Op) :
    Process Op (fun op => Except ε (Ret op)) ε α → Prop
  | .done _ => True
  | .call op next =>
      (∀ r op', follow op r = some op' → ∃ k, next (.ok r) = .call op' k) ∧
        ∀ r, (next r).Leads follow

theorem leads_of_within {T : α → Prop} (p : Process Op (fun op => Except ε (Ret op)) ε α)
    (h : p.Within (fun op => ∀ r, follow op r = none) T) : p.Leads follow := by
  induction p with
  | done r => exact trivial
  | call op next ih =>
      refine ⟨fun r op' hr => ?_, fun r => ih r (h.2 r)⟩
      rw [h.1 r] at hr
      cases hr

/-- Only the second process may come to such an answer. -/
theorem leads_bind {T : α → Prop} (f : α → Process Op (fun op => Except ε (Ret op)) ε β)
    (p : Process Op (fun op => Except ε (Ret op)) ε α)
    (hp : p.Within (fun op => ∀ r, follow op r = none) T) (hf : ∀ a, T a → (f a).Leads follow) :
    (p >>= f).Leads follow := by
  induction p with
  | done r =>
      cases r with
      | ok a => exact hf a hp
      | error e => exact trivial
  | call op next ih =>
      refine ⟨fun r op' hr => ?_, fun r => ih r (hp.2 r)⟩
      rw [hp.1 r] at hr
      cases hr

theorem leads_ite (c : Prop) [Decidable c]
    (p q : Process Op (fun op => Except ε (Ret op)) ε α) (hp : p.Leads follow)
    (hq : q.Leads follow) : (if c then p else q).Leads follow := by
  split
  · exact hp
  · exact hq

/-- A request that nothing has to follow. -/
theorem leads_request (op : Op) (f : Ret op → Process Op (fun op => Except ε (Ret op)) ε β)
    (hop : ∀ r, follow op r = none) (hf : ∀ r, (f r).Leads follow) :
    (request op >>= f).Leads follow :=
  leads_bind f (request op) (within_request op hop) (fun r _ => hf r)

variable {exec : (op : Op) → ω → σ → Except ε (Ret op) × σ} {cut : ε}

theorem stepOrCut_leads (c : Pool ι Op (fun op => Except ε (Ret op)) σ ε α) (e : ι × Option ω)
    (i : ι) (h : (c.calls i).Leads follow) :
    ((stepOrCut exec cut c e).calls i).Leads follow := by
  rcases stepOrCut_calls exec cut c e i with
    hsame | ⟨w, op, next, -, hcall, hstep⟩ | ⟨-, hcut⟩
  · rw [hsame]
    exact h
  · rw [hcall] at h
    rw [hstep]
    exact h.2 _
  · rw [hcut]
    exact trivial

/-- Once such an answer was given, the operation that follows is the next one. -/
theorem stepOrCut_led (c : Pool ι Op (fun op => Except ε (Ret op)) σ ε α) (i : ι) (w : ω)
    (op op' : Op) (r : Ret op) (h : (c.calls i).Leads follow) (hnext : c.next i = some op)
    (hok : (exec op w c.shared).1 = .ok r) (hfollow : follow op r = some op') :
    (stepOrCut exec cut c (i, some w)).next i = some op' := by
  cases hcall : c.calls i with
  | done r' => simp only [Pool.next, hcall, reduceCtorEq] at hnext
  | call op'' k =>
      simp only [Pool.next, hcall, Option.some.injEq] at hnext
      subst hnext
      rw [hcall] at h
      rcases h.1 r op' hfollow with ⟨k', hk'⟩
      have hstep : (stepOrCut exec cut c (i, some w)).calls i = k (.ok r) := by
        rw [stepOrCut, Pool.step_call _ c (i, w) op'' k hcall, hok]
        exact Function.update_self _ _ _
      rw [Pool.next, hstep, hk']

end Leads

end Process
