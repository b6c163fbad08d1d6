import Mathlib

/-!
# Runs of a Step Function

A system that takes one event at a time is a step function, and a run is the
fold of that function over a list of events. The function is total: an event
that is not enabled in a state is one that leaves the state alone, so every
list of events is a run and no run has to be shown to exist.

`Along` is what a statement about some runs only is made of. It asks that
every event of a list meets a condition in the state it is taken from, and
`runFrom_invariant` is the induction that turns a fact about one step under
that condition into a fact about the state the run ends in. A statement about
every run is the case where the condition is trivial, and one about every
state a run passes through is the same statement about the prefixes.

## Main definitions

* `runFrom`: The state a list of events leads to.
* `Along`: Every event of a list meets a condition where it is taken.

## Theorems

* `runFrom_append`: A run over a concatenation is one run after the other.
* `along_of_invariant`: A condition along a run gives another one along it.
* `runFrom_related`: What relates each state to the next relates the ends.
* `along_and_mem`: A condition along a run, and one on its events.
* `served_of_measure`: What waits while a measure falls is served in time.
-/

namespace Run

variable {S E : Type*}

/-- The state a list of events leads to. -/
def runFrom (step : S → E → S) (s : S) (es : List E) : S :=
  es.foldl step s

/-- Every event of the list meets `cond` in the state it is taken from. -/
def Along (cond : S → E → Prop) (step : S → E → S) : S → List E → Prop
  | _, [] => True
  | s, e :: es => cond s e ∧ Along cond step (step s e) es

instance decidableAlong (cond : S → E → Prop) [∀ s e, Decidable (cond s e)] (step : S → E → S) :
    (s : S) → (es : List E) → Decidable (Along cond step s es)
  | _, [] => isTrue trivial
  | s, e :: es =>
      haveI := decidableAlong cond step (step s e) es
      inferInstanceAs (Decidable (_ ∧ _))

section

variable {cond : S → E → Prop} (step : S → E → S) (s : S)

@[simp] theorem runFrom_nil : runFrom step s [] = s := rfl

@[simp] theorem runFrom_cons (e : E) (es : List E) :
    runFrom step s (e :: es) = runFrom step (step s e) es := rfl

theorem runFrom_append (es fs : List E) :
    runFrom step s (es ++ fs) = runFrom step (runFrom step s es) fs :=
  List.foldl_append

/-- A run that is one event longer ends with that event's step. -/
theorem runFrom_concat (es : List E) (e : E) :
    runFrom step s (es ++ [e]) = step (runFrom step s es) e := by
  rw [runFrom_append, runFrom_cons, runFrom_nil]

theorem along_append (cond : S → E → Prop) (step : S → E → S) (s : S) (es fs : List E) :
    Along cond step s (es ++ fs) ↔
      Along cond step s es ∧ Along cond step (runFrom step s es) fs := by
  induction es generalizing s with
  | nil => simp only [List.nil_append, Along, true_and, runFrom_nil]
  | cons e es ih =>
      simp only [List.cons_append, Along, runFrom_cons]
      rw [ih (step s e), and_assoc]

/-- Two conditions along a run. -/
theorem along_and {cond cond' : S → E → Prop} (step : S → E → S) (s : S) (es : List E)
    (h : Along cond step s es) (h' : Along cond' step s es) :
    Along (fun s e => cond s e ∧ cond' s e) step s es := by
  induction es generalizing s with
  | nil => exact trivial
  | cons e es ih => exact ⟨⟨h.1, h'.1⟩, ih (step s e) h.2 h'.2⟩

theorem along_mono {cond cond' : S → E → Prop} (step : S → E → S)
    (himp : ∀ s e, cond s e → cond' s e) (s : S) (es : List E)
    (h : Along cond step s es) : Along cond' step s es := by
  induction es generalizing s with
  | nil => exact trivial
  | cons e es ih => exact ⟨himp s e h.1, ih (step s e) h.2⟩

/-- What every step preserves, every run preserves. -/
theorem runFrom_keeps (I : S → Prop)
    (hstep : ∀ s e, I s → I (step s e)) (s : S) (es : List E)
    (hs : I s) : I (runFrom step s es) := by
  induction es generalizing s with
  | nil => exact hs
  | cons e es ih => exact ih (step s e) (hstep s e hs)

/-- What each step preserves, given the condition it is taken under, a run
    whose events all meet that condition preserves. -/
theorem runFrom_invariant (I : S → Prop)
    (hstep : ∀ s e, I s → cond s e → I (step s e)) (s : S) (es : List E)
    (hs : I s) (hc : Along cond step s es) : I (runFrom step s es) := by
  induction es generalizing s with
  | nil => exact hs
  | cons e es ih => exact ih (step s e) (hstep s e hs hc.1) hc.2

/-- Where a property is kept by exactly the steps that meet a condition, it
    holds all along a run exactly when the whole run meets the condition. -/
theorem forall_prefix_iff_along (I C : S → Prop)
    (hI : ∀ s e, I s → I (step s e)) (hC : ∀ s e, I s → C s → (C (step s e) ↔ cond s e))
    (s : S) (es : List E) (hs : I s) (hc : C s) :
    (∀ pre, pre <+: es → C (runFrom step s pre)) ↔ Along cond step s es := by
  induction es generalizing s with
  | nil =>
      simp only [List.prefix_nil, forall_eq, runFrom_nil, Along, hc]
  | cons e es ih =>
      constructor
      · intro h
        have hfirst : C (step s e) := h [e] (List.prefix_append [e] es)
        refine ⟨(hC s e hs hc).mp hfirst, (ih (step s e) (hI s e hs) hfirst).mp ?_⟩
        intro pre hpre
        exact h (e :: pre) (List.cons_prefix_cons.mpr ⟨rfl, hpre⟩)
      · rintro ⟨hcond, hrest⟩ pre hpre
        have hfirst : C (step s e) := (hC s e hs hc).mpr hcond
        rcases List.prefix_cons_iff.mp hpre with rfl | ⟨pre', rfl, hpre'⟩
        · exact hc
        · exact (ih (step s e) (hI s e hs) hfirst).mpr hrest pre' hpre'

/-- Where a condition keeps an invariant, and gives another condition under it, the
    runs along the first are runs along the second. -/
theorem along_of_invariant {P C : S → E → Prop} (step : S → E → S) (J : S → Prop)
    (hJ : ∀ s e, J s → P s e → C s e ∧ J (step s e)) (s : S) (es : List E) (hs : J s)
    (h : Along P step s es) : Along C step s es := by
  induction es generalizing s with
  | nil => exact trivial
  | cons e es ih =>
      have hstep := hJ s e hs h.1
      exact ⟨hstep.1, ih (step s e) hstep.2 h.2⟩

/-- Two conditions that agree in every state the first of them leads to hold
    along the same runs. -/
theorem along_iff {P C : S → E → Prop} (step : S → E → S) (J : S → Prop)
    (hJ : ∀ s e, J s → P s e → J (step s e)) (hiff : ∀ s e, J s → (P s e ↔ C s e))
    (s : S) (es : List E) (hs : J s) : Along P step s es ↔ Along C step s es := by
  induction es generalizing s with
  | nil => exact Iff.rfl
  | cons e es ih =>
      constructor
      · rintro ⟨hp, hrest⟩
        exact ⟨(hiff s e hs).mp hp, (ih (step s e) (hJ s e hs hp)).mp hrest⟩
      · rintro ⟨hc, hrest⟩
        have hp : P s e := (hiff s e hs).mpr hc
        exact ⟨hp, (ih (step s e) (hJ s e hs hp)).mpr hrest⟩

/-- A reflexive and transitive relation between the two ends of each step is
    one between the two ends of a run. -/
theorem runFrom_related (R : S → S → Prop)
    (hrefl : ∀ s, R s s) (htrans : ∀ s t u, R s t → R t u → R s u)
    (hstep : ∀ s e, R s (step s e)) (s : S) (es : List E) : R s (runFrom step s es) := by
  induction es generalizing s with
  | nil => exact hrefl s
  | cons e es ih => exact htrans s (step s e) _ (hstep s e) (ih (step s e))

/-- A condition along a run holds there together with one on the events alone. -/
theorem along_and_mem {p : E → Prop} (step : S → E → S) (s : S) (es : List E)
    (h : Along cond step s es) (hp : ∀ e ∈ es, p e) :
    Along (fun s e => cond s e ∧ p e) step s es := by
  induction es generalizing s with
  | nil => exact trivial
  | cons e es ih =>
      exact ⟨⟨h.1, hp e List.mem_cons_self⟩,
        ih (step s e) h.2 (fun e' he' => hp e' (List.mem_cons_of_mem e he'))⟩

/-- What waits is served once the run is longer than its measure, if each step serves it
    or brings the measure down, and what was served stays so. -/
theorem served_of_measure (Waits Served : S → Prop)
    (measure : S → ℕ)
    (hwaits : ∀ s e, Waits s → cond s e →
      Served (step s e) ∨ (Waits (step s e) ∧ measure (step s e) < measure s))
    (hstays : ∀ s e, Served s → cond s e → Served (step s e)) (s : S) (es : List E) (hs : Waits s)
    (hc : Along cond step s es) (hlong : measure s < es.length) : Served (runFrom step s es) := by
  induction es generalizing s with
  | nil => exact absurd hlong (Nat.not_lt_zero _)
  | cons e es ih =>
      rcases hwaits s e hs hc.1 with hserved | ⟨hnext, hfalls⟩
      · exact runFrom_invariant step Served hstays (step s e) es hserved hc.2
      · rw [List.length_cons] at hlong
        exact ih (step s e) hnext hc.2 (by omega)

end

end Run
