import Mathlib

/-!
# Workers Over a Shared Index

Tasks that a number of workers do, each taking the next one from a shared index. A worker
checks a task and begins it, waits for what it comes to, adds its weight to a shared total
and stores its result at its place. It fails where the check does, where the task does, or
where the total passes a limit, and the first failure is that of all of them.

Between any two steps of one worker the others take any number of steps, so the tasks end in
any order. None of that shows in what comes of it: each task is claimed once, its result has
its own place, and weights only add up. `Inv` says so of every state without a failure, and
`outcome_ok` and `outcome_error` read off it that whether the workers succeed, and with what,
is decided by the tasks alone.

A schedule that gives each worker a turn again and again comes to an end, since every turn of
a worker that has not ended brings a measure down.

## Main definitions

* `Workers.Fair`, `Workers.after`: Schedules, and the state after some of their turns.
* `Workers.Job`: What is to be done.
* `Workers.Desk`: The index, the total, the results and the workers.
* `Workers.step`: One turn of a worker.
* `Workers.settled`: The end of the first that fails, or of all.

## Theorems

* `Workers.done_of_fair`: A fair schedule brings a falling measure to its end.
* `Workers.step_inv`: A turn keeps the invariant, or the tasks cannot be done.
* `Workers.outcome_ok`, `Workers.outcome_error`: How the workers end.
* `Workers.settles`: They do end.
-/

namespace Workers

/-! ## Fair schedules -/

section Fair

variable {S E : Type*}

/-- Each of the events has its turn again and again. -/
def Fair (events : E → Prop) (schedule : ℕ → E) : Prop :=
  ∀ e, events e → ∀ t, ∃ t', t ≤ t' ∧ schedule t' = e

/-- The state after the first turns of a schedule. -/
def after (step : S → E → S) (s : S) (schedule : ℕ → E) : ℕ → S
  | 0 => s
  | t + 1 => step (after step s schedule t) (schedule t)

theorem after_keeps (step : S → E → S) (K : S → Prop) (hK : ∀ s e, K s → K (step s e)) (s : S)
    (hs : K s) (schedule : ℕ → E) (t : ℕ) : K (after step s schedule t) := by
  induction t with
  | zero => exact hs
  | succ t ih => exact hK _ _ ih

/-- Where every turn changes nothing or brings a measure down, and some turn does as long as
    the end has not come, a fair schedule comes to the end. -/
theorem done_of_fair (step : S → E → S) (Done : S → Prop) (measure : S → ℕ) (events : E → Prop)
    (K : S → Prop) (hK : ∀ s e, K s → K (step s e))
    (hstep : ∀ s e, K s → step s e = s ∨ measure (step s e) < measure s)
    (hnext : ∀ s, K s → ¬Done s → ∃ e, events e ∧ measure (step s e) < measure s) (s : S)
    (hs : K s) (schedule : ℕ → E) (hfair : Fair events schedule) :
    ∃ t, Done (after step s schedule t) := by
  have hmain : ∀ m t, measure (after step s schedule t) ≤ m →
      ∃ t', Done (after step s schedule t') := by
    intro m
    induction m using Nat.strongRecOn with
    | ind m ih =>
        intro t hm
        by_cases hdone : Done (after step s schedule t)
        · exact ⟨t, hdone⟩
        obtain ⟨e, he, hless⟩ := hnext _ (after_keeps step K hK s hs schedule t) hdone
        obtain ⟨t', hle, ht'⟩ := hfair e he t
        -- Until the turn comes, the state is the same or the measure has fallen.
        have hbetween : ∀ n, after step s schedule (t + n) = after step s schedule t ∨
            measure (after step s schedule (t + n)) < measure (after step s schedule t) := by
          intro n
          induction n with
          | zero => exact Or.inl rfl
          | succ n ih =>
              rcases hstep (after step s schedule (t + n)) (schedule (t + n))
                (after_keeps step K hK s hs schedule _) with hsame | hfalls
              · rw [← Nat.add_assoc, after, hsame]
                exact ih
              · rw [← Nat.add_assoc, after]
                rcases ih with heq | hlt
                · rw [heq] at hfalls ⊢
                  exact Or.inr hfalls
                · exact Or.inr (by omega)
        obtain ⟨n, rfl⟩ := Nat.exists_eq_add_of_le hle
        rcases hbetween n with heq | hlt
        · refine ih (measure (after step s schedule (t + n + 1))) ?_ (t + n + 1) (Nat.le_refl _)
          rw [after, heq, ht']
          omega
        · exact ih (measure (after step s schedule (t + n))) (by omega) (t + n) (Nat.le_refl _)
  exact hmain (measure s) 0 (Nat.le_refl _)

end Fair

/-! ## Lists -/

theorem getElem?_set_of_lt {α : Type*} (l : List α) (k j : ℕ) (x : α) (hk : k < l.length) :
    (l.set k x)[j]? = if k = j then some x else l[j]? := by
  rw [List.getElem?_set, if_pos hk]

/-- An element makes way for another one. -/
theorem sum_map_set {α : Type*} (f : α → ℕ) (l : List α) (k : ℕ) (a x : α) (hk : l[k]? = some a) :
    ((l.set k x).map f).sum + f a = (l.map f).sum + f x := by
  induction l generalizing k with
  | nil => cases hk
  | cons b l ih =>
      cases k with
      | zero =>
          rw [List.getElem?_cons_zero, Option.some.injEq] at hk
          rw [List.set_cons_zero, List.map_cons, List.map_cons, List.sum_cons, List.sum_cons, hk]
          omega
      | succ k =>
          rw [List.getElem?_cons_succ] at hk
          rw [List.set_cons_succ, List.map_cons, List.map_cons, List.sum_cons, List.sum_cons]
          have hrest := ih k hk
          omega

theorem exists_map_some {α : Type*} (l : List (Option α)) (h : ∀ r ∈ l, r.isSome = true) :
    ∃ as : List α, l = as.map some := by
  induction l with
  | nil => exact ⟨[], rfl⟩
  | cons r l ih =>
      obtain ⟨as, has⟩ := ih (fun r' hr' => h r' (List.mem_cons_of_mem r hr'))
      obtain ⟨a, ha⟩ := Option.isSome_iff_exists.mp (h r List.mem_cons_self)
      exact ⟨a :: as, by rw [List.map_cons, ← has, ha]⟩

/-! ## Workers -/

inductive Worker (ε : Type*)
  | idle
  | busy (index : ℕ)
  | ended
  | failed (error : ε)

/-- Tasks under the indices below their number: what is checked before one is begun and what
    it comes to, and the weight that all of them may have. -/
structure Job (β ε : Type*) where
  count : ℕ
  check : ℕ → Except ε Unit
  work : ℕ → Except ε β
  weight : β → ℕ
  limit : ℕ
  exceeded : ε

/-- What the workers share, and the workers. -/
structure Desk (β ε : Type*) where
  next : ℕ
  total : ℕ
  results : List (Option β)
  workers : List (Worker ε)

variable {β ε : Type*} (job : Job β ε)

def Desk.start (number : ℕ) : Desk β ε :=
  { next := 0, total := 0, results := List.replicate job.count none
    workers := List.replicate number .idle }

/-- A worker takes the next index. -/
def claim (d : Desk β ε) (k : ℕ) : Desk β ε :=
  if d.next < job.count then
    match job.check d.next with
    | .error e => { d with next := d.next + 1, workers := d.workers.set k (.failed e) }
    | .ok () => { d with next := d.next + 1, workers := d.workers.set k (.busy d.next) }
  else { d with next := d.next + 1, workers := d.workers.set k .ended }

/-- A worker has what its task comes to. -/
def deliver (d : Desk β ε) (k index : ℕ) : Desk β ε :=
  match job.work index with
  | .error e => { d with workers := d.workers.set k (.failed e) }
  | .ok b =>
      if job.limit < d.total + job.weight b then
        { d with total := d.total + job.weight b, workers := d.workers.set k (.failed job.exceeded) }
      else
        { d with
          total := d.total + job.weight b
          results := d.results.set index (some b)
          workers := d.workers.set k .idle }

/-- One turn of a worker. -/
def step (d : Desk β ε) (k : ℕ) : Desk β ε :=
  match d.workers[k]? with
  | some .idle => claim job d k
  | some (.busy index) => deliver job d k index
  | some .ended | some (.failed _) | none => d

def Worker.error? : Worker ε → Option ε
  | .failed e => some e
  | _ => none

def Worker.hasEnded : Worker ε → Bool
  | .ended => true
  | _ => false

/-- What becomes of all of them: the error of one that failed, or that they have ended. -/
def settled (d : Desk β ε) : Option (Except ε Unit) :=
  match d.workers.findSome? Worker.error? with
  | some e => some (.error e)
  | none => if d.workers.all Worker.hasEnded then some (.ok ()) else none

/-- One turn, as long as it matters. -/
def turn (d : Desk β ε) (k : ℕ) : Desk β ε :=
  if (settled d).isSome then d else step job d k

/-- What the tasks come to, where none of them fails. -/
structure Answers (bs : List β) : Prop where
  length : bs.length = job.count
  each : ∀ (i : ℕ) (b : β), bs[i]? = some b → job.check i = .ok () ∧ job.work i = .ok b

/-- The weight of what has been stored. -/
def weighed (results : List (Option β)) : ℕ :=
  (results.map (fun r => (r.map job.weight).getD 0)).sum

/-- The tasks cannot be done: one of them fails, or they weigh too much. -/
def Infeasible : Prop := ∀ bs, Answers job bs → job.limit < (bs.map job.weight).sum

/-- What holds as long as no worker has failed: the indices below the next one are stored or
    held by one worker each. -/
structure Inv (number : ℕ) (d : Desk β ε) : Prop where
  length : d.results.length = job.count
  number : d.workers.length = number
  stored : ∀ (i : ℕ) (b : β), d.results[i]? = some (some b) → job.check i = .ok () ∧ job.work i = .ok b
  held : ∀ k i : ℕ, d.workers[k]? = some (.busy i) →
    i < d.next ∧ d.results[i]? = some none ∧ job.check i = .ok ()
  alone : ∀ k k' i : ℕ, d.workers[k]? = some (.busy i) → d.workers[k']? = some (.busy i) → k = k'
  claimed : ∀ i : ℕ, i < d.next → i < job.count →
    (∃ b, d.results[i]? = some (some b)) ∨ ∃ k : ℕ, d.workers[k]? = some (.busy i)
  unclaimed : ∀ i : ℕ, d.next ≤ i → i < job.count → d.results[i]? = some none
  ended : ∀ k : ℕ, d.workers[k]? = some .ended → job.count ≤ d.next
  unfailed : ∀ (k : ℕ) (e : ε), d.workers[k]? ≠ some (.failed e)
  total : d.total = weighed job d.results
  within : d.total ≤ job.limit

section

variable (number : ℕ) (d : Desk β ε) (k : ℕ)

theorem inv_start : Inv job number (Desk.start job number) := by
  have hidle : ∀ (k : ℕ) (w : Worker ε), (List.replicate number Worker.idle)[k]? = some w →
      w = .idle := by
    intro k w h
    exact List.eq_of_mem_replicate (List.mem_of_getElem? h)
  constructor
  · exact List.length_replicate
  · exact List.length_replicate
  · intro i b h
    exact absurd (List.eq_of_mem_replicate (List.mem_of_getElem? h)) (by simp)
  · intro k i h
    exact absurd (hidle k _ h) (by simp)
  · intro k k' i h
    exact absurd (hidle k _ h) (by simp)
  · intro i h
    exact absurd h (Nat.not_lt_zero i)
  · intro i _ h
    simp [Desk.start, h]
  · intro k h
    exact absurd (hidle k _ h) (by simp)
  · intro k e h
    exact absurd (hidle k _ h) (by simp)
  · simp [Desk.start, weighed]
  · exact Nat.zero_le _

/-- What is stored weighs no more than all results. -/
theorem weighed_le (results : List (Option β)) (bs : List β) (hlen : results.length = bs.length)
    (h : ∀ (i : ℕ) (b : β), results[i]? = some (some b) → bs[i]? = some b) :
    weighed job results ≤ (bs.map job.weight).sum := by
  induction results generalizing bs with
  | nil => exact Nat.zero_le _
  | cons r results ih =>
      cases bs with
      | nil => cases hlen
      | cons b bs =>
          have hrest := ih bs (Nat.succ.inj hlen) (fun i b' hb' => h (i + 1) b' hb')
          have hfirst : (r.map job.weight).getD 0 ≤ job.weight b := by
            cases r with
            | none => exact Nat.zero_le _
            | some b' =>
                have heq := h 0 b' rfl
                rw [List.getElem?_cons_zero, Option.some.injEq] at heq
                subst heq
                exact Nat.le_refl _
          unfold weighed at hrest ⊢
          rw [List.map_cons, List.map_cons, List.sum_cons, List.sum_cons]
          omega

theorem settled_of_failed (e : ε) (h : d.workers[k]? = some (.failed e)) :
    ∃ e', settled d = some (.error e') := by
  have hmem := List.mem_of_getElem? h
  cases hfind : d.workers.findSome? Worker.error? with
  | none => exact absurd (List.findSome?_eq_none_iff.mp hfind _ hmem) (by simp [Worker.error?])
  | some e' => exact ⟨e', by rw [settled, hfind]⟩

theorem claim_inv (h : Inv job number d)
    (hk : d.workers[k]? = some .idle) :
    Inv job number (claim job d k) ∨
      (∃ e, settled (claim job d k) = some (.error e)) ∧ Infeasible job := by
  have hlt : k < d.workers.length := (List.getElem?_eq_some_iff.mp hk).1
  have hset := fun (x : Worker ε) j => getElem?_set_of_lt d.workers k j x hlt
  unfold claim
  by_cases hnext : d.next < job.count
  · rw [if_pos hnext]
    cases hcheck : job.check d.next with
    | error e =>
        refine Or.inr ⟨settled_of_failed _ k e (by rw [hset, if_pos rfl]), fun bs hbs => ?_⟩
        have hlength : d.next < bs.length := hbs.length ▸ hnext
        have hfails := (hbs.each d.next _ (List.getElem?_eq_getElem hlength)).1
        rw [hcheck] at hfails
        cases hfails
    | ok _ =>
        refine Or.inl ⟨h.length, by rw [List.length_set]; exact h.number, h.stored, ?_, ?_, ?_, ?_,
          ?_, ?_, h.total, h.within⟩
        · intro j i hj
          dsimp only at hj ⊢
          rw [hset] at hj
          split at hj
          · simp only [Option.some.injEq, Worker.busy.injEq] at hj
            rw [← hj]
            exact ⟨Nat.lt_succ_self _, h.unclaimed d.next (Nat.le_refl _) hnext, hcheck⟩
          · rcases h.held j i hj with ⟨hi, hrest⟩
            exact ⟨by omega, hrest⟩
        · intro j j' i hj hj'
          dsimp only at hj hj'
          rw [hset] at hj hj'
          -- No other worker holds an index that has just been claimed.
          split at hj <;> split at hj'
          · omega
          · have := (h.held j' i hj').1
            simp only [Option.some.injEq, Worker.busy.injEq] at hj
            omega
          · have := (h.held j i hj).1
            simp only [Option.some.injEq, Worker.busy.injEq] at hj'
            omega
          · exact h.alone j j' i hj hj'
        · intro i hi hcount
          dsimp only at hi ⊢
          rcases Nat.lt_succ_iff_lt_or_eq.mp hi with hold | heq
          · rcases h.claimed i hold hcount with hstored | ⟨j, hj⟩
            · exact Or.inl hstored
            · refine Or.inr ⟨j, ?_⟩
              rw [hset, if_neg, hj]
              intro hkj
              rw [← hkj, hk] at hj
              cases hj
          · exact Or.inr ⟨k, by rw [hset, if_pos rfl, heq]⟩
        · intro i hi hcount
          exact h.unclaimed i (by dsimp only at hi; omega) hcount
        · intro j hj
          dsimp only at hj ⊢
          rw [hset] at hj
          split at hj
          · cases hj
          · have := h.ended j hj
            omega
        · intro j e hj
          dsimp only at hj
          rw [hset] at hj
          split at hj
          · cases hj
          · exact h.unfailed j e hj
  · rw [if_neg hnext]
    refine Or.inl ⟨h.length, by rw [List.length_set]; exact h.number, h.stored, ?_, ?_, ?_, ?_,
      ?_, ?_, h.total, h.within⟩
    · intro j i hj
      dsimp only at hj ⊢
      rw [hset] at hj
      split at hj
      · cases hj
      · rcases h.held j i hj with ⟨hi, hrest⟩
        exact ⟨by omega, hrest⟩
    · intro j j' i hj hj'
      dsimp only at hj hj'
      rw [hset] at hj hj'
      split at hj
      · cases hj
      · split at hj'
        · cases hj'
        · exact h.alone j j' i hj hj'
    · intro i hi hcount
      dsimp only at hi ⊢
      rcases h.claimed i (by omega) hcount with hstored | ⟨j, hj⟩
      · exact Or.inl hstored
      · refine Or.inr ⟨j, ?_⟩
        rw [hset, if_neg, hj]
        intro hkj
        rw [← hkj, hk] at hj
        cases hj
    · intro i hi hcount
      exact h.unclaimed i (by dsimp only at hi; omega) hcount
    · intro j _
      dsimp only
      omega
    · intro j e hj
      dsimp only at hj
      rw [hset] at hj
      split at hj
      · cases hj
      · exact h.unfailed j e hj

theorem deliver_inv (k index : ℕ) (h : Inv job number d)
    (hk : d.workers[k]? = some (.busy index)) :
    Inv job number (deliver job d k index) ∨
      (∃ e, settled (deliver job d k index) = some (.error e)) ∧ Infeasible job := by
  have hlt : k < d.workers.length := (List.getElem?_eq_some_iff.mp hk).1
  have hset := fun (x : Worker ε) j => getElem?_set_of_lt d.workers k j x hlt
  rcases h.held k index hk with ⟨hindex, hnone, hcheck⟩
  have hin : index < d.results.length := (List.getElem?_eq_some_iff.mp hnone).1
  unfold deliver
  cases hwork : job.work index with
  | error e =>
      refine Or.inr ⟨settled_of_failed _ k e (by rw [hset, if_pos rfl]), fun bs hbs => ?_⟩
      have hlength : index < bs.length := by
        rw [hbs.length, ← h.length]
        exact hin
      have hfails := (hbs.each index _ (List.getElem?_eq_getElem hlength)).2
      rw [hwork] at hfails
      cases hfails
  | ok b =>
      have hput := fun j => getElem?_set_of_lt d.results index j (some b) hin
      have hweighed : weighed job (d.results.set index (some b)) = d.total + job.weight b := by
        have hsum := sum_map_set (fun r : Option β => (r.map job.weight).getD 0) d.results index
          none (some b) hnone
        dsimp only [Option.map_none, Option.map_some, Option.getD_none, Option.getD_some] at hsum
        rw [h.total]
        exact hsum
      have hstored : ∀ (i : ℕ) (b' : β), (d.results.set index (some b))[i]? = some (some b') →
          job.check i = .ok () ∧ job.work i = .ok b' := by
        intro i b' hb'
        rw [hput] at hb'
        split at hb'
        · next heq =>
          rw [Option.some.injEq, Option.some.injEq] at hb'
          rw [← heq, ← hb']
          exact ⟨hcheck, hwork⟩
        · exact h.stored i b' hb'
      dsimp only
      by_cases hover : job.limit < d.total + job.weight b
      · rw [if_pos hover]
        refine Or.inr ⟨settled_of_failed _ k job.exceeded (by rw [hset, if_pos rfl]),
          fun bs hbs => ?_⟩
        -- What is stored and this result are among all results.
        have hle := weighed_le job (d.results.set index (some b)) bs
          (by rw [List.length_set, h.length, hbs.length]) (fun i b' hb' => ?_)
        · omega
        · have hlen : i < bs.length := by
            have := (List.getElem?_eq_some_iff.mp hb').1
            rw [List.length_set, h.length] at this
            rw [hbs.length]
            exact this
          have hsame := (hbs.each i _ (List.getElem?_eq_getElem hlen)).2
          rw [(hstored i b' hb').2, Except.ok.injEq] at hsame
          rw [List.getElem?_eq_getElem hlen, hsame]
      · rw [if_neg hover]
        refine Or.inl ⟨by rw [List.length_set]; exact h.length, by rw [List.length_set]; exact h.number,
          hstored, ?_, ?_, ?_, ?_, ?_, ?_, hweighed.symm, Nat.not_lt.mp hover⟩
        · intro j i hj
          dsimp only at hj ⊢
          rw [hset] at hj
          split at hj
          · cases hj
          · next hne =>
            rcases h.held j i hj with ⟨hi, hfree, hchecked⟩
            refine ⟨hi, ?_, hchecked⟩
            rw [hput, if_neg, hfree]
            intro heq
            exact hne (h.alone k j i (heq ▸ hk) hj)
        · intro j j' i hj hj'
          dsimp only at hj hj'
          rw [hset] at hj hj'
          split at hj
          · cases hj
          · split at hj'
            · cases hj'
            · exact h.alone j j' i hj hj'
        · intro i hi hcount
          dsimp only at hi ⊢
          by_cases heq : index = i
          · exact Or.inl ⟨b, by rw [hput, if_pos heq]⟩
          · rcases h.claimed i hi hcount with ⟨b', hb'⟩ | ⟨j, hj⟩
            · exact Or.inl ⟨b', by rw [hput, if_neg heq, hb']⟩
            · refine Or.inr ⟨j, ?_⟩
              rw [hset, if_neg, hj]
              intro hkj
              rw [← hkj, hk, Option.some.injEq, Worker.busy.injEq] at hj
              exact heq hj
        · intro i hi hcount
          dsimp only at hi ⊢
          rw [hput, if_neg (by omega)]
          exact h.unclaimed i hi hcount
        · intro j hj
          dsimp only at hj ⊢
          rw [hset] at hj
          split at hj
          · cases hj
          · exact h.ended j hj
        · intro j e hj
          dsimp only at hj
          rw [hset] at hj
          split at hj
          · cases hj
          · exact h.unfailed j e hj

/-- A turn keeps the invariant, or a worker fails and the tasks cannot be done. -/
theorem step_inv (h : Inv job number d) :
    Inv job number (step job d k) ∨
      (∃ e, settled (step job d k) = some (.error e)) ∧ Infeasible job := by
  unfold step
  cases hk : d.workers[k]? with
  | none => exact Or.inl h
  | some worker =>
      cases worker with
      | idle => exact claim_inv job number d k h hk
      | busy index => exact deliver_inv job number d k index h hk
      | ended => exact Or.inl h
      | failed e => exact Or.inl h

end

/-! ## How the workers end -/

/-- Where a run has come to: the invariant holds, or a worker has failed and the tasks cannot
    be done. -/
def Course (number : ℕ) (d : Desk β ε) : Prop :=
  Inv job number d ∨ (∃ e, settled d = some (.error e)) ∧ Infeasible job

section

variable (number : ℕ) (d : Desk β ε)

theorem turn_course (k : ℕ) (h : Course job number d) :
    Course job number (turn job d k) := by
  unfold turn
  cases hsettled : settled d with
  | some r => exact h
  | none =>
      rcases h with hinv | ⟨⟨e, herror⟩, -⟩
      · exact step_inv job number d k hinv
      · rw [hsettled] at herror
        cases herror

theorem course_after (schedule : ℕ → ℕ) (t : ℕ) :
    Course job number (after (turn job) (Desk.start job number) schedule t) :=
  after_keeps (turn job) (Course job number) (turn_course job number) _
    (Or.inl (inv_start job number)) schedule t

theorem unsettled_of_inv (h : Inv job number d) :
    d.workers.findSome? Worker.error? = none := by
  rw [List.findSome?_eq_none_iff]
  intro worker hworker
  obtain ⟨k, hk⟩ := List.mem_iff_getElem?.mp hworker
  cases worker with
  | failed e => exact absurd hk (h.unfailed k e)
  | idle => rfl
  | busy index => rfl
  | ended => rfl

/-- Where one fails, the tasks cannot be done. -/
theorem outcome_error (e : ε) (h : Course job number d)
    (hsettled : settled d = some (.error e)) : Infeasible job := by
  rcases h with hinv | ⟨-, hnot⟩
  · rw [settled, unsettled_of_inv job number d hinv] at hsettled
    dsimp only at hsettled
    split at hsettled <;> cases hsettled
  · exact hnot

/-- Where all have ended, they have done the tasks: every result is at its place, and the
    total is the weight of them all. -/
theorem outcome_ok (hnumber : 0 < number) (h : Course job number d)
    (hsettled : settled d = some (.ok ())) :
    ∃ bs, Answers job bs ∧ d.results = bs.map some ∧ d.total = (bs.map job.weight).sum ∧
      (bs.map job.weight).sum ≤ job.limit := by
  rcases h with hinv | ⟨⟨e, herror⟩, -⟩
  · rw [settled, unsettled_of_inv job number d hinv] at hsettled
    dsimp only at hsettled
    split at hsettled
    · next hall =>
      have hended : ∀ (k : ℕ) (worker : Worker ε), d.workers[k]? = some worker →
          worker = .ended := by
        intro k worker hk
        have hworker := List.all_eq_true.mp hall worker (List.mem_of_getElem? hk)
        cases worker with
        | ended => rfl
        | idle => cases hworker
        | busy index => cases hworker
        | failed e => cases hworker
      -- One that has ended found no index left, and none is held any more.
      have hnext : job.count ≤ d.next := by
        have hfirst : 0 < d.workers.length := by rw [hinv.number]; exact hnumber
        have hget := List.getElem?_eq_getElem hfirst
        exact hinv.ended 0 (by rw [hget, hended 0 _ hget])
      obtain ⟨bs, hbs⟩ := exists_map_some d.results (fun r hr => by
        obtain ⟨i, hi⟩ := List.mem_iff_getElem?.mp hr
        have hlt := (List.getElem?_eq_some_iff.mp hi).1
        rw [hinv.length] at hlt
        rcases hinv.claimed i (by omega) hlt with ⟨b, hb⟩ | ⟨k, hk⟩
        · rw [hi, Option.some.injEq] at hb
          rw [hb]
          rfl
        · exact absurd (hended k _ hk) (by simp))
      have htotal : d.total = (bs.map job.weight).sum := by
        rw [hinv.total, hbs, weighed, List.map_map]
        rfl
      refine ⟨bs, ⟨?_, fun i b hb => hinv.stored i b ?_⟩, hbs, htotal, htotal ▸ hinv.within⟩
      · rw [← hinv.length, hbs, List.length_map]
      · rw [hbs, List.getElem?_map, hb]
        rfl
    · cases hsettled
  · rw [hsettled] at herror
    cases herror

end

/-! ## The end -/

/-- How many turns a worker may still need for what it holds. -/
def Worker.rank : Worker ε → ℕ
  | .idle => 1
  | .busy _ => 2
  | .ended => 0
  | .failed _ => 0

/-- How many turns are left at most. -/
def left (d : Desk β ε) : ℕ :=
  2 * (job.count - d.next) + (d.workers.map Worker.rank).sum

section

variable (number : ℕ) (d : Desk β ε) (k : ℕ)

/-- A turn of a worker that has not ended is one turn less. -/
theorem left_step (worker : Worker ε) (hk : d.workers[k]? = some worker)
    (hrank : 0 < worker.rank) : left job (step job d k) < left job d := by
  have hsum := fun x => sum_map_set Worker.rank d.workers k worker x hk
  unfold step
  rw [hk]
  cases worker with
  | idle =>
      dsimp only
      unfold claim left
      split
      · next hnext =>
        split
        · next e _ =>
          have h := hsum (.failed e)
          dsimp only [Worker.rank] at h ⊢
          omega
        · have h := hsum (.busy d.next)
          dsimp only [Worker.rank] at h ⊢
          omega
      · have h := hsum .ended
        dsimp only [Worker.rank] at h ⊢
        omega
  | busy index =>
      dsimp only
      unfold deliver left
      split
      · next e _ =>
        have h := hsum (.failed e)
        dsimp only [Worker.rank] at h ⊢
        omega
      · split
        · have h := hsum (.failed job.exceeded)
          dsimp only [Worker.rank] at h ⊢
          omega
        · have h := hsum .idle
          dsimp only [Worker.rank] at h ⊢
          omega
  | ended => exact absurd hrank (Nat.lt_irrefl 0)
  | failed e => exact absurd hrank (Nat.lt_irrefl 0)

theorem turn_cases :
    turn job d k = d ∨ left job (turn job d k) < left job d := by
  unfold turn
  split
  · exact Or.inl rfl
  · cases hk : d.workers[k]? with
    | none => exact Or.inl (by rw [step, hk])
    | some worker =>
        cases worker with
        | idle => exact Or.inr (left_step job d k _ hk Nat.one_pos)
        | busy index => exact Or.inr (left_step job d k _ hk Nat.two_pos)
        | ended => exact Or.inl (by rw [step, hk])
        | failed e => exact Or.inl (by rw [step, hk])

/-- As long as nothing is settled, there is a worker whose turn counts. -/
theorem turn_next (hnumber : d.workers.length = number)
    (h : ¬(settled d).isSome = true) : ∃ k, k < number ∧ left job (turn job d k) < left job d := by
  have hnone : settled d = none := Option.not_isSome_iff_eq_none.mp h
  unfold settled at hnone
  split at hnone
  · cases hnone
  · next hfind =>
    split at hnone
    · cases hnone
    · next hall =>
      rw [Bool.not_eq_true, List.all_eq_false] at hall
      obtain ⟨worker, hmem, hopen⟩ := hall
      obtain ⟨k, hk⟩ := List.mem_iff_getElem?.mp hmem
      refine ⟨k, hnumber ▸ (List.getElem?_eq_some_iff.mp hk).1, ?_⟩
      have hrank : 0 < worker.rank := by
        have herror := List.findSome?_eq_none_iff.mp hfind worker hmem
        cases worker with
        | idle => exact Nat.one_pos
        | busy index => exact Nat.two_pos
        | ended => exact absurd rfl hopen
        | failed e => cases herror
      rw [turn, if_neg h]
      exact left_step job d k worker hk hrank

theorem turn_number (h : d.workers.length = number) :
    (turn job d k).workers.length = number := by
  unfold turn step claim deliver
  split
  · exact h
  · split
    · split
      · split <;> exact (List.length_set ..).trans h
      · exact (List.length_set ..).trans h
    · split
      · exact (List.length_set ..).trans h
      · split <;> exact (List.length_set ..).trans h
    · exact h
    · exact h
    · exact h

/-- Workers that have their turns again and again come to an end. -/
theorem settles (schedule : ℕ → ℕ) (hfair : Fair (fun k => k < number) schedule) :
    ∃ t, (settled (after (turn job) (Desk.start job number) schedule t)).isSome = true :=
  done_of_fair (turn job) (fun d => (settled d).isSome = true) (left job) (fun k => k < number)
    (fun d => d.workers.length = number) (fun d k h => turn_number job number d k h)
    (fun d k _ => turn_cases job d k) (fun d h => turn_next job number d h)
    (Desk.start job number) List.length_replicate schedule hfair

end

end Workers
