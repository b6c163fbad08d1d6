import Mdevolved.Lib.Table

/-!
# Batches of Writes

A transaction whose statements return nothing is a list of writes. A write has
two sides: when it fails, and what it does to the state where it does not. A
batch of them goes through exactly if no write fails in the state it is taken
in, and then leads to what the writes do one after the other, so its effect can
be read off the list.

A write of several rows fails if one of them is not admitted.

## Main definitions

* `Batch.Write`: A statement that returns nothing.
* `Batch.Write.always`, `Batch.Write.require`: Writes that never fail, and that
  only check.
* `Batch.Write.insertAll`, `Batch.Write.updateAll`, `Batch.Write.changeAll`: Writes
  of rows.
* `Batch.written`: What a list of writes does.
* `Batch.Passes`: No write of a list fails.

## Theorems

* `Batch.runWrites_ok`: A batch goes through where no write fails.
* `Batch.passes_append`, `Batch.written_append`: One list after the other.
* `Batch.Write.insertAll_passes`, `Batch.Write.updateAll_passes`: What is known of
  rows that are admitted.
* `Batch.Write.insertAll_fresh`, `Batch.Write.insertAll_pairwise`: What constraints come to.
* `Batch.written_keeps`: What each write of a batch preserves.
-/

namespace Batch

variable {σ ε ρ : Type*}

/-- A statement that returns nothing: when it fails, and what it does. -/
structure Write (σ ε : Type*) where
  fails : σ → Option ε
  update : σ → σ

/-- A write that never fails. -/
def Write.always (f : σ → σ) : Write σ ε :=
  { fails := fun _ => none, update := f }

/-- A write that changes nothing, and fails unless a condition holds. -/
def Write.require (p : σ → Bool) (e : ε) : Write σ ε :=
  { fails := fun s => if p s then none else some e, update := id }

/-- Add rows to a table, each checked against those before it. -/
def Write.insertAll (rows : σ → List ρ) (set : σ → List ρ → σ) (admits : List ρ → ρ → Bool)
    (new : σ → List ρ) (e : ε) : Write σ ε :=
  { fails := fun s => if (Table.insertAll admits (rows s) (new s)).isSome then none else some e
    update := fun s => set s (rows s ++ new s) }

/-- Change the rows of a table that meet a condition, which fails if the
    constraints do not admit one of them changed. -/
def Write.updateAll (rows : σ → List ρ) (set : σ → List ρ → σ) (p : σ → ρ → Bool)
    (f : σ → ρ → ρ) (admits : σ → ρ → Bool) (e : ε) : Write σ ε :=
  { fails := fun s => if (rows s).all (fun r => !p s r || admits s r) then none else some e
    update := fun s => set s (Table.update (p s) (f s) (rows s)) }

/-- Change the rows of a table that meet a condition, which no constraint is
    about. -/
def Write.changeAll (rows : σ → List ρ) (set : σ → List ρ → σ) (p : σ → ρ → Bool)
    (f : σ → ρ → ρ) : Write σ ε :=
  .always (fun s => set s (Table.update (p s) (f s) (rows s)))

def Write.statement (w : Write σ ε) : Statement σ ε Unit :=
  fun s =>
    match w.fails s with
    | some e => .error e
    | none => .ok ((), w.update s)

/-- What a list of writes does to the state, one after the other. -/
def written (ws : List (Write σ ε)) (s : σ) : σ :=
  ws.foldl (fun s w => w.update s) s

/-- No write of a list fails in the state it is taken in. -/
def Passes : List (Write σ ε) → σ → Prop
  | [], _ => True
  | w :: ws, s => w.fails s = none ∧ Passes ws (w.update s)

instance decidablePasses : (ws : List (Write σ ε)) → (s : σ) → Decidable (Passes ws s)
  | [], _ => isTrue trivial
  | w :: ws, s =>
      haveI := decidablePasses ws (w.update s)
      haveI : Decidable (w.fails s = none) := decidable_of_iff _ Option.isNone_iff_eq_none
      inferInstanceAs (Decidable (_ ∧ _))

/-- A list of writes as a transaction. -/
def runWrites (ws : List (Write σ ε)) (s : σ) : Except ε (Unit × σ) :=
  (run (ws.map Write.statement) s).map (fun r => ((), r.2))

@[simp] theorem written_nil (s : σ) : written ([] : List (Write σ ε)) s = s := rfl

@[simp] theorem written_cons (w : Write σ ε) (ws : List (Write σ ε)) (s : σ) :
    written (w :: ws) s = written ws (w.update s) := rfl

theorem written_append (ws ws' : List (Write σ ε)) (s : σ) :
    written (ws ++ ws') s = written ws' (written ws s) :=
  List.foldl_append

theorem passes_append (ws ws' : List (Write σ ε)) (s : σ) :
    Passes (ws ++ ws') s ↔ Passes ws s ∧ Passes ws' (written ws s) := by
  induction ws generalizing s with
  | nil => simp only [List.nil_append, Passes, true_and, written_nil]
  | cons w ws ih => simp only [List.cons_append, Passes, ih, written_cons, and_assoc]

theorem run_statements_ok (ws : List (Write σ ε)) (s t : σ) :
    (∃ rs, run (ws.map Write.statement) s = .ok (rs, t)) ↔ Passes ws s ∧ t = written ws s := by
  induction ws generalizing s with
  | nil =>
      simp only [List.map_nil, run_nil, ok_inj, Passes, written_nil,
        true_and]
      exact ⟨fun ⟨_, _, h⟩ => h.symm, fun h => ⟨[], rfl, h.symm⟩⟩
  | cons w ws ih =>
      constructor
      · rintro ⟨rs, h⟩
        rcases run_cons_ok.mp h with ⟨r, rs', u, hw, hrest, -⟩
        unfold Write.statement at hw
        split at hw
        · cases hw
        · next hnone =>
          simp only [ok_inj, true_and] at hw
          have hws := (ih u).mp ⟨rs', hrest⟩
          rw [← hw] at hws
          exact ⟨⟨hnone, hws.1⟩, hws.2⟩
      · rintro ⟨⟨hnone, hws⟩, ht⟩
        rcases (ih (w.update s)).mpr ⟨hws, ht⟩ with ⟨rs, hrun⟩
        refine ⟨() :: rs, run_cons_ok.mpr ⟨(), rs, w.update s, ?_, hrun, rfl⟩⟩
        simp only [Write.statement, hnone]

/-- A batch of writes goes through exactly where none fails, and does what they
    do. -/
theorem runWrites_ok (ws : List (Write σ ε)) (s t : σ) (r : Unit) :
    runWrites ws s = .ok (r, t) ↔ Passes ws s ∧ t = written ws s := by
  rw [← run_statements_ok]
  unfold runWrites
  cases hrun : run (ws.map Write.statement) s with
  | error e => simp only [Except.map, reduceCtorEq, exists_false]
  | ok rt =>
      simp only [Except.map, Except.ok.injEq, Prod.mk.injEq, true_and]
      exact ⟨fun h => ⟨rt.1, by rw [← h]⟩, fun ⟨_, h⟩ => by rw [h]⟩

/-- A condition that a write requires holds where it passes. -/
theorem Write.require_passes (p : σ → Bool) (e : ε) (s : σ) :
    (Write.require p e).fails s = none ↔ p s = true := by
  cases h : p s with
  | true => simp only [Write.require, h, if_true]
  | false => simp only [Write.require, h, Bool.false_eq_true, if_false, reduceCtorEq]

section

variable (rows : σ → List ρ) (set : σ → List ρ → σ) (admits : List ρ → ρ → Bool)
  (new : σ → List ρ)

/-- Rows that are changed may be. -/
theorem Write.updateAll_passes (p : σ → ρ → Bool)
    (f : σ → ρ → ρ) (admits : σ → ρ → Bool) (e : ε) (s : σ) :
    (Write.updateAll rows set p f admits e).fails s = none ↔
      ∀ r ∈ rows s, p s r = true → admits s r = true := by
  cases h : (rows s).all (fun r => !p s r || admits s r) with
  | true =>
      simp only [Write.updateAll, h, if_true, true_iff]
      intro r hr hp
      have hr' := List.all_eq_true.mp h r hr
      rwa [hp, Bool.not_true, Bool.false_or] at hr'
  | false =>
      simp only [Write.updateAll, h, Bool.false_eq_true, if_false, reduceCtorEq, false_iff]
      intro hall
      rw [List.all_eq_false] at h
      rcases h with ⟨r, hr, hnot⟩
      refine hnot ?_
      cases hp : p s r with
      | false => rfl
      | true => rw [hall r hr hp]; rfl

/-- Rows that are added were admitted one after the other. -/
theorem Write.insertAll_passes (e : ε) (s : σ) :
    (Write.insertAll rows set admits new e).fails s = none ↔
      Table.insertAll admits (rows s) (new s) = some (rows s ++ new s) := by
  cases h : Table.insertAll admits (rows s) (new s) with
  | none => simp only [Write.insertAll, h, Option.isSome_none, Bool.false_eq_true, if_false,
      reduceCtorEq]
  | some rows' =>
      have happend := Table.insertAll_eq_append admits (rows s) rows' (new s) h
      simp only [Write.insertAll, h, Option.isSome_some, if_true, happend]

/-- One row is added where it is admitted. -/
theorem Write.insertAll_single (new : σ → ρ) (e : ε) (s : σ) :
    (Write.insertAll rows set admits (fun s => [new s]) e).fails s = none ↔
      admits (rows s) (new s) = true := by
  rw [insertAll_passes, Table.insertAll_cons_eq_some]
  exact ⟨fun h => h.1, fun h => ⟨h, rfl⟩⟩

/-- A constraint that rows were admitted by holds between old rows and new ones. -/
theorem Write.insertAll_fresh (e : ε) (s : σ) (P : ρ → ρ → Prop)
    (hadm : ∀ rows r, admits rows r = true → ∀ t ∈ rows, P t r)
    (h : (Write.insertAll rows set admits new e).fails s = none) :
    ∀ r ∈ new s, ∀ t ∈ rows s, P t r :=
  Table.insertAll_fresh admits P hadm _ _ _ ((insertAll_passes rows set admits new e s).mp h)

/-- And between any two rows of the table, where it did so before. -/
theorem Write.insertAll_pairwise (e : ε) (s : σ) (P : ρ → ρ → Prop)
    (hadm : ∀ rows r, admits rows r = true → ∀ t ∈ rows, P t r)
    (h : (Write.insertAll rows set admits new e).fails s = none) (hrows : (rows s).Pairwise P) :
    (rows s ++ new s).Pairwise P :=
  Table.insertAll_pairwise admits P hadm _ _ _ hrows
    ((insertAll_passes rows set admits new e s).mp h)

end

/-- What each write preserves where it passes, a batch that passes preserves. -/
theorem written_keeps (K : σ → Prop) (ws : List (Write σ ε)) (s : σ)
    (hws : ∀ w ∈ ws, ∀ t, w.fails t = none → K t → K (w.update t)) (hpasses : Passes ws s)
    (hs : K s) : K (written ws s) := by
  induction ws generalizing s with
  | nil => exact hs
  | cons w ws ih =>
      exact ih (w.update s) (fun v hv => hws v (List.mem_cons_of_mem w hv)) hpasses.2
        (hws w List.mem_cons_self s hpasses.1 hs)

end Batch
