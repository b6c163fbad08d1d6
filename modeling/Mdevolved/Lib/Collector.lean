import Mathlib

/-!
# Collecting Objects That Nobody Names

Objects under keys, rows that name them, writers and collectors. A writer finds
an object, or writes it, and commits a row that names it later. A collector
finds that no row names an object, and deletes it later. Each of the two looks
first and acts on what it saw, and nothing stops the other in between.

What makes this safe is that the two are never at work on one object at once.
`Apart` says so of an event in the state it is taken from: no object is deleted
that a writer holds, and none is named that a collector is about to delete.
`step_intact` is the invariant under that condition, `Within` relates a concrete
state to what it is at most, and `Intact.of_within` is how a concrete step is
read as an event.

## Main definitions

* `Store`: Objects, what rows name, what writers hold and what is to be deleted.
* `Sight`, `ofSights`: The same, from what each party has in hand.
* `Event`, `step`: What happens to them.
* `Allowed`: What writers and collectors see to themselves.
* `Apart`: That they are not at work on one object.

## Theorems

* `step_held`: What is held stays held.
* `step_intact`: An event keeps a store intact.
* `Intact.of_within`: So does whatever comes to less.
* `within_sights`: When a store that parties see comes to less.
-/

namespace Collector

variable {ι κ K : Type*} [DecidableEq ι] [DecidableEq κ]

/-- The objects there are, those that rows name, those that each writer has
    found or written, and those that each collector is about to delete. -/
structure Store (ι κ K : Type*) where
  objects : Set K
  named : Set K
  held : ι → Set K
  doomed : κ → Set K

/-- What a party has in hand: what it has found, and what it is about to delete. -/
structure Sight (K : Type*) where
  held : List K
  doomed : List K

/-- A party that has seen nothing. -/
def Sight.blank : Sight K := { held := [], doomed := [] }

/-- The store that parties see, each of which may write and collect. -/
def ofSights (objects named : Set K) (sights : ι → Sight K) : Store ι ι K :=
  { objects := objects
    named := named
    held := fun i => {k | k ∈ (sights i).held}
    doomed := fun i => {k | k ∈ (sights i).doomed} }

inductive Event (ι κ K : Type*)
  | find (i : ι) (k : K)
  | commit (i : ι) (ks : Set K)
  | check (j : κ) (ks : Set K)
  | delete (j : κ) (k : K)
  | rest

def step (s : Store ι κ K) : Event ι κ K → Store ι κ K
  | .find i k => { s with
      objects := insert k s.objects
      held := Function.update s.held i (insert k (s.held i)) }
  | .commit _ ks => { s with named := s.named ∪ ks }
  | .check j ks => { s with doomed := Function.update s.doomed j ks }
  | .delete _ k => { s with objects := s.objects \ {k} }
  | .rest => s

/-- Nothing that is held is let go. -/
theorem step_held (s : Store ι κ K) (e : Event ι κ K) (i : ι) : s.held i ⊆ (step s e).held i := by
  cases e with
  | find i' k =>
      by_cases hi : i = i'
      · subst hi
        simp only [step, Function.update_self]
        exact Set.subset_insert k _
      · simp only [step, Function.update_of_ne hi]
        exact Set.Subset.refl _
  | _ => exact Set.Subset.refl _

/-- What the parties see to themselves: a row names what its writer holds, and
    what is deleted was found to be named by no row. -/
def Allowed (s : Store ι κ K) : Event ι κ K → Prop
  | .commit i ks => ks ⊆ s.held i
  | .check _ ks => Disjoint ks s.named
  | .delete j k => k ∈ s.doomed j
  | _ => True

/-- Nobody names what is about to be deleted, or deletes what somebody holds. -/
def Apart (s : Store ι κ K) : Event ι κ K → Prop
  | .commit _ ks => ∀ j, Disjoint ks (s.doomed j)
  | .delete _ k => ∀ i, k ∉ s.held i
  | _ => True

/-- What rows name and writers hold is there, and no row names what is about to
    be deleted. -/
structure Intact (s : Store ι κ K) : Prop where
  named : s.named ⊆ s.objects
  held : ∀ i, s.held i ⊆ s.objects
  doomed : ∀ j, Disjoint (s.doomed j) s.named

theorem step_intact (s : Store ι κ K) (e : Event ι κ K) (h : Intact s) (ha : Allowed s e)
    (hp : Apart s e) : Intact (step s e) := by
  cases e with
  | find i k =>
      refine ⟨h.named.trans (Set.subset_insert k _), fun i' => ?_, h.doomed⟩
      by_cases hi : i' = i
      · subst hi
        simp only [step, Function.update_self]
        exact Set.insert_subset_insert (h.held i')
      · simp only [step, Function.update_of_ne hi]
        exact (h.held i').trans (Set.subset_insert k _)
  | commit i ks =>
      refine ⟨Set.union_subset h.named (ha.trans (h.held i)), h.held, fun j => ?_⟩
      exact Set.disjoint_union_right.mpr ⟨h.doomed j, (hp j).symm⟩
  | check j ks =>
      refine ⟨h.named, h.held, fun j' => ?_⟩
      by_cases hj : j' = j
      · subst hj
        simp only [step, Function.update_self]
        exact ha
      · simp only [step, Function.update_of_ne hj]
        exact h.doomed j'
  | delete j k =>
      -- No row names it, since the collector has found that none does.
      refine ⟨fun k' hk' => ⟨h.named hk', ?_⟩, fun i k' hk' => ⟨h.held i hk', ?_⟩, h.doomed⟩
      · rintro rfl
        exact Set.disjoint_left.mp (h.doomed j) ha hk'
      · rintro rfl
        exact hp i hk'
  | rest => exact h

/-- Less is named, held and about to be deleted, and more is there. -/
structure Within (s t : Store ι κ K) : Prop where
  objects : t.objects ⊆ s.objects
  named : s.named ⊆ t.named
  held : ∀ i, s.held i ⊆ t.held i
  doomed : ∀ j, s.doomed j ⊆ t.doomed j

omit [DecidableEq ι] [DecidableEq κ] in
theorem Intact.of_within {s t : Store ι κ K} (h : Intact t) (hw : Within s t) : Intact s :=
  ⟨hw.named.trans (h.named.trans hw.objects),
    fun i => (hw.held i).trans ((h.held i).trans hw.objects),
    fun j => (h.doomed j).mono (hw.doomed j) hw.named⟩

/-- A party that has come to hold and to doom less, where no more is named and no
    less is there. -/
theorem within_sights (s : Store ι ι K) (objects named : Set K) (sights : ι → Sight K) (i : ι)
    (m : Sight K) (hobjects : s.objects ⊆ objects) (hnamed : named ⊆ s.named)
    (hheld : ∀ k ∈ m.held, k ∈ s.held i) (hdoomed : ∀ k ∈ m.doomed, k ∈ s.doomed i)
    (hothers : ∀ j, j ≠ i → (∀ k ∈ (sights j).held, k ∈ s.held j) ∧
      ∀ k ∈ (sights j).doomed, k ∈ s.doomed j) :
    Within (ofSights objects named (Function.update sights i m)) s := by
  refine ⟨hobjects, hnamed, fun j => ?_, fun j => ?_⟩
  · by_cases hj : j = i
    · subst hj
      simp only [ofSights, Function.update_self]
      exact hheld
    · simp only [ofSights, Function.update_of_ne hj]
      exact (hothers j hj).1
  · by_cases hj : j = i
    · subst hj
      simp only [ofSights, Function.update_self]
      exact hdoomed
    · simp only [ofSights, Function.update_of_ne hj]
      exact (hothers j hj).2

end Collector
