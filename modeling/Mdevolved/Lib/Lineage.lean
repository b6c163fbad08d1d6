import Mathlib

/-!
# Lineages

Versions of one thing, of which each names the one before it and only the last is in
use. A lineage is a list of them in some order, and there is one order in which the first
names none, each of the others names the one in front of it, and they are numbered from
one on.

Versions that come all at once make a lineage if they are numbered differently and each
names one that is there, with the number before its own.

## Main definitions

* `LinkedFrom`: Versions in the order in which they follow each other.
* `IsLineage`: Versions that can be ordered so, with the one in use.

## Theorems

* `linked_range`: Versions in their order are numbered in succession.
* `IsLineage.of_numbered`: Versions that come all at once.
-/

namespace Lineage

variable {ρ κ : Type*} (key : ρ → κ) (previous : ρ → Option κ) (number : ρ → Nat)

/-- Each version names the one before it, from a given one on. -/
def LinkedFrom : Option κ → Nat → List ρ → Prop
  | _, _, [] => True
  | p, n, r :: rs => previous r = p ∧ number r = n + 1 ∧ LinkedFrom (some (key r)) (number r) rs

/-- The versions of one thing, of which one is in use. -/
structure IsLineage (rows : List ρ) (tip : κ) : Prop where
  distinct : (rows.map key).Nodup
  chain : ∃ chain : List ρ, chain.Perm rows ∧ LinkedFrom key previous number none 0 chain ∧
    chain.getLast?.map key = some tip

variable {key previous number}

/-- Versions in their order are numbered in succession. -/
theorem linked_range (p : Option κ) (n : Nat) (rs : List ρ)
    (h : LinkedFrom key previous number p n rs) :
    rs.map number = List.range' (n + 1) rs.length := by
  induction rs generalizing p n with
  | nil => rfl
  | cons a rs ih =>
      obtain ⟨-, hnumber, hrest⟩ := h
      rw [List.map_cons, List.length_cons, List.range'_succ, ih _ _ hrest, hnumber]

/-- Versions that are numbered in their order are told by their numbers. -/
theorem number_inj_of_pairwise (rs : List ρ) (r t : ρ)
    (h : rs.Pairwise (fun r t => number r < number t)) (hr : r ∈ rs) (ht : t ∈ rs)
    (hrt : number r = number t) : r = t := by
  have hsymm : Std.Symm (fun r t : ρ => number r ≠ number t) := ⟨fun _ _ hne => hne.symm⟩
  have hdiffer : rs.Pairwise (fun r t => number r ≠ number t) :=
    h.imp (fun hlt => Nat.ne_of_lt hlt)
  by_contra hne
  exact hdiffer.forall hr ht hne hrt

/-- The last version has the highest number. -/
theorem number_le_last (rs : List ρ) (a r : ρ)
    (h : rs.Pairwise (fun r t => number r < number t)) (hlast : rs.getLast? = some a)
    (hr : r ∈ rs) : number r ≤ number a := by
  rcases List.getLast?_eq_some_iff.mp hlast with ⟨front, rfl⟩
  rcases List.mem_append.mp hr with hfront | hmem
  · have hlt := (List.pairwise_append.mp h).2.2 r hfront a (List.mem_singleton_self a)
    exact Nat.le_of_lt hlt
  · rw [List.mem_singleton.mp hmem]

/-- Versions in the order of their numbers name those in front of them. -/
theorem linked_of_sorted (done rest : List ρ) (p : Option κ) (n : Nat)
    (hsorted : (done ++ rest).Pairwise (fun r t => number r < number t))
    (hfollows : ∀ r ∈ rest, (previous r = none ∧ number r = 1) ∨
      ∃ u ∈ done ++ rest, previous r = some (key u) ∧ number r = number u + 1)
    (hpos : ∀ r ∈ done, 0 < number r)
    (hempty : done = [] → p = none ∧ n = 0)
    (hlast : ∀ a, done.getLast? = some a → p = some (key a) ∧ n = number a) :
    LinkedFrom key previous number p n rest := by
  induction rest generalizing done p n with
  | nil => trivial
  | cons r rest ih =>
      have hparts := List.pairwise_append.mp hsorted
      have hhead : previous r = p ∧ number r = n + 1 := by
        rcases hfollows r List.mem_cons_self with ⟨hp, hn⟩ | ⟨u, hu, hp, hn⟩
        · -- Nothing is in front of the first version.
          have hdone : done = [] := by
            rw [List.eq_nil_iff_forall_not_mem]
            intro a ha
            have hlt := hparts.2.2 a ha r List.mem_cons_self
            have := hpos a ha
            omega
          rcases hempty hdone with ⟨rfl, rfl⟩
          exact ⟨hp, by omega⟩
        · have hmem : u ∈ done := by
            rcases List.mem_append.mp hu with hmem | hmem
            · exact hmem
            · rcases List.mem_cons.mp hmem with rfl | hmem
              · omega
              · have hlt := (List.pairwise_cons.mp hparts.2.1).1 u hmem
                omega
          have hne : done ≠ [] := List.ne_nil_of_mem hmem
          have hla := List.getLast?_eq_some_getLast hne
          rcases hlast _ hla with ⟨hpa, hna⟩
          have hle := number_le_last done _ u hparts.1 hla hmem
          have hlt := hparts.2.2 _ (List.getLast_mem hne) r List.mem_cons_self
          have hlast' : done.getLast hne = u := by
            refine number_inj_of_pairwise done _ u hparts.1 (List.getLast_mem hne) hmem ?_
            omega
          rw [hpa, hna, hlast']
          exact ⟨hp, hn⟩
      have hr0 : 0 < number r := by omega
      refine ⟨hhead.1, hhead.2, ih (done ++ [r]) (some (key r)) (number r) ?_ ?_ ?_ ?_ ?_⟩
      · rw [List.append_assoc]
        exact hsorted
      · intro t ht
        rw [List.append_assoc]
        exact hfollows t (List.mem_cons_of_mem r ht)
      · intro a ha
        rcases List.mem_append.mp ha with ha | ha
        · exact hpos a ha
        · rw [List.mem_singleton.mp ha]
          exact hr0
      · intro hnil
        exact absurd hnil (List.append_ne_nil_of_right_ne_nil _ (List.cons_ne_nil _ _))
      · intro a ha
        rw [List.getLast?_append, List.getLast?_singleton] at ha
        have hra : r = a := Option.some.inj ha
        rw [hra]
        exact ⟨rfl, rfl⟩

/-- Versions that come all at once, the one with the highest number in use. -/
theorem IsLineage.of_numbered (rows : List ρ) (tip : κ) (hdistinct : (rows.map key).Nodup)
    (hnumber : ∀ r ∈ rows, ∀ t ∈ rows, number r = number t → key r = key t)
    (hfollows : ∀ r ∈ rows, (previous r = none ∧ number r = 1) ∨
      ∃ u ∈ rows, previous r = some (key u) ∧ number r = number u + 1)
    (htip : (rows.insertionSort (fun r t => number r ≤ number t)).getLast?.map key = some tip) :
    IsLineage key previous number rows tip := by
  have hperm := List.perm_insertionSort (fun r t : ρ => number r ≤ number t) rows
  have hle : (rows.insertionSort (fun r t => number r ≤ number t)).Pairwise
      (fun r t => number r ≤ number t) := by
    have : Std.Total (fun r t : ρ => number r ≤ number t) := ⟨fun r t => Nat.le_total _ _⟩
    have : IsTrans ρ (fun r t : ρ => number r ≤ number t) := ⟨fun _ _ _ h h' => Nat.le_trans h h'⟩
    exact List.pairwise_insertionSort _ rows
  have hkeys : (rows.insertionSort (fun r t => number r ≤ number t)).Pairwise
      (fun r t => key r ≠ key t) :=
    List.pairwise_map.mp ((hperm.map key).nodup_iff.mpr hdistinct)
  have hlt : (rows.insertionSort (fun r t => number r ≤ number t)).Pairwise
      (fun r t => number r < number t) := by
    refine List.Pairwise.imp_of_mem (fun {r t} hr ht hrt => ?_) (hle.and hkeys)
    refine Nat.lt_of_le_of_ne hrt.1 (fun heq => hrt.2 ?_)
    exact hnumber r (hperm.subset hr) t (hperm.subset ht) heq
  refine ⟨hdistinct, _, hperm, ?_, htip⟩
  refine linked_of_sorted [] _ none 0 hlt (fun r hr => ?_)
    (fun _ h => absurd h List.not_mem_nil) (fun _ => ⟨rfl, rfl⟩) (fun a ha => ?_)
  · rcases hfollows r (hperm.subset hr) with hfirst | ⟨u, hu, hu'⟩
    · exact Or.inl hfirst
    · exact Or.inr ⟨u, hperm.symm.subset hu, hu'⟩
  · cases ha

end Lineage
