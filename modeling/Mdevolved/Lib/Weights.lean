import Mathlib

/-!
# Weights

The weights of those elements of a list that meet a condition, added up, and what is freed
when the holders of shared elements go.

An element is held by a list of keys. It is freed together with a set of keys where they
are all of its holders, and freed by one key alone where that is the only one. So keys that
go together free more than each of them by itself would: what several of them share among
themselves belongs to no single one. `freed_total` says by how much.

## Main definitions

* `Weights.total`: The weights of the elements that meet a condition.
* `Weights.freed`, `Weights.sole`: Elements that go with a set of keys, and with one key.
* `Weights.single`, `Weights.shared`: Elements with one holder among the keys, and with
  several.

## Theorems

* `Weights.total_split`: A total by cases.
* `Weights.total_or`: Conditions that exclude each other.
* `Weights.total_any`: A family of conditions that exclude each other.
* `Weights.sum_sole`: What keys free one by one.
* `Weights.freed_total`: What keys free together.
-/

namespace Weights

variable {α κ : Type*} (w : α → Nat)

/-- The weights of the elements that meet a condition. -/
def total (p : α → Bool) (l : List α) : Nat := ((l.filter p).map w).sum

theorem total_cons (p : α → Bool) (a : α) (l : List α) :
    total w p (a :: l) = (if p a then w a else 0) + total w p l := by
  unfold total
  by_cases h : p a = true
  · rw [List.filter_cons_of_pos h, List.map_cons, List.sum_cons, if_pos h]
  · rw [List.filter_cons_of_neg h, if_neg h, Nat.zero_add]

section

variable (p q : α → Bool) (l : List α)

theorem total_congr (h : ∀ a ∈ l, p a = q a) :
    total w p l = total w q l := by
  unfold total
  rw [List.filter_congr h]

theorem total_filter :
    total w p (l.filter q) = total w (fun a => q a && p a) l := by
  unfold total
  rw [List.filter_filter]
  simp only [Bool.and_comm]

/-- Nothing that a change of the elements touches is in the total. -/
theorem total_map (p : α → Bool) (f : α → α) (l : List α) (hp : ∀ a ∈ l, p (f a) = p a)
    (hw : ∀ a ∈ l, w (f a) = w a) : total w p (l.map f) = total w p l := by
  induction l with
  | nil => rfl
  | cons a l ih =>
      rw [List.map_cons, total_cons, total_cons, hp a List.mem_cons_self,
        hw a List.mem_cons_self, ih (fun b hb => hp b (List.mem_cons_of_mem a hb))
          (fun b hb => hw b (List.mem_cons_of_mem a hb))]

/-- A total by cases. -/
theorem total_split :
    total w p l = total w (fun a => p a && q a) l + total w (fun a => p a && !q a) l := by
  induction l with
  | nil => rfl
  | cons a l ih =>
      simp only [total_cons, ih]
      cases p a <;> cases q a <;> simp <;> omega

/-- Conditions that exclude each other. -/
theorem total_or (h : ∀ a ∈ l, p a = true → q a = false) :
    total w (fun a => p a || q a) l = total w p l + total w q l := by
  rw [total_split w (fun a => p a || q a) p]
  congr 1
  · apply total_congr
    intro a ha
    cases p a <;> simp
  · apply total_congr
    intro a ha
    cases hp : p a with
    | true => simp [h a ha hp]
    | false => simp

end

/-- A family of conditions of which no two hold of one element. -/
theorem total_any (P : κ → α → Bool) (ks : List κ) (l : List α)
    (h : ks.Pairwise (fun k k' => ∀ a ∈ l, P k a = true → P k' a = false)) :
    (ks.map (fun k => total w (P k) l)).sum = total w (fun a => ks.any (fun k => P k a)) l := by
  induction ks with
  | nil => simp [total]
  | cons k ks ih =>
      rcases List.pairwise_cons.mp h with ⟨hk, hks⟩
      simp only [List.map_cons, List.sum_cons, List.any_cons]
      rw [ih hks, total_or w (P k)]
      intro a ha hp
      rw [List.any_eq_false]
      intro k' hk'
      rw [hk k' hk' a ha hp]
      simp

/-! ## Holders -/

section Holders

variable [DecidableEq κ] (holders : α → List κ)

/-- An element goes with a set of keys. -/
def freed (ks : List κ) (a : α) : Bool :=
  holders a ≠ [] && (holders a).all (fun k => ks.contains k)

/-- An element goes with one key. -/
def sole (k : κ) (a : α) : Bool := holders a = [k]

/-- An element has one holder, and it is among the keys. -/
def single (ks : List κ) (a : α) : Bool :=
  (holders a).length = 1 && (holders a).all (fun k => ks.contains k)

/-- An element has several holders, and they are all among the keys. -/
def shared (ks : List κ) (a : α) : Bool :=
  2 ≤ (holders a).length && (holders a).all (fun k => ks.contains k)

theorem any_sole (ks : List κ) (a : α) :
    ks.any (fun k => sole holders k a) = single holders ks a := by
  rw [Bool.eq_iff_iff]
  simp only [sole, single, List.any_eq_true, decide_eq_true_eq, Bool.and_eq_true,
    List.all_eq_true, List.contains_iff_mem]
  constructor
  · rintro ⟨k, hk, heq⟩
    rw [heq]
    simpa using hk
  · rintro ⟨hone, hall⟩
    obtain ⟨k, heq⟩ := List.length_eq_one_iff.mp hone
    exact ⟨k, hall k (by rw [heq]; exact List.mem_singleton_self k), heq⟩

/-- What keys free one by one. -/
theorem sum_sole (ks : List κ) (l : List α) (hnd : ks.Nodup) :
    (ks.map (fun k => total w (sole holders k) l)).sum = total w (single holders ks) l := by
  rw [total_any w (sole holders)]
  · exact total_congr w _ _ l (fun a _ => any_sole holders ks a)
  · refine hnd.imp (fun {k k'} hne a _ hk => ?_)
    simp only [sole, decide_eq_true_eq, decide_eq_false_iff_not] at hk ⊢
    intro hk'
    rw [hk, List.singleton_inj] at hk'
    exact hne hk'

/-- What keys free together: what each frees by itself, and what they share. -/
theorem freed_total (ks : List κ) (l : List α) :
    total w (freed holders ks) l =
      total w (single holders ks) l + total w (shared holders ks) l := by
  rw [← total_or w]
  · apply total_congr
    intro a ha
    simp only [freed, single, shared]
    cases holders a with
    | nil => simp
    | cons k rest =>
        cases rest with
        | nil => simp
        | cons k' rest => simp
  · intro a ha hone
    simp only [single, Bool.and_eq_true, decide_eq_true_eq] at hone
    simp [shared, hone.1]

end Holders

end Weights
