import Mathlib

/-!
# The Order of UTF-16

Texts compared by their UTF-16 code units, as a language does that keeps its strings so.
A text is told by its code units, so that this is a linear order, and a list that is
sorted by texts of its elements does not depend on the order it came in, if the texts
tell the elements.

## Main definitions

* `Utf16.units`: The code units of a text.
* `Utf16.le`: The order.
* `Utf16.sortBy`: A list sorted by texts of its elements.

## Theorems

* `Utf16.units_injective`: A text is told by its code units.
-/

namespace Utf16

/-- The code units of a character: one, or a surrogate pair. -/
def charUnits (c : Char) : List Nat :=
  if c.toNat < 0x10000 then [c.toNat]
  else [0xD800 + (c.toNat - 0x10000) / 0x400, 0xDC00 + (c.toNat - 0x10000) % 0x400]

def units (s : String) : List Nat := s.toList.flatMap charUnits

/-- No text comes before one that is a prefix of it. -/
def le (s t : String) : Bool := decide (units s ≤ units t)

/-- A list sorted by texts of its elements. -/
def sortBy {α : Type*} (text : α → String) (xs : List α) : List α :=
  xs.insertionSort (fun a b => le (text a) (text b) = true)

/-- A character is no surrogate. -/
theorem char_not_surrogate (c : Char) : c.toNat < 0xD800 ∨ 0xDFFF < c.toNat := by
  rcases c.valid with h | h
  · exact Or.inl h
  · exact Or.inr h.1

theorem char_lt (c : Char) : c.toNat < 0x110000 := by
  rcases c.valid with h | h
  · exact Nat.lt_trans h (by decide)
  · exact h.2

/-- A character is told by its code units, and by those in front of a text. -/
theorem charUnits_append_inj (c d : Char) (l m : List Nat)
    (h : charUnits c ++ l = charUnits d ++ m) : c = d ∧ l = m := by
  have hc := char_not_surrogate c
  have hd := char_not_surrogate d
  have hcmax := char_lt c
  have hdmax := char_lt d
  have heq : c.toNat = d.toNat → c = d := fun heq => Char.ext (UInt32.toNat_inj.mp heq)
  unfold charUnits at h
  split at h <;> split at h
  · simp only [List.cons_append, List.nil_append, List.cons.injEq] at h
    exact ⟨heq h.1, h.2⟩
  · simp only [List.cons_append, List.nil_append, List.cons.injEq] at h
    omega
  · simp only [List.cons_append, List.nil_append, List.cons.injEq] at h
    omega
  · simp only [List.cons_append, List.nil_append, List.cons.injEq] at h
    exact ⟨heq (by omega), h.2.2⟩

theorem charUnits_ne_nil (c : Char) : charUnits c ≠ [] := by
  unfold charUnits
  split <;> exact List.cons_ne_nil _ _

theorem flatMap_charUnits_inj (cs ds : List Char)
    (h : cs.flatMap charUnits = ds.flatMap charUnits) : cs = ds := by
  induction cs generalizing ds with
  | nil =>
      cases ds with
      | nil => rfl
      | cons d ds =>
          rw [List.flatMap_nil, List.flatMap_cons] at h
          exact absurd (List.append_eq_nil_iff.mp h.symm).1 (charUnits_ne_nil d)
  | cons c cs ih =>
      cases ds with
      | nil =>
          rw [List.flatMap_nil, List.flatMap_cons] at h
          exact absurd (List.append_eq_nil_iff.mp h).1 (charUnits_ne_nil c)
      | cons d ds =>
          rw [List.flatMap_cons, List.flatMap_cons] at h
          rcases charUnits_append_inj c d _ _ h with ⟨rfl, hrest⟩
          rw [ih ds hrest]

/-- A text is told by its code units. -/
theorem units_injective : Function.Injective units := by
  intro s t h
  exact String.toList_injective (flatMap_charUnits_inj _ _ h)

theorem le_total (s t : String) : le s t = true ∨ le t s = true := by
  rcases Std.Total.total (r := (· ≤ ·)) (units s) (units t) with h | h
  · exact Or.inl (decide_eq_true h)
  · exact Or.inr (decide_eq_true h)

theorem le_transitive (s t u : String) (h : le s t = true) (h' : le t u = true) :
    le s u = true :=
  decide_eq_true (Preorder.le_trans _ _ _ (of_decide_eq_true h) (of_decide_eq_true h'))

variable {α : Type*} (text : α → String)

theorem sortBy_perm (xs : List α) : (sortBy text xs).Perm xs :=
  List.perm_insertionSort _ xs

theorem sortBy_sorted (xs : List α) :
    (sortBy text xs).Pairwise (fun a b => le (text a) (text b) = true) := by
  have htotal : Std.Total (fun a b : α => le (text a) (text b) = true) :=
    ⟨fun a b => le_total (text a) (text b)⟩
  have htrans : IsTrans α (fun a b : α => le (text a) (text b) = true) :=
    ⟨fun a b c => le_transitive (text a) (text b) (text c)⟩
  exact List.pairwise_insertionSort _ xs

/-- What is in order stays as it is. -/
theorem sortBy_eq_self (xs : List α)
    (h : xs.Pairwise (fun a b => le (text a) (text b) = true)) : sortBy text xs = xs :=
  h.insertionSort_eq

end Utf16
