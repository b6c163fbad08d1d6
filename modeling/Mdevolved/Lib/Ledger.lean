import Mathlib

/-!
# Ledgers

A list of entries, each with an amount, and what the first of them come to. The
amounts are those of any additive monoid, so that one entry may be about several
quantities at once.

`prefixSums` lists the balances an account has had, from before the first entry to
after the last, each with the number of entries it stands after. One more entry adds
one more balance at the end and changes none of the others, which is what an account
that records its balances relies on.

## Main definitions

* `Ledger.upTo`: What the first entries come to.
* `Ledger.prefixSums`: The balances after each number of entries.

## Theorems

* `Ledger.upTo_length`: All entries.
* `Ledger.upTo_concat`, `Ledger.prefixSums_concat`: One more entry.
-/

namespace Ledger

variable {ρ M : Type*} [AddMonoid M] (amount : ρ → M)

/-- What the first entries of a list come to. -/
def upTo (entries : List ρ) (k : Nat) : M :=
  ((entries.take k).map amount).sum

/-- The balance after each number of entries. -/
def prefixSums (entries : List ρ) : List (Nat × M) :=
  (List.range (entries.length + 1)).map (fun k => (k, upTo amount entries k))

theorem upTo_length (entries : List ρ) :
    upTo amount entries entries.length = (entries.map amount).sum := by
  rw [upTo, List.take_length]

/-- What comes later does not change what was there. -/
theorem upTo_append (entries more : List ρ) (k : Nat) (h : k ≤ entries.length) :
    upTo amount (entries ++ more) k = upTo amount entries k := by
  rw [upTo, upTo, List.take_append_of_le_length h]

/-- One more entry adds its amount. -/
theorem upTo_concat (entries : List ρ) (e : ρ) :
    upTo amount (entries ++ [e]) (entries.length + 1) =
      upTo amount entries entries.length + amount e := by
  have hall : entries.length + 1 = (entries ++ [e]).length := by
    rw [List.length_append, List.length_singleton]
  rw [hall, upTo_length, upTo_length, List.map_append, List.sum_append, List.map_singleton,
    List.sum_singleton]

theorem prefixSums_nil : prefixSums amount [] = [(0, 0)] := rfl

/-- One more entry adds one more balance. -/
theorem prefixSums_concat (entries : List ρ) (e : ρ) :
    prefixSums amount (entries ++ [e]) = prefixSums amount entries ++
      [(entries.length + 1, upTo amount entries entries.length + amount e)] := by
  unfold prefixSums
  rw [List.length_append, List.length_singleton, List.range_succ, List.map_append,
    List.map_singleton, upTo_concat]
  congr 1
  refine List.map_congr_left (fun k hk => ?_)
  have hle : k ≤ entries.length := Nat.lt_succ_iff.mp (List.mem_range.mp hk)
  rw [upTo_append amount entries [e] k hle]

end Ledger
