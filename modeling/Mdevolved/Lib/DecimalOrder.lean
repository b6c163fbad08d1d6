import Mdevolved.Lib.Decimal

/-!
# The Order of Decimal Numbers

Decimal numbers are compared by bringing them to whole numbers. This is the order of the
rationals that they stand for, and each stands for one of its own: the digits neither begin nor
end with a zero. So the order is linear.

## Main definitions

* `Decimal.value`: The rational that a decimal number stands for.
* `Decimal.toInt?`: The whole number that it is.

## Theorems

* `lt_iff_value`: Numbers are compared as rationals.
* `value_injective`: A number is told by its rational.
* `toInt?_ofNat`, `toChars_ofNat`: A natural number is whole, and written in its digits.
-/

namespace Decimal

/-- The rational that a number stands for. -/
def value (x : Decimal) : ℚ :=
  (if x.negative then -1 else 1) * ofDigits x.digits * 10 ^ (x.point - x.digits.length)

/-- Counting in smaller units multiplies a number. -/
theorem scaled_eq (x : Decimal) (e : ℤ) (he : e ≤ x.point - x.digits.length) :
    (x.scaled e : ℚ) = x.value * 10 ^ (-e) := by
  have hten : (10 : ℚ) ≠ 0 := by norm_num
  have hpower : (10 : ℚ) ^ (x.point - x.digits.length - e).toNat =
      10 ^ (x.point - x.digits.length) * 10 ^ (-e) := by
    rw [← zpow_natCast, Int.toNat_of_nonneg (by omega), ← zpow_add₀ hten]
    rfl
  unfold scaled value
  by_cases hneg : x.negative = true
  · rw [if_pos hneg, if_pos hneg]
    push_cast
    rw [hpower]
    ring
  · rw [if_neg hneg, if_neg hneg]
    push_cast
    rw [hpower]
    ring

theorem lt_iff_value (x y : Decimal) : x.lt y = true ↔ x.value < y.value := by
  have hx := scaled_eq x (min (x.point - x.digits.length) (y.point - y.digits.length))
    (min_le_left _ _)
  have hy := scaled_eq y (min (x.point - x.digits.length) (y.point - y.digits.length))
    (min_le_right _ _)
  have hpos : (0 : ℚ) < 10 ^ (-min (x.point - x.digits.length) (y.point - y.digits.length)) :=
    zpow_pos (by norm_num) _
  rw [lt, decide_eq_true_eq, ← Int.cast_lt (R := ℚ), hx, hy]
  exact mul_lt_mul_iff_left₀ hpos

/-! ## What a number is told by -/

/-- The last digit is no zero. -/
theorem ofDigits_mod (ds : List (Fin 10)) (hne : ds ≠ []) (hlast : ds.getLast? ≠ some 0) :
    ofDigits ds % 10 ≠ 0 := by
  obtain ⟨front, d, rfl⟩ := (List.eq_nil_or_concat' ds).resolve_left hne
  rw [List.getLast?_concat] at hlast
  have hd : d.val ≠ 0 := fun hzero => hlast (congrArg some (Fin.ext hzero))
  have hlt := d.isLt
  rw [ofDigits, List.map_append, List.reverse_append, List.map_singleton, List.reverse_singleton,
    List.singleton_append, Nat.ofDigits_cons]
  omega

theorem ofDigits_injective (ds es : List (Fin 10)) (hd : ds.head? ≠ some 0)
    (he : es.head? ≠ some 0) (h : ofDigits ds = ofDigits es) : ds = es := by
  have hdigits : ∀ fs : List (Fin 10), fs.head? ≠ some 0 →
      Nat.digits 10 (ofDigits fs) = (fs.map Fin.val).reverse := by
    intro fs hfs
    apply Nat.digits_ofDigits 10 (by decide)
    · intro n hn
      obtain ⟨d, -, rfl⟩ := List.mem_map.mp (List.mem_reverse.mp hn)
      exact d.isLt
    · intro hne hzero
      cases fs with
      | nil => exact hne rfl
      | cons d rest =>
          apply hfs
          rw [List.head?_cons, Option.some.injEq]
          apply Fin.ext
          simpa using hzero
  have hsame := congrArg (Nat.digits 10) h
  rw [hdigits ds hd, hdigits es he] at hsame
  exact List.map_injective_iff.mpr Fin.val_injective (List.reverse_injective hsame)

/-- Of two numbers with one value, those that end in the smaller units are the same. -/
theorem digits_of_mul (ds es : List (Fin 10)) (n : ℕ) (hd : ds.head? ≠ some 0)
    (he : es.head? ≠ some 0) (hlast : ds.getLast? ≠ some 0)
    (h : ofDigits ds = ofDigits es * 10 ^ n) : ds = es ∧ (ds ≠ [] → n = 0) := by
  by_cases hne : ds = []
  · subst hne
    have hzero : ofDigits es = 0 := by
      have hpos : 0 < 10 ^ n := Nat.pow_pos (by decide)
      rcases Nat.mul_eq_zero.mp h.symm with hzero | hzero
      · exact hzero
      · omega
    exact ⟨ofDigits_injective [] es hd he hzero.symm, fun hfilled => absurd rfl hfilled⟩
  · have hmod := ofDigits_mod ds hne hlast
    cases n with
    | zero =>
        rw [Nat.pow_zero, Nat.mul_one] at h
        exact ⟨ofDigits_injective ds es hd he h, fun _ => rfl⟩
    | succ n =>
        rw [h, Nat.pow_succ, ← Nat.mul_assoc, Nat.mul_mod_left] at hmod
        exact absurd rfl hmod

theorem value_injective : Function.Injective value := by
  intro x y h
  have hx := scaled_eq x (min (x.point - x.digits.length) (y.point - y.digits.length))
    (min_le_left _ _)
  have hy := scaled_eq y (min (x.point - x.digits.length) (y.point - y.digits.length))
    (min_le_right _ _)
  rw [h, ← hy, Int.cast_inj] at hx
  have habs := congrArg Int.natAbs hx
  have hnat : ∀ (z : Decimal) (e : ℤ), (z.scaled e).natAbs =
      ofDigits z.digits * 10 ^ (z.point - z.digits.length - e).toNat := by
    intro z e
    unfold scaled
    have hcast : ((ofDigits z.digits : ℤ) * 10 ^ (z.point - z.digits.length - e).toNat) =
        ((ofDigits z.digits * 10 ^ (z.point - z.digits.length - e).toNat : ℕ) : ℤ) := by
      push_cast
      rfl
    dsimp only
    rw [hcast]
    split
    · rw [Int.natAbs_neg, Int.natAbs_natCast]
    · rw [Int.natAbs_natCast]
  rw [hnat, hnat] at habs
  -- One of the two is counted in its own units.
  have hdigits : x.digits = y.digits ∧ (x.digits ≠ [] → x.point = y.point) := by
    rcases Int.le_total (x.point - x.digits.length) (y.point - y.digits.length) with hle | hle
    · rw [Int.min_eq_left hle, Int.sub_self, Int.toNat_zero, Nat.pow_zero, Nat.mul_one] at habs
      obtain ⟨hsame, hunits⟩ := digits_of_mul _ _ _ x.shortest.2.1 y.shortest.2.1 x.shortest.2.2 habs
      refine ⟨hsame, fun hne => ?_⟩
      have hzero := hunits hne
      rw [hsame] at hle hzero
      omega
    · rw [Int.min_eq_right hle, Int.sub_self, Int.toNat_zero, Nat.pow_zero, Nat.mul_one] at habs
      obtain ⟨hsame, hunits⟩ := digits_of_mul _ _ _ y.shortest.2.1 x.shortest.2.1 y.shortest.2.2
        habs.symm
      refine ⟨hsame.symm, fun hne => ?_⟩
      have hzero := hunits (hsame ▸ hne)
      rw [hsame] at hle hzero
      omega
  obtain ⟨hsame, hpoint⟩ := hdigits
  by_cases hne : x.digits = []
  · rw [zero_of_digits x hne, zero_of_digits y (hsame ▸ hne)]
  · have hpositive : 0 < ofDigits x.digits := by
      have hmod := ofDigits_mod x.digits hne x.shortest.2.2
      omega
    have hsign : x.negative = y.negative := by
      have hvalue := h
      unfold value at hvalue
      rw [← hsame, ← hpoint hne] at hvalue
      have hpower : (0 : ℚ) < 10 ^ (x.point - x.digits.length) := zpow_pos (by norm_num) _
      have hsize : (0 : ℚ) < ofDigits x.digits := by exact_mod_cast hpositive
      have hproduct := mul_pos hsize hpower
      cases hnx : x.negative with
      | true =>
          cases hny : y.negative with
          | true => rfl
          | false =>
              simp only [hnx, hny, if_true, Bool.false_eq_true, if_false] at hvalue
              linarith
      | false =>
          cases hny : y.negative with
          | false => rfl
          | true =>
              simp only [hnx, hny, if_true, Bool.false_eq_true, if_false] at hvalue
              linarith
    cases x with
    | mk negative digits point shortest =>
        cases y with
        | mk negative' digits' point' shortest' =>
            simp only [Decimal.mk.injEq] at hsame hpoint hsign ⊢
            exact ⟨hsign, hsame, hpoint hne⟩

/-! ## Whole numbers -/

/-- The whole number that a number is. -/
def toInt? (x : Decimal) : Option ℤ :=
  if (x.digits.length : ℤ) ≤ x.point then some (x.scaled 0) else none

theorem value_of_toInt? (x : Decimal) (i : ℤ) (h : x.toInt? = some i) : x.value = i := by
  unfold toInt? at h
  split at h
  · next hwhole =>
    have hscaled := scaled_eq x 0 (by omega)
    rw [Option.some.injEq] at h
    rw [h, neg_zero, zpow_zero, mul_one] at hscaled
    exact hscaled.symm
  · cases h

/-- The digits of a natural number do not begin with a zero, so only those at the end go. -/
theorem ofNat_fields (n : ℕ) (hn : n ≠ 0) :
    (ofNat n).negative = false ∧ (ofNat n).digits = trim (natDigits n) ∧
      (ofNat n).point = (natDigits n).length ∧ trim (natDigits n) ≠ [] := by
  have hsplit := trim_append (natDigits n) (natDigits_head n)
  have hfilled : trim (natDigits n) ≠ [] := by
    intro hnil
    rw [hnil, List.nil_append] at hsplit
    have hhead := natDigits_head n
    cases hds : natDigits n with
    | nil => exact natDigits_ne_nil n hn hds
    | cons d ds =>
        rw [hds, List.length_cons, List.length_nil, Nat.sub_zero, List.replicate_succ,
          List.cons.injEq] at hsplit
        rw [hds, hsplit.1] at hhead
        exact hhead rfl
  have hlead : (natDigits n).takeWhile (· = 0) = [] := by
    cases hds : natDigits n with
    | nil => rfl
    | cons d ds =>
        apply List.takeWhile_cons_of_neg
        intro hzero
        apply natDigits_head n
        rw [hds]
        exact congrArg some (of_decide_eq_true hzero)
  have hpoint : (natDigits n).length - (((natDigits n).takeWhile (· = 0)).length : ℤ) =
      (natDigits n).length := by
    rw [hlead]
    exact Int.sub_zero _
  unfold ofNat make
  rw [dif_neg hfilled]
  exact ⟨rfl, rfl, hpoint, hfilled⟩

theorem toInt?_ofNat (n : ℕ) : (ofNat n).toInt? = some (n : ℤ) := by
  by_cases hn : n = 0
  · subst hn
    decide
  · obtain ⟨hsign, hdigits, hpoint, -⟩ := ofNat_fields n hn
    have hsplit := trim_append (natDigits n) (natDigits_head n)
    have hlength := congrArg List.length hsplit
    rw [List.length_append, List.length_replicate] at hlength
    have hzeros : ofDigits (natDigits n) = ofDigits (trim (natDigits n)) *
        10 ^ ((natDigits n).length - (trim (natDigits n)).length) := by
      conv_lhs => rw [hsplit]
      rw [ofDigits, ofDigits, List.map_append, List.reverse_append, List.map_replicate,
        List.reverse_replicate, Nat.ofDigits_append, List.length_replicate, Nat.mul_comm]
      have hnone : Nat.ofDigits 10 (List.replicate
          ((natDigits n).length - (trim (natDigits n)).length) (Fin.val (0 : Fin 10))) = 0 :=
        Nat.ofDigits_replicate_zero
      rw [hnone, Nat.zero_add]
    rw [ofDigits_natDigits] at hzeros
    have hpower : ((natDigits n).length - (trim (natDigits n)).length - 0 : ℤ).toNat =
        (natDigits n).length - (trim (natDigits n)).length := by omega
    rw [toInt?, hdigits, hpoint, if_pos (by omega), scaled, hsign, hdigits, hpoint, hpower,
      if_neg Bool.false_ne_true, Option.some.injEq]
    conv_rhs => rw [hzeros]
    push_cast
    rfl

/-- A natural number of moderate size is written in its digits. -/
theorem toChars_ofNat (n : ℕ) (hn : n ≠ 0) (hsize : (natDigits n).length ≤ 21) :
    (ofNat n).toChars = (natDigits n).map digitChar := by
  obtain ⟨hsign, hdigits, hpoint, hfilled⟩ := ofNat_fields n hn
  have hsplit := trim_append (natDigits n) (natDigits_head n)
  have hlength := congrArg List.length hsplit
  rw [List.length_append, List.length_replicate] at hlength
  have hbound : ((trim (natDigits n)).length : ℤ) ≤ (natDigits n).length ∧
      ((natDigits n).length : ℤ) ≤ 21 := by omega
  rw [toChars, hsign, if_neg Bool.false_ne_true, unsignedChars, hdigits, hpoint,
    if_neg hfilled, if_pos hbound, Int.toNat_natCast, ← hsplit]

end Decimal
