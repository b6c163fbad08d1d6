import Mathlib

/-!
# Decimal Numbers as Text

Finite decimal numbers, how they are written and how they are read. A number
is its sign, its significant digits and where the point stands before them:
`0.d₁d₂…dₖ × 10 ^ point`. The digits neither begin nor end with a zero, which
the type carries as a field, so equal numbers are equal values.

A floating-point number is written as the shortest decimal that reads back to
it, so each finite double is one of these and the text of a double is the text
of its decimal. A negative zero is written, and read, as zero.

Writing chooses between four layouts by the size of the number, and reading
takes any of them. `parseNumber_toChars` is that reading undoes writing. Its
proof needs only one fact about each layout, that the digits it writes are the
significant ones with zeros on either side: `make_pad` says that those zeros
do not change the number.

## Main definitions

* `Decimal`: A finite decimal number.
* `Decimal.make`: A number from any digits, leading and trailing zeros dropped.
* `Decimal.toChars`: The text of a number.
* `Decimal.parseNumber`: Reading a number off the front of a text.
* `Decimal.ofNat`: A natural number.

## Theorems

* `make_pad`: Zeros around the digits do not change the number.
* `spanDigits_map`: Written digits are read back.
* `ofNat_injective`: Different numbers are different decimals.
* `parseNumber_toChars`: Reading undoes writing.
-/

/-- A finite decimal number `± 0.d₁d₂…dₖ × 10 ^ point` in its shortest form. -/
structure Decimal where
  negative : Bool
  digits : List (Fin 10)
  point : ℤ
  shortest : (digits = [] → negative = false ∧ point = 0) ∧
    digits.head? ≠ some 0 ∧ digits.getLast? ≠ some 0
  deriving DecidableEq

namespace Decimal

/-- The number zero. -/
def zero : Decimal :=
  { negative := false, digits := [], point := 0,
    shortest := ⟨fun _ => ⟨rfl, rfl⟩, by decide, by decide⟩ }

/-- Digits without the zeros before and after them. -/
def trim (ds : List (Fin 10)) : List (Fin 10) :=
  (ds.dropWhile (· = 0)).rdropWhile (· = 0)

section

variable (n : ℕ) (x : Decimal) (ds : List (Fin 10)) (rest : List Char)

theorem trim_head : (trim ds).head? ≠ some 0 := by
  intro h
  have hpre := List.rdropWhile_prefix (fun d : Fin 10 => decide (d = 0)) (ds.dropWhile (· = 0))
  have hhead : (ds.dropWhile (fun d : Fin 10 => decide (d = 0))).head? = some 0 := by
    rcases hpre with ⟨tail, htail⟩
    rw [← htail, List.head?_append]
    change ((trim ds).head?.or tail.head?) = some 0
    rw [h, Option.some_or]
  have hnot := List.head?_dropWhile_not (fun d : Fin 10 => decide (d = 0)) ds
  rw [hhead] at hnot
  simp at hnot

theorem trim_getLast : (trim ds).getLast? ≠ some 0 := by
  intro h
  rcases List.getLast?_eq_some_iff.mp h with ⟨init, hinit⟩
  have hne : trim ds ≠ [] := by rw [hinit]; exact List.concat_ne_nil _ _
  have hlast := List.rdropWhile_last_not (fun d : Fin 10 => decide (d = 0))
    (ds.dropWhile (· = 0)) hne
  have hzero : (trim ds).getLast hne = 0 := by
    simp only [hinit, List.getLast_append_singleton]
  exact hlast (by rw [decide_eq_true_eq]; exact hzero)

/-- A number from any digits: those before the point stand to the left of
    position `point`, and zeros around the significant digits are dropped. -/
def make (negative : Bool) (ds : List (Fin 10)) (point : ℤ) : Decimal :=
  if h : trim ds = [] then zero
  else
    { negative := negative
      digits := trim ds
      point := point - ((ds.takeWhile (· = 0)).length : ℤ)
      shortest := ⟨fun hnil => absurd hnil h, trim_head ds, trim_getLast ds⟩ }

/-- Zeros around the digits of a number do not change it, as long as the point
    moves with them. -/
theorem make_pad (before after : ℕ) (hx : x.digits ≠ []) :
    make x.negative (List.replicate before 0 ++ x.digits ++ List.replicate after 0)
      (x.point + before) = x := by
  have hfirst : ∃ d rest, x.digits = d :: rest ∧ d ≠ 0 := by
    cases hd : x.digits with
    | nil => exact absurd hd hx
    | cons d rest =>
        refine ⟨d, rest, rfl, fun hzero => x.shortest.2.1 ?_⟩
        rw [hd, hzero, List.head?_cons]
  rcases hfirst with ⟨d, rest, hd, hne⟩
  have hlead : (List.replicate before (0 : Fin 10) ++ x.digits ++
      List.replicate after 0).takeWhile (· = 0) = List.replicate before 0 := by
    rw [List.append_assoc, List.takeWhile_append_of_pos (by simp), hd, List.cons_append,
      List.takeWhile_cons_of_neg (by simpa using hne), List.append_nil]
  have hdrop : (List.replicate before (0 : Fin 10) ++ x.digits ++
      List.replicate after 0).dropWhile (· = 0) = x.digits ++ List.replicate after 0 := by
    rw [List.append_assoc, List.dropWhile_append_of_pos (by simp), hd, List.cons_append,
      List.dropWhile_cons_of_neg (by simpa using hne)]
  have hback : ∀ n, (x.digits ++ List.replicate n (0 : Fin 10)).rdropWhile (· = 0) =
      x.digits := by
    intro n
    induction n with
    | zero =>
        rw [List.replicate_zero, List.append_nil]
        refine (List.rdropWhile_eq_self_iff).mpr (fun hl hzero => x.shortest.2.2 ?_)
        rw [List.getLast?_eq_some_getLast hl]
        exact congrArg some (of_decide_eq_true hzero)
    | succ k ih =>
        rw [List.replicate_succ', ← List.append_assoc, List.rdropWhile_concat_pos _ _ _ (by simp)]
        exact ih
  have htrim : trim (List.replicate before 0 ++ x.digits ++ List.replicate after 0) =
      x.digits := by
    rw [trim, hdrop]
    exact hback after
  unfold make
  rw [dif_neg (by rw [htrim]; exact hx)]
  cases x with
  | mk negative digits point shortest =>
      simp only [Decimal.mk.injEq, true_and]
      refine ⟨htrim, ?_⟩
      rw [hlead, List.length_replicate]
      omega

theorem make_zeros (negative : Bool) (n : ℕ) (point : ℤ) :
    make negative (List.replicate n 0) point = zero := by
  have htrim : trim (List.replicate n (0 : Fin 10)) = [] := by
    rw [trim, List.dropWhile_replicate, if_pos (by decide), List.rdropWhile_nil]
  rw [make, dif_pos htrim]

/-- The character of a digit. -/
def digitChar (d : Fin 10) : Char := Char.ofNat (48 + d)

/-- The digit a character stands for. -/
def charDigit? (c : Char) : Option (Fin 10) :=
  if h : 48 ≤ c.toNat ∧ c.toNat < 58 then some ⟨c.toNat - 48, by omega⟩ else none

theorem charDigit?_digitChar : ∀ d, charDigit? (digitChar d) = some d := by decide

/-- The digits at the front of a text, and what follows them. -/
def spanDigits : List Char → List (Fin 10) × List Char
  | [] => ([], [])
  | c :: cs =>
      match charDigit? c with
      | some d => (d :: (spanDigits cs).1, (spanDigits cs).2)
      | none => ([], c :: cs)

/-- What follows a number does not begin with a digit, so the number ends
    there. -/
def Ends (rest : List Char) : Prop :=
  ∀ c ∈ rest.head?, charDigit? c = none ∧ c ≠ '.' ∧ c ≠ 'e' ∧ c ≠ 'E'

theorem ends_nil : Ends [] := by
  intro c hc
  cases hc

/-- Written digits are read back, up to a character that is none. -/
theorem spanDigits_map (hrest : ∀ c ∈ rest.head?, charDigit? c = none) :
    spanDigits (ds.map digitChar ++ rest) = (ds, rest) := by
  induction ds with
  | nil =>
      cases rest with
      | nil => rfl
      | cons c cs =>
          have hc := hrest c rfl
          simp only [List.map_nil, List.nil_append, spanDigits, hc]
  | cons d ds ih =>
      simp only [List.map_cons, List.cons_append, spanDigits, charDigit?_digitChar, ih]

/-- The digits of a natural number, most significant first; none for zero. -/
def natDigits (n : ℕ) : List (Fin 10) := (Nat.digits 10 n).reverse.map (Fin.ofNat 10)

/-- The natural number with these digits. -/
def ofDigits (ds : List (Fin 10)) : ℕ := Nat.ofDigits 10 (ds.map Fin.val).reverse

theorem ofDigits_natDigits : ofDigits (natDigits n) = n := by
  have hmap : ((natDigits n).map Fin.val).reverse = Nat.digits 10 n := by
    rw [natDigits, List.map_map, List.map_reverse, List.reverse_reverse]
    refine (List.map_congr_left (fun d hd => ?_)).trans (List.map_id _)
    exact Nat.mod_eq_of_lt (Nat.digits_lt_base (by decide) hd)
  rw [ofDigits, hmap, Nat.ofDigits_digits]

theorem natDigits_ne_nil (h : n ≠ 0) : natDigits n ≠ [] := by
  intro hnil
  have hn := ofDigits_natDigits n
  rw [hnil] at hn
  exact h hn.symm

/-- A natural number as a decimal. -/
def ofNat (n : ℕ) : Decimal := make false (natDigits n) (natDigits n).length

/-- A number that is not zero does not begin with a zero. -/
theorem natDigits_head : (natDigits n).head? ≠ some 0 := by
  by_cases hn : n = 0
  · rw [hn]
    decide
  · intro h
    have hne : Nat.digits 10 n ≠ [] := Nat.digits_ne_nil_iff_ne_zero.mpr hn
    rw [natDigits, List.head?_map, List.head?_reverse, List.getLast?_eq_some_getLast hne,
      Option.map_some, Option.some.injEq] at h
    have hlast := Nat.getLast_digit_ne_zero 10 hn
    have hlt := Nat.digits_lt_base (b := 10) (by decide) (List.getLast_mem hne)
    have hval := congrArg Fin.val h
    simp only [Fin.ofNat, Nat.mod_eq_of_lt hlt] at hval
    exact hlast hval

/-- Digits are what is left of them after the zeros at the end are taken off,
    and those zeros. -/
theorem trim_append (hhead : ds.head? ≠ some 0) :
    ds = trim ds ++ List.replicate (ds.length - (trim ds).length) 0 := by
  have hdrop : ds.dropWhile (· = 0) = ds := by
    cases ds with
    | nil => rfl
    | cons d ds =>
        rw [List.dropWhile_cons_of_neg]
        intro hzero
        exact hhead (congrArg some (of_decide_eq_true hzero))
  have hsplit : ds = trim ds ++ (ds.reverse.takeWhile (· = 0)).reverse := by
    rw [trim, hdrop, List.rdropWhile, ← List.reverse_append, List.takeWhile_append_dropWhile,
      List.reverse_reverse]
  have hzeros : (ds.reverse.takeWhile (· = 0)).reverse =
      List.replicate (ds.length - (trim ds).length) 0 := by
    refine List.eq_replicate_iff.mpr ⟨?_, ?_⟩
    · have hlength := congrArg List.length hsplit
      rw [List.length_append] at hlength
      omega
    · intro d hd
      have hzero := List.mem_takeWhile_imp (List.mem_reverse.mp hd)
      exact of_decide_eq_true hzero
  rw [← hzeros]
  exact hsplit

/-- Different numbers are different decimals. -/
theorem ofNat_injective : Function.Injective ofNat := by
  have hempty : ∀ n, trim (natDigits n) = [] → natDigits n = [] := by
    intro n h
    have hsplit := trim_append (natDigits n) (natDigits_head n)
    rw [h, List.nil_append] at hsplit
    cases hds : natDigits n with
    | nil => rfl
    | cons d ds =>
        rw [hds, List.length_cons, List.length_nil, Nat.sub_zero, List.replicate_succ,
          List.cons.injEq] at hsplit
        have hhead := natDigits_head n
        rw [hds, hsplit.1] at hhead
        exact absurd rfl hhead
  have hdigits : ∀ n m, ofNat n = ofNat m → natDigits n = natDigits m := by
    intro n m h
    unfold ofNat make at h
    split at h
    · next hn =>
      split at h
      · next hm => rw [hempty n hn, hempty m hm]
      · next hm => exact absurd (congrArg Decimal.digits h).symm hm
    · next hn =>
      split at h
      · next hm => exact absurd (congrArg Decimal.digits h) hn
      · have htrim : trim (natDigits n) = trim (natDigits m) := congrArg Decimal.digits h
        have hpoint := congrArg Decimal.point h
        have hlead : ∀ k, (natDigits k).takeWhile (· = 0) = [] := by
          intro k
          cases hds : natDigits k with
          | nil => rfl
          | cons d ds =>
              refine List.takeWhile_cons_of_neg (fun hzero => natDigits_head k ?_)
              rw [hds]
              exact congrArg some (of_decide_eq_true hzero)
        simp only [hlead, List.length_nil] at hpoint
        rw [trim_append _ (natDigits_head n), trim_append _ (natDigits_head m), htrim]
        congr 2
        omega
  intro n m h
  rw [← ofDigits_natDigits n, hdigits n m h, ofDigits_natDigits]
/-- A number in units of `10 ^ e`, for an `e` small enough that it is whole. -/
def scaled (x : Decimal) (e : ℤ) : ℤ :=
  let size : ℤ := ofDigits x.digits * 10 ^ (x.point - x.digits.length - e).toNat
  if x.negative then -size else size

/-- The order of numbers. -/
def lt (x y : Decimal) : Bool :=
  let e := min (x.point - x.digits.length) (y.point - y.digits.length)
  x.scaled e < y.scaled e

/-- The exponent part of a number: its sign, always written, and its digits. -/
def exponentChars (e : ℤ) : List Char :=
  'e' :: (if 0 ≤ e then '+' else '-') :: (natDigits e.natAbs).map digitChar

/-- The text of a number without its sign: the digits alone, with a point among
    them, with the point before them, or in scientific form, by where the
    point stands. -/
def unsignedChars (x : Decimal) : List Char :=
  let k := x.digits.length
  if x.digits = [] then ['0']
  else if (k : ℤ) ≤ x.point ∧ x.point ≤ 21 then
    (x.digits ++ List.replicate (x.point.toNat - k) 0).map digitChar
  else if 0 < x.point ∧ x.point ≤ 21 then
    (x.digits.take x.point.toNat).map digitChar ++
      '.' :: (x.digits.drop x.point.toNat).map digitChar
  else if -6 < x.point ∧ x.point ≤ 0 then
    '0' :: '.' :: (List.replicate (-x.point).toNat 0 ++ x.digits).map digitChar
  else if k = 1 then x.digits.map digitChar ++ exponentChars (x.point - 1)
  else
    (x.digits.take 1).map digitChar ++ '.' :: (x.digits.drop 1).map digitChar ++
      exponentChars (x.point - 1)

/-- The text of a number. -/
def toChars (x : Decimal) : List Char :=
  if x.negative then '-' :: unsignedChars x else unsignedChars x

/-- The digits before the point: a single zero, or digits that do not begin
    with one. -/
def parseInteger : List Char → Option (List (Fin 10) × List Char)
  | '0' :: rest => some ([0], rest)
  | cs =>
      match spanDigits cs with
      | ([], _) => none
      | (ds, rest) => some (ds, rest)

/-- The digits after the point, none where there is no point. -/
def parseFraction : List Char → Option (List (Fin 10) × List Char)
  | '.' :: cs =>
      match spanDigits cs with
      | ([], _) => none
      | (ds, rest) => some (ds, rest)
  | cs => some ([], cs)

/-- Digits as a natural number; at least one is required. -/
def parseMagnitude (cs : List Char) : Option (ℕ × List Char) :=
  match spanDigits cs with
  | ([], _) => none
  | (ds, rest) => some (ofDigits ds, rest)

/-- The exponent, zero where none is written. -/
def parseExponent : List Char → Option (ℤ × List Char)
  | c :: cs =>
      if c = 'e' ∨ c = 'E' then
        match cs with
        | '+' :: ds => (parseMagnitude ds).map (fun p => ((p.1 : ℤ), p.2))
        | '-' :: ds => (parseMagnitude ds).map (fun p => (-(p.1 : ℤ), p.2))
        | ds => (parseMagnitude ds).map (fun p => ((p.1 : ℤ), p.2))
      else some (0, c :: cs)
  | [] => some (0, [])

/-- A number without its sign. -/
def parseUnsigned (negative : Bool) (cs : List Char) : Option (Decimal × List Char) :=
  match parseInteger cs with
  | none => none
  | some (int, cs) =>
      match parseFraction cs with
      | none => none
      | some (frac, cs) =>
          match parseExponent cs with
          | none => none
          | some (e, cs) => some (make negative (int ++ frac) (int.length + e), cs)

/-- The number at the front of a text, and what follows it. -/
def parseNumber : List Char → Option (Decimal × List Char)
  | '-' :: cs => parseUnsigned true cs
  | cs => parseUnsigned false cs

theorem digitChar_ne (d : Fin 10) : digitChar d ≠ '-' ∧ digitChar d ≠ '.' ∧
    digitChar d ≠ 'e' ∧ digitChar d ≠ 'E' ∧ (d ≠ 0 → digitChar d ≠ '0') := by
  revert d
  decide

theorem ends_digits {rest : List Char} (h : Ends rest) :
    ∀ c ∈ rest.head?, charDigit? c = none :=
  fun c hc => (h c hc).1

theorem parseInteger_map (hne : ds ≠ [])
    (hhead : ds.head? ≠ some 0) (hrest : ∀ c ∈ rest.head?, charDigit? c = none) :
    parseInteger (ds.map digitChar ++ rest) = some (ds, rest) := by
  cases ds with
  | nil => exact absurd rfl hne
  | cons d ds =>
      have hd : d ≠ 0 := fun h => hhead (by rw [h, List.head?_cons])
      have hspan := spanDigits_map (d :: ds) rest hrest
      rw [List.map_cons, List.cons_append] at hspan ⊢
      rw [parseInteger, hspan]
      intro rest' heq
      exact (digitChar_ne d).2.2.2.2 hd (List.cons.inj heq).1

theorem parseFraction_map (hne : ds ≠ [])
    (hrest : ∀ c ∈ rest.head?, charDigit? c = none) :
    parseFraction ('.' :: (ds.map digitChar ++ rest)) = some (ds, rest) := by
  have hspan := spanDigits_map ds rest hrest
  cases ds with
  | nil => exact absurd rfl hne
  | cons d ds => rw [parseFraction, hspan]

theorem parseFraction_none (h : ∀ c ∈ rest.head?, c ≠ '.') :
    parseFraction rest = some ([], rest) := by
  cases rest with
  | nil => rfl
  | cons c cs =>
      rw [parseFraction]
      intro cs' heq
      exact h c rfl (List.cons.inj heq).1

theorem parseMagnitude_natDigits (hn : n ≠ 0)
    (hrest : ∀ c ∈ rest.head?, charDigit? c = none) :
    parseMagnitude ((natDigits n).map digitChar ++ rest) = some (n, rest) := by
  have hspan := spanDigits_map (natDigits n) rest hrest
  have hvalue := ofDigits_natDigits n
  have hne := natDigits_ne_nil n hn
  generalize natDigits n = ds at hspan hvalue hne ⊢
  cases ds with
  | nil => exact absurd rfl hne
  | cons d ds => rw [parseMagnitude, hspan, ← hvalue]

/-- A written exponent is read back. It is never zero where it is written. -/
theorem parseExponent_chars (e : ℤ) (rest : List Char) (he : e ≠ 0) (hrest : Ends rest) :
    parseExponent (exponentChars e ++ rest) = some (e, rest) := by
  have hmag := parseMagnitude_natDigits e.natAbs rest (by omega) (ends_digits hrest)
  by_cases hpos : 0 ≤ e
  · simp only [exponentChars, if_pos hpos, List.cons_append, parseExponent, true_or, if_true, hmag,
      Option.map_some]
    rw [Int.natAbs_of_nonneg hpos]
  · simp only [exponentChars, if_neg hpos, List.cons_append, parseExponent, true_or, if_true, hmag,
      Option.map_some]
    rw [Int.ofNat_natAbs_of_nonpos (by omega), Int.neg_neg]

theorem parseExponent_none (hrest : Ends rest) :
    parseExponent rest = some (0, rest) := by
  cases rest with
  | nil => rfl
  | cons c cs =>
      have hc := hrest c rfl
      refine if_neg ?_
      rintro (he | hE)
      · exact hc.2.2.1 he
      · exact hc.2.2.2 hE

/-- Reading the parts of a number one after the other. -/
theorem parseUnsigned_parts (negative : Bool) (cs cs' cs'' rest : List Char)
    (int frac : List (Fin 10)) (e : ℤ) (hint : parseInteger cs = some (int, cs'))
    (hfrac : parseFraction cs' = some (frac, cs'')) (hexp : parseExponent cs'' = some (e, rest)) :
    parseUnsigned negative cs = some (make negative (int ++ frac) (int.length + e), rest) := by
  simp only [parseUnsigned, hint, hfrac, hexp]

theorem exponentChars_head (e : ℤ) (rest : List Char) :
    ∀ c ∈ (exponentChars e ++ rest).head?, charDigit? c = none ∧ c ≠ '.' := by
  intro c hc
  simp only [exponentChars, List.cons_append, List.head?_cons, Option.mem_some] at hc
  subst hc
  exact ⟨by decide, by decide⟩

/-- The layout of a number without its sign reads back to the number. -/
theorem parseUnsigned_unsignedChars (hx : x.digits ≠ [])
    (hrest : Ends rest) :
    parseUnsigned x.negative (unsignedChars x ++ rest) = some (x, rest) := by
  have hlen : 0 < x.digits.length := List.length_pos_iff.mpr hx
  have hdigit : ∀ c ∈ rest.head?, charDigit? c = none := ends_digits hrest
  have hdot : ∀ c ∈ rest.head?, c ≠ '.' := fun c hc => (hrest c hc).2.1
  have hend := parseExponent_none rest hrest
  have htake : ∀ n, 0 < n → (x.digits.take n).head? ≠ some 0 := by
    intro n hn
    rw [List.head?_take, if_neg (by omega)]
    exact x.shortest.2.1
  have hplain := make_pad x 0 0 hx
  rw [List.replicate_zero, List.nil_append, List.append_nil] at hplain
  have htaken : ∀ n, 0 < n → n < x.digits.length → x.digits.take n ≠ [] := by
    intro n hpos hn hnil
    have hlength := congrArg List.length hnil
    rw [List.length_take, List.length_nil] at hlength
    omega
  have hdropped : ∀ n, n < x.digits.length → x.digits.drop n ≠ [] := by
    intro n hn hnil
    have hlength := congrArg List.length hnil
    rw [List.length_drop, List.length_nil] at hlength
    omega
  have hpoint : ∀ cs, ∀ c ∈ ('.' :: cs).head?, charDigit? c = none := by
    intro cs c hc
    rw [List.head?_cons, Option.mem_some] at hc
    exact hc ▸ by decide
  simp only [unsignedChars, hx, if_false]
  split
  · -- Digits and zeros, no point.
    next h =>
    rw [parseUnsigned_parts _ _ rest rest rest (x.digits ++ List.replicate _ 0) [] 0
      (parseInteger_map _ rest (by simp [hx]) ?_ hdigit) (parseFraction_none rest hdot) hend]
    · have hpad := make_pad x 0 (x.point.toNat - x.digits.length) hx
      rw [List.replicate_zero, List.nil_append] at hpad
      rw [List.append_nil, List.length_append, List.length_replicate]
      convert congrArg (fun y => some (y, rest)) hpad using 4
      omega
    · rw [List.head?_append_of_ne_nil _ hx]
      exact x.shortest.2.1
  split
  · -- The point stands among the digits.
    next hk h =>
    have hn : x.point.toNat < x.digits.length := by omega
    rw [List.append_assoc, List.cons_append]
    rw [parseUnsigned_parts _ _ ('.' :: ((x.digits.drop x.point.toNat).map digitChar ++ rest))
      rest rest (x.digits.take x.point.toNat) (x.digits.drop x.point.toNat) 0
      (parseInteger_map _ _ (htaken _ (by omega) hn) (htake _ (by omega)) (hpoint _))
      (parseFraction_map _ rest (hdropped _ hn) hdigit) hend]
    rw [List.take_append_drop, List.length_take]
    convert congrArg (fun y => some (y, rest)) hplain using 4
    omega
  split
  · -- A zero, the point and more zeros before the digits.
    next h =>
    rw [List.cons_append, List.cons_append]
    rw [parseUnsigned_parts _ _ ('.' :: ((List.replicate _ 0 ++ x.digits).map digitChar ++ rest))
      rest rest [0] (List.replicate (-x.point).toNat 0 ++ x.digits) 0 rfl
      (parseFraction_map _ rest (by simp [hx]) hdigit) hend]
    have hpad := make_pad x ((-x.point).toNat + 1) 0 hx
    rw [List.replicate_zero, List.append_nil, List.replicate_succ] at hpad
    rw [List.singleton_append, ← List.cons_append]
    convert congrArg (fun y => some (y, rest)) hpad using 4
    simp only [List.length_singleton]
    omega
  split
  · -- One digit and an exponent.
    next h3 h =>
    have hexp := parseExponent_chars (x.point - 1) rest (by omega) hrest
    have hhead := exponentChars_head (x.point - 1) rest
    rw [List.append_assoc]
    rw [parseUnsigned_parts _ _ _ _ rest x.digits [] (x.point - 1)
      (parseInteger_map _ _ hx x.shortest.2.1 (fun c hc => (hhead c hc).1))
      (parseFraction_none _ (fun c hc => (hhead c hc).2)) hexp]
    rw [List.append_nil]
    convert congrArg (fun y => some (y, rest)) hplain using 4
    omega
  · -- A digit, the point, the other digits and an exponent.
    next h3 h =>
    have hexp := parseExponent_chars (x.point - 1) rest (by omega) hrest
    have hhead := exponentChars_head (x.point - 1) rest
    rw [List.append_assoc, List.append_assoc, List.cons_append]
    rw [parseUnsigned_parts _ _ ('.' :: ((x.digits.drop 1).map digitChar ++
      (exponentChars (x.point - 1) ++ rest))) _ rest (x.digits.take 1) (x.digits.drop 1)
      (x.point - 1)
      (parseInteger_map _ _ (htaken 1 (by omega) (by omega)) (htake 1 (by omega)) (hpoint _))
      (parseFraction_map _ _ (hdropped 1 (by omega)) (fun c hc => (hhead c hc).1)) hexp]
    rw [List.take_append_drop, List.length_take]
    convert congrArg (fun y => some (y, rest)) hplain using 4
    omega

theorem zero_of_digits (hx : x.digits = []) : x = zero := by
  cases x with
  | mk negative digits point shortest =>
      have hnil : digits = [] := hx
      have hrest := shortest.1 hnil
      simp only [zero, Decimal.mk.injEq]
      exact ⟨hrest.1, hnil, hrest.2⟩

/-- Every layout begins with a digit. -/
theorem unsignedChars_head : ∃ d cs, unsignedChars x = digitChar d :: cs := by
  cases hd : x.digits with
  | nil => exact ⟨0, [], by simp only [unsignedChars, hd, if_true]; rfl⟩
  | cons d ds =>
      simp only [unsignedChars, hd, reduceCtorEq, if_false]
      split
      · exact ⟨d, _, rfl⟩
      split
      · next h =>
        cases hn : x.point.toNat with
        | zero => omega
        | succ k => exact ⟨d, _, rfl⟩
      split
      · exact ⟨0, _, rfl⟩
      split
      · exact ⟨d, _, rfl⟩
      · exact ⟨d, _, rfl⟩

/-- A number begins with a digit or a minus sign. -/
theorem toChars_head :
    ∃ c cs, toChars x = c :: cs ∧ (c = '-' ∨ ∃ d, c = digitChar d) := by
  rcases unsignedChars_head x with ⟨d, cs, hcs⟩
  cases hneg : x.negative with
  | true => exact ⟨'-', _, by rw [toChars, if_pos hneg], Or.inl rfl⟩
  | false =>
      exact ⟨digitChar d, cs, by rw [toChars, if_neg (by rw [hneg]; decide), hcs],
        Or.inr ⟨d, rfl⟩⟩

/-- Reading undoes writing. -/
theorem parseNumber_toChars (hrest : Ends rest) :
    parseNumber (toChars x ++ rest) = some (x, rest) := by
  have hunsigned : parseUnsigned x.negative (unsignedChars x ++ rest) = some (x, rest) := by
    by_cases hx : x.digits = []
    · rw [zero_of_digits x hx]
      rw [parseUnsigned_parts _ _ rest rest rest [0] [] 0 rfl
        (parseFraction_none rest (fun c hc => (hrest c hc).2.1)) (parseExponent_none rest hrest)]
      exact congrArg (fun y => some (y, rest)) (make_zeros _ 1 _)
    · exact parseUnsigned_unsignedChars x rest hx hrest
  cases hneg : x.negative with
  | true =>
      rw [hneg] at hunsigned
      rw [toChars, if_pos hneg, List.cons_append, parseNumber]
      exact hunsigned
  | false =>
      rw [hneg] at hunsigned
      rw [toChars, if_neg (by rw [hneg]; decide)]
      rcases unsignedChars_head x with ⟨d, cs, hcs⟩
      rw [hcs, List.cons_append] at hunsigned ⊢
      rw [parseNumber]
      · exact hunsigned
      · intro cs' heq
        exact (digitChar_ne d).1 (List.cons.inj heq).1

end

end Decimal
