import Mdevolved.Lib.JsValue
import Mdevolved.Lib.DecimalOrder

/-!
# Values Compared as Numbers

A program that compares a value with a number takes the value for a number, whatever it is. What
is not there at all is no number, and neither more nor less than one. A string is taken for the
number it spells, an array for the string of its items, and an object for a string that spells
none. An object with a member of its own in the place of `toString` cannot be taken for
anything.

A number in a text is one of the numbers of the platform only after rounding. How the platform
rounds is a parameter.

## Main definitions

* `JsNumber.toInt?`: The whole number that a number is.
* `JsValue.rounded`: A value that was read, with its numbers as the platform has them.
* `JsString.toNumeric`: What a string is taken for.
* `JsValue.atMost`: The comparison of a value with a natural number.

## Theorems

* `JsNumber.atMost_iff`: Whole numbers are compared as such.
-/

/-- The whole number that a number is. Negative zero is zero. -/
def JsNumber.toInt? : JsNumber → Option ℤ
  | finite d => d.toInt?
  | negativeZero => some 0
  | nonFinite => none

/-- A number compared with a natural number. Which side a number that is not finite lies on is
    not kept. -/
def JsNumber.atMost (x : JsNumber) (n : ℕ) : Bool :=
  match x with
  | finite d => !(Decimal.ofNat n).lt d
  | negativeZero => true
  | nonFinite => false

namespace JsString

/-- What a string is taken for where a number is wanted. -/
inductive Numeric
  | nan
  | infinity (negative : Bool)
  | decimal (d : Decimal)

/-- Whitespace and line ends, which may stand around a number. -/
def isSpace (c : Char) : Bool :=
  c.toNat ∈ [0x09, 0x0A, 0x0B, 0x0C, 0x0D, 0x20, 0xA0, 0x1680, 0x2028, 0x2029, 0x202F, 0x205F,
    0x3000, 0xFEFF] || (0x2000 ≤ c.toNat && c.toNat ≤ 0x200A)

/-- The code units as characters. A surrogate is in no number. -/
def chars (s : JsString) : List Char := s.map (fun u => Char.ofNat u.val)

/-- Digits with a point before, among or after them, and an exponent. -/
def decimalLiteral (negative : Bool) (cs : List Char) : Option Decimal :=
  let int := Decimal.spanDigits cs
  let frac :=
    if int.2.head? = some '.' then Decimal.spanDigits (int.2.drop 1) else ([], int.2)
  if int.1 = [] ∧ frac.1 = [] then none
  else
    match Decimal.parseExponent frac.2 with
    | some (e, []) => some (Decimal.make negative (int.1 ++ frac.1) (int.1.length + e))
    | _ => none

def signedLiteral (negative : Bool) (cs : List Char) : Numeric :=
  if cs = ['I', 'n', 'f', 'i', 'n', 'i', 't', 'y'] then .infinity negative
  else ((decimalLiteral negative cs).map Numeric.decimal).getD .nan

/-- Digits to another base, which have no sign. -/
def radixLiteral (radix : ℕ) (cs : List Char) : Numeric :=
  match cs.mapM (fun c => (Json.hexValue? c).filter (fun d => d < radix)) with
  | none => .nan
  | some [] => .nan
  | some digits => .decimal (Decimal.ofNat (digits.foldl (fun n d => n * radix + d) 0))

/-- `Number` of a string, before rounding -/
def toNumeric (s : JsString) : Numeric :=
  match (s.chars.dropWhile isSpace).rdropWhile isSpace with
  | [] => .decimal Decimal.zero
  | '0' :: 'x' :: digits => radixLiteral 16 digits
  | '0' :: 'X' :: digits => radixLiteral 16 digits
  | '0' :: 'o' :: digits => radixLiteral 8 digits
  | '0' :: 'O' :: digits => radixLiteral 8 digits
  | '0' :: 'b' :: digits => radixLiteral 2 digits
  | '0' :: 'B' :: digits => radixLiteral 2 digits
  | '+' :: cs => signedLiteral false cs
  | '-' :: cs => signedLiteral true cs
  | cs => signedLiteral false cs

/-- What a string is taken for, compared with a natural number. -/
def Numeric.atMost (round : Decimal → JsNumber) (numeric : Numeric) (n : ℕ) : Bool :=
  match numeric with
  | nan => false
  | infinity negative => negative
  | decimal d =>
      match round d with
      | .nonFinite => d.negative
      | x => x.atMost n

end JsString

namespace JsValue

mutual

/-- A value with its numbers as the platform has them. -/
def rounded (round : Decimal → JsNumber) : JsValue → JsValue
  | num (.finite d) => num (round d)
  | arr items => arr (roundedItems round items)
  | obj members => obj (roundedMembers round members)
  | v => v

def roundedItems (round : Decimal → JsNumber) : List JsValue → List JsValue
  | [] => []
  | x :: rest => rounded round x :: roundedItems round rest

def roundedMembers (round : Decimal → JsNumber) :
    List (JsString × JsValue) → List (JsString × JsValue)
  | [] => []
  | (k, v) :: rest => (k, rounded round v) :: roundedMembers round rest

end

mutual

/-- `String` of a value that JSON can hold, with nothing where it throws -/
def toText : JsValue → Option JsString
  | null => some (JsString.ofText "null")
  | bool true => some (JsString.ofText "true")
  | bool false => some (JsString.ofText "false")
  | num (.finite d) => some (JsString.ofText (String.ofList d.toChars))
  | num .negativeZero => some (JsString.ofText "0")
  | num .nonFinite => none
  | str s => some s
  | arr items => (itemTexts items).map (fun texts => (JsString.ofText ",").intercalate texts)
  -- A member of its own hides the method, and is never one.
  | obj members =>
      if JsString.ofText "toString" ∈ members.map Prod.fst then none
      else some (JsString.ofText "[object Object]")
  | other => none

/-- The items of an array as they are joined, where null is nothing. -/
def itemTexts : List JsValue → Option (List JsString)
  | [] => some []
  | null :: rest => (itemTexts rest).map ([] :: ·)
  | x :: rest =>
      match toText x with
      | none => none
      | some front => (itemTexts rest).map (front :: ·)

end

/-- `<=` between a value, if there is one, and a natural number, with nothing where it throws -/
def atMost (round : Decimal → JsNumber) (v : Option JsValue) (n : ℕ) : Option Bool :=
  match v with
  | none => some false
  | some null => some true
  | some (bool b) => some (decide (b.toNat ≤ n))
  | some (num x) => some (x.atMost n)
  | some v => (toText v).map (fun s => s.toNumeric.atMost round n)

theorem roundedMembers_eq (round : Decimal → JsNumber) (members : List (JsString × JsValue)) :
    roundedMembers round members = members.map (fun m => (m.1, rounded round m.2)) := by
  induction members with
  | nil => rw [roundedMembers, List.map_nil]
  | cons m rest ih => rw [roundedMembers, ih, List.map_cons]

/-- An object whose members the platform has as they are is itself. -/
theorem rounded_obj (round : Decimal → JsNumber) (members : List (JsString × JsValue))
    (h : ∀ m ∈ members, rounded round m.2 = m.2) : rounded round (obj members) = obj members := by
  rw [rounded, roundedMembers_eq]
  congr 1
  refine (List.map_congr_left (fun m hm => ?_)).trans (List.map_id members)
  rw [h m hm]
  rfl

end JsValue

/-- Whole numbers are compared as such. -/
theorem JsNumber.atMost_iff (x : JsNumber) (n : ℕ) (i : ℤ) (h : x.toInt? = some i) :
    x.atMost n = true ↔ i ≤ n := by
  cases x with
  | nonFinite => cases h
  | negativeZero =>
      rw [toInt?, Option.some.injEq] at h
      rw [atMost, ← h]
      exact iff_of_true rfl (Int.natCast_nonneg n)
  | finite d =>
      have hd := Decimal.value_of_toInt? d i h
      have hn := Decimal.value_of_toInt? _ _ (Decimal.toInt?_ofNat n)
      have hlt : (Decimal.ofNat n).lt d = true ↔ (n : ℤ) < i := by
        rw [Decimal.lt_iff_value, hd, hn, Int.cast_lt]
      rw [atMost, Bool.not_eq_true', ← Bool.not_eq_true, hlt]
      exact Int.not_lt
