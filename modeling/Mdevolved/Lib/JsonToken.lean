import Mdevolved.Lib.Base64
import Mdevolved.Lib.JsCoercion
import Mdevolved.Lib.Utf8

/-!
# Objects as Tokens

An object written in JSON and then in the letters of addresses, so that it can be handed out as a
text and taken back. Anyone can read such a token and anyone can write one. One that was written
is read back as what it was written for, if the platform has its numbers as they are.

## Main definitions

* `Rounding`: How the platform rounds numbers.
* `JsonToken.encode`, `JsonToken.decode`: Writing and reading a token.
* `JsonToken.member`: A member of an object.

## Theorems

* `JsonToken.decode_encode`: A token is read back.
-/

open JsValue

/-- How decimal numbers become those of the platform. Whole numbers that are safe stay as they
    are. -/
structure Rounding where
  round : Decimal → JsNumber
  exact : ∀ n, n ≤ 2 ^ 53 - 1 → round (Decimal.ofNat n) = .finite (Decimal.ofNat n)

namespace JsonToken

def encode (v : JsValue) : JsString :=
  Base64.encodeBase64Url (Utf8.encode (String.ofList (text v)))

/-- The text in a token. -/
def decodeText (token : JsString) : Option String :=
  (Base64.decodeBase64Url token).bind Utf8.decode

/-- The value in a token. -/
def decode (rounding : Rounding) (token : JsString) : Option JsValue :=
  ((decodeText token).bind (fun decoded => parse decoded.toList)).map (rounded rounding.round)

def number (n : ℕ) : JsValue := num (.finite (Decimal.ofNat n))

/-- A member of an object. -/
def member (members : List (JsString × JsValue)) (name : String) : Option JsValue :=
  (members.find? (fun m => m.1 = JsString.ofText name)).map Prod.snd

/-- The text of an object begins with a brace, and so with no byte order mark. -/
theorem decodeText_encode (members : List (JsString × JsValue)) :
    decodeText (encode (obj members)) = some (String.ofList (text (obj members))) := by
  have hmark : Utf8.stripBom (String.ofList (text (obj members))) =
      String.ofList (text (obj members)) := by
    rw [Utf8.stripBom_eq_self_iff, String.toList_ofList, text, List.head?_cons, ne_eq,
      Option.some.injEq]
    decide
  rw [decodeText, encode, Base64.decode_encode, Option.bind_some, Utf8.decode_encode, hmark]

/-- A token is read back. -/
theorem decode_encode (rounding : Rounding) (members : List (JsString × JsValue))
    (hjson : IsJson (obj members))
    (hround : ∀ m ∈ members, rounded rounding.round m.2 = m.2) :
    decode rounding (encode (obj members)) = some (obj members) := by
  rw [decode, decodeText_encode, Option.bind_some, String.toList_ofList, parse_text _ hjson,
    Option.map_some, rounded_obj _ _ hround]

theorem rounded_str (round : Decimal → JsNumber) (s : JsString) : rounded round (str s) = str s := by
  simp [rounded]

theorem rounded_number (rounding : Rounding) (n : ℕ) (hn : n ≤ 2 ^ 53 - 1) :
    rounded rounding.round (number n) = number n := by
  rw [number, rounded, rounding.exact n hn]

/-- Where names are told apart, a member that is there is found. -/
theorem member_of_mem (members : List (JsString × JsValue)) (name : String) (v : JsValue)
    (hnodup : (members.map Prod.fst).Nodup) (h : (JsString.ofText name, v) ∈ members) :
    member members name = some v := by
  cases hfind : members.find? (fun m => m.1 = JsString.ofText name) with
  | none =>
      have hnone := List.find?_eq_none.mp hfind _ h
      simp at hnone
  | some m =>
      have hname := List.find?_some hfind
      rw [decide_eq_true_eq] at hname
      have hm := member_inj members hnodup m _ (List.mem_of_find?_eq_some hfind) h hname
      rw [member, hfind, hm]
      rfl

end JsonToken
