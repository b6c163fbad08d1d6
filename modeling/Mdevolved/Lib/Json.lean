import Mdevolved.Lib.Decimal

/-!
# JSON Text

JSON values, how they are written and how they are read. Writing is the compact
form, without whitespace, with the short escapes where there are any and
`\\u00xx` for the other control characters. Reading takes any JSON text, with
whitespace between tokens, every escape, and escaped surrogate pairs; a lone
surrogate is refused, since no string of characters holds one. An object is
the list of its members as they stand in the text.

`parse_stringify` is that reading undoes writing. The parser works on fuel, so
the proof has two halves: with as much fuel as a value needs the parser
returns it and what follows (`parseValue_toChars`), and no value needs more
than the length of its text (`need_le_length`).

## Main definitions

* `Json`: A JSON value.
* `Json.toChars`, `Json.stringify`: The compact text of a value.
* `Json.parseValue`, `Json.parse`: Reading a value.
* `Json.need`: The fuel a value needs to be read.
* `Json.member`: The value of an object's member.

## Theorems

* `parseString_quote`: A written string is read back.
* `parseValue_toChars`: A written value is read back, given its fuel.
* `need_le_length`: No value needs more fuel than its text is long.
* `parse_stringify`: Reading undoes writing.
-/

/-- A JSON value. -/
inductive Json
  | null
  | bool (b : Bool)
  | num (n : Decimal)
  | str (s : String)
  | arr (items : List Json)
  | obj (members : List (String × Json))

namespace Json

/-- The lower-case hexadecimal digit of a number below 16. -/
def hexChar (n : ℕ) : Char := if n < 10 then Char.ofNat (48 + n) else Char.ofNat (87 + n)

/-- A character inside a string literal. -/
def escapeChar (c : Char) : List Char :=
  if c = '"' then ['\\', '"']
  else if c = '\\' then ['\\', '\\']
  else if c = '\x08' then ['\\', 'b']
  else if c = '\x0c' then ['\\', 'f']
  else if c = '\n' then ['\\', 'n']
  else if c = '\r' then ['\\', 'r']
  else if c = '\t' then ['\\', 't']
  else if c.toNat < 32 then ['\\', 'u', '0', '0', hexChar (c.toNat / 16), hexChar (c.toNat % 16)]
  else [c]

/-- A string literal. -/
def quoteChars (s : String) : List Char :=
  '"' :: (s.toList.flatMap escapeChar ++ ['"'])

mutual

/-- The compact text of a value. -/
def toChars : Json → List Char
  | null => ['n', 'u', 'l', 'l']
  | bool true => ['t', 'r', 'u', 'e']
  | bool false => ['f', 'a', 'l', 's', 'e']
  | num n => n.toChars
  | str s => quoteChars s
  | arr items => '[' :: (itemsChars items ++ [']'])
  | obj members => '{' :: (membersChars members ++ ['}'])

/-- Array items, separated by commas. -/
def itemsChars : List Json → List Char
  | [] => []
  | [x] => toChars x
  | x :: y :: rest => toChars x ++ ',' :: itemsChars (y :: rest)

/-- Object members, separated by commas. -/
def membersChars : List (String × Json) → List Char
  | [] => []
  | [(k, v)] => quoteChars k ++ ':' :: toChars v
  | (k, v) :: y :: rest => quoteChars k ++ ':' :: (toChars v ++ ',' :: membersChars (y :: rest))

end

/-- `JSON.stringify`. -/
def stringify (j : Json) : String := String.ofList (toChars j)

def isWhitespace (c : Char) : Bool := c = ' ' || c = '\t' || c = '\n' || c = '\r'

def skipWs (cs : List Char) : List Char := cs.dropWhile isWhitespace

/-- The value of a hexadecimal digit of either case. -/
def hexValue? (c : Char) : Option ℕ :=
  if 48 ≤ c.toNat ∧ c.toNat < 58 then some (c.toNat - 48)
  else if 97 ≤ c.toNat ∧ c.toNat < 103 then some (c.toNat - 87)
  else if 65 ≤ c.toNat ∧ c.toNat < 71 then some (c.toNat - 55)
  else none

/-- Four hexadecimal digits. -/
def hexQuad? : List Char → Option (ℕ × List Char)
  | a :: b :: c :: d :: rest =>
      match hexValue? a, hexValue? b, hexValue? c, hexValue? d with
      | some a, some b, some c, some d => some (((a * 16 + b) * 16 + c) * 16 + d, rest)
      | _, _, _, _ => none
  | _ => none

/-- The character after an escaped code unit, which is one half of a pair where
    it is a surrogate. -/
def unicodeEscape (cs : List Char) : Option (Char × List Char) :=
  match hexQuad? cs with
  | none => none
  | some (high, rest) =>
      if 0xD800 ≤ high ∧ high < 0xDC00 then
        match rest with
        | '\\' :: 'u' :: rest' =>
            match hexQuad? rest' with
            | none => none
            | some (low, rest'') =>
                if 0xDC00 ≤ low ∧ low < 0xE000 then
                  some (Char.ofNat (0x10000 + (high - 0xD800) * 0x400 + (low - 0xDC00)), rest'')
                else none
        | _ => none
      else if 0xDC00 ≤ high ∧ high < 0xE000 then none
      else some (Char.ofNat high, rest)

/-- What a one-letter escape stands for. -/
def shortEscape? (c : Char) : Option Char :=
  if c = '"' then some '"'
  else if c = '\\' then some '\\'
  else if c = '/' then some '/'
  else if c = 'b' then some '\x08'
  else if c = 'f' then some '\x0c'
  else if c = 'n' then some '\n'
  else if c = 'r' then some '\r'
  else if c = 't' then some '\t'
  else none

/-- One character of a string literal, escaped or not. -/
def unescape : List Char → Option (Char × List Char)
  | [] => none
  | c :: cs =>
      if c = '\\' then
        match cs with
        | [] => none
        | e :: rest =>
            if e = 'u' then unicodeEscape rest
            else (shortEscape? e).map (fun d => (d, rest))
      else if c.toNat < 32 then none
      else some (c, cs)

/-- The rest of a string literal, up to its closing quote. -/
def parseStringChars : ℕ → List Char → Option (List Char × List Char)
  | 0, _ => none
  | _ + 1, [] => none
  | fuel + 1, c :: cs =>
      if c = '"' then some ([], cs)
      else
        match unescape (c :: cs) with
        | none => none
        | some (d, rest) => (parseStringChars fuel rest).map (fun p => (d :: p.1, p.2))

/-- The rest of a string literal. Its text bounds its length. -/
def parseString (cs : List Char) : Option (String × List Char) :=
  (parseStringChars cs.length cs).map (fun p => (String.ofList p.1, p.2))

/-- The rest of a literal name. -/
def parseWord (word : List Char) (j : Json) (cs : List Char) : Option (Json × List Char) :=
  if word <+: cs then some (j, cs.drop word.length) else none

mutual

/-- The value at the front of a text, and what follows it. -/
def parseValue : ℕ → List Char → Option (Json × List Char)
  | 0, _ => none
  | fuel + 1, cs =>
      match skipWs cs with
      | [] => none
      | c :: rest =>
          if c = 'n' then parseWord ['u', 'l', 'l'] null rest
          else if c = 't' then parseWord ['r', 'u', 'e'] (bool true) rest
          else if c = 'f' then parseWord ['a', 'l', 's', 'e'] (bool false) rest
          else if c = '"' then (parseString rest).map (fun p => (str p.1, p.2))
          else if c = '[' then
            if (skipWs rest).head? = some ']' then some (arr [], (skipWs rest).drop 1)
            else (parseItems fuel rest).map (fun p => (arr p.1, p.2))
          else if c = '{' then
            if (skipWs rest).head? = some '}' then some (obj [], (skipWs rest).drop 1)
            else (parseMembers fuel rest).map (fun p => (obj p.1, p.2))
          else (Decimal.parseNumber (c :: rest)).map (fun p => (num p.1, p.2))

/-- Array items up to the closing bracket. -/
def parseItems : ℕ → List Char → Option (List Json × List Char)
  | 0, _ => none
  | fuel + 1, cs =>
      match parseValue fuel cs with
      | none => none
      | some (x, rest) =>
          match skipWs rest with
          | [] => none
          | c :: rest' =>
              if c = ',' then (parseItems fuel rest').map (fun p => (x :: p.1, p.2))
              else if c = ']' then some ([x], rest')
              else none

/-- Object members up to the closing brace. -/
def parseMembers : ℕ → List Char → Option (List (String × Json) × List Char)
  | 0, _ => none
  | fuel + 1, cs =>
      match skipWs cs with
      | [] => none
      | c :: rest =>
          if c = '"' then
            match parseString rest with
            | none => none
            | some (k, rest) =>
                match skipWs rest with
                | [] => none
                | c :: rest =>
                    if c = ':' then
                      match parseValue fuel rest with
                      | none => none
                      | some (v, rest) =>
                          match skipWs rest with
                          | [] => none
                          | c :: rest =>
                              if c = ',' then
                                (parseMembers fuel rest).map (fun p => ((k, v) :: p.1, p.2))
                              else if c = '}' then some ([(k, v)], rest)
                              else none
                    else none
          else none

end

/-- `JSON.parse`, with no value where it throws. -/
def parse (text : String) : Option Json :=
  match parseValue (text.toList.length + 1) text.toList with
  | none => none
  | some (j, rest) => if skipWs rest = [] then some j else none

/-- The value of a member, the last one where a key is repeated. -/
def member (key : String) : Json → Option Json
  | obj members => (members.reverse.find? (fun m => m.1 = key)).map Prod.snd
  | _ => none

mutual

/-- The fuel it takes to read a value. -/
def need : Json → ℕ
  | arr items => 1 + needItems items
  | obj members => 1 + needMembers members
  | _ => 1

def needItems : List Json → ℕ
  | [] => 0
  | x :: rest => 1 + max (need x) (needItems rest)

def needMembers : List (String × Json) → ℕ
  | [] => 0
  | (_, v) :: rest => 1 + max (need v) (needMembers rest)

end

/-! ## Strings -/

theorem hexValue?_hexChar : ∀ n, n < 16 → hexValue? (hexChar n) = some n := by
  decide

/-- One written character is read back. -/
theorem unescape_escapeChar (c : Char) (rest : List Char) :
    ∃ d ds, escapeChar c ++ rest = d :: ds ∧ d ≠ '"' ∧ unescape (d :: ds) = some (c, rest) := by
  unfold escapeChar
  by_cases hquote : c = '"'
  · rw [if_pos hquote, hquote]
    exact ⟨_, _, rfl, by decide, rfl⟩
  rw [if_neg hquote]
  by_cases hback : c = '\\'
  · rw [if_pos hback, hback]
    exact ⟨_, _, rfl, by decide, rfl⟩
  rw [if_neg hback]
  by_cases hb : c = '\x08'
  · rw [if_pos hb, hb]
    exact ⟨_, _, rfl, by decide, rfl⟩
  rw [if_neg hb]
  by_cases hf : c = '\x0c'
  · rw [if_pos hf, hf]
    exact ⟨_, _, rfl, by decide, rfl⟩
  rw [if_neg hf]
  by_cases hn : c = '\n'
  · rw [if_pos hn, hn]
    exact ⟨_, _, rfl, by decide, rfl⟩
  rw [if_neg hn]
  by_cases hr : c = '\r'
  · rw [if_pos hr, hr]
    exact ⟨_, _, rfl, by decide, rfl⟩
  rw [if_neg hr]
  by_cases ht : c = '\t'
  · rw [if_pos ht, ht]
    exact ⟨_, _, rfl, by decide, rfl⟩
  rw [if_neg ht]
  by_cases hctl : c.toNat < 32
  · -- A control character is written as a code unit below 32, not a surrogate.
    rw [if_pos hctl]
    refine ⟨_, _, rfl, by decide, ?_⟩
    have hhi := hexValue?_hexChar (c.toNat / 16) (by omega)
    have hlo := hexValue?_hexChar (c.toNat % 16) (by omega)
    have hzero : hexValue? '0' = some 0 := rfl
    have hquad : hexQuad? ('0' :: '0' :: hexChar (c.toNat / 16) :: hexChar (c.toNat % 16) :: rest)
        = some (c.toNat, rest) := by
      simp only [hexQuad?, hzero, hhi, hlo, Option.some.injEq, Prod.mk.injEq, and_true]
      omega
    have hunit : unicodeEscape
        ('0' :: '0' :: hexChar (c.toNat / 16) :: hexChar (c.toNat % 16) :: rest) =
        some (c, rest) := by
      rw [unicodeEscape, hquad]
      simp only []
      rw [if_neg (by omega), if_neg (by omega), Char.ofNat_toNat]
    exact hunit
  · rw [if_neg hctl]
    refine ⟨c, rest, rfl, hquote, ?_⟩
    exact (if_neg hback).trans (if_neg hctl)

theorem parseStringChars_escape (cs rest : List Char) (fuel : ℕ) (hfuel : cs.length < fuel) :
    parseStringChars fuel (cs.flatMap escapeChar ++ '"' :: rest) = some (cs, rest) := by
  induction cs generalizing fuel with
  | nil =>
      cases fuel with
      | zero => omega
      | succ k => rfl
  | cons c cs ih =>
      cases fuel with
      | zero => omega
      | succ k =>
          rcases unescape_escapeChar c (cs.flatMap escapeChar ++ '"' :: rest) with
            ⟨d, ds, hds, hd, hread⟩
          rw [List.length_cons] at hfuel
          rw [List.flatMap_cons, List.append_assoc, hds, parseStringChars, if_neg hd, hread]
          simp only [ih k (by omega), Option.map_some]

theorem length_le_escape (cs : List Char) : cs.length ≤ (cs.flatMap escapeChar).length := by
  induction cs with
  | nil => exact Nat.le_refl _
  | cons c cs ih =>
      rcases unescape_escapeChar c [] with ⟨d, ds, hds, -, -⟩
      have hlen := congrArg List.length hds
      rw [List.append_nil, List.length_cons] at hlen
      rw [List.flatMap_cons, List.length_append, List.length_cons, hlen]
      omega

/-- A written string is read back. -/
theorem parseString_quote (s : String) (rest : List Char) :
    parseString (s.toList.flatMap escapeChar ++ '"' :: rest) = some (s, rest) := by
  have hlen := length_le_escape s.toList
  rw [parseString, parseStringChars_escape s.toList rest _
    (by rw [List.length_append, List.length_cons]; omega), Option.map_some, String.ofList_toList]

/-! ## Values -/

/-- What may follow a written value: not more of a number. -/
abbrev Ends (rest : List Char) : Prop := Decimal.Ends rest

/-- What a number begins with opens no other value, and closes none. -/
theorem number_plain {c : Char} (hc : c = '-' ∨ ∃ d, c = Decimal.digitChar d) :
    c ≠ 'n' ∧ c ≠ 't' ∧ c ≠ 'f' ∧ c ≠ '"' ∧ c ≠ '[' ∧ c ≠ '{' ∧ isWhitespace c = false ∧
      c ≠ ']' := by
  rcases hc with rfl | ⟨d, rfl⟩
  · decide
  · revert d
    decide

/-- A value begins with a character that is no whitespace and closes no list. -/
theorem toChars_head (j : Json) :
    ∃ c cs, toChars j = c :: cs ∧ isWhitespace c = false ∧ c ≠ ']' := by
  cases j with
  | null => exact ⟨'n', _, by rw [toChars], by decide, by decide⟩
  | bool b =>
      cases b with
      | true => exact ⟨'t', _, by rw [toChars], by decide, by decide⟩
      | false => exact ⟨'f', _, by rw [toChars], by decide, by decide⟩
  | num n =>
      rcases Decimal.toChars_head n with ⟨c, cs, hcs, hc⟩
      exact ⟨c, cs, by rw [toChars, hcs], (number_plain hc).2.2.2.2.2.2⟩
  | str s => exact ⟨'"', _, by rw [toChars, quoteChars], by decide, by decide⟩
  | arr items => exact ⟨'[', _, by rw [toChars], by decide, by decide⟩
  | obj members => exact ⟨'{', _, by rw [toChars], by decide, by decide⟩

theorem skipWs_cons (c : Char) (cs : List Char) (h : isWhitespace c = false) :
    skipWs (c :: cs) = c :: cs :=
  List.dropWhile_cons_of_neg (by rw [h]; exact Bool.false_ne_true)

/-- A written number is read back as a value. -/
theorem parseValue_num (n : Decimal) (rest : List Char) (fuel : ℕ) (hrest : Ends rest) :
    parseValue (fuel + 1) (Decimal.toChars n ++ rest) = some (num n, rest) := by
  have hread := Decimal.parseNumber_toChars n rest hrest
  rcases Decimal.toChars_head n with ⟨c, cs, hcs, hc⟩
  rcases number_plain hc with ⟨hn, ht, hf, hq, ha, ho, hws, -⟩
  rw [hcs, List.cons_append] at hread ⊢
  rw [parseValue, skipWs_cons c _ hws]
  simp only [if_neg hn, if_neg ht, if_neg hf, if_neg hq, if_neg ha, if_neg ho, hread,
    Option.map_some]

theorem itemsChars_head (x : Json) (xs : List Json) (rest : List Char) :
    skipWs (itemsChars (x :: xs) ++ rest) = itemsChars (x :: xs) ++ rest ∧
      (itemsChars (x :: xs) ++ rest).head? ≠ some ']' := by
  rcases toChars_head x with ⟨c, cs, hcs, hws, hclose⟩
  have hfront : ∃ tail, itemsChars (x :: xs) ++ rest = c :: tail := by
    cases xs with
    | nil => exact ⟨_, by rw [itemsChars, hcs, List.cons_append]⟩
    | cons y ys => exact ⟨_, by rw [itemsChars, hcs, List.cons_append, List.cons_append]⟩
  rcases hfront with ⟨tail, htail⟩
  rw [htail, skipWs_cons c tail hws, List.head?_cons]
  exact ⟨rfl, fun h => hclose (Option.some.inj h)⟩

theorem membersChars_head (m : String × Json) (ms : List (String × Json)) (rest : List Char) :
    skipWs (membersChars (m :: ms) ++ rest) = membersChars (m :: ms) ++ rest ∧
      (membersChars (m :: ms) ++ rest).head? ≠ some '}' := by
  have hfront : ∃ tail, membersChars (m :: ms) ++ rest = '"' :: tail := by
    cases ms with
    | nil => exact ⟨_, by rw [membersChars, quoteChars, List.cons_append, List.cons_append]⟩
    | cons y ys => exact ⟨_, by rw [membersChars, quoteChars, List.cons_append, List.cons_append]⟩
  rcases hfront with ⟨tail, htail⟩
  rw [htail, skipWs_cons _ tail (by decide), List.head?_cons]
  exact ⟨rfl, by decide⟩

theorem ends_punctuation (c : Char) (rest : List Char) (h : c = ',' ∨ c = ']' ∨ c = '}') :
    Ends (c :: rest) := by
  intro d hd
  rw [List.head?_cons, Option.mem_some] at hd
  subst hd
  rcases h with rfl | rfl | rfl
  · decide
  · decide
  · decide

/-- One step of reading members: a written key and value, and what decides
    whether more follow. -/
theorem parseMembers_step (fuel : ℕ) (k : String) (v : Json) (c : Char) (rest : List Char)
    (hc : c = ',' ∨ c = ']' ∨ c = '}')
    (hv : parseValue fuel (toChars v ++ c :: rest) = some (v, c :: rest)) :
    parseMembers (fuel + 1) (quoteChars k ++ ':' :: (toChars v ++ c :: rest)) =
      if c = ',' then (parseMembers fuel rest).map (fun p => ((k, v) :: p.1, p.2))
      else if c = '}' then some ([(k, v)], rest)
      else none := by
  have hws : isWhitespace c = false := by
    rcases hc with rfl | rfl | rfl
    · decide
    · decide
    · decide
  have hkey := parseString_quote k (':' :: (toChars v ++ c :: rest))
  rw [quoteChars, List.cons_append, List.append_assoc, List.singleton_append, parseMembers,
    skipWs_cons _ _ (by decide)]
  simp only [if_true, hkey]
  rw [skipWs_cons _ _ (by decide)]
  simp only [if_true, hv]
  rw [skipWs_cons c rest hws]

theorem parseItems_step (fuel : ℕ) (x : Json) (c : Char) (rest : List Char)
    (hc : c = ',' ∨ c = ']' ∨ c = '}')
    (hx : parseValue fuel (toChars x ++ c :: rest) = some (x, c :: rest)) :
    parseItems (fuel + 1) (toChars x ++ c :: rest) =
      if c = ',' then (parseItems fuel rest).map (fun p => (x :: p.1, p.2))
      else if c = ']' then some ([x], rest)
      else none := by
  have hws : isWhitespace c = false := by
    rcases hc with rfl | rfl | rfl
    · decide
    · decide
    · decide
  rw [parseItems]
  simp only [hx]
  rw [skipWs_cons c rest hws]

/-- With the fuel they need, values, items and members are read back. The
    induction is on the fuel, which bounds all three at once. -/
theorem parse_fuel (fuel : ℕ) :
    (∀ j rest, need j ≤ fuel → Ends rest →
      parseValue fuel (toChars j ++ rest) = some (j, rest)) ∧
    (∀ x xs rest, needItems (x :: xs) ≤ fuel →
      parseItems fuel (itemsChars (x :: xs) ++ ']' :: rest) = some (x :: xs, rest)) ∧
    (∀ m ms rest, needMembers (m :: ms) ≤ fuel →
      parseMembers fuel (membersChars (m :: ms) ++ '}' :: rest) = some (m :: ms, rest)) := by
  induction fuel with
  | zero =>
      refine ⟨fun j rest h => ?_, fun x xs rest h => ?_, fun m ms rest h => ?_⟩
      · cases j <;> simp only [need] at h <;> omega
      · simp only [needItems] at h
        omega
      · rcases m with ⟨k, v⟩
        simp only [needMembers] at h
        omega
  | succ fuel ih =>
      rcases ih with ⟨ihValue, ihItems, ihMembers⟩
      refine ⟨fun j rest hneed hrest => ?_, fun x xs rest hneed => ?_, fun m ms rest hneed => ?_⟩
      · cases j with
        | null => rfl
        | bool b => cases b <;> rfl
        | num n => rw [toChars]; exact parseValue_num n rest fuel hrest
        | str s =>
            have hread := parseString_quote s rest
            rw [toChars, quoteChars, List.cons_append, List.append_assoc, List.singleton_append,
              parseValue, skipWs_cons _ _ (by decide)]
            simp only [Char.reduceEq, if_false, if_true, hread, Option.map_some]
        | arr items =>
            rw [toChars, List.cons_append, List.append_assoc, List.singleton_append, parseValue,
              skipWs_cons _ _ (by decide)]
            simp only [Char.reduceEq, if_false, if_true]
            cases items with
            | nil =>
                rw [itemsChars, List.nil_append, skipWs_cons _ _ (by decide), List.head?_cons,
                  if_pos rfl]
                rfl
            | cons x xs =>
                simp only [need] at hneed
                have hhead := itemsChars_head x xs (']' :: rest)
                rw [hhead.1, if_neg hhead.2, ihItems x xs rest (by omega), Option.map_some]
        | obj members =>
            rw [toChars, List.cons_append, List.append_assoc, List.singleton_append, parseValue,
              skipWs_cons _ _ (by decide)]
            simp only [Char.reduceEq, if_false, if_true]
            cases members with
            | nil =>
                rw [membersChars, List.nil_append, skipWs_cons _ _ (by decide), List.head?_cons,
                  if_pos rfl]
                rfl
            | cons m ms =>
                simp only [need] at hneed
                have hhead := membersChars_head m ms ('}' :: rest)
                rw [hhead.1, if_neg hhead.2, ihMembers m ms rest (by omega), Option.map_some]
      · simp only [needItems] at hneed
        cases xs with
        | nil =>
            rw [itemsChars, parseItems_step fuel x ']' rest (by simp)
              (ihValue x _ (by omega) (ends_punctuation _ _ (by simp)))]
            simp only [Char.reduceEq, if_false, if_true]
        | cons y ys =>
            rw [itemsChars, List.append_assoc, List.cons_append, parseItems_step fuel x ',' _
              (by simp) (ihValue x _ (by omega) (ends_punctuation _ _ (by simp)))]
            rw [if_pos rfl, ihItems y ys rest (by omega), Option.map_some]
      · rcases m with ⟨k, v⟩
        simp only [needMembers] at hneed
        cases ms with
        | nil =>
            rw [membersChars, List.append_assoc, List.cons_append, parseMembers_step fuel k v '}'
              rest (by simp) (ihValue v _ (by omega) (ends_punctuation _ _ (by simp)))]
            simp only [Char.reduceEq, if_false, if_true]
        | cons m ms =>
            rw [membersChars, List.append_assoc, List.cons_append, List.append_assoc,
              List.cons_append, parseMembers_step fuel k v ',' _ (by simp)
                (ihValue v _ (by omega) (ends_punctuation _ _ (by simp)))]
            rw [if_pos rfl, ihMembers m ms rest (by omega), Option.map_some]

/-- With the fuel it needs, a written value is read back. -/
theorem parseValue_toChars (j : Json) (rest : List Char) (fuel : ℕ) (hfuel : need j ≤ fuel)
    (hrest : Ends rest) : parseValue fuel (toChars j ++ rest) = some (j, rest) :=
  (parse_fuel fuel).1 j rest hfuel hrest

mutual

/-- No value needs more fuel than its text is long. -/
theorem need_le_length : (j : Json) → need j ≤ (toChars j).length
  | null => by decide
  | bool true => by decide
  | bool false => by decide
  | num n => by
      rcases toChars_head (num n) with ⟨c, cs, hcs, -⟩
      rw [hcs, need, List.length_cons]
      · omega
      · simp
      · simp
  | str s => by
      rw [toChars, quoteChars, need, List.length_cons]
      · omega
      · simp
      · simp
  | arr items => by
      have h := needItems_le_length items
      rw [toChars, need, List.length_cons, List.length_append, List.length_singleton]
      omega
  | obj members => by
      have h := needMembers_le_length members
      rw [toChars, need, List.length_cons, List.length_append, List.length_singleton]
      omega

theorem needItems_le_length : (items : List Json) → needItems items ≤ (itemsChars items).length + 1
  | [] => by
      rw [needItems]
      omega
  | [x] => by
      have h := need_le_length x
      rw [needItems, needItems, itemsChars]
      omega
  | x :: y :: rest => by
      have hx := need_le_length x
      have hrest := needItems_le_length (y :: rest)
      rw [needItems, itemsChars, List.length_append, List.length_cons]
      omega

theorem needMembers_le_length :
    (members : List (String × Json)) → needMembers members ≤ (membersChars members).length + 1
  | [] => by
      rw [needMembers]
      omega
  | [(k, v)] => by
      have h := need_le_length v
      rw [needMembers, needMembers, membersChars, List.length_append, List.length_cons]
      omega
  | (k, v) :: y :: rest => by
      have hv := need_le_length v
      have hrest := needMembers_le_length (y :: rest)
      rw [needMembers, membersChars, List.length_append, List.length_cons, List.length_append,
        List.length_cons]
      omega

end

/-- Reading undoes writing. -/
theorem parse_stringify (j : Json) : parse (stringify j) = some j := by
  have hread := parseValue_toChars j [] ((toChars j).length + 1)
    (Nat.le_succ_of_le (need_le_length j)) Decimal.ends_nil
  rw [List.append_nil] at hread
  rw [parse, stringify, String.toList_ofList, hread]
  exact if_pos rfl

end Json
