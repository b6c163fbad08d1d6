import Mdevolved.Lib.Json
import Mdevolved.Lib.Utf16

/-!
# Strings of Code Units

A string of the language is a list of UTF-16 code units, and any list is one. Where a high and
a low surrogate meet they stand for one character. A surrogate on its own stands for none, and
no text can hold it. In JSON it is therefore written as an escape, so that what is written is
always a text of characters, and is read back.

## Main definitions

* `JsString`: A string of the language.
* `JsString.quote`: How a string is written in JSON.
* `JsString.parseString`: How it is read.

## Theorems

* `JsString.parseString_quote`: A string that was written is read back.
* `JsString.ofText_injective`: A text is told by its string.
* `JsString.quote_ofText`: A plain text is written as it is.
-/

/-- A UTF-16 code unit. -/
abbrev CodeUnit := Fin 0x10000

abbrev JsString := List CodeUnit

instance neZeroUnits : NeZero 0x10000 := ⟨by decide⟩

instance lawfulJsString : LawfulBEq JsString := inferInstance

namespace JsString

def isHigh (u : CodeUnit) : Bool := 0xD800 ≤ u.val && u.val < 0xDC00

def isLow (u : CodeUnit) : Bool := 0xDC00 ≤ u.val && u.val < 0xE000

/-- The code units of a character. -/
def charUnits (c : Char) : JsString :=
  if c.toNat < 0x10000 then [Fin.ofNat 0x10000 c.toNat]
  else [Fin.ofNat 0x10000 (0xD800 + (c.toNat - 0x10000) / 0x400),
    Fin.ofNat 0x10000 (0xDC00 + (c.toNat - 0x10000) % 0x400)]

def ofText (text : String) : JsString := text.toList.flatMap charUnits

/-- The character that two surrogates stand for. -/
def pairChar (high low : CodeUnit) : Char :=
  Char.ofNat (0x10000 + (high.val - 0xD800) * 0x400 + (low.val - 0xDC00))

/-- Four digits. -/
def hexQuad (n : Nat) : List Char :=
  [Json.hexChar (n / 4096), Json.hexChar (n / 256 % 16), Json.hexChar (n / 16 % 16),
    Json.hexChar (n % 16)]

/-- A code unit that is not part of a pair. -/
def escapeUnit (u : CodeUnit) : List Char :=
  if isHigh u || isLow u then '\\' :: 'u' :: hexQuad u.val else Json.escapeChar (Char.ofNat u.val)

/-- What stands between the quotes. -/
def escape : JsString → List Char
  | [] => []
  | [u] => escapeUnit u
  | u :: v :: rest =>
      if isHigh u && isLow v then pairChar u v :: escape rest else escapeUnit u ++ escape (v :: rest)

/-- `JSON.stringify` of a string -/
def quote (s : JsString) : List Char := '"' :: (escape s ++ ['"'])

/-- The code units at the front of what stands between quotes. An escape stands for one, be it a
    surrogate or not. -/
def unescape (cs : List Char) : Option (JsString × List Char) :=
  match cs with
  | [] => none
  | c :: rest =>
      if c = '\\' then
        match rest with
        | [] => none
        | e :: rest =>
            if e = 'u' then
              (Json.hexQuad? rest).map (fun p => ([Fin.ofNat 0x10000 p.1], p.2))
            else (Json.shortEscape? e).map (fun d => (charUnits d, rest))
      else if c.toNat < 32 then none
      else some (charUnits c, rest)

def parseStringUnits : Nat → List Char → Option (JsString × List Char)
  | 0, _ => none
  | _ + 1, [] => none
  | fuel + 1, c :: cs =>
      if c = '"' then some ([], cs)
      else
        match unescape (c :: cs) with
        | none => none
        | some (front, rest) => (parseStringUnits fuel rest).map (fun p => (front ++ p.1, p.2))

/-- The rest of a string literal, up to its closing quote. -/
def parseString (cs : List Char) : Option (JsString × List Char) :=
  parseStringUnits cs.length cs

/-! ## Reading what was written -/

theorem hexQuad?_hexQuad (n : Nat) (hn : n < 0x10000) (rest : List Char) :
    Json.hexQuad? (hexQuad n ++ rest) = some (n, rest) := by
  have hfirst := Json.hexValue?_hexChar (n / 4096) (by omega)
  have hsecond := Json.hexValue?_hexChar (n / 256 % 16) (by omega)
  have hthird := Json.hexValue?_hexChar (n / 16 % 16) (by omega)
  have hfourth := Json.hexValue?_hexChar (n % 16) (by omega)
  simp only [hexQuad, List.cons_append, List.nil_append, Json.hexQuad?, hfirst, hsecond, hthird,
    hfourth, Option.some.injEq, Prod.mk.injEq, and_true]
  omega

/-- How a character is escaped: by a letter, by its number, or not at all. -/
theorem escapeChar_cases (c : Char) :
    (∃ e, Json.escapeChar c = ['\\', e] ∧ e ≠ 'u' ∧ Json.shortEscape? e = some c) ∨
      (c.toNat < 32 ∧ Json.escapeChar c = '\\' :: 'u' :: hexQuad c.toNat) ∨
      (Json.escapeChar c = [c] ∧ c ≠ '"' ∧ c ≠ '\\' ∧ 32 ≤ c.toNat) := by
  have hletter : ∀ d e : Char, Json.escapeChar d = ['\\', e] → e ≠ 'u' →
      Json.shortEscape? e = some d → c = d →
      ∃ e, Json.escapeChar c = ['\\', e] ∧ e ≠ 'u' ∧ Json.shortEscape? e = some c := by
    rintro d e hescape he hshort rfl
    exact ⟨e, hescape, he, hshort⟩
  by_cases hquote : c = '"'
  · exact Or.inl (hletter '"' '"' (by decide) (by decide) (by decide) hquote)
  by_cases hback : c = '\\'
  · exact Or.inl (hletter '\\' '\\' (by decide) (by decide) (by decide) hback)
  by_cases hb : c = '\x08'
  · exact Or.inl (hletter '\x08' 'b' (by decide) (by decide) (by decide) hb)
  by_cases hf : c = '\x0c'
  · exact Or.inl (hletter '\x0c' 'f' (by decide) (by decide) (by decide) hf)
  by_cases hn : c = '\n'
  · exact Or.inl (hletter '\n' 'n' (by decide) (by decide) (by decide) hn)
  by_cases hr : c = '\r'
  · exact Or.inl (hletter '\r' 'r' (by decide) (by decide) (by decide) hr)
  by_cases ht : c = '\t'
  · exact Or.inl (hletter '\t' 't' (by decide) (by decide) (by decide) ht)
  refine Or.inr ?_
  unfold Json.escapeChar
  rw [if_neg hquote, if_neg hback, if_neg hb, if_neg hf, if_neg hn, if_neg hr, if_neg ht]
  by_cases hcontrol : c.toNat < 32
  · -- The two digits in front are zero.
    have hfirst : c.toNat / 4096 = 0 := by omega
    have hsecond : c.toNat / 256 % 16 = 0 := by omega
    have hthird : c.toNat / 16 % 16 = c.toNat / 16 := by omega
    refine Or.inl ⟨hcontrol, ?_⟩
    rw [if_pos hcontrol, hexQuad, hfirst, hsecond, hthird]
    rfl
  · rw [if_neg hcontrol]
    exact Or.inr ⟨rfl, hquote, hback, by omega⟩

theorem charUnits_small (c : Char) (h : c.toNat < 0x10000) :
    charUnits c = [Fin.ofNat 0x10000 c.toNat] := by
  rw [charUnits, if_pos h]

theorem ofNat_val (u : CodeUnit) : Fin.ofNat 0x10000 u.val = u := by
  apply Fin.ext
  change u.val % 0x10000 = u.val
  omega

/-- A code unit that is no surrogate stands for a character. -/
theorem toNat_ofNat_unit (u : CodeUnit) (h : (isHigh u || isLow u) = false) :
    (Char.ofNat u.val).toNat = u.val := by
  have hvalid : u.val.isValidChar := by
    simp only [isHigh, isLow, Bool.or_eq_false_iff, Bool.and_eq_false_iff,
      decide_eq_false_iff_not] at h
    unfold Nat.isValidChar
    omega
  unfold Char.ofNat
  rw [dif_pos hvalid]
  rfl

/-- So do two surrogates that are a pair. -/
theorem charUnits_pairChar (high low : CodeUnit) (hhigh : isHigh high = true)
    (hlow : isLow low = true) :
    charUnits (pairChar high low) = [high, low] ∧ 0x10000 ≤ (pairChar high low).toNat := by
  simp only [isHigh, isLow, Bool.and_eq_true, decide_eq_true_eq] at hhigh hlow
  have hvalid : (0x10000 + (high.val - 0xD800) * 0x400 + (low.val - 0xDC00)).isValidChar := by
    unfold Nat.isValidChar
    omega
  have hnat : (pairChar high low).toNat =
      0x10000 + (high.val - 0xD800) * 0x400 + (low.val - 0xDC00) := by
    unfold pairChar Char.ofNat
    rw [dif_pos hvalid]
    rfl
  refine ⟨?_, by omega⟩
  have hfirst : 0xD800 + ((pairChar high low).toNat - 0x10000) / 0x400 = high.val := by omega
  have hsecond : 0xDC00 + ((pairChar high low).toNat - 0x10000) % 0x400 = low.val := by omega
  rw [charUnits, if_neg (by omega), hfirst, hsecond, ofNat_val, ofNat_val]

/-- A character that is not escaped. -/
theorem unescape_plain (c : Char) (rest : List Char) (hback : c ≠ '\\') (hplain : 32 ≤ c.toNat) :
    unescape (c :: rest) = some (charUnits c, rest) := by
  simp only [unescape, if_neg hback]
  rw [if_neg (by omega)]

/-- A code unit that is written on its own is read back. -/
theorem unescape_escapeUnit (u : CodeUnit) (rest : List Char) :
    ∃ c cs, escapeUnit u = c :: cs ∧ c ≠ '"' ∧ unescape (c :: (cs ++ rest)) = some ([u], rest) := by
  have hnumber : unescape ('\\' :: 'u' :: (hexQuad u.val ++ rest)) = some ([u], rest) := by
    simp only [unescape, if_true, hexQuad?_hexQuad u.val u.isLt rest, Option.map_some, ofNat_val]
  unfold escapeUnit
  by_cases hsurrogate : (isHigh u || isLow u) = true
  · rw [if_pos hsurrogate]
    exact ⟨'\\', _, rfl, by decide, hnumber⟩
  · rw [if_neg hsurrogate]
    have hnat := toNat_ofNat_unit u (Bool.not_eq_true _ ▸ hsurrogate)
    have hunits : charUnits (Char.ofNat u.val) = [u] := by
      rw [charUnits_small _ (by omega), hnat, ofNat_val]
    rcases escapeChar_cases (Char.ofNat u.val) with ⟨e, he, hu, hshort⟩ | ⟨-, he⟩ | ⟨he, hq, hb, hle⟩
    · refine ⟨'\\', [e], he, by decide, ?_⟩
      simp only [unescape, if_true, List.cons_append, List.nil_append, if_neg hu, hshort,
        Option.map_some, hunits]
    · rw [hnat] at he
      exact ⟨'\\', _, he, by decide, hnumber⟩
    · refine ⟨_, [], he, hq, ?_⟩
      rw [List.nil_append, unescape_plain _ rest hb hle, hunits]

/-- What stands between the quotes is read back. The induction is that of escaping, since a pair
    is read at once. -/
theorem parseStringUnits_escape (s : JsString) (rest : List Char) (fuel : Nat)
    (hfuel : (escape s).length < fuel) :
    parseStringUnits fuel (escape s ++ '"' :: rest) = some (s, rest) := by
  have hunit : ∀ (u : CodeUnit) (s : JsString) (fuel : Nat),
      (escapeUnit u ++ escape s).length < fuel →
      (∀ fuel, (escape s).length < fuel →
        parseStringUnits fuel (escape s ++ '"' :: rest) = some (s, rest)) →
      parseStringUnits fuel (escapeUnit u ++ escape s ++ '"' :: rest) = some (u :: s, rest) := by
    intro u s fuel hfuel hrest
    obtain ⟨c, cs, hescape, hc, hread⟩ := unescape_escapeUnit u (escape s ++ '"' :: rest)
    rw [hescape, List.cons_append, List.length_cons, List.length_append] at hfuel
    rw [hescape, List.append_assoc, List.cons_append]
    cases fuel with
    | zero => omega
    | succ fuel =>
        rw [parseStringUnits, if_neg hc, hread]
        simp only [hrest fuel (by omega), Option.map_some, List.singleton_append]
  have hnone : ∀ fuel, 0 < fuel → parseStringUnits fuel ('"' :: rest) = some ([], rest) := by
    intro fuel hpositive
    cases fuel with
    | zero => omega
    | succ fuel => rw [parseStringUnits, if_pos rfl]
  induction s using escape.induct generalizing fuel with
  | case1 => exact hnone fuel (by omega)
  | case2 u =>
      have hlast := hunit u [] fuel
      rw [escape, List.append_nil] at hlast
      exact hlast hfuel (fun fuel h => hnone fuel (by omega))
  | case3 u v s hpair ih =>
      rw [escape, if_pos hpair] at hfuel ⊢
      rw [Bool.and_eq_true] at hpair
      obtain ⟨hunits, hlarge⟩ := charUnits_pairChar u v hpair.1 hpair.2
      have hplain : ∀ d : Char, d.toNat < 0x10000 → pairChar u v ≠ d := by
        rintro d hd rfl
        omega
      rw [List.length_cons] at hfuel
      cases fuel with
      | zero => omega
      | succ fuel =>
          rw [List.cons_append, parseStringUnits, if_neg (hplain '"' (by decide)),
            unescape_plain _ _ (hplain '\\' (by decide)) (by omega)]
          simp only [ih fuel (by omega), Option.map_some, hunits]
          rfl
  | case4 u v s hsingle ih =>
      rw [escape, if_neg hsingle] at hfuel ⊢
      exact hunit u (v :: s) fuel hfuel ih

/-- A string that was written is read back. -/
theorem parseString_quote (s : JsString) (rest : List Char) :
    parseString (escape s ++ '"' :: rest) = some (s, rest) := by
  apply parseStringUnits_escape
  rw [List.length_append, List.length_cons]
  omega

/-! ## Texts -/

theorem val_ofText (s : String) : (ofText s).map Fin.val = Utf16.units s := by
  rw [ofText, Utf16.units, List.map_flatMap]
  apply List.flatMap_congr
  intro c _
  have hc := Utf16.char_lt c
  unfold charUnits Utf16.charUnits
  split
  · simp only [List.map_cons, List.map_nil, Fin.ofNat, List.cons.injEq, and_true]
    omega
  · simp only [List.map_cons, List.map_nil, Fin.ofNat, List.cons.injEq, and_true]
    omega

/-- A text is told by its string. -/
theorem ofText_injective : Function.Injective ofText := by
  intro s t h
  apply Utf16.units_injective
  rw [← val_ofText, h, val_ofText]

/-- A character takes two code units at most. -/
theorem length_ofText_le (s : String) : (ofText s).length ≤ 2 * s.toList.length := by
  have hunits : ∀ cs : List Char, (cs.flatMap charUnits).length ≤ 2 * cs.length := by
    intro cs
    induction cs with
    | nil => exact Nat.le_refl 0
    | cons c cs ih =>
        have hc : (charUnits c).length ≤ 2 := by
          unfold charUnits
          split <;> simp
        rw [List.flatMap_cons, List.length_append, List.length_cons]
        omega
  exact hunits s.toList

/-- What is no high surrogate is written on its own. -/
theorem escape_cons (u : CodeUnit) (s : JsString) (hu : isHigh u = false) :
    escape (u :: s) = escapeUnit u ++ escape s := by
  cases s with
  | nil => rw [escape, escape, List.append_nil]
  | cons v s => rw [escape, hu, Bool.false_and, if_neg Bool.false_ne_true]

/-- A plain text is written as it is. -/
theorem quote_ofText (s : String)
    (h : ∀ c ∈ s.toList, 32 ≤ c.toNat ∧ c.toNat < 0xD800 ∧ c ≠ '"' ∧ c ≠ '\\') :
    (ofText s).quote = '"' :: (s.toList ++ ['"']) := by
  have hescape : ∀ cs : List Char,
      (∀ c ∈ cs, 32 ≤ c.toNat ∧ c.toNat < 0xD800 ∧ c ≠ '"' ∧ c ≠ '\\') →
      escape (cs.flatMap charUnits) = cs := by
    intro cs hcs
    induction cs with
    | nil => rw [List.flatMap_nil, escape]
    | cons c cs ih =>
        obtain ⟨hlow, hhigh, hquote, hback⟩ := hcs c List.mem_cons_self
        have hval : (Fin.ofNat 0x10000 c.toNat).val = c.toNat := Nat.mod_eq_of_lt (by omega)
        have hplain : isHigh (Fin.ofNat 0x10000 c.toNat) = false ∧
            isLow (Fin.ofNat 0x10000 c.toNat) = false := by
          simp only [isHigh, isLow, hval, Bool.and_eq_false_iff, decide_eq_false_iff_not]
          omega
        have hcontrol : ∀ d : Char, d.toNat < 32 → c ≠ d := by
          rintro d hd rfl
          omega
        have hunit : escapeUnit (Fin.ofNat 0x10000 c.toNat) = [c] := by
          rw [escapeUnit, hplain.1, hplain.2, hval, Char.ofNat_toNat]
          unfold Json.escapeChar
          rw [Bool.or_self, if_neg Bool.false_ne_true, if_neg hquote, if_neg hback,
            if_neg (hcontrol _ (by decide)), if_neg (hcontrol _ (by decide)),
            if_neg (hcontrol _ (by decide)), if_neg (hcontrol _ (by decide)),
            if_neg (hcontrol _ (by decide)), if_neg (by omega)]
        rw [List.flatMap_cons, charUnits_small c (by omega), List.singleton_append,
          escape_cons _ _ hplain.1, hunit, ih (fun d hd => hcs d (List.mem_cons_of_mem c hd))]
        rfl
  rw [quote, ofText, hescape s.toList h]

end JsString
