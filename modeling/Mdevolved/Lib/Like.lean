import Mathlib

/-!
# Patterns of LIKE

A pattern of `LIKE` is a text in which a percent sign stands for any text and a low line
for any character. Both stand for themselves behind an escape character, and so does the
escape character. Letters of ASCII are taken for the same in either case, and no others
are.

A text is turned into a pattern of itself by escaping it. A percent sign after such a
pattern, or in front of it, leaves a test for how a text begins or ends.

## Main definitions

* `Token`, `tokens`: What a pattern is made of.
* `accepts`: Whether a text is like a pattern.
* `like`: The same, of the text of a pattern.
* `escaped`: A text as a pattern of itself.

## Theorems

* `like_escaped_percent`: How a text begins.
* `like_percent_escaped`: How a text ends.
-/

namespace Like

/-- What a pattern is made of. An escape character at its end is like nothing. -/
inductive Token
  | any | one | char (c : Char) | never

/-- A character that is not escaped. -/
def Token.of (c : Char) : Token :=
  if c = '%' then .any else if c = '_' then .one else .char c

def tokens (escape : Char) : List Char → List Token
  | [] => []
  | [c] => if c = escape then [.never] else [Token.of c]
  | c :: d :: rest =>
      if c = escape then .char d :: tokens escape rest
      else Token.of c :: tokens escape (d :: rest)

/-- Whether a text is like a pattern. -/
def accepts : List Token → List Char → Bool
  | [], text => text.isEmpty
  | .any :: ts, text => text.tails.any (accepts ts)
  | .one :: ts, text =>
      match text with
      | [] => false
      | _ :: rest => accepts ts rest
  | .char c :: ts, text =>
      match text with
      | [] => false
      | d :: rest => decide (c.toLower = d.toLower) && accepts ts rest
  | .never :: _, _ => false

def like (escape : Char) (pattern text : List Char) : Bool :=
  accepts (tokens escape pattern) text

/-- Every occurrence of a character is replaced. -/
def replaceAll (c : Char) (by' : List Char) (text : List Char) : List Char :=
  text.flatMap (fun d => if d = c then by' else [d])

/-- A text as a pattern of itself. -/
def escaped (text : List Char) : List Char :=
  replaceAll '_' ['\\', '_'] (replaceAll '%' ['\\', '%'] (replaceAll '\\' ['\\', '\\'] text))

/-- One character of such a pattern. -/
def escapedChar (c : Char) : List Char :=
  if c = '\\' ∨ c = '%' ∨ c = '_' then ['\\', c] else [c]

/-- The replacements do not come into each other's way. -/
theorem escaped_eq (text : List Char) : escaped text = text.flatMap escapedChar := by
  induction text with
  | nil => rfl
  | cons c cs ih =>
      have hcons : escaped (c :: cs) = escaped [c] ++ escaped cs := by
        simp only [escaped, replaceAll, List.flatMap_cons, List.flatMap_nil, List.append_nil,
          List.flatMap_append]
      have hone : escaped [c] = escapedChar c := by
        by_cases hb : c = '\\'
        · subst hb; decide
        by_cases hp : c = '%'
        · subst hp; decide
        by_cases hu : c = '_'
        · subst hu; decide
        · simp only [escaped, replaceAll, escapedChar, List.flatMap_cons, List.flatMap_nil, hb, hp,
            hu, if_false, or_self, List.append_nil]
      rw [hcons, hone, ih, List.flatMap_cons]

theorem tokens_escape (escape d : Char) (rest : List Char) :
    tokens escape (escape :: d :: rest) = .char d :: tokens escape rest := by
  rw [tokens, if_pos rfl]

theorem tokens_cons (escape c : Char) (rest : List Char) (h : c ≠ escape) :
    tokens escape (c :: rest) = Token.of c :: tokens escape rest := by
  cases rest with
  | nil => simp only [tokens, if_neg h]
  | cons d rest => rw [tokens, if_neg h]

/-- An escaped text stands for its characters. -/
theorem tokens_escaped (text rest : List Char) :
    tokens '\\' (escaped text ++ rest) = text.map Token.char ++ tokens '\\' rest := by
  rw [escaped_eq]
  induction text with
  | nil => rfl
  | cons c cs ih =>
      rw [List.flatMap_cons, List.append_assoc, List.map_cons, List.cons_append, ← ih]
      unfold escapedChar
      split
      · exact tokens_escape '\\' c _
      · next hplain =>
        rw [not_or, not_or] at hplain
        rw [List.singleton_append, tokens_cons '\\' c _ hplain.1, Token.of, if_neg hplain.2.1,
          if_neg hplain.2.2]

/-- Characters in a pattern take as many of a text. -/
theorem accepts_chars (cs : List Char) (ts : List Token) (text : List Char) :
    accepts (cs.map Token.char ++ ts) text = true ↔
      ∃ front rest, text = front ++ rest ∧ front.map Char.toLower = cs.map Char.toLower ∧
        accepts ts rest = true := by
  induction cs generalizing text with
  | nil =>
      constructor
      · intro h
        exact ⟨[], text, rfl, rfl, h⟩
      · rintro ⟨front, rest, rfl, hfront, h⟩
        rw [List.map_eq_nil_iff.mp hfront]
        exact h
  | cons c cs ih =>
      cases text with
      | nil =>
          constructor
          · intro h
            cases h
          · rintro ⟨front, rest, htext, hfront, -⟩
            have hnil := (List.append_eq_nil_iff.mp htext.symm).1
            rw [hnil] at hfront
            cases hfront
      | cons d text =>
          rw [List.map_cons, List.cons_append, accepts, Bool.and_eq_true, decide_eq_true_eq, ih]
          constructor
          · rintro ⟨hcd, front, rest, rfl, hfront, h⟩
            refine ⟨d :: front, rest, rfl, ?_, h⟩
            rw [List.map_cons, List.map_cons, hcd, hfront]
          · rintro ⟨front, rest, htext, hfront, h⟩
            cases front with
            | nil => cases hfront
            | cons e front =>
                rw [List.cons_append, List.cons.injEq] at htext
                rw [List.map_cons, List.map_cons, List.cons.injEq] at hfront
                exact ⟨htext.1 ▸ hfront.1.symm, front, rest, htext.2, hfront.2, h⟩

theorem accepts_any (ts : List Token) (text : List Char) :
    accepts (.any :: ts) text = true ↔ ∃ front rest, text = front ++ rest ∧
      accepts ts rest = true := by
  rw [accepts, List.any_eq_true]
  constructor
  · rintro ⟨rest, hrest, h⟩
    rcases (List.mem_tails _ _).mp hrest with ⟨front, hfront⟩
    exact ⟨front, rest, hfront.symm, h⟩
  · rintro ⟨front, rest, rfl, h⟩
    exact ⟨rest, (List.mem_tails _ _).mpr (List.suffix_append _ _), h⟩

/-- How a text begins. -/
theorem like_escaped_percent (start text : List Char) :
    like '\\' (escaped start ++ ['%']) text = true ↔
      start.map Char.toLower <+: text.map Char.toLower := by
  have hany : ∀ rest, accepts (tokens '\\' ['%']) rest = true := by
    intro rest
    exact (accepts_any [] rest).mpr ⟨rest, [], (List.append_nil _).symm, rfl⟩
  rw [like, tokens_escaped, accepts_chars]
  constructor
  · rintro ⟨front, rest, rfl, hfront, -⟩
    rw [List.map_append, hfront]
    exact List.prefix_append _ _
  · rintro ⟨tail, htail⟩
    rcases List.map_eq_append_iff.mp htail.symm with ⟨front, rest, htext, hfront, -⟩
    exact ⟨front, rest, htext, hfront, hany rest⟩

/-- How a text ends. -/
theorem like_percent_escaped (last text : List Char) :
    like '\\' ('%' :: escaped last) text = true ↔
      last.map Char.toLower <:+ text.map Char.toLower := by
  have htokens : tokens '\\' ('%' :: escaped last) = .any :: last.map Token.char := by
    have hlast := tokens_escaped last []
    rw [List.append_nil, tokens, List.append_nil] at hlast
    rw [tokens_cons _ _ _ (by decide), hlast]
    rfl
  have hend : ∀ rest, accepts (last.map Token.char) rest = true ↔
      rest.map Char.toLower = last.map Char.toLower := by
    intro rest
    have hchars := accepts_chars last [] rest
    rw [List.append_nil] at hchars
    rw [hchars]
    constructor
    · rintro ⟨front, tail, rfl, hfront, htail⟩
      rw [List.isEmpty_iff.mp htail, List.append_nil, hfront]
    · intro h
      exact ⟨rest, [], (List.append_nil _).symm, h, rfl⟩
  rw [like, htokens, accepts_any]
  constructor
  · rintro ⟨front, rest, rfl, h⟩
    rw [List.map_append, (hend rest).mp h]
    exact List.suffix_append _ _
  · rintro ⟨head, hhead⟩
    rcases List.map_eq_append_iff.mp hhead.symm with ⟨front, rest, htext, -, hrest⟩
    exact ⟨front, rest, htext, (hend rest).mpr hrest⟩

end Like
