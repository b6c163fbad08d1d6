import Mdevolved.Lib.JsString

/-!
# Bytes in Addresses

Bytes written in letters that may stand in an address. Three bytes make four letters, and what
is left over makes two or three. The platform pads these to four with a sign of its own, and an
address leaves the padding out.

Reading is more forgiving than writing: whitespace between letters is passed over, and so are
the bits of a last letter that no byte needs. So many texts are read as the same bytes, of which
one is written.

## Main definitions

* `Base64.sextets`, `Base64.octets`: Bytes in groups of six bits, and back.
* `Base64.btoa`, `Base64.atob`: What the platform writes and reads.
* `Base64.encodeBase64Url`, `Base64.decodeBase64Url`: The same for addresses.

## Theorems

* `Base64.octets_sextets`: Bytes come back from their groups.
* `Base64.decode_encode`: Bytes that were written are read back.
* `Base64.encode_letter`: What letters are written.
-/

namespace Base64

/-- Groups of six bits, the first byte first. Bits that are missing are zero. -/
def sextets : List UInt8 → List (Fin 64)
  | [] => []
  | [a] => [Fin.ofNat 64 (a.toNat / 4), Fin.ofNat 64 (a.toNat % 4 * 16)]
  | [a, b] =>
      [Fin.ofNat 64 (a.toNat / 4), Fin.ofNat 64 (a.toNat % 4 * 16 + b.toNat / 16),
        Fin.ofNat 64 (b.toNat % 16 * 4)]
  | a :: b :: c :: rest =>
      Fin.ofNat 64 (a.toNat / 4) :: Fin.ofNat 64 (a.toNat % 4 * 16 + b.toNat / 16) ::
        Fin.ofNat 64 (b.toNat % 16 * 4 + c.toNat / 64) :: Fin.ofNat 64 (c.toNat % 64) ::
        sextets rest

/-- The bytes in groups of six bits. Bits that fill no byte are left out. -/
def octets : List (Fin 64) → List UInt8
  | p :: q :: r :: s :: rest =>
      UInt8.ofNat (p.val * 4 + q.val / 16) :: UInt8.ofNat (q.val % 16 * 16 + r.val / 4) ::
        UInt8.ofNat (r.val % 4 * 64 + s.val) :: octets rest
  | [p, q, r] => [UInt8.ofNat (p.val * 4 + q.val / 16), UInt8.ofNat (q.val % 16 * 16 + r.val / 4)]
  | [p, q] => [UInt8.ofNat (p.val * 4 + q.val / 16)]
  | _ => []

/-- The code unit of an ASCII character. -/
def unit (c : Char) : CodeUnit := Fin.ofNat 0x10000 c.toNat

/-- The letter for six bits. -/
def letter (n : Fin 64) : CodeUnit :=
  if n.val < 26 then Fin.ofNat 0x10000 (65 + n.val)
  else if n.val < 52 then Fin.ofNat 0x10000 (97 + (n.val - 26))
  else if n.val < 62 then Fin.ofNat 0x10000 (48 + (n.val - 52))
  else if n.val = 62 then unit '+'
  else unit '/'

def value? (u : CodeUnit) : Option (Fin 64) :=
  if 65 ≤ u.val ∧ u.val < 91 then some (Fin.ofNat 64 (u.val - 65))
  else if 97 ≤ u.val ∧ u.val < 123 then some (Fin.ofNat 64 (u.val - 97 + 26))
  else if 48 ≤ u.val ∧ u.val < 58 then some (Fin.ofNat 64 (u.val - 48 + 52))
  else if u = unit '+' then some 62
  else if u = unit '/' then some 63
  else none

def isAsciiWhitespace (u : CodeUnit) : Bool :=
  u.val = 0x09 || u.val = 0x0A || u.val = 0x0C || u.val = 0x0D || u.val = 0x20

/-- `btoa`, of a text whose code units are bytes -/
def btoa (bytes : List UInt8) : JsString :=
  (sextets bytes).map letter ++ List.replicate ((3 - bytes.length % 3) % 3) (unit '=')

/-- A text without one or two signs of padding at its end. -/
def withoutPadding (data : JsString) : JsString :=
  if data.getLast? = some (unit '=') then
    if data.dropLast.getLast? = some (unit '=') then data.dropLast.dropLast else data.dropLast
  else data

/-- `atob`, with nothing where it throws -/
def atob (data : JsString) : Option (List UInt8) :=
  let data := data.filter (fun u => !isAsciiWhitespace u)
  let data := if data.length % 4 = 0 then withoutPadding data else data
  if data.length % 4 = 1 then none else (data.mapM value?).map octets

def toAddress (u : CodeUnit) : CodeUnit :=
  if u = unit '+' then unit '-' else if u = unit '/' then unit '_' else u

def ofAddress (u : CodeUnit) : CodeUnit :=
  if u = unit '-' then unit '+' else if u = unit '_' then unit '/' else u

def encodeBase64Url (bytes : List UInt8) : JsString :=
  ((btoa bytes).map toAddress).rdropWhile (fun u => u = unit '=')

def decodeBase64Url (value : JsString) : Option (List UInt8) :=
  atob (value.map ofAddress ++ List.replicate ((4 - value.length % 4) % 4) (unit '='))

/-! ## Groups of six bits -/

theorem octets_sextets (bytes : List UInt8) : octets (sextets bytes) = bytes := by
  have hbyte : ∀ (n : ℕ) (a : UInt8), n = a.toNat → UInt8.ofNat n = a := by
    intro n a h
    rw [h]
    exact UInt8.ofNat_toNat
  fun_induction sextets bytes with
  | case1 => rfl
  | case2 a =>
      have ha := a.toNat_lt
      simp only [octets, Fin.ofNat, List.cons.injEq, and_true]
      apply hbyte
      omega
  | case3 a b =>
      have ha := a.toNat_lt
      have hb := b.toNat_lt
      simp only [octets, Fin.ofNat, List.cons.injEq, and_true]
      constructor
      · apply hbyte
        omega
      · apply hbyte
        omega
  | case4 a b c rest ih =>
      have ha := a.toNat_lt
      have hb := b.toNat_lt
      have hc := c.toNat_lt
      simp only [octets, Fin.ofNat, List.cons.injEq]
      refine ⟨?_, ?_, ?_, ih⟩
      · apply hbyte
        omega
      · apply hbyte
        omega
      · apply hbyte
        omega

/-- How many groups there are: four for three bytes, and one more than the bytes left over. -/
theorem length_sextets (bytes : List UInt8) :
    (sextets bytes).length = bytes.length / 3 * 4 +
      (if bytes.length % 3 = 0 then 0 else bytes.length % 3 + 1) := by
  fun_induction sextets bytes with
  | case1 => rfl
  | case2 a => simp
  | case3 a b => simp
  | case4 a b c rest ih =>
      have hdiv : (rest.length + 1 + 1 + 1) / 3 = rest.length / 3 + 1 := by omega
      have hmod : (rest.length + 1 + 1 + 1) % 3 = rest.length % 3 := by omega
      simp only [List.length_cons, ih, hdiv, hmod]
      omega

/-! ## Letters -/

theorem value?_letter : ∀ n, value? (letter n) = some n := by decide +kernel

theorem ofAddress_toAddress : ∀ n, ofAddress (toAddress (letter n)) = letter n := by
  decide +kernel

theorem letter_plain : ∀ n, isAsciiWhitespace (letter n) = false ∧ letter n ≠ unit '=' ∧
    toAddress (letter n) ≠ unit '=' := by
  decide +kernel

/-- Padding at the end is what is taken off, where no letter is padding. -/
theorem rdropWhile_padding (data : JsString) (n : ℕ) (h : unit '=' ∉ data) :
    (data ++ List.replicate n (unit '=')).rdropWhile (fun u => u = unit '=') = data := by
  induction n with
  | zero =>
      rw [List.replicate_zero, List.append_nil, List.rdropWhile_eq_self_iff]
      intro hne hlast
      rw [decide_eq_true_eq] at hlast
      exact h (hlast ▸ List.getLast_mem hne)
  | succ n ih =>
      rw [List.replicate_succ', ← List.append_assoc, List.rdropWhile_concat_pos _ _ _ (by simp)]
      exact ih

theorem withoutPadding_append (data : JsString) (n : ℕ) (h : unit '=' ∉ data) (hn : n ≤ 2) :
    withoutPadding (data ++ List.replicate n (unit '=')) = data := by
  have hlast : data.getLast? ≠ some (unit '=') := fun heq => h (List.mem_of_getLast? heq)
  have hcases : n = 0 ∨ n = 1 ∨ n = 2 := by omega
  rcases hcases with rfl | rfl | rfl
  · rw [List.replicate_zero, List.append_nil, withoutPadding, if_neg hlast]
  · rw [List.replicate_one, withoutPadding, List.getLast?_concat, if_pos rfl,
      List.dropLast_concat, if_neg hlast]
  · have htwo : data ++ List.replicate 2 (unit '=') = (data ++ [unit '=']) ++ [unit '='] := by
      rw [List.append_assoc]
      rfl
    rw [htwo, withoutPadding, List.getLast?_concat, if_pos rfl, List.dropLast_concat,
      List.getLast?_concat, if_pos rfl, List.dropLast_concat]

section

variable (bytes : List UInt8)

/-- What is written for an address: the letters, without padding. -/
theorem encode_eq :
    encodeBase64Url bytes = (sextets bytes).map (fun n => toAddress (letter n)) := by
  have hplain : unit '=' ∉ (sextets bytes).map (fun n => toAddress (letter n)) := by
    intro hmem
    obtain ⟨n, -, hn⟩ := List.mem_map.mp hmem
    exact (letter_plain n).2.2 hn
  have hpad : toAddress (unit '=') = unit '=' := by decide
  rw [encodeBase64Url, btoa, List.map_append, List.map_replicate, hpad, List.map_map]
  exact rdropWhile_padding _ _ hplain

theorem length_encode :
    (encodeBase64Url bytes).length = (sextets bytes).length := by
  rw [encode_eq, List.length_map]

/-- Only letters are written. -/
theorem encode_letter (u : CodeUnit) (h : u ∈ encodeBase64Url bytes) :
    ∃ n, u = toAddress (letter n) := by
  rw [encode_eq, List.mem_map] at h
  obtain ⟨n, -, rfl⟩ := h
  exact ⟨n, rfl⟩

theorem mapM_letters (ns : List (Fin 64)) : (ns.map letter).mapM value? = some ns := by
  induction ns with
  | nil => rfl
  | cons n ns ih =>
      rw [List.map_cons, List.mapM_cons, value?_letter, ih]
      rfl

/-- Bytes that were written are read back. -/
theorem decode_encode :
    decodeBase64Url (encodeBase64Url bytes) = some bytes := by
  have hback : (encodeBase64Url bytes).map ofAddress = (sextets bytes).map letter := by
    rw [encode_eq, List.map_map]
    exact List.map_congr_left (fun n _ => ofAddress_toAddress n)
  have hplain : unit '=' ∉ (sextets bytes).map letter := by
    intro hmem
    obtain ⟨n, -, hn⟩ := List.mem_map.mp hmem
    exact (letter_plain n).2.1 hn
  have hkept : ∀ k, ((sextets bytes).map letter ++ List.replicate k (unit '=')).filter
      (fun u => !isAsciiWhitespace u) =
        (sextets bytes).map letter ++ List.replicate k (unit '=') := by
    intro k
    rw [List.filter_eq_self]
    intro u hu
    rcases List.mem_append.mp hu with hu | hu
    · obtain ⟨n, -, rfl⟩ := List.mem_map.mp hu
      rw [(letter_plain n).1]
      rfl
    · rw [List.eq_of_mem_replicate hu]
      decide
  -- The letters are never one more than a multiple of four.
  have hcount : (sextets bytes).length % 4 ≠ 1 := by
    rw [length_sextets]
    split <;> omega
  have hpadding : (4 - (sextets bytes).length % 4) % 4 ≤ 2 := by omega
  have htotal : ((sextets bytes).length + (4 - (sextets bytes).length % 4) % 4) % 4 = 0 := by
    omega
  rw [decodeBase64Url, hback, length_encode, atob]
  simp only [hkept, List.length_append, List.length_map, List.length_replicate, htotal, if_true,
    withoutPadding_append _ _ hplain hpadding]
  rw [if_neg hcount, mapM_letters, Option.map_some, octets_sextets]

end

end Base64
