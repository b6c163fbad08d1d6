import Mathlib

/-!
# Text as Bytes

Encoding a string as UTF-8 and decoding bytes that may be one, the way the
web platform's encoder and strict decoder do. The two are not quite inverse:
a decoder takes a leading byte order mark for a signature and leaves it out, so
text that begins with one comes back without it (`decode_encode`). Text that
does not is returned as it was, and `decode_encode_eq_self_iff` says that those
are all the texts that are.

## Main definitions

* `Utf8.encode`: The bytes of a string.
* `Utf8.stripBom`: A string without a leading byte order mark.
* `Utf8.decode`: The string that bytes encode, if they encode one.
* `Utf8.decodeReplacing`: What a decoder makes of bytes that does not fail.

## Theorems

* `decode_encode`: Decoding undoes encoding, up to a leading mark.
* `decode_encode_eq_self_iff`: Which strings come back as they were.
* `decodeReplacing_encode`: A decoder that does not fail undoes encoding as well.
-/

namespace Utf8

/-- The bytes of a string. -/
def encode (s : String) : List UInt8 := s.toByteArray.data.toList

/-- The byte order mark. -/
def bom : Char := Char.ofNat 0xFEFF

/-- A string without a leading byte order mark. -/
def stripBom (s : String) : String :=
  if s.toList.head? = some bom then String.ofList (s.toList.drop 1) else s

/-- The string that bytes are the encoding of, every character kept. -/
def decodeKeepingBom (bs : List UInt8) : Option String :=
  String.fromUTF8? ⟨bs.toArray⟩

/-- The string that bytes decode to, or nothing where they are no encoding. -/
def decode (bs : List UInt8) : Option String :=
  (decodeKeepingBom bs).map stripBom

theorem length_encode (s : String) : (encode s).length = s.utf8ByteSize := by
  rw [encode, Array.length_toList]
  exact String.size_toByteArray

/-- A character takes four bytes at most. -/
theorem length_encode_ofList_le (cs : List Char) :
    (encode (String.ofList cs)).length ≤ 4 * cs.length := by
  rw [length_encode]
  induction cs with
  | nil => exact Nat.le_refl 0
  | cons c cs ih =>
      have hc := c.utf8Size_le_four
      rw [String.ofList_cons, String.utf8ByteSize_append, String.utf8ByteSize_singleton,
        List.length_cons]
      omega

theorem encode_append (s t : String) : encode (s ++ t) = encode s ++ encode t := by
  rw [encode, String.toByteArray_append, ByteArray.data_append, Array.toList_append]
  rfl

theorem decodeKeepingBom_encode (s : String) : decodeKeepingBom (encode s) = some s := by
  have hbytes : (⟨(encode s).toArray⟩ : ByteArray) = s.toByteArray := by
    rw [encode, Array.toArray_toList]
  have hvalid : ByteArray.IsValidUTF8 ⟨(encode s).toArray⟩ := by
    rw [hbytes]
    exact s.isValidUTF8
  rw [decodeKeepingBom, String.fromUTF8?, dif_pos hvalid, Option.some.injEq]
  exact String.toByteArray_inj.mp hbytes

/-- Decoding undoes encoding, up to a leading byte order mark. -/
theorem decode_encode (s : String) : decode (encode s) = some (stripBom s) := by
  rw [decode, decodeKeepingBom_encode, Option.map_some]

theorem stripBom_eq_self_iff (s : String) : stripBom s = s ↔ s.toList.head? ≠ some bom := by
  by_cases h : s.toList.head? = some bom
  · rw [stripBom, if_pos h]
    refine iff_of_false (fun heq => ?_) (fun hne => hne h)
    have hlen := congrArg (fun t => t.toList.length) heq
    simp only [String.toList_ofList, List.length_drop] at hlen
    have hne : s.toList ≠ [] := fun hnil => by rw [hnil] at h; cases h
    have hpos := List.length_pos_iff.mpr hne
    omega
  · rw [stripBom, if_neg h]
    exact iff_of_true rfl h

/-- Exactly the strings without a leading byte order mark come back as they
    were. -/
theorem decode_encode_eq_self_iff (s : String) :
    decode (encode s) = some s ↔ s.toList.head? ≠ some bom := by
  rw [decode_encode, Option.some.injEq, stripBom_eq_self_iff]

/-! ## What cannot be decoded -/

theorem encode_eq_flatMap (s : String) : encode s = s.toList.flatMap String.utf8EncodeChar := by
  have hs : s.toByteArray = s.toList.utf8Encode := by
    conv_lhs => rw [← String.ofList_toList (s := s)]
    rfl
  rw [encode, hs, List.utf8Encode, List.data_toByteArray]

/-- The character that bytes begin with. -/
def firstChar? (bs : List UInt8) : Option Char :=
  ByteArray.utf8DecodeChar? ⟨bs.toArray⟩ 0

theorem firstChar?_append (c : Char) (bs : List UInt8) :
    firstChar? (String.utf8EncodeChar c ++ bs) = some c := by
  have hbytes : (⟨(String.utf8EncodeChar c ++ bs).toArray⟩ : ByteArray) =
      (String.utf8EncodeChar c).toByteArray ++ bs.toByteArray := by
    apply ByteArray.ext
    simp [ByteArray.data_append, List.data_toByteArray]
  rw [firstChar?, hbytes, ByteArray.utf8DecodeChar?_utf8EncodeChar_append]

/-- A byte may come after the first one of a character. -/
def isContinuation (b : UInt8) : Bool := 0x80 ≤ b && b ≤ 0xBF

/-- A byte may be the second of a character that begins with another. -/
def mayFollow (first second : UInt8) : Bool :=
  (if first = 0xE0 then 0xA0 else if first = 0xF0 then 0x90 else 0x80) ≤ second &&
    second ≤ (if first = 0xED then 0x9F else if first = 0xF4 then 0x8F else 0xBF)

/-- How many bytes begin as a character does that does not go on: they are replaced together. -/
def brokenLength : List UInt8 → ℕ
  | first :: second :: rest =>
      if 0xE0 ≤ first && first ≤ 0xF4 && mayFollow first second then
        if 0xF0 ≤ first && (rest.head?.any isContinuation) then 3 else 2
      else 1
  | _ => 1

/-- The characters of bytes, with the replacement character for what is none. -/
def replaced : ℕ → List UInt8 → List Char
  | 0, _ => []
  | _, [] => []
  | left + 1, first :: rest =>
      match firstChar? (first :: rest) with
      | some c => c :: replaced left ((first :: rest).drop c.utf8Size)
      | none =>
          Char.ofNat 0xFFFD :: replaced left ((first :: rest).drop (brokenLength (first :: rest)))

/-- What a decoder makes of bytes that does not fail. -/
def decodeReplacing (bs : List UInt8) : String := stripBom (String.ofList (replaced bs.length bs))

theorem replaced_flatMap (cs : List Char) (left : ℕ)
    (h : (cs.flatMap String.utf8EncodeChar).length ≤ left) :
    replaced left (cs.flatMap String.utf8EncodeChar) = cs := by
  induction cs generalizing left with
  | nil => cases left <;> rfl
  | cons c cs ih =>
      have hlength : (String.utf8EncodeChar c).length = c.utf8Size := String.length_utf8EncodeChar c
      have hpos := c.utf8Size_pos
      rw [List.flatMap_cons] at h ⊢
      rw [List.length_append] at h
      obtain ⟨first, rest, hcons⟩ := List.exists_cons_of_ne_nil
        (List.ne_nil_of_length_pos (hlength ▸ hpos))
      cases left with
      | zero => omega
      | succ left =>
          have hfirst := firstChar?_append c (cs.flatMap String.utf8EncodeChar)
          rw [hcons, List.cons_append] at hfirst ⊢
          rw [replaced, hfirst]
          dsimp only
          rw [← List.cons_append, ← hcons, ← hlength, List.drop_left, ih left (by omega)]

/-- Text without a mark before it comes back as it was. -/
theorem decodeReplacing_encode (s : String) : decodeReplacing (encode s) = stripBom s := by
  rw [decodeReplacing, encode_eq_flatMap, replaced_flatMap _ _ (Nat.le_refl _), String.ofList_toList]

example : decodeReplacing [0x61, 0xF0, 0x90, 0x62, 0xE2, 0x82] = "a\uFFFDb\uFFFD" := by decide +kernel

end Utf8
