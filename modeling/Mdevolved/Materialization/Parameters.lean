import Mdevolved.Lib.Chunks
import Mdevolved.Lib.JsValue
import Mdevolved.Lib.Utf8

/-!
# Lists as Parameters

A statement that is to find rows by a list of strings takes the list as one parameter, an array
in JSON, and a parameter may be only so long. So a list is cut into several. The loop that does it
does not measure an array again for each string: it keeps a count of bytes, two for the brackets
and one for each comma.

The count is the length of the array that is being filled, so the loop packs the list in order.
Only a string that is too long on its own cannot be packed. No cut of the list into arrays that
keep to the limit has fewer of them.

## Main definitions

* `jsonStringArrayParameters`: The arrays for a list.
* `parseParameter`: The strings of an array.

## Theorems

* `arrayBytes_concat`: What a string adds to the length of an array.
* `parameters_packed`: What arrays come of a list, and when none do.
* `parameters_fewest`: No other cut of the list has fewer arrays.
-/

namespace Mdevolved.Materialization

open JsValue

def d1JsonArrayParameterBytes : ℕ := 1800000

structure ParameterError where
  message : String

def pathTooLarge : ParameterError := { message := "materialized_note_path_too_large" }

/-- `JSON.stringify` -/
def stringify (v : JsValue) : String := String.ofList (text v)

def encodedLength (s : String) : ℕ := (Utf8.encode s).length

def stringifyArray (values : List JsString) : String := stringify (arr (values.map str))

/-- Where the loop stands. -/
structure ParameterLoop where
  parameters : List String
  chunk : List JsString
  chunkBytes : ℕ

def addValue (loop : ParameterLoop) (value : JsString) : Except ParameterError ParameterLoop :=
  let encodedBytes := encodedLength (stringify (str value))
  if d1JsonArrayParameterBytes < encodedBytes + 2 then .error pathTooLarge
  else
    let nextBytes := loop.chunkBytes + encodedBytes + (if loop.chunk.length = 0 then 0 else 1)
    let loop :=
      if 0 < loop.chunk.length ∧ d1JsonArrayParameterBytes < nextBytes then
        { parameters := loop.parameters ++ [stringifyArray loop.chunk], chunk := [],
          chunkBytes := 2 }
      else loop
    let chunk := loop.chunk ++ [value]
    .ok {
      parameters := loop.parameters
      chunk := chunk
      chunkBytes := loop.chunkBytes + encodedBytes + (if chunk.length = 1 then 0 else 1) }

def addValues : ParameterLoop → List JsString → Except ParameterError ParameterLoop
  | loop, [] => .ok loop
  | loop, value :: rest =>
      match addValue loop value with
      | .error error => .error error
      | .ok loop => addValues loop rest

def jsonStringArrayParameters (values : List JsString) : Except ParameterError (List String) :=
  (addValues { parameters := [], chunk := [], chunkBytes := 2 } values).map (fun loop =>
    if 0 < loop.chunk.length then loop.parameters ++ [stringifyArray loop.chunk]
    else loop.parameters)

def asString : JsValue → Option JsString
  | str s => some s
  | _ => none

/-- The strings of an array, if a text is an array of strings. -/
def parseParameter (parameter : String) : Option (List JsString) :=
  match parse parameter.toList with
  | some (arr items) => items.mapM asString
  | _ => none

/-! ## Lengths -/

theorem encodedLength_append (s t : String) :
    encodedLength (s ++ t) = encodedLength s + encodedLength t := by
  rw [encodedLength, Utf8.encode_append, List.length_append]
  rfl

/-- The length of an array is that of its items and commas and two brackets. -/
theorem encodedLength_array (items : List JsValue) :
    encodedLength (stringify (arr items)) =
      2 + encodedLength (String.ofList (itemsText items)) := by
  have hopen : encodedLength (String.ofList ['[']) = 1 := by decide
  have hclose : encodedLength (String.ofList [']']) = 1 := by decide
  rw [stringify, text, ← List.singleton_append, String.ofList_append, String.ofList_append,
    encodedLength_append, encodedLength_append, hopen, hclose]
  omega

theorem itemsText_concat (items : List JsValue) (x : JsValue) :
    itemsText (items ++ [x]) =
      if items = [] then text x else itemsText items ++ ',' :: text x := by
  induction items with
  | nil => rw [if_pos rfl, List.nil_append, itemsText]
  | cons y rest ih =>
      rw [if_neg (List.cons_ne_nil y rest)]
      cases rest with
      | nil => rw [List.cons_append, List.nil_append, itemsText, itemsText, itemsText]
      | cons z rest =>
          rw [if_neg (List.cons_ne_nil z rest), List.cons_append] at ih
          rw [List.cons_append, List.cons_append, itemsText, ih, itemsText, List.append_assoc,
            List.cons_append]

/-- A string adds its own length to an array, and that of a comma if it is not the first. -/
theorem arrayBytes_concat (values : List JsString) (value : JsString) :
    encodedLength (stringifyArray (values ++ [value])) =
      encodedLength (stringifyArray values) + encodedLength (stringify (str value)) +
        (if values.length = 0 then 0 else 1) := by
  have hcomma : ∀ cs, encodedLength (String.ofList (',' :: cs)) =
      1 + encodedLength (String.ofList cs) := by
    intro cs
    have hone : encodedLength (String.singleton ',') = 1 := by decide
    rw [String.ofList_cons, encodedLength_append, hone]
  rw [stringifyArray, stringifyArray, encodedLength_array, encodedLength_array, List.map_append,
    List.map_singleton, itemsText_concat]
  cases values with
  | nil =>
      have hnone : encodedLength (String.ofList (itemsText [])) = 0 := by decide
      rw [List.map_nil, if_pos rfl, hnone, List.length_nil, if_pos rfl]
      rfl
  | cons x rest =>
      rw [List.map_cons, if_neg (List.cons_ne_nil _ _), List.length_cons,
        if_neg (Nat.succ_ne_zero _), String.ofList_append, encodedLength_append, hcomma, stringify]
      omega

theorem arrayBytes_nil : encodedLength (stringifyArray []) = 2 := by decide

theorem arrayBytes_singleton (value : JsString) :
    encodedLength (stringifyArray [value]) = encodedLength (stringify (str value)) + 2 := by
  have hlength := arrayBytes_concat [] value
  rw [arrayBytes_nil, List.nil_append] at hlength
  rw [hlength, List.length_nil, if_pos rfl]
  omega

/-- One string more at the front does not make an array shorter. -/
theorem arrayBytes_cons (value : JsString) (values : List JsString) :
    encodedLength (stringifyArray values) ≤ encodedLength (stringifyArray (value :: values)) := by
  induction values using List.reverseRecOn with
  | nil =>
      rw [arrayBytes_nil, arrayBytes_singleton]
      omega
  | append_singleton values last ih =>
      have hlength := arrayBytes_concat values last
      have hmore := arrayBytes_concat (value :: values) last
      rw [List.length_cons, if_neg (Nat.succ_ne_zero _), List.cons_append] at hmore
      rw [hmore, hlength]
      split <;> omega

/-- A part of an array is no longer than the array. -/
theorem arrayBytes_infix (c d : List JsString) (h : c <:+: d) :
    encodedLength (stringifyArray c) ≤ encodedLength (stringifyArray d) := by
  obtain ⟨front, back, rfl⟩ := h
  have hfront : encodedLength (stringifyArray c) ≤ encodedLength (stringifyArray (front ++ c)) := by
    induction front with
    | nil => exact Nat.le_refl _
    | cons value front ih => exact ih.trans (arrayBytes_cons value (front ++ c))
  induction back using List.reverseRecOn with
  | nil =>
      rw [List.append_nil]
      exact hfront
  | append_singleton back value ih =>
      rw [← List.append_assoc, arrayBytes_concat (front ++ c ++ back) value]
      omega

/-! ## The loop -/

/-- The loop has packed what it has taken: its parameters are the full chunks, and its count is
    the length of the one that is being filled. -/
structure Represents (loop : ParameterLoop) (s : Chunks.State JsString) : Prop where
  parameters : loop.parameters = s.full.map stringifyArray
  chunk : loop.chunk = s.last
  chunkBytes : loop.chunkBytes = encodedLength (stringifyArray loop.chunk)

/-- A string that fits on its own goes where it is to go. -/
theorem addValue_push (loop : ParameterLoop) (s : Chunks.State JsString) (value : JsString)
    (h : Represents loop s)
    (hfits : encodedLength (stringifyArray [value]) ≤ d1JsonArrayParameterBytes) :
    ∃ loop', addValue loop value = .ok loop' ∧
      Represents loop' (Chunks.push (fun c => encodedLength (stringifyArray c))
        d1JsonArrayParameterBytes s value) := by
  have hbytes := h.chunkBytes
  have hchunk := h.chunk
  rw [arrayBytes_singleton] at hfits
  have hnext := arrayBytes_concat loop.chunk value
  unfold addValue
  dsimp only
  rw [if_neg (Nat.not_lt_of_le hfits)]
  by_cases hover : 0 < loop.chunk.length ∧ d1JsonArrayParameterBytes <
      loop.chunkBytes + encodedLength (stringify (str value)) +
        (if loop.chunk.length = 0 then 0 else 1)
  · have hpush : s.last ≠ [] ∧
        d1JsonArrayParameterBytes < encodedLength (stringifyArray (s.last ++ [value])) := by
      rw [← hchunk, hnext, ← hbytes]
      exact ⟨List.ne_nil_of_length_pos hover.1, hover.2⟩
    refine ⟨_, rfl, ?_⟩
    rw [if_pos hover, Chunks.push, if_pos hpush]
    constructor
    · rw [List.map_append, List.map_singleton, ← h.parameters, ← hchunk]
    · rfl
    · change 2 + encodedLength (stringify (str value)) + 0 = _
      rw [List.nil_append, arrayBytes_singleton]
      omega
  · have hpush : ¬ (s.last ≠ [] ∧
        d1JsonArrayParameterBytes < encodedLength (stringifyArray (s.last ++ [value]))) := by
      rw [← hchunk, hnext, ← hbytes]
      intro hboth
      exact hover ⟨List.length_pos_of_ne_nil hboth.1, hboth.2⟩
    refine ⟨_, rfl, ?_⟩
    rw [if_neg hover, Chunks.push, if_neg hpush]
    constructor
    · exact h.parameters
    · rw [hchunk]
    · rw [hnext, ← hbytes]
      dsimp only
      rw [List.length_append, List.length_singleton]
      split <;> split <;> omega

/-- The loop packs the strings if each fits on its own. The induction is on what is left of the
    list, with what was taken packed so far. -/
theorem addValues_packed (rest : List JsString) (loop : ParameterLoop)
    (s : Chunks.State JsString) (taken : List JsString) (h : Represents loop s)
    (hpacked : Chunks.Packed (fun c => encodedLength (stringifyArray c)) d1JsonArrayParameterBytes
      taken s.chunks)
    (hfits : ∀ value ∈ rest,
      encodedLength (stringifyArray [value]) ≤ d1JsonArrayParameterBytes) :
    ∃ loop' s', addValues loop rest = .ok loop' ∧ Represents loop' s' ∧
      Chunks.Packed (fun c => encodedLength (stringifyArray c)) d1JsonArrayParameterBytes
        (taken ++ rest) s'.chunks := by
  induction rest generalizing loop s taken with
  | nil =>
      rw [List.append_nil]
      exact ⟨loop, s, rfl, h, hpacked⟩
  | cons value rest ih =>
      obtain ⟨loop', hadd, h'⟩ := addValue_push loop s value h (hfits value List.mem_cons_self)
      have hpacked' := Chunks.packed_push s taken value (hfits value List.mem_cons_self) hpacked
      have hrest := ih loop' _ (taken ++ [value]) h' hpacked'
        (fun other hother => hfits other (List.mem_cons_of_mem value hother))
      rw [addValues, hadd]
      rw [List.append_assoc, List.singleton_append] at hrest
      exact hrest

/-- The loop fails at the first string that is too long on its own. -/
theorem addValues_error (values : List JsString) (loop : ParameterLoop)
    (h : ∃ value ∈ values,
      d1JsonArrayParameterBytes < encodedLength (stringifyArray [value])) :
    addValues loop values = .error pathTooLarge := by
  induction values generalizing loop with
  | nil => simp at h
  | cons x rest ih =>
      obtain ⟨value, hmem, hlong⟩ := h
      rw [addValues]
      cases hadd : addValue loop x with
      | error error =>
          unfold addValue at hadd
          dsimp only at hadd
          split at hadd
          · rw [Except.error.injEq] at hadd
            rw [hadd]
          · cases hadd
      | ok loop' =>
          rcases List.mem_cons.mp hmem with rfl | hmem
          · rw [arrayBytes_singleton] at hlong
            unfold addValue at hadd
            dsimp only at hadd
            rw [if_pos hlong] at hadd
            cases hadd
          · exact ih loop' ⟨value, hmem, hlong⟩

/-- What each element is read back from, a list is read back from. -/
theorem mapM_eq_some_map {α β : Type} {f : β → Option α} (g : α → β) (xs : List α)
    (h : ∀ x ∈ xs, f (g x) = some x) : (xs.map g).mapM f = some xs := by
  induction xs with
  | nil => rfl
  | cons x rest ih =>
      rw [List.map_cons, List.mapM_cons, h x List.mem_cons_self,
        ih (fun y hy => h y (List.mem_cons_of_mem x hy))]
      rfl

/-- An array is read back. -/
theorem parseParameter_stringifyArray (values : List JsString) :
    parseParameter (stringifyArray values) = some values := by
  have hjson : IsJson (arr (values.map str)) := by
    rw [IsJson, itemsJson_iff]
    intro x hx
    obtain ⟨s, -, rfl⟩ := List.mem_map.mp hx
    simp [IsJson]
  rw [parseParameter, stringifyArray, stringify, String.toList_ofList, parse_text _ hjson]
  exact mapM_eq_some_map str values (fun s _ => rfl)

/-- A list fails exactly if one of its strings is too long for an array of its own. If not, the
    arrays hold the list in order, none is empty or too long, and none has room for the first
    string of the next. -/
theorem parameters_packed (values : List JsString) :
    ((∃ error, jsonStringArrayParameters values = .error error) ↔
      ∃ value ∈ values, d1JsonArrayParameterBytes < encodedLength (stringifyArray [value])) ∧
    ∀ parameters, jsonStringArrayParameters values = .ok parameters →
      (∀ parameter ∈ parameters, encodedLength parameter ≤ d1JsonArrayParameterBytes) ∧
      ∃ chunks, parameters.mapM parseParameter = some chunks ∧
        Chunks.Packed (fun c => encodedLength (stringifyArray c)) d1JsonArrayParameterBytes
          values chunks := by
  by_cases hlong : ∃ value ∈ values,
      d1JsonArrayParameterBytes < encodedLength (stringifyArray [value])
  · have herror := addValues_error values { parameters := [], chunk := [], chunkBytes := 2 } hlong
    rw [jsonStringArrayParameters, herror]
    exact ⟨iff_of_true ⟨_, rfl⟩ hlong, fun parameters hok => by cases hok⟩
  · have hfits : ∀ value ∈ values,
        encodedLength (stringifyArray [value]) ≤ d1JsonArrayParameterBytes := by
      intro value hvalue
      by_contra hover
      exact hlong ⟨value, hvalue, by omega⟩
    obtain ⟨loop, s, hloop, hrepresents, hpacked⟩ := addValues_packed values
      { parameters := [], chunk := [], chunkBytes := 2 }
      { full := [], last := [], started := fun _ => rfl } []
      ⟨rfl, rfl, arrayBytes_nil.symm⟩ Chunks.packed_nil hfits
    have hresult : jsonStringArrayParameters values = .ok (s.chunks.map stringifyArray) := by
      rw [jsonStringArrayParameters, hloop, Except.map, Except.ok.injEq, hrepresents.chunk,
        hrepresents.parameters, Chunks.State.chunks]
      by_cases hlast : s.last = []
      · rw [if_pos hlast, hlast, List.length_nil, if_neg (Nat.lt_irrefl 0), s.started hlast]
      · rw [if_neg hlast, if_pos (List.length_pos_of_ne_nil hlast), List.map_append,
          List.map_singleton]
    rw [hresult]
    refine ⟨iff_of_false (fun hex => by obtain ⟨error, herror⟩ := hex; cases herror) hlong, ?_⟩
    intro parameters hok
    rw [Except.ok.injEq] at hok
    rw [← hok]
    refine ⟨?_, s.chunks, ?_, hpacked⟩
    · intro parameter hparameter
      obtain ⟨c, hc, rfl⟩ := List.mem_map.mp hparameter
      exact hpacked.fits c hc
    · exact mapM_eq_some_map stringifyArray s.chunks
        (fun c _ => parseParameter_stringifyArray c)

/-- The loop ends with as many arrays as it has packed chunks. -/
theorem jsonStringArrayParameters_ok (values : List JsString) (parameters : List String)
    (h : jsonStringArrayParameters values = .ok parameters) :
    ∃ chunks, parameters.length = chunks.length ∧
      Chunks.Packed (fun c => encodedLength (stringifyArray c)) d1JsonArrayParameterBytes
        values chunks := by
  have hfits : ∀ value ∈ values,
      encodedLength (stringifyArray [value]) ≤ d1JsonArrayParameterBytes := by
    intro value hvalue
    by_contra hover
    rw [jsonStringArrayParameters, addValues_error values _ ⟨value, hvalue, by omega⟩] at h
    cases h
  obtain ⟨loop, s, hloop, hrepresents, hpacked⟩ := addValues_packed values
    { parameters := [], chunk := [], chunkBytes := 2 }
    { full := [], last := [], started := fun _ => rfl } []
    ⟨rfl, rfl, arrayBytes_nil.symm⟩ Chunks.packed_nil hfits
  refine ⟨s.chunks, ?_, hpacked⟩
  rw [jsonStringArrayParameters, hloop, Except.map, Except.ok.injEq, hrepresents.chunk,
    hrepresents.parameters] at h
  rw [← h, Chunks.State.chunks]
  by_cases hlast : s.last = []
  · rw [if_pos hlast, hlast, List.length_nil, if_neg (Nat.lt_irrefl 0), s.started hlast]
    rfl
  · rw [if_neg hlast, if_pos (List.length_pos_of_ne_nil hlast), List.length_append,
      List.length_append, List.length_map]
    rfl

/-- No cut of the list into arrays that keep to the limit has fewer arrays than come of the
    loop. -/
theorem parameters_fewest (values : List JsString) (parameters : List String)
    (h : jsonStringArrayParameters values = .ok parameters) (others : List (List JsString))
    (hflat : others.flatten = values)
    (hothers : ∀ c ∈ others, encodedLength (stringifyArray c) ≤ d1JsonArrayParameterBytes) :
    parameters.length ≤ others.length := by
  obtain ⟨chunks, hlength, hpacked⟩ := jsonStringArrayParameters_ok values parameters h
  rw [hlength]
  exact hpacked.length_le arrayBytes_infix others hflat hothers

theorem parameters_fewest_two :
    jsonStringArrayParameters [[97], [98]] = .ok ["[\"a\",\"b\"]"] ∧ 1 ≤ 2 :=
  ⟨rfl, parameters_fewest [[97], [98]] _ rfl [[[97]], [[98]]] rfl (by decide)⟩

end Mdevolved.Materialization
