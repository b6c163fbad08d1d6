import Mathlib

/-!
# Packing in Order

A list cut into chunks that each keep to a limit, by filling one chunk at a time: an element goes
to the chunk that is being filled if it fits there, and begins a new one if not. What a chunk
weighs is any function of its elements.

Nothing is lost or moved by this, no chunk is empty, and no chunk could have taken the first
element of the next one. If each element fits on its own, each chunk keeps to the limit. Where a
part weighs no more than the whole, no cut that keeps to the limit has fewer chunks.

## Main definitions

* `Chunks.State`: The chunks that are full, and the one that is being filled.
* `Chunks.push`: Where an element goes.
* `Chunks.Packed`: A list is cut into chunks as it should be.

## Theorems

* `Chunks.Packed.concat`, `Chunks.Packed.extend`: The two ways in which an element is added.
* `Chunks.packed_push`: Where an element goes keeps what is packed as it should be.
* `Chunks.Packed.length_le`: What is packed as it should be has the fewest chunks.
-/

namespace Chunks

variable {α : Type*} (weight : List α → ℕ) (limit : ℕ)

/-- The chunks that are full, and the one that is being filled, which is empty only before the
    first element. -/
structure State (α : Type*) where
  full : List (List α)
  last : List α
  started : last = [] → full = []

/-- All chunks that are not empty. -/
def State.chunks (s : State α) : List (List α) :=
  if s.last = [] then [] else s.full ++ [s.last]

def push (s : State α) (x : α) : State α :=
  if s.last ≠ [] ∧ limit < weight (s.last ++ [x]) then
    { full := s.full ++ [s.last], last := [x], started := fun h => absurd h (List.cons_ne_nil _ _) }
  else
    { full := s.full, last := s.last ++ [x], started := fun h => absurd h (List.concat_ne_nil _ _) }

/-- A list is cut into chunks: in order, none empty, each within the limit, and none with room for
    the first element of the next. -/
structure Packed (xs : List α) (chunks : List (List α)) : Prop where
  flat : chunks.flatten = xs
  filled : ∀ c ∈ chunks, c ≠ []
  fits : ∀ c ∈ chunks, weight c ≤ limit
  tight : chunks.IsChain (fun c d => ∀ x ∈ d.head?, limit < weight (c ++ [x]))

variable {weight limit}

theorem packed_nil : Packed weight limit [] [] where
  flat := rfl
  filled := by simp
  fits := by simp
  tight := List.IsChain.nil

/-- An element for which the last chunk has no room begins a chunk of its own. -/
theorem Packed.concat {xs : List α} {chunks : List (List α)} (h : Packed weight limit xs chunks)
    (x : α) (hx : weight [x] ≤ limit)
    (hover : ∀ c ∈ chunks.getLast?, limit < weight (c ++ [x])) :
    Packed weight limit (xs ++ [x]) (chunks ++ [[x]]) where
  flat := by rw [List.flatten_append, h.flat, List.flatten_singleton]
  filled := by
    intro c hc
    rcases List.mem_append.mp hc with hc | hc
    · exact h.filled c hc
    · rw [List.mem_singleton.mp hc]
      exact List.cons_ne_nil _ _
  fits := by
    intro c hc
    rcases List.mem_append.mp hc with hc | hc
    · exact h.fits c hc
    · rw [List.mem_singleton.mp hc]
      exact hx
  tight := by
    apply h.tight.append (List.IsChain.singleton _)
    intro c hc d hd y hy
    rw [List.head?_cons, Option.mem_some_iff] at hd
    rw [← hd, List.head?_cons, Option.mem_some_iff] at hy
    rw [← hy]
    exact hover c hc

/-- The last chunk takes what it has room for. Its first element stays the first. -/
theorem Packed.extend {xs : List α} {full : List (List α)} {c : List α}
    (h : Packed weight limit xs (full ++ [c])) (x : α) (hfits : weight (c ++ [x]) ≤ limit) :
    Packed weight limit (xs ++ [x]) (full ++ [c ++ [x]]) where
  flat := by
    have hflat := h.flat
    rw [List.flatten_append, List.flatten_singleton] at hflat
    rw [List.flatten_append, List.flatten_singleton, ← List.append_assoc, hflat]
  filled := by
    intro d hd
    rcases List.mem_append.mp hd with hd | hd
    · exact h.filled d (List.mem_append_left _ hd)
    · rw [List.mem_singleton.mp hd]
      exact List.concat_ne_nil _ _
  fits := by
    intro d hd
    rcases List.mem_append.mp hd with hd | hd
    · exact h.fits d (List.mem_append_left _ hd)
    · rw [List.mem_singleton.mp hd]
      exact hfits
  tight := by
    have hc := h.filled c (List.mem_append_right _ List.mem_cons_self)
    have htight := List.isChain_append.mp h.tight
    apply htight.1.append (List.IsChain.singleton _)
    intro b hb d hd y hy
    rw [List.head?_cons, Option.mem_some_iff] at hd
    rw [← hd, List.head?_append_of_ne_nil _ hc] at hy
    exact htight.2.2 b hb c (by simp) y hy

/-- Where an element goes keeps what is packed as it should be, if it fits on its own. -/
theorem packed_push (s : State α) (xs : List α) (x : α) (hx : weight [x] ≤ limit)
    (h : Packed weight limit xs s.chunks) :
    Packed weight limit (xs ++ [x]) (push weight limit s x).chunks := by
  by_cases hlast : s.last = []
  · -- The first element is the only one of its chunk.
    have hchunks : s.chunks = [] := if_pos hlast
    have hpush : (push weight limit s x).chunks = [[x]] := by
      rw [push, if_neg (fun hboth => hboth.1 hlast), State.chunks,
        if_neg (List.concat_ne_nil _ _)]
      dsimp only
      rw [hlast, s.started hlast, List.nil_append, List.nil_append]
    rw [hchunks] at h
    rw [hpush]
    exact h.concat x hx (by simp)
  · have hchunks : s.chunks = s.full ++ [s.last] := if_neg hlast
    rw [hchunks] at h
    by_cases hover : limit < weight (s.last ++ [x])
    · rw [push, if_pos ⟨hlast, hover⟩, State.chunks, if_neg (List.cons_ne_nil _ _)]
      apply h.concat x hx
      intro c hc
      rw [List.getLast?_concat, Option.mem_some_iff] at hc
      rw [← hc]
      exact hover
    · rw [push, if_neg (fun hboth => hover hboth.2), State.chunks,
        if_neg (List.concat_ne_nil _ _)]
      exact h.extend x (Nat.le_of_not_lt hover)

/-- A cut that keeps to the limit has no fewer chunks than one that leaves no room, also if it has
    more to place in front. The induction is on the cut that keeps to the limit. -/
theorem length_le_of_suffix (hmono : ∀ c d : List α, c <:+: d → weight c ≤ weight d)
    (others chunks : List (List α)) (hfilled : ∀ c ∈ chunks, c ≠ [])
    (htight : chunks.IsChain (fun c d => ∀ x ∈ d.head?, limit < weight (c ++ [x])))
    (hothers : ∀ c ∈ others, weight c ≤ limit) (hsuffix : chunks.flatten <:+ others.flatten) :
    chunks.length ≤ others.length := by
  induction others generalizing chunks with
  | nil =>
      cases chunks with
      | nil => exact Nat.le_refl 0
      | cons c rest =>
          have hempty := List.flatten_eq_nil_iff.mp (List.suffix_nil.mp hsuffix)
          exact absurd (hempty c List.mem_cons_self) (hfilled c List.mem_cons_self)
  | cons o others ih =>
      cases chunks with
      | nil => exact Nat.zero_le _
      | cons c rest =>
          have hrest := ih rest (fun d hd => hfilled d (List.mem_cons_of_mem c hd)) htight.tail
            (fun d hd => hothers d (List.mem_cons_of_mem o hd))
          rw [List.length_cons, List.length_cons]
          apply Nat.succ_le_succ
          obtain ⟨front, hfront⟩ := hsuffix
          rw [List.flatten_cons, List.flatten_cons, ← List.append_assoc] at hfront
          rcases List.append_eq_append_iff.mp hfront with ⟨a, ho, hflat⟩ | ⟨b, -, hflat⟩
          · cases a with
            | nil => exact hrest ⟨[], hflat⟩
            | cons x a =>
                -- The other chunk would hold this one and the element there was no room for.
                cases rest with
                | nil => simp at hflat
                | cons d rest =>
                    exfalso
                    have hd := hfilled d (List.mem_cons_of_mem c List.mem_cons_self)
                    have hhead : d.head? = some x := by
                      rw [← List.head?_append_of_ne_nil d hd, ← List.flatten_cons, hflat]
                      rfl
                    have hroom := (List.isChain_cons_cons.mp htight).1 x hhead
                    have hpart : c ++ [x] <:+: o := ⟨front, a, by rw [ho]; simp⟩
                    have hweight := hmono _ _ hpart
                    have hfits := hothers o List.mem_cons_self
                    omega
          · exact hrest ⟨b, hflat.symm⟩

/-- What is packed as it should be has the fewest chunks. -/
theorem Packed.length_le {xs : List α} {chunks : List (List α)} (h : Packed weight limit xs chunks)
    (hmono : ∀ c d : List α, c <:+: d → weight c ≤ weight d) (others : List (List α))
    (hflat : others.flatten = xs) (hothers : ∀ c ∈ others, weight c ≤ limit) :
    chunks.length ≤ others.length := by
  apply length_le_of_suffix hmono others chunks h.filled h.tight hothers
  rw [h.flat, hflat]

end Chunks
