import Mathlib

/-!
# Replicated Documents

What the coordinator relies on of the library its documents come from. A
document is what was inserted into it and what was deleted from it, and neither
is ever taken back: applying an update adds what the update carries. An update
is bytes, and so is a state vector, which says how far the insertions of each
author have been received.

A state vector counts insertions only. Two documents with the same insertions
have the same one, whatever was deleted from either
(`encodeStateVector_insertions`). So an update encoded from a state vector on
leaves out only insertions that the vector counts, and carries every deletion
(`carries_encode_from`), while comparing state vectors says nothing of
deletions.

An insertion whose predecessors have not been received is kept but not counted,
which is why `counts_encode` holds in one direction only.

## Main definitions

* `Change`: An insertion, or the deletion of what was inserted.
* `Yjs`: Documents, their updates and their state vectors.
* `singleAuthor`: Documents of one author.

## Theorems

* `content_applyUpdates`: Applying updates adds what they carry.
* `carries_encode_union`: An update from a state vector on completes whoever
  has what the vector counts.
-/

namespace Mdevolved.Coordinator

/-- Something that happened to a document: an item was inserted, or deleted. -/
inductive Change (Item : Type)
  | insertion (item : Item)
  | deletion (item : Item)
  deriving DecidableEq

/-- Documents, as the library that implements them describes them. -/
structure Yjs where
  Doc : Type
  Item : Type
  empty : Doc
  applyUpdate : Doc → List UInt8 → Doc
  /-- Whether bytes are an update at all. -/
  decodes : List UInt8 → Bool
  encodeStateVector : Doc → List UInt8
  /-- All of a document, or what is not counted by a state vector. -/
  encodeStateAsUpdate : Doc → Option (List UInt8) → List UInt8
  /-- What was inserted into a document and deleted from it. -/
  content : Doc → Set (Change Item)
  /-- What an update carries. -/
  carries : List UInt8 → Set (Change Item)
  /-- The insertions that a state vector counts. -/
  counts : List UInt8 → Set Item
  content_empty : content empty = ∅
  content_applyUpdate : ∀ d u, content (applyUpdate d u) = content d ∪ carries u
  carries_malformed : ∀ u, decodes u = false → carries u = ∅
  carries_nil : carries [] = ∅
  carries_encode_all : ∀ d, carries (encodeStateAsUpdate d none) = content d
  carries_encode_le : ∀ d v, carries (encodeStateAsUpdate d (some v)) ⊆ content d
  carries_encode_from : ∀ d v, ∀ c ∈ content d, c ∈ carries (encodeStateAsUpdate d (some v)) ∨
    ∃ i ∈ counts v, c = .insertion i
  counts_encode : ∀ d, ∀ i ∈ counts (encodeStateVector d), .insertion i ∈ content d
  encodeStateVector_insertions : ∀ d d',
    (∀ i, .insertion i ∈ content d ↔ .insertion i ∈ content d') →
      encodeStateVector d = encodeStateVector d'

variable (Y : Yjs)

/-- Applying updates adds what they carry. -/
theorem content_applyUpdates (updates : List (List UInt8)) (d : Y.Doc) :
    Y.content (updates.foldl Y.applyUpdate d) = Y.content d ∪ ⋃ u ∈ updates, Y.carries u := by
  induction updates generalizing d with
  | nil => simp only [List.foldl_nil, List.not_mem_nil, Set.iUnion_of_empty, Set.iUnion_empty,
      Set.union_empty]
  | cons u updates ih =>
      rw [List.foldl_cons, ih, Y.content_applyUpdate, Set.union_assoc]
      simp only [List.mem_cons, Set.iUnion_iUnion_eq_or_left]

/-- Whoever has what a state vector counts has all of a document once they have
    the update from there on. -/
theorem carries_encode_union (d : Y.Doc) (v : List UInt8) (have' : Set (Change Y.Item))
    (h : ∀ i ∈ Y.counts v, .insertion i ∈ have') :
    Y.content d ⊆ have' ∪ Y.carries (Y.encodeStateAsUpdate d (some v)) := by
  intro c hc
  rcases Y.carries_encode_from d v c hc with hcarried | ⟨i, hi, rfl⟩
  · exact Or.inr hcarried
  · exact Or.inl (h i hi)

/-! ## Documents of one author -/

/-- The changes that bytes stand for: a zero comes before what is inserted, and
    a one before what is deleted. -/
def decodeChanges : List UInt8 → Option (List (Change UInt8))
  | [] => some []
  | 0 :: c :: rest => (decodeChanges rest).map (fun changes => .insertion c :: changes)
  | 1 :: c :: rest => (decodeChanges rest).map (fun changes => .deletion c :: changes)
  | _ => none

def encodeChanges : List (Change UInt8) → List UInt8
  | [] => []
  | .insertion c :: rest => 0 :: c :: encodeChanges rest
  | .deletion c :: rest => 1 :: c :: encodeChanges rest

theorem decodeChanges_encodeChanges (changes : List (Change UInt8)) :
    decodeChanges (encodeChanges changes) = some changes := by
  induction changes with
  | nil => rfl
  | cons change rest ih =>
      cases change with
      | insertion c => rw [encodeChanges, decodeChanges, ih, Option.map_some]
      | deletion c => rw [encodeChanges, decodeChanges, ih, Option.map_some]

/-- Whether a change is more than an insertion that a state vector counts. -/
def Change.isNew (v : List UInt8) : Change UInt8 → Bool
  | .insertion i => !v.contains i
  | .deletion _ => true

/-- Documents of one author, whose items are numbered by a byte. A state vector
    lists the items that were inserted. -/
def singleAuthor : Yjs where
  Doc := List (Change UInt8)
  Item := UInt8
  empty := []
  applyUpdate := fun d u => d ++ (decodeChanges u).getD []
  decodes := fun u => (decodeChanges u).isSome
  encodeStateVector := fun d =>
    ((List.range 256).map UInt8.ofNat).filter (fun i => Change.insertion i ∈ d)
  encodeStateAsUpdate := fun d v =>
    match v with
    | none => encodeChanges d
    | some v => encodeChanges (d.filter (Change.isNew v))
  content := fun d => {c | c ∈ d}
  carries := fun u => {c | c ∈ (decodeChanges u).getD []}
  counts := fun v => {i | i ∈ v}
  content_empty := by ext c; simp
  content_applyUpdate := by intro d u; ext c; simp
  carries_malformed := by
    intro u h
    rw [Option.isSome_eq_false_iff, Option.isNone_iff_eq_none] at h
    ext c
    simp [h]
  carries_nil := by ext c; simp [decodeChanges]
  carries_encode_all := by
    intro d
    dsimp only
    rw [decodeChanges_encodeChanges, Option.getD_some]
  carries_encode_le := by
    intro d v c hc
    dsimp only [Set.mem_ofPred_eq] at hc ⊢
    rw [decodeChanges_encodeChanges, Option.getD_some] at hc
    exact (List.mem_filter.mp hc).1
  carries_encode_from := by
    intro d v c hc
    dsimp only [Set.mem_ofPred_eq] at hc ⊢
    rw [decodeChanges_encodeChanges, Option.getD_some]
    cases c with
    | deletion i => exact Or.inl (List.mem_filter.mpr ⟨hc, rfl⟩)
    | insertion i =>
        by_cases hi : i ∈ v
        · exact Or.inr ⟨i, hi, rfl⟩
        · exact Or.inl (List.mem_filter.mpr ⟨hc, by simpa [Change.isNew] using hi⟩)
  counts_encode := by
    intro d i hi
    exact of_decide_eq_true (List.mem_filter.mp hi).2
  encodeStateVector_insertions := by
    intro d d' h
    exact List.filter_congr (fun i _ => decide_eq_decide.mpr (h i))

end Mdevolved.Coordinator
