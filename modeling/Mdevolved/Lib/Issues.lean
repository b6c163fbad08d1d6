import Mathlib

/-!
# Lists of Issues

A check that does not stop at the first thing it finds, but lists all of them, each with the
place it was found at. What is checked is accepted if the list is empty, so that a check is
read backwards: each of its parts has found nothing.

## Main definitions

* `Issue`: What was found, and where.
* `issueIf`: An issue under a condition.
* `each`: The issues of the items of a list.
* `repeats`: The issues of keys that came before.
* `under`: The issues of a part of a value.

## Theorems

* `issueIf_nil`, `each_nil`, `repeats_nil`, `under_nil`: When nothing is found.
-/

namespace Issues

/-- A step on the way to a place inside a value. -/
inductive PathStep
  | key (name : String)
  | index (n : Nat)

structure Issue where
  message : String
  path : List PathStep

def issueIf (p : Prop) [Decidable p] (message : String) (path : List PathStep) : List Issue :=
  if p then [⟨message, path⟩] else []

@[simp] theorem issueIf_nil (p : Prop) [Decidable p] (message : String) (path : List PathStep) :
    issueIf p message path = [] ↔ ¬ p := by
  unfold issueIf
  by_cases h : p <;> simp [h]

variable {α κ : Type*}

/-- The issues of the items of a list, which are told apart by their positions. -/
def each (items : List α) (check : Nat → α → List Issue) : List Issue :=
  items.zipIdx.flatMap (fun item => check item.2 item.1)

theorem each_nil (items : List α) (check : Nat → α → List Issue) :
    each items check = [] ↔ ∀ i item, items[i]? = some item → check i item = [] := by
  unfold each
  rw [List.flatMap_eq_nil_iff]
  constructor
  · intro h i item hitem
    exact h (item, i) (List.mem_zipIdx_iff_getElem?.mpr hitem)
  · intro h item hitem
    exact h item.2 item.1 (List.mem_zipIdx_iff_getElem?.mp hitem)

/-- Nothing is found in an item, wherever it is. -/
theorem each_mem (items : List α) (check : Nat → α → List Issue) (h : each items check = [])
    (item : α) (hitem : item ∈ items) : ∃ i, check i item = [] := by
  obtain ⟨i, hi⟩ := List.mem_iff_getElem?.mp hitem
  exact ⟨i, (each_nil items check).mp h i item hi⟩

/-- The issues of keys that came before. -/
def repeats [DecidableEq κ] (message : String) : List (κ × List PathStep) → List κ → List Issue
  | [], _ => []
  | (k, path) :: rest, seen => issueIf (k ∈ seen) message path ++ repeats message rest (k :: seen)

theorem repeats_nil [DecidableEq κ] (message : String) (keys : List (κ × List PathStep))
    (seen : List κ) :
    repeats message keys seen = [] ↔
      (keys.map Prod.fst).Nodup ∧ ∀ k ∈ keys.map Prod.fst, k ∉ seen := by
  induction keys generalizing seen with
  | nil => simp [repeats]
  | cons key rest ih =>
      obtain ⟨k, path⟩ := key
      rw [repeats, List.append_eq_nil_iff, issueIf_nil, ih, List.map_cons, List.nodup_cons,
        List.forall_mem_cons]
      simp only [List.mem_cons, not_or]
      constructor
      · intro ⟨hnew, hnodup, hrest⟩
        exact ⟨⟨fun hk => (hrest k hk).1 rfl, hnodup⟩, hnew, fun j hj => (hrest j hj).2⟩
      · intro ⟨⟨hk, hnodup⟩, hnew, hrest⟩
        exact ⟨hnew, hnodup, fun j hj => ⟨fun heq => hk (heq ▸ hj), hrest j hj⟩⟩

/-- The issues of a part of a value, as issues of the value. -/
def under (path : List PathStep) (issues : List Issue) : List Issue :=
  issues.map (fun issue => { issue with path := path ++ issue.path })

@[simp] theorem under_nil (path : List PathStep) (issues : List Issue) :
    under path issues = [] ↔ issues = [] :=
  List.map_eq_nil_iff

end Issues
