import Mathlib

/-!
# Keyset Pages

Reading a growing table in pages. A page is the first so many rows whose key
lies beyond the key the last page ended at, in the order of their keys, and
the reader carries nothing from one page to the next but that key.

Such a reader relies on one thing it cannot see: once it has passed a key, no
row may appear at or below it. `Caught` is the state that reliance protects,
every row up to the reader's key has been handed to it. A page keeps it
(`caught_page`), removing rows keeps it (`caught_of_subset`), and
`caught_append_iff` says exactly when adding rows does: the new rows the
reader has not been handed have to lie beyond its key. That is an equivalence,
so a row that arrives at or below the key is lost, not merely at risk.

Keys are distinct where the order matters. Two rows with one key could be
split by a page, and the second would never be read.

## Main definitions

* `beyond`: The rows past a key, in the order of their keys.
* `page`: The first rows past a key.
* `resume`: The key the next page starts from.
* `Caught`: Every row up to the key has been handed to the reader.
* `IsPage`: What a page is, said without sorting.

## Theorems

* `page_map`: A page of rows read as something else.
* `caught_append_iff`: When adding rows keeps the reader caught up.
* `pairwise_append_page`: What a reader is handed is strictly increasing.
* `isPage_page`: Pages are what they are to be, and one row more tells whether there is more.
* `mem_take_of_merged`: A page merged from several lists leaves none of them behind.
-/

namespace Keyset

variable {ρ κ : Type*} [LinearOrder κ]

/-- The rows past a key, in the order of their keys. -/
def beyond (key : ρ → κ) (after : κ) (rows : List ρ) : List ρ :=
  (rows.filter (fun r => after < key r)).insertionSort (fun r t => key r ≤ key t)

/-- The first `limit` rows past a key. -/
def page (key : ρ → κ) (after : κ) (limit : ℕ) (rows : List ρ) : List ρ :=
  (beyond key after rows).take limit

/-- The key the next page starts from: that of the last row handed out, or
    the one this page started from where it was empty. -/
def resume (key : ρ → κ) (after : κ) (handed : List ρ) : κ :=
  (handed.getLast?.map key).getD after

/-- Every row up to `after` has been handed to the reader. -/
def Caught (key : ρ → κ) (after : κ) (seen rows : List ρ) : Prop :=
  ∀ r ∈ rows, key r ≤ after → r ∈ seen

/-- The first `limit` rows past a key, in the order of their keys, and whether there are more. -/
structure IsPage (key : ρ → κ) (after : κ) (limit : ℕ) (rows handed : List ρ) (more : Bool) :
    Prop where
  increasing : handed.Pairwise (fun r t => key r < key t)
  past : ∀ r ∈ handed, r ∈ rows ∧ after < key r
  bounded : handed.length ≤ limit
  first : ∀ r ∈ rows, after < key r → r ∉ handed →
    handed.length = limit ∧ ∀ t ∈ handed, key t < key r
  more_iff : more = true ↔ ∃ r ∈ rows, after < key r ∧ r ∉ handed

instance (key : ρ → κ) (after : κ) [DecidableEq ρ] (seen rows : List ρ) :
    Decidable (Caught key after seen rows) :=
  inferInstanceAs (Decidable (∀ r ∈ rows, key r ≤ after → r ∈ seen))

variable (key : ρ → κ) (after : κ)

section

variable (limit : ℕ) (rows : List ρ)

@[simp] theorem mem_beyond (r : ρ) :
    r ∈ beyond key after rows ↔ r ∈ rows ∧ after < key r := by
  simp only [beyond, List.mem_insertionSort, List.mem_filter, decide_eq_true_eq]

theorem mem_of_mem_page (r : ρ)
    (h : r ∈ page key after limit rows) : r ∈ rows ∧ after < key r :=
  (mem_beyond key after rows r).mp (List.mem_of_mem_take h)

/-- A shorter page is the start of a longer one. -/
theorem take_page (limit longer : ℕ) (rows : List ρ) (h : limit ≤ longer) :
    (page key after longer rows).take limit = page key after limit rows := by
  rw [page, page, List.take_take, Nat.min_eq_left h]

/-- Pages may be taken before or after the rows are read as something else, as
    long as the key can still be read off. -/
theorem page_map {τ : Type*} (f : τ → ρ) (limit : ℕ) (rows : List τ) :
    page key after limit (rows.map f) = (page (fun t => key (f t)) after limit rows).map f := by
  rw [page, page, List.map_take, beyond, beyond, List.filter_map]
  rw [List.map_insertionSort (fun t u => key (f t) ≤ key (f u)) (fun r t => key r ≤ key t) f _
    (fun _ _ _ _ => Iff.rfl)]
  rfl

/-- The rows past a key are strictly increasing, since they are ordered and no
    two of them share a key. -/
theorem pairwise_beyond (hd : rows.Pairwise (fun r t => key r ≠ key t)) :
    (beyond key after rows).Pairwise (fun r t => key r < key t) := by
  have hsorted : (beyond key after rows).Pairwise (fun r t => key r ≤ key t) := by
    have : IsTrans ρ (fun r t => key r ≤ key t) := ⟨fun _ _ _ h h' => le_trans h h'⟩
    have : Std.Total (fun r t : ρ => key r ≤ key t) := ⟨fun _ _ => le_total _ _⟩
    exact List.pairwise_insertionSort _ _
  have hdistinct : (beyond key after rows).Pairwise (fun r t => key r ≠ key t) :=
    (List.perm_insertionSort _ _).pairwise_iff (fun h => Ne.symm h) |>.mpr (hd.filter _)
  exact (hsorted.and hdistinct).imp (fun h => lt_of_le_of_ne h.1 h.2)

theorem pairwise_page (hd : rows.Pairwise (fun r t => key r ≠ key t)) :
    (page key after limit rows).Pairwise (fun r t => key r < key t) :=
  (pairwise_beyond key after rows hd).sublist (List.take_sublist _ _)

/-- Where a list is increasing, `resume` is past all of it. -/
theorem le_resume (handed : List ρ) (hs : handed.Pairwise (fun r t => key r < key t))
    (r : ρ) (hr : r ∈ handed) : key r ≤ resume key after handed := by
  rcases List.eq_nil_or_concat handed with rfl | ⟨init, last, rfl⟩
  · cases hr
  · rw [List.concat_eq_append] at hs hr
    simp only [resume, List.concat_eq_append, List.getLast?_append, List.getLast?_singleton,
      Option.some_or, Option.map_some, Option.getD_some]
    rcases List.mem_append.mp hr with hinit | hlast
    · exact le_of_lt ((List.pairwise_append.mp hs).2.2 r hinit last (List.mem_singleton_self _))
    · rw [List.mem_singleton.mp hlast]

theorem after_le_resume :
    after ≤ resume key after (page key after limit rows) := by
  rcases List.eq_nil_or_concat (page key after limit rows) with hnil | ⟨init, last, hcat⟩
  · simp only [hnil, resume, List.getLast?_nil, Option.map_none, Option.getD_none, le_refl]
  · have hlast : last ∈ page key after limit rows := by
      rw [hcat, List.concat_eq_append]
      exact List.mem_append_right _ (List.mem_singleton_self _)
    simp only [hcat, resume, List.concat_eq_append, List.getLast?_append,
      List.getLast?_singleton, Option.some_or, Option.map_some, Option.getD_some]
    exact le_of_lt (mem_of_mem_page key after limit rows last hlast).2

/-- A row between the keys a page starts from and ends at is on the page: the
    rows left for later all come after the ones handed out. -/
theorem mem_page_of_le_resume (hd : rows.Pairwise (fun r t => key r ≠ key t)) (r : ρ) (hr : r ∈ rows)
    (hafter : after < key r) (hle : key r ≤ resume key after (page key after limit rows)) :
    r ∈ page key after limit rows := by
  have hmem : r ∈ page key after limit rows ++ (beyond key after rows).drop limit := by
    rw [page, List.take_append_drop]
    exact (mem_beyond key after rows r).mpr ⟨hr, hafter⟩
  rcases List.mem_append.mp hmem with hpage | hlater
  · exact hpage
  · -- A row left for later lies past every key of the page, `resume` included.
    exfalso
    have hs := pairwise_beyond key after rows hd
    rw [← List.take_append_drop limit (beyond key after rows), List.pairwise_append] at hs
    rcases List.eq_nil_or_concat (page key after limit rows) with hnil | ⟨init, last, hcat⟩
    · simp only [hnil, resume, List.getLast?_nil, Option.map_none, Option.getD_none] at hle
      exact absurd hafter (not_lt.mpr hle)
    · have hlast : last ∈ page key after limit rows := by
        rw [hcat, List.concat_eq_append]
        exact List.mem_append_right _ (List.mem_singleton_self _)
      simp only [hcat, resume, List.concat_eq_append, List.getLast?_append,
        List.getLast?_singleton, Option.some_or, Option.map_some, Option.getD_some] at hle
      exact absurd (hs.2.2 last hlast r hlater) (not_lt.mpr hle)

/-- The rows past the key that a page ends at are those that it leaves for later, where it is
    not cut to nothing. -/
theorem beyond_resume (hd : rows.Pairwise (fun r t => key r ≠ key t)) (hlimit : 0 < limit) :
    beyond key (resume key after (page key after limit rows)) rows =
      (beyond key after rows).drop limit := by
  have hs := pairwise_beyond key after rows hd
  have hlater := hs
  rw [← List.take_append_drop limit (beyond key after rows), List.pairwise_append] at hlater
  have hle := after_le_resume key after limit rows
  have hmem : ∀ r, r ∈ beyond key (resume key after (page key after limit rows)) rows ↔
      r ∈ (beyond key after rows).drop limit := by
    intro r
    rw [mem_beyond]
    constructor
    · rintro ⟨hr, hpast⟩
      have hbeyond := (mem_beyond key after rows r).mpr ⟨hr, lt_of_le_of_lt hle hpast⟩
      rw [← List.take_append_drop limit (beyond key after rows), List.mem_append] at hbeyond
      rcases hbeyond with hpage | hdrop
      · have hback := le_resume key after _ (pairwise_page key after limit rows hd) r hpage
        exact absurd hpast (not_lt.mpr hback)
      · exact hdrop
    · intro hdrop
      refine ⟨((mem_beyond key after rows r).mp (List.mem_of_mem_drop hdrop)).1, ?_⟩
      rcases List.eq_nil_or_concat (page key after limit rows) with hnil | ⟨init, last, hcat⟩
      · -- An empty page leaves nothing for later.
        have hlong := List.length_pos_of_mem hdrop
        have hnone := congrArg List.length hnil
        rw [page, List.length_take, List.length_nil] at hnone
        rw [List.length_drop] at hlong
        omega
      · have hlast : last ∈ page key after limit rows := by
          rw [hcat, List.concat_eq_append]
          exact List.mem_append_right _ (List.mem_singleton_self _)
        have hend : resume key after (page key after limit rows) = key last := by
          rw [hcat, resume, List.concat_eq_append, List.getLast?_concat]
          rfl
        rw [hend]
        exact hlater.2.2 last hlast r hdrop
  have hnodup : ∀ l : List ρ, l.Pairwise (fun r t => key r < key t) → l.Nodup := by
    intro l hl
    exact hl.imp (fun hlt heq => absurd (congrArg key heq) (ne_of_lt hlt))
  have hleft := pairwise_beyond key (resume key after (page key after limit rows)) rows hd
  have hright := hs.sublist (List.drop_sublist limit _)
  refine List.Perm.eq_of_pairwise (fun r t _ _ hrt htr => ?_) hleft hright
    ((List.perm_ext_iff_of_nodup (hnodup _ hleft) (hnodup _ hright)).mpr hmem)
  exact absurd (lt_trans hrt htr) (lt_irrefl _)

/-- Pages are what they are to be. Reading one row more tells whether there is more. -/
theorem isPage_page (hd : rows.Pairwise (fun r t => key r ≠ key t)) :
    IsPage key after limit rows (page key after limit rows)
      (decide (limit < (page key after (limit + 1) rows).length)) := by
  have hs := pairwise_beyond key after rows hd
  -- What is past the key is on the page or behind it.
  have hsplit : ∀ r ∈ rows, after < key r → r ∉ page key after limit rows →
      r ∈ (beyond key after rows).drop limit := by
    intro r hr hafter hnot
    have hmem := (mem_beyond key after rows r).mpr ⟨hr, hafter⟩
    rw [← List.take_append_drop limit (beyond key after rows), List.mem_append] at hmem
    exact hmem.resolve_left hnot
  have hlater := hs
  rw [← List.take_append_drop limit (beyond key after rows), List.pairwise_append] at hlater
  constructor
  · exact pairwise_page key after limit rows hd
  · intro r hr
    exact mem_of_mem_page key after limit rows r hr
  · exact List.length_take_le _ _
  · intro r hr hafter hnot
    have hdrop := hsplit r hr hafter hnot
    have hlong := List.length_pos_of_mem hdrop
    rw [List.length_drop] at hlong
    refine ⟨?_, fun t ht => hlater.2.2 t ht r hdrop⟩
    rw [page, List.length_take]
    omega
  · rw [decide_eq_true_eq, page, List.length_take]
    constructor
    · intro hlong
      have hdrop : (beyond key after rows).drop limit ≠ [] := by
        rw [ne_eq, List.drop_eq_nil_iff]
        omega
      obtain ⟨r, hr⟩ := List.exists_mem_of_ne_nil _ hdrop
      have hmem := (mem_beyond key after rows r).mp (List.mem_of_mem_drop hr)
      refine ⟨r, hmem.1, hmem.2, fun hpage => ?_⟩
      exact absurd (hlater.2.2 r hpage r hr) (lt_irrefl _)
    · rintro ⟨r, hr, hafter, hnot⟩
      have hlong := List.length_pos_of_mem (hsplit r hr hafter hnot)
      rw [List.length_drop] at hlong
      omega

/-- Reading a page keeps the reader caught up with its key. -/
theorem caught_page (seen rows : List ρ)
    (hd : rows.Pairwise (fun r t => key r ≠ key t)) (h : Caught key after seen rows) :
    Caught key (resume key after (page key after limit rows))
      (seen ++ page key after limit rows) rows := by
  intro r hr hle
  by_cases hafter : after < key r
  · exact List.mem_append_right _
      (mem_page_of_le_resume key after limit rows hd r hr hafter hle)
  · exact List.mem_append_left _ (h r hr (not_lt.mp hafter))

theorem caught_of_subset (seen rows rows' : List ρ) (hsub : rows' ⊆ rows)
    (h : Caught key after seen rows) : Caught key after seen rows' :=
  fun r hr => h r (hsub hr)

/-- Adding rows the reader has not been handed keeps it caught up exactly when
    they lie beyond its key. -/
theorem caught_append_iff (seen rows new : List ρ) (hnew : ∀ r ∈ new, r ∉ seen) :
    Caught key after seen (rows ++ new) ↔
      Caught key after seen rows ∧ ∀ r ∈ new, after < key r := by
  constructor
  · intro h
    refine ⟨fun r hr => h r (List.mem_append_left _ hr), fun r hr => ?_⟩
    by_contra hle
    exact hnew r hr (h r (List.mem_append_right _ hr) (not_lt.mp hle))
  · rintro ⟨hrows, hbeyond⟩ r hr hle
    rcases List.mem_append.mp hr with hold | hadded
    · exact hrows r hold hle
    · exact absurd (hbeyond r hadded) (not_lt.mpr hle)

/-- A page extends what the reader was handed, keeping it strictly
    increasing. -/
theorem pairwise_append_page (seen rows : List ρ)
    (hd : rows.Pairwise (fun r t => key r ≠ key t))
    (hseen : seen.Pairwise (fun r t => key r < key t)) (hle : ∀ r ∈ seen, key r ≤ after) :
    (seen ++ page key after limit rows).Pairwise (fun r t => key r < key t) := by
  refine List.pairwise_append.mpr ⟨hseen, pairwise_page key after limit rows hd, ?_⟩
  intro r hr t ht
  exact lt_of_le_of_lt (hle r hr) (mem_of_mem_page key after limit rows t ht).2

end

/-- A page of what the starts of several lists are merged into leaves out no row
    that it steps over, as long as each start is longer than the page. -/
theorem mem_take_of_merged (rows merged : List ρ) (limit : ℕ) (hpos : 0 < limit)
    (hrows : rows.Pairwise (fun r t => key r < key t))
    (hmerged : merged.Pairwise (fun r t => key r < key t))
    (hstart : rows.take (limit + 1) ⊆ merged) (r : ρ) (hr : r ∈ rows)
    (hle : ∀ last, limit < merged.length → (merged.take limit).getLast? = some last →
      key r ≤ key last) : r ∈ merged.take limit := by
  by_contra hnot
  -- Some row of the start is not on the page, and it does not come after `r`.
  have hskipped : ∃ t ∈ rows.take (limit + 1), t ∉ merged.take limit ∧ key t ≤ key r := by
    rw [← List.take_append_drop (limit + 1) rows, List.mem_append] at hr
    rcases hr with hr | hr
    · exact ⟨r, hr, hnot, le_refl _⟩
    · have hsplit := hrows
      rw [← List.take_append_drop (limit + 1) rows, List.pairwise_append] at hsplit
      by_contra hall
      have hsub : rows.take (limit + 1) ⊆ merged.take limit := by
        intro t ht
        by_contra htnot
        exact hall ⟨t, ht, htnot, le_of_lt (hsplit.2.2 t ht r hr)⟩
      have hnodup : (rows.take (limit + 1)).Nodup :=
        hsplit.1.imp (fun hlt heq => absurd (congrArg key heq) (ne_of_lt hlt))
      have hlength := (List.subperm_of_subset hnodup hsub).length_le
      have hlong := List.length_pos_of_mem hr
      rw [List.length_take, List.length_take] at hlength
      rw [List.length_drop] at hlong
      omega
  rcases hskipped with ⟨t, ht, htnot, htle⟩
  have hmem := hstart ht
  rw [← List.take_append_drop limit merged, List.mem_append] at hmem
  have hdrop := hmem.resolve_left htnot
  have hlong : limit < merged.length := by
    have hpos' := List.length_pos_of_mem hdrop
    rw [List.length_drop] at hpos'
    omega
  have hne : merged.take limit ≠ [] := by
    rw [ne_eq, List.take_eq_nil_iff, not_or]
    exact ⟨by omega, fun h => by rw [h] at hlong; exact absurd hlong (by simp)⟩
  have hlast := List.getLast?_eq_some_getLast hne
  rw [← List.take_append_drop limit merged, List.pairwise_append] at hmerged
  have hlt := hmerged.2.2 _ (List.getLast_mem hne) t hdrop
  exact absurd (hle _ hlong hlast) (not_le.mpr (lt_of_lt_of_le hlt htle))

end Keyset
