import Mathlib

/-!
# Tables and Batches

A relational table as the list of its rows in the order they were inserted,
and a transaction as a list of statements that either all take effect or
none.

A table's constraints are a test on the rows already there and the row to be
added, so a primary key, a unique index and a `CHECK` are all the same kind of
thing. `insertAll_pairwise` turns such a test into what it guarantees: where
an admitted row stands in a relation to every row before it, any two rows of
the table do, in the order they were inserted. That is how uniqueness becomes
a fact about a table rather than about one insertion.

A statement receives the state the statements before it left and returns the
rows it is asked for. `Batch.run` threads the state through, and an error
anywhere gives back no state at all, so a batch that fails has left nothing.

Whether the sender learns what happened is another matter. A request may throw
although it took effect, and `Batch.send` keeps the three outcomes apart.

## Main definitions

* `Table.Ranks`: An order by a time and then by a text.
* `Table.insert`: Adding one row, refused if the constraints do not admit it.
* `Table.insertAll`: Adding several rows, each checked against those before.
* `Table.update`: Changing the rows that meet a condition.
* `Table.upsert`: Adding a row, or merging it into the row of its key.

## Theorems

* `Table.insertAll_eq_append`: Accepted rows are appended.
* `Batch.send_cases`: A request takes effect as a whole or not at all.
* `Batch.send_ok`: An answered request took effect.
* `Batch.send_error`: A request that failed did so by itself or was thrown.
* `Batch.send_keeps`: What a request preserves however it ends.
-/

namespace Table

variable {ρ : Type*}

/-- What comes first in an order by a time and then by a text. -/
def Ranks (at₁ : Nat) (id₁ : String) (at₂ : Nat) (id₂ : String) : Prop :=
  at₁ < at₂ ∨ at₁ = at₂ ∧ id₁ ≤ id₂

instance (at₁ : Nat) (id₁ : String) (at₂ : Nat) (id₂ : String) :
    Decidable (Ranks at₁ id₁ at₂ id₂) :=
  inferInstanceAs (Decidable (_ ∨ _))

/-- Add one row, refused if the table's constraints do not admit it. -/
def insert (admits : List ρ → ρ → Bool) (rows : List ρ) (r : ρ) : Option (List ρ) :=
  if admits rows r then some (rows ++ [r]) else none

/-- Add several rows in order, each checked against those before it. -/
def insertAll (admits : List ρ → ρ → Bool) (rows : List ρ) : List ρ → Option (List ρ)
  | [] => some rows
  | r :: rs => (insert admits rows r).bind (fun rows' => insertAll admits rows' rs)

section

variable (p : ρ → Bool) (f : ρ → ρ) {κ : Type*} (key : ρ → κ) (admits : List ρ → ρ → Bool)

theorem insert_eq_some (rows rows' : List ρ) (r : ρ) :
    insert admits rows r = some rows' ↔ admits rows r = true ∧ rows' = rows ++ [r] := by
  cases h : admits rows r with
  | true => simp only [insert, h, if_true, Option.some.injEq, true_and, eq_comm]
  | false => simp only [insert, h, Bool.false_eq_true, if_false, reduceCtorEq, false_and]

theorem insertAll_cons_eq_some (rows rows' : List ρ) (r : ρ)
    (rs : List ρ) : insertAll admits rows (r :: rs) = some rows' ↔
      admits rows r = true ∧ insertAll admits (rows ++ [r]) rs = some rows' := by
  cases h : admits rows r with
  | true => simp only [insertAll, insert, h, if_true, Option.bind_some, true_and]
  | false =>
      simp only [insertAll, insert, h, Bool.false_eq_true, if_false, Option.bind_none,
        reduceCtorEq, false_and]

/-- Rows are added at the end, so insertion order is list order. -/
theorem insertAll_eq_append (rows rows' new : List ρ)
    (h : insertAll admits rows new = some rows') : rows' = rows ++ new := by
  induction new generalizing rows with
  | nil =>
      rw [insertAll, Option.some.injEq] at h
      rw [List.append_nil, h]
  | cons r rs ih =>
      have hrest := ((insertAll_cons_eq_some admits rows rows' r rs).mp h).2
      rw [ih (rows ++ [r]) hrest, List.append_assoc, List.singleton_append]

/-- A constraint between an admitted row and those before it is one between
    any two rows of the table. -/
theorem insertAll_pairwise (P : ρ → ρ → Prop)
    (hadm : ∀ rows r, admits rows r = true → ∀ t ∈ rows, P t r) (rows rows' new : List ρ)
    (hrows : rows.Pairwise P) (h : insertAll admits rows new = some rows') :
    rows'.Pairwise P := by
  induction new generalizing rows with
  | nil =>
      rw [insertAll, Option.some.injEq] at h
      exact h ▸ hrows
  | cons r rs ih =>
      rcases (insertAll_cons_eq_some admits rows rows' r rs).mp h with ⟨hr, hrest⟩
      refine ih (rows ++ [r]) (List.pairwise_append.mpr ⟨hrows, List.pairwise_singleton _ _, ?_⟩)
        hrest
      intro t ht r' hr'
      rw [List.mem_singleton.mp hr']
      exact hadm rows r hr t ht

/-- Nor is an admitted row at odds with a row that was there. -/
theorem insertAll_fresh (P : ρ → ρ → Prop)
    (hadm : ∀ rows r, admits rows r = true → ∀ t ∈ rows, P t r) (rows rows' new : List ρ)
    (h : insertAll admits rows new = some rows') : ∀ r ∈ new, ∀ t ∈ rows, P t r := by
  induction new generalizing rows with
  | nil => exact fun r hr => absurd hr List.not_mem_nil
  | cons r rs ih =>
      rcases (insertAll_cons_eq_some admits rows rows' r rs).mp h with ⟨hr, hrest⟩
      intro u hu t ht
      rcases List.mem_cons.mp hu with rfl | hmem
      · exact hadm rows u hr t ht
      · exact ih (rows ++ [r]) hrest u hmem t (List.mem_append_left _ ht)

/-- Change the rows that meet a condition. -/
def update (p : ρ → Bool) (f : ρ → ρ) (rows : List ρ) : List ρ :=
  rows.map (fun r => if p r then f r else r)

/-- A row after an update is a row before it, changed or not. -/
theorem mem_update (rows : List ρ) (r : ρ)
    (h : r ∈ update p f rows) : ∃ r' ∈ rows, (p r' = true ∧ r = f r') ∨ (p r' = false ∧ r = r') := by
  rcases List.mem_map.mp h with ⟨r', hr', heq⟩
  refine ⟨r', hr', ?_⟩
  cases hp : p r' with
  | true => exact Or.inl ⟨rfl, by rw [← heq, if_pos hp]⟩
  | false => exact Or.inr ⟨rfl, by rw [← heq, hp, if_neg Bool.false_ne_true]⟩

/-- A row before an update is still there, changed or not. -/
theorem update_mem (rows : List ρ) (r : ρ) (h : r ∈ rows) :
    (if p r then f r else r) ∈ update p f rows :=
  List.mem_map.mpr ⟨r, h, rfl⟩

/-- An update that keeps a key keeps what each key finds, changed or not. -/
theorem find?_update [DecidableEq κ] (key : ρ → κ) (p : ρ → Bool) (f : ρ → ρ)
    (hkey : ∀ r, key (f r) = key r) (rows : List ρ) (k : κ) :
    (update p f rows).find? (fun r => key r = k) =
      (rows.find? (fun r => key r = k)).map (fun r => if p r then f r else r) := by
  rw [update, List.find?_map]
  congr 1
  refine congrArg (fun q => List.find? q rows) (funext (fun r => ?_))
  by_cases hp : p r = true
  · simp only [Function.comp, if_pos hp, hkey]
  · simp only [Function.comp, if_neg hp]

/-- An update that keeps a key keeps the keys of the table. -/
theorem map_update (p : ρ → Bool) (f : ρ → ρ)
    (hkey : ∀ r, key (f r) = key r) (rows : List ρ) :
    (update p f rows).map key = rows.map key := by
  rw [update, List.map_map]
  refine List.map_congr_left (fun r _ => ?_)
  by_cases hp : p r = true
  · rw [Function.comp, if_pos hp, hkey]
  · rw [Function.comp, if_neg hp]

/-- Rows may be selected before or after an update that does not change which. -/
theorem filter_update (q p : ρ → Bool) (f : ρ → ρ) (rows : List ρ)
    (hq : ∀ r, p r = true → q (f r) = q r) :
    (update p f rows).filter q = update p f (rows.filter q) := by
  rw [update, update, List.filter_map]
  congr 1
  refine List.filter_congr (fun r _ => ?_)
  by_cases hp : p r = true
  · rw [Function.comp, if_pos hp, hq r hp]
  · rw [Function.comp, if_neg hp]

/-- Two updates of the same rows are one. -/
theorem update_update (f g : ρ → ρ) (rows : List ρ) (h : ∀ r, p (f r) = p r) :
    update p g (update p f rows) = update p (fun r => g (f r)) rows := by
  rw [update, update, update, List.map_map]
  refine List.map_congr_left (fun r _ => ?_)
  by_cases hp : p r = true
  · rw [Function.comp, if_pos hp, if_pos hp, if_pos ((h r).trans hp)]
  · rw [Function.comp, if_neg hp, if_neg hp, if_neg hp]

/-- Where keys are distinct, a key finds the row that has it. -/
theorem find?_of_mem [DecidableEq κ] (key : ρ → κ) (rows : List ρ) (r : ρ)
    (hd : (rows.map key).Nodup) (hr : r ∈ rows) :
    rows.find? (fun t => key t = key r) = some r := by
  induction rows with
  | nil => cases hr
  | cons t ts ih =>
      rw [List.map_cons, List.nodup_cons] at hd
      rcases List.mem_cons.mp hr with rfl | hmem
      · rw [List.find?_cons_of_pos (by rw [decide_eq_true_eq])]
      · have hne : key t ≠ key r := fun h => hd.1 (h ▸ List.mem_map_of_mem hmem)
        rw [List.find?_cons_of_neg (by rw [decide_eq_true_eq]; exact hne)]
        exact ih hd.2 hmem

theorem mem_of_find? [DecidableEq κ] (key : ρ → κ) (rows : List ρ) (k : κ) (r : ρ)
    (h : rows.find? (fun t => key t = k) = some r) : r ∈ rows ∧ key r = k :=
  ⟨List.mem_of_find?_eq_some h, by simpa only [decide_eq_true_eq] using List.find?_some h⟩

/-- The only row that meets a condition is the one that is found. -/
theorem find?_of_unique (rows : List ρ) (r : ρ) (hr : r ∈ rows) (hp : p r = true)
    (hunique : ∀ t ∈ rows, p t = true → t = r) : rows.find? p = some r := by
  cases hfind : rows.find? p with
  | none => exact absurd hp (List.find?_eq_none.mp hfind r hr)
  | some t =>
      have ht := hunique t (List.mem_of_find?_eq_some hfind) (List.find?_some hfind)
      rw [ht]

/-- Where keys are distinct, a condition on a key selects the row that has it. -/
theorem filter_of_key (p : ρ → Bool) (rows : List ρ) (r : ρ)
    (hd : (rows.map key).Nodup) (hr : r ∈ rows) (hp : p r = true)
    (hkey : ∀ t ∈ rows, p t = true → key t = key r) : rows.filter p = [r] := by
  induction rows with
  | nil => cases hr
  | cons t ts ih =>
      rw [List.map_cons, List.nodup_cons] at hd
      rcases List.mem_cons.mp hr with rfl | hmem
      · have hnone : ts.filter p = [] := by
          rw [List.filter_eq_nil_iff]
          intro u hu hpu
          refine hd.1 (List.mem_map.mpr ⟨u, hu, ?_⟩)
          exact hkey u (List.mem_cons_of_mem _ hu) hpu
        rw [List.filter_cons_of_pos hp, hnone]
      · have hne : ¬ p t = true := by
          intro hpt
          refine hd.1 (List.mem_map.mpr ⟨r, hmem, ?_⟩)
          exact (hkey t List.mem_cons_self hpt).symm
        rw [List.filter_cons_of_neg hne]
        exact ih hd.2 hmem (fun u hu => hkey u (List.mem_cons_of_mem _ hu))

/-- Conditions that agree on the rows of a table change the same ones. -/
theorem update_congr (p q : ρ → Bool) (f g : ρ → ρ) (rows : List ρ)
    (h : ∀ r ∈ rows, p r = q r ∧ f r = g r) : update p f rows = update q g rows := by
  refine List.map_congr_left (fun r hr => ?_)
  rw [(h r hr).1, (h r hr).2]

/-- Where no row meets the condition, none changes. -/
theorem update_of_none (rows : List ρ)
    (h : ∀ r ∈ rows, p r = false) : update p f rows = rows := by
  refine (List.map_congr_left (fun r hr => ?_)).trans (List.map_id rows)
  rw [h r hr, if_neg Bool.false_ne_true]
  rfl

/-- Counting is not disturbed by changes it does not see. -/
theorem countP_update (p q : ρ → Bool) (f : ρ → ρ) (rows : List ρ)
    (h : ∀ r ∈ rows, p r = true → q (f r) = q r) : (update p f rows).countP q = rows.countP q := by
  rw [update, List.countP_map]
  refine List.countP_congr (fun r hr => ?_)
  by_cases hp : p r = true
  · rw [Function.comp, if_pos hp, h r hr hp]
  · rw [Function.comp, if_neg hp]

/-- Rows that no longer count once they are changed counted before. -/
theorem countP_update_add (p q : ρ → Bool) (f : ρ → ρ) (rows : List ρ)
    (h : ∀ r, p r = true → q (f r) = false) :
    (update p f rows).countP q + rows.countP (fun r => q r && p r) = rows.countP q := by
  induction rows with
  | nil => rfl
  | cons r rs ih =>
      have hcons : update p f (r :: rs) = (if p r then f r else r) :: update p f rs := rfl
      rw [hcons, List.countP_cons, List.countP_cons, List.countP_cons]
      cases hp : p r with
      | true =>
          rw [if_pos rfl, h r hp, Bool.and_true, if_neg Bool.false_ne_true]
          omega
      | false =>
          rw [if_neg Bool.false_ne_true, Bool.and_false, if_neg Bool.false_ne_true]
          omega

/-- Where rows only stop counting and one of them does, fewer count. -/
theorem countP_map_lt (rows : List ρ)
    (hf : ∀ r, p (f r) = true → p r = true) (r : ρ) (hr : r ∈ rows) (hbefore : p r = true)
    (hafter : p (f r) = false) : (rows.map f).countP p < rows.countP p := by
  have hle : ∀ rows : List ρ, (rows.map f).countP p ≤ rows.countP p := by
    intro rows
    rw [List.countP_map]
    exact List.countP_mono_left (fun t _ => hf t)
  rcases List.append_of_mem hr with ⟨front, back, rfl⟩
  have hfront := hle front
  have hback := hle back
  rw [List.map_append, List.map_cons, List.countP_append, List.countP_append,
    List.countP_cons_of_pos hbefore,
    List.countP_cons_of_neg (by rw [hafter]; exact Bool.false_ne_true)]
  omega

/-- Where keys are distinct, a condition on a key counts one row at most. -/
theorem countP_of_key (p : ρ → Bool) (rows : List ρ)
    (hd : (rows.map key).Nodup)
    (hkey : ∀ r ∈ rows, ∀ t ∈ rows, p r = true → p t = true → key t = key r) :
    rows.countP p = if rows.any p then 1 else 0 := by
  cases hany : rows.any p with
  | true =>
      rcases List.any_eq_true.mp hany with ⟨r, hr, hp⟩
      rw [List.countP_eq_length_filter,
        filter_of_key key p rows r hd hr hp (fun t ht hpt => hkey r hr t ht hp hpt)]
      rfl
  | false =>
      rw [if_neg Bool.false_ne_true, List.countP_eq_zero]
      intro r hr hp
      rw [List.any_eq_true.mpr ⟨r, hr, hp⟩] at hany
      cases hany

/-- A row with a key of its own can be added to distinct ones. -/
theorem map_concat_nodup (rows : List ρ) (row : ρ)
    (h : (rows.map key).Nodup) (hnew : ∀ r ∈ rows, key r ≠ key row) :
    ((rows ++ [row]).map key).Nodup := by
  rw [List.map_append, List.map_singleton]
  refine List.nodup_append.mpr ⟨h, List.nodup_singleton _, ?_⟩
  intro k hk k' hk' heq
  rcases List.mem_map.mp hk with ⟨r, hr, hrk⟩
  rw [List.mem_singleton] at hk'
  exact hnew r hr (hrk.trans (heq.trans hk'))

/-- Where the values that some rows have are distinct, a value tells the row that
    has it. -/
theorem eq_of_filterMap_nodup (f : ρ → Option κ) (rows : List ρ) (k : κ) (r t : ρ)
    (h : (rows.filterMap f).Nodup) (hr : r ∈ rows) (ht : t ∈ rows) (hfr : f r = some k)
    (hft : f t = some k) : r = t := by
  induction rows with
  | nil => cases hr
  | cons u us ih =>
      -- A value at the head is not one of the values of the rest.
      have hhead : ∀ v ∈ us, f u = some k → f v ≠ some k := by
        intro v hv hu hfv
        rw [List.filterMap_cons_some hu, List.nodup_cons] at h
        exact h.1 (List.mem_filterMap.mpr ⟨v, hv, hfv⟩)
      have hrest : (us.filterMap f).Nodup := by
        cases hu : f u with
        | none => rwa [List.filterMap_cons_none hu] at h
        | some k' => exact (List.nodup_cons.mp (List.filterMap_cons_some hu ▸ h)).2
      rcases List.mem_cons.mp hr with rfl | hr'
      · rcases List.mem_cons.mp ht with rfl | ht'
        · rfl
        · exact absurd hft (hhead t ht' hfr)
      · rcases List.mem_cons.mp ht with rfl | ht'
        · exact absurd hfr (hhead r hr' hft)
        · exact ih hrest hr' ht'

end

section Upsert

variable {κ : Type*} [DecidableEq κ]

/-- Add a row, or merge it into the one that has its key. -/
def upsert (key : ρ → κ) (merge : ρ → ρ → ρ) (rows : List ρ) (row : ρ) : List ρ :=
  if rows.any (fun r => key r = key row) then
    update (fun r => key r = key row) (fun r => merge r row) rows
  else rows ++ [row]

variable (key : ρ → κ) (merge : ρ → ρ → ρ) (rows : List ρ) (row : ρ)

/-- Merging keeps keys, so keys stay distinct. -/
theorem upsert_nodup (hmerge : ∀ r s, key (merge r s) = key r) (h : (rows.map key).Nodup) :
    ((upsert key merge rows row).map key).Nodup := by
  unfold upsert
  split
  · rw [map_update key _ _ (fun r => hmerge r row)]
    exact h
  · next hfree =>
    exact map_concat_nodup key rows row h
      (fun r hr heq => hfree (List.any_eq_true.mpr ⟨r, hr, decide_eq_true heq⟩))

/-- What holds of the rows, of the new one and of what it is merged into. -/
theorem upsert_forall (P : ρ → Prop) (hrows : ∀ r ∈ rows, P r) (hrow : P row)
    (hmerge : ∀ r ∈ rows, key r = key row → P (merge r row)) :
    ∀ r ∈ upsert key merge rows row, P r := by
  intro r hr
  unfold upsert at hr
  split at hr
  · rcases mem_update _ _ rows r hr with ⟨r', hr', ⟨hk, rfl⟩ | ⟨-, rfl⟩⟩
    · exact hmerge r' hr' (of_decide_eq_true hk)
    · exact hrows r hr'
  · rcases List.mem_append.mp hr with hold | hnew
    · exact hrows r hold
    · exact List.mem_singleton.mp hnew ▸ hrow

/-- A row stays where nothing is merged into it that would change it. -/
theorem mem_upsert (r : ρ) (hr : r ∈ rows) (hsame : key r = key row → merge r row = r) :
    r ∈ upsert key merge rows row := by
  unfold upsert
  split
  · have hstays := update_mem (fun r => decide (key r = key row)) (fun r => merge r row) rows r hr
    by_cases hk : key r = key row
    · rwa [if_pos (decide_eq_true hk), hsame hk] at hstays
    · rwa [if_neg (fun h => hk (of_decide_eq_true h))] at hstays
  · exact List.mem_append_left _ hr

/-- There is a row of the key afterwards, the new one or what it was merged into. -/
theorem upsert_there (hmerge : ∀ r s, key (merge r s) = key r) :
    ∃ r ∈ upsert key merge rows row, key r = key row ∧
      (r = row ∨ ∃ old ∈ rows, r = merge old row) := by
  unfold upsert
  split
  · next hthere =>
    rcases List.any_eq_true.mp hthere with ⟨old, hold, hk⟩
    have hstays :=
      update_mem (fun r => decide (key r = key row)) (fun r => merge r row) rows old hold
    rw [if_pos hk] at hstays
    exact ⟨merge old row, hstays, (hmerge old row).trans (of_decide_eq_true hk),
      Or.inr ⟨old, hold, rfl⟩⟩
  · exact ⟨row, List.mem_append_right _ List.mem_cons_self, rfl, Or.inl rfl⟩

/-- A row after it was merged, stayed as it was, or is the new one. -/
theorem mem_upsert_cases (r : ρ) (hr : r ∈ upsert key merge rows row) :
    (∃ old ∈ rows, key old = key row ∧ r = merge old row) ∨ (r ∈ rows ∧ key r ≠ key row) ∨
      ((∀ t ∈ rows, key t ≠ key row) ∧ r = row) := by
  unfold upsert at hr
  split at hr
  · rcases mem_update _ _ rows r hr with ⟨old, hold, ⟨hk, rfl⟩ | ⟨hk, rfl⟩⟩
    · exact Or.inl ⟨old, hold, of_decide_eq_true hk, rfl⟩
    · exact Or.inr (Or.inl ⟨hold, of_decide_eq_false hk⟩)
  · next hfree =>
    have hnone : ∀ t ∈ rows, key t ≠ key row := fun t ht heq =>
      hfree (List.any_eq_true.mpr ⟨t, ht, decide_eq_true heq⟩)
    rcases List.mem_append.mp hr with hold | hnew
    · exact Or.inr (Or.inl ⟨hold, hnone r hold⟩)
    · exact Or.inr (Or.inr ⟨hnone, List.mem_singleton.mp hnew⟩)

/-- No more rows count after merging into a row that counted. -/
theorem countP_upsert_same (q : ρ → Bool) (old : ρ) (hold : old ∈ rows)
    (hk : key old = key row) (hq : ∀ r ∈ rows, key r = key row → q r = true) :
    (upsert key merge rows row).countP q ≤ rows.countP q := by
  unfold upsert
  rw [if_pos (List.any_eq_true.mpr ⟨old, hold, decide_eq_true hk⟩), update, List.countP_map]
  refine List.countP_mono_left (fun r hr hcounts => ?_)
  by_cases hr' : key r = key row
  · exact hq r hr hr'
  · rwa [Function.comp, if_neg (fun h => hr' (of_decide_eq_true h))] at hcounts

/-- At most one more row counts. -/
theorem countP_upsert_le (q : ρ → Bool) (hd : (rows.map key).Nodup) :
    (upsert key merge rows row).countP q ≤ rows.countP q + 1 := by
  have hupdate : (update (fun r => key r = key row) (fun r => merge r row) rows).countP q ≤
      rows.countP q + 1 := by
    induction rows with
    | nil => exact Nat.zero_le _
    | cons t ts ih =>
        rw [List.map_cons, List.nodup_cons] at hd
        by_cases ht : key t = key row
        · -- No other row has the key.
          have hrest := update_of_none (fun r => decide (key r = key row)) (fun r => merge r row) ts
            (fun r hr => decide_eq_false (fun heq =>
              hd.1 (List.mem_map.mpr ⟨r, hr, heq.trans ht.symm⟩)))
          have hhead : update (fun r => decide (key r = key row)) (fun r => merge r row) (t :: ts) =
              merge t row :: ts := by
            rw [update, List.map_cons, if_pos (decide_eq_true ht)]
            exact congrArg _ hrest
          rw [hhead, List.countP_cons, List.countP_cons]
          split <;> split <;> omega
        · have hhead : update (fun r => decide (key r = key row)) (fun r => merge r row) (t :: ts) =
              t :: update (fun r => decide (key r = key row)) (fun r => merge r row) ts := by
            rw [update, List.map_cons, if_neg (fun h => ht (of_decide_eq_true h))]
            rfl
          rw [hhead, List.countP_cons, List.countP_cons]
          have := ih hd.2
          omega
  unfold upsert
  split
  · exact hupdate
  · rw [List.countP_append, List.countP_singleton]
    split <;> omega

end Upsert

end Table

namespace Batch

variable {σ ε ρ : Type*}

/-- One statement of a transaction over `σ`: what it returns and the state it
    leaves. -/
abbrev Statement (σ ε ρ : Type*) := σ → Except ε (ρ × σ)

theorem ok_inj {r r' : ρ} {s s' : σ} :
    (Except.ok (r, s) : Except ε (ρ × σ)) = .ok (r', s') ↔ r = r' ∧ s = s' := by
  rw [Except.ok.injEq, Prod.mk.injEq]

/-- What a list of statements returns and the state it leads to, or the first
    error. -/
def run : List (Statement σ ε ρ) → σ → Except ε (List ρ × σ)
  | [], s => .ok ([], s)
  | q :: qs, s =>
      match q s with
      | .error e => .error e
      | .ok (r, t) =>
          match run qs t with
          | .error e => .error e
          | .ok (rs, u) => .ok (r :: rs, u)

/-- What becomes of a request to a database or an object store: it takes effect
    and is answered, it throws without having taken effect, or it takes effect
    and throws all the same, its answer lost. -/
inductive Outcome
  | answered | refused | lost
  deriving DecidableEq

/-- Send a request that returns a value and a new state, or fails by itself. A
    request that throws throws `fault`. -/
def send (fault : ε) (w : Outcome) (f : σ → Except ε (ρ × σ)) (s : σ) : Except ε ρ × σ :=
  match w, f s with
  | .refused, _ => (.error fault, s)
  | _, .error e => (.error e, s)
  | .answered, .ok (r, t) => (.ok r, t)
  | .lost, .ok (_, t) => (.error fault, t)

section

variable (fault : ε) (w : Outcome) (f : σ → Except ε (ρ × σ)) (s : σ)

@[simp] theorem run_nil : run ([] : List (Statement σ ε ρ)) s = .ok ([], s) := rfl

theorem run_cons_ok {q : Statement σ ε ρ} {qs : List (Statement σ ε ρ)} {s u : σ}
    {rs : List ρ} : run (q :: qs) s = .ok (rs, u) ↔
      ∃ r rs' t, q s = .ok (r, t) ∧ run qs t = .ok (rs', u) ∧ rs = r :: rs' := by
  cases hq : q s with
  | error e => simp only [run, hq, reduceCtorEq, false_and, exists_false]
  | ok rt =>
      rcases rt with ⟨r, t⟩
      cases hqs : run qs t with
      | error e =>
          simp only [run, hq, hqs, reduceCtorEq, ok_inj, false_iff,
            not_exists, not_and]
          rintro r' rs' t' ⟨-, rfl⟩ hqs'
          rw [hqs] at hqs'
          cases hqs'
      | ok rsu =>
          rcases rsu with ⟨rs', u'⟩
          simp only [run, hq, hqs, ok_inj]
          constructor
          · rintro ⟨rfl, rfl⟩
            exact ⟨r, rs', t, ⟨rfl, rfl⟩, hqs, rfl⟩
          · rintro ⟨r', rs'', t', ⟨rfl, rfl⟩, hqs', rfl⟩
            rw [hqs, ok_inj] at hqs'
            exact ⟨by rw [hqs'.1], hqs'.2⟩

/-- A batch of two parts goes through part by part. -/
theorem run_append_ok {qs qs' : List (Statement σ ε ρ)} {s u : σ} {rs : List ρ}
    (h : run (qs ++ qs') s = .ok (rs, u)) :
    ∃ t rs₁ rs₂, run qs s = .ok (rs₁, t) ∧ run qs' t = .ok (rs₂, u) ∧ rs = rs₁ ++ rs₂ := by
  induction qs generalizing s rs with
  | nil => exact ⟨s, [], rs, rfl, h, rfl⟩
  | cons q qs ih =>
      rcases run_cons_ok.mp h with ⟨r, rs', t, hq, hrest, rfl⟩
      rcases ih hrest with ⟨v, rs₁, rs₂, hfirst, hsecond, rfl⟩
      exact ⟨v, r :: rs₁, rs₂, run_cons_ok.mpr ⟨r, rs₁, t, hq, hfirst, rfl⟩,
        hsecond, rfl⟩

/-- What every statement preserves, a batch that goes through preserves. -/
theorem run_keeps (I : σ → Prop) (qs : List (Statement σ ε ρ))
    (hq : ∀ q ∈ qs, ∀ s r t, q s = .ok (r, t) → I s → I t) (s u : σ) (rs : List ρ)
    (h : run qs s = .ok (rs, u)) (hs : I s) : I u := by
  induction qs generalizing s rs with
  | nil =>
      rw [run_nil, ok_inj] at h
      exact h.2 ▸ hs
  | cons q qs ih =>
      rcases run_cons_ok.mp h with ⟨r, rs', t, hst, hrest, -⟩
      exact ih (fun q' hq' => hq q' (List.mem_cons_of_mem _ hq')) t rs' hrest
        (hq q List.mem_cons_self s r t hst hs)

/-- A request leaves the state alone, or leaves it as the request would by
    itself. -/
theorem send_cases :
    (send fault w f s).2 = s ∨
      ∃ r, f s = .ok (r, (send fault w f s).2) ∧
        ((send fault w f s).1 = .ok r ∨ (send fault w f s).1 = .error fault) := by
  cases hf : f s with
  | error e =>
      left
      cases w <;> simp only [send, hf]
  | ok rt =>
      rcases rt with ⟨r, t⟩
      cases w with
      | answered => exact Or.inr ⟨r, by simp only [send, hf], Or.inl (by simp only [send, hf])⟩
      | refused => exact Or.inl (by simp only [send])
      | lost => exact Or.inr ⟨r, by simp only [send, hf], Or.inr (by simp only [send, hf])⟩

/-- An answered request did what it answers for. -/
theorem send_ok (r : ρ)
    (h : (send fault w f s).1 = .ok r) : f s = .ok (r, (send fault w f s).2) := by
  cases hf : f s with
  | error e => cases w <;> simp only [send, hf, reduceCtorEq] at h
  | ok rt =>
      rcases rt with ⟨r', t⟩
      cases w with
      | answered =>
          simp only [send, hf, Except.ok.injEq] at h
          rw [h]
          simp only [send, hf]
      | refused => simp only [send, reduceCtorEq] at h
      | lost => simp only [send, hf, reduceCtorEq] at h

/-- A request fails by itself or is thrown. -/
theorem send_error (e : ε)
    (h : (send fault w f s).1 = .error e) : f s = .error e ∨ e = fault := by
  cases hf : f s with
  | error e' =>
      cases w with
      | refused =>
          simp only [send, Except.error.injEq] at h
          exact Or.inr h.symm
      | answered =>
          simp only [send, hf, Except.error.injEq] at h
          exact Or.inl (by rw [h])
      | lost =>
          simp only [send, hf, Except.error.injEq] at h
          exact Or.inl (by rw [h])
  | ok rt =>
      rcases rt with ⟨r, t⟩
      cases w with
      | answered => simp only [send, hf, reduceCtorEq] at h
      | refused =>
          simp only [send, Except.error.injEq] at h
          exact Or.inr h.symm
      | lost =>
          simp only [send, hf, Except.error.injEq] at h
          exact Or.inr h.symm

end

/-- What a request preserves by itself it preserves however it ends. -/
theorem send_keeps (I : σ → Prop) (fault : ε) (w : Outcome) (f : σ → Except ε (ρ × σ)) (s : σ)
    (hf : ∀ r t, f s = .ok (r, t) → I t) (hs : I s) : I (send fault w f s).2 := by
  rcases send_cases fault w f s with h | ⟨r, h, -⟩
  · rw [h]; exact hs
  · exact hf r _ h

end Batch
