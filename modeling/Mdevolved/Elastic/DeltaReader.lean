import Mdevolved.Elastic.RunDeltas
import Mdevolved.Lib.Run

/-!
# Reading a Run's Deltas

A reader of one Run's feed while mutations of any Run keep adding to it. Each
mutation takes two separate actions: it takes its sequences from the clock,
and some time later its batch commits, or never does. Between the two other
mutations take sequences, other batches commit and the reader reads.

So sequences are handed out in one order and committed in another. The reader
keeps nothing but its cursor, and a cursor at sequence `n` is a statement that
everything up to `n` has been seen. That statement is false as soon as a batch
commits a sequence at or below a cursor that is already past it, which is what
happens when the batch that took the later sequences commits first and is read
before the other one. `lateCommit` is that schedule with two observations.

Delivery in increasing sequence and without repetition does hold in every run,
since it depends on the reader alone. What is lost is exactly what commits
late: `nothing_missed_iff` says that a run misses nothing at any point if and
only if each batch of the Run that goes through does so while the reader's
cursor is still below the sequences it took. What commits later than that the reader
is never given, however long it goes on (`delivered_beyond`).

## Main definitions

* `DeltaSystem`: The clock, the table, the calls under way and the reader.
* `DeltaEvent`: What happens next.
* `DeltaSystem.step`: One event.
* `NothingMissed`: Nothing skipped, nothing twice, and in increasing sequence.
* `CommitsBeyondCursor`: A batch commits beyond the reader's cursor.

## Theorems

* `step_numbered`: Every event keeps sequences issued once.
* `step_caught_iff`: Which events keep the reader caught up.
* `nothing_missed_iff`: Which runs miss nothing.
* `lateCommit_misses`: A run that misses a delta.
* `run_numbered`: In every run sequences are issued once.
* `delivered_beyond`: What is delivered later lies beyond the cursor.
-/

namespace Mdevolved.Elastic

/-- The reader of a feed: the last cursor it was given and what it has been
    delivered. -/
structure DeltaReader where
  cursor : Option CursorPayload
  delivered : List RunDelta

/-- The clock row, the table, the deltas each call holds between taking its
    sequences and its batch, and the reader. -/
structure DeltaSystem where
  nextSequence : Nat
  runDeltas : List RunDeltaRow
  prepared : Nat → List PreparedDelta
  reader : DeltaReader

/-- A fresh database, and a reader that has read nothing. -/
def DeltaSystem.start : DeltaSystem :=
  { nextSequence := 1
    runDeltas := []
    prepared := fun _ => []
    reader := { cursor := none, delivered := [] } }

/-- What may happen next. A call may take its sequences, commit its batch, or
    end without one because a body could not be stored or the batch was never
    sent. `accepted` says whether the rest of the batch goes through, the
    receipt with its fence above all. -/
inductive DeltaEvent
  | prepare (call : Nat) (projectId runId : String) (now : Nat) (uuid : Nat → String)
      (mutation : DeltaMutation)
  | commit (call : Nat) (accepted : Bool)
  | abandon (call : Nat)
  | retain (deltaIds : List String)
  | read (access : Except LeadOperationProblem String) (limit : Option Nat) (now : Nat)

namespace DeltaSystem

/-- The table after the batch of a call, or nothing where it does not go
    through. -/
def batch (s : DeltaSystem) (call : Nat) (accepted : Bool) : Option (List RunDeltaRow) :=
  if accepted then
    Table.insertAll admitsRunDelta s.runDeltas (deltaRowsStatement (s.prepared call))
  else none

/-- One event, for the reader of the Run `runId` of `projectId`. A call that
    already holds sequences takes no others. -/
def step (projectId runId : String) (s : DeltaSystem) : DeltaEvent → DeltaSystem
  | .prepare call callProject callRun now uuid mutation =>
      if s.prepared call = [] then
        let taken := prepareRunDeltas s.nextSequence callProject callRun uuid (mutation.deltas now)
        { s with
          nextSequence := taken.2
          prepared := Function.update s.prepared call taken.1 }
      else s
  | .commit call accepted =>
      match s.batch call accepted with
      | some rows => { s with runDeltas := rows, prepared := Function.update s.prepared call [] }
      | none => { s with prepared := Function.update s.prepared call [] }
  | .abandon call => { s with prepared := Function.update s.prepared call [] }
  | .retain deltaIds =>
      { s with runDeltas := s.runDeltas.filter (fun row => row.deltaId ∉ deltaIds) }
  | .read access limit now =>
      match getRunDeltas s.runDeltas
          { projectId := projectId, runId := runId, cursor := s.reader.cursor, limit := limit }
          access now with
      | .ok page =>
          { s with
            reader :=
              { cursor := page.cursor.or s.reader.cursor
                delivered := s.reader.delivered ++ page.deltas } }
      | .error _ => s

end DeltaSystem

/-- The reader has been delivered every delta of its Run up to its cursor,
    each once, and in increasing sequence. -/
structure NothingMissed (projectId runId : String) (s : DeltaSystem) : Prop where
  noneSkipped : Keyset.Caught RunDelta.sequence (sequenceOf s.reader.cursor) s.reader.delivered
    (feed projectId runId s.runDeltas)
  noneTwice : s.reader.delivered.Nodup
  increasing : s.reader.delivered.Pairwise (fun d e => d.sequence < e.sequence)

/-- A batch that goes through and adds deltas of the Run does so while the
    reader's cursor is below the sequences it took. -/
def CommitsBeyondCursor (projectId runId : String) (s : DeltaSystem) : DeltaEvent → Prop
  | .commit call accepted => (s.batch call accepted).isSome →
      ∀ p ∈ s.prepared call, p.record.projectId = projectId → p.record.runId = runId →
        sequenceOf s.reader.cursor < p.record.sequence
  | _ => True

/-- Sequences are issued once: what a call holds is below the clock, and is
    neither held by another call, nor in the table, nor delivered. The reader
    has been delivered only what lies up to its cursor, in increasing
    sequence. -/
structure Numbered (s : DeltaSystem) : Prop where
  held : ∀ call, ∀ p ∈ s.prepared call, p.record.sequence < s.nextSequence
  apart : ∀ call call', call ≠ call' → ∀ p ∈ s.prepared call, ∀ q ∈ s.prepared call',
    p.record.sequence ≠ q.record.sequence
  rowBelow : ∀ row ∈ s.runDeltas, row.deltaSequence < s.nextSequence
  rowFree : ∀ row ∈ s.runDeltas, ∀ call, ∀ p ∈ s.prepared call,
    p.record.sequence ≠ row.deltaSequence
  distinct : s.runDeltas.Pairwise (fun row row' => row.deltaSequence ≠ row'.deltaSequence)
  delivered : ∀ d ∈ s.reader.delivered, d.sequence < s.nextSequence ∧
    d.sequence ≤ sequenceOf s.reader.cursor
  deliveredFree : ∀ d ∈ s.reader.delivered, ∀ call, ∀ p ∈ s.prepared call,
    p.record.sequence ≠ d.sequence
  increasing : s.reader.delivered.Pairwise (fun d e => d.sequence < e.sequence)

section

variable (projectId runId : String) (s : DeltaSystem) (rows : List RunDeltaRow)

theorem mem_feed (d : RunDelta) :
    d ∈ feed projectId runId rows ↔
      ∃ row ∈ rows, row.projectId = projectId ∧ row.runId = runId ∧ row.toRunDelta = d := by
  simp only [feed, ofRun, List.mem_map, List.mem_filter, decide_eq_true_eq, and_assoc]

theorem feed_distinct (h : rows.Pairwise (fun row row' => row.deltaSequence ≠ row'.deltaSequence)) :
    (feed projectId runId rows).Pairwise (fun d e => d.sequence ≠ e.sequence) :=
  List.pairwise_map.mpr (h.filter _)

/-- Distinct rows have distinct identities, so strictly increasing delivery is
    delivery without repetition. -/
theorem nodup_of_increasing (delivered : List RunDelta)
    (h : delivered.Pairwise (fun d e => d.sequence < e.sequence)) : delivered.Nodup :=
  h.imp (fun hlt heq => absurd (heq ▸ hlt) (lt_irrefl _))

/-- What a call lets go of leaves the rest as it was. -/
theorem numbered_release (call : Nat) (h : Numbered s) :
    Numbered { s with prepared := Function.update s.prepared call [] } := by
  have hsub : ∀ c, ∀ p ∈ Function.update s.prepared call [] c, p ∈ s.prepared c := by
    intro c p hp
    by_cases hc : c = call
    · rw [hc, Function.update_self] at hp
      cases hp
    · rwa [Function.update_of_ne hc] at hp
  exact {
    held := fun c p hp => h.held c p (hsub c p hp)
    apart := fun c c' hne p hp q hq => h.apart c c' hne p (hsub c p hp) q (hsub c' q hq)
    rowBelow := h.rowBelow
    rowFree := fun row hrow c p hp => h.rowFree row hrow c p (hsub c p hp)
    distinct := h.distinct
    delivered := h.delivered
    deliveredFree := fun d hd c p hp => h.deliveredFree d hd c p (hsub c p hp)
    increasing := h.increasing }

/-- Fewer rows are still rows whose sequences were issued once. -/
theorem numbered_retain (hsub : rows.Sublist s.runDeltas) (h : Numbered s) :
    Numbered { s with runDeltas := rows } :=
  { h with
    rowBelow := fun row hrow => h.rowBelow row (hsub.subset hrow)
    rowFree := fun row hrow => h.rowFree row (hsub.subset hrow)
    distinct := h.distinct.sublist hsub }

/-- New sequences are at or above the clock, so they meet none issued before. -/
theorem numbered_prepare (call : Nat) (projectId runId : String)
    (uuid : Nat → String) (deltas : List DeltaInput) (h : Numbered s) :
    Numbered { s with
      nextSequence := (prepareRunDeltas s.nextSequence projectId runId uuid deltas).2
      prepared := Function.update s.prepared call
        (prepareRunDeltas s.nextSequence projectId runId uuid deltas).1 } := by
  have hclock : s.nextSequence ≤ (prepareRunDeltas s.nextSequence projectId runId uuid deltas).2 :=
    Nat.le_add_right _ _
  have hcases : ∀ c, ∀ p ∈ Function.update s.prepared call
      (prepareRunDeltas s.nextSequence projectId runId uuid deltas).1 c,
      (c = call ∧ s.nextSequence ≤ p.record.sequence ∧
        p.record.sequence < (prepareRunDeltas s.nextSequence projectId runId uuid deltas).2) ∨
      (c ≠ call ∧ p ∈ s.prepared c) := by
    intro c p hp
    by_cases hc : c = call
    · rw [hc, Function.update_self] at hp
      exact Or.inl ⟨hc, prepareRunDeltas_sequence _ _ _ _ _ p hp⟩
    · rw [Function.update_of_ne hc] at hp
      exact Or.inr ⟨hc, hp⟩
  refine { h with
    held := ?_, apart := ?_, rowBelow := ?_, rowFree := ?_, delivered := ?_, deliveredFree := ?_ }
  · intro c p hp
    rcases hcases c p hp with ⟨-, -, hlt⟩ | ⟨-, hold⟩
    · exact hlt
    · exact lt_of_lt_of_le (h.held c p hold) hclock
  · intro c c' hne p hp q hq
    rcases hcases c p hp with ⟨hc, hge, -⟩ | ⟨-, hold⟩
    · rcases hcases c' q hq with ⟨hc', -, -⟩ | ⟨-, hold'⟩
      · exact absurd (hc.trans hc'.symm) hne
      · exact Ne.symm (ne_of_lt (lt_of_lt_of_le (h.held c' q hold') hge))
    · rcases hcases c' q hq with ⟨-, hge, -⟩ | ⟨-, hold'⟩
      · exact ne_of_lt (lt_of_lt_of_le (h.held c p hold) hge)
      · exact h.apart c c' hne p hold q hold'
  · intro row hrow
    exact lt_of_lt_of_le (h.rowBelow row hrow) hclock
  · intro row hrow c p hp
    rcases hcases c p hp with ⟨-, hge, -⟩ | ⟨-, hold⟩
    · exact Ne.symm (ne_of_lt (lt_of_lt_of_le (h.rowBelow row hrow) hge))
    · exact h.rowFree row hrow c p hold
  · intro d hd
    exact ⟨lt_of_lt_of_le (h.delivered d hd).1 hclock, (h.delivered d hd).2⟩
  · intro d hd c p hp
    rcases hcases c p hp with ⟨-, hge, -⟩ | ⟨-, hold⟩
    · exact Ne.symm (ne_of_lt (lt_of_lt_of_le (h.delivered d hd).1 hge))
    · exact h.deliveredFree d hd c p hold

/-- A batch moves what a call holds into the table, and the table's primary
    key keeps its sequences distinct. -/
theorem numbered_commit (call : Nat) (rows : List RunDeltaRow)
    (h : Numbered s)
    (hrows : Table.insertAll admitsRunDelta s.runDeltas (deltaRowsStatement (s.prepared call)) =
      some rows) :
    Numbered { s with runDeltas := rows, prepared := Function.update s.prepared call [] } := by
  have happend := Table.insertAll_eq_append admitsRunDelta s.runDeltas rows _ hrows
  have hmem : ∀ row ∈ rows, row ∈ s.runDeltas ∨
      ∃ p ∈ s.prepared call, row.deltaSequence = p.record.sequence := by
    intro row hrow
    rw [happend, List.mem_append, deltaRowsStatement, List.mem_map] at hrow
    rcases hrow with hold | ⟨p, hp, rfl⟩
    · exact Or.inl hold
    · exact Or.inr ⟨p, hp, rfl⟩
  have hrest := numbered_release s call h
  refine { hrest with rowBelow := ?_, rowFree := ?_, distinct := ?_ }
  · intro row hrow
    rcases hmem row hrow with hold | ⟨p, hp, heq⟩
    · exact h.rowBelow row hold
    · rw [heq]; exact h.held call p hp
  · intro row hrow c p hp
    rcases hmem row hrow with hold | ⟨q, hq, heq⟩
    · exact hrest.rowFree row hold c p hp
    · by_cases hc : c = call
      · rw [hc] at hp
        simp only [Function.update_self, List.not_mem_nil] at hp
      · simp only [Function.update_of_ne hc] at hp
        rw [heq]
        exact h.apart c call hc p hp q hq
  · exact Table.insertAll_pairwise admitsRunDelta _
      (fun old row hadm => admitsRunDelta_sequence old row hadm) s.runDeltas rows _ h.distinct hrows

/-- A page delivers only what lies past the reader's cursor, in increasing
    sequence, and takes the cursor past all of it. -/
theorem numbered_read (page : RunDeltaPage)
    (limit : Nat) (h : Numbered s)
    (hdeltas : page.deltas = Keyset.page RunDelta.sequence (sequenceOf s.reader.cursor) limit
      (feed projectId runId s.runDeltas))
    (hcursor : sequenceOf (page.cursor.or s.reader.cursor) =
      Keyset.resume RunDelta.sequence (sequenceOf s.reader.cursor) page.deltas) :
    Numbered { s with
      reader :=
        { cursor := page.cursor.or s.reader.cursor
          delivered := s.reader.delivered ++ page.deltas } } := by
  have hd := feed_distinct projectId runId s.runDeltas h.distinct
  have hrow : ∀ d ∈ page.deltas, ∃ row ∈ s.runDeltas, row.deltaSequence = d.sequence := by
    intro d hdm
    rw [hdeltas] at hdm
    rcases (mem_feed projectId runId _ d).mp
      (Keyset.mem_of_mem_page RunDelta.sequence _ _ _ d hdm).1 with ⟨row, hr, -, -, rfl⟩
    exact ⟨row, hr, rfl⟩
  refine { h with delivered := ?_, deliveredFree := ?_, increasing := ?_ }
  · intro d hdm
    simp only [hcursor]
    rcases List.mem_append.mp hdm with hold | hnew
    · have hle := Keyset.after_le_resume RunDelta.sequence (sequenceOf s.reader.cursor) limit
        (feed projectId runId s.runDeltas)
      rw [← hdeltas] at hle
      exact ⟨(h.delivered d hold).1, le_trans (h.delivered d hold).2 hle⟩
    · rcases hrow d hnew with ⟨row, hr, heq⟩
      refine ⟨heq ▸ h.rowBelow row hr, Keyset.le_resume RunDelta.sequence _ _ ?_ d hnew⟩
      rw [hdeltas]
      exact Keyset.pairwise_page RunDelta.sequence _ _ _ hd
  · intro d hdm c p hp
    rcases List.mem_append.mp hdm with hold | hnew
    · exact h.deliveredFree d hold c p hp
    · rcases hrow d hnew with ⟨row, hr, heq⟩
      exact heq ▸ h.rowFree row hr c p hp
  · rw [hdeltas]
    exact Keyset.pairwise_append_page RunDelta.sequence _ _ _ _ hd h.increasing
      (fun d hdm => (h.delivered d hdm).2)

/-- Every event keeps sequences issued once. -/
theorem step_numbered (e : DeltaEvent)
    (h : Numbered s) : Numbered (s.step projectId runId e) := by
  cases e with
  | prepare call callProject callRun now uuid mutation =>
      simp only [DeltaSystem.step]
      split
      · exact numbered_prepare s call callProject callRun uuid _ h
      · exact h
  | commit call accepted =>
      simp only [DeltaSystem.step]
      cases hbatch : s.batch call accepted with
      | none => exact numbered_release s call h
      | some rows =>
          simp only [DeltaSystem.batch] at hbatch
          split at hbatch
          · exact numbered_commit s call rows h hbatch
          · cases hbatch
  | abandon call => exact numbered_release s call h
  | retain deltaIds => exact numbered_retain s _ List.filter_sublist h
  | read access limit now =>
      simp only [DeltaSystem.step]
      split
      · next page hpage =>
          have hread := getRunDeltas_page _ _ _ _ _ hpage
          exact numbered_read projectId runId s page _ h hread.1 hread.2
      · exact h

/-- Which events keep the reader caught up: all of them, except a batch that
    commits at or below its cursor. -/
theorem step_caught_iff (e : DeltaEvent)
    (h : Numbered s)
    (hc : Keyset.Caught RunDelta.sequence (sequenceOf s.reader.cursor) s.reader.delivered
      (feed projectId runId s.runDeltas)) :
    Keyset.Caught RunDelta.sequence (sequenceOf (s.step projectId runId e).reader.cursor)
        (s.step projectId runId e).reader.delivered
        (feed projectId runId (s.step projectId runId e).runDeltas) ↔
      CommitsBeyondCursor projectId runId s e := by
  cases e with
  | prepare call callProject callRun now uuid mutation =>
      simp only [CommitsBeyondCursor, iff_true, DeltaSystem.step]
      split
      · exact hc
      · exact hc
  | commit call accepted =>
      simp only [CommitsBeyondCursor, DeltaSystem.step]
      cases hbatch : s.batch call accepted with
      | none => simp only [hc, Option.isSome_none, Bool.false_eq_true, false_implies]
      | some rows =>
          simp only [DeltaSystem.batch] at hbatch
          split at hbatch
          · have happend := Table.insertAll_eq_append admitsRunDelta s.runDeltas rows _ hbatch
            simp only [happend, Option.isSome_some, true_implies]
            have hnew : feed projectId runId
                (s.runDeltas ++ deltaRowsStatement (s.prepared call)) =
                feed projectId runId s.runDeltas ++
                  feed projectId runId (deltaRowsStatement (s.prepared call)) := by
              simp only [feed, ofRun, List.filter_append, List.map_append]
            have hfresh : ∀ d ∈ feed projectId runId (deltaRowsStatement (s.prepared call)),
                d ∉ s.reader.delivered := by
              intro d hd hdelivered
              rcases (mem_feed projectId runId _ d).mp hd with ⟨row, hrow, -, -, rfl⟩
              simp only [deltaRowsStatement, List.mem_map] at hrow
              rcases hrow with ⟨p, hp, rfl⟩
              exact h.deliveredFree _ hdelivered call p hp rfl
            rw [hnew, Keyset.caught_append_iff RunDelta.sequence _ _ _ _ hfresh]
            constructor
            · rintro ⟨-, hbeyond⟩ p hp hproject hrun
              refine hbeyond p.record ((mem_feed projectId runId _ _).mpr ?_)
              exact ⟨_, List.mem_map_of_mem hp, hproject, hrun, rfl⟩
            · intro hbeyond
              refine ⟨hc, fun d hd => ?_⟩
              rcases (mem_feed projectId runId _ d).mp hd with ⟨row, hrow, hproject, hrun, rfl⟩
              simp only [deltaRowsStatement, List.mem_map] at hrow
              rcases hrow with ⟨p, hp, rfl⟩
              exact hbeyond p hp hproject hrun
          · cases hbatch
  | abandon call =>
      simp only [CommitsBeyondCursor, iff_true, DeltaSystem.step]
      exact hc
  | retain deltaIds =>
      simp only [CommitsBeyondCursor, iff_true, DeltaSystem.step]
      refine Keyset.caught_of_subset RunDelta.sequence _ _ _ _ (fun d hd => ?_) hc
      rcases (mem_feed projectId runId _ d).mp hd with ⟨row, hrow, hof⟩
      exact (mem_feed projectId runId _ d).mpr ⟨row, (List.mem_filter.mp hrow).1, hof⟩
  | read access limit now =>
      simp only [CommitsBeyondCursor, iff_true, DeltaSystem.step]
      split
      · next page hpage =>
          have hread := getRunDeltas_page _ _ _ _ _ hpage
          simp only [hread.2, hread.1]
          exact Keyset.caught_page RunDelta.sequence _ _ _ _
            (feed_distinct projectId runId s.runDeltas h.distinct) hc
      · exact hc

end

theorem start_numbered : Numbered DeltaSystem.start :=
  { held := fun _ _ hp => nomatch hp
    apart := fun _ _ _ _ hp => nomatch hp
    rowBelow := fun _ hrow => nomatch hrow
    rowFree := fun _ hrow => nomatch hrow
    distinct := List.Pairwise.nil
    delivered := fun _ hd => nomatch hd
    deliveredFree := fun _ hd => nomatch hd
    increasing := List.Pairwise.nil }

/-- A run misses nothing at any point exactly when each batch of the Run that
    goes through commits beyond the reader's cursor. -/
theorem nothing_missed_iff (projectId runId : String) (es : List DeltaEvent) :
    (∀ pre, pre <+: es → NothingMissed projectId runId
        (Run.runFrom (DeltaSystem.step projectId runId) DeltaSystem.start pre)) ↔
      Run.Along (CommitsBeyondCursor projectId runId) (DeltaSystem.step projectId runId)
        DeltaSystem.start es := by
  have hnumbered : ∀ pre, Numbered
      (Run.runFrom (DeltaSystem.step projectId runId) DeltaSystem.start pre) := fun pre =>
    Run.runFrom_keeps _ Numbered (step_numbered projectId runId) _ pre start_numbered
  rw [← Run.forall_prefix_iff_along (DeltaSystem.step projectId runId) Numbered
    (fun s => Keyset.Caught RunDelta.sequence (sequenceOf s.reader.cursor) s.reader.delivered
      (feed projectId runId s.runDeltas))
    (step_numbered projectId runId) (step_caught_iff projectId runId) DeltaSystem.start es
    start_numbered (fun _ hd => nomatch hd)]
  constructor
  · intro h pre hpre
    exact (h pre hpre).noneSkipped
  · intro h pre hpre
    exact {
      noneSkipped := h pre hpre
      noneTwice := nodup_of_increasing _ (hnumbered pre).increasing
      increasing := (hnumbered pre).increasing }

/-- A project, and a Run of it. -/
def exampleProject : String := "4a1f0f0e-6d0b-4c55-9a50-0d9a35c7a001"

def exampleRun : String := "4a1f0f0e-6d0b-4c55-9a50-0d9a35c7a002"

/-- Two observations of one Run. The first takes sequence 1 and the second 2,
    the second commits and is read, and then the first commits. -/
def lateCommit : List DeltaEvent :=
  let hash := "9f86d081884c7d659a2feaa0c55ad015a3bf4f1b2b0b822cd15d6c15b0f00a08"
  [.prepare 0 exampleProject exampleRun 1000 (fun _ => "4a1f0f0e-6d0b-4c55-9a50-0d9a35c7a003")
      (.submitRunObservation "4a1f0f0e-6d0b-4c55-9a50-0d9a35c7a004" hash),
    .prepare 1 exampleProject exampleRun 1000 (fun _ => "4a1f0f0e-6d0b-4c55-9a50-0d9a35c7a005")
      (.submitRunObservation "4a1f0f0e-6d0b-4c55-9a50-0d9a35c7a006" hash),
    .commit 1 true,
    .read (.ok "4a1f0f0e-6d0b-4c55-9a50-0d9a35c7a007") none 1001,
    .commit 0 true]

theorem lateCommit_misses : ¬ NothingMissed exampleProject exampleRun
    (Run.runFrom (DeltaSystem.step exampleProject exampleRun) DeltaSystem.start lateCommit) := by
  intro h
  have hskipped := h.noneSkipped
  revert hskipped
  decide +kernel

/-! ## What holds of every run -/

/-- In every run, whatever commits, fails or is deleted in between, sequences are issued once. -/
theorem run_numbered (projectId runId : String) (es : List DeltaEvent) :
    Numbered (Run.runFrom (DeltaSystem.step projectId runId) DeltaSystem.start es) :=
  Run.runFrom_keeps _ Numbered (step_numbered projectId runId) _ es start_numbered

/-- The reader's cursor is not behind a sequence, and what it was delivered further lies beyond
    it. -/
def GoesOn (after : Nat) (delivered : List RunDelta) (s : DeltaSystem) : Prop :=
  after ≤ sequenceOf s.reader.cursor ∧
    ∃ new, s.reader.delivered = delivered ++ new ∧ ∀ d ∈ new, after < d.sequence

theorem step_goesOn (projectId runId : String) (after : Nat) (delivered : List RunDelta)
    (s : DeltaSystem) (e : DeltaEvent) (h : GoesOn after delivered s) :
    GoesOn after delivered (s.step projectId runId e) := by
  cases e with
  | prepare call callProject callRun now uuid mutation =>
      simp only [DeltaSystem.step]
      split
      · exact h
      · exact h
  | commit call accepted =>
      simp only [DeltaSystem.step]
      split
      · exact h
      · exact h
  | abandon call => exact h
  | retain deltaIds => exact h
  | read access limit now =>
      simp only [DeltaSystem.step]
      split
      · next page hpage =>
          have hread := getRunDeltas_page _ _ _ _ _ hpage
          obtain ⟨hafter, new, hdelivered, hnew⟩ := h
          have hcursor : sequenceOf s.reader.cursor ≤
              sequenceOf (page.cursor.or s.reader.cursor) := by
            rw [hread.2, hread.1]
            exact Keyset.after_le_resume RunDelta.sequence _ _ _
          refine ⟨hafter.trans hcursor, new ++ page.deltas, ?_, fun d hd => ?_⟩
          · rw [hdelivered, List.append_assoc]
          · rcases List.mem_append.mp hd with hold | hpaged
            · exact hnew d hold
            · rw [hread.1] at hpaged
              exact lt_of_le_of_lt hafter
                (Keyset.mem_of_mem_page RunDelta.sequence _ _ _ d hpaged).2
      · exact h

/-- What the reader has been delivered at some point of a run it has for good, and all it is
    delivered afterwards lies beyond the cursor it had. So a delta that commits at or below the
    cursor is never delivered. -/
theorem delivered_beyond (projectId runId : String) (es es' : List DeltaEvent) :
    ∃ new,
      (Run.runFrom (DeltaSystem.step projectId runId) DeltaSystem.start (es ++ es')).reader.delivered =
        (Run.runFrom (DeltaSystem.step projectId runId) DeltaSystem.start es).reader.delivered ++
          new ∧
      ∀ d ∈ new, sequenceOf
        (Run.runFrom (DeltaSystem.step projectId runId) DeltaSystem.start es).reader.cursor <
          d.sequence := by
  rw [Run.runFrom_append]
  generalize Run.runFrom (DeltaSystem.step projectId runId) DeltaSystem.start es = s
  have hstart : GoesOn (sequenceOf s.reader.cursor) s.reader.delivered s :=
    ⟨le_refl _, [], (List.append_nil _).symm, by simp⟩
  exact (Run.runFrom_keeps _ _ (step_goesOn projectId runId _ _) s es' hstart).2

end Mdevolved.Elastic
