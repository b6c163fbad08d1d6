import Mdevolved.Lib.Watched
import Mdevolved.Source.Reconcile

/-!
# What a Run Overwrites

A run of the reconciliation replaces a file or a note only by what it has decided from what
it has read. What it replaces is not lost if it is the same text, if it is the one that was
saved for the path, or if the run has kept it in a file of its own before.

A run does not look again before it writes. So it loses a text that came in after it had
read the file or the note: an edit of the user, one of another device, or what a second run
has written. It also loses a file that it did not take in, because it is too large, where
there is a note at the same path, and one that has come to be where it keeps a text. In
every other case, whoever else does what, nothing is lost.

What a run has read and written is told from the answers that it got. Each operation is
justified by them alone: that is an `Informed` process.

## Main definitions

* `Seen`, `seeing`: What a run has read and written.
* `Preserves`: Nothing is lost by an operation.
* `Undisturbed`: What an operation replaces is what its run has read.
* `Justified`: A run has accounted for what it has read.

## Theorems

* `reconcile_informed`: Each operation of a run is justified.
* `preserved_of_run`: Runs that are not disturbed lose nothing.
* `edit_lost`: An edit is lost that comes between reading and writing.
-/

namespace Mdevolved.Source

open Batch (Outcome)
open Vault (UnicodeTables)
open Process (Informed informed_bind informed_request informed_tryCatch)
open Process.Watched (watch)

/-! ## What a run has seen -/

/-- What a run has read and written, the last first. -/
structure Seen where
  baseline : BaselineState
  files : List (String × List UInt8)
  notes : List (String × Option String)
  written : List (String × String)

def Seen.blank : Seen :=
  { baseline := .blank, files := [], notes := [], written := [] }

/-- What a run remembers of an answer. -/
def seeing : (op : FolderOp) → Except ReconcileError op.Ret → Seen → Seen
  | .readState, .ok stored, seen => { seen with baseline := readBaseline stored }
  | .readFile path, .ok contents, seen => { seen with files := (path, contents) :: seen.files }
  | .readNote path, .ok contents, seen => { seen with notes := (path, contents) :: seen.notes }
  | .writeFile path contents, .ok _, seen =>
      { seen with written := (path, contents) :: seen.written }
  | _, _, seen => seen

section Property

variable (sha256 : String → String) (u : UnicodeTables)

/-- A text has the hash that was saved for its path. -/
def AtBaseline (seen : Seen) (path text : String) : Prop :=
  seen.baseline.hashes.lookup path = some (sha256 text)

/-- A text was kept in a conflict artifact. -/
def KeptBeside (seen : Seen) (path text : String) : Prop :=
  ∃ time side, conflictPath u path time side ≠ path ∧
    (conflictPath u path time side, text) ∈ seen.written

/-- Nothing is lost with a text. -/
def Accounted (seen : Seen) (path text : String) : Prop :=
  AtBaseline sha256 seen path text ∨ KeptBeside u seen path text

/-- What an operation replaces is the same text, the saved one, or one that is kept. -/
def Preserves (s : FolderWorld) (seen : Seen) : FolderOp → Prop
  | .writeFile path contents => ∀ old ∈ s.disk.lookup path,
      Utf8.decode old = Utf8.decode (Utf8.encode contents) ∨
        ∃ text, Utf8.decode old = some text ∧ Accounted sha256 u seen path text
  | .writeNote path contents => ∀ old ∈ s.notes.lookup path,
      old = contents ∨ Accounted sha256 u seen path old
  | _ => True

/-- What an operation replaces is what its run has read, unless it is the same text or the
    saved one. A file that is longer than the ceiling was not taken in. -/
def Undisturbed (maxFileBytes : Int) (s : FolderWorld) (seen : Seen) : FolderOp → Prop
  | .writeFile path contents => ∀ old ∈ s.disk.lookup path,
      Utf8.decode old = Utf8.decode (Utf8.encode contents) ∨
        (∃ text ∈ Utf8.decode old, AtBaseline sha256 seen path text) ∨
        ((old.length : Int) ≤ maxFileBytes ∧ seen.files.lookup path = some old)
  | .writeNote path contents => ∀ old ∈ s.notes.lookup path,
      old = contents ∨ AtBaseline sha256 seen path old ∨
        seen.notes.lookup path = some (some old)
  | _ => True

/-- What was read where an operation writes is accounted for. -/
def Justified (maxFileBytes : Int) (op : FolderOp) (seen : Seen) : Prop :=
  match op with
  | .writeFile path _ => ∀ old, seen.files.lookup path = some old →
      (old.length : Int) ≤ maxFileBytes →
      ∃ text, Utf8.decode old = some text ∧ Accounted sha256 u seen path text
  | .writeNote path _ => ∀ old, seen.notes.lookup path = some (some old) →
      Accounted sha256 u seen path old
  | _ => True

/-- A justified operation that is not disturbed loses nothing. -/
theorem preserves_of_undisturbed (maxFileBytes : Int) (s : FolderWorld) (seen : Seen)
    (op : FolderOp) (hjustified : Justified sha256 u maxFileBytes op seen)
    (hundisturbed : Undisturbed sha256 maxFileBytes s seen op) :
    Preserves sha256 u s seen op := by
  cases op with
  | writeFile path contents =>
      intro old hold
      rcases hundisturbed old hold with hsame | ⟨text, htext, hbaseline⟩ | ⟨hsize, hread⟩
      · exact Or.inl hsame
      · exact Or.inr ⟨text, htext, Or.inl hbaseline⟩
      · exact Or.inr (hjustified old hread hsize)
  | writeNote path contents =>
      intro old hold
      rcases hundisturbed old hold with hsame | hbaseline | hread
      · exact Or.inl hsame
      · exact Or.inr (Or.inl hbaseline)
      · exact Or.inr (hjustified old hread)
  | _ => exact trivial

end Property

/-! ## A run is informed -/

section Run

variable (g : RunSettings) (baseline : BaselineState) (disk : List (String × DiskFile))
  (paths : List String)

/-- What a run goes by is what it has seen. -/
structure Knows (seen : Seen) : Prop where
  baseline : seen.baseline = baseline
  files : ∀ path old, seen.files.lookup path = some old →
    (old.length : Int) ≤ g.maxFileBytes →
    ∃ file, disk.lookup path = some file ∧ Utf8.decode old = some file.contents

/-- A run on its way: it keeps nothing where there is a file or a note. -/
structure Going (r : Reconciled) (seen : Seen) : Prop where
  knows : Knows g baseline disk seen
  occupied : ∀ path ∈ paths, path ∈ r.occupiedPaths

variable {g baseline disk paths}

/-- A run that only says what it has written or which notes it has read goes by the same. -/
theorem Knows.of_same (seen seen' : Seen) (h : Knows g baseline disk seen)
    (hbaseline : seen'.baseline = seen.baseline) (hfiles : seen'.files = seen.files) :
    Knows g baseline disk seen' := by
  constructor
  · rw [hbaseline, h.baseline]
  · intro path old hread hsize
    rw [hfiles] at hread
    exact h.files path old hread hsize

/-- What a run has read of the files it goes by, also when it has read another one. -/
theorem Knows.take (seen : Seen) (read : DiskRead) (entry : WorkspaceEntry) (bytes : List UInt8)
    (contents : Option String) (h : Knows g baseline read.disk seen)
    (hcontents : match contents with
      | none => g.maxFileBytes < (bytes.length : Int)
      | some text => Utf8.decode bytes = some text) :
    Knows g baseline (read.take entry contents).disk
      { seen with files := (entry.path, bytes) :: seen.files } := by
  refine ⟨h.baseline, fun path old hread hsize => ?_⟩
  simp only [List.lookup_cons] at hread
  by_cases hpath : path = entry.path
  · -- The file is the one that was read last.
    simp only [hpath, beq_self_eq_true, Option.some.injEq] at hread
    subst hread
    cases contents with
    | none => omega
    | some text =>
        refine ⟨{ contents := text, entry := entry }, ?_, hcontents⟩
        simp [DiskRead.take, lookup_put, hpath]
  · simp only [beq_eq_false_iff_ne.mpr hpath] at hread
    obtain ⟨file, hfile, hdecode⟩ := h.files path old hread hsize
    refine ⟨file, ?_, hdecode⟩
    cases contents with
    | none => exact hfile
    | some text => simp only [DiskRead.take, lookup_put, if_neg hpath, hfile]

abbrev JustifiedBy (g : RunSettings) (op : FolderOp) (seen : Seen) : Prop :=
  Justified g.sha256 g.unicode g.maxFileBytes op seen

/-- What is read of a file is noted, and says whether the file is taken in. -/
theorem safeText_informed (entry : WorkspaceEntry) (seen : Seen) :
    (safeText entry g.maxFileBytes).Informed seeing (JustifiedBy g)
      (fun contents seen' => ∃ bytes,
        seen' = { seen with files := (entry.path, bytes) :: seen.files } ∧
          match contents with
          | none => g.maxFileBytes < (bytes.length : Int)
          | some text => Utf8.decode bytes = some text) seen := by
  unfold safeText
  apply informed_tryCatch
  · unfold readText
    apply informed_request
    · exact trivial
    · intro bytes
      by_cases hsize : g.maxFileBytes < (bytes.length : Int)
      · rw [if_pos hsize]
        exact ⟨bytes, rfl, hsize⟩
      · rw [if_neg hsize]
        cases hdecode : Utf8.decode bytes with
        | none => exact trivial
        | some text => exact ⟨bytes, rfl, hdecode⟩
  · intro e seen'
    exact trivial

theorem readEligible_informed (entries : List WorkspaceEntry) (read : DiskRead) (seen : Seen)
    (h : Knows g baseline read.disk seen) :
    (readEligible g.maxFileBytes entries read).Informed seeing (JustifiedBy g)
      (fun read' seen' => Knows g baseline read'.disk seen') seen := by
  induction entries generalizing read seen with
  | nil => exact h
  | cons entry entries ih =>
      apply informed_bind _ _ _ (safeText_informed entry seen)
      intro contents seen' hseen
      obtain ⟨bytes, rfl, hcontents⟩ := hseen
      exact ih _ _ (h.take seen read entry bytes contents hcontents)

section Path

variable {path : String} {r : Reconciled} {seen : Seen}

section

variable (text : String) (file : DiskFile)

theorem writeDisk_informed (h : Going g baseline disk paths r seen)
    (hop : JustifiedBy g (.writeFile path text) seen) :
    (writeDisk g path text r).Informed seeing (JustifiedBy g) (Going g baseline disk paths)
      seen := by
  apply informed_request
  · exact hop
  · intro _
    exact ⟨h.knows.of_same seen _ rfl rfl, h.occupied⟩

theorem writeRemote_informed (h : Going g baseline disk paths r seen)
    (hop : JustifiedBy g (.writeNote path text) seen) :
    (writeRemote g path text r).Informed seeing (JustifiedBy g) (Going g baseline disk paths)
      seen := by
  apply informed_request
  · exact hop
  · intro _
    exact ⟨h.knows.of_same seen _ rfl rfl, h.occupied⟩

/-- Where no file was taken in, none that was read is replaced. -/
theorem writeFile_justified_of_none (h : Knows g baseline disk seen)
    (hnone : disk.lookup path = none) : JustifiedBy g (.writeFile path text) seen := by
  intro old hread hsize
  obtain ⟨file, hfile, -⟩ := h.files path old hread hsize
  rw [hnone] at hfile
  cases hfile

/-- A file that was taken in may be replaced once it is accounted for. -/
theorem writeFile_justified (h : Knows g baseline disk seen)
    (hfile : disk.lookup path = some file)
    (haccounted : Accounted g.sha256 g.unicode seen path file.contents) :
    JustifiedBy g (.writeFile path text) seen := by
  intro old hread hsize
  obtain ⟨file', hfile', hdecode⟩ := h.files path old hread hsize
  rw [hfile, Option.some.injEq] at hfile'
  subst hfile'
  exact ⟨file.contents, hdecode, haccounted⟩

/-- So may a note that was read. -/
theorem writeNote_justified (text remoteContents : String)
    (hread : seen.notes.lookup path = some (some remoteContents))
    (haccounted : Accounted g.sha256 g.unicode seen path remoteContents) :
    JustifiedBy g (.writeNote path text) seen := by
  intro old hold
  simp only [hread, Option.some.injEq] at hold
  exact hold ▸ haccounted

theorem publishFile_informed (h : Going g baseline disk paths r seen)
    (hread : seen.notes.lookup path = some none) :
    (publishFile g path file r).Informed seeing (JustifiedBy g) (Going g baseline disk paths)
      seen := by
  apply informed_request
  · exact trivial
  · intro (tombstoned : Bool)
    cases tombstoned with
    | true => exact ⟨h.knows, h.occupied⟩
    | false =>
        apply writeRemote_informed file.contents h
        intro old hold
        simp only [hread, Option.some.injEq, reduceCtorEq] at hold

/-- The text that loses may be replaced once it is accounted for. -/
theorem replaceLosing_informed (winner : ConflictWinner) (file : DiskFile)
    (remoteContents : String) (h : Going g baseline disk paths r seen)
    (hfile : disk.lookup path = some file)
    (hread : seen.notes.lookup path = some (some remoteContents))
    (haccounted : Accounted g.sha256 g.unicode seen path
      (if decide (winner = .disk) = true then remoteContents else file.contents)) :
    (replaceLosing g path winner file remoteContents r).Informed seeing (JustifiedBy g)
      (Going g baseline disk paths) seen := by
  cases winner with
  | disk =>
      exact writeRemote_informed file.contents h
        (writeNote_justified _ remoteContents hread haccounted)
  | crdt =>
      exact writeDisk_informed remoteContents h
        (writeFile_justified _ file h.knows hfile haccounted)

theorem preserve_informed (winner : ConflictWinner) (file : DiskFile) (remoteContents : String)
    (h : Going g baseline disk paths r seen) (hpath : path ∈ paths)
    (hkeys : ∀ p file, disk.lookup p = some file → p ∈ paths)
    (hfile : disk.lookup path = some file)
    (hread : seen.notes.lookup path = some (some remoteContents)) :
    (preserve g path winner (decide (winner = .disk)) file remoteContents r).Informed seeing
      (JustifiedBy g) (Going g baseline disk paths) seen := by
  unfold preserve
  dsimp only
  cases hfree : freeArtifact g.unicode r.occupiedPaths path
      (if decide (winner = .disk) = true then .remote else .disk) g.now with
  | none => exact trivial
  | some artifact =>
      obtain ⟨hunoccupied, time, hartifact⟩ := freeArtifact_spec _ _ _ _ _ _ hfree
      have hbeside : artifact ≠ path := by
        intro heq
        rw [heq] at hunoccupied
        exact hunoccupied (h.occupied path hpath)
      apply informed_request
      · -- Nothing was taken in where the text is kept.
        apply writeFile_justified_of_none _ h.knows
        by_contra hsome
        obtain ⟨kept, hkept⟩ := Option.ne_none_iff_exists'.mp hsome
        exact hunoccupied (h.occupied artifact (hkeys artifact kept hkept))
      · intro _
        refine replaceLosing_informed winner file remoteContents ?_ hfile ?_ ?_
        · refine ⟨h.knows.of_same seen _ rfl rfl, fun p hp => ?_⟩
          exact List.mem_append_left _ (h.occupied p hp)
        · exact hread
        · rw [hartifact] at hbeside
          exact Or.inr ⟨time, _, hbeside, by rw [← hartifact]; exact List.mem_cons_self⟩

/-- The baseline a decision rests on is the one that was read. -/
theorem atBaseline_of_lookup (h : Knows g baseline disk seen)
    (hlookup : baseline.hashes.lookup path = some (g.sha256 text)) :
    AtBaseline g.sha256 seen path text := by
  rw [AtBaseline, h.baseline, hlookup]

theorem settle_informed (remoteContents : String)
    (h : Going g baseline disk paths r seen) (hpath : path ∈ paths)
    (hkeys : ∀ p file, disk.lookup p = some file → p ∈ paths)
    (hfile : disk.lookup path = some file)
    (hread : seen.notes.lookup path = some (some remoteContents)) :
    (settle g baseline path file remoteContents r).Informed seeing (JustifiedBy g)
      (Going g baseline disk paths) seen := by
  unfold settle
  cases hdecision :
      decideClosedFileConflict (conflictInput g baseline path file remoteContents) with
  | noOp => exact ⟨h.knows, h.occupied⟩
  | applyRemoteToDisk =>
      apply writeDisk_informed remoteContents h
      apply writeFile_justified _ file h.knows hfile
      exact Or.inl (atBaseline_of_lookup _ h.knows (decide_apply _ hdecision))
  | importDiskToCrdt =>
      apply writeRemote_informed file.contents h
      apply writeNote_justified _ remoteContents hread
      exact Or.inl (atBaseline_of_lookup _ h.knows (decide_import _ hdecision))
  | preserveConflict reason winner preserveCrdt preserveDisk policy =>
      have hpreserved := decide_preserve _ _ _ _ _ _ hdecision
      subst hpreserved
      exact preserve_informed winner file remoteContents h hpath hkeys hfile hread

end

theorem reconcilePath_informed (h : Going g baseline disk paths r seen) (hpath : path ∈ paths)
    (hkeys : ∀ p file, disk.lookup p = some file → p ∈ paths) :
    (reconcilePath g baseline path disk r).Informed seeing (JustifiedBy g)
      (Going g baseline disk paths) seen := by
  apply informed_request
  · exact trivial
  · intro (remoteContents : Option String)
    have hgoing : Going g baseline disk paths r
        { seen with notes := (path, remoteContents) :: seen.notes } :=
      ⟨h.knows.of_same seen _ rfl rfl, h.occupied⟩
    have hread : List.lookup path ((path, remoteContents) :: seen.notes) = some remoteContents := by
      simp
    split
    · exact trivial
    · cases hfile : disk.lookup path with
      | none =>
          cases remoteContents with
          | none => exact hgoing
          | some text =>
              exact writeDisk_informed text hgoing
                (writeFile_justified_of_none text hgoing.knows hfile)
      | some file =>
          cases remoteContents with
          | none => exact publishFile_informed file hgoing hread
          | some text => exact settle_informed file text hgoing hpath hkeys hfile hread

end Path

theorem reconcilePaths_informed (todo : List String) (r : Reconciled) (seen : Seen)
    (h : Going g baseline disk paths r seen) (htodo : ∀ path ∈ todo, path ∈ paths)
    (hkeys : ∀ p file, disk.lookup p = some file → p ∈ paths) :
    (reconcilePaths g baseline disk todo r).Informed seeing (JustifiedBy g)
      (Going g baseline disk paths) seen := by
  induction todo generalizing r seen with
  | nil => exact h
  | cons path todo ih =>
      apply informed_bind _ _ _
        (reconcilePath_informed h (htodo path List.mem_cons_self) hkeys)
      intro r' seen' hgoing
      exact ih r' seen' hgoing (fun p hp => htodo p (List.mem_cons_of_mem path hp))

theorem mem_pathsOf (remotePaths : List String) (path : String) (file : DiskFile)
    (h : disk.lookup path = some file) : path ∈ pathsOf g disk remotePaths := by
  have hkey := lookup_keys path file disk h
  simp [pathsOf, distinctOf, List.mem_insertionSort, hkey]

theorem saveBaseline_informed (r : Reconciled) (seen : Seen) :
    (saveBaseline g r).Informed seeing (JustifiedBy g) (fun _ _ => True) seen := by
  have hsave : ∀ (durable : Bool) (seen : Seen),
      (if durable = true then do
          request (.writeState { savedAt := Decimal.ofNat g.now, hashes := r.nextHashes })
          return durable
        else throw .remoteReceiptUnconfirmed : FolderCalls Bool).Informed seeing (JustifiedBy g)
        (fun _ _ => True) seen := by
    intro durable seen
    cases durable with
    | true => exact informed_request _ _ _ trivial (fun _ => trivial)
    | false => exact trivial
  by_cases hnone : r.remoteWrites = 0
  · simp only [saveBaseline, hnone, if_true]
    exact hsave true seen
  · simp only [saveBaseline, hnone, if_false]
    exact informed_request _ _ _ trivial (fun (durable : Bool) => hsave durable _)

theorem reconcileSettled_informed (seen : Seen) (hblank : seen.files = []) :
    (reconcileSettled g).Informed seeing (JustifiedBy g) (fun _ _ => True) seen := by
  apply informed_request
  · exact trivial
  intro (stored : Option StoredBaseline)
  apply informed_request
  · exact trivial
  intro (entries : List WorkspaceEntry)
  -- Nothing is read so far, so that the run goes by the baseline alone.
  have hknows : Knows g (readBaseline stored) [] { seen with baseline := readBaseline stored } := by
    refine ⟨rfl, fun path old hread _ => ?_⟩
    simp only [hblank, List.lookup_nil, reduceCtorEq] at hread
  apply informed_bind _ _ _ (readEligible_informed _ _ _ hknows)
  intro read seen' hread
  apply informed_request
  · exact trivial
  intro (listed : List String)
  cases hpaths : listed.mapM (validateMarkdownPath g.unicode) with
  | error e => exact trivial
  | ok remotePaths =>
      have hgoing : Going g (readBaseline stored) read.disk (pathsOf g read.disk remotePaths)
          { occupiedPaths := pathsOf g read.disk remotePaths, nextHashes := [], conflicts := []
            diskWrites := 0, remoteWrites := 0 } seen' :=
        ⟨hread, fun path hpath => hpath⟩
      apply informed_bind _ _ _ (reconcilePaths_informed _ _ _ hgoing (fun path hpath => hpath)
        (fun path file hfile => mem_pathsOf remotePaths path file hfile))
      intro r _ _
      apply informed_bind _ _ _ (saveBaseline_informed r _)
      intro _ _ _
      exact trivial

end Run

/-! ## Runs of many -/

/-- The ceiling of a run. -/
def FolderRequest.ceiling : FolderRequest → Int
  | reconcile _ maxFileBytes => maxFileBytes
  | editFile _ _ => 0
  | editNote _ _ => 0

section Runs

variable {ι : Type} [DecidableEq ι] (sha256 : String → String) (u : UnicodeTables)
  (requests : ι → FolderRequest) (s : FolderWorld)

/-- Each operation of a run is justified by what it has read and written. -/
theorem reconcile_informed (r : FolderRequest) :
    (r.run sha256 u).Informed seeing (Justified sha256 u r.ceiling) (fun _ _ => True)
      Seen.blank := by
  cases r with
  | editFile path contents => exact informed_request _ _ _ trivial (fun _ => trivial)
  | editNote path contents => exact informed_request _ _ _ trivial (fun _ => trivial)
  | reconcile now maxFileBytes =>
      refine informed_bind (T := fun _ _ => True) _ _ _ ?_ (fun _ _ _ => trivial)
      unfold reconcileFolder
      split
      · exact trivial
      · split
        · exact trivial
        · have hinformed := reconcileSettled_informed (g := {
            sha256 := sha256, unicode := u, now := now.toNat, maxFileBytes := maxFileBytes })
            Seen.blank rfl
          exact hinformed

abbrev FolderPool (ι : Type) :=
  Process.Pool ι FolderOp (fun op => Except ReconcileError op.Ret) FolderWorld ReconcileError
    (Option FolderReconciliationResult)

/-- Runs and edits are about to begin. -/
def folder : FolderPool ι :=
  { shared := s, calls := fun i => (requests i).run sha256 u }

abbrev WatchedFolder (ι : Type) :=
  Process.Pool ι FolderOp (fun op => Except ReconcileError op.Ret) (FolderWorld × (ι → Seen))
    ReconcileError (Option FolderReconciliationResult)

/-- Somebody takes the next operation, or is cut off. -/
abbrev folderStep : WatchedFolder ι → ι × Option FolderOutside → WatchedFolder ι :=
  Process.Watched.step FolderOp.exec seeing Seen.blank .terminated

/-- Runs and edits after a schedule, with what each has seen. -/
abbrev reconciled (es : List (ι × Option FolderOutside)) : WatchedFolder ι :=
  Run.runFrom folderStep (watch Seen.blank (folder sha256 u requests s)) es

/-- What the next operation replaces, if it takes effect, is not lost. -/
def Preserving (c : WatchedFolder ι) : ι × Option FolderOutside → Prop
  | (i, some w) => w.outcome ≠ .refused →
      ∀ op ∈ c.next i, Preserves sha256 u c.shared.1 (c.shared.2 i) op
  | (_, none) => True

/-- What the next operation replaces, if it takes effect, is what its run has read. -/
def Attentive (c : WatchedFolder ι) : ι × Option FolderOutside → Prop
  | (i, some w) => w.outcome ≠ .refused →
      ∀ op ∈ c.next i,
        Undisturbed sha256 (requests i).ceiling c.shared.1 (c.shared.2 i) op
  | (_, none) => True

theorem informed_step (c : WatchedFolder ι) (e : ι × Option FolderOutside)
    (hc : ∀ i, (c.calls i).Informed seeing (Justified sha256 u (requests i).ceiling)
      (fun _ _ => True) (c.shared.2 i)) (i : ι) :
    ((folderStep c e).calls i).Informed seeing (Justified sha256 u (requests i).ceiling)
      (fun _ _ => True) ((folderStep c e).shared.2 i) :=
  Process.Watched.step_informed c e i (hc i)

omit [DecidableEq ι] in
/-- A step loses nothing if what it replaces is what its run has read. -/
theorem preserving_of_attentive (c : WatchedFolder ι) (e : ι × Option FolderOutside)
    (hc : ∀ i, (c.calls i).Informed seeing (Justified sha256 u (requests i).ceiling)
      (fun _ _ => True) (c.shared.2 i)) (he : Attentive sha256 requests c e) :
    Preserving sha256 u c e := by
  obtain ⟨i, _ | w⟩ := e
  · exact trivial
  · intro hw op hop
    exact preserves_of_undisturbed sha256 u _ _ _ op
      (Process.Watched.next_informed c i op (hc i) hop) (he hw op hop)

/-- In every run of reconciliations and edits in which each write of a reconciliation finds
    what the reconciliation has read there, nothing that it replaces is lost. -/
theorem preserved_of_run (es : List (ι × Option FolderOutside))
    (hes : Run.Along (Attentive sha256 requests) folderStep
      (watch Seen.blank (folder sha256 u requests s)) es) :
    Run.Along (Preserving sha256 u) folderStep
      (watch Seen.blank (folder sha256 u requests s)) es := by
  refine Run.along_of_invariant folderStep
    (fun c => ∀ i, (c.calls i).Informed seeing (Justified sha256 u (requests i).ceiling)
      (fun _ _ => True) (c.shared.2 i)) ?_ _ es ?_ hes
  · intro c e hc he
    constructor
    · exact preserving_of_attentive sha256 u requests c e hc he
    · exact informed_step sha256 u requests c e hc
  · intro i
    exact reconcile_informed sha256 u (requests i)

instance decidableUndisturbed (maxFileBytes : Int) (s : FolderWorld) (seen : Seen) :
    (op : FolderOp) → Decidable (Undisturbed sha256 maxFileBytes s seen op)
  | .writeFile path contents => inferInstanceAs (Decidable (∀ old ∈ s.disk.lookup path,
      Utf8.decode old = Utf8.decode (Utf8.encode contents) ∨
        (∃ text ∈ Utf8.decode old, seen.baseline.hashes.lookup path = some (sha256 text)) ∨
        ((old.length : Int) ≤ maxFileBytes ∧ seen.files.lookup path = some old)))
  | .writeNote path contents => inferInstanceAs (Decidable (∀ old ∈ s.notes.lookup path,
      old = contents ∨ seen.baseline.hashes.lookup path = some (sha256 old) ∨
        seen.notes.lookup path = some (some old)))
  | .readState | .listMarkdown | .readFile _ | .listPaths | .readNote _ | .isTombstoned _
  | .confirmDurable | .writeState _ | .editFile _ _ | .editNote _ _ => isTrue trivial

instance decidableAttentive (c : WatchedFolder ι) :
    (e : ι × Option FolderOutside) → Decidable (Attentive sha256 requests c e)
  | (i, some w) => inferInstanceAs (Decidable (w.outcome ≠ .refused → ∀ op ∈ c.next i,
      Undisturbed sha256 (requests i).ceiling c.shared.1 (c.shared.2 i) op))
  | (_, none) => isTrue trivial

end Runs

/-! ## An edit that is lost -/

/-- The hashes of three texts. -/
def sampleSha256 (text : String) : String :=
  if text = "old" then "cba06b5736faf67e54b07b561eae94395e774c517a7d910a54369e1263ccfbd4"
  else if text = "mine" then "3fd30542fe3f61b14bd4a4b2dc0b6fb30fa6f63ebce52dd1778aaa8c4dc02cff"
  else if text = "theirs" then "4c55a8552a2c7261f61f798c2265e6f13358f326ae5b934096ff16bd15e62c33"
  else ""

/-- A run, and a user who edits a file. -/
def sampleRequests : Fin 2 → FolderRequest
  | 0 => .reconcile 1000 100
  | 1 => .editFile "n.md" (some (Utf8.encode "mine"))

/-- Another device has edited the note since the last run. -/
def sampleFolder : FolderWorld :=
  { baseline := some {
      version := some 1
      savedAt := some Decimal.zero
      hashes := some [("n.md", some (sampleSha256 "old"))] }
    disk := [("n.md", Utf8.encode "old")]
    notes := [("n.md", "theirs")]
    tombstones := [] }

def sampleEntry : WorkspaceEntry :=
  { path := "n.md", kind := .file, size := some 3, mtimeMs := none }

def sampleAnswer : Option FolderOutside :=
  some { outcome := .answered, listing := [sampleEntry], durable := true }

/-- So many operations of the run. -/
def sampleSteps (count : Nat) : List (Fin 2 × Option FolderOutside) :=
  List.replicate count (0, sampleAnswer)

/-- The user edits the file after the run has read it. -/
def overtaken : WatchedFolder (Fin 2) :=
  reconciled sampleSha256 .plain sampleRequests sampleFolder
    (sampleSteps 3 ++ (1, sampleAnswer) :: sampleSteps 2)

/-- The file is about to be replaced by what the other device wrote. What the user wrote is
    not the text that was saved, and is kept nowhere. -/
theorem edit_lost :
    ¬ Run.Along (Preserving sampleSha256 .plain) folderStep
      (watch Seen.blank (folder sampleSha256 .plain sampleRequests sampleFolder))
      (sampleSteps 3 ++ (1, sampleAnswer) :: sampleSteps 2 ++ sampleSteps 1) := by
  intro h
  have hstep : Preserving sampleSha256 .plain overtaken (0, sampleAnswer) :=
    ((Run.along_append _ _ _ _ _).mp h).2.1
  have hnext : overtaken.next 0 = some (.writeFile "n.md" "theirs") := by decide +kernel
  have hold : overtaken.shared.1.disk.lookup "n.md" = some (Utf8.encode "mine") := by
    decide +kernel
  have hwritten : (overtaken.shared.2 0).written = [] := by decide +kernel
  have hbaseline : (overtaken.shared.2 0).baseline.hashes.lookup "n.md" ≠
      some (sampleSha256 "mine") := by decide +kernel
  have hdecode : Utf8.decode (Utf8.encode "mine") = some "mine" := by decide +kernel
  have hdiffers : Utf8.decode (Utf8.encode "mine") ≠ Utf8.decode (Utf8.encode "theirs") := by
    decide +kernel
  rcases hstep (by decide) _ hnext _ hold with hsame | ⟨text, htext, hsaved | ⟨time, side, -, hkept⟩⟩
  · exact hdiffers hsame
  · rw [hdecode, Option.some.injEq] at htext
    subst htext
    exact hbaseline hsaved
  · rw [hwritten] at hkept
    cases hkept

/-- The user edits the file before the run reads it, and both texts are kept. -/
theorem edit_kept :
    Run.Along (Preserving sampleSha256 .plain) folderStep
      (watch Seen.blank (folder sampleSha256 .plain sampleRequests sampleFolder))
      ((1, sampleAnswer) :: sampleSteps 10) :=
  preserved_of_run sampleSha256 .plain sampleRequests sampleFolder _ (by decide +kernel)

example : (reconciled sampleSha256 .plain sampleRequests sampleFolder
    ((1, sampleAnswer) :: sampleSteps 10)).result 0 = some (.ok (some {
      conflicts := ["n (MDevolved conflict remote 1970-01-01T00-00-01-000Z).md"]
      diskWrites := 1
      remoteWrites := 1
      skippedOversize := []
      durable := true })) := by decide +kernel

end Mdevolved.Source
