import Mdevolved.Lib.Workers
import Mdevolved.Source.Core

/-!
# Scans With Several Readers

A scan of a source that stays as it is. The listing is one traversal: directories wait in a
queue, and each of them is listed in its turn, so `Traversed` says in which order entries
come. What makes a listing fail is a matter of all the entries together, and `listing_iff`
says what that is: too many of them, a path that is not portable or too deep, a link, or two
paths with one lower case.

The files that were listed are read by several workers, which share the next index and the
number of bytes. The order in which reads end is up to the schedule. `scan_exact` says that
it makes no difference: a scan comes to an end, it succeeds exactly where the source can be
scanned, and what it returns is told by the source.

## Main definitions

* `Workspace`: What the files port answers.
* `Traversed`: The entries in the order they are listed.
* `Admitted`: Entries that a listing takes.
* `readEntry`, `readerJob`: What a reader does with a file.
* `scanMarkdownUnder`: A scan under a schedule.

## Theorems

* `listing_iff`: What a listing returns.
* `listed_within`: The paths a listing never returns.
* `scan_exact`: A scan under any schedule.
* `scan_refuses`: A link fails a scan within the ceilings.
-/

namespace Mdevolved.Source

open Vault (UnicodeTables isLineTerminator)

/-- A source as the files port answers, where it does: what directories hold, and what is in
    files. -/
structure Workspace where
  list : String → Option (List WorkspaceEntry)
  read : String → Option (List UInt8)

/-- The answer of the port to what a scan asks for. It asks for nothing else. -/
def Workspace.answer (w : Workspace) : (access : FileAccess) → Except CoreError access.Ret
  | .list directory =>
      match w.list directory with
      | none => .error .port
      | some listed => .ok listed
  | .read path =>
      match w.read path with
      | none => .error .port
      | some contents => .ok contents
  | .stat _ => .error .port
  | .write _ _ => .error .port

def Workspace.exec (w : Workspace) (op : CoreOp Empty) (_ : Unit) (_ : Unit) :
    Except CoreError op.Ret × Unit :=
  match op with
  | .files access => (w.answer access, ())
  | .sync _ _ | .readState | .writeState _ | .getCredential | .revokeCredential
  | .confirmReplacement _ | .emit _ => (.error .port, ())

/-- A function by itself over a source. -/
def Workspace.run {α : Type} (w : Workspace) (p : CoreCalls Empty α) : Except CoreError α :=
  (p.finish w.exec (fun _ => ()) ()).1

theorem Workspace.run_pure {α : Type} (w : Workspace) (a : α) :
    w.run (pure a : CoreCalls Empty α) = .ok a := rfl

theorem Workspace.run_bind {α β : Type} (w : Workspace) (p : CoreCalls Empty α)
    (f : α → CoreCalls Empty β) :
    w.run (p >>= f) = match w.run p with
      | .ok a => w.run (f a)
      | .error e => .error e := by
  induction p with
  | done r => cases r <;> rfl
  | call op next ih => exact ih _

theorem Workspace.run_scanning {α : Type} (w : Workspace) (r : Except SourceScanError α) :
    w.run (scanning r : CoreCalls Empty α) = r.mapError CoreError.scan := rfl

theorem Workspace.run_list (w : Workspace) (directory : String) :
    w.run (access (.list directory)) = w.answer (.list directory) := rfl

/-! ## Listings -/

/-- A directory that is listed in its turn. -/
def entered (e : WorkspaceEntry) : Bool :=
  e.kind = .directory && !shouldExclude e.path .directory

/-- A file that is listed. -/
def kept (e : WorkspaceEntry) : Bool :=
  e.kind = .file && !shouldExclude e.path .file

/-- The entries of the directories that wait, and of those found in them. -/
inductive Traversed (w : Workspace) : List String → List WorkspaceEntry → Prop
  | done : Traversed w [] []
  | next (directory : String) (waiting : List String) (listed rest : List WorkspaceEntry)
      (hlist : w.list directory = some listed)
      (hrest : Traversed w (waiting ++ (listed.filter entered).map WorkspaceEntry.path) rest) :
      Traversed w (directory :: waiting) (listed ++ rest)

section

variable (w : Workspace) (u : UnicodeTables) (options : MarkdownScanOptions) (listing : Listing)

theorem traversed_nil (all : List WorkspaceEntry) :
    Traversed w [] all ↔ all = [] := by
  constructor
  · intro h
    cases h
    rfl
  · intro h
    rw [h]
    exact Traversed.done

theorem traversed_cons (directory : String) (waiting : List String)
    (all : List WorkspaceEntry) : Traversed w (directory :: waiting) all ↔
      ∃ listed rest, w.list directory = some listed ∧
        Traversed w (waiting ++ (listed.filter entered).map WorkspaceEntry.path) rest ∧
        all = listed ++ rest := by
  constructor
  · intro h
    cases h with
    | next _ _ listed rest hlist hrest => exact ⟨listed, rest, hlist, hrest, rfl⟩
  · rintro ⟨listed, rest, hlist, hrest, rfl⟩
    exact Traversed.next directory waiting listed rest hlist hrest

/-- The entries do not depend on anything but the source. -/
theorem traversed_unique (waiting : List String)
    (all all' : List WorkspaceEntry) (h : Traversed w waiting all) (h' : Traversed w waiting all') :
    all = all' := by
  induction h generalizing all' with
  | done => exact ((traversed_nil w all').mp h').symm
  | next directory waiting listed rest hlist _ ih =>
      obtain ⟨listed', rest', hlist', hrest', rfl⟩ := (traversed_cons w _ _ _).mp h'
      rw [hlist, Option.some.injEq] at hlist'
      subst hlist'
      rw [ih rest' hrest']

/-- An entry that a listing takes by itself. -/
def Portable (u : UnicodeTables) (options : MarkdownScanOptions) (e : WorkspaceEntry) : Prop :=
  validateRelativePath u e.path = .ok e.path ∧ (depth e.path : Int) ≤ options.maxDepth ∧
    e.kind ≠ .symlink

/-- Entries that a listing takes after what it has seen. -/
structure Admits (u : UnicodeTables) (options : MarkdownScanOptions) (listing : Listing)
    (listed : List WorkspaceEntry) : Prop where
  count : (listing.scannedEntryCount + listed.length : Int) ≤ options.maxEntries
  portable : ∀ e ∈ listed, Portable u options e
  distinct : (listed.map (fun e => u.toLowerCase e.path)).Nodup
  fresh : ∀ e ∈ listed, u.toLowerCase e.path ∉ listing.seen.map Prod.fst

/-- A listing with further entries. -/
def Listing.with (u : UnicodeTables) (listing : Listing) (listed : List WorkspaceEntry) : Listing :=
  { directories := listing.directories ++ (listed.filter entered).map WorkspaceEntry.path
    entries := listing.entries ++ listed.filter kept
    seen := listed.foldl (fun seen e => (u.toLowerCase e.path, e.path) :: seen) listing.seen
    scannedEntryCount := listing.scannedEntryCount + listed.length }

theorem Listing.with_nil : listing.with u [] = listing := by
  simp [Listing.with]

theorem Listing.with_append (listed rest : List WorkspaceEntry) :
    listing.with u (listed ++ rest) = (listing.with u listed).with u rest := by
  simp [Listing.with, Nat.add_assoc]

theorem mem_seen_with (listed : List WorkspaceEntry)
    (key : String) : key ∈ (listing.with u listed).seen.map Prod.fst ↔
      key ∈ listed.map (fun e => u.toLowerCase e.path) ∨ key ∈ listing.seen.map Prod.fst := by
  unfold Listing.with
  dsimp only
  generalize listing.seen = seen
  induction listed generalizing seen with
  | nil => simp
  | cons e listed ih =>
      rw [List.foldl_cons, ih, List.map_cons, List.map_cons, List.mem_cons, List.mem_cons]
      constructor
      · rintro (h | h | h)
        · exact Or.inl (Or.inr h)
        · exact Or.inl (Or.inl h)
        · exact Or.inr h
      · rintro ((h | h) | h)
        · exact Or.inr (Or.inl h)
        · exact Or.inl h
        · exact Or.inr (Or.inr h)

theorem admits_nil (hcount : (listing.scannedEntryCount : Int) ≤ options.maxEntries) :
    Admits u options listing [] := by
  refine ⟨by simpa using hcount, ?_, List.nodup_nil, ?_⟩ <;>
    exact fun e he => absurd he List.not_mem_nil

/-- Entries are taken one part after the other. -/
theorem admits_append (listed rest : List WorkspaceEntry) : Admits u options listing (listed ++ rest) ↔
      Admits u options listing listed ∧ Admits u options (listing.with u listed) rest := by
  constructor
  · intro h
    have hcount := h.count
    rw [List.length_append, Nat.cast_add] at hcount
    have hdistinct := h.distinct
    rw [List.map_append, List.nodup_append'] at hdistinct
    refine ⟨⟨by omega, fun e he => h.portable e (List.mem_append_left rest he), hdistinct.1,
      fun e he => h.fresh e (List.mem_append_left rest he)⟩,
      ⟨?_, fun e he => h.portable e (List.mem_append_right listed he), hdistinct.2.1,
        fun e he hseen => ?_⟩⟩
    · simp only [Listing.with, Nat.cast_add]
      omega
    · rcases (mem_seen_with u listing listed _).mp hseen with hin | hold
      · exact hdistinct.2.2 hin (List.mem_map_of_mem he)
      · exact h.fresh e (List.mem_append_right listed he) hold
  · rintro ⟨h, hrest⟩
    have hcount := hrest.count
    simp only [Listing.with, Nat.cast_add] at hcount
    refine ⟨by rw [List.length_append, Nat.cast_add]; omega, fun e he => ?_, ?_, fun e he => ?_⟩
    · exact (List.mem_append.mp he).elim (h.portable e) (hrest.portable e)
    · rw [List.map_append, List.nodup_append']
      refine ⟨h.distinct, hrest.distinct, fun key hin hin' => ?_⟩
      obtain ⟨e, he, rfl⟩ := List.mem_map.mp hin'
      exact hrest.fresh e he ((mem_seen_with u listing listed _).mpr (Or.inl hin))
    · rcases List.mem_append.mp he with hin | hin
      · exact h.fresh e hin
      · intro hseen
        exact hrest.fresh e hin ((mem_seen_with u listing listed _).mpr (Or.inr hseen))

/-- A path is returned as it was. -/
theorem validateRelativePath_ok (path path' : String)
    (h : validateRelativePath u path = .ok path') : path' = path := by
  unfold validateRelativePath at h
  dsimp only at h
  repeat' split at h
  all_goals first | cases h; done | exact (Except.ok.inj h).symm

theorem admits_singleton (e : WorkspaceEntry) : Admits u options listing [e] ↔
      (listing.scannedEntryCount + 1 : Int) ≤ options.maxEntries ∧ Portable u options e ∧
        u.toLowerCase e.path ∉ listing.seen.map Prod.fst := by
  constructor
  · intro h
    have hcount := h.count
    simp only [List.length_singleton, Nat.cast_one] at hcount
    exact ⟨hcount, h.portable e (List.mem_singleton_self e),
      h.fresh e (List.mem_singleton_self e)⟩
  · rintro ⟨hcount, hportable, hfresh⟩
    refine ⟨by simpa using hcount, fun e' he' => ?_, by simp, fun e' he' => ?_⟩
    · rwa [List.mem_singleton.mp he']
    · rwa [List.mem_singleton.mp he']

/-- Where an entry goes that is no link. -/
theorem place_iff (u : UnicodeTables) (listing listing' : Listing) (e : WorkspaceEntry) :
    ({ listing with
        scannedEntryCount := listing.scannedEntryCount + 1
        seen := (u.toLowerCase e.path, e.path) :: listing.seen : Listing }).place e e.path =
      .ok listing' ↔ e.kind ≠ .symlink ∧ listing' = listing.with u [e] := by
  obtain ⟨path, kind, size, mtimeMs⟩ := e
  unfold Listing.place
  cases kind with
  | symlink => simp
  | directory =>
      cases hexcluded : shouldExclude path .directory with
      | true => simp [Listing.with, entered, kept, hexcluded, eq_comm]
      | false => simp [Listing.with, entered, kept, hexcluded, eq_comm]
  | file =>
      cases hexcluded : shouldExclude path .file with
      | true => simp [Listing.with, entered, kept, hexcluded, eq_comm]
      | false => simp [Listing.with, entered, kept, hexcluded, eq_comm]

theorem lookup_isSome (seen : List (String × String)) (key : String)
    (h : (seen.lookup key).isSome = true) : key ∈ seen.map Prod.fst := by
  induction seen with
  | nil => cases h
  | cons p seen ih =>
      rw [List.lookup_cons] at h
      rw [List.map_cons, List.mem_cons]
      by_cases hkey : key = p.1
      · exact Or.inl hkey
      · rw [beq_false_of_ne hkey] at h
        exact Or.inr (ih h)

theorem lookup_of_mem (seen : List (String × String)) (key : String)
    (h : key ∈ seen.map Prod.fst) : (seen.lookup key).isSome = true := by
  induction seen with
  | nil => exact absurd h List.not_mem_nil
  | cons p seen ih =>
      rw [List.lookup_cons]
      by_cases hkey : key = p.1
      · rw [beq_iff_eq.mpr hkey]
        rfl
      · rw [beq_false_of_ne hkey]
        rw [List.map_cons, List.mem_cons] at h
        exact ih (h.resolve_left hkey)

/-- Taking in one entry. -/
theorem admitEntry_iff (listing listing' : Listing) (e : WorkspaceEntry) :
    admitEntry u options listing e = .ok listing' ↔
      Admits u options listing [e] ∧ listing' = listing.with u [e] := by
  rw [admits_singleton]
  unfold admitEntry
  dsimp only
  by_cases hcount : options.maxEntries < ((listing.scannedEntryCount + 1 : ℕ) : Int)
  · rw [if_pos hcount]
    constructor
    · intro h
      cases h
    · rintro ⟨⟨hle, -⟩, -⟩
      push_cast at hcount
      omega
  rw [if_neg hcount]
  cases hvalid : validateRelativePath u e.path with
  | error error =>
      constructor
      · intro h
        cases h
      · rintro ⟨⟨-, ⟨hok, -⟩, -⟩, -⟩
        rw [hvalid] at hok
        cases hok
  | ok path =>
      obtain rfl := validateRelativePath_ok u e.path path hvalid
      dsimp only
      cases hseen : listing.seen.lookup (u.toLowerCase e.path) with
      | some previous =>
          constructor
          · intro h
            cases h
          · rintro ⟨⟨-, -, hfresh⟩, -⟩
            have hmem := lookup_isSome listing.seen (u.toLowerCase e.path) (by rw [hseen]; rfl)
            exact absurd hmem hfresh
      | none =>
          have hfresh : u.toLowerCase e.path ∉ listing.seen.map Prod.fst := by
            intro hmem
            have hsome := lookup_of_mem listing.seen (u.toLowerCase e.path) hmem
            rw [hseen] at hsome
            cases hsome
          dsimp only
          by_cases hdepth : options.maxDepth < (depth e.path : Int)
          · rw [if_pos hdepth]
            constructor
            · intro h
              cases h
            · rintro ⟨⟨-, ⟨-, hle, -⟩, -⟩, -⟩
              omega
          · rw [if_neg hdepth, place_iff]
            push_cast at hcount
            constructor
            · rintro ⟨hkind, heq⟩
              exact ⟨⟨by omega, ⟨hvalid, by omega, hkind⟩, hfresh⟩, heq⟩
            · rintro ⟨⟨-, ⟨-, -, hkind⟩, -⟩, heq⟩
              exact ⟨hkind, heq⟩

/-- Taking in what a directory holds. -/
theorem admitListed_iff (listing listing' : Listing) (listed : List WorkspaceEntry)
    (hcount : (listing.scannedEntryCount : Int) ≤ options.maxEntries) :
    admitListed u options listing listed = .ok listing' ↔
      Admits u options listing listed ∧ listing' = listing.with u listed := by
  induction listed generalizing listing with
  | nil =>
      rw [Listing.with_nil]
      constructor
      · intro h
        exact ⟨admits_nil u options listing hcount, (Except.ok.inj h).symm⟩
      · rintro ⟨-, rfl⟩
        rfl
  | cons e listed ih =>
      rw [← List.singleton_append, admits_append, Listing.with_append, List.singleton_append,
        admitListed, List.foldlM_cons]
      cases hentry : admitEntry u options listing e with
      | error error =>
          constructor
          · intro h
            cases h
          · rintro ⟨⟨hfirst, -⟩, -⟩
            rw [(admitEntry_iff u options listing _ e).mpr ⟨hfirst, rfl⟩] at hentry
            cases hentry
      | ok taken =>
          obtain ⟨hfirst, rfl⟩ := (admitEntry_iff u options listing taken e).mp hentry
          have hnext := ih (listing.with u [e]) (by
            have hcount := ((admits_singleton u options listing e).mp hfirst).1
            simpa [Listing.with] using hcount)
          rw [admitListed] at hnext
          constructor
          · intro h
            obtain ⟨hrest, heq⟩ := hnext.mp h
            exact ⟨⟨hfirst, hrest⟩, heq⟩
          · rintro ⟨⟨-, hrest⟩, heq⟩
            exact hnext.mpr ⟨hrest, heq⟩

/-- What waits does not matter to what is taken. -/
theorem admits_directories (directories : List String) (listed : List WorkspaceEntry) :
    Admits u options { listing with directories := directories } listed ↔
      Admits u options listing listed :=
  ⟨fun h => ⟨h.count, h.portable, h.distinct, h.fresh⟩,
    fun h => ⟨h.count, h.portable, h.distinct, h.fresh⟩⟩

/-- Where no directory waits, nothing more is traversed. -/
theorem emptied_iff (listing listing' : Listing)
    (hcount : (listing.scannedEntryCount : Int) ≤ options.maxEntries)
    (hnone : listing.directories = []) :
    (Except.ok listing : Except CoreError Listing) = .ok listing' ↔
      ∃ all, Traversed w listing.directories all ∧ Admits u options listing all ∧
        listing' = { listing.with u all with directories := [] } := by
  rw [hnone]
  simp only [traversed_nil]
  constructor
  · intro h
    refine ⟨[], rfl, admits_nil u options listing hcount, ?_⟩
    rw [Listing.with_nil, ← Except.ok.inj h, ← hnone]
  · rintro ⟨all, rfl, -, rfl⟩
    rw [Listing.with_nil, ← hnone]

/-- The first directory that waits is listed. -/
theorem run_listFrom (fuel : ℕ) (listing : Listing) (directory : String) (waiting : List String)
    (h : listing.directories = directory :: waiting) :
    w.run (listFrom u options (fuel + 1) listing) =
      match w.list directory with
      | none => .error .port
      | some listed =>
          match admitListed u options { listing with directories := waiting } listed with
          | .error error => .error (.scan error)
          | .ok taken => w.run (listFrom u options fuel taken) := by
  rw [listFrom, h]
  refine (Workspace.run_bind w (access (.list directory)) _).trans ?_
  rw [Workspace.run_list, Workspace.answer]
  cases w.list directory with
  | none => rfl
  | some listed =>
      refine (Workspace.run_bind w (scanning _) _).trans ?_
      rw [Workspace.run_scanning]
      dsimp only
      cases admitListed u options { listing with directories := waiting } listed with
      | error error => rfl
      | ok taken => rfl

/-- The queue of a listing runs empty, and it has taken all that was traversed. -/
theorem listFrom_iff (fuel : ℕ) (listing listing' : Listing)
    (hcount : (listing.scannedEntryCount : Int) ≤ options.maxEntries)
    (hfuel : listing.remaining options ≤ fuel) :
    w.run (listFrom u options fuel listing) = .ok listing' ↔
      ∃ all, Traversed w listing.directories all ∧ Admits u options listing all ∧
        listing' = { listing.with u all with directories := [] } := by
  induction fuel generalizing listing with
  | zero =>
      have hnone : listing.directories = [] := by
        unfold Listing.remaining at hfuel
        exact List.length_eq_zero_iff.mp (by omega)
      rw [listFrom, Workspace.run_pure]
      exact emptied_iff w u options listing listing' hcount hnone
  | succ fuel ih =>
      cases hdirectories : listing.directories with
      | nil =>
          have hend := emptied_iff w u options listing listing' hcount hdirectories
          rw [hdirectories] at hend
          rw [listFrom, hdirectories]
          exact hend
      | cons directory waiting =>
          rw [run_listFrom w u options fuel listing directory waiting hdirectories]
          simp only [traversed_cons]
          cases hlist : w.list directory with
          | none =>
              constructor
              · intro h
                cases h
              · rintro ⟨all, ⟨listed, rest, hsome, -⟩, -⟩
                cases hsome
          | some listed =>
              dsimp only
              have hadmits := fun taken => admitListed_iff u options
                { listing with directories := waiting } taken listed hcount
              cases hlisted : admitListed u options { listing with directories := waiting }
                  listed with
              | error error =>
                  constructor
                  · intro h
                    cases h
                  · rintro ⟨all, ⟨listed', rest, hsame, -, rfl⟩, hall, -⟩
                    rw [Option.some.injEq] at hsame
                    subst hsame
                    have hfirst := ((admits_append u options listing listed rest).mp hall).1
                    rw [(hadmits _).mpr ⟨(admits_directories u options listing waiting listed).mpr
                      hfirst, rfl⟩] at hlisted
                    cases hlisted
              | ok taken =>
                  obtain ⟨hfirst, rfl⟩ := (hadmits taken).mp hlisted
                  rw [admits_directories] at hfirst
                  -- The directory that was listed waits no more, and what it added was counted.
                  have hremaining := admitListed_remaining u options _ _ listed hlisted
                  have hless : Listing.remaining options
                      (Listing.with u { listing with directories := waiting } listed) ≤ fuel := by
                    unfold Listing.remaining at hfuel hremaining ⊢
                    rw [hdirectories, List.length_cons] at hfuel
                    dsimp only at hremaining ⊢
                    omega
                  have htaken : ((Listing.with u { listing with directories := waiting }
                      listed).scannedEntryCount : Int) ≤ options.maxEntries := by
                    have := hfirst.count
                    simpa [Listing.with] using this
                  dsimp only
                  rw [ih _ htaken hless]
                  constructor
                  · rintro ⟨rest, hrest, hadmits, heq⟩
                    refine ⟨listed ++ rest, ⟨listed, rest, rfl, hrest, rfl⟩,
                      (admits_append u options listing listed rest).mpr ⟨hfirst, ?_⟩, ?_⟩
                    · exact (admits_directories u options (listing.with u listed) _ rest).mp hadmits
                    · rw [heq, Listing.with_append]
                      rfl
                  · rintro ⟨all, ⟨listed', rest, hsame, hrest, rfl⟩, hall, heq⟩
                    rw [Option.some.injEq] at hsame
                    subst hsame
                    have hafter := ((admits_append u options listing listed rest).mp hall).2
                    refine ⟨rest, hrest,
                      (admits_directories u options (listing.with u listed) _ rest).mpr hafter, ?_⟩
                    rw [heq, Listing.with_append]
                    rfl

/-- Entries that a listing takes: no more of them than the ceilings, and none that is not
    portable, is a link or has the lower case of another one. -/
structure Admitted (u : UnicodeTables) (options : MarkdownScanOptions)
    (all : List WorkspaceEntry) : Prop where
  count : (all.length : Int) ≤ options.maxEntries
  portable : ∀ e ∈ all, Portable u options e
  distinct : (all.map (fun e => u.toLowerCase e.path)).Nodup
  files : ((all.filter kept).length : Int) ≤ options.maxFiles

theorem admits_start (all : List WorkspaceEntry) : Admits u options .start all ↔
      (all.length : Int) ≤ options.maxEntries ∧ (∀ e ∈ all, Portable u options e) ∧
        (all.map (fun e => u.toLowerCase e.path)).Nodup := by
  constructor
  · intro h
    have hcount := h.count
    simp only [Listing.start, Nat.cast_zero, zero_add] at hcount
    exact ⟨hcount, h.portable, h.distinct⟩
  · rintro ⟨hcount, hportable, hdistinct⟩
    refine ⟨by simpa [Listing.start] using hcount, hportable, hdistinct, fun e _ => ?_⟩
    exact List.not_mem_nil

/-- Files in the order of their paths. -/
def inOrder (u : UnicodeTables) (files : List WorkspaceEntry) : List WorkspaceEntry :=
  files.insertionSort (fun left right => u.localeLe left.path right.path = true)

/-- A listing returns the files that were traversed, in order, where the entries are
    admitted. -/
theorem listing_iff (hmax : 0 ≤ options.maxEntries) (entries : List WorkspaceEntry) :
    w.run (listWith u options) = .ok entries ↔
      ∃ all, Traversed w [""] all ∧ Admitted u options all ∧
        entries = inOrder u (all.filter kept) := by
  have hlist := fun listing => listFrom_iff w u options (Listing.start.remaining options)
    Listing.start listing (by simpa [Listing.start] using hmax) (Nat.le_refl _)
  have hordered : ∀ found : List WorkspaceEntry,
      ((orderedEntries u options found).mapError CoreError.scan = .ok entries ↔
        (found.length : Int) ≤ options.maxFiles ∧ entries = inOrder u found) := by
    intro found
    unfold orderedEntries
    dsimp only
    rw [List.length_insertionSort]
    split
    · next hmore =>
      constructor
      · intro h
        cases h
      · rintro ⟨hle, -⟩
        omega
    · next hless =>
      constructor
      · intro h
        exact ⟨by omega, (Except.ok.inj h).symm⟩
      · rintro ⟨-, rfl⟩
        rfl
  unfold listWith
  rw [Workspace.run_bind]
  constructor
  · intro h
    cases hrun : w.run (listFrom u options (Listing.start.remaining options) Listing.start) with
    | error e =>
        rw [hrun] at h
        cases h
    | ok listing =>
        rw [hrun] at h
        dsimp only at h
        rw [Workspace.run_scanning, hordered] at h
        obtain ⟨all, htraversed, hadmits, rfl⟩ := (hlist listing).mp hrun
        obtain ⟨hcount, hportable, hdistinct⟩ := (admits_start u options all).mp hadmits
        exact ⟨all, htraversed, ⟨hcount, hportable, hdistinct, h.1⟩, h.2⟩
  · rintro ⟨all, htraversed, hadmitted, rfl⟩
    rw [(hlist _).mpr ⟨all, htraversed, (admits_start u options all).mpr
      ⟨hadmitted.count, hadmitted.portable, hadmitted.distinct⟩, rfl⟩]
    dsimp only
    rw [Workspace.run_scanning, hordered]
    exact ⟨hadmitted.files, rfl⟩

end

/-! ## Paths that are never returned -/

/-- The parts of a text are within it, and hold no separator. -/
theorem splitOnP_parts (p : Char → Bool) (chars : List Char) :
    ∃ first rest, chars.splitOnP p = first :: rest ∧ first <+: chars ∧
      ∀ part ∈ first :: rest, part <:+: chars ∧ ∀ c ∈ part, p c = false := by
  induction chars with
  | nil =>
      refine ⟨[], [], List.splitOnP_nil, List.prefix_refl _, fun part hpart => ?_⟩
      rw [List.mem_singleton.mp hpart]
      exact ⟨List.infix_refl _, fun c hc => absurd hc List.not_mem_nil⟩
  | cons d chars ih =>
      obtain ⟨first, rest, heq, hfirst, hparts⟩ := ih
      rw [List.splitOnP_cons_eq_if_modifyHead, heq]
      by_cases hd : p d = true
      · rw [if_pos hd]
        refine ⟨[], first :: rest, rfl, List.nil_prefix, fun part hpart => ?_⟩
        rcases List.mem_cons.mp hpart with rfl | hin
        · exact ⟨List.nil_infix, fun c hc => absurd hc List.not_mem_nil⟩
        · exact ⟨(hparts part hin).1.trans (List.suffix_cons d chars).isInfix, (hparts part hin).2⟩
      · rw [if_neg hd]
        refine ⟨d :: first, rest, rfl, List.cons_prefix_cons.mpr ⟨rfl, hfirst⟩,
          fun part hpart => ?_⟩
        rcases List.mem_cons.mp hpart with rfl | hin
        · refine ⟨(List.cons_prefix_cons.mpr ⟨rfl, hfirst⟩).isInfix, fun c hc => ?_⟩
          rcases List.mem_cons.mp hc with rfl | hc'
          · exact Bool.eq_false_iff.mpr hd
          · exact (hparts first List.mem_cons_self).2 c hc'
        · have hrest := hparts part (List.mem_cons_of_mem first hin)
          exact ⟨hrest.1.trans (List.suffix_cons d chars).isInfix, hrest.2⟩

theorem segments_parts (path : String) (part : List Char) (h : part ∈ segments path) :
    part <:+: path.toList ∧ '/' ∉ part := by
  obtain ⟨first, rest, heq, -, hparts⟩ := splitOnP_parts (· == '/') path.toList
  have hmem : part ∈ first :: rest := by
    rw [← heq]
    exact h
  refine ⟨(hparts part hmem).1, fun hc => ?_⟩
  have hsep := (hparts part hmem).2 '/' hc
  exact absurd hsep (by decide)

/-- Folding makes small letters only. -/
theorem eq_of_folded (c d : Char) (h : folded c = d)
    (hd : d.val.toNat < 97 ∨ 122 < d.val.toNat) : c = d := by
  unfold folded at h
  split at h
  · rw [← h] at hd
    exact absurd hd (by decide)
  · split at h
    · rw [← h] at hd
      exact absurd hd (by decide)
    · by_cases hupper : c.val ≥ 'A'.val ∧ c.val ≤ 'Z'.val
      · have hge : 65 ≤ c.val.toNat := hupper.1
        have hle : c.val.toNat ≤ 90 := hupper.2
        have hval := congrArg (fun d => d.val.toNat) h
        have hstep : (32 : UInt32).toNat = 32 := rfl
        unfold Char.toLower at hval
        rw [dif_pos hupper] at hval
        change (c.val + 32).toNat = _ at hval
        rw [UInt32.toNat_add] at hval
        omega
      · unfold Char.toLower at h
        rwa [dif_neg hupper] at h

theorem segmentStarts_plain (chars : List Char) (h : '/' ∉ chars) :
    segmentStarts chars = [chars] := by
  unfold segmentStarts
  rw [List.cons.injEq, List.filterMap_eq_nil_iff]
  refine ⟨rfl, fun rest hrest => ?_⟩
  cases rest with
  | nil => rfl
  | cons c rest =>
      have hc : c ∈ chars := (List.mem_tails _ _ |>.mp hrest).subset List.mem_cons_self
      have hne : c ≠ '/' := fun heq => h (heq ▸ hc)
      split
      · next heq => exact absurd (List.cons.inj heq).1 hne
      · rfl

/-- A part that looks like a secret is hidden, or it makes the path look like one, unless
    the path has several lines. -/
theorem secret_part (path : String) (part : List Char) (hpart : part ∈ segments path)
    (hline : path.toList.any isLineTerminator = false)
    (hsecret : isSecretShaped (String.ofList part) = true) :
    hidden part = true ∨ isSecretShaped path = true := by
  obtain ⟨hwithin, hslash⟩ := segments_parts path part hpart
  have hfolded : '/' ∉ part.map folded := by
    intro hin
    obtain ⟨c, hc, heq⟩ := List.mem_map.mp hin
    exact hslash (eq_of_folded c '/' heq (by decide) ▸ hc)
  unfold isSecretShaped at hsecret
  rw [String.toList_ofList, segmentStarts_plain _ hfolded, List.any_cons, List.any_nil,
    Bool.or_false] at hsecret
  have hdot : (part.map folded).head? = some '.' → hidden part = true := by
    intro h
    cases part with
    | nil => cases h
    | cons c rest =>
        rw [List.map_cons, List.head?_cons, Option.some.injEq] at h
        rw [hidden, List.head?_cons, eq_of_folded c '.' h (by decide)]
        decide
  unfold secretFrom at hsecret
  rw [Bool.or_eq_true, Bool.or_eq_true, Bool.and_eq_true, Bool.and_eq_true] at hsecret
  rcases hsecret with (henv | ⟨henv, -⟩) | ⟨-, hword⟩
  · rw [decide_eq_true_eq] at henv
    exact Or.inl (hdot (by rw [henv]; rfl))
  · obtain ⟨rest, hrest⟩ := List.isPrefixOf_iff_prefix.mp henv
    exact Or.inl (hdot (by rw [← hrest]; rfl))
  · -- The word is in the path as it is in the part.
    refine Or.inr ?_
    unfold isSecretShaped segmentStarts
    rw [List.any_cons, Bool.or_eq_true]
    refine Or.inl ?_
    unfold secretFrom
    rw [Bool.or_eq_true, Bool.and_eq_true]
    refine Or.inr ⟨?_, ?_⟩
    · rw [Bool.not_eq_true', List.any_map, List.any_eq_false]
      intro c hc
      have hplain := List.any_eq_false.mp hline c hc
      intro hterminator
      simp only [Function.comp_apply, isLineTerminator, Bool.or_eq_true, decide_eq_true_eq]
        at hterminator hplain
      rcases hterminator with ((h | h) | h) | h
      · exact hplain (Or.inl (Or.inl (Or.inl (eq_of_folded c _ h (by decide)))))
      · exact hplain (Or.inl (Or.inl (Or.inr (eq_of_folded c _ h (by decide)))))
      · exact hplain (Or.inl (Or.inr (eq_of_folded c _ h (by decide))))
      · exact hplain (Or.inr (eq_of_folded c _ h (by decide)))
    · obtain ⟨word, hmem, hinfix⟩ := List.any_eq_true.mp hword
      refine List.any_eq_true.mpr ⟨word, hmem, ?_⟩
      rw [decide_eq_true_eq] at hinfix ⊢
      exact hinfix.trans (hwithin.map folded)

/-- What a path has that is listed: no part of it is hidden or a folder that is left out, and
    it does not look like a secret, nor does any part of it if it is a single line. -/
structure Clean (path : String) : Prop where
  visible : ∀ part ∈ segments path, hidden part = false
  included : ∀ part ∈ segments path, String.ofList part ∉ excludedDirectories
  plain : isSecretShaped path = false
  parts : path.toList.any isLineTerminator = false →
    ∀ part ∈ segments path, isSecretShaped (String.ofList part) = false

theorem segments_ne_nil (path : String) : segments path ≠ [] := by
  obtain ⟨first, rest, heq, -, -⟩ := splitOnP_parts (· == '/') path.toList
  exact fun h => List.cons_ne_nil first rest (heq.symm.trans h)

theorem clean_of_kept (e : WorkspaceEntry) (h : kept e = true) : Clean e.path := by
  simp only [kept, Bool.and_eq_true, decide_eq_true_eq, Bool.not_eq_true'] at h
  have hexcluded := h.2
  unfold shouldExclude at hexcluded
  dsimp only at hexcluded
  split at hexcluded
  · cases hexcluded
  · next hfolders =>
    rw [if_neg (by decide), Bool.or_eq_false_iff, Bool.or_eq_false_iff, Bool.not_eq_false'] at hexcluded
    rw [Bool.not_eq_true, List.any_eq_false] at hfolders
    obtain ⟨⟨hleaf, hsecret⟩, hmd⟩ := hexcluded
    have hlast : (segments e.path).getLast?.getD [] =
        (segments e.path).getLast (segments_ne_nil e.path) := by
      rw [List.getLast?_eq_getLast_of_ne_nil (segments_ne_nil e.path), Option.getD_some]
    rw [hlast] at hleaf hmd
    -- A part is one of the folders on the way, or the name of the file.
    have hcases : ∀ part ∈ segments e.path, part ∈ (segments e.path).dropLast ∨
        part = (segments e.path).getLast (segments_ne_nil e.path) := by
      intro part hpart
      rw [← List.dropLast_append_getLast (segments_ne_nil e.path), List.mem_append,
        List.mem_singleton] at hpart
      exact hpart
    have hvisible : ∀ part ∈ segments e.path, hidden part = false := by
      intro part hpart
      rcases hcases part hpart with hin | rfl
      · have := hfolders part hin
        simp only [Bool.or_eq_true, not_or, Bool.not_eq_true] at this
        exact this.1
      · exact hleaf
    refine ⟨hvisible, fun part hpart => ?_, hsecret, fun hline part hpart => ?_⟩
    · rcases hcases part hpart with hin | rfl
      · have := hfolders part hin
        simp only [Bool.or_eq_true, not_or, List.contains_iff_mem] at this
        exact this.2
      · intro hin
        -- No folder that is left out is called like a note.
        have hname : ∀ name ∈ excludedDirectories,
            ['.', 'm', 'd'].isSuffixOf (name.toList.map folded) = false := by
          decide +kernel
        have hnot := hname _ hin
        rw [String.toList_ofList, hmd] at hnot
        cases hnot
    · rw [← Bool.not_eq_true]
      intro hshaped
      rcases secret_part e.path part hpart hline hshaped with hdot | hpath
      · rw [hvisible part hpart] at hdot
        cases hdot
      · rw [hsecret] at hpath
        cases hpath

/-- What a listing returns: files with clean paths, no two of them with one lower case, out of
    entries none of which is a link. -/
theorem listed_within (w : Workspace) (u : UnicodeTables) (options : MarkdownScanOptions)
    (hmax : 0 ≤ options.maxEntries) (entries : List WorkspaceEntry)
    (h : w.run (listWith u options) = .ok entries) :
    (∀ e ∈ entries, e.kind = .file ∧ Clean e.path) ∧
      (entries.map (fun e => u.toLowerCase e.path)).Nodup ∧
      ∃ all, Traversed w [""] all ∧ (∀ e ∈ all, e.kind ≠ .symlink) ∧ ∀ e ∈ entries, e ∈ all := by
  obtain ⟨all, htraversed, hadmitted, rfl⟩ := (listing_iff w u options hmax entries).mp h
  have hmem : ∀ e ∈ inOrder u (all.filter kept), e ∈ all ∧ kept e = true := by
    intro e he
    exact List.mem_filter.mp ((List.mem_insertionSort _).mp he)
  refine ⟨fun e he => ⟨?_, clean_of_kept e (hmem e he).2⟩, ?_, all, htraversed,
    fun e he => (hadmitted.portable e he).2.2, fun e he => (hmem e he).1⟩
  · have hkept := (hmem e he).2
    simp only [kept, Bool.and_eq_true, decide_eq_true_eq] at hkept
    exact hkept.1
  · refine (((List.perm_insertionSort _ _).map _).nodup_iff).mpr ?_
    exact hadmitted.distinct.sublist ((List.filter_sublist).map _)

/-! ## Readers -/

/-- What is checked before a file is read. -/
def checkEntry (options : MarkdownScanOptions) (entry : WorkspaceEntry) : Except CoreError Unit :=
  if entry.size.any (tooLarge options) then .error (.scan (fileTooLarge entry)) else .ok ()

/-- What a read comes to. -/
def readEntry (w : Workspace) (options : MarkdownScanOptions) (entry : WorkspaceEntry) :
    Except CoreError MarkdownFile :=
  match w.read entry.path with
  | none =>
      .error (.scan {
        code := .readFailed, message := "could not read Markdown file", path := some entry.path })
  | some contents =>
      if tooLarge options contents.length then .error (.scan (fileTooLarge entry))
      else
        .ok { path := entry.path, size := contents.length, mtimeMs := entry.mtimeMs
              contents := contents }

/-- The loop of the workers: the files by their index, and the bytes of them all. No worker
    goes on with an index beyond the last. -/
def readerJob (w : Workspace) (options : MarkdownScanOptions) (entries : List WorkspaceEntry) :
    Workers.Job MarkdownFile CoreError :=
  { count := entries.length
    check := fun index => (entries[index]?).elim (.ok ()) (checkEntry options)
    work := fun index => (entries[index]?).elim (.error .terminated) (readEntry w options)
    weight := MarkdownFile.size
    limit := options.maxBytes.toNat
    exceeded := .scan (scanLimit "Markdown bytes exceed the scan ceiling" none) }

def readers (options : MarkdownScanOptions) (entries : List WorkspaceEntry) : ℕ :=
  min options.concurrency.toNat (max entries.length 1)

/-- What a scan returns when all workers have ended. -/
def scanResult (desk : Workers.Desk MarkdownFile CoreError) : MarkdownScanResult :=
  let ordered := desk.results.filterMap id
  { files := ordered, totalBytes := desk.total, scanId := scanFingerprint ordered }

/-- What has become of a scan after some turns of its workers, where it has come to an end. -/
def scanMarkdownUnder (w : Workspace) (u : UnicodeTables) (supplied : SuppliedScanOptions)
    (schedule : ℕ → ℕ) (turns : ℕ) : Option (Except CoreError MarkdownScanResult) :=
  match boundedOptions (suppliedOver supplied) with
  | .error e => some (.error (.scan e))
  | .ok options =>
      match w.run (listWith u options) with
      | .error e => some (.error e)
      | .ok entries =>
          let job := readerJob w options entries
          let desk := Workers.after (Workers.turn job)
            (Workers.Desk.start job (readers options entries)) schedule turns
          (Workers.settled desk).map (fun outcome => outcome.map (fun _ => scanResult desk))

/-- A file as it is read, which is not too large, nor was said to be. -/
def Reads (w : Workspace) (options : MarkdownScanOptions) (entry : WorkspaceEntry)
    (file : MarkdownFile) : Prop :=
  (∀ size, entry.size = some size → (size : Int) ≤ options.maxFileBytes) ∧
    ∃ contents, w.read entry.path = some contents ∧
      (contents.length : Int) ≤ options.maxFileBytes ∧
      file = { path := entry.path, size := contents.length, mtimeMs := entry.mtimeMs
               contents := contents }

/-- What a source scans to: the entries are admitted, every file that is listed is read, and
    all of them together are not too many bytes. -/
def Scanned (w : Workspace) (u : UnicodeTables) (options : MarkdownScanOptions)
    (result : MarkdownScanResult) : Prop :=
  ∃ all, Traversed w [""] all ∧ Admitted u options all ∧
    List.Forall₂ (Reads w options) (inOrder u (all.filter kept)) result.files ∧
    result.totalBytes = (result.files.map MarkdownFile.size).sum ∧
    (result.totalBytes : Int) ≤ options.maxBytes ∧
    result.scanId = scanFingerprint result.files

section

variable (w : Workspace) (options : MarkdownScanOptions) (entries : List WorkspaceEntry)

theorem reads_iff (entry : WorkspaceEntry)
    (file : MarkdownFile) : Reads w options entry file ↔
      checkEntry options entry = .ok () ∧ readEntry w options entry = .ok file := by
  have hcheck : checkEntry options entry = .ok () ↔
      ∀ size, entry.size = some size → (size : Int) ≤ options.maxFileBytes := by
    unfold checkEntry
    cases entry.size with
    | none => simp
    | some size => simp [tooLarge]
  have hread : readEntry w options entry = .ok file ↔ ∃ contents, w.read entry.path = some contents ∧
      (contents.length : Int) ≤ options.maxFileBytes ∧
      file = { path := entry.path, size := contents.length, mtimeMs := entry.mtimeMs
               contents := contents } := by
    unfold readEntry
    cases w.read entry.path with
    | none => simp
    | some contents =>
        by_cases hlarge : tooLarge options contents.length = true
        · have hmore : options.maxFileBytes < (contents.length : Int) := of_decide_eq_true hlarge
          simp [hlarge, hmore]
        · have hless : (contents.length : Int) ≤ options.maxFileBytes :=
            not_lt.mp (fun hmore => hlarge (decide_eq_true hmore))
          simp [hlarge, hless, eq_comm]
  rw [hcheck, hread, Reads]

theorem reads_unique (entry : WorkspaceEntry)
    (file file' : MarkdownFile) (h : Reads w options entry file)
    (h' : Reads w options entry file') : file = file' := by
  have hfile := ((reads_iff w options entry file).mp h).2
  have hfile' := ((reads_iff w options entry file').mp h').2
  exact Except.ok.inj (hfile.symm.trans hfile')

theorem forall₂_reads_unique (files files' : List MarkdownFile)
    (h : List.Forall₂ (Reads w options) entries files)
    (h' : List.Forall₂ (Reads w options) entries files') : files = files' := by
  induction h generalizing files' with
  | nil =>
      cases h'
      rfl
  | cons hfirst _ ih =>
      cases h' with
      | cons hfirst' hrest' => rw [reads_unique w options _ _ _ hfirst hfirst', ih _ hrest']

/-- The workers find what the files are read as. -/
theorem answers_iff (files : List MarkdownFile) :
    Workers.Answers (readerJob w options entries) files ↔
      List.Forall₂ (Reads w options) entries files := by
  rw [List.forall₂_iff_get]
  constructor
  · intro h
    refine ⟨h.length.symm, fun i hi hi' => ?_⟩
    have heach := h.each i files[i] (List.getElem?_eq_getElem hi')
    simp only [readerJob, List.getElem?_eq_getElem hi, Option.elim_some] at heach
    exact (reads_iff w options _ _).mpr heach
  · rintro ⟨hlen, heach⟩
    refine ⟨hlen.symm, fun i file hfile => ?_⟩
    obtain ⟨hi, rfl⟩ := List.getElem?_eq_some_iff.mp hfile
    have hi' : i < entries.length := by omega
    simp only [readerJob, List.getElem?_eq_getElem hi', Option.elim_some]
    exact (reads_iff w options _ _).mp (heach i hi' hi)

/-- The ceilings are positive integers. -/
def Ceilings (options : MarkdownScanOptions) : Prop :=
  ∀ value ∈ options.values, 1 ≤ value ∧ value ≤ maxSafeInteger

theorem boundedOptions_cases :
    Ceilings options ∧ boundedOptions options = .ok options ∨
      ¬Ceilings options ∧ ∃ e, boundedOptions options = .error e := by
  unfold boundedOptions Ceilings
  by_cases h : options.values.any (fun value => maxSafeInteger < value || value < 1) = true
  · rw [if_pos h]
    refine Or.inr ⟨fun hall => ?_, _, rfl⟩
    obtain ⟨value, hmem, hvalue⟩ := List.any_eq_true.mp h
    have := hall value hmem
    simp only [Bool.or_eq_true, decide_eq_true_eq] at hvalue
    omega
  · rw [if_neg h]
    refine Or.inl ⟨fun value hmem => ?_, rfl⟩
    rw [Bool.not_eq_true, List.any_eq_false] at h
    have := h value hmem
    simp only [Bool.or_eq_true, decide_eq_true_eq] at this
    omega

theorem readers_bounds (h : 1 ≤ options.concurrency) :
    0 < readers options entries ∧
      ∀ k, k < readers options entries → (k : Int) < options.concurrency := by
  unfold readers
  constructor
  · omega
  · intro k hk
    omega

/-- A listing goes through, and its files are read: that is what a source scans to. -/
theorem scanned_iff (u : UnicodeTables) (options : MarkdownScanOptions)
    (hceilings : Ceilings options) (entries : List WorkspaceEntry)
    (hentries : w.run (listWith u options) = .ok entries) (result : MarkdownScanResult) :
    Scanned w u options result ↔
      Workers.Answers (readerJob w options entries) result.files ∧
        result.totalBytes = (result.files.map MarkdownFile.size).sum ∧
        (result.files.map MarkdownFile.size).sum ≤ options.maxBytes.toNat ∧
        result.scanId = scanFingerprint result.files := by
  have hpositive : ∀ value ∈ options.values, 1 ≤ value := fun value h => (hceilings value h).1
  have hmax : 1 ≤ options.maxEntries := hpositive _ (by simp [MarkdownScanOptions.values])
  have hbytes : 1 ≤ options.maxBytes := hpositive _ (by simp [MarkdownScanOptions.values])
  obtain ⟨all, htraversed, hadmitted, rfl⟩ :=
    (listing_iff w u options (by omega) entries).mp hentries
  rw [answers_iff]
  constructor
  · rintro ⟨all', htraversed', -, hreads, htotal, hle, hid⟩
    obtain rfl := traversed_unique w [""] all all' htraversed htraversed'
    exact ⟨hreads, htotal, by omega, hid⟩
  · rintro ⟨hreads, htotal, hle, hid⟩
    exact ⟨all, htraversed, hadmitted, hreads, htotal, by omega, hid⟩

/-- What the workers end with, a scan returns. -/
theorem outcome_iff (u : UnicodeTables) (options : MarkdownScanOptions)
    (hceilings : Ceilings options) (entries : List WorkspaceEntry)
    (hentries : w.run (listWith u options) = .ok entries) (schedule : ℕ → ℕ) (turns : ℕ)
    (desk : Workers.Desk MarkdownFile CoreError)
    (hdesk : Workers.after (Workers.turn (readerJob w options entries))
      (Workers.Desk.start (readerJob w options entries) (readers options entries)) schedule turns =
        desk)
    (outcome : Except CoreError Unit) (hsettled : Workers.settled desk = some outcome)
    (result : MarkdownScanResult) :
    outcome.map (fun _ => scanResult desk) = .ok result ↔ Scanned w u options result := by
  have hcourse := Workers.course_after (readerJob w options entries) (readers options entries)
    schedule turns
  have hconcurrency : 1 ≤ options.concurrency :=
    (hceilings _ (by simp [MarkdownScanOptions.values])).1
  have hnumber := (readers_bounds options entries hconcurrency).1
  rw [hdesk] at hcourse
  rw [scanned_iff w u options hceilings entries hentries]
  cases outcome with
  | error e =>
      have hnot := Workers.outcome_error (readerJob w options entries) _ desk e hcourse hsettled
      constructor
      · intro h
        cases h
      · rintro ⟨hanswers, -, hle, -⟩
        have hmore := hnot result.files hanswers
        exact absurd hle (not_le.mpr hmore)
  | ok _ =>
      obtain ⟨files, hanswers, hresults, htotal, hle⟩ := Workers.outcome_ok
        (readerJob w options entries) _ desk hnumber hcourse hsettled
      have hordered : desk.results.filterMap id = files := by
        rw [hresults, List.filterMap_map]
        exact List.filterMap_some
      have hresult : scanResult desk =
          { files := files, totalBytes := (files.map MarkdownFile.size).sum
            scanId := scanFingerprint files } := by
        rw [scanResult, hordered, htotal]
        rfl
      constructor
      · intro h
        rw [← Except.ok.inj h, hresult]
        exact ⟨hanswers, rfl, hle, rfl⟩
      · rintro ⟨hanswers', htotal', -, hid'⟩
        have hsame := forall₂_reads_unique w options entries _ _
          ((answers_iff w options entries files).mp hanswers)
          ((answers_iff w options entries result.files).mp hanswers')
        change Except.ok (scanResult desk) = Except.ok result
        rw [hresult, hsame]
        obtain ⟨files', totalBytes', scanId'⟩ := result
        dsimp only at htotal' hid' ⊢
        rw [htotal', hid']

end

/-- A scan under any schedule that gives each worker its turns. It comes to an end, and it
    succeeds exactly where the ceilings are positive and the source scans to something, which
    is what it returns. No path that is listed is hidden, left out, a link or shaped like a
    secret, and no two have one lower case. -/
theorem scan_exact (w : Workspace) (u : UnicodeTables) (supplied : SuppliedScanOptions)
    (schedule : ℕ → ℕ)
    (hfair : Workers.Fair (fun k : ℕ => (k : Int) < (suppliedOver supplied).concurrency)
      schedule) :
    (∃ turns, (scanMarkdownUnder w u supplied schedule turns).isSome = true) ∧
      (∀ turns outcome, scanMarkdownUnder w u supplied schedule turns = some outcome →
        ∀ result, outcome = .ok result ↔
          Ceilings (suppliedOver supplied) ∧ Scanned w u (suppliedOver supplied) result) ∧
      ∀ entries, w.run (listMarkdownFiles u supplied) = .ok entries →
        (∀ e ∈ entries, e.kind = .file ∧ Clean e.path) ∧
          (entries.map (fun e => u.toLowerCase e.path)).Nodup ∧
          ∃ all, Traversed w [""] all ∧ (∀ e ∈ all, e.kind ≠ .symlink) ∧
            ∀ e ∈ entries, e ∈ all := by
  unfold scanMarkdownUnder listMarkdownFiles
  generalize suppliedOver supplied = options at hfair ⊢
  rw [Workspace.run_bind, Workspace.run_scanning]
  rcases boundedOptions_cases options with ⟨hceilings, hbounded⟩ | ⟨hnot, e, hbounded⟩
  · have hmax : 1 ≤ options.maxEntries := (hceilings _ (by simp [MarkdownScanOptions.values])).1
    have hconcurrency : 1 ≤ options.concurrency :=
      (hceilings _ (by simp [MarkdownScanOptions.values])).1
    rw [hbounded]
    dsimp only
    refine ⟨?_, ?_, fun entries h => listed_within w u options (by omega) entries h⟩
    · cases hlisted : w.run (listWith u options) with
      | error e => exact ⟨0, rfl⟩
      | ok entries =>
          obtain ⟨turns, hturns⟩ := Workers.settles (readerJob w options entries)
            (readers options entries) schedule (fun k hk =>
              hfair k ((readers_bounds options entries hconcurrency).2 k hk))
          refine ⟨turns, ?_⟩
          dsimp only
          rw [Option.isSome_map]
          exact hturns
    · intro turns outcome houtcome result
      cases hlisted : w.run (listWith u options) with
      | error e =>
          rw [hlisted, Option.some.injEq] at houtcome
          rw [← houtcome]
          constructor
          · intro h
            cases h
          · -- The entries that are read have been listed.
            rintro ⟨-, all, htraversed, hadmitted, -⟩
            have hok := (listing_iff w u options (by omega) _).mpr ⟨all, htraversed, hadmitted, rfl⟩
            rw [hlisted] at hok
            cases hok
      | ok entries =>
          rw [hlisted] at houtcome
          dsimp only at houtcome
          obtain ⟨ended, hended, rfl⟩ := Option.map_eq_some_iff.mp houtcome
          rw [outcome_iff w u options hceilings entries hlisted schedule turns _ rfl ended hended]
          exact (and_iff_right hceilings).symm
  · rw [hbounded]
    refine ⟨⟨0, rfl⟩, fun turns outcome houtcome result => ?_, fun entries h => ?_⟩
    · rw [← Option.some.inj houtcome]
      constructor
      · intro h
        cases h
      · intro h
        exact absurd h.1 hnot
    · cases h

/-! ## Links, and names of several lines -/

section Example

private def noOptions : SuppliedScanOptions :=
  { maxEntries := none, maxFiles := none, maxBytes := none, maxFileBytes := none
    maxDepth := none, concurrency := none }

private def oneByte (path : String) : WorkspaceEntry :=
  { path := path, kind := .file, size := some 1, mtimeMs := none }

private def besides (path : String) (kind : EntryKind) : WorkspaceEntry :=
  { path := path, kind := kind, size := none, mtimeMs := none }

/-- Two notes, of which one is in a folder. -/
def twoNotes : Workspace :=
  { list := fun directory =>
      if directory = "" then some [oneByte "b.md", besides "folder" .directory]
      else if directory = "folder" then some [oneByte "folder/a.md"]
      else none
    read := fun path => if path = "b.md" ∨ path = "folder/a.md" then some [65] else none }

/-- Eight workers that take turns. -/
theorem scan_exact_twoNotes :
    (∃ turns, (scanMarkdownUnder twoNotes .plain noOptions (fun t => t % 8) turns).isSome = true) ∧
      ∀ turns outcome, scanMarkdownUnder twoNotes .plain noOptions (fun t => t % 8) turns =
        some outcome → ∀ result, outcome = .ok result ↔
          Ceilings (suppliedOver noOptions) ∧
            Scanned twoNotes .plain (suppliedOver noOptions) result := by
  have hfair : Workers.Fair (fun k : ℕ => (k : Int) < (suppliedOver noOptions).concurrency)
      (fun t => t % 8) := by
    intro k hk t
    have hk' : (k : Int) < 8 := hk
    refine ⟨8 * t + k, by omega, ?_⟩
    dsimp only
    omega
  have h := scan_exact twoNotes .plain noOptions (fun t => t % 8) hfair
  exact ⟨h.1, h.2.1⟩

/-- The ceilings of a scan are kept, and every file that is traversed is read within them. -/
def WithinCeilings (w : Workspace) (u : UnicodeTables) (options : MarkdownScanOptions) : Prop :=
  ∃ all files, Traversed w [""] all ∧ (all.length : Int) ≤ options.maxEntries ∧
    (∀ e ∈ all, (depth e.path : Int) ≤ options.maxDepth) ∧
    ((all.filter kept).length : Int) ≤ options.maxFiles ∧
    List.Forall₂ (Reads w options) (inOrder u (all.filter kept)) files ∧
    ((files.map MarkdownFile.size).sum : Int) ≤ options.maxBytes

/-- A note and a link beside it. -/
def linkedNote : Workspace :=
  { list := fun directory =>
      if directory = "" then some [oneByte "note.md", besides "link.md" .symlink] else none
    read := fun path => if path = "note.md" then some [65] else none }

/-- A folder that is called a secret, and a note in it whose name has two lines. -/
def secretFolder : Workspace :=
  { list := fun directory =>
      if directory = "" then some [besides "secret" .directory]
      else if directory = "secret" then some [oneByte "secret/a\n.md"]
      else none
    read := fun path => if path = "secret/a\n.md" then some [65] else none }

theorem traversed_linkedNote :
    Traversed linkedNote [""] [oneByte "note.md", besides "link.md" .symlink] := by
  refine (traversed_cons _ _ _ _).mpr
    ⟨[oneByte "note.md", besides "link.md" .symlink], [], by decide +kernel, ?_, rfl⟩
  have hnone : ([oneByte "note.md", besides "link.md" .symlink].filter entered) = [] := by
    decide +kernel
  rw [hnone]
  exact Traversed.done

/-- A link fails a scan though all ceilings are kept. And the note of two lines is listed,
    though the folder it is in looks like a secret. -/
theorem scan_refuses :
    WithinCeilings linkedNote .plain (suppliedOver noOptions) ∧
      (∀ schedule turns, ∃ e, scanMarkdownUnder linkedNote .plain noOptions schedule turns =
        some (.error e)) ∧
      ∃ entries, secretFolder.run (listMarkdownFiles .plain noOptions) = .ok entries ∧
        ∃ e ∈ entries, ∃ part ∈ segments e.path, isSecretShaped (String.ofList part) = true := by
  refine ⟨?_, fun schedule turns => ?_, ?_⟩
  · refine ⟨_, [{ path := "note.md", size := 1, mtimeMs := none, contents := [65] }],
      traversed_linkedNote, by decide, by decide +kernel, by decide +kernel, ?_, by decide⟩
    have hfiles : inOrder .plain
        ([oneByte "note.md", besides "link.md" .symlink].filter kept) = [oneByte "note.md"] := by
      decide +kernel
    rw [hfiles]
    refine List.Forall₂.cons ⟨fun size hsize => ?_, [65], by decide +kernel, by decide, rfl⟩
      List.Forall₂.nil
    rw [← Option.some.inj hsize]
    decide
  · unfold scanMarkdownUnder
    rcases boundedOptions_cases (suppliedOver noOptions) with ⟨-, hbounded⟩ | ⟨-, e, hbounded⟩
    · rw [hbounded]
      dsimp only
      cases hlisted : linkedNote.run (listWith .plain (suppliedOver noOptions)) with
      | error e => exact ⟨e, rfl⟩
      | ok entries =>
          obtain ⟨-, -, all, htraversed, hlinks, -⟩ := listed_within linkedNote .plain
            (suppliedOver noOptions) (by decide) entries hlisted
          obtain rfl := traversed_unique _ _ _ _ traversed_linkedNote htraversed
          exact absurd rfl (hlinks (besides "link.md" .symlink)
            (List.mem_cons_of_mem _ List.mem_cons_self))
    · rw [hbounded]
      exact ⟨_, rfl⟩
  · have hpaths : ((secretFolder.run (listMarkdownFiles .plain noOptions)).toOption.map
        (fun entries => entries.map WorkspaceEntry.path)) = some ["secret/a\n.md"] := by
      decide +kernel
    cases hrun : secretFolder.run (listMarkdownFiles .plain noOptions) with
    | error e =>
        rw [hrun] at hpaths
        cases hpaths
    | ok entries =>
        rw [hrun] at hpaths
        have hmap : entries.map WorkspaceEntry.path = ["secret/a\n.md"] := Option.some.inj hpaths
        obtain ⟨e, he, hpath⟩ := List.mem_map.mp (hmap ▸ List.mem_singleton_self _)
        refine ⟨entries, rfl, e, he, "secret".toList, ?_, by decide +kernel⟩
        rw [hpath]
        decide +kernel

end Example

end Mdevolved.Source
