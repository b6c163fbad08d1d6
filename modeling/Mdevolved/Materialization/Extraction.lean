import Mdevolved.Materialization.Snapshot
import Mdevolved.Agent.Visibility
import Mdevolved.Lib.DecimalOrder
import Mdevolved.Lib.Utf16

/-!
# What a Snapshot Depends on

The maps of a document are visited in some order, which is not part of what they say. Of the
live records of one path the newest is taken, so that the order does not matter there. It does
in the first schema, where records of a path that the index does not have are taken as they
come. Where there is one such record for each of these paths, a snapshot depends only on what
the maps say, up to the order of notes whose keys the order of the locale does not tell apart.

A snapshot that fails has one of the defects that its document has. Which one it is may depend on
the order, unless there is only one kind.

## Main definitions

* `Latest`: The newest of the candidates for a path.
* `Selected`: The candidates of a document, by what its maps say.
* `noteOf`: The note of a candidate.
* `Fault`: What is wrong with some candidates.
* `Defect`: What is wrong with a document.

## Theorems

* `candidateIsNewer_iff`: Candidates are compared by their ranks.
* `activeCandidates_ok`, `extractNotes_ok`: What a snapshot is made of.
* `extract_defect`: A snapshot fails with a defect of its document.
* `extract_notes`: A snapshot has the notes of the document's candidates.
* `extract_agrees`: A snapshot depends on what the maps say.
-/

namespace Mdevolved.Materialization

open Mdevolved.Vault

/-! ## The order of candidates -/

/-- Candidates are told apart by their time, then by their file. -/
def Candidate.rank (c : Candidate) : Lex (ℚ × List ℕ) :=
  toLex ((c.modifiedAt.getD Decimal.zero).value, c.fileId.toList.flatMap utf16Units)

theorem candidateIsNewer_iff (candidate existing : Candidate) :
    candidateIsNewer candidate existing = true ↔ existing.rank < candidate.rank := by
  have hvalue : candidate.modifiedAt.getD Decimal.zero = existing.modifiedAt.getD Decimal.zero ↔
      (existing.modifiedAt.getD Decimal.zero).value =
        (candidate.modifiedAt.getD Decimal.zero).value := by
    rw [Decimal.value_injective.eq_iff, eq_comm]
  unfold candidateIsNewer Candidate.rank
  rw [Prod.Lex.toLex_lt_toLex]
  dsimp only
  by_cases hsame : candidate.modifiedAt.getD Decimal.zero = existing.modifiedAt.getD Decimal.zero
  · rw [if_neg (not_not.mpr hsame), hsame, utf16Lt, decide_eq_true_eq]
    simp
  · rw [if_pos hsame, Decimal.lt_iff_value]
    simp [mt hvalue.mpr hsame]

/-- Candidates of different files have different ranks. -/
theorem rank_fileId (c d : Candidate) (h : c.rank = d.rank) : c.fileId = d.fileId := by
  have hunits := congrArg (fun rank => (ofLex rank).2) h
  exact String.toList_inj.mp (Utf16.flatMap_charUnits_inj _ _ hunits)

/-- The newest of the candidates for a path. -/
def Latest (candidates : List Candidate) (c : Candidate) : Prop :=
  c ∈ candidates ∧
    ∀ other ∈ candidates, other.path = c.path → candidateIsNewer other c = false

/-- A path with candidates has a newest one. -/
theorem latest_exists (candidates : List Candidate) (c : Candidate) (hc : c ∈ candidates) :
    ∃ d, Latest candidates d ∧ d.path = c.path := by
  have hfilled : (candidates.filter (fun d => d.path = c.path)).map Candidate.rank ≠ [] :=
    List.ne_nil_of_mem (List.mem_map_of_mem (List.mem_filter.mpr ⟨hc, decide_eq_true rfl⟩))
  obtain ⟨d, hd, hrank⟩ := List.mem_map.mp (List.max_mem hfilled)
  obtain ⟨hmem, hpath⟩ := List.mem_filter.mp hd
  rw [decide_eq_true_eq] at hpath
  refine ⟨d, ⟨hmem, fun other hother hsame => ?_⟩, hpath⟩
  rw [← Bool.not_eq_true, candidateIsNewer_iff, not_lt, hrank]
  exact List.le_max_of_mem (List.mem_map_of_mem
    (List.mem_filter.mpr ⟨hother, decide_eq_true (hsame.trans hpath)⟩))

/-- Candidates for one path are of different files. -/
def Rivals (candidates : List Candidate) : Prop :=
  candidates.Pairwise (fun c d => c.path = d.path → c.fileId ≠ d.fileId)

theorem mem_addCandidate (candidates : List Candidate) (x c : Candidate)
    (hnodup : (candidates.map Candidate.path).Nodup) :
    c ∈ addCandidate candidates x ↔
      (c ∈ candidates ∧ (c.path = x.path → candidateIsNewer x c = false)) ∨
        (c = x ∧ ∀ e ∈ candidates, e.path = x.path → candidateIsNewer x e = true) := by
  unfold addCandidate
  split
  · next hnone =>
    have hother : ∀ e ∈ candidates, e.path ≠ x.path := by
      intro e he
      simpa using List.find?_eq_none.mp hnone e he
    rw [List.mem_append, List.mem_singleton]
    constructor
    · rintro (hc | rfl)
      · exact Or.inl ⟨hc, fun hpath => absurd hpath (hother c hc)⟩
      · exact Or.inr ⟨rfl, fun e he hpath => absurd hpath (hother e he)⟩
    · rintro (⟨hc, -⟩ | ⟨rfl, -⟩)
      · exact Or.inl hc
      · exact Or.inr rfl
  · next existing hfound =>
    have hmem := List.mem_of_find?_eq_some hfound
    have hpath : existing.path = x.path := by
      simpa using List.find?_some hfound
    have hunique : ∀ e ∈ candidates, e.path = x.path → e = existing := by
      intro e he hepath
      exact List.inj_on_of_nodup_map hnodup he hmem (hepath.trans hpath.symm)
    split
    · next hnewer =>
      rw [List.mem_map]
      constructor
      · rintro ⟨e, he, heq⟩
        by_cases hepath : e.path = x.path
        · rw [if_pos hepath] at heq
          subst heq
          exact Or.inr ⟨rfl, fun e he hepath => hunique e he hepath ▸ hnewer⟩
        · rw [if_neg hepath] at heq
          subst heq
          exact Or.inl ⟨he, fun hsame => absurd hsame hepath⟩
      · rintro (⟨hc, hold⟩ | ⟨rfl, -⟩)
        · have hcpath : c.path ≠ x.path := by
            intro hcpath
            have hfalse := hold hcpath
            rw [hunique c hc hcpath, hnewer] at hfalse
            cases hfalse
          exact ⟨c, hc, if_neg hcpath⟩
        · exact ⟨existing, hmem, if_pos hpath⟩
    · next hnewer =>
      rw [Bool.not_eq_true] at hnewer
      constructor
      · intro hc
        exact Or.inl ⟨hc, fun hcpath => hunique c hc hcpath ▸ hnewer⟩
      · rintro (⟨hc, -⟩ | ⟨rfl, hall⟩)
        · exact hc
        · have htrue := hall existing hmem hpath
          rw [hnewer] at htrue
          cases htrue

theorem foldl_addCandidate_paths (candidates known : List Candidate)
    (h : (known.map Candidate.path).Nodup) :
    ((candidates.foldl addCandidate known).map Candidate.path).Nodup := by
  induction candidates generalizing known with
  | nil => exact h
  | cons c rest ih => exact ih _ (addCandidate_paths known c h)

/-- Of the candidates that were added, the newest ones are left. The induction is on the last one
    that was added. -/
theorem mem_foldl_addCandidate (candidates : List Candidate) (hrivals : Rivals candidates)
    (c : Candidate) : c ∈ candidates.foldl addCandidate [] ↔ Latest candidates c := by
  induction candidates using List.reverseRecOn generalizing c with
  | nil => simp [Latest]
  | append_singleton candidates x ih =>
      obtain ⟨hbefore, -, hlast⟩ := List.pairwise_append.mp hrivals
      have hfiles : ∀ d ∈ candidates, d.path = x.path → d.fileId ≠ x.fileId :=
        fun d hd hpath => hlast d hd x (List.mem_singleton_self x) hpath
      have hnodup := foldl_addCandidate_paths candidates [] List.nodup_nil
      rw [List.foldl_append, List.foldl_cons, List.foldl_nil, mem_addCandidate _ _ _ hnodup]
      constructor
      · rintro (⟨hc, hold⟩ | ⟨rfl, hall⟩)
        · obtain ⟨hmem, hnewest⟩ := (ih hbefore c).mp hc
          refine ⟨List.mem_append_left _ hmem, fun other hother hpath => ?_⟩
          rcases List.mem_append.mp hother with hother | hother
          · exact hnewest other hother hpath
          · rw [List.mem_singleton.mp hother] at hpath ⊢
            exact hold hpath.symm
        · refine ⟨List.mem_append_right _ (List.mem_singleton_self c), fun other hother hpath => ?_⟩
          rcases List.mem_append.mp hother with hother | hother
          · -- The newest one before it is older than it is, and no older than the others.
            obtain ⟨newest, hlatest, hnewestPath⟩ := latest_exists candidates other hother
            have hleft := (ih hbefore newest).mpr hlatest
            have hlt := (candidateIsNewer_iff _ _).mp
              (hall newest hleft (hnewestPath.trans hpath))
            have hmost := hlatest.2 other hother hnewestPath.symm
            rw [← Bool.not_eq_true, candidateIsNewer_iff, not_lt] at hmost ⊢
            exact hmost.trans hlt.le
          · rw [List.mem_singleton.mp hother, ← Bool.not_eq_true, candidateIsNewer_iff]
            exact lt_irrefl _
      · rintro ⟨hmem, hnewest⟩
        rcases List.mem_append.mp hmem with hmem | hmem
        · refine Or.inl ⟨(ih hbefore c).mpr ⟨hmem, fun other hother => ?_⟩, fun hpath => ?_⟩
          · exact hnewest other (List.mem_append_left _ hother)
          · exact hnewest x (List.mem_append_right _ (List.mem_singleton_self x)) hpath.symm
        · refine Or.inr ⟨List.mem_singleton.mp hmem, fun e he hpath => ?_⟩
          rw [List.mem_singleton.mp hmem] at hnewest
          have hemem := ((ih hbefore e).mp he).1
          have hold := hnewest e (List.mem_append_left _ hemem) hpath
          rw [← Bool.not_eq_true, candidateIsNewer_iff, not_lt] at hold
          rw [candidateIsNewer_iff]
          refine lt_of_le_of_ne hold (fun heq => ?_)
          exact hfiles e hemem hpath (rank_fileId e x heq)

/-! ## The candidates of a document -/

/-- What a record of the metadata says, where its file is live. -/
def liveRecord (m : String × YValue) : Option Candidate :=
  match decodeFileMeta (some m.2) with
  | none => none
  | some decoded =>
      if decoded.isTombstone then none else some ⟨m.1, decoded.mtime, decoded.path⟩

def liveRecords (metadata : List (String × YValue)) : List Candidate :=
  metadata.filterMap liveRecord

/-- What an entry of the index says. A file without a record is live. -/
def indexedRecord (metadata : List (String × YValue)) (p : String × YValue) : Option Candidate :=
  match p.2 with
  | .str fileId =>
      match decodeFileMeta (entry fileId metadata) with
      | none => some ⟨fileId, none, p.1⟩
      | some decoded => if decoded.isTombstone then none else some ⟨fileId, decoded.mtime, p.1⟩
  | _ => none

def indexedRecords (document : VaultDocument) : List Candidate :=
  document.pathToId.filterMap (indexedRecord document.metadata)

/-- The live records of paths that the index does not have. -/
def outsideRecords (document : VaultDocument) : List Candidate :=
  (liveRecords document.metadata).filter (fun c =>
    !(indexedRecords document).any (fun d => d.path = c.path))

/-- The candidates of a document. -/
def Selected (document : VaultDocument) (schemaVersion : Nat) (c : Candidate) : Prop :=
  if 2 ≤ schemaVersion then Latest (liveRecords document.metadata) c
  else c ∈ indexedRecords document ∨ c ∈ outsideRecords document

/-- An entry of the index names a file. -/
def namesFile (p : String × YValue) : Bool :=
  match p.2 with
  | .str fileId => fileId ≠ ""
  | _ => false

/-- Records can be read, and so can the index, where there is one. -/
structure Readable (document : VaultDocument) (schemaVersion : Nat) : Prop where
  metadata : ∀ m ∈ document.metadata, (decodeFileMeta (some m.2)).isSome
  index : schemaVersion < 2 → ∀ p ∈ document.pathToId, namesFile p

/-- Maps have no key twice. -/
structure Keyed (document : VaultDocument) : Prop where
  metadata : (document.metadata.map Prod.fst).Nodup
  pathToId : (document.pathToId.map Prod.fst).Nodup
  idToText : (document.idToText.map Prod.fst).Nodup

/-- Each path that the index does not have has one live record. -/
def SingleOutside (document : VaultDocument) : Prop :=
  (outsideRecords document).Pairwise (fun c d => c.path ≠ d.path)

theorem liveRecord_fileId (m : String × YValue) (c : Candidate) (h : liveRecord m = some c) :
    c.fileId = m.1 := by
  unfold liveRecord at h
  split at h
  · cases h
  · split at h
    · cases h
    · rw [← Option.some.inj h]

theorem indexedRecord_path (metadata : List (String × YValue)) (p : String × YValue)
    (c : Candidate) (h : indexedRecord metadata p = some c) : c.path = p.1 := by
  unfold indexedRecord at h
  split at h
  · split at h
    · rw [← Option.some.inj h]
    · split at h
      · cases h
      · rw [← Option.some.inj h]
  · cases h

theorem liveRecords_files (metadata : List (String × YValue))
    (h : (metadata.map Prod.fst).Nodup) :
    (liveRecords metadata).Pairwise (fun c d => c.fileId ≠ d.fileId) := by
  rw [List.Nodup, List.pairwise_map] at h
  rw [liveRecords, List.pairwise_filterMap]
  apply h.imp
  intro m n hne c hc d hd
  rw [liveRecord_fileId m c hc, liveRecord_fileId n d hd]
  exact hne

theorem indexedRecords_paths (document : VaultDocument)
    (h : (document.pathToId.map Prod.fst).Nodup) :
    (indexedRecords document).Pairwise (fun c d => c.path ≠ d.path) := by
  rw [List.Nodup, List.pairwise_map] at h
  rw [indexedRecords, List.pairwise_filterMap]
  apply h.imp
  intro p q hne c hc d hd
  rw [indexedRecord_path _ p c hc, indexedRecord_path _ q d hd]
  exact hne

/-- The records are added one after the other, or one of them cannot be read. -/
theorem addMetadata_eq (skip : List Candidate → String → Bool) (metadata : List (String × YValue))
    (known : List Candidate) :
    addMetadata skip metadata known =
      if ∀ m ∈ metadata, (decodeFileMeta (some m.2)).isSome then
        .ok ((liveRecords metadata).foldl (fun known c =>
          if skip known c.path then known else addCandidate known c) known)
      else .error .snapshotInvalid := by
  induction metadata generalizing known with
  | nil => simp [addMetadata, liveRecords]
  | cons m rest ih =>
      obtain ⟨fileId, raw⟩ := m
      rw [addMetadata]
      cases hdecoded : decodeFileMeta (some raw) with
      | none => simp [hdecoded]
      | some decoded =>
          have hread : (∀ m ∈ (fileId, raw) :: rest, (decodeFileMeta (some m.2)).isSome) ↔
              ∀ m ∈ rest, (decodeFileMeta (some m.2)).isSome := by
            simp [hdecoded]
          have hlive : liveRecords ((fileId, raw) :: rest) =
              (if decoded.isTombstone then [] else [⟨fileId, decoded.mtime, decoded.path⟩]) ++
                liveRecords rest := by
            by_cases htombstone : decoded.isTombstone = true
            · simp [liveRecords, liveRecord, hdecoded, htombstone]
            · simp [liveRecords, liveRecord, hdecoded, htombstone]
          simp only [hread, hlive]
          by_cases htombstone : decoded.isTombstone = true
          · simp only [htombstone, Bool.true_or, if_true, List.nil_append, ih]
          · rw [Bool.not_eq_true] at htombstone
            simp only [htombstone, Bool.false_or, Bool.false_eq_true, if_false,
              List.singleton_append, List.foldl_cons, ih]
            by_cases hskip : skip known decoded.path = true
            · simp only [hskip, if_true]
            · rw [Bool.not_eq_true] at hskip
              simp only [hskip, Bool.false_eq_true, if_false]

/-- So are the entries of the index. -/
theorem addPaths_eq (metadata pathToId : List (String × YValue)) (known : List Candidate) :
    addPaths metadata pathToId known =
      if ∀ p ∈ pathToId, namesFile p then
        .ok ((pathToId.filterMap (indexedRecord metadata)).foldl addCandidate known)
      else .error .snapshotInvalid := by
  induction pathToId generalizing known with
  | nil => simp [addPaths]
  | cons p rest ih =>
      obtain ⟨path, raw⟩ := p
      have hall : (∀ p ∈ (path, raw) :: rest, namesFile p) ↔
          namesFile (path, raw) ∧ ∀ p ∈ rest, namesFile p := by
        simp
      rw [addPaths.eq_def]
      simp only [hall]
      cases raw with
      | str fileId =>
          by_cases hempty : fileId = ""
          · simp [hempty, namesFile]
          · have hread : namesFile (path, .str fileId) = true := decide_eq_true hempty
            simp only [hempty, if_false, hread, true_and]
            cases hdecoded : decodeFileMeta (entry fileId metadata) with
            | none =>
                simp only [ih, List.filterMap_cons, indexedRecord, hdecoded, List.foldl_cons]
            | some decoded =>
                by_cases htombstone : decoded.isTombstone = true
                · simp only [ih, List.filterMap_cons, indexedRecord, hdecoded, htombstone, if_true]
                · simp only [ih, List.filterMap_cons, indexedRecord, hdecoded, htombstone,
                    if_false, List.foldl_cons, Bool.false_eq_true]
      | _ => simp [namesFile]

/-- Records of paths that are not known are added as they come, if each has a path of its own. -/
theorem mem_foldl_unknown (records known : List Candidate)
    (hsingle : (records.filter (fun c => !known.any (fun d => d.path = c.path))).Pairwise
      (fun c d => c.path ≠ d.path)) (c : Candidate) :
    c ∈ records.foldl (fun known c =>
        if known.any (fun d => d.path = c.path) then known else addCandidate known c) known ↔
      c ∈ known ∨ c ∈ records.filter (fun c => !known.any (fun d => d.path = c.path)) := by
  induction records generalizing known with
  | nil => simp
  | cons x rest ih =>
      rw [List.foldl_cons]
      by_cases hknown : known.any (fun d => d.path = x.path) = true
      · have hskip : (x :: rest).filter (fun c => !known.any (fun d => d.path = c.path)) =
            rest.filter (fun c => !known.any (fun d => d.path = c.path)) :=
          List.filter_cons_of_neg (by rw [hknown]; exact Bool.false_ne_true)
        rw [hskip] at hsingle ⊢
        rw [if_pos hknown]
        exact ih known hsingle
      · rw [Bool.not_eq_true] at hknown
        have htake : (x :: rest).filter (fun c => !known.any (fun d => d.path = c.path)) =
            x :: rest.filter (fun c => !known.any (fun d => d.path = c.path)) :=
          List.filter_cons_of_pos (by rw [hknown]; rfl)
        rw [htake, List.pairwise_cons] at hsingle
        obtain ⟨hfirst, hrest⟩ := hsingle
        have hadd : addCandidate known x = known ++ [x] := by
          unfold addCandidate
          rw [List.find?_eq_none.mpr]
          intro d hd
          exact List.any_eq_false.mp hknown d hd
        -- No other record that is not known has the path of this one.
        have hfilter : rest.filter (fun c => !(known ++ [x]).any (fun d => d.path = c.path)) =
            rest.filter (fun c => !known.any (fun d => d.path = c.path)) := by
          apply List.filter_congr
          intro d hd
          rw [List.any_append, List.any_cons, List.any_nil, Bool.or_false]
          by_cases hunknown : known.any (fun e => e.path = d.path) = true
          · rw [hunknown, Bool.true_or]
          · rw [Bool.not_eq_true] at hunknown
            have hne := hfirst d (List.mem_filter.mpr ⟨hd, by rw [hunknown]; rfl⟩)
            rw [hunknown, Bool.false_or, decide_eq_false hne]
        rw [if_neg (by rw [hknown]; exact Bool.false_ne_true), hadd, htake,
          ih (known ++ [x]) (by rw [hfilter]; exact hrest), hfilter, List.mem_append,
          List.mem_singleton, List.mem_cons, or_assoc]

/-- Where paths are told apart, all candidates that were added are left. -/
theorem mem_foldl_paths (candidates : List Candidate)
    (h : candidates.Pairwise (fun c d => c.path ≠ d.path)) (c : Candidate) :
    c ∈ candidates.foldl addCandidate [] ↔ c ∈ candidates := by
  have hrivals : Rivals candidates := h.imp (fun hne hsame => absurd hsame hne)
  rw [mem_foldl_addCandidate candidates hrivals]
  constructor
  · exact fun hc => hc.1
  · intro hc
    refine ⟨hc, fun other hother hpath => ?_⟩
    have hnodup : (candidates.map Candidate.path).Nodup := List.pairwise_map.mpr h
    rw [List.inj_on_of_nodup_map hnodup hother hc hpath, ← Bool.not_eq_true, candidateIsNewer_iff]
    exact lt_irrefl _

/-- The candidates that are computed are those of the document, if it can be read. -/
theorem activeCandidates_ok (document : VaultDocument) (schemaVersion : Nat)
    (hkeyed : Keyed document) (hsingle : schemaVersion < 2 → SingleOutside document)
    (hreadable : Readable document schemaVersion) :
    ∃ candidates, activeCandidates document schemaVersion = .ok candidates ∧
      ∀ c, c ∈ candidates ↔ Selected document schemaVersion c := by
  unfold activeCandidates Selected
  by_cases hversion : 2 ≤ schemaVersion
  · simp only [hversion, if_true, addMetadata_eq, if_pos hreadable.metadata]
    refine ⟨_, rfl, fun c => ?_⟩
    have hrivals : Rivals (liveRecords document.metadata) := by
      apply (liveRecords_files _ hkeyed.metadata).imp
      exact fun hne _ => hne
    simp only [Bool.false_eq_true, if_false]
    exact mem_foldl_addCandidate _ hrivals c
  · have hpaths := indexedRecords_paths document hkeyed.pathToId
    have hmem := mem_foldl_paths (indexedRecords document) hpaths
    have hsame : ∀ path, ((indexedRecords document).foldl addCandidate []).any
        (fun d => d.path = path) = (indexedRecords document).any (fun d => d.path = path) := by
      intro path
      rw [Bool.eq_iff_iff, List.any_eq_true, List.any_eq_true]
      simp only [hmem]
    have houtside : (liveRecords document.metadata).filter (fun c =>
        !((indexedRecords document).foldl addCandidate []).any (fun d => d.path = c.path)) =
          outsideRecords document := by
      simp only [hsame]
      rfl
    have hadded := addPaths_eq document.metadata document.pathToId []
    rw [if_pos (hreadable.index (by omega))] at hadded
    simp only [hversion, if_false, hadded, addMetadata_eq, if_pos hreadable.metadata]
    refine ⟨_, rfl, fun c => ?_⟩
    have hunknown := mem_foldl_unknown (liveRecords document.metadata)
      ((indexedRecords document).foldl addCandidate [])
      (by rw [houtside]; exact hsingle (by omega)) c
    rw [houtside, hmem] at hunknown
    exact hunknown

theorem activeCandidates_error (document : VaultDocument) (schemaVersion : Nat)
    (hreadable : ¬ Readable document schemaVersion) :
    activeCandidates document schemaVersion = .error .snapshotInvalid := by
  unfold activeCandidates
  by_cases hversion : 2 ≤ schemaVersion
  · have hnone : ¬ ∀ m ∈ document.metadata, (decodeFileMeta (some m.2)).isSome :=
      fun hall => hreadable ⟨hall, fun hlt => absurd hversion (by omega)⟩
    simp only [hversion, if_true, addMetadata_eq, if_neg hnone]
  · simp only [hversion, if_false, addPaths_eq, addMetadata_eq]
    by_cases hindex : ∀ p ∈ document.pathToId, namesFile p
    · have hnone : ¬ ∀ m ∈ document.metadata, (decodeFileMeta (some m.2)).isSome :=
        fun hall => hreadable ⟨hall, fun _ => hindex⟩
      rw [if_pos hindex]
      simp only [if_neg hnone]
    · rw [if_neg hindex]

/-! ## The notes of the candidates -/

/-- The note of a candidate, where it has a path and a text. -/
def noteOf (u : UnicodeTables) (idToText : List (String × YValue)) (c : Candidate) :
    Option MaterializedSnapshotNote :=
  match validateMarkdownVaultPath u c.path, entry c.fileId idToText with
  | .ok validated, some (.text content) =>
      some {
        byteLength := content.utf8ByteSize
        content := content
        fileId := c.fileId
        modifiedAt := c.modifiedAt
        path := validated.path
        pathKey := validated.pathKey
        title := validated.title }
  | _, _ => none

/-- What is wrong with some candidates, by the code it fails with. -/
inductive Fault (u : UnicodeTables) (idToText : List (String × YValue))
    (chosen : Candidate → Prop) : MaterializationErrorCode → Prop
  | path (c : Candidate) (hc : chosen c) (reason : VaultPathFailureReason)
      (h : validateMarkdownVaultPath u c.path = .error reason) :
      Fault u idToText chosen .vaultPathInvalid
  | collision (c d : Candidate) (hc : chosen c) (hd : chosen d) (v w : ValidatedVaultPath)
      (hv : validateMarkdownVaultPath u c.path = .ok v)
      (hw : validateMarkdownVaultPath u d.path = .ok w) (hkey : v.pathKey = w.pathKey)
      (hpath : c.path ≠ d.path) :
      Fault u idToText chosen .vaultPathCollision
  | text (c : Candidate) (hc : chosen c)
      (h : ∀ content, entry c.fileId idToText ≠ some (.text content)) :
      Fault u idToText chosen .snapshotInvalid
  | note (c : Candidate) (hc : chosen c) (content : String)
      (h : entry c.fileId idToText = some (.text content))
      (hsize : maxMaterializedNoteBytes < content.utf8ByteSize) :
      Fault u idToText chosen .noteTooLarge
  | generation (notes : List MaterializedSnapshotNote)
      (hnotes : ∀ n ∈ notes, ∃ c, chosen c ∧ noteOf u idToText c = some n)
      (hpaths : notes.Pairwise (fun m n => m.path ≠ n.path))
      (h : maxMaterializedNotes < notes.length ∨
        maxMaterializedGenerationBytes <
          (notes.map MaterializedSnapshotNote.byteLength).sum) :
      Fault u idToText chosen .generationTooLarge

section

variable (u : UnicodeTables) (idToText : List (String × YValue))

theorem noteOf_path (c : Candidate)
    (n : MaterializedSnapshotNote) (h : noteOf u idToText c = some n) :
    n.path = c.path ∧ validateMarkdownVaultPath u c.path = .ok ⟨n.path, n.pathKey, n.title⟩ := by
  unfold noteOf at h
  split at h
  · next validated content hvalid htext =>
    have hpath := (validateMarkdownVaultPath_path u _ validated hvalid).1
    rw [← Option.some.inj h]
    exact ⟨hpath, hvalid⟩
  · cases h

/-- Every candidate of a loop that ends has its note, in its place. -/
theorem extractNotes_ok (candidates : List Candidate) (notes result : List MaterializedSnapshotNote)
    (totalBytes resultBytes : Nat)
    (h : extractNotes u idToText candidates notes totalBytes = .ok (result, resultBytes)) :
    ∃ more, result = notes ++ more ∧ candidates.map (noteOf u idToText) = more.map some := by
  induction candidates generalizing notes totalBytes with
  | nil =>
      rw [extractNotes, Except.ok.injEq, Prod.mk.injEq] at h
      exact ⟨[], by rw [List.append_nil, h.1], rfl⟩
  | cons candidate rest ih =>
      rw [extractNotes] at h
      split at h
      · cases h
      next validated hvalid =>
      split at h
      · cases h
      split at h
      · next content htext =>
        simp only [] at h
        split at h
        · cases h
        split at h
        · cases h
        obtain ⟨more, hresult, hmore⟩ := ih _ _ h
        rw [List.append_assoc, List.singleton_append] at hresult
        refine ⟨_, hresult, ?_⟩
        rw [List.map_cons, List.map_cons, hmore]
        simp only [noteOf, hvalid, htext]
      · cases h

/-- A loop that fails has come to a fault of its candidates. -/
theorem extractNotes_error (chosen : Candidate → Prop) (candidates : List Candidate)
    (notes : List MaterializedSnapshotNote) (totalBytes : Nat) (code : MaterializationErrorCode)
    (hchosen : ∀ c ∈ candidates, chosen c)
    (hdistinct : (candidates.map Candidate.path).Nodup)
    (hnotes : ∀ n ∈ notes, ∃ c, chosen c ∧ noteOf u idToText c = some n)
    (hpaths : notes.Pairwise (fun m n => m.path ≠ n.path))
    (hnew : ∀ c ∈ candidates, ∀ n ∈ notes, n.path ≠ c.path)
    (htotal : totalBytes = (notes.map MaterializedSnapshotNote.byteLength).sum)
    (h : extractNotes u idToText candidates notes totalBytes = .error code) :
    Fault u idToText chosen code := by
  induction candidates generalizing notes totalBytes with
  | nil =>
      rw [extractNotes] at h
      cases h
  | cons candidate rest ih =>
      have hcandidate := hchosen candidate List.mem_cons_self
      rw [extractNotes] at h
      split at h
      · next reason hinvalid =>
        cases h
        exact .path candidate hcandidate reason hinvalid
      next validated hvalid =>
      have hpath := (validateMarkdownVaultPath_path u _ validated hvalid).1
      split at h
      · next hcollision =>
        cases h
        obtain ⟨n, hn, hsame⟩ := List.any_eq_true.mp hcollision
        rw [Bool.and_eq_true, decide_eq_true_eq, decide_eq_true_eq, hpath] at hsame
        obtain ⟨c, hc, hnote⟩ := hnotes n hn
        obtain ⟨hcpath, hcvalid⟩ := noteOf_path u idToText c n hnote
        exact .collision c candidate hc hcandidate _ validated hcvalid hvalid hsame.1
          (hcpath ▸ hsame.2)
      split at h
      · next content htext =>
        have hnote : noteOf u idToText candidate = some
            ⟨content.utf8ByteSize, content, candidate.fileId, candidate.modifiedAt, validated.path,
              validated.pathKey, validated.title⟩ := by
          simp only [noteOf, hvalid, htext]
        -- The notes so far and the one of this candidate.
        have hmore : ∀ n ∈ notes ++ [(⟨content.utf8ByteSize, content, candidate.fileId,
            candidate.modifiedAt, validated.path, validated.pathKey, validated.title⟩ :
              MaterializedSnapshotNote)], ∃ c, chosen c ∧ noteOf u idToText c = some n := by
          intro n hn
          rcases List.mem_append.mp hn with hn | hn
          · exact hnotes n hn
          · rw [List.mem_singleton.mp hn]
            exact ⟨candidate, hcandidate, hnote⟩
        have hapart : (notes ++ [(⟨content.utf8ByteSize, content, candidate.fileId,
            candidate.modifiedAt, validated.path, validated.pathKey, validated.title⟩ :
              MaterializedSnapshotNote)]).Pairwise (fun m n => m.path ≠ n.path) := by
          apply List.pairwise_append.mpr
          constructor
          · exact hpaths
          · constructor
            · exact List.pairwise_singleton _ _
            · intro m hm n hn
              rw [List.mem_singleton.mp hn, hpath]
              exact hnew candidate List.mem_cons_self m hm
        simp only [] at h
        split at h
        · next hsize =>
          cases h
          exact .note candidate hcandidate content htext hsize
        split at h
        · next hbounds =>
          cases h
          apply Fault.generation _ hmore hapart
          rw [List.length_append, List.length_singleton, List.map_append, List.sum_append,
            List.map_singleton, List.sum_singleton, ← htotal]
          dsimp only
          omega
        · rw [List.map_cons, List.nodup_cons] at hdistinct
          refine ih _ _ (fun c hc => hchosen c (List.mem_cons_of_mem _ hc)) hdistinct.2 hmore
            hapart ?_ ?_ h
          · intro c hc n hn
            rcases List.mem_append.mp hn with hn | hn
            · exact hnew c (List.mem_cons_of_mem _ hc) n hn
            · rw [List.mem_singleton.mp hn, hpath]
              intro heq
              exact hdistinct.1 (List.mem_map.mpr ⟨c, hc, heq.symm⟩)
          · rw [List.map_append, List.sum_append, List.map_singleton, List.sum_singleton, htotal]
      · next hnone =>
        cases h
        exact .text candidate hcandidate hnone

/-- Candidates that all have their notes, within bounds and with keys of their own, have no
    fault. -/
theorem faultless (chosen : Candidate → Prop) (notes : List MaterializedSnapshotNote) (totalBytes : Nat)
    (hsnapshot : Snapshotted u notes totalBytes)
    (hchosen : ∀ c, chosen c → ∃ n ∈ notes, noteOf u idToText c = some n)
    (code : MaterializationErrorCode) : ¬ Fault u idToText chosen code := by
  intro hfault
  cases hfault with
  | path c hc reason hinvalid =>
      obtain ⟨n, -, hnote⟩ := hchosen c hc
      rw [(noteOf_path u idToText c n hnote).2] at hinvalid
      cases hinvalid
  | collision c d hc hd v w hv hw hkey hpath =>
      obtain ⟨m, hm, hmnote⟩ := hchosen c hc
      obtain ⟨n, hn, hnnote⟩ := hchosen d hd
      obtain ⟨hmpath, hmvalid⟩ := noteOf_path u idToText c m hmnote
      obtain ⟨hnpath, hnvalid⟩ := noteOf_path u idToText d n hnnote
      rw [hmvalid, Except.ok.injEq] at hv
      rw [hnvalid, Except.ok.injEq] at hw
      rw [← hv, ← hw] at hkey
      have hnodup : (notes.map MaterializedSnapshotNote.pathKey).Nodup :=
        List.pairwise_map.mpr hsnapshot.distinctKeys
      have hsame : m = n := List.inj_on_of_nodup_map hnodup hm hn hkey
      exact hpath (hmpath.symm.trans ((congrArg _ hsame).trans hnpath))
  | text c hc hnone =>
      obtain ⟨n, -, hnote⟩ := hchosen c hc
      unfold noteOf at hnote
      split at hnote
      · next content _ htext => exact hnone content htext
      · cases hnote
  | note c hc content htext hsize =>
      obtain ⟨n, hn, hnote⟩ := hchosen c hc
      have hbound := hsnapshot.bounded n hn
      unfold noteOf at hnote
      rw [htext] at hnote
      split at hnote
      · next content' _ htext' =>
        cases htext'
        rw [← Option.some.inj hnote] at hbound
        exact absurd hsize (Nat.not_lt.mpr hbound)
      · cases hnote
  | generation some hnotes hpaths hlarge =>
      have hsubset : some ⊆ notes := by
        intro n hn
        obtain ⟨c, hc, hnote⟩ := hnotes n hn
        obtain ⟨m, hm, hmnote⟩ := hchosen c hc
        rw [hnote] at hmnote
        rw [Option.some.inj hmnote]
        exact hm
      have hnodup : some.Nodup := by
        apply hpaths.imp
        intro m n hne hsame
        exact hne (congrArg _ hsame)
      obtain ⟨part, hperm, hsublist⟩ := List.subperm_of_subset hnodup hsubset
      have hlength := hsublist.length_le
      have hsum := (hsublist.map MaterializedSnapshotNote.byteLength).sum_le_sum
        (fun _ _ => Nat.zero_le _)
      rw [hperm.length_eq] at hlength
      rw [(hperm.map _).sum_eq, ← hsnapshot.total] at hsum
      have hcount := hsnapshot.count
      have htotal := hsnapshot.totalBounded
      omega

end

/-! ## What a snapshot depends on -/

/-- What is wrong with a document, by the code it fails with. -/
inductive Defect (u : UnicodeTables) (document : VaultDocument) :
    MaterializationErrorCode → Prop
  | schema (h : supportedSchemaVersion document.schemaVersion = none) :
      Defect u document .snapshotSchemaUnsupported
  | unreadable (schemaVersion : Nat)
      (hversion : supportedSchemaVersion document.schemaVersion = some schemaVersion)
      (h : ¬ Readable document schemaVersion) :
      Defect u document .snapshotInvalid
  | candidates (schemaVersion : Nat)
      (hversion : supportedSchemaVersion document.schemaVersion = some schemaVersion)
      (code : MaterializationErrorCode)
      (h : Fault u document.idToText (Selected document schemaVersion) code) :
      Defect u document code

/-- Two documents say the same, in whatever order. -/
structure SameContents (document document' : VaultDocument) : Prop where
  schemaVersion : document.schemaVersion = document'.schemaVersion
  metadata : document.metadata.Perm document'.metadata
  pathToId : document.pathToId.Perm document'.pathToId
  idToText : document.idToText.Perm document'.idToText

theorem supportedSchemaVersion_bounds (value : Option YValue) (schemaVersion : Nat)
    (h : supportedSchemaVersion value = some schemaVersion) :
    1 ≤ schemaVersion ∧ schemaVersion ≤ 3 := by
  unfold supportedSchemaVersion at h
  split at h
  · have hfound := List.find?_some h
    have hmem := List.mem_of_find?_eq_some h
    rw [Bool.and_eq_true, decide_eq_true_eq] at hfound
    rw [List.mem_range] at hmem
    exact ⟨hfound.1, Nat.lt_succ_iff.mp hmem⟩
  · cases h

section

variable {document document' : VaultDocument} (u : UnicodeTables)

theorem extract_defect (document : VaultDocument)
    (code : MaterializationErrorCode) (hkeyed : Keyed document)
    (hsingle : supportedSchemaVersion document.schemaVersion = some 1 → SingleOutside document)
    (h : extractMaterializedSnapshot u document = .error code) : Defect u document code := by
  unfold extractMaterializedSnapshot at h
  split at h
  · next hnone =>
    cases h
    exact .schema hnone
  next schemaVersion hversion =>
  have hbounds := supportedSchemaVersion_bounds _ _ hversion
  have houtside : schemaVersion < 2 → SingleOutside document := by
    intro hlt
    have hone : schemaVersion = 1 := by omega
    exact hsingle (hone ▸ hversion)
  by_cases hreadable : Readable document schemaVersion
  · obtain ⟨candidates, hcandidates, hmem⟩ :=
      activeCandidates_ok document schemaVersion hkeyed houtside hreadable
    rw [hcandidates] at h
    simp only [] at h
    split at h
    · next failed hnotes =>
      cases h
      apply Defect.candidates schemaVersion hversion
      exact extractNotes_error u document.idToText _ candidates [] 0 code
        (fun c hc => (hmem c).mp hc) (activeCandidates_paths document _ candidates hcandidates)
        (fun _ hn => nomatch hn) List.Pairwise.nil (fun _ _ _ hn => nomatch hn) rfl hnotes
    · cases h
  · rw [activeCandidates_error document schemaVersion hreadable] at h
    cases h
    exact .unreadable schemaVersion hversion hreadable

theorem extract_version (document : VaultDocument)
    (snapshot : MaterializedSnapshot)
    (h : extractMaterializedSnapshot u document = .ok snapshot) :
    supportedSchemaVersion document.schemaVersion = some snapshot.schemaVersion := by
  unfold extractMaterializedSnapshot at h
  split at h
  · cases h
  next schemaVersion hversion =>
  split at h
  · cases h
  split at h
  · cases h
  rw [← Except.ok.inj h]
  exact hversion

/-- The notes of a snapshot are those of the document's candidates, and nothing is wrong with
    the document. -/
theorem extract_notes (document : VaultDocument)
    (snapshot : MaterializedSnapshot) (hkeyed : Keyed document)
    (hsingle : supportedSchemaVersion document.schemaVersion = some 1 → SingleOutside document)
    (h : extractMaterializedSnapshot u document = .ok snapshot) :
    supportedSchemaVersion document.schemaVersion = some snapshot.schemaVersion ∧
      (∀ n, n ∈ snapshot.notes ↔ ∃ c, Selected document snapshot.schemaVersion c ∧
        noteOf u document.idToText c = some n) ∧
      ∀ code, ¬ Defect u document code := by
  have hsnapshot := extract_ok u document snapshot h
  unfold extractMaterializedSnapshot at h
  split at h
  · cases h
  next schemaVersion hversion =>
  have hbounds := supportedSchemaVersion_bounds _ _ hversion
  have houtside : schemaVersion < 2 → SingleOutside document := by
    intro hlt
    have hone : schemaVersion = 1 := by omega
    exact hsingle (hone ▸ hversion)
  have hreadable : Readable document schemaVersion := by
    by_contra hunreadable
    rw [activeCandidates_error document schemaVersion hunreadable] at h
    cases h
  obtain ⟨candidates, hcandidates, hmem⟩ :=
    activeCandidates_ok document schemaVersion hkeyed houtside hreadable
  rw [hcandidates] at h
  simp only [] at h
  split at h
  · cases h
  next notes totalBytes hnotes =>
  rw [Except.ok.injEq] at h
  subst h
  obtain ⟨more, hmore, hmap⟩ := extractNotes_ok u _ candidates [] notes 0 totalBytes hnotes
  rw [List.nil_append] at hmore
  subst hmore
  have hnote : ∀ n, n ∈ notes ↔ ∃ c, Selected document schemaVersion c ∧
      noteOf u document.idToText c = some n := by
    intro n
    have hboth : some n ∈ notes.map some ↔
        some n ∈ candidates.map (noteOf u document.idToText) := by
      rw [hmap]
    rw [List.mem_map_of_injective (Option.some_injective _), List.mem_map] at hboth
    simp only [hboth, hmem]
  have hsorted : ∀ n, n ∈ notes.insertionSort
      (fun left right => u.localeLe left.pathKey right.pathKey) ↔ n ∈ notes :=
    fun n => List.mem_insertionSort _
  refine ⟨hversion, fun n => (hsorted n).trans (hnote n), fun code hdefect => ?_⟩
  cases hdefect with
  | schema hnone =>
      rw [hversion] at hnone
      cases hnone
  | unreadable version hother hunreadable =>
      rw [hversion, Option.some.injEq] at hother
      exact hunreadable (hother ▸ hreadable)
  | candidates version hother _ hfault =>
      rw [hversion, Option.some.injEq] at hother
      subst hother
      refine faultless u _ _ _ totalBytes hsnapshot (fun c hc => ?_) code hfault
      -- A candidate of the document is among those of the loop, which all have their notes.
      have hloop : noteOf u document.idToText c ∈ notes.map some := by
        rw [← hmap]
        exact List.mem_map_of_mem ((hmem c).mpr hc)
      obtain ⟨n, hn, heq⟩ := List.mem_map.mp hloop
      exact ⟨n, (hsorted n).mpr hn, heq.symm⟩

/-- Every candidate of a document with a snapshot has its note. -/
theorem selected_note (document : VaultDocument) (schemaVersion : Nat)
    (hversion : supportedSchemaVersion document.schemaVersion = some schemaVersion)
    (hnone : ∀ code, ¬ Defect u document code) (c : Candidate)
    (hc : Selected document schemaVersion c) : ∃ n, noteOf u document.idToText c = some n := by
  unfold noteOf
  cases hvalid : validateMarkdownVaultPath u c.path with
  | error reason =>
      exact absurd (.candidates schemaVersion hversion _ (.path c hc reason hvalid)) (hnone _)
  | ok validated =>
      split
      · exact ⟨_, rfl⟩
      · next htext =>
        exact absurd (.candidates schemaVersion hversion _ (.text c hc (fun content hentry =>
          htext validated content rfl hentry))) (hnone _)

theorem mem_entry (entries : List (String × YValue)) (key : String) (value : YValue)
    (hnodup : (entries.map Prod.fst).Nodup) :
    entry key entries = some value ↔ (key, value) ∈ entries := by
  unfold entry
  constructor
  · intro h
    obtain ⟨found, hfound, hvalue⟩ := Option.map_eq_some_iff.mp h
    have hkey : found.1 = key := by
      simpa using List.find?_some hfound
    rw [← hkey, ← hvalue]
    exact List.mem_of_find?_eq_some hfound
  · intro hmem
    cases hfound : entries.find? (fun e => e.1 = key) with
    | none =>
        have hother := List.find?_eq_none.mp hfound (key, value) hmem
        simp at hother
    | some found =>
        have hkey : found.1 = key := by
          simpa using List.find?_some hfound
        rw [List.inj_on_of_nodup_map hnodup (List.mem_of_find?_eq_some hfound) hmem hkey]
        rfl

theorem entry_perm (entries entries' : List (String × YValue)) (hperm : entries.Perm entries')
    (hnodup : (entries.map Prod.fst).Nodup) (key : String) :
    entry key entries = entry key entries' := by
  have hnodup' : (entries'.map Prod.fst).Nodup := (hperm.map _).nodup_iff.mp hnodup
  apply Option.ext
  intro value
  rw [mem_entry entries key value hnodup, mem_entry entries' key value hnodup', hperm.mem_iff]

theorem SameContents.symm (h : SameContents document document') : SameContents document' document :=
  ⟨h.schemaVersion.symm, h.metadata.symm, h.pathToId.symm, h.idToText.symm⟩

theorem SameContents.keyed (h : SameContents document document') (hkeyed : Keyed document) : Keyed document' :=
  ⟨(h.metadata.map _).nodup_iff.mp hkeyed.metadata, (h.pathToId.map _).nodup_iff.mp hkeyed.pathToId,
    (h.idToText.map _).nodup_iff.mp hkeyed.idToText⟩

theorem SameContents.liveRecords {document document' : VaultDocument}
    (h : SameContents document document') :
    (liveRecords document.metadata).Perm (liveRecords document'.metadata) :=
  h.metadata.filterMap _

theorem SameContents.indexedRecords {document document' : VaultDocument}
    (h : SameContents document document') (hkeyed : Keyed document) :
    (indexedRecords document).Perm (indexedRecords document') := by
  have hrecord : indexedRecord document.metadata = indexedRecord document'.metadata := by
    funext p
    unfold indexedRecord
    simp only [entry_perm _ _ h.metadata hkeyed.metadata]
  unfold Materialization.indexedRecords
  rw [hrecord]
  exact h.pathToId.filterMap _

theorem SameContents.outsideRecords {document document' : VaultDocument}
    (h : SameContents document document') (hkeyed : Keyed document) :
    (outsideRecords document).Perm (outsideRecords document') := by
  have hindexed : ∀ path, (Materialization.indexedRecords document).any (fun d => d.path = path) =
      (Materialization.indexedRecords document').any (fun d => d.path = path) :=
    fun path => (h.indexedRecords hkeyed).any_eq
  unfold Materialization.outsideRecords
  simp only [hindexed]
  exact h.liveRecords.filter _

theorem SameContents.singleOutside (h : SameContents document document') (hkeyed : Keyed document)
    (hsingle : SingleOutside document) : SingleOutside document' :=
  ((h.outsideRecords hkeyed).pairwise_iff (fun hne => Ne.symm hne)).mp hsingle

theorem SameContents.selected (h : SameContents document document') (hkeyed : Keyed document) (schemaVersion : Nat)
    (c : Candidate) : Selected document schemaVersion c ↔ Selected document' schemaVersion c := by
  unfold Selected Latest
  simp only [h.liveRecords.mem_iff, (h.indexedRecords hkeyed).mem_iff,
    (h.outsideRecords hkeyed).mem_iff]

theorem SameContents.readable (h : SameContents document document') (schemaVersion : Nat) :
    Readable document schemaVersion ↔ Readable document' schemaVersion := by
  constructor
  · intro hreadable
    exact ⟨fun m hm => hreadable.metadata m (h.metadata.mem_iff.mpr hm),
      fun hlt p hp => hreadable.index hlt p (h.pathToId.mem_iff.mpr hp)⟩
  · intro hreadable
    exact ⟨fun m hm => hreadable.metadata m (h.metadata.mem_iff.mp hm),
      fun hlt p hp => hreadable.index hlt p (h.pathToId.mem_iff.mp hp)⟩

theorem SameContents.noteOf {document document' : VaultDocument} (u : UnicodeTables)
    (h : SameContents document document') (hkeyed : Keyed document) (c : Candidate) :
    noteOf u document.idToText c = noteOf u document'.idToText c := by
  unfold Materialization.noteOf
  rw [entry_perm _ _ h.idToText hkeyed.idToText]

/-- What is wrong with a document does not depend on the order of its maps. -/
theorem SameContents.defect (h : SameContents document document') (hkeyed : Keyed document)
    (code : MaterializationErrorCode) (hdefect : Defect u document code) :
    Defect u document' code := by
  cases hdefect with
  | schema hnone => exact .schema (h.schemaVersion ▸ hnone)
  | unreadable version hversion hunreadable =>
      apply Defect.unreadable version (h.schemaVersion ▸ hversion)
      rw [← h.readable]
      exact hunreadable
  | candidates version hversion _ hfault =>
      apply Defect.candidates version (h.schemaVersion ▸ hversion)
      have hselected := h.selected hkeyed version
      have hentry := entry_perm _ _ h.idToText hkeyed.idToText
      cases hfault with
      | path c hc reason hinvalid => exact .path c ((hselected c).mp hc) reason hinvalid
      | collision c d hc hd v w hv hw hkey hpath =>
          exact .collision c d ((hselected c).mp hc) ((hselected d).mp hd) v w hv hw hkey hpath
      | text c hc hnone =>
          apply Fault.text c ((hselected c).mp hc)
          rw [← hentry]
          exact hnone
      | note c hc content htext hsize =>
          refine .note c ((hselected c).mp hc) content ?_ hsize
          rw [← hentry]
          exact htext
      | generation notes hnotes hpaths hlarge =>
          refine .generation notes (fun n hn => ?_) hpaths hlarge
          obtain ⟨c, hc, hnote⟩ := hnotes n hn
          exact ⟨c, (hselected c).mp hc, (h.noteOf u hkeyed c).symm.trans hnote⟩

/-- Snapshots whose notes are the same, in an order of their keys. -/
structure SameSnapshot (u : UnicodeTables) (snapshot snapshot' : MaterializedSnapshot) :
    Prop where
  schemaVersion : snapshot.schemaVersion = snapshot'.schemaVersion
  totalBytes : snapshot.totalBytes = snapshot'.totalBytes
  notes : snapshot.notes.Perm snapshot'.notes
  sorted : snapshot.notes.Pairwise (fun m n => u.localeLe m.pathKey n.pathKey = true)
  sorted' : snapshot'.notes.Pairwise (fun m n => u.localeLe m.pathKey n.pathKey = true)

theorem Snapshotted.nodup {u : UnicodeTables} {notes : List MaterializedSnapshotNote}
    {totalBytes : Nat} (h : Snapshotted u notes totalBytes) : notes.Nodup := by
  apply h.distinctKeys.imp
  intro m n hne hsame
  exact hne (congrArg _ hsame)

theorem extract_sorted (document : VaultDocument)
    (snapshot : MaterializedSnapshot)
    (htotal : ∀ s t, u.localeLe s t = true ∨ u.localeLe t s = true)
    (htrans : ∀ s t r, u.localeLe s t = true → u.localeLe t r = true → u.localeLe s r = true)
    (h : extractMaterializedSnapshot u document = .ok snapshot) :
    snapshot.notes.Pairwise (fun m n => u.localeLe m.pathKey n.pathKey = true) := by
  unfold extractMaterializedSnapshot at h
  split at h
  · cases h
  split at h
  · cases h
  split at h
  · cases h
  next notes totalBytes hnotes =>
  rw [Except.ok.injEq] at h
  have : Std.Total (fun m n : MaterializedSnapshotNote => u.localeLe m.pathKey n.pathKey = true) :=
    ⟨fun m n => htotal m.pathKey n.pathKey⟩
  have : IsTrans MaterializedSnapshotNote
      (fun m n => u.localeLe m.pathKey n.pathKey = true) :=
    ⟨fun m n k => htrans m.pathKey n.pathKey k.pathKey⟩
  rw [← h]
  exact List.pairwise_insertionSort _ notes

end

/-- Where the order of the locale tells the keys apart, the snapshots are equal. -/
theorem SameSnapshot.eq {u : UnicodeTables} {snapshot snapshot' : MaterializedSnapshot}
    (h : SameSnapshot u snapshot snapshot')
    (hapart : ∀ m ∈ snapshot.notes, ∀ n ∈ snapshot.notes,
      u.localeLe m.pathKey n.pathKey = true → u.localeLe n.pathKey m.pathKey = true → m = n) :
    snapshot = snapshot' := by
  have hnotes : snapshot.notes = snapshot'.notes := by
    apply h.notes.eq_of_pairwise _ h.sorted h.sorted'
    intro m n hm hn hle hge
    exact hapart m hm n (h.notes.mem_iff.mpr hn) hle hge
  cases snapshot
  cases snapshot'
  simp only [MaterializedSnapshot.mk.injEq]
  exact ⟨hnotes, h.schemaVersion, h.totalBytes⟩

/-- A snapshot depends on what the maps say: on the candidates, which are the newest live records
    of their paths or, in the first schema, those of the index and the others outside it. What is
    left to the order of the maps is which of several defects is reported, and how notes are
    listed whose keys the order of the locale does not tell apart. -/
theorem extract_agrees (u : UnicodeTables)
    (htotal : ∀ s t, u.localeLe s t = true ∨ u.localeLe t s = true)
    (htrans : ∀ s t r, u.localeLe s t = true → u.localeLe t r = true → u.localeLe s r = true)
    (document document' : VaultDocument) (hsame : SameContents document document')
    (hkeyed : Keyed document)
    (hsingle : supportedSchemaVersion document.schemaVersion = some 1 → SingleOutside document) :
    (∃ snapshot snapshot', extractMaterializedSnapshot u document = .ok snapshot ∧
      extractMaterializedSnapshot u document' = .ok snapshot' ∧
      SameSnapshot u snapshot snapshot' ∧
      ((∀ m ∈ snapshot.notes, ∀ n ∈ snapshot.notes, u.localeLe m.pathKey n.pathKey = true →
        u.localeLe n.pathKey m.pathKey = true → m = n) → snapshot = snapshot') ∧
      supportedSchemaVersion document.schemaVersion = some snapshot.schemaVersion ∧
      ∀ n, n ∈ snapshot.notes ↔ ∃ c, Selected document snapshot.schemaVersion c ∧
        noteOf u document.idToText c = some n) ∨
    (∃ code code', extractMaterializedSnapshot u document = .error code ∧
      extractMaterializedSnapshot u document' = .error code' ∧
      Defect u document code ∧ Defect u document code' ∧
      ((∀ other, Defect u document other → other = code) → code' = code)) := by
  have hkeyed' := hsame.keyed hkeyed
  have hsingle' : supportedSchemaVersion document'.schemaVersion = some 1 →
      SingleOutside document' := by
    intro hone
    apply hsame.singleOutside hkeyed
    apply hsingle
    rw [hsame.schemaVersion]
    exact hone
  cases hextract : extractMaterializedSnapshot u document with
  | error code =>
      have hdefect := extract_defect u document code hkeyed hsingle hextract
      cases hextract' : extractMaterializedSnapshot u document' with
      | error code' =>
          have hdefect' := hsame.symm.defect u hkeyed' code'
            (extract_defect u document' code' hkeyed' hsingle' hextract')
          exact Or.inr ⟨code, code', rfl, rfl, hdefect, hdefect', fun hone => hone code' hdefect'⟩
      | ok snapshot' =>
          obtain ⟨-, -, hnone⟩ := extract_notes u document' snapshot' hkeyed' hsingle' hextract'
          exact absurd (hsame.defect u hkeyed code hdefect) (hnone code)
  | ok snapshot =>
      obtain ⟨hversion, hnotes, hnone⟩ :=
        extract_notes u document snapshot hkeyed hsingle hextract
      cases hextract' : extractMaterializedSnapshot u document' with
      | error code' =>
          have hdefect' := extract_defect u document' code' hkeyed' hsingle' hextract'
          exact absurd (hsame.symm.defect u hkeyed' code' hdefect') (hnone code')
      | ok snapshot' =>
          obtain ⟨hversion', hnotes', -⟩ :=
            extract_notes u document' snapshot' hkeyed' hsingle' hextract'
          have hok := extract_ok u document snapshot hextract
          have hok' := extract_ok u document' snapshot' hextract'
          have hschema : snapshot.schemaVersion = snapshot'.schemaVersion := by
            rw [← hsame.schemaVersion, hversion, Option.some.injEq] at hversion'
            exact hversion'
          have hperm : snapshot.notes.Perm snapshot'.notes := by
            rw [List.perm_ext_iff_of_nodup hok.nodup hok'.nodup]
            intro n
            simp only [hnotes, hnotes', ← hschema, hsame.selected hkeyed, hsame.noteOf u hkeyed]
          have hagree : SameSnapshot u snapshot snapshot' :=
            { schemaVersion := hschema
              totalBytes := by rw [hok.total, hok'.total, (hperm.map _).sum_eq]
              notes := hperm
              sorted := extract_sorted u document snapshot htotal htrans hextract
              sorted' := extract_sorted u document' snapshot' htotal htrans hextract' }
          exact Or.inl ⟨snapshot, snapshot', rfl, rfl, hagree, hagree.eq, hversion, hnotes⟩

/-! ## Documents whose order shows -/

/-- A live record of a path, changed at a time. -/
def liveMetadata (fileId path : String) (mtime : Nat) : String × YValue :=
  (fileId, .map [("path", .str path), ("mtime", .num (Decimal.ofNat mtime))])

/-- A document of two files with their texts. -/
def twoFiles (schemaVersion : Nat) (metadata pathToId : List (String × YValue)) : VaultDocument :=
  { schemaVersion := some (.num (Decimal.ofNat schemaVersion))
    metadata := metadata
    pathToId := pathToId
    idToText := [("f1", .text "x"), ("f2", .text "y")] }

/-- Texts of one normal form are not told apart by the order of the locale. -/
def caronLocale : UnicodeTables :=
  { Agent.caronTables with
    localeLe := fun left right => Agent.caronTables.nfc left ≤ Agent.caronTables.nfc right }

/-- The files of a snapshot's notes, in their order. -/
def filesOf (result : Except MaterializationErrorCode MaterializedSnapshot) :
    Option (List String) :=
  result.toOption.map (fun snapshot => snapshot.notes.map MaterializedSnapshotNote.fileId)

/-- A capital J with a caron, and a small one as a single character. -/
def caronPaths : String × String :=
  (String.ofList ['J', Char.ofNat 0x30C, '.', 'm', 'd'],
    String.ofList [Char.ofNat 0x1F0, '.', 'm', 'd'])

theorem caron_agrees :
    ∃ snapshot snapshot',
      extractMaterializedSnapshot caronLocale (twoFiles 2
        [liveMetadata "f1" caronPaths.1 1, liveMetadata "f2" caronPaths.2 1] []) = .ok snapshot ∧
      extractMaterializedSnapshot caronLocale (twoFiles 2
        [liveMetadata "f2" caronPaths.2 1, liveMetadata "f1" caronPaths.1 1] []) = .ok snapshot' ∧
      SameSnapshot caronLocale snapshot snapshot' := by
  have htotal : ∀ s t, caronLocale.localeLe s t = true ∨ caronLocale.localeLe t s = true := by
    intro s t
    simp only [caronLocale, decide_eq_true_eq]
    exact String.le_total _ _
  have htrans : ∀ s t r, caronLocale.localeLe s t = true → caronLocale.localeLe t r = true →
      caronLocale.localeLe s r = true := by
    intro s t r hst htr
    simp only [caronLocale, decide_eq_true_eq] at hst htr ⊢
    exact String.le_trans hst htr
  have hfiles : filesOf (extractMaterializedSnapshot caronLocale (twoFiles 2
      [liveMetadata "f1" caronPaths.1 1, liveMetadata "f2" caronPaths.2 1] [])) =
        some ["f1", "f2"] := by
    decide +kernel
  have hversion : supportedSchemaVersion (some (.num (Decimal.ofNat 2))) ≠ some 1 := by
    decide +kernel
  rcases extract_agrees caronLocale htotal htrans
      (twoFiles 2 [liveMetadata "f1" caronPaths.1 1, liveMetadata "f2" caronPaths.2 1] [])
      (twoFiles 2 [liveMetadata "f2" caronPaths.2 1, liveMetadata "f1" caronPaths.1 1] [])
      ⟨rfl, List.Perm.swap _ _ _, List.Perm.refl _, List.Perm.refl _⟩
      ⟨by simp [twoFiles, liveMetadata], by simp [twoFiles], by simp [twoFiles]⟩
      (fun hone => absurd hone hversion) with
    ⟨snapshot, snapshot', hok, hok', hsame, -⟩ | ⟨code, -, herror, -⟩
  · exact ⟨snapshot, snapshot', hok, hok', hsame⟩
  · rw [herror] at hfiles
    cases hfiles

/-- In the first schema the first of two records outside the index is taken, and an older record of
    the index before a newer one. In the second, keys of one normal form are listed in the order of
    the document. -/
theorem order_shows :
    (filesOf (extractMaterializedSnapshot caronLocale
        (twoFiles 1 [liveMetadata "f1" "a.md" 1, liveMetadata "f2" "a.md" 2] [])) =
          some ["f1"] ∧
      filesOf (extractMaterializedSnapshot caronLocale
        (twoFiles 1 [liveMetadata "f2" "a.md" 2, liveMetadata "f1" "a.md" 1] [])) =
          some ["f2"]) ∧
    filesOf (extractMaterializedSnapshot caronLocale
      (twoFiles 1 [liveMetadata "f1" "a.md" 1, liveMetadata "f2" "a.md" 2]
        [("a.md", .str "f1")])) = some ["f1"] ∧
    (filesOf (extractMaterializedSnapshot caronLocale
        (twoFiles 2 [liveMetadata "f1" caronPaths.1 1, liveMetadata "f2" caronPaths.2 1] [])) =
          some ["f1", "f2"] ∧
      filesOf (extractMaterializedSnapshot caronLocale
        (twoFiles 2 [liveMetadata "f2" caronPaths.2 1, liveMetadata "f1" caronPaths.1 1] [])) =
          some ["f2", "f1"]) := by
  decide +kernel

end Mdevolved.Materialization
