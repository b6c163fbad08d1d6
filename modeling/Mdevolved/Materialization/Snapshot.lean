import Mdevolved.Vault.Document
import Mdevolved.Vault.Path

/-!
# Snapshots

The notes of a vault as one generation of the library will hold them, computed
from the document alone. Every live file is a candidate; of two candidates for
one path the newer wins. Each candidate's path has to be valid, its text
present and within the size of a note, and no two paths may share a key. The
first candidate that fails fails the snapshot.

`extract_ok` collects what a snapshot that was returned satisfies. It is what
the later stages rely on, so it is proved once, along the loop over the
candidates.

## Main definitions

* `MaterializationErrorCode`: Why a snapshot or a job fails.
* `MaterializedSnapshotNote`, `MaterializedSnapshot`: A snapshot and its notes.
* `activeCandidates`: The live file of each path.
* `extractMaterializedSnapshot`: The snapshot of a document.
* `Snapshotted`: What the notes of a snapshot satisfy.

## Theorems

* `activeCandidates_paths`: Candidates have distinct paths.
* `extractNotes_snapshotted`: The loop keeps what it has collected valid.
* `extract_ok`: What a snapshot that was returned satisfies.
-/

namespace Mdevolved.Materialization

open Mdevolved.Vault

def maxMaterializedNotes : Nat := 2000

def maxMaterializedNoteBytes : Nat := 1024 * 1024

def maxMaterializedGenerationBytes : Nat := 32 * 1024 * 1024

def serverMinSchemaVersion : Nat := 1

def serverMaxSchemaVersion : Nat := 3

/-- `MaterializationFailureCode`, and the code of everything that may pass. -/
inductive MaterializationErrorCode
  | generationTooLarge | noteTooLarge | snapshotInvalid | snapshotSchemaUnsupported
  | vaultPathCollision | vaultPathInvalid | materializationUnavailable
  deriving DecidableEq

structure MaterializedSnapshotNote where
  byteLength : Nat
  content : String
  fileId : String
  modifiedAt : Option Decimal
  path : String
  pathKey : String
  title : String

structure MaterializedSnapshot where
  notes : List MaterializedSnapshotNote
  schemaVersion : Nat
  totalBytes : Nat

structure Candidate where
  fileId : String
  modifiedAt : Option Decimal
  path : String

/-- The UTF-16 code units of a character. -/
def utf16Units (c : Char) : List Nat :=
  if c.toNat < 0x10000 then [c.toNat]
  else [0xD800 + (c.toNat - 0x10000) / 0x400, 0xDC00 + (c.toNat - 0x10000) % 0x400]

/-- The order of strings, which is that of their code units. -/
def utf16Lt (s t : String) : Bool :=
  s.toList.flatMap utf16Units < t.toList.flatMap utf16Units

def candidateIsNewer (candidate existing : Candidate) : Bool :=
  let candidateMtime := candidate.modifiedAt.getD Decimal.zero
  let existingMtime := existing.modifiedAt.getD Decimal.zero
  if candidateMtime ≠ existingMtime then existingMtime.lt candidateMtime
  else utf16Lt existing.fileId candidate.fileId

/-- Add a candidate. It takes the place of an older one for its path. -/
def addCandidate (candidates : List Candidate) (candidate : Candidate) : List Candidate :=
  match candidates.find? (fun c => c.path = candidate.path) with
  | none => candidates ++ [candidate]
  | some existing =>
      if candidateIsNewer candidate existing then
        candidates.map (fun c => if c.path = candidate.path then candidate else c)
      else candidates

/-- Candidates from metadata. `skip` is what the caller leaves out besides
    deleted files. -/
def addMetadata (skip : List Candidate → String → Bool) :
    List (String × YValue) → List Candidate → Except MaterializationErrorCode (List Candidate)
  | [], candidates => .ok candidates
  | (fileId, rawMetadata) :: rest, candidates =>
      match decodeFileMeta (some rawMetadata) with
      | none => .error .snapshotInvalid
      | some decoded =>
          if decoded.isTombstone || skip candidates decoded.path then
            addMetadata skip rest candidates
          else
            addMetadata skip rest
              (addCandidate candidates ⟨fileId, decoded.mtime, decoded.path⟩)

/-- Candidates from the path index of the first schema. -/
def addPaths (metadata : List (String × YValue)) :
    List (String × YValue) → List Candidate → Except MaterializationErrorCode (List Candidate)
  | [], candidates => .ok candidates
  | (path, rawFileId) :: rest, candidates =>
      match rawFileId with
      | .str fileId =>
          if fileId = "" then .error .snapshotInvalid
          else
            match decodeFileMeta (entry fileId metadata) with
            | none => addPaths metadata rest (addCandidate candidates ⟨fileId, none, path⟩)
            | some decoded =>
                if decoded.isTombstone then addPaths metadata rest candidates
                else addPaths metadata rest (addCandidate candidates ⟨fileId, decoded.mtime, path⟩)
      | _ => .error .snapshotInvalid

/-- The live file of each path. The first schema indexes files by path and adds
    from the metadata only paths the index does not have. -/
def activeCandidates (document : VaultDocument) (schemaVersion : Nat) :
    Except MaterializationErrorCode (List Candidate) :=
  if 2 ≤ schemaVersion then addMetadata (fun _ _ => false) document.metadata []
  else
    match addPaths document.metadata document.pathToId [] with
    | .error code => .error code
    | .ok candidates =>
        addMetadata (fun known path => known.any (fun c => c.path = path)) document.metadata
          candidates

/-- The loop over the candidates, with the notes and bytes collected so far.
    The keys seen are those of the notes. -/
def extractNotes (u : UnicodeTables) (idToText : List (String × YValue)) :
    List Candidate → List MaterializedSnapshotNote → Nat →
      Except MaterializationErrorCode (List MaterializedSnapshotNote × Nat)
  | [], notes, totalBytes => .ok (notes, totalBytes)
  | candidate :: rest, notes, totalBytes =>
      match validateMarkdownVaultPath u candidate.path with
      | .error _ => .error .vaultPathInvalid
      | .ok validated =>
          if notes.any (fun n => n.pathKey = validated.pathKey && n.path ≠ validated.path) then
            .error .vaultPathCollision
          else
            match entry candidate.fileId idToText with
            | some (.text content) =>
                let byteLength := content.utf8ByteSize
                if maxMaterializedNoteBytes < byteLength then .error .noteTooLarge
                else if maxMaterializedNotes ≤ notes.length ∨
                    maxMaterializedGenerationBytes < totalBytes + byteLength then
                  .error .generationTooLarge
                else
                  extractNotes u idToText rest
                    (notes ++ [{
                      byteLength := byteLength
                      content := content
                      fileId := candidate.fileId
                      modifiedAt := candidate.modifiedAt
                      path := validated.path
                      pathKey := validated.pathKey
                      title := validated.title }])
                    (totalBytes + byteLength)
            | _ => .error .snapshotInvalid

/-- A schema version the server knows. -/
def supportedSchemaVersion : Option YValue → Option Nat
  | some (.num n) =>
      (List.range (serverMaxSchemaVersion + 1)).find?
        (fun v => serverMinSchemaVersion ≤ v && Decimal.ofNat v = n)
  | _ => none

/-- The snapshot of a document, its notes in the order of their keys. -/
def extractMaterializedSnapshot (u : UnicodeTables) (document : VaultDocument) :
    Except MaterializationErrorCode MaterializedSnapshot :=
  match supportedSchemaVersion document.schemaVersion with
  | none => .error .snapshotSchemaUnsupported
  | some schemaVersion =>
      match activeCandidates document schemaVersion with
      | .error code => .error code
      | .ok candidates =>
          match extractNotes u document.idToText candidates [] 0 with
          | .error code => .error code
          | .ok (notes, totalBytes) =>
              .ok {
                notes := notes.insertionSort
                  (fun left right => u.localeLe left.pathKey right.pathKey)
                schemaVersion := schemaVersion
                totalBytes := totalBytes }

/-- Adding a candidate keeps paths distinct: it is added only where its path is
    new, and otherwise takes its path's place. -/
theorem addCandidate_paths (candidates : List Candidate) (candidate : Candidate)
    (h : (candidates.map Candidate.path).Nodup) :
    ((addCandidate candidates candidate).map Candidate.path).Nodup := by
  unfold addCandidate
  split
  · next hnone =>
    rw [List.map_append, List.map_singleton]
    refine List.nodup_append.mpr ⟨h, List.nodup_singleton _, ?_⟩
    intro p hp q hq heq
    rcases List.mem_map.mp hp with ⟨c, hc, hcp⟩
    have hnot := List.find?_eq_none.mp hnone c hc
    rw [List.mem_singleton] at hq
    exact hnot (by rw [decide_eq_true_eq, hcp, heq, hq])
  · split
    · have hpaths : (candidates.map (fun c => if c.path = candidate.path then candidate else c)).map
          Candidate.path = candidates.map Candidate.path := by
        rw [List.map_map]
        refine List.map_congr_left (fun c _ => ?_)
        by_cases hc : c.path = candidate.path
        · rw [Function.comp, if_pos hc, hc]
        · simp only [Function.comp, if_neg hc]
      rw [hpaths]
      exact h
    · exact h

theorem addMetadata_paths (skip : List Candidate → String → Bool)
    (metadata : List (String × YValue)) (candidates result : List Candidate)
    (h : (candidates.map Candidate.path).Nodup)
    (hr : addMetadata skip metadata candidates = .ok result) :
    (result.map Candidate.path).Nodup := by
  induction metadata generalizing candidates with
  | nil =>
      rw [addMetadata, Except.ok.injEq] at hr
      exact hr ▸ h
  | cons m rest ih =>
      rcases m with ⟨fileId, rawMetadata⟩
      rw [addMetadata] at hr
      split at hr
      · cases hr
      · split at hr
        · exact ih candidates h hr
        · exact ih _ (addCandidate_paths candidates _ h) hr

theorem addPaths_paths (metadata pathToId : List (String × YValue))
    (candidates result : List Candidate) (h : (candidates.map Candidate.path).Nodup)
    (hr : addPaths metadata pathToId candidates = .ok result) :
    (result.map Candidate.path).Nodup := by
  induction pathToId generalizing candidates with
  | nil =>
      rw [addPaths, Except.ok.injEq] at hr
      exact hr ▸ h
  | cons p rest ih =>
      rcases p with ⟨path, rawFileId⟩
      rw [addPaths.eq_def] at hr
      simp only [] at hr
      split at hr
      · split at hr
        · cases hr
        · split at hr
          · exact ih _ (addCandidate_paths candidates _ h) hr
          · split at hr
            · exact ih candidates h hr
            · exact ih _ (addCandidate_paths candidates _ h) hr
      · cases hr

/-- Candidates have distinct paths. -/
theorem activeCandidates_paths (document : VaultDocument) (schemaVersion : Nat)
    (result : List Candidate) (hr : activeCandidates document schemaVersion = .ok result) :
    (result.map Candidate.path).Nodup := by
  unfold activeCandidates at hr
  split at hr
  · exact addMetadata_paths _ _ [] result List.nodup_nil hr
  · split at hr
    · cases hr
    · next candidates hpaths =>
      exact addMetadata_paths _ _ candidates result
        (addPaths_paths _ _ [] candidates List.nodup_nil hpaths) hr

/-- What the notes of a snapshot satisfy: each validates to what it says, is as
    long as its text, and is within bounds, and no two share a key. -/
structure Snapshotted (u : UnicodeTables) (notes : List MaterializedSnapshotNote)
    (totalBytes : Nat) : Prop where
  validated : ∀ n ∈ notes,
    validateMarkdownVaultPath u n.path = .ok ⟨n.path, n.pathKey, n.title⟩
  sized : ∀ n ∈ notes, n.byteLength = n.content.utf8ByteSize
  bounded : ∀ n ∈ notes, n.byteLength ≤ maxMaterializedNoteBytes
  distinctKeys : notes.Pairwise (fun m n => m.pathKey ≠ n.pathKey)
  count : notes.length ≤ maxMaterializedNotes
  total : totalBytes = (notes.map MaterializedSnapshotNote.byteLength).sum
  totalBounded : totalBytes ≤ maxMaterializedGenerationBytes

/-- One more note, of a path that none of the others has. -/
theorem snapshotted_concat (u : UnicodeTables) (notes : List MaterializedSnapshotNote)
    (totalBytes : Nat) (note : MaterializedSnapshotNote) (h : Snapshotted u notes totalBytes)
    (hvalid : validateMarkdownVaultPath u note.path = .ok ⟨note.path, note.pathKey, note.title⟩)
    (hsize : note.byteLength = note.content.utf8ByteSize)
    (hbound : note.byteLength ≤ maxMaterializedNoteBytes)
    (hkey : ∀ n ∈ notes, n.pathKey ≠ note.pathKey)
    (hcount : notes.length < maxMaterializedNotes)
    (htotal : totalBytes + note.byteLength ≤ maxMaterializedGenerationBytes) :
    Snapshotted u (notes ++ [note]) (totalBytes + note.byteLength) := by
  have hall : ∀ P : MaterializedSnapshotNote → Prop, (∀ n ∈ notes, P n) → P note →
      ∀ n ∈ notes ++ [note], P n := by
    intro P hold hnew n hn
    rcases List.mem_append.mp hn with hmem | hmem
    · exact hold n hmem
    · exact List.mem_singleton.mp hmem ▸ hnew
  exact {
    validated := hall _ h.validated hvalid
    sized := hall _ h.sized hsize
    bounded := hall _ h.bounded hbound
    distinctKeys := by
      refine List.pairwise_append.mpr ⟨h.distinctKeys, List.pairwise_singleton _ _, ?_⟩
      intro m hm n hn
      rw [List.mem_singleton.mp hn]
      exact hkey m hm
    count := by
      rw [List.length_append, List.length_singleton]
      omega
    total := by
      rw [List.map_append, List.sum_append, List.map_singleton, List.sum_singleton, ← h.total]
    totalBounded := htotal }

/-- The loop keeps what it has collected valid, as long as the paths still to
    come are new. -/
theorem extractNotes_snapshotted (u : UnicodeTables) (idToText : List (String × YValue))
    (candidates : List Candidate) (notes result : List MaterializedSnapshotNote)
    (totalBytes resultBytes : Nat) (h : Snapshotted u notes totalBytes)
    (hdistinct : (candidates.map Candidate.path).Nodup)
    (hnew : ∀ c ∈ candidates, ∀ n ∈ notes, n.path ≠ c.path)
    (hr : extractNotes u idToText candidates notes totalBytes = .ok (result, resultBytes)) :
    Snapshotted u result resultBytes := by
  induction candidates generalizing notes totalBytes with
  | nil =>
      rw [extractNotes, Except.ok.injEq, Prod.mk.injEq] at hr
      exact hr.1 ▸ hr.2 ▸ h
  | cons candidate rest ih =>
      rw [extractNotes] at hr
      split at hr
      · cases hr
      next validated hvalidated =>
      have hpath := (validateMarkdownVaultPath_path u _ validated hvalidated).1
      split at hr
      · cases hr
      next hcollision =>
      split at hr
      · next content htext =>
        simp only [] at hr
        split at hr
        · cases hr
        next hsize =>
        split at hr
        · cases hr
        next hbounds =>
        rw [List.map_cons, List.nodup_cons] at hdistinct
        have hold := hnew candidate List.mem_cons_self
        have hfits : content.utf8ByteSize ≤ maxMaterializedNoteBytes := by omega
        have htotal : totalBytes + content.utf8ByteSize ≤ maxMaterializedGenerationBytes := by omega
        refine ih _ _ ?_ hdistinct.2 ?_ hr
        · refine snapshotted_concat u notes totalBytes _ h ?_ rfl hfits ?_ (by omega) htotal
          · simp only [hpath]
            rw [hvalidated, ← hpath]
          · -- A note with the same key has another path, which is a collision.
            intro n hn hsame
            refine hcollision (List.any_eq_true.mpr ⟨n, hn, ?_⟩)
            rw [Bool.and_eq_true, decide_eq_true_eq, decide_eq_true_eq, hpath]
            exact ⟨hsame, hold n hn⟩
        · intro c hc n hn
          rcases List.mem_append.mp hn with hmem | hmem
          · exact hnew c (List.mem_cons_of_mem _ hc) n hmem
          · rw [List.mem_singleton.mp hmem]
            simp only [hpath]
            intro heq
            exact hdistinct.1 (List.mem_map.mpr ⟨c, hc, heq.symm⟩)
      · cases hr

/-- The order of the notes does not matter to any of it. -/
theorem snapshotted_perm (u : UnicodeTables) (notes notes' : List MaterializedSnapshotNote)
    (totalBytes : Nat) (hp : notes'.Perm notes) (h : Snapshotted u notes totalBytes) :
    Snapshotted u notes' totalBytes :=
  { validated := fun n hn => h.validated n (hp.subset hn)
    sized := fun n hn => h.sized n (hp.subset hn)
    bounded := fun n hn => h.bounded n (hp.subset hn)
    distinctKeys := (hp.pairwise_iff (fun hne => Ne.symm hne)).mpr h.distinctKeys
    count := hp.length_eq ▸ h.count
    total := by rw [h.total]; exact ((hp.map _).sum_eq).symm
    totalBounded := h.totalBounded }

/-- What a snapshot that was returned satisfies. -/
theorem extract_ok (u : UnicodeTables) (document : VaultDocument)
    (snapshot : MaterializedSnapshot)
    (h : extractMaterializedSnapshot u document = .ok snapshot) :
    Snapshotted u snapshot.notes snapshot.totalBytes := by
  unfold extractMaterializedSnapshot at h
  split at h
  · cases h
  split at h
  · cases h
  next candidates hcandidates =>
  split at h
  · cases h
  next notes totalBytes hnotes =>
  rw [Except.ok.injEq] at h
  have hstart : Snapshotted u [] 0 :=
    { validated := fun _ hn => nomatch hn
      sized := fun _ hn => nomatch hn
      bounded := fun _ hn => nomatch hn
      distinctKeys := List.Pairwise.nil
      count := Nat.zero_le _
      total := rfl
      totalBounded := Nat.zero_le _ }
  have hdone := extractNotes_snapshotted u _ candidates [] notes 0 totalBytes hstart
    (activeCandidates_paths document _ candidates hcandidates) (fun _ _ _ hn => nomatch hn) hnotes
  rw [← h]
  exact snapshotted_perm u notes _ totalBytes (List.perm_insertionSort _ _) hdone

end Mdevolved.Materialization
