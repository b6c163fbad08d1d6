import Mdevolved.Materialization.Extraction

/-!
# Restoring a Note

A note of the document is taken back to an earlier text. Where the path has a note, its text
and its metadata are rewritten in place. Where it has none, what is left of deleted ones is
cleared away and a new file is added.

What the snapshot of the document has afterwards is told from its live records, record by
record. Both ways one record is put into a map, under a file that has none or under the file
of the note, so that `put_snapshot` covers them. It asks that no other live record of the path
is newer, which a new file meets by itself: it is the only one.

## Main definitions

* `setEntry`, `deleteEntries`: Writing to a shared map.
* `ensureNestedMetaEntry`: Metadata as a nested map.
* `removePathTombstones`: Clearing away deleted files of a path.
* `applyMarkdownNoteRestore`: Restoring a note.
* `Restored`: What a restored note looks like to the snapshot.

## Theorems

* `mem_liveRecords`: A live record is told by the entry of its file.
* `latest_exists`: A path with live records has a newest one.
* `put_snapshot`: The snapshot after a record was put into the maps.
* `restore_created`, `restore_updated`: What restoring does.
* `applyMarkdownNoteRestore_restored`: The note is restored.
-/

namespace Mdevolved.Vault

open Materialization

def restoreDevice : String := "owd-restore"

inductive VaultContentFailureCode
  | generationTooLarge | noteExists | noteNotFound | noteStale | noteTombstoned | noteTooLarge
  | snapshotInvalid | snapshotSchemaUnsupported | vaultBusy | vaultNotActive
  | vaultPathCollision | vaultPathInvalid | vaultPersistenceUnavailable
  deriving DecidableEq

/-- A failure of the snapshot, as one of the content. -/
def contentError : MaterializationErrorCode → Option VaultContentFailureCode
  | .generationTooLarge => some .generationTooLarge
  | .noteTooLarge => some .noteTooLarge
  | .snapshotInvalid => some .snapshotInvalid
  | .snapshotSchemaUnsupported => some .snapshotSchemaUnsupported
  | .vaultPathCollision => some .vaultPathCollision
  | .vaultPathInvalid => some .vaultPathInvalid
  | .materializationUnavailable => none

/-! ## Writing to the maps -/

/-- Set an entry, which keeps its place if it is there. -/
def setEntry (key : String) (value : YValue) (entries : List (String × YValue)) :
    List (String × YValue) :=
  if entries.any (fun e => e.1 = key) then
    entries.map (fun e => if e.1 = key then (key, value) else e)
  else entries ++ [(key, value)]

def deleteEntries (keys : List String) (entries : List (String × YValue)) :
    List (String × YValue) :=
  entries.filter (fun e => e.1 ∉ keys)

/-- Metadata of a live file. -/
def createNestedActiveMeta (path : String) (mtime : Decimal) (device : String) : YValue :=
  .map [("path", .str path), ("mtime", .num mtime), ("device", .str device)]

/-- Decoded metadata as a nested map. The time of a deletion that has none is the clock's. The
    device is set by whoever asks for the map. -/
def createNestedMetaFromDecoded (clock : Decimal) (decoded : DecodedFileMeta) :
    List (String × YValue) :=
  if decoded.isTombstone then
    [("path", .str decoded.path), ("deletedAt", .num (decoded.deletedAt.getD clock))]
  else
    [("path", .str decoded.path)] ++
      (decoded.mtime.map (fun mtime => ("mtime", YValue.num mtime))).toList

/-- The metadata of a file as a nested map, which is made if it is not there. -/
def ensureNestedMetaEntry (clock : Decimal) (metadata : List (String × YValue)) (fileId : String)
    (fallback : DecodedFileMeta) : List (String × YValue) :=
  match entry fileId metadata with
  | some (.map entries) => entries
  | existing =>
      match decodeFileMeta existing with
      | some decoded => createNestedMetaFromDecoded clock decoded
      | none => createNestedMetaFromDecoded clock fallback

/-- The deleted files of a path. -/
def pathTombstones (u : UnicodeTables) (document : VaultDocument) (pathKey : String) :
    List String :=
  (document.metadata.filter (fun m =>
    match decodeFileMeta (some m.2) with
    | none => false
    | some decoded =>
        decoded.isTombstone &&
          match validateMarkdownVaultPath u decoded.path with
          | .ok validated => validated.pathKey = pathKey
          | .error _ => false)).map Prod.fst

def removePathTombstones (u : UnicodeTables) (document : VaultDocument) (pathKey : String) :
    VaultDocument :=
  let tombstoneIds := pathTombstones u document pathKey
  { document with
    metadata := deleteEntries tombstoneIds document.metadata
    idToText := deleteEntries tombstoneIds document.idToText
    pathToId := document.pathToId.filter (fun p =>
      match p.2 with
      | .str fileId => fileId ∉ tombstoneIds
      | _ => true) }

/-! ## Restoring -/

structure RestoreMarkdownNoteRequest where
  content : String
  contentSha256 : String
  expectedTargetContentSha256 : Option String
  modifiedAt : Option Decimal
  path : String

structure StableSnapshotNote where
  snapshot : MaterializedSnapshot
  note : MaterializedSnapshotNote

structure LiveMarkdownNote where
  content : String
  contentVersion : String
  modifiedAt : Option Decimal
  path : String

inductive RestoreOperation
  | created | unchanged | updated
  deriving DecidableEq

/-- A restored note, with the document it is in. -/
structure RestoreMutation where
  document : VaultDocument
  note : LiveMarkdownNote
  operation : RestoreOperation

/-- The identity of a note that may have to be added, and the version of its text. -/
structure NoteIdentity where
  contentVersion : String
  fileId : String

def ensureGenerationBounds (snapshot : MaterializedSnapshot)
    (previousByteLength nextByteLength : Nat) (creating : Bool) :
    Except VaultContentFailureCode Unit :=
  if maxMaterializedNoteBytes < nextByteLength then .error .noteTooLarge
  else if creating = true ∧ maxMaterializedNotes ≤ snapshot.notes.length then
    .error .generationTooLarge
  else if maxMaterializedGenerationBytes <
      snapshot.totalBytes - previousByteLength + nextByteLength then
    .error .generationTooLarge
  else .ok ()

/-- The fields of restored metadata. -/
def restoredMeta (entries : List (String × YValue)) (path : String) (modifiedAt : Decimal) :
    List (String × YValue) :=
  setEntry "device" (.str restoreDevice)
    (setEntry "mtime" (.num modifiedAt)
      (deleteEntries ["deletedAt"] (deleteEntries ["deleted"]
        (setEntry "path" (.str path) entries))))

/-- A note is added, and what was deleted at its path is cleared away. -/
def createRestored (u : UnicodeTables) (document : VaultDocument) (pathKey path content : String)
    (modifiedAt : Decimal) (fileId : String) : VaultDocument :=
  let cleared := removePathTombstones u document pathKey
  { cleared with
    idToText := setEntry fileId (.text content) cleared.idToText
    metadata :=
      setEntry fileId (createNestedActiveMeta path modifiedAt restoreDevice) cleared.metadata }

/-- The text and the metadata of a note are rewritten. -/
def updateRestored (document : VaultDocument) (clock : Decimal) (note : MaterializedSnapshotNote)
    (content : String) (modifiedAt : Decimal) : VaultDocument :=
  { document with
    idToText := setEntry note.fileId (.text content) document.idToText
    metadata := setEntry note.fileId
      (.map (restoredMeta
        (ensureNestedMetaEntry clock document.metadata note.fileId
          ⟨note.path, none, false, some modifiedAt⟩)
        note.path modifiedAt)) document.metadata }

/-- Restore a note. The maps are written only after every check has passed. -/
def applyMarkdownNoteRestore (u : UnicodeTables) (document : VaultDocument)
    (request : RestoreMarkdownNoteRequest) (expectedNote : Option StableSnapshotNote)
    (now : Decimal) (identity : NoteIdentity) :
    Except VaultContentFailureCode RestoreMutation :=
  match validateMarkdownVaultPath u request.path with
  | .error _ => .error .vaultPathInvalid
  | .ok validated =>
      let nextByteLength := request.content.utf8ByteSize
      let modifiedAt := request.modifiedAt.getD now
      match expectedNote with
      | none =>
          match extractMaterializedSnapshot u document with
          | .error code => .error ((contentError code).getD .snapshotInvalid)
          | .ok snapshot =>
              if snapshot.notes.any (fun n => n.pathKey = validated.pathKey) then
                .error .noteStale
              else
                match ensureGenerationBounds snapshot 0 nextByteLength true with
                | .error code => .error code
                | .ok () =>
                    .ok {
                      document := createRestored u document validated.pathKey validated.path
                        request.content modifiedAt identity.fileId
                      note := ⟨request.content, identity.contentVersion, some modifiedAt,
                        validated.path⟩
                      operation := .created }
      | some expected =>
          if expected.note.pathKey ≠ validated.pathKey then .error .noteStale
          else if expected.note.content = request.content then
            .ok {
              document := document
              note := ⟨request.content, identity.contentVersion, expected.note.modifiedAt,
                expected.note.path⟩
              operation := .unchanged }
          else
            match ensureGenerationBounds expected.snapshot expected.note.byteLength nextByteLength
                false, entry expected.note.fileId document.idToText with
            | .error code, _ => .error code
            | .ok (), some (.text _) =>
                .ok {
                  document := updateRestored document now expected.note request.content modifiedAt
                  note := ⟨request.content, identity.contentVersion, some modifiedAt,
                    expected.note.path⟩
                  operation := .updated }
            | .ok (), _ => .error .snapshotInvalid

/-! ## What is in the maps -/

section Entries

variable {entries : List (String × YValue)} {key : String} {value : YValue}

theorem setEntry_keys (h : (entries.map Prod.fst).Nodup) :
    ((setEntry key value entries).map Prod.fst).Nodup := by
  unfold setEntry
  split
  · have hkeys : (entries.map (fun e => if e.1 = key then (key, value) else e)).map Prod.fst =
        entries.map Prod.fst := by
      rw [List.map_map]
      apply List.map_congr_left
      intro e he
      by_cases hkey : e.1 = key
      · simp [hkey]
      · simp [hkey]
    rw [hkeys]
    exact h
  · next hnone =>
    rw [List.map_append, List.map_singleton, List.nodup_append]
    refine ⟨h, List.nodup_singleton _, fun k hk l hl heq => hnone ?_⟩
    obtain ⟨e, he, hek⟩ := List.mem_map.mp hk
    rw [List.mem_singleton] at hl
    exact List.any_eq_true.mpr ⟨e, he, decide_eq_true (hek.trans (heq.trans hl))⟩

theorem entry_setEntry (other : String) :
    entry other (setEntry key value entries) =
      if other = key then some value else entry other entries := by
  unfold entry setEntry
  by_cases hany : entries.any (fun e => e.1 = key) = true
  · rw [if_pos hany]
    induction entries with
    | nil => cases hany
    | cons e rest ih =>
        rw [List.map_cons, List.find?_cons, List.find?_cons]
        by_cases hkey : e.1 = key
        · by_cases hother : other = key
          · simp [hkey, hother]
          · have hne : ¬ key = other := fun heq => hother heq.symm
            simp only [hkey, if_true, hne, decide_false, if_neg hother]
            by_cases hrest : rest.any (fun e => e.1 = key) = true
            · rw [ih hrest, if_neg hother]
            · rw [List.any_eq_true, not_exists] at hrest
              congr 1
              congr 1
              conv_rhs => rw [← List.map_id rest]
              apply List.map_congr_left
              intro d hd
              have hdkey : ¬ d.1 = key := fun heq => hrest d ⟨hd, decide_eq_true heq⟩
              simp [hdkey]
        · rw [List.any_cons, decide_eq_false hkey, Bool.false_or] at hany
          simp only [hkey, if_false]
          by_cases hsame : e.1 = other
          · have hother : ¬ other = key := fun heq => hkey (hsame.trans heq)
            simp [hsame, hother]
          · simp only [hsame, decide_false]
            exact ih hany
  · rw [if_neg hany, List.find?_append]
    by_cases hother : other = key
    · have hnone : entries.find? (fun e => decide (e.1 = other)) = none := by
        rw [List.find?_eq_none]
        intro e he
        rw [Bool.not_eq_true, List.any_eq_false] at hany
        rw [hother]
        exact hany e he
      rw [hnone, if_pos hother]
      simp [hother]
    · have hne : ¬ key = other := fun heq => hother heq.symm
      simp [hother, hne]

theorem entry_deleteEntries (keys : List String) (other : String) :
    entry other (deleteEntries keys entries) =
      if other ∈ keys then none else entry other entries := by
  unfold entry deleteEntries
  rw [List.find?_filter]
  by_cases hmem : other ∈ keys
  · rw [if_pos hmem, Option.map_eq_none_iff, List.find?_eq_none]
    intro e he hboth
    simp only [decide_eq_true_eq] at hboth
    exact hboth.1 (hboth.2.symm ▸ hmem)
  · rw [if_neg hmem]
    congr 1
    congr 1
    funext e
    by_cases hsame : e.1 = other
    · simp [hsame, hmem]
    · simp [hsame]

end Entries

/-! ## The snapshot after a record was put -/

/-- A live record is told by the entry of its file. -/
theorem mem_liveRecords (metadata : List (String × YValue))
    (h : (metadata.map Prod.fst).Nodup) (c : Candidate) :
    c ∈ liveRecords metadata ↔
      ∃ value, entry c.fileId metadata = some value ∧ liveRecord (c.fileId, value) = some c := by
  rw [liveRecords, List.mem_filterMap]
  constructor
  · rintro ⟨m, hm, hlive⟩
    rw [liveRecord_fileId m c hlive]
    exact ⟨m.2, (mem_entry metadata m.1 m.2 h).mpr hm, hlive⟩
  · rintro ⟨value, hentry, hlive⟩
    exact ⟨(c.fileId, value), (mem_entry metadata c.fileId value h).mp hentry, hlive⟩

theorem snapshotted_sublist (u : UnicodeTables) (notes part : List MaterializedSnapshotNote)
    (totalBytes : Nat) (hpart : part.Sublist notes) (h : Snapshotted u notes totalBytes) :
    Snapshotted u part (part.map MaterializedSnapshotNote.byteLength).sum :=
  { validated := fun n hn => h.validated n (hpart.subset hn)
    sized := fun n hn => h.sized n (hpart.subset hn)
    bounded := fun n hn => h.bounded n (hpart.subset hn)
    distinctKeys := h.distinctKeys.sublist hpart
    count := hpart.length_le.trans h.count
    total := rfl
    totalBounded := by
      have hsum := (hpart.map MaterializedSnapshotNote.byteLength).sum_le_sum
        (fun _ _ => Nat.zero_le _)
      rw [← h.total] at hsum
      exact hsum.trans h.totalBounded }

/-- No other live record of the path of a record is newer. -/
def Newest (document : VaultDocument) (c : Candidate) : Prop :=
  ∀ other ∈ liveRecords document.metadata, other.fileId ≠ c.fileId → other.path = c.path →
    candidateIsNewer other c = false

/-- A record is put into the maps, and nothing else that is live changes. -/
structure Puts (document document' : VaultDocument) (c : Candidate) (content : String) :
    Prop where
  keyed : Keyed document'
  schemaVersion : document'.schemaVersion = document.schemaVersion
  record : ∃ value, entry c.fileId document'.metadata = some value ∧
    liveRecord (c.fileId, value) = some c
  readable : ∀ m ∈ document'.metadata, (decodeFileMeta (some m.2)).isSome
  replaces : ∀ d ∈ liveRecords document.metadata, d.fileId = c.fileId → d.path = c.path
  others : ∀ d, d.fileId ≠ c.fileId →
    (d ∈ liveRecords document'.metadata ↔ d ∈ liveRecords document.metadata)
  text : entry c.fileId document'.idToText = some (.text content)
  texts : ∀ d ∈ liveRecords document.metadata, d.fileId ≠ c.fileId →
    entry d.fileId document'.idToText = entry d.fileId document.idToText

/-- The newest records of a document that a record was put into. -/
theorem latest_put (document document' : VaultDocument) (c : Candidate) (content : String)
    (hputs : Puts document document' c content) (hnewest : Newest document c) (d : Candidate) :
    Latest (liveRecords document'.metadata) d ↔
      d = c ∨ (Latest (liveRecords document.metadata) d ∧ d.path ≠ c.path) := by
  have hrecord : c ∈ liveRecords document'.metadata :=
    (mem_liveRecords _ hputs.keyed.metadata c).mpr hputs.record
  have hfile : ∀ e ∈ liveRecords document'.metadata, e.fileId = c.fileId → e = c := by
    intro e he hsame
    obtain ⟨value, hentry, hlive⟩ := (mem_liveRecords _ hputs.keyed.metadata e).mp he
    obtain ⟨value', hentry', hlive'⟩ := hputs.record
    rw [hsame, hentry', Option.some.injEq] at hentry
    rw [hsame, ← hentry, hlive'] at hlive
    exact (Option.some.inj hlive).symm
  constructor
  · intro ⟨hmem, hlatest⟩
    by_cases hsame : d.fileId = c.fileId
    · exact Or.inl (hfile d hmem hsame)
    · have hold := (hputs.others d hsame).mp hmem
      have hpath : d.path ≠ c.path := by
        intro hpath
        have hdc := hnewest d hold hsame hpath
        have hcd := hlatest c hrecord hpath.symm
        rw [← Bool.not_eq_true, candidateIsNewer_iff, not_lt] at hdc hcd
        exact hsame (rank_fileId d c (le_antisymm hdc hcd))
      refine Or.inr ⟨⟨hold, fun other hother hotherPath => ?_⟩, hpath⟩
      by_cases hotherFile : other.fileId = c.fileId
      · exact absurd ((hotherPath.symm.trans (hputs.replaces other hother hotherFile))) hpath
      · exact hlatest other ((hputs.others other hotherFile).mpr hother) hotherPath
  · rintro (rfl | ⟨⟨hold, hlatest⟩, hpath⟩)
    · refine ⟨hrecord, fun other hother hotherPath => ?_⟩
      by_cases hotherFile : other.fileId = d.fileId
      · rw [hfile other hother hotherFile, ← Bool.not_eq_true, candidateIsNewer_iff]
        exact lt_irrefl _
      · exact hnewest other ((hputs.others other hotherFile).mp hother) hotherFile hotherPath
    · have hfileId : d.fileId ≠ c.fileId := fun hsame => hpath (hputs.replaces d hold hsame)
      refine ⟨(hputs.others d hfileId).mpr hold, fun other hother hotherPath => ?_⟩
      by_cases hotherFile : other.fileId = c.fileId
      · rw [hfile other hother hotherFile] at hotherPath
        exact absurd hotherPath.symm hpath
      · exact hlatest other ((hputs.others other hotherFile).mp hother) hotherPath

/-- The snapshot of a document that a record was put into: its note takes the place of what was
    at its path. -/
theorem put_snapshot (u : UnicodeTables) (document document' : VaultDocument)
    (snapshot : MaterializedSnapshot) (c : Candidate) (content : String)
    (note : MaterializedSnapshotNote) (hkeyed : Keyed document)
    (hsnapshot : extractMaterializedSnapshot u document = .ok snapshot)
    (hschema : 2 ≤ snapshot.schemaVersion) (hputs : Puts document document' c content)
    (hnewest : Newest document c) (hnote : noteOf u document'.idToText c = some note)
    (hkeys : ∀ n ∈ snapshot.notes, n.pathKey = note.pathKey → n.path = c.path)
    (hsize : note.byteLength ≤ maxMaterializedNoteBytes)
    (hcount : (snapshot.notes.filter (fun n => n.path ≠ c.path)).length < maxMaterializedNotes)
    (hbytes : ((snapshot.notes.filter (fun n => n.path ≠ c.path)).map
      MaterializedSnapshotNote.byteLength).sum + note.byteLength ≤
        maxMaterializedGenerationBytes) :
    ∃ snapshot', extractMaterializedSnapshot u document' = .ok snapshot' ∧
      ∀ n, n ∈ snapshot'.notes ↔ n = note ∨ (n ∈ snapshot.notes ∧ n.path ≠ c.path) := by
  have hversion := extract_version u document snapshot hsnapshot
  have hversion' : supportedSchemaVersion document'.schemaVersion =
      some snapshot.schemaVersion := by
    rw [hputs.schemaVersion]
    exact hversion
  have hsingle : supportedSchemaVersion document.schemaVersion = some 1 →
      SingleOutside document := by
    intro hone
    rw [hversion, Option.some.injEq] at hone
    omega
  have hsingle' : supportedSchemaVersion document'.schemaVersion = some 1 →
      SingleOutside document' := by
    intro hone
    rw [hversion', Option.some.injEq] at hone
    omega
  obtain ⟨-, hnotes, hnone⟩ := extract_notes u document snapshot hkeyed hsingle hsnapshot
  have hselected : ∀ d, Selected document snapshot.schemaVersion d ↔
      Latest (liveRecords document.metadata) d := by
    intro d
    rw [Selected, if_pos hschema]
  have hselected' : ∀ d, Selected document' snapshot.schemaVersion d ↔
      d = c ∨ (Latest (liveRecords document.metadata) d ∧ d.path ≠ c.path) := by
    intro d
    rw [Selected, if_pos hschema]
    exact latest_put document document' c content hputs hnewest d
  -- The notes of the candidates that stay are what they were.
  have hstays : ∀ d, Latest (liveRecords document.metadata) d → d.path ≠ c.path →
      noteOf u document'.idToText d = noteOf u document.idToText d := by
    intro d hd hpath
    have hfile : d.fileId ≠ c.fileId := fun hsame => hpath (hputs.replaces d hd.1 hsame)
    unfold noteOf
    rw [hputs.texts d hd.1 hfile]
  have hnotePath := (noteOf_path u _ c note hnote).1
  have hvalid := (noteOf_path u _ c note hnote).2
  have hok := extract_ok u document snapshot hsnapshot
  have hrest := snapshotted_sublist u snapshot.notes
    (snapshot.notes.filter (fun n => n.path ≠ c.path)) snapshot.totalBytes List.filter_sublist hok
  have hsized : note.byteLength = note.content.utf8ByteSize := by
    unfold noteOf at hnote
    split at hnote
    · rw [← Option.some.inj hnote]
    · cases hnote
  have htarget : Snapshotted u (snapshot.notes.filter (fun n => n.path ≠ c.path) ++ [note])
      (((snapshot.notes.filter (fun n => n.path ≠ c.path)).map
        MaterializedSnapshotNote.byteLength).sum + note.byteLength) := by
    apply snapshotted_concat u _ _ note hrest _ hsized hsize _ hcount hbytes
    · rw [hnotePath]
      exact hnotePath ▸ hvalid
    · intro n hn hsame
      obtain ⟨hmem, hpath⟩ := List.mem_filter.mp hn
      rw [decide_eq_true_eq] at hpath
      exact hpath (hkeys n hmem hsame)
  -- Of the candidates afterwards each has its note among these.
  have htargets : ∀ d, Selected document' snapshot.schemaVersion d →
      ∃ n ∈ snapshot.notes.filter (fun n => n.path ≠ c.path) ++ [note],
        noteOf u document'.idToText d = some n := by
    intro d hd
    rcases (hselected' d).mp hd with rfl | ⟨hlatest, hpath⟩
    · exact ⟨note, List.mem_append_right _ (List.mem_singleton_self note), hnote⟩
    · have hwas := (hselected d).mpr hlatest
      obtain ⟨n, hn⟩ := selected_note u document _ hversion hnone d hwas
      have hmem := (hnotes n).mpr ⟨d, hwas, hn⟩
      have hnpath : n.path ≠ c.path := by
        rw [(noteOf_path u _ d n hn).1]
        exact hpath
      exact ⟨n, List.mem_append_left _ (List.mem_filter.mpr ⟨hmem, decide_eq_true hnpath⟩),
        (hstays d hlatest hpath).trans hn⟩
  have hnone' : ∀ code, ¬ Defect u document' code := by
    intro code hdefect
    cases hdefect with
    | schema hunsupported =>
        rw [hversion'] at hunsupported
        cases hunsupported
    | unreadable version hother hunreadable =>
        rw [hversion', Option.some.injEq] at hother
        subst hother
        exact hunreadable ⟨hputs.readable, fun hlt => absurd hlt (by omega)⟩
    | candidates version hother _ hfault =>
        rw [hversion', Option.some.injEq] at hother
        subst hother
        exact faultless u _ _ _ _ htarget htargets code hfault
  cases hsnapshot' : extractMaterializedSnapshot u document' with
  | error code =>
      exact absurd (extract_defect u document' code hputs.keyed hsingle' hsnapshot') (hnone' code)
  | ok snapshot' =>
      obtain ⟨hschema', hnotes', -⟩ :=
        extract_notes u document' snapshot' hputs.keyed hsingle' hsnapshot'
      rw [hversion', Option.some.injEq] at hschema'
      refine ⟨snapshot', rfl, fun n => ?_⟩
      rw [hnotes', ← hschema']
      constructor
      · intro ⟨d, hd, hn⟩
        rcases (hselected' d).mp hd with rfl | ⟨hlatest, hpath⟩
        · rw [hnote] at hn
          exact Or.inl (Option.some.inj hn).symm
        · rw [hstays d hlatest hpath] at hn
          refine Or.inr ⟨(hnotes n).mpr ⟨d, (hselected d).mpr hlatest, hn⟩, ?_⟩
          rw [(noteOf_path u _ d n hn).1]
          exact hpath
      · rintro (rfl | ⟨hmem, hpath⟩)
        · exact ⟨c, (hselected' c).mpr (Or.inl rfl), hnote⟩
        · obtain ⟨d, hd, hn⟩ := (hnotes n).mp hmem
          have hlatest := (hselected d).mp hd
          have hdpath : d.path ≠ c.path := by
            rw [← (noteOf_path u _ d n hn).1]
            exact hpath
          exact ⟨d, (hselected' d).mpr (Or.inr ⟨hlatest, hdpath⟩),
            (hstays d hlatest hdpath).trans hn⟩

/-! ## What restoring puts into the maps -/

theorem mem_setEntry (entries : List (String × YValue)) (key : String) (value : YValue)
    (e : String × YValue) (h : e ∈ setEntry key value entries) : e = (key, value) ∨ e ∈ entries := by
  unfold setEntry at h
  split at h
  · obtain ⟨d, hd, heq⟩ := List.mem_map.mp h
    by_cases hkey : d.1 = key
    · rw [if_pos hkey] at heq
      exact Or.inl heq.symm
    · rw [if_neg hkey] at heq
      exact Or.inr (heq ▸ hd)
  · rcases List.mem_append.mp h with h | h
    · exact Or.inr h
    · exact Or.inl (List.mem_singleton.mp h)

theorem deleteEntries_keys (keys : List String) (entries : List (String × YValue))
    (h : (entries.map Prod.fst).Nodup) : ((deleteEntries keys entries).map Prod.fst).Nodup :=
  h.sublist (List.filter_sublist.map _)

/-- Restored metadata says that the file is live, whatever was there before. -/
theorem decode_restoredMeta (entries : List (String × YValue)) (path : String)
    (modifiedAt : Decimal) (hpath : path ≠ "") :
    decodeFileMeta (some (.map (restoredMeta entries path modifiedAt))) =
      some ⟨path, none, false, some modifiedAt⟩ := by
  have hentry : ∀ key, entry key (restoredMeta entries path modifiedAt) =
      if key = "device" then some (.str restoreDevice)
      else if key = "mtime" then some (.num modifiedAt)
      else if key ∈ ["deletedAt"] then none
      else if key ∈ ["deleted"] then none
      else if key = "path" then some (.str path)
      else entry key entries := by
    intro key
    unfold restoredMeta
    rw [entry_setEntry, entry_setEntry, entry_deleteEntries, entry_deleteEntries, entry_setEntry]
  have hfield : entry "path" (restoredMeta entries path modifiedAt) = some (.str path) := by
    rw [hentry]
    simp
  have hdeletedAt : entry "deletedAt" (restoredMeta entries path modifiedAt) = none := by
    rw [hentry]
    simp
  have hdeleted : entry "deleted" (restoredMeta entries path modifiedAt) = none := by
    rw [hentry]
    simp
  have hmtime : entry "mtime" (restoredMeta entries path modifiedAt) = some (.num modifiedAt) := by
    rw [hentry]
    simp
  rw [decodeFileMeta, decodeFields, hfield]
  simp only [hpath, if_false, hdeletedAt, hdeleted, hmtime, finiteNumber]

theorem liveRecord_decoded (fileId path : String) (value : YValue) (mtime : Option Decimal)
    (h : decodeFileMeta (some value) = some ⟨path, none, false, mtime⟩) :
    liveRecord (fileId, value) = some ⟨fileId, mtime, path⟩ := by
  unfold liveRecord
  rw [h]
  rfl

/-- A live record is not of a deleted file. -/
theorem live_not_tombstone (u : UnicodeTables) (document : VaultDocument) (pathKey : String)
    (hkeyed : Keyed document) (c : Candidate) (hc : c ∈ liveRecords document.metadata) :
    c.fileId ∉ pathTombstones u document pathKey := by
  intro hmem
  obtain ⟨value, hentry, hlive⟩ := (mem_liveRecords _ hkeyed.metadata c).mp hc
  unfold pathTombstones at hmem
  obtain ⟨m, hm, hfile⟩ := List.mem_map.mp hmem
  obtain ⟨hin, htombstone⟩ := List.mem_filter.mp hm
  have hsame := (mem_entry document.metadata m.1 m.2 hkeyed.metadata).mpr hin
  rw [hfile, hentry, Option.some.injEq] at hsame
  rw [← hsame] at htombstone
  unfold liveRecord at hlive
  simp only [] at hlive
  cases hdecoded : decodeFileMeta (some value) with
  | none =>
      rw [hdecoded] at hlive
      cases hlive
  | some decoded =>
      rw [hdecoded] at hlive htombstone
      simp only [Bool.and_eq_true] at htombstone
      simp only [htombstone.1, if_true] at hlive
      cases hlive

theorem create_puts (u : UnicodeTables) (document : VaultDocument)
    (pathKey path content : String) (modifiedAt : Decimal) (fileId : String)
    (hkeyed : Keyed document)
    (hreadable : ∀ m ∈ document.metadata, (decodeFileMeta (some m.2)).isSome)
    (hpath : path ≠ "") (hfresh : entry fileId document.metadata = none) :
    Puts document (createRestored u document pathKey path content modifiedAt fileId)
      ⟨fileId, some modifiedAt, path⟩ content := by
  have hdecoded : decodeFileMeta (some (createNestedActiveMeta path modifiedAt restoreDevice)) =
      some ⟨path, none, false, some modifiedAt⟩ := by
    simp [createNestedActiveMeta, decodeFileMeta, decodeFields, entry, hpath, finiteNumber]
  have hmetadata : ∀ key, key ≠ fileId → entry key
      (createRestored u document pathKey path content modifiedAt fileId).metadata =
        if key ∈ pathTombstones u document pathKey then none
        else entry key document.metadata := by
    intro key hkey
    unfold createRestored removePathTombstones
    dsimp only
    rw [entry_setEntry, if_neg hkey, entry_deleteEntries]
  exact {
    keyed :=
      { metadata := setEntry_keys (deleteEntries_keys _ _ hkeyed.metadata)
        pathToId := hkeyed.pathToId.sublist (List.filter_sublist.map _)
        idToText := setEntry_keys (deleteEntries_keys _ _ hkeyed.idToText) }
    schemaVersion := rfl
    record := by
      refine ⟨createNestedActiveMeta path modifiedAt restoreDevice, ?_,
        liveRecord_decoded _ _ _ _ hdecoded⟩
      unfold createRestored
      dsimp only
      rw [entry_setEntry, if_pos rfl]
    readable := by
      intro m hm
      rcases mem_setEntry _ _ _ m hm with rfl | hm
      · rw [hdecoded]
        rfl
      · exact hreadable m (List.mem_of_mem_filter hm)
    replaces := by
      intro d hd hsame
      obtain ⟨value, hentry, -⟩ := (mem_liveRecords _ hkeyed.metadata d).mp hd
      rw [hsame, hfresh] at hentry
      cases hentry
    others := by
      intro d hd
      have hkeyed' : ((createRestored u document pathKey path content modifiedAt
          fileId).metadata.map Prod.fst).Nodup :=
        setEntry_keys (deleteEntries_keys _ _ hkeyed.metadata)
      rw [mem_liveRecords _ hkeyed' d, hmetadata d.fileId hd]
      constructor
      · intro ⟨value, hentry, hlive⟩
        split at hentry
        · cases hentry
        · exact (mem_liveRecords _ hkeyed.metadata d).mpr ⟨value, hentry, hlive⟩
      · intro hold
        rw [if_neg (live_not_tombstone u document pathKey hkeyed d hold)]
        exact (mem_liveRecords _ hkeyed.metadata d).mp hold
    text := by
      unfold createRestored
      dsimp only
      rw [entry_setEntry, if_pos rfl]
    texts := by
      intro d hd hfile
      unfold createRestored removePathTombstones
      dsimp only
      rw [entry_setEntry, if_neg hfile, entry_deleteEntries,
        if_neg (live_not_tombstone u document pathKey hkeyed d hd)] }

theorem update_puts (document : VaultDocument) (clock modifiedAt : Decimal)
    (note : MaterializedSnapshotNote) (content : String) (hkeyed : Keyed document)
    (hreadable : ∀ m ∈ document.metadata, (decodeFileMeta (some m.2)).isSome)
    (hpath : note.path ≠ "")
    (hold : ∀ d ∈ liveRecords document.metadata, d.fileId = note.fileId → d.path = note.path) :
    Puts document (updateRestored document clock note content modifiedAt)
      ⟨note.fileId, some modifiedAt, note.path⟩ content := by
  have hdecoded := fun entries => decode_restoredMeta entries note.path modifiedAt hpath
  exact {
    keyed :=
      { metadata := setEntry_keys hkeyed.metadata
        pathToId := hkeyed.pathToId
        idToText := setEntry_keys hkeyed.idToText }
    schemaVersion := rfl
    record := by
      have hentry : entry note.fileId
          (updateRestored document clock note content modifiedAt).metadata =
            some (.map (restoredMeta (ensureNestedMetaEntry clock document.metadata note.fileId
              ⟨note.path, none, false, some modifiedAt⟩) note.path modifiedAt)) := by
        unfold updateRestored
        dsimp only
        rw [entry_setEntry, if_pos rfl]
      exact ⟨_, hentry, liveRecord_decoded _ _ _ _ (hdecoded _)⟩
    readable := by
      intro m hm
      rcases mem_setEntry _ _ _ m hm with rfl | hm
      · rw [hdecoded]
        rfl
      · exact hreadable m hm
    replaces := hold
    others := by
      intro d hd
      have hkeyed' : ((updateRestored document clock note content modifiedAt).metadata.map
          Prod.fst).Nodup := setEntry_keys hkeyed.metadata
      rw [mem_liveRecords _ hkeyed' d, mem_liveRecords _ hkeyed.metadata d]
      unfold updateRestored
      dsimp only
      rw [entry_setEntry, if_neg hd]
    text := by
      unfold updateRestored
      dsimp only
      rw [entry_setEntry, if_pos rfl]
    texts := by
      intro d _ hfile
      unfold updateRestored
      dsimp only
      rw [entry_setEntry, if_neg hfile] }

/-! ## Restored notes -/

/-- The snapshot has one note of a key, with a text, and its other notes are what they were. -/
def Restored (u : UnicodeTables) (document document' : VaultDocument) (pathKey content : String) :
    Prop :=
  ∃ snapshot snapshot', extractMaterializedSnapshot u document = .ok snapshot ∧
    extractMaterializedSnapshot u document' = .ok snapshot' ∧
    (∃ n ∈ snapshot'.notes, n.pathKey = pathKey ∧ n.content = content ∧
      ∀ m ∈ snapshot'.notes, m.pathKey = pathKey → m = n) ∧
    ∀ m, m.pathKey ≠ pathKey → (m ∈ snapshot'.notes ↔ m ∈ snapshot.notes)

section

variable (u : UnicodeTables) (document : VaultDocument) (snapshot : MaterializedSnapshot)

theorem restored_of_put (document document' : VaultDocument)
    (snapshot snapshot' : MaterializedSnapshot) (note : MaterializedSnapshotNote)
    (hsnapshot : extractMaterializedSnapshot u document = .ok snapshot)
    (hsnapshot' : extractMaterializedSnapshot u document' = .ok snapshot')
    (hkeys : ∀ n ∈ snapshot.notes, n.pathKey = note.pathKey ↔ n.path = note.path)
    (hnotes : ∀ n, n ∈ snapshot'.notes ↔ n = note ∨ (n ∈ snapshot.notes ∧ n.path ≠ note.path)) :
    Restored u document document' note.pathKey note.content := by
  refine ⟨snapshot, snapshot', hsnapshot, hsnapshot', ⟨note, (hnotes note).mpr (Or.inl rfl), rfl,
    rfl, fun m hm hkey => ?_⟩, fun m hkey => ?_⟩
  · rcases (hnotes m).mp hm with rfl | ⟨hold, hpath⟩
    · rfl
    · exact absurd ((hkeys m hold).mp hkey) hpath
  · constructor
    · intro hm
      rcases (hnotes m).mp hm with rfl | ⟨hold, -⟩
      · exact absurd rfl hkey
      · exact hold
    · intro hm
      exact (hnotes m).mpr (Or.inr ⟨hm, fun hpath => hkey ((hkeys m hm).mpr hpath)⟩)

theorem applyMarkdownNoteRestore_keyed (request : RestoreMarkdownNoteRequest) (expectedNote : Option StableSnapshotNote)
    (now : Decimal) (identity : NoteIdentity) (mutation : RestoreMutation)
    (hkeyed : Keyed document)
    (h : applyMarkdownNoteRestore u document request expectedNote now identity = .ok mutation) :
    Keyed mutation.document := by
  unfold applyMarkdownNoteRestore at h
  split at h
  · cases h
  simp only [] at h
  split at h
  · split at h
    · cases h
    split at h
    · cases h
    split at h
    · cases h
    rw [← Except.ok.inj h]
    exact {
      metadata := setEntry_keys (deleteEntries_keys _ _ hkeyed.metadata)
      pathToId := hkeyed.pathToId.sublist (List.filter_sublist.map _)
      idToText := setEntry_keys (deleteEntries_keys _ _ hkeyed.idToText) }
  · split at h
    · cases h
    split at h
    · rw [← Except.ok.inj h]
      exact hkeyed
    split at h
    · cases h
    · rw [← Except.ok.inj h]
      exact {
        metadata := setEntry_keys hkeyed.metadata
        pathToId := hkeyed.pathToId
        idToText := setEntry_keys hkeyed.idToText }
    · cases h

/-- What is known of a document with a snapshot, in a schema without an index. -/
structure Extracted (u : UnicodeTables) (document : VaultDocument)
    (snapshot : MaterializedSnapshot) : Prop where
  ok : Snapshotted u snapshot.notes snapshot.totalBytes
  notes : ∀ n, n ∈ snapshot.notes ↔ ∃ c, Latest (liveRecords document.metadata) c ∧
    noteOf u document.idToText c = some n
  all : ∀ c, Latest (liveRecords document.metadata) c →
    ∃ n ∈ snapshot.notes, noteOf u document.idToText c = some n
  readable : ∀ m ∈ document.metadata, (decodeFileMeta (some m.2)).isSome

theorem extracted (hkeyed : Keyed document) (hsnapshot : extractMaterializedSnapshot u document = .ok snapshot)
    (hschema : 2 ≤ snapshot.schemaVersion) : Extracted u document snapshot := by
  have hversion := extract_version u document snapshot hsnapshot
  have hsingle : supportedSchemaVersion document.schemaVersion = some 1 →
      SingleOutside document := by
    intro hone
    rw [hversion, Option.some.injEq] at hone
    omega
  obtain ⟨-, hnotes, hnone⟩ := extract_notes u document snapshot hkeyed hsingle hsnapshot
  have hselected : ∀ c, Selected document snapshot.schemaVersion c ↔
      Latest (liveRecords document.metadata) c := by
    intro c
    rw [Selected, if_pos hschema]
  exact {
    ok := extract_ok u document snapshot hsnapshot
    notes := by
      intro n
      rw [hnotes]
      simp only [hselected]
    all := by
      intro c hc
      have hwas := (hselected c).mpr hc
      obtain ⟨n, hn⟩ := selected_note u document _ hversion hnone c hwas
      exact ⟨n, (hnotes n).mpr ⟨c, hwas, hn⟩, hn⟩
    readable := by
      by_contra hunreadable
      exact hnone _ (.unreadable _ hversion (fun hall => hunreadable hall.metadata)) }

/-- Keys are told by paths. -/
theorem Extracted.keys {u : UnicodeTables} {document : VaultDocument}
    {snapshot : MaterializedSnapshot} (h : Extracted u document snapshot)
    (m n : MaterializedSnapshotNote) (hm : m ∈ snapshot.notes)
    (hvalid : validateMarkdownVaultPath u n.path = .ok ⟨n.path, n.pathKey, n.title⟩)
    (hpath : m.path = n.path) : m.pathKey = n.pathKey := by
  have hmvalid := h.ok.validated m hm
  rw [hpath, hvalid, Except.ok.injEq, ValidatedVaultPath.mk.injEq] at hmvalid
  exact hmvalid.2.1.symm

theorem ensureGenerationBounds_ok (previousByteLength nextByteLength : Nat) (creating : Bool)
    (h : ensureGenerationBounds snapshot previousByteLength nextByteLength creating = .ok ()) :
    nextByteLength ≤ maxMaterializedNoteBytes ∧
      (creating = true → snapshot.notes.length < maxMaterializedNotes) ∧
      snapshot.totalBytes - previousByteLength + nextByteLength ≤
        maxMaterializedGenerationBytes := by
  unfold ensureGenerationBounds at h
  split at h
  · cases h
  split at h
  · cases h
  split at h
  · cases h
  next hsize hcount hbytes =>
  refine ⟨by omega, fun hcreating => ?_, by omega⟩
  rw [not_and] at hcount
  have := hcount hcreating
  omega

theorem validate_nonempty (path : String) (validated : ValidatedVaultPath)
    (h : validateMarkdownVaultPath u path = .ok validated) : path ≠ "" := by
  rintro rfl
  unfold validateMarkdownVaultPath at h
  have hfault : pathFault u "" = some .empty := by
    unfold pathFault
    simp
  rw [hfault] at h
  cases h

theorem restore_created (validated : ValidatedVaultPath) (path content : String)
    (modifiedAt : Decimal) (fileId : String) (hkeyed : Keyed document)
    (hsnapshot : extractMaterializedSnapshot u document = .ok snapshot)
    (hschema : 2 ≤ snapshot.schemaVersion)
    (hvalid : validateMarkdownVaultPath u path = .ok validated)
    (hnone : snapshot.notes.any (fun n => n.pathKey = validated.pathKey) = false)
    (hbounds : ensureGenerationBounds snapshot 0 content.utf8ByteSize true = .ok ())
    (hfresh : entry fileId document.metadata = none) :
    Keyed (createRestored u document validated.pathKey validated.path content modifiedAt fileId) ∧
      Restored u document
        (createRestored u document validated.pathKey validated.path content modifiedAt fileId)
        validated.pathKey content := by
  have hpath := (validateMarkdownVaultPath_path u path validated hvalid).1
  rw [← hpath] at hvalid
  have hextracted := extracted u document snapshot hkeyed hsnapshot hschema
  have hputs := create_puts u document validated.pathKey validated.path content modifiedAt fileId
    hkeyed hextracted.readable (validate_nonempty u _ validated hvalid) hfresh
  obtain ⟨hsize, hcount, hbytes⟩ := ensureGenerationBounds_ok _ _ _ _ hbounds
  have hfree : ∀ n ∈ snapshot.notes, n.pathKey ≠ validated.pathKey := by
    intro n hn
    simpa using List.any_eq_false.mp hnone n hn
  -- No live record has the path: the newest of them would have a note there.
  have hvacant : ∀ d ∈ liveRecords document.metadata, d.path ≠ validated.path := by
    intro d hd hsame
    obtain ⟨newest, hlatest, hnewestPath⟩ := latest_exists _ d hd
    obtain ⟨n, hn, hnote⟩ := hextracted.all newest hlatest
    obtain ⟨hnpath, hnvalid⟩ := noteOf_path u _ newest n hnote
    rw [hnewestPath, hsame, hvalid, Except.ok.injEq] at hnvalid
    exact hfree n hn (congrArg ValidatedVaultPath.pathKey hnvalid).symm
  have hnote : noteOf u (createRestored u document validated.pathKey validated.path content
      modifiedAt fileId).idToText ⟨fileId, some modifiedAt, validated.path⟩ =
        some ⟨content.utf8ByteSize, content, fileId, some modifiedAt, validated.path,
          validated.pathKey, validated.title⟩ := by
    unfold noteOf
    dsimp only
    rw [hvalid, hputs.text]
  have hsublist : (snapshot.notes.filter (fun n => n.path ≠ validated.path)).Sublist
      snapshot.notes := List.filter_sublist
  have hlength := hsublist.length_le
  have hsum := (hsublist.map MaterializedSnapshotNote.byteLength).sum_le_sum
    (fun _ _ => Nat.zero_le _)
  rw [← hextracted.ok.total] at hsum
  obtain ⟨snapshot', hsnapshot', hnotes⟩ := put_snapshot u document _ snapshot _ content _ hkeyed
    hsnapshot hschema hputs (fun d hd _ hsame => absurd hsame (hvacant d hd)) hnote
    (fun n hn hkey => absurd hkey (hfree n hn)) hsize
    (by have := hcount rfl; dsimp only; omega) (by dsimp only; omega)
  refine ⟨hputs.keyed, ?_⟩
  refine restored_of_put u document _ snapshot snapshot' _ hsnapshot hsnapshot' (fun n hn => ?_)
    hnotes
  constructor
  · exact fun hkey => absurd hkey (hfree n hn)
  · exact fun hsame => hextracted.keys n _ hn hvalid hsame

theorem restore_updated (note : MaterializedSnapshotNote) (content : String)
    (clock modifiedAt : Decimal) (hkeyed : Keyed document)
    (hsnapshot : extractMaterializedSnapshot u document = .ok snapshot)
    (hschema : 2 ≤ snapshot.schemaVersion) (hmem : note ∈ snapshot.notes)
    (hbounds : ensureGenerationBounds snapshot note.byteLength content.utf8ByteSize false =
      .ok ())
    (hnewest : Newest document ⟨note.fileId, some modifiedAt, note.path⟩) :
    Keyed (updateRestored document clock note content modifiedAt) ∧
      Restored u document (updateRestored document clock note content modifiedAt) note.pathKey
        content := by
  have hextracted := extracted u document snapshot hkeyed hsnapshot hschema
  have hvalid := hextracted.ok.validated note hmem
  obtain ⟨c, hlatest, hc⟩ := (hextracted.notes note).mp hmem
  have hcpath := (noteOf_path u _ c note hc).1
  have hcfile : note.fileId = c.fileId := by
    unfold noteOf at hc
    split at hc
    · rw [← Option.some.inj hc]
    · cases hc
  have hold : ∀ d ∈ liveRecords document.metadata, d.fileId = note.fileId →
      d.path = note.path := by
    intro d hd hsame
    obtain ⟨value, hentry, hlive⟩ := (mem_liveRecords _ hkeyed.metadata d).mp hd
    obtain ⟨value', hentry', hlive'⟩ := (mem_liveRecords _ hkeyed.metadata c).mp hlatest.1
    rw [hsame, hcfile] at hentry hlive
    rw [hentry, Option.some.injEq] at hentry'
    rw [hentry', hlive'] at hlive
    rw [← Option.some.inj hlive, hcpath]
  have hputs := update_puts document clock modifiedAt note content hkeyed hextracted.readable
    (validate_nonempty u _ _ hvalid) hold
  obtain ⟨hsize, -, hbytes⟩ := ensureGenerationBounds_ok _ _ _ _ hbounds
  have hnote : noteOf u (updateRestored document clock note content modifiedAt).idToText
      ⟨note.fileId, some modifiedAt, note.path⟩ =
        some ⟨content.utf8ByteSize, content, note.fileId, some modifiedAt, note.path,
          note.pathKey, note.title⟩ := by
    unfold noteOf
    dsimp only
    rw [hvalid, hputs.text]
  have hkeys : ∀ n ∈ snapshot.notes, n.pathKey = note.pathKey → n.path = note.path := by
    intro n hn hkey
    have hnodup : (snapshot.notes.map MaterializedSnapshotNote.pathKey).Nodup :=
      List.pairwise_map.mpr hextracted.ok.distinctKeys
    rw [List.inj_on_of_nodup_map hnodup hn hmem hkey]
  -- The note and those of other paths are part of what there was.
  have hpart : (note :: snapshot.notes.filter (fun n => n.path ≠ note.path)).Subperm
      snapshot.notes := by
    apply List.subperm_of_subset
    · rw [List.nodup_cons]
      exact ⟨fun hin => by simpa using (List.mem_filter.mp hin).2,
        hextracted.ok.nodup.filter _⟩
    · intro n hn
      rcases List.mem_cons.mp hn with rfl | hn
      · exact hmem
      · exact List.mem_of_mem_filter hn
  obtain ⟨part, hperm, hsublist⟩ := hpart
  have hlength := hsublist.length_le
  have hsum := (hsublist.map MaterializedSnapshotNote.byteLength).sum_le_sum
    (fun _ _ => Nat.zero_le _)
  rw [hperm.length_eq, List.length_cons] at hlength
  rw [(hperm.map _).sum_eq, ← hextracted.ok.total, List.map_cons, List.sum_cons] at hsum
  have hcount := hextracted.ok.count
  obtain ⟨snapshot', hsnapshot', hnotes⟩ := put_snapshot u document _ snapshot _ content _ hkeyed
    hsnapshot hschema hputs hnewest hnote hkeys hsize (by dsimp only; omega) (by dsimp only; omega)
  refine ⟨hputs.keyed, ?_⟩
  refine restored_of_put u document _ snapshot snapshot' _ hsnapshot hsnapshot' (fun n hn => ?_)
    hnotes
  constructor
  · exact hkeys n hn
  · exact fun hsame => hextracted.keys n note hn hvalid hsame

/-- The note a restored text replaces, of the snapshot of the document. -/
def Current (u : UnicodeTables) (document : VaultDocument) (expected : StableSnapshotNote) : Prop :=
  extractMaterializedSnapshot u document = .ok expected.snapshot ∧
    expected.note ∈ expected.snapshot.notes

/-- Restoring does what it should if the note is of the document that is written, and no other
    live record of its path is newer than the time that is written. -/
theorem applyMarkdownNoteRestore_restored (request : RestoreMarkdownNoteRequest) (expectedNote : Option StableSnapshotNote)
    (now : Decimal) (identity : NoteIdentity) (mutation : RestoreMutation)
    (validated : ValidatedVaultPath)
    (h : applyMarkdownNoteRestore u document request expectedNote now identity = .ok mutation)
    (hvalid : validateMarkdownVaultPath u request.path = .ok validated)
    (hkeyed : Keyed document)
    (hschema : ∀ snapshot, extractMaterializedSnapshot u document = .ok snapshot →
      2 ≤ snapshot.schemaVersion)
    (hcurrent : ∀ expected ∈ expectedNote, Current u document expected)
    (hfresh : expectedNote = none → entry identity.fileId document.metadata = none)
    (hnewest : ∀ expected ∈ expectedNote, expected.note.content ≠ request.content →
      Newest document ⟨expected.note.fileId, some (request.modifiedAt.getD now),
        expected.note.path⟩) :
    Keyed mutation.document ∧
      Restored u document mutation.document validated.pathKey request.content := by
  unfold applyMarkdownNoteRestore at h
  rw [hvalid] at h
  cases expectedNote with
  | none =>
      simp only [] at h
      split at h
      · cases h
      next snapshot hsnapshot =>
      split at h
      · cases h
      next hnone =>
      split at h
      · cases h
      next hbounds =>
      rw [← Except.ok.inj h]
      rw [Bool.not_eq_true] at hnone
      exact restore_created u document snapshot validated request.path request.content _ _ hkeyed
        hsnapshot (hschema snapshot hsnapshot) hvalid hnone hbounds (hfresh rfl)
  | some expected =>
      obtain ⟨hsnapshot, hmem⟩ := hcurrent expected rfl
      simp only [] at h
      split at h
      · cases h
      next hkey =>
      rw [ne_eq, not_not] at hkey
      split at h
      · next hsame =>
        rw [← Except.ok.inj h]
        refine ⟨hkeyed, expected.snapshot, expected.snapshot, hsnapshot, hsnapshot,
          ⟨expected.note, hmem, hkey, hsame, fun m hm hmkey => ?_⟩, fun m _ => Iff.rfl⟩
        have hok := extract_ok u document _ hsnapshot
        have hnodup : (expected.snapshot.notes.map MaterializedSnapshotNote.pathKey).Nodup :=
          List.pairwise_map.mpr hok.distinctKeys
        exact List.inj_on_of_nodup_map hnodup hm hmem (hmkey.trans hkey.symm)
      · next hdifferent =>
        split at h
        · cases h
        · next hbounds _ =>
          rw [← Except.ok.inj h, ← hkey]
          exact restore_updated u document expected.snapshot expected.note request.content now _
            hkeyed hsnapshot (hschema _ hsnapshot) hmem hbounds
            (hnewest expected rfl hdifferent)
        · cases h

end

end Mdevolved.Vault
