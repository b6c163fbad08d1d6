import Mdevolved.Materialization.Snapshot

/-!
# What a Snapshot Admits

A snapshot fails as a whole on one note that it does not admit. `Materializable` says of the
notes of a vault, as pairs of a path and a text, that all of them are admitted: each path is
accepted by the validator, each text fits into a note, no two paths are told apart by their
case alone, and there are not too many notes or bytes.

A document holds notes if these are the live files that a materialization finds in it. The
snapshot of a document that holds notes succeeds exactly if they are materializable.

## Main definitions

* `HoldsNotes`: The notes of a document.
* `Materializable`: A snapshot may take in all of them.
* `overwritten`: Notes some of which are written anew.
* `Admissible`: What may be written to notes that are materializable.

## Theorems

* `extract_iff`: A snapshot succeeds exactly if the notes are materializable.
* `overwritten_iff`: Notes stay materializable exactly if what is written is admissible.
-/

namespace Mdevolved.Materialization

open Mdevolved.Vault

variable (u : UnicodeTables)

/-! ## Notes that a snapshot may take in -/

abbrev Note := String × String

/-- The validator of the server accepts a path. -/
def Accepts (path : String) : Prop :=
  ∃ validated, validateMarkdownVaultPath u path = .ok validated

/-- What texts take up. -/
def bytesOf (notes : List Note) : Nat :=
  (notes.map (fun note => note.2.utf8ByteSize)).sum

/-- Two paths that have one key are one path. -/
def Apart (path path' : String) : Prop :=
  u.toLowerCase path = u.toLowerCase path' → path = path'

structure Materializable (notes : List Note) : Prop where
  accepted : ∀ note ∈ notes, Accepts u note.1
  sized : ∀ note ∈ notes, note.2.utf8ByteSize ≤ maxMaterializedNoteBytes
  apart : ∀ note ∈ notes, ∀ note' ∈ notes, Apart u note.1 note'.1
  count : notes.length ≤ maxMaterializedNotes
  total : bytesOf notes ≤ maxMaterializedGenerationBytes

theorem bytesOf_perm (notes notes' : List Note) (h : notes.Perm notes') :
    bytesOf notes = bytesOf notes' :=
  (h.map _).sum_eq

theorem bytesOf_sublist (notes notes' : List Note) (h : notes.Sublist notes') :
    bytesOf notes ≤ bytesOf notes' := by
  induction h with
  | slnil => exact Nat.le_refl _
  | cons note h ih =>
      simp only [bytesOf, List.map_cons, List.sum_cons] at ih ⊢
      omega
  | cons_cons note h ih =>
      simp only [bytesOf, List.map_cons, List.sum_cons] at ih ⊢
      omega

variable {u}

/-- The order of the notes does not matter. -/
theorem Materializable.perm (notes notes' : List Note) (hp : notes.Perm notes')
    (h : Materializable u notes) : Materializable u notes' := by
  constructor
  · intro note hnote
    exact h.accepted note (hp.mem_iff.mpr hnote)
  · intro note hnote
    exact h.sized note (hp.mem_iff.mpr hnote)
  · intro note hnote note' hnote'
    exact h.apart note (hp.mem_iff.mpr hnote) note' (hp.mem_iff.mpr hnote')
  · rw [← hp.length_eq]
    exact h.count
  · rw [← bytesOf_perm notes notes' hp]
    exact h.total

theorem materializable_perm_iff (notes notes' : List Note) (hp : notes.Perm notes') :
    Materializable u notes ↔ Materializable u notes' := by
  constructor
  · exact Materializable.perm notes notes' hp
  · exact Materializable.perm notes' notes hp.symm

/-- What is left of the notes stays materializable. -/
theorem Materializable.sublist (notes notes' : List Note) (hs : notes.Sublist notes')
    (h : Materializable u notes') : Materializable u notes := by
  have hbytes := bytesOf_sublist notes notes' hs
  have hlength := hs.length_le
  constructor
  · intro note hnote
    exact h.accepted note (hs.subset hnote)
  · intro note hnote
    exact h.sized note (hs.subset hnote)
  · intro note hnote note' hnote'
    exact h.apart note (hs.subset hnote) note' (hs.subset hnote')
  · have := h.count
    omega
  · have := h.total
    omega

variable (u)

theorem materializable_nil : Materializable u [] := by
  constructor <;> simp [bytesOf]

/-- A note that can be added to others. -/
structure Fits (notes : List Note) (note : Note) : Prop where
  accepted : Accepts u note.1
  apart : ∀ other ∈ notes, u.toLowerCase other.1 = u.toLowerCase note.1 → other.1 = note.1
  sized : note.2.utf8ByteSize ≤ maxMaterializedNoteBytes
  count : notes.length < maxMaterializedNotes
  total : bytesOf notes + note.2.utf8ByteSize ≤ maxMaterializedGenerationBytes

theorem materializable_concat_iff (notes : List Note) (note : Note) (h : Materializable u notes) :
    Materializable u (notes ++ [note]) ↔ Fits u notes note := by
  have hlast : note ∈ notes ++ [note] := by simp
  have hbytes : bytesOf (notes ++ [note]) = bytesOf notes + note.2.utf8ByteSize := by
    simp [bytesOf]
  have hlength : (notes ++ [note]).length = notes.length + 1 := by simp
  constructor
  · intro hall
    constructor
    · exact hall.accepted note hlast
    · intro other hother
      exact hall.apart other (by simp [hother]) note hlast
    · exact hall.sized note hlast
    · have := hall.count
      omega
    · have := hall.total
      omega
  · intro hfits
    have hmem : ∀ other ∈ notes ++ [note], other ∈ notes ∨ other = note := by simp
    constructor
    · intro other hother
      rcases hmem other hother with hold | rfl
      · exact h.accepted other hold
      · exact hfits.accepted
    · intro other hother
      rcases hmem other hother with hold | rfl
      · exact h.sized other hold
      · exact hfits.sized
    · intro other hother other' hother'
      rcases hmem other hother with hold | rfl
      · rcases hmem other' hother' with hold' | rfl
        · exact h.apart other hold other' hold'
        · exact hfits.apart other hold
      · rcases hmem other' hother' with hold' | rfl
        · intro hkey
          exact (hfits.apart other' hold' hkey.symm).symm
        · intro _
          rfl
    · have := hfits.count
      omega
    · have := hfits.total
      omega

/-! ## The notes of a document -/

/-- The texts of candidates. -/
def textsOf (idToText : List (String × YValue)) (candidates : List Candidate) :
    List (String × Option YValue) :=
  candidates.map (fun candidate => (candidate.path, entry candidate.fileId idToText))

def stored (notes : List Note) : List (String × Option YValue) :=
  notes.map (fun note => (note.1, some (.text note.2)))

/-- What is stored in another order is other notes that are stored. -/
theorem stored_of_perm (texts : List (String × Option YValue)) (notes : List Note)
    (h : texts.Perm (stored notes)) :
    ∃ notes', texts = stored notes' ∧ notes'.Perm notes := by
  have hcomp : Relation.Comp (· = stored ·) List.Perm texts notes := by
    unfold stored
    rw [List.eq_map_comp_perm]
    exact h
  exact hcomp

/-- The live files that a materialization finds in a document are these notes, each with its
    text. -/
def HoldsNotes (document : VaultDocument) (notes : List Note) : Prop :=
  ∃ schemaVersion candidates, supportedSchemaVersion document.schemaVersion = some schemaVersion ∧
    activeCandidates document schemaVersion = .ok candidates ∧
    (textsOf document.idToText candidates).Perm (stored notes)

/-- The notes of a document have a path of their own each. -/
theorem HoldsNotes.nodup {document : VaultDocument} {notes : List Note}
    (h : HoldsNotes document notes) : (notes.map Prod.fst).Nodup := by
  obtain ⟨schemaVersion, candidates, -, hcandidates, hperm⟩ := h
  have hpaths := activeCandidates_paths document schemaVersion candidates
    hcandidates
  have hsame := (hperm.map Prod.fst).nodup_iff
  simp only [textsOf, stored, List.map_map] at hsame
  exact hsame.mp hpaths

/-- The notes that were collected, as pairs. -/
structure Collected (collected : List MaterializedSnapshotNote) (totalBytes : Nat)
    (notes : List Note) : Prop where
  pairs : collected.map (fun note => (note.path, note.content)) = notes
  keys : ∀ note ∈ collected, note.pathKey = u.toLowerCase note.path
  total : totalBytes = bytesOf notes

/-- A collision is a note that the new one is not apart from. -/
theorem collision_iff (collected : List MaterializedSnapshotNote) (totalBytes : Nat)
    (notes : List Note) (validated : ValidatedVaultPath) (path : String)
    (h : Collected u collected totalBytes notes)
    (hvalidated : validateMarkdownVaultPath u path = .ok validated) :
    collected.any (fun n => n.pathKey = validated.pathKey && n.path ≠ validated.path) = false ↔
      ∀ other ∈ notes, u.toLowerCase other.1 = u.toLowerCase path → other.1 = path := by
  obtain ⟨hpath, hkey⟩ := validateMarkdownVaultPath_path u path validated hvalidated
  rw [List.any_eq_false, ← h.pairs]
  constructor
  · intro hnone other hother
    obtain ⟨n, hn, rfl⟩ := List.mem_map.mp hother
    have hnot := hnone n hn
    rw [h.keys n hn, hkey, hpath] at hnot
    simpa using hnot
  · intro hapart n hn
    have hsame := hapart (n.path, n.content) (List.mem_map_of_mem hn)
    rw [h.keys n hn, hkey, hpath]
    simpa using hsame

theorem Collected.length {collected : List MaterializedSnapshotNote} {totalBytes : Nat}
    {notes : List Note} (h : Collected u collected totalBytes notes) :
    collected.length = notes.length := by
  rw [← h.pairs, List.length_map]

section

variable (idToText : List (String × YValue))

/-- A candidate that is taken in fits. -/
theorem fits_of_extractNotes (candidate : Candidate)
    (candidates : List Candidate) (notes : List Note) (content : String)
    (collected : List MaterializedSnapshotNote) (totalBytes : Nat)
    (result : List MaterializedSnapshotNote × Nat)
    (htext : entry candidate.fileId idToText = some (.text content))
    (hcollected : Collected u collected totalBytes notes)
    (h : extractNotes u idToText (candidate :: candidates) collected totalBytes = .ok result) :
    Fits u notes (candidate.path, content) := by
  have hlength := hcollected.length
  have htotal := hcollected.total
  rw [extractNotes] at h
  split at h
  · cases h
  next validated hvalidated =>
  split at h
  · cases h
  next hcollision =>
  rw [htext] at h
  dsimp only at h
  split at h
  · cases h
  next hsize =>
  split at h
  · cases h
  next hbounds =>
  rw [Bool.not_eq_true] at hcollision
  constructor
  · exact ⟨validated, hvalidated⟩
  · exact (collision_iff u collected totalBytes notes validated _ hcollected hvalidated).mp
      hcollision
  · exact Nat.not_lt.mp hsize
  · omega
  · dsimp only
    omega

/-- A candidate that fits is taken in. -/
theorem extractNotes_fits (candidate : Candidate)
    (candidates : List Candidate) (notes : List Note) (content : String)
    (collected : List MaterializedSnapshotNote) (totalBytes : Nat)
    (htext : entry candidate.fileId idToText = some (.text content))
    (hcollected : Collected u collected totalBytes notes)
    (h : Fits u notes (candidate.path, content)) :
    ∃ collected' totalBytes', Collected u collected' totalBytes' (notes ++ [(candidate.path, content)]) ∧
      extractNotes u idToText (candidate :: candidates) collected totalBytes =
        extractNotes u idToText candidates collected' totalBytes' := by
  have hlength := hcollected.length
  have htotal := hcollected.total
  obtain ⟨validated, hvalidated⟩ := h.accepted
  obtain ⟨hpath, hkey⟩ := validateMarkdownVaultPath_path u _ validated hvalidated
  have hcollision := (collision_iff u collected totalBytes notes validated _ hcollected
    hvalidated).mpr h.apart
  have hsize : ¬ maxMaterializedNoteBytes < content.utf8ByteSize := Nat.not_lt.mpr h.sized
  have hbounds : ¬ (maxMaterializedNotes ≤ collected.length ∨
      maxMaterializedGenerationBytes < totalBytes + content.utf8ByteSize) := by
    have hcount := h.count
    have hfit := h.total
    dsimp only at hfit
    omega
  rw [extractNotes, hvalidated]
  dsimp only at hcollision ⊢
  rw [if_neg (by rw [hcollision]; exact Bool.false_ne_true), htext]
  dsimp only
  rw [if_neg hsize, if_neg hbounds]
  refine ⟨_, _, ?_, rfl⟩
  constructor
  · simp [hcollected.pairs, hpath]
  · intro note hnote
    rcases List.mem_append.mp hnote with hold | hnew
    · exact hcollected.keys note hold
    · rw [List.mem_singleton.mp hnew]
      simp only [hkey, hpath]
  · simp [bytesOf, htotal]

/-- The loop ends well exactly if what is collected with what is to come is materializable. -/
theorem extractNotes_iff (candidates : List Candidate)
    (coming notes : List Note) (collected : List MaterializedSnapshotNote) (totalBytes : Nat)
    (htexts : textsOf idToText candidates = stored coming)
    (hcollected : Collected u collected totalBytes notes) (h : Materializable u notes) :
    (∃ result, extractNotes u idToText candidates collected totalBytes = .ok result) ↔
      Materializable u (notes ++ coming) := by
  induction candidates generalizing coming notes collected totalBytes with
  | nil =>
      cases coming with
      | nil => simp [extractNotes, h]
      | cons note coming => simp [textsOf, stored] at htexts
  | cons candidate candidates ih =>
      cases coming with
      | nil => simp [textsOf, stored] at htexts
      | cons note coming =>
          obtain ⟨path, content⟩ := note
          simp only [textsOf, stored, List.map_cons, List.cons.injEq, Prod.mk.injEq] at htexts
          obtain ⟨⟨rfl, htext⟩, hrest⟩ := htexts
          have hsplit : notes ++ (candidate.path, content) :: coming =
              (notes ++ [(candidate.path, content)]) ++ coming := by simp
          rw [hsplit]
          by_cases hfits : Fits u notes (candidate.path, content)
          · obtain ⟨collected', totalBytes', hcollected', heq⟩ :=
              extractNotes_fits u idToText candidate candidates notes content collected totalBytes
                htext hcollected hfits
            rw [heq]
            exact ih coming _ collected' totalBytes' hrest hcollected'
              ((materializable_concat_iff u notes _ h).mpr hfits)
          · constructor
            · rintro ⟨result, hresult⟩
              exact absurd (fits_of_extractNotes u idToText candidate candidates notes content
                collected totalBytes result htext hcollected hresult) hfits
            · intro hall
              have hconcat := hall.sublist _ _ (List.sublist_append_left _ coming)
              exact absurd ((materializable_concat_iff u notes _ h).mp hconcat) hfits

end

/-- A snapshot succeeds exactly if the notes are materializable. -/
theorem extract_iff (document : VaultDocument) (notes : List Note)
    (h : HoldsNotes document notes) :
    (∃ snapshot, extractMaterializedSnapshot u document = .ok snapshot) ↔
      Materializable u notes := by
  obtain ⟨schemaVersion, candidates, hschema, hcandidates, hperm⟩ := h
  -- The notes in the order in which the loop comes to them.
  obtain ⟨coming, hcoming, horder⟩ := stored_of_perm _ notes hperm
  have hstart : Collected u [] 0 [] := ⟨rfl, by simp, rfl⟩
  have hloop := extractNotes_iff u document.idToText candidates coming [] [] 0 hcoming hstart
    (materializable_nil u)
  rw [List.nil_append] at hloop
  rw [← materializable_perm_iff coming notes horder, ← hloop]
  unfold extractMaterializedSnapshot
  rw [hschema]
  dsimp only
  rw [hcandidates]
  dsimp only
  cases extractNotes u document.idToText candidates [] 0 with
  | error code => simp
  | ok result => simp

/-! ## Notes that are written anew -/

/-- Notes after some were written. -/
def overwritten (notes written : List Note) : List Note :=
  notes.filter (fun note => note.1 ∉ written.map Prod.fst) ++ written

/-- What may be written to notes that are materializable. -/
structure Admissible (notes written : List Note) : Prop where
  accepted : ∀ note ∈ written, Accepts u note.1
  sized : ∀ note ∈ written, note.2.utf8ByteSize ≤ maxMaterializedNoteBytes
  apart : ∀ note ∈ written, ∀ other ∈ overwritten notes written, Apart u note.1 other.1
  count : (overwritten notes written).length ≤ maxMaterializedNotes
  total : bytesOf (overwritten notes written) ≤ maxMaterializedGenerationBytes

/-- Notes stay materializable exactly if what is written is admissible. -/
theorem overwritten_iff (notes written : List Note) (h : Materializable u notes) :
    Materializable u (overwritten notes written) ↔ Admissible u notes written := by
  have hmem : ∀ note ∈ overwritten notes written, note ∈ notes ∨ note ∈ written := by
    intro note hnote
    rcases List.mem_append.mp hnote with hold | hnew
    · exact Or.inl (List.mem_of_mem_filter hold)
    · exact Or.inr hnew
  have hwritten : ∀ note ∈ written, note ∈ overwritten notes written :=
    fun note hnote => List.mem_append_right _ hnote
  constructor
  · intro hall
    constructor
    · intro note hnote
      exact hall.accepted note (hwritten note hnote)
    · intro note hnote
      exact hall.sized note (hwritten note hnote)
    · intro note hnote
      exact hall.apart note (hwritten note hnote)
    · exact hall.count
    · exact hall.total
  · intro hadmissible
    constructor
    · intro note hnote
      rcases hmem note hnote with hold | hnew
      · exact h.accepted note hold
      · exact hadmissible.accepted note hnew
    · intro note hnote
      rcases hmem note hnote with hold | hnew
      · exact h.sized note hold
      · exact hadmissible.sized note hnew
    · intro note hnote other hother
      rcases hmem note hnote with hold | hnew
      · rcases hmem other hother with hold' | hnew'
        · exact h.apart note hold other hold'
        · intro hkey
          exact (hadmissible.apart other hnew' note hnote hkey.symm).symm
      · exact hadmissible.apart note hnew other hother
    · exact hadmissible.count
    · exact hadmissible.total

end Mdevolved.Materialization
