import Mdevolved.Vault.Content
import Mdevolved.Lib.Process

/-!
# Restoring Beside Other Writers

The call that restores a note reads the document, waits for hashes and for the database, and
writes if the state vector is still what it was. While it waits, others may write, so that
each of its operations starts from what they have left.

A state vector counts what was inserted. If every write of others that changes the document is
counted, an equal vector means an equal document, and the note that was read is the one that
is written over. `restore_sound` follows the call from operation to operation under that
condition.

## Main definitions

* `Replica`: A document and its state vector.
* `RestoreOp`, `Outside`, `exec`: What the call does between its awaits.
* `restoreMarkdownNote`: The call.
* `Advancing`: Writes of others that the state vector counts.
* `Regular`: The condition on the operations of a run.

## Theorems

* `since_others`: What an equal state vector says.
* `write_sound`: What is written was read before.
* `restore_sound`: Every run of regular operations is sound.
* `restore_oversteps`: Runs of other operations are not.
-/

namespace Mdevolved.Vault

open Materialization

/-- The document, and what Yjs counts of its changes. -/
structure Replica (V : Type) where
  document : VaultDocument
  keyed : Keyed document
  stateVector : V

inductive RestoreError
  | code (c : VaultContentFailureCode)
  /-- Anything that the call does not turn into a code. -/
  | thrown
  /-- What saving the document has thrown. -/
  | persistenceThrown

/-- The document was written, but it may not have been saved. -/
def RestoreError.ofPersistence : RestoreError → Bool
  | code c => c = .vaultPersistenceUnavailable
  | thrown => false
  | persistenceThrown => true

/-- What the call does from one await to the next. -/
inductive RestoreOp (V : Type)
  | prepareNamedVault
  | capture
  | randomToken
  | isVaultActive
  | write (stateVector : V) (expectedNote : Option StableSnapshotNote) (identity : NoteIdentity)
  | persistCurrentDocument

/-- What comes from outside at an operation: what others have made of the document before it,
    one write after the other, and how storage and the runtime answer. -/
structure Outside (V : Type) where
  before : List (Replica V)
  failed : Bool
  active : Bool
  token : String
  written : V
  persisted : Bool

section Calls

variable {V : Type} [DecidableEq V]

def RestoreOp.Ret : RestoreOp V → Type
  | prepareNamedVault => Bool
  | capture => V × Except MaterializationErrorCode MaterializedSnapshot
  | randomToken => String
  | isVaultActive => Bool
  | write _ _ _ => Option RestoreOperation
  | persistCurrentDocument => Bool

/-- The document as others have left it. -/
def others (w : Outside V) (s : Replica V) : Replica V :=
  w.before.getLast?.getD s

/-- `readSchemaVersion() === version` -/
def hasSchemaVersion (document : VaultDocument) (version : Nat) : Bool :=
  match document.schemaVersion with
  | some (.num n) => n = Decimal.ofNat version
  | _ => false

variable (u : UnicodeTables) (sha256 : String → String)
  (markdownNoteVersion : String → String → String → String)
  (req : RestoreMarkdownNoteRequest) (now : Decimal)

/-- Write the restored note, unless the state vector is another one by now. -/
def writeRestored (w : Outside V) (t : Replica V) (stateVector : V)
    (expectedNote : Option StableSnapshotNote) (identity : NoteIdentity) :
    Except RestoreError (Option RestoreOperation) × Replica V :=
  if stateVector ≠ t.stateVector then (.ok none, t)
  else
    match h : applyMarkdownNoteRestore u t.document req expectedNote now identity with
    | .error code => (.error (.code code), t)
    | .ok mutation =>
        (.ok (some mutation.operation),
          { document := mutation.document
            keyed := applyMarkdownNoteRestore_keyed u t.document req expectedNote now identity
              mutation t.keyed h
            stateVector := w.written })

def exec : (op : RestoreOp V) → Outside V → Replica V → Except RestoreError op.Ret × Replica V
  | .prepareNamedVault, w, s =>
      if w.failed then (.error .thrown, others w s)
      else if !w.active then (.error (.code .vaultNotActive), others w s)
      else (.ok (hasSchemaVersion (others w s).document 3), others w s)
  | .capture, w, s =>
      (.ok ((others w s).stateVector, extractMaterializedSnapshot u (others w s).document),
        others w s)
  | .randomToken, w, s => (.ok w.token, others w s)
  | .isVaultActive, w, s =>
      if w.failed then (.error .thrown, others w s) else (.ok w.active, others w s)
  | .write stateVector expectedNote identity, w, s =>
      writeRestored u req now w (others w s) stateVector expectedNote identity
  | .persistCurrentDocument, w, s =>
      if w.failed then (.error .persistenceThrown, others w s)
      else (.ok w.persisted, others w s)

abbrev RestoreProcess (V α : Type) :=
  Process (RestoreOp V) (fun op => Except RestoreError op.Ret) RestoreError α

def ask (op : RestoreOp V) : RestoreProcess V op.Ret :=
  Process.request op

/-- The file of the note, or of one to be added. -/
def restoredFile (note : Option MaterializedSnapshotNote) : RestoreProcess V String :=
  match note with
  | some note => pure note.fileId
  | none => ask .randomToken

/-- What the note at a path reads. -/
def noteAtKey (snapshot : MaterializedSnapshot) (pathKey : String) :
    Option MaterializedSnapshotNote :=
  snapshot.notes.find? (fun candidate => candidate.pathKey = pathKey)

/-- Whether the note is one that may be written over. -/
def permitted (note : Option MaterializedSnapshotNote) : Bool :=
  note.map (fun n => sha256 n.content) = some req.contentSha256 ||
    note.map (fun n => sha256 n.content) = req.expectedTargetContentSha256

/-- Save what was written. -/
def persistRestored (operation : RestoreOperation) : RestoreProcess V RestoreOperation := do
  let persisted : Bool ← ask .persistCurrentDocument
  if persisted then pure operation else throw (.code .vaultPersistenceUnavailable)

/-- Save what was written, or start again where others have written in between. -/
def afterWrite (again : RestoreProcess V RestoreOperation) :
    Option RestoreOperation → RestoreProcess V RestoreOperation
  | none => again
  | some operation => persistRestored operation

/-- Read and write, again if others have written in between. -/
def restoreAttempts (requestedPath : ValidatedVaultPath) : Nat → RestoreProcess V RestoreOperation
  | 0 => throw (.code .vaultBusy)
  | attempts + 1 => do
      let (stateVector, extraction) ← ask .capture
      let snapshot ← Process.ofExcept (extraction.mapError (fun _ => .thrown))
      let note := noteAtKey snapshot requestedPath.pathKey
      if permitted sha256 req note then do
        let fileId ← restoredFile note
        let contentVersion := markdownNoteVersion fileId requestedPath.path req.content
        let active : Bool ← ask .isVaultActive
        if active then do
          let written : Option RestoreOperation ← ask (.write stateVector
            (note.map (StableSnapshotNote.mk snapshot)) ⟨contentVersion, fileId⟩)
          afterWrite (restoreAttempts requestedPath attempts) written
        else throw (.code .vaultNotActive)
      else throw (.code .noteStale)

def restoreMarkdownNote : RestoreProcess V RestoreOperation := do
  let supported : Bool ← ask .prepareNamedVault
  if supported then
    if sha256 req.content ≠ req.contentSha256 then throw (.code .snapshotInvalid)
    else
      match validateMarkdownVaultPath u req.path with
      | .error _ => throw .thrown
      | .ok requestedPath =>
          restoreAttempts sha256 markdownNoteVersion req requestedPath 5
  else throw (.code .snapshotSchemaUnsupported)

/-! ## What an equal state vector says -/

section Runs

variable [PartialOrder V]

/-- Others write one after the other, and the state vector grows where the document changes. -/
def Advancing : Replica V → List (Replica V) → Prop
  | _, [] => True
  | s, t :: rest => s.stateVector ≤ t.stateVector ∧
      (s.stateVector = t.stateVector → t.document = s.document) ∧ Advancing t rest

/-- The document is what it was if the state vector is. -/
def Since (s t : Replica V) : Prop :=
  s.stateVector ≤ t.stateVector ∧ (s.stateVector = t.stateVector → t.document = s.document)

omit [DecidableEq V] in
theorem Since.refl (s : Replica V) : Since s s :=
  ⟨le_refl _, fun _ => rfl⟩

omit [DecidableEq V] in
theorem Since.trans {s t r : Replica V} (h : Since s t) (h' : Since t r) : Since s r := by
  refine ⟨h.1.trans h'.1, fun hsame => ?_⟩
  have hst : s.stateVector = t.stateVector := le_antisymm h.1 (hsame ▸ h'.1)
  rw [h'.2 (hst.symm.trans hsame), h.2 hst]

omit [DecidableEq V] in
theorem since_last (s : Replica V) (before : List (Replica V)) (h : Advancing s before) :
    Since s (before.getLast?.getD s) := by
  induction before generalizing s with
  | nil => exact Since.refl s
  | cons t rest ih =>
      obtain ⟨hle, hsame, hrest⟩ := h
      have hlast : ((t :: rest).getLast?).getD s = rest.getLast?.getD t := by
        cases rest with
        | nil => rfl
        | cons r rest => rw [List.getLast?_cons_cons, List.getLast?_cons, Option.getD_some,
            Option.getD_some]
      rw [hlast]
      exact Since.trans ⟨hle, hsame⟩ (ih t hrest)

omit [DecidableEq V] in
theorem since_others (w : Outside V) (s : Replica V) (h : Advancing s w.before) :
    Since s (others w s) :=
  since_last s w.before h

/-! ## Runs of regular operations -/

/-- Others are counted by the state vector and leave the schema as it is, a new file is new, and
    the time that is written is not behind other live records of the path. -/
structure Regular (op : RestoreOp V) (w : Outside V) (s : Replica V) : Prop where
  advancing : Advancing s w.before
  schema : ∀ stateVector expectedNote identity, op = .write stateVector expectedNote identity →
    hasSchemaVersion (others w s).document 1 = false
  fresh : ∀ stateVector identity, op = .write stateVector none identity →
    entry identity.fileId (others w s).document.metadata = none
  newest : ∀ stateVector expected identity, op = .write stateVector (some expected) identity →
    stateVector = (others w s).stateVector → expected.note.content ≠ req.content →
    Newest (others w s).document
      ⟨expected.note.fileId, some (req.modifiedAt.getD now), expected.note.path⟩

/-- The note of a document is as the request expects it, or restored already. -/
def Permits (document : VaultDocument) : Prop :=
  ∃ snapshot, extractMaterializedSnapshot u document = .ok snapshot ∧
    permitted sha256 req (noteAtKey snapshot (u.toLowerCase req.path)) = true

/-- An operation leaves the document as others have left it. -/
def Leaves (op : RestoreOp V) (w : Outside V) (s : Replica V) : Prop :=
  (exec u req now op w s).2.document = (others w s).document

/-- An operation restores the note, in a document that permits it. -/
def Writes (op : RestoreOp V) (w : Outside V) (s : Replica V) : Prop :=
  Permits u sha256 req (others w s).document ∧
    Restored u (others w s).document (exec u req now op w s).2.document
      (u.toLowerCase req.path) req.content

/-- The document changes only where the note is restored, which is somewhere in a run that
    succeeds and nowhere in one that fails otherwise than in saving. -/
structure Sound (p : RestoreProcess V RestoreOperation) (ws : ℕ → Outside V) (s : Replica V) :
    Prop where
  changes : Process.TakenAll (exec u req now)
    (fun op w s => Leaves u req now op w s ∨ Writes u sha256 req now op w s) p ws s
  succeeds : ∀ operation, (Process.finish (exec u req now) p ws s).1 = .ok operation →
    Process.TakenSome (exec u req now) (Writes u sha256 req now) p ws s
  fails : ∀ e, (Process.finish (exec u req now) p ws s).1 = .error e →
    e.ofPersistence = false → Process.TakenAll (exec u req now) (Leaves u req now) p ws s

/-- A run is sound if its operations are regular. -/
def Behaves (p : RestoreProcess V RestoreOperation) (ws : ℕ → Outside V) (s : Replica V) : Prop :=
  Process.TakenAll (exec u req now) (Regular req now) p ws s → Sound u sha256 req now p ws s

theorem behaves_throw (e : RestoreError) (ws : ℕ → Outside V) (s : Replica V) :
    Behaves u sha256 req now (throw e) ws s :=
  fun _ => ⟨trivial, fun _ hok => (nomatch hok), fun _ _ _ => trivial⟩

omit [PartialOrder V] in
/-- An operation that leaves the document, and a sound rest. -/
theorem sound_left (op : RestoreOp V)
    (next : Except RestoreError op.Ret → RestoreProcess V RestoreOperation)
    (ws : ℕ → Outside V) (s : Replica V) (hleaves : Leaves u req now op (ws 0) s)
    (h : Sound u sha256 req now (next (exec u req now op (ws 0) s).1) (fun n => ws (n + 1))
      (exec u req now op (ws 0) s).2) :
    Sound u sha256 req now (.call op next) ws s :=
  { changes := ⟨Or.inl hleaves, h.changes⟩
    succeeds := fun operation hok => Or.inr (h.succeeds operation hok)
    fails := fun e herror hother => ⟨hleaves, h.fails e herror hother⟩ }

omit [PartialOrder V] in
/-- An operation that restores the note, and a rest that only saves. -/
theorem sound_written (op : RestoreOp V)
    (next : Except RestoreError op.Ret → RestoreProcess V RestoreOperation)
    (ws : ℕ → Outside V) (s : Replica V) (hwrites : Writes u sha256 req now op (ws 0) s)
    (hleaves : Process.TakenAll (exec u req now) (Leaves u req now)
      (next (exec u req now op (ws 0) s).1) (fun n => ws (n + 1)) (exec u req now op (ws 0) s).2)
    (hfails : ∀ e, (Process.finish (exec u req now) (next (exec u req now op (ws 0) s).1)
      (fun n => ws (n + 1)) (exec u req now op (ws 0) s).2).1 = .error e →
        e.ofPersistence = true) :
    Sound u sha256 req now (.call op next) ws s := by
  exact {
    changes := by
      refine ⟨Or.inr hwrites, ?_⟩
      exact Process.takenAll_mono (fun op w s h => Or.inl h) _ _ _ hleaves
    succeeds := fun operation _ => Or.inl hwrites
    fails := by
      intro e herror hother
      have hpersistence := hfails e herror
      rw [hother] at hpersistence
      cases hpersistence }

/-- An operation that only reads, and what comes after it. -/
theorem behaves_ask (op : RestoreOp V) (hreads : ∀ w s, (exec u req now op w s).2 = others w s)
    (f : op.Ret → RestoreProcess V RestoreOperation) (ws : ℕ → Outside V) (s : Replica V)
    (h : Regular req now op (ws 0) s → ∀ r, (exec u req now op (ws 0) s).1 = .ok r →
      Behaves u sha256 req now (f r) (fun n => ws (n + 1)) (others (ws 0) s)) :
    Behaves u sha256 req now (ask op >>= f) ws s := by
  intro hall
  obtain ⟨hregular, hrest⟩ : Regular req now op (ws 0) s ∧ Process.TakenAll (exec u req now)
    (Regular req now) ((Process.done (exec u req now op (ws 0) s).1).bind f) (fun n => ws (n + 1))
      (exec u req now op (ws 0) s).2 := hall
  have hleaves : Leaves u req now op (ws 0) s := congrArg Replica.document (hreads (ws 0) s)
  apply sound_left u sha256 req now op (fun r => (Process.done r).bind f) ws s hleaves
  cases hanswer : (exec u req now op (ws 0) s).1 with
  | error e => exact behaves_throw u sha256 req now e _ _ trivial
  | ok r =>
      rw [hanswer] at hrest
      have hbehaves := h hregular r hanswer
      rw [← hreads (ws 0) s] at hbehaves
      exact hbehaves hrest

omit [PartialOrder V] in
theorem exec_reads (op : RestoreOp V)
    (hop : ∀ stateVector expectedNote identity, op ≠ .write stateVector expectedNote identity)
    (w : Outside V) (s : Replica V) : (exec u req now op w s).2 = others w s := by
  cases op with
  | prepareNamedVault =>
      rw [exec]
      split
      · rfl
      · split
        · rfl
        · rfl
  | capture => rfl
  | randomToken => rfl
  | isVaultActive =>
      rw [exec]
      split
      · rfl
      · rfl
  | write stateVector expectedNote identity => exact absurd rfl (hop _ _ _)
  | persistCurrentDocument =>
      rw [exec]
      split
      · rfl
      · rfl

omit [PartialOrder V] in
theorem persistRestored_leaves (operation : RestoreOperation) (ws : ℕ → Outside V)
    (s : Replica V) :
    Process.TakenAll (exec u req now) (Leaves u req now) (persistRestored operation) ws s ∧
      ∀ e, (Process.finish (exec u req now) (persistRestored operation) ws s).1 = .error e →
        e.ofPersistence = true := by
  let next : Bool → RestoreProcess V RestoreOperation := fun persisted =>
    if persisted then pure operation else throw (.code .vaultPersistenceUnavailable)
  have hleaves : Leaves u req now .persistCurrentDocument (ws 0) s :=
    congrArg Replica.document
      (exec_reads u req now .persistCurrentDocument (fun _ _ _ => nofun) (ws 0) s)
  have hnext : ∀ (r : Except RestoreError Bool) (ws : ℕ → Outside V) (t : Replica V),
      (∀ e, r = .error e → e.ofPersistence = true) →
      Process.TakenAll (exec u req now) (Leaves u req now) ((Process.done r).bind next) ws t ∧
        ∀ e, (Process.finish (exec u req now) ((Process.done r).bind next) ws t).1 = .error e →
          e.ofPersistence = true := by
    intro r ws t hpersistence
    cases r with
    | error e =>
        refine ⟨trivial, fun e' herror => ?_⟩
        cases herror
        exact hpersistence e rfl
    | ok persisted =>
        cases persisted with
        | true =>
            refine ⟨trivial, fun e herror => ?_⟩
            cases herror
        | false =>
            refine ⟨trivial, fun e herror => ?_⟩
            cases herror
            rfl
  have hanswer : ∀ e, (exec u req now .persistCurrentDocument (ws 0) s).1 = .error e →
      e.ofPersistence = true := by
    intro e herror
    rw [exec] at herror
    split at herror
    · cases herror
      rfl
    · cases herror
  obtain ⟨htaken, hfails⟩ := hnext (exec u req now .persistCurrentDocument (ws 0) s).1
    (fun n => ws (n + 1)) (exec u req now .persistCurrentDocument (ws 0) s).2 hanswer
  exact ⟨⟨hleaves, htaken⟩, hfails⟩

theorem version_of_schema (document : VaultDocument) (snapshot : MaterializedSnapshot)
    (hschema : hasSchemaVersion document 1 = false)
    (h : extractMaterializedSnapshot u document = .ok snapshot) : 2 ≤ snapshot.schemaVersion := by
  have hversion := extract_version u document snapshot h
  have hbounds := supportedSchemaVersion_bounds _ _ hversion
  by_contra hlt
  have hone : snapshot.schemaVersion = 1 := by omega
  rw [hone] at hversion
  unfold hasSchemaVersion at hschema
  unfold supportedSchemaVersion at hversion
  split at hversion
  · next n hn =>
    have hfound := List.find?_some hversion
    rw [Bool.and_eq_true, decide_eq_true_eq, decide_eq_true_eq] at hfound
    rw [hn] at hschema
    simp only [decide_eq_false_iff_not] at hschema
    exact hschema hfound.2.symm
  · cases hversion

omit [DecidableEq V] in
/-- What is written over is the note that was read. -/
theorem write_sound (requestedPath : ValidatedVaultPath) (captured s : Replica V)
    (snapshot : MaterializedSnapshot) (identity : NoteIdentity) (w : Outside V)
    (mutation : RestoreMutation)
    (hvalid : validateMarkdownVaultPath u req.path = .ok requestedPath)
    (hcaptured : extractMaterializedSnapshot u captured.document = .ok snapshot)
    (hpermitted : permitted sha256 req (noteAtKey snapshot requestedPath.pathKey) = true)
    (hsame : (others w s).document = captured.document)
    (hvector : captured.stateVector = (others w s).stateVector)
    (hregular : Regular req now (.write captured.stateVector
      ((noteAtKey snapshot requestedPath.pathKey).map (StableSnapshotNote.mk snapshot)) identity)
        w s)
    (h : applyMarkdownNoteRestore u (others w s).document req
      ((noteAtKey snapshot requestedPath.pathKey).map (StableSnapshotNote.mk snapshot)) now
        identity = .ok mutation) :
    Permits u sha256 req (others w s).document ∧
      Restored u (others w s).document mutation.document (u.toLowerCase req.path)
        req.content := by
  have hkey := (validateMarkdownVaultPath_path u req.path requestedPath hvalid).2
  have hschema := hregular.schema _ _ _ rfl
  constructor
  · exact ⟨snapshot, by rw [hsame]; exact hcaptured, by rw [← hkey]; exact hpermitted⟩
  · rw [← hkey]
    refine (applyMarkdownNoteRestore_restored u (others w s).document req _ now identity mutation
      requestedPath h hvalid (others w s).keyed
      (fun snapshot' hsnapshot' => version_of_schema u _ snapshot' hschema hsnapshot') ?_ ?_ ?_).2
    · intro expected hexpected
      rw [Option.mem_def, Option.map_eq_some_iff] at hexpected
      obtain ⟨note, hnote, rfl⟩ := hexpected
      exact ⟨by rw [hsame]; exact hcaptured, List.mem_of_find?_eq_some hnote⟩
    · intro hnone
      exact hregular.fresh _ _ (by rw [hnone])
    · intro expected hexpected
      exact hregular.newest _ expected _ (by rw [Option.mem_def.mp hexpected]) hvector

theorem behaves_write (requestedPath : ValidatedVaultPath) (captured : Replica V)
    (snapshot : MaterializedSnapshot) (identity : NoteIdentity) (attempts : Nat)
    (ws : ℕ → Outside V) (s : Replica V)
    (hvalid : validateMarkdownVaultPath u req.path = .ok requestedPath)
    (hcaptured : extractMaterializedSnapshot u captured.document = .ok snapshot)
    (hpermitted : permitted sha256 req (noteAtKey snapshot requestedPath.pathKey) = true)
    (hsince : Since captured s)
    (hagain : ∀ (ws : ℕ → Outside V) (s : Replica V), Behaves u sha256 req now
      (restoreAttempts sha256 markdownNoteVersion req requestedPath attempts) ws s) :
    Behaves u sha256 req now (do
      let written : Option RestoreOperation ← ask (.write captured.stateVector
        ((noteAtKey snapshot requestedPath.pathKey).map (StableSnapshotNote.mk snapshot)) identity)
      afterWrite (restoreAttempts sha256 markdownNoteVersion req requestedPath attempts) written)
      ws s := by
  let op : RestoreOp V := .write captured.stateVector
    ((noteAtKey snapshot requestedPath.pathKey).map (StableSnapshotNote.mk snapshot)) identity
  let next : Option RestoreOperation → RestoreProcess V RestoreOperation :=
    afterWrite (restoreAttempts sha256 markdownNoteVersion req requestedPath attempts)
  intro hall
  obtain ⟨hregular, hrest⟩ : Regular req now op (ws 0) s ∧ Process.TakenAll (exec u req now)
    (Regular req now) ((Process.done (exec u req now op (ws 0) s).1).bind next)
      (fun n => ws (n + 1)) (exec u req now op (ws 0) s).2 := hall
  have hothers := hsince.trans (since_others (ws 0) s hregular.advancing)
  change Sound u sha256 req now (.call op (fun r => (Process.done r).bind next)) ws s
  by_cases hvector : captured.stateVector = (others (ws 0) s).stateVector
  · have hsame := hothers.2 hvector
    cases happly : applyMarkdownNoteRestore u (others (ws 0) s).document req
        ((noteAtKey snapshot requestedPath.pathKey).map (StableSnapshotNote.mk snapshot)) now
          identity with
    | error code =>
        have hexec : exec u req now op (ws 0) s = (.error (.code code), others (ws 0) s) := by
          change writeRestored u req now (ws 0) (others (ws 0) s) _ _ _ = _
          unfold writeRestored
          rw [if_neg (not_not.mpr hvector)]
          split
          · next code' hcode =>
            rw [happly] at hcode
            cases hcode
            rfl
          · next mutation hmutation =>
            rw [happly] at hmutation
            cases hmutation
        apply sound_left u sha256 req now op _ ws s
        · unfold Leaves
          rw [hexec]
        · rw [hexec]
          exact behaves_throw u sha256 req now _ _ _ trivial
    | ok mutation =>
        have hexec : (exec u req now op (ws 0) s).1 = .ok (some mutation.operation) ∧
            (exec u req now op (ws 0) s).2.document = mutation.document := by
          change (writeRestored u req now (ws 0) (others (ws 0) s) _ _ _).1 = _ ∧
            (writeRestored u req now (ws 0) (others (ws 0) s) _ _ _).2.document = _
          unfold writeRestored
          rw [if_neg (not_not.mpr hvector)]
          split
          · next code' hcode =>
            rw [happly] at hcode
            cases hcode
          · next mutation' hmutation =>
            rw [happly] at hmutation
            cases hmutation
            exact ⟨rfl, rfl⟩
        obtain ⟨hpermits, hrestored⟩ := write_sound u sha256 req now requestedPath captured s
          snapshot identity (ws 0) mutation hvalid hcaptured hpermitted hsame hvector hregular
          happly
        rw [← hexec.2] at hrestored
        obtain ⟨htaken, hfails⟩ := persistRestored_leaves u req now mutation.operation
          (fun n => ws (n + 1)) (exec u req now op (ws 0) s).2
        apply sound_written u sha256 req now op _ ws s ⟨hpermits, hrestored⟩
        · rw [hexec.1]
          exact htaken
        · rw [hexec.1]
          exact hfails
  · have hexec : exec u req now op (ws 0) s = (.ok none, others (ws 0) s) := by
      change writeRestored u req now (ws 0) (others (ws 0) s) _ _ _ = _
      unfold writeRestored
      rw [if_pos hvector]
      rfl
    apply sound_left u sha256 req now op _ ws s
    · unfold Leaves
      rw [hexec]
    · rw [hexec] at hrest ⊢
      exact hagain _ _ hrest

theorem restoreAttempts_behaves (requestedPath : ValidatedVaultPath)
    (hvalid : validateMarkdownVaultPath u req.path = .ok requestedPath) (attempts : Nat)
    (ws : ℕ → Outside V) (s : Replica V) :
    Behaves u sha256 req now
      (restoreAttempts sha256 markdownNoteVersion req requestedPath attempts) ws s := by
  induction attempts generalizing ws s with
  | zero => exact behaves_throw u sha256 req now _ ws s
  | succ attempts ih =>
      rw [restoreAttempts]
      apply behaves_ask u sha256 req now .capture (fun _ _ => rfl)
      intro hregular r hr
      cases hr
      cases hsnapshot : extractMaterializedSnapshot u (others (ws 0) s).document with
      | error code => exact behaves_throw u sha256 req now _ _ _
      | ok snapshot =>
          change Behaves u sha256 req now (if permitted sha256 req
            (noteAtKey snapshot requestedPath.pathKey) then _ else _) _ _
          by_cases hpermitted : permitted sha256 req
              (noteAtKey snapshot requestedPath.pathKey) = true
          · rw [if_pos hpermitted]
            -- From the file on, both with and without a note.
            have htail : ∀ (fileId : String) (ws' : ℕ → Outside V) (t : Replica V),
                Since (others (ws 0) s) t →
                Behaves u sha256 req now (do
                  let active : Bool ← ask .isVaultActive
                  if active then do
                    let written : Option RestoreOperation ←
                      ask (.write (others (ws 0) s).stateVector
                        ((noteAtKey snapshot requestedPath.pathKey).map
                          (StableSnapshotNote.mk snapshot))
                        ⟨markdownNoteVersion fileId requestedPath.path req.content, fileId⟩)
                    afterWrite (restoreAttempts sha256 markdownNoteVersion req requestedPath
                      attempts) written
                  else throw (.code .vaultNotActive)) ws' t := by
              intro fileId ws' t hsince
              apply behaves_ask u sha256 req now .isVaultActive
                (exec_reads u req now _ (fun _ _ _ => nofun))
              intro hregular' active _
              have hsince' := hsince.trans (since_others (ws' 0) t hregular'.advancing)
              cases active with
              | false => exact behaves_throw u sha256 req now _ _ _
              | true =>
                  exact behaves_write u sha256 markdownNoteVersion req now requestedPath
                    (others (ws 0) s) snapshot _ attempts _ _ hvalid hsnapshot hpermitted
                    hsince' ih
            cases hnote : noteAtKey snapshot requestedPath.pathKey with
            | some note =>
                rw [hnote] at htail
                exact htail note.fileId _ _ (Since.refl _)
            | none =>
                rw [hnote] at htail
                apply behaves_ask u sha256 req now .randomToken (fun _ _ => rfl)
                intro hregular' token _
                exact htail token _ _ (since_others _ _ hregular'.advancing)
          · rw [if_neg hpermitted]
            exact behaves_throw u sha256 req now _ _ _

/-- Every run of regular operations is sound. -/
theorem restore_sound (ws : ℕ → Outside V) (s : Replica V)
    (h : Process.TakenAll (exec u req now) (Regular req now)
      (restoreMarkdownNote u sha256 markdownNoteVersion req) ws s) :
    Sound u sha256 req now (restoreMarkdownNote u sha256 markdownNoteVersion req) ws s := by
  have hbehaves : Behaves u sha256 req now
      (restoreMarkdownNote u sha256 markdownNoteVersion req) ws s := by
    unfold restoreMarkdownNote
    apply behaves_ask u sha256 req now .prepareNamedVault
      (exec_reads u req now _ (fun _ _ _ => nofun))
    intro _ supported _
    cases supported with
    | false => exact behaves_throw u sha256 req now _ _ _
    | true =>
        change Behaves u sha256 req now (if sha256 req.content ≠ req.contentSha256 then _
          else _) _ _
        split
        · exact behaves_throw u sha256 req now _ _ _
        · split
          · exact behaves_throw u sha256 req now _ _ _
          · next requestedPath hvalid =>
            exact restoreAttempts_behaves u sha256 markdownNoteVersion req now requestedPath
              hvalid 5 _ _
  exact hbehaves h

/-- What makes an operation regular that no one else has written before. -/
def undisturbed (op : RestoreOp V) (w : Outside V) (s : Replica V) : Bool :=
  w.before.isEmpty &&
    match op with
    | .write _ expectedNote identity =>
        !hasSchemaVersion s.document 1 &&
          match expectedNote with
          | none => (entry identity.fileId s.document.metadata).isNone
          | some expected => (liveRecords s.document.metadata).all (fun other =>
              other.fileId = expected.note.fileId || other.path ≠ expected.note.path ||
                !candidateIsNewer other
                  ⟨expected.note.fileId, some (req.modifiedAt.getD now), expected.note.path⟩)
    | _ => true

omit [DecidableEq V] in
theorem regular_of_undisturbed (op : RestoreOp V) (w : Outside V) (s : Replica V)
    (h : undisturbed req now op w s = true) : Regular req now op w s := by
  unfold undisturbed at h
  rw [Bool.and_eq_true, List.isEmpty_iff] at h
  obtain ⟨hbefore, hop⟩ := h
  have hothers : others w s = s := by
    unfold others
    rw [hbefore]
    rfl
  exact {
    advancing := by
      rw [hbefore]
      trivial
    schema := by
      rintro stateVector expectedNote identity rfl
      simp only [Bool.and_eq_true, Bool.not_eq_true'] at hop
      rw [hothers]
      exact hop.1
    fresh := by
      rintro stateVector identity rfl
      simp only [Bool.and_eq_true, Option.isNone_iff_eq_none] at hop
      rw [hothers]
      exact hop.2
    newest := by
      rintro stateVector expected identity rfl - - other hother hfile hpath
      simp only [Bool.and_eq_true, List.all_eq_true, Bool.or_eq_true, decide_eq_true_eq,
        Bool.not_eq_true'] at hop
      rw [hothers] at hother
      rcases hop.2 other hother with (hsame | hne) | hold
      · exact absurd hsame hfile
      · exact absurd hpath hne
      · exact hold }

end Runs

end Calls

/-! ## Runs with a note that is taken back -/

/-- The hashes of the texts of these runs. -/
def sampleSha256 (text : String) : String :=
  if text = "x" then "2d711642b726b04401627ca9fbac32f5c8530fb1903cc4db02258717921a4881"
  else if text = "y" then "a1fce4363854ff888cff4b8e7875d600c2682390412a8cf79b37d0b11148b0fa"
  else if text = "z" then "594e519ae499312b29433b7dd8a97ff068defcba9755b6d5d00e84c524d67b06"
  else "e3b0c44298fc1c149afbf4c8996fb92427ae41e4649b934ca495991b7852b855"

/-- A note of a text, last changed at five. -/
def oneNote (text : String) : Replica ℕ :=
  { document := {
      schemaVersion := some (.num (Decimal.ofNat 3))
      metadata := [("f1", createNestedActiveMeta "a.md" (Decimal.ofNat 5) "device")]
      pathToId := []
      idToText := [("f1", .text text)] }
    keyed := ⟨by simp, by simp, by simp⟩
    stateVector := 1 }

/-- The same note, and an older record of its path. -/
def duplicated : Replica ℕ :=
  { document := {
      schemaVersion := some (.num (Decimal.ofNat 3))
      metadata := [("f1", createNestedActiveMeta "a.md" (Decimal.ofNat 5) "device"),
        ("f2", createNestedActiveMeta "a.md" (Decimal.ofNat 3) "device")]
      pathToId := []
      idToText := [("f1", .text "x"), ("f2", .text "y")] }
    keyed := ⟨by simp, by simp, by simp⟩
    stateVector := 1 }

/-- The note is to read `z`, where it reads `x`. -/
def takeBack (modifiedAt : Nat) : RestoreMarkdownNoteRequest :=
  { content := "z", contentSha256 := sampleSha256 "z"
    expectedTargetContentSha256 := some (sampleSha256 "x")
    modifiedAt := some (Decimal.ofNat modifiedAt), path := "a.md" }

/-- Nobody else writes, except maybe before one operation. -/
def beside (n : ℕ) (before : List (Replica ℕ)) (i : ℕ) : Outside ℕ :=
  { before := if i = n then before else []
    failed := false, active := true, token := "f9", written := 2, persisted := true }

def sampleRestore (modifiedAt : Nat) : RestoreProcess ℕ RestoreOperation :=
  restoreMarkdownNote UnicodeTables.plain sampleSha256 (fun _ _ _ => "") (takeBack modifiedAt)

/-- What a run ends with, and what the notes of its document read. -/
def restoreResult (modifiedAt : Nat) (ws : ℕ → Outside ℕ) (s : Replica ℕ) :
    Option RestoreOperation × Option (List String) :=
  let ended := Process.finish (exec UnicodeTables.plain (takeBack modifiedAt) Decimal.zero)
    (sampleRestore modifiedAt) ws s
  (ended.1.toOption,
    (extractMaterializedSnapshot UnicodeTables.plain ended.2.document).toOption.map
      (fun snapshot => snapshot.notes.map MaterializedSnapshotNote.content))

theorem taken_back :
    Sound UnicodeTables.plain sampleSha256 (takeBack 6) Decimal.zero (sampleRestore 6)
      (beside 0 []) (oneNote "x") := by
  apply restore_sound
  have hundisturbed : Process.TakenAll
      (exec UnicodeTables.plain (takeBack 6) Decimal.zero)
      (fun op w s => undisturbed (takeBack 6) Decimal.zero op w s = true) (sampleRestore 6)
      (beside 0 []) (oneNote "x") := by
    decide +kernel
  exact Process.takenAll_mono (regular_of_undisturbed (takeBack 6) Decimal.zero) _ _ _
    hundisturbed

/-- The older record shows where the time that is written is older still. A text that was deleted
    while the call waited, which no state vector counts, is written over although the request
    expects another one. -/
theorem restore_oversteps :
    restoreResult 1 (beside 0 []) duplicated = (some .updated, some ["y"]) ∧
    restoreResult 6 (beside 3 [oneNote ""]) (oneNote "x") = (some .updated, some ["z"]) ∧
      (extractMaterializedSnapshot UnicodeTables.plain (oneNote "").document).toOption.map
        (fun snapshot => permitted sampleSha256 (takeBack 6) (noteAtKey snapshot "a.md")) =
          some false := by
  decide +kernel

end Mdevolved.Vault
