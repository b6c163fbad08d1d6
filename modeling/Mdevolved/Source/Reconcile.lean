import Mdevolved.Source.Core
import Mdevolved.Lib.Utf8

/-!
# Reconciling a Folder

A folder of Markdown files is reconciled with the notes of a vault. Every file is read once,
at the start, and every note where its path comes up. Where the two differ, the hash that was
saved for the path after the last time tells which of them has changed since. If that is one
of them, it replaces the other. If it is both, or nothing is known, one of them is kept in a
file of its own beside the other and then replaced.

The folder, the notes and the saved hashes are a world that others change as well: the user
edits files, other devices edit notes, and a second run may be under way. What a listing
says of the folder and whether the notes have arrived is decided outside. Between two
operations anything may happen, also where the code does not wait.

## Main definitions

* `decideClosedFileConflict`: What becomes of a note that has two texts.
* `readBaseline`: What was saved.
* `conflictPath`, `freeArtifact`: Where a text is kept.
* `FolderOp`, `FolderOp.exec`: Operations and what they do.
* `reconcileFolder`: A run.

## Theorems

* `decide_apply`, `decide_import`, `decide_preserve`: What each decision rests on.
* `freeArtifact_spec`: A text is kept where nothing is known to be.
-/

namespace Mdevolved.Source

open Batch (Outcome)
open Vault (UnicodeTables)

/-! ## Notes with two texts -/

inductive ConflictReason
  | bothChanged | missingBaseline

inductive ConflictWinner
  | disk | crdt
  deriving DecidableEq

inductive MissingBaselineWinnerPolicy
  | diskMtimeAfterLastIndexSave | crdtDefaultNoEvidence | crdtDefaultDiskNotNewer

inductive ClosedFileConflictDecision
  | noOp
  | applyRemoteToDisk
  | importDiskToCrdt
  | preserveConflict (reason : ConflictReason) (winner : ConflictWinner)
      (preserveCrdt preserveDisk : Bool) (policy : Option MissingBaselineWinnerPolicy)

structure ClosedFileConflictInput where
  baselineHash : Option String
  diskHash : String
  crdtHash : String
  diskMtime : Option Decimal
  lastDiskIndexPersistedAt : Option Decimal

/-- Who wins where nothing is saved for a path. -/
def missingBaseline (input : ClosedFileConflictInput) : ClosedFileConflictDecision :=
  match input.diskMtime, input.lastDiskIndexPersistedAt with
  | some diskMtime, some persistedAt =>
      if persistedAt.lt diskMtime then
        .preserveConflict .missingBaseline .disk true false (some .diskMtimeAfterLastIndexSave)
      else .preserveConflict .missingBaseline .crdt false true (some .crdtDefaultDiskNotNewer)
  | _, _ => .preserveConflict .missingBaseline .crdt false true (some .crdtDefaultNoEvidence)

def decideClosedFileConflict (input : ClosedFileConflictInput) : ClosedFileConflictDecision :=
  if input.diskHash = input.crdtHash then .noOp
  else
    match input.baselineHash with
    | none => missingBaseline input
    | some baselineHash =>
        if input.diskHash = baselineHash ∧ input.crdtHash ≠ baselineHash then .applyRemoteToDisk
        else if input.crdtHash = baselineHash ∧ input.diskHash ≠ baselineHash then
          .importDiskToCrdt
        else .preserveConflict .bothChanged .disk true false none

section

variable (input : ClosedFileConflictInput)

/-- A file is replaced at once only if it is as it was saved. -/
theorem decide_apply (h : decideClosedFileConflict input = .applyRemoteToDisk) :
    input.baselineHash = some input.diskHash := by
  unfold decideClosedFileConflict missingBaseline at h
  split at h
  · cases h
  · split at h
    · split at h
      · split at h <;> cases h
      · cases h
    · next baselineHash hbaseline =>
      by_cases hdisk : input.diskHash = baselineHash
      · rw [hbaseline, hdisk]
      · simp only [hdisk, false_and, if_false] at h
        split at h <;> cases h

/-- So is a note. -/
theorem decide_import (h : decideClosedFileConflict input = .importDiskToCrdt) :
    input.baselineHash = some input.crdtHash := by
  unfold decideClosedFileConflict missingBaseline at h
  split at h
  · cases h
  · split at h
    · split at h
      · split at h <;> cases h
      · cases h
    · next baselineHash hbaseline =>
      by_cases hcrdt : input.crdtHash = baselineHash
      · rw [hbaseline, hcrdt]
      · simp only [hcrdt, false_and, if_false] at h
        split at h <;> cases h

/-- What is kept is the text that does not win. -/
theorem decide_preserve (reason : ConflictReason)
    (winner : ConflictWinner) (preserveCrdt preserveDisk : Bool)
    (policy : Option MissingBaselineWinnerPolicy)
    (h : decideClosedFileConflict input =
      .preserveConflict reason winner preserveCrdt preserveDisk policy) :
    preserveCrdt = decide (winner = .disk) := by
  unfold decideClosedFileConflict missingBaseline at h
  split at h
  · cases h
  · split at h
    · split at h
      · split at h <;> cases h <;> rfl
      · cases h
        rfl
    · split at h
      · cases h
      · split at h <;> cases h
        rfl

end

/-! ## What is saved -/

structure BaselineState where
  savedAt : Decimal
  hashes : List (String × String)
  deriving DecidableEq

/-- What is in local state under the key of the runs. -/
structure StoredBaseline where
  version : Option Int
  savedAt : Option Decimal
  hashes : Option (List (String × Option String))

def BaselineState.blank : BaselineState :=
  { savedAt := Decimal.zero, hashes := [] }

def isSha256Hex (text : String) : Bool :=
  text.length = 64 && text.toList.all (fun c => c.isDigit || ('a' ≤ c && c ≤ 'f'))

/-- The entries that hold a hash. -/
def savedHashes (hashes : List (String × Option String)) : List (String × String) :=
  hashes.filterMap (fun entry =>
    (entry.2.filter isSha256Hex).map (fun hash => (entry.1, hash)))

def readBaseline (value : Option StoredBaseline) : BaselineState :=
  match value with
  | none => .blank
  | some record =>
      match record.savedAt, record.hashes with
      | some savedAt, some hashes =>
          if record.version = some 1 then { savedAt := savedAt, hashes := savedHashes hashes }
          else .blank
      | _, _ => .blank

def BaselineState.stored (baseline : BaselineState) : StoredBaseline :=
  { version := some 1
    savedAt := some baseline.savedAt
    hashes := some (baseline.hashes.map (fun entry => (entry.1, some entry.2))) }

/-! ## Dates -/

/-- The year, the month and the day that a number of days after the first of January 1970
    is, in the Gregorian calendar. A year is counted from March, so that a leap day is its
    last. -/
def civilDate (days : Nat) : Nat × Nat × Nat :=
  let shifted := days + 719468
  let era := shifted / 146097
  let dayOfEra := shifted % 146097
  let yearOfEra := (dayOfEra - dayOfEra / 1460 + dayOfEra / 36524 - dayOfEra / 146096) / 365
  let dayOfYear := dayOfEra - (365 * yearOfEra + yearOfEra / 4 - yearOfEra / 100)
  let month := (5 * dayOfYear + 2) / 153
  let day := dayOfYear - (153 * month + 2) / 5 + 1
  if month < 10 then (era * 400 + yearOfEra, month + 3, day)
  else (era * 400 + yearOfEra + 1, month - 9, day)

/-- A number in decimal digits, with zeros before them. -/
def padded (width n : Nat) : String :=
  let digits := Nat.toDigits 10 n
  String.ofList (List.replicate (width - digits.length) '0' ++ digits)

/-- The last moment of a date. -/
def maxTime : Nat := 8640000000000000

/-- `new Date(now).toISOString().replace(/[.:]/gu, "-")` -/
def stamp (now : Nat) : String :=
  let (year, month, day) := civilDate (now / 86400000)
  let rest := now % 86400000
  let yearText := if year ≤ 9999 then padded 4 year else "+" ++ padded 6 year
  yearText ++ "-" ++ padded 2 month ++ "-" ++ padded 2 day ++ "T" ++
    padded 2 (rest / 3600000) ++ "-" ++ padded 2 (rest / 60000 % 60) ++ "-" ++
    padded 2 (rest / 1000 % 60) ++ "-" ++ padded 3 (rest % 1000) ++ "Z"

example : stamp 951782400007 = "2000-02-29T00-00-00-007Z" := by decide

/-! ## Where a text is kept -/

inductive ConflictSide
  | disk | remote

def ConflictSide.text : ConflictSide → String
  | disk => "disk"
  | remote => "remote"

/-- The characters that fit into so many code units. Half of a character that is cut in two
    is written as a replacement character. -/
def takeUnits : Nat → List Char → List Char
  | _, [] => []
  | left, c :: chars =>
      let size := (Utf16.charUnits c).length
      if size ≤ left then c :: takeUnits (left - size) chars
      else if left = 0 then [] else [Char.ofNat 0xFFFD]

def isSeparator (c : Char) : Bool := c = '/'

def conflictPath (u : UnicodeTables) (path : String) (now : Nat) (side : ConflictSide) : String :=
  let chars := path.toList
  let directory := chars.rdropWhile (fun c => !isSeparator c)
  let filename := chars.rtakeWhile (fun c => !isSeparator c)
  let stem :=
    if ['.', 'm', 'd'].isSuffixOf (u.toLowerCase (String.ofList filename)).toList then
      filename.rdrop 3
    else filename
  String.ofList (directory ++ takeUnits 120 stem) ++ " (MDevolved conflict " ++ side.text ++
    " " ++ stamp now ++ ").md"

/-- The first path that is not taken, with times that are tried one after the other as long
    as they are dates. -/
def freeFrom (u : UnicodeTables) (occupied : List String) (path : String) (side : ConflictSide) :
    Nat → Nat → Option String
  | 0, _ => none
  | left + 1, time =>
      if conflictPath u path time side ∈ occupied then
        freeFrom u occupied path side left (time + 1)
      else some (conflictPath u path time side)

/-- The path for what is kept. The second time that is tried is two later than the first. -/
def freeArtifact (u : UnicodeTables) (occupied : List String) (path : String)
    (side : ConflictSide) (now : Nat) : Option String :=
  if conflictPath u path now side ∈ occupied then
    freeFrom u occupied path side (maxTime - 1 - now) (now + 2)
  else some (conflictPath u path now side)

theorem freeFrom_spec (u : UnicodeTables) (occupied : List String) (path : String)
    (side : ConflictSide) (left time : Nat) (artifact : String)
    (h : freeFrom u occupied path side left time = some artifact) :
    artifact ∉ occupied ∧ ∃ time, artifact = conflictPath u path time side := by
  induction left generalizing time with
  | zero => cases h
  | succ left ih =>
      rw [freeFrom] at h
      by_cases htaken : conflictPath u path time side ∈ occupied
      · rw [if_pos htaken] at h
        exact ih (time + 1) h
      · rw [if_neg htaken, Option.some.injEq] at h
        exact ⟨h ▸ htaken, time, h.symm⟩

/-- A text is kept where nothing is known to be. -/
theorem freeArtifact_spec (u : UnicodeTables) (occupied : List String) (path : String)
    (side : ConflictSide) (now : Nat) (artifact : String)
    (h : freeArtifact u occupied path side now = some artifact) :
    artifact ∉ occupied ∧ ∃ time, artifact = conflictPath u path time side := by
  unfold freeArtifact at h
  by_cases htaken : conflictPath u path now side ∈ occupied
  · rw [if_pos htaken] at h
    exact freeFrom_spec u occupied path side _ _ artifact h
  · rw [if_neg htaken, Option.some.injEq] at h
    exact ⟨h ▸ htaken, now, h.symm⟩

/-! ## Maps -/

section Maps

variable {α : Type}

/-- `map.set(key, value)` -/
def put (key : String) (value : α) : List (String × α) → List (String × α)
  | [] => [(key, value)]
  | entry :: entries =>
      if entry.1 = key then (key, value) :: entries else entry :: put key value entries

def remove (key : String) (entries : List (String × α)) : List (String × α) :=
  entries.filter (fun entry => entry.1 ≠ key)

theorem lookup_put (key key' : String) (value : α) (entries : List (String × α)) :
    (put key value entries).lookup key' =
      if key' = key then some value else entries.lookup key' := by
  induction entries with
  | nil =>
      by_cases hkey : key' = key
      · simp [put, hkey]
      · simp [put, hkey, List.lookup_cons, beq_eq_false_iff_ne.mpr hkey]
  | cons entry entries ih =>
      obtain ⟨first, old⟩ := entry
      by_cases hfirst : first = key
      · by_cases hkey : key' = key
        · simp [put, hfirst, hkey]
        · simp [put, hfirst, hkey, List.lookup_cons, beq_eq_false_iff_ne.mpr hkey]
      · simp only [put, hfirst, if_false, List.lookup_cons, ih]
        by_cases hsame : key' = first
        · have hkey : key' ≠ key := fun heq => hfirst (hsame.symm.trans heq)
          simp [hsame, hfirst]
        · simp [beq_eq_false_iff_ne.mpr hsame]

/-- What a map holds is under one of its keys. -/
theorem lookup_keys (key : String) (value : α) (entries : List (String × α))
    (h : entries.lookup key = some value) : key ∈ entries.map Prod.fst := by
  induction entries with
  | nil => cases h
  | cons entry entries ih =>
      rw [List.lookup_cons] at h
      by_cases hkey : key = entry.1
      · simp [hkey]
      · rw [beq_eq_false_iff_ne.mpr hkey] at h
        simp [ih h]

end Maps

/-! ## Operations -/

inductive FolderOp
  | readState
  | listMarkdown
  | readFile (path : String)
  | listPaths
  | readNote (path : String)
  | isTombstoned (path : String)
  | writeFile (path : String) (contents : String)
  | writeNote (path : String) (contents : String)
  | confirmDurable
  | writeState (baseline : BaselineState)
  | editFile (path : String) (contents : Option (List UInt8))
  | editNote (path : String) (contents : Option String)
  deriving DecidableEq

abbrev FolderOp.Ret : FolderOp → Type
  | readState => Option StoredBaseline
  | listMarkdown => List WorkspaceEntry
  | readFile _ => List UInt8
  | listPaths => List String
  | readNote _ => Option String
  | isTombstoned _ => Bool
  | confirmDurable => Bool
  | _ => Unit

inductive ReconcileError
  | port
  | scan (error : SourceScanError)
  | maxFileBytesInvalid
  | reconciliationTimeInvalid
  | sourceMarkdownInvalidUtf8 (path : String)
  | remoteMarkdownOversize (path : String)
  | artifactTimeInvalid
  | remoteReceiptUnconfirmed
  | terminated
  deriving DecidableEq

def ReconcileError.message : ReconcileError → String
  | port => "port"
  | scan error => error.message
  | maxFileBytesInvalid => "max_file_bytes_invalid"
  | reconciliationTimeInvalid => "reconciliation_time_invalid"
  | sourceMarkdownInvalidUtf8 path => "source_markdown_invalid_utf8:" ++ path
  | remoteMarkdownOversize path => "remote_markdown_oversize:" ++ path
  | artifactTimeInvalid => "Invalid time value"
  | remoteReceiptUnconfirmed => "remote_receipt_unconfirmed"
  | terminated => "terminated"

/-- The files of the folder, the notes of the vault, and what is saved. -/
structure FolderWorld where
  baseline : Option StoredBaseline
  disk : List (String × List UInt8)
  notes : List (String × String)
  tombstones : List String

/-- What is decided outside. -/
structure FolderOutside where
  outcome : Outcome
  listing : List WorkspaceEntry
  durable : Bool

/-- A note as another device leaves it, or the tombstone of one. -/
def FolderWorld.edited (path : String) (contents : Option String) (s : FolderWorld) :
    FolderWorld :=
  match contents with
  | some text =>
      { s with
        notes := put path text s.notes
        tombstones := s.tombstones.filter (fun tombstone => tombstone ≠ path) }
  | none => { s with notes := remove path s.notes, tombstones := path :: s.tombstones }

/-- A file as the user leaves it, or none. -/
def FolderWorld.saved (path : String) (contents : Option (List UInt8)) (s : FolderWorld) :
    FolderWorld :=
  match contents with
  | some bytes => { s with disk := put path bytes s.disk }
  | none => { s with disk := remove path s.disk }

/-- What an operation does by itself. A file is replaced in one piece, by renaming another
    one. -/
def FolderOp.effect (op : FolderOp) (w : FolderOutside) (s : FolderWorld) :
    Except ReconcileError (op.Ret × FolderWorld) :=
  match op with
  | .readState => .ok (s.baseline, s)
  | .listMarkdown => .ok (w.listing, s)
  | .readFile path =>
      match s.disk.lookup path with
      | none => .error .port
      | some contents => .ok (contents, s)
  | .listPaths => .ok (s.notes.map Prod.fst, s)
  | .readNote path => .ok (s.notes.lookup path, s)
  | .isTombstoned path => .ok (decide (path ∈ s.tombstones), s)
  | .writeFile path contents => .ok ((), { s with disk := put path (Utf8.encode contents) s.disk })
  | .writeNote path contents => .ok ((), { s with notes := put path contents s.notes })
  | .confirmDurable => .ok (w.durable, s)
  | .writeState baseline => .ok ((), { s with baseline := some baseline.stored })
  | .editFile path contents => .ok ((), s.saved path contents)
  | .editNote path contents => .ok ((), s.edited path contents)

def FolderOp.exec (op : FolderOp) (w : FolderOutside) (s : FolderWorld) :
    Except ReconcileError op.Ret × FolderWorld :=
  Batch.send .port w.outcome (op.effect w) s

abbrev FolderCalls (α : Type) :=
  Process FolderOp (fun op => Except ReconcileError op.Ret) ReconcileError α

def request (op : FolderOp) : FolderCalls op.Ret :=
  Process.request op

/-! ## A run -/

/-- What a run goes by: the hash of texts, what characters are, its time and its ceiling. -/
structure RunSettings where
  sha256 : String → String
  unicode : UnicodeTables
  now : Nat
  maxFileBytes : Int

/-- A file as it was read. -/
structure DiskFile where
  contents : String
  entry : WorkspaceEntry

/-- The files that were read, and the paths of those that are too large. -/
structure DiskRead where
  disk : List (String × DiskFile)
  skippedOversize : List String

def DiskRead.take (entry : WorkspaceEntry) (contents : Option String) (r : DiskRead) : DiskRead :=
  match contents with
  | none => { r with skippedOversize := r.skippedOversize ++ [entry.path] }
  | some text => { r with disk := put entry.path { contents := text, entry := entry } r.disk }

/-- How far a run has come. -/
structure Reconciled where
  occupiedPaths : List String
  nextHashes : List (String × String)
  conflicts : List String
  diskWrites : Nat
  remoteWrites : Nat

def Reconciled.wroteDisk (r : Reconciled) : Reconciled :=
  { r with diskWrites := r.diskWrites + 1 }

def Reconciled.wroteRemote (r : Reconciled) : Reconciled :=
  { r with remoteWrites := r.remoteWrites + 1 }

def Reconciled.hashed (path hash : String) (r : Reconciled) : Reconciled :=
  { r with nextHashes := put path hash r.nextHashes }

def Reconciled.conflict (path : String) (r : Reconciled) : Reconciled :=
  { r with conflicts := r.conflicts ++ [path] }

def Reconciled.occupied (path : String) (r : Reconciled) : Reconciled :=
  { r with occupiedPaths := r.occupiedPaths ++ [path] }

structure FolderReconciliationResult where
  conflicts : List String
  diskWrites : Nat
  remoteWrites : Nat
  skippedOversize : List String
  durable : Bool
  deriving DecidableEq

/-- The text of a file, unless it is too large by now. -/
def readText (path : String) (maxFileBytes : Int) : FolderCalls (Option String) := do
  let contents : List UInt8 ← request (.readFile path)
  if maxFileBytes < contents.length then return none
  else
    match Utf8.decode contents with
    | some text => return some text
    | none => throw .port

def safeText (entry : WorkspaceEntry) (maxFileBytes : Int) : FolderCalls (Option String) :=
  tryCatch (readText entry.path maxFileBytes)
    (fun _ => throw (.sourceMarkdownInvalidUtf8 entry.path))

/-- Read the files one after the other. -/
def readEligible (maxFileBytes : Int) : List WorkspaceEntry → DiskRead → FolderCalls DiskRead
  | [], r => return r
  | entry :: entries, r => do
      let contents ← safeText entry maxFileBytes
      readEligible maxFileBytes entries (r.take entry contents)

section Run

variable (g : RunSettings) (baseline : BaselineState) (path : String)

/-- Replace a file. -/
def writeDisk (text : String) (r : Reconciled) : FolderCalls Reconciled := do
  request (.writeFile path text)
  return r.wroteDisk.hashed path (g.sha256 text)

/-- Replace a note. -/
def writeRemote (text : String) (r : Reconciled) : FolderCalls Reconciled := do
  request (.writeNote path text)
  return r.wroteRemote.hashed path (g.sha256 text)

/-- Publish a file that is no note, unless the note was deleted. -/
def publishFile (file : DiskFile) (r : Reconciled) : FolderCalls Reconciled := do
  let tombstoned : Bool ← request (.isTombstoned path)
  if tombstoned then return r.conflict path
  else writeRemote g path file.contents r

/-- Replace the text that loses. -/
def replaceLosing (winner : ConflictWinner) (file : DiskFile) (remoteContents : String)
    (r : Reconciled) : FolderCalls Reconciled :=
  match winner with
  | .disk => writeRemote g path file.contents r
  | .crdt => writeDisk g path remoteContents r

/-- Keep one of two texts beside the other, and replace it. -/
def preserve (winner : ConflictWinner) (preserveCrdt : Bool) (file : DiskFile)
    (remoteContents : String) (r : Reconciled) : FolderCalls Reconciled := do
  let preserved := if preserveCrdt then remoteContents else file.contents
  let side := if preserveCrdt then ConflictSide.remote else ConflictSide.disk
  match freeArtifact g.unicode r.occupiedPaths path side g.now with
  | none => throw .artifactTimeInvalid
  | some artifact => do
      request (.writeFile artifact preserved)
      replaceLosing g path winner file remoteContents
        ((r.occupied artifact).wroteDisk.conflict artifact)

/-- What the decision about a note with two texts is taken from. -/
def conflictInput (file : DiskFile) (remoteContents : String) : ClosedFileConflictInput :=
  { baselineHash := baseline.hashes.lookup path
    diskHash := g.sha256 file.contents
    crdtHash := g.sha256 remoteContents
    diskMtime := file.entry.mtimeMs
    lastDiskIndexPersistedAt := some baseline.savedAt }

/-- A note that has two texts. -/
def settle (file : DiskFile) (remoteContents : String) (r : Reconciled) :
    FolderCalls Reconciled :=
  match decideClosedFileConflict (conflictInput g baseline path file remoteContents) with
  | .noOp => return r.hashed path (g.sha256 file.contents)
  | .applyRemoteToDisk => writeDisk g path remoteContents r
  | .importDiskToCrdt => writeRemote g path file.contents r
  | .preserveConflict _ winner preserveCrdt _ _ =>
      preserve g path winner preserveCrdt file remoteContents r

/-- A path that was listed, with the file that was read there and the note that is there. -/
def reconcileWith (file : Option DiskFile) (remoteContents : Option String) (r : Reconciled) :
    FolderCalls Reconciled :=
  match file, remoteContents with
  | none, none => return r
  | none, some text => writeDisk g path text r
  | some file, none => publishFile g path file r
  | some file, some text => settle g baseline path file text r

def tooLong (maxFileBytes : Int) (text : String) : Bool :=
  maxFileBytes < (Utf8.encode text).length

def reconcilePath (disk : List (String × DiskFile)) (r : Reconciled) :
    FolderCalls Reconciled := do
  let remoteContents : Option String ← request (.readNote path)
  if remoteContents.any (tooLong g.maxFileBytes) then throw (.remoteMarkdownOversize path)
  else reconcileWith g baseline path (disk.lookup path) remoteContents r

def reconcilePaths (disk : List (String × DiskFile)) :
    List String → Reconciled → FolderCalls Reconciled
  | [], r => return r
  | path :: paths, r => do
      let r' ← reconcilePath g baseline path disk r
      reconcilePaths disk paths r'

/-- The paths of both sides in order. -/
def pathsOf (disk : List (String × DiskFile)) (remotePaths : List String) : List String :=
  (distinctOf (disk.map Prod.fst ++ remotePaths)).insertionSort
    (fun left right => g.unicode.localeLe left right = true)

/-- The hashes of a run are saved once its notes have arrived. -/
def saveBaseline (r : Reconciled) : FolderCalls Bool := do
  let durable : Bool ← if r.remoteWrites = 0 then pure true else request .confirmDurable
  if durable then do
    request (.writeState { savedAt := Decimal.ofNat g.now, hashes := r.nextHashes })
    return durable
  else throw .remoteReceiptUnconfirmed

def eligible (maxFileBytes : Int) (entry : WorkspaceEntry) : Bool :=
  entry.kind = .file && decide (((entry.size.getD 0 : Nat) : Int) ≤ maxFileBytes)

def oversize (maxFileBytes : Int) (entries : List WorkspaceEntry) : List String :=
  (entries.filter (fun entry => decide (maxFileBytes < ((entry.size.getD 0 : Nat) : Int)))).map
    (·.path)

/-- A run with settings that are right. -/
def reconcileSettled : FolderCalls FolderReconciliationResult := do
  let stored : Option StoredBaseline ← request .readState
  let entries : List WorkspaceEntry ← request .listMarkdown
  let read ← readEligible g.maxFileBytes (entries.filter (eligible g.maxFileBytes))
    { disk := [], skippedOversize := oversize g.maxFileBytes entries }
  let listed : List String ← request .listPaths
  let remotePaths ← Process.ofExcept
    ((listed.mapM (validateMarkdownPath g.unicode)).mapError ReconcileError.scan)
  let paths := pathsOf g read.disk remotePaths
  let r ← reconcilePaths g (readBaseline stored) read.disk paths
    { occupiedPaths := paths, nextHashes := [], conflicts := [], diskWrites := 0
      remoteWrites := 0 }
  let durable ← saveBaseline g r
  return {
    conflicts := r.conflicts
    diskWrites := r.diskWrites
    remoteWrites := r.remoteWrites
    skippedOversize := read.skippedOversize
    durable := durable }

end Run

def reconcileFolder (sha256 : String → String) (u : UnicodeTables) (now maxFileBytes : Int) :
    FolderCalls FolderReconciliationResult :=
  if maxFileBytes < 1 ∨ maxSafeInteger < maxFileBytes then throw .maxFileBytesInvalid
  else if now < 0 ∨ (maxTime : Int) < now then throw .reconciliationTimeInvalid
  else
    reconcileSettled {
      sha256 := sha256, unicode := u, now := now.toNat, maxFileBytes := maxFileBytes }

/-! ## Requests -/

/-- What somebody does: a run, or an edit that takes effect at once. -/
inductive FolderRequest
  | reconcile (now maxFileBytes : Int)
  | editFile (path : String) (contents : Option (List UInt8))
  | editNote (path : String) (contents : Option String)

def FolderRequest.run (sha256 : String → String) (u : UnicodeTables) :
    FolderRequest → FolderCalls (Option FolderReconciliationResult)
  | reconcile now maxFileBytes =>
      reconcileFolder sha256 u now maxFileBytes >>= fun result => pure (some result)
  | editFile path contents => request (.editFile path contents) >>= fun _ => pure none
  | editNote path contents => request (.editNote path contents) >>= fun _ => pure none

end Mdevolved.Source
