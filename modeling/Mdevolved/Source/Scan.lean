import Mdevolved.Lib.Decimal
import Mdevolved.Lib.Utf16
import Mdevolved.Vault.Path

/-!
# What a Scan of a Source Admits

A source is a folder of Markdown notes behind a port that lists directories and reads
files. What the port lists is not trusted: every path it names is validated, and a scan
fails rather than passing over one that is not portable, occurs twice, or is a symbolic
link. What is hidden, looks like a secret or is no Markdown is left out.

Directories are listed one after the other, and those found on the way wait in a queue.
`admitListed` takes in what one of them holds.

## Main definitions

* `WorkspaceEntry`, `MarkdownFile`: What is listed, and what is read.
* `validateRelativePath`, `shouldExclude`: The rules for paths.
* `boundedOptions`: The ceilings of a scan.
* `Listing`, `admitEntry`, `admitListed`: A listing as it comes in.
* `orderedEntries`: What was found, in order.

## Theorems

* `admitListed_remaining`: No more directories wait than entries were counted.
-/

namespace Mdevolved.Source

open Vault (UnicodeTables isLineTerminator)

inductive EntryKind
  | file | directory | symlink
  deriving DecidableEq

structure WorkspaceEntry where
  path : String
  kind : EntryKind
  size : Option Nat
  mtimeMs : Option Decimal
  deriving DecidableEq

structure MarkdownFile where
  path : String
  size : Nat
  mtimeMs : Option Decimal
  contents : List UInt8
  deriving DecidableEq

structure MarkdownScanResult where
  files : List MarkdownFile
  totalBytes : Nat
  scanId : String
  deriving DecidableEq

inductive SourceScanErrorCode
  | invalidPath | pathCollision | scanLimit | readFailed
  deriving DecidableEq

structure SourceScanError where
  code : SourceScanErrorCode
  message : String
  path : Option String
  deriving DecidableEq

/-! ## Paths -/

def excludedDirectories : List String :=
  [".git", ".obsidian", ".owd", "node_modules", "dist", "build", "coverage"]

/-- The segments of a path. -/
def segments (path : String) : List (List Char) :=
  path.toList.splitOn '/'

/-- A character as a regular expression compares it that does not tell cases apart. Two
    characters outside ASCII are taken for letters of it. -/
def folded (c : Char) : Char :=
  if c = Char.ofNat 0x017F then 's' else if c = Char.ofNat 0x212A then 'k' else c.toLower

/-- Where a segment of a path begins, up to the end of the path. -/
def segmentStarts (chars : List Char) : List (List Char) :=
  chars :: chars.tails.filterMap (fun rest =>
    match rest with
    | '/' :: rest => some rest
    | _ => none)

def secretWords : List (List Char) :=
  ["secret", "credential", "token", "privatekey", "private-key", "private_key"].map String.toList

/-- `.env`, alone or with an extension, or anything with such a word in it. -/
def secretFrom (rest : List Char) : Bool :=
  rest = ['.', 'e', 'n', 'v'] ||
    (['.', 'e', 'n', 'v', '.'].isPrefixOf rest && !rest.any isLineTerminator) ||
    (!rest.any isLineTerminator && secretWords.any (fun word => word <:+: rest))

def isSecretShaped (path : String) : Bool :=
  (segmentStarts (path.toList.map folded)).any secretFrom

/-- A drive letter, a colon and a separator. -/
def driveStart : List Char → Bool
  | c :: ':' :: separator :: _ => c.isAlpha && (separator = '/' || separator = '\\')
  | _ => false

def invalidPath (message path : String) : SourceScanError :=
  { code := .invalidPath, message := message, path := some path }

/-- Validate a portable relative path, which is returned as it was. -/
def validateRelativePath (u : UnicodeTables) (path : String) : Except SourceScanError String :=
  let chars := path.toList
  if chars = [] ∨ Char.ofNat 0 ∈ chars then
    .error (invalidPath "path must be a non-empty relative path" path)
  else if path ≠ u.nfc path then .error (invalidPath "path must use NFC Unicode" path)
  else if chars.head? = some '/' ∨ driveStart chars = true ∨ '\\' ∈ chars then
    .error (invalidPath "path must use portable relative separators" path)
  else if (segments path).any (fun part => part = [] || part = ['.'] || part = ['.', '.']) then
    .error (invalidPath "path contains an invalid segment" path)
  else .ok path

def depth (path : String) : Nat :=
  (segments path).length

def hidden (part : List Char) : Bool :=
  part.head? = some '.'

def shouldExclude (path : String) (kind : EntryKind) : Bool :=
  let parts := segments path
  let leaf := parts.getLast?.getD []
  let excluded := fun part => excludedDirectories.contains (String.ofList part)
  if parts.dropLast.any (fun part => hidden part || excluded part) then true
  else if kind = .directory then excluded leaf || hidden leaf
  else
    hidden leaf || isSecretShaped path ||
      !(['.', 'm', 'd'].isSuffixOf (leaf.map folded))

/-- The rule for a path that is read or written directly. -/
def validateMarkdownPath (u : UnicodeTables) (path : String) : Except SourceScanError String :=
  match validateRelativePath u path with
  | .error e => .error e
  | .ok validated =>
      if shouldExclude validated .file then
        .error (invalidPath "path is outside the Markdown source boundary" validated)
      else .ok validated

/-! ## Ceilings -/

structure MarkdownScanOptions where
  maxEntries : Int
  maxFiles : Int
  maxBytes : Int
  maxFileBytes : Int
  maxDepth : Int
  concurrency : Int

/-- Options as a caller gives them. -/
structure SuppliedScanOptions where
  maxEntries : Option Int
  maxFiles : Option Int
  maxBytes : Option Int
  maxFileBytes : Option Int
  maxDepth : Option Int
  concurrency : Option Int
  deriving DecidableEq

def defaultScanOptions : MarkdownScanOptions :=
  { maxEntries := 10000, maxFiles := 2000, maxBytes := 20 * 1024 * 1024
    maxFileBytes := 2 * 1024 * 1024, maxDepth := 32, concurrency := 8 }

/-- `{ ...defaultScanOptions, ...supplied }` -/
def suppliedOver (supplied : SuppliedScanOptions) : MarkdownScanOptions :=
  { maxEntries := supplied.maxEntries.getD defaultScanOptions.maxEntries
    maxFiles := supplied.maxFiles.getD defaultScanOptions.maxFiles
    maxBytes := supplied.maxBytes.getD defaultScanOptions.maxBytes
    maxFileBytes := supplied.maxFileBytes.getD defaultScanOptions.maxFileBytes
    maxDepth := supplied.maxDepth.getD defaultScanOptions.maxDepth
    concurrency := supplied.concurrency.getD defaultScanOptions.concurrency }

def maxSafeInteger : Int := 2 ^ 53 - 1

def MarkdownScanOptions.values (options : MarkdownScanOptions) : List Int :=
  [options.maxEntries, options.maxFiles, options.maxBytes, options.maxFileBytes,
    options.maxDepth, options.concurrency]

def scanLimit (message : String) (path : Option String) : SourceScanError :=
  { code := .scanLimit, message := message, path := path }

def boundedOptions (options : MarkdownScanOptions) : Except SourceScanError MarkdownScanOptions :=
  if options.values.any (fun value => maxSafeInteger < value || value < 1) then
    .error (scanLimit "scan ceilings must be positive integers" none)
  else .ok options

/-! ## Listings -/

/-- A listing as far as it has come: the directories that wait, what was found, and every
    path that was seen by its lower case. -/
structure Listing where
  directories : List String
  entries : List WorkspaceEntry
  seen : List (String × String)
  scannedEntryCount : Nat
  deriving DecidableEq

def Listing.start : Listing :=
  { directories := [""], entries := [], seen := [], scannedEntryCount := 0 }

/-- The error for a path whose lower case was seen before. -/
def collision (previous path : String) : SourceScanError :=
  if previous ≠ path then
    { code := .pathCollision, message := "paths collide on portable filesystems"
      path := some path }
  else { code := .pathCollision, message := "duplicate path", path := some path }

/-- Where an entry goes that may be listed. -/
def Listing.place (listing : Listing) (entry : WorkspaceEntry) (path : String) :
    Except SourceScanError Listing :=
  match entry.kind with
  | .symlink =>
      .error (invalidPath "symlinks are not supported inside a selected source" path)
  | .directory =>
      if shouldExclude path .directory then .ok listing
      else .ok { listing with directories := listing.directories ++ [path] }
  | .file =>
      if shouldExclude path .file then .ok listing
      else .ok { listing with entries := listing.entries ++ [{ entry with path := path }] }

/-- Take in one entry that was listed. -/
def admitEntry (u : UnicodeTables) (options : MarkdownScanOptions) (listing : Listing)
    (entry : WorkspaceEntry) : Except SourceScanError Listing :=
  let scannedEntryCount := listing.scannedEntryCount + 1
  if options.maxEntries < scannedEntryCount then
    .error (scanLimit "workspace entry count exceeds the scan ceiling" none)
  else
    match validateRelativePath u entry.path with
    | .error e => .error e
    | .ok path =>
        match listing.seen.lookup (u.toLowerCase path) with
        | some previous => .error (collision previous path)
        | none =>
            if options.maxDepth < depth path then
              .error (scanLimit "path exceeds the maximum depth" (some path))
            else
              { listing with
                scannedEntryCount := scannedEntryCount
                seen := (u.toLowerCase path, path) :: listing.seen : Listing }.place entry path

/-- Take in what a directory holds. -/
def admitListed (u : UnicodeTables) (options : MarkdownScanOptions) (listing : Listing)
    (listed : List WorkspaceEntry) : Except SourceScanError Listing :=
  listed.foldlM (admitEntry u options) listing

/-- What was found in the order of its paths, unless it is too much. -/
def orderedEntries (u : UnicodeTables) (options : MarkdownScanOptions)
    (entries : List WorkspaceEntry) : Except SourceScanError (List WorkspaceEntry) :=
  let sorted := entries.insertionSort (fun left right => u.localeLe left.path right.path = true)
  if options.maxFiles < sorted.length then
    .error (scanLimit "Markdown file count exceeds the scan ceiling" none)
  else .ok sorted

/-! ## The identity of a scan -/

/-- One round of the hash. -/
def hashUnit (hash : UInt32) (unit : Nat) : UInt32 :=
  (hash ^^^ UInt32.ofNat unit) * 16777619

/-- What of a file is hashed before its contents. -/
def fileHeader (file : MarkdownFile) : String :=
  file.path ++ String.singleton (Char.ofNat 0) ++ toString file.size ++
    String.singleton (Char.ofNat 0) ++ String.ofList ((file.mtimeMs.map Decimal.toChars).getD [])

def hashFile (hash : UInt32) (file : MarkdownFile) : UInt32 :=
  (file.contents.map UInt8.toNat).foldl hashUnit ((Utf16.units (fileHeader file)).foldl hashUnit hash)

def scanFingerprint (files : List MarkdownFile) : String :=
  let digits := Nat.toDigits 16 (files.foldl hashFile 2166136261).toNat
  String.ofList (List.replicate (8 - digits.length) '0' ++ digits)

/-! ## The queue -/

/-- How many directories may still be listed: those that wait, and one for each entry that
    may still be counted. -/
def Listing.remaining (options : MarkdownScanOptions) (listing : Listing) : Nat :=
  listing.directories.length + (options.maxEntries - listing.scannedEntryCount).toNat

theorem Listing.place_queue (listing listing' : Listing) (entry : WorkspaceEntry) (path : String)
    (h : listing.place entry path = .ok listing') :
    listing'.scannedEntryCount = listing.scannedEntryCount ∧
      listing'.directories.length ≤ listing.directories.length + 1 := by
  unfold place at h
  split at h
  · cases h
  · split at h
    · rw [← Except.ok.inj h]
      exact ⟨rfl, Nat.le_succ _⟩
    · rw [← Except.ok.inj h]
      exact ⟨rfl, by simp only [List.length_append, List.length_singleton, Nat.le_refl]⟩
  · split at h
    · rw [← Except.ok.inj h]
      exact ⟨rfl, Nat.le_succ _⟩
    · rw [← Except.ok.inj h]
      exact ⟨rfl, Nat.le_succ _⟩

/-- An entry that adds to the queue was counted. -/
theorem admitEntry_remaining (u : UnicodeTables) (options : MarkdownScanOptions)
    (listing listing' : Listing) (entry : WorkspaceEntry)
    (h : admitEntry u options listing entry = .ok listing') :
    listing'.remaining options ≤ listing.remaining options := by
  unfold admitEntry at h
  dsimp only at h
  split at h
  · cases h
  · next hcount =>
    split at h
    · cases h
    · split at h
      · cases h
      · split at h
        · cases h
        · have hplace := Listing.place_queue _ _ _ _ h
          dsimp only at hplace
          unfold Listing.remaining
          omega

/-- No more directories wait after one was listed than entries were counted for it. -/
theorem admitListed_remaining (u : UnicodeTables) (options : MarkdownScanOptions)
    (listing listing' : Listing) (listed : List WorkspaceEntry)
    (h : admitListed u options listing listed = .ok listing') :
    listing'.remaining options ≤ listing.remaining options := by
  induction listed generalizing listing with
  | nil =>
      rw [← Except.ok.inj h]
  | cons entry listed ih =>
      unfold admitListed at h ih
      rw [List.foldlM_cons] at h
      cases hentry : admitEntry u options listing entry with
      | error e => rw [hentry] at h; cases h
      | ok admitted =>
          rw [hentry] at h
          have hrest := ih admitted h
          have hfirst := admitEntry_remaining u options listing admitted entry hentry
          omega

end Mdevolved.Source
