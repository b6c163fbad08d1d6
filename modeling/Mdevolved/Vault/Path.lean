import Mathlib

/-!
# Vault Paths

The one validator every note path goes through, on the way in and again on
every way back. It repairs nothing: a path it accepts is returned as it was,
with the key that identifies it across file systems and the title shown for
it. `validateMarkdownVaultPath_path` is that; since the outcome depends on the
path alone, validating an accepted path again gives the same answer.

What depends on the Unicode tables of the runtime is taken from
`UnicodeTables`: normalization, lower case, which characters are controls, and
the order strings are listed in.

## Main definitions

* `UnicodeTables`: What the runtime knows about characters.
* `VaultPathFailureReason`: Why a path is refused.
* `ValidatedVaultPath`: An accepted path with its key and title.
* `pathFault`: What is wrong with a path.
* `validateMarkdownVaultPath`: The validator.

## Theorems

* `validateMarkdownVaultPath_path`: An accepted path is returned as it was,
  and its key is its lower case.
-/

namespace Mdevolved.Vault

/-- What the runtime knows about characters and strings. -/
structure UnicodeTables where
  /-- `String.prototype.normalize("NFC")` -/
  nfc : String → String
  /-- `String.prototype.toLowerCase` -/
  toLowerCase : String → String
  /-- The categories `Cc` and `Cf`. -/
  isControlOrFormat : Char → Bool
  /-- `left.localeCompare(right) <= 0` -/
  localeLe : String → String → Bool

/-- Tables that are right where no character has two cases or forms. -/
def UnicodeTables.plain : UnicodeTables :=
  { nfc := id
    toLowerCase := id
    isControlOrFormat := fun _ => false
    localeLe := fun left right => left ≤ right }

def maxVaultPathBytes : Nat := 1024

def maxVaultPathSegmentBytes : Nat := 255

inductive VaultPathFailureReason
  | absolute | backslash | controlOrFormat | empty | emptySegment | notMarkdown | notNfc
  | obsidian | pathTooLong | reservedCharacter | reservedName | segmentTooLong
  | trailingPeriod | trailingSeparator | trailingSpace | unsafeSegment
  deriving DecidableEq

structure ValidatedVaultPath where
  path : String
  pathKey : String
  title : String
  deriving DecidableEq

/-- The characters Windows reserves. -/
def windowsReservedCharacter (c : Char) : Bool :=
  c ∈ ['<', '>', ':', '"', '|', '?', '*']

/-- A drive letter and a colon. -/
def driveRoot : List Char → Bool
  | c :: ':' :: _ => c.isAlpha
  | _ => false

/-- The characters `.` does not match in a regular expression. -/
def isLineTerminator (c : Char) : Bool :=
  c = '\n' || c = '\r' || c = Char.ofNat 0x2028 || c = Char.ofNat 0x2029

/-- A name Windows reserves, alone or before an extension. No letter of these
    names has a case variant outside ASCII. -/
def windowsReservedName (segment : List Char) : Bool :=
  let stem := (segment.takeWhile (· ≠ '.')).map Char.toUpper
  let extension := segment.dropWhile (· ≠ '.')
  let numbered := stem.take 3 = ['C', 'O', 'M'] || stem.take 3 = ['L', 'P', 'T']
  let reserved := stem ∈ [['C', 'O', 'N'], ['P', 'R', 'N'], ['A', 'U', 'X'], ['N', 'U', 'L']] ||
    (numbered && stem.drop 3 ∈ ['1', '2', '3', '4', '5', '6', '7', '8', '9'].map (fun d => [d]))
  reserved && !(extension.any isLineTerminator)

/-- What is wrong with one segment, if anything. -/
def segmentFault (segment : List Char) : Option VaultPathFailureReason :=
  if segment = [] then some .emptySegment
  else if segment = ['.'] ∨ segment = ['.', '.'] then some .unsafeSegment
  else if segment.getLast? = some '.' then some .trailingPeriod
  else if segment.getLast? = some ' ' then some .trailingSpace
  else if maxVaultPathSegmentBytes < (String.ofList segment).utf8ByteSize then
    some .segmentTooLong
  else if windowsReservedName segment then some .reservedName
  else none

/-- What is wrong with a path, if anything, in the order it is checked. -/
def pathFault (u : UnicodeTables) (value : String) : Option VaultPathFailureReason :=
  let chars := value.toList
  let segments := chars.splitOn '/'
  if chars = [] then some .empty
  else if value ≠ u.nfc value then some .notNfc
  else if maxVaultPathBytes < value.utf8ByteSize then some .pathTooLong
  else if chars.any u.isControlOrFormat then some .controlOrFormat
  else if chars.any windowsReservedCharacter then some .reservedCharacter
  else if chars.contains '\\' then some .backslash
  else if chars.head? = some '/' || driveRoot chars then some .absolute
  else if ['/', '/'] <:+: chars then some .emptySegment
  else if chars.getLast? = some '/' then some .trailingSeparator
  else
    match segments.findSome? segmentFault with
    | some reason => some reason
    | none =>
        if (segments.head?).map (fun s => u.toLowerCase (String.ofList s)) = some ".obsidian" then
          some .obsidian
        else if ['.', 'm', 'd'] <:+ (u.toLowerCase value).toList then none
        else some .notMarkdown

/-- Validate a note path without repairing it. -/
def validateMarkdownVaultPath (u : UnicodeTables) (value : String) :
    Except VaultPathFailureReason ValidatedVaultPath :=
  match pathFault u value, (value.toList.splitOn '/').getLast? with
  | some reason, _ => .error reason
  | none, none => .error .empty
  | none, some filename =>
      .ok {
        path := value
        pathKey := u.toLowerCase value
        title := String.ofList (filename.take (filename.length - 3)) }

/-- An accepted path is returned as it was, and its key is its lower case. -/
theorem validateMarkdownVaultPath_path (u : UnicodeTables) (value : String)
    (v : ValidatedVaultPath) (h : validateMarkdownVaultPath u value = .ok v) :
    v.path = value ∧ v.pathKey = u.toLowerCase value := by
  unfold validateMarkdownVaultPath at h
  split at h
  · cases h
  · cases h
  · rw [Except.ok.injEq] at h
    rw [← h]
    exact ⟨rfl, rfl⟩

end Mdevolved.Vault
