import Mdevolved.Agent.Visibility
import Mdevolved.Lib.Json
import Mdevolved.Source.Core

/-!
# The Profile of a Vault

A vault made from a template has a manifest that says which folders agents may see, which
folder is their memory, and which names of files are never shown. The plugin reads a profile
from it: it cleans each entry, drops what it cannot express, leaves out what is in the memory
folder, and cuts long lists off. The server takes the profile in by a schema with rules of its
own: it takes blanks off the ends of every text, and refuses the profile as a whole if a text
does not fit then or two are the same.

What the plugin has cleaned is refused only for what is left to the schema, and `schema_of_fits`
says what that is.

## Main definitions

* `cleanRoot`, `cleanRoots`, `cleanNeverExposeFileNames`: What is cleaned.
* `parseObsidianMindRuntimeProfile`: The profile that a manifest gives.
* `obsidianMindRuntimeProfileSchema`: The profile that the server takes in.
* `Fits`: What is left to the schema.

## Theorems

* `cleanRoots_clean`: What a root is like that was cleaned.
* `parse_cleaned`: What a profile is like that was parsed.
-/

namespace Mdevolved.Agent

open Source (isWhitespace)
open Vault (UnicodeTables)

structure ObsidianMindRuntimeProfile where
  contentRoots : List String
  memoryRoot : String
  neverExposeFileNames : List String
  version : String
  deriving DecidableEq

/-! ## Texts -/

/-- `value.trim()` -/
def trimmed (chars : List Char) : List Char :=
  (chars.dropWhile isWhitespace).rdropWhile isWhitespace

def hasControlCharacters (chars : List Char) : Bool :=
  chars.any (fun c => c.toNat ≤ 0x1f || c.toNat = 0x7f)

def isSlash (c : Char) : Bool := c = '/' || c = '\\'

/-- The length of a text in code units. -/
def unitLength (chars : List Char) : Nat :=
  (chars.flatMap Utf16.charUnits).length

/-- A segment that names no folder. -/
def dotted (part : List Char) : Bool :=
  part = [] || part = ['.'] || part = ['.', '.']

def dropDigits (chars : List Char) : Option (List Char) :=
  if (chars.head?).any Char.isDigit then some (chars.dropWhile Char.isDigit) else none

def dropDot : List Char → Option (List Char)
  | '.' :: rest => some rest
  | _ => none

/-- What comes after three numbers that are parted by dots. -/
def dropNumbers (chars : List Char) : Option (List Char) := do
  let minor ← (dropDigits chars) >>= dropDot
  let patch ← (dropDigits minor) >>= dropDot
  dropDigits patch

/-- `/^\d+\.\d+\.\d+(?:-[0-9A-Za-z.-]+)?$/u` -/
def isVersion (chars : List Char) : Bool :=
  match dropNumbers chars with
  | some [] => true
  | some ('-' :: rest) => rest ≠ [] && rest.all (fun c => c.isAlphanum || c = '.' || c = '-')
  | _ => false

/-! ## The plugin -/

section Plugin

variable (u : UnicodeTables)

def fallbackRoots : List String := ["brain", "reference"]

def maxContentRoots : Nat := 32

def maxNeverExposeFiles : Nat := 64

/-- The first of those texts that are the same in lower case. -/
def uniqueCaseInsensitive (values : List String) : List String :=
  values.foldl (fun result value =>
    if result.any (fun known => u.toLowerCase known = u.toLowerCase value) then result
    else result ++ [value]) []

/-- The folder of an entry that is cut into segments. One whose last segment stands for the
    notes of a folder is that folder. -/
def rootOfParts (endsInFolder : Bool) (parts : List (List Char)) : Option (List (List Char)) :=
  match parts.findIdx? (fun part => '*' ∈ part) with
  | none => some parts
  | some globIndex =>
      if !endsInFolder && globIndex + 1 = parts.length && 0 < globIndex &&
          parts.getLast? = some ['*', '.', 'm', 'd'] then
        some (parts.take globIndex)
      else none

/-- `value.replace(/^\.\//u, "")` -/
def withoutDotSlash : List Char → List Char
  | '.' :: '/' :: rest => rest
  | chars => chars

def cleanRoot (raw : String) : Option String :=
  let chars := withoutDotSlash (trimmed raw.toList)
  let endsInFolder := (chars.getLast?).any isSlash
  let normalized := (chars.dropWhile isSlash).rdropWhile isSlash
  let parts := normalized.splitOnP isSlash
  if normalized = [] || parts.any (fun part => dotted part || hasControlCharacters part) then none
  else
    (rootOfParts endsInFolder parts).map
      (fun parts => String.ofList (['/'].intercalate parts))

/-- The entries of a list that are texts. -/
def textsIn : Option Json → List String
  | some (.arr items) => items.filterMap (fun item =>
      match item with
      | .str text => some text
      | _ => none)
  | _ => []

/-- The folders that a list declares. -/
def rootsIn (value : Option Json) : List String :=
  (textsIn value).filterMap cleanRoot

def cleanRoots (value : Option Json) : List String :=
  (uniqueCaseInsensitive u (rootsIn value)).take maxContentRoots

def cleanNeverExpose (raw : String) : Bool :=
  raw ≠ "" && unitLength raw.toList ≤ 255 && '/' ∉ raw.toList && '\\' ∉ raw.toList &&
    !hasControlCharacters raw.toList

def cleanNeverExposeFileNames (value : Option Json) : List String :=
  (uniqueCaseInsensitive u ((textsIn value).filter cleanNeverExpose)).take maxNeverExposeFiles

def cleanMemoryRoot (value : Option Json) : String :=
  (cleanRoots u (some (.arr value.toList))).head?.getD "memories"

/-- A folder is the memory folder, or in it. -/
def inMemoryRoot (memoryRoot root : String) : Bool :=
  let key := u.toLowerCase root
  let memoryKey := u.toLowerCase memoryRoot
  key = memoryKey || startsWith key (memoryKey ++ "/")

def withoutMemoryRoot (roots : List String) (memoryRoot : String) : List String :=
  roots.filter (fun root => !inMemoryRoot u memoryRoot root)

/-- The folders that a manifest exposes. -/
def exposedRoots (parsed : Json) : List String :=
  let declaredRoots := cleanRoots u (parsed.member "mcp_exposed_roots")
  let derivedRoots := cleanRoots u (parsed.member "user_content_roots")
  if declaredRoots ≠ [] then declaredRoots
  else if derivedRoots ≠ [] then derivedRoots
  else fallbackRoots

/-- The version of a manifest of the template. -/
def manifestVersion (parsed : Json) : Option String :=
  match parsed.member "template", parsed.member "version" with
  | some (.str template), some (.str version) =>
      if template = "obsidian-mind" && isVersion version.toList then some version else none
  | _, _ => none

def parseManifest (parsed : Json) : Option ObsidianMindRuntimeProfile :=
  match manifestVersion parsed with
  | none => none
  | some version =>
      let memoryRoot := cleanMemoryRoot u (parsed.member "memory_root")
      let contentRoots := withoutMemoryRoot u (exposedRoots u parsed) memoryRoot
      if contentRoots = [] then none
      else
        some {
          contentRoots := contentRoots
          memoryRoot := memoryRoot
          neverExposeFileNames := cleanNeverExposeFileNames u (parsed.member "mcp_never_expose")
          version := version }

def parseObsidianMindRuntimeProfile (manifestText : String) :
    Option ObsidianMindRuntimeProfile :=
  (Json.parse manifestText).bind (parseManifest u)

end Plugin

/-! ## The schema -/

/-- The name of a file. -/
abbrev PlainName := { name : String // '/' ∉ name.toList }

/-- A profile that the server has taken in. -/
structure AcceptedProfile where
  runtime : RuntimeProfile
  memoryRoot : String
  version : String
  deriving DecidableEq

/-- A folder as the server keeps it. -/
def keptRoot (value : String) : String :=
  String.ofList (trimSeparators (trimmed value.toList))

def vaultRuntimeProfilePathSchema (value : String) : Option String :=
  let chars := trimmed value.toList
  if chars = [] || 1024 < unitLength chars then none
  else if hasControlCharacters chars then none
  else if chars.head? = some '/' || chars.head? = some '\\' then none
  else if '\\' ∈ chars then none
  else if ((trimSeparators chars).splitOn '/').any dotted then none
  else if '*' ∈ chars then none
  else some (String.ofList (trimSeparators chars))

def vaultRuntimeProfileFilenameSchema (value : String) : Option PlainName :=
  let chars := trimmed value.toList
  if chars = [] || 255 < unitLength chars then none
  else if hasControlCharacters chars then none
  else if h : '/' ∈ chars ∨ '\\' ∈ chars then none
  else some ⟨String.ofList chars, by rw [String.toList_ofList]; exact fun hc => h (Or.inl hc)⟩

/-- The runtime profile with names of files that have no separator. -/
def runtimeProfile (contentRoots : List String) (names : List PlainName) : RuntimeProfile where
  contentRoots := contentRoots
  neverExposeFileNames := names.map Subtype.val
  plain := by
    rw [List.all_eq_true]
    intro name hname
    obtain ⟨plain, -, rfl⟩ := List.mem_map.mp hname
    exact decide_eq_true plain.2

section Schema

variable (u : UnicodeTables)

/-- No two texts are the same in lower case. -/
abbrev DistinctCaseInsensitive (values : List String) : Prop :=
  (values.map u.toLowerCase).Nodup

def obsidianMindRuntimeProfileSchema (profile : ObsidianMindRuntimeProfile) :
    Option AcceptedProfile :=
  match profile.contentRoots.mapM vaultRuntimeProfilePathSchema,
      vaultRuntimeProfilePathSchema profile.memoryRoot,
      profile.neverExposeFileNames.mapM vaultRuntimeProfileFilenameSchema with
  | some contentRoots, some memoryRoot, some names =>
      let version := trimmed profile.version.toList
      if contentRoots = [] ∨ 32 < contentRoots.length ∨ ¬ DistinctCaseInsensitive u contentRoots then
        none
      else if 64 < names.length ∨ ¬ DistinctCaseInsensitive u (names.map Subtype.val) then none
      else if version = [] ∨ 64 < unitLength version ∨ isVersion version = false then none
      else if contentRoots.any (inMemoryRoot u memoryRoot) then none
      else
        some {
          runtime := runtimeProfile contentRoots names
          memoryRoot := memoryRoot
          version := String.ofList version }
  | _, _, _ => none

end Schema

/-! ## What was cleaned -/

/-- What cleaning leaves no trace of in a folder. -/
structure CleanRoot (root : String) : Prop where
  plain : '\\' ∉ root.toList
  dynamic : '*' ∉ root.toList
  printable : hasControlCharacters root.toList = false

theorem mem_splitOnP (p : Char → Bool) (chars part : List Char) (hpart : part ∈ chars.splitOnP p)
    (c : Char) (hc : c ∈ part) : c ∈ chars ∧ p c = false := by
  induction chars generalizing part with
  | nil =>
      rw [List.splitOnP_nil, List.mem_singleton] at hpart
      rw [hpart] at hc
      cases hc
  | cons d chars ih =>
      rw [List.splitOnP_cons_eq_if_modifyHead] at hpart
      by_cases hd : p d = true
      · rw [if_pos hd] at hpart
        rcases List.mem_cons.mp hpart with rfl | hrest
        · cases hc
        · exact ⟨List.mem_cons_of_mem d (ih part hrest hc).1, (ih part hrest hc).2⟩
      · rw [if_neg hd] at hpart
        cases hparts : chars.splitOnP p with
        | nil => exact absurd hparts (List.splitOnP_ne_nil p chars)
        | cons first parts =>
            rw [hparts] at hpart
            rcases List.mem_cons.mp hpart with rfl | hrest
            · -- The first part has one character more.
              rcases List.mem_cons.mp hc with rfl | hc'
              · exact ⟨List.mem_cons_self, Bool.eq_false_iff.mpr hd⟩
              · have hfirst := ih first (by rw [hparts]; exact List.mem_cons_self) hc'
                exact ⟨List.mem_cons_of_mem d hfirst.1, hfirst.2⟩
            · have hlater := ih part (by rw [hparts]; exact List.mem_cons_of_mem _ hrest) hc
              exact ⟨List.mem_cons_of_mem d hlater.1, hlater.2⟩

theorem mem_intercalate (separator c : Char) (parts : List (List Char))
    (hc : c ∈ [separator].intercalate parts) : c = separator ∨ ∃ part ∈ parts, c ∈ part := by
  induction parts with
  | nil => cases hc
  | cons part parts ih =>
      cases parts with
      | nil =>
          rw [List.intercalate_singleton] at hc
          exact Or.inr ⟨part, List.mem_cons_self, hc⟩
      | cons next parts =>
          rw [List.intercalate_cons_cons, List.mem_append, List.mem_append,
            List.mem_singleton] at hc
          rcases hc with (hfirst | hseparator) | hrest
          · exact Or.inr ⟨part, List.mem_cons_self, hfirst⟩
          · exact Or.inl hseparator
          · rcases ih hrest with hseparator | ⟨part', hpart', hc'⟩
            · exact Or.inl hseparator
            · exact Or.inr ⟨part', List.mem_cons_of_mem part hpart', hc'⟩

/-- The segments that are left of an entry are among its segments, and none has a star. -/
theorem rootOfParts_spec (endsInFolder : Bool) (parts left : List (List Char))
    (h : rootOfParts endsInFolder parts = some left) :
    ∀ part ∈ left, part ∈ parts ∧ '*' ∉ part := by
  unfold rootOfParts at h
  cases hglob : parts.findIdx? (fun part => decide ('*' ∈ part)) with
  | none =>
      rw [hglob] at h
      rw [← Option.some.inj h]
      intro part hpart
      have hnone := List.findIdx?_eq_none_iff.mp hglob part hpart
      exact ⟨hpart, of_decide_eq_false hnone⟩
  | some globIndex =>
      rw [hglob] at h
      dsimp only at h
      split at h
      · rw [← Option.some.inj h]
        intro part hpart
        obtain ⟨i, hi, rfl⟩ := List.mem_take_iff_getElem.mp hpart
        obtain ⟨hlength, -, hbefore⟩ := List.findIdx?_eq_some_iff_getElem.mp hglob
        have hplain := hbefore i (by omega)
        exact ⟨List.getElem_mem _, by simpa using hplain⟩
      · cases h

theorem cleanRoot_clean (raw root : String) (h : cleanRoot raw = some root) : CleanRoot root := by
  unfold cleanRoot at h
  dsimp only at h
  split at h
  · cases h
  next hparts =>
  obtain ⟨left, hleft, rfl⟩ := Option.map_eq_some_iff.mp h
  simp only [Bool.or_eq_true, not_or, List.any_eq_true, not_exists, not_and] at hparts
  have hspec := rootOfParts_spec _ _ left hleft
  -- A character of the folder is a separator or one of a segment.
  have hcases : ∀ c ∈ (String.ofList (['/'].intercalate left)).toList, c = '/' ∨
      ∃ part ∈ left, c ∈ part := by
    intro c hc
    rw [String.toList_ofList] at hc
    exact mem_intercalate '/' c left hc
  constructor
  · intro hmem
    rcases hcases _ hmem with heq | ⟨part, hpart, hc⟩
    · exact absurd heq (by decide)
    · have hplain := (mem_splitOnP isSlash _ part (hspec part hpart).1 _ hc).2
      exact absurd hplain (by decide)
  · intro hmem
    rcases hcases _ hmem with heq | ⟨part, hpart, hc⟩
    · exact absurd heq (by decide)
    · exact (hspec part hpart).2 hc
  · rw [hasControlCharacters, List.any_eq_false]
    intro c hc
    rcases hcases c hc with rfl | ⟨part, hpart, hc'⟩
    · decide
    · have hprintable := (hparts.2 part (hspec part hpart).1).2
      rw [hasControlCharacters, Bool.not_eq_true, List.any_eq_false] at hprintable
      exact hprintable c hc'

section Plugin

variable (u : UnicodeTables)

/-- Of texts that are the same in lower case one is left. -/
theorem uniqueCaseInsensitive_spec (values : List String) :
    (∀ value ∈ uniqueCaseInsensitive u values, value ∈ values) ∧
      DistinctCaseInsensitive u (uniqueCaseInsensitive u values) ∧
      ∀ value ∈ values, ∃ known ∈ uniqueCaseInsensitive u values,
        u.toLowerCase known = u.toLowerCase value := by
  unfold uniqueCaseInsensitive
  induction values using List.reverseRecOn with
  | nil => simp [DistinctCaseInsensitive]
  | append_singleton values value ih =>
      obtain ⟨hsubset, hdistinct, hall⟩ := ih
      rw [List.foldl_append, List.foldl_cons, List.foldl_nil]
      split
      · next hknown =>
        obtain ⟨known, hmem, hsame⟩ := List.any_eq_true.mp hknown
        refine ⟨fun v hv => List.mem_append_left _ (hsubset v hv), hdistinct, fun v hv => ?_⟩
        rcases List.mem_append.mp hv with hold | hnew
        · exact hall v hold
        · rw [List.mem_singleton.mp hnew]
          exact ⟨known, hmem, of_decide_eq_true hsame⟩
      · next hnone =>
        refine ⟨fun v hv => ?_, ?_, fun v hv => ?_⟩
        · rcases List.mem_append.mp hv with hold | hnew
          · exact List.mem_append_left _ (hsubset v hold)
          · exact List.mem_append_right _ hnew
        · rw [DistinctCaseInsensitive, List.map_append, List.map_singleton, List.nodup_append]
          refine ⟨hdistinct, List.nodup_singleton _, fun key hkey key' hkey' heq => hnone ?_⟩
          obtain ⟨known, hmem, rfl⟩ := List.mem_map.mp hkey
          rw [List.mem_singleton] at hkey'
          exact List.any_eq_true.mpr ⟨known, hmem, decide_eq_true (heq.trans hkey')⟩
        · rcases List.mem_append.mp hv with hold | hnew
          · obtain ⟨known, hmem, hsame⟩ := hall v hold
            exact ⟨known, List.mem_append_left _ hmem, hsame⟩
          · exact ⟨v, List.mem_append_right _ hnew, rfl⟩

section

variable (parsed : Json) (value : Option Json)

theorem cleanRoots_sub :
    ∀ root ∈ cleanRoots u value, root ∈ rootsIn value :=
  fun root hroot => (uniqueCaseInsensitive_spec u (rootsIn value)).1 root (List.mem_of_mem_take hroot)

theorem rootsIn_clean : ∀ root ∈ rootsIn value, CleanRoot root := by
  intro root hroot
  obtain ⟨raw, -, hraw⟩ := List.mem_filterMap.mp hroot
  exact cleanRoot_clean raw root hraw

theorem cleanRoots_clean : ∀ root ∈ cleanRoots u value, CleanRoot root :=
  fun root hroot => rootsIn_clean value root (cleanRoots_sub u value root hroot)

/-- What a profile is like that was parsed. -/
structure Cleaned (profile : ObsidianMindRuntimeProfile) : Prop where
  roots : ∀ root ∈ profile.contentRoots, CleanRoot root
  memory : CleanRoot profile.memoryRoot
  filled : profile.contentRoots ≠ []
  few : profile.contentRoots.length ≤ maxContentRoots
  names : ∀ name ∈ profile.neverExposeFileNames, cleanNeverExpose name = true
  fewNames : profile.neverExposeFileNames.length ≤ maxNeverExposeFiles
  version : isVersion profile.version.toList = true

theorem fallbackRoots_clean : ∀ root ∈ fallbackRoots, CleanRoot root := by
  intro root hroot
  simp only [fallbackRoots, List.mem_cons, List.not_mem_nil, or_false] at hroot
  rcases hroot with rfl | rfl
  · constructor <;> decide
  · constructor <;> decide

theorem cleanMemoryRoot_clean : CleanRoot (cleanMemoryRoot u value) := by
  unfold cleanMemoryRoot
  cases hroots : cleanRoots u (some (.arr value.toList)) with
  | nil => constructor <;> decide
  | cons root roots =>
      exact cleanRoots_clean u _ root (by rw [hroots]; exact List.mem_cons_self)

theorem exposedRoots_spec :
    (∀ root ∈ exposedRoots u parsed, CleanRoot root) ∧
      (exposedRoots u parsed).length ≤ maxContentRoots := by
  have hcut : ∀ value, (cleanRoots u value).length ≤ maxContentRoots := by
    intro value
    rw [cleanRoots, List.length_take]
    exact Nat.min_le_left _ _
  unfold exposedRoots
  dsimp only
  split
  · exact ⟨cleanRoots_clean u _, hcut _⟩
  · split
    · exact ⟨cleanRoots_clean u _, hcut _⟩
    · exact ⟨fallbackRoots_clean, by decide⟩

/-- What a manifest gives is a version, and the rest as it was cleaned. -/
theorem parseManifest_eq (profile : ObsidianMindRuntimeProfile)
    (h : parseManifest u parsed = some profile) :
    isVersion profile.version.toList = true ∧ profile.contentRoots ≠ [] ∧
      profile.memoryRoot = cleanMemoryRoot u (parsed.member "memory_root") ∧
      profile.contentRoots = withoutMemoryRoot u (exposedRoots u parsed) profile.memoryRoot ∧
      profile.neverExposeFileNames =
        cleanNeverExposeFileNames u (parsed.member "mcp_never_expose") := by
  unfold parseManifest at h
  cases hversion : manifestVersion parsed with
  | none =>
      rw [hversion] at h
      cases h
  | some version =>
      rw [hversion] at h
      dsimp only at h
      split at h
      · cases h
      next hsome =>
      rw [← Option.some.inj h]
      refine ⟨?_, hsome, rfl, rfl, rfl⟩
      unfold manifestVersion at hversion
      split at hversion
      · split at hversion
        · next hproper =>
          rw [Bool.and_eq_true] at hproper
          rw [← Option.some.inj hversion]
          exact hproper.2
        · cases hversion
      · cases hversion

theorem parse_cleaned (profile : ObsidianMindRuntimeProfile)
    (h : parseManifest u parsed = some profile) : Cleaned profile := by
  obtain ⟨hversion, hsome, hmemory, hroots, hnames⟩ := parseManifest_eq u parsed profile h
  obtain ⟨hclean, hfew⟩ := exposedRoots_spec u parsed
  constructor
  · intro root hroot
    rw [hroots] at hroot
    exact hclean root (List.mem_of_mem_filter hroot)
  · rw [hmemory]
    exact cleanMemoryRoot_clean u _
  · exact hsome
  · rw [hroots]
    exact (List.length_filter_le _ _).trans hfew
  · intro name hname
    rw [hnames] at hname
    have hmem := (uniqueCaseInsensitive_spec u _).1 name (List.mem_of_mem_take hname)
    exact (List.mem_filter.mp hmem).2
  · rw [hnames, cleanNeverExposeFileNames, List.length_take]
    exact Nat.min_le_left _ _
  · exact hversion

end

end Plugin

/-! ## What is left to the schema -/

theorem trimmed_sublist (chars : List Char) : (trimmed chars).Sublist chars := by
  have hfront : (chars.dropWhile isWhitespace).Sublist chars := List.dropWhile_sublist _
  have hend : (trimmed chars).Sublist (chars.dropWhile isWhitespace) :=
    (List.rdropWhile_prefix isWhitespace _).sublist
  exact hend.trans hfront

theorem unitLength_sublist (chars chars' : List Char) (h : chars.Sublist chars') :
    unitLength chars ≤ unitLength chars' := by
  induction h with
  | slnil => exact Nat.le_refl _
  | cons c h ih =>
      simp only [unitLength, List.flatMap_cons, List.length_append] at ih ⊢
      omega
  | cons_cons c h ih =>
      simp only [unitLength, List.flatMap_cons, List.length_append] at ih ⊢
      omega

theorem trimmed_eq_self (chars : List Char) (h : ∀ c ∈ chars, isWhitespace c = false) :
    trimmed chars = chars := by
  have hfront : chars.dropWhile isWhitespace = chars := by
    cases chars with
    | nil => rfl
    | cons c chars => exact List.dropWhile_cons_of_neg (by simp [h c List.mem_cons_self])
  rw [trimmed, hfront, List.rdropWhile_eq_self_iff]
  intro hne
  rw [h _ (List.getLast_mem hne)]
  exact Bool.false_ne_true

theorem dropDigits_spec (chars rest : List Char) (h : dropDigits chars = some rest) :
    ∀ c ∈ chars, c.isDigit = true ∨ c ∈ rest := by
  unfold dropDigits at h
  split at h
  · rw [← Option.some.inj h]
    intro c hc
    rw [← List.takeWhile_append_dropWhile (p := Char.isDigit) (l := chars)] at hc
    rcases List.mem_append.mp hc with hdigit | hrest
    · exact Or.inl (List.mem_takeWhile_imp hdigit)
    · exact Or.inr hrest
  · cases h

theorem dropDot_spec (chars rest : List Char) (h : dropDot chars = some rest) :
    chars = '.' :: rest := by
  unfold dropDot at h
  split at h
  · rw [← Option.some.inj h]
  · cases h

/-- A version is letters and digits of ASCII, dots and hyphens. -/
theorem isVersion_chars (chars : List Char) (h : isVersion chars = true) :
    ∀ c ∈ chars, c.isAlphanum = true ∨ c = '.' ∨ c = '-' := by
  have hdigit : ∀ c : Char, c.isDigit = true → c.isAlphanum = true := by
    intro c hc
    simp [Char.isAlphanum, hc]
  have hnumbers : ∀ rest, dropNumbers chars = some rest →
      ∀ c ∈ chars, c.isAlphanum = true ∨ c = '.' ∨ c ∈ rest := by
    intro rest hrest c hc
    simp only [dropNumbers, Option.bind_eq_bind, Option.bind_eq_some_iff] at hrest
    obtain ⟨minor, ⟨afterMajor, hmajor, hdot⟩, patch, ⟨afterMinor, hminor, hdot'⟩, hpatch⟩ := hrest
    have hfirst := dropDot_spec _ _ hdot
    have hsecond := dropDot_spec _ _ hdot'
    rcases dropDigits_spec chars afterMajor hmajor c hc with hd | hc
    · exact Or.inl (hdigit c hd)
    rw [hfirst] at hc
    rcases List.mem_cons.mp hc with hc | hc
    · exact Or.inr (Or.inl hc)
    rcases dropDigits_spec minor afterMinor hminor c hc with hd | hc
    · exact Or.inl (hdigit c hd)
    rw [hsecond] at hc
    rcases List.mem_cons.mp hc with hc | hc
    · exact Or.inr (Or.inl hc)
    rcases dropDigits_spec patch rest hpatch c hc with hd | hc
    · exact Or.inl (hdigit c hd)
    · exact Or.inr (Or.inr hc)
  unfold isVersion at h
  split at h
  · next hrest =>
    intro c hc
    rcases hnumbers [] hrest c hc with halnum | hdot | hnil
    · exact Or.inl halnum
    · exact Or.inr (Or.inl hdot)
    · cases hnil
  · next rest hrest =>
    rw [Bool.and_eq_true, List.all_eq_true] at h
    intro c hc
    rcases hnumbers _ hrest c hc with halnum | hdot | hc
    · exact Or.inl halnum
    · exact Or.inr (Or.inl hdot)
    · rcases List.mem_cons.mp hc with hhyphen | hc
      · exact Or.inr (Or.inr hhyphen)
      · have hallowed := h.2 c hc
        simp only [Bool.or_eq_true, decide_eq_true_eq] at hallowed
        rcases hallowed with (halnum | hdot) | hhyphen
        · exact Or.inl halnum
        · exact Or.inr (Or.inl hdot)
        · exact Or.inr (Or.inr hhyphen)
  · cases h

theorem isVersion_trimmed (chars : List Char) (h : isVersion chars = true) :
    trimmed chars = chars := by
  apply trimmed_eq_self
  intro c hc
  rcases isVersion_chars chars h c hc with halnum | rfl | rfl
  · have hcode : (65 ≤ c.toNat ∧ c.toNat ≤ 90 ∨ 97 ≤ c.toNat ∧ c.toNat ≤ 122) ∨
        48 ≤ c.toNat ∧ c.toNat ≤ 57 := by
      simpa [Char.isAlphanum, Char.isAlpha, Char.isUpper, Char.isLower, Char.isDigit,
        UInt32.le_iff_toNat_le] using halnum
    simp only [isWhitespace, List.mem_cons, List.not_mem_nil, or_false, Bool.or_eq_false_iff,
      decide_eq_false_iff_not, Bool.and_eq_false_iff]
    omega
  · decide
  · decide

/-- What of a folder is left to the schema. -/
structure FitsRoot (root : String) : Prop where
  filled : trimmed root.toList ≠ []
  short : unitLength (trimmed root.toList) ≤ 1024
  relative : (trimmed root.toList).head? ≠ some '/'
  parts : ∀ part ∈ (trimSeparators (trimmed root.toList)).splitOn '/', dotted part = false

theorem vaultRuntimeProfilePathSchema_fits (root : String) (hclean : CleanRoot root)
    (h : FitsRoot root) : vaultRuntimeProfilePathSchema root = some (keptRoot root) := by
  have hsub := (trimmed_sublist root.toList).subset
  have hplain : '\\' ∉ trimmed root.toList := fun hc => hclean.plain (hsub hc)
  have hhead : (trimmed root.toList).head? ≠ some '\\' :=
    fun hc => hplain (List.mem_of_mem_head? hc)
  have hdynamic : '*' ∉ trimmed root.toList := fun hc => hclean.dynamic (hsub hc)
  have hprintable : hasControlCharacters (trimmed root.toList) = false := by
    have hall := hclean.printable
    rw [hasControlCharacters, List.any_eq_false] at hall ⊢
    exact fun c hc => hall c (hsub hc)
  have hparts : ((trimSeparators (trimmed root.toList)).splitOn '/').any dotted = false := by
    rw [List.any_eq_false]
    intro part hpart
    rw [h.parts part hpart]
    exact Bool.false_ne_true
  have hshort := h.short
  rw [vaultRuntimeProfilePathSchema]
  simp [h.filled, h.relative, hhead, hplain, hdynamic, hprintable, hparts, keptRoot, Nat.not_lt.mpr hshort]

theorem fits_of_vaultRuntimeProfilePathSchema (root kept : String)
    (h : vaultRuntimeProfilePathSchema root = some kept) :
    FitsRoot root ∧ kept = keptRoot root := by
  unfold vaultRuntimeProfilePathSchema at h
  dsimp only at h
  split at h
  · cases h
  next hlength =>
  split at h
  · cases h
  split at h
  · cases h
  next hhead =>
  split at h
  · cases h
  split at h
  · cases h
  next hparts =>
  split at h
  · cases h
  simp only [Bool.or_eq_true, decide_eq_true_eq, not_or, Nat.not_lt] at hlength hhead
  rw [Bool.not_eq_true, List.any_eq_false] at hparts
  refine ⟨⟨hlength.1, hlength.2, hhead.1, fun part hpart => ?_⟩, (Option.some.inj h).symm⟩
  exact Bool.eq_false_iff.mpr (hparts part hpart)

/-- A name as the server keeps it. -/
def keptName (value : String) : String :=
  String.ofList (trimmed value.toList)

theorem vaultRuntimeProfileFilenameSchema_fits (name : String)
    (hclean : cleanNeverExpose name = true) (h : trimmed name.toList ≠ []) :
    ∃ plain, vaultRuntimeProfileFilenameSchema name = some plain := by
  have hsub := trimmed_sublist name.toList
  simp only [cleanNeverExpose, Bool.and_eq_true, decide_eq_true_eq, Bool.not_eq_true'] at hclean
  obtain ⟨⟨⟨⟨-, hshort⟩, hslash⟩, hbackslash⟩, hcontrol⟩ := hclean
  have hlength := unitLength_sublist _ _ hsub
  have hprintable : hasControlCharacters (trimmed name.toList) = false := by
    rw [hasControlCharacters, List.any_eq_false] at hcontrol ⊢
    exact fun c hc => hcontrol c (hsub.subset hc)
  have hplain : ¬ ('/' ∈ trimmed name.toList ∨ '\\' ∈ trimmed name.toList) := by
    rintro (hc | hc)
    · exact hslash (hsub.subset hc)
    · exact hbackslash (hsub.subset hc)
  have hfits : (decide (trimmed name.toList = []) ||
      decide (255 < unitLength (trimmed name.toList))) = false := by
    simp only [Bool.or_eq_false_iff, decide_eq_false_iff_not, Nat.not_lt]
    exact ⟨h, hlength.trans hshort⟩
  rw [vaultRuntimeProfileFilenameSchema]
  simp only [hfits, hprintable, Bool.false_eq_true, if_false, dif_neg hplain]
  exact ⟨_, rfl⟩

theorem fits_of_vaultRuntimeProfileFilenameSchema (name : String) (plain : PlainName)
    (h : vaultRuntimeProfileFilenameSchema name = some plain) :
    trimmed name.toList ≠ [] ∧ plain.val = keptName name := by
  unfold vaultRuntimeProfileFilenameSchema at h
  dsimp only at h
  split at h
  · cases h
  next hlength =>
  split at h
  · cases h
  split at h
  · cases h
  simp only [Bool.or_eq_true, decide_eq_true_eq, not_or] at hlength
  rw [← Option.some.inj h]
  exact ⟨hlength.1, rfl⟩

/-- What a list is turned into, if all of it can be. -/
theorem mapM_ok {α β γ : Type} (f : α → Option β) (k : β → γ) (g : α → γ) (P : α → Prop)
    (hf : ∀ a b, f a = some b → P a ∧ k b = g a) (values : List α) (results : List β)
    (h : values.mapM f = some results) :
    (∀ a ∈ values, P a) ∧ results.map k = values.map g := by
  induction values generalizing results with
  | nil =>
      rw [List.mapM_nil] at h
      cases h
      simp
  | cons a values ih =>
      simp only [List.mapM_cons, Option.bind_eq_bind, Option.bind_eq_some_iff] at h
      obtain ⟨b, hb, rest, hrest, hresults⟩ := h
      cases hresults
      obtain ⟨hall, hmap⟩ := ih rest hrest
      obtain ⟨hP, hk⟩ := hf a b hb
      rw [List.forall_mem_cons, List.map_cons, List.map_cons, hk, hmap]
      exact ⟨⟨hP, hall⟩, rfl⟩

theorem mapM_exists {α β : Type} (f : α → Option β) (values : List α)
    (h : ∀ a ∈ values, ∃ b, f a = some b) : ∃ results, values.mapM f = some results := by
  induction values with
  | nil => exact ⟨[], rfl⟩
  | cons a values ih =>
      rw [List.forall_mem_cons] at h
      obtain ⟨⟨b, hb⟩, hrest⟩ := h
      obtain ⟨results, hresults⟩ := ih hrest
      refine ⟨b :: results, ?_⟩
      rw [List.mapM_cons, hb, hresults]
      rfl

section Schema

variable (u : UnicodeTables)

/-- What of a profile is left to the schema. -/
structure Fits (profile : ObsidianMindRuntimeProfile) : Prop where
  roots : ∀ root ∈ profile.contentRoots, FitsRoot root
  memory : FitsRoot profile.memoryRoot
  names : ∀ name ∈ profile.neverExposeFileNames, trimmed name.toList ≠ []
  distinctRoots : DistinctCaseInsensitive u (profile.contentRoots.map keptRoot)
  distinctNames : DistinctCaseInsensitive u (profile.neverExposeFileNames.map keptName)
  version : unitLength profile.version.toList ≤ 64
  apart : ∀ root ∈ profile.contentRoots,
    inMemoryRoot u (keptRoot profile.memoryRoot) (keptRoot root) = false

/-- What the server takes in is kept as its rules have it, and has fitted. -/
theorem schema_ok (profile : ObsidianMindRuntimeProfile) (accepted : AcceptedProfile)
    (hcleaned : Cleaned profile) (h : obsidianMindRuntimeProfileSchema u profile = some accepted) :
    Fits u profile ∧ accepted.runtime.contentRoots = profile.contentRoots.map keptRoot ∧
      accepted.memoryRoot = keptRoot profile.memoryRoot ∧
      accepted.runtime.neverExposeFileNames = profile.neverExposeFileNames.map keptName := by
  unfold obsidianMindRuntimeProfileSchema at h
  split at h
  case h_2 => cases h
  next contentRoots memoryRoot names hroots hmemory hnames =>
  dsimp only at h
  split at h
  · cases h
  next hdistinctRoots =>
  split at h
  · cases h
  next hdistinctNames =>
  split at h
  · cases h
  next hversion =>
  split at h
  · cases h
  next hapart =>
  cases h
  obtain ⟨hfits, hkept⟩ := mapM_ok _ id keptRoot FitsRoot
    (fun root kept hroot => fits_of_vaultRuntimeProfilePathSchema root kept hroot) _ _ hroots
  obtain ⟨hfilled, hkeptNames⟩ := mapM_ok _ Subtype.val keptName (fun name => trimmed name.toList ≠ [])
    (fun name plain hname => fits_of_vaultRuntimeProfileFilenameSchema name plain hname) _ _ hnames
  obtain ⟨hfitsMemory, rfl⟩ := fits_of_vaultRuntimeProfilePathSchema _ _ hmemory
  rw [List.map_id] at hkept
  simp only [not_or, not_not, Nat.not_lt] at hdistinctRoots hdistinctNames hversion
  rw [hkept] at hdistinctRoots hapart
  rw [hkeptNames] at hdistinctNames
  refine ⟨?_, hkept, rfl, hkeptNames⟩
  constructor
  · exact hfits
  · exact hfitsMemory
  · exact hfilled
  · exact hdistinctRoots.2.2
  · exact hdistinctNames.2
  · rw [← isVersion_trimmed _ hcleaned.version]
    exact hversion.2.1
  · rw [Bool.not_eq_true, List.any_eq_false] at hapart
    intro root hroot
    exact Bool.eq_false_iff.mpr (hapart _ (List.mem_map_of_mem hroot))

/-- What fits the server takes in. -/
theorem schema_of_fits (profile : ObsidianMindRuntimeProfile) (hcleaned : Cleaned profile)
    (h : Fits u profile) :
    ∃ accepted, obsidianMindRuntimeProfileSchema u profile = some accepted := by
  obtain ⟨contentRoots, hroots⟩ := mapM_exists vaultRuntimeProfilePathSchema profile.contentRoots
    (fun root hroot => ⟨_, vaultRuntimeProfilePathSchema_fits root (hcleaned.roots root hroot)
      (h.roots root hroot)⟩)
  have hmemory := vaultRuntimeProfilePathSchema_fits _ hcleaned.memory h.memory
  obtain ⟨names, hnames⟩ := mapM_exists vaultRuntimeProfileFilenameSchema
    profile.neverExposeFileNames
    (fun name hname => vaultRuntimeProfileFilenameSchema_fits name (hcleaned.names name hname)
      (h.names name hname))
  obtain ⟨-, hkept⟩ := mapM_ok _ id keptRoot FitsRoot
    (fun root kept hroot => fits_of_vaultRuntimeProfilePathSchema root kept hroot) _ _ hroots
  obtain ⟨-, hkeptNames⟩ := mapM_ok _ Subtype.val keptName (fun name => trimmed name.toList ≠ [])
    (fun name plain hname => fits_of_vaultRuntimeProfileFilenameSchema name plain hname) _ _ hnames
  rw [List.map_id] at hkept
  have hlength : contentRoots.length = profile.contentRoots.length := by
    rw [hkept, List.length_map]
  have hlengthNames : names.length = profile.neverExposeFileNames.length := by
    have := congrArg List.length hkeptNames
    rwa [List.length_map, List.length_map] at this
  -- None of the four checks that are left refuses it.
  have hrootsPass : ¬ (contentRoots = [] ∨ 32 < contentRoots.length ∨
      ¬ DistinctCaseInsensitive u contentRoots) := by
    have hfew : profile.contentRoots.length ≤ 32 := hcleaned.few
    have hdistinct := h.distinctRoots
    rw [← hkept] at hdistinct
    rintro (hnil | hlong | hsame)
    · rw [hnil, List.length_nil] at hlength
      exact hcleaned.filled (List.length_eq_zero_iff.mp hlength.symm)
    · omega
    · exact hsame hdistinct
  have hnamesPass : ¬ (64 < names.length ∨
      ¬ DistinctCaseInsensitive u (names.map Subtype.val)) := by
    have hfew : profile.neverExposeFileNames.length ≤ 64 := hcleaned.fewNames
    rw [hkeptNames]
    rintro (hlong | hsame)
    · omega
    · exact hsame h.distinctNames
  have hversionPass : ¬ (trimmed profile.version.toList = [] ∨
      64 < unitLength (trimmed profile.version.toList) ∨
      isVersion (trimmed profile.version.toList) = false) := by
    rw [isVersion_trimmed _ hcleaned.version, hcleaned.version]
    have hshort := h.version
    rintro (hnil | hlong | hversion)
    · have hversion := hcleaned.version
      rw [hnil] at hversion
      exact absurd hversion (by decide)
    · omega
    · cases hversion
  have hapartPass : ¬ contentRoots.any (inMemoryRoot u (keptRoot profile.memoryRoot)) = true := by
    rw [Bool.not_eq_true, List.any_eq_false, hkept]
    intro kept hmem
    obtain ⟨root, hroot, rfl⟩ := List.mem_map.mp hmem
    rw [h.apart root hroot]
    exact Bool.false_ne_true
  rw [obsidianMindRuntimeProfileSchema, hroots, hmemory, hnames]
  dsimp only
  rw [if_neg hrootsPass, if_neg hnamesPass, if_neg hversionPass, if_neg hapartPass]
  exact ⟨_, rfl⟩

end Schema

end Mdevolved.Agent
