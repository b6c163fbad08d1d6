import Mdevolved.Agent.Visibility

/-!
# What a Search of Memory Cites

A search for a question looks through the memory of a project and then through the notes of
the vault that the agent was given, as far as the project is about them. The folders of the
project and those of the grant are brought together into texts that the key of a note has to
begin with. A folder of a grant loses its last separator on the way, and one of a project has
none, so that the texts are not folders any more: the key of a note beside a folder may begin
with the same text. What the project excludes is tested again afterwards. What it includes,
and what the grant is for, is not.

So a search cites what it may cite as long as no such note is among those it comes to. What
it may cite it always finds, unless it says that there may be more.

How well a note matches a question is left to the full-text index: the notes that match are
given in the order of their rank.

## Main definitions

* `KnowledgeSpaceMember`: What a project is about in one vault.
* `intersectSearchPrefixes`: The texts that keys have to begin with.
* `searchScopedMaterializedNotes`: The query.
* `findAgentMemory`: The search.
* `Admitted`: A note that may be cited.

## Theorems

* `search_covers`: Keys in common folders begin with one of the texts.
* `searchFilter_eq`: What the query looks at.
* `mem_found`, `found_cases`: What is found in a list that is filtered and cut off.
* `find_meets_iff`: A search cites what it may cite exactly if it comes to no stray note.
* `sibling_cited`: A note beside a folder is cited.
-/

namespace Mdevolved.Agent

open Vault (UnicodeTables ValidatedVaultPath validateMarkdownVaultPath)

/-! ## Folders of a project -/

/-- A segment of a path that may be stored. -/
def safeSegment (u : UnicodeTables) (index : Nat) (segment : List Char) : Bool :=
  segment ≠ [] && segment ≠ ['.'] && segment ≠ ['.', '.'] && segment.getLast? ≠ some '.' &&
    segment.getLast? ≠ some ' ' &&
    !(index = 0 && u.toLowerCase (String.ofList segment) = ".obsidian")

def safeRelativePath (u : UnicodeTables) (value : String) (allowRoot : Bool) : Bool :=
  let chars := value.toList
  if allowRoot && value = "" then true
  else
    value ≠ "" && value = u.nfc value && !chars.any u.isControlOrFormat &&
      chars.head? ≠ some '/' && chars.getLast? ≠ some '/' && !chars.contains '\\' &&
      !(['/', '/'] <:+: chars) && !Vault.driveRoot chars &&
      (chars.splitOn '/').zipIdx.all (fun entry => safeSegment u entry.2 entry.1)

/-- A folder, with its key. -/
structure CollaborationPathPrefix (u : UnicodeTables) where
  path : String
  pathKey : String
  safe : safeRelativePath u path true = true
  keyed : pathKey = normalized u path

def contextPathIncludes (pathKey prefixPathKey : String) : Bool :=
  prefixPathKey = "" || pathKey = prefixPathKey || startsWith pathKey (prefixPathKey ++ "/")

/-- What a project is about in one vault. -/
structure KnowledgeSpaceMember (u : UnicodeTables) where
  exclusions : List (CollaborationPathPrefix u)
  pathPrefixes : List (CollaborationPathPrefix u)
  nonempty : pathPrefixes ≠ []
  distinct : (pathPrefixes.map (·.pathKey)).Nodup ∧ (exclusions.map (·.pathKey)).Nodup
  covered : ∀ exclusion ∈ exclusions, ∃ folder ∈ pathPrefixes,
    contextPathIncludes exclusion.pathKey folder.pathKey = true

namespace KnowledgeSpaceMember

variable {u : UnicodeTables} (member : KnowledgeSpaceMember u)

def includedKeys : List String := member.pathPrefixes.map (·.pathKey)

def excludedKeys : List String := member.exclusions.map (·.pathKey)

/-- A path is an include prefix or lies inside such a folder. -/
def includes (pathKey : String) : Bool :=
  member.includedKeys.any (contextPathIncludes pathKey)

/-- A path is under an exclusion. -/
def excludes (pathKey : String) : Bool :=
  member.excludedKeys.any (contextPathIncludes pathKey)

end KnowledgeSpaceMember

/-! ## The search -/

/-- `value.replace(/\/+$/u, "")` -/
def stripped (value : String) : String :=
  String.ofList (trimSeparators value.toList)

def pathExcluded (pathKey : String) (exclusions : List String) : Bool :=
  exclusions.any (fun excluded => contextPathIncludes pathKey (stripped excluded))

/-- What two folders have in common, if one of them is in the other. -/
def commonPrefix (project visibility : String) : List String :=
  if project = "" || startsWith visibility (project ++ "/") then [visibility]
  else if visibility = "" || project = visibility || startsWith project (visibility ++ "/") then
    [project]
  else []

def intersectSearchPrefixes (projectPrefixes visibilityPrefixes : List String) :
    Option (List String) :=
  if visibilityPrefixes = [] then some projectPrefixes
  else
    let intersections := projectPrefixes.flatMap (fun project =>
      visibilityPrefixes.flatMap (fun visibility =>
        commonPrefix (stripped project) (stripped visibility)))
    if intersections = [] then none else some intersections.dedup

/-- A note of a generation, as a search reads it. -/
structure LibraryNote (u : UnicodeTables) where
  path : String
  key : ValidatedVaultPath
  valid : validateMarkdownVaultPath u path = .ok key
  title : String
  contentSha256 : String
  snippet : String
  agentPrivate : Bool

/-- A note that came from another vault. -/
structure RestoredLineage where
  restoreId : String
  pathKey : String
  applied : Bool

/-- What was restored at a path, and the grant has no approval for. -/
def unapprovedRestored (lineage : List RestoredLineage) (approvals : List String)
    (pathKey : String) : Bool :=
  lineage.any (fun row =>
    row.applied && row.pathKey = pathKey && !approvals.contains row.restoreId)

/-- A citation, which is of a note or of something else that a project remembers. -/
inductive FindCitation
  | memory (citationId contentSha256 label : String)
  | materializedNote (citationId contentSha256 generationId path : String)
  deriving DecidableEq

/-- What was published of a vault, and which of its notes match the question, in the order
    of their rank. -/
structure Generation (u : UnicodeTables) where
  generationId : String
  ranked : List (LibraryNote u)

structure FindCoverage where
  ceiling : Nat
  returned : Nat
  searchedExactCurrentLibrary : Bool
  truncated : Bool

structure FindResponse where
  citations : List FindCitation
  coverage : FindCoverage

/-- What was found in the memory of the project. -/
structure MemorySearch where
  citations : List FindCitation
  truncated : Bool
  remembered : ∀ c ∈ citations, ∃ citationId contentSha256 label,
    c = .memory citationId contentSha256 label

/-- What was found in the library. -/
structure LibrarySearch (u : UnicodeTables) where
  searched : Bool
  notes : List (LibraryNote u)
  truncated : Bool

def findLibraryCandidateCeiling : Nat := 50

/-- What a grant lets a search see: the folders and the profile, and which restored notes
    the owner has approved. -/
structure SearchGrant where
  visibility : VisibilityGrant
  approvals : List String

section Search

variable {u : UnicodeTables} (lineage : List RestoredLineage) (grant : SearchGrant)

/-- The filter of the query. -/
def searchFilter (pathKeyPrefixes : List String) (note : LibraryNote u) : Bool :=
  scopedFilter
      { agentVisibilityForGrant u grant.visibility with pathKeyPrefixes := pathKeyPrefixes }
      (noteAt note.key note.agentPrivate) &&
    !unapprovedRestored lineage grant.approvals note.key.pathKey

def searchScopedMaterializedNotes (pathKeyPrefixes : List String) (limit : Nat)
    (ranked : List (LibraryNote u)) : List (LibraryNote u) :=
  (ranked.filter (searchFilter lineage grant pathKeyPrefixes)).take limit

variable (member : KnowledgeSpaceMember u)

def searchPrefixes : Option (List String) :=
  let visibility := agentVisibilityForGrant u grant.visibility
  if visibility.denyAll then none
  else intersectSearchPrefixes member.includedKeys visibility.pathKeyPrefixes

def snippetCut (note : LibraryNote u) : Bool :=
  decide (2048 < (Utf16.units note.snippet).length)

/-- The part of a search that looks through a library. -/
def searchLibrary (generation : Option (Generation u)) : LibrarySearch u :=
  match generation, searchPrefixes grant member with
  | some generation, some prefixes =>
      let raw := searchScopedMaterializedNotes lineage grant prefixes findLibraryCandidateCeiling
        generation.ranked
      let allowed := raw.filter (fun note => !pathExcluded note.key.pathKey member.excludedKeys)
      { searched := true
        notes := allowed
        truncated := decide (raw.length = findLibraryCandidateCeiling) || allowed.any snippetCut }
  | _, _ => { searched := false, notes := [], truncated := false }

/-- `stableUuidFromSha256(await sha256Hex(text))` is `uuid text`. -/
def noteCitation (uuid : String → String) (generationId : String) (note : LibraryNote u) :
    FindCitation :=
  .materializedNote
    (uuid ("materialized-note:" ++ generationId ++ ":" ++ note.path ++ ":" ++ note.contentSha256))
    note.contentSha256 generationId note.path

/-- The search. Whether the text of the answer had to be cut is told by `cut`. -/
def findAgentMemory (uuid : String → String) (cut : List FindCitation → Bool) (limit : Nat)
    (memory : MemorySearch) (generation : Option (Generation u)) : FindResponse :=
  let library := searchLibrary lineage grant member generation
  let generationId := (generation.map (·.generationId)).getD ""
  let candidates := memory.citations ++ library.notes.map (noteCitation uuid generationId)
  let selected := candidates.take limit
  { citations := selected
    coverage := {
      ceiling := limit
      returned := selected.length
      searchedExactCurrentLibrary := library.searched
      truncated := memory.truncated || library.truncated || decide (limit < candidates.length) ||
        cut selected } }

end Search

/-! ## Texts and folders -/

/-- A text that ends with a separator begins with what is left of it and a separator. -/
theorem trimSeparators_prefix (chars : List Char) (h : chars.getLast? = some '/') :
    trimSeparators chars ++ ['/'] <+: chars := by
  have hsplit := List.takeWhile_append_dropWhile (p := (· = '/')) (l := chars.reverse)
  have hall : ∀ c ∈ chars.reverse.takeWhile (· = '/'), c = '/' := by
    intro c hc
    simpa using List.mem_takeWhile_imp hc
  have hchars : chars = trimSeparators chars ++ (chars.reverse.takeWhile (· = '/')).reverse := by
    rw [trimSeparators, ← List.reverse_append, hsplit, List.reverse_reverse]
  cases htaken : (chars.reverse.takeWhile (· = '/')).reverse with
  | nil =>
      -- The last character is a separator, so that one was taken off.
      exfalso
      have hlast : chars.reverse.head? = some '/' := by rw [List.head?_reverse, h]
      cases hreverse : chars.reverse with
      | nil => rw [hreverse] at hlast; cases hlast
      | cons c rest =>
          rw [hreverse, List.head?_cons, Option.some.injEq] at hlast
          rw [hreverse, hlast] at htaken
          simp at htaken
  | cons c rest =>
      have hc : c = '/' := hall c (by
        rw [← List.mem_reverse, htaken]
        exact List.mem_cons_self)
      rw [htaken, hc] at hchars
      exact ⟨rest, by rw [List.append_assoc, List.singleton_append, ← hchars]⟩

theorem startsWith_iff (value start : String) :
    startsWith value start = true ↔ start.toList <+: value.toList := by
  rw [startsWith, List.isPrefixOf_iff_prefix]

/-- Of two folders that a key is in, one is in the other. -/
theorem commonPrefix_covers (key project visibility : String)
    (hproject : contextPathIncludes key project = true)
    (hvisibility : startsWith key (visibility ++ "/") = true) :
    ∃ s ∈ commonPrefix project visibility, startsWith key s = true := by
  have hslash : "/".toList = ['/'] := rfl
  simp only [contextPathIncludes, Bool.or_eq_true, decide_eq_true_eq, startsWith_iff,
    String.toList_append, hslash] at hproject
  rw [startsWith_iff, String.toList_append, hslash] at hvisibility
  have hinside : startsWith key visibility = true := by
    rw [startsWith_iff]
    exact (List.prefix_append _ _).trans hvisibility
  have hwithin : startsWith key project = true := by
    rw [startsWith_iff]
    rcases hproject with (hroot | hsame) | hunder
    · rw [hroot]
      exact List.nil_prefix
    · rw [hsame]
    · exact (List.prefix_append _ _).trans hunder
  unfold commonPrefix
  by_cases hfirst : (project = "" || startsWith visibility (project ++ "/")) = true
  · rw [if_pos hfirst]
    exact ⟨visibility, List.mem_singleton_self _, hinside⟩
  · rw [if_neg hfirst]
    have hsecond : (visibility = "" || project = visibility ||
        startsWith project (visibility ++ "/")) = true := by
      simp only [Bool.or_eq_true, decide_eq_true_eq, startsWith_iff, String.toList_append, hslash,
        not_or] at hfirst ⊢
      rcases hproject with (hroot | hsame) | hunder
      · exact absurd hroot hfirst.1
      · rw [hsame] at hvisibility
        exact Or.inr hvisibility
      · -- Both folders are in front of the same key.
        rcases List.prefix_or_prefix_of_prefix hunder hvisibility with hle | hle
        · rcases List.prefix_concat_iff.mp hle with heq | hle
          · exact Or.inl (Or.inr (String.toList_inj.mp (List.append_cancel_right heq)))
          · exact absurd hle hfirst.2
        · rcases List.prefix_concat_iff.mp hle with heq | hle
          · exact Or.inl (Or.inr (String.toList_inj.mp (List.append_cancel_right heq.symm)))
          · exact Or.inr hle
    rw [if_pos hsecond]
    exact ⟨project, List.mem_singleton_self _, hwithin⟩

section Keys

variable {u : UnicodeTables} (hu : Lawful u)

include hu

/-- The key of a folder of a project has no separator at its end. -/
theorem stripped_pathKey (folder : CollaborationPathPrefix u) :
    stripped folder.pathKey = folder.pathKey := by
  have hlast : folder.pathKey.toList.getLast? ≠ some '/' := by
    rw [folder.keyed, normalized_toList]
    have hsafe := folder.safe
    unfold safeRelativePath at hsafe
    by_cases hroot : folder.path = ""
    · intro hlast
      have hnone : '/' ∉ folder.path.toList := by simp [hroot]
      exact normalizedChars_segment u hu _ hnone (List.mem_of_getLast? hlast)
    · simp only [hroot, decide_false, Bool.and_false, Bool.false_eq_true, if_false,
        Bool.and_eq_true, decide_eq_true_eq] at hsafe
      obtain ⟨⟨⟨⟨⟨⟨⟨⟨-, hnfc⟩, -⟩, -⟩, hend⟩, -⟩, -⟩, -⟩, -⟩ := hsafe
      rw [nfcChars, String.ofList_toList, ← hnfc]
      exact lower_last u hu _ hend
  rw [stripped, trimSeparators_eq_self _ hlast, String.ofList_toList]

theorem pathExcluded_eq (member : KnowledgeSpaceMember u) (pathKey : String) :
    pathExcluded pathKey member.excludedKeys = member.excludes pathKey := by
  unfold pathExcluded KnowledgeSpaceMember.excludes KnowledgeSpaceMember.excludedKeys
  rw [List.any_map, List.any_map]
  refine congrArg (fun f => List.any member.exclusions f) (funext fun folder => ?_)
  simp only [Function.comp_apply, stripped_pathKey hu folder]

/-- Folders that a grant lets an agent see end with a separator. -/
theorem visibility_folders (grant : VisibilityGrant) (values : List String)
    (hgrant : normalizePathPrefixes u values = .ok grant.pathKeyPrefixes) (s : String)
    (hs : s ∈ (agentVisibilityForGrant u grant).pathKeyPrefixes) :
    s.toList.getLast? = some '/' := by
  unfold agentVisibilityForGrant at hs
  cases hprofile : grant.runtimeProfile with
  | none =>
      rw [hprofile] at hs
      rcases mem_normalizePathPrefixes u values _ hgrant s hs with ⟨directory, rfl⟩
      rw [withoutScopeFile_lower u hu, List.getLast?_concat]
  | some profile =>
      rw [hprofile] at hs
      rcases mem_intersectPrefixes u _ _ s hs with ⟨value, rfl⟩
      rw [folderKey, String.toList_ofList, List.getLast?_concat]

variable (grant : SearchGrant) (values : List String)
  (hgrant : normalizePathPrefixes u values = .ok grant.visibility.pathKeyPrefixes)
  (member : KnowledgeSpaceMember u)

include hgrant

/-- A key that a project includes, in a folder of the grant, begins with one of the texts. -/
theorem search_covers (pathKey : String) (hincluded : member.includes pathKey = true)
    (hdeny : (agentVisibilityForGrant u grant.visibility).denyAll = false)
    (hfolder : (agentVisibilityForGrant u grant.visibility).pathKeyPrefixes.isEmpty = true ∨
      (agentVisibilityForGrant u grant.visibility).pathKeyPrefixes.any
        (fun start => startsWith pathKey start) = true) :
    ∃ prefixes, searchPrefixes grant member = some prefixes ∧
      ∃ s ∈ prefixes, startsWith pathKey s = true := by
  obtain ⟨project, hproject, hwithin⟩ := List.any_eq_true.mp hincluded
  unfold searchPrefixes intersectSearchPrefixes
  simp only [hdeny, Bool.false_eq_true, if_false]
  by_cases hnone : (agentVisibilityForGrant u grant.visibility).pathKeyPrefixes = []
  · -- The grant is for the whole vault.
    rw [if_pos hnone]
    refine ⟨_, rfl, project, hproject, ?_⟩
    simp only [contextPathIncludes, Bool.or_eq_true, decide_eq_true_eq, startsWith_iff,
      String.toList_append] at hwithin
    rw [startsWith_iff]
    rcases hwithin with (hroot | hsame) | hunder
    · rw [hroot]
      exact List.nil_prefix
    · rw [hsame]
    · exact (List.prefix_append _ _).trans hunder
  · rw [if_neg hnone]
    have hany := hfolder.resolve_left (fun hempty => hnone (List.isEmpty_iff.mp hempty))
    obtain ⟨visibility, hvisibility, hstarts⟩ := List.any_eq_true.mp hany
    have hinside : startsWith pathKey (stripped visibility ++ "/") = true := by
      have hlast := visibility_folders hu grant.visibility values hgrant visibility hvisibility
      have hslash : "/".toList = ['/'] := rfl
      rw [startsWith_iff] at hstarts ⊢
      rw [String.toList_append, stripped, String.toList_ofList, hslash]
      exact ( trimSeparators_prefix _ hlast).trans hstarts
    have hproject' : contextPathIncludes pathKey (stripped project) = true := by
      obtain ⟨folder, -, rfl⟩ := List.mem_map.mp hproject
      rw [stripped_pathKey hu folder]
      exact hwithin
    obtain ⟨s, hs, hbegins⟩ := commonPrefix_covers pathKey _ _ hproject' hinside
    have hmem : s ∈ member.includedKeys.flatMap (fun project =>
        (agentVisibilityForGrant u grant.visibility).pathKeyPrefixes.flatMap (fun visibility =>
          commonPrefix (stripped project) (stripped visibility))) :=
      List.mem_flatMap.mpr ⟨project, hproject, List.mem_flatMap.mpr ⟨visibility, hvisibility, hs⟩⟩
    rw [if_neg (List.ne_nil_of_mem hmem)]
    exact ⟨_, rfl, s, List.mem_dedup.mpr hmem, hbegins⟩

omit hu hgrant in
theorem mem_commonPrefix (project visibility s : String)
    (h : s ∈ commonPrefix project visibility) : s = project ∨ s = visibility := by
  unfold commonPrefix at h
  split at h
  · exact Or.inr (List.mem_singleton.mp h)
  · split at h
    · exact Or.inl (List.mem_singleton.mp h)
    · cases h

omit hu hgrant in
theorem stripped_uncapitalized (value : String) (h : Uncapitalized value) :
    Uncapitalized (stripped value) := by
  intro c hc
  rw [stripped, String.toList_ofList, trimSeparators, List.mem_reverse] at hc
  exact h c (List.mem_reverse.mp (List.dropWhile_subset _ hc))

omit hgrant in
theorem included_uncapitalized (s : String) (hs : s ∈ member.includedKeys) : Uncapitalized s := by
  obtain ⟨folder, -, rfl⟩ := List.mem_map.mp hs
  intro c hc
  rw [folder.keyed, normalized_toList] at hc
  exact hu.lower _ c hc

/-- The texts that keys have to begin with are some, and have no capitals. -/
theorem searchPrefixes_some (prefixes : List String)
    (h : searchPrefixes grant member = some prefixes) :
    prefixes ≠ [] ∧ ∀ s ∈ prefixes, Uncapitalized s := by
  have hvisible := (visibility_uncapitalized u hu grant.visibility values hgrant).1
  unfold searchPrefixes intersectSearchPrefixes at h
  dsimp only at h
  split at h
  · cases h
  · split at h
    · rw [Option.some.injEq] at h
      subst h
      refine ⟨?_, included_uncapitalized hu member⟩
      intro hnil
      exact member.nonempty (List.map_eq_nil_iff.mp hnil)
    · split at h
      · cases h
      · next hne =>
        rw [Option.some.injEq] at h
        subst h
        refine ⟨fun hnil => hne (List.dedup_eq_nil _ |>.mp hnil), fun s hs => ?_⟩
        obtain ⟨project, hproject, hs⟩ := List.mem_flatMap.mp (List.mem_dedup.mp hs)
        obtain ⟨visibility, hvisibility, hs⟩ := List.mem_flatMap.mp hs
        rcases mem_commonPrefix _ _ s hs with rfl | rfl
        · exact stripped_uncapitalized _ (included_uncapitalized hu member project hproject)
        · exact stripped_uncapitalized _ (hvisible visibility hvisibility)

end Keys

/-! ## Lists that are filtered and cut off -/

section Lists

variable {α β : Type}

theorem mem_take_of_split (before after : List α) (a : α) (n : Nat) (h : before.length < n) :
    a ∈ (before ++ a :: after).take n := by
  rw [List.take_append]
  refine List.mem_append_right _ ?_
  obtain ⟨k, hk⟩ : ∃ k, n - before.length = k + 1 := ⟨n - before.length - 1, by omega⟩
  rw [hk, List.take_succ_cons]
  exact List.mem_cons_self

theorem split_of_mem_take (l : List α) (a : α) (n : Nat) (h : a ∈ l.take n) :
    ∃ before after, l = before ++ a :: after ∧ before.length < n := by
  obtain ⟨before, after, hsplit⟩ := List.append_of_mem h
  refine ⟨before, after ++ l.drop n, ?_, ?_⟩
  · have hl := List.take_append_drop n l
    rw [hsplit, List.append_assoc, List.cons_append] at hl
    exact hl.symm
  · have hlength := congrArg List.length hsplit
    rw [List.length_take, List.length_append, List.length_cons] at hlength
    omega

theorem filter_split (p : α → Bool) (l before after : List α) (a : α)
    (h : l.filter p = before ++ a :: after) :
    ∃ before' after', l = before' ++ a :: after' ∧ before'.filter p = before ∧ p a = true := by
  obtain ⟨l₁, l₂, rfl, hbefore, hrest⟩ := List.filter_eq_append_iff.mp h
  obtain ⟨l₃, l₄, rfl, hnone, ha, -⟩ := List.filter_eq_cons_iff.mp hrest
  refine ⟨l₁ ++ l₃, l₄, by rw [List.append_assoc], ?_, ha⟩
  rw [List.filter_append, hbefore, List.filter_eq_nil_iff.mpr hnone, List.append_nil]

variable (p q : α → Bool) (f : α → β) (ceiling limit : Nat) (memory : List β)

/-- What passes the first test, as far as the ceiling, and then the second, behind what was
    there before, as far as the limit. -/
def found (l : List α) : List β :=
  (memory ++ (((l.filter p).take ceiling).filter q).map f).take limit

/-- What passes both tests is found, unless it comes too late. -/
theorem mem_found (before after : List α) (a : α) (hp : p a = true) (hq : q a = true)
    (hceiling : before.countP p < ceiling)
    (hlimit : memory.length + before.countP (fun b => p b && q b) < limit) :
    f a ∈ found p q f ceiling limit memory (before ++ a :: after) := by
  rw [List.countP_eq_length_filter] at hceiling hlimit
  obtain ⟨k, hk⟩ : ∃ k, ceiling - (before.filter p).length = k + 1 :=
    ⟨ceiling - (before.filter p).length - 1, by omega⟩
  have htaken : ((before ++ a :: after).filter p).take ceiling =
      before.filter p ++ a :: (after.filter p).take k := by
    rw [List.filter_append, List.filter_cons_of_pos hp, List.take_append,
      List.take_of_length_le (Nat.le_of_lt hceiling), hk, List.take_succ_cons]
  rw [found, htaken, List.filter_append, List.filter_cons_of_pos hq, List.map_append,
    List.map_cons, ← List.append_assoc]
  refine mem_take_of_split _ _ _ _ ?_
  rw [List.length_append, List.length_map, List.filter_filter]
  simpa only [Bool.and_comm] using hlimit

/-- What is found was there before, or passes both tests and does not come too late. -/
theorem found_cases (l : List α) (b : β) (h : b ∈ found p q f ceiling limit memory l) :
    b ∈ memory ∨ ∃ before a after, l = before ++ a :: after ∧ b = f a ∧ p a = true ∧
      q a = true ∧ before.countP p < ceiling ∧
      memory.length + before.countP (fun b => p b && q b) < limit := by
  obtain ⟨before, after, hsplit, hlimit⟩ := split_of_mem_take _ b limit h
  by_cases hmem : b ∈ memory
  · exact Or.inl hmem
  refine Or.inr ?_
  have hbehind : ∀ rest, before = memory ++ rest →
      (((l.filter p).take ceiling).filter q).map f = rest ++ b :: after →
      ∃ before a after, l = before ++ a :: after ∧ b = f a ∧ p a = true ∧ q a = true ∧
        before.countP p < ceiling ∧
        memory.length + before.countP (fun b => p b && q b) < limit := by
    intro rest hbefore hmap
    obtain ⟨taken, others, htaken, hrest, hothers⟩ := List.map_eq_append_iff.mp hmap
    obtain ⟨a, others', rfl, ha, -⟩ := List.map_eq_cons_iff.mp hothers
    obtain ⟨passed, later, hpassed, hfilter, hq⟩ := filter_split q _ _ _ a htaken
    -- The elements that pass the first test, in front of the ceiling and behind it.
    have hall := List.take_append_drop ceiling (l.filter p)
    rw [hpassed, List.append_assoc, List.cons_append] at hall
    obtain ⟨front, behind, hl, hfront, hp⟩ := filter_split p l _ _ a hall.symm
    refine ⟨front, a, behind, hl, ha.symm, hp, hq, ?_, ?_⟩
    · rw [List.countP_eq_length_filter, hfront]
      have hlength := congrArg List.length hpassed
      rw [List.length_take, List.length_append, List.length_cons] at hlength
      omega
    · have hcount : front.countP (fun b => p b && q b) = rest.length := by
        rw [List.countP_eq_length_filter, ← hrest, List.length_map, ← hfilter, ← hfront,
          List.filter_filter]
        simp only [Bool.and_comm]
      rw [hbefore, List.length_append] at hlimit
      rw [hcount]
      exact hlimit
  rcases List.append_eq_append_iff.mp hsplit with ⟨rest, hbefore, hmap⟩ | ⟨rest, hmemory, hrest⟩
  · exact hbehind rest hbefore hmap
  · cases rest with
    | nil =>
        rw [List.append_nil] at hmemory
        rw [List.nil_append] at hrest
        exact hbehind [] (by rw [List.append_nil, hmemory]) hrest.symm
    | cons b' rest =>
        -- The element would have been there before.
        rw [List.cons_append, List.cons.injEq] at hrest
        refine absurd ?_ hmem
        rw [hmemory, hrest.1]
        exact List.mem_append_right _ List.mem_cons_self

end Lists

/-! ## What is cited -/

section Cited

variable {u : UnicodeTables} (lineage : List RestoredLineage) (grant : SearchGrant)
  (member : KnowledgeSpaceMember u)

/-- The tests of a note that are not about folders. -/
def passesGates (note : LibraryNote u) : Bool :=
  let visibility := agentVisibilityForGrant u grant.visibility
  !visibility.denyAll && !(visibility.excludePrivate && note.agentPrivate) &&
    !visibility.neverExposeFileNames.contains
      (String.ofList (fileName note.key.pathKey.toList)) &&
    !unapprovedRestored lineage grant.approvals note.key.pathKey

/-- A key is in a folder of the grant. -/
def withinGrant (u : UnicodeTables) (grant : SearchGrant) (pathKey : String) : Bool :=
  let visibility := agentVisibilityForGrant u grant.visibility
  visibility.pathKeyPrefixes.isEmpty ||
    visibility.pathKeyPrefixes.any (fun start => startsWith pathKey start)

/-- A note that may be cited. -/
structure Admitted (note : LibraryNote u) : Prop where
  included : member.includes note.key.pathKey = true
  notExcluded : member.excludes note.key.pathKey = false
  visible : visibilityAllowsMaterializedNote (agentVisibilityForGrant u grant.visibility)
    (noteAt note.key note.agentPrivate) = true
  approved : unapprovedRestored lineage grant.approvals note.key.pathKey = false

/-- The key of a note begins with one of the texts that are searched for. -/
def begins (pathKey : String) : Bool :=
  ((searchPrefixes grant member).getD []).any (fun start => startsWith pathKey start)

/-- A note that passes every test which is made. -/
def shown (note : LibraryNote u) : Bool :=
  passesGates lineage grant note && begins grant member note.key.pathKey &&
    !member.excludes note.key.pathKey

/-- A note that passes them without being in folders of the project and of the grant. -/
def Stray (note : LibraryNote u) : Prop :=
  shown lineage grant member note = true ∧
    ¬ (member.includes note.key.pathKey = true ∧ withinGrant u grant note.key.pathKey = true)

instance decidableStray (note : LibraryNote u) : Decidable (Stray lineage grant member note) :=
  inferInstanceAs (Decidable (_ ∧ ¬ (_ ∧ _)))

/-- A search cites notes that may be cited, and all of them that match unless it says that
    there may be more. -/
structure CitesAdmitted (uuid : String → String) (generation : Generation u)
    (response : FindResponse) : Prop where
  sound : ∀ citationId contentSha256 generationId path,
    .materializedNote citationId contentSha256 generationId path ∈ response.citations →
    ∃ note ∈ generation.ranked, note.path = path ∧ Admitted lineage grant member note
  complete : response.coverage.truncated = false →
    ∀ note ∈ generation.ranked, Admitted lineage grant member note →
      noteCitation uuid generation.generationId note ∈ response.citations

/-- So many notes that rank before a note pass the query that it is not come to, or so many
    of them are shown that the answer is full before. -/
def OutOfReach (limit : Nat) (memory : MemorySearch) (before : List (LibraryNote u)) : Prop :=
  findLibraryCandidateCeiling ≤ before.countP (fun note =>
      passesGates lineage grant note && begins grant member note.key.pathKey) ∨
    limit ≤ memory.citations.length + before.countP (shown lineage grant member)

instance decidableOutOfReach (limit : Nat) (memory : MemorySearch)
    (before : List (LibraryNote u)) :
    Decidable (OutOfReach lineage grant member limit memory before) :=
  inferInstanceAs (Decidable (_ ∨ _))

theorem visible_iff (note : LibraryNote u) :
    visibilityAllowsMaterializedNote (agentVisibilityForGrant u grant.visibility)
        (noteAt note.key note.agentPrivate) = true ∧
      unapprovedRestored lineage grant.approvals note.key.pathKey = false ↔
    passesGates lineage grant note = true ∧ withinGrant u grant note.key.pathKey = true := by
  simp only [visibilityAllowsMaterializedNote, passesGates, withinGrant, noteAt,
    Bool.and_eq_true, Bool.not_eq_true']
  tauto

/-- A note that is shown may be cited, unless it is a stray one. -/
theorem admitted_of_shown (note : LibraryNote u) (hshown : shown lineage grant member note = true)
    (hstray : ¬ Stray lineage grant member note) : Admitted lineage grant member note := by
  have hfolders : member.includes note.key.pathKey = true ∧
      withinGrant u grant note.key.pathKey = true := by
    by_contra hnot
    exact hstray ⟨hshown, hnot⟩
  simp only [shown, Bool.and_eq_true, Bool.not_eq_true'] at hshown
  have hvisible := (visible_iff lineage grant note).mpr ⟨hshown.1.1, hfolders.2⟩
  exact ⟨hfolders.1, hshown.2, hvisible.1, hvisible.2⟩

section Lawful

variable (hu : Lawful u) (values : List String)
  (hgrant : normalizePathPrefixes u values = .ok grant.visibility.pathKeyPrefixes)

include hu hgrant

/-- A note that may be cited is shown. -/
theorem shown_of_admitted (note : LibraryNote u) (h : Admitted lineage grant member note) :
    shown lineage grant member note = true := by
  obtain ⟨hgates, hwithin⟩ := (visible_iff lineage grant note).mp ⟨h.visible, h.approved⟩
  have hdeny : (agentVisibilityForGrant u grant.visibility).denyAll = false := by
    simp only [passesGates, Bool.and_eq_true, Bool.not_eq_true'] at hgates
    exact hgates.1.1.1
  simp only [withinGrant, Bool.or_eq_true] at hwithin
  obtain ⟨prefixes, hprefixes, s, hs, hstarts⟩ := search_covers hu grant values hgrant member
    note.key.pathKey h.included hdeny hwithin
  have hbegins : begins grant member note.key.pathKey = true := by
    rw [begins, hprefixes, Option.getD_some]
    exact List.any_eq_true.mpr ⟨s, hs, hstarts⟩
  simp only [shown, hgates, hbegins, h.notExcluded, Bool.not_false, Bool.and_self]

/-- The filter of the query makes the tests that are not about folders, and looks at how a
    key begins. -/
theorem searchFilter_eq (prefixes : List String)
    (hprefixes : searchPrefixes grant member = some prefixes) (note : LibraryNote u) :
    searchFilter lineage grant prefixes note =
      (passesGates lineage grant note && begins grant member note.key.pathKey) := by
  obtain ⟨hne, hplain⟩ := searchPrefixes_some hu grant values hgrant member prefixes hprefixes
  have hnames := (visibility_uncapitalized u hu grant.visibility values hgrant).2
  have hkey : Uncapitalized note.key.pathKey := by
    intro c hc
    rw [(Vault.validateMarkdownVaultPath_path u _ _ note.valid).2,
      ← String.ofList_toList (s := note.path)] at hc
    exact hu.lower note.path.toList c hc
  have hempty : prefixes.isEmpty = false := List.isEmpty_eq_false_iff.mpr hne
  have hfilter := scopedFilter_eq
    { agentVisibilityForGrant u grant.visibility with pathKeyPrefixes := prefixes }
    (noteAt note.key note.agentPrivate) hkey hplain hnames
  unfold searchFilter
  rw [hfilter]
  simp only [visibilityAllowsMaterializedNote, passesGates, begins, noteAt, hprefixes,
    Option.getD_some, hempty, Bool.false_or]
  simp only [Bool.and_assoc, Bool.and_comm, Bool.and_left_comm]

/-- What a search finds in a library. -/
theorem searchLibrary_notes (generation : Generation u) :
    (searchLibrary lineage grant member (some generation)).notes =
      ((generation.ranked.filter (fun note =>
        passesGates lineage grant note && begins grant member note.key.pathKey)).take
          findLibraryCandidateCeiling).filter (fun note => !member.excludes note.key.pathKey) := by
  unfold searchLibrary
  cases hprefixes : searchPrefixes grant member with
  | none =>
      simp [begins, hprefixes]
  | some prefixes =>
      simp only [searchScopedMaterializedNotes, pathExcluded_eq hu member,
        funext (searchFilter_eq lineage grant member hu values hgrant prefixes hprefixes)]

theorem searchLibrary_truncated (generation : Generation u)
    (h : (searchLibrary lineage grant member (some generation)).truncated = false) :
    (generation.ranked.filter (fun note =>
      passesGates lineage grant note && begins grant member note.key.pathKey)).length <
        findLibraryCandidateCeiling := by
  unfold searchLibrary at h
  cases hprefixes : searchPrefixes grant member with
  | none =>
      simp [begins, hprefixes, findLibraryCandidateCeiling]
  | some prefixes =>
      simp only [hprefixes, searchScopedMaterializedNotes,
        funext (searchFilter_eq lineage grant member hu values hgrant prefixes hprefixes),
        Bool.or_eq_false_iff, decide_eq_false_iff_not, List.length_take] at h
      omega

/-- What a search cites. -/
theorem find_citations (uuid : String → String) (cut : List FindCitation → Bool) (limit : Nat)
    (memory : MemorySearch) (generation : Generation u) :
    (findAgentMemory lineage grant member uuid cut limit memory (some generation)).citations =
      found (fun note => passesGates lineage grant note && begins grant member note.key.pathKey)
        (fun note => !member.excludes note.key.pathKey)
        (noteCitation uuid generation.generationId) findLibraryCandidateCeiling limit
        memory.citations generation.ranked := by
  simp only [findAgentMemory, found, Option.map_some, Option.getD_some,
    searchLibrary_notes lineage grant member hu values hgrant generation]

/-- A search cites the notes of the generation that may be cited, and all that match unless it
    says that there may be more, exactly if each stray note is out of reach. -/
theorem find_meets_iff (uuid : String → String) (cut : List FindCitation → Bool) (limit : Nat)
    (memory : MemorySearch) (generation : Generation u) :
    CitesAdmitted lineage grant member uuid generation
        (findAgentMemory lineage grant member uuid cut limit memory (some generation)) ↔
      ∀ before note after, generation.ranked = before ++ note :: after →
        Stray lineage grant member note →
        OutOfReach lineage grant member limit memory before := by
  have hcitations := find_citations lineage grant member hu values hgrant uuid cut limit memory
    generation
  constructor
  · intro hmeets before note after hranked hstray
    by_contra hreach
    simp only [OutOfReach, not_or, Nat.not_le] at hreach
    have hshown := hstray.1
    simp only [shown, Bool.and_eq_true] at hshown
    have hcited : noteCitation uuid generation.generationId note ∈
        (findAgentMemory lineage grant member uuid cut limit memory (some generation)).citations := by
      rw [hcitations, hranked]
      refine mem_found _ _ _ _ _ _ before after note ?_ hshown.2 hreach.1 hreach.2
      simp only [hshown.1, Bool.and_self]
    obtain ⟨note', -, hpath, hadmitted⟩ := hmeets.sound _ _ _ _ hcited
    -- A note is told by its path, as far as folders go.
    have hkey : note'.key = note.key := by
      have hvalid := note'.valid
      rw [hpath, note.valid, Except.ok.injEq] at hvalid
      exact hvalid.symm
    refine hstray.2 ?_
    rw [← hkey]
    exact ⟨hadmitted.included,
      ((visible_iff lineage grant note').mp ⟨hadmitted.visible, hadmitted.approved⟩).2⟩
  · intro hreach
    constructor
    · intro citationId contentSha256 generationId path hcited
      rw [hcitations] at hcited
      rcases found_cases _ _ _ _ _ _ _ _ hcited with hmemory |
        ⟨before, note, after, hranked, hcitation, hp, hq, hceiling, hlimit⟩
      · obtain ⟨_, _, _, hcitation⟩ := memory.remembered _ hmemory
        cases hcitation
      · rw [noteCitation, FindCitation.materializedNote.injEq] at hcitation
        refine ⟨note, ?_, hcitation.2.2.2.symm, ?_⟩
        · rw [hranked]
          exact List.mem_append_right _ List.mem_cons_self
        · have hshown : shown lineage grant member note = true := by
            simp only [shown, hp, hq, Bool.and_self]
          refine admitted_of_shown lineage grant member note hshown (fun hstray => ?_)
          rcases hreach before note after hranked hstray with hover | hover
          · exact absurd hceiling (Nat.not_lt.mpr hover)
          · exact absurd hlimit (Nat.not_lt.mpr hover)
    · intro htruncated note hnote hadmitted
      simp only [findAgentMemory, Option.map_some, Option.getD_some, Bool.or_eq_false_iff,
        decide_eq_false_iff_not, Nat.not_lt] at htruncated
      have hfew := searchLibrary_truncated lineage grant member hu values hgrant generation
        htruncated.1.1.2
      have hall := htruncated.1.2
      rw [searchLibrary_notes lineage grant member hu values hgrant] at hall
      have hshown := shown_of_admitted lineage grant member hu values hgrant note hadmitted
      simp only [shown, Bool.and_eq_true] at hshown
      rw [List.take_of_length_le (Nat.le_of_lt hfew)] at hall
      rw [hcitations, found, List.take_of_length_le (Nat.le_of_lt hfew),
        List.take_of_length_le hall]
      refine List.mem_append_right _ (List.mem_map_of_mem ?_)
      refine List.mem_filter.mpr ⟨List.mem_filter.mpr ⟨hnote, ?_⟩, hshown.2⟩
      simp only [hshown.1, Bool.and_self]

end Lawful

end Cited

/-! ## A note beside a folder -/

/-- A project about one folder. -/
def workMember : KnowledgeSpaceMember caronTables :=
  { exclusions := []
    pathPrefixes := [{
      path := "work", pathKey := "work", safe := by decide +kernel, keyed := by decide +kernel }]
    nonempty := by decide
    distinct := by decide
    covered := by decide }

/-- A note in the folder. -/
def workNote : LibraryNote caronTables :=
  { path := "work/plan.md"
    key := ⟨"work/plan.md", "work/plan.md", "plan"⟩
    valid := by decide +kernel
    title := "plan"
    contentSha256 := ""
    snippet := "plan"
    agentPrivate := false }

/-- A note in a folder whose name begins with that of the other. -/
def workshopNote : LibraryNote caronTables :=
  { path := "workshop/plan.md"
    key := ⟨"workshop/plan.md", "workshop/plan.md", "plan"⟩
    valid := by decide +kernel
    title := "plan"
    contentSha256 := ""
    snippet := "plan"
    agentPrivate := false }

/-- A grant for the whole vault. -/
def vaultGrant : SearchGrant :=
  { visibility := { pathKeyPrefixes := [], runtimeProfile := none }, approvals := [] }

def noMemory : MemorySearch :=
  { citations := [], truncated := false, remembered := fun _ h => absurd h List.not_mem_nil }

/-- A search cites a note that the project does not include. -/
theorem sibling_cited :
    ¬ CitesAdmitted [] vaultGrant workMember id ⟨"generation", [workshopNote]⟩
      (findAgentMemory [] vaultGrant workMember id (fun _ => false) 5 noMemory
        (some ⟨"generation", [workshopNote]⟩)) := by
  intro h
  have hcited : noteCitation id "generation" workshopNote ∈
      (findAgentMemory [] vaultGrant workMember id (fun _ => false) 5 noMemory
        (some ⟨"generation", [workshopNote]⟩)).citations := by decide +kernel
  obtain ⟨note, hnote, -, hadmitted⟩ := h.sound _ _ _ _ hcited
  have hbeside : workMember.includes workshopNote.key.pathKey = false := by decide +kernel
  rw [← List.mem_singleton.mp hnote, hadmitted.included] at hbeside
  cases hbeside

/-- It cites a note in the folder. -/
theorem inside_cited :
    CitesAdmitted [] vaultGrant workMember id ⟨"generation", [workNote]⟩
      (findAgentMemory [] vaultGrant workMember id (fun _ => false) 5 noMemory
        (some ⟨"generation", [workNote]⟩)) := by
  refine (find_meets_iff [] vaultGrant workMember caronTables_lawful [] rfl id (fun _ => false) 5
    noMemory ⟨"generation", [workNote]⟩).mpr (fun before note after hranked hstray => ?_)
  have hnote : note = workNote := by
    have hmem : note ∈ before ++ note :: after := List.mem_append_right _ List.mem_cons_self
    rw [← hranked] at hmem
    exact List.mem_singleton.mp hmem
  have hinside : ¬ Stray [] vaultGrant workMember workNote := by decide +kernel
  exact absurd (hnote ▸ hstray) hinside

end Mdevolved.Agent
