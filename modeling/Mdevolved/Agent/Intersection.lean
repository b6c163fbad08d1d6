import Mdevolved.Agent.Exposure

/-!
# Folders that a Grant and a Profile have in Common

Where a vault has a profile, a grant is for what lies in one of its folders and in one of the
folders of the profile. This is computed once, from the folders alone: of each pair the inner
one is kept, if one is in the other, and of those that are left the ones that are in no other.
A path is then compared with what is left. Here it is shown that this comes to the same as
asking for both, where being in a folder is told by the segments of paths.

No folder stands for the whole vault in a grant, and for nothing in what is left. The flag that
denies everything tells these apart. It is set exactly if no text at all is admitted. That is
less than to say that no note is, since a profile may name a folder that no note can be in.

## Main definitions

* `admits`: What was computed admits a key.
* `Under`: A key is in a folder.
* `ValidKey`: The key of a valid path.

## Theorems

* `startsWith_folderKey_iff`: A key starts with that of a folder if it is in the folder.
* `exists_intersectPrefixes_iff`: What is in both is in what they have in common.
* `visibility_intersects`: What a grant and a profile admit.
-/

namespace Mdevolved.Agent

open Vault (UnicodeTables validateMarkdownVaultPath)

/-! ## Folders by their segments -/

theorem intercalate_append (separator : Char) (front rest : List (List Char)) (hfront : front ≠ [])
    (hrest : rest ≠ []) :
    [separator].intercalate (front ++ rest) =
      [separator].intercalate front ++ separator :: [separator].intercalate rest := by
  induction front with
  | nil => exact absurd rfl hfront
  | cons segment front ih =>
      by_cases hlast : front = []
      · rw [hlast, List.singleton_append, List.intercalate_cons_of_ne_nil hrest,
          List.intercalate_singleton, List.append_assoc, List.singleton_append]
      · have hmore : front ++ rest ≠ [] := by simp [hlast]
        rw [List.cons_append, List.intercalate_cons_of_ne_nil hmore,
          List.intercalate_cons_of_ne_nil hlast, ih hlast]
        simp

/-- A text starts with a folder and a separator exactly if the segments of the folder come first
    among its own, and it has more. -/
theorem folder_segments (folder chars : List Char) :
    folder ++ ['/'] <+: chars ↔
      ∃ rest, rest ≠ [] ∧ chars.splitOn '/' = folder.splitOn '/' ++ rest := by
  constructor
  · rintro ⟨rest, rfl⟩
    refine ⟨rest.splitOn '/', List.splitOn_ne_nil _ _, ?_⟩
    rw [List.append_assoc, List.singleton_append, List.splitOn_append_cons_self]
  · rintro ⟨rest, hrest, hsplit⟩
    have hjoined := congrArg (['/'].intercalate) hsplit
    rw [List.intercalate_splitOn, intercalate_append _ _ _ (List.splitOn_ne_nil _ _) hrest,
      List.intercalate_splitOn] at hjoined
    exact ⟨['/'].intercalate rest, by rw [hjoined]; simp⟩

theorem trimSeparators_append (chars : List Char) :
    ∃ n, chars = trimSeparators chars ++ List.replicate n '/' := by
  have hall : ∀ c ∈ chars.reverse.takeWhile (· = '/'), c = '/' := by
    intro c hc
    simpa using List.mem_takeWhile_imp hc
  have hsplit := List.takeWhile_append_dropWhile (p := (· = '/')) (l := chars.reverse)
  rw [List.eq_replicate_of_mem hall] at hsplit
  have hreversed := congrArg List.reverse hsplit
  rw [List.reverse_append, List.reverse_reverse, List.reverse_replicate] at hreversed
  exact ⟨_, hreversed.symm⟩

/-- What a text is without separators at its end begins it, and so does one separator more where
    one follows it. -/
theorem trimSeparators_begins (chars rest : List Char) :
    trimSeparators chars ++ ['/'] <+: chars ++ '/' :: rest := by
  obtain ⟨n, hn⟩ := trimSeparators_append chars
  have hmove : List.replicate n '/' ++ '/' :: rest = '/' :: (List.replicate n '/' ++ rest) := by
    rw [List.append_cons, ← List.replicate_succ', List.replicate_succ, List.cons_append]
  refine ⟨List.replicate n '/' ++ rest, ?_⟩
  calc trimSeparators chars ++ ['/'] ++ (List.replicate n '/' ++ rest)
      = trimSeparators chars ++ (List.replicate n '/' ++ '/' :: rest) := by
        rw [hmove, List.append_assoc, List.singleton_append]
    _ = chars ++ '/' :: rest := by
        rw [← List.append_assoc, ← hn]

section Intersection

variable (u : UnicodeTables)

/-- A key is in a folder, whatever the folder ends with. -/
def Under (folder pathKey : String) : Prop :=
  ∃ rest, rest ≠ [] ∧ (normalized u pathKey).toList.splitOn '/' =
    (trimSeparators (normalized u folder).toList).splitOn '/' ++ rest

theorem startsWith_folderKey_iff (folder pathKey : String) :
    startsWith (normalized u pathKey) (folderKey u folder) = true ↔ Under u folder pathKey := by
  rw [startsWith, List.isPrefixOf_iff_prefix, folderKey, String.toList_ofList, folder_segments]
  rfl

/-- The key of a valid path. -/
def ValidKey (pathKey : String) : Prop :=
  ∃ path validated, validateMarkdownVaultPath u path = .ok validated ∧
    validated.pathKey = pathKey

/-- What was computed for a grant admits a key, whatever the note is called. -/
def admits (visibility : AgentVisibility) (pathKey : String) : Bool :=
  !visibility.denyAll &&
    (visibility.pathKeyPrefixes.isEmpty ||
      visibility.pathKeyPrefixes.any (fun start => startsWith (normalized u pathKey) start))

/-! ## Folders that are in others -/

/-- Folders that are in others may be left out. -/
theorem minimalPrefixes_any (values : List String) (key : String) :
    (minimalPrefixes values).any (fun start => startsWith key start) =
      values.any (fun start => startsWith key start) := by
  rw [Bool.eq_iff_iff, List.any_eq_true, List.any_eq_true]
  constructor
  · rintro ⟨start, hstart, hkey⟩
    exact ⟨start, mem_minimalPrefixes values start hstart, hkey⟩
  · rintro ⟨start, hstart, hkey⟩
    obtain ⟨least, hleast, hcovers⟩ := minimalPrefixes_cover values start hstart
    exact ⟨least, hleast, startsWith_trans _ _ _ hkey hcovers⟩

theorem minimalPrefixes_isEmpty (values : List String) :
    (minimalPrefixes values).isEmpty = values.isEmpty := by
  cases values with
  | nil => rfl
  | cons value values =>
      obtain ⟨least, hleast, -⟩ := minimalPrefixes_cover (value :: values) value List.mem_cons_self
      have hfilled : minimalPrefixes (value :: values) ≠ [] := List.ne_nil_of_mem hleast
      rw [List.isEmpty_eq_false_iff.mpr hfilled]
      rfl

/-! ## What is in both -/

/-- Of two folders that a text is in, the inner one is one of them. -/
theorem startsWith_or (key a b : String) (ha : startsWith key a = true)
    (hb : startsWith key b = true) : startsWith b a = true ∨ startsWith a b = true := by
  rw [startsWith, List.isPrefixOf_iff_prefix] at ha hb
  rw [startsWith, startsWith, List.isPrefixOf_iff_prefix, List.isPrefixOf_iff_prefix]
  exact List.prefix_or_prefix_of_prefix ha hb

/-- A text is in what folders have in common exactly if it is in folders of either kind. -/
theorem exists_intersectPrefixes_iff (granted roots : List String) (key : String) :
    (∃ s ∈ intersectPrefixes u granted roots, startsWith key s = true) ↔
      (granted = [] ∨ ∃ grant ∈ granted, startsWith key (folderKey u grant) = true) ∧
        ∃ root ∈ roots, startsWith key (folderKey u root) = true := by
  by_cases hall : granted = []
  · have hsame := minimalPrefixes_any (roots.map (folderKey u)) key
    rw [Bool.eq_iff_iff, List.any_eq_true, List.any_eq_true] at hsame
    simp only [intersectPrefixes, hall, if_true, hsame, List.mem_map, true_or, true_and]
    simp
  · have hsame := minimalPrefixes_any ((granted.map (folderKey u)).flatMap (fun grant =>
      (roots.map (folderKey u)).flatMap (fun profile =>
        if startsWith profile grant then [profile]
        else if startsWith grant profile then [grant] else []))) key
    rw [Bool.eq_iff_iff, List.any_eq_true, List.any_eq_true] at hsame
    simp only [intersectPrefixes, hall, if_false, hsame, false_or]
    constructor
    · rintro ⟨s, hs, hkey⟩
      obtain ⟨grant, hgrant, hs⟩ := List.mem_flatMap.mp hs
      obtain ⟨profile, hprofile, hs⟩ := List.mem_flatMap.mp hs
      obtain ⟨value, hvalue, rfl⟩ := List.mem_map.mp hgrant
      obtain ⟨root, hroot, rfl⟩ := List.mem_map.mp hprofile
      split at hs
      · next hinner =>
        rw [List.mem_singleton.mp hs] at hkey
        exact ⟨⟨value, hvalue, startsWith_trans _ _ _ hkey hinner⟩, root, hroot, hkey⟩
      · split at hs
        · next hinner =>
          rw [List.mem_singleton.mp hs] at hkey
          exact ⟨⟨value, hvalue, hkey⟩, root, hroot, startsWith_trans _ _ _ hkey hinner⟩
        · cases hs
    · rintro ⟨⟨value, hvalue, hgrant⟩, root, hroot, hprofile⟩
      -- The inner one of the two is kept.
      by_cases hinner : startsWith (folderKey u root) (folderKey u value) = true
      · refine ⟨folderKey u root, ?_, hprofile⟩
        apply List.mem_flatMap.mpr
        refine ⟨folderKey u value, List.mem_map_of_mem hvalue, ?_⟩
        apply List.mem_flatMap.mpr
        exact ⟨folderKey u root, List.mem_map_of_mem hroot, by simp [hinner]⟩
      · have houter := (startsWith_or key _ _ hgrant hprofile).resolve_left hinner
        refine ⟨folderKey u value, ?_, hgrant⟩
        apply List.mem_flatMap.mpr
        refine ⟨folderKey u value, List.mem_map_of_mem hvalue, ?_⟩
        apply List.mem_flatMap.mpr
        exact ⟨folderKey u root, List.mem_map_of_mem hroot, by simp [hinner, houter]⟩

/-- What folders have in common is one of them. -/
theorem intersectPrefixes_given (granted roots : List String) (s : String)
    (h : s ∈ intersectPrefixes u granted roots) :
    ∃ value ∈ granted ++ roots, s = folderKey u value := by
  unfold intersectPrefixes at h
  dsimp only at h
  split at h
  · obtain ⟨root, hroot, rfl⟩ := List.mem_map.mp (mem_minimalPrefixes _ s h)
    exact ⟨root, List.mem_append_right granted hroot, rfl⟩
  · obtain ⟨grant, hgrant, hs⟩ := List.mem_flatMap.mp (mem_minimalPrefixes _ s h)
    obtain ⟨profile, hprofile, hs⟩ := List.mem_flatMap.mp hs
    obtain ⟨value, hvalue, rfl⟩ := List.mem_map.mp hgrant
    obtain ⟨root, hroot, rfl⟩ := List.mem_map.mp hprofile
    split at hs
    · exact ⟨root, List.mem_append_right granted hroot, List.mem_singleton.mp hs⟩
    · split at hs
      · exact ⟨value, List.mem_append_left roots hvalue, List.mem_singleton.mp hs⟩
      · cases hs

/-! ## What a grant and a profile admit -/

section

variable (granted : List String) (profile : RuntimeProfile)

/-- Where there is a profile, what is left is never taken for the whole vault. -/
theorem admits_grant (pathKey : String) :
    admits u (agentVisibilityForGrant u ⟨granted, some profile⟩) pathKey = true ↔
      ∃ s ∈ intersectPrefixes u granted profile.contentRoots,
        startsWith (normalized u pathKey) s = true := by
  simp only [admits, agentVisibilityForGrant, Bool.and_eq_true, Bool.not_eq_true', Bool.or_eq_true,
    List.any_eq_true]
  constructor
  · rintro ⟨hsome, hall | hin⟩
    · exact absurd hall (by rw [hsome]; exact Bool.false_ne_true)
    · exact hin
  · rintro ⟨s, hs, hkey⟩
    exact ⟨List.isEmpty_eq_false_iff.mpr (List.ne_nil_of_mem hs), Or.inr ⟨s, hs, hkey⟩⟩

theorem admits_iff (pathKey : String) :
    admits u (agentVisibilityForGrant u ⟨granted, some profile⟩) pathKey = true ↔
      (granted = [] ∨ ∃ folder ∈ granted, Under u folder pathKey) ∧
        ∃ root ∈ profile.contentRoots, Under u root pathKey := by
  rw [admits_grant, exists_intersectPrefixes_iff]
  simp only [startsWith_folderKey_iff]

/-- Some text is in any folder. -/
theorem exists_under (hu : Lawful u) (folder : String) : ∃ pathKey, Under u folder pathKey := by
  refine ⟨folder ++ "/", ?_⟩
  have hslash : "/".toList = ['/'] := rfl
  have hkey : (normalized u (folder ++ "/")).toList =
      (normalized u folder).toList ++ '/' :: lowerChars u (nfcChars u []) := by
    rw [normalized_toList, normalized_toList, String.toList_append, hslash, hu.nfc_separator,
      hu.lower_separator]
  rw [← startsWith_folderKey_iff, startsWith, List.isPrefixOf_iff_prefix, folderKey,
    String.toList_ofList, hkey]
  exact trimSeparators_begins _ _

/-- The flag is set where nothing is in both. -/
theorem denyAll_iff (P : String → Prop)
    (hholds : ∀ folder ∈ granted ++ profile.contentRoots, ∃ pathKey, P pathKey ∧
      Under u folder pathKey) :
    (agentVisibilityForGrant u ⟨granted, some profile⟩).denyAll = true ↔
      ∀ pathKey, P pathKey →
        admits u (agentVisibilityForGrant u ⟨granted, some profile⟩) pathKey = false := by
  have hflag : (agentVisibilityForGrant u ⟨granted, some profile⟩).denyAll =
      (intersectPrefixes u granted profile.contentRoots).isEmpty := rfl
  rw [hflag, List.isEmpty_iff]
  constructor
  · intro hnone pathKey _
    rw [← Bool.not_eq_true, admits_grant, hnone]
    simp
  · intro hnone
    by_contra hsome
    obtain ⟨s, hs⟩ := List.exists_mem_of_ne_nil _ hsome
    obtain ⟨value, hvalue, rfl⟩ := intersectPrefixes_given u granted _ s hs
    obtain ⟨pathKey, hkey, hunder⟩ := hholds value hvalue
    have hadmits := (admits_grant u granted profile pathKey).mpr
      ⟨_, hs, (startsWith_folderKey_iff u value pathKey).mpr hunder⟩
    rw [hnone pathKey hkey] at hadmits
    cases hadmits

end

/-- What a grant and a profile admit is what is in a folder of either. Everything is denied where
    no text is admitted, which is where no note is, if each of the folders can have a note. That
    folders which are in others are left out makes no difference. -/
theorem visibility_intersects (hu : Lawful u) (granted : List String) (profile : RuntimeProfile) :
    let visibility := agentVisibilityForGrant u ⟨granted, some profile⟩
    (∀ pathKey, ValidKey u pathKey →
      (admits u visibility pathKey = true ↔
        (granted = [] ∨ ∃ folder ∈ granted, Under u folder pathKey) ∧
          ∃ root ∈ profile.contentRoots, Under u root pathKey)) ∧
    (visibility.denyAll = true ↔ ∀ pathKey, admits u visibility pathKey = false) ∧
    ((∀ folder ∈ granted ++ profile.contentRoots, ∃ pathKey, ValidKey u pathKey ∧
        Under u folder pathKey) →
      (visibility.denyAll = true ↔
        ∀ pathKey, ValidKey u pathKey → admits u visibility pathKey = false)) ∧
    ∀ values pathKey,
      admits u { visibility with pathKeyPrefixes := minimalPrefixes values } pathKey =
        admits u { visibility with pathKeyPrefixes := values } pathKey := by
  refine ⟨fun pathKey _ => admits_iff u granted profile pathKey, ?_,
    denyAll_iff u granted profile (ValidKey u), ?_⟩
  · have hall := denyAll_iff u granted profile (fun _ => True)
      (fun folder _ => by simpa using exists_under u hu folder)
    simpa using hall
  · intro values pathKey
    simp only [admits, minimalPrefixes_any, minimalPrefixes_isEmpty]

end Intersection

/-! ## A folder without notes -/

def workProfile : RuntimeProfile :=
  { contentRoots := ["Work/Notes/", "reference"], neverExposeFileNames := [], plain := rfl }

/-- A grant for a folder that one of the profile is in, and the note in it. -/
theorem work_intersects :
    admits caronTables (agentVisibilityForGrant caronTables ⟨["work"], some workProfile⟩)
      "work/notes/a.md" = true := by
  have hvalid : ValidKey caronTables "work/notes/a.md" :=
    ⟨"Work/Notes/a.md", ⟨"Work/Notes/a.md", "work/notes/a.md", "a"⟩, by decide +kernel, rfl⟩
  refine ((visibility_intersects caronTables caronTables_lawful ["work"] workProfile).1 _
    hvalid).mpr ⟨Or.inr ⟨"work", List.mem_singleton_self _, ?_⟩, "Work/Notes/", by decide, ?_⟩
  · exact (startsWith_folderKey_iff _ _ _).mp (by decide +kernel)
  · exact (startsWith_folderKey_iff _ _ _).mp (by decide +kernel)

/-- A folder whose name has a character that no path may have. -/
def colonProfile : RuntimeProfile :=
  { contentRoots := ["a:b"], neverExposeFileNames := [], plain := rfl }

theorem toLower_colon (c : Char) (h : c.toLower = ':') : c = ':' := by
  by_cases hupper : c.val ≥ 'A'.val ∧ c.val ≤ 'Z'.val
  · have hge : 65 ≤ c.val.toNat := hupper.1
    have hle : c.val.toNat ≤ 90 := hupper.2
    have hval := congrArg (fun d => d.val.toNat) h
    have hcolon : ':'.val.toNat = 58 := rfl
    have hstep : (32 : UInt32).toNat = 32 := rfl
    unfold Char.toLower at hval
    rw [dif_pos hupper] at hval
    change (c.val + 32).toNat = _ at hval
    rw [UInt32.toNat_add] at hval
    omega
  · rw [← h, toLower_small c hupper]

/-- The profile is accepted, and it is not everything that is denied. But no note can be in the
    folder. -/
theorem colon_undenied :
    vaultRuntimeProfilePathSchema "a:b" = some "a:b" ∧
      (agentVisibilityForGrant caronTables ⟨[], some colonProfile⟩).denyAll = false ∧
      ∀ pathKey, ValidKey caronTables pathKey →
        admits caronTables (agentVisibilityForGrant caronTables ⟨[], some colonProfile⟩) pathKey =
          false := by
  refine ⟨by decide +kernel, by decide +kernel, ?_⟩
  rintro pathKey ⟨path, validated, hvalid, rfl⟩
  obtain ⟨hpath, hkey⟩ := Vault.validateMarkdownVaultPath_path caronTables path validated hvalid
  rw [← Bool.not_eq_true, admits_iff]
  rintro ⟨-, root, hroot, hunder⟩
  rw [List.mem_singleton.mp hroot, ← startsWith_folderKey_iff, startsWith,
    List.isPrefixOf_iff_prefix] at hunder
  have hfolder : ':' ∈ (folderKey caronTables "a:b").toList := by decide +kernel
  -- A colon of the key is one of the path.
  have hcolon := hunder.subset hfolder
  rw [normalized_toList, hkey] at hcolon
  simp only [lowerChars, nfcChars, caronTables, String.toList_ofList, List.mem_map] at hcolon
  obtain ⟨c, hc, hlower⟩ := hcolon
  rw [toLower_colon c hlower] at hc
  obtain ⟨d, hd, hlower'⟩ := List.mem_map.mp (composeCaron_mem _ (by decide) _ hc)
  rw [toLower_colon d hlower'] at hd
  have hacceptable := (validPath_iff caronTables path).mp ⟨validated, hvalid⟩
  exact absurd (hacceptable.unreserved ':' hd) (by decide)

end Mdevolved.Agent
