import Mdevolved.Lib.Like
import Mdevolved.Lib.Utf16
import Mdevolved.Vault.Path

/-!
# What an Agent May See

The folders that a grant is for and the profile of a vault say which notes an agent may
see. This is told of a note three times: by a filter of the queries that search and list
notes, by a test of a note that was read, and by a test of a path. The filter compares
keys of paths by `LIKE`, which takes the letters of ASCII for the same in either case.
But the keys and what they are compared with have no capitals of ASCII, so that the
filter and the test of a note agree.

The test of a path brings the key into normal form once more. A key is the lower case of
a path in normal form, and that need not be in normal form itself.

## Main definitions

* `AgentVisibility`, `agentVisibilityForGrant`: What a grant lets an agent see.
* `normalizePathPrefixes`: The folders of a grant.
* `visibilityAllowsPath`, `visibilityAllowsMaterializedNote`: The tests.
* `scopedFilter`: The filter of the queries.
* `Lawful`: What is relied on of the tables of characters.

## Theorems

* `scopedFilter_eq`: The filter and the test of a note agree.
* `visible_of_stable`: So does the test of a path, where a key is in normal form.
-/

namespace Mdevolved.Agent

open Vault (UnicodeTables VaultPathFailureReason ValidatedVaultPath validateMarkdownVaultPath)

/-- What a profile says of visibility. Names of files have no separator. -/
structure RuntimeProfile where
  contentRoots : List String
  neverExposeFileNames : List String
  plain : neverExposeFileNames.all (fun name => '/' ∉ name.toList) = true
  deriving DecidableEq

structure VisibilityGrant where
  pathKeyPrefixes : List String
  runtimeProfile : Option RuntimeProfile

structure AgentVisibility where
  denyAll : Bool
  excludePrivate : Bool
  neverExposeFileNames : List String
  pathKeyPrefixes : List String

/-- `value.startsWith(start)` -/
def startsWith (value start : String) : Bool :=
  start.toList.isPrefixOf value.toList

/-- What is left of a text without the separators that it ends with. -/
def trimSeparators (chars : List Char) : List Char :=
  (chars.reverse.dropWhile (· = '/')).reverse

/-- What follows the last separator. -/
def fileName (chars : List Char) : List Char :=
  (chars.reverse.takeWhile (· ≠ '/')).reverse

section Tables

variable (u : UnicodeTables)

/-- The normal form in lower case. -/
def normalized (value : String) : String :=
  u.toLowerCase (u.nfc value)

def folderKey (value : String) : String :=
  String.ofList (trimSeparators (normalized u value).toList ++ ['/'])

/-- Folders that are in no other. -/
def minimalPrefixes (values : List String) : List String :=
  let unique := Utf16.sortBy id values.dedup
  unique.filter (fun candidate => !unique.any (fun other =>
    other ≠ candidate && startsWith candidate other))

def intersectPrefixes (grantedPrefixes profileRoots : List String) : List String :=
  let profilePrefixes := profileRoots.map (folderKey u)
  if grantedPrefixes = [] then minimalPrefixes profilePrefixes
  else
    minimalPrefixes ((grantedPrefixes.map (folderKey u)).flatMap (fun grant =>
      profilePrefixes.flatMap (fun profile =>
        if startsWith profile grant then [profile]
        else if startsWith grant profile then [grant] else [])))

def agentVisibilityForGrant (grant : VisibilityGrant) : AgentVisibility :=
  match grant.runtimeProfile with
  | none =>
      { denyAll := false, excludePrivate := false, neverExposeFileNames := []
        pathKeyPrefixes := grant.pathKeyPrefixes }
  | some profile =>
      let pathKeyPrefixes := intersectPrefixes u grant.pathKeyPrefixes profile.contentRoots
      { denyAll := pathKeyPrefixes.isEmpty, excludePrivate := true
        neverExposeFileNames := profile.neverExposeFileNames.map (normalized u)
        pathKeyPrefixes := pathKeyPrefixes }

def visibilityAllowsPath (visibility : AgentVisibility) (pathKey : String) : Bool :=
  let key := normalized u pathKey
  !visibility.denyAll &&
    !visibility.neverExposeFileNames.contains (String.ofList (fileName key.toList)) &&
    (visibility.pathKeyPrefixes.isEmpty ||
      visibility.pathKeyPrefixes.any (fun start => startsWith key start))

/-! ## The folders of a grant -/

/-- A note that stands for a folder. -/
def agentScopeFile : String := "__owd_agent_scope__.md"

/-- The folder of such a note. -/
def withoutScopeFile (path : String) : String :=
  String.ofList (path.toList.take (path.length - agentScopeFile.length))

/-- A folder, and its key. -/
def normalizePathPrefix (raw : String) : Except VaultPathFailureReason (String × String) :=
  let directory := if raw.toList.getLast? = some '/' then String.ofList raw.toList.dropLast else raw
  match validateMarkdownVaultPath u (directory ++ "/" ++ agentScopeFile) with
  | .error reason => .error reason
  | .ok sentinel => .ok (withoutScopeFile sentinel.path, withoutScopeFile sentinel.pathKey)

/-- The keys of the folders of a grant. None stands for the whole vault. -/
def normalizePathPrefixes (values : List String) : Except VaultPathFailureReason (List String) :=
  if values = [] ∨ "" ∈ values then .ok []
  else
    match values.mapM (normalizePathPrefix u) with
    | .error reason => .error reason
    | .ok prefixes => .ok (minimalPrefixes (prefixes.map Prod.snd))

end Tables

/-! ## Notes -/

/-- What of a note tells whether an agent may see it. -/
structure MaterializedNote where
  pathKey : String
  agentPrivate : Bool

def visibilityAllowsMaterializedNote (visibility : AgentVisibility) (note : MaterializedNote) :
    Bool :=
  !visibility.denyAll && !(visibility.excludePrivate && note.agentPrivate) &&
    !visibility.neverExposeFileNames.contains (String.ofList (fileName note.pathKey.toList)) &&
    (visibility.pathKeyPrefixes.isEmpty ||
      visibility.pathKeyPrefixes.any (fun start => startsWith note.pathKey start))

/-- A condition of a query on the key of a path. -/
inductive PathClause
  | constant (holds : Bool)
  | likeAny (patterns : List (List Char))
  | neither (names : List (String × List Char))

def PathClause.admits (pathKey : String) : PathClause → Bool
  | constant holds => holds
  | likeAny patterns => patterns.any (fun pattern => Like.like '\\' pattern pathKey.toList)
  | neither names => names.all (fun name =>
      pathKey ≠ name.1 && !Like.like '\\' name.2 pathKey.toList)

def escapeLikePrefix (start : String) : List Char :=
  Like.escaped start.toList ++ ['%']

def scopedPathClause (pathKeyPrefixes : List String) : PathClause :=
  if pathKeyPrefixes = [] then .constant true
  else .likeAny (pathKeyPrefixes.map escapeLikePrefix)

def excludedFileNameClause (fileNames : List String) : PathClause :=
  if fileNames = [] then .constant true
  else .neither (fileNames.map (fun name => (name, ['%', '/'] ++ Like.escaped name.toList)))

/-- The filter of the queries that search and list notes. -/
def scopedFilter (visibility : AgentVisibility) (note : MaterializedNote) : Bool :=
  let scope :=
    if visibility.denyAll then .constant false else scopedPathClause visibility.pathKeyPrefixes
  scope.admits note.pathKey && (!visibility.excludePrivate || !note.agentPrivate) &&
    (excludedFileNameClause visibility.neverExposeFileNames).admits note.pathKey

/-! ## Keys -/

section Characters

variable (u : UnicodeTables)

def lowerChars (chars : List Char) : List Char :=
  (u.toLowerCase (String.ofList chars)).toList

def nfcChars (chars : List Char) : List Char :=
  (u.nfc (String.ofList chars)).toList

/-- What is relied on of the tables of characters: the lower case of a text has no capitals
    of ASCII, texts of ASCII without capitals are their own lower case, and a separator
    stays where it is and parts what is in front of it from what comes after. -/
structure Lawful : Prop where
  lower : ∀ chars, ∀ c ∈ lowerChars u chars, c.toLower = c
  lower_plain : ∀ chars : List Char, (∀ c ∈ chars, c.toNat < 128 ∧ c.toLower = c) →
    lowerChars u chars = chars
  lower_separator : ∀ front rest,
    lowerChars u (front ++ '/' :: rest) = lowerChars u front ++ '/' :: lowerChars u rest
  nfc_separator : ∀ front rest,
    nfcChars u (front ++ '/' :: rest) = nfcChars u front ++ '/' :: nfcChars u rest
  lower_segment : ∀ chars, '/' ∉ chars → '/' ∉ lowerChars u chars
  nfc_segment : ∀ chars, '/' ∉ chars → '/' ∉ nfcChars u chars
  lower_nonempty : ∀ chars, chars ≠ [] → lowerChars u chars ≠ []

theorem normalized_toList (s : String) :
    (normalized u s).toList = lowerChars u (nfcChars u s.toList) := by
  rw [lowerChars, nfcChars, String.ofList_toList, String.ofList_toList]
  rfl

end Characters

/-- A text without capitals of ASCII. -/
def Uncapitalized (s : String) : Prop :=
  ∀ c ∈ s.toList, c.toLower = c

theorem uncapitalized_map (s : String) (h : Uncapitalized s) :
    s.toList.map Char.toLower = s.toList := by
  have hsame := List.map_congr_left h
  rw [hsame, List.map_id']

/-- The last segment of a key is a name where the key is the name or ends with it. -/
theorem fileName_eq_iff (chars name : List Char) (hname : '/' ∉ name) :
    fileName chars = name ↔ chars = name ∨ '/' :: name <:+ chars := by
  have hall : ∀ c ∈ name.reverse, decide (c ≠ '/') = true := by
    intro c hc
    refine decide_eq_true (fun heq => hname ?_)
    exact heq ▸ List.mem_reverse.mp hc
  constructor
  · intro h
    have hsplit := List.takeWhile_append_dropWhile (p := (· ≠ '/')) (l := chars.reverse)
    have htake : chars.reverse.takeWhile (· ≠ '/') = name.reverse := by
      rw [← h, fileName, List.reverse_reverse]
    rw [htake] at hsplit
    cases hdrop : chars.reverse.dropWhile (· ≠ '/') with
    | nil =>
        rw [hdrop, List.append_nil] at hsplit
        exact Or.inl (List.reverse_injective hsplit.symm)
    | cons c rest =>
        have hc : c = '/' := by
          have hhead := List.head?_dropWhile_not (fun c => decide (c ≠ '/')) chars.reverse
          rw [hdrop] at hhead
          simpa using hhead
        rw [hdrop, hc] at hsplit
        refine Or.inr ⟨rest.reverse, ?_⟩
        rw [← List.reverse_reverse chars, ← hsplit, List.reverse_append, List.reverse_cons,
          List.reverse_reverse, List.append_assoc, List.singleton_append]
  · rintro (rfl | ⟨front, rfl⟩)
    · rw [fileName, List.takeWhile_eq_self_iff.mpr hall, List.reverse_reverse]
    · rw [fileName, List.reverse_append, List.reverse_cons, List.append_assoc,
        List.takeWhile_append_of_pos hall, List.singleton_append,
        List.takeWhile_cons_of_neg (by decide), List.append_nil, List.reverse_reverse]

/-- What a list is turned into, if nothing of it fails. -/
theorem mem_of_mapM_ok {α β ε : Type} (f : α → Except ε β) (values : List α) (results : List β)
    (h : values.mapM f = .ok results) (b : β) (hb : b ∈ results) : ∃ a ∈ values, f a = .ok b := by
  induction values generalizing results with
  | nil =>
      rw [List.mapM_nil] at h
      rw [← Except.ok.inj h] at hb
      exact absurd hb List.not_mem_nil
  | cons a values ih =>
      rw [List.mapM_cons] at h
      cases ha : f a with
      | error e => rw [ha] at h; cases h
      | ok b' =>
          cases hrest : values.mapM f with
          | error e => rw [ha, hrest] at h; cases h
          | ok results' =>
              rw [ha, hrest] at h
              rw [← Except.ok.inj h] at hb
              rcases List.mem_cons.mp hb with rfl | hb
              · exact ⟨a, List.mem_cons_self, ha⟩
              · rcases ih results' hrest hb with ⟨a', ha', hok⟩
                exact ⟨a', List.mem_cons_of_mem a ha', hok⟩

theorem mem_minimalPrefixes (values : List String) (s : String) (h : s ∈ minimalPrefixes values) :
    s ∈ values := by
  have hunique := (List.mem_filter.mp h).1
  exact List.mem_dedup.mp ((Utf16.sortBy_perm id values.dedup).subset hunique)

section Tables

variable (u : UnicodeTables) (hu : Lawful u)

include hu

theorem folderKey_uncapitalized (value : String) : Uncapitalized (folderKey u value) := by
  intro c hc
  rw [folderKey, String.toList_ofList] at hc
  rcases List.mem_append.mp hc with hc | hc
  · have hmem := List.dropWhile_subset _ (List.mem_reverse.mp hc)
    rw [List.mem_reverse, normalized_toList] at hmem
    exact hu.lower _ c hmem
  · rw [List.mem_singleton.mp hc]
    decide

omit hu in
/-- What folders have in common is the key of a folder. -/
theorem mem_intersectPrefixes (granted roots : List String) (s : String)
    (h : s ∈ intersectPrefixes u granted roots) : ∃ value, s = folderKey u value := by
  have hkeys : ∀ values : List String, ∀ t ∈ values.map (folderKey u), ∃ value,
      t = folderKey u value := by
    intro values t ht
    rcases List.mem_map.mp ht with ⟨value, -, rfl⟩
    exact ⟨value, rfl⟩
  unfold intersectPrefixes at h
  dsimp only at h
  split at h
  · exact hkeys _ s (mem_minimalPrefixes _ s h)
  · rcases List.mem_flatMap.mp (mem_minimalPrefixes _ s h) with ⟨grant, hgrant, hs⟩
    rcases List.mem_flatMap.mp hs with ⟨profile, hprofile, hs⟩
    split at hs
    · exact List.mem_singleton.mp hs ▸ hkeys _ profile hprofile
    · split at hs
      · exact List.mem_singleton.mp hs ▸ hkeys _ grant hgrant
      · exact absurd hs List.not_mem_nil

omit hu in
/-- The key of a folder of a grant is cut from that of a note. -/
theorem mem_normalizePathPrefixes (values keys : List String)
    (h : normalizePathPrefixes u values = .ok keys) (s : String) (hs : s ∈ keys) :
    ∃ directory, s = withoutScopeFile (u.toLowerCase (directory ++ "/" ++ agentScopeFile)) := by
  unfold normalizePathPrefixes at h
  split at h
  · rw [← Except.ok.inj h] at hs
    exact absurd hs List.not_mem_nil
  · split at h
    · cases h
    · next prefixes hprefixes =>
      rw [← Except.ok.inj h] at hs
      rcases List.mem_map.mp (mem_minimalPrefixes _ s hs) with ⟨pair, hpair, rfl⟩
      rcases mem_of_mapM_ok _ values prefixes hprefixes pair hpair with ⟨raw, -, hraw⟩
      unfold normalizePathPrefix at hraw
      dsimp only at hraw
      split at hraw
      · cases hraw
      · next sentinel hsentinel =>
        rw [← Except.ok.inj hraw]
        have hkey := (Vault.validateMarkdownVaultPath_path u _ sentinel hsentinel).2
        exact ⟨_, congrArg withoutScopeFile hkey⟩

omit hu in
theorem agentScopeFile_eq : agentScopeFile = String.ofList ['_', '_', 'o', 'w', 'd', '_', 'a',
    'g', 'e', 'n', 't', '_', 's', 'c', 'o', 'p', 'e', '_', '_', '.', 'm', 'd'] :=
  rfl

/-- In lower case, that note is in the folder in lower case. -/
theorem lower_scopeFile (directory : String) :
    (u.toLowerCase (directory ++ "/" ++ agentScopeFile)).toList =
      lowerChars u directory.toList ++ '/' :: agentScopeFile.toList := by
  have hscope : lowerChars u agentScopeFile.toList = agentScopeFile.toList := by
    have hplain : agentScopeFile.toList.all (fun c => c.toNat < 128 ∧ c.toLower = c) = true := by
      rw [agentScopeFile_eq, String.toList_ofList]
      decide
    exact hu.lower_plain _ (fun c hc => of_decide_eq_true (List.all_eq_true.mp hplain c hc))
  have hpath : (directory ++ "/" ++ agentScopeFile).toList =
      directory.toList ++ '/' :: agentScopeFile.toList := by
    have hslash : "/".toList = ['/'] := rfl
    rw [String.toList_append, String.toList_append, List.append_assoc, hslash,
      List.singleton_append]
  rw [← String.ofList_toList (s := (directory ++ "/" ++ agentScopeFile)), hpath]
  exact (hu.lower_separator _ _).trans (by rw [hscope])

theorem withoutScopeFile_lower (directory : String) :
    (withoutScopeFile (u.toLowerCase (directory ++ "/" ++ agentScopeFile))).toList =
      lowerChars u directory.toList ++ ['/'] := by
  have hlength : ∀ front : List Char,
      (front ++ agentScopeFile.toList).length - agentScopeFile.length = front.length := by
    intro front
    rw [List.length_append, String.length_toList, Nat.add_sub_cancel]
  rw [withoutScopeFile, String.toList_ofList, ← String.length_toList, lower_scopeFile u hu,
    List.append_cons, hlength]
  exact List.take_left

/-- The key of a folder of a grant. -/
theorem normalizePathPrefixes_uncapitalized (values keys : List String)
    (h : normalizePathPrefixes u values = .ok keys) (s : String) (hs : s ∈ keys) :
    Uncapitalized s := by
  rcases mem_normalizePathPrefixes u values keys h s hs with ⟨directory, rfl⟩
  intro c hc
  rw [withoutScopeFile_lower u hu] at hc
  rcases List.mem_append.mp hc with hc | hc
  · exact hu.lower _ c hc
  · rw [List.mem_singleton.mp hc]
    decide

/-- What a grant of folders lets an agent see is told by texts without capitals. -/
theorem visibility_uncapitalized (grant : VisibilityGrant) (values : List String)
    (hgrant : normalizePathPrefixes u values = .ok grant.pathKeyPrefixes) :
    (∀ s ∈ (agentVisibilityForGrant u grant).pathKeyPrefixes, Uncapitalized s) ∧
      ∀ s ∈ (agentVisibilityForGrant u grant).neverExposeFileNames,
        Uncapitalized s ∧ '/' ∉ s.toList := by
  unfold agentVisibilityForGrant
  cases hprofile : grant.runtimeProfile with
  | none =>
      refine ⟨fun s hs => ?_, fun s hs => absurd hs List.not_mem_nil⟩
      exact normalizePathPrefixes_uncapitalized u hu values _ hgrant s hs
  | some profile =>
      refine ⟨fun s hs => ?_, fun s hs => ?_⟩
      · rcases mem_intersectPrefixes u _ _ s hs with ⟨value, rfl⟩
        exact folderKey_uncapitalized u hu value
      · rcases List.mem_map.mp hs with ⟨name, hname, rfl⟩
        have hplain := List.all_eq_true.mp profile.plain name hname
        rw [Uncapitalized, normalized_toList]
        exact ⟨hu.lower _, hu.lower_segment _ (hu.nfc_segment _ (of_decide_eq_true hplain))⟩

end Tables

/-! ## The filter and the tests -/

theorem any_eq_any (values : List String) (f g : String → Bool) (h : ∀ s ∈ values, f s = g s) :
    values.any f = values.any g := by
  induction values with
  | nil => rfl
  | cons s values ih =>
      rw [List.any_cons, List.any_cons, h s List.mem_cons_self,
        ih (fun t ht => h t (List.mem_cons_of_mem s ht))]

theorem all_eq_all (values : List String) (f g : String → Bool) (h : ∀ s ∈ values, f s = g s) :
    values.all f = values.all g := by
  rw [List.all_eq_not_any_not, List.all_eq_not_any_not]
  refine congrArg not (any_eq_any values _ _ (fun s hs => ?_))
  rw [h s hs]

theorem scopedPathClause_admits (pathKey : String) (prefixes : List String)
    (hkey : Uncapitalized pathKey) (hprefixes : ∀ s ∈ prefixes, Uncapitalized s) :
    (scopedPathClause prefixes).admits pathKey =
      (prefixes.isEmpty || prefixes.any (fun start => startsWith pathKey start)) := by
  have hone : ∀ s ∈ prefixes, Like.like '\\' (escapeLikePrefix s) pathKey.toList =
      startsWith pathKey s := by
    intro s hs
    rw [Bool.eq_iff_iff, escapeLikePrefix, Like.like_escaped_percent,
      uncapitalized_map pathKey hkey, uncapitalized_map s (hprefixes s hs), startsWith,
      List.isPrefixOf_iff_prefix]
  unfold scopedPathClause
  split
  · next hnil =>
    rw [hnil]
    rfl
  · next hne =>
    rw [PathClause.admits, List.any_map, List.isEmpty_eq_false_iff.mpr hne, Bool.false_or]
    exact any_eq_any prefixes _ _ hone

theorem excludedFileNameClause_admits (pathKey : String) (names : List String)
    (hkey : Uncapitalized pathKey) (hnames : ∀ s ∈ names, Uncapitalized s ∧ '/' ∉ s.toList) :
    (excludedFileNameClause names).admits pathKey =
      !names.contains (String.ofList (fileName pathKey.toList)) := by
  have hone : ∀ name ∈ names,
      (decide (pathKey ≠ name) && !Like.like '\\' (['%', '/'] ++ Like.escaped name.toList)
        pathKey.toList) = decide (String.ofList (fileName pathKey.toList) ≠ name) := by
    intro name hname
    have hpattern : ['%', '/'] ++ Like.escaped name.toList =
        '%' :: Like.escaped ('/' :: name.toList) := by
      rw [Like.escaped_eq, Like.escaped_eq, List.flatMap_cons]
      rfl
    have hlike := Like.like_percent_escaped ('/' :: name.toList) pathKey.toList
    rw [List.map_cons, uncapitalized_map pathKey hkey,
      uncapitalized_map name (hnames name hname).1] at hlike
    have hfile := fileName_eq_iff pathKey.toList name.toList (hnames name hname).2
    have hof : String.ofList (fileName pathKey.toList) = name ↔
        fileName pathKey.toList = name.toList := by
      rw [← String.toList_inj, String.toList_ofList]
    rw [Bool.eq_iff_iff, Bool.and_eq_true, Bool.not_eq_true', hpattern, decide_eq_true_eq,
      decide_eq_true_eq, ← Bool.not_eq_true, hlike, ne_eq, ne_eq, hof, hfile, String.toList_inj,
      not_or]
    rfl
  unfold excludedFileNameClause
  split
  · next hnil =>
    rw [hnil]
    rfl
  · rw [PathClause.admits, List.all_map]
    have hall : names.all (fun name => decide (String.ofList (fileName pathKey.toList) ≠ name)) =
        !names.contains (String.ofList (fileName pathKey.toList)) := by
      rw [Bool.eq_iff_iff, List.all_eq_true, Bool.not_eq_true', ← Bool.not_eq_true,
        List.contains_iff_mem]
      constructor
      · intro h hmem
        exact of_decide_eq_true (h _ hmem) rfl
      · exact fun h name hname => decide_eq_true (fun heq => h (heq ▸ hname))
    rw [← hall]
    exact all_eq_all names _ _ hone

/-- The filter of the queries and the test of a note agree. -/
theorem scopedFilter_eq (visibility : AgentVisibility) (note : MaterializedNote)
    (hkey : Uncapitalized note.pathKey)
    (hprefixes : ∀ s ∈ visibility.pathKeyPrefixes, Uncapitalized s)
    (hnames : ∀ s ∈ visibility.neverExposeFileNames, Uncapitalized s ∧ '/' ∉ s.toList) :
    scopedFilter visibility note = visibilityAllowsMaterializedNote visibility note := by
  unfold scopedFilter visibilityAllowsMaterializedNote
  dsimp only
  rw [excludedFileNameClause_admits _ _ hkey hnames]
  cases hdeny : visibility.denyAll with
  | true => rfl
  | false =>
      rw [if_neg Bool.false_ne_true, scopedPathClause_admits _ _ hkey hprefixes, Bool.not_false,
        Bool.true_and, Bool.not_and, Bool.and_assoc]
      exact Bool.and_comm _ _

/-- Where a key is in normal form, so is what the test of a path looks at. -/
theorem visible_of_stable (u : UnicodeTables) (visibility : AgentVisibility)
    (note : MaterializedNote) (hstable : normalized u note.pathKey = note.pathKey)
    (h : visibilityAllowsMaterializedNote visibility note = true) :
    visibilityAllowsPath u visibility note.pathKey = true := by
  unfold visibilityAllowsMaterializedNote at h
  unfold visibilityAllowsPath
  dsimp only
  rw [hstable]
  simp only [Bool.and_eq_true] at h ⊢
  exact ⟨⟨h.1.1.1, h.1.2⟩, h.2⟩

/-- The note at a path of a vault. -/
def noteAt (v : ValidatedVaultPath) (agentPrivate : Bool) : MaterializedNote :=
  { pathKey := v.pathKey, agentPrivate := agentPrivate }

/-! ## Keys that are not in normal form -/

/-- A text is parted at its last separator. -/
theorem split_last (chars : List Char) (h : '/' ∈ chars) :
    ∃ front rest, chars = front ++ '/' :: rest ∧ '/' ∉ rest := by
  induction chars with
  | nil => exact absurd h List.not_mem_nil
  | cons c chars ih =>
      by_cases hmem : '/' ∈ chars
      · rcases ih hmem with ⟨front, rest, rfl, hrest⟩
        exact ⟨c :: front, rest, rfl, hrest⟩
      · rcases List.mem_cons.mp h with rfl | hmem'
        · exact ⟨[], chars, rfl, hmem⟩
        · exact absurd hmem' hmem

/-- There is one way to do so. -/
theorem split_inj (front front' rest rest' : List Char) (hrest : '/' ∉ rest) (hrest' : '/' ∉ rest')
    (h : front ++ '/' :: rest = front' ++ '/' :: rest') : front = front' ∧ rest = rest' := by
  have hname := (fileName_eq_iff (front ++ '/' :: rest) rest hrest).mpr (Or.inr ⟨front, rfl⟩)
  have hname' := (fileName_eq_iff (front ++ '/' :: rest) rest' hrest').mpr (Or.inr ⟨front', h.symm⟩)
  have hsame : rest = rest' := hname.symm.trans hname'
  rw [hsame] at h
  exact ⟨List.append_cancel_right h, hsame⟩

section Stable

variable (u : UnicodeTables) (hu : Lawful u)

include hu

/-- Bringing a text into normal form parts at separators too, and keeps their number. -/
theorem normalizedChars_separator (front rest : List Char) :
    lowerChars u (nfcChars u (front ++ '/' :: rest)) =
      lowerChars u (nfcChars u front) ++ '/' :: lowerChars u (nfcChars u rest) := by
  rw [hu.nfc_separator, hu.lower_separator]

theorem normalizedChars_segment (chars : List Char) (h : '/' ∉ chars) :
    '/' ∉ lowerChars u (nfcChars u chars) :=
  hu.lower_segment _ (hu.nfc_segment _ h)

theorem count_normalizedChars (n : Nat) (chars : List Char) (hn : chars.count '/' = n) :
    (lowerChars u (nfcChars u chars)).count '/' = n := by
  induction n generalizing chars with
  | zero =>
      have hnone := normalizedChars_segment u hu chars (List.count_eq_zero.mp hn)
      exact List.count_eq_zero.mpr hnone
  | succ n ih =>
      have hmem : '/' ∈ chars := List.count_pos_iff.mp (by omega)
      rcases split_last chars hmem with ⟨front, rest, rfl, hrest⟩
      rw [List.count_append, List.count_cons_self, List.count_eq_zero.mpr hrest] at hn
      rw [normalizedChars_separator u hu, List.count_append, List.count_cons_self,
        ih front (by omega), List.count_eq_zero.mpr (normalizedChars_segment u hu rest hrest)]

omit hu in
theorem trimSeparators_eq_self (chars : List Char) (h : chars.getLast? ≠ some '/') :
    trimSeparators chars = chars := by
  have hhead : chars.reverse.head? ≠ some '/' := by
    rwa [List.head?_reverse]
  have hdrop : chars.reverse.dropWhile (· = '/') = chars.reverse := by
    cases hreverse : chars.reverse with
    | nil => rfl
    | cons c rest =>
        rw [hreverse, List.head?_cons, ne_eq, Option.some.injEq] at hhead
        exact List.dropWhile_cons_of_neg (by rw [decide_eq_true_eq]; exact hhead)
  rw [trimSeparators, hdrop, List.reverse_reverse]

omit hu in
/-- What a path that is accepted is like. -/
theorem accepted_path (path : String) (v : ValidatedVaultPath)
    (h : validateMarkdownVaultPath u path = .ok v) :
    nfcChars u path.toList = path.toList ∧ path.toList.head? ≠ some '/' ∧
      ¬ ['/', '/'] <:+: path.toList := by
  have hfault : Vault.pathFault u path = none := by
    unfold validateMarkdownVaultPath at h
    split at h
    · cases h
    · cases h
    · next hnone _ => exact hnone
  unfold Vault.pathFault at hfault
  dsimp only at hfault
  split at hfault
  · cases hfault
  split at hfault
  · cases hfault
  next hnfc =>
  rw [ne_eq, not_not] at hnfc
  iterate 4
    split at hfault
    · cases hfault
  split at hfault
  · cases hfault
  next habsolute =>
  split at hfault
  · cases hfault
  next hempty =>
  rw [Bool.or_eq_true, not_or, decide_eq_true_eq] at habsolute
  refine ⟨?_, habsolute.1, hempty⟩
  rw [nfcChars, String.ofList_toList, ← hnfc]

/-- A text that does not end with a separator does not in lower case either. -/
theorem lower_last (chars : List Char) (h : chars.getLast? ≠ some '/') :
    (lowerChars u chars).getLast? ≠ some '/' := by
  intro hlast
  by_cases hmem : '/' ∈ chars
  · rcases split_last chars hmem with ⟨init, segment, rfl, hsegment⟩
    -- Its last segment is not empty, and has no separator.
    have hne : segment ≠ [] := by
      rintro rfl
      exact h (by rw [List.getLast?_append_of_ne_nil _ (List.cons_ne_nil _ _)]; rfl)
    rw [hu.lower_separator, List.append_cons,
      List.getLast?_append_of_ne_nil _ (hu.lower_nonempty segment hne)] at hlast
    exact hu.lower_segment segment hsegment (List.mem_of_getLast? hlast)
  · exact hu.lower_segment chars hmem (List.mem_of_getLast? hlast)

/-- The folder of a note does not end with a separator, in lower case either. -/
theorem lower_folder (front rest : List Char)
    (hempty : ¬ ['/', '/'] <:+: front ++ '/' :: rest) :
    (lowerChars u front).getLast? ≠ some '/' := by
  refine lower_last u hu front (fun hlast => ?_)
  rcases List.getLast?_eq_some_iff.mp hlast with ⟨init, rfl⟩
  exact hempty ⟨init, rest, by simp only [List.append_assoc, List.cons_append, List.nil_append]⟩

omit hu in
theorem minimalPrefixes_singleton (s : String) : minimalPrefixes [s] = [s] := by
  have hsort : Utf16.sortBy id [s].dedup = [s] := rfl
  rw [minimalPrefixes, hsort, List.filter_singleton, List.any_cons, List.any_nil, Bool.or_false,
    decide_eq_false (not_not.mpr rfl)]
  rfl

/-- A profile whose folder is that of a note, and that hides another file of it. -/
def profileOf (folder : List Char) (hidden : Option (List Char)) (h : ∀ n ∈ hidden, '/' ∉ n) :
    RuntimeProfile where
  contentRoots := [String.ofList folder]
  neverExposeFileNames := hidden.toList.map String.ofList
  plain := by
    refine List.all_eq_true.mpr (fun name hname => decide_eq_true ?_)
    rcases List.mem_map.mp hname with ⟨n, hn, rfl⟩
    rw [String.toList_ofList]
    exact h n (Option.mem_toList.mp hn)

/-- A note in a folder whose key is not in normal form is admitted by a filter that the test
    of a path does not agree with. -/
theorem unstable_disagrees (path : String) (v : ValidatedVaultPath)
    (hpath : validateMarkdownVaultPath u path = .ok v) (hmem : '/' ∈ v.pathKey.toList)
    (hunstable : normalized u v.pathKey ≠ v.pathKey) :
    ∃ grant, normalizePathPrefixes u [] = .ok grant.pathKeyPrefixes ∧
      visibilityAllowsMaterializedNote (agentVisibilityForGrant u grant) (noteAt v false) = true ∧
      visibilityAllowsPath u (agentVisibilityForGrant u grant) v.pathKey = false := by
  rcases accepted_path u path v hpath with ⟨hnfc, hhead, hempty⟩
  have hkey : v.pathKey.toList = lowerChars u path.toList := by
    rw [(Vault.validateMarkdownVaultPath_path u path v hpath).2, lowerChars, String.ofList_toList]
  have hslash : '/' ∈ path.toList := by
    by_contra hnone
    exact hu.lower_segment _ hnone (hkey ▸ hmem)
  rcases split_last path.toList hslash with ⟨folder, name, hsplit, hname⟩
  rw [hsplit] at hnfc hhead hempty hkey
  rw [hu.nfc_separator] at hnfc
  have hfolder := (split_inj _ _ _ _ (hu.nfc_segment name hname) hname hnfc).1
  rw [hu.lower_separator] at hkey
  have hplain := hu.lower_segment name hname
  have hplain' := normalizedChars_segment u hu _ hplain
  -- What the test of a path looks at.
  have hnormal : (normalized u v.pathKey).toList =
      lowerChars u (nfcChars u (lowerChars u folder)) ++
        '/' :: lowerChars u (nfcChars u (lowerChars u name)) := by
    rw [normalized_toList, hkey, normalizedChars_separator u hu]
  have hfile : fileName v.pathKey.toList = lowerChars u name :=
    (fileName_eq_iff _ _ hplain).mpr (Or.inr ⟨_, hkey.symm⟩)
  have hfile' : fileName (normalized u v.pathKey).toList =
      lowerChars u (nfcChars u (lowerChars u name)) :=
    (fileName_eq_iff _ _ hplain').mpr (Or.inr ⟨_, hnormal.symm⟩)
  have hroot : folderKey u (String.ofList folder) = String.ofList (lowerChars u folder ++ ['/']) := by
    rw [folderKey, normalized_toList, String.toList_ofList, hfolder,
      trimSeparators_eq_self _ (lower_folder u hu folder name hempty)]
  have hprefixes : intersectPrefixes u [] [String.ofList folder] =
      [String.ofList (lowerChars u folder ++ ['/'])] := by
    rw [intersectPrefixes, List.map_singleton, hroot]
    exact minimalPrefixes_singleton _
  have hstarts : startsWith v.pathKey (String.ofList (lowerChars u folder ++ ['/'])) = true := by
    rw [startsWith, String.toList_ofList, List.isPrefixOf_iff_prefix, hkey]
    exact ⟨lowerChars u name, by rw [List.append_assoc]; rfl⟩
  by_cases hsame : lowerChars u (nfcChars u (lowerChars u name)) = lowerChars u name
  · -- The folder is what moves.
    have hfolder' : lowerChars u (nfcChars u (lowerChars u folder)) ≠ lowerChars u folder := by
      intro heq
      refine hunstable (String.toList_inj.mp ?_)
      rw [hnormal, hkey, heq, hsame]
    refine ⟨{ pathKeyPrefixes := [], runtimeProfile := some (profileOf folder none nofun) },
      rfl, ?_, ?_⟩
    · simp only [visibilityAllowsMaterializedNote, agentVisibilityForGrant, profileOf, hprefixes,
        noteAt, List.isEmpty_cons, List.any_cons, hstarts, Option.toList_none, List.map_nil,
        List.contains_nil, Bool.not_false, Bool.and_false, Bool.true_or, Bool.or_true, Bool.and_self]
    · have hnot : startsWith (normalized u v.pathKey)
          (String.ofList (lowerChars u folder ++ ['/'])) = false := by
        rw [← Bool.not_eq_true, startsWith, String.toList_ofList, List.isPrefixOf_iff_prefix, hnormal]
        rintro ⟨rest, hrest⟩
        rw [List.append_assoc, List.singleton_append] at hrest
        have hcount := congrArg (List.count '/') hrest
        rw [List.count_append, List.count_append, List.count_cons_self, List.count_cons_self,
          count_normalizedChars u hu _ _ rfl, List.count_eq_zero.mpr hplain'] at hcount
        have hnone : '/' ∉ rest := List.count_eq_zero.mp (by omega)
        exact hfolder' (split_inj _ _ _ _ hnone hplain' hrest).1.symm
      simp only [visibilityAllowsPath, agentVisibilityForGrant, profileOf, hprefixes,
        List.isEmpty_cons, List.any_cons, List.any_nil, hnot, Bool.or_self, Bool.and_false]
  · -- The name of the file is what moves.
    have hhidden : ∀ n ∈ some (lowerChars u name), '/' ∉ n := by
      intro n hn
      rw [← Option.some.inj hn]
      exact hplain
    have hnames : normalized u (String.ofList (lowerChars u name)) =
        String.ofList (lowerChars u (nfcChars u (lowerChars u name))) := by
      rw [← String.toList_inj, normalized_toList, String.toList_ofList, String.toList_ofList]
    refine ⟨{ pathKeyPrefixes := []
              runtimeProfile := some (profileOf folder (some (lowerChars u name)) hhidden) },
      rfl, ?_, ?_⟩
    · have hnot : [String.ofList (lowerChars u (nfcChars u (lowerChars u name)))].contains
          (String.ofList (fileName v.pathKey.toList)) = false := by
        rw [hfile, ← Bool.not_eq_true, List.contains_iff_mem, List.mem_singleton,
          String.ofList_inj]
        exact fun heq => hsame heq.symm
      simp only [visibilityAllowsMaterializedNote, agentVisibilityForGrant, profileOf, hprefixes,
        noteAt, List.isEmpty_cons, List.any_cons, hstarts, Option.toList_some, List.map_cons,
        List.map_nil, hnames, hnot, Bool.not_false, Bool.and_false, Bool.true_or, Bool.or_true,
        Bool.and_self]
    · have hhides : [String.ofList (lowerChars u (nfcChars u (lowerChars u name)))].contains
          (String.ofList (fileName (normalized u v.pathKey).toList)) = true := by
        rw [hfile', List.contains_iff_mem, List.mem_singleton]
      simp only [visibilityAllowsPath, agentVisibilityForGrant, profileOf, hprefixes,
        List.isEmpty_cons, Option.toList_some, List.map_cons, List.map_nil, hnames, hhides,
        Bool.not_true, Bool.and_false, Bool.false_and]

/-- A note that is in no folder is seen where the whole vault is, and every test says so. -/
theorem root_visible (grant : VisibilityGrant) (values : List String)
    (hgrant : normalizePathPrefixes u values = .ok grant.pathKeyPrefixes) (note : MaterializedNote)
    (hroot : '/' ∉ note.pathKey.toList)
    (h : visibilityAllowsMaterializedNote (agentVisibilityForGrant u grant) note = true) :
    visibilityAllowsPath u (agentVisibilityForGrant u grant) note.pathKey = true := by
  -- A key that begins with a folder has a separator.
  have hnone : ∀ (keys : List String), (∀ s ∈ keys, '/' ∈ s.toList) →
      keys.any (fun start => startsWith note.pathKey start) = false := by
    intro keys hkeys
    rw [List.any_eq_false]
    intro s hs hstarts
    rw [startsWith, List.isPrefixOf_iff_prefix] at hstarts
    exact hroot (hstarts.subset (hkeys s hs))
  unfold visibilityAllowsMaterializedNote at h
  unfold visibilityAllowsPath
  unfold agentVisibilityForGrant at h ⊢
  cases hprofile : grant.runtimeProfile with
  | none =>
      simp only [hprofile, Bool.and_eq_true, Bool.or_eq_true] at h ⊢
      have hempty : grant.pathKeyPrefixes.isEmpty = true := by
        refine h.2.resolve_right (fun hany => ?_)
        rw [hnone] at hany
        · cases hany
        · intro s hs
          rcases mem_normalizePathPrefixes u values _ hgrant s hs with ⟨directory, rfl⟩
          rw [withoutScopeFile_lower u hu]
          exact List.mem_append_right _ (List.mem_singleton_self _)
      exact ⟨⟨rfl, rfl⟩, Or.inl hempty⟩
  | some profile =>
      simp only [hprofile, Bool.and_eq_true, Bool.or_eq_true, Bool.not_eq_true'] at h
      have hany := h.2.resolve_left (fun hempty => by rw [h.1.1.1] at hempty; cases hempty)
      rw [hnone] at hany
      · cases hany
      · intro s hs
        rcases mem_intersectPrefixes u _ _ s hs with ⟨value, rfl⟩
        rw [folderKey, String.toList_ofList]
        exact List.mem_append_right _ (List.mem_singleton_self _)

end Stable

/-- The filter admits what the test of a note admits, for every grant and every note. What
    it admits the test of a path admits too, for every grant, exactly if the key of the note
    is in normal form or the note is in no folder. -/
theorem visibility_agrees (u : UnicodeTables) (hu : Lawful u) (path : String)
    (v : ValidatedVaultPath) (hpath : validateMarkdownVaultPath u path = .ok v) :
    (∀ (grant : VisibilityGrant) (values : List String) (agentPrivate : Bool),
      normalizePathPrefixes u values = .ok grant.pathKeyPrefixes →
      (scopedFilter (agentVisibilityForGrant u grant) (noteAt v agentPrivate) = true ↔
        visibilityAllowsMaterializedNote (agentVisibilityForGrant u grant)
          (noteAt v agentPrivate) = true)) ∧
      ((∀ (grant : VisibilityGrant) (values : List String) (agentPrivate : Bool),
        normalizePathPrefixes u values = .ok grant.pathKeyPrefixes →
        scopedFilter (agentVisibilityForGrant u grant) (noteAt v agentPrivate) = true →
        visibilityAllowsPath u (agentVisibilityForGrant u grant) v.pathKey = true) ↔
        normalized u v.pathKey = v.pathKey ∨ '/' ∉ v.pathKey.toList) := by
  have hsame : ∀ (grant : VisibilityGrant) (values : List String) (agentPrivate : Bool),
      normalizePathPrefixes u values = .ok grant.pathKeyPrefixes →
      scopedFilter (agentVisibilityForGrant u grant) (noteAt v agentPrivate) =
        visibilityAllowsMaterializedNote (agentVisibilityForGrant u grant)
          (noteAt v agentPrivate) := by
    intro grant values agentPrivate hgrant
    rcases visibility_uncapitalized u hu grant values hgrant with ⟨hprefixes, hnames⟩
    refine scopedFilter_eq _ _ (fun c hc => ?_) hprefixes hnames
    rw [noteAt, (Vault.validateMarkdownVaultPath_path u path v hpath).2,
      ← String.ofList_toList (s := path)] at hc
    exact hu.lower path.toList c hc
  refine ⟨fun grant values agentPrivate hgrant => by rw [hsame grant values _ hgrant], ?_⟩
  constructor
  · intro hall
    by_contra hnot
    rw [not_or, not_not] at hnot
    rcases unstable_disagrees u hu path v hpath hnot.2 hnot.1 with ⟨grant, hgrant, hnote, hpathKey⟩
    have hallowed := hall grant [] false hgrant ((hsame grant [] false hgrant).trans hnote)
    rw [hpathKey] at hallowed
    cases hallowed
  · rintro (hstable | hroot) grant values agentPrivate hgrant hadmits
    · rw [hsame grant values _ hgrant] at hadmits
      exact visible_of_stable u _ (noteAt v agentPrivate) hstable hadmits
    · rw [hsame grant values _ hgrant] at hadmits
      exact root_visible u hu grant values hgrant (noteAt v agentPrivate) hroot hadmits

/-! ## A letter that only has a capital in two parts -/

/-- A small j and a caron are one character in normal form. A capital J and a caron are
    not, and of other texts these tables know nothing. -/
def composeCaron : List Char → List Char
  | [] => []
  | [c] => [c]
  | c :: d :: rest =>
      if c = 'j' ∧ d = Char.ofNat 0x30C then Char.ofNat 0x1F0 :: composeCaron rest
      else c :: composeCaron (d :: rest)

def caronTables : UnicodeTables :=
  { nfc := fun s => String.ofList (composeCaron s.toList)
    toLowerCase := fun s => String.ofList (s.toList.map Char.toLower)
    isControlOrFormat := fun _ => false
    localeLe := fun left right => left ≤ right }

theorem composeCaron_separator (front rest : List Char) :
    composeCaron (front ++ '/' :: rest) = composeCaron front ++ '/' :: composeCaron rest := by
  have hslash : composeCaron ('/' :: rest) = '/' :: composeCaron rest := by
    cases rest with
    | nil => rfl
    | cons d rest => rw [composeCaron, if_neg (fun h => absurd h.1 (by decide))]
  induction front using composeCaron.induct with
  | case1 => exact hslash
  | case2 c =>
      change composeCaron (c :: '/' :: rest) = c :: '/' :: composeCaron rest
      rw [composeCaron, if_neg (fun h => absurd h.2 (by decide)), hslash]
  | case3 c d front hcaron ih =>
      change composeCaron (c :: d :: (front ++ '/' :: rest)) = _
      rw [composeCaron, if_pos hcaron, composeCaron, if_pos hcaron, ih]
      rfl
  | case4 c d front hplain ih =>
      change composeCaron (c :: d :: (front ++ '/' :: rest)) = _
      rw [composeCaron, if_neg hplain, composeCaron, if_neg hplain]
      exact congrArg (c :: ·) ih

/-- Only the letter with the caron is new. -/
theorem composeCaron_mem (x : Char) (hx : x ≠ Char.ofNat 0x1F0) (chars : List Char)
    (h : x ∈ composeCaron chars) : x ∈ chars := by
  induction chars using composeCaron.induct with
  | case1 => exact h
  | case2 c => exact h
  | case3 c d rest hcaron ih =>
      rw [composeCaron, if_pos hcaron] at h
      rcases List.mem_cons.mp h with hc | hrest
      · exact absurd hc hx
      · exact List.mem_cons_of_mem c (List.mem_cons_of_mem d (ih hrest))
  | case4 c d rest hplain ih =>
      rw [composeCaron, if_neg hplain] at h
      rcases List.mem_cons.mp h with rfl | hrest
      · exact List.mem_cons_self
      · exact List.mem_cons_of_mem c (ih hrest)

theorem toLower_small (c : Char) (h : ¬ (c.val ≥ 'A'.val ∧ c.val ≤ 'Z'.val)) : c.toLower = c := by
  unfold Char.toLower
  rw [dif_neg h]

/-- Lower case of ASCII. -/
theorem toLower_facts (c : Char) :
    c.toLower.toLower = c.toLower ∧ (c.toLower = '/' → c = '/') := by
  by_cases h : c.val ≥ 'A'.val ∧ c.val ≤ 'Z'.val
  · have hge : 65 ≤ c.val.toNat := h.1
    have hval : c.toLower.val.toNat = c.val.toNat + 32 := by
      have hle : c.val.toNat ≤ 90 := h.2
      have hstep : (32 : UInt32).toNat = 32 := rfl
      unfold Char.toLower
      rw [dif_pos h]
      change (c.val + 32).toNat = _
      rw [UInt32.toNat_add]
      omega
    refine ⟨toLower_small _ (fun hupper => ?_), fun heq => ?_⟩
    · have hle : c.toLower.val.toNat ≤ 90 := hupper.2
      omega
    · have hslash : '/'.val.toNat = 47 := rfl
      rw [heq] at hval
      omega
  · rw [toLower_small c h, toLower_small c h]
    exact ⟨rfl, id⟩

theorem caronTables_lawful : Lawful caronTables := by
  have hlower : ∀ chars, lowerChars caronTables chars = chars.map Char.toLower := by
    intro chars
    simp only [lowerChars, caronTables, String.toList_ofList]
  have hnfc : ∀ chars, nfcChars caronTables chars = composeCaron chars := by
    intro chars
    simp only [nfcChars, caronTables, String.toList_ofList]
  constructor
  · intro chars c hc
    rw [hlower] at hc
    rcases List.mem_map.mp hc with ⟨d, -, rfl⟩
    exact (toLower_facts d).1
  · intro chars h
    rw [hlower, List.map_congr_left (fun c hc => (h c hc).2), List.map_id']
  · intro front rest
    rw [hlower, hlower, hlower, List.map_append, List.map_cons]
    rfl
  · intro front rest
    rw [hnfc, hnfc, hnfc, composeCaron_separator]
  · intro chars h hmem
    rw [hlower] at hmem
    rcases List.mem_map.mp hmem with ⟨c, hc, heq⟩
    exact h ((toLower_facts c).2 heq ▸ hc)
  · intro chars h hmem
    rw [hnfc] at hmem
    exact h (composeCaron_mem _ (by decide) chars hmem)
  · intro chars h
    rw [hlower]
    exact fun hnil => h (List.map_eq_nil_iff.mp hnil)

/-- A folder that is called by a capital J with a caron, and a note in it. -/
def caronFolder : String := String.ofList ['J', Char.ofNat 0x30C]

def caronPath : String := String.ofList ['J', Char.ofNat 0x30C, '/', 'a', '.', 'm', 'd']

def caronKey : String := String.ofList ['j', Char.ofNat 0x30C, '/', 'a', '.', 'm', 'd']

/-- A grant for the folder admits the note to a search, but not by its path. -/
theorem caron_disagrees :
    validateMarkdownVaultPath caronTables caronPath = .ok ⟨caronPath, caronKey, "a"⟩ ∧
      normalizePathPrefixes caronTables [caronFolder] =
        .ok [String.ofList ['j', Char.ofNat 0x30C, '/']] ∧
      scopedFilter (agentVisibilityForGrant caronTables
        ⟨[String.ofList ['j', Char.ofNat 0x30C, '/']], none⟩) ⟨caronKey, false⟩ = true ∧
      visibilityAllowsPath caronTables (agentVisibilityForGrant caronTables
        ⟨[String.ofList ['j', Char.ofNat 0x30C, '/']], none⟩) caronKey = false := by
  decide +kernel

/-- What the tests agree on, at the same note. -/
theorem visibility_agrees_caron :
    ¬ ∀ (grant : VisibilityGrant) (values : List String) (agentPrivate : Bool),
      normalizePathPrefixes caronTables values = .ok grant.pathKeyPrefixes →
      scopedFilter (agentVisibilityForGrant caronTables grant)
        (noteAt ⟨caronPath, caronKey, "a"⟩ agentPrivate) = true →
      visibilityAllowsPath caronTables (agentVisibilityForGrant caronTables grant)
        caronKey = true := by
  rw [(visibility_agrees caronTables caronTables_lawful caronPath ⟨caronPath, caronKey, "a"⟩
    (by decide +kernel)).2]
  decide +kernel

end Mdevolved.Agent
