import Mdevolved.Agent.Intersection
import Mdevolved.Agent.Search
import Mdevolved.Lib.Json

/-!
# Context Policies

The policy of a project says in which folders of a vault its notes are, and which folders in
these are left out. Before a policy is used it is compiled: its folders are brought into normal
form and put in order, and are compared with each other, with a folder that bounds the project,
with the grant of an agent, and with the notes that the project starts from.

Folders and notes are compared with the grant by one test, the one for folders. So a note passes
whose name is never to be shown, and one that has the name of a folder of the grant.

## Main definitions

* `projectContextPolicySchema`, `knowledgeSpaceMemberSchema`: What is accepted.
* `normalizePrefix`, `sortedUniquePrefixes`: Folders in normal form and in order.
* `compileProjectContextPolicy`, `projectContextPolicyFromMember`: Compiling, and going back.
* `InFolder`: A key is in a folder, by segments.
* `Compiles`: What a compiled policy is to be like.

## Theorems

* `contextPathIncludes_iff`: How keys are compared with folders.
* `normalizePrefix_again`: A folder in normal form stays as it is.
* `compile_again`: So does a compiled policy.
* `compiles_iff`: A compiled policy is as it is to be if no note is hidden or named as a folder.
-/

namespace Mdevolved.Agent

open Vault (UnicodeTables ValidatedVaultPath validateMarkdownVaultPath)

/-! ## Policies -/

structure ProjectContextPolicy where
  excludePaths : List String
  format : String
  includePaths : List String
  projectId : Option String

def projectContextFormat : String := "mdevolved-project-context-v1"

def owdProjectContextFormat : String := "owd-project-context-v1"

def maxPolicyPathLength : Nat := 1024

/-- The folders of a policy, and of a member of a knowledge space. -/
def maxPrefixesPerVault : Nat := 32

def safeFolder (value : String) : Bool :=
  unitLength value.toList ≤ maxPolicyPathLength &&
    value.toList.all (fun c => 0x1F < c.toNat && c.toNat ≠ 0x7F)

/-- The texts of an array. -/
def textItems : Option Json → Option (List String)
  | some (.arr items) =>
      items.mapM (fun item =>
        match item with
        | .str text => some text
        | _ => none)
  | _ => none

section Policies

variable (uuid : String → Bool)

/-- An identifier may be left out, or is one. -/
def optionalId : Option Json → Option (Option String)
  | none => some none
  | some (.str id) => if uuid id then some (some id) else none
  | some _ => none

/-- What is checked of a policy. -/
def soundPolicy (policy : ProjectContextPolicy) : Bool :=
  policy.excludePaths.all (fun value => safeFolder value && value ≠ "") &&
    policy.excludePaths.length ≤ maxPrefixesPerVault && decide policy.excludePaths.Nodup &&
    (policy.format = projectContextFormat || policy.format = owdProjectContextFormat) &&
    policy.includePaths.all safeFolder && policy.includePaths ≠ [] &&
    policy.includePaths.length ≤ maxPrefixesPerVault && decide policy.includePaths.Nodup

/-- No other members are taken. -/
def projectContextPolicySchema (raw : Json) : Option ProjectContextPolicy :=
  match raw with
  | .obj members =>
      if members.all (fun m =>
          ["excludePaths", "format", "includePaths", "projectId"].contains m.1) then
        match textItems (raw.member "excludePaths"), raw.member "format",
            textItems (raw.member "includePaths"), optionalId uuid (raw.member "projectId") with
        | some excludePaths, some (.str format), some includePaths, some projectId =>
            let policy : ProjectContextPolicy :=
              { excludePaths := excludePaths, format := format, includePaths := includePaths
                projectId := projectId }
            if soundPolicy policy then some policy else none
        | _, _, _, _ => none
      else none
  | _ => none

/-- A policy as JSON. -/
def ProjectContextPolicy.toJson (policy : ProjectContextPolicy) : Json :=
  .obj ([("excludePaths", .arr (policy.excludePaths.map .str)), ("format", .str policy.format),
    ("includePaths", .arr (policy.includePaths.map .str))] ++
    policy.projectId.toList.map (fun id => ("projectId", .str id)))

end Policies

/-! ## Folders -/

inductive ProjectContextPolicyProblemCode
  | contextPolicyInvalid | folderScopeInvalid | sourceContextInvalid

/-- Compiling fails with a problem, or because what was compiled is not accepted. -/
inductive ContextPolicyFailure
  | problem (code : ProjectContextPolicyProblemCode)
  | schema

structure NormalizedPrefix where
  path : String
  pathKey : String

def rootPrefix : NormalizedPrefix := { path := "", pathKey := "" }

/-- A note that stands for a folder. -/
def projectScopeFile : String := "/__owd_project_scope__.md"

/-- The folder of such a note. -/
def withoutProjectScopeFile (path : String) : String :=
  String.ofList (path.toList.take (path.toList.length - projectScopeFile.toList.length))

/-- What a folder is without a separator at its end. -/
def trimmedFolder (value : String) : String :=
  if value.toList.getLast? = some '/' then String.ofList value.toList.dropLast else value

section Folders

variable (u : UnicodeTables)

def normalizePrefix (value : String) (allowRoot : Bool) :
    Except ContextPolicyFailure NormalizedPrefix :=
  if trimmedFolder value = "" then
    if allowRoot then .ok rootPrefix else .error (.problem .contextPolicyInvalid)
  else
    match validateMarkdownVaultPath u (trimmedFolder value ++ projectScopeFile) with
    | .error _ => .error (.problem .contextPolicyInvalid)
    | .ok sentinel =>
        .ok { path := withoutProjectScopeFile sentinel.path
              pathKey := withoutProjectScopeFile sentinel.pathKey }

def sortedUniquePrefixes (values : List String) (allowRoot : Bool) :
    Except ContextPolicyFailure (List NormalizedPrefix) :=
  match values.mapM (fun value => normalizePrefix u value allowRoot) with
  | .error failure => .error failure
  | .ok normalized =>
      let sorted := Utf16.sortBy NormalizedPrefix.pathKey normalized
      if sorted.IsChain (fun left right => left.pathKey ≠ right.pathKey) then .ok sorted
      else .error (.problem .contextPolicyInvalid)

/-- One of the folders is in another one. -/
def redundantIncludes (prefixes : List NormalizedPrefix) : Bool :=
  prefixes.any (fun folder => prefixes.any (fun candidate =>
    candidate.pathKey ≠ folder.pathKey && contextPathIncludes folder.pathKey candidate.pathKey))

def visibilityAllowsPrefix (visibility : AgentVisibility) (pathKey : String) : Bool :=
  let key := stripped (normalized u pathKey)
  !visibility.denyAll && (visibility.pathKeyPrefixes.isEmpty ||
    visibility.pathKeyPrefixes.any (fun folder =>
      key = stripped folder || startsWith key (stripped folder ++ "/")))

/-- A grant of an agent. Its folders were brought into normal form when it was made. -/
structure ActiveAgentGrant where
  visibility : VisibilityGrant
  granted : ∃ values, normalizePathPrefixes u values = .ok visibility.pathKeyPrefixes

def grantAllows {u : UnicodeTables} (grant : ActiveAgentGrant u) (pathKey : String) : Bool :=
  visibilityAllowsPrefix u (agentVisibilityForGrant u grant.visibility) pathKey

end Folders

/-! ## Compiling -/

section Compiling

variable {u : UnicodeTables}

/-- What a project is about in a vault. -/
structure VaultMember (u : UnicodeTables) where
  member : KnowledgeSpaceMember u
  vaultId : String

def collaborationPathPrefixSchema (folder : NormalizedPrefix) :
    Option (CollaborationPathPrefix u) :=
  if h : unitLength folder.path.toList ≤ maxPolicyPathLength ∧
      unitLength folder.pathKey.toList ≤ maxPolicyPathLength ∧
      safeRelativePath u folder.path true = true ∧
      folder.pathKey = normalized u folder.path then
    some { path := folder.path, pathKey := folder.pathKey, safe := h.2.2.1, keyed := h.2.2.2 }
  else none

def knowledgeSpaceMemberSchema (uuid : String → Bool) (vaultId : String)
    (exclusions pathPrefixes : List NormalizedPrefix) : Option (VaultMember u) :=
  match exclusions.mapM (collaborationPathPrefixSchema (u := u)),
      pathPrefixes.mapM (collaborationPathPrefixSchema (u := u)) with
  | some exclusions, some pathPrefixes =>
      if h : exclusions.length ≤ maxPrefixesPerVault ∧ pathPrefixes.length ≤ maxPrefixesPerVault ∧
          uuid vaultId = true ∧ pathPrefixes ≠ [] ∧
          ((pathPrefixes.map (·.pathKey)).Nodup ∧ (exclusions.map (·.pathKey)).Nodup) ∧
          ∀ exclusion ∈ exclusions, ∃ folder ∈ pathPrefixes,
            contextPathIncludes exclusion.pathKey folder.pathKey = true then
        some {
          member := {
            exclusions := exclusions, pathPrefixes := pathPrefixes
            nonempty := h.2.2.2.1, distinct := h.2.2.2.2.1, covered := h.2.2.2.2.2 }
          vaultId := vaultId }
      else none
  | _, _ => none

structure CompileInput (u : UnicodeTables) where
  folderBoundary : Option String
  grant : Option (ActiveAgentGrant u)
  sourcePaths : List String
  vaultId : String

structure CompiledPolicy (u : UnicodeTables) where
  member : VaultMember u
  policy : ProjectContextPolicy

/-- The folder that bounds the project, if there is one. -/
def boundaryFolder (u : UnicodeTables) :
    Option String → Except ContextPolicyFailure (Option NormalizedPrefix)
  | none => .ok none
  | some value => (normalizePrefix u value true).map some

def beyondBoundary (folder : Option NormalizedPrefix) (pathKey : String) : Bool :=
  folder.any (fun folder => !contextPathIncludes pathKey folder.pathKey)

def grantDenies (grant : Option (ActiveAgentGrant u)) (pathKey : String) : Bool :=
  grant.any (fun grant => !grantAllows grant pathKey)

/-- A note that the project starts from is not accepted. -/
def sourceFaulty (input : CompileInput u) (folder : Option NormalizedPrefix)
    (pathPrefixes exclusions : List NormalizedPrefix) (sourcePath : String) : Bool :=
  match validateMarkdownVaultPath u sourcePath with
  | .error _ => true
  | .ok source =>
      !pathPrefixes.any (fun entry => contextPathIncludes source.pathKey entry.pathKey) ||
        exclusions.any (fun entry => contextPathIncludes source.pathKey entry.pathKey) ||
        beyondBoundary folder source.pathKey || grantDenies input.grant source.pathKey

def contextPolicy (excludePaths includePaths : List String) : ProjectContextPolicy :=
  { excludePaths := excludePaths, format := projectContextFormat, includePaths := includePaths
    projectId := none }

variable (uuid : String → Bool)

/-- What is compiled of folders that are in normal form. -/
def compileFolders (input : CompileInput u) (folder : Option NormalizedPrefix)
    (pathPrefixes exclusions : List NormalizedPrefix) :
    Except ContextPolicyFailure (CompiledPolicy u) :=
  if pathPrefixes.any (fun entry =>
      beyondBoundary folder entry.pathKey || grantDenies input.grant entry.pathKey) then
    .error (.problem .folderScopeInvalid)
  else if exclusions.any (fun exclusion => !pathPrefixes.any (fun entry =>
      contextPathIncludes exclusion.pathKey entry.pathKey)) then
    .error (.problem .contextPolicyInvalid)
  else if input.sourcePaths.any (sourceFaulty input folder pathPrefixes exclusions) then
    .error (.problem .sourceContextInvalid)
  else
    match knowledgeSpaceMemberSchema uuid input.vaultId exclusions pathPrefixes,
        projectContextPolicySchema uuid (contextPolicy (exclusions.map (·.path))
          (pathPrefixes.map (·.path))).toJson with
    | some member, some policy => .ok { member := member, policy := policy }
    | _, _ => .error .schema

def compileProjectContextPolicy (rawPolicy : Json) (input : CompileInput u) :
    Except ContextPolicyFailure (CompiledPolicy u) :=
  match projectContextPolicySchema uuid rawPolicy with
  | none => .error (.problem .contextPolicyInvalid)
  | some parsed =>
      match sortedUniquePrefixes u parsed.includePaths true with
      | .error failure => .error failure
      | .ok pathPrefixes =>
          match sortedUniquePrefixes u parsed.excludePaths false with
          | .error failure => .error failure
          | .ok exclusions =>
              if redundantIncludes pathPrefixes then .error (.problem .contextPolicyInvalid)
              else
                match boundaryFolder u input.folderBoundary with
                | .error failure => .error failure
                | .ok folder => compileFolders uuid input folder pathPrefixes exclusions

def projectContextPolicyFromMember (member : VaultMember u) : Option ProjectContextPolicy :=
  projectContextPolicySchema uuid (contextPolicy (member.member.exclusions.map (·.path))
    (member.member.pathPrefixes.map (·.path))).toJson

end Compiling

/-! ## Keys in folders -/

/-- A key is in a folder, or is that of the folder. -/
def InFolder (folder pathKey : String) : Prop :=
  folder = "" ∨ folder.toList.splitOn '/' <+: pathKey.toList.splitOn '/'

theorem contextPathIncludes_iff (pathKey folder : String) :
    contextPathIncludes pathKey folder = true ↔ InFolder folder pathKey := by
  have hslash : "/".toList = ['/'] := rfl
  simp only [contextPathIncludes, InFolder, Bool.or_eq_true, decide_eq_true_eq, startsWith_iff,
    String.toList_append, hslash, folder_segments, or_assoc]
  refine or_congr_right ?_
  constructor
  · rintro (rfl | ⟨rest, -, hrest⟩)
    · exact List.prefix_refl _
    · exact ⟨rest, hrest.symm⟩
  · rintro ⟨rest, hrest⟩
    by_cases hnone : rest = []
    · -- The segments are the same, and so are the texts.
      rw [hnone, List.append_nil] at hrest
      have hjoined := congrArg (['/'].intercalate) hrest
      rw [List.intercalate_splitOn, List.intercalate_splitOn] at hjoined
      exact Or.inl (String.toList_inj.mp hjoined).symm
    · exact Or.inr ⟨rest, hnone, hrest.symm⟩

/-! ## Folders in normal form -/

theorem mapM_ok_of_forall {α β ε : Type} (f : α → Except ε β) (g : β → α) (results : List β)
    (h : ∀ b ∈ results, f (g b) = .ok b) : (results.map g).mapM f = .ok results := by
  induction results with
  | nil => rfl
  | cons b results ih =>
      have hb := h b List.mem_cons_self
      have hrest := ih (fun c hc => h c (List.mem_cons_of_mem b hc))
      rw [List.map_cons, List.mapM_cons, hb, hrest]
      rfl

section Folders

variable (u : UnicodeTables)

theorem withoutProjectScopeFile_append (folder : String) :
    withoutProjectScopeFile (folder ++ projectScopeFile) = folder := by
  rw [withoutProjectScopeFile, String.toList_append, List.length_append, Nat.add_sub_cancel,
    List.take_left, String.ofList_toList]

theorem projectScopeFile_head : ∃ rest, projectScopeFile.toList = '/' :: rest :=
  ⟨_, rfl⟩

/-- What a folder in normal form came from. -/
theorem normalizePrefix_cases (value : String) (allowRoot : Bool) (folder : NormalizedPrefix)
    (h : normalizePrefix u value allowRoot = .ok folder) :
    (allowRoot = true ∧ folder = rootPrefix) ∨
      (folder.path ≠ "" ∧ folder.path.toList.getLast? ≠ some '/' ∧
        ∃ sentinel, validateMarkdownVaultPath u (folder.path ++ projectScopeFile) = .ok sentinel ∧
          folder.pathKey = withoutProjectScopeFile sentinel.pathKey) := by
  unfold normalizePrefix at h
  split at h
  · split at h
    · next hallow =>
      rw [Except.ok.injEq] at h
      exact Or.inl ⟨hallow, h.symm⟩
    · cases h
  · next hfilled =>
    split at h
    · cases h
    · next sentinel hsentinel =>
      rw [Except.ok.injEq] at h
      subst h
      have hpath := (Vault.validateMarkdownVaultPath_path u _ sentinel hsentinel).1
      have hfolder : withoutProjectScopeFile sentinel.path = trimmedFolder value := by
        rw [hpath, withoutProjectScopeFile_append]
      refine Or.inr ⟨by rw [hfolder]; exact hfilled, ?_, sentinel, by rw [hfolder]; exact hsentinel,
        rfl⟩
      -- Otherwise the path of the sentinel would have an empty segment.
      intro hlast
      rw [hfolder] at hlast
      obtain ⟨front, hfront⟩ := List.getLast?_eq_some_iff.mp hlast
      obtain ⟨rest, hrest⟩ := projectScopeFile_head
      apply (accepted_path u _ sentinel hsentinel).2.2
      refine ⟨front, rest, ?_⟩
      rw [String.toList_append, hfront, hrest]
      simp

/-- A folder in normal form stays as it is. -/
theorem normalizePrefix_again (value : String) (allowRoot : Bool) (folder : NormalizedPrefix)
    (h : normalizePrefix u value allowRoot = .ok folder) :
    normalizePrefix u folder.path allowRoot = .ok folder := by
  rcases normalizePrefix_cases u value allowRoot folder h with
    ⟨rfl, rfl⟩ | ⟨hfilled, hlast, sentinel, hsentinel, hkey⟩
  · rfl
  · have htrimmed : trimmedFolder folder.path = folder.path := if_neg hlast
    have hpath := (Vault.validateMarkdownVaultPath_path u _ sentinel hsentinel).1
    rw [normalizePrefix, htrimmed, if_neg hfilled, hsentinel]
    simp only [hpath, withoutProjectScopeFile_append, ← hkey]

/-- Folders in order have different keys, and stay as they are. -/
theorem sortedUniquePrefixes_ok (values : List String) (allowRoot : Bool)
    (folders : List NormalizedPrefix)
    (h : sortedUniquePrefixes u values allowRoot = .ok folders) :
    (folders.map (·.pathKey)).Nodup ∧
      sortedUniquePrefixes u (folders.map (·.path)) allowRoot = .ok folders := by
  unfold sortedUniquePrefixes at h
  split at h
  · cases h
  · next normalized hnormalized =>
    dsimp only at h
    split at h
    · next hchain =>
      rw [Except.ok.injEq] at h
      subst h
      have hsorted := Utf16.sortBy_sorted NormalizedPrefix.pathKey normalized
      have hagain : ((Utf16.sortBy NormalizedPrefix.pathKey normalized).map (·.path)).mapM
          (fun value => normalizePrefix u value allowRoot) =
            .ok (Utf16.sortBy NormalizedPrefix.pathKey normalized) := by
        apply mapM_ok_of_forall
        intro folder hfolder
        have hmem := (Utf16.sortBy_perm NormalizedPrefix.pathKey normalized).subset hfolder
        obtain ⟨value, -, hvalue⟩ := mem_of_mapM_ok _ _ _ hnormalized folder hmem
        exact normalizePrefix_again u value allowRoot folder hvalue
      constructor
      · -- Each key comes before the next one and is another.
        have hlt : (Utf16.sortBy NormalizedPrefix.pathKey normalized).IsChain
            (fun left right => Utf16.units left.pathKey < Utf16.units right.pathKey) := by
          have hle := List.isChain_iff_getElem.mp hsorted.isChain
          have hne := List.isChain_iff_getElem.mp hchain
          rw [List.isChain_iff_getElem]
          intro i hi
          apply lt_of_le_of_ne (of_decide_eq_true (hle i hi))
          exact fun heq => hne i hi (Utf16.units_injective heq)
        have htrans : IsTrans NormalizedPrefix
            (fun left right => Utf16.units left.pathKey < Utf16.units right.pathKey) :=
          ⟨fun _ _ _ => lt_trans⟩
        rw [List.Nodup, List.pairwise_map]
        refine (List.isChain_iff_pairwise.mp hlt).imp ?_
        intro left right hless heq
        rw [heq] at hless
        exact lt_irrefl _ hless
      · rw [sortedUniquePrefixes, hagain]
        simp only [Utf16.sortBy_eq_self NormalizedPrefix.pathKey _ hsorted]
        rw [if_pos hchain]
    · cases h

end Folders

/-! ## Policies that are read back -/

theorem textItems_texts (texts : List String) :
    textItems (some (.arr (texts.map .str))) = some texts := by
  rw [textItems]
  induction texts with
  | nil => rfl
  | cons text texts ih =>
      rw [List.map_cons, List.mapM_cons, ih]
      rfl

/-- A policy for no project that is sound is read back. -/
theorem schema_toJson (uuid : String → Bool) (policy : ProjectContextPolicy)
    (hproject : policy.projectId = none) :
    projectContextPolicySchema uuid policy.toJson =
      if soundPolicy policy then some policy else none := by
  have hnames : ([("excludePaths", Json.arr (policy.excludePaths.map .str)),
      ("format", .str policy.format), ("includePaths", .arr (policy.includePaths.map .str))] ++
      policy.projectId.toList.map (fun id => ("projectId", Json.str id))).all (fun m =>
        ["excludePaths", "format", "includePaths", "projectId"].contains m.1) = true := by
    simp [hproject]
  have hexclude : policy.toJson.member "excludePaths" =
      some (.arr (policy.excludePaths.map .str)) := by
    simp [ProjectContextPolicy.toJson, Json.member, hproject]
  have hformat : policy.toJson.member "format" = some (.str policy.format) := by
    simp [ProjectContextPolicy.toJson, Json.member, hproject]
  have hinclude : policy.toJson.member "includePaths" =
      some (.arr (policy.includePaths.map .str)) := by
    simp [ProjectContextPolicy.toJson, Json.member, hproject]
  have hnone : policy.toJson.member "projectId" = none := by
    simp [ProjectContextPolicy.toJson, Json.member, hproject]
  unfold projectContextPolicySchema
  rw [hexclude, hformat, hinclude, hnone, textItems_texts, textItems_texts]
  unfold ProjectContextPolicy.toJson
  dsimp only
  rw [if_pos hnames]
  simp only [optionalId, ← hproject]

/-! ## What was compiled -/

section Compiled

variable {u : UnicodeTables}

theorem mapM_schema (folders : List NormalizedPrefix) (stored : List (CollaborationPathPrefix u))
    (h : folders.mapM collaborationPathPrefixSchema = some stored) :
    stored.map (fun folder => NormalizedPrefix.mk folder.path folder.pathKey) = folders := by
  induction folders generalizing stored with
  | nil =>
      rw [List.mapM_nil] at h
      rw [← Option.some.inj h]
      rfl
  | cons folder folders ih =>
      rw [List.mapM_cons] at h
      obtain ⟨first, hfirst, h⟩ := Option.bind_eq_some_iff.mp h
      obtain ⟨rest, hrest, h⟩ := Option.bind_eq_some_iff.mp h
      rw [← Option.some.inj h, List.map_cons, ih rest hrest]
      unfold collaborationPathPrefixSchema at hfirst
      split at hfirst
      · rw [← Option.some.inj hfirst]
      · cases hfirst

/-- A member that is accepted has the folders that it is made of. -/
theorem knowledgeSpaceMemberSchema_some (uuid : String → Bool) (vaultId : String)
    (exclusions pathPrefixes : List NormalizedPrefix) (member : VaultMember u)
    (h : knowledgeSpaceMemberSchema uuid vaultId exclusions pathPrefixes = some member) :
    member.member.exclusions.map (fun folder => NormalizedPrefix.mk folder.path folder.pathKey) =
        exclusions ∧
      member.member.pathPrefixes.map
        (fun folder => NormalizedPrefix.mk folder.path folder.pathKey) = pathPrefixes := by
  unfold knowledgeSpaceMemberSchema at h
  split at h
  · next stored stored' hstored hstored' =>
    split at h
    · rw [← Option.some.inj h]
      exact ⟨mapM_schema exclusions stored hstored, mapM_schema pathPrefixes stored' hstored'⟩
    · cases h
  · cases h

variable (uuid : String → Bool) (input : CompileInput u)

/-- What is known of folders that a policy was compiled of. -/
structure CompiledOf (folder : Option NormalizedPrefix)
    (pathPrefixes exclusions : List NormalizedPrefix) (compiled : CompiledPolicy u) : Prop where
  bounded : ∀ entry ∈ pathPrefixes, beyondBoundary folder entry.pathKey = false ∧
    grantDenies input.grant entry.pathKey = false
  covered : ∀ exclusion ∈ exclusions, ∃ entry ∈ pathPrefixes,
    contextPathIncludes exclusion.pathKey entry.pathKey = true
  sources : ∀ sourcePath ∈ input.sourcePaths,
    sourceFaulty input folder pathPrefixes exclusions sourcePath = false
  member : knowledgeSpaceMemberSchema uuid input.vaultId exclusions pathPrefixes =
    some compiled.member
  policy : projectContextPolicySchema uuid (contextPolicy (exclusions.map (·.path))
    (pathPrefixes.map (·.path))).toJson = some compiled.policy

theorem compileFolders_ok (folder : Option NormalizedPrefix)
    (pathPrefixes exclusions : List NormalizedPrefix) (compiled : CompiledPolicy u)
    (h : compileFolders uuid input folder pathPrefixes exclusions = .ok compiled) :
    CompiledOf uuid input folder pathPrefixes exclusions compiled := by
  unfold compileFolders at h
  split at h
  · cases h
  next hbounded =>
  split at h
  · cases h
  next hcovered =>
  split at h
  · cases h
  next hsources =>
  split at h
  · next member policy hmember hpolicy =>
    rw [Except.ok.injEq] at h
    subst h
    rw [Bool.not_eq_true, List.any_eq_false] at hbounded hcovered hsources
    constructor
    · intro entry hentry
      have hboth := hbounded entry hentry
      rwa [Bool.or_eq_true, not_or, Bool.not_eq_true, Bool.not_eq_true] at hboth
    · intro exclusion hexclusion
      have hany := hcovered exclusion hexclusion
      rwa [Bool.not_eq_true, Bool.not_eq_false', List.any_eq_true] at hany
    · intro sourcePath hsource
      exact Bool.not_eq_true _ ▸ hsources sourcePath hsource
    · exact hmember
    · exact hpolicy
  · cases h

section

variable (rawPolicy : Json) (compiled : CompiledPolicy u)

/-- What compiling comes to where it does not fail. -/
theorem compile_ok (h : compileProjectContextPolicy uuid rawPolicy input = .ok compiled) :
    ∃ (parsed : ProjectContextPolicy) (folder : Option NormalizedPrefix)
      (pathPrefixes exclusions : List NormalizedPrefix),
      sortedUniquePrefixes u parsed.includePaths true = .ok pathPrefixes ∧
      sortedUniquePrefixes u parsed.excludePaths false = .ok exclusions ∧
      redundantIncludes pathPrefixes = false ∧
      boundaryFolder u input.folderBoundary = .ok folder ∧
      compileFolders uuid input folder pathPrefixes exclusions = .ok compiled := by
  unfold compileProjectContextPolicy at h
  split at h
  · cases h
  next parsed _ =>
  split at h
  · cases h
  next pathPrefixes hprefixes =>
  split at h
  · cases h
  next exclusions hexclusions =>
  split at h
  · cases h
  next hredundant =>
  split at h
  · cases h
  next folder hfolder =>
  exact ⟨parsed, folder, pathPrefixes, exclusions, hprefixes, hexclusions,
    Bool.not_eq_true _ ▸ hredundant, hfolder, h⟩

/-- Compiling what was compiled comes to the same. -/
theorem compile_again (h : compileProjectContextPolicy uuid rawPolicy input = .ok compiled) :
    compileProjectContextPolicy uuid compiled.policy.toJson input = .ok compiled := by
  obtain ⟨parsed, folder, pathPrefixes, exclusions, hprefixes, hexclusions, hredundant, hfolder,
    hcompiled⟩ := compile_ok uuid input rawPolicy compiled h
  have hof := compileFolders_ok uuid input folder pathPrefixes exclusions compiled hcompiled
  have hpolicy := hof.policy
  have hsame : compiled.policy =
      contextPolicy (exclusions.map (·.path)) (pathPrefixes.map (·.path)) := by
    rw [schema_toJson uuid _ rfl] at hpolicy
    split at hpolicy
    · exact (Option.some.inj hpolicy).symm
    · cases hpolicy
  have hprefixes' := (sortedUniquePrefixes_ok u _ _ _ hprefixes).2
  have hexclusions' := (sortedUniquePrefixes_ok u _ _ _ hexclusions).2
  rw [← hsame] at hpolicy
  unfold compileProjectContextPolicy
  rw [hpolicy]
  simp only [hsame, contextPolicy, hprefixes', hexclusions', hredundant, Bool.false_eq_true,
    if_false, hfolder, hcompiled]

/-- So does going back from the member. -/
theorem fromMember_policy (h : compileProjectContextPolicy uuid rawPolicy input = .ok compiled) :
    projectContextPolicyFromMember uuid compiled.member = some compiled.policy := by
  obtain ⟨-, folder, pathPrefixes, exclusions, -, -, -, -, hcompiled⟩ :=
    compile_ok uuid input rawPolicy compiled h
  have hof := compileFolders_ok uuid input folder pathPrefixes exclusions compiled hcompiled
  obtain ⟨hexclusions, hprefixes⟩ :=
    knowledgeSpaceMemberSchema_some uuid _ _ _ _ hof.member
  have hpaths : ∀ stored : List (CollaborationPathPrefix u),
      (stored.map (fun folder => NormalizedPrefix.mk folder.path folder.pathKey)).map (·.path) =
        stored.map (·.path) := by
    intro stored
    rw [List.map_map]
    rfl
  have hpolicy := hof.policy
  rw [← hexclusions, ← hprefixes, hpaths, hpaths] at hpolicy
  exact hpolicy

end

end Compiled

/-! ## Folders of a grant -/

/-- What is turned into other characters segment by segment, and never to nothing, ends with a
    separator only if it did before. -/
theorem Parting.last {k : List Char → List Char} (hk : Parting k)
    (hfilled : ∀ chars, chars ≠ [] → k chars ≠ []) (chars : List Char)
    (h : chars.getLast? ≠ some '/') : (k chars).getLast? ≠ some '/' := by
  intro hlast
  by_cases hmem : '/' ∈ chars
  · obtain ⟨front, segment, rfl, hsegment⟩ := split_last chars hmem
    have hne : segment ≠ [] := by
      rintro rfl
      exact h (by rw [List.getLast?_append_of_ne_nil _ (List.cons_ne_nil _ _)]; rfl)
    rw [hk.separator, List.append_cons,
      List.getLast?_append_of_ne_nil _ (hfilled segment hne)] at hlast
    exact hk.segment segment hsegment (List.mem_of_getLast? hlast)
  · exact hk.segment chars hmem (List.mem_of_getLast? hlast)

theorem trimSeparators_last (chars : List Char) : (trimSeparators chars).getLast? ≠ some '/' := by
  intro hlast
  rw [trimSeparators, List.getLast?_reverse] at hlast
  have hnot := List.head?_dropWhile_not (fun c : Char => decide (c = '/')) chars.reverse
  rw [hlast] at hnot
  simp at hnot

/-- One separator is taken off. -/
theorem trimSeparators_concat (chars : List Char) (h : chars.getLast? ≠ some '/') :
    trimSeparators (chars ++ ['/']) = chars := by
  rw [trimSeparators, List.reverse_append, List.reverse_singleton, List.singleton_append,
    List.dropWhile_cons_of_pos (by simp)]
  exact trimSeparators_eq_self chars h

/-- Among folders that are in no other, none is in another one. -/
theorem minimalPrefixes_least (values : List String) (folder other : String)
    (hfolder : folder ∈ minimalPrefixes values) (hother : other ∈ minimalPrefixes values)
    (h : startsWith folder other = true) : other = folder := by
  have hunique := (List.mem_filter.mp hother).1
  have hnone := (List.mem_filter.mp hfolder).2
  rw [Bool.not_eq_true', List.any_eq_false] at hnone
  by_contra hne
  exact hnone other hunique (by rw [h, Bool.and_true]; exact decide_eq_true hne)

section Grants

variable {u : UnicodeTables} (hu : Lawful u)

include hu

theorem grantedFolder_concat (values keys : List String)
    (h : normalizePathPrefixes u values = .ok keys) (s : String) (hs : s ∈ keys) :
    ∃ chars, chars.getLast? ≠ some '/' ∧ s.toList = chars ++ ['/'] := by
  unfold normalizePathPrefixes at h
  split at h
  · rw [← Except.ok.inj h] at hs
    cases hs
  · split at h
    · cases h
    · next prefixes hprefixes =>
      rw [← Except.ok.inj h] at hs
      obtain ⟨pair, hpair, rfl⟩ := List.mem_map.mp (mem_minimalPrefixes _ s hs)
      obtain ⟨raw, -, hraw⟩ := mem_of_mapM_ok _ values prefixes hprefixes pair hpair
      unfold normalizePathPrefix at hraw
      dsimp only at hraw
      split at hraw
      · cases hraw
      · next sentinel hsentinel =>
        rw [← Except.ok.inj hraw]
        have hkey := (Vault.validateMarkdownVaultPath_path u _ sentinel hsentinel).2
        have hempty := (accepted_path u _ sentinel hsentinel).2.2
        rw [String.toList_append, String.toList_append, List.append_assoc] at hempty
        exact ⟨_, lower_folder u hu _ agentScopeFile.toList hempty,
          (congrArg (fun key => (withoutScopeFile key).toList) hkey).trans
            (withoutScopeFile_lower u hu _)⟩

/-- A folder that a grant lets an agent see ends with one separator. -/
theorem visibleFolder_concat (grant : ActiveAgentGrant u) (s : String)
    (hs : s ∈ (agentVisibilityForGrant u grant.visibility).pathKeyPrefixes) :
    ∃ chars, chars.getLast? ≠ some '/' ∧ s.toList = chars ++ ['/'] := by
  obtain ⟨values, hvalues⟩ := grant.granted
  unfold agentVisibilityForGrant at hs
  cases hprofile : grant.visibility.runtimeProfile with
  | none =>
      rw [hprofile] at hs
      exact grantedFolder_concat hu values _ hvalues s hs
  | some profile =>
      rw [hprofile] at hs
      obtain ⟨value, rfl⟩ := mem_intersectPrefixes u _ _ s hs
      exact ⟨_, trimSeparators_last _, by rw [folderKey, String.toList_ofList]⟩

omit hu in
/-- None of the folders is in another one. -/
theorem visibleFolder_least (grant : ActiveAgentGrant u) (folder other : String)
    (hfolder : folder ∈ (agentVisibilityForGrant u grant.visibility).pathKeyPrefixes)
    (hother : other ∈ (agentVisibilityForGrant u grant.visibility).pathKeyPrefixes)
    (h : startsWith folder other = true) : other = folder := by
  obtain ⟨values, hvalues⟩ := grant.granted
  unfold agentVisibilityForGrant at hfolder hother
  cases hprofile : grant.visibility.runtimeProfile with
  | none =>
      rw [hprofile] at hfolder hother
      unfold normalizePathPrefixes at hvalues
      split at hvalues
      · rw [← Except.ok.inj hvalues] at hfolder
        cases hfolder
      · split at hvalues
        · cases hvalues
        · rw [← Except.ok.inj hvalues] at hfolder hother
          exact minimalPrefixes_least _ folder other hfolder hother h
  | some profile =>
      rw [hprofile] at hfolder hother
      simp only [intersectPrefixes] at hfolder hother
      split at hfolder
      · next hall =>
        rw [if_pos hall] at hother
        exact minimalPrefixes_least _ folder other hfolder hother h
      · next hgranted =>
        rw [if_neg hgranted] at hother
        exact minimalPrefixes_least _ folder other hfolder hother h

/-- A note that the test for folders lets pass is visible exactly if its name is not hidden and
    it is not named as one of the folders. -/
theorem visible_iff_apart (grant : ActiveAgentGrant u) (pathKey : String)
    (hlast : (normalized u pathKey).toList.getLast? ≠ some '/')
    (hallows : grantAllows grant pathKey = true) :
    visibilityAllowsPath u (agentVisibilityForGrant u grant.visibility) pathKey = true ↔
      String.ofList (fileName (normalized u pathKey).toList) ∉
          (agentVisibilityForGrant u grant.visibility).neverExposeFileNames ∧
        ∀ folder ∈ (agentVisibilityForGrant u grant.visibility).pathKeyPrefixes,
          stripped folder ≠ normalized u pathKey := by
  have hkey : stripped (normalized u pathKey) = normalized u pathKey := by
    rw [stripped, trimSeparators_eq_self _ hlast, String.ofList_toList]
  have hslash : "/".toList = ['/'] := rfl
  simp only [grantAllows, visibilityAllowsPrefix, hkey, Bool.and_eq_true, Bool.not_eq_true',
    Bool.or_eq_true, List.any_eq_true, decide_eq_true_eq] at hallows
  obtain ⟨hdeny, hfolders⟩ := hallows
  simp only [visibilityAllowsPath, hdeny, Bool.not_false, Bool.true_and, Bool.and_eq_true,
    Bool.not_eq_true', Bool.or_eq_true, List.any_eq_true]
  rw [← Bool.not_eq_true, List.contains_iff_mem]
  refine and_congr_right (fun _ => ?_)
  constructor
  · rintro hstarts folder hfolder hsame
    obtain ⟨chars, hchars, hfolder'⟩ := visibleFolder_concat hu grant folder hfolder
    have hstripped : (stripped folder).toList = chars := by
      rw [stripped, String.toList_ofList, hfolder', trimSeparators_concat chars hchars]
    rcases hstarts with hnone | ⟨other, hother, hin⟩
    · rw [List.isEmpty_iff.mp hnone] at hfolder
      cases hfolder
    · -- Another folder would be in this one, and this one is longer than the key.
      rw [startsWith_iff, ← hsame, hstripped] at hin
      have hwithin : startsWith folder other = true := by
        rw [startsWith_iff, hfolder']
        exact hin.trans (List.prefix_append _ _)
      have heq := visibleFolder_least grant folder other hfolder hother hwithin
      have hlength := hin.length_le
      rw [heq, hfolder', List.length_append, List.length_singleton] at hlength
      omega
  · intro hapart
    rcases hfolders with hnone | ⟨folder, hfolder, hsame | hunder⟩
    · exact Or.inl hnone
    · exact absurd hsame.symm (hapart folder hfolder)
    · obtain ⟨chars, hchars, hfolder'⟩ := visibleFolder_concat hu grant folder hfolder
      refine Or.inr ⟨folder, hfolder, ?_⟩
      rw [startsWith_iff, String.toList_append, stripped, String.toList_ofList, hslash, hfolder',
        trimSeparators_concat chars hchars] at hunder
      rw [startsWith_iff, hfolder']
      exact hunder

/-- The key of a valid path does not end with a separator, and is not made to. -/
theorem validKey_last (hfilled : ∀ chars, chars ≠ [] → nfcChars u chars ≠ []) (path : String)
    (source : ValidatedVaultPath) (h : validateMarkdownVaultPath u path = .ok source) :
    (normalized u source.pathKey).toList.getLast? ≠ some '/' := by
  have hacceptable := (validPath_iff u path).mp ⟨source, h⟩
  obtain ⟨-, -, -, hlast⟩ := segments_filled path.toList hacceptable.segments
  have hkey : source.pathKey.toList = lowerChars u path.toList := by
    rw [(Vault.validateMarkdownVaultPath_path u path source h).2, lowerChars, String.ofList_toList]
  have hlower := lower_parting u hu
  rw [normalized_toList, hkey]
  apply hlower.last hu.lower_nonempty
  apply (nfc_parting u hu).last hfilled
  exact hlower.last hu.lower_nonempty _ hlast

end Grants

/-! ## When a compiled policy is as it is to be -/

section Compiles

variable {u : UnicodeTables} (uuid : String → Bool) (input : CompileInput u)

/-- What a compiled policy is to be like: each of the notes that the project starts from is
    visible by the grant and in the folders of the project, which are apart from each other, and
    compiling again changes nothing. -/
structure Compiles (compiled : CompiledPolicy u) : Prop where
  admitted : ∀ grant ∈ input.grant, ∀ sourcePath ∈ input.sourcePaths, ∀ source,
    validateMarkdownVaultPath u sourcePath = .ok source →
    visibilityAllowsPath u (agentVisibilityForGrant u grant.visibility) source.pathKey = true
  inside : ∀ sourcePath ∈ input.sourcePaths, ∃ source,
    validateMarkdownVaultPath u sourcePath = .ok source ∧
      (∃ folder ∈ compiled.member.member.pathPrefixes, InFolder folder.pathKey source.pathKey) ∧
      (∀ exclusion ∈ compiled.member.member.exclusions,
        ¬ InFolder exclusion.pathKey source.pathKey) ∧
      ∀ boundary ∈ input.folderBoundary, ∃ folder, normalizePrefix u boundary true = .ok folder ∧
        InFolder folder.pathKey source.pathKey
  apart : compiled.member.member.pathPrefixes.Pairwise (fun folder other =>
    ¬ InFolder folder.pathKey other.pathKey ∧ ¬ InFolder other.pathKey folder.pathKey)
  covered : ∀ exclusion ∈ compiled.member.member.exclusions,
    ∃ folder ∈ compiled.member.member.pathPrefixes, InFolder folder.pathKey exclusion.pathKey
  again : compileProjectContextPolicy uuid compiled.policy.toJson input = .ok compiled
  reproduced : projectContextPolicyFromMember uuid compiled.member = some compiled.policy

/-- No note that the project starts from has a name that is hidden, or is named as a folder of the
    grant. -/
def NotesApart : Prop :=
  ∀ grant ∈ input.grant, ∀ sourcePath ∈ input.sourcePaths, ∀ source,
    validateMarkdownVaultPath u sourcePath = .ok source →
    String.ofList (fileName (normalized u source.pathKey).toList) ∉
        (agentVisibilityForGrant u grant.visibility).neverExposeFileNames ∧
      ∀ folder ∈ (agentVisibilityForGrant u grant.visibility).pathKeyPrefixes,
        stripped folder ≠ normalized u source.pathKey

/-- What is known of a note that was accepted. -/
theorem source_accepted (folder : Option NormalizedPrefix)
    (pathPrefixes exclusions : List NormalizedPrefix) (sourcePath : String)
    (h : sourceFaulty input folder pathPrefixes exclusions sourcePath = false) :
    ∃ source, validateMarkdownVaultPath u sourcePath = .ok source ∧
      (∃ entry ∈ pathPrefixes, InFolder entry.pathKey source.pathKey) ∧
      (∀ entry ∈ exclusions, ¬ InFolder entry.pathKey source.pathKey) ∧
      (∀ entry ∈ folder, InFolder entry.pathKey source.pathKey) ∧
      ∀ grant ∈ input.grant, grantAllows grant source.pathKey = true := by
  unfold sourceFaulty at h
  split at h
  · cases h
  · next source hsource =>
    simp only [Bool.or_eq_false_iff, Bool.not_eq_false', List.any_eq_true, List.any_eq_false,
      contextPathIncludes_iff, beyondBoundary, grantDenies] at h
    obtain ⟨⟨⟨hincluded, hexcluded⟩, hbounded⟩, hgranted⟩ := h
    refine ⟨source, hsource, hincluded, hexcluded, ?_, ?_⟩
    · intro entry hentry
      rw [Option.mem_def] at hentry
      simpa [hentry, contextPathIncludes_iff] using hbounded
    · intro grant hgrant
      rw [Option.mem_def] at hgrant
      simpa [hgrant] using hgranted

/-- Folders that have different keys and are not redundant are apart from each other. -/
theorem folders_apart (pathPrefixes : List NormalizedPrefix)
    (hnodup : (pathPrefixes.map (·.pathKey)).Nodup)
    (hredundant : redundantIncludes pathPrefixes = false) :
    (pathPrefixes.map (·.pathKey)).Pairwise (fun key other =>
      ¬ InFolder key other ∧ ¬ InFolder other key) := by
  have hnone : ∀ folder ∈ pathPrefixes, ∀ other ∈ pathPrefixes, other.pathKey ≠ folder.pathKey →
      ¬ InFolder other.pathKey folder.pathKey := by
    intro folder hfolder other hother hne hin
    unfold redundantIncludes at hredundant
    rw [List.any_eq_false] at hredundant
    apply hredundant folder hfolder
    rw [List.any_eq_true]
    exact ⟨other, hother, by simp [hne, (contextPathIncludes_iff _ _).mpr hin]⟩
  rw [List.Nodup, List.pairwise_map] at hnodup
  rw [List.pairwise_map]
  apply hnodup.imp_of_mem
  intro folder other hfolder hother hne
  exact ⟨hnone other hother folder hfolder hne, hnone folder hfolder other hother hne.symm⟩

/-- A compiled policy is as it is to be exactly if no note that the project starts from is hidden
    or named as a folder of the grant. -/
theorem compiles_iff (hu : Lawful u) (hfilled : ∀ chars, chars ≠ [] → nfcChars u chars ≠ [])
    (rawPolicy : Json) (compiled : CompiledPolicy u)
    (h : compileProjectContextPolicy uuid rawPolicy input = .ok compiled) :
    Compiles uuid input compiled ↔ NotesApart input := by
  obtain ⟨parsed, folder, pathPrefixes, exclusions, hprefixes, hexclusions, hredundant, hfolder,
    hcompiled⟩ := compile_ok uuid input rawPolicy compiled h
  have hof := compileFolders_ok uuid input folder pathPrefixes exclusions compiled hcompiled
  obtain ⟨hexclusions', hprefixes'⟩ := knowledgeSpaceMemberSchema_some uuid _ _ _ _ hof.member
  have haccepted : ∀ sourcePath ∈ input.sourcePaths, _ := fun sourcePath hsource =>
    source_accepted input folder pathPrefixes exclusions sourcePath (hof.sources sourcePath hsource)
  -- The notes were compared with the grant as if they were folders.
  have hvisible : ∀ grant ∈ input.grant, ∀ sourcePath ∈ input.sourcePaths, ∀ source,
      validateMarkdownVaultPath u sourcePath = .ok source →
      grantAllows grant source.pathKey = true := by
    intro grant hgrant sourcePath hsource source hvalid
    obtain ⟨source', hvalid', -, -, -, hallows⟩ := haccepted sourcePath hsource
    rw [hvalid, Except.ok.injEq] at hvalid'
    rw [hvalid']
    exact hallows grant hgrant
  constructor
  · intro hall grant hgrant sourcePath hsource source hvalid
    exact (visible_iff_apart hu grant source.pathKey (validKey_last hu hfilled _ source hvalid)
      (hvisible grant hgrant sourcePath hsource source hvalid)).mp
      (hall.admitted grant hgrant sourcePath hsource source hvalid)
  · intro hapart
    constructor
    · intro grant hgrant sourcePath hsource source hvalid
      exact (visible_iff_apart hu grant source.pathKey (validKey_last hu hfilled _ source hvalid)
        (hvisible grant hgrant sourcePath hsource source hvalid)).mpr
        (hapart grant hgrant sourcePath hsource source hvalid)
    · intro sourcePath hsource
      obtain ⟨source, hvalid, ⟨entry, hentry, hin⟩, hexcluded, hbounded, -⟩ :=
        haccepted sourcePath hsource
      refine ⟨source, hvalid, ?_, ?_, ?_⟩
      · rw [← hprefixes'] at hentry
        obtain ⟨stored, hstored, rfl⟩ := List.mem_map.mp hentry
        exact ⟨stored, hstored, hin⟩
      · intro exclusion hexclusion
        exact hexcluded _ (hexclusions' ▸ List.mem_map_of_mem hexclusion)
      · intro boundary hboundary
        rw [Option.mem_def] at hboundary
        rw [hboundary, boundaryFolder] at hfolder
        cases hnormalized : normalizePrefix u boundary true with
        | error failure =>
            rw [hnormalized] at hfolder
            cases hfolder
        | ok entry =>
            rw [hnormalized] at hfolder
            exact ⟨entry, rfl, hbounded entry (Except.ok.inj hfolder).symm⟩
    · have hkeys : compiled.member.member.pathPrefixes.map (·.pathKey) =
          pathPrefixes.map (·.pathKey) := by
        rw [← hprefixes', List.map_map]
        rfl
      have hapart' := folders_apart pathPrefixes (sortedUniquePrefixes_ok u _ _ _ hprefixes).1
        hredundant
      rwa [← hkeys, List.pairwise_map] at hapart'
    · intro exclusion hexclusion
      obtain ⟨stored, hstored, hincludes⟩ := compiled.member.member.covered exclusion hexclusion
      exact ⟨stored, hstored, (contextPathIncludes_iff _ _).mp hincludes⟩
    · exact compile_again uuid input rawPolicy compiled h
    · exact fromMember_policy uuid input rawPolicy compiled h

end Compiles

/-! ## A note that is never to be shown -/

theorem composeCaron_filled (chars : List Char) (h : chars ≠ []) :
    nfcChars caronTables chars ≠ [] := by
  have hsame : nfcChars caronTables chars = composeCaron chars := by
    simp only [nfcChars, caronTables, String.toList_ofList]
  rw [hsame]
  cases chars with
  | nil => exact absurd rfl h
  | cons c rest =>
      cases rest with
      | nil => exact List.cons_ne_nil _ _
      | cons d rest =>
          rw [composeCaron]
          split
          · exact List.cons_ne_nil _ _
          · exact List.cons_ne_nil _ _

def workPolicy : Json :=
  (contextPolicy ["work/drafts"] ["work/"]).toJson

/-- A grant for the whole vault, which a profile restricts. -/
def hiddenGrant : ActiveAgentGrant caronTables :=
  { visibility := {
      pathKeyPrefixes := []
      runtimeProfile := some {
        contentRoots := ["work"], neverExposeFileNames := ["plan.md"], plain := by decide } }
    granted := ⟨[], rfl⟩ }

def workInput (sourcePath : String) : CompileInput caronTables :=
  { folderBoundary := none, grant := some hiddenGrant, sourcePaths := [sourcePath]
    vaultId := "vault" }

/-- The policy of a project that starts from a note with a hidden name is compiled. -/
theorem hidden_compiled :
    ∃ compiled, compileProjectContextPolicy (fun _ => true) workPolicy (workInput "work/Plan.md") =
        .ok compiled ∧
      ¬ Compiles (fun _ => true) (workInput "work/Plan.md") compiled := by
  have hok : (compileProjectContextPolicy (fun _ => true) workPolicy
      (workInput "work/Plan.md")).isOk = true := by decide +kernel
  cases hcompiled :
      compileProjectContextPolicy (fun _ => true) workPolicy (workInput "work/Plan.md") with
  | error failure =>
      rw [hcompiled] at hok
      cases hok
  | ok compiled =>
      refine ⟨compiled, rfl, fun hall => ?_⟩
      have hvisible := hall.admitted hiddenGrant rfl "work/Plan.md" List.mem_cons_self
        ⟨"work/Plan.md", "work/plan.md", "Plan"⟩ (by decide +kernel)
      have hhidden : visibilityAllowsPath caronTables
          (agentVisibilityForGrant caronTables hiddenGrant.visibility) "work/plan.md" = false := by
        decide +kernel
      rw [hhidden] at hvisible
      cases hvisible

/-- One that starts from another note is as it is to be. -/
theorem shown_compiled :
    ∃ compiled, compileProjectContextPolicy (fun _ => true) workPolicy (workInput "work/Note.md") =
        .ok compiled ∧
      Compiles (fun _ => true) (workInput "work/Note.md") compiled := by
  have hok : (compileProjectContextPolicy (fun _ => true) workPolicy
      (workInput "work/Note.md")).isOk = true := by decide +kernel
  cases hcompiled :
      compileProjectContextPolicy (fun _ => true) workPolicy (workInput "work/Note.md") with
  | error failure =>
      rw [hcompiled] at hok
      cases hok
  | ok compiled =>
      refine ⟨compiled, rfl, (compiles_iff (fun _ => true) (workInput "work/Note.md")
        caronTables_lawful composeCaron_filled workPolicy compiled hcompiled).mpr ?_⟩
      intro grant hgrant sourcePath hsource source hvalid
      rw [workInput, Option.mem_def, Option.some.injEq] at hgrant
      rw [workInput, List.mem_singleton] at hsource
      subst hgrant hsource
      have hkey := (Vault.validateMarkdownVaultPath_path _ _ source hvalid).2
      rw [hkey]
      decide +kernel

end Mdevolved.Agent
