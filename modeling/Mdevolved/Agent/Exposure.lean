import Mdevolved.Agent.Profile

/-!
# What a Profile Exposes

The profile of a vault is to let agents see only what its manifest declares: notes in the
folders that it names, none of them in the memory folder, and none with a name that is never
to be shown. Between the manifest and a note the profile is cleaned and cut off by the plugin,
trimmed by the server, and intersected with the folders of a grant.

What is lost on the way may open the profile. A list of names is cut off after 64 of them, and
a name that begins or ends with a blank becomes another one. So does a folder. A folder that
the memory folder is in is exposed together with it. And the server may refuse a profile that
the plugin has made. What is told here is exactly when a profile keeps what its manifest says.

A note anywhere in a folder has a sibling right in the folder, at a path that is as valid as
its own. By that a folder is told from those that it is in.

## Main definitions

* `Acceptable`: What the characters of a valid path are like.
* `LiesIn`, `Named`: Where a note is, and what it is called, as visibility has it.
* `declaredRoots`, `listedNames`: What a manifest says.
* `Upheld`: A profile keeps what its manifest says.
* `Faithful`: When it does.

## Theorems

* `visible_by_grant_iff`: Which notes the profile lets agents see by some grant.
* `direct_child`: A note in a folder has a sibling right in it.
* `upheld_iff`: A profile is upheld exactly if it is faithful.
-/

namespace Mdevolved.Agent

open Vault (UnicodeTables validateMarkdownVaultPath pathFault segmentFault)

/-! ## Texts that are parted by separators -/

/-- Characters are turned into others segment by segment. -/
structure Parting (k : List Char → List Char) : Prop where
  separator : ∀ front rest, k (front ++ '/' :: rest) = k front ++ '/' :: k rest
  segment : ∀ chars, '/' ∉ chars → '/' ∉ k chars

theorem Parting.comp {k l : List Char → List Char} (hk : Parting k) (hl : Parting l) :
    Parting (fun chars => k (l chars)) := by
  constructor
  · intro front rest
    rw [hl.separator, hk.separator]
  · intro chars h
    exact hk.segment _ (hl.segment _ h)

theorem Parting.count {k : List Char → List Char} (hk : Parting k) (n : Nat)
    (chars : List Char) (hn : chars.count '/' = n) : (k chars).count '/' = n := by
  induction n generalizing chars with
  | zero => exact List.count_eq_zero.mpr (hk.segment _ (List.count_eq_zero.mp hn))
  | succ n ih =>
      have hmem : '/' ∈ chars := List.count_pos_iff.mp (by omega)
      obtain ⟨front, rest, rfl, hrest⟩ := split_last chars hmem
      rw [List.count_append, List.count_cons_self, List.count_eq_zero.mpr hrest] at hn
      rw [hk.separator, List.count_append, List.count_cons_self, ih front (by omega),
        List.count_eq_zero.mpr (hk.segment rest hrest)]

/-- A text with enough separators is parted where a number of them is still to come. -/
theorem split_count (chars : List Char) (n : Nat) (h : n < chars.count '/') :
    ∃ front rest, chars = front ++ '/' :: rest ∧ rest.count '/' = n := by
  induction chars with
  | nil => simp at h
  | cons c chars ih =>
      by_cases hlater : n < chars.count '/'
      · obtain ⟨front, rest, rfl, hrest⟩ := ih hlater
        exact ⟨c :: front, rest, rfl, hrest⟩
      · by_cases hc : c = '/'
        · subst hc
          rw [List.count_cons_self] at h
          exact ⟨[], chars, rfl, by omega⟩
        · rw [List.count_cons_of_ne hc] at h
          exact absurd h hlater

/-- There is one way to do so. -/
theorem split_count_inj (front front' rest rest' : List Char)
    (hcount : rest.count '/' = rest'.count '/')
    (h : front ++ '/' :: rest = front' ++ '/' :: rest') : front = front' ∧ rest = rest' := by
  rcases List.append_eq_append_iff.mp h with ⟨between, hfront, hrest⟩ | ⟨between, hfront, hrest⟩
  · cases between with
    | nil => simpa [hfront] using hrest
    | cons c between =>
        rw [List.cons_append, List.cons.injEq] at hrest
        have hmore := congrArg (List.count '/') hrest.2
        rw [List.count_append, List.count_cons_self] at hmore
        omega
  · cases between with
    | nil => simpa [hfront, eq_comm] using hrest
    | cons c between =>
        rw [List.cons_append, List.cons.injEq] at hrest
        have hmore := congrArg (List.count '/') hrest.2
        rw [List.count_append, List.count_cons_self] at hmore
        omega

/-- What ends with a separator and begins a text is in front of what has none. -/
theorem folder_prefix (folder front name : List Char) (hname : '/' ∉ name)
    (h : folder ++ ['/'] <+: front ++ name) : folder ++ ['/'] <+: front := by
  obtain ⟨tail, htail⟩ := h
  rcases List.append_eq_append_iff.mp htail with ⟨rest, hfront, -⟩ | ⟨rest, hrest, hname'⟩
  · exact ⟨rest, hfront.symm⟩
  · cases hlast : rest.getLast? with
    | none =>
        rw [List.getLast?_eq_none_iff] at hlast
        rw [hrest, hlast, List.append_nil]
    | some c =>
        -- The last character of what is over is the separator.
        have hc : (folder ++ ['/']).getLast? = some c := by
          rw [hrest, List.getLast?_append, hlast]
          rfl
        rw [List.getLast?_concat, Option.some.injEq] at hc
        have hmem : '/' ∈ rest := hc ▸ List.mem_of_getLast? hlast
        exact absurd (hname' ▸ List.mem_append_left tail hmem) hname

/-! ## Valid paths -/

section Valid

variable (u : UnicodeTables)

/-- The server's validator accepts a path. -/
def ValidPath (path : String) : Prop :=
  ∃ validated, validateMarkdownVaultPath u path = .ok validated

/-- What the characters of a valid path are like. -/
structure Acceptable (chars : List Char) : Prop where
  normal : nfcChars u chars = chars
  short : (String.ofList chars).utf8ByteSize ≤ Vault.maxVaultPathBytes
  printable : ∀ c ∈ chars, u.isControlOrFormat c = false
  unreserved : ∀ c ∈ chars, Vault.windowsReservedCharacter c = false
  plain : '\\' ∉ chars
  segments : ∀ segment ∈ chars.splitOn '/', segmentFault segment = none
  outside : (chars.splitOn '/').head?.map (lowerChars u) ≠ some ".obsidian".toList
  markdown : ['.', 'm', 'd'] <:+ lowerChars u chars

/-- The segments between two separators, behind the last one and in front of the first one are
    empty where nothing is. -/
theorem segments_filled (chars : List Char)
    (h : ∀ segment ∈ chars.splitOn '/', segmentFault segment = none) :
    chars ≠ [] ∧ chars.head? ≠ some '/' ∧ ¬ ['/', '/'] <:+: chars ∧ chars.getLast? ≠ some '/' := by
  have hempty : [] ∉ chars.splitOn '/' := by
    intro hmem
    exact absurd (h [] hmem) (by decide)
  refine ⟨?_, ?_, ?_, ?_⟩
  · rintro rfl
    exact hempty (by simp)
  · intro hhead
    obtain ⟨rest, rfl⟩ := List.head?_eq_some_iff.mp hhead
    exact hempty (by simp [List.splitOn_cons_eq_if_modifyHead])
  · rintro ⟨front, rest, rfl⟩
    have hsplit : (front ++ ['/', '/'] ++ rest).splitOn '/' =
        front.splitOn '/' ++ ([] :: rest.splitOn '/') := by
      rw [List.append_assoc]
      change (front ++ '/' :: ('/' :: rest)).splitOn '/' = _
      rw [List.splitOn_append_cons_self]
      simp [List.splitOn_cons_eq_if_modifyHead]
    exact hempty (by rw [hsplit]; simp)
  · intro hlast
    obtain ⟨front, rfl⟩ := List.getLast?_eq_some_iff.mp hlast
    have hsplit : (front ++ ['/']).splitOn '/' = front.splitOn '/' ++ [[]] := by
      rw [List.splitOn_append_cons_self]
      simp
    exact hempty (by rw [hsplit]; simp)

/-- A path is valid exactly if its characters are acceptable. -/
theorem validPath_iff (path : String) : ValidPath u path ↔ Acceptable u path.toList := by
  have hfault : ValidPath u path ↔ pathFault u path = none := by
    unfold ValidPath validateMarkdownVaultPath
    cases hlast : (path.toList.splitOn '/').getLast? with
    | none =>
        rw [List.getLast?_eq_none_iff] at hlast
        exact absurd hlast (List.splitOn_ne_nil _ _)
    | some filename =>
        cases pathFault u path with
        | none => simp
        | some reason => simp
  have hnormal : nfcChars u path.toList = path.toList ↔ path = u.nfc path := by
    rw [nfcChars, String.ofList_toList, String.toList_inj, eq_comm]
  have hlower : lowerChars u path.toList = (u.toLowerCase path).toList := by
    rw [lowerChars, String.ofList_toList]
  have houtside : (path.toList.splitOn '/').head?.map
        (fun segment => u.toLowerCase (String.ofList segment)) = some ".obsidian" ↔
      (path.toList.splitOn '/').head?.map (lowerChars u) = some ".obsidian".toList := by
    cases (path.toList.splitOn '/').head? with
    | none => simp
    | some segment =>
        simp only [Option.map_some, Option.some.injEq, lowerChars]
        exact String.toList_inj.symm
  rw [hfault]
  unfold pathFault
  dsimp only
  constructor
  · intro h
    split at h
    · cases h
    split at h
    · cases h
    next hnfc =>
    split at h
    · cases h
    next hshort =>
    split at h
    · cases h
    next hprintable =>
    split at h
    · cases h
    next hunreserved =>
    split at h
    · cases h
    next hplain =>
    split at h
    · cases h
    split at h
    · cases h
    split at h
    · cases h
    split at h
    · cases h
    next hsegments =>
    split at h
    · cases h
    next hobsidian =>
    split at h
    case isFalse => cases h
    next hmarkdown =>
    simp only [Bool.not_eq_true, List.any_eq_false] at hprintable hunreserved
    rw [List.findSome?_eq_none_iff] at hsegments
    constructor
    · exact hnormal.mpr (not_not.mp hnfc)
    · rw [String.ofList_toList]
      exact Nat.not_lt.mp hshort
    · exact hprintable
    · exact hunreserved
    · simpa using hplain
    · exact hsegments
    · exact fun hsame => hobsidian (houtside.mpr hsame)
    · rw [hlower]
      exact hmarkdown
  · intro h
    obtain ⟨hsome, hhead, hdouble, hlast⟩ := segments_filled path.toList h.segments
    have hdrive : Vault.driveRoot path.toList = false := by
      unfold Vault.driveRoot
      split
      · next c rest hchars =>
        have hcolon := h.unreserved ':' (by rw [hchars]; simp)
        exact absurd hcolon (by decide)
      · rfl
    have hprintable : path.toList.any u.isControlOrFormat = false :=
      List.any_eq_false.mpr (fun c hc => by rw [h.printable c hc]; exact Bool.false_ne_true)
    have hunreserved : path.toList.any Vault.windowsReservedCharacter = false :=
      List.any_eq_false.mpr (fun c hc => by rw [h.unreserved c hc]; exact Bool.false_ne_true)
    have hshort := h.short
    rw [String.ofList_toList] at hshort
    have hmarkdown := h.markdown
    rw [hlower] at hmarkdown
    have hsegments := List.findSome?_eq_none_iff.mpr h.segments
    rw [if_neg hsome, if_neg (not_not.mpr (hnormal.mp h.normal)), if_neg (Nat.not_lt.mpr hshort),
      hprintable, hunreserved, hsegments]
    simp [h.plain, hhead, hdrive, hdouble, hlast, mt houtside.mp h.outside, hmarkdown]

/-- A segment at the end of a path that has an extension has it. -/
theorem suffix_of_segment (front leaf extension : List Char) (hextension : '/' ∉ extension)
    (h : extension <:+ front ++ '/' :: leaf) : extension <:+ leaf := by
  obtain ⟨rest, hrest⟩ := h
  rcases List.append_eq_append_iff.mp hrest.symm with ⟨between, -, hbetween⟩ | ⟨between, -, hbetween⟩
  · cases between with
    | nil =>
        rw [List.nil_append] at hbetween
        rw [← hbetween] at hextension
        simp at hextension
    | cons c between =>
        rw [List.cons_append, List.cons.injEq] at hbetween
        exact ⟨between, hbetween.2.symm⟩
  · rw [hbetween] at hextension
    simp at hextension

variable (hu : Lawful u)

include hu

theorem lower_parting : Parting (lowerChars u) :=
  ⟨hu.lower_separator, hu.lower_segment⟩

theorem nfc_parting : Parting (nfcChars u) :=
  ⟨hu.nfc_separator, hu.nfc_segment⟩

omit hu in
theorem utf8ByteSize_sublist (chars chars' : List Char) (h : chars.Sublist chars') :
    (String.ofList chars).utf8ByteSize ≤ (String.ofList chars').utf8ByteSize := by
  have hcons : ∀ (c : Char) (rest : List Char), (String.ofList (c :: rest)).utf8ByteSize =
      (String.ofList [c]).utf8ByteSize + (String.ofList rest).utf8ByteSize := by
    intro c rest
    rw [← String.utf8ByteSize_append, ← String.ofList_append, List.singleton_append]
  induction h with
  | slnil => exact Nat.le_refl _
  | cons c h ih =>
      rw [hcons]
      omega
  | @cons_cons shorter longer c h ih =>
      rw [hcons c shorter, hcons c longer]
      omega

/-- A valid path stays valid where folders behind a folder are left out. -/
theorem acceptable_child (front middle leaf : List Char) (hleaf : '/' ∉ leaf)
    (h : Acceptable u (front ++ '/' :: (middle ++ '/' :: leaf))) :
    Acceptable u (front ++ '/' :: leaf) := by
  have hsublist : (front ++ '/' :: leaf).Sublist (front ++ '/' :: (middle ++ '/' :: leaf)) := by
    apply List.Sublist.append_left
    have hbehind : ('/' :: leaf).Sublist (middle ++ '/' :: leaf) := List.sublist_append_right _ _
    exact hbehind.cons '/'
  have hnormal := h.normal
  rw [hu.nfc_separator, hu.nfc_separator] at hnormal
  have hcount : (nfcChars u middle ++ '/' :: nfcChars u leaf).count '/' =
      (middle ++ '/' :: leaf).count '/' := by
    have hparting := nfc_parting u hu
    rw [List.count_append, List.count_append, List.count_cons_self, List.count_cons_self,
      hparting.count _ middle rfl, hparting.count _ leaf rfl]
  obtain ⟨hfront, hrest⟩ := split_count_inj _ _ _ _ hcount hnormal
  have hend := (split_inj _ _ _ _ (hu.nfc_segment leaf hleaf) hleaf hrest).2
  have hsplit : (front ++ '/' :: leaf).splitOn '/' = front.splitOn '/' ++ leaf.splitOn '/' :=
    List.splitOn_append_cons_self _ _
  have hsplit' : (front ++ '/' :: (middle ++ '/' :: leaf)).splitOn '/' =
      front.splitOn '/' ++ (middle.splitOn '/' ++ leaf.splitOn '/') := by
    rw [List.splitOn_append_cons_self, List.splitOn_append_cons_self]
  have hfirst : front.splitOn '/' ≠ [] := List.splitOn_ne_nil _ _
  constructor
  · rw [hu.nfc_separator, hfront, hend]
  · exact (utf8ByteSize_sublist _ _ hsublist).trans h.short
  · exact fun c hc => h.printable c (hsublist.subset hc)
  · exact fun c hc => h.unreserved c (hsublist.subset hc)
  · exact fun hc => h.plain (hsublist.subset hc)
  · intro segment hsegment
    apply h.segments segment
    rw [hsplit] at hsegment
    rw [hsplit']
    rcases List.mem_append.mp hsegment with hbefore | hafter
    · exact List.mem_append_left _ hbefore
    · exact List.mem_append_right _ (List.mem_append_right _ hafter)
  · have houtside := h.outside
    rw [hsplit', List.head?_append_of_ne_nil _ hfirst] at houtside
    rw [hsplit, List.head?_append_of_ne_nil _ hfirst]
    exact houtside
  · have hmarkdown := h.markdown
    rw [hu.lower_separator, hu.lower_separator, List.append_cons, ← List.append_assoc] at hmarkdown
    have hextension : '/' ∉ ['.', 'm', 'd'] := by decide
    obtain ⟨rest, hrest⟩ := suffix_of_segment _ _ _ hextension hmarkdown
    rw [hu.lower_separator]
    exact ⟨lowerChars u front ++ '/' :: rest, by rw [← hrest]; simp⟩

end Valid

/-! ## Where a note is -/

section Places

variable (u : UnicodeTables)

/-- What visibility looks at where it is asked about a path. -/
def visibleKey (path : String) : String :=
  normalized u (u.toLowerCase path)

/-- A note is in a folder. -/
def LiesIn (root path : String) : Prop :=
  startsWith (visibleKey u path) (folderKey u root) = true

/-- A note has a name. -/
def Named (name path : String) : Prop :=
  normalized u name = String.ofList (fileName (visibleKey u path).toList)

/-- A folder is in another one, or is that one. -/
def Inside (inner outer : String) : Prop :=
  startsWith (folderKey u inner) (folderKey u outer) = true

theorem startsWith_trans (a b c : String) (hab : startsWith a b = true)
    (hbc : startsWith b c = true) : startsWith a c = true := by
  rw [startsWith, List.isPrefixOf_iff_prefix] at hab hbc ⊢
  exact hbc.trans hab

theorem LiesIn.outer {u : UnicodeTables} {inner outer path : String} (h : LiesIn u inner path)
    (hinside : Inside u inner outer) : LiesIn u outer path :=
  startsWith_trans _ _ _ h hinside

/-- Of two folders that a note is in, one is in the other. -/
theorem inside_of_liesIn (root root' path : String) (h : LiesIn u root path)
    (h' : LiesIn u root' path) : Inside u root root' ∨ Inside u root' root := by
  unfold LiesIn startsWith at h h'
  unfold Inside startsWith
  rw [List.isPrefixOf_iff_prefix] at h h'
  rw [List.isPrefixOf_iff_prefix, List.isPrefixOf_iff_prefix]
  exact (List.prefix_or_prefix_of_prefix h h').symm

variable (hu : Lawful u)

include hu

theorem visible_parting :
    Parting (fun chars => lowerChars u (nfcChars u (lowerChars u chars))) :=
  (lower_parting u hu).comp ((nfc_parting u hu).comp (lower_parting u hu))

omit hu in
theorem visibleKey_toList (path : String) :
    (visibleKey u path).toList = lowerChars u (nfcChars u (lowerChars u path.toList)) := by
  rw [visibleKey, normalized_toList, lowerChars, lowerChars, lowerChars, String.ofList_toList]

/-- A note in a folder has a sibling of the same name right in the folder. -/
theorem direct_child (root path : String) (hpath : ValidPath u path) (hroot : LiesIn u root path) :
    ∃ child, ValidPath u child ∧ LiesIn u root child ∧
      fileName (visibleKey u child).toList = fileName (visibleKey u path).toList ∧
      ∀ root', LiesIn u root' child → Inside u root root' := by
  have hparting := visible_parting u hu
  -- The key is parted behind the folder, and so is the path.
  obtain ⟨folder, hfolder⟩ : ∃ folder, (folderKey u root).toList = folder ++ ['/'] :=
    ⟨_, by rw [folderKey, String.toList_ofList]⟩
  have hstarts := hroot
  rw [LiesIn, startsWith, List.isPrefixOf_iff_prefix, hfolder, visibleKey_toList] at hstarts
  obtain ⟨rest, hrest⟩ := hstarts
  rw [List.append_assoc, List.singleton_append] at hrest
  have hslashes := congrArg (List.count '/') hrest
  rw [hparting.count _ path.toList rfl, List.count_append, List.count_cons_self] at hslashes
  obtain ⟨front, tail, hsplit, htail⟩ := split_count path.toList (rest.count '/') (by omega)
  have hkey := hparting.separator front tail
  rw [← hsplit, ← hrest] at hkey
  obtain ⟨hfront, -⟩ := split_count_inj _ _ _ _ (by rw [hparting.count _ tail rfl, htail]) hkey
  rw [validPath_iff, hsplit] at hpath
  -- The last segment of what is behind it.
  obtain ⟨leaf, hleaf, hacceptable, hname⟩ : ∃ leaf, '/' ∉ leaf ∧
      Acceptable u (front ++ '/' :: leaf) ∧
      ∃ before, path.toList = before ++ '/' :: leaf := by
    by_cases hmem : '/' ∈ tail
    · obtain ⟨middle, leaf, rfl, hleaf⟩ := split_last tail hmem
      refine ⟨leaf, hleaf, acceptable_child u hu front middle leaf hleaf hpath, ?_⟩
      exact ⟨front ++ '/' :: middle, by rw [hsplit]; simp⟩
    · exact ⟨tail, hmem, hpath, front, hsplit⟩
  obtain ⟨before, hbefore⟩ := hname
  have hplain := hparting.segment leaf hleaf
  have hchild : (visibleKey u (String.ofList (front ++ '/' :: leaf))).toList =
      folder ++ '/' :: lowerChars u (nfcChars u (lowerChars u leaf)) := by
    rw [visibleKey_toList, String.toList_ofList, hparting.separator, ← hfront]
  have hpathKey : (visibleKey u path).toList =
      lowerChars u (nfcChars u (lowerChars u before)) ++
        '/' :: lowerChars u (nfcChars u (lowerChars u leaf)) := by
    rw [visibleKey_toList, hbefore, hparting.separator]
  refine ⟨String.ofList (front ++ '/' :: leaf), ?_, ?_, ?_, ?_⟩
  · rw [validPath_iff, String.toList_ofList]
    exact hacceptable
  · rw [LiesIn, startsWith, List.isPrefixOf_iff_prefix, hfolder, hchild]
    exact ⟨lowerChars u (nfcChars u (lowerChars u leaf)), by simp⟩
  · rw [(fileName_eq_iff _ _ hplain).mpr (Or.inr ⟨_, hchild.symm⟩),
      (fileName_eq_iff _ _ hplain).mpr (Or.inr ⟨_, hpathKey.symm⟩)]
  · intro root' hroot'
    obtain ⟨folder', hfolder'⟩ : ∃ folder', (folderKey u root').toList = folder' ++ ['/'] :=
      ⟨_, by rw [folderKey, String.toList_ofList]⟩
    rw [LiesIn, startsWith, List.isPrefixOf_iff_prefix, hfolder', hchild,
      List.append_cons folder] at hroot'
    rw [Inside, startsWith, List.isPrefixOf_iff_prefix, hfolder, hfolder']
    exact folder_prefix folder' (folder ++ ['/']) _ hplain hroot'

end Places

/-! ## What agents see by some grant -/

section Visible

variable (u : UnicodeTables)

/-- Every folder is in one that is in no other. -/
theorem minimalPrefixes_cover (values : List String) (value : String) (h : value ∈ values) :
    ∃ least ∈ minimalPrefixes values, startsWith value least = true := by
  obtain ⟨n, hn⟩ : ∃ n, n = value.toList.length := ⟨_, rfl⟩
  induction n using Nat.strong_induction_on generalizing value with
  | h n ih =>
      have hunique : value ∈ Utf16.sortBy id values.dedup :=
        (Utf16.sortBy_perm id values.dedup).mem_iff.mpr (List.mem_dedup.mpr h)
      by_cases hleast : (Utf16.sortBy id values.dedup).any (fun other =>
          other ≠ value && startsWith value other) = true
      · obtain ⟨other, hother, hproper⟩ := List.any_eq_true.mp hleast
        rw [Bool.and_eq_true, decide_eq_true_eq] at hproper
        have hmem : other ∈ values :=
          List.mem_dedup.mp ((Utf16.sortBy_perm id values.dedup).mem_iff.mp hother)
        have hstarts := hproper.2
        rw [startsWith, List.isPrefixOf_iff_prefix] at hstarts
        have hshorter : other.toList.length < n := by
          rcases Nat.lt_or_ge other.toList.length n with hlt | hge
          · exact hlt
          · have hsame := hstarts.eq_of_length_le (by omega)
            exact absurd (String.toList_inj.mp hsame) hproper.1
        obtain ⟨least, hleast', hcovers⟩ := ih _ hshorter other hmem rfl
        exact ⟨least, hleast', startsWith_trans _ _ _ hproper.2 hcovers⟩
      · refine ⟨value, List.mem_filter.mpr ⟨hunique, ?_⟩, ?_⟩
        · rw [Bool.not_eq_true] at hleast
          rw [hleast]
          rfl
        · rw [startsWith, List.isPrefixOf_iff_prefix]

/-- What a grant and a profile have in common is in a folder of the profile. -/
theorem intersectPrefixes_root (granted roots : List String) (s : String)
    (h : s ∈ intersectPrefixes u granted roots) :
    ∃ root ∈ roots, startsWith s (folderKey u root) = true := by
  have hself : ∀ t : String, startsWith t t = true := by
    intro t
    rw [startsWith, List.isPrefixOf_iff_prefix]
  unfold intersectPrefixes at h
  dsimp only at h
  split at h
  · obtain ⟨root, hroot, rfl⟩ := List.mem_map.mp (mem_minimalPrefixes _ s h)
    exact ⟨root, hroot, hself _⟩
  · obtain ⟨grant, -, hs⟩ := List.mem_flatMap.mp (mem_minimalPrefixes _ s h)
    obtain ⟨profile, hprofile, hs⟩ := List.mem_flatMap.mp hs
    obtain ⟨root, hroot, rfl⟩ := List.mem_map.mp hprofile
    split at hs
    · rw [List.mem_singleton.mp hs]
      exact ⟨root, hroot, hself _⟩
    · split at hs
      · next hwithin =>
        rw [List.mem_singleton.mp hs]
        exact ⟨root, hroot, hwithin⟩
      · cases hs

/-- A profile lets agents see a note by some grant exactly if the note is in one of its folders
    and has none of its names. -/
theorem visible_by_grant_iff (runtime : RuntimeProfile) (path : String) :
    (∃ grant : VisibilityGrant, grant.runtimeProfile = some runtime ∧
      visibilityAllowsPath u (agentVisibilityForGrant u grant) (u.toLowerCase path) = true) ↔
    (∃ root ∈ runtime.contentRoots, LiesIn u root path) ∧
      ∀ name ∈ runtime.neverExposeFileNames, ¬ Named u name path := by
  have hnames : (runtime.neverExposeFileNames.map (normalized u)).contains
      (String.ofList (fileName (visibleKey u path).toList)) = false ↔
      ∀ name ∈ runtime.neverExposeFileNames, ¬ Named u name path := by
    rw [← Bool.not_eq_true, List.contains_iff_mem, List.mem_map]
    simp [Named]
  constructor
  · rintro ⟨grant, hprofile, hallows⟩
    simp only [visibilityAllowsPath, agentVisibilityForGrant, hprofile, Bool.and_eq_true,
      Bool.or_eq_true, Bool.not_eq_true'] at hallows
    obtain ⟨⟨hsome, hunnamed⟩, hstarts⟩ := hallows
    refine ⟨?_, hnames.mp hunnamed⟩
    rw [hsome] at hstarts
    obtain ⟨s, hs, hkey⟩ := List.any_eq_true.mp (hstarts.resolve_left Bool.false_ne_true)
    obtain ⟨root, hroot, hinside⟩ := intersectPrefixes_root u _ _ s hs
    exact ⟨root, hroot, startsWith_trans _ _ _ hkey hinside⟩
  · rintro ⟨⟨root, hroot, hlies⟩, hunnamed⟩
    -- A grant for the whole vault.
    refine ⟨{ pathKeyPrefixes := [], runtimeProfile := some runtime }, rfl, ?_⟩
    obtain ⟨least, hleast, hcovers⟩ := minimalPrefixes_cover (runtime.contentRoots.map (folderKey u))
      (folderKey u root) (List.mem_map_of_mem hroot)
    have hany : (minimalPrefixes (runtime.contentRoots.map (folderKey u))).any
        (fun start => startsWith (visibleKey u path) start) = true :=
      List.any_eq_true.mpr ⟨least, hleast, startsWith_trans _ _ _ hlies hcovers⟩
    have hsome : (minimalPrefixes (runtime.contentRoots.map (folderKey u))).isEmpty = false := by
      rw [List.isEmpty_eq_false_iff]
      exact List.ne_nil_of_mem hleast
    simp only [visibilityAllowsPath, agentVisibilityForGrant, intersectPrefixes, if_true]
    rw [hsome]
    exact Bool.and_eq_true_iff.mpr ⟨Bool.and_eq_true_iff.mpr ⟨rfl, by
      rw [Bool.not_eq_true']
      exact hnames.mpr hunnamed⟩, hany⟩

end Visible

/-! ## What a manifest says -/

section Manifest

variable (u : UnicodeTables)

/-- The value of a manifest. -/
def manifestOf (manifestText : String) : Json :=
  (Json.parse manifestText).getD .null

/-- The folders that a manifest declares. -/
def declaredRoots (manifest : Json) : List String :=
  let declared := rootsIn (manifest.member "mcp_exposed_roots")
  let derived := rootsIn (manifest.member "user_content_roots")
  if declared ≠ [] then declared else if derived ≠ [] then derived else fallbackRoots

/-- The names that are never to be shown. -/
def listedNames (manifest : Json) : List String :=
  textsIn (manifest.member "mcp_never_expose")

/-- What a manifest says of a note that agents may see. -/
structure Permitted (manifest : Json) (memoryRoot path : String) : Prop where
  declared : ∃ root ∈ declaredRoots manifest, LiesIn u root path
  apart : ¬ LiesIn u memoryRoot path
  unlisted : ∀ name ∈ listedNames manifest, ¬ Named u name path

/-- The server takes a profile in, and whatever agents may see by a grant is as the manifest
    says. -/
def Upheld (manifest : Json) (profile : ObsidianMindRuntimeProfile) : Prop :=
  ∃ accepted, obsidianMindRuntimeProfileSchema u profile = some accepted ∧
    ∀ path, ValidPath u path → ∀ grant : VisibilityGrant,
      grant.runtimeProfile = some accepted.runtime →
      visibilityAllowsPath u (agentVisibilityForGrant u grant) (u.toLowerCase path) = true →
      Permitted u manifest profile.memoryRoot path

/-- No name that is left of a profile hides a note. -/
def Unhidden (profile : ObsidianMindRuntimeProfile) (path : String) : Prop :=
  ∀ name ∈ profile.neverExposeFileNames, ¬ Named u (keptName name) path

/-- There can be a note in a folder that is not hidden. -/
def CanHold (profile : ObsidianMindRuntimeProfile) (root : String) : Prop :=
  ∃ path, ValidPath u path ∧ LiesIn u root path ∧ Unhidden u profile path

/-- When a profile keeps what its manifest says. A folder that cannot hold a note that is not
    hidden does not matter, and neither does a name that no note can have. -/
structure Faithful (manifest : Json) (profile : ObsidianMindRuntimeProfile) : Prop where
  fits : Fits u profile
  roots : ∀ root ∈ profile.contentRoots, CanHold u profile (keptRoot root) →
    ∃ declared ∈ declaredRoots manifest, Inside u (keptRoot root) declared
  memory : ∀ root ∈ profile.contentRoots,
    (Inside u profile.memoryRoot (keptRoot root) → ¬ CanHold u profile profile.memoryRoot) ∧
      (Inside u (keptRoot root) profile.memoryRoot → ¬ CanHold u profile (keptRoot root))
  names : ∀ name ∈ listedNames manifest,
    (∃ root ∈ profile.contentRoots, ∃ path, ValidPath u path ∧ LiesIn u (keptRoot root) path ∧
      Named u name path) →
    ∃ left ∈ profile.neverExposeFileNames, normalized u (keptName left) = normalized u name

instance (root path : String) : Decidable (LiesIn u root path) :=
  inferInstanceAs (Decidable (_ = true))

instance (inner outer : String) : Decidable (Inside u inner outer) :=
  inferInstanceAs (Decidable (_ = true))

/-- A note that is in an exposed folder and not hidden is as the manifest says, if the profile
    keeps that. -/
theorem permitted_of_faithful (manifest : Json) (profile : ObsidianMindRuntimeProfile)
    (h : Faithful u manifest profile) (root path : String) (hroot : root ∈ profile.contentRoots)
    (hpath : ValidPath u path) (hlies : LiesIn u (keptRoot root) path)
    (hunhidden : Unhidden u profile path) : Permitted u manifest profile.memoryRoot path := by
  constructor
  · obtain ⟨declared, hdeclared, hinside⟩ := h.roots root hroot ⟨path, hpath, hlies, hunhidden⟩
    exact ⟨declared, hdeclared, hlies.outer hinside⟩
  · intro hmemory
    rcases inside_of_liesIn u _ _ path hlies hmemory with hinside | hinside
    · exact (h.memory root hroot).2 hinside ⟨path, hpath, hlies, hunhidden⟩
    · exact (h.memory root hroot).1 hinside ⟨path, hpath, hmemory, hunhidden⟩
  · intro name hname hnamed
    obtain ⟨left, hleft, hsame⟩ := h.names name hname ⟨root, hroot, path, hpath, hlies, hnamed⟩
    exact hunhidden left hleft (hsame.trans hnamed)

/-- A profile of which every note that is exposed and not hidden is as the manifest says keeps
    that. -/
theorem faithful_of_permitted (hu : Lawful u) (manifest : Json)
    (profile : ObsidianMindRuntimeProfile) (hfits : Fits u profile)
    (h : ∀ root ∈ profile.contentRoots, ∀ path, ValidPath u path →
      LiesIn u (keptRoot root) path → Unhidden u profile path →
      Permitted u manifest profile.memoryRoot path) : Faithful u manifest profile := by
  constructor
  · exact hfits
  · rintro root hroot ⟨path, hpath, hlies, hunhidden⟩
    obtain ⟨child, hchild, hlies', hname, hinside⟩ := direct_child u hu _ path hpath hlies
    have hunhidden' : Unhidden u profile child := by
      intro name hmem hnamed
      apply hunhidden name hmem
      rw [Named, ← hname]
      exact hnamed
    obtain ⟨declared, hdeclared, hin⟩ := (h root hroot child hchild hlies' hunhidden').declared
    exact ⟨declared, hdeclared, hinside declared hin⟩
  · intro root hroot
    constructor
    · rintro hinside ⟨path, hpath, hlies, hunhidden⟩
      exact (h root hroot path hpath (hlies.outer hinside) hunhidden).apart hlies
    · rintro hinside ⟨path, hpath, hlies, hunhidden⟩
      exact (h root hroot path hpath hlies hunhidden).apart (hlies.outer hinside)
  · rintro name hname ⟨root, hroot, path, hpath, hlies, hnamed⟩
    by_contra hnone
    push Not at hnone
    have hunhidden : Unhidden u profile path := by
      intro left hleft hnamed'
      exact hnone left hleft (hnamed'.trans hnamed.symm)
    exact (h root hroot path hpath hlies hunhidden).unlisted name hname hnamed

/-- A profile is upheld exactly if it is faithful. -/
theorem upheld_iff (hu : Lawful u) (manifestText : String) (profile : ObsidianMindRuntimeProfile)
    (h : parseObsidianMindRuntimeProfile u manifestText = some profile) :
    Upheld u (manifestOf manifestText) profile ↔
      Faithful u (manifestOf manifestText) profile := by
  obtain ⟨parsed, -, hparsed⟩ := Option.bind_eq_some_iff.mp h
  have hcleaned := parse_cleaned u parsed profile hparsed
  -- What agents may see by some grant is exposed and not hidden.
  have hvisible : ∀ accepted, obsidianMindRuntimeProfileSchema u profile = some accepted →
      ∀ path, (∃ grant : VisibilityGrant, grant.runtimeProfile = some accepted.runtime ∧
        visibilityAllowsPath u (agentVisibilityForGrant u grant) (u.toLowerCase path) = true) ↔
      (∃ root ∈ profile.contentRoots, LiesIn u (keptRoot root) path) ∧
        Unhidden u profile path := by
    intro accepted haccepted path
    obtain ⟨-, hroots, -, hnames⟩ := schema_ok u profile accepted hcleaned haccepted
    rw [visible_by_grant_iff, hroots, hnames]
    simp [Unhidden]
  constructor
  · rintro ⟨accepted, haccepted, hall⟩
    have hfits := (schema_ok u profile accepted hcleaned haccepted).1
    apply faithful_of_permitted u hu _ profile hfits
    intro root hroot path hpath hlies hunhidden
    obtain ⟨grant, hgrant, hallows⟩ := (hvisible accepted haccepted path).mpr
      ⟨⟨root, hroot, hlies⟩, hunhidden⟩
    exact hall path hpath grant hgrant hallows
  · intro hfaithful
    obtain ⟨accepted, haccepted⟩ := schema_of_fits u profile hcleaned hfaithful.fits
    refine ⟨accepted, haccepted, fun path hpath grant hgrant hallows => ?_⟩
    obtain ⟨⟨root, hroot, hlies⟩, hunhidden⟩ := (hvisible accepted haccepted path).mp
      ⟨grant, hgrant, hallows⟩
    exact permitted_of_faithful u _ profile hfaithful root path hroot hpath hlies hunhidden

end Manifest

/-! ## A memory folder in a folder of notes -/

/-- The memory folder is in one of the folders that are exposed where none are declared. -/
def nestedManifest : String :=
  "\x7b\"template\":\"obsidian-mind\",\"version\":\"1.0.0\",\"memory_root\":\"brain/memories\"\x7d"

def nestedProfile : ObsidianMindRuntimeProfile :=
  { contentRoots := ["brain", "reference"], memoryRoot := "brain/memories"
    neverExposeFileNames := [], version := "1.0.0" }

def nestedAccepted : AcceptedProfile :=
  { runtime := runtimeProfile ["brain", "reference"] [], memoryRoot := "brain/memories"
    version := "1.0.0" }

/-- The server takes the profile in, and agents may see what is in the memory folder. -/
theorem memory_exposed :
    parseObsidianMindRuntimeProfile caronTables nestedManifest = some nestedProfile ∧
      obsidianMindRuntimeProfileSchema caronTables nestedProfile = some nestedAccepted ∧
      ¬ Upheld caronTables (manifestOf nestedManifest) nestedProfile := by
  have haccepted : obsidianMindRuntimeProfileSchema caronTables nestedProfile =
      some nestedAccepted := by decide +kernel
  refine ⟨by decide +kernel, haccepted, ?_⟩
  rintro ⟨accepted, hsame, hall⟩
  rw [haccepted, Option.some.injEq] at hsame
  subst hsame
  have hvalid : ValidPath caronTables "brain/memories/a.md" :=
    ⟨⟨"brain/memories/a.md", "brain/memories/a.md", "a"⟩, by decide +kernel⟩
  have hpermitted := hall _ hvalid ⟨[], some nestedAccepted.runtime⟩ rfl (by decide +kernel)
  exact hpermitted.apart (by decide +kernel)

/-- The memory folder is beside the folders that are exposed. -/
def plainManifest : String :=
  "\x7b\"template\":\"obsidian-mind\",\"version\":\"1.0.0\"\x7d"

def plainProfile : ObsidianMindRuntimeProfile :=
  { contentRoots := ["brain", "reference"], memoryRoot := "memories"
    neverExposeFileNames := [], version := "1.0.0" }

theorem fitsRoot_plain (root : String) (hroot : root ∈ ["brain", "reference", "memories"]) :
    FitsRoot root := by
  simp only [List.mem_cons, List.not_mem_nil, or_false] at hroot
  rcases hroot with rfl | rfl | rfl
  all_goals constructor <;> decide +kernel

theorem plain_upheld :
    parseObsidianMindRuntimeProfile caronTables plainManifest = some plainProfile ∧
      Upheld caronTables (manifestOf plainManifest) plainProfile := by
  have hparse : parseObsidianMindRuntimeProfile caronTables plainManifest = some plainProfile := by
    decide +kernel
  have hdeclared : declaredRoots (manifestOf plainManifest) = ["brain", "reference"] := by
    decide +kernel
  have hlisted : listedNames (manifestOf plainManifest) = [] := by decide +kernel
  refine ⟨hparse, (upheld_iff caronTables caronTables_lawful plainManifest plainProfile hparse).mpr ?_⟩
  constructor
  · constructor
    · intro root hroot
      exact fitsRoot_plain root (List.mem_append_left ["memories"] hroot)
    · exact fitsRoot_plain "memories" (List.mem_append_right ["brain", "reference"] (by simp))
    · intro name hname
      cases hname
    · decide +kernel
    · decide +kernel
    · decide +kernel
    · decide +kernel
  · intro root hroot _
    refine ⟨root, by rw [hdeclared]; exact hroot, ?_⟩
    have hall : ∀ root ∈ ["brain", "reference"], Inside caronTables (keptRoot root) root := by
      decide +kernel
    exact hall root hroot
  · intro root hroot
    have hall : ∀ root ∈ ["brain", "reference"], ¬ Inside caronTables "memories" (keptRoot root) ∧
        ¬ Inside caronTables (keptRoot root) "memories" := by
      decide +kernel
    exact ⟨fun h => absurd h (hall root hroot).1, fun h => absurd h (hall root hroot).2⟩
  · rw [hlisted]
    intro name hname
    cases hname

end Mdevolved.Agent
