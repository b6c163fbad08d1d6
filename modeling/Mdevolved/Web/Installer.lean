import Mdevolved.Lib.FileTree
import Mdevolved.Lib.JsValue
import Mdevolved.Lib.Process
import Mdevolved.Lib.Utf8

/-!
# Installing the Plugin Into a Vault

The web application puts the files of the plugin into a folder that the user has chosen, and
the plugin on the list of those that are enabled. Every operation on the folder may fail, also
those that take back what was done. What has failed has changed nothing, and only an operation
that looks for what is not there says that it was not found.

The directories are made before anything is guarded, and the files that are there are read one
after the other. Whatever fails from then on, each file that was read is put back, and the
directory of the plugin is removed where there was none. So the folder is as it was, but for
the directory that holds all plugins: that one stays, once it was made.

## Main definitions

* `FileOp`, `FileOp.exec`: Operations on the folder, which may fail.
* `parseEnabledPlugins`, `encodeEnabledPlugins`: The list of enabled plugins.
* `installMdevolvedSyncIntoVault`: The installation.

## Theorems

* `parse_encodeEnabledPlugins`: A list that was written is read back.
-/

namespace Mdevolved.Web

open FileTree (Entry Path entryAt leaf replace)

/-! ## Operations on the folder -/

inductive InstallError
  | dom (name : String)
  | installer (code message : String)
  deriving DecidableEq

def isNotFoundError (error : InstallError) : Bool := error = .dom "NotFoundError"

/-- What is written to a file so far. The file is as it was until it is closed. -/
structure Writable where
  file : Path
  written : List UInt8

inductive FileOp
  | getDirectoryHandle (parent : Path) (name : String) (create : Bool)
  | getFileHandle (directory : Path) (name : String) (create : Bool)
  | getFile (handle : Path)
  | arrayBuffer (file : List UInt8)
  | createWritable (handle : Path)
  | write (writable : Writable) (data : List UInt8)
  | close (writable : Writable)
  | abort (writable : Writable)
  | removeEntry (directory : Path) (name : String) (recursive : Bool)

abbrev FileOp.Ret : FileOp → Type
  | getDirectoryHandle _ _ _ | getFileHandle _ _ _ => Path
  | getFile _ | arrayBuffer _ => List UInt8
  | createWritable _ | write _ _ => Writable
  | close _ | abort _ | removeEntry _ _ _ => Unit

/-- A handle to what is under a name in a directory, or to what is made there. -/
def handleFor (directory : Path) (name : String) (wanted : Entry → Bool) (made : Option Entry)
    (root : FileTree) : Except InstallError Path × FileTree :=
  if entryAt directory root = some .directory then
    match entryAt (directory ++ [name]) root with
    | some e =>
        (if wanted e then .ok (directory ++ [name]) else .error (.dom "TypeMismatchError"), root)
    | none =>
        if made.isSome then
          (.ok (directory ++ [name]), replace (made.map leaf) (directory ++ [name]) root)
        else (.error (.dom "NotFoundError"), root)
  else (.error (.dom "NotFoundError"), root)

def Entry.isFile : Entry → Bool
  | .file _ => true
  | .directory => false

/-- What an operation does that does not fail by itself. -/
def FileOp.effect (op : FileOp) (root : FileTree) : Except InstallError op.Ret × FileTree :=
  match op with
  | .getDirectoryHandle parent name create =>
      handleFor parent name (· = .directory) (if create then some .directory else none) root
  | .getFileHandle directory name create =>
      handleFor directory name Entry.isFile (if create then some (.file []) else none) root
  | .getFile handle =>
      match entryAt handle root with
      | some (.file bytes) => (.ok bytes, root)
      | _ => (.error (.dom "NotFoundError"), root)
  | .arrayBuffer file => (.ok file, root)
  | .createWritable handle => (.ok { file := handle, written := [] }, root)
  | .write writable data => (.ok { writable with written := writable.written ++ data }, root)
  | .close writable =>
      match entryAt writable.file root with
      | some (.file _) => (.ok (), replace (some (.file writable.written)) writable.file root)
      | _ => (.error (.dom "NotFoundError"), root)
  | .abort _ => (.ok (), root)
  | .removeEntry directory name recursive =>
      if entryAt directory root = some .directory then
        match FileTree.find (directory ++ [name]) root with
        | none => (.error (.dom "NotFoundError"), root)
        | some (.directory (_ :: _)) =>
            if recursive then (.ok (), replace none (directory ++ [name]) root)
            else (.error (.dom "InvalidModificationError"), root)
        | some _ => (.ok (), replace none (directory ++ [name]) root)
      else (.error (.dom "NotFoundError"), root)

/-- A failure. That something was not found is not one of them: it is the answer of an
    operation that looks for what is not there. -/
structure Fault where
  name : String
  found : name ≠ "NotFoundError"

/-- An operation, which may fail. -/
def FileOp.exec (op : FileOp) (w : Option Fault) (root : FileTree) :
    Except InstallError op.Ret × FileTree :=
  match w with
  | some fault => (.error (.dom fault.name), root)
  | none => op.effect root

abbrev FileCalls (α : Type) :=
  Process FileOp (fun op => Except InstallError op.Ret) InstallError α

def ask (op : FileOp) : FileCalls op.Ret := Process.request op

/-! ## Files and directories -/

def mdevolvedSyncPluginId : String := "mdevolved-sync"

def mdevolvedSyncRequiredVersion : String := "0.2.0-alpha.1"

def pluginAssetNames : List String := ["main.js", "manifest.json", "styles.css"]

def maxExistingFileBytes : ℕ := 4 * 1024 * 1024

def maxEnabledPluginFileBytes : ℕ := 256 * 1024

def getExistingDirectory (parent : Path) (name : String) : FileCalls (Option Path) :=
  tryCatch (ask (.getDirectoryHandle parent name false) >>= fun handle => pure (some handle))
    (fun error => if isNotFoundError error then pure none else throw error)

/-- A file that is there, with its handle. -/
def readHandle (name : String) (maxBytes : ℕ) (handle : Path) :
    FileCalls (Option (List UInt8)) := do
  let file : List UInt8 ← ask (.getFile handle)
  if maxBytes < file.length then
    throw (.installer "existing_file_too_large"
      ("The existing " ++ name ++ " file is too large to back up safely."))
  else
    let bytes : List UInt8 ← ask (.arrayBuffer file)
    return some bytes

def findFile (directory : Path) (name : String) : FileCalls (Option Path) :=
  tryCatch (ask (.getFileHandle directory name false) >>= fun handle => pure (some handle))
    (fun error => if isNotFoundError error then pure none else throw error)

def readExistingFile (directory : Path) (name : String) (maxBytes : ℕ) :
    FileCalls (Option (List UInt8)) := do
  let handle ← findFile directory name
  match handle with
  | none => return none
  | some handle => readHandle name maxBytes handle

def writeFile (directory : Path) (name : String) (bytes : List UInt8) : FileCalls Unit := do
  let handle : Path ← ask (.getFileHandle directory name true)
  let writable : Writable ← ask (.createWritable handle)
  tryCatch (ask (.write writable bytes) >>= fun written => ask (.close written))
    (fun error => tryCatch (ask (.abort writable)) (fun _ => pure ()) >>= fun _ => throw error)

/-- What was in a place before. -/
structure FileBackup where
  bytes : Option (List UInt8)
  directory : Path
  name : String

def FileBackup.path (b : FileBackup) : Path := b.directory ++ [b.name]

def restoreBackup (b : FileBackup) : FileCalls Unit :=
  match b.bytes with
  | none =>
      tryCatch (ask (.removeEntry b.directory b.name false))
        (fun error => if isNotFoundError error then pure () else throw error)
  | some bytes => writeFile b.directory b.name bytes

/-! ## The list of enabled plugins -/

def invalidEnabledPlugins (message : String) : InstallError :=
  .installer "invalid_enabled_plugins" ("This vault's community-plugins.json is not " ++ message)

def enabledId : JsValue → Option JsString
  | .str s => if s = [] then none else some s
  | _ => none

def parseEnabledPlugins : Option (List UInt8) → Except InstallError (List JsString)
  | none => .ok []
  | some bytes =>
      match JsValue.parse (Utf8.decodeReplacing bytes).toList with
      | none => .error (invalidEnabledPlugins "valid JSON.")
      | some (.arr items) =>
          match items.mapM enabledId with
          | some ids => .ok ids.eraseDups
          | none => .error (invalidEnabledPlugins "a list of plugin IDs.")
      | some _ => .error (invalidEnabledPlugins "a list of plugin IDs.")

/-- The items of a list, each on a line of its own. -/
def prettyItems : List JsString → List Char
  | [] => []
  | [s] => '\n' :: ' ' :: ' ' :: (s.quote ++ ['\n', ']'])
  | s :: t :: rest => '\n' :: ' ' :: ' ' :: (s.quote ++ ',' :: prettyItems (t :: rest))

/-- `JSON.stringify(pluginIds, null, 2)` -/
def prettyText : List JsString → List Char
  | [] => ['[', ']']
  | ids => '[' :: prettyItems ids

def encodeEnabledPlugins (pluginIds : List JsString) : List UInt8 :=
  Utf8.encode (String.ofList (prettyText pluginIds ++ ['\n']))

/-- The list with the plugin on it. -/
def withPlugin (enabled : List JsString) : List JsString :=
  if JsString.ofText mdevolvedSyncPluginId ∈ enabled then enabled
  else enabled ++ [JsString.ofText mdevolvedSyncPluginId]

/-! ## The installation -/

structure InstallResult where
  enabledPluginCount : ℕ
  vaultName : String
  version : String

/-- The files that were verified, under their names. -/
abbrev Assets := String → Option (List UInt8)

def normalizeMdevolvedSyncInstallerError : InstallError → InstallError
  | .installer code message => .installer code message
  | .dom name =>
      if name = "NotAllowedError" then
        .installer "folder_permission_denied"
          "Chrome did not receive permission to change that vault. Choose Try again, select the vault root, and choose Allow when Chrome asks for access."
      else if name = "SecurityError" then
        .installer "folder_picker_blocked"
          "Chrome blocked the folder picker. Keep this secure MDevolved tab active, choose Try again, and allow the folder prompt. If it is still blocked, use the BRAT fallback below."
      else if name = "NotReadableError" ∨ name = "NoModificationAllowedError" then
        .installer "vault_not_writable"
          "Chrome could not update that vault. Fully quit Obsidian with ⌘Q, confirm the vault is writable in Finder, then choose Try again."
      else
        .installer "install_failed"
          "MDevolved Sync for Obsidian could not be installed. Your existing vault files were left unchanged. Try again or use the BRAT fallback below."

def rollbackIncomplete : InstallError :=
  .installer "rollback_incomplete"
    "Installation failed and MDevolved could not fully restore the prior plugin files. Keep Obsidian closed and inspect .obsidian/plugins/mdevolved-sync before retrying."

/-- The errors of a function, which are collected. -/
def collecting (p : FileCalls Unit) : FileCalls (List InstallError) :=
  tryCatch (p >>= fun _ => pure []) (fun error => pure [error])

def restoreAll : List FileBackup → List InstallError → FileCalls (List InstallError)
  | [], errors => return errors
  | b :: backups, errors => do
      let failed ← collecting (restoreBackup b)
      restoreAll backups (errors ++ failed)

/-- Remove the directory of the plugin from the one that holds all plugins. -/
def removePlugin (obsidian : Path) : FileCalls Unit := do
  let plugins ← getExistingDirectory obsidian "plugins"
  match plugins with
  | none => return ()
  | some plugins =>
      tryCatch (ask (.removeEntry plugins mdevolvedSyncPluginId true))
        (fun error => if isNotFoundError error then pure () else throw error)

/-- Only a directory that was made is removed. -/
def removeMade (obsidian : Path) (removePluginDirectory : Bool) : FileCalls (List InstallError) :=
  if removePluginDirectory then collecting (removePlugin obsidian) else return []

def rollback (backups : List FileBackup) (obsidian : Path) (removePluginDirectory : Bool) :
    FileCalls Unit := do
  let errors ← restoreAll backups.reverse []
  let failed ← removeMade obsidian removePluginDirectory
  if (errors ++ failed).isEmpty then return () else throw rollbackIncomplete

section Install

variable (obsidian plugin : Path) (removePluginDirectory : Bool)

/-- A part of the installation. If it fails, everything is taken back. -/
def guarded {α : Type} (backups : List FileBackup) (p : FileCalls α) : FileCalls α :=
  tryCatch p (fun error => rollback backups obsidian removePluginDirectory >>= fun _ =>
    throw (normalizeMdevolvedSyncInstallerError error))

def writeAssets (assets : Assets) : List String → FileCalls Unit
  | [] => return ()
  | name :: names => do
      match assets name with
      | none =>
          throw (.installer "installer_asset_mismatch"
            ("The verified MDevolved Sync for Obsidian " ++ name ++ " file is missing."))
      | some bytes =>
          writeFile plugin name bytes
          writeAssets assets names

/-- Write the files, and the list with the plugin on it. -/
def writeAll (vaultName : String) (assets : Assets) (enabledBackup : Option (List UInt8)) :
    FileCalls InstallResult := do
  let enabled ← Process.ofExcept (parseEnabledPlugins enabledBackup)
  writeAssets plugin assets pluginAssetNames
  writeFile obsidian "community-plugins.json" (encodeEnabledPlugins (withPlugin enabled))
  return {
    enabledPluginCount := (withPlugin enabled).length
    vaultName := vaultName
    version := mdevolvedSyncRequiredVersion }

/-- Read the files that are there, one after the other. -/
def backUp : List String → List FileBackup → FileCalls (List FileBackup)
  | [], backups => return backups
  | name :: names, backups => do
      let bytes ← guarded obsidian removePluginDirectory backups
        (readExistingFile plugin name maxExistingFileBytes)
      backUp names (backups ++ [{ bytes := bytes, directory := plugin, name := name }])

/-- The part of the installation whose failures are caught. -/
def installGuarded (vaultName : String) (assets : Assets) : FileCalls InstallResult := do
  let backups ← backUp obsidian plugin removePluginDirectory pluginAssetNames []
  let enabledBackup ← guarded obsidian removePluginDirectory backups
    (readExistingFile obsidian "community-plugins.json" maxEnabledPluginFileBytes)
  guarded obsidian removePluginDirectory
    (backups ++ [{
      bytes := enabledBackup, directory := obsidian, name := "community-plugins.json" }])
    (writeAll obsidian plugin vaultName assets enabledBackup)

end Install

/-- A directory, and whether it was made. -/
def ensureDirectory (parent : Path) (name : String) : FileCalls (Path × Bool) := do
  let existing ← getExistingDirectory parent name
  match existing with
  | some handle => return (handle, false)
  | none => ask (.getDirectoryHandle parent name true) >>= fun handle => pure (handle, true)

def notAnObsidianVault : InstallError :=
  .installer "not_an_obsidian_vault"
    "That folder is not an Obsidian vault. Choose the vault root containing .obsidian."

/-- What the verification of the assets ends with is decided outside. It leaves the folder
    alone. -/
def installMdevolvedSyncIntoVault (vaultName : String)
    (loadVerifiedAssets : Except InstallError Assets) : FileCalls InstallResult := do
  let found ← getExistingDirectory [] ".obsidian"
  match found with
  | none => throw notAnObsidianVault
  | some obsidian => do
      let assets ← Process.ofExcept loadVerifiedAssets
      let (plugins, _) ← ensureDirectory obsidian "plugins"
      let (plugin, made) ← ensureDirectory plugins mdevolvedSyncPluginId
      installGuarded obsidian plugin made vaultName assets

/-! ## The list is read back -/

theorem skipWs_indented (c : Char) (cs : List Char) (h : Json.isWhitespace c = false) :
    Json.skipWs ('\n' :: ' ' :: ' ' :: c :: cs) = c :: cs :=
  Json.skipWs_cons c cs h

/-- An item is read, whatever stands before it on its line. -/
theorem parseValue_indented (s : JsString) (rest : List Char) (fuel : ℕ) :
    JsValue.parseValue (fuel + 1) ('\n' :: ' ' :: ' ' :: (s.quote ++ rest)) =
      some (.str s, rest) := by
  have hread := JsString.parseString_quote s rest
  rw [JsString.quote, List.cons_append, List.append_assoc, List.singleton_append,
    JsValue.parseValue, skipWs_indented _ _ (by decide)]
  simp only [Char.reduceEq, if_false, if_true, hread, Option.map_some]

theorem parseItems_pretty (s : JsString) (ids : List JsString) (rest : List Char) (fuel : ℕ)
    (hfuel : ids.length + 2 ≤ fuel) :
    JsValue.parseItems fuel (prettyItems (s :: ids) ++ rest) =
      some ((s :: ids).map JsValue.str, rest) := by
  induction ids generalizing s fuel with
  | nil =>
      obtain ⟨fuel, rfl⟩ : ∃ n, fuel = n + 2 := ⟨fuel - 2, by simp at hfuel; omega⟩
      have hitem := parseValue_indented s ('\n' :: ']' :: rest) fuel
      have hend : Json.skipWs ('\n' :: ']' :: rest) = ']' :: rest :=
        Json.skipWs_cons ']' rest (by decide)
      rw [prettyItems, List.cons_append, List.cons_append, List.cons_append, List.append_assoc,
        List.cons_append, List.singleton_append, JsValue.parseItems, hitem]
      simp only [hend, Char.reduceEq, if_false, if_true, List.map_cons, List.map_nil]
  | cons next ids ih =>
      rw [List.length_cons] at hfuel
      obtain ⟨fuel, rfl⟩ : ∃ n, fuel = n + 2 := ⟨fuel - 2, by omega⟩
      have hitem := parseValue_indented s (',' :: (prettyItems (next :: ids) ++ rest)) fuel
      have hend : Json.skipWs (',' :: (prettyItems (next :: ids) ++ rest)) =
          ',' :: (prettyItems (next :: ids) ++ rest) := Json.skipWs_cons _ _ (by decide)
      rw [prettyItems, List.cons_append, List.cons_append, List.cons_append, List.append_assoc,
        List.cons_append, JsValue.parseItems, hitem]
      simp only [hend, if_true, ih next (fuel + 1) (by omega), Option.map_some, List.map_cons]

section

variable (ids : List JsString)

theorem length_prettyItems : ids.length ≤ (prettyItems ids).length := by
  fun_induction prettyItems ids with
  | case1 => exact Nat.le_refl _
  | case2 s => simp
  | case3 s t rest ih =>
      simp only [List.length_cons, List.length_append] at ih ⊢
      omega

/-- A list that is written is a list of the same items. -/
theorem parse_prettyText :
    JsValue.parse (prettyText ids ++ ['\n']) = some (.arr (ids.map .str)) := by
  cases ids with
  | nil => rfl
  | cons s ids =>
      have hlength := length_prettyItems (s :: ids)
      have hitems := parseItems_pretty s ids ['\n']
        (2 * (prettyText (s :: ids) ++ ['\n']).length) (by
          simp only [prettyText, List.length_append, List.length_cons] at hlength ⊢
          omega)
      have hhead : (Json.skipWs (prettyItems (s :: ids) ++ ['\n'])).head? = some '"' := by
        cases ids with
        | nil => rfl
        | cons t ids => rfl
      have hopen : Json.skipWs ('[' :: (prettyItems (s :: ids) ++ ['\n'])) =
          '[' :: (prettyItems (s :: ids) ++ ['\n']) := Json.skipWs_cons _ _ (by decide)
      have hvalue : JsValue.parseValue (2 * (prettyText (s :: ids) ++ ['\n']).length + 1)
          (prettyText (s :: ids) ++ ['\n']) = some (.arr ((s :: ids).map .str), ['\n']) := by
        rw [JsValue.parseValue]
        simp only [prettyText, List.cons_append] at hitems ⊢
        simp only [hopen, Char.reduceEq, if_false, if_true, hhead, Option.some.injEq, hitems,
          Option.map_some]
      rw [JsValue.parse, hvalue]
      rfl

theorem mapM_enabledId (h : ∀ s ∈ ids, s ≠ []) :
    (ids.map JsValue.str).mapM enabledId = some ids := by
  induction ids with
  | nil => rfl
  | cons s ids ih =>
      have hs := h s List.mem_cons_self
      rw [List.map_cons, List.mapM_cons, enabledId, if_neg hs,
        ih (fun s hs => h s (List.mem_cons_of_mem _ hs))]
      rfl

/-- What is read as a list of identifiers has no empty one. -/
theorem enabledId_ne_nil (items : List JsValue) (ids : List JsString)
    (h : items.mapM enabledId = some ids) : ∀ s ∈ ids, s ≠ [] := by
  induction items generalizing ids with
  | nil =>
      cases h
      simp
  | cons x items ih =>
      rw [List.mapM_cons] at h
      simp only [Option.bind_eq_bind, Option.bind_eq_some_iff, Option.pure_def,
        Option.some.injEq] at h
      obtain ⟨s, hs, rest, hrest, rfl⟩ := h
      have hne : s ≠ [] := by
        unfold enabledId at hs
        split at hs
        · split at hs
          · cases hs
          · next hne =>
            cases hs
            exact hne
        · cases hs
      simpa [hne] using ih rest hrest

theorem parseEnabledPlugins_ne_nil (bytes : Option (List UInt8)) (ids : List JsString)
    (h : parseEnabledPlugins bytes = .ok ids) : ∀ s ∈ ids, s ≠ [] := by
  unfold parseEnabledPlugins at h
  split at h
  · cases h
    simp
  · split at h
    · cases h
    · split at h
      · next found hfound =>
        cases h
        intro s hs
        exact enabledId_ne_nil _ found hfound s (List.mem_eraseDups.mp hs)
      · cases h
    · cases h

/-- A list of identifiers that was written is read back. -/
theorem parse_encodeEnabledPlugins (h : ∀ s ∈ ids, s ≠ []) :
    parseEnabledPlugins (some (encodeEnabledPlugins ids)) = .ok ids.eraseDups := by
  have hmark : Utf8.stripBom (String.ofList (prettyText ids ++ ['\n'])) =
      String.ofList (prettyText ids ++ ['\n']) := by
    rw [Utf8.stripBom_eq_self_iff, String.toList_ofList]
    cases ids <;> simp [prettyText, Utf8.bom]
  rw [parseEnabledPlugins, encodeEnabledPlugins, Utf8.decodeReplacing_encode, hmark,
    String.toList_ofList, parse_prettyText]
  simp only [mapM_enabledId ids h]

end

theorem mem_withPlugin (enabled : List JsString) :
    JsString.ofText mdevolvedSyncPluginId ∈ withPlugin enabled ∧
      ∀ s ∈ enabled, s ∈ withPlugin enabled := by
  unfold withPlugin
  by_cases hin : JsString.ofText mdevolvedSyncPluginId ∈ enabled
  · rw [if_pos hin]
    exact ⟨hin, fun s hs => hs⟩
  · rw [if_neg hin]
    exact ⟨by simp, fun s hs => List.mem_append_left _ hs⟩

/-- The list that is written holds the plugin, and every plugin of the one that was read. -/
theorem parse_withPlugin (bytes : Option (List UInt8)) (enabled : List JsString)
    (h : parseEnabledPlugins bytes = .ok enabled) :
    ∃ now, parseEnabledPlugins (some (encodeEnabledPlugins (withPlugin enabled))) = .ok now ∧
      JsString.ofText mdevolvedSyncPluginId ∈ now ∧ ∀ s ∈ enabled, s ∈ now := by
  have hne : ∀ s ∈ withPlugin enabled, s ≠ [] := by
    intro s hs
    unfold withPlugin at hs
    split at hs
    · exact parseEnabledPlugins_ne_nil bytes enabled h s hs
    · rcases List.mem_append.mp hs with hs | hs
      · exact parseEnabledPlugins_ne_nil bytes enabled h s hs
      · rw [List.mem_singleton.mp hs]
        decide +kernel
  have hmem := mem_withPlugin enabled
  exact ⟨_, parse_encodeEnabledPlugins _ hne, List.mem_eraseDups.mpr hmem.1,
    fun s hs => List.mem_eraseDups.mpr (hmem.2 s hs)⟩

end Mdevolved.Web
