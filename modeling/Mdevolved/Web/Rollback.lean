import Mdevolved.Web.Installer

/-!
# What an Installation Leaves

An installation that fails puts back what it has read and removes what it has made. What is
told of it here is what is at each path: once all that was read is put back, nothing is astray
(`Astray`), and an installation that could not do so says that it is incomplete.

Any operation may fail. The file that was being written then is as it was, but it may have been
made, which is why it is removed where there was none.

## Main definitions

* `Does`, `Leaves`: What a function leaves, whatever fails.
* `Sets`: One place was changed.
* `Astray`: Some places may have been changed, and no other.
* `Installed`, `Restored`: What an installation leaves.

## Theorems

* `writeFile_does`, `restoreBackup_does`, `rollback_does`: What the parts leave.
* `install_atomic`: The plugin is installed, or the folder is as it was, or it is said that it
  may not be.
-/

namespace Mdevolved.Web

open FileTree (Entry Path entryAt leaf replace entryAt_below entryAt_leaf)

/-! ## Functions that may fail -/

section Does

variable {α β : Type}

/-- What a function leaves, whatever fails. -/
def Does (p : FileCalls α) (Q : Except InstallError α → FileTree → Prop) (s : FileTree) : Prop :=
  p.Meets FileOp.exec (fun _ _ _ => True) (fun _ => True) Eq (fun _ _ => True) Q s

theorem does_mono {M Q : Except InstallError α → FileTree → Prop} (p : FileCalls α)
    (s : FileTree) (hp : Does p M s) (h : ∀ r t, M r t → Q r t) : Does p Q s :=
  Process.meets_mono (fun _ _ hop => hop) h p s hp

theorem does_bind {M : Except InstallError α → FileTree → Prop}
    {Q : Except InstallError β → FileTree → Prop} (f : α → FileCalls β) (p : FileCalls α)
    (s : FileTree) (hp : Does p M s) (hok : ∀ a t, M (.ok a) t → Does (f a) Q t)
    (herr : ∀ e t, M (.error e) t → Q (.error e) t) : Does (p >>= f) Q s := by
  apply Process.meets_bind
  apply does_mono p s hp
  intro r t h
  cases r with
  | ok a => exact hok a t h
  | error e => exact herr e t h

theorem does_catch {M Q : Except InstallError α → FileTree → Prop}
    (f : InstallError → FileCalls α) (p : FileCalls α) (s : FileTree) (hp : Does p M s)
    (hok : ∀ a t, M (.ok a) t → Q (.ok a) t) (herr : ∀ e t, M (.error e) t → Does (f e) Q t) :
    Does (tryCatch p f) Q s := by
  apply Process.meets_tryCatch
  apply does_mono p s hp
  intro r t h
  cases r with
  | ok a => exact hok a t h
  | error e => exact herr e t h

theorem does_ask (op : FileOp) (s : FileTree) {Q : Except InstallError op.Ret → FileTree → Prop}
    (hfault : ∀ fault : Fault, Q (.error (.dom fault.name)) s)
    (h : Q (op.effect s).1 (op.effect s).2) : Does (ask op) Q s := by
  intro t _ heq
  subst heq
  refine ⟨trivial, fun w _ => ?_⟩
  cases w with
  | none => exact h
  | some fault => exact hfault fault

/-- Nothing is asked. -/
theorem does_any (p : FileCalls α) (s : FileTree) : Does p (fun _ _ => True) s :=
  Process.meets_any (fun _ _ => trivial) (fun _ _ => trivial) p s

end Does

/-! ## Looking for what is there -/

section Looking

variable (wanted : Entry → Bool) (directory : Path) (name : String) (s : FileTree)

/-- What was found, or that there is nothing. -/
def Looked (r : Except InstallError Path) (t : FileTree) : Prop :=
  t = s ∧ match r with
    | .ok path => path = directory ++ [name] ∧ ∃ e, entryAt path s = some e ∧ wanted e = true
    | .error e => e = .dom "NotFoundError" → entryAt (directory ++ [name]) s = none

def Found (r : Except InstallError (Option Path)) (t : FileTree) : Prop :=
  t = s ∧ match r with
    | .ok (some path) =>
        path = directory ++ [name] ∧ ∃ e, entryAt path s = some e ∧ wanted e = true
    | .ok none => entryAt (directory ++ [name]) s = none
    | .error _ => True

theorem handleFor_looked :
    Looked wanted directory name s (handleFor directory name wanted none s).1
      (handleFor directory name wanted none s).2 := by
  unfold handleFor
  by_cases hdirectory : entryAt directory s = some .directory
  · rw [if_pos hdirectory]
    cases hentry : entryAt (directory ++ [name]) s with
    | none => exact ⟨rfl, fun _ => hentry⟩
    | some e =>
        by_cases hwanted : wanted e = true
        · refine ⟨rfl, ?_⟩
          dsimp only
          rw [if_pos hwanted]
          exact ⟨rfl, e, hentry, hwanted⟩
        · refine ⟨rfl, ?_⟩
          dsimp only
          rw [if_neg hwanted]
          intro h
          exact absurd h (by decide)
  · rw [if_neg hdirectory]
    exact ⟨rfl, fun _ => entryAt_below directory [name] s hdirectory (List.cons_ne_nil _ _)⟩

theorem look_does (p : FileCalls Path) (hp : Does p (Looked wanted directory name s) s) :
    Does (tryCatch (p >>= fun handle => pure (some handle))
      (fun error => if isNotFoundError error then pure none else throw error))
      (Found wanted directory name s) s := by
  refine does_catch (M := fun r t => t = s ∧ match r with
    | .ok (some path) =>
        path = directory ++ [name] ∧ ∃ e, entryAt path s = some e ∧ wanted e = true
    | .ok none => False
    | .error e => e = .dom "NotFoundError" → entryAt (directory ++ [name]) s = none) _ _ s ?_ ?_ ?_
  · exact does_bind _ p s hp (fun path t h => h) (fun e t h => h)
  · intro found t h
    cases found with
    | none => exact h.2.elim
    | some path => exact h
  · intro e t h
    by_cases hmissing : isNotFoundError e = true
    · rw [if_pos hmissing]
      exact ⟨h.1, h.2 (of_decide_eq_true hmissing)⟩
    · rw [if_neg hmissing]
      exact ⟨h.1, trivial⟩

theorem getExistingDirectory_does :
    Does (getExistingDirectory directory name)
      (Found (· = .directory) directory name s) s := by
  apply look_does
  apply does_ask
  · intro fault
    exact ⟨rfl, fun h => absurd (InstallError.dom.inj h) fault.found⟩
  · exact handleFor_looked _ directory name s

theorem findFile_does :
    Does (findFile directory name) (Found Entry.isFile directory name s) s := by
  apply look_does
  apply does_ask
  · intro fault
    exact ⟨rfl, fun h => absurd (InstallError.dom.inj h) fault.found⟩
  · exact handleFor_looked _ directory name s

/-- What is read of a file is what is there. -/
theorem readExistingFile_does (maxBytes : ℕ) :
    Does (readExistingFile directory name maxBytes) (fun r t => t = s ∧ match r with
      | .ok bytes => entryAt (directory ++ [name]) s = bytes.map .file
      | .error _ => True) s := by
  refine does_bind _ _ s (findFile_does directory name s) ?_ (fun e t h => ⟨h.1, trivial⟩)
  intro found t h
  obtain ⟨rfl, h⟩ := h
  cases found with
  | none => exact ⟨rfl, h⟩
  | some path =>
      obtain ⟨rfl, e, hentry, hfile⟩ := h
      cases e with
      | directory => cases hfile
      | file bytes =>
          refine does_bind (M := fun r u => u = t ∧ ∀ file, r = .ok file → file = bytes) _ _ t
            ?_ ?_ (fun e u h => ⟨h.1, trivial⟩)
          · apply does_ask
            · exact fun fault => ⟨rfl, fun file h => by cases h⟩
            · simp only [FileOp.effect, hentry]
              exact ⟨trivial, fun file h => (Except.ok.inj h).symm⟩
          · intro file u h
            obtain ⟨rfl, hfile⟩ := h
            obtain rfl := hfile file rfl
            split
            · exact ⟨rfl, trivial⟩
            · refine does_bind (M := fun r v => v = u ∧ ∀ read, r = .ok read → read = file) _ _ u
                ?_ ?_ (fun e v h => ⟨h.1, trivial⟩)
              · apply does_ask
                · exact fun fault => ⟨rfl, fun read h => by cases h⟩
                · exact ⟨rfl, fun read h => (Except.ok.inj h).symm⟩
              · intro read v h
                obtain ⟨rfl, hread⟩ := h
                obtain rfl := hread read rfl
                exact ⟨rfl, hentry⟩

end Looking

/-! ## Changes of one place -/

/-- One place is changed, and no other. -/
def Sets (path : Path) (e : Option Entry) (s t : FileTree) : Prop :=
  ∀ q, entryAt q t = if q = path then e else entryAt q s

theorem Sets.trans {path : Path} {e e' : Option Entry} {s t u : FileTree} (h : Sets path e s t)
    (h' : Sets path e' t u) : Sets path e' s u := by
  intro q
  rw [h' q, h q]
  split <;> rfl

theorem Sets.at {path : Path} {e : Option Entry} {s t : FileTree} (h : Sets path e s t) :
    entryAt path t = e := by
  rw [h path, if_pos rfl]

/-- Nothing is changed, or a file is put where there is no directory. -/
def Near (path : Path) (s t : FileTree) : Prop :=
  t = s ∨ (entryAt path s ≠ some .directory ∧ ∃ bytes, Sets path (some (.file bytes)) s t)

section Places

variable (directory : Path) (name : String) (s : FileTree)
  (hdirectory : entryAt directory s = some .directory)

include hdirectory

/-- A handle to a file, which is made where there is nothing. -/
theorem fileHandle_does :
    Does (ask (.getFileHandle directory name true)) (fun r t => Near (directory ++ [name]) s t ∧
      ∀ path, r = .ok path → path = directory ++ [name] ∧
        entryAt (directory ++ [name]) s ≠ some .directory ∧
        ∃ bytes, Sets (directory ++ [name]) (some (.file bytes)) s t) s := by
  apply does_ask
  · exact fun fault => ⟨Or.inl rfl, fun path h => by cases h⟩
  simp only [FileOp.effect, handleFor, if_pos hdirectory]
  cases hentry : entryAt (directory ++ [name]) s with
  | none =>
      have hfree : entryAt (directory ++ [name]) s ≠ some .directory := by
        rw [hentry]
        simp
      have hsets : Sets (directory ++ [name]) (some (.file []))
          s (replace (some (leaf (.file []))) (directory ++ [name]) s) :=
        fun q => entryAt_leaf directory name q s hdirectory (some (.file [])) hfree
      exact ⟨Or.inr ⟨hfree, [], hsets⟩, fun path h =>
        ⟨(Except.ok.inj h).symm, by simp, [], hsets⟩⟩
  | some e =>
      refine ⟨Or.inl rfl, fun path h => ?_⟩
      cases e with
      | directory => exact absurd h (by simp [Entry.isFile])
      | file bytes =>
          refine ⟨(Except.ok.inj h).symm, by simp, bytes, fun q => ?_⟩
          by_cases hq : q = directory ++ [name]
          · rw [if_pos hq, hq]
            exact hentry
          · rw [if_neg hq]

/-- A file that is written is what was written, or as it was. -/
theorem writeFile_does (bytes : List UInt8) :
    Does (writeFile directory name bytes) (fun r t => match r with
      | .ok _ => entryAt (directory ++ [name]) s ≠ some .directory ∧
          Sets (directory ++ [name]) (some (.file bytes)) s t
      | .error _ => Near (directory ++ [name]) s t) s := by
  refine does_bind _ _ s (fileHandle_does directory name s hdirectory) ?_ (fun e t h => h.1)
  intro handle t h
  obtain ⟨hnear, hhandle⟩ := h
  obtain ⟨rfl, hfree, before, hsets⟩ := hhandle handle rfl
  refine does_bind (M := fun r u => u = t ∧ ∀ writable, r = .ok writable →
    writable = { file := directory ++ [name], written := [] }) _ _ t ?_ ?_
    (fun e u h => h.1 ▸ hnear)
  · apply does_ask
    · exact fun fault => ⟨rfl, fun writable h => by cases h⟩
    · exact ⟨rfl, fun writable h => (Except.ok.inj h).symm⟩
  intro writable u h
  obtain ⟨rfl, hwritable⟩ := h
  obtain rfl := hwritable writable rfl
  refine does_catch (M := fun r v => match r with
    | .ok _ => Sets (directory ++ [name]) (some (.file bytes)) u v
    | .error _ => v = u) _ _ u ?_ (fun _ v h => ⟨hfree, hsets.trans h⟩) ?_
  · refine does_bind (M := fun r v => v = u ∧ ∀ written, r = .ok written →
      written = { file := directory ++ [name], written := bytes }) _ _ u ?_ ?_ (fun e v h => h.1)
    · apply does_ask
      · exact fun fault => ⟨rfl, fun written h => by cases h⟩
      · exact ⟨rfl, fun written h => (Except.ok.inj h).symm⟩
    · intro written v h
      obtain ⟨rfl, hwritten⟩ := h
      obtain rfl := hwritten written rfl
      apply does_ask
      · exact fun fault => rfl
      · -- The file is replaced as a whole once it is closed.
        have hthere := hsets.at
        simp only [FileOp.effect, hthere]
        have hkept : entryAt directory v = some .directory := by
          rw [hsets directory, if_neg (by simp), hdirectory]
        exact fun q => entryAt_leaf directory name q v hkept (some (.file bytes)) (by
          rw [hthere]
          simp)
  · intro e v h
    subst h
    refine does_bind (M := fun _ w => w = v) _ _ v ?_ (fun _ w h => h ▸ hnear)
      (fun e w h => h ▸ hnear)
    refine does_catch (M := fun _ w => w = v) _ _ v ?_ (fun _ w h => h) (fun e w h => h)
    apply does_ask
    · exact fun fault => rfl
    · exact rfl

/-- What a removal does: there is nothing, it is removed, or it is a directory with something in
    it. -/
theorem removeEntry_effect (recursive : Bool) :
    (entryAt (directory ++ [name]) s = none ∧
        (FileOp.removeEntry directory name recursive).effect s =
          (.error (.dom "NotFoundError"), s)) ∨
      (FileOp.removeEntry directory name recursive).effect s =
        (.ok (), replace none (directory ++ [name]) s) ∨
      (entryAt (directory ++ [name]) s = some .directory ∧ recursive = false ∧
        (FileOp.removeEntry directory name recursive).effect s =
          (.error (.dom "InvalidModificationError"), s)) := by
  simp only [FileOp.effect, if_pos hdirectory]
  cases hfind : FileTree.find (directory ++ [name]) s with
  | none => exact Or.inl ⟨by rw [entryAt, hfind, Option.map_none], rfl⟩
  | some found =>
      cases found with
      | file bytes => exact Or.inr (Or.inl rfl)
      | directory children =>
          cases children with
          | nil => exact Or.inr (Or.inl rfl)
          | cons child children =>
              cases recursive with
              | true => exact Or.inr (Or.inl rfl)
              | false => exact Or.inr (Or.inr ⟨by rw [entryAt, hfind]; rfl, rfl, rfl⟩)

end Places

/-! ## Putting back -/

section Rollback

variable {base : Path → Option Entry}

/-- Only some places may not be what they were, and there is no directory in any of them. -/
structure Astray (base : Path → Option Entry) (off : List Path) (t : FileTree) : Prop where
  elsewhere : ∀ q, q ∉ off → entryAt q t = base q
  files : ∀ q ∈ off, entryAt q t ≠ some .directory

theorem Astray.near {off : List Path} {path : Path} {s t : FileTree} (h : Astray base off s)
    (hpath : path ∈ off) (hnear : Near path s t) : Astray base off t := by
  rcases hnear with rfl | ⟨-, bytes, hsets⟩
  · exact h
  · refine ⟨fun q hq => ?_, fun q hq => ?_⟩
    · rw [hsets q, if_neg (fun heq => hq (by rw [heq]; exact hpath)), h.elsewhere q hq]
    · rw [hsets q]
      split
      · simp
      · exact h.files q hq

/-- A place that is put back is no longer astray. -/
theorem Astray.back {off : List Path} {path : Path} {e : Option Entry} {s t : FileTree}
    (h : Astray base (path :: off) s) (hsets : Sets path e s t) (he : e = base path)
    (hfile : e ≠ some .directory) : Astray base off t := by
  refine ⟨fun q hq => ?_, fun q hq => ?_⟩
  · rw [hsets q]
    by_cases hpath : q = path
    · rw [if_pos hpath, he, hpath]
    · rw [if_neg hpath, h.elsewhere q (by simp [hpath, hq])]
  · rw [hsets q]
    split
    · exact hfile
    · exact h.files q (List.mem_cons_of_mem _ hq)

/-- What was kept is what was there. -/
def Kept (base : Path → Option Entry) (b : FileBackup) : Prop :=
  base b.path = b.bytes.map .file ∧ base b.directory = some .directory

theorem restoreBackup_does (b : FileBackup) (off : List Path) (s : FileTree)
    (hkept : Kept base b) (hoff : b.directory ∉ b.path :: off) (h : Astray base (b.path :: off) s) :
    Does (restoreBackup b) (fun r t => r = .ok () → Astray base off t) s := by
  have hdirectory : entryAt b.directory s = some .directory := by
    rw [h.elsewhere _ hoff, hkept.2]
  have hfree := h.files b.path List.mem_cons_self
  unfold restoreBackup
  cases hbytes : b.bytes with
  | some bytes =>
      apply does_mono _ _ (writeFile_does b.directory b.name s hdirectory bytes)
      intro r t ht hr
      subst hr
      exact h.back ht.2 (by rw [hkept.1, hbytes]; rfl) (by simp)
  | none =>
      have hbase : none = base b.path := by
        rw [hkept.1, hbytes]
        rfl
      refine does_catch (M := fun r t => match r with
        | .ok _ => Astray base off t
        | .error e => e = .dom "NotFoundError" → Astray base off t) _ _ s ?_ (fun _ t ht _ => ht) ?_
      · apply does_ask
        · exact fun fault hfound => absurd (InstallError.dom.inj hfound) fault.found
        have hremoved : Astray base off (replace none b.path s) :=
          h.back (fun q => entryAt_leaf b.directory b.name q s hdirectory none hfree) hbase (by simp)
        rcases removeEntry_effect b.directory b.name s hdirectory false with
          ⟨hnone, heffect⟩ | heffect | ⟨hthere, -⟩
        · rw [heffect]
          intro _
          refine h.back (e := none) (fun q => ?_) hbase (by simp)
          by_cases hq : q = b.path
          · rw [if_pos hq, hq]
            exact hnone
          · rw [if_neg hq]
        · rw [heffect]
          exact hremoved
        · exact absurd hthere hfree
      · intro e t ht
        by_cases hmissing : isNotFoundError e = true
        · rw [if_pos hmissing]
          exact fun _ => ht (of_decide_eq_true hmissing)
        · rw [if_neg hmissing]
          intro hr
          cases hr

/-- A function whose errors are collected returns. -/
theorem collecting_does {M : Except InstallError Unit → FileTree → Prop} (p : FileCalls Unit)
    (s : FileTree) (hp : Does p M s) :
    Does (collecting p) (fun r t => ∃ errors, r = .ok errors ∧ (errors = [] → M (.ok ()) t)) s := by
  refine does_catch (M := fun r t => ∀ errors, r = .ok errors → errors = [] ∧ M (.ok ()) t) _ _ s
    ?_ (fun errors t h => ⟨errors, rfl, fun _ => (h errors rfl).2⟩) ?_
  · refine does_bind _ p s hp (fun _ t h errors herrors => ?_) (fun e t h errors herrors => ?_)
    · cases herrors
      exact ⟨rfl, h⟩
    · cases herrors
  · exact fun e t _ => ⟨[e], rfl, fun h => absurd h (List.cons_ne_nil _ _)⟩

/-- Where nothing fails, all that was kept is put back. -/
theorem restoreAll_does (backups : List FileBackup) (errors : List InstallError) (s : FileTree)
    (hkept : ∀ b ∈ backups, Kept base b)
    (hplaces : ∀ b ∈ backups, ∀ c ∈ backups, b.directory ≠ c.path)
    (h : errors = [] → Astray base (backups.map FileBackup.path) s) :
    Does (restoreAll backups errors) (fun r t => ∃ errors, r = .ok errors ∧
      (errors = [] → Astray base [] t)) s := by
  induction backups generalizing errors s with
  | nil => exact ⟨errors, rfl, h⟩
  | cons b backups ih =>
      have hrestored : Does (restoreBackup b) (fun r t => r = .ok () → errors = [] →
          Astray base (backups.map FileBackup.path) t) s := by
        by_cases herrors : errors = []
        · have hoff : b.directory ∉ b.path :: backups.map FileBackup.path := by
            intro hin
            obtain ⟨c, hc, heq⟩ := List.mem_map.mp (by simpa using hin :
              b.directory ∈ (b :: backups).map FileBackup.path)
            exact hplaces b List.mem_cons_self c hc heq.symm
          apply does_mono _ _
            (restoreBackup_does b _ s (hkept b List.mem_cons_self) hoff (h herrors))
          exact fun r t ht hr _ => ht hr
        · apply does_mono _ _ (does_any (restoreBackup b) s)
          exact fun r t _ _ hnone => absurd hnone herrors
      refine does_bind _ _ s (collecting_does _ s hrestored) ?_ ?_
      · intro failed t ht
        obtain ⟨failed', hok, hfailed⟩ := ht
        cases hok
        apply ih _ t (fun c hc => hkept c (List.mem_cons_of_mem b hc))
          (fun c hc d hd => hplaces c (List.mem_cons_of_mem b hc) d (List.mem_cons_of_mem b hd))
        intro hnone
        obtain ⟨herrors, hnone⟩ := List.append_eq_nil_iff.mp hnone
        exact hfailed hnone rfl herrors
      · intro e t ht
        obtain ⟨_, hok, -⟩ := ht
        cases hok

abbrev obsidianPath : Path := [".obsidian"]

abbrev pluginsPath : Path := [".obsidian", "plugins"]

abbrev pluginPath : Path := [".obsidian", "plugins", mdevolvedSyncPluginId]

/-- Everything is as it was, but for the directory of the plugin if that was made. -/
def Undone (base : Path → Option Entry) (made : Bool) (t : FileTree) : Prop :=
  ∀ q, entryAt q t = if made = true ∧ pluginPath <+: q then none else base q

/-- The directory of the plugin is removed with what is in it. -/
theorem removePlugin_does (s : FileTree) (hplugins : base pluginsPath = some .directory)
    (h : Astray base [] s) :
    Does (removePlugin obsidianPath) (fun r t => r = .ok () → Undone base true t) s := by
  have hthere : ∀ q, entryAt q s = base q := fun q => h.elsewhere q List.not_mem_nil
  have hremoved : Undone base true (replace none pluginPath s) := by
    intro q
    have hentry := FileTree.entryAt_removed pluginsPath mdevolvedSyncPluginId q s
      ((hthere _).trans hplugins)
    rw [hthere] at hentry
    simpa using hentry
  refine does_bind _ _ s (getExistingDirectory_does obsidianPath "plugins" s) ?_ ?_
  · intro found t ht
    obtain ⟨rfl, ht⟩ := ht
    cases found with
    | none =>
        rw [hthere, show obsidianPath ++ ["plugins"] = pluginsPath from rfl, hplugins] at ht
        cases ht
    | some plugins =>
        obtain ⟨rfl, -⟩ := ht
        refine does_catch (M := fun r u => match r with
          | .ok _ => Undone base true u
          | .error e => e = .dom "NotFoundError" → Undone base true u) _ _ t ?_
          (fun _ u hu _ => hu) ?_
        · apply does_ask
          · exact fun fault hfound => absurd (InstallError.dom.inj hfound) fault.found
          have hplugins' : entryAt (obsidianPath ++ ["plugins"]) t = some .directory :=
            (hthere _).trans hplugins
          rcases removeEntry_effect _ mdevolvedSyncPluginId t hplugins' true with
            ⟨hnone, heffect⟩ | heffect | ⟨-, hrecursive, -⟩
          · -- There is nothing to remove.
            rw [heffect]
            intro _ q
            by_cases hprefix : pluginPath <+: q
            · rw [if_pos ⟨rfl, hprefix⟩]
              obtain ⟨rest, rfl⟩ := hprefix
              by_cases hrest : rest = []
              · rw [hrest, List.append_nil]
                exact hnone
              · have hfile : entryAt pluginPath t ≠ some .directory := fun hdirectory => by
                  rw [show pluginPath = obsidianPath ++ ["plugins"] ++ [mdevolvedSyncPluginId]
                    from rfl, hnone] at hdirectory
                  cases hdirectory
                exact entryAt_below pluginPath rest t hfile hrest
            · rw [if_neg (fun hboth => hprefix hboth.2)]
              exact hthere q
          · rw [heffect]
            exact hremoved
          · cases hrecursive
        · intro e u hu
          by_cases hmissing : isNotFoundError e = true
          · rw [if_pos hmissing]
            exact fun _ => hu (of_decide_eq_true hmissing)
          · rw [if_neg hmissing]
            intro hr
            cases hr
  · intro e t _ hr
    cases hr

/-- What is left once everything was taken back. -/
theorem rollback_does (backups : List FileBackup) (made : Bool) (s : FileTree)
    (hplugins : base pluginsPath = some .directory) (hkept : ∀ b ∈ backups, Kept base b)
    (hplaces : ∀ b ∈ backups, ∀ c ∈ backups, b.directory ≠ c.path)
    (h : Astray base (backups.map FileBackup.path) s) :
    Does (rollback backups obsidianPath made) (fun r t => match r with
      | .ok _ => Undone base made t
      | .error e => e = rollbackIncomplete) s := by
  have hmem : ∀ {b}, b ∈ backups.reverse → b ∈ backups := fun hb => List.mem_reverse.mp hb
  have hastray : Astray base (backups.reverse.map FileBackup.path) s :=
    ⟨fun q hq => h.elsewhere q (by simpa using hq), fun q hq => h.files q (by simpa using hq)⟩
  refine does_bind _ _ s (restoreAll_does backups.reverse [] s (fun b hb => hkept b (hmem hb))
    (fun b hb c hc => hplaces b (hmem hb) c (hmem hc)) (fun _ => hastray)) ?_ ?_
  · intro errors t ht
    obtain ⟨errors', hok, ht⟩ := ht
    cases hok
    refine does_bind (M := fun r u => ∃ failed, r = .ok failed ∧
      (errors = [] → failed = [] → Undone base made u)) _ _ t ?_ ?_ ?_
    · by_cases herrors : errors = []
      · cases made with
        | false => exact ⟨[], rfl, fun _ _ q => (ht herrors).elsewhere q List.not_mem_nil⟩
        | true =>
            apply does_mono _ _ (collecting_does _ t (removePlugin_does t hplugins (ht herrors)))
            rintro r u ⟨failed, hr, hfailed⟩
            exact ⟨failed, hr, fun _ hnone => hfailed hnone rfl⟩
      · cases made with
        | false => exact ⟨[], rfl, fun hnone => absurd hnone herrors⟩
        | true =>
            apply does_mono _ _ (collecting_does _ t (does_any (removePlugin obsidianPath) t))
            rintro r u ⟨failed, hr, -⟩
            exact ⟨failed, hr, fun hnone => absurd hnone herrors⟩
    · intro failed u hu
      obtain ⟨failed', hok, hu⟩ := hu
      cases hok
      by_cases hnone : (errors ++ failed).isEmpty = true
      · rw [if_pos hnone]
        obtain ⟨herrors, hfailed⟩ := List.append_eq_nil_iff.mp (List.isEmpty_iff.mp hnone)
        exact hu herrors hfailed
      · rw [if_neg hnone]
        exact rfl
    · rintro e u ⟨_, hok, -⟩
      cases hok
  · rintro e t ⟨_, hok, -⟩
    cases hok

/-- What a function leaves when it returns, and when it throws. -/
def Leaves {α : Type} (ok : α → FileTree → Prop) (thrown : InstallError → FileTree → Prop) :
    Except InstallError α → FileTree → Prop
  | .ok a, t => ok a t
  | .error e, t => thrown e t

/-- A part that fails ends with everything taken back, or with the error that says that it may
    not be. -/
theorem guarded_does {α : Type} {M : α → FileTree → Prop} (backups : List FileBackup) (made : Bool)
    (p : FileCalls α) (s : FileTree) (hplugins : base pluginsPath = some .directory)
    (hkept : ∀ b ∈ backups, Kept base b)
    (hplaces : ∀ b ∈ backups, ∀ c ∈ backups, b.directory ≠ c.path)
    (hp : Does p (Leaves M (fun _ t => Astray base (backups.map FileBackup.path) t)) s) :
    Does (guarded obsidianPath made backups p)
      (Leaves M (fun e t => e = rollbackIncomplete ∨ Undone base made t)) s := by
  refine does_catch _ p s hp (fun a t h => h) (fun e t h => ?_)
  refine does_bind _ _ t (rollback_does backups made t hplugins hkept hplaces h) ?_ ?_
  · exact fun _ u hu => Or.inr hu
  · exact fun e u hu => Or.inl hu

end Rollback

/-! ## The installation -/

abbrev enabledPath : Path := [".obsidian", "community-plugins.json"]

def assetPath (name : String) : Path := pluginPath ++ [name]

/-- The files that an installation writes. -/
def targets : List Path := pluginAssetNames.map assetPath ++ [enabledPath]

/-- A backup is of a file of the plugin, or of one beside the directory of all plugins. -/
def Placed (b : FileBackup) : Prop := b.directory = pluginPath ∨ b.directory = obsidianPath

theorem placed_ne (b c : FileBackup) (hb : Placed b) (hc : Placed c) : b.directory ≠ c.path := by
  intro heq
  have hlength := congrArg List.length heq
  rw [FileBackup.path, List.length_append] at hlength
  rcases hb with hb | hb <;> rcases hc with hc | hc <;> rw [hb, hc] at hlength <;>
    simp at hlength

section Guarded

variable {base : Path → Option Entry} {made : Bool} {backups : List FileBackup} {s : FileTree}

/-- What was backed up. -/
structure Guards (base : Path → Option Entry) (backups : List FileBackup) : Prop where
  kept : ∀ b ∈ backups, Kept base b
  placed : ∀ b ∈ backups, Placed b

theorem Guards.concat (h : Guards base backups) (b : FileBackup) (hkept : Kept base b)
    (hplaced : Placed b) : Guards base (backups ++ [b]) := by
  constructor
  · intro c hc
    rcases List.mem_append.mp hc with hc | hc
    · exact h.kept c hc
    · rwa [List.mem_singleton.mp hc]
  · intro c hc
    rcases List.mem_append.mp hc with hc | hc
    · exact h.placed c hc
    · rwa [List.mem_singleton.mp hc]

theorem Guards.astray (h : Guards base backups) (hbase : ∀ q, entryAt q s = base q) :
    Astray base (backups.map FileBackup.path) s := by
  refine ⟨fun q _ => hbase q, fun q hq => ?_⟩
  obtain ⟨b, hb, rfl⟩ := List.mem_map.mp hq
  rw [hbase, (h.kept b hb).1]
  cases b.bytes <;> simp

theorem Guards.does {α : Type} {M : α → FileTree → Prop} (h : Guards base backups)
    (hplugins : base pluginsPath = some .directory) (p : FileCalls α)
    (hp : Does p (Leaves M (fun _ t => Astray base (backups.map FileBackup.path) t)) s) :
    Does (guarded obsidianPath made backups p)
      (Leaves M (fun e t => e = rollbackIncomplete ∨ Undone base made t)) s :=
  guarded_does backups made p s hplugins h.kept
    (fun b hb c hc => placed_ne b c (h.placed b hb) (h.placed c hc)) hp

/-- While files are read, nothing is changed. -/
theorem Guards.reads (h : Guards base backups) (hbase : ∀ q, entryAt q s = base q)
    (hplugins : base pluginsPath = some .directory) (directory : Path) (name : String)
    (maxBytes : ℕ) :
    Does (guarded obsidianPath made backups (readExistingFile directory name maxBytes))
      (Leaves (fun bytes t => t = s ∧ base (directory ++ [name]) = bytes.map .file)
        (fun e t => e = rollbackIncomplete ∨ Undone base made t)) s := by
  apply h.does hplugins
  apply does_mono _ _ (readExistingFile_does directory name s maxBytes)
  rintro r t ⟨rfl, hr⟩
  cases r with
  | ok bytes => exact ⟨rfl, (hbase _).symm.trans hr⟩
  | error e => exact h.astray hbase

theorem backUp_does (names : List String) (h : Guards base backups)
    (hbase : ∀ q, entryAt q s = base q) (hplugins : base pluginsPath = some .directory)
    (hplugin : base pluginPath = some .directory) :
    Does (backUp obsidianPath pluginPath made names backups)
      (Leaves (fun backups' t => t = s ∧ Guards base backups' ∧
          backups'.map FileBackup.path = backups.map FileBackup.path ++ names.map assetPath)
        (fun e t => e = rollbackIncomplete ∨ Undone base made t)) s := by
  induction names generalizing backups with
  | nil => exact ⟨rfl, h, (List.append_nil _).symm⟩
  | cons name names ih =>
      refine does_bind _ _ s (h.reads hbase hplugins pluginPath name maxExistingFileBytes) ?_
        (fun e t ht => ht)
      rintro bytes t ⟨rfl, hbytes⟩
      have hguards := h.concat
        { bytes := bytes, directory := pluginPath, name := name } ⟨hbytes, hplugin⟩ (Or.inl rfl)
      apply does_mono _ _ (ih hguards)
      intro r u hu
      cases r with
      | error e => exact hu
      | ok backups' =>
          obtain ⟨hsame, hguards', hpaths⟩ := hu
          refine ⟨hsame, hguards', ?_⟩
          rw [hpaths, List.map_append, List.append_assoc]
          rfl

/-- The files of the plugin are those that were verified. -/
theorem writeAssets_does (assets : Assets) (names done : List String)
    (hnames : ∀ name ∈ names, assetPath name ∈ targets)
    (hplugin : base pluginPath = some .directory) (h : Astray base targets s)
    (hdone : ∀ name ∈ done, ∃ bytes, assets name = some bytes ∧
      entryAt (assetPath name) s = some (.file bytes)) :
    Does (writeAssets pluginPath assets names) (fun r t => Astray base targets t ∧
      (r = .ok () → ∀ name ∈ done ++ names, ∃ bytes, assets name = some bytes ∧
        entryAt (assetPath name) t = some (.file bytes))) s := by
  induction names generalizing done s with
  | nil => exact ⟨h, fun _ => by simpa using hdone⟩
  | cons name names ih =>
      have hdirectory : entryAt pluginPath s = some .directory := by
        rw [h.elsewhere _ (by decide), hplugin]
      unfold writeAssets
      cases hbytes : assets name with
      | none => exact ⟨h, fun hr => by cases hr⟩
      | some bytes =>
          refine does_bind _ _ s (writeFile_does pluginPath name s hdirectory bytes) ?_ ?_
          · rintro - t ⟨hfree, hsets⟩
            have ht : Astray base targets t :=
              h.near (hnames name List.mem_cons_self) (Or.inr ⟨hfree, bytes, hsets⟩)
            have hdone' : ∀ other ∈ done ++ [name], ∃ bytes, assets other = some bytes ∧
                entryAt (assetPath other) t = some (.file bytes) := by
              intro other hother
              by_cases hsame : other = name
              · exact ⟨bytes, hsame ▸ hbytes, hsame ▸ hsets.at⟩
              · obtain ⟨old, hold, hentry⟩ := hdone other (by
                  simpa [hsame] using hother)
                refine ⟨old, hold, ?_⟩
                rw [hsets, if_neg (by simpa [assetPath] using hsame), hentry]
            have hrest := ih (done ++ [name])
              (fun n hn => hnames n (List.mem_cons_of_mem _ hn)) ht hdone'
            rwa [List.append_assoc] at hrest
          · exact fun e t ht => ⟨h.near (hnames name List.mem_cons_self) ht, fun hr => by cases hr⟩

end Guarded

def bytesAt (path : Path) (t : FileTree) : Option (List UInt8) :=
  match entryAt path t with
  | some (.file bytes) => some bytes
  | _ => none

/-- The files are those that were verified. The plugin is on the list, and so is every plugin
    that was on it. -/
structure Installed (assets : Assets) (before after : FileTree) : Prop where
  assets : ∀ name ∈ pluginAssetNames, ∃ bytes, assets name = some bytes ∧
    entryAt (assetPath name) after = some (.file bytes)
  enabled : ∃ was now, parseEnabledPlugins (bytesAt enabledPath before) = .ok was ∧
    parseEnabledPlugins (bytesAt enabledPath after) = .ok now ∧
    JsString.ofText mdevolvedSyncPluginId ∈ now ∧ ∀ id ∈ was, id ∈ now

/-- Everything is as it was, but the directory that holds all plugins may have been made. -/
def Restored (before after : FileTree) : Prop :=
  ∀ q, entryAt q after = entryAt q before ∨
    (q = pluginsPath ∧ entryAt q before = none ∧ entryAt q after = some .directory)

/-- Whatever is written, it is written to a target. -/
theorem writeAll_does (vaultName : String) (assets : Assets) (enabledBackup : Option (List UInt8))
    (s : FileTree) (hobsidian : entryAt obsidianPath s = some .directory)
    (hplugin : entryAt pluginPath s = some .directory)
    (hbackup : entryAt enabledPath s = enabledBackup.map .file)
    (hastray : Astray (fun q => entryAt q s) targets s) :
    Does (writeAll obsidianPath pluginPath vaultName assets enabledBackup)
      (Leaves (fun _ t => Installed assets s t)
        (fun _ t => Astray (fun q => entryAt q s) targets t)) s := by
  have hbefore : bytesAt enabledPath s = enabledBackup := by
    rw [bytesAt, hbackup]
    cases enabledBackup <;> rfl
  unfold writeAll
  cases henabled : parseEnabledPlugins enabledBackup with
  | error e => exact hastray
  | ok enabled =>
      refine does_bind _ (writeAssets pluginPath assets pluginAssetNames) s
        (writeAssets_does assets pluginAssetNames [] (by decide) hplugin hastray
          (fun name hname => absurd hname List.not_mem_nil)) ?_ (fun e t ht => ht.1)
      intro _ t ht
      obtain ⟨ht, hassets⟩ := ht
      have hdirectory : entryAt obsidianPath t = some .directory := by
        rw [ht.elsewhere _ (by decide), hobsidian]
      refine does_bind _ _ t (writeFile_does obsidianPath "community-plugins.json" t hdirectory
        (encodeEnabledPlugins (withPlugin enabled))) ?_ (fun e u hu => ht.near (by decide) hu)
      intro _ u hu
      obtain ⟨-, hsets⟩ := hu
      refine ⟨fun name hname => ?_, ?_⟩
      · obtain ⟨bytes, hbytes, hentry⟩ := hassets rfl name hname
        have hne : assetPath name ≠ obsidianPath ++ ["community-plugins.json"] := by
          intro heq
          have hlength := congrArg List.length heq
          simp [assetPath] at hlength
        exact ⟨bytes, hbytes, by rw [hsets, if_neg hne, hentry]⟩
      · obtain ⟨now, hnow, hmem⟩ := parse_withPlugin enabledBackup enabled henabled
        have hafter : bytesAt enabledPath u =
            some (encodeEnabledPlugins (withPlugin enabled)) := by
          have hentry : entryAt enabledPath u = _ := hsets.at
          rw [bytesAt, hentry]
        exact ⟨enabled, now, by rw [hbefore, henabled], by rw [hafter, hnow], hmem⟩

theorem installGuarded_does (made : Bool) (vaultName : String) (assets : Assets) (s : FileTree)
    (hobsidian : entryAt obsidianPath s = some .directory)
    (hplugins : entryAt pluginsPath s = some .directory)
    (hplugin : entryAt pluginPath s = some .directory) :
    Does (installGuarded obsidianPath pluginPath made vaultName assets)
      (Leaves (fun _ t => Installed assets s t)
        (fun e t => e = rollbackIncomplete ∨ Undone (fun q => entryAt q s) made t)) s := by
  refine does_bind _ _ s (backUp_does pluginAssetNames
    ⟨fun b hb => absurd hb List.not_mem_nil, fun b hb => absurd hb List.not_mem_nil⟩
    (fun _ => rfl) hplugins hplugin) ?_ (fun e t ht => ht)
  rintro backups t ⟨rfl, hguards, hpaths⟩
  refine does_bind _ _ t (hguards.reads (fun _ => rfl) hplugins obsidianPath
    "community-plugins.json" maxEnabledPluginFileBytes) ?_ (fun e u hu => hu)
  rintro enabledBackup u ⟨rfl, hbackup⟩
  have hall := hguards.concat
    { bytes := enabledBackup, directory := obsidianPath, name := "community-plugins.json" }
    ⟨hbackup, hobsidian⟩ (Or.inr rfl)
  have htargets : (backups ++ [FileBackup.mk enabledBackup obsidianPath
      "community-plugins.json"]).map FileBackup.path = targets := by
    rw [List.map_append, hpaths]
    rfl
  have hastray := hall.astray (s := u) (fun _ => rfl)
  rw [htargets] at hastray
  have hwrite := writeAll_does vaultName assets enabledBackup u hobsidian hplugin hbackup hastray
  rw [← htargets] at hwrite
  exact hall.does hplugins _ hwrite

/-- A directory is there, or it is made. -/
theorem ensureDirectory_does (parent : Path) (name : String) (s : FileTree)
    (hparent : entryAt parent s = some .directory) :
    Does (ensureDirectory parent name) (fun r t => match r with
      | .ok (path, made) => path = parent ++ [name] ∧
          entryAt path s = (if made = true then none else some .directory) ∧
          Sets path (some .directory) s t
      | .error _ => t = s) s := by
  refine does_bind _ _ s (getExistingDirectory_does parent name s) ?_ (fun e t ht => ht.1)
  rintro found t ⟨rfl, ht⟩
  cases found with
  | some path =>
      obtain ⟨rfl, e, hentry, hdirectory⟩ := ht
      obtain rfl : e = .directory := of_decide_eq_true hdirectory
      refine ⟨rfl, hentry, fun q => ?_⟩
      by_cases hq : q = parent ++ [name]
      · rw [if_pos hq, hq, hentry]
      · rw [if_neg hq]
  | none =>
      refine does_bind (M := fun r u => match r with
        | .ok path => path = parent ++ [name] ∧ Sets path (some .directory) t u
        | .error _ => u = t) _ _ t ?_ (fun path u hu => ⟨hu.1, hu.1 ▸ ht, hu.2⟩) (fun e u hu => hu)
      apply does_ask
      · exact fun fault => rfl
      simp only [FileOp.effect, handleFor, if_pos hparent, ht, if_true, Option.isSome_some]
      refine ⟨trivial, fun q => entryAt_leaf parent name q t hparent (some .directory) ?_⟩
      rw [ht]
      simp

/-- What is put back is what there was before the directories were made. -/
theorem restored_of_undone (made : Bool) (s t u v : FileTree) (madePlugins : Bool)
    (hplugins : entryAt pluginsPath s = if madePlugins = true then none else some .directory)
    (hsets : Sets pluginsPath (some .directory) s t)
    (hplugin : entryAt pluginPath t = if made = true then none else some .directory)
    (hsets' : Sets pluginPath (some .directory) t u)
    (h : Undone (fun q => entryAt q u) made v) : Restored s v := by
  have hrest : ∀ q, entryAt q v = entryAt q t := by
    intro q
    rw [h q]
    by_cases hboth : made = true ∧ pluginPath <+: q
    · rw [if_pos hboth]
      rw [if_pos hboth.1] at hplugin
      obtain ⟨rest, rfl⟩ := hboth.2
      by_cases hnil : rest = []
      · rw [hnil, List.append_nil, hplugin]
      · rw [entryAt_below pluginPath rest t (by rw [hplugin]; simp) hnil]
    · rw [if_neg hboth]
      dsimp only
      rw [hsets' q]
      by_cases hq : q = pluginPath
      · have hmade : made ≠ true := fun hmade => hboth ⟨hmade, hq ▸ List.prefix_rfl⟩
        rw [if_pos hq, hq, hplugin, if_neg hmade]
      · rw [if_neg hq]
  intro q
  rw [hrest q, hsets q]
  by_cases hq : q = pluginsPath
  · rw [if_pos hq, hq, hplugins]
    cases madePlugins with
    | true => exact Or.inr ⟨rfl, rfl, rfl⟩
    | false => exact Or.inl rfl
  · rw [if_neg hq]
    exact Or.inl rfl

/-- Whatever fails, the plugin is installed, or the folder is as it was, or it is said that it
    may not be. -/
theorem install_atomic (vaultName : String) (loadVerifiedAssets : Except InstallError Assets)
    (faults : ℕ → Option Fault) (before : FileTree) :
    let run := Process.finish FileOp.exec
      (installMdevolvedSyncIntoVault vaultName loadVerifiedAssets) faults before
    (∃ assets result, loadVerifiedAssets = .ok assets ∧ run.1 = .ok result ∧
        Installed assets before run.2) ∨
      (∃ e, run.1 = .error e ∧ Restored before run.2) ∨ run.1 = .error rollbackIncomplete := by
  have hdoes : Does (installMdevolvedSyncIntoVault vaultName loadVerifiedAssets) (fun r t =>
      (∃ assets result, loadVerifiedAssets = .ok assets ∧ r = .ok result ∧
        Installed assets before t) ∨
      (∃ e, r = .error e ∧ Restored before t) ∨ r = .error rollbackIncomplete) before := by
    have hsame : Restored before before := fun q => Or.inl rfl
    refine does_bind _ _ before (getExistingDirectory_does [] ".obsidian" before) ?_
      (fun e t ht => Or.inr (Or.inl ⟨e, rfl, ht.1 ▸ hsame⟩))
    rintro found s ⟨rfl, hs⟩
    cases found with
    | none => exact Or.inr (Or.inl ⟨_, rfl, hsame⟩)
    | some obsidian =>
        obtain ⟨rfl, e, hobsidian, hdirectory⟩ := hs
        obtain rfl : e = .directory := of_decide_eq_true hdirectory
        cases loadVerifiedAssets with
        | error e => exact Or.inr (Or.inl ⟨e, rfl, hsame⟩)
        | ok assets =>
            refine does_bind _ (ensureDirectory obsidianPath "plugins") s
              (ensureDirectory_does obsidianPath "plugins" s hobsidian) ?_
              (fun e t ht => Or.inr (Or.inl ⟨e, rfl, ht ▸ hsame⟩))
            rintro ⟨plugins, madePlugins⟩ t ⟨rfl, hplugins, hsets⟩
            change entryAt pluginsPath s = _ at hplugins
            change Sets pluginsPath _ s t at hsets
            refine does_bind _ _ t (ensureDirectory_does pluginsPath mdevolvedSyncPluginId t
              hsets.at) ?_ ?_
            · rintro ⟨plugin, made⟩ u ⟨rfl, hplugin, hsets'⟩
              change Sets pluginPath _ t u at hsets'
              have hkept : ∀ q, q ≠ pluginsPath → q ≠ pluginPath → entryAt q u = entryAt q s := by
                intro q hq hq'
                rw [hsets' q, if_neg hq', hsets q, if_neg hq]
              have hpluginsThere : entryAt pluginsPath u = some .directory := by
                rw [hsets' pluginsPath, if_neg (by decide), hsets.at]
              have hinstall := installGuarded_does made vaultName assets u
                ((hkept _ (by decide) (by decide)).trans hobsidian) hpluginsThere hsets'.at
              apply does_mono _ _ hinstall
              intro r v hv
              cases r with
              | ok result =>
                  have henabled : bytesAt enabledPath u = bytesAt enabledPath s := by
                    rw [bytesAt, bytesAt, hkept _ (by decide) (by decide)]
                  exact Or.inl ⟨assets, result, rfl, rfl, hv.assets, henabled ▸ hv.enabled⟩
              | error e =>
                  rcases hv with rfl | hundone
                  · exact Or.inr (Or.inr rfl)
                  · exact Or.inr (Or.inl ⟨e, rfl, restored_of_undone made s t u v madePlugins
                      hplugins hsets hplugin hsets' hundone⟩)
            · intro e u hu
              subst hu
              refine Or.inr (Or.inl ⟨e, rfl, fun q => ?_⟩)
              rw [hsets q]
              by_cases hq : q = pluginsPath
              · rw [if_pos hq, hq, hplugins]
                cases madePlugins with
                | true => exact Or.inr ⟨rfl, rfl, rfl⟩
                | false => exact Or.inl rfl
              · rw [if_neg hq]
                exact Or.inl rfl
  exact (Process.meets_finish (fun _ _ _ _ _ _ => trivial) _ faults before trivial hdoes
    (Process.takenAll_of_forall (P := fun _ => True) _ faults before (fun _ => trivial))).2

end Mdevolved.Web
