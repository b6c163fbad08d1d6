import Mathlib

/-!
# Trees of Files

A folder with the files and folders in it. What is at a path is the name of what is there: a
file with its bytes, or a directory. A change puts a file, an empty directory or nothing in one
place, and says nothing about any other, as long as there is a directory to put it in and no
directory in its place.

## Main definitions

* `FileTree`: A file, or a directory and what is in it.
* `FileTree.entryAt`: What is at a path.
* `FileTree.replace`: A tree with another one at a path.

## Theorems

* `FileTree.entryAt_leaf`: What a change of one place leaves.
* `FileTree.entryAt_removed`: What a removal leaves.
-/

/-- A file, or a directory with what is in it under names. -/
inductive FileTree
  | file (bytes : List UInt8)
  | directory (children : List (String × FileTree))

namespace FileTree

inductive Entry
  | file (bytes : List UInt8)
  | directory
  deriving DecidableEq

abbrev Path := List String

def entry : FileTree → Entry
  | file bytes => .file bytes
  | directory _ => .directory

/-- A file, or a directory with nothing in it. -/
def leaf : Entry → FileTree
  | .file bytes => file bytes
  | .directory => directory []

def find : Path → FileTree → Option FileTree
  | [], t => some t
  | _ :: _, file _ => none
  | name :: path, directory children => (children.lookup name).bind (find path)

/-- What is at a path. -/
def entryAt (path : Path) (t : FileTree) : Option Entry := (find path t).map entry

/-- Another tree under a name, or none. -/
def replaceChild (name : String) (x : Option FileTree) (children : List (String × FileTree)) :
    List (String × FileTree) :=
  (x.map (fun t => (name, t))).toList ++ children.filter (fun child => child.1 ≠ name)

/-- Another tree at a path, or none. -/
def replace (x : Option FileTree) : Path → FileTree → FileTree
  | name :: path, directory children =>
      directory (replaceChild name
        (match path with
          | [] => x
          | _ :: _ => (children.lookup name).map (replace x path))
        children)
  | _, t => t

theorem replace_of_ne_nil (x : Option FileTree) (name : String) (path : Path)
    (children : List (String × FileTree)) (h : path ≠ []) :
    replace x (name :: path) (directory children) =
      directory (replaceChild name ((children.lookup name).map (replace x path)) children) := by
  obtain ⟨first, rest, rfl⟩ := List.exists_cons_of_ne_nil h
  rfl

theorem lookup_filter_ne (name other : String) (children : List (String × FileTree)) :
    (children.filter (fun child => child.1 ≠ name)).lookup other =
      if other = name then none else children.lookup other := by
  induction children with
  | nil => simp
  | cons child children ih =>
      obtain ⟨first, t⟩ := child
      by_cases hfirst : first = name
      · rw [List.filter_cons_of_neg (by simp [hfirst]), ih]
        by_cases hother : other = name
        · rw [if_pos hother, if_pos hother]
        · have hne : (other == first) = false := beq_eq_false_iff_ne.mpr (hfirst ▸ hother)
          rw [if_neg hother, if_neg hother, List.lookup_cons, hne]
      · rw [List.filter_cons_of_pos (by simp [hfirst]), List.lookup_cons, List.lookup_cons, ih]
        by_cases hother : other = first
        · have hne : other ≠ name := fun h => hfirst (hother.symm.trans h)
          simp [hother, hfirst]
        · simp [beq_eq_false_iff_ne.mpr hother]

theorem lookup_replaceChild (name other : String) (x : Option FileTree)
    (children : List (String × FileTree)) :
    (replaceChild name x children).lookup other =
      if other = name then x else children.lookup other := by
  unfold replaceChild
  cases x with
  | none =>
      rw [Option.map_none, Option.toList_none, List.nil_append, lookup_filter_ne]
  | some t =>
      rw [Option.map_some, Option.toList_some, List.singleton_append, List.lookup_cons,
        lookup_filter_ne]
      by_cases hother : other = name
      · simp [hother]
      · simp [hother, beq_eq_false_iff_ne.mpr hother]

/-- A directory is what it is made of. -/
theorem exists_children (t : FileTree) (h : entryAt [] t = some .directory) :
    ∃ children, t = directory children := by
  cases t with
  | file bytes => cases h
  | directory children => exact ⟨children, rfl⟩

theorem entryAt_cons (name : String) (path : Path) (children : List (String × FileTree)) :
    entryAt (name :: path) (directory children) =
      (children.lookup name).bind (entryAt path) := by
  unfold entryAt
  rw [find]
  cases children.lookup name <;> rfl

/-- There is nothing below what is no directory. -/
theorem entryAt_below (path rest : Path) (t : FileTree) (h : entryAt path t ≠ some .directory)
    (hrest : rest ≠ []) : entryAt (path ++ rest) t = none := by
  induction path generalizing t with
  | nil =>
      cases t with
      | file bytes =>
          obtain ⟨name, rest, rfl⟩ := List.exists_cons_of_ne_nil hrest
          rfl
      | directory children => exact absurd rfl h
  | cons name path ih =>
      cases t with
      | file bytes => rfl
      | directory children =>
          rw [List.cons_append, entryAt_cons]
          rw [entryAt_cons] at h
          cases hchild : children.lookup name with
          | none => rfl
          | some t =>
              rw [hchild] at h
              exact ih t h

/-- What is where a tree was replaced. The induction is on the way to the directory that it is
    in. -/
theorem entryAt_replace (x : Option FileTree) (dir : Path) (name : String) (path : Path)
    (t : FileTree) (h : entryAt dir t = some .directory) :
    entryAt path (replace x (dir ++ [name]) t) =
      if dir ++ [name] <+: path then x.bind (entryAt (path.drop (dir.length + 1)))
      else entryAt path t := by
  induction dir generalizing path t with
  | nil =>
      obtain ⟨children, rfl⟩ := exists_children t h
      cases path with
      | nil => rfl
      | cons first path =>
          rw [List.nil_append, replace, entryAt_cons, entryAt_cons, lookup_replaceChild]
          by_cases hfirst : first = name
          · simp [hfirst]
          · simp [hfirst, List.cons_prefix_cons, Ne.symm hfirst]
  | cons outer dir ih =>
      cases t with
      | file bytes => cases h
      | directory children =>
          rw [entryAt_cons] at h
          cases hchild : children.lookup outer with
          | none =>
              rw [hchild] at h
              cases h
          | some inner =>
              rw [hchild] at h
              have hreplace : replace x (outer :: dir ++ [name]) (directory children) =
                  directory (replaceChild outer (some (replace x (dir ++ [name]) inner))
                    children) := by
                rw [List.cons_append, replace_of_ne_nil x outer _ children (by simp), hchild,
                  Option.map_some]
              rw [hreplace]
              cases path with
              | nil => rfl
              | cons first path =>
                  rw [entryAt_cons, entryAt_cons, lookup_replaceChild]
                  by_cases hfirst : first = outer
                  · simp [hfirst, hchild, ih path inner h]
                  · simp [hfirst, List.cons_prefix_cons, Ne.symm hfirst]

section Changes

variable (dir : Path) (name : String) (path : Path) (t : FileTree)
  (h : entryAt dir t = some .directory)

include h

/-- A file, an empty directory or nothing is put where there is no directory. -/
theorem entryAt_leaf (e : Option Entry) (hfree : entryAt (dir ++ [name]) t ≠ some .directory) :
    entryAt path (replace (e.map leaf) (dir ++ [name]) t) =
      if path = dir ++ [name] then e else entryAt path t := by
  rw [entryAt_replace _ dir name path t h]
  by_cases hprefix : dir ++ [name] <+: path
  · rw [if_pos hprefix]
    obtain ⟨rest, rfl⟩ := hprefix
    have hlength : (dir ++ [name]).length = dir.length + 1 := by simp
    rw [← hlength, List.drop_left]
    by_cases hrest : rest = []
    · subst hrest
      rw [List.append_nil, if_pos rfl]
      cases e with
      | none => rfl
      | some e => cases e <;> rfl
    · have hne : dir ++ [name] ++ rest ≠ dir ++ [name] := by simpa using hrest
      rw [if_neg hne, entryAt_below _ rest t hfree hrest]
      obtain ⟨first, rest, rfl⟩ := List.exists_cons_of_ne_nil hrest
      cases e with
      | none => rfl
      | some e => cases e <;> rfl
  · have hne : path ≠ dir ++ [name] := fun heq => hprefix (heq ▸ List.prefix_rfl)
    rw [if_neg hprefix, if_neg hne]

/-- A directory is removed with all that is in it. -/
theorem entryAt_removed :
    entryAt path (replace none (dir ++ [name]) t) =
      if dir ++ [name] <+: path then none else entryAt path t := by
  rw [entryAt_replace none dir name path t h]
  rfl

end Changes

end FileTree
