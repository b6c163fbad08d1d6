import Mdevolved.Lib.Decimal

/-!
# Vault Documents

What the content of a vault's shared document looks like to the code that
reads it: the maps `meta`, `pathToId` and `idToText` and the schema version, each
map as the list of its entries in the order they are visited.

A value in one of these maps was written by some client and may be anything, so
`YValue` has a case for everything the readers tell apart. `decodeFileMeta` is
the only way metadata is read: it takes a nested map and a plain object alike,
requires a path, and drops every other field that is not of its type.

## Main definitions

* `YValue`: A value stored in a shared map.
* `VaultDocument`: The maps of a vault's document.
* `DecodedFileMeta`: Metadata after decoding.
* `decodeFileMeta`: Reading metadata of either shape.
-/

namespace Mdevolved.Vault

/-- A value stored in a shared map. A number that is not finite has no decimal
    form and is kept apart. -/
inductive YValue
  | null
  | bool (b : Bool)
  | num (n : Decimal)
  | nonFinite
  | str (s : String)
  | object (fields : List (String × YValue))
  | array (items : List YValue)
  | map (entries : List (String × YValue))
  | text (content : String)

/-- The entry of a map or the field of an object. -/
def entry (key : String) (entries : List (String × YValue)) : Option YValue :=
  (entries.find? (fun e => e.1 = key)).map Prod.snd

/-- The shared maps of a vault's document. -/
structure VaultDocument where
  schemaVersion : Option YValue
  metadata : List (String × YValue)
  pathToId : List (String × YValue)
  idToText : List (String × YValue)

/-- The metadata of a file, whichever shape it was stored in. -/
structure DecodedFileMeta where
  path : String
  deletedAt : Option Decimal
  deleted : Bool
  mtime : Option Decimal

/-- A field that counts only as a finite number. -/
def finiteNumber : Option YValue → Option Decimal
  | some (.num n) => some n
  | _ => none

/-- The fields of stored metadata; a path that is no string, or empty, makes all
    of it unreadable. -/
def decodeFields (fields : List (String × YValue)) : Option DecodedFileMeta :=
  match entry "path" fields with
  | some (.str path) =>
      if path = "" then none
      else some {
        path := path
        deletedAt := finiteNumber (entry "deletedAt" fields)
        deleted := match entry "deleted" fields with
          | some (.bool true) => true
          | _ => false
        mtime := finiteNumber (entry "mtime" fields) }
  | _ => none

/-- Read metadata of either shape. An array or a text is an object without
    these fields. -/
def decodeFileMeta : Option YValue → Option DecodedFileMeta
  | some (.map entries) => decodeFields entries
  | some (.object fields) => decodeFields fields
  | _ => none

/-- Whether metadata marks its file deleted. -/
def DecodedFileMeta.isTombstone (m : DecodedFileMeta) : Bool :=
  m.deleted || m.deletedAt.isSome

end Mdevolved.Vault
