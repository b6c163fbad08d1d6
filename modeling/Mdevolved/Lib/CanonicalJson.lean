import Mdevolved.Lib.Json
import Mdevolved.Lib.Utf16

/-!
# Canonical JSON

The text of a JSON value whose objects have their members in the order of their names.

## Main definitions

* `Json.canonical`: A value with the members of its objects in order.
* `Json.canonicalize`: Its text.
-/

namespace Json

mutual

/-- A value with the members of its objects in the order of their names. -/
def canonical : Json → Json
  | null => null
  | bool b => bool b
  | num n => num n
  | str s => str s
  | arr items => arr (canonicalItems items)
  | obj members => obj (Utf16.sortBy Prod.fst (canonicalMembers members))

def canonicalItems : List Json → List Json
  | [] => []
  | x :: rest => canonical x :: canonicalItems rest

def canonicalMembers : List (String × Json) → List (String × Json)
  | [] => []
  | (k, v) :: rest => (k, canonical v) :: canonicalMembers rest

end

def canonicalize (j : Json) : String := stringify (canonical j)

end Json
