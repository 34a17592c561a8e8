import NpsSdk.Lib.JsValue

/-!
# Sorted-key JSON

`sortKeysStringify` of `core/canonical-json.ts`, which writes what NIP signs.
-/

namespace NpsSdk.Core.CanonicalJson

open NpsSdk.Lib

mutual
/-- The value with the members of every object assigned to a new object in the order of their keys. -/
def sortKeys : Json → Json
  | .arr items => .arr (sortKeysItems items)
  | .obj members =>
    let assignments := (sortKeysMembers members).insertionSort fun a b => unitsLe (utf16 a.1) (utf16 b.1) = true
    -- an assignment to `__proto__` sets the prototype, which is not written
    .obj (fromEntries (assignments.filter (·.1 ≠ "__proto__")))
  | v => v
def sortKeysItems : List Json → List Json
  | [] => []
  | v :: vs => sortKeys v :: sortKeysItems vs
def sortKeysMembers : List (String × Json) → List (String × Json)
  | [] => []
  | (k, v) :: ms => (k, sortKeys v) :: sortKeysMembers ms
end

def sortKeysStringify (obj : Json) : String := String.ofList (sortKeys obj).text

end NpsSdk.Core.CanonicalJson
