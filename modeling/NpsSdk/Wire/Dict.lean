import NpsSdk.Lib.Nullish

/-!
# Dictionaries of frames

What a frame is written as: a record of members, which are JSON values or `undefined`.

A class copies most of its members as they are, so these are any values, or `undefined`.  A member that a class
replaces by a default where it is missing is not `null`, and one that it looks into has the type it declares: a
dictionary in which such a member is of another type makes no frame here.
-/

namespace NpsSdk.Wire

open NpsSdk.Lib

/-- A `Record<string, unknown>`. -/
abbrev Dict := List (String × Option Json)

/-- `data[name]`. -/
def Dict.get (data : Dict) (name : String) : Option Json := (JsMap.find name data).getD none

/-- The members of an object. -/
abbrev Members := List (String × Json)

def objects : List Json → Except String (List Members)
  | [] => .ok []
  | .obj members :: vs => do
    let os ← objects vs
    .ok (members :: os)
  | _ :: _ => .error "not an object"

@[simp] theorem objects_map (os : List Members) : objects (os.map .obj) = .ok os := by
  induction os with
  | nil => rfl
  | cons o os ih =>
    rw [List.map_cons, objects, ih]
    rfl

/-- The items of an array; nothing where it is missing. -/
def array? : Option Json → Except String (Option (List Json))
  | none => .ok none
  | some .null => .ok none
  | some (.arr items) => .ok (some items)
  | some _ => .error "not an array"

/-- `x ? [...x] : null`, of an array that may be missing. -/
def arrayOrNull (items : Option (List Json)) : Option Json := some ((items.map .arr).getD .null)

@[simp] theorem array?_arrayOrNull (items : Option (List Json)) : array? (arrayOrNull items) = .ok items := by
  cases items <;> rfl

@[simp] theorem array?_arr (items : List Json) : array? (some (.arr items)) = .ok (some items) := rfl

end NpsSdk.Wire
