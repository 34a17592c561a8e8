import NpsSdk.Lib.JsString
import NpsSdk.Lib.Json

/-!
# Values that are serialised

A value that a program builds out of strings, numbers, arrays and plain objects.  Other than a JSON
value it may hold a number that is not finite; `JSON.stringify` writes `null` for such a number.
-/

namespace NpsSdk.Lib

instance : DecidableEq JsNumber := fun a b => decidable_of_iff (a.text = b.text)
  ⟨JsNumber.ext_text, fun h => by rw [h]⟩

inductive JsNum
  | finite (n : JsNumber)
  | nan
  | infinity
  | negInfinity
  deriving DecidableEq

namespace JsNum

def isFinite : JsNum → Bool
  | .finite _ => true
  | _ => false

/-- What is written for a number. -/
def json : JsNum → Json
  | .finite n => .num n
  | _ => .null

/-- What is written determines a number, unless it is not finite. -/
theorem eq_of_json {a b : JsNum} (h : a.json = b.json) (hfin : a.isFinite = false → b.isFinite = false → a = b) :
    a = b := by
  cases a <;> cases b <;> first
    | exact hfin rfl rfl
    | (simp only [json, Json.num.injEq, reduceCtorEq] at h; try rw [h])

end JsNum

inductive JsValue
  | null
  | bool (b : Bool)
  | num (n : JsNum)
  | str (s : String)
  | arr (items : List JsValue)
  | obj (members : List (String × JsValue))

namespace JsValue

mutual
/-- The value as it is written. -/
def json : JsValue → Json
  | .null => .null
  | .bool b => .bool b
  | .num n => n.json
  | .str s => .str s
  | .arr items => .arr (jsonItems items)
  | .obj members => .obj (jsonMembers members)
def jsonItems : List JsValue → List Json
  | [] => []
  | v :: vs => json v :: jsonItems vs
def jsonMembers : List (String × JsValue) → List (String × Json)
  | [] => []
  | (k, v) :: ms => (k, json v) :: jsonMembers ms
end

mutual
def decEq : (a b : JsValue) → Decidable (a = b)
  | .null, .null => isTrue rfl
  | .bool a, .bool b => decidable_of_iff (a = b) (by simp)
  | .num a, .num b => decidable_of_iff (a = b) (by simp)
  | .str a, .str b => decidable_of_iff (a = b) (by simp)
  | .arr a, .arr b => @decidable_of_iff _ _ (by simp) (decEqItems a b)
  | .obj a, .obj b => @decidable_of_iff _ _ (by simp) (decEqMembers a b)
  | .null, .bool _ | .null, .num _ | .null, .str _ | .null, .arr _ | .null, .obj _
  | .bool _, .null | .bool _, .num _ | .bool _, .str _ | .bool _, .arr _ | .bool _, .obj _
  | .num _, .null | .num _, .bool _ | .num _, .str _ | .num _, .arr _ | .num _, .obj _
  | .str _, .null | .str _, .bool _ | .str _, .num _ | .str _, .arr _ | .str _, .obj _
  | .arr _, .null | .arr _, .bool _ | .arr _, .num _ | .arr _, .str _ | .arr _, .obj _
  | .obj _, .null | .obj _, .bool _ | .obj _, .num _ | .obj _, .str _ | .obj _, .arr _ => isFalse nofun
def decEqItems : (a b : List JsValue) → Decidable (a = b)
  | [], [] => isTrue rfl
  | [], _ :: _ | _ :: _, [] => isFalse nofun
  | v :: vs, w :: ws => @decidable_of_iff _ (v = w ∧ vs = ws) (by simp)
      (@instDecidableAnd _ _ (decEq v w) (decEqItems vs ws))
def decEqMembers : (a b : List (String × JsValue)) → Decidable (a = b)
  | [], [] => isTrue rfl
  | [], _ :: _ | _ :: _, [] => isFalse nofun
  | (k, v) :: ms, (l, w) :: ns => @decidable_of_iff _ (k = l ∧ v = w ∧ ms = ns) (by simp [and_assoc])
      (@instDecidableAnd _ _ _ (@instDecidableAnd _ _ (decEq v w) (decEqMembers ms ns)))
end

instance : DecidableEq JsValue := decEq

/-- An array of strings. -/
def strings (items : List String) : JsValue := .arr (items.map .str)

theorem jsonItems_eq (items : List JsValue) : jsonItems items = items.map json := by
  induction items with
  | nil => rfl
  | cons v vs ih => rw [jsonItems, ih, List.map_cons]

theorem find_jsonMembers (k : String) (members : List (String × JsValue)) :
    JsMap.find k (jsonMembers members) = (JsMap.find k members).map json := by
  induction members with
  | nil => rfl
  | cons m ms ih =>
    obtain ⟨k', v⟩ := m
    simp only [jsonMembers, JsMap.find]
    split_ifs
    · rfl
    · exact ih

theorem json_strings_injective {a b : List String} (h : (strings a).json = (strings b).json) : a = b := by
  simp only [strings, json, jsonItems_eq, List.map_map, Json.arr.injEq] at h
  refine List.map_injective_iff.2 (fun s t hst => ?_) h
  simpa [json] using hst

end JsValue

/-! ### The members of a plain object -/

/-- The index a property name stands for: a canonical decimal below `2^32 - 1`.  An object lists
such properties first. -/
def arrayIndex (key : String) : Option ℕ :=
  let digits := key.toList
  let value := digits.foldl (fun n c => 10 * n + (c.toNat - 48)) 0
  if digits ≠ [] ∧ digits.all Char.isDigit ∧ (digits.head? ≠ some '0' ∨ digits.length = 1) ∧
      value < 4294967295 then some value
  else none

variable {α : Type*}

/-- The members of `Object.fromEntries(members)`. -/
def fromEntries (members : List (String × α)) : List (String × α) :=
  (members.filter fun m => (arrayIndex m.1).isSome).insertionSort
      (fun a b => (arrayIndex a.1).getD 0 ≤ (arrayIndex b.1).getD 0) ++
    members.filter fun m => (arrayIndex m.1).isNone

theorem fromEntries_perm (members : List (String × α)) : (fromEntries members).Perm members := by
  have hnot : (fun m : String × α => (arrayIndex m.1).isNone) = fun m => !(arrayIndex m.1).isSome := by
    funext m
    cases arrayIndex m.1 <;> rfl
  rw [fromEntries, hnot]
  exact ((List.perm_insertionSort _ _).append_right _).trans (List.filter_append_perm _ _)

theorem find_perm {ms ns : List (String × α)} (h : ms.Perm ns) (hn : (ms.map Prod.fst).Nodup) (k : String) :
    JsMap.find k ms = JsMap.find k ns := by
  have hn' : (ns.map Prod.fst).Nodup := (h.map Prod.fst).nodup_iff.1 hn
  cases hm : JsMap.find k ms with
  | some v => exact (JsMap.find_of_mem hn' (h.mem_iff.1 (JsMap.mem_of_find hm))).symm
  | none =>
    cases hns : JsMap.find k ns with
    | none => rfl
    | some v =>
      rw [JsMap.find_of_mem hn (h.mem_iff.2 (JsMap.mem_of_find hns))] at hm
      cases hm

end NpsSdk.Lib
