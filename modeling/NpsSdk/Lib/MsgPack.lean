import NpsSdk.Lib.Bytes
import NpsSdk.Lib.JsonReader

/-!
# MessagePack

What a program relies on that writes values in MessagePack and reads them back.  A reader refuses maps with the key
`__proto__`, and input that ends too soon.
-/

namespace NpsSdk.Lib

namespace JsValue

mutual
/-- No object in the value has a member `__proto__` of its own. -/
def ProtoFree : JsValue → Prop
  | .arr items => ProtoFreeItems items
  | .obj members => ProtoFreeMembers members
  | _ => True
def ProtoFreeItems : List JsValue → Prop
  | [] => True
  | v :: vs => ProtoFree v ∧ ProtoFreeItems vs
def ProtoFreeMembers : List (String × JsValue) → Prop
  | [] => True
  | (k, v) :: ms => k ≠ "__proto__" ∧ ProtoFree v ∧ ProtoFreeMembers ms
end

theorem protoFreeItems_iff {items : List JsValue} : ProtoFreeItems items ↔ ∀ v ∈ items, ProtoFree v := by
  induction items with
  | nil => simp [ProtoFreeItems]
  | cons v vs ih => simp [ProtoFreeItems, ih]

theorem protoFreeMembers_iff {members : List (String × JsValue)} :
    ProtoFreeMembers members ↔ ∀ m ∈ members, m.1 ≠ "__proto__" ∧ ProtoFree m.2 := by
  induction members with
  | nil => simp [ProtoFreeMembers]
  | cons m ms ih => simp [ProtoFreeMembers, ih, and_assoc]

end JsValue

/-- A writer and a reader, which may throw. -/
structure MsgPack where
  encode : JsValue → Except String Bytes
  decode : Bytes → Except String JsValue

namespace MsgPack

/-- What is written is read back unless it has a member `__proto__`, which no value has that is read, and no part of it
is read. -/
structure Lawful (m : MsgPack) : Prop where
  decode_encode {v : JsValue} {bytes : Bytes} (hplain : v.Plain) (hfree : v.ProtoFree) (h : m.encode v = .ok bytes) :
    m.decode bytes = .ok v
  protoFree {v : JsValue} {bytes : Bytes} (h : m.decode bytes = .ok v) : v.ProtoFree
  whole {v v' : JsValue} {bytes part rest : Bytes} (h : m.encode v = .ok bytes) (heq : bytes = part ++ rest)
    (hrest : rest ≠ []) : m.decode part ≠ .ok v'

/-- A value with a member `__proto__` is not read back. -/
theorem Lawful.reads_iff {m : MsgPack} (hm : m.Lawful) {v : JsValue} {bytes : Bytes} (hplain : v.Plain)
    (h : m.encode v = .ok bytes) : m.decode bytes = .ok v ↔ v.ProtoFree :=
  ⟨hm.protoFree, fun hfree => hm.decode_encode hplain hfree h⟩

/-- The codec of one value. -/
def only (v : JsValue) (bytes : Bytes) : MsgPack where
  encode w := if w = v then .ok bytes else .error "Error"
  decode input := if input = bytes then .ok v else .error "Error"

theorem lawful_only {v : JsValue} (hfree : v.ProtoFree) (bytes : Bytes) : (only v bytes).Lawful where
  decode_encode := by
    intro w bytes' _ _ h
    unfold only at *
    dsimp only at *
    split at h
    · rename_i heq
      cases h
      rw [if_pos rfl, heq]
    · cases h
  protoFree := by
    intro w bytes' h
    unfold only at h
    dsimp only at h
    split at h
    · cases h
      exact hfree
    · cases h
  whole := by
    intro w w' bytes' part rest h heq hrest
    unfold only at *
    dsimp only at *
    split at h
    · cases h
      rw [if_neg]
      · nofun
      · rintro rfl
        exact hrest (List.self_eq_append_right.1 heq)
    · cases h

end MsgPack

end NpsSdk.Lib
