import NpsSdk.Lib.Json

/-!
# Values that may be missing

A member of an object is a value, or `undefined` where there is none.  The operator `??` passes over
`undefined` and over `null`.  It is associative: so a record that writes a missing member as `null`, and reads
`null` as a missing member, writes the same again.

Such records are *settled* by writing and reading: what is read may differ from what was written, but it is
written alike.
-/

namespace NpsSdk.Lib

/-- `x ?? y`, of values that may be `undefined`. -/
def coalesce : Option Json → Option Json → Option Json
  | none, y => y
  | some .null, y => y
  | x, _ => x

section Coalesce

variable (x y z : Option Json)

@[simp] theorem coalesce_undefined_left : coalesce none y = y := rfl

theorem coalesce_value {v : Json} (h : v ≠ .null) : coalesce (some v) y = some v := by
  unfold coalesce
  split
  · rename_i heq
    cases heq
  · rename_i heq
    exact absurd (Option.some.inj heq) h
  · rfl

/-- A value is passed over, or is the answer whatever else there is. -/
theorem coalesce_cases : (∀ y, coalesce x y = y) ∨ (∀ y, coalesce x y = x) := by
  rcases x with _ | v
  · exact .inl fun _ => rfl
  · by_cases h : v = .null
    · subst h
      exact .inl fun _ => rfl
    · exact .inr fun y => coalesce_value y h

theorem coalesce_assoc : coalesce (coalesce x y) z = coalesce x (coalesce y z) := by
  rcases coalesce_cases x with h | h
  · rw [h, h]
  · rw [h, h, h]

@[simp] theorem coalesce_self : coalesce x x = x := by
  rcases coalesce_cases x with h | h <;> exact h x

end Coalesce

/-- `x ?? null`. -/
def orNull (x : Option Json) : Option Json := coalesce x (some .null)

/-- `x ?? undefined`. -/
def orUndefined (x : Option Json) : Option Json := coalesce x none

section

variable (x : Option Json)

@[simp] theorem orNull_orUndefined : orNull (orUndefined x) = orNull x := coalesce_assoc x none _

@[simp] theorem orUndefined_orNull : orUndefined (orNull x) = orUndefined x := coalesce_assoc x _ none

@[simp] theorem orUndefined_idem : orUndefined (orUndefined x) = orUndefined x := coalesce_assoc x none none

end

/-- A value that counts as true. -/
def isTruthy : Option Json → Bool
  | none => false
  | some .null => false
  | some (.bool b) => b
  | some (.num n) => n.text ≠ ['0']
  | some (.str s) => s ≠ ""
  | some _ => true

/-- A value that is not `null`. -/
abbrev Present := { v : Json // v ≠ .null }

namespace Present

def bool (b : Bool) : Present := ⟨.bool b, nofun⟩

def num (n : JsNumber) : Present := ⟨.num n, nofun⟩

def str (s : String) : Present := ⟨.str s, nofun⟩

/-- A value, unless it is `null`. -/
def ofJson? : Json → Option Present
  | .null => none
  | .bool b => some (bool b)
  | .num n => some (num n)
  | .str s => some (str s)
  | .arr items => some ⟨.arr items, nofun⟩
  | .obj members => some ⟨.obj members, nofun⟩

@[simp] theorem ofJson?_val (p : Present) : ofJson? p.1 = some p := by
  obtain ⟨v, hv⟩ := p
  cases v with
  | null => exact absurd rfl hv
  | _ => rfl

/-- `x ?? undefined`. -/
def read (x : Option Json) : Option Present := x.bind ofJson?

/-- `x ?? d`. -/
def readOr (x : Option Json) (d : Present) : Present := (read x).getD d

/-- The value of one that may be `undefined`. -/
def val? : Option Present → Option Json
  | none => none
  | some p => some p.1

@[simp] theorem read_val? (o : Option Present) : read (coalesce (val? o) none) = o := by
  cases o with
  | none => rfl
  | some p => rw [val?, coalesce_value none p.2, read, Option.bind_some, ofJson?_val]

@[simp] theorem readOr_val (p d : Present) : readOr (some p.1) d = p := by simp [readOr, read]

end Present

def Settles {α δ ε : Type} (write : α → δ) (read : δ → Except ε α) : Prop :=
  ∀ a, ∃ b, read (write a) = .ok b ∧ write b = write a

end NpsSdk.Lib
