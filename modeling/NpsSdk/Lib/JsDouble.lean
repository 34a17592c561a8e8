import Mathlib.Algebra.Order.Ring.Unbundled.Rat

/-!
# Numbers of the host language

Numbers under comparison: the rational ones, the two infinities, and `NaN`, which compares with
nothing.
-/

namespace NpsSdk.Lib

inductive JsDouble where
  | nan
  | negInf
  | fin (q : ℚ)
  | posInf
deriving DecidableEq

namespace JsDouble

/-- `a < b`. -/
protected def lt : JsDouble → JsDouble → Bool
  | .nan, _ | _, .nan => false
  | .negInf, .negInf => false
  | .negInf, _ => true
  | .fin a, .fin b => decide (a < b)
  | .fin _, .posInf => true
  | .fin _, .negInf => false
  | .posInf, _ => false

/-- `a <= b`. -/
protected def le (a b : JsDouble) : Bool := JsDouble.lt a b || decide (a = b ∧ a ≠ .nan)

instance : LT JsDouble := ⟨fun a b => JsDouble.lt a b = true⟩
instance : LE JsDouble := ⟨fun a b => JsDouble.le a b = true⟩

instance (a b : JsDouble) : Decidable (a < b) := inferInstanceAs (Decidable (JsDouble.lt a b = true))
instance (a b : JsDouble) : Decidable (a ≤ b) := inferInstanceAs (Decidable (JsDouble.le a b = true))

instance (n : ℕ) : OfNat JsDouble n := ⟨.fin n⟩

/-- `Math.min(a, b)`. -/
protected def min (a b : JsDouble) : JsDouble :=
  if a = nan ∨ b = nan then nan else if a < b then a else b

/-- `Math.max(a, b)`. -/
protected def max (a b : JsDouble) : JsDouble :=
  if a = nan ∨ b = nan then nan else if a < b then b else a

/-- `a === b`. -/
protected def eq (a b : JsDouble) : Bool := decide (a = b ∧ a ≠ nan)

/-- `a - b`, exact: of a difference only the sign is used. -/
protected def sub : JsDouble → JsDouble → JsDouble
  | .nan, _ | _, .nan => .nan
  | .posInf, .posInf | .negInf, .negInf => .nan
  | .posInf, _ | _, .negInf => .posInf
  | .negInf, _ | _, .posInf => .negInf
  | .fin a, .fin b => .fin (a - b)

instance : Sub JsDouble := ⟨JsDouble.sub⟩

/-- `-a`. -/
protected def neg : JsDouble → JsDouble
  | .nan => .nan
  | .negInf => .posInf
  | .fin q => .fin (-q)
  | .posInf => .negInf

instance : Neg JsDouble := ⟨JsDouble.neg⟩

/-- `Number.isInteger(a)`. -/
def isInteger : JsDouble → Bool
  | .fin q => decide (q.den = 1)
  | _ => false

def safeInteger : JsDouble → Option ℤ
  | .fin q => if q.den = 1 ∧ |q.num| ≤ 9007199254740991 then some q.num else none
  | _ => none

attribute [local simp] JsDouble.lt JsDouble.sub

variable {a b c : JsDouble}

theorem le_iff : a ≤ b ↔ a < b ∨ a = b ∧ a ≠ nan := by
  show JsDouble.le a b = true ↔ JsDouble.lt a b = true ∨ _
  simp [JsDouble.le]

theorem fin_le_fin {p q : ℚ} : fin p ≤ fin q ↔ p ≤ q := by
  rw [le_iff, le_iff_lt_or_eq]
  show decide (p < q) = true ∨ _ ↔ _
  simp

theorem le_refl (h : a ≠ nan) : a ≤ a := le_iff.2 (.inr ⟨rfl, h⟩)

theorem le_of_lt (h : a < b) : a ≤ b := le_iff.2 (.inl h)

theorem lt_trans (h₁ : a < b) (h₂ : b < c) : a < c := by
  have h₁ : JsDouble.lt a b = true := h₁
  have h₂ : JsDouble.lt b c = true := h₂
  show JsDouble.lt a c = true
  cases a <;> cases b <;> cases c <;> simp_all [JsDouble.lt]
  exact h₁.trans h₂

theorem lt_of_le_of_lt (h₁ : a ≤ b) (h₂ : b < c) : a < c := by
  rcases le_iff.1 h₁ with h | ⟨rfl, -⟩
  · exact lt_trans h h₂
  · exact h₂

theorem le_trans (h₁ : a ≤ b) (h₂ : b ≤ c) : a ≤ c := by
  rcases le_iff.1 h₂ with h | ⟨rfl, -⟩
  · exact le_of_lt (lt_of_le_of_lt h₁ h)
  · exact h₁

theorem le_antisymm (h₁ : a ≤ b) (h₂ : b ≤ a) : a = b := by
  rcases le_iff.1 h₁ with h | ⟨h, -⟩
  · rcases le_iff.1 h₂ with h' | ⟨h', -⟩
    · have hlt : JsDouble.lt a a = true := lt_trans h h'
      cases a <;> simp [JsDouble.lt] at hlt
    · exact h'.symm
  · exact h

/-- Only `NaN` is incomparable. -/
theorem le_or_lt (ha : a ≠ nan) (hb : b ≠ nan) : a ≤ b ∨ b < a := by
  rw [le_iff]
  show (JsDouble.lt a b = true ∨ a = b ∧ a ≠ nan) ∨ JsDouble.lt b a = true
  cases a <;> cases b <;> simp_all [JsDouble.lt]
  rename_i p q
  rcases lt_trichotomy p q with h | h | h
  · exact .inl (.inl h)
  · exact .inl (.inr h)
  · exact .inr h

theorem ne_nan_of_lt (h : a < b) : a ≠ nan ∧ b ≠ nan := by
  have h : JsDouble.lt a b = true := h
  constructor
  · rintro rfl
    cases b <;> cases h
  · rintro rfl
    cases a <;> cases h

theorem ne_nan_of_le (h : a ≤ b) : a ≠ nan ∧ b ≠ nan := by
  rcases le_iff.1 h with h | ⟨rfl, hne⟩
  · exact ne_nan_of_lt h
  · exact ⟨hne, hne⟩

theorem sub_pos : 0 < a - b ↔ b < a := by
  show JsDouble.lt (.fin 0) (JsDouble.sub a b) = true ↔ JsDouble.lt b a = true
  cases a <;> cases b <;> simp [JsDouble.sub, JsDouble.lt]

theorem sub_neg : a - b < 0 ↔ a < b := by
  show JsDouble.lt (JsDouble.sub a b) (.fin 0) = true ↔ JsDouble.lt a b = true
  cases a <;> cases b <;> simp [JsDouble.sub, JsDouble.lt]

/-- A difference is `NaN` only between two infinities. -/
theorem eq_of_sub_eq_nan (ha : a ≠ nan) (hb : b ≠ nan) (h : a - b = nan) : a = b := by
  have h : JsDouble.sub a b = nan := h
  cases a <;> cases b <;> simp_all [JsDouble.sub]

theorem lt_irrefl : ¬ a < a := by
  show ¬ JsDouble.lt a a = true
  cases a <;> simp [JsDouble.lt]

theorem eq_comm : a.eq b = b.eq a := by
  by_cases h : a = b
  · rw [h]
  · simp [JsDouble.eq, h, Ne.symm h]

theorem eq_iff (ha : a ≠ nan) : a.eq b = true ↔ a = b := by
  simp [JsDouble.eq, ha]

theorem eq_false_of_lt (h : b < a) : a.eq b = false := by
  have hne : a ≠ b := by
    rintro rfl
    exact lt_irrefl h
  simp [JsDouble.eq, hne]

theorem isInteger_ne_nan (h : a.isInteger = true) : a ≠ nan := by
  rintro rfl
  cases h

end JsDouble

end NpsSdk.Lib
