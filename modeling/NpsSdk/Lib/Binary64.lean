import Mathlib.Data.Rat.Cast.Order
import NpsSdk.Lib.JsDouble
import NpsSdk.Lib.JsString

/-!
# Whole numbers as doubles

A whole number that is read keeps 53 binary digits; one that is written has the fewest decimal digits that
are read as it.
-/

namespace NpsSdk.Lib

/-- The weight of the last of the 53 binary digits of a whole number. -/
def unitOf (n : ℕ) : ℕ := 2 ^ (n.log2 - 52)

/-- A multiple of a unit that is nearest to `n`; of two, the even one. -/
def roundTo (unit n : ℕ) : ℕ :=
  (if 2 * (n % unit) < unit ∨ 2 * (n % unit) = unit ∧ n / unit % 2 = 0 then n / unit else n / unit + 1) * unit

/-- `n`, rounded to 53 binary digits. -/
def roundNat (n : ℕ) : ℕ := roundTo (unitOf n) n

/-- The double that the digits of `n` are read as. -/
def JsDouble.ofNat (n : ℕ) : JsDouble := if (roundNat n).log2 < 1024 then .fin (roundNat n) else .posInf

/-! ### Rounding -/

variable {m n v unit : ℕ}

theorem unitOf_pos : 0 < unitOf n := Nat.two_pow_pos _

theorem le_roundTo : n / unit * unit ≤ roundTo unit n := by
  unfold roundTo
  split
  · exact le_rfl
  · exact Nat.mul_le_mul_right _ (Nat.le_succ _)

theorem roundTo_le : roundTo unit n ≤ (n / unit + 1) * unit := by
  unfold roundTo
  split
  · exact Nat.mul_le_mul_right _ (Nat.le_succ _)
  · exact le_rfl

theorem roundTo_le_add {unit n : ℕ} : roundTo unit n ≤ n + unit := by
  calc roundTo unit n ≤ (n / unit + 1) * unit := roundTo_le
    _ = n / unit * unit + unit := Nat.succ_mul _ _
    _ ≤ n + unit := Nat.add_le_add_right (Nat.div_mul_le_self n unit) _

theorem roundTo_mono (h : m ≤ n) : roundTo unit m ≤ roundTo unit n := by
  rcases (Nat.div_le_div_right h : m / unit ≤ n / unit).lt_or_eq with hlt | heq
  · calc roundTo unit m ≤ (m / unit + 1) * unit := roundTo_le
      _ ≤ n / unit * unit := Nat.mul_le_mul_right _ hlt
      _ ≤ roundTo unit n := le_roundTo
  · -- of two numbers between the same multiples, the greater one has the greater rest
    have hrest : m % unit ≤ n % unit := by
      have hm := Nat.div_add_mod m unit
      have hn := Nat.div_add_mod n unit
      rw [heq] at hm
      omega
    unfold roundTo
    rw [heq]
    refine Nat.mul_le_mul_right _ ?_
    split_ifs with hm hn
    · exact le_rfl
    · exact Nat.le_succ _
    · omega
    · exact le_rfl

theorem roundNat_of_lt (h : n < 2 ^ 53) : roundNat n = n := by
  have hunit : unitOf n = 1 := by
    unfold unitOf
    by_cases hn : n = 0
    · simp [hn]
    · have hlog := (Nat.log2_lt hn).2 h
      rw [Nat.sub_eq_zero_of_le (by omega), pow_zero]
  rw [roundNat, hunit, roundTo]
  simp [Nat.mod_one]

theorem pow_le_roundNat (h : 2 ^ 52 ≤ n) : 2 ^ n.log2 ≤ roundNat n ∧ roundNat n ≤ 2 ^ (n.log2 + 1) := by
  have hn : n ≠ 0 := by
    rintro rfl
    exact absurd h (by decide)
  have hlog : 52 ≤ n.log2 := (Nat.le_log2 hn).2 h
  have hpow : ∀ k, 52 ≤ k → 2 ^ k = 2 ^ (k - (n.log2 - 52)) * unitOf n ∨ k < n.log2 - 52 := by
    intro k _
    by_cases hk : k < n.log2 - 52
    · exact .inr hk
    · left
      rw [unitOf, ← pow_add]
      congr 1
      omega
  have hlow := (hpow n.log2 hlog).resolve_right (by omega)
  have hhigh := (hpow (n.log2 + 1) (by omega)).resolve_right (by omega)
  constructor
  · refine le_trans ?_ le_roundTo
    rw [hlow]
    refine Nat.mul_le_mul_right _ ((Nat.le_div_iff_mul_le unitOf_pos).2 ?_)
    rw [← hlow]
    exact Nat.log2_self_le hn
  · refine le_trans roundTo_le ?_
    rw [hhigh]
    refine Nat.mul_le_mul_right _ ((Nat.div_lt_iff_lt_mul unitOf_pos).2 ?_)
    rw [← hhigh]
    exact Nat.lt_log2_self

theorem log2_le_log2 (h : m ≤ n) : m.log2 ≤ n.log2 := by
  by_cases hm : m = 0
  · simp [hm]
  · exact (Nat.le_log2 (by omega)).2 (le_trans (Nat.log2_self_le hm) h)

/-- **Rounding is monotone.** -/
theorem roundNat_mono (h : m ≤ n) : roundNat m ≤ roundNat n := by
  by_cases hn : n < 2 ^ 53
  · rw [roundNat_of_lt hn, roundNat_of_lt (lt_of_le_of_lt h hn)]
    exact h
  have hn : 2 ^ 53 ≤ n := not_lt.1 hn
  have hn0 : n ≠ 0 := by
    rintro rfl
    exact absurd hn (by decide)
  have hbelow := (pow_le_roundNat (le_trans (by decide) hn)).1
  by_cases hm : m < 2 ^ 53
  · rw [roundNat_of_lt hm]
    have hpow : 2 ^ 53 ≤ 2 ^ n.log2 := Nat.pow_le_pow_right (by decide) ((Nat.le_log2 hn0).2 hn)
    omega
  have hm : 2 ^ 53 ≤ m := not_lt.1 hm
  rcases (log2_le_log2 h).lt_or_eq with hlt | heq
  · calc roundNat m ≤ 2 ^ (m.log2 + 1) := (pow_le_roundNat (le_trans (by decide) hm)).2
      _ ≤ 2 ^ n.log2 := Nat.pow_le_pow_right (by decide) hlt
      _ ≤ roundNat n := hbelow
  · rw [roundNat, roundNat, unitOf, unitOf, heq]
    exact roundTo_mono h

theorem eq_of_roundNat_lt (h : roundNat n < 2 ^ 53) : roundNat n = n := by
  by_cases hn : n < 2 ^ 53
  · exact roundNat_of_lt hn
  · have hn : 2 ^ 53 ≤ n := not_lt.1 hn
    have hmono := roundNat_mono hn
    rw [show roundNat (2 ^ 53) = 2 ^ 53 by decide] at hmono
    omega

theorem JsDouble.ofNat_of_lt (h : n < 2 ^ 53) : JsDouble.ofNat n = .fin n := by
  have hlog : n.log2 < 1024 := by
    by_cases hn : n = 0
    · simp [hn]
    · have hlog := (Nat.log2_lt hn).2 h
      omega
  rw [JsDouble.ofNat, roundNat_of_lt h, if_pos hlog]

theorem JsDouble.ofNat_lt (h : m ≤ n) (hne : JsDouble.ofNat m ≠ JsDouble.ofNat n) :
    JsDouble.ofNat m < JsDouble.ofNat n := by
  have hmono := roundNat_mono h
  have hlog := log2_le_log2 hmono
  unfold JsDouble.ofNat at hne ⊢
  split_ifs at hne ⊢ with hm hn hn
  · have hcast : roundNat m ≠ roundNat n := fun heq => hne (by rw [heq])
    have hlt : roundNat m < roundNat n := lt_of_le_of_ne hmono hcast
    exact decide_eq_true (Nat.cast_lt.2 hlt)
  · rfl
  · omega
  · exact absurd rfl hne

theorem JsDouble.ofNat_ne_nan : JsDouble.ofNat n ≠ .nan := by
  unfold JsDouble.ofNat
  split <;> simp

/-! ### Writing -/

/-- The multiple of a unit that is read as `v`; of two, the one that is nearer, or else even. -/
def multipleAt (v unit : ℕ) : Option ℕ :=
  let below := v / unit * unit
  let above := (v / unit + 1) * unit
  if roundNat below = v then
    if roundNat above = v ∧ (unit < 2 * (v % unit) ∨ unit = 2 * (v % unit) ∧ v / unit % 2 = 1) then some above
    else some below
  else if roundNat above = v then some above
  else none

/-- The number of the fewest digits that is read as `v`, filled up with zeros. -/
def shortest (v : ℕ) : ℕ :=
  ((List.range (v.log2 + 1)).reverse.findSome? fun k => multipleAt v (10 ^ k)).getD v

def numberText (v : ℕ) : String :=
  let digits := Nat.toDigits 10 (shortest v)
  if shortest v < 10 ^ 21 then String.ofList digits
  else
    let significant := (digits.reverse.dropWhile (· == '0')).reverse
    let fraction := if significant.length = 1 then [] else '.' :: significant.tail
    String.ofList (significant.take 1 ++ fraction ++ 'e' :: '+' :: Nat.toDigits 10 (digits.length - 1))

/-- `String(v)`, of a number that is not negative. -/
def JsDouble.wholeText : JsDouble → String
  | .fin q => numberText q.num.toNat
  | .posInf => "Infinity"
  | .negInf => "-Infinity"
  | .nan => "NaN"

theorem roundNat_of_multipleAt (h : multipleAt v unit = some m) : roundNat m = v := by
  unfold multipleAt at h
  dsimp only at h
  split_ifs at h with hbelow habove habove
  · cases h
    exact habove.1
  · cases h
    exact hbelow
  · cases h
    exact habove

theorem shortest_of_lt (h : v < 2 ^ 53) : shortest v = v := by
  unfold shortest
  cases hfind : (List.range (v.log2 + 1)).reverse.findSome? fun k => multipleAt v (10 ^ k) with
  | none => rfl
  | some m =>
    obtain ⟨k, -, hk⟩ := List.exists_of_findSome?_eq_some hfind
    have hround := roundNat_of_multipleAt hk
    rw [Option.getD_some, ← hround]
    exact (eq_of_roundNat_lt (hround ▸ h)).symm

theorem numberText_of_lt (h : v < 2 ^ 53) : numberText v = String.ofList (Nat.toDigits 10 v) := by
  unfold numberText
  rw [shortest_of_lt h]
  exact if_pos (lt_trans h (by decide))

/-- A whole number below `2^53` is written with its own digits. -/
theorem JsDouble.wholeText_ofNat (h : n < 2 ^ 53) :
    (JsDouble.ofNat n).wholeText = String.ofList (Nat.toDigits 10 n) := by
  rw [JsDouble.ofNat_of_lt h]
  show numberText (n : ℚ).num.toNat = _
  rw [Rat.num_natCast, Int.toNat_natCast, numberText_of_lt h]

end NpsSdk.Lib
