import Mathlib.Tactic.FieldSimp
import Mathlib.Tactic.Linarith
import Mathlib.Tactic.Positivity
import NpsSdk.Lib.Binary64
import NpsSdk.Lib.Decimal
import NpsSdk.Lib.JsonReader

/-!
# The number of a text

`Number(text)`: a decimal with a sign, a fraction and an exponent, `Infinity`, or the digits of another
radix, with space around them; no text at all is zero.  What is read is rounded to a double.
-/

namespace NpsSdk.Lib

/-! ### Rounding -/

/-- The place of the first binary digit of `n / d`. -/
def binaryExponent (n d : ℕ) : ℤ :=
  let k : ℤ := (n.log2 : ℤ) - d.log2
  if n * 2 ^ (-k).toNat < d * 2 ^ k.toNat then k - 1 else k

/-- The place of the last binary digit that a double next to `n / d` has. -/
def lastPlace (n d : ℕ) : ℤ := max (binaryExponent n d - 52) (-1074)

/-- The double next to `n / d`; of two, the even one. -/
def JsDouble.ofRatio (n d : ℕ) : JsDouble :=
  let e := lastPlace n d
  let v : ℚ := (roundTo (d * 2 ^ e.toNat) (n * 2 ^ (-e).toNat) : ℚ) / (d * 2 ^ (-e).toNat : ℕ)
  if v < 2 ^ 1024 then .fin v else .posInf

/-- The double next to `q`. -/
def JsDouble.ofRat (q : ℚ) : JsDouble :=
  if q < 0 then -JsDouble.ofRatio q.num.natAbs q.den else JsDouble.ofRatio q.num.natAbs q.den

/-- `a + b`. -/
protected def JsDouble.add : JsDouble → JsDouble → JsDouble
  | .nan, _ | _, .nan => .nan
  | .posInf, .negInf | .negInf, .posInf => .nan
  | .posInf, _ | _, .posInf => .posInf
  | .negInf, _ | _, .negInf => .negInf
  | .fin a, .fin b => .ofRat (a + b)

instance : Add JsDouble := ⟨JsDouble.add⟩

theorem JsDouble.ofRatio_ne_nan (n d : ℕ) : JsDouble.ofRatio n d ≠ .nan := by
  unfold JsDouble.ofRatio
  dsimp only
  split_ifs <;> exact JsDouble.noConfusion

theorem JsDouble.ofRat_ne_nan (q : ℚ) : JsDouble.ofRat q ≠ .nan := by
  have hne := JsDouble.ofRatio_ne_nan q.num.natAbs q.den
  unfold JsDouble.ofRat
  split_ifs
  · show JsDouble.neg _ ≠ _
    cases h : JsDouble.ofRatio q.num.natAbs q.den with
    | nan => exact absurd h hne
    | negInf => exact JsDouble.noConfusion
    | fin r => exact JsDouble.noConfusion
    | posInf => exact JsDouble.noConfusion
  · exact hne

theorem JsDouble.add_fin_ne_nan {a : JsDouble} (ha : a ≠ .nan) (q : ℚ) : a + .fin q ≠ .nan := by
  show JsDouble.add a (.fin q) ≠ _
  cases a with
  | nan => exact absurd rfl ha
  | negInf => exact JsDouble.noConfusion
  | fin p => exact JsDouble.ofRat_ne_nan _
  | posInf => exact JsDouble.noConfusion

theorem binaryExponent_lt {n d k : ℕ} (h : n < d * 2 ^ k) : binaryExponent n d < k ∨ n = 0 := by
  by_cases hn : n = 0
  · exact .inr hn
  left
  have hd : d ≠ 0 := by
    rintro rfl
    simp at h
  have hlog : n.log2 < d.log2 + 1 + k := by
    refine (Nat.log2_lt hn).2 (lt_of_lt_of_le h ?_)
    rw [pow_add]
    exact Nat.mul_le_mul_right _ Nat.lt_log2_self.le
  unfold binaryExponent
  dsimp only
  split_ifs with hbelow
  · omega
  · by_contra hk
    obtain ⟨j, hj⟩ : ∃ j : ℕ, n.log2 = d.log2 + k + j := ⟨n.log2 - d.log2 - k, by omega⟩
    have hup : ((n.log2 : ℤ) - d.log2).toNat = k + j := by omega
    have hdown : (-((n.log2 : ℤ) - d.log2)).toNat = 0 := by omega
    rw [hup, hdown, pow_zero, mul_one] at hbelow
    refine hbelow (lt_of_lt_of_le h ?_)
    exact Nat.mul_le_mul_left _ (Nat.pow_le_pow_right two_pos (Nat.le_add_right k j))

/-- A double exceeds the number next to it by no more than the unit of its last place. -/
theorem JsDouble.ofRatio_le {n d k : ℕ} (hk : k ≤ 52) (h : n < d * 2 ^ k) :
    ∃ a : ℚ, JsDouble.ofRatio n d = .fin a ∧ 0 ≤ a ∧ a ≤ (n : ℚ) / d + 1 / 2 ^ (53 - k) := by
  have hd : 0 < d := Nat.pos_of_ne_zero fun hd => by simp [hd] at h
  have hplace : (lastPlace n d).toNat = 0 ∧ (53 - k ≤ (-lastPlace n d).toNat ∨ n = 0) := by
    unfold lastPlace
    rcases binaryExponent_lt h with hlt | rfl
    · omega
    · have hzero : binaryExponent 0 d ≤ 0 := by
        unfold binaryExponent
        dsimp only
        simp only [show Nat.log2 0 = 0 by decide]
        split_ifs <;> omega
      omega
  obtain ⟨E, hE⟩ : ∃ E, E = (-lastPlace n d).toNat := ⟨_, rfl⟩
  have hvalue : ((roundTo d (n * 2 ^ E) : ℕ) : ℚ) / ((d * 2 ^ E : ℕ) : ℚ) ≤ (n : ℚ) / d + 1 / 2 ^ (53 - k) := by
    have hdq : (0 : ℚ) < d := by exact_mod_cast hd
    have hpow : (0 : ℚ) < 2 ^ E := by positivity
    rcases hplace.2 with hlow | rfl
    · have hround : ((roundTo d (n * 2 ^ E) : ℕ) : ℚ) ≤ n * 2 ^ E + d := by exact_mod_cast roundTo_le_add
      calc ((roundTo d (n * 2 ^ E) : ℕ) : ℚ) / ((d * 2 ^ E : ℕ) : ℚ)
          ≤ ((n : ℚ) * 2 ^ E + d) / ((d * 2 ^ E : ℕ) : ℚ) := div_le_div_of_nonneg_right hround (Nat.cast_nonneg _)
        _ = (n : ℚ) / d + 1 / 2 ^ E := by
          push_cast
          field_simp
        _ ≤ (n : ℚ) / d + 1 / 2 ^ (53 - k) := by
          refine add_le_add le_rfl ?_
          exact one_div_le_one_div_of_le (by positivity) (pow_le_pow_right₀ one_le_two (hE ▸ hlow))
    · have hzero : roundTo d (0 * 2 ^ E) = 0 := by simp [roundTo, hd]
      rw [hzero]
      simp
  have hsmall : ((roundTo d (n * 2 ^ E) : ℕ) : ℚ) / ((d * 2 ^ E : ℕ) : ℚ) < 2 ^ 1024 := by
    have hq : (n : ℚ) / d < 2 ^ k := by
      rw [div_lt_iff₀ (by exact_mod_cast hd), mul_comm]
      exact_mod_cast h
    have hunit : (1 : ℚ) / 2 ^ (53 - k) ≤ 1 := (div_le_one (by positivity)).2 (one_le_pow₀ one_le_two)
    have hone : (1 : ℚ) ≤ 2 ^ k := one_le_pow₀ one_le_two
    calc ((roundTo d (n * 2 ^ E) : ℕ) : ℚ) / ((d * 2 ^ E : ℕ) : ℚ)
        ≤ (n : ℚ) / d + 1 / 2 ^ (53 - k) := hvalue
      _ ≤ 2 ^ (k + 1) := by
        rw [pow_succ]
        linarith
      _ < 2 ^ 1024 := pow_lt_pow_right₀ one_lt_two (by omega)
  refine ⟨_, ?_, div_nonneg (Nat.cast_nonneg _) (Nat.cast_nonneg _), hvalue⟩
  unfold JsDouble.ofRatio
  dsimp only
  rw [hplace.1, pow_zero, mul_one, ← hE, if_pos hsmall]

theorem JsDouble.ofRat_le {q : ℚ} {k : ℕ} (h0 : 0 ≤ q) (hk : k ≤ 52) (h : q < 2 ^ k) :
    ∃ a : ℚ, JsDouble.ofRat q = .fin a ∧ 0 ≤ a ∧ a ≤ q + 1 / 2 ^ (53 - k) := by
  have hnum : (q.num.natAbs : ℚ) / q.den = q := by
    have habs : ((q.num.natAbs : ℤ) : ℚ) = (q.num : ℚ) := by rw [Int.natAbs_of_nonneg (Rat.num_nonneg.2 h0)]
    rw [Int.cast_natCast] at habs
    rw [habs]
    exact Rat.num_div_den q
  have hlt : q.num.natAbs < q.den * 2 ^ k := by
    have hden : (0 : ℚ) < q.den := by exact_mod_cast q.den_pos
    rw [← hnum, div_lt_iff₀ hden, mul_comm] at h
    exact_mod_cast h
  obtain ⟨a, hfin, hpos, hle⟩ := JsDouble.ofRatio_le hk hlt
  rw [hnum] at hle
  refine ⟨a, ?_, hpos, hle⟩
  unfold JsDouble.ofRat
  rw [if_neg (not_lt.2 h0)]
  exact hfin

/-! ### Reading -/

/-- The radix that a letter announces. -/
def radixOf : Char → Option ℕ
  | 'x' | 'X' => some 16
  | 'o' | 'O' => some 8
  | 'b' | 'B' => some 2
  | _ => none

def readRadix (radix : ℕ) (cs : List Char) : Option ℕ :=
  if cs = [] then none
  else cs.foldlM (fun n c => (Json.readHexDigit c).bind fun d =>
    if d < radix then some (n * radix + d) else none) 0

/-- A decimal without a sign, or `Infinity`. -/
def readMagnitude (cs : List Char) : JsDouble :=
  if cs = "Infinity".toList then .posInf
  else match readUnsigned (cs.map fun c => if c = 'E' then 'e' else c) with
    | some q => .ofRat q
    | none => .nan

def readSigned : List Char → JsDouble
  | '-' :: cs => -readMagnitude cs
  | '+' :: cs => readMagnitude cs
  | cs => readMagnitude cs

/-- The number of a text that begins and ends with no space. -/
def readNumeric : List Char → JsDouble
  | [] => 0
  | '0' :: c :: cs =>
    match radixOf c with
    | some radix => ((readRadix radix cs).map fun n => JsDouble.ofRatio n 1).getD .nan
    | none => readSigned ('0' :: c :: cs)
  | cs => readSigned cs

/-- `Number(text)`. -/
def stringToNumber (text : String) : JsDouble := readNumeric (trim text).toList

/-- The double that a number is: a finite one is printed such that its text is read as itself. -/
def JsNum.double : JsNum → JsDouble
  | .finite n => readNumeric n.text
  | .nan => .nan
  | .infinity => .posInf
  | .negInfinity => .negInf

/-! ### Decimal digits -/

theorem roundTo_one (n : ℕ) : roundTo 1 n = n := by
  simp [roundTo, Nat.mod_one]

theorem JsDouble.ofRatio_of_lt {n : ℕ} (h : n < 2 ^ 53) : JsDouble.ofRatio n 1 = .fin n := by
  have hlog : n.log2 ≤ 52 := by
    rcases Nat.eq_zero_or_pos n with rfl | hpos
    · decide
    · have hlt : n.log2 < 53 := (Nat.log2_lt hpos.ne').2 h
      omega
  have hplace : (lastPlace n 1).toNat = 0 := by
    have hone : Nat.log2 1 = 0 := by decide
    have hexponent : binaryExponent n 1 ≤ n.log2 := by
      unfold binaryExponent
      dsimp only
      rw [hone]
      split_ifs <;> omega
    unfold lastPlace
    omega
  have hvalue : ((roundTo (1 * 2 ^ (lastPlace n 1).toNat) (n * 2 ^ (-lastPlace n 1).toNat) : ℕ) : ℚ) /
      ((1 * 2 ^ (-lastPlace n 1).toNat : ℕ) : ℚ) = n := by
    rw [hplace, pow_zero, one_mul, one_mul, roundTo_one]
    push_cast
    exact mul_div_cancel_right₀ _ (pow_ne_zero _ two_ne_zero)
  have hsmall : (n : ℚ) < 2 ^ 1024 := by
    calc (n : ℚ) < 2 ^ 53 := by exact_mod_cast h
      _ < 2 ^ 1024 := pow_lt_pow_right₀ one_lt_two (by decide)
  unfold JsDouble.ofRatio
  dsimp only
  rw [hvalue, if_pos hsmall]

theorem JsDouble.ofRat_natCast {n : ℕ} (h : n < 2 ^ 53) : JsDouble.ofRat n = .fin n := by
  have hnonneg : ¬ (n : ℚ) < 0 := not_lt.2 (Nat.cast_nonneg n)
  unfold JsDouble.ofRat
  rw [if_neg hnonneg]
  simpa using JsDouble.ofRatio_of_lt h

theorem toNat_of_isDigit {d : Char} (h : d.isDigit = true) : 48 ≤ d.toNat ∧ d.toNat ≤ 57 := by
  simp only [Char.isDigit, Bool.and_eq_true, decide_eq_true_eq, UInt32.le_iff_toNat_le] at h
  exact h

theorem isJsSpace_of_isDigit {d : Char} (h : d.isDigit = true) : isJsSpace d = false := by
  obtain ⟨hlow, hhigh⟩ := toNat_of_isDigit h
  simp only [isJsSpace, Bool.or_eq_false_iff, Bool.and_eq_false_iff, decide_eq_false_iff_not, beq_eq_false_iff_ne]
  omega

section

variable {cs : List Char} (hne : cs ≠ []) (hdigits : cs.all Char.isDigit = true)

include hdigits

theorem ne_of_isDigit {c d : Char} (hc : c ∈ cs) (hd : d.isDigit = false) : c ≠ d := by
  rintro rfl
  rw [List.all_eq_true] at hdigits
  rw [hdigits c hc] at hd
  cases hd

theorem trim_digits : (trim (String.ofList cs)).toList = cs := by
  have hspace : ∀ {ds : List Char}, ds.all Char.isDigit = true → ds.dropWhile isJsSpace = ds := by
    intro ds h
    cases ds with
    | nil => rfl
    | cons d ds =>
      have hdigit : d.isDigit = true := by simp at h; exact h.1
      rw [List.dropWhile_cons, isJsSpace_of_isDigit hdigit]
      rfl
  unfold trim
  rw [String.toList_ofList, String.toList_ofList, hspace hdigits, hspace (by simpa using hdigits),
    List.reverse_reverse]

include hne

theorem readMagnitude_digits (h : digitsValue cs < 2 ^ 53) : readMagnitude cs = .fin (digitsValue cs) := by
  have hnotInfinity : cs ≠ "Infinity".toList := by
    rintro rfl
    exact absurd hdigits (by decide)
  have hmap : (cs.map fun c => if c = 'E' then 'e' else c) = cs := by
    refine (List.map_congr_left fun c hc => if_neg (ne_of_isDigit hdigits hc (by decide))).trans ?_
    exact List.map_id' cs
  have hread : readUnsigned cs = some (digitsValue cs : ℚ) := by
    have hdecimal := readDecimal_digits hne hdigits
    unfold readDecimal at hdecimal
    split at hdecimal
    · exact absurd rfl (ne_of_isDigit hdigits List.mem_cons_self (by decide))
    · exact hdecimal
  unfold readMagnitude
  rw [if_neg hnotInfinity, hmap, hread]
  exact JsDouble.ofRat_natCast h

theorem stringToNumber_digits (h : digitsValue cs < 2 ^ 53) :
    stringToNumber (String.ofList cs) = .fin (digitsValue cs) := by
  have hsigned : readSigned cs = readMagnitude cs := by
    unfold readSigned
    split
    · exact absurd rfl (ne_of_isDigit hdigits List.mem_cons_self (by decide))
    · exact absurd rfl (ne_of_isDigit hdigits List.mem_cons_self (by decide))
    · rfl
  have hnumeric : readNumeric cs = readSigned cs := by
    unfold readNumeric
    split
    · exact absurd rfl hne
    · rename_i c ds
      have hradix : radixOf c = none := by
        have hc : ∀ d : Char, d.isDigit = false → c ≠ d := fun d hd =>
          ne_of_isDigit hdigits (by simp) hd
        unfold radixOf
        split
        · exact absurd rfl (hc 'x' (by decide))
        · exact absurd rfl (hc 'X' (by decide))
        · exact absurd rfl (hc 'o' (by decide))
        · exact absurd rfl (hc 'O' (by decide))
        · exact absurd rfl (hc 'b' (by decide))
        · exact absurd rfl (hc 'B' (by decide))
        · rfl
      rw [hradix]
    · rfl
  unfold stringToNumber
  rw [trim_digits hdigits, hnumeric, hsigned]
  exact readMagnitude_digits hne hdigits h

end

theorem stringToNumber_numberText {n : ℕ} (h : n < 2 ^ 53) : stringToNumber (numberText n) = .fin n := by
  have hvalue : digitsValue (Nat.toDigits 10 n) = n := Nat.ofDigitChars_ten_toDigits
  have hdigits : (Nat.toDigits 10 n).all Char.isDigit = true :=
    List.all_eq_true.2 fun c hc => Nat.isDigit_of_mem_toDigits (by decide) (by decide) hc
  rw [numberText_of_lt h, stringToNumber_digits Nat.toDigits_ne_nil hdigits (by rwa [hvalue]), hvalue]

/-!
## Conversions of the host language

`String(v)` and `Number(v)` of values that were read from JSON.  An object with a member `toString` of its
own cannot be converted, since no JSON value can be called.
-/

namespace Json

mutual
/-- `String(v)`, unless it throws. -/
def toText : Json → Option String
  | .null => some "null"
  | .bool true => some "true"
  | .bool false => some "false"
  | .num n => some (String.ofList n.text)
  | .str s => some s
  | .arr items => (toTexts items).map (join ",")
  | .obj members => if "toString" ∈ members.map Prod.fst then none else some "[object Object]"
/-- The texts that an array joins: nothing for `null`. -/
def toTexts : List Json → Option (List String)
  | [] => some []
  | .null :: vs => (toTexts vs).map ("" :: ·)
  | v :: vs =>
    match toText v with
    | none => none
    | some s => (toTexts vs).map (s :: ·)
end

/-- `Number(v)`, unless it throws, where `numberOfText` is `Number` of strings. -/
def toNumber (numberOfText : String → JsNum) (v : Json) : Option JsNum :=
  match v with
  | .null | .bool false => some (.finite ⟨['0'], rfl, List.cons_ne_nil _ _⟩)
  | .bool true => some (.finite ⟨['1'], rfl, List.cons_ne_nil _ _⟩)
  | .num n => some (.finite n)
  | .str s => some (numberOfText s)
  | .arr _ | .obj _ => v.toText.map numberOfText

/-- `Number(v)` as a double, unless it throws. -/
def toDouble : Json → Option JsDouble
  | .null | .bool false => some 0
  | .bool true => some 1
  | .num n => some (readNumeric n.text)
  | .str s => some (stringToNumber s)
  | v => v.toText.map stringToNumber

end Json

end NpsSdk.Lib
