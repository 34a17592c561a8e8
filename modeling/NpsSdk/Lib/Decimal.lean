import NpsSdk.Lib.JsDouble
import NpsSdk.Lib.JsValue

/-!
# The numbers of decimal texts

What a number is that is written in decimal: digits with a fraction and an exponent.
-/

namespace NpsSdk.Lib

def readMantissa (cs : List Char) : Option ℚ :=
  match splitChars '.' cs with
  | [digits] => if digits ≠ [] ∧ digits.all Char.isDigit then some (digitsValue digits) else none
  | [digits, fraction] =>
    if (digits ≠ [] ∨ fraction ≠ []) ∧ digits.all Char.isDigit ∧ fraction.all Char.isDigit then
      some ((digitsValue (digits ++ fraction) : ℚ) / 10 ^ fraction.length)
    else none
  | _ => none

def readExponent : List Char → Option ℤ
  | '-' :: cs => if cs ≠ [] ∧ cs.all Char.isDigit then some (-(digitsValue cs : ℤ)) else none
  | '+' :: cs => if cs ≠ [] ∧ cs.all Char.isDigit then some (digitsValue cs) else none
  | cs => if cs ≠ [] ∧ cs.all Char.isDigit then some (digitsValue cs) else none

def readUnsigned (cs : List Char) : Option ℚ :=
  match splitChars 'e' cs with
  | [mantissa] => readMantissa mantissa
  | [mantissa, exponent] =>
    (readMantissa mantissa).bind fun m => (readExponent exponent).map fun k => m * 10 ^ k
  | _ => none

def readDecimal : List Char → Option ℚ
  | '-' :: cs => (readUnsigned cs).map fun q => -q
  | cs => readUnsigned cs

def JsNumber.value (n : JsNumber) : JsDouble :=
  match readDecimal n.text with
  | some q => .fin q
  | none => .nan

def JsNum.value : JsNum → JsDouble
  | .finite n => n.value
  | .nan => .nan
  | .infinity => .posInf
  | .negInfinity => .negInf

/-! ### Digits -/

theorem readDecimal_digits {cs : List Char} (hne : cs ≠ []) (hdigits : cs.all Char.isDigit = true) :
    readDecimal cs = some (digitsValue cs : ℚ) := by
  have hnot : ∀ c : Char, c.isDigit = false → c ∉ cs := by
    intro c hc hmem
    rw [List.all_eq_true] at hdigits
    simp [hdigits c hmem] at hc
  have hmantissa : readMantissa cs = some (digitsValue cs : ℚ) := by
    unfold readMantissa
    rw [splitChars_of_not_mem (hnot '.' (by decide))]
    simp only [hne, hdigits, ne_eq, not_false_eq_true, and_self, if_true]
  have hunsigned : readUnsigned cs = some (digitsValue cs : ℚ) := by
    unfold readUnsigned
    rw [splitChars_of_not_mem (hnot 'e' (by decide))]
    exact hmantissa
  unfold readDecimal
  split
  · exact absurd List.mem_cons_self (hnot '-' (by decide))
  · exact hunsigned

end NpsSdk.Lib
