import NpsSdk.Lib.JsString
import NpsSdk.Lib.Json

/-!
# What the CA signs

The canonical JSON form of an artifact, the signature over it, and the text of a date.
-/

namespace NpsSdk.Nip.Ca

open NpsSdk.Lib

/-! ### Canonical JSON -/

/-- The index a property name stands for: a canonical decimal below `2^32 - 1`.  An object lists
such properties first. -/
def arrayIndex (key : String) : Option ℕ :=
  let digits := key.toList
  let value := digits.foldl (fun n c => 10 * n + (c.toNat - 48)) 0
  if digits ≠ [] ∧ digits.all Char.isDigit ∧ (digits.head? ≠ some '0' ∨ digits.length = 1) ∧
      value < 4294967295 then some value
  else none

/-- The members of a plain object to which these members were assigned in this order.  An assignment
to `__proto__` makes no member. -/
def assignMembers (members : List (String × Json)) : List (String × Json) :=
  let own := members.filter fun m => m.1 ≠ "__proto__"
  (own.filter fun m => (arrayIndex m.1).isSome).insertionSort
      (fun a b => (arrayIndex a.1).getD 0 ≤ (arrayIndex b.1).getD 0) ++
    own.filter fun m => (arrayIndex m.1).isNone

mutual
/-- Re-serialises a value with the keys of each object in ascending order. -/
def canonicalise : Json → Json
  | .arr items => .arr (canonicaliseItems items)
  | .obj members =>
    .obj (assignMembers ((canonicaliseMembers members).insertionSort fun a b =>
      unitsLe (utf16 a.1) (utf16 b.1) = true))
  | v => v
def canonicaliseItems : List Json → List Json
  | [] => []
  | v :: vs => canonicalise v :: canonicaliseItems vs
def canonicaliseMembers : List (String × Json) → List (String × Json)
  | [] => []
  | (k, v) :: ms => (k, canonicalise v) :: canonicaliseMembers ms
end

def canonicalJson (value : Json) : String := String.ofList (canonicalise value).text

/-- Signs an artifact; `sign` gives the base64url text of the Ed25519 signature over the UTF-8 bytes
of a text. -/
def signArtifact (sign : String → String) (artifact : Json) : String :=
  "ed25519:" ++ sign (canonicalJson artifact)

/-! ### Dates -/

/-- Pads a number with zeros on the left. -/
def padStart (width : ℕ) (n : ℕ) : String :=
  let digits := Nat.toDigits 10 n
  String.ofList (List.replicate (width - digits.length) '0' ++ digits)

def civil (day : ℤ) : ℤ × ℕ × ℕ :=
  -- years start in March here, so that the leap day is the last of its year
  let z := day + 719468
  let era := z / 146097
  let doe := (z % 146097).toNat
  let yoe := (doe - doe / 1460 + doe / 36524 - doe / 146096) / 365
  let doy := doe - (365 * yoe + yoe / 4 - yoe / 100)
  let mp := (5 * doy + 2) / 153
  let d := doy - (153 * mp + 2) / 5 + 1
  let m := if mp < 10 then mp + 3 else mp - 9
  ((yoe : ℤ) + era * 400 + (if m ≤ 2 then 1 else 0), m, d)

/-- The latest date there is, on either side of the epoch. -/
def maxTime : ℤ := 8640000000000000

/-- `d.toISOString()`; none for a date out of range. -/
def toISOString (d : ℤ) : Option String :=
  if d < -maxTime ∨ maxTime < d then none
  else
    let (y, m, day) := civil (d / 86400000)
    let ms := (d % 86400000).toNat
    let year := if 0 ≤ y ∧ y ≤ 9999 then padStart 4 y.toNat
      else (if y < 0 then "-" else "+") ++ padStart 6 y.natAbs
    some (year ++ "-" ++ padStart 2 m ++ "-" ++ padStart 2 day ++ "T" ++
      padStart 2 (ms / 3600000) ++ ":" ++ padStart 2 (ms / 60000 % 60) ++ ":" ++
      padStart 2 (ms / 1000 % 60) ++ "." ++ padStart 3 (ms % 1000) ++ "Z")

/-- The text of a date with seven fractional digits. -/
def isoRoundTrip (d : ℤ) : Option String :=
  (toISOString d).map fun base => String.ofList (base.toList.dropLast) ++ "0000Z"

end NpsSdk.Nip.Ca
