import Mathlib.Tactic.Common

/-!
# Bytes from text

`Buffer.from(text, encoding)` for the encodings `hex`, `base64` and `base64url`.  No text is ever
rejected: a hexadecimal text is read up to its first pair that is not of digits, and a base64 text
up to its padding, without the characters outside both alphabets.
-/

namespace NpsSdk.Lib

/-- The value of a hexadecimal digit. -/
def hexNibble (c : Char) : Option ℕ :=
  if 48 ≤ c.toNat ∧ c.toNat ≤ 57 then some (c.toNat - 48)
  else if 65 ≤ c.toNat ∧ c.toNat ≤ 70 then some (c.toNat - 55)
  else if 97 ≤ c.toNat ∧ c.toNat ≤ 102 then some (c.toNat - 87)
  else none

/-- `Buffer.from(text, "hex")`. -/
def bytesOfHex : List Char → List UInt8
  | a :: b :: rest =>
    match hexNibble a, hexNibble b with
    | some x, some y => UInt8.ofNat (16 * x + y) :: bytesOfHex rest
    | _, _ => []
  | _ => []

/-- The value of a base64 character, of either alphabet. -/
def sextet (c : Char) : Option ℕ :=
  if 65 ≤ c.toNat ∧ c.toNat ≤ 90 then some (c.toNat - 65)
  else if 97 ≤ c.toNat ∧ c.toNat ≤ 122 then some (c.toNat - 71)
  else if 48 ≤ c.toNat ∧ c.toNat ≤ 57 then some (c.toNat + 4)
  else if c = '+' ∨ c = '-' then some 62
  else if c = '/' ∨ c = '_' then some 63
  else none

/-- The values of the characters before the padding. -/
def sextets : List Char → List ℕ
  | [] => []
  | c :: rest =>
    if c = '=' then []
    else match sextet c with
      | some x => x :: sextets rest
      | none => sextets rest

/-- The bytes whose bits the sextets are; a rest of less than a byte is dropped. -/
def bytesOfSextets : List ℕ → List UInt8
  | a :: b :: c :: d :: rest =>
    UInt8.ofNat (4 * a + b / 16) :: UInt8.ofNat (16 * b + c / 4) :: UInt8.ofNat (64 * c + d) ::
      bytesOfSextets rest
  | [a, b, c] => [UInt8.ofNat (4 * a + b / 16), UInt8.ofNat (16 * b + c / 4)]
  | [a, b] => [UInt8.ofNat (4 * a + b / 16)]
  | _ => []

/-- `Buffer.from(text, "base64")`, and likewise `"base64url"`. -/
def bytesOfBase64 (text : List Char) : List UInt8 := bytesOfSextets (sextets text)

/-- The character of the URL-safe alphabet for a value below 64. -/
def base64urlChar (n : ℕ) : Char :=
  if n < 26 then Char.ofNat (65 + n)
  else if n < 52 then Char.ofNat (71 + n)
  else if n < 62 then Char.ofNat (n - 4)
  else if n = 62 then '-'
  else '_'

/-- `bytes.toString("base64url")`. -/
def base64urlOfBytes : List UInt8 → List Char
  | a :: b :: c :: rest =>
    base64urlChar (a.toNat / 4) :: base64urlChar (a.toNat % 4 * 16 + b.toNat / 16) ::
      base64urlChar (b.toNat % 16 * 4 + c.toNat / 64) :: base64urlChar (c.toNat % 64) ::
      base64urlOfBytes rest
  | [a, b] =>
    [base64urlChar (a.toNat / 4), base64urlChar (a.toNat % 4 * 16 + b.toNat / 16),
      base64urlChar (b.toNat % 16 * 4)]
  | [a] => [base64urlChar (a.toNat / 4), base64urlChar (a.toNat % 4 * 16)]
  | [] => []

def isBase64urlChar (c : Char) : Bool := c.isAlphanum || c == '-' || c == '_'

theorem sextet_base64urlChar {n : ℕ} (hn : n < 64) : sextet (base64urlChar n) = some n ∧ base64urlChar n ≠ '=' := by
  revert n
  decide

theorem sextets_base64urlChar {n : ℕ} (hn : n < 64) (rest : List Char) :
    sextets (base64urlChar n :: rest) = n :: sextets rest := by
  obtain ⟨hsextet, hpad⟩ := sextet_base64urlChar hn
  rw [sextets, if_neg hpad, hsextet]

theorem bytesOfBase64_base64urlOfBytes (bytes : List UInt8) : bytesOfBase64 (base64urlOfBytes bytes) = bytes := by
  unfold bytesOfBase64
  fun_induction base64urlOfBytes bytes with
  | case1 a b c rest ih =>
    have ha := a.toNat_lt
    have hb := b.toNat_lt
    have hc := c.toNat_lt
    rw [sextets_base64urlChar (by omega), sextets_base64urlChar (by omega), sextets_base64urlChar (by omega),
      sextets_base64urlChar (by omega), bytesOfSextets, ih]
    have h1 : 4 * (a.toNat / 4) + (a.toNat % 4 * 16 + b.toNat / 16) / 16 = a.toNat := by omega
    have h2 : 16 * (a.toNat % 4 * 16 + b.toNat / 16) + (b.toNat % 16 * 4 + c.toNat / 64) / 4 =
        256 * (a.toNat % 4) + b.toNat := by omega
    have h3 : 64 * (b.toNat % 16 * 4 + c.toNat / 64) + c.toNat % 64 = 256 * (b.toNat % 16) + c.toNat := by omega
    rw [h1, h2, h3]
    simp
  | case2 a b =>
    have ha := a.toNat_lt
    have hb := b.toNat_lt
    rw [sextets_base64urlChar (by omega), sextets_base64urlChar (by omega), sextets_base64urlChar (by omega)]
    show [UInt8.ofNat _, UInt8.ofNat _] = _
    have h1 : 4 * (a.toNat / 4) + (a.toNat % 4 * 16 + b.toNat / 16) / 16 = a.toNat := by omega
    have h2 : 16 * (a.toNat % 4 * 16 + b.toNat / 16) + b.toNat % 16 * 4 / 4 =
        256 * (a.toNat % 4) + b.toNat := by omega
    rw [h1, h2]
    simp
  | case3 a =>
    have ha := a.toNat_lt
    rw [sextets_base64urlChar (by omega), sextets_base64urlChar (by omega)]
    show [UInt8.ofNat _] = _
    have h1 : 4 * (a.toNat / 4) + a.toNat % 4 * 16 / 16 = a.toNat := by omega
    rw [h1]
    simp
  | case4 => rfl

theorem length_bytesOfSextets (l : List ℕ) : (bytesOfSextets l).length = 3 * l.length / 4 := by
  fun_induction bytesOfSextets l with
  | case1 a b c d rest ih =>
    simp only [List.length_cons, ih]
    omega
  | case2 a b c => simp
  | case3 a b => simp
  | case4 l h1 h2 h3 =>
    match l, h1, h2, h3 with
    | [], _, _, _ => simp
    | [_], _, _, _ => simp
    | [a, b], _, _, h3 => exact absurd rfl (h3 a b)
    | [a, b, c], _, h2, _ => exact absurd rfl (h2 a b c)
    | a :: b :: c :: d :: rest, h1, _, _ => exact absurd rfl (h1 a b c d rest)

theorem sextets_cons_of_hex {c : Char} {x : ℕ} (h : hexNibble c = some x) (rest : List Char) :
    ∃ y, sextets (c :: rest) = y :: sextets rest := by
  have hrange : c.toNat ≤ 102 ∧ 48 ≤ c.toNat ∧ c.toNat ≠ 61 ∧ (sextet c).isSome := by
    unfold hexNibble at h
    unfold sextet
    split_ifs at h with h1 h2 h3 <;> split_ifs <;> simp <;> omega
  obtain ⟨y, hy⟩ := Option.isSome_iff_exists.1 hrange.2.2.2
  have hpad : c ≠ '=' := fun heq => hrange.2.2.1 (by rw [heq]; rfl)
  exact ⟨y, by simp only [sextets, if_neg hpad, hy]⟩

theorem length_hex_le_sextets (text : List Char) : 2 * (bytesOfHex text).length ≤ (sextets text).length := by
  fun_induction bytesOfHex text with
  | case1 a b rest x y hy hx ih =>
    obtain ⟨x', ha⟩ := sextets_cons_of_hex hx (b :: rest)
    obtain ⟨y', hb⟩ := sextets_cons_of_hex hy rest
    rw [ha, hb]
    simp only [List.length_cons]
    omega
  | case2 | case3 => exact Nat.zero_le _

theorem hex_or_base64 {text : List Char} (hhex : (bytesOfHex text).length = 32)
    (hbase : (bytesOfBase64 text).length = 32) : False := by
  have hle := length_hex_le_sextets text
  rw [bytesOfBase64, length_bytesOfSextets] at hbase
  omega

end NpsSdk.Lib
