import Mathlib.Tactic.IntervalCases
import NpsSdk.Lib.Bytes

/-!
# Decoding UTF-8 as it comes in

`TextDecoder`: bytes are decoded one by one, and what is not UTF-8 is replaced.  Characters that were
encoded are decoded however their bytes are split.
-/

namespace NpsSdk.Lib

def encodeText (text : List Char) : Bytes := text.flatMap String.utf8EncodeChar

/-- Where the decoder stands within a character: the bits so far, how many bytes are still needed, and the
bounds of the next one. -/
structure Utf8State where
  codePoint : ℕ := 0
  needed : ℕ := 0
  lower : ℕ := 0x80
  upper : ℕ := 0xbf

namespace Utf8State

def first (byte : ℕ) : Utf8State × List Char :=
  if byte ≤ 0x7f then ({}, [Char.ofNat byte])
  else if 0xc2 ≤ byte ∧ byte ≤ 0xdf then ({ codePoint := byte - 0xc0, needed := 1 }, [])
  else if 0xe0 ≤ byte ∧ byte ≤ 0xef then
    ({ codePoint := byte - 0xe0, needed := 2, lower := if byte = 0xe0 then 0xa0 else 0x80
       upper := if byte = 0xed then 0x9f else 0xbf }, [])
  else if 0xf0 ≤ byte ∧ byte ≤ 0xf4 then
    ({ codePoint := byte - 0xf0, needed := 3, lower := if byte = 0xf0 then 0x90 else 0x80
       upper := if byte = 0xf4 then 0x8f else 0xbf }, [])
  else ({}, ['\ufffd'])

/-- A byte that does not continue a character starts the next one. -/
def step (state : Utf8State) (byte : ℕ) : Utf8State × List Char :=
  if state.needed = 0 then first byte
  else if state.lower ≤ byte ∧ byte ≤ state.upper then
    if state.needed = 1 then ({}, [Char.ofNat (64 * state.codePoint + (byte - 0x80))])
    else ({ codePoint := 64 * state.codePoint + (byte - 0x80), needed := state.needed - 1 }, [])
  else ((first byte).1, '\ufffd' :: (first byte).2)

end Utf8State

/-- A decoder drops a byte order mark that comes first. -/
structure TextDecoder where
  utf8 : Utf8State := {}
  bomSeen : Bool := false

namespace TextDecoder

/-- The characters that are let through. -/
def withoutMark (bomSeen : Bool) : List Char → List Char
  | [] => []
  | c :: cs => if bomSeen = false ∧ c = '\ufeff' then cs else c :: cs

def decodeByte (decoder : TextDecoder) (byte : UInt8) : TextDecoder × List Char :=
  let (utf8, out) := decoder.utf8.step byte.toNat
  ({ utf8, bomSeen := decoder.bomSeen || !out.isEmpty }, withoutMark decoder.bomSeen out)

/-- `decoder.decode(chunk, { stream: true })`. -/
def decode : TextDecoder → Bytes → TextDecoder × List Char
  | decoder, [] => (decoder, [])
  | decoder, byte :: chunk =>
    let (decoder, out) := decoder.decodeByte byte
    let (decoder, more) := decode decoder chunk
    (decoder, out ++ more)

/-- `decoder.decode()`, at the end. -/
def flush (decoder : TextDecoder) : List Char := if decoder.utf8.needed = 0 then [] else ['\ufffd']

/-! ### Splitting -/

theorem decode_append (decoder : TextDecoder) (a b : Bytes) : decoder.decode (a ++ b) =
    (((decoder.decode a).1.decode b).1, (decoder.decode a).2 ++ ((decoder.decode a).1.decode b).2) := by
  induction a generalizing decoder with
  | nil => rfl
  | cons byte a ih =>
    simp only [List.cons_append, decode, ih, List.append_assoc]

/-! ### Encoded text -/

theorem decodeByte_of_silent {utf8 utf8' : Utf8State} {n : ℕ} (bomSeen : Bool) (hn : n < 256)
    (h : utf8.step n = (utf8', [])) :
    decodeByte { utf8, bomSeen } (UInt8.ofNat n) = ({ utf8 := utf8', bomSeen }, []) := by
  simp only [decodeByte, UInt8.toNat_ofNat_of_lt' hn, h, List.isEmpty_nil, Bool.not_true, Bool.or_false, withoutMark]

theorem decodeByte_of_char {utf8 : Utf8State} {n : ℕ} {c : Char} {bomSeen : Bool} (hn : n < 256)
    (h : utf8.step n = ({}, [c])) (hmark : bomSeen = true ∨ c ≠ '﻿') :
    decodeByte { utf8, bomSeen } (UInt8.ofNat n) = ({ bomSeen := true }, [c]) := by
  have hkeep : ¬ (bomSeen = false ∧ c = '﻿') := by
    rintro ⟨hfalse, hc⟩
    rcases hmark with htrue | hne
    · rw [hfalse] at htrue
      cases htrue
    · exact hne hc
  simp only [decodeByte, UInt8.toNat_ofNat_of_lt' hn, h, List.isEmpty_cons, Bool.not_false, Bool.or_true,
    withoutMark, hkeep, if_false]

theorem step_continue {p needed l u x : ℕ} (hneeded : 2 ≤ needed) (hlower : l ≤ x + 0x80)
    (hupper : x + 0x80 ≤ u) : Utf8State.step ⟨p, needed, l, u⟩ (x + 0x80) =
      ({ codePoint := 64 * p + x, needed := needed - 1 }, []) := by
  have hne : needed ≠ 0 := by omega
  have hne' : needed ≠ 1 := by omega
  simp only [Utf8State.step, hne, hne', hlower, hupper, and_self, if_true, if_false, Nat.add_sub_cancel]

theorem step_last {p x : ℕ} (hx : x < 64) :
    Utf8State.step { codePoint := p, needed := 1 } (x + 0x80) = ({}, [Char.ofNat (64 * p + x)]) := by
  have hlower : 0x80 ≤ x + 0x80 := by omega
  have hupper : x + 0x80 ≤ 0xbf := by omega
  simp only [Utf8State.step, hlower, hupper, and_self, if_true, Nat.add_sub_cancel, Nat.one_ne_zero, if_false]

theorem step_first_two {x : ℕ} (h : 2 ≤ x) (h' : x < 32) :
    Utf8State.step {} (x + 0xc0) = ({ codePoint := x, needed := 1 }, []) := by
  have hone : ¬ x + 0xc0 ≤ 0x7f := by omega
  have htwo : 0xc2 ≤ x + 0xc0 ∧ x + 0xc0 ≤ 0xdf := by omega
  simp only [Utf8State.step, Utf8State.first, hone, htwo, if_true, if_false, and_self, Nat.add_sub_cancel]

theorem step_first_three {x : ℕ} (h : x < 16) : Utf8State.step {} (x + 0xe0) =
    ({ codePoint := x, needed := 2, lower := if x = 0 then 0xa0 else 0x80
       upper := if x = 13 then 0x9f else 0xbf }, []) := by
  interval_cases x <;> rfl

theorem step_first_four {x : ℕ} (h : x < 5) : Utf8State.step {} (x + 0xf0) =
    ({ codePoint := x, needed := 3, lower := if x = 0 then 0x90 else 0x80
       upper := if x = 4 then 0x8f else 0xbf }, []) := by
  interval_cases x <;> rfl

/-- The bytes of a character are decoded as the character. -/
theorem decode_utf8EncodeChar (c : Char) {bomSeen : Bool} (hmark : bomSeen = true ∨ c ≠ '﻿') :
    decode { bomSeen } (String.utf8EncodeChar c) = ({ bomSeen := true }, [c]) := by
  have hvalid : c.val.toNat.isValidChar := c.valid
  have hc : Char.ofNat c.val.toNat = c := Char.ofNat_toNat c
  unfold String.utf8EncodeChar
  generalize c.val.toNat = v at hvalid hc
  have hrange : v < 0xd800 ∨ 0xdfff < v ∧ v < 0x110000 := hvalid
  -- the last byte is the same in all cases but the first
  have hlast : ∀ bits, 64 * bits + v % 64 = v →
      decodeByte { utf8 := { codePoint := bits, needed := 1 }, bomSeen } (UInt8.ofNat (v % 64 + 0x80)) =
        ({ bomSeen := true }, [c]) := by
    intro bits hbits
    have hstep := step_last (p := bits) (x := v % 64) (by omega)
    rw [hbits, hc] at hstep
    exact decodeByte_of_char (by omega) hstep hmark
  simp only
  split
  · next h1 =>
    have hstep : Utf8State.step {} v = ({}, [c]) := by
      simp only [Utf8State.step, if_true, Utf8State.first, h1, hc]
    have hbyte := decodeByte_of_char (by omega) hstep hmark
    simp only [decode, hbyte, List.append_nil]
  · next h1 =>
    split
    · next h2 =>
      have hx : v / 64 % 32 = v / 64 := by omega
      have hfirst := decodeByte_of_silent bomSeen (by omega)
        (step_first_two (x := v / 64) (by omega) (by omega))
      rw [hx]
      simp only [decode, hfirst, hlast _ (show 64 * (v / 64) + v % 64 = v by omega), List.append_nil, List.nil_append]
    · next h2 =>
      split
      · next h3 =>
        have hx : v / 4096 % 16 = v / 4096 := by omega
        have hfirst := decodeByte_of_silent bomSeen (by omega) (step_first_three (x := v / 4096) (by omega))
        have hlower : (if v / 4096 = 0 then 0xa0 else 0x80) ≤ v / 64 % 64 + 0x80 := by split <;> omega
        have hupper : v / 64 % 64 + 0x80 ≤ (if v / 4096 = 13 then 0x9f else 0xbf) := by split <;> omega
        have hsecond := decodeByte_of_silent bomSeen (by omega)
          (step_continue (p := v / 4096) (le_refl 2) hlower hupper)
        rw [hx]
        simp only [decode, hfirst, hsecond, Nat.reduceSub,
          hlast _ (show 64 * (64 * (v / 4096) + v / 64 % 64) + v % 64 = v by omega), List.append_nil,
          List.nil_append]
      · next h3 =>
        have hx : v / 262144 % 8 = v / 262144 := by omega
        have hfirst := decodeByte_of_silent bomSeen (by omega) (step_first_four (x := v / 262144) (by omega))
        have hlower : (if v / 262144 = 0 then 0x90 else 0x80) ≤ v / 4096 % 64 + 0x80 := by split <;> omega
        have hupper : v / 4096 % 64 + 0x80 ≤ (if v / 262144 = 4 then 0x8f else 0xbf) := by split <;> omega
        have hsecond := decodeByte_of_silent bomSeen (by omega)
          (step_continue (p := v / 262144) (show 2 ≤ 3 by omega) hlower hupper)
        have hthird := decodeByte_of_silent bomSeen (by omega)
          (step_continue (p := 64 * (v / 262144) + v / 4096 % 64) (l := 0x80) (u := 0xbf)
            (x := v / 64 % 64) (le_refl 2) (by omega) (by omega))
        rw [hx]
        simp only [decode, hfirst, hsecond, hthird, Nat.reduceSub,
          hlast _ (show 64 * (64 * (64 * (v / 262144) + v / 4096 % 64) + v / 64 % 64) + v % 64 = v by omega),
          List.append_nil, List.nil_append]

/-- **Encoded text is decoded**, if it does not start with a byte order mark. -/
theorem decode_encodeText (text : List Char) {bomSeen : Bool}
    (hmark : bomSeen = true ∨ text.head? ≠ some '﻿') (hne : text ≠ []) :
    decode { bomSeen } (encodeText text) = ({ bomSeen := true }, text) := by
  induction text generalizing bomSeen with
  | nil => exact absurd rfl hne
  | cons c text ih =>
    have hc : bomSeen = true ∨ c ≠ '﻿' := hmark.imp_right fun h hc => h (by rw [hc]; rfl)
    rw [encodeText, List.flatMap_cons, decode_append, decode_utf8EncodeChar c hc]
    cases text with
    | nil => rfl
    | cons d text =>
      have hrest := @ih true (.inl rfl) (List.cons_ne_nil _ _)
      rw [encodeText] at hrest
      rw [hrest]
      rfl

end TextDecoder

end NpsSdk.Lib
