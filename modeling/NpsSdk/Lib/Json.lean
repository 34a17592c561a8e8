import Mathlib.Tactic.IntervalCases
import NpsSdk.Lib.JsMap

/-!
# JSON values and their text

The values a JSON text denotes, and the text `JSON.stringify` writes for them.

A finite number is represented by the text the host prints for it, which determines it; the text
is a non-empty run of the characters `0-9 + - . e`.  An object is the list of its members in
insertion order, read by `JsMap.find`.

What a text is read as is in `JsonReader`, and with it that two values do not share a text.
-/

namespace NpsSdk.Lib

def isNumberChar (c : Char) : Bool := c.isDigit || c == '+' || c == '-' || c == '.' || c == 'e'

/-- A finite number, as the text that is printed for it. -/
structure JsNumber where
  text : List Char
  chars : text.all isNumberChar = true
  nonempty : text ≠ []

theorem JsNumber.ext_text {a b : JsNumber} (h : a.text = b.text) : a = b := by
  cases a; cases b; cases h; rfl

/-- A natural number as it is printed. -/
def JsNumber.ofNat (n : ℕ) : JsNumber where
  text := Nat.toDigits 10 n
  chars := by
    rw [List.all_eq_true]
    intro c hc
    have hdigit := Nat.isDigit_of_mem_toDigits (by decide) (by decide) hc
    simp only [isNumberChar, hdigit, Bool.true_or]
  nonempty := Nat.toDigits_ne_nil

/-- A JSON value. -/
inductive Json where
  | null
  | bool (b : Bool)
  | num (n : JsNumber)
  | str (s : String)
  | arr (items : List Json)
  | obj (members : List (String × Json))

namespace Json

theorem ind {motive : Json → Prop} (null : motive .null) (bool : ∀ b, motive (.bool b))
    (num : ∀ n, motive (.num n)) (str : ∀ s, motive (.str s))
    (arr : ∀ items, (∀ v ∈ items, motive v) → motive (.arr items))
    (obj : ∀ members, (∀ m ∈ members, motive m.2) → motive (.obj members)) : ∀ v, motive v
  | .null => null
  | .bool b => bool b
  | .num n => num n
  | .str s => str s
  | .arr items => arr items fun v hv => by
      have := List.sizeOf_lt_of_mem hv
      exact ind null bool num str arr obj v
  | .obj members => obj members fun m hm => by
      have h1 := List.sizeOf_lt_of_mem hm
      have h2 : sizeOf m.2 < sizeOf m := by cases m; simp
      exact ind null bool num str arr obj m.2
termination_by v => sizeOf v

/-! ### Writing -/

/-- The lower-case hexadecimal digit of `n < 16`. -/
def hexDigit (n : ℕ) : Char := if n < 10 then Char.ofNat (48 + n) else Char.ofNat (87 + n)

/-- The text of one character inside a string literal. -/
def escape (c : Char) : List Char :=
  if c = '"' then ['\\', '"']
  else if c = '\\' then ['\\', '\\']
  else if c = '\x08' then ['\\', 'b']
  else if c = '\x0c' then ['\\', 'f']
  else if c = '\n' then ['\\', 'n']
  else if c = '\r' then ['\\', 'r']
  else if c = '\t' then ['\\', 't']
  else if c.toNat < 32 then ['\\', 'u', '0', '0', hexDigit (c.toNat / 16), hexDigit (c.toNat % 16)]
  else [c]

/-- The text of a string literal, without the opening quotation mark. -/
def quoteTail : List Char → List Char
  | [] => ['"']
  | c :: cs => escape c ++ quoteTail cs

/-- The text of a string. -/
def quote (s : String) : List Char := '"' :: quoteTail s.toList

/-- The texts of a sequence, separated by commas. -/
def commaSep : List (List Char) → List Char
  | [] => []
  | [t] => t
  | t :: t' :: ts => t ++ ',' :: commaSep (t' :: ts)

mutual
/-- The text `JSON.stringify` writes for a value. -/
def text : Json → List Char
  | .null => "null".toList
  | .bool true => "true".toList
  | .bool false => "false".toList
  | .num n => n.text
  | .str s => quote s
  | .arr items => '[' :: (commaSep (textItems items) ++ [']'])
  | .obj members => '{' :: (commaSep (textMembers members) ++ ['}'])
def textItems : List Json → List (List Char)
  | [] => []
  | v :: vs => text v :: textItems vs
def textMembers : List (String × Json) → List (List Char)
  | [] => []
  | (k, v) :: ms => (quote k ++ ':' :: text v) :: textMembers ms
end

theorem textItems_eq (items : List Json) : textItems items = items.map text := by
  induction items with
  | nil => rfl
  | cons v vs ih => simp [textItems, ih]

theorem textMembers_eq (members : List (String × Json)) :
    textMembers members = members.map fun m => quote m.1 ++ ':' :: text m.2 := by
  induction members with
  | nil => rfl
  | cons m ms ih => obtain ⟨k, v⟩ := m; simp [textMembers, ih]

/-! ### The first character of a text -/

/-- What may follow a value: the end of the text, or a character no number is printed with. -/
def Delimited : List Char → Prop
  | [] => True
  | c :: _ => isNumberChar c = false

/-- The class of a value's text, told by its first character. -/
inductive Kind | null | true | false | num | str | arr | obj
  deriving DecidableEq

/-- The class of the text that starts with `c`. -/
def kindOf (c : Char) : Kind :=
  if c = 'n' then .null else if c = 't' then .true else if c = 'f' then .false
  else if c = '"' then .str else if c = '[' then .arr else if c = '{' then .obj else .num

/-- The class of a value. -/
def kind : Json → Kind
  | .null => .null
  | .bool true => .true
  | .bool false => .false
  | .num _ => .num
  | .str _ => .str
  | .arr _ => .arr
  | .obj _ => .obj

theorem kindOf_numberChar {c : Char} (h : isNumberChar c = true) : kindOf c = .num := by
  unfold kindOf
  split_ifs with h1 h2 h3 h4 h5 h6
  all_goals first
    | rfl
    | (subst_vars; revert h; decide)

theorem text_head (v : Json) : ∃ c r, text v = c :: r ∧ kindOf c = kind v := by
  cases v with
  | null => exact ⟨_, _, rfl, rfl⟩
  | bool b => cases b <;> exact ⟨_, _, rfl, rfl⟩
  | num n =>
    obtain ⟨t, hc, hn⟩ := n
    cases t with
    | nil => exact absurd rfl hn
    | cons c r =>
      simp only [List.all_cons, Bool.and_eq_true] at hc
      exact ⟨c, r, by simp [text], kindOf_numberChar hc.1⟩
  | str s => exact ⟨'"', _, by rw [text, quote], rfl⟩
  | arr items => exact ⟨'[', _, by rw [text], rfl⟩
  | obj members => exact ⟨'{', _, by rw [text], rfl⟩

theorem item_head (v : Json) : ∃ c t, text v = c :: t ∧ c ≠ ']' := by
  obtain ⟨c, r, hv, hc⟩ := text_head v
  refine ⟨c, r, hv, ?_⟩
  rintro rfl
  cases v <;> simp [kindOf, kind] at hc
  · rename_i b; cases b <;> simp at hc
  · rename_i n
    obtain ⟨t, hcs, hn⟩ := n
    simp only [text] at hv
    subst hv
    simp [isNumberChar] at hcs

end Json

end NpsSdk.Lib
