import Mathlib.Algebra.GroupWithZero.Nat
import Mathlib.Data.List.Sort

/-!
# Strings of the host language

The few string operations the modelled code uses, on character lists, so that the kernel evaluates
them.  Lengths count UTF-16 code units.
-/

namespace NpsSdk.Lib

/-- The characters `trim` removes. -/
def isJsSpace (c : Char) : Bool :=
  let n := c.toNat
  (9 ≤ n && n ≤ 13) || n == 0x20 || n == 0xa0 || n == 0x1680 || (0x2000 ≤ n && n ≤ 0x200a) ||
    n == 0x2028 || n == 0x2029 || n == 0x202f || n == 0x205f || n == 0x3000 || n == 0xfeff

/-- `s.trim().length === 0`. -/
def isBlank (s : String) : Bool := s.toList.all isJsSpace

/-- `s.length`, in UTF-16 code units. -/
def utf16Length (s : String) : ℕ := (s.toList.map fun c => if 0x10000 ≤ c.toNat then 2 else 1).sum

/-- The UTF-16 code units of `s`. -/
def utf16 (s : String) : List ℕ :=
  s.toList.flatMap fun c =>
    if c.toNat < 0x10000 then [c.toNat]
    else [0xd800 + (c.toNat - 0x10000) / 0x400, 0xdc00 + (c.toNat - 0x10000) % 0x400]

/-- The lexicographic order of code units. -/
def unitsLe : List ℕ → List ℕ → Bool
  | [], _ => true
  | _ :: _, [] => false
  | a :: as, b :: bs => decide (a < b) || (a == b && unitsLe as bs)

/-- `keys.sort()`. -/
def sortKeys (keys : List String) : List String :=
  keys.insertionSort fun a b => unitsLe (utf16 a) (utf16 b) = true

/-- `s.startsWith(p)`. -/
def startsWith (s p : String) : Bool := p.toList.isPrefixOf s.toList

/-- `s.trim()`. -/
def trim (s : String) : String :=
  String.ofList ((s.toList.dropWhile isJsSpace).reverse.dropWhile isJsSpace).reverse

/-- The pieces of a character list between the occurrences of `sep`. -/
def splitChars (sep : Char) : List Char → List (List Char)
  | [] => [[]]
  | c :: cs =>
    if c = sep then [] :: splitChars sep cs
    else match splitChars sep cs with
      | [] => [[c]]
      | p :: ps => (c :: p) :: ps

/-- `s.split(sep)`, for a one-character separator. -/
def split (s : String) (sep : Char) : List String := (splitChars sep s.toList).map String.ofList

/-- `parts.join(sep)`. -/
def join (sep : String) : List String → String
  | [] => ""
  | [p] => p
  | p :: q :: ps => p ++ sep ++ join sep (q :: ps)

/-- The number that decimal digits spell. -/
def digitsValue (digits : List Char) : ℕ := digits.foldl (fun n c => 10 * n + (c.toNat - '0'.toNat)) 0

/-- `parseInt(s, 10)`: the number at the beginning of the string, or `none` for `NaN`. -/
def parseInt (s : String) : Option ℤ :=
  let unsigned (cs : List Char) : Option ℕ :=
    match cs.takeWhile Char.isDigit with
    | [] => none
    | digits => some (digitsValue digits)
  match s.toList.dropWhile isJsSpace with
  | '-' :: cs => (unsigned cs).map fun n => -(n : ℤ)
  | '+' :: cs => (unsigned cs).map fun n => (n : ℤ)
  | cs => (unsigned cs).map fun n => (n : ℤ)

/-- A string option that is present and not empty, as a condition in the host language reads it. -/
def truthy : Option String → Option String
  | none => none
  | some s => if s = "" then none else some s

theorem eq_some_of_truthy {o : Option String} {s : String} (h : truthy o = some s) : o = some s := by
  cases o with
  | none => cases h
  | some t =>
    by_cases ht : t = ""
    · simp [truthy, ht] at h
    · simpa [truthy, ht] using h

theorem append_sep_cancel {α : Type} {sep : α} {a b x y : List α} (ha : sep ∉ a) (hb : sep ∉ b)
    (h : a ++ sep :: x = b ++ sep :: y) : a = b ∧ x = y := by
  induction a generalizing b with
  | nil =>
    cases b with
    | nil => exact ⟨rfl, List.tail_eq_of_cons_eq h⟩
    | cons c b => exact absurd (List.head_eq_of_cons_eq h ▸ List.mem_cons_self) hb
  | cons c a ih =>
    cases b with
    | nil => exact absurd (List.head_eq_of_cons_eq h ▸ List.mem_cons_self) ha
    | cons d b =>
      obtain ⟨hab, hxy⟩ := ih (fun hmem => ha (List.mem_cons_of_mem _ hmem))
        (fun hmem => hb (List.mem_cons_of_mem _ hmem)) (List.tail_eq_of_cons_eq h)
      exact ⟨by rw [hab, List.head_eq_of_cons_eq h], hxy⟩

theorem append_double_sep {α : Type} {sep : α} {a b x y : List α} (ha : a.getLast? ≠ some sep)
    (hb : b.getLast? ≠ some sep) : a ++ sep :: sep :: x = b ++ sep :: sep :: y ↔
      (a = b ∧ x = y) ∨ (∃ w, b = a ++ sep :: sep :: w ∧ x = w ++ sep :: sep :: y) ∨
        ∃ w, a = b ++ sep :: sep :: w ∧ y = w ++ sep :: sep :: x := by
  -- what one of the two starts with beyond the other is nothing, or a separator too many, or both separators
  have hlonger : ∀ {a b x y e : List α}, b.getLast? ≠ some sep → b = a ++ e →
      sep :: sep :: x = e ++ sep :: sep :: y →
        (a = b ∧ x = y) ∨ ∃ w, b = a ++ sep :: sep :: w ∧ x = w ++ sep :: sep :: y := by
    rintro a b x y e hb rfl heq
    match e, heq with
    | [], heq =>
      left
      simpa using heq
    | [c], heq =>
      simp only [List.cons_append, List.cons.injEq] at heq
      rw [← heq.1] at hb
      simp at hb
    | c :: d :: w, heq =>
      simp only [List.cons_append, List.cons.injEq] at heq
      obtain ⟨rfl, rfl, hx⟩ := heq
      exact .inr ⟨w, rfl, hx⟩
  constructor
  · intro h
    rcases List.append_eq_append_iff.1 h with ⟨e, hbe, hxe⟩ | ⟨e, hae, hye⟩
    · rcases hlonger hb hbe hxe with hsame | hmoved
      · exact .inl hsame
      · exact .inr (.inl hmoved)
    · rcases hlonger ha hae hye with ⟨hab, hxy⟩ | hmoved
      · exact .inl ⟨hab.symm, hxy.symm⟩
      · exact .inr (.inr hmoved)
  · rintro (⟨rfl, rfl⟩ | ⟨w, rfl, rfl⟩ | ⟨w, rfl, rfl⟩) <;> simp

theorem splitChars_of_not_mem {sep : Char} {cs : List Char} (h : sep ∉ cs) : splitChars sep cs = [cs] := by
  induction cs with
  | nil => rfl
  | cons c cs ih =>
    rw [List.mem_cons, not_or] at h
    rw [splitChars, if_neg (Ne.symm h.1), ih h.2]

theorem splitChars_append {sep : Char} {a b : List Char} (h : sep ∉ a) :
    splitChars sep (a ++ sep :: b) = a :: splitChars sep b := by
  induction a with
  | nil => rw [List.nil_append, splitChars, if_pos rfl]
  | cons c a ih =>
    rw [List.mem_cons, not_or] at h
    rw [List.cons_append, splitChars, if_neg (Ne.symm h.1), ih h.2]

theorem mem_splitChars {sep c : Char} {cs : List Char} (h : c ∈ cs) : c = sep ∨ ∃ p ∈ splitChars sep cs, c ∈ p := by
  induction cs with
  | nil => cases h
  | cons d cs ih =>
    rw [splitChars]
    rcases List.mem_cons.1 h with rfl | h
    · split
      · rename_i heq
        exact .inl heq
      · split
        · exact .inr ⟨_, List.mem_singleton_self _, List.mem_cons_self⟩
        · exact .inr ⟨_, List.mem_cons_self, List.mem_cons_self⟩
    · rcases ih h with rfl | ⟨p, hp, hc⟩
      · exact .inl rfl
      · right
        split
        · exact ⟨p, List.mem_cons_of_mem _ hp, hc⟩
        · split
          · rename_i heq
            rw [heq] at hp
            cases hp
          · rename_i heq
            rw [heq] at hp
            rcases List.mem_cons.1 hp with rfl | hp
            · exact ⟨_, List.mem_cons_self, List.mem_cons_of_mem _ hc⟩
            · exact ⟨p, List.mem_cons_of_mem _ hp, hc⟩

/-- The members every plain object inherits, besides `__proto__`. -/
def inheritedNames : List String :=
  ["constructor", "__defineGetter__", "__defineSetter__", "hasOwnProperty", "__lookupGetter__",
    "__lookupSetter__", "isPrototypeOf", "propertyIsEnumerable", "toString", "valueOf",
    "toLocaleString"]

theorem mem_sortKeys {keys : List String} {k : String} : k ∈ sortKeys keys ↔ k ∈ keys :=
  (List.perm_insertionSort _ keys).mem_iff

end NpsSdk.Lib
