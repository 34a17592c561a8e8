import NpsSdk.Lib.JsValue

/-!
# Reading JSON texts

`JSON.parse`.  What `text` writes is read back, whatever follows it.  A numeral is kept as it is
written, which is the text the host prints where the host has written it; a surrogate that stands alone is
no character.
-/

namespace NpsSdk.Lib

namespace Json

/-! ### String literals -/

/-- The number of a hexadecimal digit, in either case. -/
def readHexDigit (c : Char) : Option ℕ :=
  if '0' ≤ c ∧ c ≤ '9' then some (c.toNat - 48)
  else if 'a' ≤ c ∧ c ≤ 'f' then some (c.toNat - 87)
  else if 'A' ≤ c ∧ c ≤ 'F' then some (c.toNat - 55)
  else none

/-- The code unit of four hexadecimal digits. -/
def hexUnit (a b c d : Char) : Option ℕ := do
  return 4096 * (← readHexDigit a) + 256 * (← readHexDigit b) + 16 * (← readHexDigit c) +
    (← readHexDigit d)

/-- The character after `\u` and its digits; a high surrogate wants a low one. -/
def readUnit (unit : ℕ) (r : List Char) : Option (Char × List Char) :=
  if 0xd800 ≤ unit ∧ unit < 0xdc00 then
    match r with
    | '\\' :: 'u' :: a :: b :: c :: d :: r =>
      match hexUnit a b c d with
      | some low =>
        if 0xdc00 ≤ low ∧ low < 0xe000 then
          some (Char.ofNat (0x10000 + 0x400 * (unit - 0xd800) + (low - 0xdc00)), r)
        else none
      | none => none
    | _ => none
  else if 0xdc00 ≤ unit ∧ unit < 0xe000 then none
  else some (Char.ofNat unit, r)

/-- Reads a character of a string literal. -/
def readChar : List Char → Option (Char × List Char)
  | '\\' :: 'u' :: a :: b :: c :: d :: r =>
    match hexUnit a b c d with
    | some unit => readUnit unit r
    | none => none
  | '\\' :: 'b' :: r => some ('\x08', r)
  | '\\' :: 'f' :: r => some ('\x0c', r)
  | '\\' :: 'n' :: r => some ('\n', r)
  | '\\' :: 'r' :: r => some ('\r', r)
  | '\\' :: 't' :: r => some ('\t', r)
  | '\\' :: '"' :: r => some ('"', r)
  | '\\' :: '\\' :: r => some ('\\', r)
  | '\\' :: '/' :: r => some ('/', r)
  | c :: r => if c = '\\' ∨ c = '"' ∨ c.toNat < 32 then none else some (c, r)
  | [] => none

/-- Reads the rest of a string literal, after its opening quotation mark. -/
def readQuoted : ℕ → List Char → Option (List Char × List Char)
  | _, '"' :: r => some ([], r)
  | 0, _ => none
  | fuel + 1, cs =>
    match readChar cs with
    | none => none
    | some (c, r) => (readQuoted fuel r).map fun p => (c :: p.1, p.2)

/-! ### Values -/

def isJsonSpace (c : Char) : Bool := c == ' ' || c == '\t' || c == '\n' || c == '\r'

def skipSpace (cs : List Char) : List Char := cs.dropWhile isJsonSpace

/-- Reads a numeral. -/
def readNumber (cs : List Char) : Option (Json × List Char) :=
  if h : cs.takeWhile isNumberChar ≠ [] then
    some (.num ⟨cs.takeWhile isNumberChar, List.all_takeWhile, h⟩, cs.dropWhile isNumberChar)
  else none

mutual
/-- Reads a value; the fuel bounds the depth and the number of steps. -/
def readValue : ℕ → List Char → Option (Json × List Char)
  | 0, _ => none
  | fuel + 1, cs =>
    match skipSpace cs with
    | 'n' :: 'u' :: 'l' :: 'l' :: r => some (.null, r)
    | 't' :: 'r' :: 'u' :: 'e' :: r => some (.bool true, r)
    | 'f' :: 'a' :: 'l' :: 's' :: 'e' :: r => some (.bool false, r)
    | '"' :: r => (readQuoted r.length r).map fun p => (.str (String.ofList p.1), p.2)
    | '[' :: r =>
      match skipSpace r with
      | ']' :: r => some (.arr [], r)
      | r => (readItems fuel r).map fun p => (.arr p.1, p.2)
    | '{' :: r =>
      match skipSpace r with
      | '}' :: r => some (.obj [], r)
      | r => (readMembers fuel r).map fun p => (.obj p.1, p.2)
    | r => readNumber r
def readItems : ℕ → List Char → Option (List Json × List Char)
  | 0, _ => none
  | fuel + 1, cs =>
    match readValue fuel cs with
    | none => none
    | some (v, r) =>
      match skipSpace r with
      | ']' :: r => some ([v], r)
      | ',' :: r => (readItems fuel r).map fun p => (v :: p.1, p.2)
      | _ => none
/-- Reads the members of an object, and its closing bracket. -/
def readMembers : ℕ → List Char → Option (List (String × Json) × List Char)
  | 0, _ => none
  | fuel + 1, cs =>
    match skipSpace cs with
    | '"' :: r =>
      match readQuoted r.length r with
      | none => none
      | some (k, r) =>
        match skipSpace r with
        | ':' :: r =>
          match readValue fuel r with
          | none => none
          | some (v, r) =>
            match skipSpace r with
            | '}' :: r => some ([(String.ofList k, v)], r)
            | ',' :: r => (readMembers fuel r).map fun p => ((String.ofList k, v) :: p.1, p.2)
            | _ => none
        | _ => none
    | _ => none
end

/-! ### Objects -/

/-- The members of an object that is built of members one after the other: the last one of a name, in the
place of the first, and array indices before all other names. -/
def ownMembers {α : Type} (members : List (String × α)) : List (String × α) :=
  fromEntries (JsMap.ofList members).entries

mutual
/-- The value that is built out of what a text says. -/
def built : Json → Json
  | .null => .null
  | .bool b => .bool b
  | .num n => .num n
  | .str s => .str s
  | .arr items => .arr (builtItems items)
  | .obj members => .obj (ownMembers (builtMembers members))
def builtItems : List Json → List Json
  | [] => []
  | v :: vs => built v :: builtItems vs
def builtMembers : List (String × Json) → List (String × Json)
  | [] => []
  | (k, v) :: ms => (k, built v) :: builtMembers ms
end

/-- `JSON.parse(text)`, unless it throws. -/
def parse (cs : List Char) : Option Json :=
  match readValue (2 * cs.length + 1) cs with
  | none => none
  | some (v, r) => if skipSpace r = [] then some (built v) else none

/-! ### What is written is read back -/

variable {r : List Char}

theorem readChar_control (n : ℕ) (hn : n < 32) (r : List Char) :
    readChar (['\\', 'u', '0', '0', hexDigit (n / 16), hexDigit (n % 16)] ++ r) = some (Char.ofNat n, r) := by
  interval_cases n <;> rfl

theorem readChar_escape (c : Char) (r : List Char) : readChar (escape c ++ r) = some (c, r) := by
  unfold escape
  split_ifs with h1 h2 h3 h4 h5 h6 h7 h8
  · subst h1; rfl
  · subst h2; rfl
  · subst h3; rfl
  · subst h4; rfl
  · subst h5; rfl
  · subst h6; rfl
  · subst h7; rfl
  · rw [readChar_control _ h8, Char.ofNat_toNat]
  · have hplain : ¬ (c = '\\' ∨ c = '"' ∨ c.toNat < 32) := by simp [h1, h2, h8]
    simp only [List.cons_append, List.nil_append]
    unfold readChar
    split <;> simp_all

theorem escape_head (c : Char) : ∃ d t, escape c = d :: t ∧ d ≠ '"' := by
  unfold escape
  split_ifs with h1
  all_goals first
    | exact ⟨_, _, rfl, by decide⟩
    | exact ⟨_, _, rfl, h1⟩

theorem readQuoted_quoteTail (s : List Char) (fuel : ℕ) (h : s.length ≤ fuel) (r : List Char) :
    readQuoted fuel (quoteTail s ++ r) = some (s, r) := by
  induction s generalizing fuel with
  | nil => cases fuel <;> rfl
  | cons c s ih =>
    obtain ⟨fuel, rfl⟩ := Nat.exists_eq_succ_of_ne_zero (show fuel ≠ 0 by simp at h; omega)
    obtain ⟨d, t, hd, hne⟩ := escape_head c
    have hread := readChar_escape c (quoteTail s ++ r)
    rw [quoteTail, List.append_assoc]
    rw [hd, List.cons_append] at hread ⊢
    rw [readQuoted, hread]
    · simp only [ih fuel (by simpa using h), Option.map_some]
    · intro r' heq
      exact hne (List.cons.inj heq).1

theorem length_quoteTail (s : List Char) : s.length < (quoteTail s).length := by
  induction s with
  | nil => exact Nat.one_pos
  | cons c s ih =>
    obtain ⟨d, t, hd, -⟩ := escape_head c
    simp only [quoteTail, hd, List.length_append, List.length_cons]
    omega

theorem readQuoted_quote (s : String) (r : List Char) :
    readQuoted (quoteTail s.toList ++ r).length (quoteTail s.toList ++ r) = some (s.toList, r) := by
  have hlen := length_quoteTail s.toList
  apply readQuoted_quoteTail
  rw [List.length_append]
  omega

theorem skipSpace_cons {c : Char} (h : isJsonSpace c = false) (cs : List Char) :
    skipSpace (c :: cs) = c :: cs := by simp [skipSpace, h]

theorem not_space_of_numberChar {c : Char} (h : isNumberChar c = true) : isJsonSpace c = false := by
  cases hspace : isJsonSpace c with
  | false => rfl
  | true =>
    simp only [isJsonSpace, Bool.or_eq_true, beq_iff_eq] at hspace
    rcases hspace with ((rfl | rfl) | rfl) | rfl <;> revert h <;> decide

theorem skipSpace_text (v : Json) (r : List Char) : skipSpace (text v ++ r) = text v ++ r := by
  cases v with
  | null => rfl
  | bool b => cases b <;> rfl
  | num n =>
    obtain ⟨t, hc, hn⟩ := n
    cases t with
    | nil => exact absurd rfl hn
    | cons c t =>
      simp only [List.all_cons, Bool.and_eq_true] at hc
      exact skipSpace_cons (not_space_of_numberChar hc.1) _
  | str s => rw [text, quote]; rfl
  | arr items => rw [text]; rfl
  | obj members => rw [text]; rfl

theorem readNumber_text (n : JsNumber) (hr : Delimited r) : readNumber (n.text ++ r) = some (.num n, r) := by
  have hall : ∀ c ∈ n.text, isNumberChar c = true := List.all_eq_true.1 n.chars
  have htake : r.takeWhile isNumberChar = [] := by
    cases r with
    | nil => rfl
    | cons c r => exact List.takeWhile_cons_of_neg (by rw [show isNumberChar c = false from hr]; nofun)
  have hdrop : r.dropWhile isNumberChar = r := by
    cases r with
    | nil => rfl
    | cons c r => exact List.dropWhile_cons_of_neg (by rw [show isNumberChar c = false from hr]; nofun)
  have htext : (n.text ++ r).takeWhile isNumberChar = n.text := by
    rw [List.takeWhile_append_of_pos hall, htake, List.append_nil]
  have hrest : (n.text ++ r).dropWhile isNumberChar = r := by
    rw [List.dropWhile_append_of_pos hall, hdrop]
  have hne : (n.text ++ r).takeWhile isNumberChar ≠ [] := by
    rw [htext]
    exact n.nonempty
  rw [readNumber, dif_pos hne, hrest]
  congr 3
  exact JsNumber.ext_text htext

theorem readValue_num (n : JsNumber) (fuel : ℕ) (hr : Delimited r) :
    readValue (fuel + 1) (n.text ++ r) = some (.num n, r) := by
  have hread := readNumber_text n hr
  have hskip := skipSpace_text (.num n) r
  obtain ⟨c, t, hc, hkind⟩ := text_head (.num n)
  simp only [text] at hskip hc
  rw [readValue, hskip, ← hread, hc]
  simp only [List.cons_append]
  split
  all_goals first
    | rfl
    | (simp only [List.cons.injEq] at *; simp_all [kindOf, kind])

def Reads (v : Json) : Prop :=
  ∀ fuel r, 2 * (text v).length < fuel → Delimited r → readValue fuel (text v ++ r) = some (v, r)

theorem delimited_of {c : Char} (h : isNumberChar c = false) (r : List Char) : Delimited (c :: r) := h

theorem commaSep_cons {α : Type} (f : α → List Char) (a b : α) (as : List α) :
    commaSep ((a :: b :: as).map f) = f a ++ ',' :: commaSep ((b :: as).map f) := rfl

theorem readItems_text (v : Json) (vs : List Json) (hreads : ∀ w ∈ v :: vs, Reads w) (fuel : ℕ)
    (hfuel : 2 * (commaSep ((v :: vs).map text)).length + 1 < fuel) (r : List Char) :
    readItems fuel (commaSep ((v :: vs).map text) ++ ']' :: r) = some (v :: vs, r) := by
  induction vs generalizing v fuel with
  | nil =>
    obtain ⟨fuel, rfl⟩ := Nat.exists_eq_succ_of_ne_zero (show fuel ≠ 0 by omega)
    simp only [List.map_cons, List.map_nil, commaSep] at hfuel ⊢
    have hv := hreads v (by simp) fuel (']' :: r) (by omega) (delimited_of (by decide) _)
    rw [readItems, hv]
    rfl
  | cons w ws ih =>
    obtain ⟨fuel, rfl⟩ := Nat.exists_eq_succ_of_ne_zero (show fuel ≠ 0 by omega)
    rw [commaSep_cons, List.length_append, List.length_cons] at hfuel
    rw [commaSep_cons, List.append_assoc, List.cons_append]
    have hv := hreads v (by simp) fuel (',' :: (commaSep ((w :: ws).map text) ++ ']' :: r)) (by omega)
      (delimited_of (by decide) _)
    have hrest := ih w (fun u hu => hreads u (List.mem_cons_of_mem _ hu)) fuel (by omega)
    rw [readItems, hv]
    simp only [skipSpace_cons (show isJsonSpace ',' = false by decide), hrest, Option.map_some]

def memberText (m : String × Json) : List Char := quote m.1 ++ ':' :: text m.2

theorem readMembers_text (m : String × Json) (ms : List (String × Json)) (hreads : ∀ n ∈ m :: ms, Reads n.2) (fuel : ℕ)
    (hfuel : 2 * (commaSep ((m :: ms).map memberText)).length + 1 < fuel) (r : List Char) :
    readMembers fuel (commaSep ((m :: ms).map memberText) ++ '}' :: r) = some (m :: ms, r) := by
  have hlength : ∀ n, (memberText n).length = (quote n.1).length + ((text n.2).length + 1) := fun n => by
    rw [memberText, List.length_append, List.length_cons]
  induction ms generalizing m fuel with
  | nil =>
    obtain ⟨fuel, rfl⟩ := Nat.exists_eq_succ_of_ne_zero (show fuel ≠ 0 by omega)
    simp only [List.map_cons, List.map_nil, commaSep, hlength] at hfuel
    have hv := hreads m (by simp) fuel ('}' :: r) (by omega) (delimited_of (by decide) _)
    have hkey := readQuoted_quote m.1 (':' :: (text m.2 ++ '}' :: r))
    simp only [List.map_cons, List.map_nil, commaSep, memberText, quote, List.cons_append, List.append_assoc]
    rw [readMembers, skipSpace_cons (by decide)]
    simp only [hkey, skipSpace_cons (show isJsonSpace ':' = false by decide), hv,
      skipSpace_cons (show isJsonSpace '}' = false by decide), String.ofList_toList]
  | cons n ns ih =>
    obtain ⟨fuel, rfl⟩ := Nat.exists_eq_succ_of_ne_zero (show fuel ≠ 0 by omega)
    rw [commaSep_cons, List.length_append, List.length_cons, hlength] at hfuel
    rw [commaSep_cons, List.append_assoc, List.cons_append]
    have hrest := ih n (fun u hu => hreads u (List.mem_cons_of_mem _ hu)) fuel (by omega)
    -- what follows the member
    generalize commaSep ((n :: ns).map memberText) ++ '}' :: r = more at hrest ⊢
    have hv := hreads m (by simp) fuel (',' :: more) (by omega) (delimited_of (by decide) _)
    have hkey := readQuoted_quote m.1 (':' :: (text m.2 ++ ',' :: more))
    simp only [memberText, quote, List.cons_append, List.append_assoc]
    rw [readMembers, skipSpace_cons (by decide)]
    simp only [hkey, skipSpace_cons (show isJsonSpace ':' = false by decide), hv,
      skipSpace_cons (show isJsonSpace ',' = false by decide), hrest, Option.map_some, String.ofList_toList]

theorem commaSep_head {α : Type} (f : α → List Char) (a : α) (as : List α) :
    ∃ t, commaSep ((a :: as).map f) = f a ++ t := by
  cases as with
  | nil => exact ⟨[], (List.append_nil _).symm⟩
  | cons b as => exact ⟨_, commaSep_cons f a b as⟩

/-- **Every text is read back.** -/
theorem reads (v : Json) : Reads v := by
  induction v using ind with
  | null =>
    intro fuel r hfuel _
    obtain ⟨fuel, rfl⟩ := Nat.exists_eq_succ_of_ne_zero (show fuel ≠ 0 by omega)
    rfl
  | bool b =>
    intro fuel r hfuel _
    obtain ⟨fuel, rfl⟩ := Nat.exists_eq_succ_of_ne_zero (show fuel ≠ 0 by omega)
    cases b <;> rfl
  | num n =>
    intro fuel r hfuel hr
    obtain ⟨fuel, rfl⟩ := Nat.exists_eq_succ_of_ne_zero (show fuel ≠ 0 by omega)
    rw [text]
    exact readValue_num n fuel hr
  | str s =>
    intro fuel r hfuel _
    obtain ⟨fuel, rfl⟩ := Nat.exists_eq_succ_of_ne_zero (show fuel ≠ 0 by omega)
    have hquoted := readQuoted_quote s r
    rw [text, quote, List.cons_append, readValue, skipSpace_cons (by decide)]
    simp only [hquoted, Option.map_some, String.ofList_toList]
  | arr items ih =>
    intro fuel r hfuel _
    obtain ⟨fuel, rfl⟩ := Nat.exists_eq_succ_of_ne_zero (show fuel ≠ 0 by omega)
    cases items with
    | nil => rfl
    | cons v vs =>
      rw [text, textItems_eq, List.length_cons, List.length_append, List.length_singleton] at hfuel
      have hread := readItems_text v vs ih fuel (by omega) r
      obtain ⟨t, ht⟩ := commaSep_head text v vs
      obtain ⟨c, u, hc, hne⟩ := item_head v
      have hskip := skipSpace_text v (t ++ ']' :: r)
      rw [text, textItems_eq, List.cons_append, List.append_assoc, readValue, skipSpace_cons (by decide)]
      simp only [List.cons_append, List.nil_append]
      rw [ht, List.append_assoc] at hread ⊢
      rw [hskip]
      rw [hc] at hread ⊢
      simp only [List.cons_append] at hread ⊢
      split
      · next heq => exact absurd (List.cons.inj heq).1 hne
      · rw [hread, Option.map_some]
  | obj members ih =>
    intro fuel r hfuel _
    obtain ⟨fuel, rfl⟩ := Nat.exists_eq_succ_of_ne_zero (show fuel ≠ 0 by omega)
    cases members with
    | nil => rfl
    | cons m ms =>
      have hmembers : textMembers (m :: ms) = (m :: ms).map memberText := textMembers_eq _
      rw [text, hmembers, List.length_cons, List.length_append, List.length_singleton] at hfuel
      have hread := readMembers_text m ms ih fuel (by omega) r
      obtain ⟨t, ht⟩ := commaSep_head memberText m ms
      rw [text, hmembers, List.cons_append, List.append_assoc, readValue, skipSpace_cons (by decide)]
      simp only [List.cons_append, List.nil_append]
      rw [ht, List.append_assoc, memberText, quote] at hread ⊢
      simp only [List.cons_append] at hread ⊢
      rw [skipSpace_cons (by decide)]
      show (readMembers fuel _).map _ = _
      rw [hread]
      rfl

/-- Values of one text are the same value: the one it is read as. -/
theorem text_injective : Function.Injective text := by
  intro v w h
  have hv := reads v (2 * (text v).length + 1) [] (by omega) trivial
  have hw := reads w (2 * (text w).length + 1) [] (by omega) trivial
  rw [h, hw] at hv
  exact (congrArg Prod.fst (Option.some.inj hv)).symm

/-- `JSON.parse` of what `JSON.stringify` writes. -/
theorem parse_text (v : Json) : parse (text v) = some (built v) := by
  have hread := reads v (2 * (text v).length + 1) [] (by omega) trivial
  rw [List.append_nil] at hread
  simp only [parse, hread]
  rfl

end Json

/-! ### Characters of a text -/

namespace Json

theorem ne_control_of_numberChar {c : Char} (h : isNumberChar c = true) : 32 ≤ c.toNat := by
  simp only [isNumberChar, Bool.or_eq_true, beq_iff_eq, Char.isDigit, Bool.and_eq_true, decide_eq_true_eq] at h
  rcases h with (((⟨h, -⟩ | rfl) | rfl) | rfl) | rfl
  · have hle : 48 ≤ c.toNat := h
    omega
  all_goals decide

theorem ne_control_of_all {cs : List Char} (h : cs.all (fun c => 32 ≤ c.toNat) = true) : ∀ c ∈ cs, 32 ≤ c.toNat := by
  intro c hc
  simpa using List.all_eq_true.1 h c hc

theorem ne_control_escape {c d : Char} (h : d ∈ escape c) : 32 ≤ d.toNat := by
  have hhex : ∀ n, n < 32 → ['\\', 'u', '0', '0', hexDigit (n / 16), hexDigit (n % 16)].all
      (fun d => 32 ≤ d.toNat) = true := by decide
  have hpair : ∀ e : Char, 32 ≤ e.toNat → d ∈ ['\\', e] → 32 ≤ d.toNat := by
    intro e he hd
    rcases List.mem_cons.1 hd with rfl | hd
    · decide
    · rw [List.mem_singleton.1 hd]
      exact he
  unfold escape at h
  split_ifs at h with h1 h2 h3 h4 h5 h6 h7 h8
  · exact hpair _ (by decide) h
  · exact hpair _ (by decide) h
  · exact hpair _ (by decide) h
  · exact hpair _ (by decide) h
  · exact hpair _ (by decide) h
  · exact hpair _ (by decide) h
  · exact hpair _ (by decide) h
  · exact ne_control_of_all (hhex _ h8) d h
  · rw [List.mem_singleton.1 h]
    omega

theorem ne_control_quoteTail {s : List Char} {d : Char} (h : d ∈ quoteTail s) : 32 ≤ d.toNat := by
  induction s with
  | nil =>
    rw [List.mem_singleton.1 h]
    decide
  | cons c s ih =>
    rcases List.mem_append.1 h with h | h
    · exact ne_control_escape h
    · exact ih h

theorem ne_control_quote {s : String} {d : Char} (h : d ∈ quote s) : 32 ≤ d.toNat := by
  rcases List.mem_cons.1 h with rfl | h
  · decide
  · exact ne_control_quoteTail h

theorem ne_control_commaSep {ts : List (List Char)} {d : Char} (hts : ∀ t ∈ ts, ∀ c ∈ t, 32 ≤ c.toNat)
    (h : d ∈ commaSep ts) : 32 ≤ d.toNat := by
  induction ts with
  | nil => cases h
  | cons t ts ih =>
    cases ts with
    | nil => exact hts t (by simp) d h
    | cons t' ts =>
      rcases List.mem_append.1 h with h | h
      · exact hts t (by simp) d h
      · rcases List.mem_cons.1 h with rfl | h
        · decide
        · exact ih (fun u hu => hts u (List.mem_cons_of_mem _ hu)) h

/-- **A text is one line**: it has no control character. -/
theorem ne_control_text (v : Json) : ∀ c ∈ text v, 32 ≤ c.toNat := by
  induction v using ind with
  | null => exact ne_control_of_all (by decide)
  | bool b => cases b <;> exact ne_control_of_all (by decide)
  | num n =>
    intro c hc
    exact ne_control_of_numberChar (List.all_eq_true.1 n.chars c hc)
  | str s =>
    intro c hc
    exact ne_control_quote hc
  | arr items ih =>
    intro c hc
    rw [text, textItems_eq] at hc
    have hitems : ∀ t ∈ items.map text, ∀ c ∈ t, 32 ≤ c.toNat := by
      intro t ht
      obtain ⟨v, hv, rfl⟩ := List.mem_map.1 ht
      exact ih v hv
    simp only [List.mem_cons, List.mem_append, List.not_mem_nil, or_false] at hc
    rcases hc with rfl | hc | rfl
    · decide
    · exact ne_control_commaSep hitems hc
    · decide
  | obj members ih =>
    intro c hc
    rw [text, textMembers_eq] at hc
    have hmembers : ∀ t ∈ members.map memberText, ∀ c ∈ t, 32 ≤ c.toNat := by
      intro t ht c hc
      obtain ⟨m, hm, rfl⟩ := List.mem_map.1 ht
      simp only [memberText, List.mem_append, List.mem_cons] at hc
      rcases hc with hc | rfl | hc
      · exact ne_control_quote hc
      · decide
      · exact ih m hm c hc
    simp only [List.mem_cons, List.mem_append, List.not_mem_nil, or_false] at hc
    rcases hc with rfl | hc | rfl
    · decide
    · exact ne_control_commaSep hmembers hc
    · decide

/-! ### Members of what was read -/

theorem find_ownMembers {α : Type} {members : List (String × α)} (h : (members.map Prod.fst).Nodup)
    (k : String) : JsMap.find k (ownMembers members) = JsMap.find k members := by
  rw [ownMembers, JsMap.ofList_entries h]
  refine find_perm (fromEntries_perm members) ?_ k
  exact ((fromEntries_perm members).map Prod.fst).nodup_iff.2 h

theorem builtMembers_eq (members : List (String × Json)) :
    builtMembers members = members.map fun m => (m.1, built m.2) := by
  induction members with
  | nil => rfl
  | cons m ms ih => simp only [builtMembers, ih, List.map_cons]

theorem find_built {members : List (String × Json)} (h : (members.map Prod.fst).Nodup) (k : String) :
    JsMap.find k (ownMembers (builtMembers members)) = (JsMap.find k members).map built := by
  have hnodup : ((members.map fun m => (m.1, built m.2)).map Prod.fst).Nodup := by
    rw [List.map_map]
    exact h
  rw [builtMembers_eq, find_ownMembers hnodup]
  clear h hnodup
  induction members with
  | nil => rfl
  | cons m ms ih =>
    simp only [List.map_cons, JsMap.find]
    split_ifs
    · rfl
    · exact ih

end Json

/-! ### Values through JSON -/

theorem fromEntries_map {α β : Type} (f : α → β) (members : List (String × α)) :
    fromEntries (members.map fun m => (m.1, f m.2)) = (fromEntries members).map fun m => (m.1, f m.2) := by
  have hsort : ∀ ms : List (String × α),
      (ms.insertionSort fun a b => (arrayIndex a.1).getD 0 ≤ (arrayIndex b.1).getD 0).map
          (fun m => (m.1, f m.2)) =
        (ms.map fun m => (m.1, f m.2)).insertionSort
          fun a b => (arrayIndex a.1).getD 0 ≤ (arrayIndex b.1).getD 0 := fun ms =>
    List.map_insertionSort _ _ _ _ fun _ _ _ _ => Iff.rfl
  simp only [fromEntries, List.map_append, hsort, List.filter_map]
  rfl

theorem fromEntries_of_names {α : Type} {members : List (String × α)} (h : ∀ m ∈ members, arrayIndex m.1 = none) :
    fromEntries members = members := by
  have hnone : members.filter (fun m => (arrayIndex m.1).isSome) = [] :=
    List.filter_eq_nil_iff.2 fun m hm => by simp [h m hm]
  have hall : members.filter (fun m => (arrayIndex m.1).isNone) = members :=
    List.filter_eq_self.2 fun m hm => by simp [h m hm]
  rw [fromEntries, hnone, hall]
  rfl

namespace JsValue

mutual
def ofJson : Json → JsValue
  | .null => .null
  | .bool b => .bool b
  | .num n => .num (.finite n)
  | .str s => .str s
  | .arr items => .arr (ofJsonItems items)
  | .obj members => .obj (ofJsonMembers members)
def ofJsonItems : List Json → List JsValue
  | [] => []
  | v :: vs => ofJson v :: ofJsonItems vs
def ofJsonMembers : List (String × Json) → List (String × JsValue)
  | [] => []
  | (k, v) :: ms => (k, ofJson v) :: ofJsonMembers ms
end

/-- `JSON.parse(JSON.stringify(v))`. -/
def throughJson (v : JsValue) : JsValue := ofJson v.json.built

mutual
/-- A value that JSON can carry: its numbers are finite, and its objects, as all objects of the host, name
each member once and array indices first. -/
def Plain : JsValue → Prop
  | .null => True
  | .bool _ => True
  | .num n => n.isFinite = true
  | .str _ => True
  | .arr items => PlainItems items
  | .obj members => ((members.map Prod.fst).Nodup ∧ fromEntries members = members) ∧ PlainMembers members
def PlainItems : List JsValue → Prop
  | [] => True
  | v :: vs => Plain v ∧ PlainItems vs
def PlainMembers : List (String × JsValue) → Prop
  | [] => True
  | (_, v) :: ms => Plain v ∧ PlainMembers ms
end

theorem plainMembers_iff {members : List (String × JsValue)} : PlainMembers members ↔ ∀ m ∈ members, m.2.Plain := by
  induction members with
  | nil => simp [PlainMembers]
  | cons m ms ih => simp [PlainMembers, ih]

def throughMembers (members : List (String × JsValue)) : List (String × JsValue) :=
  members.map fun m => (m.1, throughJson m.2)

theorem throughJson_obj (members : List (String × JsValue)) (hnames : (members.map Prod.fst).Nodup)
    (hindices : fromEntries members = members) : throughJson (.obj members) = .obj (throughMembers members) := by
  have hjson : jsonMembers members = members.map fun m => (m.1, m.2.json) := by
    clear hnames hindices
    induction members with
    | nil => rfl
    | cons m ms ih => simp only [jsonMembers, ih, List.map_cons]
  have hbuilt : Json.builtMembers (jsonMembers members) = members.map fun m => (m.1, m.2.json.built) := by
    rw [Json.builtMembers_eq, hjson, List.map_map]
    rfl
  have hof : ∀ ms : List (String × Json), ofJsonMembers ms = ms.map fun m => (m.1, ofJson m.2) := by
    intro ms
    induction ms with
    | nil => rfl
    | cons m ms ih => simp only [ofJsonMembers, ih, List.map_cons]
  have hnodup : ((members.map fun m => (m.1, m.2.json.built)).map Prod.fst).Nodup := by
    rw [List.map_map]
    exact hnames
  have hown : Json.ownMembers (members.map fun m => (m.1, m.2.json.built)) =
      members.map fun m => (m.1, m.2.json.built) := by
    rw [Json.ownMembers, JsMap.ofList_entries hnodup]
    have hmap := fromEntries_map (fun v : JsValue => v.json.built) members
    rw [hindices] at hmap
    exact hmap
  simp only [throughJson, json, Json.built, hbuilt, hown, ofJson, hof, List.map_map]
  rfl

theorem throughJson_arr (items : List JsValue) : throughJson (.arr items) = .arr (items.map throughJson) := by
  have hitems : ofJsonItems (Json.builtItems (jsonItems items)) = items.map throughJson := by
    induction items with
    | nil => rfl
    | cons v vs ih =>
      simp only [jsonItems, Json.builtItems, ofJsonItems, ih, List.map_cons]
      rfl
  simp only [throughJson, json, Json.built, ofJson, hitems]

mutual
/-- **What JSON can carry comes through it unchanged.** -/
theorem throughJson_of_plain : ∀ v, Plain v → throughJson v = v
  | .null, _ => rfl
  | .bool _, _ => rfl
  | .num (.finite _), _ => rfl
  | .num .nan, h | .num .infinity, h | .num .negInfinity, h => by cases h
  | .str _, _ => rfl
  | .arr items, h => by
    rw [throughJson_arr, map_throughJson_of_plain items h]
  | .obj members, h => by
    rw [throughJson_obj members h.1.1 h.1.2, throughMembers_of_plain members h.2]
theorem map_throughJson_of_plain : ∀ items, PlainItems items → items.map throughJson = items
  | [], _ => rfl
  | v :: vs, h => by
    rw [List.map_cons, throughJson_of_plain v h.1, map_throughJson_of_plain vs h.2]
theorem throughMembers_of_plain : ∀ members, PlainMembers members → throughMembers members = members
  | [], _ => rfl
  | (k, v) :: ms, h => by
    have hms := throughMembers_of_plain ms h.2
    rw [throughMembers] at hms ⊢
    rw [List.map_cons, hms, throughJson_of_plain v h.1]
end

end JsValue

end NpsSdk.Lib
