import NpsSdk.Lib.HeaderText
import NpsSdk.Nop.ConditionGrammar

/-!
# The texts of conditions

How tokens are written, with any white space between them.  In what the grammar derives no token can be taken
for the beginning of a longer one, so the tokenizer finds the tokens again, however they are spaced.
-/

namespace NpsSdk.Nop

open NpsSdk.Lib

/-! ### Spellings -/

/-- Digits with at most one point after the first one, and maybe a sign. -/
def IsDecimal (cs : List Char) : Prop :=
  let body := if cs.head? = some '-' then cs.tail else cs
  body.head?.any Char.isDigit = true ∧ body.all isNumberPart = true ∧ body.count '.' ≤ 1

instance (cs : List Char) : Decidable (IsDecimal cs) := inferInstanceAs (Decidable (_ ∧ _ ∧ _))

/-- The characters of a token that is always written the same. -/
def Token.symbol : Token → Option (List Char)
  | .true => some ['t', 'r', 'u', 'e']
  | .false => some ['f', 'a', 'l', 's', 'e']
  | .null => some ['n', 'u', 'l', 'l']
  | .op .gt => some ['>']
  | .op .gte => some ['>', '=']
  | .op .lt => some ['<']
  | .op .lte => some ['<', '=']
  | .op .eq => some ['=', '=']
  | .op .neq => some ['!', '=']
  | .and => some ['&', '&']
  | .or => some ['|', '|']
  | .not => some ['!']
  | .lParen => some ['(']
  | .rParen => some [')']
  | _ => none

inductive Spelling : Token → List Char → Prop
  | dollarPath {cs : List Char} (hcs : cs.all isPathChar = true) :
    Spelling (.dollarPath (String.ofList ('$' :: '.' :: cs))) ('$' :: '.' :: cs)
  | number {cs : List Char} (hcs : IsDecimal cs) : Spelling (.number (String.ofList cs)) cs
  | string {cs : List Char} (hcs : '"' ∉ cs) : Spelling (.string (String.ofList cs)) ('"' :: (cs ++ ['"']))
  | symbol {t : Token} {cs : List Char} (hcs : t.symbol = some cs) : Spelling t cs

/-- The tokens, written one after the other with any white space around them. -/
inductive Layout : List Token → List Char → Prop
  | nil {w : List Char} (hw : w.all isJsSpace = true) : Layout [] w
  | cons {w text cs : List Char} {t : Token} {ts : List Token} (hw : w.all isJsSpace = true)
    (ht : Spelling t text) (h : Layout ts cs) : Layout (t :: ts) (w ++ (text ++ cs))

variable {t : Token} {ts : List Token} {text cs rest : List Char} {input : String}

theorem IsDecimal.cases (h : IsDecimal cs) :
    ∃ c text, cs = c :: text ∧ text.all isNumberPart = true ∧
      (c.isDigit = true ∨ c = '-' ∧ text.head?.any Char.isDigit = true) := by
  obtain ⟨hhead, hall, -⟩ := h
  cases cs with
  | nil => simp at hhead
  | cons c text =>
    refine ⟨c, text, rfl, ?_⟩
    by_cases hc : c = '-'
    · simp only [hc, List.head?_cons, if_true, List.tail_cons] at hhead hall
      exact ⟨hall, .inr ⟨hc, hhead⟩⟩
    · simp only [List.head?_cons, Option.some.injEq, hc, if_false, Option.any_some] at hhead hall
      rw [List.all_cons, Bool.and_eq_true] at hall
      exact ⟨hall.2, .inl hhead⟩

/-! ### One token -/

/-- Would the token be read on with this character? -/
def extendsToken : Token → Char → Bool
  | .dollarPath _, d => isPathChar d
  | .number _, d => isNumberPart d
  | .true, d | .false, d | .null, d => isLetterOrDigit d
  | .op .gt, d | .op .lt, d | .not, d => d == '='
  | _, _ => false

/-- The token ends where `rest` begins. -/
def EndsAt (t : Token) (rest : List Char) : Prop := ∀ d, rest.head? = some d → extendsToken t d = false

theorem span_stop {p : Char → Bool} (hcs : cs.all p = true) (hrest : ∀ d, rest.head? = some d → p d = false) :
    (cs ++ rest).takeWhile p = cs ∧ (cs ++ rest).dropWhile p = rest := by
  have hpos : ∀ c ∈ cs, p c = true := List.all_eq_true.1 hcs
  rw [List.takeWhile_append_of_pos hpos, List.dropWhile_append_of_pos hpos]
  cases rest with
  | nil => simp
  | cons d rest =>
    have hd := hrest d rfl
    simp [hd]

variable {c : Char}

theorem twoCharToken_of_letter (hc : c ∈ ['t', 'f', 'n', '(', ')']) (d : Option Char) :
    d.bind (twoCharToken c) = none := by
  simp only [List.mem_cons, List.not_mem_nil, or_false] at hc
  cases d with
  | none => rfl
  | some d => rcases hc with rfl | rfl | rfl | rfl | rfl <;> rfl

theorem twoCharToken_of_ne (hc : c ∈ ['>', '<', '!']) {d : Option Char} (hd : d ≠ some '=') :
    d.bind (twoCharToken c) = none := by
  simp only [List.mem_cons, List.not_mem_nil, or_false] at hc
  cases d with
  | none => rfl
  | some d =>
    have hne : d ≠ '=' := fun h => hd (by rw [h])
    rcases hc with rfl | rfl | rfl <;> simp [twoCharToken, hne]

theorem tokenAt_symbol (hc : c ∈ ['t', 'f', 'n', '(', ')', '>', '<', '!', '=', '&', '|']) :
    tokenAt input c cs = symbolAt input c cs := by
  simp only [List.mem_cons, List.not_mem_nil, or_false] at hc
  unfold tokenAt
  rw [if_neg, if_neg, if_neg]
  · rcases hc with rfl | rfl | rfl | rfl | rfl | rfl | rfl | rfl | rfl | rfl | rfl <;> simp
  · rcases hc with rfl | rfl | rfl | rfl | rfl | rfl | rfl | rfl | rfl | rfl | rfl <;> decide
  · rcases hc with rfl | rfl | rfl | rfl | rfl | rfl | rfl | rfl | rfl | rfl | rfl <;> simp

theorem symbolAt_keyword {kw : List Char} (hc : c ∈ ['t', 'f', 'n'])
    (hkw : (c :: kw).all isLetterOrDigit = true) (ht : keyword (String.ofList (c :: kw)) = some t)
    (hend : ∀ d, rest.head? = some d → isLetterOrDigit d = false) : symbolAt input c (kw ++ rest) = .ok (t, rest) := by
  obtain ⟨htake, hdrop⟩ := span_stop hkw hend
  have htwo : (kw ++ rest).head?.bind (twoCharToken c) = none :=
    twoCharToken_of_letter ((List.subset_append_left _ ['(', ')']) hc) _
  have hone : oneCharToken c = none ∧ isLetter c = true := by
    simp only [List.mem_cons, List.not_mem_nil, or_false] at hc
    rcases hc with rfl | rfl | rfl <;> exact ⟨rfl, rfl⟩
  rw [List.cons_append] at htake hdrop
  unfold symbolAt
  rw [htwo, hone.1]
  dsimp only
  rw [if_pos hone.2, htake, hdrop, ht]

theorem tokenAt_symbol_spelling (h : t.symbol = some (c :: text)) (hend : EndsAt t rest) :
    tokenAt input c (text ++ rest) = .ok (t, rest) := by
  have hone : ∀ {c t}, c ∈ ['>', '<', '!'] → oneCharToken c = some t → EndsAt t rest →
      (∀ d, extendsToken t d = (d == '=')) → symbolAt input c rest = .ok (t, rest) := by
    intro c t hc ht hend hextends
    have hne : rest.head? ≠ some '=' := fun h => by simpa [hextends] using hend _ h
    unfold symbolAt
    rw [twoCharToken_of_ne hc hne, ht]
  cases t with
  | dollarPath raw => cases h
  | number raw => cases h
  | string raw => cases h
  | true =>
    cases h
    rw [tokenAt_symbol (by simp)]
    exact symbolAt_keyword (by simp) rfl rfl hend
  | false =>
    cases h
    rw [tokenAt_symbol (by simp)]
    exact symbolAt_keyword (by simp) rfl rfl hend
  | null =>
    cases h
    rw [tokenAt_symbol (by simp)]
    exact symbolAt_keyword (by simp) rfl rfl hend
  | op op =>
    cases op <;> cases h <;> rw [tokenAt_symbol (by simp)]
    · exact hone (by simp) rfl hend fun _ => rfl
    · rfl
    · exact hone (by simp) rfl hend fun _ => rfl
    · rfl
    · rfl
    · rfl
  | and =>
    cases h
    rw [tokenAt_symbol (by simp)]
    rfl
  | or =>
    cases h
    rw [tokenAt_symbol (by simp)]
    rfl
  | not =>
    cases h
    rw [tokenAt_symbol (by simp)]
    exact hone (by simp) rfl hend fun _ => rfl
  | lParen =>
    cases h
    rw [tokenAt_symbol (by simp), List.nil_append]
    unfold symbolAt
    rw [twoCharToken_of_letter (by simp)]
    rfl
  | rParen =>
    cases h
    rw [tokenAt_symbol (by simp), List.nil_append]
    unfold symbolAt
    rw [twoCharToken_of_letter (by simp)]
    rfl

/-- **A token is read where it is written**, if what follows does not go on with it. -/
theorem tokenAt_spelling (h : Spelling t (c :: text)) (hend : EndsAt t rest) :
    tokenAt input c (text ++ rest) = .ok (t, rest) := by
  generalize hcs : c :: text = cs at h
  cases h with
  | dollarPath hall =>
    rename_i path
    obtain ⟨rfl, rfl⟩ := List.cons.inj hcs
    have hchars : ('$' :: '.' :: path).all isPathChar = true := by
      rw [List.all_cons, List.all_cons, hall]
      rfl
    obtain ⟨htake, hdrop⟩ := span_stop hchars hend
    rw [List.cons_append, List.cons_append] at htake hdrop
    unfold tokenAt
    rw [if_pos ⟨rfl, rfl⟩, List.cons_append, htake, hdrop]
  | number hdecimal =>
    obtain ⟨c', text', heq, hall, hfirst⟩ := hdecimal.cases
    obtain ⟨rfl, rfl⟩ := List.cons.inj (hcs.trans heq)
    obtain ⟨htake, hdrop⟩ := span_stop hall hend
    have hfirst' : c.isDigit = true ∨ c = '-' ∧ (text ++ rest).head?.any Char.isDigit = true := by
      rcases hfirst with hc | ⟨hc, hd⟩
      · exact .inl hc
      · cases text with
        | nil => cases hd
        | cons d text => exact .inr ⟨hc, hd⟩
    have hdollar : c ≠ '$' := by
      rintro rfl
      rcases hfirst with hc | ⟨hc, -⟩ <;> cases hc
    have hquote : c ≠ '"' := by
      rintro rfl
      rcases hfirst with hc | ⟨hc, -⟩ <;> cases hc
    unfold tokenAt
    rw [if_neg fun h => hdollar h.1, if_neg hquote, if_pos hfirst', htake, hdrop, heq]
  | string hquote =>
    rename_i body
    obtain ⟨rfl, rfl⟩ := List.cons.inj hcs
    have hall : body.all (fun d => decide (d ≠ '"')) = true := by
      rw [List.all_eq_true]
      rintro d hd
      exact decide_eq_true fun hc => hquote (hc ▸ hd)
    obtain ⟨htake, hdrop⟩ := @span_stop body ('"' :: rest) _ hall (by rintro d ⟨⟩; rfl)
    unfold tokenAt
    rw [if_neg (by simp), if_pos rfl, List.append_assoc, List.singleton_append, htake, hdrop]
    rfl
  | symbol hsymbol => exact tokenAt_symbol_spelling (hcs ▸ hsymbol) hend

/-! ### Sequences of tokens -/

/-- May an expression begin with the token? -/
def Token.opens : Token → Bool
  | .op _ | .and | .or | .rParen => .false
  | _ => .true

/-- May an expression end with the token? -/
def Token.closes : Token → Bool
  | .op _ | .and | .or | .not | .lParen => .false
  | _ => .true

/-- A token that can stand in an expression after another one. -/
def Adjacent (t u : Token) : Prop := u.opens = !t.closes

/-- What holds of the tokens of an expression. -/
structure Sentence (ts : List Token) : Prop where
  ne_nil : ts ≠ []
  opens : ∀ t, ts.head? = some t → t.opens = true
  closes : ∀ t, ts.getLast? = some t → t.closes = true
  adjacent : ts.IsChain Adjacent

theorem Sentence.singleton (ho : t.opens = true) (hc : t.closes = true) : Sentence [t] where
  ne_nil := List.cons_ne_nil _ _
  opens := by
    rintro u ⟨⟩
    exact ho
  closes := by
    rintro u ⟨⟩
    exact hc
  adjacent := List.isChain_singleton _

theorem Sentence.cons (h : Sentence ts) (ho : t.opens = true) (hc : t.closes = false) : Sentence (t :: ts) where
  ne_nil := List.cons_ne_nil _ _
  opens := by
    rintro u ⟨⟩
    exact ho
  closes := by
    intro u hu
    obtain ⟨v, us, rfl⟩ := List.exists_cons_of_ne_nil h.ne_nil
    exact h.closes u (by rwa [List.getLast?_cons_cons] at hu)
  adjacent := List.isChain_cons.2 ⟨fun u hu => by rw [Adjacent, hc, h.opens u hu]; rfl, h.adjacent⟩

theorem Sentence.join {us : List Token} (h : Sentence ts) (h' : Sentence us) (ho : t.opens = false)
    (hc : t.closes = false) : Sentence (ts ++ t :: us) where
  ne_nil := by simp
  opens := by
    intro u hu
    rw [List.head?_append_of_ne_nil _ h.ne_nil] at hu
    exact h.opens u hu
  closes := by
    intro u hu
    obtain ⟨v, vs, rfl⟩ := List.exists_cons_of_ne_nil h'.ne_nil
    rw [List.getLast?_append_of_ne_nil _ (List.cons_ne_nil _ _), List.getLast?_cons_cons] at hu
    exact h'.closes u hu
  adjacent := by
    refine List.isChain_append.2 ⟨h.adjacent, List.isChain_cons.2 ⟨fun u hu => ?_, h'.adjacent⟩, ?_⟩
    · rw [Adjacent, hc, h'.opens u hu]
      rfl
    · intro u hu v hv
      cases hv
      rw [Adjacent, ho, h.closes u hu]
      rfl

theorem Sentence.parens (h : Sentence ts) : Sentence (.lParen :: (ts ++ [.rParen])) := by
  have hinner : Sentence (.lParen :: ts) := h.cons rfl rfl
  rw [← List.cons_append]
  refine ⟨by simp, ?_, ?_, ?_⟩
  · rintro u ⟨⟩
    rfl
  · intro u hu
    rw [List.getLast?_append_of_ne_nil _ (List.cons_ne_nil _ _)] at hu
    cases hu
    rfl
  · refine List.isChain_append.2 ⟨hinner.adjacent, List.isChain_singleton _, ?_⟩
    intro u hu v hv
    cases hv
    rw [Adjacent, hinner.closes u hu]
    rfl

theorem Operand.opens_token (o : Operand) : o.token.opens = true ∧ o.token.closes = true := by
  cases o <;> exact ⟨rfl, rfl⟩

theorem RightOperand.opens_token (v : RightOperand) : v.token.opens = true ∧ v.token.closes = true := by
  cases v with
  | operand o => exact o.opens_token
  | bool b => cases b <;> exact ⟨rfl, rfl⟩

theorem Derives.sentence {level : Level} {c : Cond} (h : Derives level c ts) : Sentence ts := by
  induction h with
  | literal b => cases b <;> exact .singleton rfl rfl
  | operand o => exact .singleton o.opens_token.1 o.opens_token.2
  | comparison o op v =>
    exact (Sentence.singleton o.opens_token.1 o.opens_token.2).join
      (.singleton v.opens_token.1 v.opens_token.2) rfl rfl
  | parens _ ih => exact ih.parens
  | not _ ih => exact ih.cons rfl rfl
  | ofNot _ ih => exact ih
  | and _ _ iha ihb => exact iha.join ihb rfl rfl
  | ofAnd _ ih => exact ih
  | or _ _ iha ihb => exact iha.join ihb rfl rfl

/-! ### What a token begins with -/

theorem Spelling.head (h : Spelling t cs) :
    ∃ c text, cs = c :: text ∧ isJsSpace c = false ∧ (t.opens = true → c ≠ '=') ∧
      (t.opens = false → c ∈ ['>', '<', '=', '!', '&', '|', ')']) := by
  cases h with
  | dollarPath hall => exact ⟨_, _, rfl, rfl, fun _ => by decide, fun h => by cases h⟩
  | number hdecimal =>
    obtain ⟨c, text, rfl, -, hfirst⟩ := hdecimal.cases
    refine ⟨c, text, rfl, ?_, fun _ => ?_, fun h => by cases h⟩
    · rcases hfirst with hc | ⟨rfl, -⟩
      · exact isJsSpace_of_isDigit hc
      · rfl
    · rintro rfl
      rcases hfirst with hc | ⟨hc, -⟩ <;> cases hc
  | string hquote => exact ⟨_, _, rfl, rfl, fun _ => by decide, fun h => by cases h⟩
  | symbol hsymbol =>
    cases t with
    | op op =>
      cases op <;> cases hsymbol <;> exact ⟨_, _, rfl, rfl, (by rintro ⟨⟩), fun _ => by decide⟩
    | dollarPath raw => cases hsymbol
    | number raw => cases hsymbol
    | string raw => cases hsymbol
    | _ =>
      cases hsymbol
      exact ⟨_, _, rfl, rfl, by decide, by decide⟩

variable {d : Char}

theorem toNat_of_isLetterOrDigit (h : isLetterOrDigit d = true) : 48 ≤ d.toNat ∧ d.toNat ≤ 122 := by
  change ((decide (65 ≤ d.val ∧ d.val ≤ 90) || 97 ≤ d.val && d.val ≤ 122) || 48 ≤ d.val && d.val ≤ 57) = true at h
  simp only [Bool.or_eq_true, Bool.and_eq_true, decide_eq_true_eq, UInt32.le_iff_toNat_le] at h
  change ((65 ≤ d.toNat ∧ d.toNat ≤ 90) ∨ (97 ≤ d.toNat ∧ d.toNat ≤ 122)) ∨ (48 ≤ d.toNat ∧ d.toNat ≤ 57) at h
  omega

theorem not_isLetterOrDigit_of_space (hd : isJsSpace d = true) : isLetterOrDigit d = false := by
  rw [← Bool.not_eq_true]
  intro hletter
  obtain ⟨hlo, hhi⟩ := toNat_of_isLetterOrDigit hletter
  simp only [isJsSpace, Bool.or_eq_true, Bool.and_eq_true, decide_eq_true_eq, beq_iff_eq] at hd
  omega

theorem isPathChar_eq_false (hletter : isLetterOrDigit d = false) (hd : d ∉ ['_', '.', '$']) :
    isPathChar d = false ∧ isNumberPart d = false := by
  simp only [List.mem_cons, List.not_mem_nil, or_false, not_or] at hd
  have hdigit : d.isDigit = false := (Bool.or_eq_false_iff.1 hletter).2
  simp [isPathChar, isNumberPart, hletter, hdigit, hd]

theorem extendsToken_eq_false (hletter : isLetterOrDigit d = false) (hd : d ∉ ['_', '.', '$', '=']) :
    extendsToken t d = false := by
  simp only [List.mem_cons, List.not_mem_nil, or_false, not_or] at hd
  obtain ⟨hpath, hnumber⟩ := isPathChar_eq_false hletter (by simp [hd])
  cases t with
  | op op => cases op <;> simp [extendsToken, hd]
  | _ => simp [extendsToken, hpath, hnumber, hletter, hd]

theorem extendsToken_space (hd : isJsSpace d = true) : extendsToken t d = false := by
  refine extendsToken_eq_false (not_isLetterOrDigit_of_space hd) fun hmem => ?_
  simp only [List.mem_cons, List.not_mem_nil, or_false] at hmem
  rcases hmem with rfl | rfl | rfl | rfl <;> cases hd

theorem extendsToken_adjacent {u : Token} (h : Adjacent t u) (hd : Spelling u (d :: text)) :
    extendsToken t d = false := by
  obtain ⟨c, text', heq, -, hopens, hcloses⟩ := hd.head
  obtain ⟨rfl, -⟩ := List.cons.inj heq
  cases hu : u.opens with
  | false =>
    have hc := hcloses hu
    simp only [List.mem_cons, List.not_mem_nil, or_false] at hc
    have hletter : isLetterOrDigit d = false := by rcases hc with rfl | rfl | rfl | rfl | rfl | rfl | rfl <;> rfl
    have hpath := isPathChar_eq_false hletter (by rcases hc with rfl | rfl | rfl | rfl | rfl | rfl | rfl <;> decide)
    rw [Adjacent, hu] at h
    cases t with
    | op op => cases h
    | not => cases h
    | _ => simp [extendsToken, hpath, hletter]
  | true =>
    rw [Adjacent, hu] at h
    have hne := hopens hu
    cases t with
    | op op => cases op <;> simp [extendsToken, hne]
    | not => simp [extendsToken, hne]
    | and | or | lParen => rfl
    | _ => cases h

/-! ### Texts -/

theorem tokenizeFrom_space {w : List Char} (hw : w.all isJsSpace = true) {fuel : ℕ} :
    tokenizeFrom input (w.length + fuel) (w ++ cs) = tokenizeFrom input fuel cs := by
  induction w with
  | nil => simp
  | cons c w ih =>
    rw [List.all_cons, Bool.and_eq_true] at hw
    rw [List.length_cons, Nat.add_right_comm, List.cons_append, tokenizeFrom, if_pos hw.1, ih hw.2]

theorem tokenizeFrom_nil {fuel : ℕ} : tokenizeFrom input fuel [] = .ok [] := by
  cases fuel <;> rfl

theorem Layout.head (h : Layout ts cs) (hd : cs.head? = some d) :
    isJsSpace d = true ∨ ∃ u us text, ts = u :: us ∧ Spelling u (d :: text) := by
  cases h with
  | nil hw =>
    cases cs with
    | nil => cases hd
    | cons c cs =>
      cases hd
      rw [List.all_cons, Bool.and_eq_true] at hw
      exact .inl hw.1
  | cons hw ht h =>
    rename_i w text cs u us
    cases w with
    | nil =>
      obtain ⟨c, text', rfl, -⟩ := ht.head
      cases hd
      exact .inr ⟨u, us, text', rfl, ht⟩
    | cons c w =>
      cases hd
      rw [List.all_cons, Bool.and_eq_true] at hw
      exact .inl hw.1

/-- **The tokens are found again** in a text, if none of them goes on with the one before. -/
theorem Layout.tokenizeFrom (h : Layout ts cs) (hadjacent : ts.IsChain Adjacent) {fuel : ℕ} (hfuel : cs.length ≤ fuel) :
    Nop.tokenizeFrom input fuel cs = .ok ts := by
  induction h generalizing fuel with
  | @nil w hw =>
    have := @tokenizeFrom_space [] input w hw (fuel - w.length)
    rwa [List.append_nil, Nat.add_sub_cancel' hfuel, tokenizeFrom_nil] at this
  | @cons w text cs t ts hw ht h ih =>
    simp only [List.length_append] at hfuel
    obtain ⟨fuel, rfl⟩ := Nat.exists_eq_add_of_le (show w.length ≤ fuel by omega)
    rw [tokenizeFrom_space hw]
    have hend : EndsAt t cs := by
      intro d hd
      rcases h.head hd with hspace | ⟨u, us, text', rfl, hu⟩
      · exact extendsToken_space hspace
      · exact extendsToken_adjacent (List.isChain_cons_cons.1 hadjacent).1 hu
    obtain ⟨c, text, rfl, hspace, -⟩ := ht.head
    rw [List.length_cons] at hfuel
    obtain ⟨fuel, rfl⟩ : ∃ m, fuel = m + 1 := ⟨fuel - 1, by omega⟩
    have hrest := @ih hadjacent.tail fuel (by omega)
    rw [List.cons_append, Nop.tokenizeFrom, hspace, tokenAt_spelling ht hend]
    dsimp only
    rw [hrest]
    rfl

/-! ### White space around a text -/

theorem Layout.spacesBefore (h : Layout ts cs) {w : List Char} (hw : w.all isJsSpace = true) : Layout ts (w ++ cs) := by
  cases h with
  | nil hw' => exact .nil (by rw [List.all_append, hw, hw', Bool.and_self])
  | cons hw' ht h =>
    rw [← List.append_assoc]
    exact .cons (by rw [List.all_append, hw, hw', Bool.and_self]) ht h

theorem Layout.spacesAfter (h : Layout ts cs) {w : List Char} (hw : w.all isJsSpace = true) : Layout ts (cs ++ w) := by
  induction h with
  | nil hw' => exact .nil (by rw [List.all_append, hw, hw', Bool.and_self])
  | cons hw' ht _ ih =>
    rw [List.append_assoc, List.append_assoc]
    exact .cons hw' ht ih

/-- A token does not end with white space. -/
theorem Spelling.last (h : Spelling t cs) : ∃ init c, cs = init ++ [c] ∧ isJsSpace c = false := by
  have hlast : ∀ {cs : List Char}, cs ≠ [] → (∀ c ∈ cs, isJsSpace c = false) →
      ∃ init c, cs = init ++ [c] ∧ isJsSpace c = false := by
    intro cs hne hall
    obtain ⟨init, c, rfl⟩ := (List.eq_nil_or_concat' cs).resolve_left hne
    exact ⟨init, c, rfl, hall c (by simp)⟩
  have hspace : ∀ {c : Char}, isPathChar c = true ∨ isNumberPart c = true → isJsSpace c = false := by
    intro c hc
    rw [← Bool.not_eq_true]
    intro hs
    have hnot := isPathChar_eq_false (not_isLetterOrDigit_of_space hs) fun hmem => by
      simp only [List.mem_cons, List.not_mem_nil, or_false] at hmem
      rcases hmem with rfl | rfl | rfl <;> cases hs
    rcases hc with hc | hc
    · rw [hnot.1] at hc
      cases hc
    · rw [hnot.2] at hc
      cases hc
  have hall : ∀ {cs : List Char}, cs.all (fun c => !isJsSpace c) = true → ∀ c ∈ cs, isJsSpace c = false :=
    fun hcs c hc => by simpa using List.all_eq_true.1 hcs c hc
  cases h with
  | @dollarPath cs hall =>
    refine hlast (List.cons_ne_nil _ _) fun c hc => hspace (.inl ?_)
    simp only [List.mem_cons] at hc
    rcases hc with rfl | rfl | hc
    · rfl
    · rfl
    · exact List.all_eq_true.1 hall c hc
  | number hdecimal =>
    obtain ⟨c, text, rfl, hall, hfirst⟩ := hdecimal.cases
    refine hlast (List.cons_ne_nil _ _) fun d hd => ?_
    rcases List.mem_cons.1 hd with rfl | hd
    · rcases hfirst with hc | ⟨rfl, -⟩
      · exact isJsSpace_of_isDigit hc
      · rfl
    · exact hspace (.inr (List.all_eq_true.1 hall d hd))
  | @string cs hquote => exact ⟨'"' :: cs, '"', rfl, rfl⟩
  | symbol hsymbol =>
    cases t with
    | op op => cases op <;> cases hsymbol <;> exact hlast (List.cons_ne_nil _ _) (hall rfl)
    | dollarPath raw => cases hsymbol
    | number raw => cases hsymbol
    | string raw => cases hsymbol
    | _ =>
      cases hsymbol
      exact hlast (List.cons_ne_nil _ _) (hall rfl)

theorem rdropWhile_append {p : Char → Bool} (hc : p c = false) (init b : List Char) :
    (init ++ [c] ++ b).rdropWhile p = init ++ [c] ++ b.rdropWhile p := by
  induction b using List.reverseRecOn with
  | nil => simp [hc]
  | append_singleton b d ih =>
    rw [← List.append_assoc, List.rdropWhile_concat, List.rdropWhile_concat]
    split_ifs
    · exact ih
    · simp

theorem Layout.dropWhile (h : Layout ts cs) : Layout ts (cs.dropWhile isJsSpace) := by
  cases h with
  | nil hw =>
    rw [List.dropWhile_eq_nil_iff.2 (List.all_eq_true.1 hw)]
    exact .nil rfl
  | @cons w text cs t ts hw ht h =>
    obtain ⟨c, text', rfl, hc, -⟩ := ht.head
    rw [List.dropWhile_append_of_pos (List.all_eq_true.1 hw), List.cons_append, List.dropWhile_cons, hc]
    exact @Layout.cons [] _ _ _ _ rfl ht h

theorem Layout.rdropWhile (h : Layout ts cs) : Layout ts (cs.rdropWhile isJsSpace) := by
  induction h with
  | nil hw =>
    rw [List.rdropWhile_eq_nil_iff.2 (List.all_eq_true.1 hw)]
    exact .nil rfl
  | @cons w text cs t ts hw ht h ih =>
    obtain ⟨init, c, rfl, hc⟩ := ht.last
    have hassoc : w ++ (init ++ [c] ++ cs) = w ++ init ++ [c] ++ cs := by simp
    rw [hassoc, rdropWhile_append hc]
    simpa using Layout.cons hw ht ih

/-- **White space around a text** does not matter. -/
theorem layout_trim_iff {s : String} : Layout ts (trim s).toList ↔ Layout ts s.toList := by
  constructor
  · intro h
    have hafter : ∀ cs : List Char, cs.rdropWhile isJsSpace ++ cs.rtakeWhile isJsSpace = cs := fun cs => by
      rw [List.rdropWhile, List.rtakeWhile, ← List.reverse_append, List.takeWhile_append_dropWhile,
        List.reverse_reverse]
    have hall : ((s.toList.dropWhile isJsSpace).rtakeWhile isJsSpace).all isJsSpace = true :=
      List.all_eq_true.2 fun c hc => List.mem_rtakeWhile_imp hc
    rw [toList_trim, strip] at h
    rw [← @List.takeWhile_append_dropWhile _ isJsSpace s.toList, ← hafter (s.toList.dropWhile isJsSpace)]
    exact (h.spacesAfter hall).spacesBefore (List.all_takeWhile ..)
  · intro h
    rw [toList_trim]
    exact h.dropWhile.rdropWhile

/-- **The tokens of an expression are found again**, however it is spaced. -/
theorem tokenize_of_layout {s : String} {c : Cond} (h : Layout ts s.toList) (hd : Derives .or c ts) :
    tokenize (trim s) = .ok ts :=
  (layout_trim_iff.2 h).tokenizeFrom hd.sentence.adjacent (Nat.le_refl _)

theorem Layout.not_blank {s : String} (h : Layout ts s.toList) (hne : ts ≠ []) : isBlank s = false := by
  unfold isBlank
  generalize s.toList = cs at h
  cases h with
  | nil => exact absurd rfl hne
  | cons hw ht h =>
    obtain ⟨c, text, rfl, hc, -⟩ := ht.head
    rw [List.all_eq_false]
    exact ⟨c, by simp, by simp [hc]⟩

/-! ### What is tokenized -/

theorem isPathChar_ne_quote (h : isPathChar c = true) : c ≠ '"' := by
  rintro rfl
  cases h

theorem isNumberPart_ne_quote (h : isNumberPart c = true) : c ≠ '"' := by
  rintro rfl
  cases h

theorem Spelling.even_quotes (h : Spelling t cs) : Even (cs.count '"') := by
  cases h with
  | @dollarPath cs hall =>
    have hnot : '"' ∉ '$' :: '.' :: cs := by
      intro hmem
      simp only [List.mem_cons, Char.reduceEq, false_or] at hmem
      exact isPathChar_ne_quote (List.all_eq_true.1 hall _ hmem) rfl
    rw [List.count_eq_zero_of_not_mem hnot]
    exact Even.zero
  | number hdecimal =>
    obtain ⟨c, text, rfl, hall, hfirst⟩ := hdecimal.cases
    have hnot : '"' ∉ c :: text := by
      intro hmem
      rcases List.mem_cons.1 hmem with rfl | hmem
      · rcases hfirst with hc | ⟨hc, -⟩ <;> cases hc
      · exact isNumberPart_ne_quote (List.all_eq_true.1 hall _ hmem) rfl
    rw [List.count_eq_zero_of_not_mem hnot]
    exact Even.zero
  | string hquote =>
    rw [List.count_cons_self, List.count_append, List.count_eq_zero_of_not_mem hquote]
    decide
  | symbol hsymbol =>
    cases t with
    | op op => cases op <;> cases hsymbol <;> decide
    | dollarPath raw => cases hsymbol
    | number raw => cases hsymbol
    | string raw => cases hsymbol
    | _ =>
      cases hsymbol
      decide

theorem Layout.even_quotes (h : Layout ts cs) : Even (cs.count '"') := by
  have hspace : ∀ {w : List Char}, w.all isJsSpace = true → w.count '"' = 0 := fun hw =>
    List.count_eq_zero_of_not_mem fun hmem => by cases List.all_eq_true.1 hw _ hmem
  induction h with
  | nil hw =>
    rw [hspace hw]
    exact Even.zero
  | cons hw ht _ ih =>
    rw [List.count_append, List.count_append, hspace hw, Nat.zero_add]
    exact ht.even_quotes.add ih

theorem Layout.isDecimal (h : Layout ts cs) {raw : String} (hraw : .number raw ∈ ts) : IsDecimal raw.toList := by
  induction h with
  | nil => cases hraw
  | cons hw ht _ ih =>
    rcases List.mem_cons.1 hraw with rfl | hraw
    · cases ht with
      | number hdecimal => rwa [String.toList_ofList]
      | symbol hsymbol => cases hsymbol
    · exact ih hraw

theorem twoCharToken_symbol {c d : Char} (h : twoCharToken c d = some t) : t.symbol = some [c, d] := by
  unfold twoCharToken at h
  split at h <;> cases h <;> rfl

theorem oneCharToken_symbol (h : oneCharToken c = some t) : t.symbol = some [c] := by
  unfold oneCharToken at h
  split at h <;> cases h <;> rfl

theorem keyword_symbol {kw : String} (h : keyword kw = some t) : t.symbol = some kw.toList := by
  unfold keyword at h
  split at h <;> cases h <;> decide

theorem symbolAt_inv (h : symbolAt input c cs = .ok (t, rest)) : ∃ text, c :: cs = text ++ rest ∧ Spelling t text := by
  unfold symbolAt at h
  split at h
  · rename_i t' htwo
    cases h
    cases cs with
    | nil => cases htwo
    | cons d cs => exact ⟨[c, d], rfl, .symbol (twoCharToken_symbol htwo)⟩
  · split at h
    · rename_i t' hone
      cases h
      exact ⟨[c], rfl, .symbol (oneCharToken_symbol hone)⟩
    · split_ifs at h
      dsimp only at h
      split at h
      · rename_i t' hkw
        cases h
        refine ⟨(c :: cs).takeWhile isLetterOrDigit, List.takeWhile_append_dropWhile.symm, .symbol ?_⟩
        rw [keyword_symbol hkw, String.toList_ofList]
      · cases h

/-- A token that was read is spelled by what was passed, or it is a number with several points, or a text that is
not closed. -/
theorem tokenAt_inv (h : tokenAt input c cs = .ok (t, rest)) :
    ∃ text, c :: cs = text ++ rest ∧ text ≠ [] ∧
      (Spelling t text ∨ (∃ raw, t = .number raw ∧ ¬ IsDecimal raw.toList) ∨ rest = [] ∧ text.count '"' = 1) := by
  unfold tokenAt at h
  split_ifs at h with hpath hquote hnumber
  · obtain ⟨rfl, hdot⟩ := hpath
    obtain ⟨cs, rfl⟩ := List.head?_eq_some_iff.1 hdot
    cases h
    have htake : ('$' :: '.' :: cs).takeWhile isPathChar = '$' :: '.' :: cs.takeWhile isPathChar := rfl
    refine ⟨('$' :: '.' :: cs).takeWhile isPathChar, List.takeWhile_append_dropWhile.symm, ?_, .inl ?_⟩
    · rw [htake]
      exact List.cons_ne_nil _ _
    · rw [htake]
      exact .dollarPath (List.all_takeWhile ..)
  · subst hquote
    cases h
    have hnot : '"' ∉ cs.takeWhile fun d => decide (d ≠ '"') := fun hmem => by
      simpa using List.mem_takeWhile_imp hmem
    have hsplit : cs = cs.takeWhile (fun d => decide (d ≠ '"')) ++ cs.dropWhile fun d => decide (d ≠ '"') :=
      List.takeWhile_append_dropWhile.symm
    cases hdrop : cs.dropWhile fun d => decide (d ≠ '"') with
    | nil =>
      rw [hdrop, List.append_nil] at hsplit
      refine ⟨'"' :: cs, by simp, List.cons_ne_nil _ _, .inr (.inr ⟨rfl, ?_⟩)⟩
      rw [List.count_cons_self, hsplit, List.count_eq_zero_of_not_mem hnot]
    | cons d after =>
      have hd : d = '"' := by
        have hnot := List.head?_dropWhile_not (fun d => decide (d ≠ '"')) cs
        rw [hdrop] at hnot
        simpa using hnot
      rw [hdrop, hd] at hsplit
      refine ⟨'"' :: (cs.takeWhile (fun d => decide (d ≠ '"')) ++ ['"']), ?_, List.cons_ne_nil _ _,
        .inl (.string hnot)⟩
      rw [List.cons_append, List.append_assoc, List.singleton_append, List.tail_cons, ← hsplit]
  · cases h
    refine ⟨c :: cs.takeWhile isNumberPart, ?_, List.cons_ne_nil _ _, ?_⟩
    · rw [List.cons_append, List.takeWhile_append_dropWhile]
    · by_cases hdecimal : IsDecimal (c :: cs.takeWhile isNumberPart)
      · exact .inl (.number hdecimal)
      · exact .inr (.inl ⟨_, rfl, by rwa [String.toList_ofList]⟩)
  · obtain ⟨text, heq, ht⟩ := symbolAt_inv h
    obtain ⟨d, text', rfl, -⟩ := ht.head
    exact ⟨d :: text', heq, List.cons_ne_nil _ _, .inl ht⟩

/-- **What the tokenizer accepts is a text of its tokens**, if the quotes are in pairs and the numbers decimal. -/
theorem layout_of_tokenizeFrom {fuel : ℕ} (h : tokenizeFrom input fuel cs = .ok ts) (hfuel : cs.length ≤ fuel)
    (hquotes : Even (cs.count '"')) (hnumbers : ∀ raw, .number raw ∈ ts → IsDecimal raw.toList) : Layout ts cs := by
  induction fuel generalizing cs ts with
  | zero =>
    cases List.length_eq_zero_iff.1 (Nat.le_zero.1 hfuel)
    cases h
    exact .nil rfl
  | succ fuel ih =>
    cases cs with
    | nil =>
      cases h
      exact .nil rfl
    | cons c cs =>
      rw [List.length_cons] at hfuel
      rw [tokenizeFrom] at h
      split_ifs at h with hspace
      · have hc : c ≠ '"' := by
          rintro rfl
          cases hspace
        rw [List.count_cons_of_ne hc] at hquotes
        exact (ih h (by omega) hquotes hnumbers).spacesBefore (by rw [List.all_cons, hspace]; rfl : [c].all isJsSpace = true)
      · cases ht : tokenAt input c cs with
        | error e => simp [ht] at h
        | ok value =>
          obtain ⟨t, rest⟩ := value
          rw [ht] at h
          dsimp only at h
          cases hrest : tokenizeFrom input fuel rest with
          | error e => simp [hrest, Except.map] at h
          | ok us =>
            rw [hrest] at h
            cases h
            obtain ⟨text, heq, hne, hcases⟩ := tokenAt_inv ht
            have hlen := congrArg List.length heq
            have hpos := List.length_pos_iff.2 hne
            rw [List.length_cons, List.length_append] at hlen
            rw [heq, List.count_append] at hquotes
            rw [heq]
            rcases hcases with hspell | ⟨raw, rfl, hnot⟩ | ⟨rfl, hcount⟩
            · have hquotes' : Even (rest.count '"') := (Nat.even_add.1 hquotes).1 hspell.even_quotes
              exact @Layout.cons [] _ _ _ _ rfl hspell (ih hrest (by omega) hquotes' fun raw hraw =>
                hnumbers raw (List.mem_cons_of_mem _ hraw))
            · exact absurd (hnumbers raw List.mem_cons_self) hnot
            · rw [hcount] at hquotes
              exact absurd hquotes (by decide)

end NpsSdk.Nop

/-!
## Which conditions are refused

A condition is accepted as soon as it begins with an expression: what follows is not looked at, a text may be
left open at its end, and a number may have any number of points.
-/

namespace NpsSdk.Nop

open NpsSdk.Lib

/-- The text is an expression of the grammar, written with any white space. -/
def InGrammar (s : String) : Prop := ∃ ts c, Layout ts s.toList ∧ Derives .or c ts

/-- The text begins with the expression `e`, of which the parser reads all it can, and `rest` follows. -/
structure Begins (s : String) (e rest : List Token) : Prop where
  tokens : tokenize (trim s) = .ok (e ++ rest)
  derives : ∃ c, Derives .or c e
  paths : PathsOk e
  ends : Ends e rest

/-- Nothing follows the expression, the quotes are in pairs and the numbers are decimal. -/
structure Complete (s : String) (e rest : List Token) : Prop where
  rest_nil : rest = []
  quotes : Even ((trim s).toList.count '"')
  numbers : ∀ raw, .number raw ∈ e → IsDecimal raw.toList

variable {s : String} {e rest : List Token} {context : Context}

/-- **What is accepted**, whatever the context. -/
theorem evaluateCondition_isOk (hs : isBlank s = false) (context : Context) :
    (∃ b, evaluateCondition s context = .ok b) ↔ ∃ e rest, Begins s e rest := by
  unfold evaluateCondition
  rw [hs, if_neg Bool.false_ne_true]
  cases htokens : tokenize (trim s) with
  | error err =>
    constructor
    · rintro ⟨b, h⟩
      cases h
    · rintro ⟨e, rest, h⟩
      have := h.tokens
      rw [htokens] at this
      cases this
  | ok tokens =>
    dsimp only
    constructor
    · rintro ⟨b, h⟩
      split at h
      · rename_i value rest heq
        obtain ⟨e, c, rfl, hd, hpaths, hends⟩ := (@parseOrExpr_isOk tokens rest context).1 ⟨value, heq⟩
        exact ⟨e, rest, htokens, ⟨c, hd⟩, hpaths, hends⟩
      all_goals cases h
    · rintro ⟨e, rest, h⟩
      obtain ⟨c, hd⟩ := h.derives
      have heq : tokens = e ++ rest := by
        have := h.tokens
        rw [htokens] at this
        exact Except.ok.inj this
      obtain ⟨b, hb⟩ := (@parseOrExpr_isOk tokens rest context).2 ⟨e, c, heq, hd, h.paths, h.ends⟩
      rw [hb]
      exact ⟨b, rfl⟩

theorem Begins.complete (h : Begins s e rest) (hs : InGrammar s) : Complete s e rest := by
  obtain ⟨ts, c, hlayout, hd⟩ := hs
  obtain ⟨c', hd'⟩ := h.derives
  have htokens : ts = e ++ rest := by
    have := h.tokens
    rw [tokenize_of_layout hlayout hd] at this
    exact Except.ok.inj this
  rw [htokens] at hd hlayout
  refine ⟨hd.rest_eq_nil hd' h.ends, (layout_trim_iff.2 hlayout).even_quotes, fun raw hraw => ?_⟩
  exact hlayout.isDecimal (List.mem_append_left _ hraw)

theorem Begins.inGrammar (h : Begins s e rest) (hc : Complete s e rest) : InGrammar s := by
  obtain ⟨c, hd⟩ := h.derives
  obtain ⟨rfl, hquotes, hnumbers⟩ := hc
  have htokens := h.tokens
  rw [List.append_nil] at htokens
  exact ⟨e, c, layout_trim_iff.1 (layout_of_tokenizeFrom htokens (Nat.le_refl _) hquotes hnumbers), hd⟩

/-- Every text that is not an expression of the grammar is refused, whatever the context. -/
def CheckedCompletely (s : String) : Prop :=
  ∀ context, ((∃ b, evaluateCondition s context = .ok b) → InGrammar s) ∧
    (¬ InGrammar s → ∃ err, evaluateCondition s context = .error err)

/-- **Syntax.**  A condition is checked completely just where nothing is wrong after the first expression. -/
theorem checkedCompletely_iff (hs : isBlank s = false) :
    CheckedCompletely s ↔ ∀ e rest, Begins s e rest → Complete s e rest := by
  constructor
  · intro h e rest hbegins
    exact hbegins.complete ((h JsMap.empty).1 ((evaluateCondition_isOk hs _).2 ⟨e, rest, hbegins⟩))
  · intro h context
    have haccepted : (∃ b, evaluateCondition s context = .ok b) → InGrammar s := fun hb => by
      obtain ⟨e, rest, hbegins⟩ := (evaluateCondition_isOk hs context).1 hb
      exact hbegins.inGrammar (h e rest hbegins)
    refine ⟨haccepted, fun hnot => ?_⟩
    cases hv : evaluateCondition s context with
    | ok b => exact absurd (haccepted ⟨b, hv⟩) hnot
    | error err => exact ⟨err, rfl⟩

theorem true_checkedCompletely : CheckedCompletely "true" := by
  refine (checkedCompletely_iff (by decide)).2 fun e rest h => ?_
  have htokens : tokenize (trim "true") = .ok [.true] := by decide
  have heq := h.tokens
  rw [htokens, Except.ok.injEq] at heq
  obtain ⟨c, hd⟩ := h.derives
  obtain ⟨t, e, rfl⟩ := List.exists_cons_of_ne_nil hd.ne_nil
  obtain ⟨rfl, hnil⟩ := List.cons.inj heq
  obtain ⟨rfl, rfl⟩ := List.append_eq_nil_iff.1 hnil.symm
  exact ⟨rfl, by decide, fun raw hraw => by cases List.mem_singleton.1 hraw⟩

/-- A bracket that was never opened is passed over. -/
theorem bracket_not_checked : isBlank "true)" = false ∧ ¬ CheckedCompletely "true)" := by
  refine ⟨by decide, fun h => ?_⟩
  have haccepted : evaluateCondition "true)" JsMap.empty = .ok true := by decide
  have htokens : tokenize (trim "true)") = .ok [.true, .rParen] := by decide
  have hpaths : PathsOk [.true] := fun raw hraw => by cases List.mem_singleton.1 hraw
  have hends : Ends [.true] [.rParen] := ⟨⟨nofun, nofun⟩, nofun⟩
  have hbegins : Begins "true)" [.true] [.rParen] :=
    ⟨htokens, ⟨_, .ofAnd (.ofNot (.literal true))⟩, hpaths, hends⟩
  have := (hbegins.complete ((h JsMap.empty).1 ⟨true, haccepted⟩)).rest_nil
  cases this

end NpsSdk.Nop
