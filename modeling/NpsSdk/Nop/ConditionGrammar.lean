import NpsSdk.Nop.ConditionEvaluator

/-!
# The grammar of conditions

Expression trees, and the token sequences that spell them: `!` binds tighter than `&&`, and `&&` tighter than
`||`.  The parser reads what the grammar derives, and it reads nothing else, up to where it stops.
-/

namespace NpsSdk.Nop

open NpsSdk.Lib

/-! ### Trees -/

/-- An operand: a value that is not a keyword. -/
inductive Operand
  | path (raw : String)
  | number (raw : String)
  | string (raw : String)
  | null

/-- The right operand of a comparison: any value. -/
inductive RightOperand
  | operand (o : Operand)
  | bool (b : Bool)

inductive Cond
  | literal (b : Bool)
  | operand (o : Operand)
  | comparison (o : Operand) (op : ComparisonOp) (v : RightOperand)
  | not (c : Cond)
  | and (a b : Cond)
  | or (a b : Cond)

def Operand.token : Operand → Token
  | .path raw => .dollarPath raw
  | .number raw => .number raw
  | .string raw => .string raw
  | .null => .null

def boolToken : Bool → Token
  | true => .true
  | false => .false

def RightOperand.token : RightOperand → Token
  | .operand o => o.token
  | .bool b => boolToken b

/-- The levels of the grammar. -/
inductive Level
  | or | and | not

/-- The token sequences that spell a tree. -/
inductive Derives : Level → Cond → List Token → Prop
  | literal (b : Bool) : Derives .not (.literal b) [boolToken b]
  | operand (o : Operand) : Derives .not (.operand o) [o.token]
  | comparison (o : Operand) (op : ComparisonOp) (v : RightOperand) :
    Derives .not (.comparison o op v) [o.token, .op op, v.token]
  | parens {c : Cond} {ts : List Token} (h : Derives .or c ts) : Derives .not c (.lParen :: (ts ++ [.rParen]))
  | not {c : Cond} {ts : List Token} (h : Derives .not c ts) : Derives .not (.not c) (.not :: ts)
  | ofNot {c : Cond} {ts : List Token} (h : Derives .not c ts) : Derives .and c ts
  | and {a b : Cond} {ta tb : List Token} (ha : Derives .and a ta) (hb : Derives .and b tb) :
    Derives .and (.and a b) (ta ++ .and :: tb)
  | ofAnd {c : Cond} {ts : List Token} (h : Derives .and c ts) : Derives .or c ts
  | or {a b : Cond} {ta tb : List Token} (ha : Derives .or a ta) (hb : Derives .or b tb) :
    Derives .or (.or a b) (ta ++ .or :: tb)

variable {level : Level} {c : Cond} {ts e rest : List Token} {context : Context}

theorem Derives.ne_nil (h : Derives level c ts) : ts ≠ [] := by
  induction h with
  | ofNot _ ih => exact ih
  | ofAnd _ ih => exact ih
  | and | or => simp
  | _ => exact List.cons_ne_nil _ _

/-! ### Where an expression ends -/

def Token.isOperand : Token → Bool
  | .dollarPath _ | .number _ | .string _ | .null => .true
  | _ => .false

def Token.isComparison : Token → Bool
  | .op _ => .true
  | _ => .false

/-- Does an expression end with an operand that is not compared with anything? -/
def bareEnd (ts : List Token) : Bool :=
  match ts.reverse with
  | [] => false
  | [t] => t.isOperand
  | t :: u :: _ => t.isOperand && !u.isComparison

/-- What follows is not read as the rest of a comparison. -/
def EndsNot (e rest : List Token) : Prop :=
  bareEnd e = true → ∀ t, rest.head? = some t → t.isComparison = false

/-- What follows is not read as the rest of a conjunction. -/
structure EndsAnd (e rest : List Token) : Prop where
  comparison : EndsNot e rest
  head : rest.head? ≠ some .and

/-- What follows is not read as the rest of the expression. -/
structure Ends (e rest : List Token) : Prop extends EndsAnd e rest where
  head_or : rest.head? ≠ some .or

variable {t : Token}

theorem bareEnd_append (ht : t.isComparison = false) (hne : ts ≠ []) (e : List Token) :
    bareEnd (e ++ t :: ts) = bareEnd ts := by
  obtain ⟨init, last, rfl⟩ := (List.eq_nil_or_concat' ts).resolve_left hne
  rcases List.eq_nil_or_concat' init with rfl | ⟨init, u, rfl⟩
  · simp [bareEnd, ht]
  · simp [bareEnd]

theorem bareEnd_cons (ht : t.isComparison = false) (hne : ts ≠ []) : bareEnd (t :: ts) = bareEnd ts :=
  bareEnd_append ht hne []

theorem endsNot_of_head (ht : t.isComparison = false) : EndsNot e (t :: rest) := by
  rintro - t' heq
  cases heq
  exact ht

theorem Ends.nil : Ends e [] where
  comparison := by
    rintro - t ⟨⟩
  head := nofun
  head_or := nofun

/-! ### Values -/

/-- The paths of a sequence of tokens are accepted. -/
def PathsOk (ts : List Token) : Prop := ∀ raw, Token.dollarPath raw ∈ ts → pathError raw = none

theorem PathsOk.left (h : PathsOk (ts ++ rest)) : PathsOk ts := fun raw hraw => h raw (List.mem_append_left _ hraw)

theorem PathsOk.right (h : PathsOk (ts ++ rest)) : PathsOk rest := fun raw hraw =>
  h raw (List.mem_append_right _ hraw)

theorem PathsOk.tail (h : PathsOk (t :: ts)) : PathsOk ts := fun raw hraw =>
  h raw (List.mem_cons_of_mem _ hraw)

theorem PathsOk.append (h : PathsOk ts) (h' : PathsOk rest) : PathsOk (ts ++ rest) := fun raw hraw =>
  (List.mem_append.1 hraw).elim (h raw) (h' raw)

theorem PathsOk.cons (h : PathsOk ts) (ht : t.isOperand = false) : PathsOk (t :: ts) := by
  intro raw hraw
  rcases List.mem_cons.1 hraw with rfl | hraw
  · cases ht
  · exact h raw hraw

def Operand.value (context : Context) : Operand → CondValue
  | .path raw => .ofResolved (pathValue raw context)
  | .number raw => .number (stringToNumber raw)
  | .string raw => .string raw
  | .null => .null

def RightOperand.value (context : Context) : RightOperand → CondValue
  | .operand o => o.value context
  | .bool b => .bool b

/-- What the parser makes of a tree. -/
def Cond.eval (context : Context) : Cond → Bool
  | .literal b => b
  | .operand o => (o.value context).asTruthy
  | .comparison o op v => (o.value context).compare op (v.value context)
  | .not c => !c.eval context
  | .and a b => a.eval context && b.eval context
  | .or a b => a.eval context || b.eval context

variable {o : Operand}

theorem parseValue_operand (h : PathsOk [o.token]) :
    parseValue context (o.token :: rest) = .ok (o.value context, rest) := by
  cases o with
  | path raw =>
    have hnone := h raw List.mem_cons_self
    simp [Operand.token, parseValue, resolvePath, hnone, Operand.value]
  | number raw => rfl
  | string raw => rfl
  | null => rfl

theorem parseValue_right {v : RightOperand} (h : PathsOk [v.token]) :
    parseValue context (v.token :: rest) = .ok (v.value context, rest) := by
  cases v with
  | operand o => exact parseValue_operand h
  | bool b => cases b <;> rfl

theorem Operand.isOperand_token (o : Operand) : o.token.isOperand = true := by cases o <;> rfl

theorem parseComparison_operand (o : Operand) (rest : List Token) (fuel : ℕ) :
    parseComparison context (fuel + 1) (o.token :: rest) =
      match parseValue context (o.token :: rest) with
      | .error e => .error e
      | .ok (lhs, .op op :: rest) =>
        match parseValue context rest with
        | .error e => .error e
        | .ok (rhs, rest) => .ok (lhs.compare op rhs, rest)
      | .ok (lhs, rest) => .ok (lhs.asTruthy, rest) := by
  cases o <;> rfl

theorem parseNotExpr_operand (o : Operand) (rest : List Token) (fuel : ℕ) :
    parseNotExpr context (fuel + 1) (o.token :: rest) = parseComparison context fuel (o.token :: rest) := by
  cases o <;> rfl

theorem parseAndTail_stop {left : Bool} {fuel : ℕ} (h : rest.head? ≠ some .and) :
    parseAndTail context (fuel + 1) left rest = .ok (left, rest) := by
  unfold parseAndTail
  split
  · contradiction
  · exact absurd rfl h
  · rfl

theorem parseOrTail_stop {left : Bool} {fuel : ℕ} (h : rest.head? ≠ some .or) :
    parseOrTail context (fuel + 1) left rest = .ok (left, rest) := by
  unfold parseOrTail
  split
  · contradiction
  · exact absurd rfl h
  · rfl

/-! ### What is derived is read -/

/-- What the parser does with a sequence of tokens at a level.  Where a loop follows, it goes on with what is
left, and ends as the loop ends. -/
def ReadsAt (context : Context) : Level → Cond → List Token → Prop
  | .not, c, ts => ∀ rest n, EndsNot ts rest → 5 * ts.length ≤ n →
    parseNotExpr context n (ts ++ rest) = .ok (c.eval context, rest)
  | .and, c, ts => ∀ rest bound r, EndsNot ts rest →
    ((∀ n, bound ≤ n → parseAndTail context n (c.eval context) rest = r) →
      ∀ n, bound + 5 * ts.length + 1 ≤ n → parseAndExpr context n (ts ++ rest) = r) ∧
    ∀ left, (∀ n, bound ≤ n → parseAndTail context n (left && c.eval context) rest = r) →
      ∀ n, bound + 5 * ts.length + 1 ≤ n → parseAndTail context n left (.and :: (ts ++ rest)) = r
  | .or, c, ts => ∀ rest bound r, EndsAnd ts rest →
    ((∀ n, bound ≤ n → parseOrTail context n (c.eval context) rest = r) →
      ∀ n, bound + 5 * ts.length + 3 ≤ n → parseOrExpr context n (ts ++ rest) = r) ∧
    ∀ left, (∀ n, bound ≤ n → parseOrTail context n (left || c.eval context) rest = r) →
      ∀ n, bound + 5 * ts.length + 3 ≤ n → parseOrTail context n left (.or :: (ts ++ rest)) = r

theorem ReadsAt.ofNot (h : ReadsAt context .not c ts) : ReadsAt context .and c ts := by
  intro rest bound r hends
  constructor
  · intro hr n hn
    obtain ⟨n, rfl⟩ : ∃ m, n = m + 1 := ⟨n - 1, by omega⟩
    rw [parseAndExpr, h rest n hends (by omega)]
    exact hr n (by omega)
  · intro left hr n hn
    obtain ⟨n, rfl⟩ : ∃ m, n = m + 1 := ⟨n - 1, by omega⟩
    rw [parseAndTail, h rest n hends (by omega)]
    exact hr n (by omega)

theorem ReadsAt.ofAnd (h : ReadsAt context .and c ts) : ReadsAt context .or c ts := by
  intro rest bound r hends
  have hread : ∀ n, 5 * ts.length + 2 ≤ n → parseAndExpr context n (ts ++ rest) = .ok (c.eval context, rest) := by
    intro n hn
    refine (h rest 1 _ hends.comparison).1 (fun m hm => ?_) n (by omega)
    obtain ⟨m, rfl⟩ : ∃ k, m = k + 1 := ⟨m - 1, by omega⟩
    exact parseAndTail_stop hends.head
  constructor
  · intro hr n hn
    obtain ⟨n, rfl⟩ : ∃ m, n = m + 1 := ⟨n - 1, by omega⟩
    rw [parseOrExpr, hread n (by omega)]
    exact hr n (by omega)
  · intro left hr n hn
    obtain ⟨n, rfl⟩ : ∃ m, n = m + 1 := ⟨n - 1, by omega⟩
    rw [parseOrTail, hread n (by omega)]
    exact hr n (by omega)

theorem ReadsAt.and {a b : Cond} {ta tb : List Token} (ha : ReadsAt context .and a ta)
    (hb : ReadsAt context .and b tb) (hne : tb ≠ []) : ReadsAt context .and (.and a b) (ta ++ .and :: tb) := by
  intro rest bound r hends
  have hendsa : EndsNot ta (.and :: (tb ++ rest)) := endsNot_of_head rfl
  have hendsb : EndsNot tb rest := fun hbare => hends (by rwa [bareEnd_append rfl hne])
  have hlen : (ta ++ Token.and :: tb).length = ta.length + tb.length + 1 := by simp [Nat.add_assoc]
  rw [List.append_assoc, List.cons_append, hlen]
  constructor
  · intro hr n hn
    refine (ha _ (bound + 5 * tb.length + 1) r hendsa).1 ?_ n (by omega)
    exact (hb rest bound r hendsb).2 _ hr
  · intro left hr n hn
    refine (ha _ (bound + 5 * tb.length + 1) r hendsa).2 left ?_ n (by omega)
    exact (hb rest bound r hendsb).2 _ (by simpa only [Bool.and_assoc, Cond.eval] using hr)

theorem ReadsAt.or {a b : Cond} {ta tb : List Token} (ha : ReadsAt context .or a ta)
    (hb : ReadsAt context .or b tb) (hne : tb ≠ []) : ReadsAt context .or (.or a b) (ta ++ .or :: tb) := by
  intro rest bound r hends
  have hendsa : EndsAnd ta (.or :: (tb ++ rest)) := ⟨endsNot_of_head rfl, by simp⟩
  have hendsb : EndsAnd tb rest :=
    ⟨fun hbare => hends.comparison (by rwa [bareEnd_append rfl hne]), hends.head⟩
  have hlen : (ta ++ Token.or :: tb).length = ta.length + tb.length + 1 := by simp [Nat.add_assoc]
  rw [List.append_assoc, List.cons_append, hlen]
  constructor
  · intro hr n hn
    refine (ha _ (bound + 5 * tb.length + 3) r hendsa).1 ?_ n (by omega)
    exact (hb rest bound r hendsb).2 _ hr
  · intro left hr n hn
    refine (ha _ (bound + 5 * tb.length + 3) r hendsa).2 left ?_ n (by omega)
    exact (hb rest bound r hendsb).2 _ (by simpa only [Bool.or_assoc, Cond.eval] using hr)

theorem ReadsAt.not (h : ReadsAt context .not c ts) (hne : ts ≠ []) : ReadsAt context .not (.not c) (.not :: ts) := by
  intro rest n hends hn
  rw [List.length_cons] at hn
  obtain ⟨n, rfl⟩ : ∃ m, n = m + 1 := ⟨n - 1, by omega⟩
  have hinner : EndsNot ts rest := fun hbare => hends (by rwa [bareEnd_cons rfl hne])
  rw [List.cons_append, parseNotExpr, h rest n hinner (by omega)]
  rfl

theorem ReadsAt.parens (h : ReadsAt context .or c ts) : ReadsAt context .not c (.lParen :: (ts ++ [.rParen])) := by
  intro rest n hends hn
  simp only [List.length_cons, List.length_append, List.length_nil] at hn
  obtain ⟨n, rfl⟩ : ∃ m, n = m + 2 := ⟨n - 2, by omega⟩
  have hread : parseOrExpr context n (ts ++ .rParen :: rest) = .ok (c.eval context, .rParen :: rest) := by
    refine (h _ 1 _ ⟨endsNot_of_head rfl, by simp⟩).1 (fun m hm => ?_) n (by omega)
    obtain ⟨m, rfl⟩ : ∃ k, m = k + 1 := ⟨m - 1, by omega⟩
    exact parseOrTail_stop (by simp)
  rw [List.cons_append, List.append_assoc, List.singleton_append]
  simp only [parseNotExpr, parseComparison, hread]

theorem ReadsAt.operand (hpaths : PathsOk [o.token]) : ReadsAt context .not (.operand o) [o.token] := by
  intro rest n hends hn
  obtain ⟨n, rfl⟩ : ∃ m, n = m + 2 := ⟨n - 2, by simp at hn; omega⟩
  rw [List.singleton_append, parseNotExpr_operand, parseComparison_operand, parseValue_operand hpaths]
  split
  · rename_i heq
    cases heq
  · rename_i heq
    obtain ⟨rfl, rfl⟩ : _ ∧ rest = _ := by simpa using heq
    have hhead := hends (by simpa [bareEnd] using o.isOperand_token) _ rfl
    cases hhead
  · rename_i heq
    obtain ⟨rfl, rfl⟩ : _ ∧ rest = _ := by simpa using heq
    rfl

theorem ReadsAt.comparison {op : ComparisonOp} {v : RightOperand} (hpaths : PathsOk [o.token, .op op, v.token]) :
    ReadsAt context .not (.comparison o op v) [o.token, .op op, v.token] := by
  intro rest n hends hn
  obtain ⟨n, rfl⟩ : ∃ m, n = m + 2 := ⟨n - 2, by simp at hn; omega⟩
  have hleft : PathsOk [o.token] := fun raw hraw => hpaths raw (by simp at hraw; simp [hraw])
  have hright : PathsOk [v.token] := fun raw hraw => hpaths raw (by simp at hraw; simp [hraw])
  show parseNotExpr context (n + 2) (o.token :: .op op :: v.token :: rest) = _
  rw [parseNotExpr_operand, parseComparison_operand, parseValue_operand hleft]
  dsimp only
  rw [parseValue_right hright]
  rfl

/-- **What the grammar derives is read**, with the value of its tree. -/
theorem Derives.reads (h : Derives level c ts) (hpaths : PathsOk ts) : ReadsAt context level c ts := by
  induction h with
  | literal b =>
    intro rest n _ hn
    obtain ⟨n, rfl⟩ : ∃ m, n = m + 2 := ⟨n - 2, by simp at hn; omega⟩
    cases b <;> rfl
  | operand o => exact .operand hpaths
  | comparison o op v => exact .comparison hpaths
  | parens _ ih => exact (ih hpaths.tail.left).parens
  | not h ih => exact (ih hpaths.tail).not h.ne_nil
  | ofNot _ ih => exact (ih hpaths).ofNot
  | and _ hb iha ihb => exact (iha hpaths.left).and (ihb hpaths.right.tail) hb.ne_nil
  | ofAnd _ ih => exact (ih hpaths).ofAnd
  | or _ hb iha ihb => exact (iha hpaths.left).or (ihb hpaths.right.tail) hb.ne_nil

theorem Derives.parse (h : Derives .or c e) (hpaths : PathsOk e) (hends : Ends e rest) {n : ℕ}
    (hn : 5 * e.length + 4 ≤ n) : parseOrExpr context n (e ++ rest) = .ok (c.eval context, rest) := by
  refine (h.reads hpaths rest 1 _ hends.toEndsAnd).1 (fun m hm => ?_) n (by omega)
  obtain ⟨m, rfl⟩ : ∃ k, m = k + 1 := ⟨m - 1, by omega⟩
  exact parseOrTail_stop hends.head_or

/-! ### What is read is derived -/

/-- Some of the tokens go on from `e₀` as an expression of the level, and `rest` is left. -/
def Taken (level : Level) (ends : List Token → List Token → Prop) (e₀ tokens rest : List Token) : Prop :=
  ∃ e c, tokens = e ++ rest ∧ Derives level c (e₀ ++ e) ∧ PathsOk (e₀ ++ e) ∧ ends (e₀ ++ e) rest

theorem parseValue_inv {v : CondValue} (h : parseValue context ts = .ok (v, rest)) :
    ∃ w : RightOperand, ts = w.token :: rest ∧ PathsOk [w.token] := by
  unfold parseValue at h
  split at h
  · rename_i raw tokens
    have hok : pathError raw = none := by
      rw [← resolvePath_isOk raw context]
      cases hr : resolvePath raw context with
      | ok w => exact ⟨w, rfl⟩
      | error e => simp [hr] at h
    cases hr : resolvePath raw context with
    | error e => simp [hr] at h
    | ok w =>
      rw [hr] at h
      cases h
      refine ⟨.operand (.path raw), rfl, fun raw' hraw => ?_⟩
      cases List.mem_singleton.1 hraw
      exact hok
  · rename_i raw tokens
    cases h
    exact ⟨.operand (.number raw), rfl, fun raw' hraw => by cases List.mem_singleton.1 hraw⟩
  · rename_i raw tokens
    cases h
    exact ⟨.operand (.string raw), rfl, fun raw' hraw => by cases List.mem_singleton.1 hraw⟩
  · cases h
    exact ⟨.bool true, rfl, fun raw' hraw => by cases List.mem_singleton.1 hraw⟩
  · cases h
    exact ⟨.bool false, rfl, fun raw' hraw => by cases List.mem_singleton.1 hraw⟩
  · cases h
    exact ⟨.operand .null, rfl, fun raw' hraw => by cases List.mem_singleton.1 hraw⟩
  · cases h

/-- An operand, and what it is compared with. -/
theorem taken_operand {b : Bool} {n : ℕ} (h : parseComparison context (n + 1) (o.token :: ts) = .ok (b, rest)) :
    Taken .not EndsNot [] (o.token :: ts) rest := by
  rw [parseComparison_operand] at h
  cases hv : parseValue context (o.token :: ts) with
  | error e => simp [hv] at h
  | ok value =>
    obtain ⟨lhs, left⟩ := value
    obtain ⟨w, heq, hpaths⟩ := parseValue_inv hv
    obtain ⟨hw, rfl⟩ := List.cons.inj heq
    rw [← hw] at hpaths
    rw [hv] at h
    split at h
    · rename_i heq'
      cases heq'
    · rename_i op tokens heq'
      obtain ⟨rfl, rfl⟩ : _ ∧ ts = _ := by simpa using heq'
      cases hr : parseValue context tokens with
      | error e => simp [hr] at h
      | ok value =>
        obtain ⟨rhs, left⟩ := value
        obtain ⟨w', rfl, hpaths'⟩ := parseValue_inv hr
        rw [hr] at h
        obtain ⟨-, rfl⟩ : _ ∧ left = rest := by simpa using h
        refine ⟨[o.token, .op op, w'.token], _, rfl, .comparison o op w', ?_, fun hbare => ?_⟩
        · exact hpaths.append (PathsOk.cons hpaths' rfl)
        · cases hb : w'.token.isOperand <;> simp [bareEnd, hb, Token.isComparison] at hbare
    · rename_i hnot heq'
      obtain ⟨rfl, rfl⟩ : _ ∧ ts = _ := by simpa using heq'
      obtain ⟨-, rfl⟩ : _ ∧ ts = rest := by simpa using h
      refine ⟨[o.token], _, rfl, .operand o, hpaths, fun _ t ht => ?_⟩
      cases t with
      | op op =>
        obtain ⟨tokens, rfl⟩ : ∃ tokens, ts = .op op :: tokens := by
          cases ts with
          | nil => cases ht
          | cons u us =>
            cases ht
            exact ⟨us, rfl⟩
        exact absurd rfl (hnot op tokens)
      | _ => rfl

theorem parseComparison_head {n : ℕ} {b : Bool} (h : parseComparison context (n + 1) ts = .ok (b, rest)) :
    (∃ tokens, ts = .lParen :: tokens) ∨ (∃ v tokens, ts = boolToken v :: tokens) ∨
      ∃ (o : Operand) (tokens : List Token), ts = o.token :: tokens := by
  cases ts with
  | nil => cases h
  | cons t tokens =>
    cases t with
    | lParen => exact .inl ⟨tokens, rfl⟩
    | true => exact .inr (.inl ⟨true, tokens, rfl⟩)
    | false => exact .inr (.inl ⟨false, tokens, rfl⟩)
    | dollarPath raw => exact .inr (.inr ⟨.path raw, tokens, rfl⟩)
    | number raw => exact .inr (.inr ⟨.number raw, tokens, rfl⟩)
    | string raw => exact .inr (.inr ⟨.string raw, tokens, rfl⟩)
    | null => exact .inr (.inr ⟨.null, tokens, rfl⟩)
    | _ => cases h

/-- What the six functions of the parser take, where they have `n` turns. -/
structure TakesWithin (context : Context) (n : ℕ) : Prop where
  notExpr : ∀ ts b rest, parseNotExpr context n ts = .ok (b, rest) → Taken .not EndsNot [] ts rest
  comparison : ∀ ts b rest, parseComparison context n ts = .ok (b, rest) → Taken .not EndsNot [] ts rest
  andExpr : ∀ ts b rest, parseAndExpr context n ts = .ok (b, rest) → Taken .and EndsAnd [] ts rest
  andTail : ∀ left ts b rest, parseAndTail context n left ts = .ok (b, rest) → ∀ e₀ c₀, Derives .and c₀ e₀ →
    PathsOk e₀ → EndsNot e₀ ts → Taken .and EndsAnd e₀ ts rest
  orExpr : ∀ ts b rest, parseOrExpr context n ts = .ok (b, rest) → Taken .or Ends [] ts rest
  orTail : ∀ left ts b rest, parseOrTail context n left ts = .ok (b, rest) → ∀ e₀ c₀, Derives .or c₀ e₀ →
    PathsOk e₀ → EndsAnd e₀ ts → Taken .or Ends e₀ ts rest

theorem TakesWithin.zero : TakesWithin context 0 := by
  constructor <;> intros <;> contradiction

variable {n : ℕ} {b left : Bool}

theorem TakesWithin.comparison_succ (ih : TakesWithin context n)
    (h : parseComparison context (n + 1) ts = .ok (b, rest)) : Taken .not EndsNot [] ts rest := by
  rcases parseComparison_head h with ⟨tokens, rfl⟩ | ⟨v, tokens, rfl⟩ | ⟨o, tokens, rfl⟩
  · rw [parseComparison] at h
    cases hp : parseOrExpr context n tokens with
    | error e => simp [hp] at h
    | ok value =>
      obtain ⟨inner, after⟩ := value
      obtain ⟨e, c, rfl, hd, hpaths, -⟩ := ih.orExpr _ _ _ hp
      rw [List.nil_append] at hd hpaths
      rw [hp] at h
      split at h
      · rename_i heq
        cases heq
      · rename_i heq
        obtain ⟨-, rfl⟩ : _ ∧ after = _ := by simpa using heq
        cases h
        refine ⟨Token.lParen :: (e ++ [Token.rParen]), c, by simp, Derives.parens hd, PathsOk.cons (hpaths.append ?_) rfl, ?_⟩
        · intro raw hraw
          cases List.mem_singleton.1 hraw
        · intro hbare
          cases hinit : e.reverse <;> simp [bareEnd, hinit, Token.isOperand] at hbare
      · cases h
  · have hread : parseComparison context (n + 1) (boolToken v :: tokens) = .ok (v, tokens) := by cases v <;> rfl
    rw [hread] at h
    cases h
    refine ⟨[boolToken b], _, rfl, .literal b, fun raw hraw => ?_, fun hbare => ?_⟩
    · cases b <;> cases List.mem_singleton.1 hraw
    · cases b <;> cases hbare
  · exact taken_operand h

theorem TakesWithin.notExpr_succ (ih : TakesWithin context n)
    (h : parseNotExpr context (n + 1) ts = .ok (b, rest)) : Taken .not EndsNot [] ts rest := by
  unfold parseNotExpr at h
  split at h
  · contradiction
  · rename_i tokens heq
    cases heq
    cases hp : parseNotExpr context n tokens with
    | error e => simp [hp] at h
    | ok value =>
      obtain ⟨inner, after⟩ := value
      rw [hp] at h
      cases h
      obtain ⟨e, c, rfl, hd, hpaths, hends⟩ := ih.notExpr _ _ _ hp
      refine ⟨.not :: e, _, rfl, .not hd, PathsOk.cons hpaths rfl, fun hbare => ?_⟩
      rw [List.nil_append] at hd hends hbare
      rw [bareEnd_cons rfl hd.ne_nil] at hbare
      exact hends hbare
  · rename_i heq _
    cases heq
    exact ih.comparison _ _ _ h

theorem TakesWithin.andExpr_succ (ih : TakesWithin context n)
    (h : parseAndExpr context (n + 1) ts = .ok (b, rest)) : Taken .and EndsAnd [] ts rest := by
  rw [parseAndExpr] at h
  cases hp : parseNotExpr context n ts with
  | error e => simp [hp] at h
  | ok value =>
    obtain ⟨inner, after⟩ := value
    rw [hp] at h
    obtain ⟨e₀, c₀, rfl, hd, hpaths, hends⟩ := ih.notExpr _ _ _ hp
    obtain ⟨e, c, rfl, hd', hpaths', hends'⟩ := ih.andTail _ _ _ _ h _ _ hd.ofNot hpaths hends
    exact ⟨e₀ ++ e, c, by simp, hd', hpaths', hends'⟩

theorem TakesWithin.orExpr_succ (ih : TakesWithin context n)
    (h : parseOrExpr context (n + 1) ts = .ok (b, rest)) : Taken .or Ends [] ts rest := by
  rw [parseOrExpr] at h
  cases hp : parseAndExpr context n ts with
  | error e => simp [hp] at h
  | ok value =>
    obtain ⟨inner, after⟩ := value
    rw [hp] at h
    obtain ⟨e₀, c₀, rfl, hd, hpaths, hends⟩ := ih.andExpr _ _ _ hp
    obtain ⟨e, c, rfl, hd', hpaths', hends'⟩ := ih.orTail _ _ _ _ h _ _ hd.ofAnd hpaths hends
    exact ⟨e₀ ++ e, c, by simp, hd', hpaths', hends'⟩

theorem TakesWithin.andTail_succ (ih : TakesWithin context n)
    (h : parseAndTail context (n + 1) left ts = .ok (b, rest)) {e₀ : List Token} {c₀ : Cond}
    (hd : Derives .and c₀ e₀) (hpaths : PathsOk e₀) (hends : EndsNot e₀ ts) : Taken .and EndsAnd e₀ ts rest := by
  by_cases hhead : ts.head? = some .and
  · obtain ⟨tokens, rfl⟩ := List.head?_eq_some_iff.1 hhead
    rw [parseAndTail] at h
    cases hp : parseNotExpr context n tokens with
    | error e => simp [hp] at h
    | ok value =>
      obtain ⟨inner, after⟩ := value
      rw [hp] at h
      obtain ⟨e₁, c₁, rfl, hd₁, hpaths₁, hends₁⟩ := ih.notExpr _ _ _ hp
      rw [List.nil_append] at hd₁ hpaths₁ hends₁
      have hbare := bareEnd_append (t := .and) rfl hd₁.ne_nil e₀
      obtain ⟨e, c, rfl, hd', hpaths', hends'⟩ := ih.andTail _ _ _ _ h _ _ (hd.and hd₁.ofNot)
        (hpaths.append (PathsOk.cons hpaths₁ rfl)) (by rwa [EndsNot, hbare])
      rw [List.append_assoc, List.cons_append] at hd' hpaths' hends'
      exact ⟨.and :: (e₁ ++ e), c, by simp, hd', hpaths', hends'⟩
  · rw [parseAndTail_stop hhead] at h
    cases h
    exact ⟨[], c₀, rfl, by simpa using hd, by simpa using hpaths, by simpa using ⟨hends, hhead⟩⟩

theorem TakesWithin.orTail_succ (ih : TakesWithin context n)
    (h : parseOrTail context (n + 1) left ts = .ok (b, rest)) {e₀ : List Token} {c₀ : Cond}
    (hd : Derives .or c₀ e₀) (hpaths : PathsOk e₀) (hends : EndsAnd e₀ ts) : Taken .or Ends e₀ ts rest := by
  by_cases hhead : ts.head? = some .or
  · obtain ⟨tokens, rfl⟩ := List.head?_eq_some_iff.1 hhead
    rw [parseOrTail] at h
    cases hp : parseAndExpr context n tokens with
    | error e => simp [hp] at h
    | ok value =>
      obtain ⟨inner, after⟩ := value
      rw [hp] at h
      obtain ⟨e₁, c₁, rfl, hd₁, hpaths₁, hends₁⟩ := ih.andExpr _ _ _ hp
      rw [List.nil_append] at hd₁ hpaths₁ hends₁
      have hbare := bareEnd_append (t := .or) rfl hd₁.ne_nil e₀
      obtain ⟨e, c, rfl, hd', hpaths', hends'⟩ := ih.orTail _ _ _ _ h _ _ (hd.or hd₁.ofAnd)
        (hpaths.append (PathsOk.cons hpaths₁ rfl)) ⟨by rw [EndsNot, hbare]; exact hends₁.comparison, hends₁.head⟩
      rw [List.append_assoc, List.cons_append] at hd' hpaths' hends'
      exact ⟨.or :: (e₁ ++ e), c, by simp, hd', hpaths', hends'⟩
  · rw [parseOrTail_stop hhead] at h
    cases h
    exact ⟨[], c₀, rfl, by simpa using hd, by simpa using hpaths, by simpa using ⟨hends, hhead⟩⟩

theorem takesWithin (context : Context) (n : ℕ) : TakesWithin context n := by
  induction n with
  | zero => exact .zero
  | succ n ih =>
    exact ⟨fun _ _ _ => ih.notExpr_succ, fun _ _ _ => ih.comparison_succ, fun _ _ _ => ih.andExpr_succ,
      fun _ _ _ _ h _ _ => ih.andTail_succ h, fun _ _ _ => ih.orExpr_succ,
      fun _ _ _ _ h _ _ => ih.orTail_succ h⟩

/-- **What the parser accepts**: tokens that begin with an expression, of which it has read all it can. -/
theorem parseOrExpr_isOk :
    (∃ b, parseOrExpr context (parserFuel ts) ts = .ok (b, rest)) ↔
      ∃ e c, ts = e ++ rest ∧ Derives .or c e ∧ PathsOk e ∧ Ends e rest := by
  constructor
  · rintro ⟨b, h⟩
    exact (takesWithin context _).orExpr _ _ _ h
  · rintro ⟨e, c, rfl, hd, hpaths, hends⟩
    refine ⟨c.eval context, hd.parse hpaths hends ?_⟩
    simp only [parserFuel, List.length_append]
    omega

/-! ### One way to read an expression -/

/-- A token without its path, so that nothing is resolved. -/
def Token.blank : Token → Token
  | .dollarPath _ => .null
  | t => t

theorem Operand.blank_token (o : Operand) : ∃ o' : Operand, o'.token = o.token.blank := by
  cases o with
  | path raw => exact ⟨.null, rfl⟩
  | number raw => exact ⟨.number raw, rfl⟩
  | string raw => exact ⟨.string raw, rfl⟩
  | null => exact ⟨.null, rfl⟩

theorem RightOperand.blank_token (v : RightOperand) : ∃ v' : RightOperand, v'.token = v.token.blank := by
  cases v with
  | operand o =>
    obtain ⟨o', ho⟩ := o.blank_token
    exact ⟨.operand o', ho⟩
  | bool b => exact ⟨.bool b, by cases b <;> rfl⟩

theorem Derives.blank (h : Derives level c ts) : ∃ c', Derives level c' (ts.map Token.blank) := by
  induction h with
  | literal b => exact ⟨.literal b, by cases b <;> exact .literal _⟩
  | operand o =>
    obtain ⟨o', ho⟩ := o.blank_token
    refine ⟨.operand o', ?_⟩
    rw [List.map_singleton, ← ho]
    exact .operand o'
  | comparison o op v =>
    obtain ⟨o', ho⟩ := o.blank_token
    obtain ⟨v', hv⟩ := v.blank_token
    refine ⟨.comparison o' op v', ?_⟩
    rw [List.map_cons, List.map_cons, List.map_singleton, ← ho, ← hv]
    exact .comparison o' op v'
  | parens _ ih =>
    obtain ⟨c', hd⟩ := ih
    refine ⟨c', ?_⟩
    rw [List.map_cons, List.map_append]
    exact .parens hd
  | not _ ih =>
    obtain ⟨c', hd⟩ := ih
    exact ⟨_, .not hd⟩
  | ofNot _ ih =>
    obtain ⟨c', hd⟩ := ih
    exact ⟨c', .ofNot hd⟩
  | and _ _ iha ihb =>
    obtain ⟨a, ha⟩ := iha
    obtain ⟨b, hb⟩ := ihb
    refine ⟨.and a b, ?_⟩
    rw [List.map_append, List.map_cons]
    exact .and ha hb
  | ofAnd _ ih =>
    obtain ⟨c', hd⟩ := ih
    exact ⟨c', .ofAnd hd⟩
  | or _ _ iha ihb =>
    obtain ⟨a, ha⟩ := iha
    obtain ⟨b, hb⟩ := ihb
    refine ⟨.or a b, ?_⟩
    rw [List.map_append, List.map_cons]
    exact .or ha hb

theorem PathsOk.blank (ts : List Token) : PathsOk (ts.map Token.blank) := by
  intro raw hraw
  obtain ⟨t, -, ht⟩ := List.mem_map.1 hraw
  cases t <;> cases ht

theorem bareEnd_blank (ts : List Token) : bareEnd (ts.map Token.blank) = bareEnd ts := by
  have hoperand : ∀ t : Token, t.blank.isOperand = t.isOperand := fun t => by cases t <;> rfl
  have hcomparison : ∀ t : Token, t.blank.isComparison = t.isComparison := fun t => by cases t <;> rfl
  unfold bareEnd
  rw [← List.map_reverse]
  rcases ts.reverse with _ | ⟨t, _ | ⟨u, us⟩⟩
  · rfl
  · exact hoperand t
  · simp [hoperand, hcomparison]

theorem Ends.blank (h : Ends e rest) : Ends (e.map Token.blank) (rest.map Token.blank) := by
  cases rest with
  | nil => exact .nil
  | cons t rest =>
    refine ⟨⟨fun hbare u hu => ?_, ?_⟩, ?_⟩
    · cases hu
      rw [bareEnd_blank] at hbare
      have ht := h.comparison hbare t rfl
      cases t <;> first | rfl | cases ht
    · have ht := h.head
      cases t <;> simp_all [Token.blank]
    · have ht := h.head_or
      cases t <;> simp_all [Token.blank]

/-- **An expression is read as a whole**: a part of it that is an expression itself is followed by more of it. -/
theorem Derives.rest_eq_nil {c' : Cond} (h : Derives .or c (e ++ rest)) (h' : Derives .or c' e)
    (hends : Ends e rest) : rest = [] := by
  obtain ⟨d, hd⟩ := h.blank
  obtain ⟨d', hd'⟩ := h'.blank
  rw [List.map_append] at hd
  have hpaths : PathsOk (e.map Token.blank ++ rest.map Token.blank) := by
    rw [← List.map_append]
    exact .blank _
  have hpart := @Derives.parse _ _ (rest.map Token.blank) JsMap.empty hd' (PathsOk.blank e) hends.blank
    (5 * (e.map Token.blank ++ rest.map Token.blank).length + 4) (by rw [List.length_append]; omega)
  have hwhole := @Derives.parse _ _ [] JsMap.empty hd hpaths .nil _ (Nat.le_refl _)
  rw [List.append_nil, hpart, Except.ok.injEq, Prod.mk.injEq] at hwhole
  exact List.map_eq_nil_iff.1 hwhole.2

end NpsSdk.Nop
