import NpsSdk.Nwp.Query.StandardSql

/-!
# Filters in SQL and in memory

The condition that a filter is translated to selects a row if and only if the filter matches the row in memory,
for every filter that keeps clear of the constructs that the two evaluators read differently.
-/

namespace NpsSdk.Nwp.Query

open NpsSdk.Lib NpsSdk.Lib.Sql NwpFilterTranslator

/-! ### Parameters that stay bound -/

/-- What a name is bound to; a database takes an unbound one for NULL. -/
def argument (p : SqlParameters) (name : String) : FilterValue := (JsMap.get p name).getD .null

/-- The parameters of a translation are those of `p`, which may have more. -/
def Binds (t : Translation) (p : SqlParameters) : Prop :=
  ∀ i < t.paramIndex, JsMap.get p (paramName i) = JsMap.get t.parameters (paramName i)

/-- A translation that goes on from another one. -/
structure Extends (t t' : Translation) : Prop where
  le : t.paramIndex ≤ t'.paramIndex
  binds : Binds t t'.parameters

theorem Extends.refl (t : Translation) : Extends t t := ⟨Nat.le_refl _, fun _ _ => rfl⟩

theorem Extends.bound {t t' : Translation} {p : SqlParameters} (h : Extends t t') (hp : Binds t' p) : Binds t p :=
  fun i hi => (hp i (Nat.lt_of_lt_of_le hi h.le)).trans (h.binds i hi)

theorem Extends.trans {t t' t'' : Translation} (h : Extends t t') (h' : Extends t' t'') : Extends t t'' :=
  ⟨h.le.trans h'.le, h.bound h'.binds⟩

theorem extends_bindAll (t : Translation) (vs : List FilterValue) : Extends t (bindAll t vs) := by
  induction vs generalizing t with
  | nil => exact Extends.refl t
  | cons v vs ih =>
    refine Extends.trans ⟨Nat.le_succ _, fun i hi => ?_⟩ (ih _)
    exact JsMap.get_set_ne _ _ fun h => Nat.ne_of_lt hi (paramName_injective h)

theorem argument_bindAll {t : Translation} {vs : List FilterValue} {p : SqlParameters} (h : Binds (bindAll t vs) p)
    {k : ℕ} {v : FilterValue} (hv : vs[k]? = some v) : argument p (paramName (t.paramIndex + k)) = v := by
  induction vs generalizing t k with
  | nil => cases hv
  | cons w vs ih =>
    cases k with
    | zero =>
      cases hv
      have hnext := (extends_bindAll ⟨t.paramIndex + 1, SqlParameters.add t.parameters (paramName t.paramIndex) v⟩
        vs).bound h t.paramIndex (Nat.lt_succ_self _)
      unfold argument
      rw [Nat.add_zero, hnext]
      exact congrArg (Option.getD · _) (JsMap.get_set_self _ _ _)
    | succ k =>
      have hrest := ih (t := ⟨t.paramIndex + 1, _⟩) h hv
      rwa [show t.paramIndex + (k + 1) = t.paramIndex + 1 + k by omega]

/-- A translation that keeps the parameters bound so far, and whose result satisfies `P` under its own. -/
def Yields {α : Type} (m : Translate α) (P : SqlParameters → α → Prop) : Prop :=
  ∀ t a t', m t = .ok (a, t') → Extends t t' ∧ ∀ p, Binds t' p → P p a

section Yields

variable {α β γ : Type} {m : Translate α} {P : SqlParameters → α → Prop}

theorem Yields.result {a : α} (h : ∀ p, P p a) : Yields (pure a) P := by
  intro t b t' hrun
  cases hrun
  exact ⟨Extends.refl t, fun p _ => h p⟩

theorem Yields.error {e : Thrown} : Yields (throw e) P := by
  intro t b t' hrun
  cases hrun

theorem Yields.mono {Q : SqlParameters → α → Prop} (h : Yields m P) (hPQ : ∀ p a, P p a → Q p a) : Yields m Q := by
  intro t a t' hrun
  obtain ⟨hext, hall⟩ := h t a t' hrun
  exact ⟨hext, fun p hp => hPQ p a (hall p hp)⟩

theorem Yields.map {f : α → β} {Q : SqlParameters → β → Prop} (h : Yields m P) (hf : ∀ p a, P p a → Q p (f a)) :
    Yields (f <$> m) Q := by
  intro t b t' hrun
  obtain ⟨r, hm, hrun⟩ := ok_bind.1 hrun
  cases hrun
  obtain ⟨hext, hall⟩ := h t r.1 r.2 hm
  exact ⟨hext, fun p hp => hf p r.1 (hall p hp)⟩

theorem Yields.cons {rest : Translate (List α)} {Q : SqlParameters → List α → Prop} {R : SqlParameters → List α → Prop}
    (h : Yields m P) (hrest : Yields rest Q) (hR : ∀ p a as, P p a → Q p as → R p (a :: as)) :
    Yields (do
      let a ← m
      let as ← rest
      pure (a :: as)) R := by
  intro t b t' hrun
  obtain ⟨r, hm, hrun⟩ := ok_bind.1 hrun
  obtain ⟨r', hr, hrun⟩ := ok_bind.1 hrun
  cases hrun
  obtain ⟨hext, hall⟩ := h t r.1 r.2 hm
  obtain ⟨hext', hall'⟩ := hrest r.2 r'.1 r'.2 hr
  exact ⟨hext.trans hext', fun p hp => hR p _ _ (hall p (hext'.bound hp)) (hall' p hp)⟩

theorem Yields.of_bindAll (vs : List FilterValue) (f : ℕ → α) (hm : ∀ t, m t = .ok (f t.paramIndex, bindAll t vs))
    (h : ∀ p i, (∀ k v, vs[k]? = some v → argument p (paramName (i + k)) = v) → P p (f i)) : Yields m P := by
  intro t a t' hrun
  rw [hm] at hrun
  cases hrun
  exact ⟨extends_bindAll t vs, fun p hp => h p _ fun _ _ hv => argument_bindAll hp hv⟩

end Yields

/-! ### The operators of a field -/

section Operators

variable {host : Host} {mixed : CompareOp → FilterValue → FilterValue → Option Bool} {cell : String → FilterValue}
  {col fieldName op : String} {operand : FilterValue}

abbrev evalWith (mixed : CompareOp → FilterValue → FilterValue → Option Bool) (cell : String → FilterValue)
    (p : SqlParameters) (c : Condition) : Option Bool := c.eval (standardAtoms mixed) cell (argument p)

/-- A condition that is true just where a computation in memory says so. -/
def Reads (mixed : CompareOp → FilterValue → FilterValue → Option Bool) (cell : String → FilterValue)
    (inMemory : Except ProviderError Bool) (p : SqlParameters) (c : Condition) : Prop :=
  ∃ b, inMemory = .ok b ∧ (evalWith mixed cell p c = some true ↔ b = true)

variable (mixed cell) in
theorem planSimple_yields {symbol : CompareOp} {bound : FilterValue}
    (h : comparison host op operand = some (symbol, bound)) : Yields (planSimple host col op fieldName operand)
      fun p c => c.wellFormed = true ∧ evalWith mixed cell p c = standardCompare mixed symbol (cell col) bound := by
  refine Yields.of_bindAll [bound] (fun i => .compare col symbol (paramName i)) (fun t => ?_)
    fun p i hbound => ⟨rfl, ?_⟩
  · unfold planSimple
    rw [h]
    rfl
  · have hfirst := hbound 0 bound rfl
    rw [Nat.add_zero] at hfirst
    show standardCompare mixed symbol (cell col) (argument p (paramName i)) = _
    rw [hfirst]

variable (mixed cell) in
theorem planIn_yields (items : List FilterValue) (negate : Bool) : Yields (planIn host col (.arr items) negate)
    fun p c => c.wellFormed = true ∧ evalWith mixed cell p c =
      let found := among3 ((items.map (extractValue host)).map (standardCompare mixed .eq (cell col)))
      if negate then not3 found else found := by
  cases items with
  | nil =>
    refine Yields.of_bindAll [] (fun _ => .constant negate) (fun t => rfl) fun p i _ => ⟨rfl, ?_⟩
    cases negate <;> rfl
  | cons item items =>
    refine Yields.of_bindAll [.arr ((item :: items).map (extractValue host))]
      (fun i => .among col negate (paramName i)) (fun t => rfl) fun p i hbound => ⟨rfl, ?_⟩
    have hfirst := hbound 0 _ rfl
    rw [Nat.add_zero] at hfirst
    show (let found := (standardAtoms mixed).among (cell col) (argument p (paramName i))
      if negate then not3 found else found) = _
    rw [hfirst]
    rfl

variable (mixed cell) in
theorem planBetween_yields (low high : FilterValue) : Yields (planBetween host col (.arr [low, high]))
    fun p c => c.wellFormed = true ∧ evalWith mixed cell p c =
      and3 (standardCompare mixed .ge (cell col) (extractValue host low))
        (standardCompare mixed .le (cell col) (extractValue host high)) := by
  refine Yields.of_bindAll [extractValue host low, extractValue host high]
    (fun i => .between col (paramName i) (paramName (i + 1))) (fun t => rfl) fun p i hbound => ⟨rfl, ?_⟩
  have hlow := hbound 0 _ rfl
  have hhigh := hbound 1 _ rfl
  rw [Nat.add_zero] at hlow
  show and3 (standardCompare mixed .ge (cell col) (argument p (paramName i)))
    (standardCompare mixed .le (cell col) (argument p (paramName (i + 1)))) = _
  rw [hlow, hhigh]

variable {v : FilterValue}

theorem deepEqual_null (hscalar : sameKind v v = true) : deepEqual host (some v) .null = false := by
  cases v <;> first | rfl | cases hscalar

theorem standardCompare_eq_iff (hscalar : sameKind v v = true) {item : FilterValue}
    (h : item = .null ∨ sameKind v item = true) :
    standardCompare mixed .eq v (extractValue host item) = some true ↔ deepEqual host (some v) item = true := by
  rcases h with rfl | h
  · rw [deepEqual_null hscalar]
    show standardCompare mixed .eq v .null = some true ↔ _
    rw [standardCompare_null (by decide)]
    decide
  · obtain ⟨order, -, hcompare⟩ := standardCompare_sameKind host mixed h
    rw [extractValue_sameKind h, hcompare .eq (by decide)]
    exact Option.some_inj

theorem planSimple_reads (symbol : CompareOp) (hkind : sameKind (cell col) operand = true) (hsymbol : symbol ≠ .like)
    (hplan : comparison host op operand = some (symbol, extractValue host operand))
    (hmatch : ∀ order, compareValues host (some (cell col)) (some operand) = .ok order →
      matchOperator host (some (cell col)) op operand =
        .ok (symbol.holds (deepEqual host (some (cell col)) operand) order)) :
    Yields (planSimple host col op fieldName operand)
      fun p c => c.wellFormed = true ∧ Reads mixed cell (matchOperator host (some (cell col)) op operand) p c := by
  obtain ⟨order, horder, hcompare⟩ := standardCompare_sameKind host mixed hkind
  refine (planSimple_yields mixed cell hplan).mono fun p c ⟨hformed, heval⟩ => ?_
  refine ⟨hformed, _, hmatch order horder, ?_⟩
  rw [heval, extractValue_sameKind hkind, hcompare symbol hsymbol]
  exact Option.some_inj

theorem planIn_reads (hscalar : sameKind (cell col) (cell col) = true) {items : List FilterValue}
    (h : ∀ item ∈ items, item = .null ∨ sameKind (cell col) item = true) : Yields (planIn host col (.arr items) false)
      fun p c => c.wellFormed = true ∧ Reads mixed cell (.ok (items.any (deepEqual host (some (cell col))))) p c := by
  refine (planIn_yields mixed cell items false).mono fun p c ⟨hformed, heval⟩ => ⟨hformed, _, rfl, ?_⟩
  rw [heval]
  show among3 _ = some true ↔ _
  rw [among3_eq_true, List.any_eq_true, List.map_map, List.mem_map]
  exact exists_congr fun item => and_congr_right fun hitem => standardCompare_eq_iff hscalar (h item hitem)

theorem planNotIn_reads {items : List FilterValue} (h : ∀ item ∈ items, sameKind (cell col) item = true) :
    Yields (planIn host col (.arr items) true)
      fun p c => c.wellFormed = true ∧ Reads mixed cell (.ok (!items.any (deepEqual host (some (cell col))))) p c := by
  refine (planIn_yields mixed cell items true).mono fun p c ⟨hformed, heval⟩ => ⟨hformed, _, rfl, ?_⟩
  have hnot : ∀ found : Option Bool, not3 found = some true ↔ found = some false := by
    rintro (_ | _ | _) <;> decide
  rw [heval]
  show not3 (among3 _) = some true ↔ _
  rw [hnot, among3_eq_false, Bool.not_eq_true', List.any_eq_false, List.map_map, List.forall_mem_map]
  refine forall₂_congr fun item hitem => ?_
  obtain ⟨order, -, hcompare⟩ := standardCompare_sameKind host mixed (h item hitem)
  show standardCompare mixed .eq _ (extractValue host item) = some false ↔ _
  rw [extractValue_sameKind (h item hitem), hcompare .eq (by decide), Option.some_inj]
  exact Bool.not_eq_true _ ▸ Iff.rfl

theorem planBetween_reads {low high : FilterValue} (hlow : sameKind (cell col) low = true)
    (hhigh : sameKind (cell col) high = true) : Yields (planBetween host col (.arr [low, high]))
      fun p c => c.wellFormed = true ∧
        Reads mixed cell (matchOperator host (some (cell col)) "$between" (.arr [low, high])) p c := by
  obtain ⟨order, horder, hcompare⟩ := standardCompare_sameKind host mixed hlow
  obtain ⟨order', horder', hcompare'⟩ := standardCompare_sameKind host mixed hhigh
  refine (planBetween_yields mixed cell low high).mono fun p c ⟨hformed, heval⟩ =>
    ⟨hformed, order.isGE && order'.isLE, ?_, ?_⟩
  · have hmatch : matchOperator host (some (cell col)) "$between" (.arr [low, high]) = (do
        let above ← compareValues host (some (cell col)) (some low)
        if above.isGE then (compareValues host (some (cell col)) (some high)).map Ordering.isLE else pure false) := by
      simp [matchOperator]
    rw [hmatch, horder, horder']
    cases order <;> rfl
  · rw [heval, extractValue_sameKind hlow, extractValue_sameKind hhigh, hcompare .ge (by decide),
      hcompare' .le (by decide), and3_eq_true, Option.some_inj, Option.some_inj, Bool.and_eq_true]
    rfl

theorem planEq_reads (hscalar : sameKind (cell col) (cell col) = true)
    (h : operand = .null ∨ sameKind (cell col) operand = true) : Yields (planSimple host col "$eq" fieldName operand)
      fun p c => c.wellFormed = true ∧ Reads mixed cell (.ok (deepEqual host (some (cell col)) operand)) p c := by
  have hplan : comparison host "$eq" operand = some (.eq, extractValue host operand) := by simp [comparison]
  refine (planSimple_yields mixed cell hplan).mono fun p c ⟨hformed, heval⟩ => ⟨hformed, _, rfl, ?_⟩
  rw [heval]
  exact standardCompare_eq_iff hscalar h

variable (mixed) in
/-- Every operator means the same in SQL and in memory. -/
theorem planOperator_reads (hscalar : sameKind (cell col) (cell col) = true) (hop : op ∈ filterOperators)
    (h : Comparable (cell col) op operand) : Yields (planOperator host col fieldName op operand)
      fun p c => c.wellFormed = true ∧ Reads mixed cell (matchOperator host (some (cell col)) op operand) p c := by
  simp only [filterOperators, List.mem_cons, List.not_mem_nil, or_false] at hop
  unfold planOperator
  rcases hop with rfl | rfl | rfl | rfl | rfl | rfl | rfl | rfl | rfl
  · have hmatch : matchOperator host (some (cell col)) "$eq" operand = .ok (deepEqual host (some (cell col)) operand) := by
      simp [matchOperator]
    rw [hmatch]
    simpa using planEq_reads hscalar (by simpa [Comparable] using h)
  · have hkind : sameKind (cell col) operand = true := by simpa [Comparable] using h
    simpa using planSimple_reads .ne hkind (by decide) (by simp [comparison])
      fun order horder => by simp [matchOperator, CompareOp.holds]
  · have hkind : sameKind (cell col) operand = true := by simpa [Comparable] using h
    simpa using planSimple_reads .lt hkind (by decide) (by simp [comparison])
      fun order horder => by simp [matchOperator, CompareOp.holds, horder, Except.map]
  · have hkind : sameKind (cell col) operand = true := by simpa [Comparable] using h
    simpa using planSimple_reads .le hkind (by decide) (by simp [comparison])
      fun order horder => by simp [matchOperator, CompareOp.holds, horder, Except.map]
  · have hkind : sameKind (cell col) operand = true := by simpa [Comparable] using h
    simpa using planSimple_reads .gt hkind (by decide) (by simp [comparison])
      fun order horder => by simp [matchOperator, CompareOp.holds, horder, Except.map]
  · have hkind : sameKind (cell col) operand = true := by simpa [Comparable] using h
    simpa using planSimple_reads .ge hkind (by decide) (by simp [comparison])
      fun order horder => by simp [matchOperator, CompareOp.holds, horder, Except.map]
  · rw [if_neg (by simp), if_neg (by simp), if_pos rfl]
    cases operand with
    | arr items =>
      rcases items with _ | ⟨low, _ | ⟨high, _ | ⟨_, _⟩⟩⟩
      · exact Yields.error
      · exact Yields.error
      · have hkinds : sameKind (cell col) low = true ∧ sameKind (cell col) high = true := by
          simpa [Comparable] using h
        exact planBetween_reads hkinds.1 hkinds.2
      · exact Yields.error
    | _ => exact Yields.error
  · rw [if_pos rfl]
    cases operand with
    | arr items =>
      have hkinds : ∀ item ∈ items, item = .null ∨ sameKind (cell col) item = true := by simpa [Comparable] using h
      have hmatch : matchOperator host (some (cell col)) "$in" (.arr items) =
        .ok (items.any (deepEqual host (some (cell col)))) := by simp [matchOperator]
      rw [hmatch]
      exact planIn_reads hscalar hkinds
    | _ => exact Yields.error
  · rw [if_neg (by simp), if_pos rfl]
    cases operand with
    | arr items =>
      have hkinds : ∀ item ∈ items, sameKind (cell col) item = true := by simpa [Comparable] using h
      have hmatch : matchOperator host (some (cell col)) "$nin" (.arr items) =
        .ok (!items.any (deepEqual host (some (cell col)))) := by simp [matchOperator]
      rw [hmatch]
      exact planNotIn_reads hkinds
    | _ => exact Yields.error

end Operators

/-! ### Filters -/

/-- The condition of a field, of the operators that both evaluators have. -/
def BuiltField : FilterValue → Prop
  | .obj members => ∀ m ∈ members, m.1 ∈ filterOperators
  | _ => False

mutual
/-- A filter that is built of the operators that both evaluators have. -/
def Built : FilterValue → Prop
  | .obj members => BuiltMembers members
  | _ => False
def BuiltMembers : List (String × FilterValue) → Prop
  | [] => True
  | (name, value) :: members =>
    (if startsWith name "$" then (name = "$and" ∨ name = "$or") ∧ BuiltList value else BuiltField value) ∧
      BuiltMembers members
def BuiltList : FilterValue → Prop
  | .arr items => BuiltItems items
  | _ => False
def BuiltItems : List FilterValue → Prop
  | [] => True
  | el :: items => Built el ∧ BuiltItems items
end

mutual
/-- A filter that is translated to nothing. -/
def emptyFilter : FilterValue → Bool
  | .obj members => emptyMembers members
  | _ => false
def emptyMembers : List (String × FilterValue) → Bool
  | [] => true
  | [(name, value)] => startsWith name "$" && emptyList value
  | _ :: _ :: _ => false
def emptyList : FilterValue → Bool
  | .arr items => emptyItems items
  | _ => false
def emptyItems : List FilterValue → Bool
  | [] => true
  | el :: items => emptyFilter el && emptyItems items
end

/-- A clause that is translated to nothing. -/
def emptyClause (m : String × FilterValue) : Bool := startsWith m.1 "$" && emptyList m.2

section

variable (host : Host) (schema : SqlMemoryNodeSchema) (row : MemoryNodeRow)

/-- The condition of a field under the name that the schema has for it, with an operator at least, and operands
that can be compared with the value of the row. -/
def FaithfulField (name : String) (value : FilterValue) : Prop :=
  (∀ field, schema.getField host name = some field → field.name = name) ∧
    ∀ members, value = .obj members → members ≠ [] ∧
      ∀ m ∈ members, ∀ v, row.get name = some v → Comparable v m.1 m.2

/-- A disjunction of some filters, of which none is empty unless all are. -/
def FaithfulOr (value : FilterValue) : Prop :=
  ∀ items, value = .arr items → items ≠ [] ∧
    ((∀ el ∈ items, emptyFilter el = true) ∨ ∀ el ∈ items, emptyFilter el = false)

mutual
/-- A filter without the constructs that are read differently: besides the conditions of fields and the
disjunctions that `FaithfulField` and `FaithfulOr` leave out, an empty clause beside others. -/
def Faithful : FilterValue → Prop
  | .obj members =>
    (members.length ≤ 1 ∨ ∀ m ∈ members, emptyClause m = false) ∧ FaithfulMembers members
  | _ => True
def FaithfulMembers : List (String × FilterValue) → Prop
  | [] => True
  | (name, value) :: members =>
    (if startsWith name "$" then (name = "$or" → FaithfulOr value) ∧ FaithfulList value
      else FaithfulField host schema row name value) ∧ FaithfulMembers members
def FaithfulList : FilterValue → Prop
  | .arr items => FaithfulItems items
  | _ => True
def FaithfulItems : List FilterValue → Prop
  | [] => True
  | el :: items => Faithful el ∧ FaithfulItems items
end

end

/-! ### Clauses that are joined -/

section Joins

variable {mixed : CompareOp → FilterValue → FilterValue → Option Bool} {cell : String → FilterValue}
  {p : SqlParameters} {cs : List Condition} {c : Condition}

theorem eq_blank_of_isBlank (h : c.isBlank = true) : c = .blank := by
  cases c <;> first | rfl | cases h

theorem not_isBlank_of_wellFormed (h : c.wellFormed = true) : c.isBlank = false := by
  cases c <;> first | rfl | cases h

theorem conjoin_true : evalWith mixed cell p (.conjoin cs) = some true ↔
    ∀ c ∈ cs, evalWith mixed cell p c = some true := by
  rcases cs with _ | ⟨c, _ | ⟨d, cs⟩⟩
  · simp [Condition.conjoin, evalWith, Condition.eval]
  · simp [Condition.conjoin]
  · show Condition.evalAll _ _ _ (c :: d :: cs) = some true ↔ _
    exact Condition.evalAll_eq_true _ _ _ _

theorem disjoin_true (h : cs ≠ []) : evalWith mixed cell p (.disjoin cs) = some true ↔
    ∃ c ∈ cs, evalWith mixed cell p c = some true := by
  rcases cs with _ | ⟨c, _ | ⟨d, cs⟩⟩
  · exact absurd rfl h
  · simp [Condition.disjoin]
  · show Condition.evalAny _ _ _ (c :: d :: cs) = some true ↔ _
    exact Condition.evalAny_eq_true _ _ _ _

theorem parts_true (h : cs ≠ []) : evalWith mixed cell p (parts cs) = some true ↔
    ∀ c ∈ cs, evalWith mixed cell p c = some true := by
  rcases cs with _ | ⟨c, _ | ⟨d, cs⟩⟩
  · exact absurd rfl h
  · simp [parts]
  · show Condition.evalAll _ _ _ (c :: d :: cs) = some true ↔ _
    exact Condition.evalAll_eq_true _ _ _ _

theorem joined_wellFormed (hne : cs ≠ []) (h : ∀ c ∈ cs, c.wellFormed = true) :
    (parts cs).wellFormed = true ∧ (Condition.conjoin cs).wellFormed = true ∧
      (Condition.disjoin cs).wellFormed = true := by
  rcases cs with _ | ⟨c, _ | ⟨d, cs⟩⟩
  · exact absurd rfl hne
  · have hc := h c List.mem_cons_self
    exact ⟨hc, hc, hc⟩
  · have hcs := (Condition.wellFormedParts_iff _).2 h
    exact ⟨hcs, hcs, hcs⟩

end Joins

/-! ### The two evaluators agree -/

def RowOf (schema : SqlMemoryNodeSchema) (row : MemoryNodeRow) (cell : String → FilterValue) : Prop :=
  ∀ f ∈ schema.fields, row.get f.name = some (cell (resolvedColumnName f)) ∧
    sameKind (cell (resolvedColumnName f)) (cell (resolvedColumnName f)) = true

/-- What is translated of a clause: nothing if it is empty, and otherwise a condition with the meaning that it has
in memory. -/
structure Clause (mixed : CompareOp → FilterValue → FilterValue → Option Bool) (cell : String → FilterValue)
    (empty : Bool) (inMemory : Except ProviderError Bool) (p : SqlParameters) (c : Condition) : Prop where
  blank : c.isBlank = empty
  formed : c.isBlank = true ∨ c.wellFormed = true
  reads : Reads mixed cell inMemory p c

/-- What is translated of clauses one by one. -/
structure Clauses (mixed : CompareOp → FilterValue → FilterValue → Option Bool) (cell : String → FilterValue)
    (empty : List Bool) (every : Except ProviderError Bool) (p : SqlParameters) (cs : List Condition) : Prop where
  blank : cs.map Condition.isBlank = empty
  formed : ∀ c ∈ cs, c.isBlank = true ∨ c.wellFormed = true
  every : ∃ b, every = .ok b ∧ ((∀ c ∈ cs, evalWith mixed cell p c = some true) ↔ b = true)

section Agreement

variable {host : Host} {schema : SqlMemoryNodeSchema} {row : MemoryNodeRow}
  {mixed : CompareOp → FilterValue → FilterValue → Option Bool} {cell : String → FilterValue}

theorem both_ok {m rest : Except ProviderError Bool} {b b' : Bool} (h : m = .ok b) (hrest : rest = .ok b') :
    (do
      let holds ← m
      if holds then rest else pure false) = .ok (b && b') := by
  rw [h, hrest]
  cases b <;> rfl

variable {p : SqlParameters}

theorem Clauses.nil : Clauses mixed cell [] (.ok true) p [] where
  blank := rfl
  formed c hc := absurd hc List.not_mem_nil
  every := ⟨true, rfl, by simp⟩

variable {cs : List Condition} {empties : List Bool}

theorem Clauses.cons {empty : Bool} {m rest : Except ProviderError Bool}
    {c : Condition} (hc : Clause mixed cell empty m p c)
    (hcs : Clauses mixed cell empties rest p cs) : Clauses mixed cell (empty :: empties) (do
      let holds ← m
      if holds then rest else pure false) p (c :: cs) where
  blank := by rw [List.map_cons, hc.blank, hcs.blank]
  formed := List.forall_mem_cons.2 ⟨hc.formed, hcs.formed⟩
  every := by
    obtain ⟨b, hb, hiff⟩ := hc.reads
    obtain ⟨b', hb', hiff'⟩ := hcs.every
    refine ⟨b && b', both_ok hb hb', ?_⟩
    rw [List.forall_mem_cons, hiff, hiff', Bool.and_eq_true]

variable (mixed) in
theorem planOperators_reads {col fieldName : String} (hscalar : sameKind (cell col) (cell col) = true)
    (members : List (String × FilterValue)) (hops : ∀ m ∈ members, m.1 ∈ filterOperators)
    (h : ∀ m ∈ members, Comparable (cell col) m.1 m.2) :
    Yields (members.mapM fun m => planOperator host col fieldName m.1 m.2)
      (Clauses mixed cell (members.map fun _ => false) (matchOperators host (some (cell col)) members)) := by
  induction members with
  | nil => exact Yields.result fun p => Clauses.nil
  | cons m members ih =>
    rw [List.mapM_cons]
    have hhead : Yields (planOperator host col fieldName m.1 m.2) _ :=
      planOperator_reads mixed hscalar (hops m List.mem_cons_self) (h m List.mem_cons_self)
    have hrest := ih (fun m hm => hops m (List.mem_cons_of_mem _ hm)) fun m hm => h m (List.mem_cons_of_mem _ hm)
    refine hhead.cons hrest fun p c cs hc hcs => ?_
    rw [List.map_cons, matchOperators]
    exact Clauses.cons ⟨not_isBlank_of_wellFormed hc.1, .inr hc.1, hc.2⟩ hcs

theorem planField_reads (hrow : RowOf schema row cell) {name : String} {value : FilterValue} (hbuilt : BuiltField value)
    (h : FaithfulField host schema row name value) : Yields (planField host schema name value)
      (Clause mixed cell false (matchFieldCondition host (row.get name) value)) := by
  unfold planField validateField
  cases hfield : schema.getField host name with
  | none => exact Yields.error
  | some f =>
    show Yields (planFieldCondition host f value) _
    cases value with
    | obj members =>
      obtain ⟨hne, hcomparable⟩ := h.2 members rfl
      obtain ⟨hget, hscalar⟩ := hrow f (schema.getField_mem host hfield)
      rw [h.1 f hfield] at hget
      rw [hget]
      refine (planOperators_reads mixed hscalar members hbuilt fun m hm => hcomparable m hm _ hget).map fun p cs hcs => ?_
      have hcsne : cs ≠ [] := by
        rintro rfl
        exact hne (List.map_eq_nil_iff.1 hcs.blank.symm)
      have hformed : ∀ c ∈ cs, c.wellFormed = true := by
        intro c hc
        have hblank : c.isBlank = false := by
          have hmem := List.mem_map_of_mem (f := Condition.isBlank) hc
          rw [hcs.blank] at hmem
          obtain ⟨-, -, heq⟩ := List.mem_map.1 hmem
          exact heq.symm
        exact (hcs.formed c hc).resolve_left (by rw [hblank]; decide)
      have hparts := (joined_wellFormed hcsne hformed).1
      refine ⟨not_isBlank_of_wellFormed hparts, .inr hparts, ?_⟩
      obtain ⟨b, hb, hiff⟩ := hcs.every
      exact ⟨b, hb, (parts_true hcsne).trans hiff⟩
    | _ => exact absurd hbuilt id

theorem emptyItems_eq (items : List FilterValue) : emptyItems items = items.all emptyFilter := by
  induction items with
  | nil => rfl
  | cons el items ih => rw [emptyItems, List.all_cons, ih]

variable {every : Except ProviderError Bool}

theorem filter_blank (hcs : Clauses mixed cell empties every p cs) :
    (cs.filter fun c => !c.isBlank) = [] ↔ ∀ e ∈ empties, e = true := by
  rw [List.filter_eq_nil_iff, ← hcs.blank, List.forall_mem_map]
  exact forall₂_congr fun c _ => by cases c.isBlank <;> simp

theorem filter_wellFormed (hcs : Clauses mixed cell empties every p cs) :
    ∀ c ∈ cs.filter (fun c => !c.isBlank), c.wellFormed = true := by
  intro c hc
  obtain ⟨hmem, hblank⟩ := List.mem_filter.1 hc
  refine (hcs.formed c hmem).resolve_left fun h => ?_
  rw [h] at hblank
  cases hblank

theorem filter_true :
    (∀ c ∈ cs.filter (fun c => !c.isBlank), evalWith mixed cell p c = some true) ↔
      ∀ c ∈ cs, evalWith mixed cell p c = some true := by
  refine ⟨fun h c hc => ?_, fun h c hc => h c (List.mem_filter.1 hc).1⟩
  cases hblank : c.isBlank with
  | true =>
    rw [eq_blank_of_isBlank hblank]
    rfl
  | false => exact h c (List.mem_filter.2 ⟨hc, by rw [hblank]; rfl⟩)

theorem planAnd_clause {items : List FilterValue}
    (hcs : Clauses mixed cell (items.map emptyFilter) (matchEveryOf host row items) p cs) :
    Clause mixed cell (emptyItems items) (matchEveryOf host row items) p
      (.conjoin (cs.filter fun c => !c.isBlank)) := by
  have hempty : emptyItems items = true ↔ (cs.filter fun c => !c.isBlank) = [] := by
    rw [emptyItems_eq, List.all_eq_true, filter_blank hcs, List.forall_mem_map]
  have hformed := filter_wellFormed hcs
  obtain ⟨b, hb, hiff⟩ := hcs.every
  have hreads : Reads mixed cell (matchEveryOf host row items) p (.conjoin (cs.filter fun c => !c.isBlank)) :=
    ⟨b, hb, conjoin_true.trans (filter_true.trans hiff)⟩
  by_cases hnil : (cs.filter fun c => !c.isBlank) = []
  · rw [hnil] at hreads ⊢
    exact ⟨(hempty.2 hnil).symm, .inl rfl, hreads⟩
  · have hwf := (joined_wellFormed hnil hformed).2.1
    have hnot : emptyItems items = false := by
      rw [← Bool.not_eq_true]
      exact fun h => hnil (hempty.1 h)
    exact ⟨(not_isBlank_of_wellFormed hwf).trans hnot.symm, .inr hwf, hreads⟩

theorem planOr_clause {items : List FilterValue} (h : FaithfulOr (.arr items))
    (hcs : Clauses mixed cell (items.map emptyFilter) every p cs)
    (hsome : ∃ b, matchSomeOf host row items = .ok b ∧ ((∃ c ∈ cs, evalWith mixed cell p c = some true) ↔ b = true)) :
    Clause mixed cell (emptyItems items) (matchSomeOf host row items) p
      (.disjoin (cs.filter fun c => !c.isBlank)) := by
  obtain ⟨hne, hall⟩ := h items rfl
  have hempty : emptyItems items = true ↔ (cs.filter fun c => !c.isBlank) = [] := by
    rw [emptyItems_eq, List.all_eq_true, filter_blank hcs, List.forall_mem_map]
  have hformed := filter_wellFormed hcs
  have hcsne : cs ≠ [] := by
    rintro rfl
    exact hne (List.map_eq_nil_iff.1 hcs.blank.symm)
  obtain ⟨b, hb, hiff⟩ := hsome
  rcases hall with hblank | hnone
  · have hnil : (cs.filter fun c => !c.isBlank) = [] := by
      refine hempty.1 ?_
      rw [emptyItems_eq, List.all_eq_true]
      exact hblank
    rw [hnil]
    refine ⟨(hempty.2 hnil).symm, .inl rfl, b, hb, ?_⟩
    obtain ⟨c, hc⟩ := List.exists_mem_of_ne_nil cs hcsne
    -- every filter of the disjunction is empty, and so true
    have hctrue : evalWith mixed cell p c = some true :=
      filter_true.1 (fun d hd => by rw [hnil] at hd; exact absurd hd List.not_mem_nil) c hc
    exact ⟨fun _ => hiff.1 ⟨c, hc, hctrue⟩, fun _ => rfl⟩
  · have hself : (cs.filter fun c => !c.isBlank) = cs := by
      refine List.filter_eq_self.2 fun c hc => ?_
      have hmem := List.mem_map_of_mem (f := Condition.isBlank) hc
      rw [hcs.blank] at hmem
      obtain ⟨el, hel, heq⟩ := List.mem_map.1 hmem
      rw [← heq, hnone el hel]
      rfl
    have hnot : emptyItems items = false := by
      rw [← Bool.not_eq_true]
      exact fun h => hcsne (hself ▸ hempty.1 h)
    rw [hself] at hformed ⊢
    have hwf := (joined_wellFormed hcsne hformed).2.2
    exact ⟨(not_isBlank_of_wellFormed hwf).trans hnot.symm, .inr hwf, b, hb, (disjoin_true hcsne).trans hiff⟩

theorem planMembers_clause {members : List (String × FilterValue)}
    (h : members.length ≤ 1 ∨ ∀ m ∈ members, emptyClause m = false)
    (hcs : Clauses mixed cell (members.map emptyClause) every p cs) :
    Clause mixed cell (emptyMembers members) every p (.conjoin cs) := by
  obtain ⟨b, hb, hiff⟩ := hcs.every
  have hreads : Reads mixed cell every p (.conjoin cs) := ⟨b, hb, conjoin_true.trans hiff⟩
  have hblank := hcs.blank
  have hlength := congrArg List.length hblank
  rw [List.length_map, List.length_map] at hlength
  rcases members with _ | ⟨m, _ | ⟨m', members⟩⟩
  · rw [List.length_eq_zero_iff.1 hlength] at hreads ⊢
    exact ⟨rfl, .inl rfl, hreads⟩
  · obtain ⟨c, rfl⟩ := List.length_eq_one_iff.1 hlength
    exact ⟨List.head_eq_of_cons_eq hblank, hcs.formed c List.mem_cons_self, hreads⟩
  · have hnone : ∀ m'' ∈ m :: m' :: members, emptyClause m'' = false := by
      refine h.resolve_left ?_
      simp
    have hformed : ∀ c ∈ cs, c.wellFormed = true := by
      intro c hc
      have hmem := List.mem_map_of_mem (f := Condition.isBlank) hc
      rw [hblank] at hmem
      obtain ⟨el, hel, heq⟩ := List.mem_map.1 hmem
      refine (hcs.formed c hc).resolve_left ?_
      rw [← heq, hnone el hel]
      decide
    have hne : cs ≠ [] := by
      rintro rfl
      cases hlength
    have hwf := (joined_wellFormed hne hformed).2.1
    exact ⟨not_isBlank_of_wellFormed hwf, .inr hwf, hreads⟩

variable (mixed) in
mutual
/-- A filter is translated to nothing if it is empty, and otherwise to a condition that means what it means. -/
theorem planObject_reads (hrow : RowOf schema row cell) : ∀ filter : FilterValue, Built filter →
    Faithful host schema row filter → Yields (planObject host schema filter)
      (Clause mixed cell (emptyFilter filter) (matchFilter host row filter))
  | .obj members, hbuilt, h => by
    rw [planObject, emptyFilter, matchFilter]
    rw [Built] at hbuilt
    rw [Faithful] at h
    exact (planMembers_reads hrow members hbuilt h.2).map fun p cs hcs => planMembers_clause h.1 hcs
  | .arr _, hbuilt, _ => by cases hbuilt
  | .str _, hbuilt, _ => by cases hbuilt
  | .null, hbuilt, _ => by cases hbuilt
  | .bool _, hbuilt, _ => by cases hbuilt
  | .num _, hbuilt, _ => by cases hbuilt
theorem planMembers_reads (hrow : RowOf schema row cell) : ∀ members : List (String × FilterValue),
    BuiltMembers members → FaithfulMembers host schema row members → Yields (planMembers host schema members)
      (Clauses mixed cell (members.map emptyClause) (matchMembers host row members))
  | [], _, _ => by
    rw [planMembers, matchMembers]
    exact Yields.result fun p => Clauses.nil
  | (name, value) :: members, hbuilt, h => by
    rw [BuiltMembers] at hbuilt
    rw [FaithfulMembers] at h
    rw [planMembers, matchMembers, List.map_cons]
    by_cases hop : startsWith name "$" = true
    · rw [if_pos hop] at hbuilt h ⊢
      have hempty : emptyClause (name, value) = emptyList value := by
        rw [emptyClause, hop, Bool.true_and]
      rw [hempty]
      have hvalue := planLogical_reads hrow name value hbuilt.1.1 hbuilt.1.2 h.1.1 h.1.2
      have hrest := planMembers_reads hrow members hbuilt.2 h.2
      rcases hbuilt.1.1 with rfl | rfl
      · rw [if_pos rfl] at hvalue ⊢
        exact hvalue.cons hrest fun p c cs hc hcs => Clauses.cons hc hcs
      · rw [if_neg (by simp)] at hvalue ⊢
        rw [if_pos rfl]
        exact hvalue.cons hrest fun p c cs hc hcs => Clauses.cons hc hcs
    · rw [if_neg hop] at hbuilt h ⊢
      have hempty : emptyClause (name, value) = false := by
        rw [emptyClause, eq_false_of_ne_true hop, Bool.false_and]
      have hname : ∀ op, startsWith op "$" = true → name ≠ op := fun op hstarts heq => hop (heq ▸ hstarts)
      rw [hempty, if_neg (hname "$and" (by decide)), if_neg (hname "$or" (by decide)),
        if_neg (hname "$not" (by decide))]
      exact (planField_reads hrow hbuilt.1 h.1).cons (planMembers_reads hrow members hbuilt.2 h.2)
        fun p c cs hc hcs => Clauses.cons hc hcs
theorem planLogical_reads (hrow : RowOf schema row cell) : ∀ (op : String) (value : FilterValue),
    op = "$and" ∨ op = "$or" → BuiltList value → (op = "$or" → FaithfulOr value) → FaithfulList host schema row value →
      Yields (planLogical host schema op value) (Clause mixed cell (emptyList value)
        (if op = "$and" then matchEvery host row value else matchSome host row value))
  | op, .arr items, hop, hbuilt, hor, h => by
    rw [BuiltList] at hbuilt
    rw [FaithfulList] at h
    rw [planLogical, emptyList, matchEvery, matchSome]
    have hitems := planParts_reads hrow items hbuilt h
    rcases hop with rfl | rfl
    · rw [if_pos rfl]
      exact hitems.map fun p cs hcs => planAnd_clause hcs.1
    · rw [if_neg (by simp)]
      exact hitems.map fun p cs hcs => planOr_clause (hor rfl) hcs.1 hcs.2
  | _, .obj _, _, hbuilt, _, _ => by cases hbuilt
  | _, .str _, _, hbuilt, _, _ => by cases hbuilt
  | _, .null, _, hbuilt, _, _ => by cases hbuilt
  | _, .bool _, _, hbuilt, _, _ => by cases hbuilt
  | _, .num _, _, hbuilt, _, _ => by cases hbuilt
theorem planParts_reads (hrow : RowOf schema row cell) : ∀ items : List FilterValue, BuiltItems items →
    FaithfulItems host schema row items → Yields (planParts host schema items) fun p cs =>
      Clauses mixed cell (items.map emptyFilter) (matchEveryOf host row items) p cs ∧
        ∃ b, matchSomeOf host row items = .ok b ∧ ((∃ c ∈ cs, evalWith mixed cell p c = some true) ↔ b = true)
  | [], _, _ => by
    rw [planParts, matchEveryOf, matchSomeOf]
    exact Yields.result fun p => ⟨Clauses.nil, false, rfl, by simp⟩
  | el :: items, hbuilt, h => by
    rw [BuiltItems] at hbuilt
    rw [FaithfulItems] at h
    rw [planParts, matchEveryOf, matchSomeOf, List.map_cons]
    refine (planObject_reads hrow el hbuilt.1 h.1).cons (planParts_reads hrow items hbuilt.2 h.2) fun p c cs hc hcs => ?_
    refine ⟨Clauses.cons hc hcs.1, ?_⟩
    obtain ⟨b, hb, hiff⟩ := hc.reads
    obtain ⟨-, b', hb', hiff'⟩ := hcs
    refine ⟨b || b', ?_, ?_⟩
    · rw [hb, hb']
      cases b <;> rfl
    · rw [List.exists_mem_cons_iff, hiff, hiff', Bool.or_eq_true]
end

end Agreement

def satisfies (mixed : CompareOp → FilterValue → FilterValue → Option Bool) (cell : String → FilterValue)
    (p : SqlParameters) (c : Condition) : Bool :=
  c.isBlank || c.wellFormed && c.selects (standardAtoms mixed) cell (argument p)

def Agree (host : Host) (schema : SqlMemoryNodeSchema)
    (mixed : CompareOp → FilterValue → FilterValue → Option Bool) (row : MemoryNodeRow) (cell : String → FilterValue)
    (filter : FilterValue) : Prop :=
  ∀ dialect sql p, translate host schema dialect (some filter) JsMap.empty = .ok (sql, p) →
    ∃ c, plan host schema (some filter) = .ok (c, p) ∧ c.text dialect.quote = sql ∧
      (satisfies mixed cell p c = true ↔ matchFilter host row filter = .ok true)

section

variable {host : Host} {schema : SqlMemoryNodeSchema} {row : MemoryNodeRow} {cell : String → FilterValue}
  {filter : FilterValue}

theorem plan_of_translate {dialect : DatabaseDialect} {sql : String} {p : SqlParameters}
    (h : translate host schema dialect (some filter) JsMap.empty = .ok (sql, p)) :
    ∃ c, plan host schema (some filter) = .ok (c, p) ∧ c.text dialect.quote = sql := by
  rw [translate_eq] at h
  cases hplan : plan host schema (some filter) with
  | error e => rw [hplan] at h; cases h
  | ok r =>
    rw [hplan] at h
    cases h
    exact ⟨r.1, rfl, rfl⟩

theorem planned_of_built {c : Condition} {p : SqlParameters} (hbuilt : Built filter)
    (h : plan host schema (some filter) = .ok (c, p)) :
    ∃ t, planObject host schema filter ⟨0, JsMap.empty⟩ = .ok (c, t) ∧ t.parameters = p := by
  cases filter with
  | obj members =>
    change Except.map _ (planObject host schema (.obj members) ⟨0, JsMap.empty⟩) = _ at h
    cases hrun : planObject host schema (.obj members) ⟨0, JsMap.empty⟩ with
    | error e => rw [hrun] at h; cases h
    | ok r =>
      rw [hrun] at h
      cases h
      exact ⟨r.2, rfl, rfl⟩
  | _ => cases hbuilt

/-- **Agreement**: a filter is evaluated alike in SQL and in memory, on every row of values, if it keeps clear of
what the two evaluators read differently. -/
theorem agree_of_faithful (mixed : CompareOp → FilterValue → FilterValue → Option Bool)
    (hrow : RowOf schema row cell) (hbuilt : Built filter) (h : Faithful host schema row filter) :
    Agree host schema mixed row cell filter := by
  intro dialect sql p htranslate
  obtain ⟨c, hplan, htext⟩ := plan_of_translate htranslate
  refine ⟨c, hplan, htext, ?_⟩
  obtain ⟨t, hrun, rfl⟩ := planned_of_built hbuilt hplan
  obtain ⟨-, hall⟩ := planObject_reads mixed hrow filter hbuilt h _ _ _ hrun
  obtain ⟨-, hformed, b, hb, hiff⟩ := hall t.parameters fun _ _ => rfl
  rw [hb, Except.ok.injEq, ← hiff]
  rcases hformed with hblank | hformed
  · rw [eq_blank_of_isBlank hblank]
    exact ⟨fun _ => rfl, fun _ => rfl⟩
  · rw [satisfies, not_isBlank_of_wellFormed hformed, hformed, Bool.false_or, Bool.true_and, Condition.selects,
      beq_iff_eq]

theorem not_agree_of {mixed : CompareOp → FilterValue → FilterValue → Option Bool}
    (h : ((plan host schema (some filter)).toOption.any fun r =>
      satisfies mixed cell r.2 r.1 != ((matchFilter host row filter).toOption == some true)) = true) :
    ¬ Agree host schema mixed row cell filter := by
  intro hagree
  cases hplan : plan host schema (some filter) with
  | error e => rw [hplan] at h; cases h
  | ok r =>
    rw [hplan] at h
    have htranslate : translate host schema .postgreSql (some filter) JsMap.empty =
        .ok (r.1.text DatabaseDialect.postgreSql.quote, r.2) := by
      rw [translate_eq, hplan]
      rfl
    obtain ⟨c, hc, -, hiff⟩ := hagree _ _ _ htranslate
    rw [hplan] at hc
    obtain rfl : r.1 = c := congrArg Prod.fst (Except.ok.inj hc)
    change (satisfies mixed cell r.2 r.1 != ((matchFilter host row filter).toOption == some true)) = true at h
    cases hm : matchFilter host row filter with
    | error e =>
      rw [hm] at h hiff
      have htrue : satisfies mixed cell r.2 r.1 = true := by simpa [Except.toOption] using h
      exact absurd (hiff.1 htrue) (by simp)
    | ok b =>
      rw [hm] at h hiff
      cases b <;> simp_all [Except.toOption]

end

/-! ### Customers by their names -/

def adaRow : MemoryNodeRow := [("name", .str "Ada")]

def adaCell (_ : String) : FilterValue := .str "Ada"

theorem adaRow_rowOf : RowOf customersSchema adaRow adaCell := by
  intro f hf
  rw [List.mem_singleton.1 hf]
  exact ⟨rfl, rfl⟩

theorem starts_or : startsWith "$or" "$" = true := by decide

theorem starts_and : startsWith "$and" "$" = true := by decide

theorem starts_name : startsWith "name" "$" = false := by decide

/-- A search that both evaluators read alike. -/
theorem either_name_agrees : Agree SqlQueryBuilder.sampleHost customersSchema (fun _ _ _ => none) adaRow adaCell
    (.obj [("$or", .arr [.obj [("name", .obj [("$eq", .str "Ada")])], .obj [("name", .obj [("$in", .arr [])])]])]) := by
  have hfield : ∀ field, customersSchema.getField SqlQueryBuilder.sampleHost "name" = some field → field.name = "name" := by
    decide
  refine agree_of_faithful _ adaRow_rowOf ?_ ?_
  · simp [Built, BuiltMembers, BuiltList, BuiltItems, BuiltField, filterOperators, starts_or, starts_name]
  · have hget : MemoryNodeRow.get adaRow "name" = some (.str "Ada") := rfl
    simp [Faithful, FaithfulMembers, FaithfulList, FaithfulItems, FaithfulOr, FaithfulField, starts_or, starts_name,
      emptyFilter, emptyMembers, Comparable, sameKind, hget]
    exact hfield

/-- An empty disjunction, a field without an operator, an empty clause beside another, an empty filter in a
disjunction, the name of a field in other letters, and NULL as an operand. -/
def differing : List FilterValue := [
  .obj [("$or", .arr [])],
  .obj [("name", .obj [])],
  .obj [("$and", .arr []), ("name", .obj [("$eq", .str "Ada")])],
  .obj [("$or", .arr [.obj [], .obj [("name", .obj [("$eq", .str "Bob")])]])],
  .obj [("Name", .obj [("$eq", .str "Ada")])],
  .obj [("name", .obj [("$ne", .null)])]]

/-- **Filters that are read differently**: SQL and memory differ on the row of Ada. -/
theorem read_differently : RowOf customersSchema adaRow adaCell ∧ ∀ filter ∈ differing, Built filter ∧
    ¬ Agree SqlQueryBuilder.sampleHost customersSchema (fun _ _ _ => none) adaRow adaCell filter := by
  have hName : startsWith "Name" "$" = false := by decide
  refine ⟨adaRow_rowOf, ?_⟩
  simp only [differing, List.forall_mem_cons, List.not_mem_nil, false_imp_iff, implies_true, and_true, Built,
    BuiltMembers, BuiltList, BuiltItems, BuiltField, starts_or, starts_and, starts_name, hName]
  refine ⟨⟨by simp, not_agree_of (by decide)⟩, ⟨by simp, not_agree_of (by decide)⟩,
    ⟨by simp [filterOperators], not_agree_of (by decide)⟩,
    ⟨by simp [filterOperators], not_agree_of (by decide)⟩,
    ⟨by simp [filterOperators], not_agree_of (by decide)⟩,
    by simp [filterOperators], not_agree_of (by decide)⟩

end NpsSdk.Nwp.Query
