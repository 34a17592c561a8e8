import NpsSdk.Lib.Except
import NpsSdk.Nwp.Query.QueryShapes
import NpsSdk.Nwp.Query.SqlExecutor
import NpsSdk.Nwp.Query.SqlMemoryNodeProvider

/-!
# No value gets into the text of a query

The names in the text of a query are declared in the schema, and its marks are the names of the parameters, each
of which is bound to the value at its place in the filter.
-/

namespace NpsSdk.Nwp.Query

open NpsSdk.Lib NpsSdk.Lib.Sql

/-! ### The values of a filter -/

namespace NwpFilterTranslator

section

variable (host : Host)

def operatorValues (op : String) (value : FilterValue) : List FilterValue :=
  if op = "$in" ∨ op = "$nin" then
    match value with
    | .arr (item :: items) => [.arr ((item :: items).map (extractValue host))]
    | _ => []
  else if op = "$between" then
    match value with
    | .arr [low, high] => [extractValue host low, extractValue host high]
    | _ => []
  else ((comparison host op value).map Prod.snd).toList

def conditionValues : FilterValue → List FilterValue
  | .obj members => members.flatMap fun m => operatorValues host m.1 m.2
  | _ => []

mutual
/-- The values of a filter, in the order in which they stand in it. -/
def values : FilterValue → List FilterValue
  | .obj members => memberValues members
  | .arr items => items.flatMap (conditionValues host)
  | _ => []
def memberValues : List (String × FilterValue) → List FilterValue
  | [] => []
  | (name, value) :: members =>
    (if startsWith name "$" then listValues value else conditionValues host value) ++ memberValues members
def listValues : FilterValue → List FilterValue
  | .arr items => itemValues items
  | _ => []
def itemValues : List FilterValue → List FilterValue
  | [] => []
  | el :: items => values el ++ itemValues items
end

end

/-! ### What a translation adds -/

def bindAll (t : Translation) (vs : List FilterValue) : Translation :=
  vs.foldl (fun t v => ⟨t.paramIndex + 1, SqlParameters.add t.parameters (paramName t.paramIndex) v⟩) t

def nextNames (i k : ℕ) : List String := (List.range' i k).map paramName

theorem paramIndex_bindAll (t : Translation) (vs : List FilterValue) :
    (bindAll t vs).paramIndex = t.paramIndex + vs.length := by
  induction vs generalizing t with
  | nil => rfl
  | cons v vs ih =>
    show (bindAll _ vs).paramIndex = _
    rw [ih, List.length_cons]
    show t.paramIndex + 1 + vs.length = _
    omega

variable {α β γ : Type} {host : Host} {schema : SqlMemoryNodeSchema}

/-- A translation that binds the values under the next names, marks exactly these in its result, and names
columns that satisfy `declared`. -/
def Emits (declared : String → Prop) (pieces : α → List Piece) (m : Translate α) (vs : List FilterValue) : Prop :=
  ∀ t a t', m t = .ok (a, t') → t' = bindAll t vs ∧
    (pieces a).filterMap Piece.mark? = nextNames t.paramIndex vs.length ∧ ∀ n, .name n ∈ pieces a → declared n

section

variable {declared : String → Prop} {pieces : α → List Piece} {pieces' : β → List Piece} {m : Translate α}
  {vs ws : List FilterValue}

theorem Emits.fail {e : NwpFilterError} : Emits declared pieces (fail e) vs := by
  intro t a t' h
  cases h

theorem Emits.map {f : α → β} (h : Emits declared pieces m vs)
    (hmarks : ∀ a, (pieces' (f a)).filterMap Piece.mark? = (pieces a).filterMap Piece.mark?)
    (hnames : ∀ a n, .name n ∈ pieces' (f a) → .name n ∈ pieces a) : Emits declared pieces' (f <$> m) vs := by
  intro t b t' hrun
  obtain ⟨r, hm, hrun⟩ := ok_bind.1 hrun
  cases hrun
  obtain ⟨ht, hnext, hdecl⟩ := h t r.1 r.2 hm
  exact ⟨ht, by rw [hmarks, hnext], fun n hn => hdecl n (hnames _ n hn)⟩

theorem Emits.cons {rest : Translate (List α)} (h : Emits declared pieces m vs)
    (hrest : Emits declared (fun as => as.flatMap pieces) rest ws) :
    Emits declared (fun as => as.flatMap pieces) (do
      let a ← m
      let as ← rest
      pure (a :: as)) (vs ++ ws) := by
  intro t b t' hrun
  obtain ⟨r, hm, hrun⟩ := ok_bind.1 hrun
  obtain ⟨r', hr, hrun⟩ := ok_bind.1 hrun
  cases hrun
  obtain ⟨ht, hnext, hdecl⟩ := h t r.1 r.2 hm
  obtain ⟨ht', hnext', hdecl'⟩ := hrest r.2 r'.1 r'.2 hr
  refine ⟨by rw [ht', ht]; exact List.foldl_append.symm, ?_, fun n hn => ?_⟩
  · change (r'.1.flatMap pieces).filterMap Piece.mark? = _ at hnext'
    show ((r.1 :: r'.1).flatMap pieces).filterMap Piece.mark? = _
    rw [List.flatMap_cons, List.filterMap_append, hnext, hnext', ht, paramIndex_bindAll, List.length_append,
      nextNames, nextNames, nextNames, ← List.map_append, List.range'_append_1]
  · change _ ∈ (r.1 :: r'.1).flatMap pieces at hn
    rw [List.flatMap_cons] at hn
    rcases List.mem_append.1 hn with hn | hn
    · exact hdecl n hn
    · exact hdecl' n hn

theorem Emits.nil : Emits declared (fun as : List α => as.flatMap pieces) (pure []) [] := by
  intro t a t' h
  cases h
  exact ⟨rfl, rfl, fun n hn => absurd hn List.not_mem_nil⟩

theorem Emits.mapM {f : γ → Translate α} {g : γ → List FilterValue} (h : ∀ c, Emits declared pieces (f c) (g c))
    (l : List γ) : Emits declared (fun as => as.flatMap pieces) (l.mapM f) (l.flatMap g) := by
  induction l with
  | nil => exact Emits.nil
  | cons c l ih =>
    rw [List.mapM_cons, List.flatMap_cons]
    exact (h c).cons ih

end

/-! ### What the translation of a filter adds -/

def Declares (schema : SqlMemoryNodeSchema) (name : String) : Prop :=
  name = schema.tableName ∨ name = schema.primaryKey ∨
    ∃ f ∈ schema.fields, name = f.name ∨ name = resolvedColumnName f

section

variable {declared : String → Prop} {col : String} (hcol : declared col)

include hcol in
theorem planSimple_emits (op fieldName : String) (v : FilterValue) : Emits declared Condition.pieces
    (planSimple host col op fieldName v) ((comparison host op v).map Prod.snd).toList := by
  intro t a t' h
  unfold planSimple at h
  cases hop : comparison host op v with
  | none => rw [hop] at h; cases h
  | some c =>
    rw [hop] at h
    cases h
    refine ⟨rfl, by rw [Condition.pieces]; rfl, fun n hn => ?_⟩
    simp only [Condition.pieces, List.mem_cons, Piece.name.injEq, reduceCtorEq, List.not_mem_nil, or_false] at hn
    rw [hn]
    exact hcol

include hcol in
theorem planIn_emits (v : FilterValue) (negate : Bool) : Emits declared Condition.pieces (planIn host col v negate)
    (match v with
      | .arr (item :: items) => [.arr ((item :: items).map (extractValue host))]
      | _ => []) := by
  intro t a t' h
  unfold planIn at h
  cases v with
  | arr items =>
    cases items with
    | nil =>
      cases h
      exact ⟨rfl, by simp [Condition.pieces, Piece.mark?, nextNames], fun n hn => by
        simp [Condition.pieces] at hn⟩
    | cons item items =>
      cases h
      refine ⟨rfl, by rw [Condition.pieces]; rfl, fun n hn => ?_⟩
      simp only [Condition.pieces, List.mem_cons, Piece.name.injEq, reduceCtorEq, List.not_mem_nil, or_false] at hn
      rw [hn]
      exact hcol
  | _ => cases h

include hcol in
theorem planBetween_emits (v : FilterValue) : Emits declared Condition.pieces (planBetween host col v)
    (match v with
      | .arr [low, high] => [extractValue host low, extractValue host high]
      | _ => []) := by
  intro t a t' h
  cases v with
  | arr items =>
    rcases items with _ | ⟨low, _ | ⟨high, _ | ⟨_, _⟩⟩⟩
    · cases h
    · cases h
    · cases h
      refine ⟨rfl, by rw [Condition.pieces]; rfl, fun n hn => ?_⟩
      simp only [Condition.pieces, List.mem_cons, Piece.name.injEq, reduceCtorEq, List.not_mem_nil, or_false] at hn
      rw [hn]
      exact hcol
    · cases h
  | _ => cases h

include hcol in
theorem planOperator_emits (fieldName op : String) (v : FilterValue) :
    Emits declared Condition.pieces (planOperator host col fieldName op v) (operatorValues host op v) := by
  unfold planOperator operatorValues
  by_cases hin : op = "$in"
  · rw [if_pos hin, if_pos (.inl hin)]
    exact planIn_emits hcol v false
  · by_cases hnin : op = "$nin"
    · rw [if_neg hin, if_pos hnin, if_pos (.inr hnin)]
      exact planIn_emits hcol v true
    · have hno : ¬ (op = "$in" ∨ op = "$nin") := fun h => h.elim hin hnin
      rw [if_neg hin, if_neg hnin, if_neg hno]
      by_cases hbetween : op = "$between"
      · rw [if_pos hbetween, if_pos hbetween]
        exact planBetween_emits hcol v
      · rw [if_neg hbetween, if_neg hbetween]
        exact planSimple_emits hcol op fieldName v

end

theorem joinPieces_parts (sep : String) (cs : List Condition) :
    (joinPieces sep (Condition.partPieces cs)).filterMap Piece.mark? =
      (cs.flatMap Condition.pieces).filterMap Piece.mark? ∧
    ∀ n, .name n ∈ joinPieces sep (Condition.partPieces cs) → .name n ∈ cs.flatMap Condition.pieces := by
  rw [Condition.partPieces_eq]
  refine ⟨?_, fun n hn => ?_⟩
  · induction cs with
    | nil => rfl
    | cons c cs ih =>
      cases cs with
      | nil => simp [joinPieces]
      | cons d cs =>
        rw [List.map_cons, List.map_cons, joinPieces, List.filterMap_append, List.flatMap_cons, List.filterMap_append,
          ← ih]
        rfl
  · rcases mem_joinPieces hn with heq | ⟨p, hp, hmem⟩
    · cases heq
    · obtain ⟨c, hc, rfl⟩ := List.mem_map.1 hp
      exact List.mem_flatMap.2 ⟨c, hc, hmem⟩

theorem parenthesised_parts (sep : String) (cs : List Condition) :
    (Piece.word "(" :: (joinPieces sep (Condition.partPieces cs) ++ [.word ")"])).filterMap Piece.mark? =
      (cs.flatMap Condition.pieces).filterMap Piece.mark? ∧
    ∀ n, .name n ∈ Piece.word "(" :: (joinPieces sep (Condition.partPieces cs) ++ [.word ")"]) →
      .name n ∈ cs.flatMap Condition.pieces := by
  obtain ⟨hmarks, hnames⟩ := joinPieces_parts sep cs
  refine ⟨?_, fun n hn => hnames n ?_⟩
  · rw [List.filterMap_cons, List.filterMap_append, hmarks]
    exact List.append_nil _
  · simpa using hn

theorem parts_pieces (cs : List Condition) :
    (parts cs).pieces.filterMap Piece.mark? = (cs.flatMap Condition.pieces).filterMap Piece.mark? ∧
      ∀ n, .name n ∈ (parts cs).pieces → .name n ∈ cs.flatMap Condition.pieces := by
  rcases cs with _ | ⟨c, _ | ⟨d, cs⟩⟩
  · exact parenthesised_parts " AND " []
  · simp [parts]
  · exact parenthesised_parts " AND " (c :: d :: cs)

theorem conjoin_pieces (cs : List Condition) :
    (Condition.conjoin cs).pieces.filterMap Piece.mark? = (cs.flatMap Condition.pieces).filterMap Piece.mark? ∧
      ∀ n, .name n ∈ (Condition.conjoin cs).pieces → .name n ∈ cs.flatMap Condition.pieces := by
  rcases cs with _ | ⟨c, _ | ⟨d, cs⟩⟩
  · simp [Condition.conjoin, Condition.pieces]
  · simp [Condition.conjoin]
  · exact parenthesised_parts " AND " (c :: d :: cs)

theorem disjoin_pieces (cs : List Condition) :
    (Condition.disjoin cs).pieces.filterMap Piece.mark? = (cs.flatMap Condition.pieces).filterMap Piece.mark? ∧
      ∀ n, .name n ∈ (Condition.disjoin cs).pieces → .name n ∈ cs.flatMap Condition.pieces := by
  rcases cs with _ | ⟨c, _ | ⟨d, cs⟩⟩
  · simp [Condition.disjoin, Condition.pieces]
  · simp [Condition.disjoin]
  · exact parenthesised_parts " OR " (c :: d :: cs)

theorem flatMap_pieces_filter (cs : List Condition) :
    (cs.filter fun c => !c.isBlank).flatMap Condition.pieces = cs.flatMap Condition.pieces := by
  induction cs with
  | nil => rfl
  | cons c cs ih =>
    cases c with
    | blank => exact ih
    | _ => exact congrArg (_ ++ ·) ih

theorem planList_pieces (op : String) (cs : List Condition) :
    (planList op cs).pieces.filterMap Piece.mark? = (cs.flatMap Condition.pieces).filterMap Piece.mark? ∧
      ∀ n, .name n ∈ (planList op cs).pieces → .name n ∈ cs.flatMap Condition.pieces := by
  rw [← flatMap_pieces_filter]
  unfold planList
  dsimp only
  split
  · exact conjoin_pieces _
  · exact disjoin_pieces _

section

variable {declared : String → Prop} (hfields : ∀ f ∈ schema.fields, declared (resolvedColumnName f))

include hfields

theorem planField_emits (name : String) (v : FilterValue) : Emits declared Condition.pieces (planField host schema name v) (conditionValues host v) := by
  unfold planField validateField
  cases hfield : schema.getField host name with
  | none =>
    intro t a t' h
    cases h
  | some field =>
    have hcol : declared (resolvedColumnName field) := hfields field (schema.getField_mem host hfield)
    show Emits _ _ (planFieldCondition host field v) _
    cases v with
    | obj members =>
      exact (Emits.mapM (fun m => planOperator_emits hcol field.name m.1 m.2) members).map
        (fun cs => (parts_pieces cs).1) fun cs => (parts_pieces cs).2
    | _ => exact Emits.fail

omit hfields in
theorem indexed_flatMap (f : FilterValue → List FilterValue) (items : List FilterValue) :
    ((indexed items).flatMap fun e => f e.2) = items.flatMap f := by
  have hitems : (indexed items).map Prod.snd = items :=
    List.map_snd_zip (by rw [List.length_map, List.length_range])
  rw [← List.flatMap_map, hitems]

theorem entries_emits (items : List FilterValue) :
    Emits declared Condition.pieces
      (Condition.conjoin <$> (indexed items).mapM fun entry => planField host schema entry.1 entry.2)
      (items.flatMap (conditionValues host)) := by
  have hall : Emits declared (fun cs => cs.flatMap Condition.pieces)
      ((indexed items).mapM fun entry => planField host schema entry.1 entry.2)
      ((indexed items).flatMap fun entry => conditionValues host entry.2) :=
    Emits.mapM (fun entry => planField_emits hfields entry.1 entry.2) (indexed items)
  rw [indexed_flatMap] at hall
  exact hall.map (fun cs => (conjoin_pieces cs).1) fun cs => (conjoin_pieces cs).2

mutual
/-- **Translating a filter** binds its values in their order, and names fields of the schema only. -/
theorem planObject_emits : ∀ v : FilterValue,
    Emits declared Condition.pieces (planObject host schema v) (values host v)
  | .obj members => by
    rw [planObject, values]
    exact (planMembers_emits members).map (fun cs => (conjoin_pieces cs).1) fun cs => (conjoin_pieces cs).2
  | .arr items => by
    rw [planObject, values]
    exact entries_emits hfields items
  | .str s => by
    have hnone : (s.toList.map fun c => FilterValue.str (String.singleton c)).flatMap (conditionValues host) = [] := by
      rw [List.flatMap_map]
      exact List.flatMap_eq_nil_iff.2 fun c _ => rfl
    have hvalues : values host (.str s) = [] := by simp [values]
    rw [planObject, hvalues, ← hnone]
    exact entries_emits hfields _
  | .null => fun t a t' h => by cases h
  | .bool _ => fun t a t' h => by
    cases h
    exact ⟨rfl, rfl, fun n hn => absurd hn List.not_mem_nil⟩
  | .num _ => fun t a t' h => by
    cases h
    exact ⟨rfl, rfl, fun n hn => absurd hn List.not_mem_nil⟩
theorem planMembers_emits :
    ∀ members : List (String × FilterValue), Emits declared (fun cs => cs.flatMap Condition.pieces)
      (planMembers host schema members) (memberValues host members)
  | [] => Emits.nil
  | (name, value) :: members => by
    rw [planMembers, memberValues]
    split_ifs
    · exact (planLogical_emits name value).cons (planMembers_emits members)
    · exact (planField_emits hfields name value).cons (planMembers_emits members)
theorem planLogical_emits (op : String) :
    ∀ v : FilterValue, Emits declared Condition.pieces (planLogical host schema op v) (listValues host v)
  | .arr items => by
    rw [planLogical, listValues]
    cases separatorOf op with
    | none => exact Emits.fail
    | some separator =>
      exact (planParts_emits items).map (fun cs => (planList_pieces op cs).1) fun cs => (planList_pieces op cs).2
  | .obj _ => Emits.fail
  | .str _ => Emits.fail
  | .null => Emits.fail
  | .bool _ => Emits.fail
  | .num _ => Emits.fail
theorem planParts_emits :
    ∀ items : List FilterValue, Emits declared (fun cs => cs.flatMap Condition.pieces)
      (planParts host schema items) (itemValues host items)
  | [] => Emits.nil
  | el :: items => by
    rw [planParts, itemValues]
    exact (planObject_emits el).cons (planParts_emits items)
end

end

/-! ### Names of parameters -/

theorem toList_paramName (i : ℕ) : (paramName i).toList = 'p' :: Nat.toDigits 10 i := by
  rw [paramName, String.toList_append]
  show ['p'] ++ (Nat.repr i).toList = _
  rw [Nat.toList_repr]
  rfl

theorem paramName_injective : Function.Injective paramName := by
  intro i j h
  have hlist := congrArg String.toList h
  rw [toList_paramName, toList_paramName] at hlist
  have hdigits := congrArg (Nat.ofDigitChars 10 · 0) (List.tail_eq_of_cons_eq hlist)
  simpa using hdigits

theorem isMarkName_paramName (i : ℕ) : isMarkName (paramName i) = true := by
  unfold isMarkName
  rw [toList_paramName]
  refine Bool.and_eq_true_iff.2 ⟨rfl, List.all_eq_true.2 fun c hc => ?_⟩
  have hdigit := Nat.isDigit_of_mem_toDigits (by decide) (by decide) hc
  rw [isMarkChar, Char.isAlphanum, hdigit, Bool.or_true]
  rfl

theorem nextNames_nodup (i k : ℕ) : (nextNames i k).Nodup :=
  (List.nodup_range' (s := i)).map paramName_injective

theorem entries_bindAll (vs : List FilterValue) (t : Translation)
    (hfresh : ∀ n ∈ t.parameters.keys, n ∉ nextNames t.paramIndex vs.length) :
    (bindAll t vs).parameters.entries = t.parameters.entries ++ (nextNames t.paramIndex vs.length).zip vs := by
  induction vs generalizing t with
  | nil => exact (List.append_nil _).symm
  | cons v vs ih =>
    have hnames : nextNames t.paramIndex (v :: vs).length =
        paramName t.paramIndex :: nextNames (t.paramIndex + 1) vs.length := by
      rw [nextNames, List.length_cons, List.range'_succ, List.map_cons]
      rfl
    have hnew : paramName t.paramIndex ∉ t.parameters.keys := fun hmem =>
      hfresh _ hmem (hnames ▸ List.mem_cons_self)
    have hset : (SqlParameters.add t.parameters (paramName t.paramIndex) v).entries =
        t.parameters.entries ++ [(paramName t.paramIndex, v)] := JsMap.upsert_of_not_mem hnew
    have hnodup := nextNames_nodup t.paramIndex (v :: vs).length
    rw [hnames] at hnodup
    show (bindAll ⟨t.paramIndex + 1, SqlParameters.add t.parameters (paramName t.paramIndex) v⟩ vs).parameters.entries = _
    rw [ih]
    · show (SqlParameters.add t.parameters (paramName t.paramIndex) v).entries ++ _ = _
      rw [hset, hnames, List.zip_cons_cons, List.append_assoc]
      rfl
    · intro n hn hmem
      change n ∈ (SqlParameters.add t.parameters (paramName t.paramIndex) v).keys at hn
      change n ∈ nextNames (t.paramIndex + 1) vs.length at hmem
      rcases (JsMap.mem_keys_set _ _ _ _).1 hn with rfl | hn
      · exact (List.nodup_cons.1 hnodup).1 hmem
      · exact hfresh n hn (hnames ▸ List.mem_cons_of_mem _ hmem)

def filterValues (host : Host) (filter : Option FilterValue) : List FilterValue := (filter.map (values host)).getD []

theorem plan_emits {declared : String → Prop} (hfields : ∀ f ∈ schema.fields, declared (resolvedColumnName f))
    {filter : Option FilterValue} {c : Condition} {p : SqlParameters} (h : plan host schema filter = .ok (c, p)) :
    p.entries = (nextNames 0 (filterValues host filter).length).zip (filterValues host filter) ∧
      c.pieces.filterMap Piece.mark? = nextNames 0 (filterValues host filter).length ∧
      ∀ n, .name n ∈ c.pieces → declared n := by
  have hnone : filterValues host filter = [] → c = .blank → p = JsMap.empty →
      p.entries = (nextNames 0 (filterValues host filter).length).zip (filterValues host filter) ∧
      c.pieces.filterMap Piece.mark? = nextNames 0 (filterValues host filter).length ∧
      ∀ n, .name n ∈ c.pieces → declared n := by
    rintro hvalues rfl rfl
    rw [hvalues]
    exact ⟨rfl, rfl, fun n hn => absurd hn List.not_mem_nil⟩
  have hobject : ∀ v : FilterValue,
      ((planObject host schema v ⟨0, JsMap.empty⟩).map fun r => (r.1, r.2.parameters)) = .ok (c, p) →
      p.entries = (nextNames 0 (values host v).length).zip (values host v) ∧
      c.pieces.filterMap Piece.mark? = nextNames 0 (values host v).length ∧
      ∀ n, .name n ∈ c.pieces → declared n := by
    intro v hv
    cases hrun : planObject host schema v ⟨0, JsMap.empty⟩ with
    | error e => rw [hrun] at hv; cases hv
    | ok r =>
      rw [hrun] at hv
      cases hv
      obtain ⟨ht, hmarks, hnames⟩ := planObject_emits hfields v ⟨0, JsMap.empty⟩ r.1 r.2 hrun
      refine ⟨?_, hmarks, hnames⟩
      show r.2.parameters.entries = _
      rw [ht, entries_bindAll _ _ fun n hn => absurd hn List.not_mem_nil]
      rfl
  rcases filter with _ | _ | b | q | t | items | members
  · cases h
    exact hnone rfl rfl rfl
  · cases h
    exact hnone (by simp [filterValues, values]) rfl rfl
  · exact hobject (.bool b) h
  · exact hobject (.num q) h
  · exact hobject (.str t) h
  · exact hobject (.arr items) h
  · exact hobject (.obj members) h

theorem plan_spec {filter : Option FilterValue} {c : Condition} {p : SqlParameters}
    (h : plan host schema filter = .ok (c, p)) :
    p.entries = (nextNames 0 (filterValues host filter).length).zip (filterValues host filter) ∧
      c.pieces.filterMap Piece.mark? = nextNames 0 (filterValues host filter).length ∧
      ∀ n, .name n ∈ c.pieces → Declares schema n :=
  plan_emits (fun f hf => .inr (.inr ⟨f, hf, .inr rfl⟩)) h

end NwpFilterTranslator

/-! ### Emitted queries -/

open NwpFilterTranslator SqlQueryBuilder

/-- The identifiers in a text: what a dialect quotes. -/
def quotedNames : DatabaseDialect → String → List String
  | .sqlServer, sql => quoted '[' ']' none sql.toList
  | .postgreSql, sql => quoted '"' '"' none sql.toList

/-- The names of the parameters in a text. -/
def placeholders (sql : String) : List String := (tokens sql.toList).filterMap Token.mark?

/-- No name of the schema has a quote, a bracket or an `@`. -/
def Clean (schema : SqlMemoryNodeSchema) : Prop := ∀ n, Declares schema n → isPlain n = true

/-- The parameters of a page. -/
def pageOf (limit : ℚ) (offset : ℤ) : List (String × FilterValue) :=
  [("_limit", .num limit), ("_offset", .num offset)]

/-- The parameters of a page in the order in which a dialect writes them. -/
def pageOrder (limit : ℚ) (offset : ℤ) : DatabaseDialect → List (String × FilterValue)
  | .sqlServer => [("_offset", .num offset), ("_limit", .num limit)]
  | .postgreSql => [("_limit", .num limit), ("_offset", .num offset)]

/-- **What an emitted query has of a filter**, besides the parameters of a page, which are written in the order
`written`. -/
structure Sealed (host : Host) (schema : SqlMemoryNodeSchema) (dialect : DatabaseDialect)
    (filter : Option FilterValue) (page written : List (String × FilterValue)) (built : BuiltQuery) : Prop where
  /-- The identifiers are declared. -/
  names : ∀ n ∈ quotedNames dialect built.sql, Declares schema n
  /-- Each value of the filter is bound under the next name. -/
  params : built.params.entries =
    (nextNames 0 (filterValues host filter).length).zip (filterValues host filter) ++ page
  /-- The placeholders stand in the order of the values, those of the page behind them. -/
  marks : placeholders built.sql = nextNames 0 (filterValues host filter).length ++ written.map Prod.fst
  /-- The placeholders are the names of the parameters. -/
  keys : (placeholders built.sql).Perm built.params.keys
  /-- The positions count the arguments, which are the values in their order. -/
  positions : ∃ segments : List Segment, ∃ args : List (Option FilterValue),
    (∀ placeholder, expandNamedParameters built.params placeholder built.sql = (renderAll placeholder segments, args)) ∧
    segments.filterMap Segment.position? = List.range' 1 args.length ∧
    args = (filterValues host filter ++ written.map Prod.snd).flatMap fun v => spread (some v)

variable {host : Host} {schema : SqlMemoryNodeSchema} {dialect : DatabaseDialect} {frame : QueryFrame}
  {options : SqlQueryOptions}

theorem planSelectList_declares {fields : Option (List String)} {columns : List (String × Option String)}
    (h : planSelectList host schema fields = .ok columns) :
    ∀ c ∈ columns, ∀ n ∈ c.1 :: c.2.toList, Declares schema n := by
  intro c hc n hn
  unfold planSelectList at h
  split at h
  · cases h
    obtain ⟨f, hf, rfl⟩ := List.mem_map.1 hc
    exact .inr (.inr ⟨f, hf, .inr (List.mem_singleton.1 hn)⟩)
  · obtain ⟨name, -, hcol⟩ := exists_of_mem_mapM h hc
    unfold planColumn at hcol
    split at hcol
    · cases hcol
    · rename_i f hfield
      have hf := schema.getField_mem host hfield
      cases hcol
      rcases List.mem_cons.1 hn with rfl | hn
      · exact .inr (.inr ⟨f, hf, .inr rfl⟩)
      · dsimp only at hn
        split at hn
        · exact .inr (.inr ⟨f, hf, .inl (List.mem_singleton.1 hn)⟩)
        · cases hn

theorem planOrderBy_declares {order : List QueryOrderClause} {terms : List OrderTerm}
    (h : planOrderBy host schema order = .ok terms) : ∀ t ∈ terms, Declares schema t.column := by
  intro t ht
  unfold planOrderBy at h
  split at h
  · cases h
    rw [List.mem_singleton.1 ht]
    exact .inr (.inl rfl)
  · obtain ⟨o, -, hterm⟩ := exists_of_mem_mapM h ht
    unfold planTerm at hterm
    split at hterm
    · cases hterm
    · rename_i f hfield
      cases hterm
      exact .inr (.inr ⟨f, schema.getField_mem host hfield, .inr rfl⟩)

theorem names_declared {sel : Select} {p : SqlParameters} (h : SqlQueryBuilder.plan host schema frame = .ok (sel, p)) :
    NwpFilterTranslator.plan host schema frame.filter = .ok (sel.filter, p) ∧ ∀ n ∈ sel.names, Declares schema n := by
  unfold SqlQueryBuilder.plan at h
  obtain ⟨columns, hcolumns, h⟩ := ok_bind.1 h
  obtain ⟨r, hfilter, h⟩ := ok_bind.1 h
  obtain ⟨orderBy, horder, h⟩ := ok_bind.1 h
  cases h
  refine ⟨hfilter, fun n hn => ?_⟩
  simp only [Select.names, List.mem_append, List.mem_flatMap, List.mem_map,
    List.mem_cons (a := n) (b := schema.tableName), List.mem_filterMap] at hn
  rcases hn with (⟨c, hc, hn⟩ | rfl | ⟨x, hx, hn⟩) | ⟨t, ht, rfl⟩
  · exact planSelectList_declares hcolumns c hc n hn
  · exact .inl rfl
  · cases x with
    | name m =>
      cases hn
      exact (plan_spec hfilter).2.2 n hx
    | word w => cases hn
    | mark m => cases hn
  · exact planOrderBy_declares horder t ht

theorem underscore_not_mem (s : String) (hs : s.toList.head? = some '_') (i k : ℕ) : s ∉ nextNames i k := by
  intro h
  obtain ⟨j, -, rfl⟩ := List.mem_map.1 h
  rw [toList_paramName] at hs
  cases hs

theorem entries_pageParameters {p : SqlParameters} {vs : List FilterValue} {k : ℕ}
    (hp : p.entries = (nextNames 0 k).zip vs) (limit : ℚ) (offset : ℤ) :
    (pageParameters p limit offset).entries = (nextNames 0 k).zip vs ++ pageOf limit offset := by
  have hkeys : ∀ s : String, s.toList.head? = some '_' → s ∉ p.keys := by
    intro s hs hmem
    rw [JsMap.keys, hp] at hmem
    obtain ⟨e, he, rfl⟩ := List.mem_map.1 hmem
    exact underscore_not_mem _ hs 0 k (List.of_mem_zip he).1
  have hlimit : (SqlParameters.add p "_limit" (.num limit)).entries = p.entries ++ [("_limit", .num limit)] :=
    JsMap.upsert_of_not_mem (hkeys _ rfl)
  have hoffset : (pageParameters p limit offset).entries =
      (SqlParameters.add p "_limit" (.num limit)).entries ++ [("_offset", .num offset)] := by
    refine JsMap.upsert_of_not_mem fun hmem => ?_
    change _ ∈ (JsMap.set p "_limit" _).keys at hmem
    rcases (JsMap.mem_keys_set _ _ _ _).1 hmem with heq | hmem
    · exact absurd heq (by decide)
    · exact hkeys _ rfl hmem
  rw [hoffset, hlimit, hp, List.append_assoc]
  rfl

theorem map_get_of_entries {params : SqlParameters} {es : List (String × FilterValue)}
    (h : ∀ e ∈ es, e ∈ params.entries) : (es.map Prod.fst).map (JsMap.get params) = (es.map Prod.snd).map some := by
  rw [List.map_map, List.map_map]
  exact List.map_congr_left fun e he => (JsMap.mem_entries_iff _ _ _).1 (h e he)

/-- A text whose pieces keep to their characters, with the parameters that its marks name. -/
theorem sealed_of_pieces {filter : Option FilterValue} {page written : List (String × FilterValue)} {sql : String}
    {params : SqlParameters} {ps : List Piece} (htext : sql.toList = ps.flatMap (Piece.text dialect.quote))
    (htidy : Tidy ps) (hwords : ∀ w, .word w ∈ ps → isPlain w = true)
    (hnames : ∀ n, .name n ∈ ps → isPlain n = true ∧ Declares schema n)
    (hmarks : ps.filterMap Piece.mark? = nextNames 0 (filterValues host filter).length ++ written.map Prod.fst)
    (hwritten : written.Perm page) (hpage : ∀ e ∈ page, isMarkName e.1 = true)
    (hparams : params.entries =
      (nextNames 0 (filterValues host filter).length).zip (filterValues host filter) ++ page) :
    Sealed host schema dialect filter page written ⟨sql, params⟩ := by
  generalize hvs : filterValues host filter = vs at hmarks hparams
  have hlex : ∀ x ∈ ps, x.Lexical := by
    intro x hx
    cases x with
    | word w => exact hwords w hx
    | name n => exact (hnames n hx).1
    | mark m =>
      have hmem : m ∈ nextNames 0 vs.length ++ written.map Prod.fst :=
        hmarks ▸ List.mem_filterMap.2 ⟨_, hx, rfl⟩
      rcases List.mem_append.1 hmem with hmem | hmem
      · obtain ⟨i, -, rfl⟩ := List.mem_map.1 hmem
        exact isMarkName_paramName i
      · obtain ⟨e, he, rfl⟩ := List.mem_map.1 hmem
        exact hpage e (hwritten.mem_iff.1 he)
  have hquote : ∀ s, isPlain s = true → ∀ c ∈ (dialect.quote s).toList, c ≠ '@' := by
    rintro s hs c hc rfl
    have hin : '@' ∈ s.toList := by
      cases dialect <;> simpa [DatabaseDialect.quote] using hc
    exact absurd (List.all_eq_true.1 hs _ hin) (by decide)
  have hplaceholders : placeholders sql = nextNames 0 vs.length ++ written.map Prod.fst := by
    rw [placeholders, htext, tokens_pieces dialect.quote hquote hlex htidy, marks_tokens, hmarks]
  have hfound : quotedNames dialect sql = ps.filterMap Piece.name? := by
    cases dialect with
    | sqlServer =>
      rw [quotedNames, htext]
      exact quoted_pieces (by decide) (by decide) (by decide) (by decide)
        (fun s => by simp [DatabaseDialect.quote]) hlex
    | postgreSql =>
      rw [quotedNames, htext]
      exact quoted_pieces (by decide) (by decide) (by decide) (by decide)
        (fun s => by simp [DatabaseDialect.quote]) hlex
  have hlen : (nextNames 0 vs.length).length = vs.length := by
    rw [nextNames, List.length_map, List.length_range']
  have hfst : ((nextNames 0 vs.length).zip vs).map Prod.fst = nextNames 0 vs.length :=
    List.map_fst_zip (Nat.le_of_eq hlen)
  have hsnd : ((nextNames 0 vs.length).zip vs).map Prod.snd = vs := List.map_snd_zip (Nat.le_of_eq hlen.symm)
  constructor
  · intro n hn
    rw [hfound] at hn
    obtain ⟨x, hx, hxn⟩ := List.mem_filterMap.1 hn
    cases x with
    | name m =>
      cases hxn
      exact (hnames n hx).2
    | word w => cases hxn
    | mark m => cases hxn
  · rw [hvs]
    exact hparams
  · rw [hvs]
    exact hplaceholders
  · show (placeholders sql).Perm (params.entries.map Prod.fst)
    rw [hplaceholders, hparams, List.map_append, hfst]
    exact List.Perm.append_left _ (hwritten.map _)
  · obtain ⟨segments, args, hrender, hpositions, hargs⟩ := positional params 0 (tokens sql.toList)
    refine ⟨segments, args, hrender, hpositions, ?_⟩
    have hbound : ∀ e ∈ (nextNames 0 vs.length).zip vs ++ written, e ∈ params.entries := by
      intro e he
      rw [hparams]
      rcases List.mem_append.1 he with he | he
      · exact List.mem_append_left _ he
      · exact List.mem_append_right _ (hwritten.mem_iff.1 he)
    have hall := map_get_of_entries hbound
    rw [List.map_append (f := Prod.fst), List.map_append (f := Prod.snd), hfst, hsnd] at hall
    rw [hargs, hvs]
    change (placeholders sql).flatMap _ = _
    rw [hplaceholders, ← List.flatMap_map, hall, List.flatMap_map]

theorem sealed_of_build (hclean : Clean schema) {built : BuiltQuery}
    (h : build host schema dialect frame options = .ok built) :
    Sealed host schema dialect frame.filter (pageOf (options.limitOf frame) (decodeCursor host frame.cursor))
      (pageOrder (options.limitOf frame) (decodeCursor host frame.cursor) dialect) built := by
  rw [build_eq] at h
  cases hplan : SqlQueryBuilder.plan host schema frame with
  | error e => rw [hplan] at h; cases h
  | ok r =>
    obtain ⟨sel, p⟩ := r
    rw [hplan] at h
    cases h
    obtain ⟨hfilter, hnames⟩ := names_declared hplan
    obtain ⟨hentries, hmarks, -⟩ := plan_spec hfilter
    refine sealed_of_pieces (sel.text_pieces dialect.quote (paging dialect)) (sel.tidy (paging dialect))
      (fun w hw => ?_) (fun n hn => ?_) ?_ ?_ ?_ (entries_pageParameters hentries _ _)
    · rcases sel.pieces_cases (paging dialect) hw with ⟨w', hw', hplain⟩ | ⟨n, -, hn⟩ | ⟨m, hm, -⟩
      · cases hw'
        exact hplain
      · cases hn
      · cases hm
    · rcases sel.pieces_cases (paging dialect) hn with ⟨w, hw, -⟩ | ⟨n', hn', heq⟩ | ⟨m, hm, -⟩
      · cases hw
      · cases heq
        exact ⟨hclean n (hnames n hn'), hnames n hn'⟩
      · cases hm
    · rw [sel.marks_eq, hmarks]
      cases dialect <;> rfl
    · cases dialect with
      | sqlServer => exact List.Perm.swap _ _ _
      | postgreSql => exact List.Perm.refl _
    · intro e he
      simp only [pageOf, List.mem_cons, List.not_mem_nil, or_false] at he
      rcases he with rfl | rfl
      · show isMarkName "_limit" = true
        decide
      · show isMarkName "_offset" = true
        decide

theorem sealed_of_buildCount (hclean : Clean schema) {built : BuiltQuery}
    (h : buildCount host schema dialect frame = .ok built) : Sealed host schema dialect frame.filter [] [] built := by
  rw [buildCount_eq] at h
  cases hplan : NwpFilterTranslator.plan host schema frame.filter with
  | error e => rw [hplan] at h; cases h
  | ok r =>
    obtain ⟨c, p⟩ := r
    rw [hplan] at h
    cases h
    obtain ⟨hentries, hmarks, hnames⟩ := plan_spec hplan
    refine sealed_of_pieces (Select.countText_pieces dialect.quote schema.tableName c)
      (Select.countPieces_tidy schema.tableName c) (fun w hw => ?_) (fun n hn => ?_) ?_ (List.Perm.refl _)
      (fun e he => absurd he List.not_mem_nil) (by rw [hentries, List.append_nil])
    · simp only [Select.countPieces, List.mem_cons, Piece.word.injEq, reduceCtorEq, false_or] at hw
      rcases hw with rfl | hw
      · decide
      · rcases Select.wherePieces_cases hw with ⟨w', hw', hplain⟩ | ⟨n, hn, -⟩ | ⟨m, hm, -⟩
        · cases hw'
          exact hplain
        · cases hn
        · cases hm
    · simp only [Select.countPieces, List.mem_cons, Piece.name.injEq, reduceCtorEq, false_or] at hn
      have hdeclared : Declares schema n := by
        rcases hn with rfl | hn
        · exact .inl rfl
        · rcases Select.wherePieces_cases hn with ⟨w, hw, -⟩ | ⟨n', hn', hmem⟩ | ⟨m, hm, -⟩
          · cases hw
          · cases hn'
            exact hnames n hmem
          · cases hm
      exact ⟨hclean n hdeclared, hdeclared⟩
    · show (Select.wherePieces c).filterMap Piece.mark? = _
      rw [Select.wherePieces_marks, hmarks]
      exact (List.append_nil _).symm

theorem map_fst_congr {α β γ : Type} {x y : Except Thrown (α × β)} (h : x.map Prod.fst = y.map Prod.fst) (f : α → γ) :
    x.map (fun r => f r.1) = y.map fun r => f r.1 := by
  have hmap : ∀ z : Except Thrown (α × β), z.map (fun r => f r.1) = (z.map Prod.fst).map f := by
    intro z
    cases z <;> rfl
  rw [hmap, hmap, h]

def customersSchema : SqlMemoryNodeSchema where
  tableName := "customers"
  primaryKey := "id"
  fields := [{ name := "name", columnName := some "full_name" }]

theorem customersSchema_clean : Clean customersSchema := by
  rintro n (rfl | rfl | ⟨f, hf, hn⟩)
  · decide
  · decide
  · rw [List.mem_singleton.1 hf] at hn
    rcases hn with rfl | rfl <;> decide

def namedOneOf (items : List FilterValue) : QueryFrame where
  filter := some (.obj [("name", .obj [("$in", .arr items)])])

end NpsSdk.Nwp.Query
