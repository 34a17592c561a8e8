import NpsSdk.Nwp.Query.EmittedSql

/-!
# Shapes of queries

A filter without its values has the same condition, so the text of a query depends on the shape of its filter
only.
-/

namespace NpsSdk.Nwp.Query

open NpsSdk.Lib NpsSdk.Lib.Sql

namespace FilterValue

/-- The operand of an operator without its values; the length of a list remains. -/
def operandShape (op : String) (v : FilterValue) : FilterValue :=
  if op = "$in" ∨ op = "$nin" ∨ op = "$between" then
    match v with
    | .arr items => .arr (items.map fun _ => .null)
    | _ => .null
  else .null

/-- The condition of a field without its values. -/
def conditionShape : FilterValue → FilterValue
  | .obj members => .obj (members.map fun m => (m.1, operandShape m.1 m.2))
  | _ => .null

mutual
/-- A filter without its values: its fields and operators, and the lengths of its lists. -/
def shape : FilterValue → FilterValue
  | .obj members => .obj (memberShapes members)
  | .arr items => .arr (items.map conditionShape)
  | .str s => .str s
  | .null => .null
  | .bool _ | .num _ => .bool false
def memberShapes : List (String × FilterValue) → List (String × FilterValue)
  | [] => []
  | (name, value) :: members =>
    (name, if startsWith name "$" then listShape value else conditionShape value) :: memberShapes members
def listShape : FilterValue → FilterValue
  | .arr items => .arr (itemShapes items)
  | _ => .null
def itemShapes : List FilterValue → List FilterValue
  | [] => []
  | el :: items => shape el :: itemShapes items
end

end FilterValue

/-- Frames that differ in values only: in those of their filters, and in their limits, offsets and cursors. -/
structure SameShape (f g : QueryFrame) : Prop where
  filter : f.filter.map FilterValue.shape = g.filter.map FilterValue.shape
  fields : f.fields = g.fields
  orderBy : f.orderBy = g.orderBy

namespace NwpFilterTranslator

open FilterValue

variable {α β : Type} {host : Host} {schema : SqlMemoryNodeSchema}

/-- Translations that come to the same, but for the values of the parameters. -/
def Alike (m m' : Translate α) : Prop :=
  ∀ t t' : Translation, t.paramIndex = t'.paramIndex →
    (m t).map (fun r => (r.1, r.2.paramIndex)) = (m' t').map fun r => (r.1, r.2.paramIndex)

theorem Alike.pure (a : α) : Alike (pure a : Translate α) (pure a) := fun t t' ht => by
  show Except.ok (a, t.paramIndex) = Except.ok (a, t'.paramIndex)
  rw [ht]

theorem Alike.fail (e : Thrown) : Alike (throw e : Translate α) (throw e) := fun _ _ _ => rfl

theorem Alike.symm {m m' : Translate α} (h : Alike m m') : Alike m' m := fun t t' ht => (h t' t ht.symm).symm

theorem Alike.trans {m m' m'' : Translate α} (h : Alike m m') (h' : Alike m' m'') : Alike m m'' :=
  fun t t' ht => (h t t rfl).trans (h' t t' ht)

theorem Alike.bind {m m' : Translate α} {f f' : α → Translate β} (hm : Alike m m') (hf : ∀ a, Alike (f a) (f' a)) :
    Alike (m >>= f) (m' >>= f') := by
  intro t t' ht
  have hstep := hm t t' ht
  show Except.map _ (Except.bind (m t) fun r => f r.1 r.2) = Except.map _ (Except.bind (m' t') fun r => f' r.1 r.2)
  cases hmt : m t with
  | error e =>
    cases hmt' : m' t' with
    | error e' =>
      rw [hmt, hmt'] at hstep
      cases hstep
      rfl
    | ok r' =>
      rw [hmt, hmt'] at hstep
      cases hstep
  | ok r =>
    cases hmt' : m' t' with
    | error e' =>
      rw [hmt, hmt'] at hstep
      cases hstep
    | ok r' =>
      rw [hmt, hmt'] at hstep
      obtain ⟨hvalue, hindex⟩ := Prod.mk.inj (Except.ok.inj hstep)
      show (f r.1 r.2).map _ = (f' r'.1 r'.2).map _
      rw [hvalue]
      exact hf r'.1 r.2 r'.2 hindex

theorem Alike.map {m m' : Translate α} (hm : Alike m m') (f : α → β) : Alike (f <$> m) (f <$> m') := by
  rw [map_eq_pure_bind, map_eq_pure_bind]
  exact hm.bind fun a => Alike.pure (f a)

theorem Alike.mapM {γ : Type} {f g : γ → Translate α} {h : γ → γ} (hfg : ∀ c, Alike (f c) (g (h c))) (l : List γ) :
    Alike (l.mapM f) ((l.map h).mapM g) := by
  induction l with
  | nil => exact Alike.pure []
  | cons c l ih =>
    rw [List.map_cons, List.mapM_cons, List.mapM_cons]
    exact (hfg c).bind fun a => ih.bind fun as => Alike.pure (a :: as)

theorem alike_nextParam : Alike nextParam nextParam := fun t t' ht => by
  show Except.ok (paramName t.paramIndex, t.paramIndex + 1) = Except.ok (paramName t'.paramIndex, t'.paramIndex + 1)
  rw [ht]

theorem alike_addParam (name : String) (v v' : FilterValue) : Alike (addParam name v) (addParam name v') :=
  fun t t' ht => by
    show Except.ok (PUnit.unit, t.paramIndex) = Except.ok (PUnit.unit, t'.paramIndex)
    rw [ht]

theorem planSimple_alike (col op fieldName : String) (v v' : FilterValue) :
    Alike (planSimple host col op fieldName v) (planSimple host col op fieldName v') := by
  have hop : (comparison host op v).map Prod.fst = (comparison host op v').map Prod.fst := by
    unfold comparison
    split_ifs <;> rfl
  refine alike_nextParam.bind fun name => ?_
  cases h : comparison host op v with
  | none =>
    cases h' : comparison host op v' with
    | none => exact Alike.fail _
    | some c' => rw [h, h'] at hop; cases hop
  | some c =>
    cases h' : comparison host op v' with
    | none => rw [h, h'] at hop; cases hop
    | some c' =>
      rw [h, h'] at hop
      obtain ⟨op, value⟩ := c
      obtain ⟨op', value'⟩ := c'
      cases hop
      exact (alike_addParam name _ _).bind fun _ => Alike.pure _

theorem planIn_alike (col : String) (v : FilterValue) (negate : Bool) : Alike (planIn host col v negate)
    (planIn host col (match v with
      | .arr items => .arr (items.map fun _ => .null)
      | _ => .null) negate) := by
  cases v with
  | arr items =>
    unfold planIn
    cases items with
    | nil => exact Alike.pure _
    | cons item items =>
      exact alike_nextParam.bind fun name => (alike_addParam name _ _).bind fun _ => Alike.pure _
  | _ => exact Alike.fail _

theorem planBetween_alike (col : String) (v : FilterValue) : Alike (planBetween host col v)
    (planBetween host col (match v with
      | .arr items => .arr (items.map fun _ => .null)
      | _ => .null)) := by
  cases v with
  | arr items =>
    rcases items with _ | ⟨low, _ | ⟨high, _ | ⟨_, _⟩⟩⟩
    · exact Alike.fail _
    · exact Alike.fail _
    · exact alike_nextParam.bind fun low => alike_nextParam.bind fun high =>
        (alike_addParam low _ _).bind fun _ => (alike_addParam high _ _).bind fun _ => Alike.pure _
    · exact Alike.fail _
  | _ => exact Alike.fail _

theorem planOperator_alike (col fieldName op : String) (v : FilterValue) :
    Alike (planOperator host col fieldName op v) (planOperator host col fieldName op (operandShape op v)) := by
  unfold planOperator operandShape
  by_cases hin : op = "$in"
  · rw [if_pos hin, if_pos hin, if_pos (.inl hin)]
    exact planIn_alike col v false
  · by_cases hnin : op = "$nin"
    · rw [if_neg hin, if_pos hnin, if_neg hin, if_pos hnin, if_pos (.inr (.inl hnin))]
      exact planIn_alike col v true
    · by_cases hbetween : op = "$between"
      · rw [if_neg hin, if_neg hnin, if_pos hbetween, if_neg hin, if_neg hnin, if_pos hbetween,
          if_pos (.inr (.inr hbetween))]
        exact planBetween_alike col v
      · rw [if_neg hin, if_neg hnin, if_neg hbetween, if_neg hin, if_neg hnin, if_neg hbetween]
        exact planSimple_alike col op fieldName v _

theorem planField_alike (name : String) (v : FilterValue) :
    Alike (planField host schema name v) (planField host schema name (conditionShape v)) := by
  unfold planField
  refine Alike.bind (fun t t' ht => ?_) fun field => ?_
  · unfold validateField
    cases schema.getField host name with
    | none => rfl
    | some field => exact Alike.pure field t t' ht
  · cases v with
    | obj members => exact (Alike.mapM (fun m => planOperator_alike _ field.name m.1 m.2) members).map parts
    | _ => exact Alike.fail _

theorem indexed_map (f : FilterValue → FilterValue) (items : List FilterValue) :
    indexed (items.map f) = (indexed items).map fun e => (e.1, f e.2) := by
  unfold indexed
  rw [List.length_map, List.zip_map_right]
  rfl

mutual
/-- **Translating a filter and its shape** comes to the same condition. -/
theorem planObject_alike : ∀ v : FilterValue, Alike (planObject host schema v) (planObject host schema (shape v))
  | .obj members => by
    rw [shape, planObject, planObject]
    exact (planMembers_alike members).map _
  | .arr items => by
    rw [shape, planObject, planObject, indexed_map]
    exact (Alike.mapM (fun e => planField_alike e.1 e.2) _).map _
  | .str s => by
    have hself : ∀ e : String × FilterValue,
        Alike (planField host schema e.1 e.2) (planField host schema e.1 e.2) := fun e =>
      (planField_alike e.1 e.2).trans (planField_alike e.1 e.2).symm
    have hall := Alike.mapM (g := fun e => planField host schema e.1 e.2) (h := id) hself
      (indexed (s.toList.map fun c => .str (String.singleton c)))
    rw [List.map_id] at hall
    rw [shape, planObject]
    exact hall.map _
  | .null => Alike.fail _
  | .bool _ => Alike.pure _
  | .num _ => Alike.pure _
theorem planMembers_alike : ∀ members : List (String × FilterValue),
    Alike (planMembers host schema members) (planMembers host schema (memberShapes members))
  | [] => Alike.pure _
  | (name, value) :: members => by
    rw [memberShapes, planMembers, planMembers]
    have hrest := fun clause : Condition => (planMembers_alike members).bind
      (f := fun clauses => (pure (clause :: clauses) : Translate (List Condition))) fun clauses => Alike.pure _
    split_ifs
    · exact (planLogical_alike name value).bind hrest
    · exact (planField_alike name value).bind hrest
theorem planLogical_alike (op : String) : ∀ v : FilterValue,
    Alike (planLogical host schema op v) (planLogical host schema op (listShape v))
  | .arr items => by
    rw [listShape, planLogical, planLogical]
    cases separatorOf op with
    | none => exact Alike.fail _
    | some separator => exact (planParts_alike items).map _
  | .obj _ => Alike.fail _
  | .str _ => Alike.fail _
  | .null => Alike.fail _
  | .bool _ => Alike.fail _
  | .num _ => Alike.fail _
theorem planParts_alike : ∀ items : List FilterValue,
    Alike (planParts host schema items) (planParts host schema (itemShapes items))
  | [] => Alike.pure _
  | el :: items => by
    rw [itemShapes, planParts, planParts]
    exact (planObject_alike el).bind fun part => (planParts_alike items).bind fun parts => Alike.pure _
end

theorem plan_shape (filter : Option FilterValue) :
    (plan host schema filter).map Prod.fst = (plan host schema (filter.map shape)).map Prod.fst := by
  have hobject : ∀ v : FilterValue,
      ((planObject host schema v ⟨0, JsMap.empty⟩).map fun r => (r.1, r.2.parameters)).map Prod.fst =
        ((planObject host schema (shape v) ⟨0, JsMap.empty⟩).map fun r => (r.1, r.2.parameters)).map Prod.fst := by
    intro v
    have halike : Alike (planObject host schema v) (planObject host schema (shape v)) := planObject_alike v
    have hstep := congrArg (Except.map Prod.fst) (halike ⟨0, JsMap.empty⟩ ⟨0, JsMap.empty⟩ rfl)
    cases h : planObject host schema v ⟨0, JsMap.empty⟩ with
    | error e =>
      cases h' : planObject host schema (shape v) ⟨0, JsMap.empty⟩ with
      | error e' => rw [h, h'] at hstep; exact hstep
      | ok r' => rw [h, h'] at hstep; cases hstep
    | ok r =>
      cases h' : planObject host schema (shape v) ⟨0, JsMap.empty⟩ with
      | error e' => rw [h, h'] at hstep; cases hstep
      | ok r' => rw [h, h'] at hstep; exact hstep
  rcases filter with _ | _ | b | q | t | items | members
  · rfl
  · rfl
  · exact hobject (.bool b)
  · exact hobject (.num q)
  · exact hobject (.str t)
  · exact hobject (.arr items)
  · exact hobject (.obj members)

theorem plan_shape_congr {f g : Option FilterValue} (h : f.map shape = g.map shape) :
    (plan host schema f).map Prod.fst = (plan host schema g).map Prod.fst := by
  rw [plan_shape, h, ← plan_shape]

end NwpFilterTranslator

namespace SqlQueryBuilder

variable {host : Host} {schema : SqlMemoryNodeSchema} {dialect : DatabaseDialect} {f g : QueryFrame}

theorem plan_sameShape (h : SameShape f g) :
    (plan host schema f).map Prod.fst = (plan host schema g).map Prod.fst := by
  have hfilter : (NwpFilterTranslator.plan host schema f.filter).map Prod.fst =
      (NwpFilterTranslator.plan host schema g.filter).map Prod.fst := NwpFilterTranslator.plan_shape_congr h.filter
  unfold plan
  rw [h.fields, h.orderBy]
  cases planSelectList host schema g.fields with
  | error e => rfl
  | ok columns =>
    cases hf : NwpFilterTranslator.plan host schema f.filter with
    | error e =>
      cases hg : NwpFilterTranslator.plan host schema g.filter with
      | error e' => rw [hf, hg] at hfilter; cases hfilter; rfl
      | ok r' => rw [hf, hg] at hfilter; cases hfilter
    | ok r =>
      cases hg : NwpFilterTranslator.plan host schema g.filter with
      | error e' => rw [hf, hg] at hfilter; cases hfilter
      | ok r' =>
        rw [hf, hg] at hfilter
        have hcond : r.1 = r'.1 := Except.ok.inj hfilter
        cases planOrderBy host schema (g.orderBy.getD []) with
        | error e => rfl
        | ok orderBy =>
          show Except.ok ({ columns, table := _, filter := r.1, orderBy } : Select) =
            Except.ok ({ columns, table := _, filter := r'.1, orderBy } : Select)
          rw [hcond]

end SqlQueryBuilder

end NpsSdk.Nwp.Query
