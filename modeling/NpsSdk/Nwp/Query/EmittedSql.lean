import NpsSdk.Lib.Sql
import NpsSdk.Nwp.Query.SqlQueryBuilder

/-!
# The emitted queries as trees

The translation once more, with a condition in the place of its text and a query in the place of the text of a
query.  The texts that the builder emits are the texts of these trees.
-/

namespace NpsSdk.Nwp.Query

open NpsSdk.Lib NpsSdk.Lib.Sql

namespace NwpFilterTranslator

variable (host : Host) (schema : SqlMemoryNodeSchema) (dialect : DatabaseDialect)

/-- The comparison that an operator stands for, and the value that is bound. -/
def comparison (op : String) (value : FilterValue) : Option (CompareOp × FilterValue) :=
  if op = "$eq" then some (.eq, extractValue host value)
  else if op = "$ne" then some (.ne, extractValue host value)
  else if op = "$lt" then some (.lt, extractValue host value)
  else if op = "$lte" then some (.le, extractValue host value)
  else if op = "$gt" then some (.gt, extractValue host value)
  else if op = "$gte" then some (.ge, extractValue host value)
  else if op = "$contains" then some (.like, .str ("%" ++ printValue host (extractValue host value) ++ "%"))
  else none

def planSimple (col op fieldName : String) (value : FilterValue) : Translate Condition := do
  let paramName ← nextParam
  match comparison host op value with
  | some (op, value) =>
    addParam paramName value
    pure (.compare col op paramName)
  | none => fail { message := "Unknown filter operator '" ++ op ++ "' on field '" ++ fieldName ++ "'." }

def planIn (col : String) (arr : FilterValue) (negate : Bool) : Translate Condition :=
  match arr with
  | .arr items =>
    let values := items.map (extractValue host)
    if values.isEmpty then pure (.constant negate)
    else do
      let paramName ← nextParam
      addParam paramName (.arr values)
      pure (.among col negate paramName)
  | _ => fail { message := "$in/$nin requires an array value." }

def planBetween (col : String) (arr : FilterValue) : Translate Condition :=
  match arr with
  | .arr [low, high] => do
    let pLow ← nextParam
    let pHigh ← nextParam
    addParam pLow (extractValue host low)
    addParam pHigh (extractValue host high)
    pure (.between col pLow pHigh)
  | _ => fail { message := "$between requires an array of exactly two values [low, high]." }

def planOperator (col fieldName op : String) (value : FilterValue) : Translate Condition :=
  if op = "$in" then planIn host col value false
  else if op = "$nin" then planIn host col value true
  else if op = "$between" then planBetween host col value
  else planSimple host col op fieldName value

/-- The parts of one field; without any they are an empty pair of parentheses. -/
def parts : List Condition → Condition
  | [c] => c
  | cs => .all cs

def planFieldCondition (field : SqlMemoryNodeField) (condition : FilterValue) : Translate Condition :=
  match condition with
  | .obj members =>
    parts <$> members.mapM fun entry => planOperator host (resolvedColumnName field) field.name entry.1 entry.2
  | _ => fail { message := "Field '" ++ field.name ++ "' condition must be an object (e.g. \x7b\"$eq\": value\x7d)." }

def planField (name : String) (value : FilterValue) : Translate Condition := do
  let field ← validateField host schema name
  planFieldCondition host field value

def planList (op : String) (cs : List Condition) : Condition :=
  let cs := cs.filter fun c => !c.isBlank
  if op = "$and" then .conjoin cs else .disjoin cs

mutual
def planObject : FilterValue → Translate Condition
  | .obj members => Condition.conjoin <$> planMembers members
  | .arr items => Condition.conjoin <$> (indexed items).mapM fun entry => planField host schema entry.1 entry.2
  | .str s => Condition.conjoin <$> (indexed (s.toList.map fun c => .str (String.singleton c))).mapM
      fun entry => planField host schema entry.1 entry.2
  | .null => throw .typeError
  | .bool _ | .num _ => pure .blank
def planMembers : List (String × FilterValue) → Translate (List Condition)
  | [] => pure []
  | (name, value) :: members => do
    let clause ← if startsWith name "$" then planLogical name value else planField host schema name value
    let clauses ← planMembers members
    pure (clause :: clauses)
def planLogical (op : String) : FilterValue → Translate Condition
  | .arr items =>
    match separatorOf op with
    | some _ => planList op <$> planParts items
    | none => fail { message := "Unknown logical operator '" ++ op ++ "'." }
  | _ => fail { message := "Logical operator '" ++ op ++ "' requires an array value." }
def planParts : List FilterValue → Translate (List Condition)
  | [] => pure []
  | el :: items => do
    let part ← planObject el
    let parts ← planParts items
    pure (part :: parts)
end

def plan (filter : Option FilterValue) : Except Thrown (Condition × SqlParameters) :=
  match filter with
  | none | some .null => .ok (.blank, JsMap.empty)
  | some filter => (planObject host schema filter ⟨0, JsMap.empty⟩).map fun r => (r.1, r.2.parameters)

/-! ### The texts agree -/

variable {host schema dialect}

theorem simpleOperator_eq (op : String) (value : FilterValue) :
    simpleOperator host op value = (comparison host op value).map fun c => (c.1.symbol, c.2) := by
  unfold simpleOperator comparison
  split_ifs <;> rfl

variable (host schema dialect)

theorem buildSimple_eq (col op fieldName : String) (value : FilterValue) :
    buildSimple host (dialect.quote col) op fieldName value =
      Condition.text dialect.quote <$> planSimple host col op fieldName value := by
  unfold buildSimple planSimple
  rw [simpleOperator_eq, map_bind]
  congr 1
  funext name
  cases comparison host op value with
  | none => rfl
  | some c => rfl

theorem buildIn_eq (col : String) (arr : FilterValue) (negate : Bool) :
    buildIn host (dialect.quote col) arr negate = Condition.text dialect.quote <$> planIn host col arr negate := by
  unfold buildIn planIn
  cases arr with
  | arr items =>
    dsimp only
    by_cases hempty : (items.map (extractValue host)).isEmpty = true
    · rw [if_pos hempty, if_pos hempty]
      cases negate <;> rfl
    · rw [if_neg hempty, if_neg hempty]
      cases negate <;> rfl
  | _ => rfl

theorem buildBetween_eq (col : String) (arr : FilterValue) :
    buildBetween host (dialect.quote col) arr = Condition.text dialect.quote <$> planBetween host col arr := by
  rcases arr with _ | _ | _ | _ | items | _
  · rfl
  · rfl
  · rfl
  · rfl
  · rcases items with _ | ⟨low, _ | ⟨high, _ | ⟨_, _⟩⟩⟩ <;> rfl
  · rfl

theorem buildOperator_eq (col fieldName op : String) (value : FilterValue) :
    buildOperator host (dialect.quote col) fieldName op value =
      Condition.text dialect.quote <$> planOperator host col fieldName op value := by
  unfold buildOperator planOperator
  split_ifs
  · exact buildIn_eq host dialect col value false
  · exact buildIn_eq host dialect col value true
  · exact buildBetween_eq host dialect col value
  · exact buildSimple_eq host dialect col op fieldName value

theorem parenthesise_texts (cs : List Condition) :
    parenthesise " AND " (cs.map (Condition.text dialect.quote)) = (parts cs).text dialect.quote := by
  rcases cs with _ | ⟨c, _ | ⟨d, cs⟩⟩
  · rfl
  · rfl
  · show "(" ++ _ ++ ")" = Condition.text _ (.all _)
    rw [Condition.text, Condition.texts_eq]
    rfl

theorem buildClauses_texts (cs : List Condition) :
    buildClauses (cs.map (Condition.text dialect.quote)) = (Condition.conjoin cs).text dialect.quote := by
  rcases cs with _ | ⟨c, _ | ⟨d, cs⟩⟩
  · rfl
  · rfl
  · exact parenthesise_texts dialect (c :: d :: cs)

theorem filter_texts (cs : List Condition) :
    (cs.map (Condition.text dialect.quote)).filter (fun s => !s.isEmpty) =
      (cs.filter fun c => !c.isBlank).map (Condition.text dialect.quote) := by
  rw [List.filter_map]
  congr 2
  funext c
  have h := Condition.text_eq_empty_iff dialect.quote c
  cases hb : c.isBlank with
  | true => simp [h.2 hb]
  | false =>
    have : c.text dialect.quote ≠ "" := fun he => by simp [h.1 he] at hb
    simpa using this

theorem buildList_texts {op separator : String} (hop : separatorOf op = some separator) (cs : List Condition) :
    buildList separator (cs.map (Condition.text dialect.quote)) = (planList op cs).text dialect.quote := by
  unfold buildList planList
  rw [filter_texts]
  dsimp only
  unfold separatorOf at hop
  generalize cs.filter (fun c => !c.isBlank) = cs at hop ⊢
  split_ifs at hop ⊢ with hand
  · cases hop
    exact buildClauses_texts dialect cs
  · cases hop
    rcases cs with _ | ⟨c, _ | ⟨d, cs⟩⟩
    · rfl
    · rfl
    · show "(" ++ _ ++ ")" = Condition.text _ (.any _)
      rw [Condition.text, Condition.texts_eq]
      rfl

theorem mapM_texts {α : Type} (f : α → Translate String) (g : α → Translate Condition)
    (h : ∀ a, f a = Condition.text dialect.quote <$> g a) (l : List α) :
    l.mapM f = List.map (Condition.text dialect.quote) <$> l.mapM g := by
  induction l with
  | nil => rfl
  | cons a l ih => simp only [List.mapM_cons, h, ih, map_bind, bind_map_left, map_pure, List.map_cons]

theorem buildFieldCondition_eq (field : SqlMemoryNodeField) (condition : FilterValue) :
    buildFieldCondition host dialect field condition =
      Condition.text dialect.quote <$> planFieldCondition host field condition := by
  cases condition with
  | obj members =>
    unfold buildFieldCondition planFieldCondition
    dsimp only
    rw [mapM_texts dialect _ _ fun entry : String × FilterValue =>
      buildOperator_eq host dialect (resolvedColumnName field) field.name entry.1 entry.2]
    simp only [map_eq_pure_bind, bind_assoc, pure_bind, parenthesise_texts]
  | _ => rfl

theorem buildField_eq (name : String) (value : FilterValue) :
    buildField host schema dialect name value = Condition.text dialect.quote <$> planField host schema name value := by
  unfold buildField planField
  simp only [map_bind, buildFieldCondition_eq]

theorem entries_texts (entries : List (String × FilterValue)) :
    (buildClauses <$> entries.mapM fun entry => buildField host schema dialect entry.1 entry.2) =
      Condition.text dialect.quote <$> (Condition.conjoin <$> entries.mapM
        fun entry => planField host schema entry.1 entry.2) := by
  rw [mapM_texts dialect _ _ fun entry : String × FilterValue =>
    buildField_eq host schema dialect entry.1 entry.2]
  simp only [Functor.map_map, buildClauses_texts]

mutual
theorem buildObject_eq : ∀ el : FilterValue, buildObject host schema dialect el =
    Condition.text dialect.quote <$> planObject host schema el
  | .obj members => by
    rw [buildObject, planObject, buildMembers_eq members]
    simp only [Functor.map_map, buildClauses_texts]
  | .arr items => by rw [buildObject, planObject, entries_texts]
  | .str s => by rw [buildObject, planObject, entries_texts]
  | .null => rfl
  | .bool _ => rfl
  | .num _ => rfl
theorem buildMembers_eq : ∀ members : List (String × FilterValue), buildMembers host schema dialect members =
    List.map (Condition.text dialect.quote) <$> planMembers host schema members
  | [] => rfl
  | (name, value) :: members => by
    rw [buildMembers, planMembers, buildMembers_eq members]
    split_ifs
    · rw [buildLogical_eq name value]
      simp only [map_bind, bind_map_left, map_pure, List.map_cons]
    · rw [buildField_eq]
      simp only [map_bind, bind_map_left, map_pure, List.map_cons]
theorem buildLogical_eq (op : String) : ∀ value : FilterValue, buildLogical host schema dialect op value =
    Condition.text dialect.quote <$> planLogical host schema op value
  | .arr items => by
    rw [buildLogical, planLogical, buildParts_eq items]
    cases hop : separatorOf op with
    | none => rfl
    | some separator => simp only [Functor.map_map, buildList_texts dialect hop]
  | .obj _ => rfl
  | .str _ => rfl
  | .null => rfl
  | .bool _ => rfl
  | .num _ => rfl
theorem buildParts_eq : ∀ items : List FilterValue, buildParts host schema dialect items =
    List.map (Condition.text dialect.quote) <$> planParts host schema items
  | [] => rfl
  | el :: items => by
    rw [buildParts, planParts, buildObject_eq el, buildParts_eq items]
    simp only [map_bind, bind_map_left, map_pure, List.map_cons]
end

theorem translate_eq (filter : Option FilterValue) : translate host schema dialect filter JsMap.empty =
    (plan host schema filter).map fun r => (r.1.text dialect.quote, r.2) := by
  have hobject : ∀ v : FilterValue,
      (buildObject host schema dialect v ⟨0, JsMap.empty⟩).map (fun r => (r.1, r.2.parameters)) =
        ((planObject host schema v ⟨0, JsMap.empty⟩).map fun r => (r.1, r.2.parameters)).map
          fun r => (r.1.text dialect.quote, r.2) := by
    intro v
    rw [buildObject_eq]
    show Except.map _ ((Condition.text dialect.quote <$> planObject host schema v).run _) = _
    rw [StateT.run_map]
    show _ = Except.map _ (Except.map _ ((planObject host schema v).run _))
    cases (planObject host schema v).run ⟨0, JsMap.empty⟩ <;> rfl
  rcases filter with _ | _ | b | q | t | items | members
  · rfl
  · rfl
  · exact hobject (.bool b)
  · exact hobject (.num q)
  · exact hobject (.str t)
  · exact hobject (.arr items)
  · exact hobject (.obj members)

end NwpFilterTranslator

namespace SqlQueryBuilder

variable (host : Host) (schema : SqlMemoryNodeSchema) (dialect : DatabaseDialect)

def planColumn (name : String) : Except Thrown (String × Option String) :=
  match schema.getField host name with
  | none => .error (unknownField "Unknown field" name)
  | some f => .ok (resolvedColumnName f, if f.columnName.isSome then some f.name else none)

def planSelectList (fields : Option (List String)) : Except Thrown (List (String × Option String)) :=
  match fields.getD [] with
  | [] => .ok (schema.fields.map fun f => (resolvedColumnName f, none))
  | fields => fields.mapM (planColumn host schema)

def planTerm (o : QueryOrderClause) : Except Thrown OrderTerm :=
  match schema.getField host o.field with
  | none => .error (unknownField "Unknown order field" o.field)
  | some field =>
    let dir := if host.toUpperCase o.dir = "DESC" then Direction.descending else .ascending
    .ok { column := resolvedColumnName field, direction := some dir }

def planOrderBy : List QueryOrderClause → Except Thrown (List OrderTerm)
  | [] => .ok [{ column := schema.primaryKey }]
  | order => order.mapM (planTerm host schema)

/-- The query of a frame and the values of its filter.  Which part of the rows is asked for does not belong to
it. -/
def plan (frame : QueryFrame) : Except Thrown (Select × SqlParameters) := do
  let columns ← planSelectList host schema frame.fields
  let (filter, p) ← NwpFilterTranslator.plan host schema frame.filter
  let orderBy ← planOrderBy host schema (frame.orderBy.getD [])
  pure ({ columns, table := schema.tableName, filter, orderBy }, p)

def paging : DatabaseDialect → Paging
  | .sqlServer => .offsetFetch "_offset" "_limit"
  | .postgreSql => .limitOffset "_limit" "_offset"

/-- The parameters of a query together with the part of the rows that is asked for. -/
def pageParameters (p : SqlParameters) (limit : ℚ) (offset : ℤ) : SqlParameters :=
  SqlParameters.add (SqlParameters.add p "_limit" (.num limit)) "_offset" (.num offset)

theorem get_pageParameters (p : SqlParameters) (limit : ℚ) (offset : ℤ) :
    JsMap.get (pageParameters p limit offset) "_limit" = some (.num limit) ∧
      JsMap.get (pageParameters p limit offset) "_offset" = some (.num offset) := by
  unfold pageParameters SqlParameters.add
  refine ⟨?_, JsMap.get_set_self _ _ _⟩
  rw [JsMap.get_set_ne _ _ (by decide), JsMap.get_set_self]

theorem mapM_map {α β γ : Type} {f : α → Except Thrown γ} {g : α → Except Thrown β} {h : β → γ}
    (hfg : ∀ a, f a = (g a).map h) (l : List α) : l.mapM f = (l.mapM g).map (List.map h) := by
  induction l with
  | nil => rfl
  | cons a l ih =>
    rw [List.mapM_cons, List.mapM_cons, hfg, ih]
    cases g a with
    | error e => rfl
    | ok b =>
      cases l.mapM g with
      | error e => rfl
      | ok bs => rfl

theorem selectColumn_eq (name : String) :
    selectColumn host schema dialect name = (planColumn host schema name).map (Select.columnText dialect.quote) := by
  unfold selectColumn planColumn
  cases schema.getField host name with
  | none => rfl
  | some f =>
    dsimp only
    split_ifs <;> rfl

theorem buildSelectList_eq (fields : Option (List String)) : buildSelectList host schema dialect fields =
    (planSelectList host schema fields).map fun cs => join ", " (cs.map (Select.columnText dialect.quote)) := by
  unfold buildSelectList planSelectList
  generalize fields.getD [] = fields
  cases fields with
  | nil =>
    show Except.ok _ = Except.ok (join ", " (List.map _ (List.map _ _)))
    rw [List.map_map]
    rfl
  | cons name fields =>
    dsimp only
    rw [mapM_map (selectColumn_eq host schema dialect)]
    cases (name :: fields).mapM (planColumn host schema) <;> rfl

theorem orderTerm_eq (o : QueryOrderClause) :
    orderTerm host schema dialect o = (planTerm host schema o).map (Select.orderText dialect.quote) := by
  unfold orderTerm planTerm
  cases schema.getField host o.field with
  | none => rfl
  | some f =>
    dsimp only
    split_ifs
    · exact congrArg Except.ok (String.append_assoc ..)
    · exact congrArg Except.ok (String.append_assoc ..)

theorem orderOf_eq (order : List QueryOrderClause) : orderOf host schema dialect order =
    (planOrderBy host schema order).map fun ts => join ", " (ts.map (Select.orderText dialect.quote)) := by
  cases order with
  | nil => exact congrArg Except.ok (String.append_empty).symm
  | cons o order =>
    show (join ", ") <$> (o :: order).mapM _ = Except.map _ ((o :: order).mapM _)
    rw [mapM_map (orderTerm_eq host schema dialect)]
    cases (o :: order).mapM (planTerm host schema) <;> rfl

/-- **The emitted query** is the text of the planned one. -/
theorem build_eq (frame : QueryFrame) (options : SqlQueryOptions) : build host schema dialect frame options =
    (plan host schema frame).map fun r => ⟨r.1.text dialect.quote (paging dialect),
      pageParameters r.2 (options.limitOf frame) (decodeCursor host frame.cursor)⟩ := by
  unfold build plan
  rw [buildSelectList_eq, NwpFilterTranslator.translate_eq, orderOf_eq]
  cases planSelectList host schema frame.fields with
  | error e => rfl
  | ok columns =>
    cases NwpFilterTranslator.plan host schema frame.filter with
    | error e => rfl
    | ok r =>
      cases planOrderBy host schema (frame.orderBy.getD []) with
      | error e => rfl
      | ok orderBy =>
        have hblank : (r.1.text dialect.quote).isEmpty = r.1.isBlank := by
          rw [Bool.eq_iff_iff, String.isEmpty_iff]
          exact Condition.text_eq_empty_iff dialect.quote r.1
        show Except.ok _ = Except.ok _
        rw [hblank]
        cases dialect <;> rfl

theorem buildCount_eq (frame : QueryFrame) : buildCount host schema dialect frame =
    (NwpFilterTranslator.plan host schema frame.filter).map fun r =>
      ⟨Select.countText dialect.quote schema.tableName r.1, r.2⟩ := by
  unfold buildCount
  rw [NwpFilterTranslator.translate_eq]
  cases NwpFilterTranslator.plan host schema frame.filter with
  | error e => rfl
  | ok r =>
    have hblank : (r.1.text dialect.quote).isEmpty = r.1.isBlank := by
      rw [Bool.eq_iff_iff, String.isEmpty_iff]
      exact Condition.text_eq_empty_iff dialect.quote r.1
    show Except.ok _ = Except.ok _
    rw [hblank]
    rfl

end SqlQueryBuilder

end NpsSdk.Nwp.Query
