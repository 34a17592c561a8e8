import NpsSdk.Nwp.Query.Pagination

/-!
# Queries with and without fields

A query that lists all fields gives their columns the names of the fields; one that lists none leaves the columns
the names that they have in the table.
-/

namespace NpsSdk.Nwp.Query

open NpsSdk.Lib NpsSdk.Lib.Sql SqlQueryBuilder SqlMemoryNodeProvider

def SqlMemoryNodeSchema.names (schema : SqlMemoryNodeSchema) : List String := schema.fields.map fun f => f.name

def QueryFrame.unlisted (frame : QueryFrame) : QueryFrame := { frame with fields := none }

def QueryFrame.listing (frame : QueryFrame) (schema : SqlMemoryNodeSchema) : QueryFrame :=
  { frame with fields := some schema.names }

/-- Both queries select the same object out of every row of every database: its keys are the names of the fields. -/
structure Consistent (schema : SqlMemoryNodeSchema) (sel sel' : Select) : Prop where
  same : ∀ {Row V : Type} (db : Database Row V) r k v, (k, v) ∈ db.project sel r ↔ (k, v) ∈ db.project sel' r
  keys : ∀ {Row V : Type} (db : Database Row V) r k, (∃ v, (k, v) ∈ db.project sel r) ↔ k ∈ schema.names

/-- Every column is called as some field, and the field that is found by a name has that name and its column too. -/
structure CalledAlike (host : Host) (schema : SqlMemoryNodeSchema) : Prop where
  columns : ∀ f ∈ schema.fields, resolvedColumnName f ∈ schema.names
  found : ∀ f ∈ schema.fields, ∃ g, schema.getField host f.name = some g ∧ g.name = f.name ∧
    resolvedColumnName g = f.name

variable {host : Host} {schema : SqlMemoryNodeSchema} {f g : SqlMemoryNodeField} {name : String}

/-! ### Fields -/

theorem getField_some (h : schema.getField host name = some g) :
    g ∈ schema.fields ∧ schema.getField host g.name = some g := by
  have hlower := List.find?_some h
  rw [beq_iff_eq] at hlower
  refine ⟨List.mem_of_find?_eq_some h, ?_⟩
  rw [SqlMemoryNodeSchema.getField, hlower]
  exact h

theorem exists_getField (hf : f ∈ schema.fields) : ∃ g, schema.getField host f.name = some g :=
  Option.isSome_iff_exists.1 (List.find?_isSome.2 ⟨f, hf, beq_self_eq_true _⟩)

/-- The column that a query selects for a field that it lists. -/
def listedColumn (g : SqlMemoryNodeField) : String × Option String :=
  (resolvedColumnName g, if g.columnName.isSome then some g.name else none)

theorem listedColumn_key (g : SqlMemoryNodeField) : (listedColumn g).2.getD (listedColumn g).1 = g.name := by
  unfold listedColumn resolvedColumnName
  cases g.columnName with
  | none => rfl
  | some column => rfl

/-- All names are found. -/
theorem planSelectList_listing : planSelectList host schema (some schema.names) =
    .ok (schema.fields.filterMap fun f => (schema.getField host f.name).map listedColumn) := by
  have hmapM : ∀ l : List SqlMemoryNodeField, l ⊆ schema.fields →
      (l.map fun f => f.name).mapM (planColumn host schema) =
        .ok (l.filterMap fun f => (schema.getField host f.name).map listedColumn) := by
    intro l hl
    induction l with
    | nil => rfl
    | cons f l ih =>
      obtain ⟨g, hg⟩ := @exists_getField host schema f (hl List.mem_cons_self)
      rw [List.map_cons, List.mapM_cons, ih (List.subset_of_cons_subset hl), planColumn, hg,
        List.filterMap_cons_some (b := listedColumn g) (by rw [hg]; rfl)]
      rfl
  have hall := hmapM schema.fields (List.Subset.refl _)
  unfold planSelectList SqlMemoryNodeSchema.names
  rw [Option.getD_some]
  cases hfields : schema.fields with
  | nil => rfl
  | cons f l =>
    rw [hfields] at hall
    exact hall

/-! ### Rows -/

variable {Row V : Type} {db : Database Row V} {sel : Select} {r : Row} {k : String} {v : V}

theorem mem_project_unlisted (h : sel.columns = schema.fields.map fun f => (resolvedColumnName f, none)) :
    (k, v) ∈ db.project sel r ↔ ∃ f ∈ schema.fields, resolvedColumnName f = k ∧ v = db.cell r k := by
  simp only [Database.project, h, List.map_map, List.mem_map, Function.comp, Option.getD_none, Prod.mk.injEq]
  refine exists_congr fun f => and_congr_right fun _ => and_congr_right ?_
  rintro rfl
  exact eq_comm

theorem mem_project_listing
    (h : sel.columns = schema.fields.filterMap fun f => (schema.getField host f.name).map listedColumn) :
    (k, v) ∈ db.project sel r ↔
      ∃ g, schema.getField host k = some g ∧ g.name = k ∧ v = db.cell r (resolvedColumnName g) := by
  simp only [Database.project, h, List.mem_map, List.mem_filterMap, Option.map_eq_some_iff, Prod.mk.injEq]
  constructor
  · rintro ⟨_, ⟨f, -, g, hg, rfl⟩, hk, rfl⟩
    rw [listedColumn_key] at hk
    exact ⟨g, hk ▸ (getField_some hg).2, hk, rfl⟩
  · rintro ⟨g, hg, rfl, rfl⟩
    exact ⟨_, ⟨g, (getField_some hg).1, g, hg, rfl⟩, listedColumn_key g, rfl⟩

/-- A table whose one row holds in each column the name of the column. -/
def columnNames : Database Unit String where
  rows := [()]
  cell _ column := column
  cmp := compare
  trans := inferInstance
  atoms := ⟨fun _ _ _ => none, fun _ _ => none⟩

theorem consistent_iff {sel' : Select} (h : sel.columns = schema.fields.map fun f => (resolvedColumnName f, none))
    (h' : sel'.columns = schema.fields.filterMap fun f => (schema.getField host f.name).map listedColumn) :
    Consistent schema sel sel' ↔ CalledAlike host schema := by
  constructor
  · rintro ⟨hsame, hkeys⟩
    refine ⟨fun f hf => ?_, fun f hf => ?_⟩
    · exact (hkeys columnNames () _).1 ⟨_, (mem_project_unlisted h).2 ⟨f, hf, rfl, rfl⟩⟩
    · obtain ⟨v, hv⟩ := (hkeys columnNames () _).2 (List.mem_map_of_mem hf)
      obtain ⟨g, hg, hname, hcell⟩ := (mem_project_listing h').1 ((hsame columnNames () _ _).1 hv)
      obtain ⟨-, -, -, hcell'⟩ := (mem_project_unlisted h).1 hv
      exact ⟨g, hg, hname, hcell.symm.trans hcell'⟩
  · rintro ⟨hcolumns, hfound⟩
    refine ⟨fun db r k v => ?_, fun db r k => ⟨?_, fun hk => ?_⟩⟩
    · rw [mem_project_unlisted h, mem_project_listing h']
      constructor
      · rintro ⟨f, hf, rfl, rfl⟩
        obtain ⟨f', hf', hname⟩ := List.mem_map.1 (hcolumns f hf)
        obtain ⟨g, hg, hgname, hcolumn⟩ := hfound f' hf'
        rw [hname] at hg hgname hcolumn
        exact ⟨g, hg, hgname, by rw [hcolumn]⟩
      · rintro ⟨g, hg, rfl, rfl⟩
        obtain ⟨hmem, -⟩ := getField_some hg
        obtain ⟨g', hg', -, hcolumn⟩ := hfound g hmem
        obtain rfl : g = g' := Option.some.inj (hg.symm.trans hg')
        exact ⟨g, hmem, hcolumn, by rw [hcolumn]⟩
    · rintro ⟨v, hv⟩
      obtain ⟨f, hf, rfl, -⟩ := (mem_project_unlisted h).1 hv
      exact hcolumns f hf
    · obtain ⟨f, hf, rfl⟩ := List.mem_map.1 hk
      obtain ⟨g, hg, -, hcolumn⟩ := hfound f hf
      exact ⟨_, (mem_project_unlisted h).2 ⟨g, (getField_some hg).1, hcolumn, rfl⟩⟩

/-! ### Queries -/

/-- **Projection.**  A database that picks the rows of both queries alike answers both with what they select out
of the same rows; and that is the same exactly if fields and columns are called alike. -/
theorem listing_consistent_iff {frame : QueryFrame} {p : SqlParameters}
    (h : plan host schema frame.unlisted = .ok (sel, p)) :
    ∃ sel', plan host schema (frame.listing schema) = .ok (sel', p) ∧
      (∀ {Row V : Type} (db : Database Row V) dialect executor opts n (pick : SqlParameters → List Row),
        (∀ s ∈ [sel, sel'], ∀ params, executor n (s.text dialect.quote (paging dialect)) params =
          some ((pick params).map (db.project s))) →
        ∃ rows : List Row, (execute host schema dialect executor opts n frame.unlisted).toOption =
            some (rows.map (db.project sel)) ∧
          (execute host schema dialect executor opts n (frame.listing schema)).toOption =
            some (rows.map (db.project sel'))) ∧
      (Consistent schema sel sel' ↔ CalledAlike host schema) := by
  obtain ⟨sel', h', hcolumns, hcolumns'⟩ : ∃ sel', plan host schema (frame.listing schema) = .ok (sel', p) ∧
      sel.columns = (schema.fields.map fun f => (resolvedColumnName f, none)) ∧
      sel'.columns = schema.fields.filterMap fun f => (schema.getField host f.name).map listedColumn := by
    unfold plan at h ⊢
    rw [show (frame.listing schema).fields = some _ from rfl, planSelectList_listing]
    simp only [QueryFrame.unlisted, QueryFrame.listing, planSelectList, Option.getD_none] at h ⊢
    cases hfilter : NwpFilterTranslator.plan host schema frame.filter with
    | error e =>
      rw [hfilter] at h
      cases h
    | ok r =>
      cases horder : planOrderBy host schema (frame.orderBy.getD []) with
      | error e =>
        rw [hfilter, horder] at h
        cases h
      | ok orderBy =>
        rw [hfilter, horder] at h
        cases h
        exact ⟨_, rfl, rfl, rfl⟩
  refine ⟨sel', h', fun db dialect executor opts n pick hexec => ?_, consistent_iff hcolumns hcolumns'⟩
  refine ⟨pick (pageParameters p (opts.resolveLimits.limitOf frame) (decodeCursor host frame.cursor)), ?_, ?_⟩
  · exact (execute_page h n frame.cursor frame.limit).trans (hexec sel (by simp) _)
  · exact (execute_page h' n frame.cursor frame.limit).trans (hexec sel' (by simp) _)

theorem orders_consistent : ∃ sel', plan sampleHost ordersSchema ((ordersBy "id" 2).listing ordersSchema) =
      .ok (sel', JsMap.empty) ∧ (Consistent ordersSchema (ordersSelect "id") sel' ↔
        CalledAlike sampleHost ordersSchema) := by
  obtain ⟨sel', h, -, hiff⟩ := @listing_consistent_iff sampleHost ordersSchema (ordersSelect "id") (ordersBy "id" 2)
    JsMap.empty (plan_ordersBy (.inl rfl) 2)
  exact ⟨sel', h, hiff⟩

/-- A table in which the column of the one field has another name. -/
def peopleSchema : SqlMemoryNodeSchema where
  tableName := "people"
  primaryKey := "name"
  fields := [{ name := "name", columnName := some "full_name" }]

theorem renamed_column_leaks : ∃ sel sel', plan sampleHost peopleSchema (QueryFrame.unlisted {}) = .ok (sel, JsMap.empty) ∧
    plan sampleHost peopleSchema (QueryFrame.listing {} peopleSchema) = .ok (sel', JsMap.empty) ∧
      ¬ Consistent peopleSchema sel sel' := by
  refine ⟨_, _, rfl, rfl, fun h => ?_⟩
  have hkey := (h.keys columnNames () "full_name").1 ⟨"full_name", by decide⟩
  revert hkey
  decide

end NpsSdk.Nwp.Query
