import NpsSdk.Lib.SqlGrammar
import NpsSdk.Nwp.Query.FilterAgreement

/-!
# Well-formed conditions

The text that a filter is translated to is empty or a boolean expression, if every field has an operator, no object
has a clause without a text beside others, and the columns can be written between the quotes of the dialect.  In a
schema with such columns only the text is a boolean expression for no other filter.
-/

namespace NpsSdk.Nwp.Query

open NpsSdk.Lib NpsSdk.Lib.Sql NwpFilterTranslator

/-! ### Boolean expressions over a schema -/

def openingQuote : DatabaseDialect → Char
  | .sqlServer => '['
  | .postgreSql => '"'

def closingQuote : DatabaseDialect → Char
  | .sqlServer => ']'
  | .postgreSql => '"'

/-- A name that is read back as it is written, since a dialect escapes nothing. -/
def Quotable (dialect : DatabaseDialect) (name : String) : Prop := name ≠ "" ∧ closingQuote dialect ∉ name.toList

def IsColumn (schema : SqlMemoryNodeSchema) (dialect : DatabaseDialect) (text : String) : Prop :=
  ∃ f ∈ schema.fields, Quotable dialect (resolvedColumnName f) ∧ text = dialect.quote (resolvedColumnName f)

/-- A placeholder that is registered. -/
def IsPlaceholder (p : SqlParameters) (name : String) : Prop := (JsMap.get p name).isSome = true

/-- The text makes no condition, or one that is well formed. -/
def WellFormedSql (schema : SqlMemoryNodeSchema) (dialect : DatabaseDialect) (sql : String) (p : SqlParameters) : Prop :=
  sql = "" ∨ IsExpression (IsColumn schema dialect) (IsPlaceholder p) sql

/-! ### Filters that fit -/

mutual
def blank : FilterValue → Bool
  | .obj members => blankMembers members
  | .arr items => items.isEmpty
  | .str s => s.isEmpty
  | .null => false
  | .bool _ | .num _ => true
def blankMembers : List (String × FilterValue) → Bool
  | [] => true
  | [(name, value)] => startsWith name "$" && blankList value
  | _ :: _ :: _ => false
def blankList : FilterValue → Bool
  | .arr items => blankItems items
  | _ => false
def blankItems : List FilterValue → Bool
  | [] => true
  | el :: items => blank el && blankItems items
end

def blankClause (m : String × FilterValue) : Bool := startsWith m.1 "$" && blankList m.2

/-- The column of a field is written, unless all operators are those of empty lists. -/
def writesColumn (m : String × FilterValue) : Bool :=
  match m with
  | ("$in", .arr []) | ("$nin", .arr []) => false
  | _ => true

/-- The condition of a field has an operator, and the column that it writes satisfies `Q`. -/
def FitsField (host : Host) (schema : SqlMemoryNodeSchema) (Q : String → Prop) (name : String)
    (value : FilterValue) : Prop :=
  ∀ members, value = .obj members → members ≠ [] ∧
    (members.any writesColumn = true → ∀ f, schema.getField host name = some f → Q (resolvedColumnName f))

section

variable (fitsField : String → FilterValue → Prop)

mutual
/-- No clause without a text stands beside others, and the conditions of fields fit. -/
def Fits : FilterValue → Prop
  | .obj members => (members.length ≤ 1 ∨ ∀ m ∈ members, blankClause m = false) ∧ FitsMembers members
  | .arr items => ∀ entry ∈ indexed items, fitsField entry.1 entry.2
  | _ => True
def FitsMembers : List (String × FilterValue) → Prop
  | [] => True
  | (name, value) :: members =>
    (if startsWith name "$" then FitsList value else fitsField name value) ∧ FitsMembers members
def FitsList : FilterValue → Prop
  | .arr items => FitsItems items
  | _ => True
def FitsItems : List FilterValue → Prop
  | [] => True
  | el :: items => Fits el ∧ FitsItems items
end

end

/-! ### Conditions -/

/-- No part is missing from a condition, and its columns satisfy `Q`. -/
structure Good (Q : String → Prop) (c : Condition) : Prop where
  formed : c.isBlank = true ∨ c.wellFormed = true
  names : ∀ n, .name n ∈ c.pieces → Q n

section

variable {Q : String → Prop} {c : Condition} {cs : List Condition}

theorem good_blank (h : c.isBlank = true) : Good Q c := by
  rw [eq_blank_of_isBlank h]
  exact ⟨.inl rfl, fun n hn => absurd hn List.not_mem_nil⟩

/-- Parts in parentheses, none of which may be blank. -/
theorem good_group (hne : cs ≠ []) (hformed : c.wellFormed = (!cs.isEmpty && Condition.wellFormedParts cs))
    (hblank : c.isBlank = false) (hpieces : ∃ sep, c.pieces =
      Piece.word "(" :: (joinPieces sep (Condition.partPieces cs) ++ [.word ")"])) :
    Good Q c ↔ (∀ d ∈ cs, d.isBlank = false) ∧ ∀ d ∈ cs, Good Q d := by
  obtain ⟨sep, hpieces⟩ := hpieces
  constructor
  · rintro ⟨hgood, hnames⟩
    rw [hblank, hformed] at hgood
    obtain ⟨-, hparts⟩ := parts_of_wellFormed (hgood.resolve_left (by decide))
    refine ⟨fun d hd => not_isBlank_of_wellFormed (hparts d hd), fun d hd => ⟨.inr (hparts d hd), fun n hn => ?_⟩⟩
    exact hnames n (hpieces ▸ mem_pieces_of_mem hd hn)
  · rintro ⟨hfull, hgood⟩
    refine ⟨.inr ?_, fun n hn => ?_⟩
    · rw [hformed, Bool.and_eq_true, Condition.wellFormedParts_iff]
      refine ⟨by simpa using hne, fun d hd => (hgood d hd).formed.resolve_left ?_⟩
      rw [hfull d hd]
      decide
    · rw [hpieces] at hn
      obtain ⟨d, hd, hmem⟩ := List.mem_flatMap.1 ((parenthesised_parts sep cs).2 n hn)
      exact (hgood d hd).names n hmem

theorem good_conjoin : Good Q (.conjoin cs) ↔ (cs.length ≤ 1 ∨ ∀ c ∈ cs, c.isBlank = false) ∧ ∀ c ∈ cs, Good Q c := by
  rcases cs with _ | ⟨c, _ | ⟨d, cs⟩⟩
  · simpa [Condition.conjoin] using good_blank rfl
  · simp [Condition.conjoin]
  · have hlength : ¬ (c :: d :: cs).length ≤ 1 := by simp
    rw [or_iff_right hlength]
    exact good_group (List.cons_ne_nil _ _) rfl rfl ⟨" AND ", rfl⟩

theorem good_disjoin : Good Q (.disjoin cs) ↔ (cs.length ≤ 1 ∨ ∀ c ∈ cs, c.isBlank = false) ∧ ∀ c ∈ cs, Good Q c := by
  rcases cs with _ | ⟨c, _ | ⟨d, cs⟩⟩
  · simpa [Condition.disjoin] using good_blank rfl
  · simp [Condition.disjoin]
  · have hlength : ¬ (c :: d :: cs).length ≤ 1 := by simp
    rw [or_iff_right hlength]
    exact good_group (List.cons_ne_nil _ _) rfl rfl ⟨" OR ", rfl⟩

theorem good_planList {op : String} : Good Q (planList op cs) ↔ ∀ c ∈ cs, Good Q c := by
  have hfull : ∀ c ∈ cs.filter (fun c => !c.isBlank), c.isBlank = false := fun c hc => by
    simpa using (List.mem_filter.1 hc).2
  have hgood : (∀ c ∈ cs.filter (fun c => !c.isBlank), Good Q c) ↔ ∀ c ∈ cs, Good Q c := by
    refine ⟨fun h c hc => ?_, fun h c hc => h c (List.mem_of_mem_filter hc)⟩
    cases hblank : c.isBlank with
    | true => exact good_blank hblank
    | false => exact h c (List.mem_filter.2 ⟨hc, by simp [hblank]⟩)
  unfold planList
  dsimp only
  split_ifs
  · rw [good_conjoin, hgood, and_iff_right (.inr hfull)]
  · rw [good_disjoin, hgood, and_iff_right (.inr hfull)]

theorem isBlank_planList {op : String} : (planList op cs).isBlank = cs.all Condition.isBlank := by
  have hall : cs.all Condition.isBlank = (cs.filter fun c => !c.isBlank).isEmpty := by
    rw [Bool.eq_iff_iff]
    simp
  have hfull : ∀ c ∈ cs.filter (fun c => !c.isBlank), c.isBlank = false := fun c hc => by
    simpa using (List.mem_filter.1 hc).2
  rw [hall]
  unfold planList
  generalize cs.filter (fun c => !c.isBlank) = full at hfull ⊢
  dsimp only
  rcases full with _ | ⟨c, _ | ⟨d, cs⟩⟩
  · split_ifs <;> rfl
  · split_ifs
    · exact hfull c List.mem_cons_self
    · exact hfull c List.mem_cons_self
  · split_ifs <;> rfl

end

/-! ### Translations -/

structure OperatorOf (col : String) (m : String × FilterValue) (c : Condition) : Prop where
  formed : c.wellFormed = true
  names : ∀ n, .name n ∈ c.pieces ↔ n = col ∧ writesColumn m = true

section

variable {host : Host} {schema : SqlMemoryNodeSchema} {Q : String → Prop} {col fieldName op : String}

theorem writesColumn_of_ne {value : FilterValue} (hin : op ≠ "$in") (hnin : op ≠ "$nin") :
    writesColumn (op, value) = true := by
  unfold writesColumn
  split
  · rename_i h
    exact absurd (congrArg Prod.fst h) hin
  · rename_i h
    exact absurd (congrArg Prod.fst h) hnin
  · rfl

theorem planIn_operator {value : FilterValue} {negate : Bool} (hop : op = if negate then "$nin" else "$in") :
    Yields (planIn host col value negate) fun _ c => OperatorOf col (op, value) c := by
  subst hop
  cases value with
  | arr items =>
    cases items with
    | nil =>
      refine Yields.result fun p => ⟨rfl, fun n => ?_⟩
      cases negate <;> simp [Condition.pieces, writesColumn]
    | cons item items =>
      refine Yields.of_bindAll [.arr ((item :: items).map (extractValue host))]
        (fun i => .among col negate (paramName i)) (fun t => rfl) fun p i _ => ⟨rfl, fun n => ?_⟩
      cases negate <;> simp [Condition.pieces, writesColumn]
  | _ => exact Yields.error

theorem planOperator_operator (m : String × FilterValue) :
    Yields (planOperator host col fieldName m.1 m.2) fun _ c => OperatorOf col m c := by
  obtain ⟨op, value⟩ := m
  unfold planOperator
  split_ifs with hin hnin hbetween
  · exact planIn_operator hin
  · exact planIn_operator hnin
  · have hwrites := @writesColumn_of_ne op value hin hnin
    unfold planBetween
    split
    · rename_i low high hvalue
      refine Yields.of_bindAll [extractValue host low, extractValue host high]
        (fun i => .between col (paramName i) (paramName (i + 1))) (fun t => rfl) fun p i _ => ⟨rfl, fun n => ?_⟩
      simp [Condition.pieces, hwrites]
    · exact Yields.error
  · have hwrites := @writesColumn_of_ne op value hin hnin
    unfold planSimple
    cases hcomparison : comparison host op value with
    | none => exact fun t c t' h => by cases h
    | some c =>
      refine Yields.of_bindAll [c.2] (fun i => .compare col c.1 (paramName i)) (fun t => rfl) fun p i _ =>
        ⟨rfl, fun n => ?_⟩
      simp [Condition.pieces, hwrites]

/-- What each of some translations yields, item by item. -/
theorem Yields.mapM {α β : Type} {f : α → Translate β} {R : α → β → Prop} (h : ∀ a, Yields (f a) fun _ b => R a b)
    (l : List α) : Yields (l.mapM f) fun _ bs => List.Forall₂ R l bs := by
  induction l with
  | nil => exact Yields.result fun _ => .nil
  | cons a l ih =>
    rw [List.mapM_cons]
    exact (h a).cons ih fun p b bs hb hbs => .cons hb hbs

variable {cs : List Condition}

theorem formed_of_operators {members : List (String × FilterValue)}
    (h : List.Forall₂ (OperatorOf col) members cs) : ∀ c ∈ cs, c.wellFormed = true := by
  induction h with
  | nil => exact fun c hc => absurd hc List.not_mem_nil
  | cons hm _ ih => exact List.forall_mem_cons.2 ⟨hm.formed, ih⟩

theorem good_parts {members : List (String × FilterValue)}
    (h : List.Forall₂ (OperatorOf col) members cs) : (parts cs).isBlank = false ∧
      (Good Q (parts cs) ↔ members ≠ [] ∧ (members.any writesColumn = true → Q col)) := by
  have hformed := formed_of_operators h
  have hgood : (∀ c ∈ cs, Good Q c) ↔ (members.any writesColumn = true → Q col) := by
    clear hformed
    induction h with
    | nil => simp
    | @cons m c members cs hm _ ih =>
      rw [List.forall_mem_cons, ih, List.any_cons, Bool.or_eq_true, or_imp]
      refine and_congr_left fun _ => ⟨fun hc hwrites => hc.names col ((hm.names col).2 ⟨rfl, hwrites⟩), fun hc => ?_⟩
      refine ⟨.inr hm.formed, fun n hn => ?_⟩
      obtain ⟨rfl, hwrites⟩ := (hm.names n).1 hn
      exact hc hwrites
  cases h with
  | nil =>
    refine ⟨rfl, fun hempty => ?_, fun hne => absurd rfl hne.1⟩
    exact absurd hempty.formed (by decide)
  | @cons m c members cs hm hrest =>
    have hne : c :: cs ≠ [] := List.cons_ne_nil _ _
    refine ⟨not_isBlank_of_wellFormed (joined_wellFormed hne hformed).1, ?_⟩
    rw [and_iff_right (List.cons_ne_nil _ _), ← hgood]
    cases cs with
    | nil => simp [parts]
    | cons d cs =>
      have hfull : ∀ e ∈ c :: d :: cs, e.isBlank = false := fun e he => not_isBlank_of_wellFormed (hformed e he)
      exact (good_group hne rfl rfl ⟨" AND ", rfl⟩).trans (and_iff_right hfull)

theorem planField_spec (name : String) (value : FilterValue) : Yields (planField host schema name value) fun _ c =>
    c.isBlank = false ∧ (Good Q c ↔ FitsField host schema Q name value) := by
  unfold planField validateField
  cases hfield : schema.getField host name with
  | none => exact fun t c t' h => by cases h
  | some field =>
    show Yields (planFieldCondition host field value) _
    cases value with
    | obj members =>
      refine (Yields.mapM (fun m => planOperator_operator m) members).map fun p cs hcs => ?_
      obtain ⟨hblank, hgood⟩ := good_parts hcs
      refine ⟨hblank, hgood.trans ⟨fun h members' heq => ?_, fun h => ?_⟩⟩
      · cases heq
        exact ⟨h.1, fun hwrites f hf => (Option.some.inj (hfield.symm.trans hf)) ▸ h.2 hwrites⟩
      · obtain ⟨hne, hwrites⟩ := h members rfl
        exact ⟨hne, fun hany => hwrites hany field hfield⟩
    | _ => exact Yields.error

/-- What is translated of clauses: which of them have no text, and when they are good. -/
structure Listed (Q : String → Prop) (blanks : List Bool) (fits : Prop) (cs : List Condition) : Prop where
  blank : cs.map Condition.isBlank = blanks
  good : (∀ c ∈ cs, Good Q c) ↔ fits

theorem Listed.nil : Listed Q [] True [] := ⟨rfl, by simp⟩

theorem Listed.cons {b : Bool} {blanks : List Bool} {fits fits' : Prop} {c : Condition}
    (hc : c.isBlank = b ∧ (Good Q c ↔ fits)) (hcs : Listed Q blanks fits' cs) :
    Listed Q (b :: blanks) (fits ∧ fits') (c :: cs) where
  blank := by rw [List.map_cons, hc.1, hcs.blank]
  good := by rw [List.forall_mem_cons, hc.2, hcs.good]

/-- No clause is left out of an object: it is blank without clauses, or with one that is blank. -/
def soleBlank : List Bool → Bool
  | [] => true
  | [b] => b
  | _ :: _ :: _ => false

theorem Listed.conjoin {blanks : List Bool} {fits : Prop} (h : Listed Q blanks fits cs) :
    (Condition.conjoin cs).isBlank = soleBlank blanks ∧
      (Good Q (.conjoin cs) ↔ (blanks.length ≤ 1 ∨ ∀ b ∈ blanks, b = false) ∧ fits) := by
  obtain ⟨rfl, hgood⟩ := h
  refine ⟨?_, ?_⟩
  · rcases cs with _ | ⟨c, _ | ⟨d, cs⟩⟩ <;> rfl
  · rw [good_conjoin, hgood, List.length_map, List.forall_mem_map]

theorem entries_spec (items : List FilterValue) :
    Yields (Condition.conjoin <$> (indexed items).mapM fun entry => planField host schema entry.1 entry.2) fun _ c =>
      c.isBlank = items.isEmpty ∧ (Good Q c ↔ ∀ entry ∈ indexed items, FitsField host schema Q entry.1 entry.2) := by
  have hlength : (indexed items).length = items.length := by simp [indexed]
  refine (Yields.mapM (fun entry : String × FilterValue => planField_spec (Q := Q) entry.1 entry.2)
    (indexed items)).map fun p cs hcs => ?_
  have hlisted : Listed Q ((indexed items).map fun _ => false)
      (∀ entry ∈ indexed items, FitsField host schema Q entry.1 entry.2) cs := by
    clear hlength
    generalize indexed items = entries at hcs ⊢
    induction hcs with
    | nil => exact ⟨rfl, by simp⟩
    | cons hc _ ih =>
      rw [List.map_cons, List.forall_mem_cons]
      exact ih.cons hc
  obtain ⟨hblank, hgood⟩ := hlisted.conjoin
  refine ⟨hblank.trans ?_, hgood.trans (and_iff_right (.inr fun b hb => ?_))⟩
  · have hsole : soleBlank ((indexed items).map fun _ => false) = (indexed items).isEmpty := by
      rcases indexed items with _ | ⟨_, _ | ⟨_, _⟩⟩ <;> rfl
    rw [hsole, Bool.eq_iff_iff, List.isEmpty_iff_length_eq_zero, hlength, List.isEmpty_iff_length_eq_zero]
  · obtain ⟨_, _, rfl⟩ := List.mem_map.1 hb
    rfl

theorem blankMembers_eq (members : List (String × FilterValue)) :
    blankMembers members = soleBlank (members.map blankClause) := by
  rcases members with _ | ⟨m, _ | ⟨m', members⟩⟩
  · rw [blankMembers]
    rfl
  · rw [blankMembers]
    rfl
  · rw [blankMembers]
    rfl

theorem blankItems_eq (items : List FilterValue) : blankItems items = items.all blank := by
  induction items with
  | nil => rfl
  | cons el items ih => rw [blankItems, List.all_cons, ih]

mutual
/-- **A filter is translated** to nothing if it is blank, and to a good condition if it fits. -/
theorem planObject_spec : ∀ v : FilterValue, Yields (planObject host schema v) fun _ c =>
    c.isBlank = blank v ∧ (Good Q c ↔ Fits (FitsField host schema Q) v)
  | .obj members => by
    rw [planObject, blank, Fits]
    refine (planMembers_spec members).map fun p cs hcs => ?_
    obtain ⟨hblank, hgood⟩ := hcs.conjoin
    rw [List.length_map, List.forall_mem_map] at hgood
    exact ⟨hblank.trans (blankMembers_eq members).symm, hgood⟩
  | .arr items => by
    rw [planObject, blank, Fits]
    exact entries_spec items
  | .str s => by
    have hfits : ∀ entry ∈ indexed (s.toList.map fun c => FilterValue.str (String.singleton c)),
        FitsField host schema Q entry.1 entry.2 := by
      intro entry hentry members hvalue
      have hmem := (List.of_mem_zip hentry).2
      rw [hvalue] at hmem
      obtain ⟨_, _, heq⟩ := List.mem_map.1 hmem
      cases heq
    rw [planObject]
    refine (entries_spec _).mono fun p c hc => ⟨hc.1.trans ?_, hc.2.trans (iff_of_true hfits ?_)⟩
    · rw [Bool.eq_iff_iff, blank, List.isEmpty_map]
      simp
    · simp [Fits]
  | .null => Yields.error
  | .bool _ => Yields.result fun _ => ⟨rfl, iff_of_true (good_blank rfl) (by simp [Fits])⟩
  | .num _ => Yields.result fun _ => ⟨rfl, iff_of_true (good_blank rfl) (by simp [Fits])⟩
theorem planMembers_spec : ∀ members : List (String × FilterValue), Yields (planMembers host schema members) fun _ cs =>
    Listed Q (members.map blankClause) (FitsMembers (FitsField host schema Q) members) cs
  | [] => by
    rw [planMembers, FitsMembers]
    exact Yields.result fun _ => Listed.nil
  | (name, value) :: members => by
    rw [planMembers, FitsMembers, List.map_cons]
    have hrest := planMembers_spec members
    by_cases hop : startsWith name "$" = true
    · have hclause : blankClause (name, value) = blankList value := by rw [blankClause, hop, Bool.true_and]
      rw [if_pos hop, if_pos hop, hclause]
      exact (planLogical_spec name value).cons hrest fun p c cs hc hcs => hcs.cons hc
    · have hclause : blankClause (name, value) = false := by simp [blankClause, hop]
      rw [if_neg hop, if_neg hop, hclause]
      exact (planField_spec name value).cons hrest fun p c cs hc hcs => hcs.cons hc
theorem planLogical_spec (op : String) : ∀ v : FilterValue, Yields (planLogical host schema op v) fun _ c =>
    c.isBlank = blankList v ∧ (Good Q c ↔ FitsList (FitsField host schema Q) v)
  | .arr items => by
    rw [planLogical, blankList, FitsList]
    cases separatorOf op with
    | none => exact fun t c t' h => by cases h
    | some separator =>
      refine (planParts_spec items).map fun p cs hcs => ⟨isBlank_planList.trans ?_, good_planList.trans hcs.good⟩
      have hall : (cs.map Condition.isBlank).all id = (items.map blank).all id := congrArg (List.all · id) hcs.blank
      rw [List.all_map, List.all_map] at hall
      exact hall.trans (blankItems_eq items).symm
  | .obj _ => Yields.error
  | .str _ => Yields.error
  | .null => Yields.error
  | .bool _ => Yields.error
  | .num _ => Yields.error
theorem planParts_spec : ∀ items : List FilterValue, Yields (planParts host schema items) fun _ cs =>
    Listed Q (items.map blank) (FitsItems (FitsField host schema Q) items) cs
  | [] => by
    rw [planParts, FitsItems]
    exact Yields.result fun _ => Listed.nil
  | el :: items => by
    rw [planParts, FitsItems, List.map_cons]
    exact (planObject_spec el).cons (planParts_spec items) fun p c cs hc hcs => hcs.cons hc
end

theorem plan_good {filter : Option FilterValue} {c : Condition} {p : SqlParameters}
    (h : plan host schema filter = .ok (c, p)) :
    Good Q c ↔ ∀ v, filter = some v → Fits (FitsField host schema Q) v := by
  have hobject : ∀ v : FilterValue,
      ((planObject host schema v ⟨0, JsMap.empty⟩).map fun r => (r.1, r.2.parameters)) = .ok (c, p) →
      (Good Q c ↔ ∀ w, some v = some w → Fits (FitsField host schema Q) w) := by
    intro v hv
    cases hrun : planObject host schema v ⟨0, JsMap.empty⟩ with
    | error e => rw [hrun] at hv; cases hv
    | ok r =>
      rw [hrun] at hv
      cases hv
      obtain ⟨-, hgood⟩ := (planObject_spec v _ _ _ hrun).2 r.2.parameters fun _ _ => rfl
      refine hgood.trans ⟨fun h w hw => ?_, fun h => h v rfl⟩
      cases hw
      exact h
  rcases filter with _ | _ | b | q | t | items | members
  · cases h
    exact iff_of_true (good_blank rfl) fun v hv => by cases hv
  · cases h
    refine iff_of_true (good_blank rfl) fun v hv => ?_
    cases hv
    simp [Fits]
  · exact hobject (.bool b) h
  · exact hobject (.num q) h
  · exact hobject (.str t) h
  · exact hobject (.arr items) h
  · exact hobject (.obj members) h

end

/-! ### The text of a translation -/

/-- The columns that a filter writes can be quoted, every condition of a field has an operator, and no object has a
clause without a text beside others. -/
def Writable (host : Host) (schema : SqlMemoryNodeSchema) (dialect : DatabaseDialect)
    (filter : Option FilterValue) : Prop :=
  ∀ v, filter = some v → Fits (FitsField host schema (Quotable dialect)) v

section

variable {host : Host} {schema : SqlMemoryNodeSchema} {dialect : DatabaseDialect} {filter : Option FilterValue}
  {c : Condition} {sql : String} {p : SqlParameters}

theorem scannable (hmarks : ∀ m, IsPlaceholder p m → isMarkName m = true) :
    Scannable dialect.quote (openingQuote dialect) (closingQuote dialect) (IsColumn schema dialect) (IsPlaceholder p) := by
  have hcolumn : ∀ t, IsColumn schema dialect t → ∃ n, t = dialect.quote n ∧ ∀ c ∈ n.toList, c ≠ closingQuote dialect := by
    rintro t ⟨f, -, hquotable, rfl⟩
    refine ⟨_, rfl, ?_⟩
    rintro c hc rfl
    exact hquotable.2 hc
  refine ⟨⟨fun n => ?_, ?_, ?_⟩, hcolumn, hmarks⟩
  · cases dialect <;> simp [DatabaseDialect.quote, openingQuote, closingQuote]
  · cases dialect <;> simp [openingQuote]
  · cases dialect <;> simp [closingQuote]

theorem plan_marks (h : plan host schema filter = .ok (c, p)) :
    (∀ m, .mark m ∈ c.pieces → IsPlaceholder p m) ∧ ∀ m, IsPlaceholder p m → isMarkName m = true := by
  obtain ⟨hentries, hmarks, -⟩ := plan_spec h
  have hkeys : p.keys = nextNames 0 (filterValues host filter).length := by
    show p.entries.map Prod.fst = _
    rw [hentries, List.map_fst_zip (by simp [nextNames])]
  refine ⟨fun m hm => ?_, fun m hm => ?_⟩
  · refine (JsMap.get_isSome_iff _ _).2 ?_
    rw [hkeys, ← hmarks]
    exact List.mem_filterMap.2 ⟨_, hm, rfl⟩
  · have hmem := (JsMap.get_isSome_iff _ _).1 hm
    rw [hkeys] at hmem
    obtain ⟨i, -, rfl⟩ := List.mem_map.1 hmem
    exact isMarkName_paramName i

/-- **Well-formed SQL**: the text of a filter that is writable is empty or a boolean expression, and where every
column of the schema can be quoted it is one for no other filter. -/
theorem translate_wellFormed_iff (h : translate host schema dialect filter JsMap.empty = .ok (sql, p)) :
    (Writable host schema dialect filter → WellFormedSql schema dialect sql p) ∧
      ((∀ f ∈ schema.fields, Quotable dialect (resolvedColumnName f)) →
        (WellFormedSql schema dialect sql p ↔ Writable host schema dialect filter)) := by
  rw [translate_eq] at h
  cases hplan : plan host schema filter with
  | error e => rw [hplan] at h; cases h
  | ok r =>
    obtain ⟨c, p'⟩ := r
    rw [hplan] at h
    cases h
    obtain ⟨hregistered, hmarks⟩ := plan_marks hplan
    have hdeclared : ∀ n, .name n ∈ c.pieces → ∃ f ∈ schema.fields, n = resolvedColumnName f :=
      (plan_emits (fun f hf => ⟨f, hf, rfl⟩) hplan).2.2
    have hover : (∀ n, .name n ∈ c.pieces → Quotable dialect n) →
        c.Over dialect.quote (IsColumn schema dialect) (IsPlaceholder p') := by
      refine fun hnames => ⟨fun n hn => ?_, hregistered⟩
      obtain ⟨f, hf, rfl⟩ := hdeclared n hn
      exact ⟨f, hf, hnames _ hn, rfl⟩
    have hgood : Good (Quotable dialect) c ↔ Writable host schema dialect filter := plan_good hplan
    have hformed : Writable host schema dialect filter → WellFormedSql schema dialect (c.text dialect.quote) p' := by
      intro hwritable
      obtain ⟨hparts, hnames⟩ := hgood.2 hwritable
      rcases hparts with hblank | hparts
      · exact .inl ((Condition.text_eq_empty_iff _ c).2 hblank)
      · exact .inr (c.isExpression (hover hnames) hparts)
    refine ⟨hformed, fun hquotable => ⟨fun hwell => hgood.1 ?_, hformed⟩⟩
    have hnames : ∀ n, .name n ∈ c.pieces → Quotable dialect n := by
      intro n hn
      obtain ⟨f, hf, rfl⟩ := hdeclared n hn
      exact hquotable f hf
    refine ⟨?_, hnames⟩
    rcases hwell with hempty | hexpression
    · exact .inl ((Condition.text_eq_empty_iff _ c).1 hempty)
    · cases hblank : c.isBlank with
      | true => exact .inl rfl
      | false =>
        exact .inr (((scannable hmarks).isExpression_iff (hover hnames) hblank).1 hexpression)

def namedAndNone : FilterValue :=
  .obj [("name", .obj [("$eq", .str "Ada")]), ("$or", .arr [.obj [("name", .obj [("$in", .arr [])])]])]

def adaParameter : SqlParameters := SqlParameters.add JsMap.empty "p0" (.str "Ada")

theorem namedAndNone_wellFormed : Writable SqlQueryBuilder.sampleHost customersSchema .postgreSql (some namedAndNone) ∧
    WellFormedSql customersSchema .postgreSql "(\"full_name\" = @p0 AND 1=0)" adaParameter := by
  have hquotable : ∀ f ∈ customersSchema.fields, Quotable .postgreSql (resolvedColumnName f) := by
    intro f hf
    rw [List.mem_singleton.1 hf]
    exact ⟨by decide, by decide⟩
  have hfield : ∀ f, customersSchema.getField SqlQueryBuilder.sampleHost "name" = some f →
      Quotable .postgreSql (resolvedColumnName f) := fun f hf => hquotable f (customersSchema.getField_mem _ hf)
  have hwritable : Writable SqlQueryBuilder.sampleHost customersSchema .postgreSql (some namedAndNone) := by
    intro v hv
    cases hv
    simp [Fits, FitsMembers, FitsList, FitsItems, FitsField, blankClause, blankList, blankItems, blank, blankMembers,
      starts_or, starts_name, namedAndNone]
    exact ⟨fun _ => hfield, fun _ => hfield⟩
  have htranslate : translate SqlQueryBuilder.sampleHost customersSchema .postgreSql (some namedAndNone) JsMap.empty =
      .ok ("(\"full_name\" = @p0 AND 1=0)", adaParameter) := rfl
  exact ⟨hwritable, ((translate_wellFormed_iff htranslate).2 hquotable).2 hwritable⟩

theorem not_wellFormed_of_gap (hmarks : ∀ m, IsPlaceholder p m → isMarkName m = true) (hne : sql ≠ "")
    (hgap : (Scan.run (openingQuote dialect) (closingQuote dialect) ⟨some ')', false⟩ sql.toList).gap = true) :
    ¬ WellFormedSql schema dialect sql p := by
  rintro (hempty | hexpression)
  · exact hne hempty
  · obtain ⟨last, -, hrun⟩ := (scannable hmarks).complete hexpression ')' false
    rw [hrun] at hgap
    cases hgap

/-- An empty group, and a conjunction without its first part. -/
theorem missing_operands :
    translate SqlQueryBuilder.sampleHost customersSchema .postgreSql (some (.obj [("name", .obj [])])) JsMap.empty =
        .ok ("()", JsMap.empty) ∧
      ¬ WellFormedSql customersSchema .postgreSql "()" JsMap.empty ∧
      translate SqlQueryBuilder.sampleHost customersSchema .postgreSql
          (some (.obj [("$and", .arr []), ("name", .obj [("$eq", .str "Ada")])])) JsMap.empty =
        .ok ("( AND \"full_name\" = @p0)", adaParameter) ∧
      ¬ WellFormedSql customersSchema .postgreSql "( AND \"full_name\" = @p0)" adaParameter := by
  have hnone : ∀ m, IsPlaceholder JsMap.empty m → isMarkName m = true := fun m hm =>
    absurd ((JsMap.get_isSome_iff _ _).1 hm) List.not_mem_nil
  have hada : ∀ m, IsPlaceholder adaParameter m → isMarkName m = true := fun m hm => by
    rw [List.mem_singleton.1 ((JsMap.get_isSome_iff _ _).1 hm)]
    decide
  exact ⟨rfl, not_wellFormed_of_gap hnone (by decide) (by decide), rfl,
    not_wellFormed_of_gap hada (by decide) (by decide)⟩

end

end NpsSdk.Nwp.Query
