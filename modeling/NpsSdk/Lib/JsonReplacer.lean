import NpsSdk.Lib.JsonReader

/-!
# Serialising a value through a list of names

`JSON.stringify(value, names)` writes, of every object at every depth, only the members whose name
is in `names`, in the order of `names`.  What it writes is the ordinary text of the value so
restricted (`shown`), and since the ordinary text determines a value, two texts agree exactly when
the values agree on every path all of whose names are in the list (`stringify_eq_iff`).
-/

namespace NpsSdk.Lib.Json

/-! ### Paths -/

/-- One step into a value. -/
inductive Selector
  | name (k : String)
  | index (i : ℕ)

/-- What a value is, apart from its parts. -/
inductive Shape
  | null
  | bool (b : Bool)
  | num (n : JsNumber)
  | str (s : String)
  | arr (length : ℕ)
  | obj

/-- The shape of a value. -/
def shape : Json → Shape
  | .null => .null
  | .bool b => .bool b
  | .num n => .num n
  | .str s => .str s
  | .arr items => .arr items.length
  | .obj _ => .obj

/-- The part a step leads to. -/
def child : Selector → Json → Option Json
  | .name k, .obj members => JsMap.find k members
  | .index i, .arr items => items[i]?
  | _, _ => none

/-- What stands at the end of a path, if the path exists. -/
def shapeAt : List Selector → Json → Option Shape
  | [], v => some (shape v)
  | s :: path, v => (child s v).bind (shapeAt path)

/-- Two values with the same content: they agree along every path, whatever the order of the
members of their objects. -/
def Same (a b : Json) : Prop := ∀ path, shapeAt path a = shapeAt path b

/-- Does a step stay within `names`? -/
def Selector.isVisible (names : List String) : Selector → Bool
  | .name k => decide (k ∈ names)
  | .index _ => true

/-- The names of the path are in `names`. -/
def Visible (names : List String) (path : List Selector) : Prop :=
  ∀ s ∈ path, s.isVisible names = true

/-! ### The restricted value -/

/-- The members of an object whose name is in `names`, in the order of `names`. -/
def select (names : List String) (members : List (String × Json)) : List (String × Json) :=
  names.filterMap fun k => (JsMap.find k members).map fun v => (k, v)

mutual
/-- The value with every object restricted to `names`. -/
def shown (names : List String) : Json → Json
  | .null => .null
  | .bool b => .bool b
  | .num n => .num n
  | .str s => .str s
  | .arr items => .arr (shownItems names items)
  | .obj members => .obj (select names (shownMembers names members))
def shownItems (names : List String) : List Json → List Json
  | [] => []
  | v :: vs => shown names v :: shownItems names vs
/-- The members of an object, each restricted. -/
def shownMembers (names : List String) : List (String × Json) → List (String × Json)
  | [] => []
  | (k, v) :: ms => (k, shown names v) :: shownMembers names ms
end

/-- `JSON.stringify(value, names)`. -/
def stringify (names : List String) (v : Json) : List Char := text (shown names v)

attribute [local simp] shapeAt shown shownItems shownMembers

theorem shownItems_eq (names : List String) (items : List Json) :
    shownItems names items = items.map (shown names) := by
  induction items with
  | nil => rfl
  | cons v vs ih => simp [ih]

theorem find_shownMembers (names : List String) (k : String) (members : List (String × Json)) :
    JsMap.find k (shownMembers names members) = (JsMap.find k members).map (shown names) := by
  induction members with
  | nil => rfl
  | cons m ms ih =>
    obtain ⟨k', v⟩ := m
    simp only [shownMembers, JsMap.find]
    split_ifs
    · rfl
    · exact ih

variable {names : List String}

theorem find_select {members : List (String × Json)} (k : String) :
    JsMap.find k (select names members) = if k ∈ names then JsMap.find k members else none := by
  induction names with
  | nil => simp [select, JsMap.find]
  | cons n names ih =>
    simp only [select] at ih
    cases hn : JsMap.find n members with
    | none =>
      simp only [select, List.filterMap_cons, hn, Option.map_none, ih, List.mem_cons]
      by_cases hk : k = n
      · subst hk
        simp [hn]
      · simp [hk]
    | some v =>
      simp only [select, List.filterMap_cons, hn, Option.map_some, JsMap.find, List.mem_cons]
      by_cases hk : k = n
      · subst hk
        simp [hn]
      · simp only [Ne.symm hk, if_false, ih, hk, false_or]

theorem select_eq_iff {ms ns : List (String × Json)} :
    select names ms = select names ns ↔ ∀ k ∈ names, JsMap.find k ms = JsMap.find k ns := by
  constructor
  · intro h k hk
    have := congrArg (JsMap.find k) h
    simpa only [find_select, hk, if_true] using this
  · intro h
    refine List.filterMap_congr fun k hk => ?_
    rw [h k hk]

/-! ### Agreement on what is shown -/

theorem shape_shown (names : List String) (v : Json) : shape (shown names v) = shape v := by
  cases v <;> simp [shape, shownItems_eq]

theorem child_shown (names : List String) (s : Selector) (v : Json) :
    child s (shown names v) =
      if s.isVisible names then (child s v).map (shown names) else none := by
  cases s with
  | name k =>
    simp only [Selector.isVisible, decide_eq_true_eq]
    cases v with
    | obj members => simp only [shown, child, find_select, find_shownMembers]
    | _ => simp [child]
  | index i =>
    simp only [Selector.isVisible, if_true]
    cases v with
    | arr items => simp only [shown, child, shownItems_eq, List.getElem?_map]
    | _ => simp [child]

theorem shapeAt_shown (names : List String) (path : List Selector) (v : Json) :
    (Visible names path → shapeAt path (shown names v) = shapeAt path v) ∧
      (¬ Visible names path → shapeAt path (shown names v) = none) := by
  induction path generalizing v with
  | nil =>
    refine ⟨fun _ => ?_, fun h => absurd (by rintro k ⟨⟩) h⟩
    simp only [shapeAt, shape_shown]
  | cons s path ih =>
    have hvis : Visible names (s :: path) ↔ s.isVisible names = true ∧ Visible names path :=
      List.forall_mem_cons
    simp only [shapeAt, child_shown]
    by_cases hs : s.isVisible names = true
    · rw [if_pos hs]
      cases child s v with
      | none => simp
      | some w =>
        simp only [Option.map_some, Option.bind_some]
        exact ⟨fun h => (ih w).1 (hvis.1 h).2, fun h => (ih w).2 fun hp => h (hvis.2 ⟨hs, hp⟩)⟩
    · rw [if_neg hs]
      exact ⟨fun h => absurd (hvis.1 h).1 hs, fun _ => rfl⟩

/-- Two restricted values that agree along every path are equal: their members stand in the order
of the names. -/
theorem shown_eq_of_same : ∀ a b,
    (∀ path, shapeAt path (shown names a) = shapeAt path (shown names b)) → shown names a = shown names b := by
  intro a
  induction a using ind with
  | null =>
    intro b h
    have := h []
    cases b <;> simp_all [shape]
  | bool x =>
    intro b h
    have := h []
    cases b <;> simp_all [shape]
  | num n =>
    intro b h
    have := h []
    cases b <;> simp_all [shape]
  | str s =>
    intro b h
    have := h []
    cases b <;> simp_all [shape]
  | arr items ih =>
    intro b h
    cases b with
    | arr items' =>
      simp only [shown, shownItems_eq]
      congr 1
      have hlen : items.length = items'.length := by
        have := h []
        simpa [shape, shownItems_eq] using this
      refine List.ext_getElem (by simpa using hlen) fun i h1 h2 => ?_
      simp only [List.getElem_map]
      simp only [List.length_map] at h1 h2
      refine ih _ (List.getElem_mem h1) _ fun path => ?_
      have := h (.index i :: path)
      simpa [child, shownItems_eq, h1, h2] using this
    | _ =>
      have := h []
      simp [shape] at this
  | obj ms ih =>
    intro b h
    cases b with
    | obj ns =>
      simp only [shown]
      congr 1
      rw [select_eq_iff]
      intro k hk
      rw [find_shownMembers, find_shownMembers]
      have hpath : ∀ path, ((JsMap.find k ms).map (shown names)).bind (shapeAt path) =
          ((JsMap.find k ns).map (shown names)).bind (shapeAt path) := by
        intro path
        have := h (.name k :: path)
        simpa only [shapeAt, shown, child, find_select, hk, if_true, find_shownMembers] using this
      cases hm : JsMap.find k ms with
      | none =>
        cases hn : JsMap.find k ns with
        | none => rfl
        | some w =>
          have := hpath []
          simp [hm, hn] at this
      | some v =>
        cases hn : JsMap.find k ns with
        | none =>
          have := hpath []
          simp [hm, hn] at this
        | some w =>
          simp only [Option.map_some]
          congr 1
          refine ih (k, v) (JsMap.mem_of_find hm) w fun path => ?_
          have := hpath path
          simpa [hm, hn] using this
    | _ =>
      have := h []
      simp [shape] at this

/-- **What a text through names determines.**  Two values have the same text exactly when they
agree along every path whose names are in the list. -/
theorem stringify_eq_iff {a b : Json} :
    stringify names a = stringify names b ↔ ∀ path, Visible names path → shapeAt path a = shapeAt path b := by
  constructor
  · intro h path hp
    have heq : shown names a = shown names b := text_injective h
    rw [← (shapeAt_shown names path a).1 hp, ← (shapeAt_shown names path b).1 hp, heq]
  · intro h
    refine congrArg text (shown_eq_of_same a b fun path => ?_)
    by_cases hp : Visible names path
    · rw [(shapeAt_shown names path a).1 hp, (shapeAt_shown names path b).1 hp, h path hp]
    · rw [(shapeAt_shown names path a).2 hp, (shapeAt_shown names path b).2 hp]

end NpsSdk.Lib.Json
