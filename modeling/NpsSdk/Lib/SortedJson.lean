import NpsSdk.Lib.JsonReplacer

/-!
# Values rebuilt with sorted keys

A serialiser that sorts the keys of an object and assigns the members to a new object in that order
relies on the order in which the host lists members.  The host lists array indices first, by their
number, and an assignment to `__proto__` makes no member.  `sorted` is the value so rebuilt.  Two values
are rebuilt alike just when they agree along every path that avoids `__proto__` (`sorted_eq_iff`), and the
keys of the rebuilt value ascend just when the order of the indices is that of their names
(`ascending_sorted_iff`).
-/

namespace NpsSdk.Lib

/-! ### The order of names -/

attribute [local simp] unitsLe

theorem unitsLe_total (a b : List ℕ) : unitsLe a b = true ∨ unitsLe b a = true := by
  induction a generalizing b with
  | nil => exact .inl rfl
  | cons x xs ih =>
    cases b with
    | nil => exact .inr rfl
    | cons y ys =>
      simp only [unitsLe, Bool.or_eq_true, Bool.and_eq_true, decide_eq_true_eq, beq_iff_eq]
      rcases lt_trichotomy x y with h | h | h
      · exact .inl (.inl h)
      · exact (ih ys).imp (fun hle => .inr ⟨h, hle⟩) fun hle => .inr ⟨h.symm, hle⟩
      · exact .inr (.inl h)

theorem unitsLe_trans {a b c : List ℕ} (hab : unitsLe a b = true) (hbc : unitsLe b c = true) : unitsLe a c = true := by
  induction a generalizing b c with
  | nil => rfl
  | cons x xs ih =>
    cases b with
    | nil => cases hab
    | cons y ys =>
      cases c with
      | nil => cases hbc
      | cons z zs =>
        simp only [unitsLe, Bool.or_eq_true, Bool.and_eq_true, decide_eq_true_eq, beq_iff_eq] at hab hbc ⊢
        rcases hab with h | ⟨rfl, h⟩
        · rcases hbc with h' | ⟨rfl, -⟩
          · exact .inl (h.trans h')
          · exact .inl h
        · exact hbc.imp_right fun ⟨hyz, h'⟩ => ⟨hyz, ih h h'⟩

theorem unitsLe_antisymm {a b : List ℕ} (hab : unitsLe a b = true) (hba : unitsLe b a = true) : a = b := by
  induction a generalizing b with
  | nil =>
    cases b with
    | nil => rfl
    | cons y ys => cases hba
  | cons x xs ih =>
    cases b with
    | nil => cases hab
    | cons y ys =>
      simp only [unitsLe, Bool.or_eq_true, Bool.and_eq_true, decide_eq_true_eq, beq_iff_eq] at hab hba
      rcases hab with h | ⟨rfl, h⟩
      · omega
      · rw [ih h (hba.resolve_left (lt_irrefl x)).2]

theorem toNat_valid (c : Char) : c.toNat < 0xd800 ∨ 0xdfff < c.toNat ∧ c.toNat < 0x110000 := by
  have h : c.val.toNat.isValidChar := c.valid
  simp only [Nat.isValidChar] at h
  show c.val.toNat < 0xd800 ∨ 0xdfff < c.val.toNat ∧ c.val.toNat < 0x110000
  omega

theorem utf16_injective : Function.Injective utf16 := by
  intro s t h
  refine String.toList_injective ?_
  unfold utf16 at h
  generalize s.toList = as at h ⊢
  generalize t.toList = bs at h ⊢
  induction as generalizing bs with
  | nil =>
    cases bs with
    | nil => rfl
    | cons d ds =>
      rw [List.flatMap_nil, List.flatMap_cons] at h
      split at h <;> cases h
  | cons c cs ih =>
    cases bs with
    | nil =>
      rw [List.flatMap_nil, List.flatMap_cons] at h
      split at h <;> cases h
    | cons d ds =>
      have hc := toNat_valid c
      have hd := toNat_valid d
      simp only [List.flatMap_cons] at h
      split_ifs at h with h1 h2 h3
      · simp only [List.cons_append, List.nil_append, List.cons.injEq] at h
        rw [Char.toNat_inj.1 h.1, ih _ h.2]
      · simp only [List.cons_append, List.nil_append, List.cons.injEq] at h
        omega
      · simp only [List.cons_append, List.nil_append, List.cons.injEq] at h
        omega
      · simp only [List.cons_append, List.nil_append, List.cons.injEq] at h
        obtain ⟨hhigh, hlow, hrest⟩ := h
        rw [Char.toNat_inj.1 (show c.toNat = d.toNat by omega), ih _ hrest]

abbrev nameLe (a b : String) : Prop := unitsLe (utf16 a) (utf16 b) = true

theorem nameLe_antisymm {a b : String} (h : nameLe a b) (h' : nameLe b a) : a = b :=
  utf16_injective (unitsLe_antisymm h h')

variable {α β : Type*}

/-- The order of members by their names. -/
abbrev memberLe (a b : String × α) : Prop := unitsLe (utf16 a.1) (utf16 b.1) = true

instance : Std.Total (memberLe (α := α)) :=
  ⟨fun a b => unitsLe_total (utf16 a.1) (utf16 b.1)⟩

instance : IsTrans (String × α) memberLe :=
  ⟨fun _ _ _ hab hbc => unitsLe_trans hab hbc⟩

theorem eq_of_sorted {ms ns : List (String × α)} (hp : ms.Perm ns) (hn : (ms.map Prod.fst).Nodup)
    (hms : ms.Pairwise memberLe) (hns : ns.Pairwise memberLe) : ms = ns := by
  refine List.Perm.eq_of_pairwise (fun a b ha hb hab hba => ?_) hms hns hp
  exact List.inj_on_of_nodup_map hn ha (hp.mem_iff.2 hb) (nameLe_antisymm hab hba)

/-! ### Rebuilding an object -/

/-- The members that are assigned to a new object, in the order of the assignments: those that make a
member, by their names. -/
def assigned (members : List (String × α)) : List (String × α) :=
  (members.filter (·.1 ≠ "__proto__")).insertionSort memberLe

/-- The members of the new object. -/
def rebuilt (members : List (String × α)) : List (String × α) := fromEntries (assigned members)

variable {members : List (String × α)}

theorem assigned_perm : (assigned members).Perm (members.filter (·.1 ≠ "__proto__")) := List.perm_insertionSort _ _

theorem assigned_sorted : (assigned members).Pairwise memberLe := List.pairwise_insertionSort _ _

theorem names_assigned (hn : (members.map Prod.fst).Nodup) : ((assigned members).map Prod.fst).Nodup :=
  (assigned_perm.map Prod.fst).nodup_iff.2 ((List.filter_sublist.map Prod.fst).nodup hn)

theorem mem_rebuilt {m : String × α} : m ∈ rebuilt members ↔ m ∈ members ∧ m.1 ≠ "__proto__" := by
  rw [rebuilt, (fromEntries_perm _).mem_iff, assigned_perm.mem_iff, List.mem_filter, decide_eq_true_eq]

theorem find_rebuilt (hn : (members.map Prod.fst).Nodup) (k : String) :
    JsMap.find k (rebuilt members) = if k = "__proto__" then none else JsMap.find k members := by
  have hnames := names_assigned hn
  rw [rebuilt, find_perm (fromEntries_perm _) (((fromEntries_perm _).map Prod.fst).nodup_iff.2 hnames),
    find_perm assigned_perm hnames]
  have hfilter := JsMap.find_filter (fun name : String => decide (name ≠ "__proto__")) k members
  rw [hfilter]
  by_cases hk : k = "__proto__" <;> simp [hk]

/-- Objects are rebuilt alike if they have the same members apart from `__proto__`. -/
theorem rebuilt_congr {members' : List (String × α)} (hn : (members.map Prod.fst).Nodup)
    (hn' : (members'.map Prod.fst).Nodup)
    (h : ∀ k, k ≠ "__proto__" → JsMap.find k members = JsMap.find k members') : rebuilt members = rebuilt members' := by
  have hperm : (members.filter (·.1 ≠ "__proto__")).Perm (members'.filter (·.1 ≠ "__proto__")) := by
    refine (List.perm_ext_iff_of_nodup ((hn.of_map).filter _) ((hn'.of_map).filter _)).2 fun m => ?_
    simp only [List.mem_filter, decide_eq_true_eq]
    refine and_congr_left fun hk => ?_
    constructor
    · intro hm
      refine JsMap.mem_of_find ?_
      rw [← h m.1 hk, JsMap.find_of_mem hn hm]
    · intro hm
      refine JsMap.mem_of_find ?_
      rw [h m.1 hk, JsMap.find_of_mem hn' hm]
  have hassigned : assigned members = assigned members' :=
    eq_of_sorted (assigned_perm.trans (hperm.trans assigned_perm.symm)) (names_assigned hn)
      assigned_sorted assigned_sorted
  rw [rebuilt, rebuilt, hassigned]

theorem filter_sorted (hn : (members.map Prod.fst).Nodup) :
    (members.insertionSort memberLe).filter (·.1 ≠ "__proto__") = assigned members := by
  have hperm : ((members.insertionSort memberLe).filter (·.1 ≠ "__proto__")).Perm (assigned members) :=
    ((List.perm_insertionSort _ members).filter _).trans assigned_perm.symm
  refine eq_of_sorted hperm ((hperm.map Prod.fst).nodup_iff.2 (names_assigned hn)) ?_ assigned_sorted
  exact (List.pairwise_insertionSort memberLe members).sublist List.filter_sublist

/-- The array indices among the names stand in the order of their numbers, and before all other names. -/
def IndicesFirst (names : List String) : Prop :=
  ∀ k ∈ names, ∀ l ∈ names, k ≠ "__proto__" → l ≠ "__proto__" → ∀ i, arrayIndex k = some i →
    (∀ j, arrayIndex l = some j → i < j → nameLe k l) ∧ (arrayIndex l = none → nameLe k l)

/-- The names of the new object ascend just when its indices come first by their names too. -/
theorem sorted_rebuilt_iff : (rebuilt members).Pairwise memberLe ↔ IndicesFirst (members.map Prod.fst) := by
  have hmem : ∀ {k : String}, k ∈ members.map Prod.fst → k ≠ "__proto__" → ∃ v, (k, v) ∈ assigned members := by
    intro k hk hproto
    obtain ⟨m, hm, rfl⟩ := List.mem_map.1 hk
    exact ⟨m.2, assigned_perm.mem_iff.2 (List.mem_filter.2 ⟨hm, by simpa using hproto⟩)⟩
  have hname : ∀ m ∈ assigned members, m.1 ∈ members.map Prod.fst ∧ m.1 ≠ "__proto__" := by
    intro m hm
    obtain ⟨h1, h2⟩ := List.mem_filter.1 (assigned_perm.mem_iff.1 hm)
    exact ⟨List.mem_map_of_mem h1, by simpa using h2⟩
  have hsort := List.pairwise_insertionSort
    (fun a b : String × α => (arrayIndex a.1).getD 0 ≤ (arrayIndex b.1).getD 0)
    ((assigned members).filter fun m => (arrayIndex m.1).isSome)
  unfold rebuilt fromEntries
  rw [List.pairwise_append]
  constructor
  · rintro ⟨hindices, -, hcross⟩ k hk l hl hkp hlp i hi
    obtain ⟨v, hv⟩ := hmem hk hkp
    obtain ⟨w, hw⟩ := hmem hl hlp
    have hk' : (k, v) ∈ ((assigned members).filter fun m => (arrayIndex m.1).isSome).insertionSort
        (fun a b => (arrayIndex a.1).getD 0 ≤ (arrayIndex b.1).getD 0) := by
      rw [List.mem_insertionSort]
      exact List.mem_filter.2 ⟨hv, by simp [hi]⟩
    refine ⟨fun j hj hij => ?_, fun hnone => ?_⟩
    · have hl' : (l, w) ∈ ((assigned members).filter fun m => (arrayIndex m.1).isSome).insertionSort
          (fun a b => (arrayIndex a.1).getD 0 ≤ (arrayIndex b.1).getD 0) := by
        rw [List.mem_insertionSort]
        exact List.mem_filter.2 ⟨hw, by simp [hj]⟩
      obtain ⟨p, hp, hkp⟩ := List.getElem_of_mem hk'
      obtain ⟨q, hq, hlq⟩ := List.getElem_of_mem hl'
      rcases lt_trichotomy p q with hpq | rfl | hqp
      · have hle := List.pairwise_iff_getElem.1 hindices p q hp hq hpq
        rwa [hkp, hlq] at hle
      · rw [hkp] at hlq
        cases hlq
        rw [hi, Option.some.injEq] at hj
        omega
      · -- the larger index does not stand first
        have hle := List.pairwise_iff_getElem.1 hsort q p hq hp hqp
        rw [hkp, hlq, hi, hj, Option.getD_some, Option.getD_some] at hle
        omega
    · exact hcross (k, v) hk' (l, w) (List.mem_filter.2 ⟨hw, by simp [hnone]⟩)
  · intro h
    have hids : ((assigned members).filter fun m => (arrayIndex m.1).isSome).Pairwise
        (fun a b => (arrayIndex a.1).getD 0 ≤ (arrayIndex b.1).getD 0) := by
      refine (assigned_sorted.sublist List.filter_sublist).imp_of_mem fun {a b} ha hb hab => ?_
      obtain ⟨ha1, ha2⟩ := List.mem_filter.1 ha
      obtain ⟨hb1, hb2⟩ := List.mem_filter.1 hb
      obtain ⟨i, hi⟩ := Option.isSome_iff_exists.1 ha2
      obtain ⟨j, hj⟩ := Option.isSome_iff_exists.1 hb2
      rw [hi, hj, Option.getD_some, Option.getD_some]
      by_contra hlt
      have hba : nameLe b.1 a.1 := (h b.1 (hname b hb1).1 a.1 (hname a ha1).1 (hname b hb1).2 (hname a ha1).2 j hj).1
        i hi (by omega)
      rw [nameLe_antisymm hab hba, hj, Option.some.injEq] at hi
      omega
    rw [hids.insertionSort_eq]
    refine ⟨assigned_sorted.sublist List.filter_sublist, assigned_sorted.sublist List.filter_sublist, ?_⟩
    intro m hm m' hm'
    obtain ⟨hm1, hm2⟩ := List.mem_filter.1 hm
    obtain ⟨hm1', hm2'⟩ := List.mem_filter.1 hm'
    obtain ⟨i, hi⟩ := Option.isSome_iff_exists.1 hm2
    exact (h m.1 (hname m hm1).1 m'.1 (hname m' hm1').1 (hname m hm1).2 (hname m' hm1').2 i hi).2
      (Option.isNone_iff_eq_none.1 hm2')

namespace Json

/-! ### Rebuilding a value -/

mutual
/-- The value with every object rebuilt. -/
def sorted : Json → Json
  | .arr items => .arr (sortedItems items)
  | .obj members => .obj (rebuilt (sortedMembers members))
  | v => v
def sortedItems : List Json → List Json
  | [] => []
  | v :: vs => sorted v :: sortedItems vs
def sortedMembers : List (String × Json) → List (String × Json)
  | [] => []
  | (k, v) :: ms => (k, sorted v) :: sortedMembers ms
end

mutual
/-- No object names a member twice. -/
def Proper : Json → Prop
  | .arr items => ProperItems items
  | .obj members => (members.map Prod.fst).Nodup ∧ ProperMembers members
  | _ => True
def ProperItems : List Json → Prop
  | [] => True
  | v :: vs => Proper v ∧ ProperItems vs
def ProperMembers : List (String × Json) → Prop
  | [] => True
  | (_, v) :: ms => Proper v ∧ ProperMembers ms
end

mutual
/-- The members of every object stand in the order of their names. -/
def Ascending : Json → Prop
  | .arr items => AscendingItems items
  | .obj members => members.Pairwise memberLe ∧ AscendingMembers members
  | _ => True
def AscendingItems : List Json → Prop
  | [] => True
  | v :: vs => Ascending v ∧ AscendingItems vs
def AscendingMembers : List (String × Json) → Prop
  | [] => True
  | (_, v) :: ms => Ascending v ∧ AscendingMembers ms
end

mutual
/-- In every object outside the members `__proto__` the array indices come first by their names. -/
def IndicesAscend : Json → Prop
  | .arr items => IndicesAscendItems items
  | .obj members => IndicesFirst (members.map Prod.fst) ∧ IndicesAscendMembers members
  | _ => True
def IndicesAscendItems : List Json → Prop
  | [] => True
  | v :: vs => IndicesAscend v ∧ IndicesAscendItems vs
def IndicesAscendMembers : List (String × Json) → Prop
  | [] => True
  | (k, v) :: ms => (k ≠ "__proto__" → IndicesAscend v) ∧ IndicesAscendMembers ms
end

attribute [local simp] sorted sortedItems sortedMembers Proper ProperItems ProperMembers Ascending AscendingItems
  AscendingMembers IndicesAscend IndicesAscendItems IndicesAscendMembers

theorem sortedItems_eq (items : List Json) : sortedItems items = items.map sorted := by
  induction items with
  | nil => rfl
  | cons v vs ih => rw [sortedItems, ih, List.map_cons]

theorem sortedMembers_eq (members : List (String × Json)) :
    sortedMembers members = members.map fun m => (m.1, sorted m.2) := by
  induction members with
  | nil => rfl
  | cons m ms ih => rw [sortedMembers, ih, List.map_cons]

theorem properItems_iff {items : List Json} : ProperItems items ↔ ∀ v ∈ items, Proper v := by
  induction items with
  | nil => simp
  | cons v vs ih => simp [ih]

theorem properMembers_iff {members : List (String × Json)} : ProperMembers members ↔ ∀ m ∈ members, Proper m.2 := by
  induction members with
  | nil => simp
  | cons m ms ih => simp [ih]

theorem ascendingItems_iff {items : List Json} : AscendingItems items ↔ ∀ v ∈ items, Ascending v := by
  induction items with
  | nil => simp
  | cons v vs ih => simp [ih]

theorem ascendingMembers_iff {members : List (String × Json)} :
    AscendingMembers members ↔ ∀ m ∈ members, Ascending m.2 := by
  induction members with
  | nil => simp
  | cons m ms ih => simp [ih]

theorem indicesAscendItems_iff {items : List Json} : IndicesAscendItems items ↔ ∀ v ∈ items, IndicesAscend v := by
  induction items with
  | nil => simp
  | cons v vs ih => simp [ih]

theorem indicesAscendMembers_iff {members : List (String × Json)} :
    IndicesAscendMembers members ↔ ∀ m ∈ members, m.1 ≠ "__proto__" → IndicesAscend m.2 := by
  induction members with
  | nil => simp
  | cons m ms ih => simp [ih]

theorem names_sortedMembers (members : List (String × Json)) :
    (sortedMembers members).map Prod.fst = members.map Prod.fst := by
  rw [sortedMembers_eq, List.map_map]
  rfl

theorem find_sortedMembers (k : String) (members : List (String × Json)) :
    JsMap.find k (sortedMembers members) = (JsMap.find k members).map sorted := by
  induction members with
  | nil => rfl
  | cons m ms ih =>
    simp only [sortedMembers, JsMap.find]
    split_ifs
    · rfl
    · exact ih

/-- A function that rebuilds every object of a value. -/
structure Rebuilds (f : Json → Json) : Prop where
  null : f .null = .null
  bool : ∀ b, f (.bool b) = .bool b
  num : ∀ n, f (.num n) = .num n
  str : ∀ s, f (.str s) = .str s
  arr : ∀ items, f (.arr items) = .arr (items.map f)
  obj : ∀ members, (members.map Prod.fst).Nodup →
    f (.obj members) = .obj (rebuilt (members.map fun m => (m.1, f m.2)))

theorem Rebuilds.eq_sorted {f : Json → Json} (h : Rebuilds f) : ∀ {v : Json}, v.Proper → f v = sorted v := by
  intro v
  induction v using ind with
  | null => exact fun _ => h.null
  | bool b => exact fun _ => h.bool b
  | num n => exact fun _ => h.num n
  | str s => exact fun _ => h.str s
  | arr items ih =>
    intro hv
    rw [h.arr, sorted, sortedItems_eq]
    congr 1
    exact List.map_congr_left fun v hmem => ih v hmem (properItems_iff.1 hv v hmem)
  | obj members ih =>
    intro hv
    rw [h.obj members hv.1, sorted, sortedMembers_eq]
    congr 2
    exact List.map_congr_left fun m hmem => by rw [ih m hmem (properMembers_iff.1 hv.2 m hmem)]

/-! ### What a rebuilt value shows -/

/-- A path that passes no member `__proto__`. -/
def Clear (path : List Selector) : Prop := ∀ s ∈ path, s ≠ .name "__proto__"

/-- Two values that agree along every path but those through a member `__proto__`. -/
def SameClear (a b : Json) : Prop := ∀ path, Clear path → shapeAt path a = shapeAt path b

theorem Same.clear {a b : Json} (h : Same a b) : SameClear a b := fun path _ => h path

theorem shape_sorted (v : Json) : shape (sorted v) = shape v := by
  cases v <;> simp [shape, sortedItems_eq]

theorem child_sorted {v : Json} (hv : v.Proper) (s : Selector) (hs : s ≠ .name "__proto__") :
    child s (sorted v) = (child s v).map sorted := by
  cases s with
  | name k =>
    have hk : k ≠ "__proto__" := fun h => hs (by rw [h])
    cases v with
    | obj members =>
      simp only [sorted, child]
      rw [find_rebuilt (by rw [names_sortedMembers]; exact hv.1), if_neg hk, find_sortedMembers]
    | _ => simp [child]
  | index i =>
    cases v with
    | arr items => simp only [sorted, child, sortedItems_eq, List.getElem?_map]
    | _ => simp [child]

theorem proper_child {v w : Json} (hv : v.Proper) {s : Selector} (h : child s v = some w) : w.Proper := by
  cases s with
  | name k =>
    cases v with
    | obj members => exact properMembers_iff.1 hv.2 (k, w) (JsMap.mem_of_find h)
    | _ => cases h
  | index i =>
    cases v with
    | arr items => exact properItems_iff.1 hv w (List.mem_of_getElem? h)
    | _ => cases h

theorem shapeAt_sorted {path : List Selector} (hp : Clear path) {v : Json} (hv : v.Proper) :
    shapeAt path (sorted v) = shapeAt path v := by
  induction path generalizing v with
  | nil => simp only [shapeAt, shape_sorted]
  | cons s path ih =>
    have hs : s ≠ .name "__proto__" := hp s List.mem_cons_self
    simp only [shapeAt, child_sorted hv s hs]
    cases hc : child s v with
    | none => rfl
    | some w => exact ih (fun t ht => hp t (List.mem_cons_of_mem s ht)) (proper_child hv hc)

/-- Values that show the same along the clear paths are rebuilt alike. -/
theorem sorted_eq_of_sameClear : ∀ {a b : Json}, a.Proper → b.Proper → SameClear a b → sorted a = sorted b := by
  intro a
  induction a using ind with
  | null | bool | num | str =>
    intro b _ _ h
    have hshape := h [] (by rintro s ⟨⟩)
    cases b <;> simp_all [shapeAt, shape]
  | arr items ih =>
    intro b ha hb h
    have hshape := h [] (by rintro s ⟨⟩)
    cases b with
    | arr items' =>
      rw [sorted, sorted, sortedItems_eq, sortedItems_eq]
      have hlen : items.length = items'.length := by simpa [shapeAt, shape] using hshape
      congr 1
      refine List.ext_getElem (by simpa using hlen) fun i h1 h2 => ?_
      rw [List.length_map] at h1 h2
      rw [List.getElem_map, List.getElem_map]
      refine ih _ (List.getElem_mem h1) (properItems_iff.1 ha _ (List.getElem_mem h1))
        (properItems_iff.1 hb _ (List.getElem_mem h2)) fun path hp => ?_
      have hpath := h (.index i :: path) (by
        intro s hs
        rcases List.mem_cons.1 hs with rfl | hs
        · rintro ⟨⟩
        · exact hp s hs)
      simpa [shapeAt, child, h1, h2] using hpath
    | _ => simp [shapeAt, shape] at hshape
  | obj ms ih =>
    intro b ha hb h
    have hshape := h [] (by rintro s ⟨⟩)
    cases b with
    | obj ns =>
      rw [sorted, sorted]
      congr 1
      refine rebuilt_congr (by rw [names_sortedMembers]; exact ha.1) (by rw [names_sortedMembers]; exact hb.1)
        fun k hk => ?_
      rw [find_sortedMembers, find_sortedMembers]
      have hpath : ∀ path, Clear path →
          (JsMap.find k ms).bind (shapeAt path) = (JsMap.find k ns).bind (shapeAt path) := by
        intro path hp
        exact h (.name k :: path) (by
          intro s hs
          rcases List.mem_cons.1 hs with rfl | hs
          · rintro ⟨⟩
            exact hk rfl
          · exact hp s hs)
      cases hm : JsMap.find k ms with
      | none =>
        cases hn : JsMap.find k ns with
        | none => rfl
        | some w =>
          have hnil := hpath [] (by rintro s ⟨⟩)
          simp [hm, hn, shapeAt] at hnil
      | some v =>
        cases hn : JsMap.find k ns with
        | none =>
          have hnil := hpath [] (by rintro s ⟨⟩)
          simp [hm, hn, shapeAt] at hnil
        | some w =>
          have hv := JsMap.mem_of_find hm
          have hw := JsMap.mem_of_find hn
          rw [Option.map_some, Option.map_some,
            ih (k, v) hv (properMembers_iff.1 ha.2 _ hv) (properMembers_iff.1 hb.2 _ hw) fun path hp => ?_]
          have := hpath path hp
          rwa [hm, hn] at this
    | _ => simp [shapeAt, shape] at hshape

/-- **What a rebuilt value determines**: what the value shows along the clear paths. -/
theorem sorted_eq_iff {a b : Json} (ha : a.Proper) (hb : b.Proper) : sorted a = sorted b ↔ SameClear a b := by
  refine ⟨fun h path hp => ?_, sorted_eq_of_sameClear ha hb⟩
  rw [← shapeAt_sorted hp ha, h, shapeAt_sorted hp hb]

/-- **When a rebuilt value ascends**: when the indices of its objects do. -/
theorem ascending_sorted_iff (v : Json) : (sorted v).Ascending ↔ v.IndicesAscend := by
  induction v using ind with
  | null | bool | num | str => exact Iff.rfl
  | arr items ih =>
    rw [sorted, Ascending, IndicesAscend, ascendingItems_iff, indicesAscendItems_iff, sortedItems_eq,
      List.forall_mem_map]
    exact forall₂_congr ih
  | obj ms ih =>
    rw [sorted, Ascending, IndicesAscend, sorted_rebuilt_iff, names_sortedMembers, ascendingMembers_iff,
      indicesAscendMembers_iff]
    refine and_congr_right fun _ => ⟨fun h m hm hk => ?_, fun h m hm => ?_⟩
    · refine (ih m hm).1 (h (m.1, sorted m.2) (mem_rebuilt.2 ⟨?_, hk⟩))
      rw [sortedMembers_eq]
      exact List.mem_map_of_mem (f := fun m : String × Json => (m.1, sorted m.2)) hm
    · obtain ⟨hm, hk⟩ := mem_rebuilt.1 hm
      rw [sortedMembers_eq] at hm
      obtain ⟨m', hm', rfl⟩ := List.mem_map.1 hm
      exact (ih m' hm').2 (h m' hm' hk)

end Json

end NpsSdk.Lib
