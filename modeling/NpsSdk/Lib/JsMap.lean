import Mathlib.Data.Int.Notation
import Mathlib.Data.List.Nodup
import Mathlib.Data.List.Perm.Subperm

/-!
# Insertion-ordered maps

A `Map` of the host language: a finite association of keys to values that remembers the order in
which the keys were first set.  Setting a key that is present keeps its place; deleting a key and
setting it again moves it to the end.

The structure carries the uniqueness of its keys, so a lookup has at most one answer by
construction, and the size of a map is compared with the size of its key set by counting.
-/

set_option linter.unusedSectionVars false

namespace NpsSdk.Lib

variable {κ α β : Type*} [DecidableEq κ]

/-- A map in insertion order, with at most one entry for each key. -/
structure JsMap (κ α : Type*) where
  entries : List (κ × α)
  nodup : (entries.map Prod.fst).Nodup

namespace JsMap

/-- The keys in insertion order. -/
def keys (m : JsMap κ α) : List κ := m.entries.map Prod.fst

/-- The values in insertion order. -/
def values (m : JsMap κ α) : List α := m.entries.map Prod.snd

/-- The number of entries. -/
def size (m : JsMap κ α) : ℕ := m.entries.length

def empty : JsMap κ α := ⟨[], List.nodup_nil⟩

/-! ### Entry lists -/

/-- The value of the first entry with key `k`. -/
def find (k : κ) : List (κ × α) → Option α
  | [] => none
  | e :: es => if e.1 = k then some e.2 else find k es

/-- Replaces the value of the entry with key `k`, or appends an entry for it. -/
def upsert (k : κ) (v : α) : List (κ × α) → List (κ × α)
  | [] => [(k, v)]
  | e :: es => if e.1 = k then (k, v) :: es else e :: upsert k v es

attribute [local simp] find upsert

theorem find_upsert (k k' : κ) (v : α) (es : List (κ × α)) :
    find k' (upsert k v es) = if k' = k then some v else find k' es := by
  induction es with
  | nil =>
    by_cases h : k' = k
    · simp [h]
    · simp [h, Ne.symm h]
  | cons e es ih =>
    by_cases he : e.1 = k
    · by_cases h : k' = k
      · simp [he, h]
      · simp [he, h, Ne.symm h]
    · by_cases h : k' = k
      · subst h
        simpa [he] using ih
      · simp only [upsert, he, if_false, find, h] at ih ⊢
        rw [ih]

theorem mem_keys_upsert (k k' : κ) (v : α) (es : List (κ × α)) :
    k' ∈ (upsert k v es).map Prod.fst ↔ k' = k ∨ k' ∈ es.map Prod.fst := by
  induction es with
  | nil => simp
  | cons e es ih =>
    by_cases he : e.1 = k
    · simp [he]
    · simp only [upsert, he, if_false, List.map_cons, List.mem_cons, ih]
      tauto

variable {es : List (κ × α)}

theorem nodup_upsert (k : κ) (v : α) (h : (es.map Prod.fst).Nodup) : ((upsert k v es).map Prod.fst).Nodup := by
  induction es with
  | nil => simp
  | cons e es ih =>
    obtain ⟨hn, ht⟩ := List.nodup_cons.1 h
    by_cases he : e.1 = k
    · subst he
      simpa using h
    · simp only [upsert, he, if_false, List.map_cons, List.nodup_cons]
      refine ⟨?_, ih ht⟩
      rw [mem_keys_upsert]
      rintro (h1 | h1)
      · exact he h1
      · exact hn h1

theorem upsert_upsert (k : κ) (v w : α) (es : List (κ × α)) : upsert k v (upsert k w es) = upsert k v es := by
  induction es with
  | nil => simp
  | cons e es ih =>
    by_cases he : e.1 = k
    · simp [he]
    · simp [he, ih]

variable {k : κ} {v : α}

theorem upsert_of_find (h : find k es = some v) : upsert k v es = es := by
  induction es with
  | nil => cases h
  | cons e es ih =>
    by_cases he : e.1 = k
    · subst he
      simp only [find, if_true, Option.some.injEq] at h
      simp [← h]
    · simp only [find, he, if_false] at h
      simp [he, ih h]

theorem keys_upsert_of_find {w : α} (h : find k es = some w) (v : α) :
    (upsert k v es).map Prod.fst = es.map Prod.fst := by
  induction es with
  | nil => cases h
  | cons e es ih =>
    by_cases he : e.1 = k
    · simp [he]
    · simp only [find, he, if_false] at h
      simp [he, ih h]

theorem mem_upsert {e : κ × α} (h : e ∈ upsert k v es) : e = (k, v) ∨ e ∈ es := by
  induction es with
  | nil => simpa using h
  | cons e' es ih =>
    unfold upsert at h
    split at h
    · rcases List.mem_cons.1 h with h | h
      · exact .inl h
      · exact .inr (List.mem_cons_of_mem _ h)
    · rcases List.mem_cons.1 h with h | h
      · exact .inr (by simp [h])
      · exact (ih h).imp_right (List.mem_cons_of_mem _)

theorem find_filter (p : κ → Bool) (k : κ) (es : List (κ × α)) :
    find k (es.filter fun e => p e.1) = if p k then find k es else none := by
  induction es with
  | nil => simp
  | cons e es ih =>
    by_cases hp : p e.1
    · by_cases he : e.1 = k
      · subst he
        simp [hp]
      · simp only [List.filter_cons, hp, if_true, find, he, if_false, ih]
    · by_cases he : e.1 = k
      · subst he
        simp [hp, ih]
      · simp only [List.filter_cons, hp, find, he, if_false]
        exact ih

theorem find_append_of_some {es es' : List (κ × α)} (h : find k es = some v) : find k (es ++ es') = some v := by
  induction es with
  | nil => cases h
  | cons e es ih =>
    simp only [List.cons_append, find] at h ⊢
    split at h
    · rename_i he
      rw [if_pos he, h]
    · rename_i he
      rw [if_neg he]
      exact ih h

theorem find_isSome (k : κ) (es : List (κ × α)) : (find k es).isSome ↔ k ∈ es.map Prod.fst := by
  induction es with
  | nil => simp
  | cons e es ih =>
    by_cases he : e.1 = k
    · simp [he]
    · simp only [find, he, if_false, ih, List.map_cons, List.mem_cons]
      simp [Ne.symm he]

theorem mem_of_find (h : find k es = some v) : (k, v) ∈ es := by
  induction es with
  | nil => simp at h
  | cons e es ih =>
    by_cases he : e.1 = k
    · simp only [find, he, if_true, Option.some.injEq] at h
      subst he h
      exact List.mem_cons_self
    · simp only [find, he, if_false] at h
      exact List.mem_cons_of_mem _ (ih h)

theorem find_of_mem (hn : (es.map Prod.fst).Nodup) (h : (k, v) ∈ es) : find k es = some v := by
  induction es with
  | nil => simp at h
  | cons e es ih =>
    obtain ⟨hne, hn'⟩ := List.nodup_cons.1 hn
    rcases List.mem_cons.1 h with rfl | h
    · simp
    · have : e.1 ≠ k := by
        rintro rfl
        exact hne (List.mem_map.2 ⟨_, h, rfl⟩)
      simp only [find, this, if_false]
      exact ih hn' h

/-! ### Operations -/

/-- The value stored for `k`. -/
def get (m : JsMap κ α) (k : κ) : Option α := find k m.entries

/-- Is there an entry for `k`? -/
def has (m : JsMap κ α) (k : κ) : Bool := (m.get k).isSome

/-- Stores `v` for `k`. -/
def set (m : JsMap κ α) (k : κ) (v : α) : JsMap κ α :=
  ⟨upsert k v m.entries, nodup_upsert k v m.nodup⟩

/-- Keeps the entries whose key satisfies `p`. -/
def filterKeys (m : JsMap κ α) (p : κ → Bool) : JsMap κ α :=
  ⟨m.entries.filter fun e => p e.1, by
    have h := m.nodup.filter p
    rwa [List.filter_map] at h⟩

/-- Keeps the entries that satisfy `p`. -/
def filter (m : JsMap κ α) (p : κ → α → Bool) : JsMap κ α :=
  ⟨m.entries.filter fun e => p e.1 e.2, m.nodup.sublist (List.filter_sublist.map Prod.fst)⟩

/-- Removes the entry for `k`. -/
def delete (m : JsMap κ α) (k : κ) : JsMap κ α := m.filterKeys (fun k' => decide (k' ≠ k))

/-- Changes each value. -/
def mapValues (m : JsMap κ α) (f : α → β) : JsMap κ β :=
  ⟨m.entries.map fun e => (e.1, f e.2), by
    have h : ((m.entries.map fun e => (e.1, f e.2)).map Prod.fst) = m.entries.map Prod.fst := by
      rw [List.map_map]
      rfl
    rw [h]
    exact m.nodup⟩

/-- `record[k] = v` on a plain object: the key `__proto__` names the prototype and makes no member. -/
def assign {α : Type*} (m : JsMap String α) (k : String) (v : α) : JsMap String α :=
  if k = "__proto__" then m else m.set k v

def ofList (es : List (κ × α)) : JsMap κ α := es.foldl (fun m e => m.set e.1 e.2) empty

@[simp] theorem get_empty (k : κ) : (empty : JsMap κ α).get k = none := rfl
@[simp] theorem keys_empty : (empty : JsMap κ α).keys = [] := rfl
theorem get_set (m : JsMap κ α) (k k' : κ) (v : α) :
    (m.set k v).get k' = if k' = k then some v else m.get k' := find_upsert k k' v m.entries

@[simp] theorem get_set_self (m : JsMap κ α) (k : κ) (v : α) : (m.set k v).get k = some v := by
  simp [get_set]

theorem get_set_ne (m : JsMap κ α) {k k' : κ} (v : α) (h : k' ≠ k) :
    (m.set k v).get k' = m.get k' := by simp [get_set, h]

theorem get_filterKeys (m : JsMap κ α) (p : κ → Bool) (k : κ) :
    (m.filterKeys p).get k = if p k then m.get k else none := find_filter p k m.entries

theorem get_mapValues (m : JsMap κ α) (f : α → β) (k : κ) : (m.mapValues f).get k = (m.get k).map f := by
  have h : ∀ es : List (κ × α), find k (es.map fun e => (e.1, f e.2)) = (find k es).map f := by
    intro es
    induction es with
    | nil => rfl
    | cons e es ih =>
      by_cases he : e.1 = k
      · simp [he]
      · simpa [he] using ih
  exact h m.entries

theorem get_delete (m : JsMap κ α) (k k' : κ) :
    (m.delete k).get k' = if k' = k then none else m.get k' := by
  by_cases h : k' = k <;> simp [delete, get_filterKeys, h]

@[simp] theorem get_delete_self (m : JsMap κ α) (k : κ) : (m.delete k).get k = none := by
  simp [get_delete]

@[simp] theorem mem_keys_set (m : JsMap κ α) (k k' : κ) (v : α) :
    k' ∈ (m.set k v).keys ↔ k' = k ∨ k' ∈ m.keys := mem_keys_upsert k k' v m.entries

theorem mem_keys_filterKeys (m : JsMap κ α) (p : κ → Bool) (k : κ) : k ∈ (m.filterKeys p).keys ↔ k ∈ m.keys ∧ p k := by
  simp only [keys, filterKeys, List.mem_map, List.mem_filter]
  constructor
  · rintro ⟨e, ⟨he, hp⟩, rfl⟩
    exact ⟨⟨e, he, rfl⟩, hp⟩
  · rintro ⟨⟨e, he, rfl⟩, hp⟩
    exact ⟨e, ⟨he, hp⟩, rfl⟩

@[simp] theorem mem_keys_delete (m : JsMap κ α) (k k' : κ) :
    k' ∈ (m.delete k).keys ↔ k' ∈ m.keys ∧ k' ≠ k := by simp [delete, mem_keys_filterKeys]

theorem get_isSome_iff (m : JsMap κ α) (k : κ) : (m.get k).isSome ↔ k ∈ m.keys :=
  find_isSome k m.entries

theorem get_eq_none_iff (m : JsMap κ α) (k : κ) : m.get k = none ↔ k ∉ m.keys := by
  rw [← get_isSome_iff, Option.not_isSome_iff_eq_none]

variable {m : JsMap κ α}

theorem mem_keys_of_get (h : m.get k = some v) : k ∈ m.keys :=
  (get_isSome_iff m k).1 (by simp [h])

theorem get_of_mem_keys (h : k ∈ m.keys) : ∃ v, m.get k = some v :=
  Option.isSome_iff_exists.1 ((get_isSome_iff m k).2 h)

theorem mem_entries_iff (m : JsMap κ α) (k : κ) (v : α) : (k, v) ∈ m.entries ↔ m.get k = some v :=
  ⟨find_of_mem m.nodup, mem_of_find⟩

theorem get_filter (m : JsMap κ α) (p : κ → α → Bool) (k : κ) : (m.filter p).get k = (m.get k).filter (p k) := by
  cases hm : m.get k with
  | none =>
    rw [Option.filter_none, get_eq_none_iff]
    intro hk
    obtain ⟨v, hv⟩ := get_of_mem_keys hk
    have hmem := List.mem_of_mem_filter ((mem_entries_iff (m.filter p) k v).2 hv)
    rw [(mem_entries_iff m k v).1 hmem] at hm
    cases hm
  | some v =>
    have hmem := (mem_entries_iff m k v).2 hm
    cases hp : p k v with
    | true =>
      rw [Option.filter_some_pos hp, ← mem_entries_iff]
      exact List.mem_filter.2 ⟨hmem, hp⟩
    | false =>
      rw [Option.filter_some_neg (by simp [hp]), get_eq_none_iff]
      intro hk
      obtain ⟨w, hw⟩ := get_of_mem_keys hk
      obtain ⟨hw, hpw⟩ := List.mem_filter.1 ((mem_entries_iff (m.filter p) k w).2 hw)
      rw [(mem_entries_iff m k w).1 hw, Option.some.injEq] at hm
      rw [hm, hp] at hpw
      cases hpw

theorem size_filter_le (m : JsMap κ α) (p : κ → α → Bool) : (m.filter p).size ≤ m.size :=
  List.length_filter_le _ _

theorem get_assign {α : Type*} (m : JsMap String α) (k k' : String) (v : α) :
    (m.assign k v).get k' = if k' = k ∧ k ≠ "__proto__" then some v else m.get k' := by
  unfold assign
  split_ifs with h1 h2 h2
  · exact absurd h1 h2.2
  · rfl
  · rw [h2.1, get_set_self]
  · exact get_set_ne m v fun h => h2 ⟨h, h1⟩

theorem keys_nodup (m : JsMap κ α) : m.keys.Nodup := m.nodup

theorem length_keys (m : JsMap κ α) : m.keys.length = m.size := List.length_map _

/-- **Counting.**  A map whose keys lie in `l` and that is as large as `l` has every member of `l`
as a key. -/
theorem mem_keys_of_size {l : List κ} (hsub : ∀ k ∈ m.keys, k ∈ l)
    (hsize : l.length ≤ m.size) (hk : k ∈ l) : k ∈ m.keys := by
  have hp : m.keys.Subperm l := List.subperm_of_subset m.keys_nodup hsub
  have : m.keys.Perm l := hp.perm_of_length_le (by rw [length_keys]; exact hsize)
  exact this.mem_iff.2 hk

/-- A map whose keys are exactly the members of the duplicate-free `l` has its size. -/
theorem size_of_keys {l : List κ} (hl : l.Nodup) (h : ∀ k, k ∈ m.keys ↔ k ∈ l) : m.size = l.length := by
  rw [← length_keys]
  exact ((List.perm_ext_iff_of_nodup m.keys_nodup hl).2 h).length_eq

theorem length_filter_values (m : JsMap κ α) (p : α → Bool) :
    (m.values.filter p).length = (m.filter fun _ v => p v).size := by
  rw [values, List.filter_map, List.length_map]
  rfl

theorem mem_keys_filter (m : JsMap κ α) (p : κ → α → Bool) (k : κ) : k ∈ (m.filter p).keys ↔ (m.get k).any (p k) := by
  rw [← get_isSome_iff, get_filter]
  cases m.get k <;> simp

theorem length_filter_values_congr {m' : JsMap κ β} {p : α → Bool} {q : β → Bool}
    (h : ∀ k, (m.get k).any p = (m'.get k).any q) : (m.values.filter p).length = (m'.values.filter q).length := by
  rw [length_filter_values, length_filter_values, ← length_keys (m'.filter _)]
  apply size_of_keys (keys_nodup _)
  intro k
  rw [mem_keys_filter, mem_keys_filter, h]

theorem length_filter_values_le {m' : JsMap κ β} {p : α → Bool} {q : β → Bool}
    (h : ∀ k v, m.get k = some v → p v = true → ∃ w, m'.get k = some w ∧ q w = true) :
    (m.values.filter p).length ≤ (m'.values.filter q).length := by
  rw [length_filter_values, length_filter_values, ← length_keys, ← length_keys]
  refine (List.subperm_of_subset (keys_nodup _) fun k hk => ?_).length_le
  rw [mem_keys_filter, Option.any_eq_true] at hk ⊢
  obtain ⟨v, hv, hp⟩ := hk
  exact h k v hv hp

theorem length_filter_values_set_le (m : JsMap κ α) (k : κ) (v : α) (p : α → Bool) :
    ((m.set k v).values.filter p).length ≤ (m.values.filter p).length + 1 := by
  rw [length_filter_values, length_filter_values, ← length_keys, ← length_keys]
  have hsub : ((m.set k v).filter fun _ v => p v).keys.Subperm (k :: (m.filter fun _ v => p v).keys) := by
    refine List.subperm_of_subset (keys_nodup _) fun k' hk' => ?_
    rw [mem_keys_filter, get_set] at hk'
    split at hk'
    · rw [‹k' = k›]
      exact List.mem_cons_self
    · exact List.mem_cons_of_mem _ ((mem_keys_filter m _ k').2 hk')
  exact hsub.length_le

theorem length_filter_values_delete_lt {p : α → Bool} (h : m.get k = some v)
    (hp : p v = true) : ((m.delete k).values.filter p).length < (m.values.filter p).length := by
  rw [length_filter_values, length_filter_values, ← length_keys, ← length_keys]
  have hnot : k ∉ ((m.delete k).filter fun _ v => p v).keys := by
    rw [mem_keys_filter, get_delete_self]
    simp
  have hsub : (k :: ((m.delete k).filter fun _ v => p v).keys).Subperm (m.filter fun _ v => p v).keys := by
    refine List.subperm_of_subset (List.nodup_cons.2 ⟨hnot, keys_nodup _⟩) fun k' hk' => ?_
    rw [mem_keys_filter]
    rcases List.mem_cons.1 hk' with rfl | hk'
    · rw [h]
      exact hp
    · rw [mem_keys_filter, get_delete] at hk'
      split at hk'
      · simp at hk'
      · exact hk'
  exact hsub.length_le

theorem size_eq_zero_iff (m : JsMap κ α) : m.size = 0 ↔ ∀ k, m.get k = none := by
  rw [← length_keys, List.length_eq_zero_iff, List.eq_nil_iff_forall_not_mem]
  exact forall_congr' fun k => (get_eq_none_iff m k).symm

theorem size_set_ne_zero (m : JsMap κ α) (k : κ) (v : α) : (m.set k v).size ≠ 0 := fun h => by
  simpa using (size_eq_zero_iff _).1 h k

theorem length_upsert_le (k : κ) (v : α) (es : List (κ × α)) : (upsert k v es).length ≤ es.length + 1 := by
  induction es with
  | nil => exact Nat.le_refl _
  | cons e es ih =>
    unfold upsert
    split_ifs
    · exact Nat.le_succ _
    · exact Nat.succ_le_succ ih

theorem size_set_le (m : JsMap κ α) (k : κ) (v : α) : (m.set k v).size ≤ m.size + 1 :=
  length_upsert_le k v m.entries

theorem upsert_of_not_mem (h : k ∉ es.map Prod.fst) : upsert k v es = es ++ [(k, v)] := by
  induction es with
  | nil => rfl
  | cons e es ih =>
    simp only [List.map_cons, List.mem_cons, not_or] at h
    simp [Ne.symm h.1, ih h.2]

theorem foldl_set_entries (es : List (κ × α)) (m : JsMap κ α)
    (hn : (es.map Prod.fst).Nodup) (hd : ∀ k ∈ es.map Prod.fst, k ∉ m.keys) :
    (es.foldl (fun m e => m.set e.1 e.2) m).entries = m.entries ++ es := by
  induction es generalizing m with
  | nil => simp
  | cons e es ih =>
    obtain ⟨he, hn'⟩ := List.nodup_cons.1 hn
    have hs : (m.set e.1 e.2).entries = m.entries ++ [e] :=
      upsert_of_not_mem (hd e.1 (by simp))
    rw [List.foldl_cons, ih _ hn', hs]
    · simp
    · intro k hk
      rw [mem_keys_set]
      rintro (rfl | h)
      · exact he hk
      · exact hd k (List.mem_cons_of_mem _ hk) h

theorem ofList_entries (hn : (es.map Prod.fst).Nodup) : (ofList es).entries = es := by
  simpa [ofList, empty] using foldl_set_entries es empty hn (by simp)

end JsMap

end NpsSdk.Lib
