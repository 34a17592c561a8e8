import Mathlib.Data.List.Sort

/-!
# Rows in descending order

`ORDER BY key DESC` gives the rows in some order in which the keys descend; rows with the same key come in
any order.
-/

namespace NpsSdk.Lib

variable {Row K : Type} [LinearOrder K]

structure OrdersDesc (key : Row → K) (orderBy : List Row → List Row) : Prop where
  perm : ∀ rows, (orderBy rows).Perm rows
  descending : ∀ rows, (orderBy rows).Pairwise fun a b => key b ≤ key a

variable {key : Row → K} {orderBy : List Row → List Row} {rows : List Row} {x y : Row}

theorem OrdersDesc.le_head (h : OrdersDesc key orderBy) (hx : (orderBy rows).head? = some x) (hy : y ∈ rows) :
    key y ≤ key x := by
  obtain ⟨rest, hrest⟩ := List.head?_eq_some_iff.1 hx
  have hdesc := h.descending rows
  rw [hrest] at hdesc
  have hmem : y ∈ orderBy rows := (h.perm rows).mem_iff.2 hy
  rw [hrest] at hmem
  rcases List.mem_cons.1 hmem with rfl | hmem
  · exact le_rfl
  · exact (List.pairwise_cons.1 hdesc).1 y hmem

theorem OrdersDesc.head_mem (h : OrdersDesc key orderBy) (hx : (orderBy rows).head? = some x) : x ∈ rows :=
  (h.perm rows).mem_iff.1 (List.mem_of_mem_head? hx)

/-- **Where the keys rise, the last row comes first.** -/
theorem OrdersDesc.head?_of_rising (h : OrdersDesc key orderBy)
    (hrising : rows.Pairwise fun a b => key a < key b) : (orderBy rows).head? = rows.getLast? := by
  rcases List.eq_nil_or_concat rows with rfl | ⟨init, z, rfl⟩
  · have hnil : orderBy [] = [] := List.perm_nil.1 (h.perm [])
    rw [hnil]
    rfl
  · rw [List.concat_eq_append] at hrising ⊢
    rw [List.getLast?_concat]
    cases hhead : (orderBy (init ++ [z])).head? with
    | none =>
      have hlen := (h.perm (init ++ [z])).length_eq
      rw [List.head?_eq_none_iff.1 hhead] at hlen
      simp at hlen
    | some x =>
      have hle : key z ≤ key x := h.le_head hhead (by simp)
      rcases List.mem_append.1 (h.head_mem hhead) with hx | hx
      · -- a row before the last one has a smaller key
        obtain ⟨-, -, hacross⟩ := List.pairwise_append.1 hrising
        exact absurd (hacross x hx z (List.mem_singleton_self z)) (not_lt.2 hle)
      · rw [List.mem_singleton.1 hx]

/-! ### An order that puts certain rows after the others with their key -/

section Ties

variable (key) (late : Row → Bool)

/-- Does the row come before the other, or beside it? -/
def beforeLate (a b : Row) : Bool := decide (key b < key a) || (decide (key a = key b) && (!late a || late b))

/-- The keys descend, and of the rows with the same key those that are late come last. -/
def orderLate (rows : List Row) : List Row := rows.mergeSort (beforeLate key late)

theorem beforeLate_trans (a b c : Row) (hab : beforeLate key late a b = true)
    (hbc : beforeLate key late b c = true) : beforeLate key late a c = true := by
  simp only [beforeLate, Bool.or_eq_true, Bool.and_eq_true, decide_eq_true_eq, Bool.not_eq_true'] at *
  rcases hab with hab | ⟨hab, hla⟩
  · rcases hbc with hbc | ⟨hbc, -⟩
    · exact .inl (hbc.trans hab)
    · exact .inl (hbc ▸ hab)
  · rcases hbc with hbc | ⟨hbc, hlb⟩
    · exact .inl (hab ▸ hbc)
    · refine .inr ⟨hab.trans hbc, ?_⟩
      rcases hla with hla | hla
      · exact .inl hla
      · rcases hlb with hlb | hlb
        · rw [hla] at hlb
          cases hlb
        · exact .inr hlb

theorem beforeLate_total (a b : Row) : (beforeLate key late a b || beforeLate key late b a) = true := by
  simp only [beforeLate, Bool.or_eq_true, Bool.and_eq_true, decide_eq_true_eq, Bool.not_eq_true']
  rcases lt_trichotomy (key a) (key b) with hlt | heq | hgt
  · exact .inr (.inl hlt)
  · cases hb : late b with
    | true => exact .inl (.inr ⟨heq, .inr rfl⟩)
    | false => exact .inr (.inr ⟨heq.symm, .inl rfl⟩)
  · exact .inl (.inl hgt)

theorem ordersDesc_orderLate : OrdersDesc key (orderLate key late) := by
  refine ⟨fun rows => List.mergeSort_perm rows _, fun rows => ?_⟩
  have hsorted : (orderLate key late rows).Pairwise fun a b => beforeLate key late a b = true :=
    List.pairwise_mergeSort (beforeLate_trans key late) (beforeLate_total key late) rows
  refine hsorted.imp fun {a b} hab => ?_
  simp only [beforeLate, Bool.or_eq_true, Bool.and_eq_true, decide_eq_true_eq] at hab
  rcases hab with hab | ⟨hab, -⟩
  · exact hab.le
  · exact hab.ge

theorem head_orderLate (hx : (orderLate key late rows).head? = some x) (hlate : late x = true) (hy : y ∈ rows)
    (hnot : late y = false) : key y < key x := by
  have hsorted : (orderLate key late rows).Pairwise fun a b => beforeLate key late a b = true :=
    List.pairwise_mergeSort (beforeLate_trans key late) (beforeLate_total key late) rows
  obtain ⟨rest, hrest⟩ := List.head?_eq_some_iff.1 hx
  rw [hrest] at hsorted
  have hmem : y ∈ orderLate key late rows := ((ordersDesc_orderLate key late).perm rows).mem_iff.2 hy
  rw [hrest] at hmem
  rcases List.mem_cons.1 hmem with rfl | hmem
  · rw [hlate] at hnot
    cases hnot
  · have hxy := (List.pairwise_cons.1 hsorted).1 y hmem
    simpa [beforeLate, hlate, hnot] using hxy

end Ties

/-! ### Rows that stand for values -/

theorem exists_perm_map {α : Type} {rowOf : α → Row} {l : List α} (h : rows.Perm (l.map rowOf)) :
    ∃ l' : List α, l'.Perm l ∧ rows = l'.map rowOf := by
  induction l generalizing rows with
  | nil => exact ⟨[], .nil, List.perm_nil.1 h⟩
  | cons a l ih =>
    have hmem : rowOf a ∈ rows := h.mem_iff.2 (by simp)
    obtain ⟨pre, post, rfl⟩ := List.append_of_mem hmem
    have hrest : (pre ++ post).Perm (l.map rowOf) := (List.perm_middle.symm.trans h).cons_inv
    obtain ⟨l', hl', heq⟩ := ih hrest
    obtain ⟨l₁, l₂, rfl, rfl, rfl⟩ := List.map_eq_append_iff.1 heq.symm
    exact ⟨l₁ ++ a :: l₂, List.perm_middle.trans (hl'.cons a), by simp⟩

end NpsSdk.Lib
