import Mathlib.Algebra.GroupWithZero.Nat
import Mathlib.Algebra.Order.Ring.Rat
import Mathlib.Data.List.Flatten

/-!
# Rows page by page

A query that is asked page by page may be answered in a new order each time, as long as each order agrees with a
comparison under which rows may tie.  The pages together hold every row once if at every border between two
pages the tied rows are alike (`Steady`), and only then.
-/

namespace NpsSdk.Lib

variable {α β : Type} (cmp : α → α → Ordering)

/-- Rows in an order that agrees with the comparison. -/
structure Arranges (ms xs : List α) : Prop where
  perm : xs.Perm ms
  sorted : xs.Pairwise fun a b => (cmp a b).isLE

/-- The rows before those that tie with `p`. -/
def below (p : α) (ms : List α) : List α := ms.filter fun z => cmp z p == .lt

def tied (p : α) (ms : List α) : List α := ms.filter fun z => cmp z p == .eq

def above (p : α) (ms : List α) : List α := ms.filter fun z => cmp z p == .gt

/-- Rows that tie across the border after `n` rows look alike. -/
def Steady (f : α → β) (ms : List α) (n : ℕ) : Prop :=
  ∀ x ∈ ms, ∀ y ∈ ms, cmp x y = .eq → (below cmp x ms).length < n →
    n < (below cmp x ms).length + (tied cmp x ms).length → f x = f y

/-- The rows of the first `m` pages of `size` rows, where page `k` is cut out of the `k`-th order. -/
def pages (arr : ℕ → List α) (size m : ℕ) : List α :=
  (List.range m).flatMap fun k => ((arr k).drop (k * size)).take size

variable {cmp} {ms xs ys : List α} {p : α} {f : α → β} {n : ℕ}

theorem Arranges.below_perm (h : Arranges cmp ms xs) (p : α) : (below cmp p xs).Perm (below cmp p ms) :=
  h.perm.filter _

theorem Arranges.tied_perm (h : Arranges cmp ms xs) (p : α) : (tied cmp p xs).Perm (tied cmp p ms) :=
  h.perm.filter _

section Trans

variable [Std.TransCmp cmp]

/-- Any order agrees with the comparison below, at and above a row. -/
theorem split_of_sorted (h : xs.Pairwise fun a b => (cmp a b).isLE) (p : α) :
    xs = below cmp p xs ++ (tied cmp p xs ++ above cmp p xs) := by
  induction xs with
  | nil => rfl
  | cons a xs ih =>
    obtain ⟨ha, hxs⟩ := List.pairwise_cons.1 h
    have hrest := ih hxs
    cases hap : cmp a p with
    | lt =>
      have hb : below cmp p (a :: xs) = a :: below cmp p xs := by simp [below, hap]
      have ht : tied cmp p (a :: xs) = tied cmp p xs := by simp [tied, hap]
      have hc : above cmp p (a :: xs) = above cmp p xs := by simp [above, hap]
      rw [hb, ht, hc, List.cons_append, ← hrest]
    | eq =>
      have hnone : below cmp p xs = [] := by
        refine List.filter_eq_nil_iff.2 fun z hz hlt => ?_
        have hle := ha z hz
        rw [Std.TransCmp.congr_left hap, @Std.OrientedCmp.eq_swap _ cmp] at hle
        rw [beq_iff_eq] at hlt
        rw [hlt] at hle
        exact absurd hle (by decide)
      have hb : below cmp p (a :: xs) = [] := by simp [below, hap] at hnone ⊢; exact hnone
      have ht : tied cmp p (a :: xs) = a :: tied cmp p xs := by simp [tied, hap]
      have hc : above cmp p (a :: xs) = above cmp p xs := by simp [above, hap]
      rw [hnone, List.nil_append] at hrest
      rw [hb, ht, hc, List.nil_append, List.cons_append, ← hrest]
    | gt =>
      have hall : ∀ z ∈ xs, cmp z p = .gt := by
        intro z hz
        have hpa : cmp p a = .lt := Std.OrientedCmp.lt_of_gt hap
        exact Std.OrientedCmp.gt_of_lt (Std.TransCmp.lt_of_lt_of_isLE hpa (ha z hz))
      have hb : below cmp p (a :: xs) = [] :=
        List.filter_eq_nil_iff.2 fun z hz => by
          rcases List.mem_cons.1 hz with rfl | hz
          · rw [hap]; decide
          · rw [hall z hz]; decide
      have ht : tied cmp p (a :: xs) = [] :=
        List.filter_eq_nil_iff.2 fun z hz => by
          rcases List.mem_cons.1 hz with rfl | hz
          · rw [hap]; decide
          · rw [hall z hz]; decide
      have hc : above cmp p (a :: xs) = a :: xs :=
        List.filter_eq_self.2 fun z hz => by
          rcases List.mem_cons.1 hz with rfl | hz
          · rw [hap]; rfl
          · rw [hall z hz]; rfl
      rw [hb, ht, hc]
      rfl

/-- The first rows of an order, cut among the rows that tie with `p`. -/
theorem Arranges.take_eq (h : Arranges cmp ms xs) (hlo : (below cmp p ms).length ≤ n)
    (hhi : n ≤ (below cmp p ms).length + (tied cmp p ms).length) :
    xs.take n = below cmp p xs ++ (tied cmp p xs).take (n - (below cmp p ms).length) := by
  have hb := (h.below_perm p).length_eq
  have ht := (h.tied_perm p).length_eq
  conv_lhs => rw [split_of_sorted h.sorted p]
  rw [List.take_append, List.take_append, List.take_of_length_le (by omega)]
  have hzero : n - (below cmp p xs).length - (tied cmp p xs).length = 0 := by omega
  rw [hzero, List.take_zero, List.append_nil, hb]

theorem Arranges.border (h : Arranges cmp ms xs) (hn : n < xs.length) :
    (below cmp xs[n] ms).length ≤ n ∧ n < (below cmp xs[n] ms).length + (tied cmp xs[n] ms).length := by
  have hb := (h.below_perm xs[n]).length_eq
  have ht := (h.tied_perm xs[n]).length_eq
  have hsplit := split_of_sorted h.sorted xs[n]
  have hself : cmp xs[n] xs[n] = .eq := Std.ReflCmp.compare_self
  have hget : xs[n]? = some xs[n] := List.getElem?_eq_getElem hn
  generalize xs[n] = p at *
  rw [hsplit] at hget
  refine ⟨?_, ?_⟩
  · by_contra hlt
    rw [List.getElem?_append_left (by omega)] at hget
    have hmem := List.mem_of_getElem? hget
    simp [below, hself] at hmem
  · by_contra hge
    rw [List.getElem?_append_right (by omega), List.getElem?_append_right (by omega)] at hget
    have hmem := List.mem_of_getElem? hget
    simp [above, hself] at hmem

theorem Steady.take_perm (h : Steady cmp f ms n) (hx : Arranges cmp ms xs) (hy : Arranges cmp ms ys) :
    ((xs.take n).map f).Perm ((ys.take n).map f) := by
  have hlx := hx.perm.length_eq
  have hly := hy.perm.length_eq
  by_cases hn : n < xs.length
  · obtain ⟨hlo, hhi⟩ := hx.border hn
    have hp : xs[n] ∈ ms := hx.perm.mem_iff.1 (List.getElem_mem hn)
    generalize xs[n] = p at hlo hhi hp
    rw [hx.take_eq hlo (Nat.le_of_lt hhi), hy.take_eq hlo (Nat.le_of_lt hhi), List.map_append, List.map_append]
    have hbelow : ((below cmp p xs).map f).Perm ((below cmp p ys).map f) :=
      ((hx.below_perm p).trans (hy.below_perm p).symm).map f
    refine hbelow.append (List.Perm.of_eq ?_)
    rcases Nat.eq_or_lt_of_le hlo with heq | hlt
    · rw [heq, Nat.sub_self, List.take_zero, List.take_zero]
    · -- every row that ties with `p` looks like it
      have halike : ∀ zs : List α, Arranges cmp ms zs →
          ((tied cmp p zs).take (n - (below cmp p ms).length)).map f =
            List.replicate (n - (below cmp p ms).length) (f p) := by
        intro zs hz
        have hlen := (hz.tied_perm p).length_eq
        refine List.eq_replicate_iff.2 ⟨by rw [List.length_map, List.length_take]; omega, ?_⟩
        intro b hb
        obtain ⟨z, hzmem, rfl⟩ := List.mem_map.1 hb
        obtain ⟨hz', heq⟩ := List.mem_filter.1 (List.mem_of_mem_take hzmem)
        exact (h p hp z (hz.perm.mem_iff.1 hz') (Std.OrientedCmp.eq_symm (beq_iff_eq.1 heq)) hlt hhi).symm
      rw [halike xs hx, halike ys hy]
  · rw [List.take_of_length_le (by omega), List.take_of_length_le (by omega)]
    exact (hx.perm.trans hy.perm.symm).map f

theorem arranges_of_parts {p : α} {as bs cs : List α} (ha : as.Perm (below cmp p ms)) (hb : bs.Perm (tied cmp p ms))
    (hc : cs.Perm (above cmp p ms)) (hsa : as.Pairwise fun a b => (cmp a b).isLE)
    (hsc : cs.Pairwise fun a b => (cmp a b).isLE) : Arranges cmp ms (as ++ (bs ++ cs)) := by
  have hlt : ∀ a ∈ as, cmp a p = .lt := fun a h => beq_iff_eq.1 (List.mem_filter.1 (ha.mem_iff.1 h)).2
  have heq : ∀ b ∈ bs, cmp b p = .eq := fun b h => beq_iff_eq.1 (List.mem_filter.1 (hb.mem_iff.1 h)).2
  have hgt : ∀ c ∈ cs, cmp p c = .lt := fun c h =>
    Std.OrientedCmp.lt_of_gt (beq_iff_eq.1 (List.mem_filter.1 (hc.mem_iff.1 h)).2)
  refine ⟨?_, ?_⟩
  · refine (ha.append (hb.append hc)).trans ?_
    have hrest : (tied cmp p ms ++ above cmp p ms).Perm (ms.filter fun z => !(cmp z p == .lt)) := by
      refine List.Perm.trans ?_ (List.filter_append_perm (fun z => cmp z p == .eq) _)
      rw [List.filter_filter, List.filter_filter]
      refine List.Perm.of_eq (congrArg₂ _ ?_ ?_)
      · exact List.filter_congr fun z _ => by cases cmp z p <;> rfl
      · exact List.filter_congr fun z _ => by cases cmp z p <;> rfl
    exact (List.Perm.append_left _ hrest).trans (List.filter_append_perm (fun z => cmp z p == .lt) ms)
  · refine List.pairwise_append.2 ⟨hsa, List.pairwise_append.2 ⟨?_, hsc, ?_⟩, ?_⟩
    · refine List.pairwise_of_forall_mem_list fun b hb b' hb' => ?_
      rw [Std.TransCmp.congr_left (heq b hb), Std.OrientedCmp.eq_symm (heq b' hb')]
      rfl
    · intro b hb c hc
      rw [Std.TransCmp.congr_left (heq b hb), hgt c hc]
      rfl
    · intro a ha z hz
      rcases List.mem_append.1 hz with hz | hz
      · rw [Std.TransCmp.congr_right (heq z hz), hlt a ha]
        rfl
      · rw [Std.TransCmp.lt_trans (hlt a ha) (hgt z hz)]
        rfl

omit [Std.TransCmp cmp] in
theorem steady_zero : Steady cmp f ms 0 := fun _ _ _ _ _ hlt => absurd hlt (Nat.not_lt_zero _)

theorem exists_sorted (ms : List α) : ∃ xs, Arranges cmp ms xs :=
  ⟨ms.mergeSort fun a b => (cmp a b).isLE, List.mergeSort_perm _ _,
    List.pairwise_mergeSort (fun _ _ _ => Std.TransCmp.isLE_trans) (fun a b => by
      rw [@Std.OrientedCmp.eq_swap _ cmp _ b]
      cases cmp a b <;> rfl) ms⟩

/-- Where a border is not steady, two orders have different rows before it. -/
theorem exists_of_not_steady (h : ¬ Steady cmp f ms n) : ∃ xs ys, Arranges cmp ms xs ∧ Arranges cmp ms ys ∧
    n < ms.length ∧ ¬ ((xs.take n).map f).Perm ((ys.take n).map f) := by
  unfold Steady at h
  push Not at h
  obtain ⟨x, hx, y, hy, hxy, hlo, hhi, hne⟩ := h
  obtain ⟨as, ha, hsa⟩ : ∃ as, Arranges cmp (below cmp x ms) as := exists_sorted _
  obtain ⟨cs, hc, hsc⟩ : ∃ cs, Arranges cmp (above cmp x ms) cs := exists_sorted _
  obtain ⟨s, t, hst⟩ := List.append_of_mem (List.mem_filter.2 ⟨hx, beq_iff_eq.2 Std.ReflCmp.compare_self⟩ :
    x ∈ tied cmp x ms)
  have hperm : (x :: (s ++ t)).Perm (tied cmp x ms) := by
    rw [tied, hst]
    exact List.perm_middle.symm
  have hyst : y ∈ s ++ t := by
    have hmem : y ∈ tied cmp x ms := List.mem_filter.2 ⟨hy, beq_iff_eq.2 (Std.OrientedCmp.eq_symm hxy)⟩
    rcases List.mem_cons.1 (hperm.mem_iff.2 hmem) with rfl | hmem
    · exact absurd rfl hne
    · exact hmem
  obtain ⟨s', t', hst'⟩ := List.append_of_mem hyst
  have hrest : (x :: y :: (s' ++ t')).Perm (tied cmp x ms) := by
    refine List.Perm.trans (List.Perm.cons x ?_) hperm
    rw [hst']
    exact List.perm_middle.symm
  generalize s' ++ t' = rest at hrest
  have hlen := hrest.length_eq
  have hla := ha.length_eq
  simp only [List.length_cons] at hlen
  -- the border cuts between `x` and `y`, which stand beside each other in either way
  obtain ⟨k, hk⟩ : ∃ k, n = (below cmp x ms).length + (k + 1) := ⟨n - (below cmp x ms).length - 1, by omega⟩
  have hkr : k ≤ rest.length := by omega
  have hmiddle : ∀ u v, (x :: y :: rest).Perm (u :: v :: rest) →
      (rest.take k ++ u :: v :: rest.drop k).Perm (tied cmp x ms) := by
    intro u v huv
    refine List.Perm.trans ?_ (huv.symm.trans hrest)
    refine List.perm_middle.trans (List.Perm.cons u (List.perm_middle.trans (List.Perm.cons v ?_)))
    rw [List.take_append_drop]
  have htake : ∀ u v zs, (as ++ ((rest.take k ++ u :: v :: rest.drop k) ++ zs)).take n =
      as ++ (rest.take k ++ [u]) := by
    intro u v zs
    have hsize : n = (as ++ (rest.take k ++ [u])).length := by simp [hkr]; omega
    rw [hsize, show as ++ ((rest.take k ++ u :: v :: rest.drop k) ++ zs) =
      (as ++ (rest.take k ++ [u])) ++ (v :: rest.drop k ++ zs) by simp, List.take_left]
  refine ⟨_, _, arranges_of_parts ha (hmiddle x y (List.Perm.refl _)) hc hsa hsc,
    arranges_of_parts ha (hmiddle y x (List.Perm.swap y x rest)) hc hsa hsc, ?_, ?_⟩
  · have hall := (List.filter_append_perm (fun z => cmp z x == .lt) ms).length_eq
    have htied : (tied cmp x ms).length ≤ (ms.filter fun z => !(cmp z x == .lt)).length := by
      rw [tied, ← List.countP_eq_length_filter, ← List.countP_eq_length_filter]
      refine List.countP_mono_left fun z _ hz => ?_
      rw [beq_iff_eq] at hz
      rw [hz]
      rfl
    rw [List.length_append] at hall
    have : (below cmp x ms).length = (ms.filter fun z => cmp z x == .lt).length := rfl
    omega
  · rw [htake, htake]
    intro hcontra
    simp only [List.map_append, List.map_cons, List.map_nil] at hcontra
    have := (List.perm_append_left_iff _).1 ((List.perm_append_left_iff _).1 hcontra)
    exact hne (List.singleton_perm_singleton.1 this)

end Trans

/-! ### Pages -/

variable {arr : ℕ → List α} {size m k : ℕ}

theorem pages_succ : pages arr size (m + 1) = pages arr size m ++ ((arr m).drop (m * size)).take size := by
  rw [pages, List.range_succ, List.flatMap_append, List.flatMap_singleton]
  rfl

/-- Pages that are cut out of one order from page `k` on. -/
theorem pages_add (hk : ∀ j, k ≤ j → arr j = ys) (i : ℕ) :
    pages arr size (k + i) = pages arr size k ++ (ys.drop (k * size)).take (i * size) := by
  induction i with
  | zero => rw [Nat.add_zero, Nat.zero_mul, List.take_zero, List.append_nil]
  | succ i ih =>
    rw [← Nat.add_assoc, pages_succ, ih, hk (k + i) (by omega), List.append_assoc, Nat.add_mul i 1, List.take_add,
      List.drop_drop, Nat.add_mul, Nat.one_mul]

theorem pages_of_eq (hk : ∀ j, j < k → arr j = xs) : pages arr size k = xs.take (k * size) := by
  induction k with
  | zero => rw [Nat.zero_mul, List.take_zero]; rfl
  | succ k ih =>
    rw [pages_succ, ih fun j hj => hk j (by omega), hk k (by omega), Nat.add_mul, Nat.one_mul, List.take_add]

section Trans

variable [Std.TransCmp cmp]

theorem pages_perm_take (harr : ∀ n, Arranges cmp ms (arr n)) (hsteady : ∀ k, Steady cmp f ms (k * size)) (m : ℕ) :
    ((pages arr size m).map f).Perm (((arr 0).take (m * size)).map f) := by
  induction m with
  | zero => rw [Nat.zero_mul, List.take_zero]; exact List.Perm.refl _
  | succ m ih =>
    have hnow := (hsteady m).take_perm (harr 0) (harr m)
    have hnext := (hsteady (m + 1)).take_perm (harr m) (harr 0)
    rw [pages_succ, List.map_append]
    refine List.Perm.trans ((ih.trans hnow).append_right _) (List.Perm.trans (List.Perm.of_eq ?_) hnext)
    rw [← List.map_append, Nat.add_mul, Nat.one_mul, List.take_add]

/-- **Complete pages**: with steady borders the pages hold every row once. -/
theorem pages_perm (harr : ∀ n, Arranges cmp ms (arr n)) (hsteady : ∀ k, Steady cmp f ms (k * size))
    (hm : ms.length ≤ m * size) : ((pages arr size m).map f).Perm (ms.map f) := by
  have htake := pages_perm_take harr hsteady m
  rw [List.take_of_length_le ((harr 0).perm.length_eq ▸ hm)] at htake
  exact htake.trans ((harr 0).perm.map f)

/-- Pages that hold every row once, whatever the orders are, have steady borders. -/
theorem steady_of_pages (h : ∀ arr : ℕ → List α, (∀ n, Arranges cmp ms (arr n)) →
    ((pages arr size m).map f).Perm (ms.map f)) (hm : ms.length ≤ m * size) (k : ℕ) : Steady cmp f ms (k * size) := by
  by_contra hns
  obtain ⟨xs, ys, hx, hy, hlt, hne⟩ := exists_of_not_steady hns
  have hkm : k ≤ m := by
    by_contra hmk
    have : m * size ≤ k * size := Nat.mul_le_mul_right size (by omega)
    omega
  obtain ⟨i, rfl⟩ := Nat.exists_eq_add_of_le hkm
  -- the order changes behind the border
  have hall := h (fun j => if j < k then xs else ys) fun j => by
    split
    · exact hx
    · exact hy
  rw [pages_add (fun j hj => if_neg (by omega)), pages_of_eq (fun j hj => if_pos hj),
    List.take_of_length_le (i := i * size)] at hall
  · apply hne
    have hself : ((ys.take (k * size) ++ ys.drop (k * size)).map f).Perm (ms.map f) := by
      rw [List.take_append_drop]
      exact hy.perm.map f
    rw [List.map_append] at hall hself
    exact (List.perm_append_right_iff _).1 (hall.trans hself.symm)
  · rw [List.length_drop, hy.perm.length_eq]
    rw [Nat.add_mul] at hm
    omega

end Trans

/-! ### Following a cursor -/

/-- What a client collects that asks again with the cursor of each answer until an answer is without one. The
`n`-th question may be answered differently from the others, or not at all. -/
inductive Delivers {γ : Type} (answer : ℕ → γ → Option (List β × Option γ)) : ℕ → γ → List β → Prop
  | last {n c rows} : answer n c = some (rows, none) → Delivers answer n c rows
  | next {n c rows c' rest} : answer n c = some (rows, some c') → Delivers answer (n + 1) c' rest →
      Delivers answer n c (rows ++ rest)

section Delivers

variable {γ : Type} {answer : ℕ → γ → Option (List β × Option γ)} {c : γ} {rows rows' : List β}

theorem Delivers.unique (h : Delivers answer n c rows) (h' : Delivers answer n c rows') : rows = rows' := by
  induction h generalizing rows' with
  | last hlast =>
    cases h' with
    | last hlast' =>
      rw [hlast] at hlast'
      cases hlast'
      rfl
    | next hnext' =>
      rw [hlast] at hnext'
      cases hnext'
  | next hnext _ ih =>
    cases h' with
    | last hlast' =>
      rw [hnext] at hlast'
      cases hlast'
    | next hnext' hrest' =>
      rw [hnext] at hnext'
      cases hnext'
      rw [ih hrest']

theorem delivers_of_pages {page : ℕ → List β} {cursor : ℕ → γ} {m : ℕ}
    (hnext : ∀ k < m, answer k (cursor k) = some (page k, some (cursor (k + 1))))
    (hlast : answer m (cursor m) = some (page m, none)) :
    Delivers answer 0 (cursor 0) ((List.range (m + 1)).flatMap page) := by
  have hfrom : ∀ i k, k + i = m → Delivers answer k (cursor k) ((List.range' k (i + 1)).flatMap page) := by
    intro i
    induction i with
    | zero =>
      rintro k rfl
      rw [List.range'_one, List.flatMap_singleton]
      exact .last hlast
    | succ i ih =>
      intro k hk
      rw [List.range'_succ, List.flatMap_cons]
      exact .next (hnext k (by omega)) (ih (k + 1) (by omega))
  rw [List.range_eq_range']
  exact hfrom m 0 (Nat.zero_add m)

inductive Meets {γ : Type} (answer : ℕ → γ → Option (List β × Option γ)) : ℕ → γ → List β → Prop
  | here {n c rows next} : answer n c = some (rows, next) → Meets answer n c rows
  | later {n c rows c' page} : answer n c = some (rows, some c') → Meets answer (n + 1) c' page → Meets answer n c page

theorem Delivers.cut {answer' : ℕ → γ → Option (List β × Option γ)} {cut : List β → List β}
    (hcut : ∀ page, (cut page).Sublist page)
    (hanswer : ∀ n c, answer' n c = (answer n c).map fun r => (cut r.1, r.2)) {n : ℕ}
    (h : Delivers answer n c rows) : ∃ kept, Delivers answer' n c kept ∧ kept.Sublist rows ∧
      (kept = rows ↔ ∀ page, Meets answer n c page → cut page = page) := by
  induction h with
  | @last n c rows hlast =>
    have hcutted : answer' n c = some (cut rows, none) := by rw [hanswer, hlast]; rfl
    refine ⟨cut rows, .last hcutted, hcut rows, fun heq page hpage => ?_, fun hall => hall rows (.here hlast)⟩
    cases hpage with
    | here hhere =>
      rw [hlast] at hhere
      cases hhere
      exact heq
    | later hlater =>
      rw [hlast] at hlater
      cases hlater
  | @next n c rows c' rest hnext hrest ih =>
    obtain ⟨kept, hkept, hsub, hiff⟩ := ih
    have hcutted : answer' n c = some (cut rows, some c') := by rw [hanswer, hnext]; rfl
    refine ⟨cut rows ++ kept, .next hcutted hkept, (hcut rows).append hsub, fun heq page hpage => ?_, fun hall => ?_⟩
    · -- neither part is longer than the one it was cut from
      have hlength := congrArg List.length heq
      have hrows := (hcut rows).length_le
      have hrest := hsub.length_le
      rw [List.length_append, List.length_append] at hlength
      obtain ⟨hhead, htail⟩ := List.append_inj heq (by omega)
      cases hpage with
      | here hhere =>
        rw [hnext] at hhere
        cases hhere
        exact hhead
      | later hlater hpage =>
        rw [hnext] at hlater
        cases hlater
        exact hiff.1 htail page hpage
    · rw [hall rows (.here hnext), hiff.2 fun page hpage => hall page (.later hnext hpage)]

theorem not_delivers_of_endless {n : ℕ} (h : ∀ n c, ∃ rows c', answer n c = some (rows, some c')) :
    ¬ Delivers answer n c rows := by
  intro hdelivers
  induction hdelivers with
  | @last n c rows hlast =>
    obtain ⟨rows', c', hanswer⟩ := h n c
    rw [hlast] at hanswer
    cases hanswer
  | next _ _ ih => exact ih

end Delivers

/-! ### Trimming a page -/

section Trim

variable {α : Type} (cost : α → ℕ) (budget : ℚ)

/-- The rows up to the first that goes beyond the budget, and what they cost on top of `acc`. -/
def trimBy : ℕ → List α → List α × ℕ
  | acc, [] => ([], acc)
  | acc, row :: rows =>
    if budget < ((acc + cost row : ℕ) : ℚ) then ([], acc)
    else
      let rest := trimBy (acc + cost row) rows
      (row :: rest.1, rest.2)

theorem trimBy_begins (acc : ℕ) (rows : List α) : (trimBy cost budget acc rows).1 <+: rows := by
  induction rows generalizing acc with
  | nil => exact List.nil_prefix
  | cons row rows ih =>
    rw [trimBy]
    split_ifs
    · exact List.nil_prefix
    · exact List.cons_prefix_cons.2 ⟨rfl, ih _⟩

/-- **A trimmed page** is the longest beginning that is within the budget. -/
theorem trimBy_longest {acc : ℕ} (hacc : (acc : ℚ) ≤ budget) (rows : List α) :
    (trimBy cost budget acc rows).2 = acc + ((trimBy cost budget acc rows).1.map cost).sum ∧
      ((trimBy cost budget acc rows).2 : ℚ) ≤ budget ∧
      ∀ p, p <+: rows → ((acc + (p.map cost).sum : ℕ) : ℚ) ≤ budget → p <+: (trimBy cost budget acc rows).1 := by
  induction rows generalizing acc with
  | nil => exact ⟨rfl, hacc, fun _ hp _ => hp⟩
  | cons row rows ih =>
    rw [trimBy]
    split_ifs with hover
    · refine ⟨rfl, hacc, fun p hp hle => ?_⟩
      cases p with
      | nil => exact List.nil_prefix
      | cons a p =>
        obtain ⟨rfl, -⟩ := List.cons_prefix_cons.1 hp
        refine absurd hle (not_le.2 (hover.trans_le ?_))
        exact_mod_cast Nat.add_le_add_left (Nat.le_add_right _ _) acc
    · obtain ⟨hcost, hle, hlongest⟩ := ih (not_lt.1 hover)
      refine ⟨by rw [hcost, List.map_cons, List.sum_cons, Nat.add_assoc], hle, fun p hp hple => ?_⟩
      cases p with
      | nil => exact List.nil_prefix
      | cons a p =>
        obtain ⟨rfl, hrest⟩ := List.cons_prefix_cons.1 hp
        rw [List.map_cons, List.sum_cons, ← Nat.add_assoc] at hple
        exact List.cons_prefix_cons.2 ⟨rfl, hlongest p hrest hple⟩

theorem trimBy_eq_iff {acc : ℕ} (hacc : (acc : ℚ) ≤ budget) (rows : List α) :
    (trimBy cost budget acc rows).1 = rows ↔ ((acc + (rows.map cost).sum : ℕ) : ℚ) ≤ budget := by
  obtain ⟨hcost, hle, hlongest⟩ := trimBy_longest cost budget hacc rows
  constructor
  · intro h
    rwa [hcost, h] at hle
  · intro h
    exact (trimBy_begins cost budget acc rows).eq_of_length_le (hlongest rows List.prefix_rfl h).length_le

end Trim

end NpsSdk.Lib
