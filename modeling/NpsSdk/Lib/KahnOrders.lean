import Mathlib.Data.Set.Finite.Basic
import NpsSdk.Lib.Kahn

/-!
# The order of the queue

Kahn's algorithm removes nodes in the order in which they are queued.  Whether a node is queued before another
one depends on the edges and on the order in which the nodes are listed (`Earlier`): it has no sources, or its
last source is removed first, or the last source of both is one node and its edges from there end first.
-/

namespace NpsSdk.Lib

variable {κ : Type*}

/-! ### Lists -/

theorem Precedes.asymm {l : List κ} {u v : κ} (hn : l.Nodup) (h : Precedes l u v) : ¬ Precedes l v u := by
  obtain ⟨pre, post, rfl, hu⟩ := h
  obtain ⟨s, t, rfl⟩ := List.append_of_mem hu
  have hpair : [u, v].Sublist (s ++ u :: t ++ v :: post) :=
    ((List.singleton_sublist.2 (by simp : u ∈ s ++ u :: t)).append
      (List.singleton_sublist.2 (by simp : v ∈ v :: post)))
  exact (List.pairwise_iff_forall_sublist.1 (pairwise_not_precedes hn)) hpair

theorem precedes_of_sublist {l : List κ} {u v : κ} (h : [u, v].Sublist l) : Precedes l u v := by
  obtain ⟨l₁, l₂, rfl, h1, h2⟩ := List.cons_sublist_iff.1 h
  obtain ⟨s, t, rfl⟩ := List.append_of_mem (h2.subset (List.mem_singleton_self v))
  exact ⟨l₁ ++ s, t, by simp, List.mem_append_left _ h1⟩

/-- The last `u` in a list stands before the last `v`. -/
def EndsBefore (l : List κ) (u v : κ) : Prop := ∃ pre post, l = pre ++ v :: post ∧ u ∉ v :: post ∧ v ∉ post

theorem EndsBefore.asymm {l : List κ} {u v : κ} (hu : u ∈ l) (hv : v ∈ l) (h : EndsBefore l u v) :
    ¬ EndsBefore l v u := by
  rintro ⟨pre', post', heq', hv', -⟩
  obtain ⟨pre, post, rfl, hu', -⟩ := h
  -- each of the two stands in the part before the last one of the other
  rcases List.append_eq_append_iff.1 heq' with ⟨s, rfl, hs⟩ | ⟨s, rfl, hs⟩
  · rcases s with _ | ⟨x, s⟩
    · obtain ⟨rfl, -⟩ := List.cons.inj hs
      exact hu' List.mem_cons_self
    · obtain ⟨rfl, rfl⟩ := List.cons.inj hs
      exact hu' (by simp)
  · rcases s with _ | ⟨x, s⟩
    · obtain ⟨rfl, -⟩ := List.cons.inj hs
      exact hv' List.mem_cons_self
    · obtain ⟨rfl, rfl⟩ := List.cons.inj hs
      exact hv' (by simp)

variable [DecidableEq κ]

theorem Topological.idxOf_lt {edge : κ → κ → Prop} {l : List κ} (h : Topological edge l) (hn : l.Nodup) {u v : κ}
    (huv : edge u v) (hv : v ∈ l) : u ∈ l ∧ l.idxOf u < l.idxOf v := by
  obtain ⟨pre, post, rfl, hu⟩ := h.precedes huv hv
  have hpre : v ∉ pre := fun hc => (List.nodup_append.1 hn).2.2 v hc v List.mem_cons_self rfl
  refine ⟨List.mem_append_left _ hu, ?_⟩
  rw [List.idxOf_append_of_mem hu, List.idxOf_append_of_notMem hpre, List.idxOf_cons_self]
  exact Nat.lt_of_lt_of_le (List.idxOf_lt_length_of_mem hu) (Nat.le_add_right _ _)

namespace Kahn

/-- `u` is queued before `v`, where the nodes are listed in the order `ids`. -/
inductive Earlier (edges : List (κ × κ)) (ids : List κ) : κ → κ → Prop
  /-- Neither has a source, and `u` is listed first. -/
  | listed {u v : κ} (hu : ∀ q, (q, u) ∉ edges) (hv : ∀ q, (q, v) ∉ edges) (hids : Precedes ids u v) :
    Earlier edges ids u v
  /-- Every source of `u` is earlier than a source of `v`. -/
  | sources {u v p : κ} (hp : (p, v) ∈ edges) (hu : ∀ q, (q, u) ∈ edges → Earlier edges ids q p) :
    Earlier edges ids u v
  /-- The last source of both is `p`, and its edges to `u` end first. -/
  | edges {u v p : κ} (hu : (p, u) ∈ edges) (hv : (p, v) ∈ edges)
    (hlast : ∀ q, (q, u) ∈ edges ∨ (q, v) ∈ edges → q ≠ p → Earlier edges ids q p)
    (hends : EndsBefore (targets edges p) u v) : Earlier edges ids u v

variable {edges : List (κ × κ)} {ids todo : List κ} {k : Kahn κ}

theorem mem_targets {u v : κ} : v ∈ targets edges u ↔ (u, v) ∈ edges := by
  simp only [targets, List.mem_map, List.mem_filter, decide_eq_true_eq, Prod.exists]
  constructor
  · rintro ⟨a, b, ⟨hab, rfl⟩, rfl⟩
    exact hab
  · intro h
    exact ⟨u, v, ⟨h, rfl⟩, rfl⟩

/-- Of two nodes of a topological order only one is earlier than the other. -/
theorem Earlier.asymm {l : List κ} (hn : l.Nodup) (htop : Topological (fun u v => (u, v) ∈ edges) l)
    (hids : ids.Nodup) {u v : κ} (hu : u ∈ l) (hv : v ∈ l) (h : Earlier edges ids u v) : ¬ Earlier edges ids v u := by
  -- the induction is on the places of both: the sources stand before
  induction hsum : l.idxOf u + l.idxOf v using Nat.strongRecOn generalizing u v with
  | _ n ih =>
  subst hsum
  have hsource : ∀ {q w}, (q, w) ∈ edges → w ∈ l → q ∈ l ∧ l.idxOf q < l.idxOf w := fun hq hw =>
    htop.idxOf_lt hn hq hw
  intro h'
  cases h with
  | listed hsu hsv hlisted =>
    cases h' with
    | listed _ _ hlisted' => exact hlisted.asymm hids hlisted'
    | sources hp' _ => exact hsu _ hp'
    | edges hu' _ _ _ => exact hsv _ hu'
  | @sources _ _ p hp hall =>
    obtain ⟨hpl, hplt⟩ := hsource hp hv
    cases h' with
    | listed hsv _ _ => exact hsv _ hp
    | @sources _ _ p' hp' hall' =>
      obtain ⟨hpl', hplt'⟩ := hsource hp' hu
      exact ih _ (by omega) hpl' hpl (hall _ hp') rfl (hall' _ hp)
    | @edges _ _ p' hv' hu' hlast' _ =>
      obtain ⟨hpl', hplt'⟩ := hsource hu' hu
      have hfirst := hall _ hu'
      by_cases hpp : p = p'
      · subst hpp
        exact ih _ (by omega) hpl hpl hfirst rfl hfirst
      · exact ih _ (by omega) hpl' hpl hfirst rfl (hlast' p (.inl hp) hpp)
  | @edges _ _ p hpu hpv hlast hends =>
    obtain ⟨hpl, hplt⟩ := hsource hpu hu
    cases h' with
    | listed _ hsu _ => exact hsu _ hpu
    | @sources _ _ p' hp' hall' =>
      obtain ⟨hpl', hplt'⟩ := hsource hp' hu
      have hfirst := hall' _ hpv
      have hltv := (hsource hpv hv).2
      by_cases hpp : p' = p
      · subst hpp
        exact ih _ (by omega) hpl hpl hfirst rfl hfirst
      · exact ih _ (by omega) hpl' hpl (hlast p' (.inl hp') hpp) rfl hfirst
    | @edges _ _ p' hv' hu' hlast' hends' =>
      obtain ⟨hpl', hplt'⟩ := hsource hu' hu
      have hltv := (hsource hpv hv).2
      by_cases hpp : p' = p
      · subst hpp
        exact hends.asymm (mem_targets.2 hpu) (mem_targets.2 hpv) hends'
      · exact ih _ (by omega) hpl' hpl (hlast p' (.inl hu') hpp) rfl (hlast' p (.inl hpv) (Ne.symm hpp))

/-! ### The queue -/

/-- What is removed and queued is listed in the order of `Earlier`. -/
def InTurn (edges : List (κ × κ)) (ids : List κ) (k : Kahn κ) : Prop :=
  (k.order ++ k.queue).Pairwise (Earlier edges ids)

theorem InTurn.relax {next p : κ} {done seen : List κ} (hturn : InTurn edges ids k)
    (h : Inv edges ids (next :: todo) k) (hnext : next ∈ ids) (horder : k.order = done ++ [p])
    (htargets : targets edges p = seen ++ next :: todo) : InTurn edges ids (k.relax next) := by
  unfold InTurn Kahn.relax
  dsimp only
  split_ifs with hzero
  · rw [← List.append_assoc, List.pairwise_append]
    refine ⟨hturn, List.pairwise_singleton _ _, ?_⟩
    rintro u hu w hw
    obtain rfl := List.mem_singleton.1 hw
    have hdone : ∀ q ∈ done, Earlier edges ids q p := by
      have hpair := (List.pairwise_append.1 hturn).1
      rw [horder, List.pairwise_append] at hpair
      exact fun q hq => hpair.2.2 q hq p (List.mem_singleton_self p)
    have hlast : ∀ q, q ∈ k.order → q ≠ p → Earlier edges ids q p := by
      intro q hq hne
      rw [horder] at hq
      rcases List.mem_append.1 hq with hq | hq
      · exact hdone q hq
      · exact absurd (List.mem_singleton.1 hq) hne
    have hpw : (p, w) ∈ edges := mem_targets.1 (by rw [htargets]; simp)
    -- `w` has no edge left
    have hcount := h.count w hnext
    rw [hcount, Option.getD_some, List.count_cons_self] at hzero
    have hsources : ∀ q, (q, w) ∈ edges → q ∈ k.order := remaining_eq_zero.1 (by omega)
    have hnone : w ∉ todo := fun hc => by
      have := List.count_pos_iff.2 hc
      omega
    obtain ⟨husources, hunone⟩ := h.sources hu
    by_cases hpu : (p, u) ∈ edges
    · exact .edges hpu hpw (fun q hq => hlast q (hq.elim (husources q) (hsources q)))
        ⟨seen, todo, htargets, hunone, hnone⟩
    · exact .sources hpw fun q hq => hlast q (husources q hq) (by rintro rfl; exact hpu hq)
  · exact hturn

theorem InTurn.foldl_relax {p : κ} {done : List κ} (seen : List κ) (hturn : InTurn edges ids k)
    (h : Inv edges ids todo k) (htodo : ∀ v ∈ todo, v ∈ ids) (horder : k.order = done ++ [p])
    (htargets : targets edges p = seen ++ todo) : InTurn edges ids (todo.foldl Kahn.relax k) := by
  induction todo generalizing k seen with
  | nil => exact hturn
  | cons next todo ih =>
    have hnext := htodo next List.mem_cons_self
    exact ih (seen ++ [next]) (hturn.relax h hnext horder htargets) (h.relax hnext)
      (fun v hv => htodo v (List.mem_cons_of_mem _ hv)) horder
      (by rw [htargets, List.append_assoc, List.singleton_append])

theorem InTurn.sort (hids : ∀ e ∈ edges, e.2 ∈ ids) (fuel : ℕ) (h : Inv edges ids [] k)
    (hturn : InTurn edges ids k) : InTurn edges ids (Kahn.sort (targets edges) fuel k) := by
  induction fuel generalizing k with
  | zero => exact hturn
  | succ fuel ih =>
    simp only [Kahn.sort]
    split
    · exact hturn
    · rename_i cur rest hq
      have hturn' : InTurn edges ids { k with queue := rest, order := k.order ++ [cur] } := by
        unfold InTurn at hturn ⊢
        rw [hq] at hturn
        simpa using hturn
      exact ih (h.pop hids hq)
        (InTurn.foldl_relax [] hturn' (h.popped hq) (targets_subset hids cur) rfl rfl)

/-- **The nodes are removed in the order of `Earlier`.** -/
theorem InTurn.precedes_iff (hids : ids.Nodup) (h : Inv edges ids [] k) (hturn : InTurn edges ids k) {u v : κ}
    (hu : u ∈ k.order) (hv : v ∈ k.order) : Precedes k.order u v ↔ Earlier edges ids u v := by
  have hn : k.order.Nodup := h.nodup.of_append_left
  have hpair : k.order.Pairwise (Earlier edges ids) := (List.pairwise_append.1 hturn).1
  constructor
  · rintro ⟨pre, post, heq, hmem⟩
    rw [heq, List.pairwise_append] at hpair
    exact hpair.2.2 u hmem v List.mem_cons_self
  · intro hearlier
    obtain ⟨pre, post, heq⟩ := List.append_of_mem hv
    refine ⟨pre, post, heq, ?_⟩
    by_contra hnot
    have hasymm := hearlier.asymm hn h.topological hids hu hv
    rw [heq] at hu hpair
    rcases List.mem_cons.1 ((List.mem_append.1 hu).resolve_left hnot) with rfl | hu
    · exact hasymm hearlier
    · exact hasymm ((List.pairwise_cons.1 (List.pairwise_append.1 hpair).2.1).1 u hu)

end Kahn

end NpsSdk.Lib

/-!
## The least order

Kahn's algorithm with its queue kept sorted removes the least node of those that can be removed.  The order that
it emits is the least topological order, and there is one unless there is a cycle.
-/

namespace NpsSdk.Lib

variable {κ : Type*} [DecidableEq κ]

namespace Kahn

/-- Counts one incoming edge of `next` as removed, and arranges the queue if it grows. -/
def relaxBy (arrange : List κ → List κ) (k : Kahn κ) (next : κ) : Kahn κ :=
  let deg := (k.inDegree.get next).getD 0 - 1
  { k with
    inDegree := k.inDegree.set next deg
    queue := if deg = 0 then arrange (k.queue ++ [next]) else k.queue }

/-- Removes the first node of the queue. -/
def popBy (arrange : List κ → List κ) (adj : κ → List κ) (k : Kahn κ) (cur : κ) (rest : List κ) : Kahn κ :=
  (adj cur).foldl (relaxBy arrange) { k with queue := rest, order := k.order ++ [cur] }

/-- Removes nodes until the queue is empty, `fuel` nodes at most. -/
def sortBy (arrange : List κ → List κ) (adj : κ → List κ) : ℕ → Kahn κ → Kahn κ
  | 0, k => k
  | fuel + 1, k =>
    match k.queue with
    | [] => k
    | cur :: rest => sortBy arrange adj fuel (popBy arrange adj k cur rest)

/-- A way to sort lists by an order. -/
structure Arranges (r : κ → κ → Prop) (arrange : List κ → List κ) : Prop where
  perm : ∀ l, (arrange l).Perm l
  sorted : ∀ l, (arrange l).Pairwise r

/-- Every node that is removed is the least of those whose sources are removed before. -/
def Greedy (r : κ → κ → Prop) (edges : List (κ × κ)) (ids l : List κ) : Prop :=
  ∀ pre v post, l = pre ++ v :: post → ∀ w ∈ ids, w ∉ pre → (∀ u, (u, w) ∈ edges → u ∈ pre) → r v w

variable {r : κ → κ → Prop} {arrange : List κ → List κ} {adj : κ → List κ} {edges : List (κ × κ)}
  {ids todo : List κ} {k : Kahn κ}

/-! ### The invariant -/

theorem Inv.of_perm (h : Inv edges ids todo k) {queue todo' : List κ} (hqueue : queue.Perm k.queue)
    (htodo : todo'.Perm todo) : Inv edges ids todo' { k with queue := queue } where
  count := fun v hv => by rw [htodo.count_eq]; exact h.count v hv
  nodup := (hqueue.append_left k.order).nodup_iff.2 h.nodup
  zero := fun v => (hqueue.append_left k.order).mem_iff.trans (h.zero v)
  topological := h.topological

/-- What holds between two removals from a sorted queue, and inside one. -/
structure GreedyInv (r : κ → κ → Prop) (edges : List (κ × κ)) (ids todo : List κ) (k : Kahn κ) : Prop
    extends Inv edges ids todo k where
  sorted : k.queue.Pairwise r
  greedy : Greedy r edges ids k.order

theorem GreedyInv.relaxBy (harrange : Arranges r arrange) {next : κ} (h : GreedyInv r edges ids (next :: todo) k)
    (hnext : next ∈ ids) : GreedyInv r edges ids todo (k.relaxBy arrange next) := by
  have hinv := h.toInv.relax hnext
  have hqueue : (k.relaxBy arrange next).queue.Perm (k.relax next).queue := by
    unfold Kahn.relaxBy Kahn.relax
    dsimp only
    split_ifs
    · exact harrange.perm _
    · exact .refl _
  refine ⟨hinv.of_perm hqueue (.refl _), ?_, h.greedy⟩
  unfold Kahn.relaxBy
  dsimp only
  split_ifs
  · exact harrange.sorted _
  · exact h.sorted

theorem GreedyInv.foldl_relaxBy (harrange : Arranges r arrange) (h : GreedyInv r edges ids todo k)
    (htodo : ∀ v ∈ todo, v ∈ ids) : GreedyInv r edges ids [] (todo.foldl (Kahn.relaxBy arrange) k) := by
  induction todo generalizing k with
  | nil => exact h
  | cons next todo ih =>
    exact ih (h.relaxBy harrange (htodo next List.mem_cons_self)) fun v hv => htodo v (List.mem_cons_of_mem _ hv)

theorem GreedyInv.greedy_snoc (hrefl : ∀ v, r v v) (h : GreedyInv r edges ids [] k) {cur : κ} {rest : List κ}
    (hq : k.queue = cur :: rest) : Greedy r edges ids (k.order ++ [cur]) := by
  intro pre v post heq w hw hnot hsources
  rcases List.eq_nil_or_concat' post with rfl | ⟨post', x, rfl⟩
  · obtain ⟨rfl, hv⟩ := List.append_inj' heq rfl
    cases hv
    have hzero : w ∈ k.order ++ k.queue := (h.zero w).2 ⟨hw, by
      rw [h.count w hw, remaining_eq_zero.2 hsources]
      rfl⟩
    rcases List.mem_append.1 hzero with hmem | hmem
    · exact absurd hmem hnot
    · rw [hq] at hmem
      have hsorted := h.sorted
      rw [hq] at hsorted
      rcases List.mem_cons.1 hmem with rfl | hmem
      · exact hrefl w
      · exact (List.pairwise_cons.1 hsorted).1 w hmem
  · rw [← List.cons_append, ← List.append_assoc] at heq
    exact h.greedy pre v post' (List.append_inj' heq rfl).1 w hw hnot hsources

theorem GreedyInv.popBy (hrefl : ∀ v, r v v) (harrange : Arranges r arrange)
    (hadj : ∀ u, (adj u).Perm (targets edges u)) (hids : ∀ e ∈ edges, e.2 ∈ ids) (h : GreedyInv r edges ids [] k)
    {cur : κ} {rest : List κ} (hq : k.queue = cur :: rest) : GreedyInv r edges ids [] (k.popBy arrange adj cur rest) := by
  have hsorted := h.sorted
  rw [hq] at hsorted
  refine GreedyInv.foldl_relaxBy harrange ⟨(h.toInv.popped hq).of_perm (.refl _) (hadj cur), ?_, ?_⟩ ?_
  · exact (List.pairwise_cons.1 hsorted).2
  · exact h.greedy_snoc hrefl hq
  · exact fun v hv => targets_subset hids cur v ((hadj cur).mem_iff.1 hv)

theorem GreedyInv.sortBy (hrefl : ∀ v, r v v) (harrange : Arranges r arrange)
    (hadj : ∀ u, (adj u).Perm (targets edges u)) (hids : ∀ e ∈ edges, e.2 ∈ ids) (fuel : ℕ)
    (h : GreedyInv r edges ids [] k) : GreedyInv r edges ids [] (Kahn.sortBy arrange adj fuel k) := by
  induction fuel generalizing k with
  | zero => exact h
  | succ fuel ih =>
    simp only [Kahn.sortBy]
    split
    · exact h
    · rename_i cur rest hq
      exact ih (h.popBy hrefl harrange hadj hids hq)

theorem foldl_relaxBy_order (todo : List κ) (k : Kahn κ) : (todo.foldl (relaxBy arrange) k).order = k.order := by
  induction todo generalizing k with
  | nil => rfl
  | cons next todo ih =>
    rw [List.foldl_cons, ih]
    rfl

theorem GreedyInv.sortBy_queue (hrefl : ∀ v, r v v) (harrange : Arranges r arrange)
    (hadj : ∀ u, (adj u).Perm (targets edges u)) (hids : ∀ e ∈ edges, e.2 ∈ ids) (fuel : ℕ)
    (h : GreedyInv r edges ids [] k) (hfuel : ids.length ≤ k.order.length + fuel) :
    (Kahn.sortBy arrange adj fuel k).queue = [] := by
  induction fuel generalizing k with
  | zero =>
    have := h.length_le
    exact List.length_eq_zero_iff.1 (by simp only [Kahn.sortBy]; omega)
  | succ fuel ih =>
    simp only [Kahn.sortBy]
    split
    · assumption
    · rename_i cur rest hq
      refine ih (h.popBy hrefl harrange hadj hids hq) ?_
      rw [Kahn.popBy, foldl_relaxBy_order, List.length_append, List.length_singleton]
      omega

/-! ### The least order -/

/-- **A greedy order is the least topological order**, name by name. -/
theorem Greedy.lex {l l' : List κ} (h : Greedy r edges ids l) (hn : l'.Nodup) (hids : ∀ v ∈ l', v ∈ ids)
    (htop : Topological (fun u v => (u, v) ∈ edges) l') (hlen : l.length = l'.length) :
    l = l' ∨ List.Lex (fun a b => r a b ∧ a ≠ b) l l' := by
  -- the two are compared after a common beginning
  have hafter : ∀ (s s' pre : List κ), l = pre ++ s → l' = pre ++ s' →
      s = s' ∨ List.Lex (fun a b => r a b ∧ a ≠ b) s s' := by
    intro s
    induction s with
    | nil =>
      intro s' pre heq heq'
      rw [heq, heq', List.length_append, List.length_append, List.length_nil] at hlen
      exact .inl (List.length_eq_zero_iff.1 (by omega)).symm
    | cons v s ih =>
      intro s' pre heq heq'
      cases s' with
      | nil =>
        rw [heq, heq', List.length_append, List.length_append, List.length_nil, List.length_cons] at hlen
        omega
      | cons w s' =>
        by_cases hvw : v = w
        · subst hvw
          rcases ih s' (pre ++ [v]) (by simp [heq]) (by simp [heq']) with hs | hs
          · exact .inl (by rw [hs])
          · exact .inr (.cons hs)
        · refine .inr (.rel ⟨h pre v s heq w (hids w (by simp [heq'])) ?_ (htop pre w s' heq'), hvw⟩)
          rw [heq'] at hn
          exact fun hc => (List.nodup_append.1 hn).2.2 w hc w List.mem_cons_self rfl
  exact hafter l l' [] rfl rfl

/-! ### Cycles -/

/-- A node that an edge leads back to, over any number of edges. -/
def Cyclic (edges : List (κ × κ)) : Prop := ∃ v, Relation.TransGen (fun u v => (u, v) ∈ edges) v v

omit [DecidableEq κ] in
theorem Topological.not_cyclic {l : List κ} (hn : l.Nodup) (hl : ∀ e ∈ edges, e.2 ∈ l)
    (htop : Topological (fun u v => (u, v) ∈ edges) l) : ¬ Cyclic edges := by
  rintro ⟨v, hv⟩
  have hmem : v ∈ l := by
    obtain ⟨u, -, hu⟩ := Relation.TransGen.tail'_iff.1 hv
    exact hl _ hu
  have hbefore := htop.transGen.precedes hv hmem
  exact hbefore.asymm hn hbefore

/-- **Without a cycle every node is removed.** -/
theorem Inv.complete_of_acyclic (h : Inv edges ids [] k) (hqueue : k.queue = []) (hids : ∀ e ∈ edges, e.1 ∈ ids)
    (hacyclic : ¬ Cyclic edges) : ∀ v ∈ ids, v ∈ k.order := by
  let before : {v // v ∈ ids} → {v // v ∈ ids} → Prop := fun a b => Relation.TransGen (fun u v => (u, v) ∈ edges) a b
  have : Finite {v // v ∈ ids} := (List.finite_toSet ids).to_subtype
  have : IsTrans _ before := ⟨fun _ _ _ hab hbc => hab.trans hbc⟩
  have : Std.Irrefl before := ⟨fun v hv => hacyclic ⟨v, hv⟩⟩
  have hwf : WellFounded before := Finite.wellFounded_of_trans_of_irrefl before
  intro v hv
  -- the induction is along the edges: all sources are removed, so the node was queued
  refine hwf.induction (C := fun v => v.1 ∈ k.order) ⟨v, hv⟩ ?_
  rintro ⟨w, hw⟩ ih
  have hsources : ∀ u, (u, w) ∈ edges → u ∈ k.order := fun u hu => ih ⟨u, hids _ hu⟩ (.single hu)
  have hzero : w ∈ k.order ++ k.queue := (h.zero w).2 ⟨hw, by
    rw [h.count w hw, remaining_eq_zero.2 hsources]
    rfl⟩
  rwa [hqueue, List.append_nil] at hzero

end Kahn

end NpsSdk.Lib
