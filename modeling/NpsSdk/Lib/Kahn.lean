import Mathlib.Data.List.Induction
import NpsSdk.Lib.JsMap

/-!
# Topological sorting by counting incoming edges

Kahn's algorithm over an arbitrary type of nodes: repeatedly remove a node without incoming edges
from a queue, and decrement the count of each of its targets.

The order it emits contains the source of every edge before its target (`Kahn.topological`), without
repetition, and it is complete as soon as it is as long as the list of nodes.
-/

namespace NpsSdk.Lib

variable {κ : Type*}

/-- `l` lists the source of every edge before its target. -/
def Topological (edge : κ → κ → Prop) (l : List κ) : Prop :=
  ∀ pre v post, l = pre ++ v :: post → ∀ u, edge u v → u ∈ pre

/-- `u` is listed before `v`. -/
def Precedes (l : List κ) (u v : κ) : Prop := ∃ pre post, l = pre ++ v :: post ∧ u ∈ pre

theorem pairwise_not_precedes {l : List κ} (hn : l.Nodup) : l.Pairwise fun a b => ¬ Precedes l b a := by
  rw [List.pairwise_iff_forall_sublist]
  rintro a b hab ⟨pre, post, rfl, hb⟩
  obtain ⟨hpre, hpost, hdisj⟩ := List.nodup_append.1 hn
  -- `b` stands before this `a`, so the `a` that stands before it would be a second one
  obtain ⟨l₁, l₂, heq, h1, h2⟩ := List.sublist_append_iff.1 hab
  rcases l₁ with _ | ⟨x, l₁⟩
  · rw [List.nil_append] at heq
    subst heq
    exact hdisj b hb b (h2.subset (by simp)) rfl
  · obtain ⟨rfl, -⟩ := List.cons.inj heq
    exact hdisj a (h1.subset (by simp)) a (by simp) rfl

namespace Topological

variable {edge : κ → κ → Prop} {l : List κ}

theorem nil : Topological edge ([] : List κ) := by
  intro pre v post h
  simp at h

theorem snoc (h : Topological edge l) {v : κ} (hv : ∀ u, edge u v → u ∈ l) : Topological edge (l ++ [v]) := by
  intro pre w post heq u hu
  rcases List.eq_nil_or_concat post with rfl | ⟨post', x, rfl⟩
  · obtain ⟨rfl, hw⟩ := List.append_inj' heq rfl
    cases hw
    exact hv u hu
  · rw [List.concat_eq_append, ← List.cons_append, ← List.append_assoc] at heq
    obtain ⟨hl, -⟩ := List.append_inj' heq rfl
    exact h pre w post' hl u hu

theorem transGen (h : Topological edge l) : Topological (Relation.TransGen edge) l := by
  intro pre v post heq u hu
  induction hu using Relation.TransGen.head_induction_on with
  | single huv => exact h pre v post heq _ huv
  | head huw _ ih =>
    obtain ⟨s, t, rfl⟩ := List.append_of_mem ih
    have := h s _ (t ++ v :: post) (by simp [heq]) _ huw
    exact List.mem_append_left _ this

theorem precedes (h : Topological edge l) {u v : κ} (huv : edge u v) (hv : v ∈ l) : Precedes l u v := by
  obtain ⟨pre, post, rfl⟩ := List.append_of_mem hv
  exact ⟨pre, post, rfl, h pre v post rfl u huv⟩

end Topological

variable [DecidableEq κ]

/-- The state of the sort: the remaining incoming edges of each node, the nodes to remove next and
the nodes removed so far. -/
structure Kahn (κ : Type*) where
  inDegree : JsMap κ ℤ
  queue : List κ
  order : List κ

namespace Kahn

/-- Counts one incoming edge of `next` as removed. -/
def relax (k : Kahn κ) (next : κ) : Kahn κ :=
  let deg := (k.inDegree.get next).getD 0 - 1
  { k with
    inDegree := k.inDegree.set next deg
    queue := if deg = 0 then k.queue ++ [next] else k.queue }

/-- Removes the first node of the queue. -/
def pop (adj : κ → List κ) (k : Kahn κ) (cur : κ) (rest : List κ) : Kahn κ :=
  (adj cur).foldl relax { k with queue := rest, order := k.order ++ [cur] }

/-- Removes nodes until the queue is empty, `fuel` nodes at most. -/
def sort (adj : κ → List κ) : ℕ → Kahn κ → Kahn κ
  | 0, k => k
  | fuel + 1, k =>
    match k.queue with
    | [] => k
    | cur :: rest => sort adj fuel (pop adj k cur rest)

/-! ### The invariant -/

/-- The number of edges into `v` whose source is not in `done`. -/
def remaining (edges : List (κ × κ)) (done : List κ) (v : κ) : ℕ :=
  (edges.filter fun e => decide (e.2 = v ∧ e.1 ∉ done)).length

/-- The targets of the edges that leave `u`. -/
def targets (edges : List (κ × κ)) (u : κ) : List κ :=
  (edges.filter fun e => decide (e.1 = u)).map Prod.snd

/-- What holds between two removals, and, with the targets `todo` still to be counted, inside one. -/
structure Inv (edges : List (κ × κ)) (ids todo : List κ) (k : Kahn κ) : Prop where
  /-- The count of a node is its number of edges from nodes not removed, plus its share of `todo`. -/
  count : ∀ v ∈ ids, k.inDegree.get v = some ((remaining edges k.order v + todo.count v : ℕ) : ℤ)
  /-- No node is queued or removed twice. -/
  nodup : (k.order ++ k.queue).Nodup
  /-- The queued and the removed nodes are those with count zero. -/
  zero : ∀ v, v ∈ k.order ++ k.queue ↔ v ∈ ids ∧ k.inDegree.get v = some 0
  /-- The removed nodes are in topological order. -/
  topological : Topological (fun u v => (u, v) ∈ edges) k.order

variable {edges : List (κ × κ)} {ids todo : List κ} {k : Kahn κ}

theorem remaining_eq_zero {done : List κ} {v : κ} : remaining edges done v = 0 ↔ ∀ u, (u, v) ∈ edges → u ∈ done := by
  simp only [remaining, List.length_eq_zero_iff, List.filter_eq_nil_iff, decide_eq_true_eq, not_and,
    not_not, Prod.forall]
  exact ⟨fun h u hu => h u v hu rfl, fun h a b hab hb => h a (hb ▸ hab)⟩

/-- Removing `cur` moves its edges into `v` from the remaining ones to the ones to be counted. -/
theorem remaining_snoc {done : List κ} {cur v : κ} (hcur : cur ∉ done) :
    remaining edges done v = remaining edges (done ++ [cur]) v + (targets edges cur).count v := by
  induction edges with
  | nil => simp [remaining, targets]
  | cons e es ih =>
    obtain ⟨a, b⟩ := e
    simp only [remaining, targets] at ih ⊢
    by_cases hb : b = v
    · by_cases ha : a = cur
      · subst ha
        simp [hb, hcur]
        simp at ih
        omega
      · by_cases hd : a ∈ done
        · simpa [hb, ha, hd] using ih
        · simp [hb, ha, hd]
          simp at ih
          omega
    · by_cases ha : a = cur
      · simpa [hb, ha] using ih
      · simpa [hb, ha] using ih

/-! ### The start -/

/-- The number of edges into each node, counted one after the other. -/
def inDegrees (edges : List (κ × κ)) (ids : List κ) : JsMap κ ℤ :=
  edges.foldl (fun m e => m.set e.2 ((m.get e.2).getD 0 + 1)) (JsMap.ofList (ids.map fun id => (id, 0)))

/-- The sort before its first removal: the nodes without incoming edges are queued. -/
def start (edges : List (κ × κ)) (ids : List κ) : Kahn κ where
  inDegree := inDegrees edges ids
  queue := ((inDegrees edges ids).entries.filter fun e => decide (e.2 = 0)).map Prod.fst
  order := []

theorem entries_zeros (hn : ids.Nodup) :
    (JsMap.ofList (ids.map fun id => (id, (0 : ℤ)))).entries = ids.map fun id => (id, 0) :=
  JsMap.ofList_entries (by simpa [List.map_map, Function.comp_def] using hn)

theorem get_zeros (hn : ids.Nodup) {v : κ} (hv : v ∈ ids) :
    (JsMap.ofList (ids.map fun id => (id, (0 : ℤ)))).get v = some 0 := by
  rw [← JsMap.mem_entries_iff, entries_zeros hn]
  exact List.mem_map.2 ⟨v, hv, rfl⟩

theorem keys_countEdges {m : JsMap κ ℤ} (h : ∀ e ∈ edges, e.2 ∈ m.keys) :
    (edges.foldl (fun m e => m.set e.2 ((m.get e.2).getD 0 + 1)) m).keys = m.keys := by
  induction edges generalizing m with
  | nil => rfl
  | cons e es ih =>
    have hkeys : (m.set e.2 ((m.get e.2).getD 0 + 1)).keys = m.keys := by
      obtain ⟨d, hd⟩ := JsMap.get_of_mem_keys (h e List.mem_cons_self)
      exact JsMap.keys_upsert_of_find hd _
    rw [List.foldl_cons, ih fun e' he' => hkeys ▸ h e' (List.mem_cons_of_mem _ he'), hkeys]

theorem keys_inDegrees (hn : ids.Nodup) (hids : ∀ e ∈ edges, e.2 ∈ ids) : (inDegrees edges ids).keys = ids := by
  have hzero : (JsMap.ofList (ids.map fun id => (id, (0 : ℤ)))).keys = ids := by
    rw [JsMap.keys, entries_zeros hn]
    simp [List.map_map, Function.comp_def]
  rw [inDegrees, keys_countEdges fun e he => hzero.symm ▸ hids e he, hzero]

theorem get_countEdges (m : JsMap κ ℤ) (c : ℕ) (v : κ) (hm : m.get v = some (c : ℤ)) :
    (edges.foldl (fun m e => m.set e.2 ((m.get e.2).getD 0 + 1)) m).get v =
      some ((c + remaining edges [] v : ℕ) : ℤ) := by
  induction edges generalizing m c with
  | nil => simpa [remaining] using hm
  | cons e es ih =>
    rw [List.foldl_cons]
    by_cases hv : e.2 = v
    · rw [ih _ (c + 1)]
      · simp only [remaining, List.not_mem_nil, not_false_eq_true, and_true, hv, decide_true,
          List.filter_cons_of_pos, List.length_cons]
        congr 2
        omega
      · rw [hv, JsMap.get_set_self, hm]
        simp
    · rw [ih _ c]
      · simp [remaining, hv]
      · rw [JsMap.get_set_ne _ _ (Ne.symm hv), hm]

theorem start_inv (hn : ids.Nodup) (hids : ∀ e ∈ edges, e.2 ∈ ids) : Inv edges ids [] (start edges ids) := by
  refine ⟨?_, ?_, ?_, Topological.nil⟩
  · intro v hv
    simpa [start, inDegrees] using @get_countEdges _ _ edges _ 0 v (get_zeros hn hv)
  · exact (List.filter_sublist.map Prod.fst).nodup (inDegrees edges ids).nodup
  · intro v
    simp only [start, List.nil_append, List.mem_map, List.mem_filter, decide_eq_true_eq]
    constructor
    · rintro ⟨⟨w, d⟩, ⟨he, rfl⟩, rfl⟩
      have hg := (JsMap.mem_entries_iff _ _ _).1 he
      exact ⟨keys_inDegrees hn hids ▸ JsMap.mem_keys_of_get hg, hg⟩
    · rintro ⟨-, hg⟩
      exact ⟨(v, 0), ⟨(JsMap.mem_entries_iff _ _ _).2 hg, rfl⟩, rfl⟩

/-! ### A removal -/

/-- Counting one edge keeps the invariant. -/
theorem Inv.relax {next : κ} (h : Inv edges ids (next :: todo) k) (hnext : next ∈ ids) :
    Inv edges ids todo (k.relax next) := by
  have hc := h.count next hnext
  have hdeg : (k.inDegree.get next).getD 0 - 1 = ((remaining edges k.order next + todo.count next : ℕ) : ℤ) := by
    rw [hc]
    simp only [List.count_cons_self, Option.getD_some]
    omega
  have hfresh : next ∉ k.order ++ k.queue := by
    rw [h.zero, hc]
    simp only [List.count_cons_self, Option.some.injEq, not_and]
    intro _
    omega
  have horder : (k.relax next).order = k.order := rfl
  constructor
  · intro v hv
    simp only [Kahn.relax, JsMap.get_set, hdeg]
    split_ifs with hvn
    · rw [hvn]
    · rw [h.count v hv, List.count_cons_of_ne (Ne.symm hvn)]
  · simp only [Kahn.relax]
    split_ifs with h0
    · rw [← List.append_assoc]
      exact List.nodup_append.2 ⟨h.nodup, by simp, by
        rintro a ha b hb rfl
        simp only [List.mem_singleton] at hb
        exact hfresh (hb ▸ ha)⟩
    · exact h.nodup
  · intro v
    simp only [Kahn.relax, JsMap.get_set, hdeg]
    by_cases hvn : v = next
    · subst hvn
      simp only [if_true]
      split_ifs with h0
      · simp [hnext, h0]
      · simp only [Option.some.injEq, h0, and_false, iff_false]
        exact hfresh
    · simp only [hvn, if_false]
      rw [← h.zero v]
      split_ifs
      · simp [hvn]
      · rfl
  · rw [horder]
    exact h.topological

theorem Inv.foldl_relax (h : Inv edges ids todo k) (htodo : ∀ v ∈ todo, v ∈ ids) :
    Inv edges ids [] (todo.foldl Kahn.relax k) := by
  induction todo generalizing k with
  | nil => exact h
  | cons next todo ih =>
    exact ih (h.relax (htodo next (by simp))) fun v hv => htodo v (by simp [hv])

theorem Inv.popped (h : Inv edges ids [] k) {cur : κ} {rest : List κ} (hq : k.queue = cur :: rest) :
    Inv edges ids (targets edges cur) { k with queue := rest, order := k.order ++ [cur] } := by
  have hmem : cur ∈ k.order ++ k.queue := by simp [hq]
  obtain ⟨hcur, hzero⟩ := (h.zero cur).1 hmem
  have hnd := h.nodup
  rw [hq] at hnd
  have hout : cur ∉ k.order := fun hc =>
    (List.nodup_append.1 hnd).2.2 cur hc cur (by simp) rfl
  have hsrc : ∀ u, (u, cur) ∈ edges → u ∈ k.order := by
    have := h.count cur hcur
    rw [hzero] at this
    simp only [List.count_nil, Nat.add_zero, Option.some.injEq] at this
    exact remaining_eq_zero.1 (by omega)
  refine ⟨?_, ?_, ?_, ?_⟩
  · intro v hv
    rw [h.count v hv, remaining_snoc hout]
    simp
  · simpa using hnd
  · intro v
    rw [← h.zero v, hq]
    simp
  · exact h.topological.snoc hsrc

theorem targets_subset (hids : ∀ e ∈ edges, e.2 ∈ ids) (cur : κ) : ∀ v ∈ targets edges cur, v ∈ ids := by
  intro v hv
  simp only [targets, List.mem_map, List.mem_filter] at hv
  obtain ⟨e, ⟨he, -⟩, rfl⟩ := hv
  exact hids e he

theorem Inv.pop (hids : ∀ e ∈ edges, e.2 ∈ ids) (h : Inv edges ids [] k) {cur : κ}
    {rest : List κ} (hq : k.queue = cur :: rest) : Inv edges ids [] (k.pop (targets edges) cur rest) :=
  (h.popped hq).foldl_relax (targets_subset hids cur)

theorem Inv.sort (hids : ∀ e ∈ edges, e.2 ∈ ids) (fuel : ℕ) (h : Inv edges ids [] k) :
    Inv edges ids [] (Kahn.sort (targets edges) fuel k) := by
  induction fuel generalizing k with
  | zero => exact h
  | succ fuel ih =>
    simp only [Kahn.sort]
    split
    · exact h
    · rename_i cur rest hq
      exact ih (h.pop hids hq)

/-! ### The queue runs empty -/

theorem Inv.subset (h : Inv edges ids todo k) : ∀ v ∈ k.order ++ k.queue, v ∈ ids := fun v hv =>
  ((h.zero v).1 hv).1

theorem Inv.length_le (h : Inv edges ids todo k) : k.order.length + k.queue.length ≤ ids.length := by
  rw [← List.length_append]
  exact (List.subperm_of_subset h.nodup h.subset).length_le

theorem foldl_relax_order (todo : List κ) (k : Kahn κ) : (todo.foldl Kahn.relax k).order = k.order := by
  induction todo generalizing k with
  | nil => rfl
  | cons next todo ih => rw [List.foldl_cons, ih]; rfl

theorem pop_order (adj : κ → List κ) (k : Kahn κ) (cur : κ) (rest : List κ) :
    (pop adj k cur rest).order = k.order ++ [cur] := foldl_relax_order _ _

theorem Inv.sort_queue (hids : ∀ e ∈ edges, e.2 ∈ ids) (fuel : ℕ) (h : Inv edges ids [] k)
    (hfuel : ids.length ≤ k.order.length + fuel) : (Kahn.sort (targets edges) fuel k).queue = [] := by
  induction fuel generalizing k with
  | zero =>
    have := h.length_le
    exact List.length_eq_zero_iff.1 (by simp only [Kahn.sort]; omega)
  | succ fuel ih =>
    simp only [Kahn.sort]
    split
    · assumption
    · rename_i cur rest hq
      refine ih (h.pop hids hq) ?_
      rw [pop_order, List.length_append, List.length_singleton]
      omega

/-! ### Completeness -/

theorem Inv.sources (h : Inv edges ids todo k) {v : κ} (hv : v ∈ k.order ++ k.queue) :
    (∀ u, (u, v) ∈ edges → u ∈ k.order) ∧ v ∉ todo := by
  obtain ⟨hids, hzero⟩ := (h.zero v).1 hv
  have hcount := h.count v hids
  rw [hzero, Option.some.injEq] at hcount
  refine ⟨remaining_eq_zero.1 (by omega), fun hc => ?_⟩
  have := List.count_pos_iff.2 hc
  omega

/-- An order as long as the list of nodes lists every node. -/
theorem Inv.perm (h : Inv edges ids todo k) (hlen : k.order.length = ids.length) : k.order.Perm ids :=
  (List.subperm_of_subset (List.Nodup.of_append_left h.nodup) fun v hv =>
    h.subset v (List.mem_append_left _ hv)).perm_of_length_le (Nat.le_of_eq hlen.symm)

theorem Inv.complete (h : Inv edges ids [] k) (hqueue : k.queue = []) {l : List κ} (hl : ∀ v, v ∈ l ↔ v ∈ ids)
    (htop : Topological (fun u v => (u, v) ∈ edges) l) : ∀ v ∈ ids, v ∈ k.order := by
  -- the induction is on the prefix of the complete order
  have hall : ∀ pre post, l = pre ++ post → ∀ v ∈ pre, v ∈ k.order := by
    intro pre
    induction pre using List.reverseRecOn with
    | nil => exact fun _ _ v hv => absurd hv List.not_mem_nil
    | append_singleton pre w ih =>
      intro post heq v hv
      have heq' : l = pre ++ w :: post := by simpa using heq
      rcases List.mem_append.1 hv with hv | hv
      · exact ih (w :: post) heq' v hv
      · rw [List.mem_singleton.1 hv]
        have hw : w ∈ ids := (hl w).1 (by simp [heq'])
        have hnone : remaining edges k.order w = 0 :=
          remaining_eq_zero.2 fun u hu => ih (w :: post) heq' u (htop pre w post heq' u hu)
        have hzero : w ∈ k.order ++ k.queue := (h.zero w).2 ⟨hw, by
          rw [h.count w hw, hnone]
          rfl⟩
        rwa [hqueue, List.append_nil] at hzero
  exact fun v hv => hall l [] (List.append_nil l).symm v ((hl v).2 hv)

end Kahn

end NpsSdk.Lib
