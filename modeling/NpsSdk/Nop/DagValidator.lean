import NpsSdk.Lib.KahnOrders
import NpsSdk.Nop.Models

/-!
# DAG validation

`validateDag` of `nop/dag-validator.ts`, and what an accepted DAG satisfies: its ids are distinct,
its edges and inputs name nodes, and the order returned is a permutation of the ids in which the
source of every edge precedes its target.
-/

namespace NpsSdk.Nop

open NpsSdk.Lib

/-! ### The validator -/

/-- The largest number of nodes of a DAG. -/
def maxDagNodes : ℕ := 32

/-- The largest length of a condition. -/
def maxConditionLen : ℕ := 512

structure DagError where
  errorCode : String
  errorMessage : String

/-- An acceptance. -/
structure DagValidation where
  topologicalOrder : List String
  roots : List String
  terminals : List String

/-- The first id that is listed again, given the ids `seen` before. -/
def firstDuplicate (seen : List String) : List DagNode → Option String
  | [] => none
  | n :: ns => if n.id ∈ seen then some n.id else firstDuplicate (n.id :: seen) ns

def longCondition (nodes : List DagNode) : Option DagNode :=
  nodes.find? fun n =>
    match truthy n.condition with
    | none => false
    | some c => decide (maxConditionLen < utf16Length c)

/-- What is wrong with the end points of an edge. -/
def edgeError (ids : List String) (edge : DagEdge) : Option String :=
  if edge.src ∉ ids then some s!"Edge references unknown source node: '{edge.src}'."
  else if edge.dst ∉ ids then some s!"Edge references unknown target node: '{edge.dst}'."
  else none

def inputError (ids : List String) (node : DagNode) : Option String :=
  (node.inputFrom.find? fun upstream => decide (upstream ∉ ids)).map fun upstream =>
    s!"Node '{node.id}' references unknown upstream node '{upstream}' in input_from."

/-- The number of edges into each node. -/
def inDegrees (dag : TaskDag) : JsMap String ℤ :=
  dag.edges.foldl (fun m e => m.set e.dst ((m.get e.dst).getD 0 + 1))
    (JsMap.ofList (dag.ids.map fun id => (id, 0)))

/-- The sort before its first removal: the nodes without incoming edges are queued. -/
def kahnStart (dag : TaskDag) : Kahn String where
  inDegree := inDegrees dag
  queue := ((inDegrees dag).entries.filter fun e => decide (e.2 = 0)).map Prod.fst
  order := []

def kahnOrder (dag : TaskDag) : List String :=
  (Kahn.sort (Kahn.targets dag.pairs) dag.nodes.length (kahnStart dag)).order

def validateDag (dag : TaskDag) : Except DagError DagValidation :=
  if dag.nodes.length = 0 then
    .error ⟨nopTaskDagInvalid, "DAG must contain at least one node."⟩
  else if maxDagNodes < dag.nodes.length then
    .error ⟨nopTaskDagTooLarge,
      s!"DAG contains {dag.nodes.length} nodes, exceeding the maximum of {maxDagNodes}."⟩
  else
    match firstDuplicate [] dag.nodes with
    | some id => .error ⟨nopTaskDagInvalid, s!"Duplicate node ID: '{id}'."⟩
    | none =>
    match longCondition dag.nodes with
    | some node => .error ⟨nopTaskDagInvalid,
        s!"Node '{node.id}' condition expression exceeds {maxConditionLen} characters."⟩
    | none =>
    match dag.edges.findSome? (edgeError dag.ids) with
    | some message => .error ⟨nopTaskDagInvalid, message⟩
    | none =>
    match dag.nodes.findSome? (inputError dag.ids) with
    | some message => .error ⟨nopTaskDagInvalid, message⟩
    | none =>
    let order := kahnOrder dag
    if order.length ≠ dag.nodes.length then
      .error ⟨nopTaskDagCycle, "DAG contains a cycle."⟩
    else
      let roots := order.filter fun id => dag.edges.all fun e => e.dst != id
      let terminals := order.filter fun id => dag.edges.all fun e => e.src != id
      if roots.length = 0 then
        .error ⟨nopTaskDagInvalid, "DAG must have at least one root node (no incoming edges)."⟩
      else if terminals.length = 0 then
        .error ⟨nopTaskDagInvalid, "DAG must have at least one terminal node (no outgoing edges)."⟩
      else
        .ok ⟨order, roots, terminals⟩

/-! ### What acceptance means -/

structure WellFormed (dag : TaskDag) : Prop where
  /-- There is a node. -/
  nonempty : dag.nodes ≠ []
  /-- No id is used twice. -/
  ids_nodup : dag.ids.Nodup
  /-- The ends of an edge are nodes. -/
  edges : ∀ e ∈ dag.edges, e.src ∈ dag.ids ∧ e.dst ∈ dag.ids
  /-- The inputs of a node are nodes. -/
  inputs : ∀ n ∈ dag.nodes, ∀ d ∈ n.inputFrom, d ∈ dag.ids

theorem firstDuplicate_none {seen : List String} {nodes : List DagNode} (h : firstDuplicate seen nodes = none) :
    (nodes.map DagNode.id).Nodup ∧ ∀ n ∈ nodes, n.id ∉ seen := by
  induction nodes generalizing seen with
  | nil => simp
  | cons n ns ih =>
    simp only [firstDuplicate] at h
    split_ifs at h with hs
    obtain ⟨hn, hd⟩ := ih h
    refine ⟨?_, ?_⟩
    · simp only [List.map_cons, List.nodup_cons, List.mem_map, not_exists, not_and]
      exact ⟨fun m hm heq => hd m hm (by simp [heq]), hn⟩
    · intro m hm
      rcases List.mem_cons.1 hm with rfl | hm
      · exact hs
      · exact fun hc => hd m hm (List.mem_cons_of_mem _ hc)

theorem edgeError_none {ids : List String} {e : DagEdge} (h : edgeError ids e = none) : e.src ∈ ids ∧ e.dst ∈ ids := by
  unfold edgeError at h
  split_ifs at h with h1 h2
  exact ⟨h1, h2⟩

theorem inputError_none {ids : List String} {n : DagNode} (h : inputError ids n = none) :
    ∀ d ∈ n.inputFrom, d ∈ ids := by
  intro d hd
  simp only [inputError, Option.map_eq_none_iff, List.find?_eq_none] at h
  simpa using h d hd

variable {dag : TaskDag}

theorem validateDag_inv {v : DagValidation} (h : validateDag dag = .ok v) :
    WellFormed dag ∧ (kahnOrder dag).length = dag.nodes.length ∧ v.topologicalOrder = kahnOrder dag := by
  unfold validateDag at h
  split_ifs at h with h1 h2
  split at h
  · cases h
  · rename_i hdup
    split at h
    · cases h
    · split at h
      · cases h
      · rename_i hedge
        split at h
        · cases h
        · rename_i hinput
          dsimp only at h
          split_ifs at h with h3 h4 h5
          cases h
          refine ⟨⟨?_, (firstDuplicate_none hdup).1, ?_, ?_⟩, not_not.1 h3, rfl⟩
          · exact fun hc => h1 (by simp [hc])
          · exact fun e he => edgeError_none (List.findSome?_eq_none_iff.1 hedge e he)
          · exact fun n hn => inputError_none (List.findSome?_eq_none_iff.1 hinput n hn)

/-! ### The order -/

theorem length_ids (dag : TaskDag) : dag.ids.length = dag.nodes.length := List.length_map _

theorem pairs_ids (hw : WellFormed dag) : ∀ e ∈ dag.pairs, e.2 ∈ dag.ids := by
  intro e he
  obtain ⟨d, hd, rfl⟩ := List.mem_map.1 he
  exact (hw.edges d hd).2

theorem kahnStart_eq (dag : TaskDag) : kahnStart dag = Kahn.start dag.pairs dag.ids := by
  have hdeg : inDegrees dag = Kahn.inDegrees dag.pairs dag.ids := by
    rw [Kahn.inDegrees, TaskDag.pairs, List.foldl_map]
    rfl
  rw [kahnStart, Kahn.start, hdeg]

theorem kahnStart_inv (hw : WellFormed dag) : Kahn.Inv dag.pairs dag.ids [] (kahnStart dag) :=
  kahnStart_eq dag ▸ Kahn.start_inv hw.ids_nodup (pairs_ids hw)

theorem kahnOrder_inv (hw : WellFormed dag) :
    Kahn.Inv dag.pairs dag.ids [] (Kahn.sort (Kahn.targets dag.pairs) dag.nodes.length (kahnStart dag)) :=
  (kahnStart_inv hw).sort (pairs_ids hw) _

/-- The fuel is enough: the sort stops because no node is left in its queue. -/
theorem kahn_queue_empty (hw : WellFormed dag) :
    (Kahn.sort (Kahn.targets dag.pairs) dag.nodes.length (kahnStart dag)).queue = [] :=
  (kahnStart_inv hw).sort_queue (pairs_ids hw) _ (by
    rw [length_ids]
    exact Nat.le_add_left _ _)

/-- **Accepted DAGs.**  The order of an accepted DAG is a permutation of its ids that lists the
source of every edge before its target. -/
theorem validateDag_order {v : DagValidation} (h : validateDag dag = .ok v) :
    v.topologicalOrder.Perm dag.ids ∧ v.topologicalOrder.Nodup ∧
      Topological (fun a b => (a, b) ∈ dag.pairs) v.topologicalOrder := by
  obtain ⟨hw, hlen, heq⟩ := validateDag_inv h
  have hinv := kahnOrder_inv hw
  rw [heq]
  refine ⟨hinv.perm ?_, List.Nodup.of_append_left hinv.nodup, hinv.topological⟩
  rw [length_ids]
  exact hlen

end NpsSdk.Nop

/-!
## Inputs and the topological order

`validateDag` checks that the inputs of a node are nodes, and then sorts along the edges only.  It accepts
whatever the edges alone can be sorted by, and an input precedes the node that lists it just where the queue of
the sort happens to remove it first.
-/

namespace NpsSdk.Nop

open NpsSdk.Lib

/-! ### What is accepted -/

/-- The ids listed with the source of every edge before its target. -/
structure EdgeOrder (dag : TaskDag) (order : List String) : Prop where
  perm : order.Perm dag.ids
  topological : Topological (fun u v => (u, v) ∈ dag.pairs) order

def InputsPrecede (dag : TaskDag) (order : List String) : Prop :=
  ∀ n ∈ dag.nodes, ∀ d ∈ n.inputFrom, Precedes order d n.id

/-- What the checks of the validator amount to. -/
structure Acceptable (dag : TaskDag) : Prop where
  wellFormed : WellFormed dag
  size : dag.nodes.length ≤ maxDagNodes
  conditions : longCondition dag.nodes = none
  sortable : ∃ order, EdgeOrder dag order

theorem firstDuplicate_eq_none {seen : List String} {nodes : List DagNode} (hn : (nodes.map DagNode.id).Nodup)
    (hseen : ∀ n ∈ nodes, n.id ∉ seen) : firstDuplicate seen nodes = none := by
  induction nodes generalizing seen with
  | nil => rfl
  | cons n ns ih =>
    rw [List.map_cons, List.nodup_cons] at hn
    rw [firstDuplicate, if_neg (hseen n List.mem_cons_self)]
    refine ih hn.2 fun m hm hc => ?_
    rcases List.mem_cons.1 hc with heq | hc
    · exact hn.1 (heq ▸ List.mem_map_of_mem hm)
    · exact hseen m (List.mem_cons_of_mem _ hm) hc

theorem edgeError_eq_none {ids : List String} {e : DagEdge} (h : e.src ∈ ids ∧ e.dst ∈ ids) :
    edgeError ids e = none := by
  rw [edgeError, if_neg (not_not.2 h.1), if_neg (not_not.2 h.2)]

theorem inputError_eq_none {ids : List String} {n : DagNode} (h : ∀ d ∈ n.inputFrom, d ∈ ids) :
    inputError ids n = none := by
  rw [inputError, Option.map_eq_none_iff, List.find?_eq_none]
  intro d hd
  simpa using h d hd

variable {dag : TaskDag}

theorem kahnOrder_perm (hw : WellFormed dag) (hs : ∃ order, EdgeOrder dag order) : (kahnOrder dag).Perm dag.ids := by
  obtain ⟨l, hl⟩ := hs
  have hinv := kahnOrder_inv hw
  have hall := hinv.complete (kahn_queue_empty hw) (fun v => hl.perm.mem_iff) hl.topological
  refine (List.perm_ext_iff_of_nodup hinv.nodup.of_append_left hw.ids_nodup).2 fun v => ?_
  exact ⟨fun hv => hinv.subset v (List.mem_append_left _ hv), hall v⟩

theorem EdgeOrder.roots_terminals {order : List String} (h : EdgeOrder dag order) (hw : WellFormed dag) :
    (order.filter fun id => dag.edges.all fun e => e.dst != id) ≠ [] ∧
      (order.filter fun id => dag.edges.all fun e => e.src != id) ≠ [] := by
  have hne : order ≠ [] := fun hc => by
    have := h.perm.length_eq
    rw [hc, length_ids] at this
    exact hw.nonempty (List.length_eq_zero_iff.1 this.symm)
  have hn : order.Nodup := h.perm.nodup_iff.2 hw.ids_nodup
  constructor
  · obtain ⟨first, rest, rfl⟩ := List.exists_cons_of_ne_nil hne
    refine List.ne_nil_of_mem (a := first) (List.mem_filter.2 ⟨List.mem_cons_self, ?_⟩)
    rw [List.all_eq_true]
    intro e he
    rw [bne_iff_ne]
    intro hc
    have := h.topological [] first rest rfl e.src (List.mem_map.2 ⟨e, he, by rw [hc]⟩)
    exact List.not_mem_nil this
  · obtain ⟨init, last, rfl⟩ := (List.eq_nil_or_concat' order).resolve_left hne
    refine List.ne_nil_of_mem (a := last) (List.mem_filter.2 ⟨by simp, ?_⟩)
    rw [List.all_eq_true]
    intro e he
    rw [bne_iff_ne]
    intro hc
    have hdst : e.dst ∈ init ++ [last] := h.perm.mem_iff.2 (hw.edges e he).2
    have hbefore : Precedes (init ++ [last]) last e.dst :=
      hc ▸ h.topological.precedes (List.mem_map.2 ⟨e, he, rfl⟩) hdst
    -- nothing is listed after the last node, and a node is not listed before itself
    rcases List.mem_append.1 hdst with hmem | hmem
    · exact hbefore.asymm hn ⟨init, [], rfl, hmem⟩
    · rw [List.mem_singleton.1 hmem] at hbefore
      exact hbefore.asymm hn hbefore

/-- **What the validator accepts**: well-formed DAGs with at most thirty-two nodes, no overlong condition and no
cycle of edges. -/
theorem validateDag_ok_iff : (∃ v, validateDag dag = .ok v) ↔ Acceptable dag := by
  constructor
  · rintro ⟨v, h⟩
    obtain ⟨hw, -, -⟩ := validateDag_inv h
    obtain ⟨hperm, -, htop⟩ := validateDag_order h
    refine ⟨hw, ?_, ?_, _, hperm, htop⟩
    · by_contra hc
      rw [validateDag, if_neg (by simpa using hw.nonempty), if_pos (by omega)] at h
      cases h
    · unfold validateDag at h
      split_ifs at h
      split at h
      · cases h
      · split at h
        · cases h
        · assumption
  · intro h
    have hw := h.wellFormed
    have hperm := kahnOrder_perm hw h.sortable
    have horder : EdgeOrder dag (kahnOrder dag) := ⟨hperm, (kahnOrder_inv hw).topological⟩
    obtain ⟨hroots, hterminals⟩ := horder.roots_terminals hw
    have hedges : dag.edges.findSome? (edgeError dag.ids) = none :=
      List.findSome?_eq_none_iff.2 fun e he => edgeError_eq_none (hw.edges e he)
    have hinputs : dag.nodes.findSome? (inputError dag.ids) = none :=
      List.findSome?_eq_none_iff.2 fun n hn => inputError_eq_none (hw.inputs n hn)
    have hlen : (kahnOrder dag).length = dag.nodes.length := by rw [hperm.length_eq, length_ids]
    refine ⟨⟨kahnOrder dag, (kahnOrder dag).filter fun id => dag.edges.all fun e => e.dst != id,
      (kahnOrder dag).filter fun id => dag.edges.all fun e => e.src != id⟩, ?_⟩
    rw [validateDag, if_neg (by simpa using hw.nonempty), if_neg (Nat.not_lt.2 h.size),
      firstDuplicate_eq_none hw.ids_nodup fun _ _ => List.not_mem_nil, h.conditions, hedges, hinputs]
    dsimp only
    rw [if_neg (not_not.2 hlen), if_neg (mt List.length_eq_zero_iff.1 hroots),
      if_neg (mt List.length_eq_zero_iff.1 hterminals)]

/-! ### Where the inputs stand -/

theorem kahnStart_inTurn (hw : WellFormed dag) : Kahn.InTurn dag.pairs dag.ids (kahnStart dag) := by
  have hinv := kahnStart_inv hw
  have hsub : (kahnStart dag).queue.Sublist dag.ids := by
    have hfilter : (kahnStart dag).queue.Sublist (Kahn.inDegrees dag.pairs dag.ids).keys := by
      rw [kahnStart_eq]
      exact List.filter_sublist.map Prod.fst
    rwa [Kahn.keys_inDegrees hw.ids_nodup (pairs_ids hw)] at hfilter
  refine List.pairwise_iff_forall_sublist.2 fun {u v} huv => ?_
  have hsources : ∀ w ∈ (kahnStart dag).order ++ (kahnStart dag).queue, ∀ q, (q, w) ∉ dag.pairs :=
    fun w hw q hq => List.not_mem_nil ((hinv.sources hw).1 q hq)
  exact .listed (hsources u (huv.subset (by simp))) (hsources v (huv.subset (by simp)))
    (precedes_of_sublist (huv.trans hsub))

/-- **The order of two nodes** of an accepted DAG. -/
theorem precedes_kahnOrder_iff (h : Acceptable dag) {u v : String} (hu : u ∈ dag.ids)
    (hv : v ∈ dag.ids) : Precedes (kahnOrder dag) u v ↔ Kahn.Earlier dag.pairs dag.ids u v := by
  have hw := h.wellFormed
  have hperm := kahnOrder_perm hw h.sortable
  exact ((kahnStart_inTurn hw).sort (pairs_ids hw) _ (kahnStart_inv hw)).precedes_iff hw.ids_nodup
    (kahnOrder_inv hw) (hperm.mem_iff.2 hu) (hperm.mem_iff.2 hv)

def CoversDependencies (dag : TaskDag) : Prop :=
  (∀ v, validateDag dag = .ok v →
    EdgeOrder dag v.topologicalOrder ∧ InputsPrecede dag v.topologicalOrder) ∧
  ((¬ ∃ order, EdgeOrder dag order ∧ InputsPrecede dag order) → ∃ e, validateDag dag = .error e)

/-- **Inputs precede** in what the validator returns just where the queue orders them so. -/
theorem coversDependencies_iff (dag : TaskDag) :
    CoversDependencies dag ↔
      (Acceptable dag → ∀ n ∈ dag.nodes, ∀ d ∈ n.inputFrom, Kahn.Earlier dag.pairs dag.ids d n.id) := by
  have hprecedes (h : Acceptable dag) {n d} (hn : n ∈ dag.nodes) (hd : d ∈ n.inputFrom) :=
    precedes_kahnOrder_iff h (h.wellFormed.inputs n hn d hd) (List.mem_map_of_mem hn)
  constructor
  · intro h hacc n hn d hd
    obtain ⟨v, hv⟩ := validateDag_ok_iff.2 hacc
    have hinput := (h.1 v hv).2 n hn d hd
    rw [(validateDag_inv hv).2.2] at hinput
    exact (hprecedes hacc hn hd).1 hinput
  · intro h
    have hok : ∀ v, validateDag dag = .ok v →
        EdgeOrder dag v.topologicalOrder ∧ InputsPrecede dag v.topologicalOrder := by
      intro v hv
      have hacc := validateDag_ok_iff.1 ⟨v, hv⟩
      obtain ⟨hperm, -, htop⟩ := validateDag_order hv
      refine ⟨⟨hperm, htop⟩, fun n hn d hd => ?_⟩
      rw [(validateDag_inv hv).2.2]
      exact (hprecedes hacc hn hd).2 (h hacc n hn d hd)
    refine ⟨hok, fun hnone => ?_⟩
    cases hv : validateDag dag with
    | ok v => exact absurd ⟨_, hok v hv⟩ hnone
    | error e => exact ⟨e, rfl⟩

def inputOnlyDag : TaskDag where
  nodes := [{ id := "a", action := "act", agent := "w", inputFrom := ["b"] },
    { id := "b", action := "act", agent := "w" }]
  edges := []

theorem inputOnlyDag_uncovered : ¬ CoversDependencies inputOnlyDag := by
  intro h
  have hrun : validateDag inputOnlyDag = .ok ⟨["a", "b"], ["a", "b"], ["a", "b"]⟩ := rfl
  obtain ⟨pre, post, heq, hb⟩ := (h.1 _ hrun).2 _ List.mem_cons_self "b" List.mem_cons_self
  -- `a` stands first
  rcases pre with _ | ⟨x, pre⟩
  · exact List.not_mem_nil hb
  · have : "a" ∈ ["b"] := by
      have htail := (List.cons.inj heq).2
      rw [htail]
      exact List.mem_append_right _ List.mem_cons_self
    exact absurd this (by decide)

end NpsSdk.Nop
