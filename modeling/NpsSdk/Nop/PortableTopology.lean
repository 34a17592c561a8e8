import NpsSdk.Nop.PortableProfile

/-!
# The order of a portable task

`stableTopology` finds the least of the orders in which the dependencies of a node come before it, and finds
one unless a dependency is unknown or the dependencies have a cycle.  The loop follows that order, so an attempt
of a node comes after the end of everything that the node depends on, however the nodes are listed.
-/

namespace NpsSdk.Nop

open NpsSdk.Lib

namespace PortableProfile

variable {nodes nodes' : NodeMap} {l : List String}

/-! ### Orders -/

def UnknownDependency (nodes : NodeMap) : Prop := ∃ e ∈ dependencies nodes, e.1 ∉ nodes.keys

/-- The ids with the dependencies of each before it. -/
structure DependencyOrder (nodes : NodeMap) (l : List String) : Prop where
  perm : l.Perm nodes.keys
  topological : Topological (fun d id => (d, id) ∈ dependencies nodes) l

/-- The order of names, without equality. -/
def nameLt (a b : String) : Prop := nameLe a b ∧ a ≠ b

/-- The first of the orders, name by name. -/
structure LeastOrder (nodes : NodeMap) (l : List String) : Prop extends DependencyOrder nodes l where
  least : ∀ l', DependencyOrder nodes l' → l = l' ∨ List.Lex nameLt l l'

instance : Std.Asymm nameLt := ⟨fun _ _ hab hba => hab.2 (nameLe_antisymm hab.1 hba.1)⟩

theorem nameLe_refl (a : String) : nameLe a a := (unitsLe_total _ _).elim id id

instance : Std.Total nameLe := ⟨fun a b => unitsLe_total (utf16 a) (utf16 b)⟩

instance : IsTrans String nameLe := ⟨fun _ _ _ hab hbc => unitsLe_trans hab hbc⟩

theorem arranges_sortKeys : Kahn.Arranges nameLe sortKeys where
  perm := List.perm_insertionSort _
  sorted := List.pairwise_insertionSort nameLe

theorem LeastOrder.unique {l' : List String} (h : LeastOrder nodes l) (h' : LeastOrder nodes l') : l = l' := by
  rcases h.least l' h'.toDependencyOrder with heq | hlt
  · exact heq
  · rcases h'.least l h.toDependencyOrder with heq | hlt'
    · exact heq.symm
    · exact absurd hlt' (Std.Asymm.asymm _ _ hlt)

/-! ### The sort -/

theorem mem_dependencies {d id : String} :
    (d, id) ∈ dependencies nodes ↔ ∃ node, nodes.get id = some node ∧ d ∈ node.dependsOn := by
  simp only [dependencies, List.mem_flatMap, List.mem_map, Prod.mk.injEq]
  constructor
  · rintro ⟨⟨k, node⟩, hmem, d', hd, rfl, rfl⟩
    exact ⟨node, (JsMap.mem_entries_iff _ _ _).1 hmem, hd⟩
  · rintro ⟨node, hget, hd⟩
    exact ⟨(id, node), (JsMap.mem_entries_iff _ _ _).2 hget, d, hd, rfl, rfl⟩

theorem dependencies_keys : ∀ e ∈ dependencies nodes, e.2 ∈ nodes.keys := by
  rintro ⟨d, id⟩ he
  obtain ⟨node, hget, -⟩ := mem_dependencies.1 he
  exact JsMap.mem_keys_of_get hget

theorem stableStart_inv : Kahn.GreedyInv nameLe (dependencies nodes) nodes.keys [] (stableStart nodes) where
  toInv := (Kahn.start_inv nodes.keys_nodup dependencies_keys).of_perm (List.perm_insertionSort _ _) (.refl _)
  sorted := List.pairwise_insertionSort nameLe _
  greedy := by
    intro pre v post heq
    rcases pre with _ | ⟨_, _⟩ <;> cases heq

theorem outgoing_perm (id : String) :
    (sortKeys (outgoing nodes id)).Perm (Kahn.targets (dependencies nodes) id) := List.perm_insertionSort _ _

theorem stableSort_inv : Kahn.GreedyInv nameLe (dependencies nodes) nodes.keys [] (stableSort nodes) :=
  stableStart_inv.sortBy nameLe_refl arranges_sortKeys outgoing_perm dependencies_keys _

theorem stableSort_queue : (stableSort nodes).queue = [] := by
  refine stableStart_inv.sortBy_queue nameLe_refl arranges_sortKeys outgoing_perm dependencies_keys _ ?_
  rw [nodes.length_keys]
  exact Nat.le_add_left _ _

/-- The sort is complete unless there is a cycle. -/
theorem length_stableSort_iff (hknown : ∀ e ∈ dependencies nodes, e.1 ∈ nodes.keys) :
    (stableSort nodes).order.length = nodes.size ↔ ¬ Kahn.Cyclic (dependencies nodes) := by
  have hinv := @stableSort_inv nodes
  constructor
  · intro hlen
    have hperm := hinv.toInv.perm (hlen.trans nodes.length_keys.symm)
    exact Kahn.Topological.not_cyclic hinv.nodup.of_append_left
      (fun e he => hperm.mem_iff.2 (dependencies_keys e he)) hinv.topological
  · intro hacyclic
    have hall := hinv.toInv.complete_of_acyclic stableSort_queue hknown hacyclic
    rw [← nodes.length_keys]
    refine Nat.le_antisymm ?_ (List.subperm_of_subset nodes.keys_nodup hall).length_le
    exact (Nat.le_add_right _ _).trans hinv.length_le

theorem stableTopology_least (h : stableTopology nodes = some l) : LeastOrder nodes l := by
  have hinv := @stableSort_inv nodes
  unfold stableTopology at h
  dsimp only at h
  split_ifs at h with hunknown hlen
  cases h
  have hperm := hinv.toInv.perm (hlen.trans nodes.length_keys.symm)
  refine ⟨⟨hperm, hinv.topological⟩, fun l' h' => ?_⟩
  exact hinv.greedy.lex (h'.perm.nodup_iff.2 nodes.keys_nodup) (fun v hv => h'.perm.mem_iff.1 hv) h'.topological
    (hperm.trans h'.perm.symm).length_eq

theorem stableTopology_eq_none_iff :
    stableTopology nodes = none ↔ UnknownDependency nodes ∨ Kahn.Cyclic (dependencies nodes) := by
  unfold stableTopology
  dsimp only
  split_ifs with hunknown hlen
  · have : UnknownDependency nodes := by simpa [UnknownDependency] using hunknown
    simp [this]
  all_goals
    have hknown : ∀ e ∈ dependencies nodes, e.1 ∈ nodes.keys := by simpa using hunknown
    have hnone : ¬ UnknownDependency nodes := fun ⟨e, he, hc⟩ => hc (hknown e he)
    have := length_stableSort_iff hknown
    simp_all

/-! ### Listing the nodes in another order -/

theorem mem_keys_iff_of_perm (hp : nodes.entries.Perm nodes'.entries) (id : String) :
    id ∈ nodes.keys ↔ id ∈ nodes'.keys := (hp.map Prod.fst).mem_iff

theorem mem_dependencies_iff_of_perm (hp : nodes.entries.Perm nodes'.entries) (e : String × String) :
    e ∈ dependencies nodes ↔ e ∈ dependencies nodes' := (hp.flatMap_right _).mem_iff

theorem DependencyOrder.of_perm (hp : nodes.entries.Perm nodes'.entries) (h : DependencyOrder nodes l) :
    DependencyOrder nodes' l where
  perm := h.perm.trans (hp.map Prod.fst)
  topological := fun pre v post heq u hu =>
    h.topological pre v post heq u ((mem_dependencies_iff_of_perm hp _).2 hu)

theorem LeastOrder.of_perm (hp : nodes.entries.Perm nodes'.entries) (h : LeastOrder nodes l) : LeastOrder nodes' l :=
  ⟨h.toDependencyOrder.of_perm hp, fun l' h' => h.least l' (h'.of_perm hp.symm)⟩

/-- **The order does not depend on how the nodes are listed.** -/
theorem stableTopology_perm (hp : nodes.entries.Perm nodes'.entries) :
    stableTopology nodes = stableTopology nodes' := by
  have hnone : stableTopology nodes = none ↔ stableTopology nodes' = none := by
    have hmem := mem_dependencies_iff_of_perm hp
    have hunknown : UnknownDependency nodes ↔ UnknownDependency nodes' := by
      simp only [UnknownDependency, hmem, mem_keys_iff_of_perm hp]
    have hcyclic : Kahn.Cyclic (dependencies nodes) ↔ Kahn.Cyclic (dependencies nodes') := by
      simp only [Kahn.Cyclic, hmem]
    rw [stableTopology_eq_none_iff, stableTopology_eq_none_iff, hunknown, hcyclic]
  cases h : stableTopology nodes with
  | none => rw [hnone.1 h]
  | some l =>
    cases h' : stableTopology nodes' with
    | none => cases (hnone.2 h').symm.trans h
    | some l' => rw [((stableTopology_least h).of_perm hp).unique (stableTopology_least h')]

/-! ### Attempts come after what they depend on -/

def Ended (events : List Event) (id : String) : Prop := .completed id ∈ events ∨ .skipped id ∈ events

def AttemptsFollow (nodes : NodeMap) (events : List Event) : Prop :=
  ∀ pre id count post, events = pre ++ .attempt id count :: post →
    ∀ d, (d, id) ∈ dependencies nodes → Ended pre d

variable {events more : List Event}

theorem Ended.mono {id : String} (hsub : events ⊆ more) (h : Ended events id) :
    Ended more id := h.imp (@hsub _) (@hsub _)

theorem AttemptsFollow.append (h : AttemptsFollow nodes events)
    (hmore : ∀ id count, .attempt id count ∈ more → ∀ d, (d, id) ∈ dependencies nodes → Ended events d) :
    AttemptsFollow nodes (events ++ more) := by
  intro pre id count post heq d hd
  rcases List.append_eq_append_iff.1 heq with ⟨s, rfl, hs⟩ | ⟨s, rfl, hs⟩
  · have hmem : .attempt id count ∈ more := by
      rw [hs]
      exact List.mem_append_right _ List.mem_cons_self
    exact (hmore id count hmem d hd).mono (List.subset_append_left _ _)
  · rcases s with _ | ⟨x, s⟩
    · have hmem : .attempt id count ∈ more := by
        rw [List.nil_append] at hs
        rw [← hs]
        exact List.mem_cons_self
      simpa using hmore id count hmem d hd
    · obtain ⟨rfl, rfl⟩ := List.cons.inj hs
      exact h pre id count s (by simp) d hd

/-- No attempt is recorded. -/
def Quiet (events : List Event) : Prop := ∀ id count, .attempt id count ∉ events

theorem AttemptsFollow.append_quiet (h : AttemptsFollow nodes events)
    (hmore : Quiet more) : AttemptsFollow nodes (events ++ more) :=
  h.append fun id count hmem => absurd hmem (hmore id count)

/-- What the loop has come to when it leaves a node. -/
def Left.progress : Left → Progress
  | .onward s | .cancelled s | .failed _ _ s => s

/-- What one turn of the loop adds to the events: attempts of its node only, and the end of the node if the loop
goes on. -/
structure Turn (id : String) (s : Progress) (left : Left) : Prop where
  adds : ∃ more, left.progress.events = s.events ++ more ∧ (∀ id' count, .attempt id' count ∈ more → id' = id) ∧
    ∀ s', left = .onward s' → Ended more id

theorem tryAttempts_events {id : String} {maxRetries : JsDouble} {retryOn : Option (List String)} (index : ℕ)
    (attempts : List Attempt) :
    (∀ id' count, .attempt id' count ∈ (tryAttempts id maxRetries retryOn index attempts).1 → id' = id) ∧
      ∀ result, (tryAttempts id maxRetries retryOn index attempts).2.2 = .completed result →
        Ended (tryAttempts id maxRetries retryOn index attempts).1 id := by
  induction attempts generalizing index with
  | nil => simp [tryAttempts]
  | cons outcome rest ih =>
    unfold tryAttempts
    split_ifs with hretries
    · dsimp only
      split
      · simp [Ended]
      · obtain ⟨hid, hended⟩ := ih (index + 1)
        split_ifs
        · refine ⟨?_, fun result hresult => ?_⟩
          · intro id' count hmem
            rcases List.mem_cons.1 hmem with heq | hmem
            · cases heq
              rfl
            · rcases List.mem_cons.1 hmem with heq | hmem
              · cases heq
              · exact hid id' count hmem
          · exact (hended result hresult).mono fun e he => List.mem_cons_of_mem _ (List.mem_cons_of_mem _ he)
        · simp
    · simp

theorem attemptNode_turn (task : PortableTask) (id : String) (node : NodeInput) (s : Progress) :
    Turn id s (attemptNode task id node s) := by
  obtain ⟨hid, hended⟩ := @tryAttempts_events id (maxRetriesOf task node) node.retryOn 0 node.attempts
  unfold attemptNode
  dsimp only
  split
  · rename_i result hresult
    exact ⟨_, rfl, hid, fun _ _ => hended result hresult⟩
  · exact ⟨_, rfl, hid, by rintro s' ⟨⟩⟩
  · exact ⟨_, rfl, hid, by rintro s' ⟨⟩⟩

theorem mapNode_turn (task : PortableTask) (id : String) (node : NodeInput) (s : Progress) :
    Turn id s (mapNode task id node s) := by
  unfold mapNode
  split
  · exact attemptNode_turn task id node s
  · split
    · exact ⟨[.failed id], rfl, by simp, by rintro s' ⟨⟩⟩
    · rename_i params _
      exact ⟨(attemptNode_turn task id node { s with mapped := s.mapped.set id params.entries }).adds⟩

/-- **One turn of the loop.** -/
theorem evaluateNode_turn (task : PortableTask) (id : String) (node : NodeInput) (s : Progress) :
    Turn id s (evaluateNode task id node s) := by
  unfold evaluateNode
  split_ifs
  · exact ⟨[.taskCancelled], rfl, by simp, by rintro s' ⟨⟩⟩
  · split
    · exact mapNode_turn task id node s
    · split
      · exact ⟨[.failed id], rfl, by simp, by rintro s' ⟨⟩⟩
      · exact ⟨[.skipped id], rfl, by simp, fun _ _ => by simp [Ended]⟩
      · exact mapNode_turn task id node s

/-- **The loop** keeps attempts after what they depend on, where the nodes already left have ended. -/
theorem evaluateNodes_follow {task : PortableTask} {done rest : List String} {s : Progress}
    (htop : Topological (fun d id => (d, id) ∈ dependencies nodes) (done ++ rest))
    (hkeys : ∀ id ∈ rest, id ∈ nodes.keys) (hdone : ∀ d ∈ done, Ended s.events d)
    (h : AttemptsFollow nodes s.events) : AttemptsFollow nodes (evaluateNodes task nodes rest s).progress.events := by
  induction rest generalizing done s with
  | nil => exact h
  | cons id rest ih =>
    obtain ⟨node, hget⟩ := JsMap.get_of_mem_keys (hkeys id List.mem_cons_self)
    obtain ⟨more, hevents, hattempts, hended⟩ := (evaluateNode_turn task id node s).adds
    have hfollow : AttemptsFollow nodes (evaluateNode task id node s).progress.events := by
      rw [hevents]
      refine h.append fun id' count hmem d hd => ?_
      obtain rfl := hattempts id' count hmem
      exact hdone d (htop done id' rest rfl d hd)
    unfold evaluateNodes
    rw [hget]
    dsimp only
    cases hleft : evaluateNode task id node s with
    | onward s' =>
      rw [hleft] at hevents hfollow
      have htop' : Topological (fun d id => (d, id) ∈ dependencies nodes) (done ++ [id] ++ rest) := by simpa using htop
      refine ih htop' (fun id' hid' => hkeys id' (List.mem_cons_of_mem _ hid')) (fun d hd => ?_) hfollow
      change s'.events = _ at hevents
      rw [hevents]
      rcases List.mem_append.1 hd with hd | hd
      · exact (hdone d hd).mono (List.subset_append_left _ _)
      · rw [List.mem_singleton.1 hd]
        exact (hended s' hleft).mono (List.subset_append_right _ _)
    | cancelled s' =>
      rw [hleft] at hfollow
      exact hfollow
    | failed id' cause s' =>
      rw [hleft] at hfollow
      exact hfollow

theorem compensateNodes_quiet (strict : Bool) (ids : List String) (states : JsMap String NodeState) :
    Quiet (compensateNodes nodes strict ids states).events := by
  induction ids generalizing states with
  | nil => simp [compensateNodes, Quiet]
  | cons id rest ih =>
    unfold compensateNodes
    split_ifs
    · exact ih states
    · simp [Quiet]
    all_goals
      intro id' count hmem
      simp only [List.mem_cons, reduceCtorEq, false_or] at hmem
      exact ih _ id' count hmem

theorem compensate_quiet (task : PortableTask) (id : String) (topo : List String) (states : JsMap String NodeState) :
    Quiet (compensate task id topo nodes states).events := by
  unfold compensate
  dsimp only
  split_ifs
  · simp [Quiet]
  · simp [Quiet]
  · exact compensateNodes_quiet _ _ _

theorem transcriptOf_follow (task : PortableTask) (topo : List String) {left : Left}
    (h : AttemptsFollow nodes left.progress.events) : AttemptsFollow nodes (transcriptOf task topo nodes left).events := by
  cases left with
  | onward s => exact h.append_quiet (by simp [Quiet])
  | cancelled s => exact h.append_quiet (by simp [Quiet])
  | failed id cause s =>
    cases cause with
    | condition | inputMapping => exact h.append_quiet (by simp [Quiet])
    | attempts error =>
      refine h.append_quiet fun id' count hmem => ?_
      rcases List.mem_append.1 hmem with hmem | hmem
      · exact compensate_quiet task id topo _ id' count hmem
      · simp at hmem

/-- **Attempts of a task** come after what they depend on. -/
theorem evaluateOrchestration_follow (task : PortableTask) :
    AttemptsFollow (nodeMap task) (evaluateOrchestration task).events := by
  have hquiet : ∀ events, Quiet events → AttemptsFollow (nodeMap task) events := by
    intro events h pre id count post heq
    exact absurd (heq ▸ List.mem_append_right _ List.mem_cons_self) (h id count)
  unfold evaluateOrchestration
  split_ifs
  · split
    · exact hquiet _ (by simp [Quiet, emptyFailure])
    · rename_i topo htopo
      split_ifs
      · exact hquiet _ (by simp [Quiet])
      · have horder := (stableTopology_least htopo).toDependencyOrder
        refine transcriptOf_follow task topo (@evaluateNodes_follow _ task [] _ _ horder.topological
          (fun id hid => horder.perm.mem_iff.1 hid) (fun d hd => absurd hd List.not_mem_nil) (hquiet _ ?_))
        intro id count
        cases task.preflight <;> simp
  · exact hquiet _ (by simp [Quiet, emptyFailure])

/-! ### The transcript of another listing -/

theorem get_of_perm (hp : nodes.entries.Perm nodes'.entries) (id : String) : nodes.get id = nodes'.get id :=
  find_perm hp nodes.nodup id

theorem evaluateNodes_congr {task task' : PortableTask} (hget : ∀ id, nodes.get id = nodes'.get id)
    (hturn : ∀ id node s, evaluateNode task id node s = evaluateNode task' id node s) (ids : List String)
    (s : Progress) : evaluateNodes task nodes ids s = evaluateNodes task' nodes' ids s := by
  induction ids generalizing s with
  | nil => rfl
  | cons id rest ih =>
    unfold evaluateNodes
    rw [hget]
    cases nodes'.get id with
    | none => exact ih s
    | some node =>
      dsimp only
      rw [hturn]
      split
      · exact ih _
      · rfl

theorem compensateNodes_congr (hget : ∀ id, nodes.get id = nodes'.get id) (strict : Bool) (ids : List String)
    (states : JsMap String NodeState) :
    compensateNodes nodes strict ids states = compensateNodes nodes' strict ids states := by
  induction ids generalizing states with
  | nil => rfl
  | cons id rest ih =>
    have hasAction_eq : hasAction nodes id = hasAction nodes' id := by rw [hasAction, hget, hasAction]
    have fails_eq : compensationFails nodes id = compensationFails nodes' id := by
      rw [compensationFails, hget, compensationFails]
    unfold compensateNodes
    rw [hasAction_eq, fails_eq]
    simp only [ih]

theorem compensate_congr (task : PortableTask) (hp : nodes.entries.Perm nodes'.entries) (id : String)
    (topo : List String) (states : JsMap String NodeState) :
    compensate task id topo nodes states = compensate task id topo nodes' states := by
  have hget := get_of_perm hp
  have hdepends : dependsOn nodes = dependsOn nodes' := funext fun id => by rw [dependsOn, hget, dependsOn]
  have haction : hasAction nodes = hasAction nodes' := funext fun id => by rw [hasAction, hget, hasAction]
  have hsize : nodes.size = nodes'.size := hp.length_eq
  have hcandidates : candidates nodes id topo states = candidates nodes' id topo states := by
    unfold candidates ancestors
    rw [hdepends, hsize]
  unfold compensate
  rw [hcandidates, haction]
  simp only [compensateNodes_congr hget]

theorem aggregateResults_congr (task : PortableTask) (hp : nodes.entries.Perm nodes'.entries) (topo : List String)
    (states : JsMap String NodeState) (results : Context) :
    aggregateResults task topo nodes states results = aggregateResults task topo nodes' states results := by
  have hmem (id : String) : id ∈ nodes.values.flatMap NodeInput.dependsOn ↔
      id ∈ nodes'.values.flatMap NodeInput.dependsOn := ((hp.map Prod.snd).flatMap_right _).mem_iff
  unfold aggregateResults
  simp only [hmem]

theorem transcriptOf_congr (task : PortableTask) (hp : nodes.entries.Perm nodes'.entries) (topo : List String)
    (left : Left) : transcriptOf task topo nodes left = transcriptOf task topo nodes' left := by
  cases left with
  | onward s =>
    simp only [transcriptOf, aggregateResults_congr task hp]
  | cancelled s => rfl
  | failed id cause s =>
    cases cause with
    | condition | inputMapping => rfl
    | attempts error =>
      simp only [transcriptOf, failureTranscript, compensate_congr task hp]

def PortableTask.listing (task : PortableTask) (nodes : List NodeInput) : PortableTask := { task with nodes := nodes }

/-- **The transcript does not depend on how the nodes are listed.** -/
theorem evaluateOrchestration_perm (task : PortableTask) {listed : List NodeInput} (hp : task.nodes.Perm listed) :
    evaluateOrchestration (task.listing listed) = evaluateOrchestration task := by
  have hids : (task.nodes.map NodeInput.id).Nodup ↔ ((task.listing listed).nodes.map NodeInput.id).Nodup :=
    (hp.map NodeInput.id).nodup_iff
  by_cases hn : (task.nodes.map NodeInput.id).Nodup
  · have hentries {t : PortableTask} (h : (t.nodes.map NodeInput.id).Nodup) :
        (nodeMap t).entries = t.nodes.map fun node => (node.id, node) :=
      JsMap.ofList_entries (by simpa [List.map_map, Function.comp_def] using h)
    have hmaps : (nodeMap (task.listing listed)).entries.Perm (nodeMap task).entries := by
      rw [hentries hn, hentries (hids.1 hn)]
      exact (hp.map _).symm
    have hget := get_of_perm hmaps
    have hruns (topo : List String) : runNodes (task.listing listed) topo = runNodes task topo :=
      @evaluateNodes_congr _ _ (task.listing listed) task hget (fun _ _ _ => rfl) topo _
    have hpreflight (topo : List String) : preflightFails (task.listing listed) topo = preflightFails task topo := by
      unfold preflightFails
      simp only [hget]
      rfl
    have htranscript (topo : List String) (left : Left) :
        transcriptOf (task.listing listed) topo (nodeMap (task.listing listed)) left =
          transcriptOf task topo (nodeMap task) left := by
      rw [← transcriptOf_congr task hmaps]
      rfl
    unfold evaluateOrchestration
    rw [if_neg (not_not.2 hn), if_neg (not_not.2 (hids.1 hn)), stableTopology_perm hmaps]
    simp only [hruns, hpreflight, htranscript]
  · unfold evaluateOrchestration
    rw [if_pos hn, if_pos (mt hids.2 hn)]

/-- **Deterministic topology.**  There is an order unless a dependency is unknown or the dependencies have a
cycle, and it is the least one; every attempt of a task comes after what its node depends on, and no transcript
depends on how the nodes are listed. -/
theorem deterministic_topology :
    (∀ nodes : NodeMap,
      (stableTopology nodes = none ↔ UnknownDependency nodes ∨ Kahn.Cyclic (dependencies nodes)) ∧
      (∀ l, stableTopology nodes = some l → LeastOrder nodes l)) ∧
    (∀ task : PortableTask, AttemptsFollow (nodeMap task) (evaluateOrchestration task).events) ∧
    ∀ (task : PortableTask) (listed : List NodeInput), task.nodes.Perm listed →
      evaluateOrchestration (task.listing listed) = evaluateOrchestration task :=
  ⟨fun _ => ⟨stableTopology_eq_none_iff, fun _ => stableTopology_least⟩, evaluateOrchestration_follow,
    fun task _ => evaluateOrchestration_perm task⟩

/-- Two nodes, the one that depends on the other twice listed first. -/
def doubledTask : PortableTask where
  nodes := [{ id := "b", dependsOn := ["a", "a"], attempts := [.success none] },
    { id := "a", dependsOn := [], attempts := [.success none] }]

theorem doubledTask_ordered :
    LeastOrder (nodeMap doubledTask) ["a", "b"] ∧
      evaluateOrchestration (doubledTask.listing doubledTask.nodes.reverse) = evaluateOrchestration doubledTask :=
  ⟨(deterministic_topology.1 _).2 _ (by decide +kernel),
    deterministic_topology.2.2 doubledTask _ (List.reverse_perm _).symm⟩

end PortableProfile

end NpsSdk.Nop
