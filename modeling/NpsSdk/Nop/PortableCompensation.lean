import NpsSdk.Nop.PortableTopology

/-!
# Compensation in the portable profile

A task that fails is to compensate what the failed node depends on.  The loop does so where the attempts of the
node fail; where its condition or its input mapping fails, the task ends without compensation.
-/

namespace NpsSdk.Nop

open NpsSdk.Lib

open Relation

namespace PortableProfile

variable {nodes : NodeMap} {l : List String}

/-! ### Candidates -/

/-- A node depends on another one, over any number of nodes. -/
def Needs (nodes : NodeMap) (id d : String) : Prop := TransGen (fun d id => (d, id) ∈ dependencies nodes) d id

theorem mem_dependsOn {d id : String} : d ∈ dependsOn nodes id ↔ (d, id) ∈ dependencies nodes := by
  rw [mem_dependencies, dependsOn]
  cases nodes.get id <;> simp

theorem mem_ancestors_iff (hknown : ∀ e ∈ dependencies nodes, e.1 ∈ nodes.keys) {id d : String} (hid : id ∈ nodes.keys) :
    d ∈ ancestors nodes id ↔ Needs nodes id d := by
  have hfuel : nodes.keys.length < nodes.size + 1 := by
    rw [nodes.length_keys]
    exact Nat.lt_succ_self _
  have hnext : ∀ x ∈ nodes.keys, ∀ d ∈ dependsOn nodes x, d ∈ nodes.keys := fun x _ d hd =>
    hknown (d, x) (mem_dependsOn.1 hd)
  rw [ancestors, mem_collect_iff hnext hid hfuel, Needs, ← transGen_swap]
  simp only [mem_dependsOn]

theorem sublist_of_precedes {u v : String} (h : Precedes l u v) : [u, v].Sublist l := by
  obtain ⟨pre, post, rfl, hu⟩ := h
  exact (List.singleton_sublist.2 hu).append (List.singleton_sublist.2 List.mem_cons_self)

theorem precedes_reverse_filter {p : String → Bool} {u v : String} (h : Precedes l u v) (hu : p u) (hv : p v) :
    Precedes (l.filter p).reverse v u := by
  refine precedes_of_sublist ?_
  have hfilter := (sublist_of_precedes h).filter p
  rw [List.filter_cons_of_pos hu, List.filter_cons_of_pos hv] at hfilter
  simpa using hfilter.reverse

/-! ### The order of compensation -/

theorem compensateNodes_spec (strict : Bool) (ids : List String) (states : JsMap String NodeState) :
    let c := compensateNodes nodes strict ids states
    (c.error = none ∧ c.order = ids.filter (hasAction nodes)) ∨
      (strict = true ∧ c.error = some nopCompensationFailed ∧ ∃ a ∈ c.order, compensationFails nodes a) := by
  induction ids generalizing states with
  | nil => exact .inl ⟨rfl, rfl⟩
  | cons id rest ih =>
    dsimp only at ih ⊢
    unfold compensateNodes
    split_ifs with hskip hfails hstrict
    · have hnot : ¬ hasAction nodes id := by simpa using hskip
      rw [List.filter_cons_of_neg hnot]
      exact ih states
    · exact .inr ⟨hstrict, rfl, id, List.mem_singleton_self id, hfails⟩
    all_goals
      have hact : hasAction nodes id := by simpa using hskip
      rw [List.filter_cons_of_pos hact]
      refine (ih _).imp (fun h => ⟨h.1, congrArg _ h.2⟩) ?_
      rintro ⟨h1, h2, a, ha, hfail⟩
      exact ⟨h1, h2, a, List.mem_cons_of_mem _ ha, hfail⟩

/-! ### The failed node -/

def Compensating (task : PortableTask) : Prop :=
  task.compensationPolicy = some "best_effort" ∨ task.compensationPolicy = some "strict"

/-- The loop before its first turn. -/
def startProgress (task : PortableTask) : Progress :=
  { events := (if task.preflight then [.preflight] else []) ++ [.running] }

/-- The task fails at a node, with what the loop has come to before its turn. -/
structure FailsAt (task : PortableTask) (id : String) (node : NodeInput) (s : Progress) : Prop where
  ids : (task.nodes.map NodeInput.id).Nodup
  found : (nodeMap task).get id = some node
  run : ∃ done rest, stableTopology (nodeMap task) = some (done ++ id :: rest) ∧
    preflightFails task (done ++ id :: rest) = false ∧
    evaluateNodes task (nodeMap task) done (startProgress task) = .onward s
  fails : ∃ cause s', evaluateNode task id node s = .failed id cause s'

structure Owed (task : PortableTask) (id : String) (s : Progress) (a : String) : Prop where
  needed : Needs (nodeMap task) id a
  completed : s.states.get a = some .completed
  action : hasAction (nodeMap task) a

def StopsStrict (task : PortableTask) (id : String) (s : Progress) (t : Transcript) : Prop :=
  task.compensationPolicy = some "strict" ∧
    ((∃ a, Needs (nodeMap task) id a ∧ s.states.get a = some .completed ∧ ¬ hasAction (nodeMap task) a) ∧
        t.errorCode = some nopCompensationNotSupported ∨
      (∃ a ∈ t.compensationOrder, compensationFails (nodeMap task) a) ∧ t.errorCode = some nopCompensationFailed)

def CompensatesAll (task : PortableTask) (id : String) (s : Progress) (t : Transcript) : Prop :=
  ∀ a, Owed task id s a → t.compensationOrder.count a = 1 ∧
    ∀ b ∈ t.compensationOrder, Needs (nodeMap task) b a → Precedes t.compensationOrder b a

/-- Compensation, whatever made the node fail. -/
def Compensates (task : PortableTask) : Prop :=
  Compensating task → ∀ id node s, FailsAt task id node s →
    CompensatesAll task id s (evaluateOrchestration task) ∨ StopsStrict task id s (evaluateOrchestration task)

/-- Neither the condition nor the input mapping of a node fails. -/
def Startable (node : NodeInput) (results : Context) : Prop :=
  (∀ condition, node.condition = some condition → ∃ b, evaluateCondition condition results = .ok b) ∧
    ∀ mapping, node.inputMapping = some mapping → (mapParams results mapping JsMap.empty).isSome

/-! ### The run to the failed node -/

theorem evaluateNodes_append (task : PortableTask) (done rest : List String) (s : Progress) :
    evaluateNodes task nodes (done ++ rest) s =
      match evaluateNodes task nodes done s with
      | .onward s => evaluateNodes task nodes rest s
      | left => left := by
  induction done generalizing s with
  | nil => rfl
  | cons id done ih =>
    rw [List.cons_append, evaluateNodes, evaluateNodes]
    cases nodes.get id with
    | none => exact ih s
    | some node =>
      dsimp only
      cases evaluateNode task id node s with
      | onward s' => exact ih s'
      | cancelled s' => rfl
      | failed id' cause s' => rfl

variable {task : PortableTask}

theorem FailsAt.transcript {id : String} {node : NodeInput} {s s' : Progress}
    {cause : FailureCause} (h : FailsAt task id node s) (hfails : evaluateNode task id node s = .failed id cause s') :
    ∃ topo, stableTopology (nodeMap task) = some topo ∧
      evaluateOrchestration task = failureTranscript task topo (nodeMap task) id s' cause := by
  obtain ⟨done, rest, htopo, hpreflight, hrun⟩ := h.run
  refine ⟨_, htopo, ?_⟩
  have hnodes : runNodes task (done ++ id :: rest) = .failed id cause s' := by
    have happend := @evaluateNodes_append (nodeMap task) task done (id :: rest) (startProgress task)
    rw [hrun] at happend
    dsimp only at happend
    rw [evaluateNodes, h.found] at happend
    dsimp only at happend
    rw [hfails] at happend
    exact happend
  unfold evaluateOrchestration
  rw [if_neg (not_not.2 h.ids), htopo]
  dsimp only
  rw [if_neg (by rw [hpreflight]; exact Bool.false_ne_true), hnodes]
  rfl

/-- What a node leaves when it fails: its attempts were made just where its condition and its input mapping did
not fail, and no other node's state is changed. -/
theorem evaluateNode_failed {id id' : String} {node : NodeInput} {s s' : Progress}
    {cause : FailureCause} (h : evaluateNode task id node s = .failed id' cause s') :
    id' = id ∧ (∀ a, a ≠ id → s'.states.get a = s.states.get a) ∧
      (Startable node s.results ↔ ∃ error, cause = .attempts error) := by
  have hattempts (s₀ : Progress) (hs₀ : s₀.states = s.states)
      (h : attemptNode task id node s₀ = .failed id' cause s') :
      id' = id ∧ (∀ a, a ≠ id → s'.states.get a = s.states.get a) ∧ ∃ error, cause = .attempts error := by
    unfold attemptNode at h
    dsimp only at h
    split at h <;> cases h
    · refine ⟨rfl, fun a ha => ?_, _, rfl⟩
      rw [← hs₀]
      exact JsMap.get_set_ne _ _ ha
    · exact ⟨rfl, fun a _ => by rw [← hs₀], _, rfl⟩
  have hmap : mapNode task id node s = .failed id' cause s' →
      id' = id ∧ (∀ a, a ≠ id → s'.states.get a = s.states.get a) ∧
        ((∀ mapping, node.inputMapping = some mapping → (mapParams s.results mapping JsMap.empty).isSome) ↔
          ∃ error, cause = .attempts error) := by
    intro h
    unfold mapNode at h
    split at h
    · rename_i hnone
      obtain ⟨hid, hstates, hcause⟩ := hattempts s rfl h
      exact ⟨hid, hstates, iff_of_true (fun mapping hm => by rw [hnone] at hm; cases hm) hcause⟩
    · rename_i mapping hmapping
      split at h
      · rename_i hfail
        cases h
        refine ⟨rfl, fun a ha => JsMap.get_set_ne _ _ ha, iff_of_false (fun hall => ?_) ?_⟩
        · have := hall mapping hmapping
          rw [hfail] at this
          cases this
        · rintro ⟨error, ⟨⟩⟩
      · rename_i params hparams
        obtain ⟨hid, hstates, hcause⟩ := hattempts { s with mapped := s.mapped.set id params.entries } rfl h
        refine ⟨hid, hstates, iff_of_true (fun m hm => ?_) hcause⟩
        rw [hmapping] at hm
        cases hm
        rw [hparams]
        rfl
  unfold evaluateNode at h
  split_ifs at h with hcancel
  split at h
  · rename_i hnone
    obtain ⟨hid, hstates, hcause⟩ := hmap h
    refine ⟨hid, hstates, (and_iff_right fun condition hc => ?_).trans hcause⟩
    rw [hnone] at hc
    cases hc
  · rename_i condition hcondition
    split at h
    · rename_i error herror
      cases h
      refine ⟨rfl, fun a ha => JsMap.get_set_ne _ _ ha, iff_of_false (fun hs => ?_) ?_⟩
      · obtain ⟨b, hb⟩ := hs.1 condition hcondition
        rw [herror] at hb
        cases hb
      · rintro ⟨error, ⟨⟩⟩
    · cases h
    · rename_i htrue
      obtain ⟨hid, hstates, hcause⟩ := hmap h
      refine ⟨hid, hstates, (and_iff_right fun c hc => ?_).trans hcause⟩
      rw [hcondition] at hc
      cases hc
      exact ⟨_, htrue⟩

/-! ### What is compensated -/

/-- A task that fails by its attempts compensates what it owes. -/
theorem compensates_of_attempts {id : String} {s s' : Progress} {topo : List String}
    {error : Option String} (hpolicy : Compensating task) (hid : id ∈ (nodeMap task).keys)
    (htopo : stableTopology (nodeMap task) = some topo) (hstates : ∀ a, a ≠ id → s'.states.get a = s.states.get a) :
    let t := failureTranscript task topo (nodeMap task) id s' (.attempts error)
    CompensatesAll task id s t ∨ StopsStrict task id s t := by
  obtain ⟨hunknown, hcyclic⟩ := not_or.1 (mt stableTopology_eq_none_iff.2 (by rw [htopo]; exact Option.some_ne_none _))
  have hknown : ∀ e ∈ dependencies (nodeMap task), e.1 ∈ (nodeMap task).keys := by
    intro e he
    by_contra hc
    exact hunknown ⟨e, he, hc⟩
  have horder := (stableTopology_least htopo).toDependencyOrder
  have hn : topo.Nodup := horder.perm.nodup_iff.2 (nodeMap task).keys_nodup
  have hneeds {a : String} (ha : Needs (nodeMap task) id a) : s'.states.get a = s.states.get a :=
    hstates a (by rintro rfl; exact hcyclic ⟨a, ha⟩)
  -- the candidates are what is needed and completed
  have hmem (a : String) : a ∈ candidates (nodeMap task) id topo s'.states ↔
      Needs (nodeMap task) id a ∧ s.states.get a = some .completed := by
    simp only [candidates, List.mem_reverse, List.mem_filter, Bool.and_eq_true, decide_eq_true_eq, beq_iff_eq,
      mem_ancestors_iff hknown hid]
    constructor
    · rintro ⟨-, ha, hs⟩
      exact ⟨ha, hneeds ha ▸ hs⟩
    · rintro ⟨ha, hs⟩
      refine ⟨?_, ha, (hneeds ha).trans hs⟩
      obtain ⟨b, hb, -⟩ := TransGen.head'_iff.1 ha
      exact horder.perm.mem_iff.2 (hknown _ hb)
  dsimp only
  simp only [failureTranscript, compensate]
  rw [if_neg (by rcases hpolicy with h | h <;> simp [h])]
  split_ifs with hmissing
  · obtain ⟨hstrict, a, ha, hnone⟩ : task.compensationPolicy = some "strict" ∧
        ∃ a ∈ candidates (nodeMap task) id topo s'.states, ¬ hasAction (nodeMap task) a := by simpa using hmissing
    obtain ⟨hneed, hdone⟩ := (hmem a).1 ha
    exact .inr ⟨hstrict, .inl ⟨⟨a, hneed, hdone, hnone⟩, rfl⟩⟩
  · rcases @compensateNodes_spec (nodeMap task) (task.compensationPolicy == some "strict")
      (candidates (nodeMap task) id topo s'.states) s'.states with ⟨-, heq⟩ | ⟨hstrict, herror, hfail⟩
    · left
      intro a ha
      have hlisted : a ∈ (candidates (nodeMap task) id topo s'.states).filter (hasAction (nodeMap task)) :=
        List.mem_filter.2 ⟨(hmem a).2 ⟨ha.needed, ha.completed⟩, ha.action⟩
      dsimp only
      rw [heq]
      refine ⟨List.count_eq_one_of_mem ((List.nodup_reverse.2 (hn.filter _)).filter _) hlisted, fun b hb hba => ?_⟩
      rw [candidates, List.filter_reverse, List.filter_filter] at hlisted hb ⊢
      obtain ⟨hbt, hb⟩ := List.mem_filter.1 (List.mem_reverse.1 hb)
      obtain ⟨-, ha'⟩ := List.mem_filter.1 (List.mem_reverse.1 hlisted)
      exact precedes_reverse_filter (horder.topological.transGen.precedes hba hbt) ha' hb
    · exact .inr ⟨by simpa using hstrict, .inr ⟨hfail, by rw [herror]; rfl⟩⟩

/-- **Compensation** is made just where the node fails by its attempts, or nothing is owed. -/
theorem compensates_iff (task : PortableTask) :
    Compensates task ↔
      (Compensating task → ∀ id node s, FailsAt task id node s →
        Startable node s.results ∨ ∀ a, ¬ Owed task id s a) := by
  refine forall_congr' fun hpolicy => forall₃_congr fun id node s => forall_congr' fun hat => ?_
  obtain ⟨cause, s', hfails⟩ := hat.fails
  obtain ⟨-, hstates, hstartable⟩ := evaluateNode_failed hfails
  obtain ⟨topo, htopo, heq⟩ := hat.transcript hfails
  rw [heq, hstartable]
  -- without attempts nothing is compensated, and the error is another one
  have hnothing : ∀ {error : String}, error ≠ nopCompensationNotSupported → error ≠ nopCompensationFailed →
      ∀ t : Transcript, t.compensationOrder = [] → t.errorCode = some error →
        (CompensatesAll task id s t ∨ StopsStrict task id s t ↔ ∀ a, ¬ Owed task id s a) := by
    intro error hsupported hfailed t horder herror
    constructor
    · rintro (hall | ⟨-, ⟨-, hc⟩ | ⟨-, hc⟩⟩) a ha
      · have := (hall a ha).1
        rw [horder, List.count_nil] at this
        cases this
      · exact hsupported (Option.some.inj (herror.symm.trans hc))
      · exact hfailed (Option.some.inj (herror.symm.trans hc))
    · exact fun hnone => .inl fun a ha => absurd ha (hnone a)
  cases cause with
  | condition =>
    rw [hnothing (by decide) (by decide) _ rfl rfl]
    exact (or_iff_right (by rintro ⟨error, ⟨⟩⟩)).symm
  | inputMapping =>
    rw [hnothing (by decide) (by decide) _ rfl rfl]
    exact (or_iff_right (by rintro ⟨error, ⟨⟩⟩)).symm
  | attempts error =>
    exact iff_of_true (compensates_of_attempts hpolicy (JsMap.mem_keys_of_get hat.found) htopo hstates)
      (.inl ⟨error, rfl⟩)

/-- A node whose condition cannot be read. -/
def unreadableNode : NodeInput where
  id := "b"
  dependsOn := ["a"]
  attempts := [.success none]
  condition := some "("

/-- The node depends on `a`, which is to be undone. -/
def unreadableTask : PortableTask where
  nodes := [{ id := "a", dependsOn := [], attempts := [.success none], compensateAction := some (.str "undo") },
    unreadableNode]
  compensationPolicy := some "best_effort"

/-- What the loop has come to before the node. -/
def unreadableProgress : Progress where
  events := [.running, .attempt "a" 1, .completed "a"]
  results := JsMap.empty.set "a" (some (.obj []))
  states := JsMap.empty.set "a" .completed
  attempts := JsMap.empty.set "a" 1

theorem evaluateNode_unreadable : evaluateNode unreadableTask "b" unreadableNode unreadableProgress =
    .failed "b" .condition (unreadableProgress.reject "b") := rfl

theorem unreadableTask_fails : FailsAt unreadableTask "b" unreadableNode unreadableProgress where
  ids := by decide
  found := rfl
  run := ⟨["a"], [], by decide, rfl, rfl⟩
  fails := ⟨_, _, evaluateNode_unreadable⟩

theorem unreadableTask_uncompensated : ¬ Compensates unreadableTask := by
  intro h
  obtain ⟨topo, -, heq⟩ := unreadableTask_fails.transcript evaluateNode_unreadable
  have howed : Owed unreadableTask "b" unreadableProgress "a" := ⟨.single (by decide), rfl, rfl⟩
  rcases h (.inl rfl) _ _ _ unreadableTask_fails with hall | ⟨hstrict, -⟩
  · have hcount := (hall "a" howed).1
    rw [heq] at hcount
    cases hcount
  · exact absurd hstrict (by decide)

end PortableProfile

end NpsSdk.Nop
