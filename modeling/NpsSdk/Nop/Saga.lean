import NpsSdk.Nop.Scheduling

/-!
# Compensation after a failure

When a task fails, the nodes that completed are compensated one after the other.  What the
compensation knows is what the main loop has recorded: a node that succeeds while the loop already
waits for the rest to settle is not recorded, and a run that leaves through a timeout compensates
nothing more.  `SagaSafe` excludes these steps; in a run that makes none of them, a failed task has
compensated exactly the nodes that succeeded and can be compensated, each once, and each before
everything it depends on.
-/

namespace NpsSdk.Nop

open NpsSdk.Lib Relation

variable {env : Env} {task : TaskFrame}

/-! ### The property -/

def DependsOn (dag : TaskDag) (u v : String) : Prop :=
  (u, v) ∈ dag.pairs ∨ ∃ n ∈ dag.nodes, n.id = v ∧ u ∈ n.inputFrom

/-- The nodes for which a compensation call was made, in order. -/
def undone (s : Run) : List String := s.compensations.map DelegateFrame.nodeId

structure Undone (task : TaskFrame) (s : Run) : Prop where
  /-- No node received two calls. -/
  nodup : (undone s).Nodup
  /-- The nodes that received a call. -/
  exactly : ∀ id, id ∈ undone s ↔ id ∈ s.succeeded ∧ hasCompensation task.dag id = true
  /-- No node is compensated before one that depends on it. -/
  reversed : (undone s).Pairwise fun a b => ¬ TransGen (DependsOn task.dag) a b

/-! ### The condition -/

def NothingToUndo (task : TaskFrame) (s : Run) : Prop :=
  ∀ id ∈ s.succeeded, hasCompensation task.dag id = false

/-- The `catch` of `execute` would report a timeout. -/
def Expires (s : Run) (thrown : Thrown) : Prop :=
  s.signalAborted = false ∧ (s.timedOut = true ∨ thrown = .abort)

/-- The nodes to compensate have mappings that resolve, and an order that respects the inputs that
no path of edges covers. -/
structure Undoable (task : TaskFrame) (order : List String) (s : Run) : Prop where
  mappings : ∀ n ∈ task.dag.nodes, n.id ∈ s.succeeded → hasCompensation task.dag n.id = true →
    MappingResolves n.compensateParamsMapping
  ordered : ∀ u ∈ s.succeeded, ∀ v ∈ s.succeeded, hasCompensation task.dag u = true →
    hasCompensation task.dag v = true → TransGen (DependsOn task.dag) u v →
    ¬ TransGen (fun a b => (a, b) ∈ task.dag.pairs) u v → Precedes order u v

/-- The steps after which the compensation can be complete. -/
structure SagaSafe (env : Env) (task : TaskFrame) (order : List String) (s : Run) (e : Event) :
    Prop where
  before : Undoable task order s
  after : Undoable task order (deliver env task s e)
  /-- The stream of a node to compensate does not throw after its successful final frame. -/
  streams : ∀ id answer f, e = .answered id answer → s.inFlight.get id = some f →
    answer.throws = true → hasCompensation task.dag id = true →
    (readStream env f.node.agent 0 answer.frames).isSuccess = false
  /-- When the loop gives up, none of the nodes it waited for is to be compensated. -/
  settled : ∀ message, e = .wake → s.phase = .settling message →
    (s.inFlight.values.all fun f => f.phase.isSettled) = true →
    ∀ id ∈ s.inFlight.keys, id ∈ s.succeeded → hasCompensation task.dag id = false
  /-- A run that times out in the race has nothing to compensate. -/
  rejected : ∀ id f thrown, e = .wake → s.phase = .racing (some id) → s.inFlight.get id = some f →
    f.phase = .settled (.error thrown) → Expires s thrown → NothingToUndo task s
  /-- Nor has a run that times out at the head of the loop. -/
  aborted : (deliver env task s e).phase = .looping →
    (deliver env task s e).nodeStates.size < (allNodes task.dag).size →
    (deliver env task s e).aborted = true → Expires (deliver env task s e) .abort → NothingToUndo task (deliver env task s e)
  /-- No run times out while the target of a compensation is resolved. -/
  unresolved : ∀ c answer err, e = .compensationResolved answer → s.phase = .compensating c →
    c.pending.isSome = true → resolveTarget env c.current answer = .error err → ¬ Expires s .error
  /-- A run that times out during a compensation does so during the last. -/
  interrupted : ∀ c answer thrown, e = .compensationAnswered answer → s.phase = .compensating c →
    c.pending = none → finishOnce env task c.current s.aborted answer = .error thrown →
    Expires s thrown → c.todo = []

/-! ### The order of the compensation -/

def undoOrder (task : TaskFrame) (s : Run) : List String :=
  (completedReversed task s).filter (hasCompensation task.dag)

variable {s : Run} {id : String}

theorem mem_undoOrder :
    id ∈ undoOrder task s ↔ id ∈ s.order ∧ s.nodeStates.get id = some .completed ∧
      hasCompensation task.dag id = true := by
  simp only [undoOrder, completedReversed, List.mem_filter, List.mem_reverse, Bool.and_eq_true, beq_iff_eq]
  constructor
  · rintro ⟨⟨h1, h2, -⟩, h3⟩
    exact ⟨h1, h2, h3⟩
  · rintro ⟨h1, h2, h3⟩
    refine ⟨⟨h1, h2, ?_⟩, h3⟩
    unfold hasCompensation at h3
    split at h3
    · cases h3
    · rename_i hget
      simp [JsMap.has, hget]

/-- The main loop is over and everything that can be compensated is recorded. -/
structure Undoing (task : TaskFrame) (s : Run) : Prop where
  idle : ∀ id, s.inFlight.get id = none
  completed : ∀ id, s.nodeStates.get id = some .completed → id ∈ s.succeeded
  known : ∀ id ∈ s.succeeded, hasCompensation task.dag id = true →
    s.nodeStates.get id = some .completed
  ids : ∀ id ∈ s.succeeded, id ∈ s.order

theorem Undoing.undone {v : DagValidation} (hv : validateDag task.dag = .ok v)
    (ho : s.order = v.topologicalOrder) (h : Undoing task s) (hu : Undoable task s.order s)
    (heq : Nop.undone s = undoOrder task s) : Undone task s := by
  obtain ⟨hperm, hnodup, htopo⟩ := validateDag_order hv
  rw [← ho] at hperm hnodup htopo
  have hmem : ∀ id, id ∈ undoOrder task s ↔ id ∈ s.succeeded ∧ hasCompensation task.dag id = true := by
    intro id
    rw [mem_undoOrder]
    constructor
    · rintro ⟨-, h2, h3⟩
      exact ⟨h.completed id h2, h3⟩
    · rintro ⟨h1, h2⟩
      exact ⟨h.ids id h1, h.known id h1 h2, h2⟩
  constructor
  · rw [heq]
    exact (List.nodup_reverse.2 (hnodup.filter _)).filter _
  · intro id
    rw [heq, hmem]
  · rw [heq]
    have hrev : (undoOrder task s).Pairwise fun a b => ¬ Precedes s.order a b :=
      (List.pairwise_reverse.2 ((pairwise_not_precedes hnodup).filter _)).filter _
    refine hrev.imp_of_mem fun {a b} ha hb hnot htg => hnot ?_
    obtain ⟨ha1, ha2⟩ := (hmem a).1 ha
    obtain ⟨hb1, hb2⟩ := (hmem b).1 hb
    by_cases hedge : TransGen (fun a b => (a, b) ∈ task.dag.pairs) a b
    · exact htopo.transGen.precedes hedge (h.ids b hb1)
    · exact hu.ordered a ha1 b hb1 ha2 hb2 htg hedge

/-! ### While the loop goes on -/

def Arrived (s : Run) (id : String) : Prop :=
  ∃ f outcome, s.inFlight.get id = some f ∧ f.phase = .settled (.ok outcome) ∧
    outcome.state = .completed

/-- While the main loop goes on, the nodes that succeeded and can be compensated are recorded as
completed or wait to be. -/
structure Racing (task : TaskFrame) (s : Run) : Prop where
  quiet : s.compensations = []
  flightIds : ∀ id ∈ s.inFlight.keys, id ∈ task.dag.ids
  disjoint : ∀ id, id ∈ s.inFlight.keys → s.nodeStates.get id = none
  completed : ∀ id, s.nodeStates.get id = some .completed → id ∈ s.succeeded
  arrived : ∀ id, Arrived s id → id ∈ s.succeeded
  known : ∀ id ∈ s.succeeded, hasCompensation task.dag id = true →
    s.nodeStates.get id = some .completed ∨ Arrived s id
  ids : ∀ id ∈ s.succeeded, id ∈ task.dag.ids

/-- Two states that agree on what `Racing` reads. -/
theorem Racing.congr {s s' : Run} (h : Racing task s) (h1 : s'.compensations = s.compensations)
    (h2 : s'.inFlight = s.inFlight) (h3 : s'.nodeStates = s.nodeStates)
    (h4 : s'.succeeded = s.succeeded) : Racing task s' := by
  have ha : ∀ id, Arrived s' id ↔ Arrived s id := fun id => by simp only [Arrived, h2]
  obtain ⟨a1, a2, a3, a4, a5, a6, a7⟩ := h
  exact ⟨by rwa [h1], by rwa [h2], by rwa [h2, h3], by rwa [h3, h4],
    fun id hid => h4 ▸ a5 id ((ha id).1 hid),
    fun id hid hc => by rw [h3, ha]; exact a6 id (h4 ▸ hid) hc, by rwa [h4]⟩

variable {f : InFlight}

theorem arrived_set {s s' : Run} (hs : s'.inFlight = s.inFlight.set id f) (id' : String) :
    Arrived s' id' ↔ (id' = id ∧ ∃ outcome, f.phase = .settled (.ok outcome) ∧
      outcome.state = .completed) ∨ (id' ≠ id ∧ Arrived s id') := by
  simp only [Arrived, hs, JsMap.get_set]
  by_cases h : id' = id
  · simp [h]
  · simp [h]

theorem Racing.move {s s' : Run} (h : Racing task s) {f f' : InFlight}
    (hget : s.inFlight.get id = some f) (hf : f.phase.isSettled = false)
    (hf' : ∀ outcome, f'.phase = .settled (.ok outcome) → outcome.state ≠ .completed)
    (h1 : s'.compensations = s.compensations) (h2 : s'.inFlight = s.inFlight.set id f')
    (h3 : s'.nodeStates = s.nodeStates) (h4 : s'.succeeded = s.succeeded) : Racing task s' := by
  have hid := JsMap.mem_keys_of_get hget
  have hnot : ¬ Arrived s id := by
    rintro ⟨g, o, hg, hp, -⟩
    rw [hget] at hg
    cases hg
    rw [hp] at hf
    cases hf
  have hkeys : ∀ id' ∈ s'.inFlight.keys, id' ∈ s.inFlight.keys := by
    intro id' hid'
    rw [h2, JsMap.mem_keys_set] at hid'
    rcases hid' with rfl | hid'
    · exact hid
    · exact hid'
  refine ⟨by rw [h1]; exact h.quiet, fun i hi => h.flightIds i (hkeys i hi),
    fun i hi => by rw [h3]; exact h.disjoint i (hkeys i hi), by rw [h3, h4]; exact h.completed,
    ?_, ?_, by rw [h4]; exact h.ids⟩
  · intro i hi
    rw [h4]
    rcases (arrived_set h2 i).1 hi with ⟨-, o, ho, hc⟩ | ⟨-, hi⟩
    · exact absurd hc (hf' o ho)
    · exact h.arrived i hi
  · intro i hi hc
    rw [h3]
    rw [h4] at hi
    refine (h.known i hi hc).imp (fun h => h) fun ha => (arrived_set h2 i).2 (.inr ⟨?_, ha⟩)
    rintro rfl
    exact hnot ha

theorem beginAttempt_not_completed {node : DagNode} {subtaskId key : String} {attempt : ℕ} {outcome : NodeOutcome}
    (h : beginAttempt env task s node subtaskId key attempt = .settled (.ok outcome)) :
    outcome.state ≠ .completed := by
  have hprep : ∀ {failed o : NodeOutcome}, prepare env task node subtaskId key s.nodeResults s.ticks = .error failed →
      afterOnce task node attempt (.ok failed) = .settled (.ok o) → o.state ≠ .completed := by
    intro failed o hp ho
    cases afterOnce_settled ho
    rw [prepare_error_failed hp]
    decide
  unfold beginAttempt at h
  split_ifs at h with h1 h2 h3
  · cases h
    rintro ⟨⟩
  · cases h
  · split at h
    · rename_i hc
      cases h
      unfold conditionOutcome at hc
      split at hc
      · cases hc
      · split at hc <;> cases hc <;> rintro ⟨⟩
    · split at h
      · exact hprep ‹_› h
      · cases h
  · dsimp only at h
    split at h
    · exact hprep ‹_› h
    · cases h

/-- The worker's answer is recorded as a success exactly when the node arrives. -/
theorem Racing.answered (h : Racing task s) (hfin : s.phase.isFinished = false)
    {answer : StreamAnswer} (hget : s.inFlight.get id = some f) (hf : f.phase = .delegated)
    (hquiet : answer.throws = true → hasCompensation task.dag id = true →
      (readStream env f.node.agent 0 answer.frames).isSuccess = false) :
    Racing task (onAnswered env task s id answer) := by
  have hid := JsMap.mem_keys_of_get hget
  have hnot : ¬ Arrived s id := by
    rintro ⟨g, o, hg, hp, -⟩
    rw [hget] at hg
    cases hg
    rw [hp] at hf
    cases hf
  simp only [onAnswered, hget, hf, hfin, Bool.not_false, Bool.and_true]
  split_ifs with hsucc
  · set f' : InFlight := { f with
      phase := afterOnce task f.node f.attempt (finishOnce env task f.node s.aborted answer) }
    have hin : (setPhase s id f').inFlight = s.inFlight.set id f' := rfl
    constructor
    · exact h.quiet
    · intro i hi
      rcases (JsMap.mem_keys_set _ _ _ _).1 hi with rfl | hi
      · exact h.flightIds _ hid
      · exact h.flightIds i hi
    · intro i hi
      rcases (JsMap.mem_keys_set _ _ _ _).1 hi with rfl | hi
      · exact h.disjoint _ hid
      · exact h.disjoint i hi
    · exact fun i hi => List.mem_append_left _ (h.completed i hi)
    · intro i hi
      rcases (arrived_set hin i).1 hi with ⟨rfl, -⟩ | ⟨-, hi⟩
      · simp
      · exact List.mem_append_left _ (h.arrived i hi)
    · intro i hi hc
      by_cases hii : i = id
      · subst hii
        right
        refine (arrived_set hin i).2 (.inl ⟨rfl, (readStream env f.node.agent 0 answer.frames).outcome,
          ?_, by simpa [Reading.isSuccess] using hsucc⟩)
        have hthrow : answer.throws = false := by
          by_contra ht
          rw [hquiet (by simpa using ht) hc] at hsucc
          cases hsucc
        have hcomp : (readStream env f.node.agent 0 answer.frames).outcome.state = .completed := by
          simpa [Reading.isSuccess] using hsucc
        simp [f', finishOnce, hthrow, afterOnce, hcomp]
      · have hi' : i ∈ s.succeeded := by simpa [hii] using hi
        exact (h.known i hi' hc).imp (fun h => h) fun ha => (arrived_set hin i).2 (.inr ⟨hii, ha⟩)
    · intro i hi
      rcases List.mem_append.1 hi with hi | hi
      · exact h.ids i hi
      · rw [List.mem_singleton.1 hi]
        exact h.flightIds id hid
  · refine h.move hget (by rw [hf]; rfl) ?_ rfl rfl rfl rfl
    intro o ho hc
    have := afterOnce_settled ho
    unfold finishOnce at this
    split_ifs at this
    · cases this
      cases hc
    · cases this
      exact hsucc (by simp [Reading.isSuccess, hc])

theorem Racing.recordOutcome (h : Racing task s) {outcome : NodeOutcome} (hget : s.inFlight.get id = some f)
    (hf : f.phase = .settled (.ok outcome)) : Racing task (recordOutcome s id outcome) := by
  have hid := JsMap.mem_keys_of_get hget
  have harr : ∀ i, Arrived (Nop.recordOutcome s id outcome) i ↔ i ≠ id ∧ Arrived s i := by
    intro i
    simp only [Arrived, Nop.recordOutcome, JsMap.get_delete]
    by_cases hi : i = id <;> simp [hi]
  constructor
  · exact h.quiet
  · intro i hi
    exact h.flightIds i ((JsMap.mem_keys_delete _ _ _).1 hi).1
  · intro i hi
    obtain ⟨hi1, hi2⟩ := (JsMap.mem_keys_delete _ _ _).1 hi
    simp only [Nop.recordOutcome, JsMap.get_set, hi2, if_false]
    exact h.disjoint i hi1
  · intro i hi
    simp only [Nop.recordOutcome, JsMap.get_set] at hi
    split_ifs at hi with hii
    · rw [hii]
      exact h.arrived id ⟨f, outcome, hget, hf, Option.some.inj hi⟩
    · exact h.completed i hi
  · exact fun i hi => h.arrived i ((harr i).1 hi).2
  · intro i hi hc
    by_cases hii : i = id
    · subst hii
      left
      simp only [Nop.recordOutcome, JsMap.get_set_self]
      rcases h.known i hi hc with hst | ⟨g, o, hg, hp, ho⟩
      · rw [h.disjoint i hid] at hst
        cases hst
      · rw [hget] at hg
        cases hg
        rw [hf] at hp
        cases hp
        rw [ho]
    · rcases h.known i hi hc with hst | ha
      · left
        simp only [Nop.recordOutcome, JsMap.get_set, hii, if_false]
        exact hst
      · exact .inr ((harr i).2 ⟨hii, ha⟩)
  · exact h.ids

/-! ### The head of the loop -/

theorem Racing.recordFail (h : Racing task s) {n : DagNode}
    (h1 : s.nodeStates.get n.id = none) (h2 : n.id ∉ s.inFlight.keys) : Racing task (recordFail s n) := by
  refine ⟨h.quiet, h.flightIds, ?_, ?_, h.arrived, ?_, h.ids⟩
  · intro i hi
    simp only [Nop.recordFail, JsMap.get_set]
    rw [if_neg (by rintro rfl; exact h2 hi)]
    exact h.disjoint i hi
  · intro i hi
    simp only [Nop.recordFail, JsMap.get_set] at hi
    split_ifs at hi
    · cases hi
    · exact h.completed i hi
  · intro i hi hc
    refine (h.known i hi hc).imp (fun hst => ?_) fun h => h
    simp only [Nop.recordFail, JsMap.get_set]
    rw [if_neg (by rintro rfl; rw [h1] at hst; cases hst)]
    exact hst

/-- The nodes that may be considered for a start. -/
def Fresh (s : Run) (ns : List DagNode) : Prop :=
  (ns.map DagNode.id).Nodup ∧ ∀ n ∈ ns, s.nodeStates.get n.id = none ∧ n.id ∉ s.inFlight.keys

variable {ns : List DagNode}

theorem Fresh.uncons (hf : Fresh s (n :: ns)) : (s.nodeStates.get n.id = none ∧ n.id ∉ s.inFlight.keys) ∧
    (∀ m ∈ ns, m.id ≠ n.id) ∧ Fresh s ns := by
  obtain ⟨hnd, hall⟩ := hf
  obtain ⟨hn, hnd'⟩ := List.nodup_cons.1 hnd
  exact ⟨hall n List.mem_cons_self, fun m hm he => hn (List.mem_map.2 ⟨m, hm, he⟩), hnd',
    fun m hm => hall m (List.mem_cons_of_mem n hm)⟩

theorem Fresh.recorded (hf : Fresh s (n :: ns)) : Fresh (recordFail s n) ns := by
  obtain ⟨-, hne, hnd, hall⟩ := hf.uncons
  refine ⟨hnd, fun m hm => ?_⟩
  simp only [Nop.recordFail, JsMap.get_set, hne m hm, if_false]
  exact hall m hm

theorem Fresh.started (hf : Fresh s (n :: ns)) : Fresh (startNode env task s n) ns := by
  obtain ⟨-, hne, hnd, hall⟩ := hf.uncons
  refine ⟨hnd, fun m hm => ⟨(hall m hm).1, fun hk => ?_⟩⟩
  rcases (JsMap.mem_keys_set _ _ _ _).1 hk with he | hk
  · exact hne m hm he
  · exact (hall m hm).2 hk

theorem Fresh.failInfeasible (hf : Fresh s ns) : Fresh (failInfeasible ns s).1 (failInfeasible ns s).2 := by
  induction ns generalizing s with
  | nil => simp [Nop.failInfeasible, Fresh]
  | cons n ns ih =>
    obtain ⟨⟨h1, h2⟩, hne, htail⟩ := hf.uncons
    simp only [Nop.failInfeasible]
    split_ifs with hinf
    · exact ih hf.recorded
    · obtain ⟨ih2, ih3⟩ := ih htail
      refine ⟨?_, ?_⟩
      · simp only [List.map_cons, List.nodup_cons, List.mem_map, not_exists, not_and]
        exact ⟨fun m hm => hne m (failInfeasible_subset m hm), ih2⟩
      · intro m hm
        rcases List.mem_cons.1 hm with rfl | hm
        · rw [(failInfeasible_spec fun k hk => by rw [(htail.2 k hk).1]; rfl).2,
            if_neg (by rintro ⟨k, hk, hkm, -⟩; exact hne k hk hkm), failInfeasible_frame]
          exact ⟨h1, h2⟩
        · exact ih3 m hm

theorem Fresh.failInfeasible_induction {I : Run → Prop} (h : I s) (hf : Fresh s ns)
    (hstep : ∀ (s : Run) n, I s → s.nodeStates.get n.id = none → n.id ∉ s.inFlight.keys → I (recordFail s n)) :
    I (Nop.failInfeasible ns s).1 := by
  induction ns generalizing s with
  | nil => exact h
  | cons n ns ih =>
    obtain ⟨⟨h1, h2⟩, -, htail⟩ := hf.uncons
    simp only [Nop.failInfeasible]
    split_ifs with hinf
    · exact ih (hstep s n h h1 h2) hf.recorded
    · exact ih h htail

theorem Racing.failInfeasible (h : Racing task s) (hf : Fresh s ns) : Racing task (failInfeasible ns s).1 :=
  Fresh.failInfeasible_induction h hf fun _ _ h h1 h2 => h.recordFail h1 h2

theorem fresh_ready (hn : task.dag.ids.Nodup) : Fresh s (task.dag.nodes.filter (isReady s)) := by
  refine ⟨(List.filter_sublist.map DagNode.id).nodup hn, fun n hmem => ?_⟩
  obtain ⟨h1, h2⟩ := isReady_get (List.mem_filter.1 hmem).2
  exact ⟨h1, (JsMap.get_eq_none_iff _ _).1 h2⟩

theorem Racing.launch (h : Racing task s) (hf : Fresh s ns)
    (hns : ∀ n ∈ ns, n ∈ task.dag.nodes) : Racing task (launch env task ns s) := by
  induction ns generalizing s with
  | nil => exact h
  | cons n ns ih =>
    obtain ⟨⟨h1, h2⟩, -⟩ := hf.uncons
    simp only [Nop.launch]
    split_ifs
    · exact h
    · have hin : (startNode env task s n).inFlight = s.inFlight.set n.id _ := rfl
      have harr : ∀ i, Arrived (startNode env task s n) i ↔ Arrived s i := by
        intro i
        rw [arrived_set hin]
        constructor
        · rintro (⟨-, o, ho, hc⟩ | ⟨-, ha⟩)
          · exact absurd hc (beginAttempt_not_completed ho)
          · exact ha
        · refine fun ha => .inr ⟨?_, ha⟩
          rintro rfl
          obtain ⟨g, -, hg, -⟩ := ha
          exact h2 (JsMap.mem_keys_of_get hg)
      refine ih ⟨h.quiet, ?_, ?_, h.completed, ?_, ?_, h.ids⟩ hf.started fun m hm => hns m (by simp [hm])
      · intro i hi
        rcases (JsMap.mem_keys_set _ _ _ _).1 hi with rfl | hi
        · exact List.mem_map_of_mem (hns n (by simp))
        · exact h.flightIds i hi
      · intro i hi
        rcases (JsMap.mem_keys_set _ _ _ _).1 hi with rfl | hi
        · exact h1
        · exact h.disjoint i hi
      · exact fun i hi => h.arrived i ((harr i).1 hi)
      · exact fun i hi hc => (h.known i hi hc).imp (fun h => h) (harr i).2

theorem Racing.schedule (hn : task.dag.ids.Nodup) (h : Racing task s) : Racing task (schedule env task s) := by
  have hfresh : Fresh s (task.dag.nodes.filter (isReady s)) := fresh_ready hn
  simp only [Nop.schedule, schedule_ready hn]
  exact (h.failInfeasible hfresh).launch hfresh.failInfeasible fun n hmem =>
    (List.mem_filter.1 (failInfeasible_subset n hmem)).1

theorem schedule_kept (s : Run) :
    (schedule env task s).order = s.order ∧ (schedule env task s).succeeded = s.succeeded ∧
      (schedule env task s).compensations = s.compensations := by
  unfold schedule
  rw [launch_frame, failInfeasible_frame]
  exact ⟨rfl, rfl, rfl⟩

/-! ### The compensation -/

/-- What a failed task leaves: a complete compensation, unless the strict policy refused it. -/
def Settled (task : TaskFrame) (s : Run) : Prop :=
  (CompensationPolicy.isStrict task.compensationPolicy = true ∧
    ∃ id ∈ s.succeeded, hasCompensation task.dag id = false) ∨ Undone task s

/-- The invariant of a run with the validated order `order`. -/
def SagaState (task : TaskFrame) (order : List String) (s : Run) : Prop :=
  s.order = order ∧
  match s.phase with
  | .returned r => r.state = .failed → Settled task s
  | .threw => True
  | .compensating c => Undoing task s ∧
      undone s ++ (c.pending.map DelegateFrame.nodeId).toList ++ c.todo = undoOrder task s
  | .preflight => Racing task s ∧ (∀ id, s.inFlight.get id = none) ∧ s.succeeded = []
  | _ => Racing task s

theorem Settled.congr {s s' : Run} (h : Settled task s) (h1 : s'.succeeded = s.succeeded)
    (h2 : s'.compensations = s.compensations) : Settled task s' := by
  have hu : undone s' = undone s := by rw [undone, h2, undone]
  refine h.imp (fun hs => by rwa [h1]) fun ⟨a, b, c⟩ => ⟨?_, ?_, ?_⟩
  · rwa [hu]
  · rwa [hu, h1]
  · rwa [hu]

theorem Undoing.congr {s s' : Run} (h : Undoing task s) (h1 : s'.inFlight = s.inFlight)
    (h2 : s'.nodeStates = s.nodeStates) (h3 : s'.succeeded = s.succeeded)
    (h4 : s'.order = s.order) : Undoing task s' := by
  obtain ⟨a, b, c, d⟩ := h
  exact ⟨by rwa [h1], by rwa [h2, h3], by rwa [h2, h3], by rwa [h3, h4]⟩

theorem settled_of_nothing (hq : s.compensations = []) (h : NothingToUndo task s) : Settled task s := by
  have hu : undone s = [] := by rw [undone, hq, List.map_nil]
  refine .inr ⟨by rw [hu]; exact List.nodup_nil, fun id => ?_, by rw [hu]; exact List.Pairwise.nil⟩
  rw [hu]
  constructor
  · intro hc
    cases hc
  · rintro ⟨h1, h2⟩
    rw [h id h1] at h2
    cases h2

variable {order : List String}

theorem finalize_saga (ho : s.order = order)
    {aggregated : Option Aggregate} {state : TaskState} {error : Option TaskError}
    {compensation : Option SagaCompensationResult} (h : state = .failed → Settled task s) :
    SagaState task order (finalize env task s aggregated state error compensation) :=
  ⟨ho, fun hs => (h hs).congr rfl rfl⟩

theorem catchError_saga (ho : s.order = order) {thrown : Thrown} (h : Expires s thrown → Settled task s) :
    SagaState task order (catchError env task s thrown) := by
  unfold catchError
  split_ifs with h1 h2
  · exact finalize_saga ho (by rintro ⟨⟩)
  · exact finalize_saga ho fun _ => h ⟨by simpa using h1, h2⟩
  · exact ⟨ho, trivial⟩

theorem finishCompensation_saga (ho : s.order = order)
    {goal : CompensationGoal} {compensation : SagaCompensationResult} (h : Settled task s) :
    SagaState task order (finishCompensation env task s goal compensation) := by
  cases goal with
  | onFailure message => exact finalize_saga ho fun _ => h
  | onSuccess aggregated => exact finalize_saga ho fun _ => h

theorem prepare_ok {node : DagNode} (h : MappingResolves node.inputMapping) {subtaskId key : String}
    {context : Context} {ticks : ℕ} :
    ∃ frame, prepare env task node subtaskId key context ticks = .ok frame ∧ frame.nodeId = node.id := by
  obtain ⟨ps, hps⟩ := (buildParams_isOk node.inputMapping context).2 h
  obtain ⟨params, hparams⟩ : ∃ params, resolveParams node context = .ok params := by
    simp only [resolveParams, hps]
    split
    · split <;> exact ⟨_, rfl⟩
    · exact ⟨_, rfl⟩
  simp only [prepare, hparams]
  exact ⟨_, rfl, rfl⟩

theorem Undoable.congr {s s' : Run} (h : Undoable task order s)
    (h1 : s'.succeeded = s.succeeded) : Undoable task order s' := by
  obtain ⟨a, b⟩ := h
  exact ⟨by rwa [h1], by rwa [h1]⟩

section accepted

variable {v : DagValidation} (hv : validateDag task.dag = .ok v)

include hv

variable {s : Run}

theorem compensateNext_saga (ho : s.order = v.topologicalOrder) (hu : Undoing task s)
    (hs : Undoable task s.order s) {goal : CompensationGoal} {attempted succeeded : ℕ}
    {failedIds todo : List String} (htodo : undone s ++ todo = undoOrder task s) :
    SagaState task v.topologicalOrder (compensateNext env task goal attempted s succeeded failedIds todo) := by
  cases todo with
  | nil =>
    rw [List.append_nil] at htodo
    exact finishCompensation_saga ho (.inr (hu.undone hv ho hs htodo))
  | cons id todo =>
    obtain ⟨-, hc, hh⟩ := mem_undoOrder.1 (show id ∈ undoOrder task s by rw [← htodo]; simp)
    obtain ⟨node, hget⟩ : ∃ node, (allNodes task.dag).get id = some node := by
      unfold hasCompensation at hh
      split at hh
      · cases hh
      · exact ⟨_, ‹_›⟩
    obtain ⟨hmem, rfl⟩ := (allNodes_get (validateDag_inv hv).1.ids_nodup).1 hget
    have hmap := hs.mappings node hmem (hu.completed _ hc) hh
    obtain ⟨frame, hframe, hid⟩ : ∃ frame,
        prepare env task (compensationNode node (node.compensateAction.getD ""))
          (env.randomId s.ids) (env.randomId (s.ids + 1)) s.nodeResults s.ticks = .ok frame ∧
        frame.nodeId = node.id := prepare_ok hmap
    simp only [compensateNext, hget, hframe]
    refine ⟨ho, hu.congr rfl rfl rfl rfl, ?_⟩
    simp only [Option.map_some, Option.toList_some, hid]
    rw [List.append_assoc]
    exact htodo

theorem runSagaCompensation_saga (ho : s.order = v.topologicalOrder)
    (hu : Undoing task s) (hs : Undoable task s.order s) (hq : s.compensations = []) (goal : CompensationGoal) :
    SagaState task v.topologicalOrder (runSagaCompensation env task s goal) := by
  simp only [runSagaCompensation]
  split_ifs with hm
  · simp only [Bool.and_eq_true, Bool.not_eq_true', List.isEmpty_eq_false_iff_exists_mem] at hm
    obtain ⟨hstrict, id, hid⟩ := hm
    obtain ⟨h1, h2⟩ := List.mem_filter.1 hid
    simp only [completedReversed, List.mem_reverse, List.mem_filter, Bool.and_eq_true, beq_iff_eq] at h1
    exact finishCompensation_saga ho
      (.inl ⟨hstrict, id, hu.completed id h1.2.1, by simpa using h2⟩)
  · refine compensateNext_saga hv ho hu hs ?_
    rw [undone, hq]
    rfl

theorem failRun_saga (hp : CompensationPolicy.runsOnFailure task.compensationPolicy = true)
    (ho : s.order = v.topologicalOrder) (hu : Undoing task s)
    (hs : Undoable task s.order s) (hq : s.compensations = []) (message : String) :
    SagaState task v.topologicalOrder (failRun env task s message) := by
  unfold failRun
  rw [if_pos hp]
  exact runSagaCompensation_saga hv ho hu hs hq _

theorem conclude_saga (hp : CompensationPolicy.runsOnFailure task.compensationPolicy = true)
    (ho : s.order = v.topologicalOrder) (hu : Undoing task s)
    (hs : Undoable task s.order s) (hq : s.compensations = []) :
    SagaState task v.topologicalOrder (conclude env task s) := by
  simp only [conclude]
  split_ifs
  · exact failRun_saga hv hp ho hu hs hq _
  · exact runSagaCompensation_saga hv ho hu hs hq _
  · exact finalize_saga ho (by rintro ⟨⟩)

theorem Racing.undoing (h : Racing task s) (ho : s.order = v.topologicalOrder)
    (hidle : s.inFlight.size = 0) : Undoing task s := by
  have hnone := (JsMap.size_eq_zero_iff _).1 hidle
  refine ⟨hnone, h.completed, fun id hid hc => ?_, fun id hid => ?_⟩
  · rcases h.known id hid hc with hst | ⟨f, -, hf, -⟩
    · exact hst
    · rw [hnone id] at hf
      cases hf
  · rw [ho]
    exact (validateDag_order hv).1.mem_iff.2 (h.ids id hid)

end accepted

/-! ### Steps -/

/-- Is the run in its main loop? -/
def Phase.isRacing : Phase → Bool
  | .looping | .racing _ | .settling _ => true
  | _ => false

theorem sagaState_racing (hrun : s.phase.isRacing = true) :
    SagaState task order s ↔ s.order = order ∧ Racing task s := by
  unfold SagaState
  cases hp : s.phase with
  | preflight => rw [hp] at hrun; cases hrun
  | returned r => rw [hp] at hrun; cases hrun
  | threw => rw [hp] at hrun; cases hrun
  | compensating c => rw [hp] at hrun; cases hrun
  | _ => rfl

theorem setPhase_isRacing (hs : s.phase.isRacing = true) : (setPhase s id f).phase.isRacing = true := by
  simp only [setPhase]
  split
  · split_ifs
    · rfl
    · exact hs
  · exact hs

section accepted

variable {v : DagValidation} (hv : validateDag task.dag = .ok v)
  (hp : CompensationPolicy.runsOnFailure task.compensationPolicy = true)

include hv hp

theorem advance_saga {s : Run} (h : SagaState task v.topologicalOrder s) (hb : Books task s)
    (hu : Undoable task v.topologicalOrder s)
    (hab : s.phase = .looping → s.nodeStates.size < (allNodes task.dag).size → s.aborted = true →
      Expires s .abort → NothingToUndo task s) : SagaState task v.topologicalOrder (advance env task s) := by
  by_cases hl : s.phase = .looping
  · obtain ⟨ho, hr⟩ := (sagaState_racing (by rw [hl]; rfl)).1 h
    have hn := (validateDag_inv hv).1.ids_nodup
    have heq : advance env task s = loopHead env task s := by
      unfold advance
      rw [hl]
    rw [heq, loopHead]
    obtain ⟨ho', hs', hq'⟩ := schedule_kept s
    have hr' : Racing task (schedule env task s) := hr.schedule hn
    split_ifs with hsize ha
    · exact catchError_saga ho fun he => settled_of_nothing hr.quiet (hab hl hsize ha he)
    · simp only
      split_ifs with hidle
      · refine conclude_saga hv hp (ho'.trans ho) (hr'.undoing hv (ho'.trans ho) hidle) ?_ hr'.quiet
        rw [ho', ho]
        exact hu.congr hs'
      · exact ⟨ho'.trans ho, hr'.congr rfl rfl rfl rfl⟩
    · refine conclude_saga hv hp ho (hr.undoing hv ho ?_) (by rw [ho]; exact hu) hr.quiet
      -- every node has a state, so none is in flight
      rw [JsMap.size_eq_zero_iff]
      intro id
      rw [JsMap.get_eq_none_iff]
      intro hid
      rw [allNodes_size hn] at hsize
      have := JsMap.mem_keys_of_size hb.states_ids (by omega) (hr.flightIds id hid)
      rw [← JsMap.get_isSome_iff, hr.disjoint id hid] at this
      cases this
  · have heq : advance env task s = s := by
      unfold advance
      split
      · exact absurd ‹_› hl
      · rfl
    rwa [heq]

omit hv hp in
theorem deliver_saga_preflight {s : Run} (h : SagaState task v.topologicalOrder s)
    (hph : s.phase = .preflight) (e : Event) : SagaState task v.topologicalOrder (deliver env task s e) := by
  have h' := h
  unfold SagaState at h'
  rw [hph] at h'
  obtain ⟨ho, hr, hin, hsucc⟩ := h'
  have hkeep : ∀ {s' : Run}, s'.phase = .preflight → s'.order = s.order → Racing task s' →
      s'.inFlight = s.inFlight → s'.succeeded = s.succeeded →
      SagaState task v.topologicalOrder s' := by
    intro s' h1 h2 h3 h4 h5
    unfold SagaState
    rw [h1]
    exact ⟨h2.trans ho, h3, by rwa [h4], by rw [h5, hsucc]⟩
  cases e with
  | preflightDone answer =>
    simp only [deliver, onPreflight, hph]
    split
    · refine ⟨ho, fun _ => settled_of_nothing hr.quiet fun id hid => ?_⟩
      rw [hsucc] at hid
      cases hid
    · exact (sagaState_racing rfl).2 ⟨ho, hr.congr rfl rfl rfl rfl⟩
  | resolved id answer => simpa only [deliver, onResolved, hin id] using h
  | answered id answer => simpa only [deliver, onAnswered, hin id] using h
  | delayed id => simpa only [deliver, onDelayed, hin id] using h
  | wake => simpa only [deliver, wake, hph] using h
  | compensationResolved answer => simpa only [deliver, onCompensationResolved, hph] using h
  | compensationAnswered answer => simpa only [deliver, onCompensationAnswered, hph] using h
  | timeout =>
    simp only [deliver, abortRun]
    split_ifs
    · exact h
    · exact hkeep hph rfl (hr.congr rfl rfl rfl rfl) rfl rfl
  | abort =>
    simp only [deliver, abortRun]
    split_ifs <;> exact hkeep hph rfl (hr.congr rfl rfl rfl rfl) rfl rfl
  | cancel => exact hkeep hph rfl (hr.congr rfl rfl rfl rfl) rfl rfl

/-- In the main loop. -/
theorem deliver_saga_racing {s : Run} (h : SagaState task v.topologicalOrder s)
    (hrun : s.phase.isRacing = true) {e : Event} (hs : SagaSafe env task v.topologicalOrder s e) :
    SagaState task v.topologicalOrder (deliver env task s e) := by
  obtain ⟨ho, hr⟩ := (sagaState_racing hrun).1 h
  have hfin : s.phase.isFinished = false := by
    cases hph : s.phase <;> rw [hph] at hrun <;> first | rfl | cases hrun
  have hkeep : ∀ {s' : Run}, s'.phase.isRacing = true → s'.order = s.order → Racing task s' →
      SagaState task v.topologicalOrder s' := fun h1 h2 h3 =>
    (sagaState_racing h1).2 ⟨h2.trans ho, h3⟩
  cases e with
  | preflightDone answer =>
    simp only [deliver, onPreflight]
    split
    · rename_i hph
      rw [hph] at hrun
      cases hrun
    · exact h
  | resolved id answer =>
    simp only [deliver, onResolved]
    split
    · rename_i f hget
      split
      · rename_i hf
        split
        · exact hkeep (setPhase_isRacing hrun) rfl
            (hr.move hget (by rw [hf]; rfl) (by rintro o ⟨⟩) rfl rfl rfl rfl)
        · exact hkeep (setPhase_isRacing hrun) rfl
            (hr.move hget (by rw [hf]; rfl) (by rintro o ⟨⟩) rfl rfl rfl rfl)
      · exact h
    · exact h
  | answered id answer =>
    by_cases hd : ∃ f, s.inFlight.get id = some f ∧ f.phase = .delegated
    · obtain ⟨f, hget, hf⟩ := hd
      refine hkeep ?_ ?_ (hr.answered hfin hget hf fun ht hc => hs.streams id answer f rfl hget ht hc)
      · simp only [deliver, onAnswered, hget, hf]
        split_ifs <;> exact setPhase_isRacing hrun
      · simp only [deliver, onAnswered, hget, hf]
        split_ifs <;> rfl
    · have heq : onAnswered env task s id answer = s := by
        unfold onAnswered
        split
        · split
          · exact absurd ⟨_, ‹_›, ‹_›⟩ hd
          · rfl
        · rfl
      simp only [deliver, heq]
      exact h
  | delayed id =>
    simp only [deliver, onDelayed]
    split
    · rename_i f hget
      split
      · rename_i hf
        exact hkeep (setPhase_isRacing hrun) rfl (hr.move hget (by rw [hf]; rfl)
          (fun o ho => beginAttempt_not_completed ho) rfl rfl rfl rfl)
      · exact h
    · exact h
  | wake =>
    simp only [deliver, wake]
    split
    · rename_i id hph
      split
      · rename_i outcome hget
        have hrec := hr.recordOutcome hget rfl
        simp only [takeOutcome]
        split_ifs
        · exact hkeep rfl rfl (hrec.congr rfl rfl rfl rfl)
        · exact hkeep rfl rfl (hrec.congr rfl rfl rfl rfl)
      · rename_i thrown hget
        exact catchError_saga ho fun he => settled_of_nothing hr.quiet
          (hs.rejected id _ thrown rfl hph hget rfl he)
      · exact h
    · rename_i message hph
      split
      · rename_i hall
        refine failRun_saga (s := { s with inFlight := JsMap.empty }) hv hp ho ⟨JsMap.get_empty, hr.completed, fun id hid hc => ?_,
          fun id hid => ?_⟩ ?_ hr.quiet message
        · rcases hr.known id hid hc with hst | ⟨f, -, hf, -⟩
          · exact hst
          · rw [hs.settled message rfl hph hall id (JsMap.mem_keys_of_get hf) hid] at hc
            cases hc
        · show id ∈ s.order
          rw [ho]
          exact (validateDag_order hv).1.mem_iff.2 (hr.ids id hid)
        · show Undoable task s.order _
          rw [ho]
          exact hs.before.congr rfl
      · exact h
    · exact h
  | compensationResolved answer =>
    have heq : onCompensationResolved env task s answer = s := by
      unfold onCompensationResolved
      split
      · rename_i hc
        rw [hc] at hrun
        cases hrun
      · rfl
    simp only [deliver, heq]
    exact h
  | compensationAnswered answer =>
    have heq : onCompensationAnswered env task s answer = s := by
      unfold onCompensationAnswered
      split
      · rename_i hc
        rw [hc] at hrun
        cases hrun
      · rfl
    simp only [deliver, heq]
    exact h
  | timeout =>
    simp only [deliver, abortRun]
    split_ifs
    · exact h
    · exact hkeep hrun rfl (hr.congr rfl rfl rfl rfl)
  | abort =>
    simp only [deliver, abortRun]
    split_ifs
    · exact hkeep hrun rfl (hr.congr rfl rfl rfl rfl)
    · exact hkeep hrun rfl (hr.congr rfl rfl rfl rfl)
  | cancel => exact hkeep hrun rfl (hr.congr rfl rfl rfl rfl)

omit hp in
/-- In the compensation. -/
theorem deliver_saga_compensating {s : Run} (h : SagaState task v.topologicalOrder s)
    {c : Compensation} (hph : s.phase = .compensating c) {e : Event} (hs : SagaSafe env task v.topologicalOrder s e) :
    SagaState task v.topologicalOrder (deliver env task s e) := by
  have h' := h
  unfold SagaState at h'
  rw [hph] at h'
  obtain ⟨ho, hu, htodo⟩ := h'
  have hin := hu.idle
  have hub : Undoable task s.order s := by
    rw [ho]
    exact hs.before
  have hflags : ∀ {s' : Run}, s'.phase = s.phase → s'.order = s.order → s'.inFlight = s.inFlight →
      s'.nodeStates = s.nodeStates → s'.succeeded = s.succeeded →
      s'.compensations = s.compensations → SagaState task v.topologicalOrder s' := by
    intro s' h1 h2 h3 h4 h5 h6
    unfold SagaState
    rw [h1, hph]
    refine ⟨h2.trans ho, hu.congr h3 h4 h5 h2, ?_⟩
    simp only [undone, undoOrder, completedReversed, h2, h4, h6] at htodo ⊢
    exact htodo
  cases e with
  | preflightDone answer => simpa only [deliver, onPreflight, hph] using h
  | resolved id answer => simpa only [deliver, onResolved, hin id] using h
  | answered id answer => simpa only [deliver, onAnswered, hin id] using h
  | delayed id => simpa only [deliver, onDelayed, hin id] using h
  | wake => simpa only [deliver, wake, hph] using h
  | compensationResolved answer =>
    simp only [deliver, onCompensationResolved, hph]
    split
    · rename_i frame hframe
      split
      · rename_i err herr
        exact catchError_saga ho fun he => absurd he
          (hs.unresolved c answer err rfl hph (by rw [hframe]; rfl) herr)
      · refine ⟨ho, hu.congr rfl rfl rfl rfl, ?_⟩
        rw [hframe] at htodo
        show _ = undoOrder task s
        simpa [undone] using htodo
    · exact h
  | compensationAnswered answer =>
    simp only [deliver, onCompensationAnswered, hph]
    split
    · exact h
    · rename_i hnone
      rw [hnone] at htodo
      simp only [Option.map_none, Option.toList_none, List.append_nil] at htodo
      split
      · rename_i thrown hthrown
        refine catchError_saga ho fun he => .inr (hu.undone hv ho hub ?_)
        rw [hs.interrupted c answer thrown rfl hph hnone hthrown he, List.append_nil] at htodo
        exact htodo
      · split_ifs
        · exact compensateNext_saga hv ho hu hub htodo
        · exact compensateNext_saga hv ho hu hub htodo
  | timeout =>
    simp only [deliver, abortRun]
    split_ifs
    · exact h
    · exact hflags rfl rfl rfl rfl rfl rfl
  | abort =>
    simp only [deliver, abortRun]
    split_ifs <;> exact hflags rfl rfl rfl rfl rfl rfl
  | cancel => exact hflags rfl rfl rfl rfl rfl rfl

end accepted

/-- What no event changes once `execute` has settled. -/
theorem deliver_finished (h : s.phase.isFinished = true) (e : Event) :
    (deliver env task s e).phase = s.phase ∧ (deliver env task s e).order = s.order ∧
      (deliver env task s e).succeeded = s.succeeded ∧ (deliver env task s e).compensations = s.compensations := by
  have hflight : ∀ id f, (setPhase s id f).phase = s.phase := by
    intro id f
    simp only [setPhase]
    split
    · rename_i hr
      rw [hr] at h
      cases h
    · rfl
  cases e with
  | preflightDone answer =>
    simp only [deliver, onPreflight]
    split
    · rename_i hr
      rw [hr] at h
      cases h
    · exact ⟨rfl, rfl, rfl, rfl⟩
  | resolved id answer =>
    simp only [deliver, onResolved]
    split
    · split
      · split
        · exact ⟨hflight _ _, rfl, rfl, rfl⟩
        · exact ⟨hflight _ _, rfl, rfl, rfl⟩
      · exact ⟨rfl, rfl, rfl, rfl⟩
    · exact ⟨rfl, rfl, rfl, rfl⟩
  | answered id answer =>
    simp only [deliver, onAnswered, h, Bool.not_true, Bool.and_false]
    split
    · split
      · exact ⟨hflight _ _, rfl, rfl, rfl⟩
      · exact ⟨rfl, rfl, rfl, rfl⟩
    · exact ⟨rfl, rfl, rfl, rfl⟩
  | delayed id =>
    simp only [deliver, onDelayed]
    split
    · split
      · exact ⟨hflight _ _, rfl, rfl, rfl⟩
      · exact ⟨rfl, rfl, rfl, rfl⟩
    · exact ⟨rfl, rfl, rfl, rfl⟩
  | wake =>
    simp only [deliver, wake]
    split
    · rename_i hr
      rw [hr] at h
      cases h
    · rename_i hr
      rw [hr] at h
      cases h
    · exact ⟨rfl, rfl, rfl, rfl⟩
  | compensationResolved answer =>
    simp only [deliver, onCompensationResolved]
    split
    · rename_i hr
      rw [hr] at h
      cases h
    · exact ⟨rfl, rfl, rfl, rfl⟩
  | compensationAnswered answer =>
    simp only [deliver, onCompensationAnswered]
    split
    · rename_i hr
      rw [hr] at h
      cases h
    · exact ⟨rfl, rfl, rfl, rfl⟩
  | timeout =>
    simp only [deliver, abortRun, h, true_or, if_true, and_self]
  | abort =>
    simp only [deliver, abortRun, h, true_or, if_true, and_self]
  | cancel => exact ⟨rfl, rfl, rfl, rfl⟩

/-! ### Runs -/

section accepted

variable {v : DagValidation} (hv : validateDag task.dag = .ok v)
  (hp : CompensationPolicy.runsOnFailure task.compensationPolicy = true)

include hv hp

theorem deliver_saga {s : Run} (h : SagaState task v.topologicalOrder s) {e : Event}
    (hs : SagaSafe env task v.topologicalOrder s e) : SagaState task v.topologicalOrder (deliver env task s e) := by
  cases hph : s.phase with
  | preflight => exact deliver_saga_preflight h hph e
  | compensating c => exact deliver_saga_compensating hv h hph hs
  | looping => exact deliver_saga_racing hv hp h (by rw [hph]; rfl) hs
  | racing w => exact deliver_saga_racing hv hp h (by rw [hph]; rfl) hs
  | settling m => exact deliver_saga_racing hv hp h (by rw [hph]; rfl) hs
  | returned r =>
    obtain ⟨h1, h2, h3, h4⟩ := deliver_finished (by rw [hph]; rfl) e
    unfold SagaState at h ⊢
    rw [hph] at h
    rw [h1, hph, h2]
    exact ⟨h.1, fun hr => (h.2 hr).congr h3 h4⟩
  | threw =>
    obtain ⟨h1, h2, -, -⟩ := deliver_finished (by rw [hph]; rfl) e
    unfold SagaState at h ⊢
    rw [h1, hph, h2]
    exact ⟨h.1, trivial⟩

theorem step_saga {s : Run} {neverStuck : Prop} (ha : Accounted env task s neverStuck)
    (h : SagaState task v.topologicalOrder s) {e : Event} (hs : SagaSafe env task v.topologicalOrder s e) :
    SagaState task v.topologicalOrder (step env task s e) := by
  refine advance_saga hv hp (deliver_saga hv hp h hs) ?_ hs.after hs.aborted
  by_cases hrun : s.phase.isRunning = true
  · rcases deliver_running (ha.ongoing hrun).1 e with hr | ⟨s₁, hb, hc⟩
    · exact hr.books
    · exact hc.books hb
  · exact (deliver_closes (Bool.not_eq_true _ ▸ hrun) ha.result e).books ha.books

end accepted

theorem initialRun_saga {v : DagValidation} {signalAborted : Bool} :
    SagaState task v.topologicalOrder (initialRun env task v signalAborted) := by
  have hr : Racing task (initialRun env task v signalAborted) := by
    constructor <;> simp [initialRun, Arrived]
  unfold SagaState
  by_cases hpre : task.preflight
  · have hph : (initialRun env task v signalAborted).phase = .preflight := by
      simp [initialRun, hpre]
    rw [hph]
    exact ⟨rfl, hr, JsMap.get_empty, rfl⟩
  · have hph : (initialRun env task v signalAborted).phase = .looping := by
      simp [initialRun, hpre]
    rw [hph]
    exact ⟨rfl, hr⟩

/-- **Compensation.**  In a run whose every step is safe, a task that ends failed under a policy
that compensates failures has compensated exactly the nodes that succeeded and can be compensated,
each once and before everything it depends on, unless the strict policy found a node that cannot be
compensated. -/
theorem failed_undone {store : JsMap String NopTaskRecord} {signalAborted : Bool} {s₀ : Run}
    (h : execute env task store signalAborted = .ok s₀)
    (hp : CompensationPolicy.runsOnFailure task.compensationPolicy = true) (events : List Event)
    (hsafe : Along (step env task) (SagaSafe env task s₀.order) (advance env task s₀) events)
    {r : NopTaskResult} (hr : (runFrom env task s₀ events).phase = .returned r)
    (hfailed : r.state = .failed)
    (hstrict : CompensationPolicy.isStrict task.compensationPolicy = true →
      ∀ id ∈ (runFrom env task s₀ events).succeeded, hasCompensation task.dag id = true) :
    Undone task (runFrom env task s₀ events) := by
  obtain ⟨v, hv, rfl⟩ := execute_ok h
  have hstart : SagaState task v.topologicalOrder
      (advance env task (initialRun env task v signalAborted)) := by
    obtain ⟨-, hrun⟩ := execute_accounted h
    exact advance_saga hv hp initialRun_saga hrun.books ⟨by rintro n - ⟨⟩, by rintro u ⟨⟩⟩
      (by rintro - - - - id ⟨⟩)
  have hfinal : SagaState task v.topologicalOrder
      (runFrom env task (initialRun env task v signalAborted) events) := by
    have key : ∀ es, Along (step env task) (SagaSafe env task v.topologicalOrder)
        (advance env task (initialRun env task v signalAborted)) es →
        SagaState task v.topologicalOrder
          (runFrom env task (initialRun env task v signalAborted) es) := by
      intro es
      induction es using List.reverseRecOn with
      | nil => exact fun _ => hstart
      | append_singleton es e ih =>
        intro hal
        obtain ⟨h1, h2⟩ := along_snoc.1 hal
        have hrun := step_saga hv hp (runFrom_accounted h es) (ih h1) h2
        simpa only [runFrom, run_snoc] using hrun
    exact key events hsafe
  unfold SagaState at hfinal
  rw [hr] at hfinal
  rcases hfinal.2 hfailed with ⟨hs, id, hid, hc⟩ | hu
  · rw [hstrict hs id hid] at hc
    cases hc
  · exact hu

/-! ### Calm runs -/

/-- No promise of a node is rejected. -/
def noRejection (s : Run) : Bool :=
  s.inFlight.values.all fun f =>
    match f.phase with
    | .settled (.error _) => false
    | _ => true

/-- A step without timeout, rejection or throwing stream, after which the loop does not give up
while nodes are in flight. -/
def isCalm (env : Env) (task : TaskFrame) (s : Run) (e : Event) : Bool :=
  !(deliver env task s e).aborted && noRejection s &&
    (match e with
    | .answered _ answer => !answer.throws
    | .compensationAnswered answer => !answer.throws
    | .compensationResolved (.error _) => false
    | _ => true) &&
    (match s.phase with
    | .settling _ => s.inFlight.keys.isEmpty
    | _ => true)

theorem safe_of_calm {e : Event} (h : isCalm env task s e = true)
    (hb : Undoable task order s) (ha : Undoable task order (deliver env task s e)) : SagaSafe env task order s e := by
  simp only [isCalm, Bool.and_eq_true, Bool.not_eq_true'] at h
  obtain ⟨⟨⟨h1, h2⟩, h3⟩, h4⟩ := h
  refine ⟨hb, ha, ?_, ?_, ?_, ?_, ?_, ?_⟩
  · rintro id answer f rfl - ht -
    simp [ht] at h3
  · rintro message rfl hph - id hid -
    rw [hph] at h4
    simp only [List.isEmpty_iff] at h4
    rw [h4] at hid
    cases hid
  · rintro id f thrown rfl - hget hf -
    have hmem : f ∈ s.inFlight.values :=
      List.mem_map.2 ⟨(id, f), (JsMap.mem_entries_iff _ _ _).2 hget, rfl⟩
    have := List.all_eq_true.1 h2 f hmem
    simp [hf] at this
  · rintro - - hc -
    rw [h1] at hc
    cases hc
  · rintro c answer err rfl - - hres -
    cases answer with
    | error e => simp at h3
    | ok info =>
      unfold resolveTarget at hres
      split_ifs at hres
      cases hres
  · rintro c answer thrown rfl - - hthrown -
    simp only [Bool.not_eq_true'] at h3
    simp [finishOnce, h3] at hthrown

/-! ### Two nodes, one of which is to be compensated -/

def pairTask : TaskFrame where
  taskId := "pair"
  maxRetries := 0
  compensationPolicy := some "best_effort"
  dag :=
    { nodes := [{ id := "A", action := "a", agent := "w", compensateAction := some "undo" },
        { id := "B", action := "b", agent := "w", inputFrom := ["A"] }]
      edges := [⟨"A", "B"⟩] }

/-- The first state of the pair. -/
def pairRun : Run := initialRun plainEnv pairTask ⟨["A", "B"], ["A"], ["B"]⟩ false

/-- `A` completes, `B` fails, and `A` is compensated. -/
def pairEvents : List Event :=
  answerOnce "A" none ++ answerOnce "B" (some { errorCode := "E" }) ++
    [.wake, .compensationResolved (.ok none),
      .compensationAnswered { frames := [{ seq := 0, isFinal := true, senderNid := "w" }] }]

theorem pair_undoable (h : (s.succeeded.all fun id => id == "A") = true) : Undoable pairTask ["A", "B"] s := by
  simp only [List.all_eq_true, beq_iff_eq] at h
  constructor
  · intro n hn _ _
    have : n.compensateParamsMapping = [] := by
      simp only [pairTask, List.mem_cons, List.not_mem_nil, or_false] at hn
      rcases hn with rfl | rfl <;> rfl
    rw [this]
    rintro e ⟨⟩
  · intro u _ v hv _ _ htg _
    have hA : ∀ w, ¬ DependsOn pairTask.dag w "A" := by
      rintro w (hw | ⟨n, hn, hid, hw⟩)
      · simp [TaskDag.pairs, pairTask] at hw
      · simp only [pairTask, List.mem_cons, List.not_mem_nil, or_false] at hn
        rcases hn with rfl | rfl
        · cases hw
        · exact absurd hid (by decide)
    rw [h v hv] at htg
    cases htg with
    | single hw => exact absurd hw (hA _)
    | tail _ hw => exact absurd hw (hA _)

/-- The compensation of the pair is complete. -/
theorem pair_undone : Undone pairTask (runFrom plainEnv pairTask pairRun pairEvents) := by
  obtain ⟨r, hr, hc⟩ := Phase.returned_of_result
    (p := (runFrom plainEnv pairTask pairRun pairEvents).phase) (f := fun r => r.state)
    (b := .failed) (by decide)
  have hall : Along (step plainEnv pairTask) (fun s e => (isCalm plainEnv pairTask s e &&
      s.succeeded.all (fun id => id == "A") &&
      (deliver plainEnv pairTask s e).succeeded.all fun id => id == "A") = true)
      (advance plainEnv pairTask pairRun) pairEvents := along_of_alongAll (by decide)
  refine failed_undone (show execute plainEnv pairTask JsMap.empty false = .ok pairRun from rfl)
    (by decide) pairEvents (hall.mono fun s e h => ?_) hr hc fun hs => absurd hs (by decide)
  simp only [Bool.and_eq_true] at h
  exact safe_of_calm h.1.1 (pair_undoable h.1.2) (pair_undoable h.2)

/-- Two independent nodes, the first with a compensation. -/
def forkTask : TaskFrame where
  taskId := "fork"
  maxRetries := 0
  compensationPolicy := some "best_effort"
  dag :=
    { nodes := [{ id := "A", action := "a", agent := "w", compensateAction := some "undo" },
        { id := "B", action := "b", agent := "w" }]
      edges := [] }

/-- The first state of the fork. -/
def forkRun : Run := initialRun plainEnv forkTask ⟨["A", "B"], ["A", "B"], ["A", "B"]⟩ false

/-- `B` fails while `A` is in flight, and `A` completes while the loop waits for it to settle. -/
def forkEvents : List Event :=
  [.resolved "A" (.ok none)] ++ answerOnce "B" (some { errorCode := "E" }) ++
    [.answered "A" { frames := [{ seq := 0, isFinal := true, senderNid := "w" }] }, .wake]

/-- The success of a node that settles after another has failed for good is dropped: the node is not
compensated. -/
theorem fork_not_undone :
    execute plainEnv forkTask JsMap.empty false = .ok forkRun ∧
    CompensationPolicy.runsOnFailure forkTask.compensationPolicy = true ∧
    CompensationPolicy.isStrict forkTask.compensationPolicy = false ∧
    (∃ r, (runFrom plainEnv forkTask forkRun forkEvents).phase = .returned r ∧
      r.state = .failed) ∧
    ¬ Undone forkTask (runFrom plainEnv forkTask forkRun forkEvents) := by
  refine ⟨rfl, by decide, by decide, ?_, fun h => ?_⟩
  · exact Phase.returned_of_result (f := fun r => r.state) (b := .failed) (by decide)
  · have hA : "A" ∈ undone (runFrom plainEnv forkTask forkRun forkEvents) :=
      (h.exactly "A").2 (by decide)
    revert hA
    decide

end NpsSdk.Nop
