import NpsSdk.Nop.SentTask

/-!
# The scheduling discipline

What the main loop starts, and how often a worker is called for it.  The starts of a run are noted as
they happen, each with the states the nodes had by then.  Whatever the workers answer and in whatever
order, there is room for what is in flight, no node is started twice, no worker is called for a node
more often than its retries allow, and a node with inputs is started only when enough of them
succeeded.
-/

namespace NpsSdk.Nop

open NpsSdk.Lib

variable {env : Env} {task : TaskFrame} {s : Run}

/-! ### The starts of a run -/

structure Start where
  node : DagNode
  states : JsMap String TaskState

def startedIds (starts : List Start) : List String := starts.map fun st => st.node.id

/-- What `launch` starts. -/
def launched (env : Env) (task : TaskFrame) : List DagNode → Run → List Start
  | [], _ => []
  | n :: ns, s =>
    if env.maxConcurrentNodes ≤ s.inFlight.size then []
    else ⟨n, s.nodeStates⟩ :: launched env task ns (startNode env task s n)

/-- What the main loop starts from its head, if the run stands there. -/
def startedAt (env : Env) (task : TaskFrame) (s : Run) : List Start :=
  match s.phase with
  | .looping =>
    if s.nodeStates.size < (allNodes task.dag).size ∧ s.aborted = false then
      let r := failInfeasible ((allNodes task.dag).values.filter (isReady s)) s
      launched env task r.2 r.1
    else []
  | _ => []

def starts (env : Env) (task : TaskFrame) (s₀ : Run) (events : List Event) : List Start :=
  noted (fun sts s e => sts ++ startedAt env task (deliver env task s e)) (step env task)
    (startedAt env task s₀) (advance env task s₀) events

/-- The number of calls made for a node. -/
def callsFor (s : Run) (id : String) : ℕ := (s.calls.filter fun c => c.nodeId == id).length

/-! ### The pace of a node -/

/-- How the `calls` made for a node in flight stand to its attempts. -/
def Paced (task : TaskFrame) (node : DagNode) (attempt calls : ℕ) : NodePhase → Prop
  | .resolving frame =>
    frame.nodeId = node.id ∧ calls + 1 ≤ attempt ∧ (attempt : ℤ) ≤ maxRetries task node + 1
  | .delegated | .backoff _ => calls ≤ attempt
  | .settled _ => True

variable {node : DagNode} {attempt calls : ℕ}

theorem afterOnce_paced (h : calls ≤ attempt) (r : Except Thrown NodeOutcome) :
    Paced task node attempt calls (afterOnce task node attempt r) := by
  unfold afterOnce
  split
  · trivial
  · split_ifs
    · trivial
    · exact h
    · trivial

theorem prepare_nodeId {subtaskId key : String} {context : Context} {ticks : ℕ} {frame : DelegateFrame}
    (h : prepare env task node subtaskId key context ticks = .ok frame) : frame.nodeId = node.id := by
  unfold prepare at h
  split at h
  · cases h
  · injection h with h
    rw [← h]

theorem beginAttempt_paced (h : calls + 1 ≤ attempt) {subtaskId key : String} :
    Paced task node attempt calls (beginAttempt env task s node subtaskId key attempt) := by
  unfold beginAttempt
  split
  · trivial
  · rename_i hretries
    split
    · trivial
    · split
      · trivial
      · split
        · exact afterOnce_paced (by omega) _
        · rename_i frame hprepare
          exact ⟨prepare_nodeId hprepare, h, by omega⟩

/-! ### The invariant -/

/-- **The discipline**, of a state and the starts that led to it. -/
structure Disciplined (env : Env) (task : TaskFrame) (s : Run) (sts : List Start) : Prop where
  /-- There is room for what is in flight. -/
  room : (s.inFlight.size : ℤ) ≤ max 0 env.maxConcurrentNodes
  /-- Each node is started at most once. -/
  once : (startedIds sts).Nodup
  /-- Only nodes of the task are started. -/
  nodes : ∀ st ∈ sts, st.node ∈ task.dag.nodes
  /-- A node with inputs is started when enough of them succeeded. -/
  supplied : ∀ st ∈ sts, st.node.inputFrom ≠ [] → required st.node ≤ successes st.node st.states
  /-- The worker is called for started nodes only. -/
  called : ∀ c ∈ s.calls, c.nodeId ∈ startedIds sts
  /-- It is called once, and once more for each retry. -/
  retried : ∀ n ∈ task.dag.nodes, (callsFor s n.id : ℤ) ≤ max 0 (maxRetries task n + 1)

structure Orderly (env : Env) (task : TaskFrame) (s : Run) (sts : List Start) : Prop
    extends Disciplined env task s sts where
  flight : ∀ id f, s.inFlight.get id = some f → f.node ∈ task.dag.nodes ∧ f.node.id = id ∧
    id ∈ startedIds sts ∧ Paced task f.node f.attempt (callsFor s id) f.phase
  taken : s.phase.isRunning = true → ∀ id ∈ startedIds sts, s.nodeStates.get id = none → id ∈ s.inFlight.keys

variable {sts : List Start}

theorem Orderly.frame (h : Orderly env task s sts) {s' : Run} (hflight : s'.inFlight = s.inFlight)
    (hcalls : s'.calls = s.calls)
    (hrun : s'.phase.isRunning = true → s.phase.isRunning = true ∧ s'.nodeStates = s.nodeStates) :
    Orderly env task s' sts := by
  have hfor : ∀ id, callsFor s' id = callsFor s id := by
    intro id
    rw [callsFor, callsFor, hcalls]
  refine ⟨⟨?_, h.once, h.nodes, h.supplied, ?_, ?_⟩, ?_, ?_⟩
  · rw [hflight]
    exact h.room
  · rw [hcalls]
    exact h.called
  · intro n hn
    rw [hfor]
    exact h.retried n hn
  · intro id f hget
    rw [hfor]
    rw [hflight] at hget
    exact h.flight id f hget
  · intro hrunning id hid hnone
    obtain ⟨hs, hstates⟩ := hrun hrunning
    rw [hstates] at hnone
    rw [hflight]
    exact h.taken hs id hid hnone

theorem Orderly.setPhase (h : Orderly env task s sts) {id : String} {f g : InFlight} (hget : s.inFlight.get id = some f)
    (hnode : g.node = f.node) (hpaced : Paced task g.node g.attempt (callsFor s id) g.phase) :
    Orderly env task (setPhase s id g) sts := by
  obtain ⟨hmem, hid, hstarted, -⟩ := h.flight id f hget
  have hkeys : ∀ k, k ∈ (s.inFlight.set id g).keys ↔ k ∈ s.inFlight.keys := by
    intro k
    rw [JsMap.mem_keys_set]
    refine or_iff_right_of_imp ?_
    rintro rfl
    exact JsMap.mem_keys_of_get hget
  have hsize : (s.inFlight.set id g).size = s.inFlight.size := by
    rw [JsMap.size_of_keys s.inFlight.keys_nodup hkeys, JsMap.length_keys]
  have hrunning : (Nop.setPhase s id g).phase.isRunning = s.phase.isRunning := by
    simp only [Nop.setPhase]
    split
    · rename_i heq
      rw [heq]
      split <;> rfl
    · rfl
  refine ⟨⟨?_, h.once, h.nodes, h.supplied, h.called, h.retried⟩, ?_, ?_⟩
  · simp only [Nop.setPhase, hsize]
    exact h.room
  · intro i f' hget'
    simp only [Nop.setPhase, JsMap.get_set] at hget'
    split_ifs at hget' with hi
    · cases hget'
      rw [hi, hnode]
      rw [hnode] at hpaced
      exact ⟨hmem, hid, hstarted, hpaced⟩
    · exact h.flight i f' hget'
  · intro hrun i hi hnone
    rw [hrunning] at hrun
    exact (hkeys i).2 (h.taken hrun i hi hnone)

/-- The worker is called for a node whose target is resolved. -/
theorem Orderly.call (h : Orderly env task s sts) (hn : task.dag.ids.Nodup) {id : String} {f : InFlight}
    {frame frame' : DelegateFrame} (hget : s.inFlight.get id = some f) (hphase : f.phase = .resolving frame)
    (hframe : frame'.nodeId = frame.nodeId) :
    Orderly env task { Nop.setPhase s id { f with phase := .delegated } with calls := s.calls ++ [frame'] } sts := by
  obtain ⟨hmem, hid, hstarted, hpaced⟩ := h.flight id f hget
  rw [hphase] at hpaced
  obtain ⟨hnodeId, hcalls, hretries⟩ := hpaced
  have hmoved : Orderly env task (Nop.setPhase s id { f with phase := .delegated }) sts := by
    refine h.setPhase hget rfl ?_
    show callsFor s id ≤ f.attempt
    omega
  have hfor : ∀ s' : Run, s'.calls = s.calls ++ [frame'] →
      ∀ i, callsFor s' i = callsFor s i + if i = id then 1 else 0 := by
    intro s' hs' i
    rw [callsFor, callsFor, hs', List.filter_append, List.length_append]
    by_cases hi : i = id
    · simp [hi, hframe, hnodeId, hid]
    · simp [hi, hframe, hnodeId, hid, Ne.symm hi]
  refine ⟨⟨hmoved.room, h.once, h.nodes, h.supplied, ?_, ?_⟩, ?_, hmoved.taken⟩
  · intro c hc
    rcases List.mem_append.1 hc with hc | hc
    · exact h.called c hc
    · rw [List.mem_singleton.1 hc, hframe, hnodeId, hid]
      exact hstarted
  · intro n hmem'
    rw [hfor _ rfl]
    split_ifs with hi
    · -- ids are distinct, so `n` is the node in flight
      have hnode : n = f.node := List.inj_on_of_nodup_map hn hmem' hmem (hi.trans hid.symm)
      rw [hnode, hid]
      omega
    · exact h.retried n hmem'
  · intro i f' hget'
    rw [hfor _ rfl]
    split_ifs with hi
    · rw [hi] at hget' ⊢
      obtain rfl : f' = { f with phase := .delegated } := by
        have hset : some { f with phase := .delegated } = some f' := by
          rw [← hget']
          exact (JsMap.get_set_self _ _ _).symm
        exact (Option.some.inj hset).symm
      exact ⟨hmem, hid, hstarted, hcalls⟩
    · exact h.flight i f' (by rw [← hget']; exact (JsMap.get_set_ne _ _ hi).symm)

theorem Orderly.recordOutcome (h : Orderly env task s sts) (id : String) (outcome : NodeOutcome) :
    Orderly env task (recordOutcome s id outcome) sts := by
  refine ⟨⟨?_, h.once, h.nodes, h.supplied, h.called, h.retried⟩, ?_, ?_⟩
  · have hsize : (s.inFlight.delete id).size ≤ s.inFlight.size := List.length_filter_le _ _
    have hroom := h.room
    simp only [Nop.recordOutcome]
    omega
  · intro i f hget
    simp only [Nop.recordOutcome, JsMap.get_delete] at hget
    split_ifs at hget
    exact h.flight i f hget
  · intro hrun i hi hnone
    simp only [Nop.recordOutcome, JsMap.get_set] at hnone
    split_ifs at hnone with hne
    rw [Nop.recordOutcome, JsMap.mem_keys_delete]
    exact ⟨h.taken hrun i hi hnone, hne⟩

theorem Orderly.recordFail (h : Orderly env task s sts) (n : DagNode) : Orderly env task (recordFail s n) sts := by
  refine ⟨⟨h.room, h.once, h.nodes, h.supplied, h.called, h.retried⟩, h.flight, ?_⟩
  intro hrun i hi hnone
  simp only [Nop.recordFail, JsMap.get_set] at hnone
  split_ifs at hnone
  exact h.taken hrun i hi hnone

theorem Orderly.failInfeasible (h : Orderly env task s sts) (ns : List DagNode) :
    Orderly env task (failInfeasible ns s).1 sts := by
  induction ns generalizing s with
  | nil => exact h
  | cons n ns ih =>
    simp only [Nop.failInfeasible]
    split_ifs
    · exact ih (h.recordFail n)
    · exact ih h

/-! ### Starting nodes -/

/-- May `launch` start the node? -/
structure Startable (task : TaskFrame) (s : Run) (n : DagNode) : Prop where
  mem : n ∈ task.dag.nodes
  supplied : n.inputFrom ≠ [] → required n ≤ successes n s.nodeStates

/-- A node that was not started before is, while there is room. -/
theorem Orderly.startNode (h : Orderly env task s sts) (hrun : s.phase.isRunning = true) {n : DagNode}
    (hn : Startable task s n) (hstate : s.nodeStates.get n.id = none) (hflight : n.id ∉ s.inFlight.keys)
    (hroom : ¬ env.maxConcurrentNodes ≤ s.inFlight.size) :
    Orderly env task (startNode env task s n) (sts ++ [⟨n, s.nodeStates⟩]) := by
  have hnew : n.id ∉ startedIds sts := fun hid => hflight (h.taken hrun n.id hid hstate)
  have hids : startedIds (sts ++ [⟨n, s.nodeStates⟩]) = startedIds sts ++ [n.id] := by simp [startedIds]
  have hnone : callsFor s n.id = 0 := by
    rw [callsFor, List.length_eq_zero_iff, List.filter_eq_nil_iff]
    intro c hc hid
    rw [beq_iff_eq] at hid
    exact hnew (hid ▸ h.called c hc)
  refine ⟨⟨?_, ?_, ?_, ?_, ?_, h.retried⟩, ?_, ?_⟩
  · have hsize : (Nop.startNode env task s n).inFlight.size ≤ s.inFlight.size + 1 := JsMap.size_set_le _ _ _
    omega
  · rw [hids]
    exact List.nodup_append.2 ⟨h.once, List.nodup_singleton _, by
      rintro i hi j hj rfl
      rw [List.mem_singleton.1 hj] at hi
      exact hnew hi⟩
  · intro st hst
    rcases List.mem_append.1 hst with hst | hst
    · exact h.nodes st hst
    · rw [List.mem_singleton.1 hst]
      exact hn.mem
  · intro st hst
    rcases List.mem_append.1 hst with hst | hst
    · exact h.supplied st hst
    · rw [List.mem_singleton.1 hst]
      exact hn.supplied
  · intro c hc
    rw [hids]
    exact List.mem_append_left _ (h.called c hc)
  · intro i f hget
    rw [hids]
    simp only [Nop.startNode, JsMap.get_set] at hget
    split_ifs at hget with hi
    · cases hget
      refine ⟨hn.mem, hi.symm, by simp [hi], beginAttempt_paced ?_⟩
      show callsFor s i + 1 ≤ 1
      rw [hi, hnone]
    · obtain ⟨h1, h2, h3, h4⟩ := h.flight i f hget
      exact ⟨h1, h2, List.mem_append_left _ h3, h4⟩
  · intro _ i hi hnone'
    rw [hids, List.mem_append, List.mem_singleton] at hi
    rw [Nop.startNode, JsMap.mem_keys_set]
    exact hi.symm.imp_right fun hi => h.taken hrun i hi hnone'

theorem Orderly.launch (h : Orderly env task s sts) (hrun : s.phase.isRunning = true) {ns : List DagNode}
    (hns : ∀ n ∈ ns, Startable task s n) (hf : Fresh s ns) :
    Orderly env task (launch env task ns s) (sts ++ launched env task ns s) := by
  induction ns generalizing s sts with
  | nil =>
    rw [launched, List.append_nil]
    exact h
  | cons n ns ih =>
    obtain ⟨⟨h1, h2⟩, -⟩ := hf.uncons
    simp only [Nop.launch, launched]
    split_ifs with hroom
    · rw [List.append_nil]
      exact h
    · have hstart := h.startNode hrun (hns n List.mem_cons_self) h1 h2 hroom
      rw [List.append_cons]
      refine ih hstart hrun (fun m hm => ?_) hf.started
      obtain ⟨hm1, hm2⟩ := hns m (List.mem_cons_of_mem n hm)
      exact ⟨hm1, hm2⟩

theorem startable_of_feasible (hn : task.dag.ids.Nodup) {n : DagNode}
    (h : n ∈ (failInfeasible (task.dag.nodes.filter (isReady s)) s).2) :
    Startable task (failInfeasible (task.dag.nodes.filter (isReady s)) s).1 n := by
  have hfresh : Fresh s (task.dag.nodes.filter (isReady s)) := fresh_ready hn
  refine ⟨(List.mem_filter.1 (failInfeasible_subset n h)).1, fun hinputs => ?_⟩
  have hsame : successes n (failInfeasible (task.dag.nodes.filter (isReady s)) s).1.nodeStates =
      successes n s.nodeStates := by
    refine Fresh.failInfeasible_induction (I := fun s' => successes n s'.nodeStates = successes n s.nodeStates)
      rfl hfresh ?_
    intro s' m hs' hnone _
    rw [successes_recordFail (by rw [hnone]; rfl), hs']
  have hfeasible : isInfeasible n s.nodeStates = false := by
    rw [(failInfeasible_spec fun m hm => by rw [(hfresh.2 m hm).1]; rfl).1] at h
    simpa using (List.mem_filter.1 h).2
  rw [hsame]
  simpa [isInfeasible, hinputs] using hfeasible

theorem Orderly.schedule (h : Orderly env task s sts) (hn : task.dag.ids.Nodup) (hrun : s.phase = .looping)
    (hgoes : s.nodeStates.size < (allNodes task.dag).size ∧ s.aborted = false) :
    Orderly env task (schedule env task s) (sts ++ startedAt env task s) := by
  have hfresh : Fresh s (task.dag.nodes.filter (isReady s)) := fresh_ready hn
  have hstarted : startedAt env task s = launched env task
      (Nop.failInfeasible (task.dag.nodes.filter (isReady s)) s).2
      (Nop.failInfeasible (task.dag.nodes.filter (isReady s)) s).1 := by
    unfold startedAt
    rw [hrun]
    dsimp only
    rw [if_pos hgoes, schedule_ready hn]
  rw [hstarted, Nop.schedule, schedule_ready hn]
  refine (h.failInfeasible _).launch ?_ (fun n hmem => startable_of_feasible hn hmem) hfresh.failInfeasible
  rw [failInfeasible_frame, hrun]
  rfl

/-! ### Leaving the loop -/

def SameCalls (s s' : Run) : Prop := s'.inFlight = s.inFlight ∧ s'.calls = s.calls

theorem Orderly.closes (h : Orderly env task s sts) {s' : Run} {P : Prop} (hsame : SameCalls s s')
    (hc : Closes P s s') : Orderly env task s' sts := by
  refine h.frame hsame.1 hsame.2 fun hrun => ?_
  rw [hc.closed] at hrun
  cases hrun

variable (env task s) in
theorem catchError_sameCalls (thrown : Thrown) : SameCalls s (catchError env task s thrown) := by
  unfold catchError
  split_ifs <;> exact ⟨rfl, rfl⟩

variable (env task s) in
theorem finishCompensation_sameCalls (goal : CompensationGoal) (compensation : SagaCompensationResult) :
    SameCalls s (finishCompensation env task s goal compensation) := by
  cases goal with
  | onFailure message => exact ⟨rfl, rfl⟩
  | onSuccess aggregated => exact ⟨rfl, rfl⟩

variable (env task s) in
theorem compensateNext_sameCalls (goal : CompensationGoal) (attempted succeeded : ℕ) (failedIds todo : List String) :
    SameCalls s (compensateNext env task goal attempted s succeeded failedIds todo) := by
  induction todo generalizing s failedIds with
  | nil => exact finishCompensation_sameCalls env task s goal _
  | cons id todo ih =>
    simp only [compensateNext]
    split
    · exact ih s failedIds
    · split
      · exact ih { s with ids := s.ids + 2 } (failedIds ++ [id])
      · exact ⟨rfl, rfl⟩

variable (env task s) in
theorem runSagaCompensation_sameCalls (goal : CompensationGoal) :
    SameCalls s (runSagaCompensation env task s goal) := by
  simp only [runSagaCompensation]
  split_ifs
  · exact finishCompensation_sameCalls env task s goal _
  · exact compensateNext_sameCalls env task s goal _ 0 [] _

variable (env task s) in
theorem failRun_sameCalls (message : String) : SameCalls s (failRun env task s message) := by
  unfold failRun
  split_ifs
  · exact runSagaCompensation_sameCalls env task s _
  · exact ⟨rfl, rfl⟩

variable (env task s) in
theorem conclude_sameCalls : SameCalls s (conclude env task s) := by
  simp only [conclude]
  split_ifs
  · exact failRun_sameCalls env task s _
  · exact runSagaCompensation_sameCalls env task s _
  · exact ⟨rfl, rfl⟩

/-! ### Whole runs -/

theorem Orderly.advance (h : Orderly env task s sts) (hn : task.dag.ids.Nodup) :
    Orderly env task (advance env task s) (sts ++ startedAt env task s) := by
  by_cases hp : s.phase = .looping
  · have hstays : ∀ (_ : ¬ (s.nodeStates.size < (allNodes task.dag).size ∧ s.aborted = false)),
        startedAt env task s = [] := by
      intro hgoes
      unfold startedAt
      rw [hp]
      dsimp only
      rw [if_neg hgoes]
    have heq : Nop.advance env task s = loopHead env task s := by
      unfold Nop.advance
      rw [hp]
    rw [heq]
    unfold loopHead
    split_ifs with hsize haborted
    · rw [hstays (by simp [haborted]), List.append_nil]
      exact h.closes (catchError_sameCalls env task s _) (catchError_closes s _)
    · have hsched := h.schedule hn hp ⟨hsize, by simpa using haborted⟩
      dsimp only
      split_ifs with hidle
      · exact hsched.closes (conclude_sameCalls env task _) (conclude_closes _)
      · refine hsched.frame rfl rfl fun _ => ⟨?_, rfl⟩
        rw [Nop.schedule, launch_frame, failInfeasible_frame, hp]
        rfl
    · rw [hstays (by simp [hsize]), List.append_nil]
      exact h.closes (conclude_sameCalls env task s) (conclude_closes s)
  · have hstays : startedAt env task s = [] := by
      unfold startedAt
      split
      · rename_i heq
        exact absurd heq hp
      · rfl
    rw [hstays, List.append_nil, advance_of_ne_looping hp]
    exact h

/-- Every event keeps the discipline. -/
theorem Orderly.deliver (h : Orderly env task s sts) (hn : task.dag.ids.Nodup) (e : Event) :
    Orderly env task (deliver env task s e) sts := by
  cases e with
  | preflightDone answer =>
    simp only [Nop.deliver, onPreflight]
    split
    · rename_i hp
      split
      · exact h.frame rfl rfl (by rintro ⟨⟩)
      · exact h.frame rfl rfl fun _ => ⟨by rw [hp]; rfl, rfl⟩
    · exact h
  | resolved id answer =>
    simp only [Nop.deliver, onResolved]
    split
    · rename_i f hget
      split
      · rename_i frame hphase
        split
        · exact h.setPhase hget rfl trivial
        · exact h.call hn hget hphase rfl
      · exact h
    · exact h
  | answered id answer =>
    simp only [Nop.deliver, onAnswered]
    split
    · rename_i f hget
      obtain ⟨-, -, -, hpaced⟩ := h.flight id f hget
      split
      · rename_i hphase
        rw [hphase] at hpaced
        have hmoved := h.setPhase (g := { f with
          phase := afterOnce task f.node f.attempt (finishOnce env task f.node s.aborted answer) })
          hget rfl (afterOnce_paced hpaced _)
        split
        · exact hmoved.frame rfl rfl fun hrun => ⟨hrun, rfl⟩
        · exact hmoved
      · exact h
    · exact h
  | delayed id =>
    simp only [Nop.deliver, onDelayed]
    split
    · rename_i f hget
      obtain ⟨-, -, -, hpaced⟩ := h.flight id f hget
      split
      · rename_i hphase
        rw [hphase] at hpaced
        have hmoved := h.setPhase (g := { f with
          attempt := f.attempt + 1
          phase := beginAttempt env task s f.node f.subtaskId f.idempotencyKey (f.attempt + 1) })
          hget rfl (beginAttempt_paced (Nat.succ_le_succ hpaced))
        exact hmoved.frame rfl rfl fun hrun => ⟨hrun, rfl⟩
      · exact h
    · exact h
  | wake =>
    simp only [Nop.deliver, wake]
    split
    · rename_i id hp
      split
      · rename_i outcome hget
        have hrecorded := h.recordOutcome id outcome
        have hrunning : (Nop.recordOutcome s id outcome).phase.isRunning = true := by
          rw [Nop.recordOutcome, hp]
          rfl
        simp only [takeOutcome]
        split_ifs
        · exact hrecorded.frame rfl rfl fun _ => ⟨hrunning, rfl⟩
        · exact hrecorded.frame rfl rfl fun _ => ⟨hrunning, rfl⟩
      · exact h.closes (catchError_sameCalls env task s _) (catchError_closes s _)
      · exact h
    · rename_i message hp
      split
      · -- the nodes in flight are all settled and none of them is taken any more
        obtain ⟨hsame, hcalls⟩ := failRun_sameCalls env task { s with inFlight := JsMap.empty } message
        have hclosed : (failRun env task { s with inFlight := JsMap.empty } message).phase.isRunning = false :=
          (failRun_closes _ message).closed
        have hfor : ∀ id,
            callsFor (failRun env task { s with inFlight := JsMap.empty } message) id = callsFor s id := by
          intro id
          rw [callsFor, hcalls]
          rfl
        refine ⟨⟨?_, h.once, h.nodes, h.supplied, by rw [hcalls]; exact h.called, ?_⟩, ?_, ?_⟩
        · rw [hsame]
          exact le_max_left _ _
        · intro n hmem
          rw [hfor]
          exact h.retried n hmem
        · intro id f hget
          rw [hsame] at hget
          cases hget
        · intro hrun
          rw [hclosed] at hrun
          cases hrun
      · exact h
    · exact h
  | compensationResolved answer =>
    simp only [Nop.deliver, onCompensationResolved]
    split
    · split
      · split
        · exact h.closes (catchError_sameCalls env task s _) (catchError_closes s _)
        · exact h.frame rfl rfl (by rintro ⟨⟩)
      · exact h
    · exact h
  | compensationAnswered answer =>
    simp only [Nop.deliver, onCompensationAnswered]
    split
    · split
      · exact h
      · split
        · exact h.closes (catchError_sameCalls env task s _) (catchError_closes s _)
        · split
          · exact h.closes (compensateNext_sameCalls env task s _ _ _ _ _) (compensateNext_closes _ _ s _ _ _)
          · exact h.closes (compensateNext_sameCalls env task s _ _ _ _ _) (compensateNext_closes _ _ s _ _ _)
    · exact h
  | timeout | abort =>
    simp only [Nop.deliver, abortRun]
    split
    · exact h.frame rfl rfl fun hrun => ⟨hrun, rfl⟩
    · exact h.frame rfl rfl fun hrun => ⟨hrun, rfl⟩
  | cancel => exact h.frame rfl rfl fun hrun => ⟨hrun, rfl⟩

theorem orderly_initial {store : JsMap String NopTaskRecord} {signalAborted : Bool} {s₀ : Run}
    (h : execute env task store signalAborted = .ok s₀) : Orderly env task s₀ [] := by
  obtain ⟨v, -, rfl⟩ := execute_ok h
  refine ⟨⟨le_max_left _ _, List.nodup_nil, ?_, ?_, ?_, fun n _ => le_max_left _ _⟩, ?_, ?_⟩
  · intro st hst
    cases hst
  · intro st hst
    cases hst
  · intro c hc
    cases hc
  · intro id f hget
    cases hget
  · intro _ id hid
    cases hid

end NpsSdk.Nop
