import NpsSdk.Nop.Orchestrator

/-!
# What a completed task says about its nodes

The main loop leaves when every node has a state or when nothing is in flight and nothing can be
started.  In the second case nodes are left without a state, and the task is reported as completed
all the same, unless an end node failed.  `Stuck` is the condition on the head of the loop under
which that happens; a completed task accounts for all its nodes exactly when no head was stuck
(and no node bears the one name a plain object cannot have as a member).
-/

namespace NpsSdk.Nop

open NpsSdk.Lib

variable {env : Env} {task : TaskFrame}

/-! ### The table of nodes -/

variable {dag : TaskDag}

theorem allNodes_entries (hn : dag.ids.Nodup) : (allNodes dag).entries = dag.nodes.map fun n => (n.id, n) :=
  JsMap.ofList_entries (by simpa [List.map_map, Function.comp_def, TaskDag.ids] using hn)

theorem allNodes_values (hn : dag.ids.Nodup) : (allNodes dag).values = dag.nodes := by
  simp [JsMap.values, allNodes_entries hn, List.map_map, Function.comp_def]

theorem allNodes_keys (hn : dag.ids.Nodup) : (allNodes dag).keys = dag.ids := by
  simp [JsMap.keys, allNodes_entries hn, List.map_map, Function.comp_def, TaskDag.ids]

theorem allNodes_size (hn : dag.ids.Nodup) : (allNodes dag).size = dag.ids.length := by
  rw [← JsMap.length_keys, allNodes_keys hn]

variable {n : DagNode} {id : String}

theorem allNodes_get (hn : dag.ids.Nodup) : (allNodes dag).get id = some n ↔ n ∈ dag.nodes ∧ n.id = id := by
  rw [← JsMap.mem_entries_iff, allNodes_entries hn]
  simp only [List.mem_map, Prod.mk.injEq]
  constructor
  · rintro ⟨m, hm, rfl, rfl⟩
    exact ⟨hm, rfl⟩
  · rintro ⟨hm, rfl⟩
    exact ⟨n, hm, rfl, rfl⟩

theorem mem_endNodeIds (hn : dag.ids.Nodup) : id ∈ endNodeIds dag ↔ id ∈ dag.ids ∧ ∀ e ∈ dag.edges, e.src ≠ id := by
  simp [endNodeIds, allNodes_keys hn]

/-! ### The head of the loop -/

def AllSet (task : TaskFrame) (s : Run) : Prop :=
  ∀ n ∈ task.dag.nodes, (s.nodeStates.get n.id).isSome

/-- The loop can go no further while nodes are left: nothing is in flight, nothing can be started,
and some node neither has a state nor is about to be failed for lack of inputs. -/
structure Stuck (env : Env) (task : TaskFrame) (s : Run) : Prop where
  /-- Nothing is in flight. -/
  idle : s.inFlight.size = 0
  /-- No node can be started. -/
  blocked : env.maxConcurrentNodes ≤ 0 ∨
    ∀ n ∈ task.dag.nodes, isReady s n = true → isInfeasible n s.nodeStates = true
  /-- A node is left over. -/
  leftOver : ∃ n ∈ task.dag.nodes, s.nodeStates.get n.id = none ∧
    ¬ (isReady s n = true ∧ isInfeasible n s.nodeStates = true)

variable {s : Run}

theorem isReady_get (h : isReady s n = true) : s.nodeStates.get n.id = none ∧ s.inFlight.get n.id = none := by
  simp only [isReady, JsMap.has, Bool.and_eq_true, Bool.not_eq_true', Option.isSome_eq_false_iff,
    Option.isNone_iff_eq_none] at h
  exact h.1

theorem successes_recordFail (h : isSuccess (s.nodeStates.get n.id) = false) (m : DagNode) :
    successes m (recordFail s n).nodeStates = successes m s.nodeStates := by
  unfold successes recordFail
  congr 1
  refine List.filter_congr fun d _ => ?_
  by_cases hd : d = n.id
  · subst hd
    rw [JsMap.get_set_self, h]
    rfl
  · rw [JsMap.get_set_ne _ _ hd]

theorem isInfeasible_recordFail (h : isSuccess (s.nodeStates.get n.id) = false) (m : DagNode) :
    isInfeasible m (recordFail s n).nodeStates = isInfeasible m s.nodeStates := by
  simp only [isInfeasible, successes_recordFail h]

variable {ns : List DagNode}

/-- What `failInfeasible` leaves to start, and the states it sets. -/
theorem failInfeasible_spec
    (h : ∀ n ∈ ns, isSuccess (s.nodeStates.get n.id) = false) :
    (failInfeasible ns s).2 = (ns.filter fun n => !isInfeasible n s.nodeStates) ∧
    ∀ id, (failInfeasible ns s).1.nodeStates.get id =
      if ∃ n ∈ ns, n.id = id ∧ isInfeasible n s.nodeStates = true then some .failed
      else s.nodeStates.get id := by
  induction ns generalizing s with
  | nil => simp [failInfeasible]
  | cons n ns ih =>
    by_cases hn : isInfeasible n s.nodeStates = true
    · have hself := h n (by simp)
      have h' : ∀ m ∈ ns, isSuccess ((recordFail s n).nodeStates.get m.id) = false := by
        intro m hm
        simp only [recordFail, JsMap.get_set]
        split_ifs
        · rfl
        · exact h m (by simp [hm])
      obtain ⟨ih1, ih2⟩ := ih h'
      simp only [failInfeasible, hn, if_true, ih1, ih2, isInfeasible_recordFail hself]
      refine ⟨by simp [hn], fun id => ?_⟩
      by_cases hid : n.id = id
      · simp [recordFail, hid, hn]
      · simp [recordFail, JsMap.get_set, hid, Ne.symm hid]
    · obtain ⟨ih1, ih2⟩ := ih fun m hm => h m (by simp [hm])
      simp only [failInfeasible, hn, ih1]
      refine ⟨by simp [hn], fun id => ?_⟩
      simp [hn, ih2]

/-- What `failInfeasible` does not touch. -/
theorem failInfeasible_frame (ns : List DagNode) (s : Run) :
    (failInfeasible ns s).1 = { s with
      nodeStates := (failInfeasible ns s).1.nodeStates
      record := { s.record with nodeResults := (failInfeasible ns s).1.record.nodeResults } } := by
  induction ns generalizing s with
  | nil => rfl
  | cons n ns ih =>
    simp only [failInfeasible]
    split_ifs
    · conv_lhs => rw [ih]
      rfl
    · conv_lhs => rw [ih]

/-- What `launch` does not touch. -/
theorem launch_frame (ns : List DagNode) (s : Run) :
    launch env task ns s = { s with
      inFlight := (launch env task ns s).inFlight
      ids := (launch env task ns s).ids
      ticks := (launch env task ns s).ticks } := by
  induction ns generalizing s with
  | nil => rfl
  | cons n ns ih =>
    simp only [launch]
    split_ifs
    · rfl
    · conv_lhs => rw [ih]
      rfl

theorem launch_size_ne_zero (h : s.inFlight.size ≠ 0) : (launch env task ns s).inFlight.size ≠ 0 := by
  induction ns generalizing s with
  | nil => exact h
  | cons n ns ih =>
    simp only [launch]
    split_ifs
    · exact h
    · exact ih (JsMap.size_set_ne_zero _ _ _)

theorem launch_size_eq_zero :
    (launch env task ns s).inFlight.size = 0 ↔ s.inFlight.size = 0 ∧ (ns = [] ∨ env.maxConcurrentNodes ≤ 0) := by
  by_cases hs : s.inFlight.size = 0
  · cases ns with
    | nil => simp [launch, hs]
    | cons n ns =>
      simp only [launch, hs, Nat.cast_zero, true_and, reduceCtorEq, false_or]
      split_ifs with hmax
      · simp [hs, hmax]
      · simp only [hmax, iff_false]
        exact launch_size_ne_zero (JsMap.size_set_ne_zero _ _ _)
  · simp only [hs, false_and, iff_false]
    exact launch_size_ne_zero hs

section schedule

variable {s : Run} (hn : task.dag.ids.Nodup)

include hn

theorem schedule_ready (s : Run) :
    (allNodes task.dag).values.filter (isReady s) = task.dag.nodes.filter (isReady s) := by
  rw [allNodes_values hn]

theorem schedule_states (s : Run) (id : String) :
    (schedule env task s).nodeStates.get id =
      if ∃ n ∈ task.dag.nodes, n.id = id ∧ isReady s n = true ∧ isInfeasible n s.nodeStates = true
      then some .failed else s.nodeStates.get id := by
  unfold schedule
  rw [launch_frame, schedule_ready hn]
  have h : ∀ n ∈ task.dag.nodes.filter (isReady s), isSuccess (s.nodeStates.get n.id) = false := by
    intro n hmem
    rw [(isReady_get (List.mem_filter.1 hmem).2).1]
    rfl
  show (failInfeasible _ s).1.nodeStates.get id = _
  rw [(failInfeasible_spec h).2 id]
  refine if_congr ⟨?_, ?_⟩ rfl rfl
  · rintro ⟨n, hmem, h3, h4⟩
    exact ⟨n, (List.mem_filter.1 hmem).1, h3, (List.mem_filter.1 hmem).2, h4⟩
  · rintro ⟨n, h1, h3, h2, h4⟩
    exact ⟨n, List.mem_filter.2 ⟨h1, h2⟩, h3, h4⟩

theorem schedule_idle (s : Run) :
    (schedule env task s).inFlight.size = 0 ↔ s.inFlight.size = 0 ∧
      (env.maxConcurrentNodes ≤ 0 ∨
        ∀ n ∈ task.dag.nodes, isReady s n = true → isInfeasible n s.nodeStates = true) := by
  unfold schedule
  have h : ∀ n ∈ task.dag.nodes.filter (isReady s), isSuccess (s.nodeStates.get n.id) = false := by
    intro n hmem
    rw [(isReady_get (List.mem_filter.1 hmem).2).1]
    rfl
  rw [launch_size_eq_zero, schedule_ready hn, (failInfeasible_spec h).1, failInfeasible_frame,
    List.filter_eq_nil_iff, or_comm]
  simp only [List.mem_filter, Bool.not_eq_true', Bool.not_eq_false, and_imp]

/-- When the loop leaves with nothing in flight, every node has a state unless the head was stuck. -/
theorem schedule_allSet (s : Run) (hidle : (schedule env task s).inFlight.size = 0) :
    AllSet task (schedule env task s) ↔ ¬ Stuck env task s := by
  obtain ⟨h0, hblocked⟩ := (schedule_idle hn s).1 hidle
  constructor
  · rintro hall ⟨-, -, n, hmem, hnone, hnot⟩
    have := hall n hmem
    rw [schedule_states hn, if_neg, hnone] at this
    · cases this
    · rintro ⟨m, hm, hid, hr⟩
      have : m = n := List.inj_on_of_nodup_map hn hm hmem hid
      exact hnot (this ▸ hr)
  · intro hnot n hmem
    rw [schedule_states hn]
    split_ifs with hex
    · rfl
    · by_contra hnone
      rw [Option.not_isSome_iff_eq_none] at hnone
      exact hnot ⟨h0, hblocked, n, hmem, hnone, fun hr => hex ⟨n, hmem, rfl, hr⟩⟩

end schedule

/-! ### Closing a run -/

/-- Is the main loop still to go on? -/
def Phase.isRunning : Phase → Bool
  | .preflight | .looping | .racing _ | .settling _ => true
  | _ => false

/-- The task is reported as completed, now or after its compensation. -/
def Succeeds (s : Run) : Prop :=
  match s.phase with
  | .returned r => r.state = .completed
  | .compensating c => ∃ aggregated, c.goal = .onSuccess aggregated
  | _ => False

def ResultOk (s : Run) : Prop :=
  ∀ r, s.phase = .returned r → r.state = .completed →
    r.nodeResults = mapToRecord s.record.nodeResults

/-- `s'` ends the main loop of `s`, and reports success only if `P`. -/
structure Closes (P : Prop) (s s' : Run) : Prop where
  /-- The states of the nodes are kept. -/
  states : s'.nodeStates = s.nodeStates
  /-- So are the recorded results. -/
  recorded : s'.record.nodeResults = s.record.nodeResults
  /-- The loop is over. -/
  closed : s'.phase.isRunning = false
  /-- What is returned is what was recorded. -/
  result : ResultOk s'
  /-- When success is reported. -/
  success : Succeeds s' → P

theorem Closes.mono {P Q : Prop} {s s' : Run} (h : Closes P s s') (hpq : P → Q) : Closes Q s s' :=
  ⟨h.states, h.recorded, h.closed, h.result, fun hs => hpq (h.success hs)⟩

theorem finalize_closes (s : Run) (aggregated : Option Aggregate) (state : TaskState)
    (error : Option TaskError) (compensation : Option SagaCompensationResult) :
    Closes (state = .completed) s (finalize env task s aggregated state error compensation) where
  states := rfl
  recorded := rfl
  closed := rfl
  result := by
    rintro r hr -
    cases hr
    rfl
  success := id

theorem catchError_closes (s : Run) (thrown : Thrown) : Closes False s (catchError env task s thrown) := by
  unfold catchError
  split_ifs
  · exact (finalize_closes s _ _ _ _).mono (by simp)
  · exact (finalize_closes s _ _ _ _).mono (by simp)
  · exact ⟨rfl, rfl, rfl, by rintro r ⟨⟩, id⟩

theorem finishCompensation_closes (s : Run) (goal : CompensationGoal) (compensation : SagaCompensationResult) :
    Closes (∃ aggregated, goal = .onSuccess aggregated) s (finishCompensation env task s goal compensation) := by
  cases goal with
  | onFailure message => exact (finalize_closes s _ _ _ _).mono (by simp)
  | onSuccess aggregated => exact (finalize_closes s _ _ _ _).mono fun _ => ⟨aggregated, rfl⟩

theorem compensateNext_closes (goal : CompensationGoal) (attempted : ℕ) (s : Run) (succeeded : ℕ)
    (failedIds todo : List String) :
    Closes (∃ aggregated, goal = .onSuccess aggregated) s
      (compensateNext env task goal attempted s succeeded failedIds todo) := by
  induction todo generalizing s failedIds with
  | nil => exact finishCompensation_closes s goal _
  | cons id todo ih =>
    simp only [compensateNext]
    split
    · exact ih s failedIds
    · split
      · obtain ⟨h1, h2, h3, h4, h5⟩ := ih { s with ids := s.ids + 2 } (failedIds ++ [id])
        exact ⟨h1, h2, h3, h4, h5⟩
      · exact ⟨rfl, rfl, rfl, by rintro r ⟨⟩, fun h => h⟩

theorem runSagaCompensation_closes (s : Run) (goal : CompensationGoal) :
    Closes (∃ aggregated, goal = .onSuccess aggregated) s (runSagaCompensation env task s goal) := by
  simp only [runSagaCompensation]
  split_ifs
  · exact finishCompensation_closes s goal _
  · exact compensateNext_closes goal _ s 0 [] _

theorem failRun_closes (s : Run) (message : String) : Closes False s (failRun env task s message) := by
  unfold failRun
  split_ifs
  · exact (runSagaCompensation_closes s _).mono (by simp)
  · exact (finalize_closes s _ _ _ _).mono (by simp)

theorem conclude_closes (s : Run) : Closes (failedEnds task s = []) s (conclude env task s) := by
  simp only [conclude]
  split_ifs with h1 h2
  · exact (failRun_closes s _).mono False.elim
  · exact (runSagaCompensation_closes s _).mono fun _ => by simpa using h1
  · exact (finalize_closes s _ _ _ _).mono fun _ => by simpa using h1

/-- Once the main loop is over no event reopens it, and none turns another end into success. -/
theorem deliver_closes (hs : s.phase.isRunning = false) (hr : ResultOk s) (e : Event) :
    Closes (Succeeds s) s (deliver env task s e) := by
  have hsame : Closes (Succeeds s) s s := ⟨rfl, rfl, hs, hr, id⟩
  have hflight : ∀ id f, Closes (Succeeds s) s (setPhase s id f) := by
    intro id f
    have hp : (setPhase s id f).phase = s.phase := by
      simp only [setPhase]
      split
      · rename_i h
        rw [h] at hs
        cases hs
      · rfl
    refine ⟨rfl, rfl, by rw [hp, hs], ?_, ?_⟩
    · intro r
      rw [hp]
      exact hr r
    · rw [Succeeds, hp]
      exact fun h => h
  have hcomp : ∀ c, s.phase = .compensating c → (∃ aggregated, c.goal = .onSuccess aggregated) → Succeeds s := by
    intro c hc h
    rw [Succeeds, hc]
    exact h
  cases e with
  | preflightDone answer =>
    simp only [deliver, onPreflight]
    split
    · rename_i h
      rw [h] at hs
      cases hs
    · exact hsame
  | resolved id answer =>
    simp only [deliver, onResolved]
    split
    · split
      · split
        · exact hflight _ _
        · obtain ⟨h1, h2, h3, h4, h5⟩ := hflight id _
          exact ⟨h1, h2, h3, h4, h5⟩
      · exact hsame
    · exact hsame
  | answered id answer =>
    simp only [deliver, onAnswered]
    split
    · split
      · split
        · obtain ⟨h1, h2, h3, h4, h5⟩ := hflight id _
          exact ⟨h1, h2, h3, h4, h5⟩
        · exact hflight _ _
      · exact hsame
    · exact hsame
  | delayed id =>
    simp only [deliver, onDelayed]
    split
    · split
      · obtain ⟨h1, h2, h3, h4, h5⟩ := hflight id _
        exact ⟨h1, h2, h3, h4, h5⟩
      · exact hsame
    · exact hsame
  | wake =>
    simp only [deliver, wake]
    split
    · rename_i h
      rw [h] at hs
      cases hs
    · rename_i h
      rw [h] at hs
      cases hs
    · exact hsame
  | compensationResolved answer =>
    simp only [deliver, onCompensationResolved]
    split
    · rename_i c hc
      split
      · split
        · exact (catchError_closes s _).mono False.elim
        · exact ⟨rfl, rfl, rfl, by rintro r ⟨⟩, fun h => hcomp c hc h⟩
      · exact hsame
    · exact hsame
  | compensationAnswered answer =>
    simp only [deliver, onCompensationAnswered]
    split
    · rename_i c hc
      split
      · exact hsame
      · split
        · exact (catchError_closes s _).mono False.elim
        · split_ifs
          · exact (compensateNext_closes _ _ s _ _ _).mono (hcomp c hc)
          · exact (compensateNext_closes _ _ s _ _ _).mono (hcomp c hc)
    · exact hsame
  | timeout =>
    simp only [deliver, abortRun]
    split_ifs
    · exact hsame
    · exact ⟨rfl, rfl, hs, hr, id⟩
  | abort =>
    simp only [deliver, abortRun]
    split_ifs
    · exact ⟨rfl, rfl, hs, hr, id⟩
    · exact ⟨rfl, rfl, hs, hr, id⟩
  | cancel => exact ⟨rfl, rfl, hs, hr, id⟩

/-! ### The books of the main loop -/

/-- The states a node ends in. -/
def IsTerminal (state : TaskState) : Prop :=
  state = .completed ∨ state = .failed ∨ state = .skipped

/-- What the main loop has recorded. -/
structure Books (task : TaskFrame) (s : Run) : Prop where
  /-- Only nodes have a state. -/
  states_ids : ∀ id ∈ s.nodeStates.keys, id ∈ task.dag.ids
  /-- A state is terminal. -/
  terminal : ∀ id state, s.nodeStates.get id = some state → IsTerminal state
  /-- The nodes with a state are those with a recorded result. -/
  recorded : ∀ id, id ∈ s.record.nodeResults.keys ↔ id ∈ s.nodeStates.keys

structure Flight (task : TaskFrame) (s : Run) : Prop where
  /-- Only nodes are in flight. -/
  ids : ∀ id ∈ s.inFlight.keys, id ∈ task.dag.ids
  /-- An outcome is terminal. -/
  outcomes : ∀ id f outcome, s.inFlight.get id = some f → f.phase = .settled (.ok outcome) →
    IsTerminal outcome.state

theorem Closes.books {P : Prop} {s s' : Run} (h : Closes P s s') (hb : Books task s) : Books task s' := by
  obtain ⟨h1, h2, h3⟩ := hb
  exact ⟨by rwa [h.states], by rwa [h.states], by rwa [h.states, h.recorded]⟩

theorem reading_terminal (r : Reading) : IsTerminal r.outcome.state := by
  cases r with
  | finalError e =>
    simp only [Reading.outcome]
    split_ifs
    · exact .inl rfl
    · exact .inr (.inl rfl)
  | refused => exact .inr (.inl rfl)
  | finalData => exact .inl rfl
  | noFinal => exact .inr (.inl rfl)

variable {outcome : NodeOutcome} {node : DagNode}

theorem finishOnce_terminal {aborted : Bool} {answer : StreamAnswer}
    (h : finishOnce env task node aborted answer = .ok outcome) : IsTerminal outcome.state := by
  unfold finishOnce at h
  split_ifs at h
  · cases h
    exact .inr (.inl rfl)
  · cases h
    exact reading_terminal _

theorem afterOnce_settled {attempt : ℕ} {r : Except Thrown NodeOutcome}
    (h : afterOnce task node attempt r = .settled (.ok outcome)) : r = .ok outcome := by
  cases r with
  | error e => simp [afterOnce] at h
  | ok o =>
    simp only [afterOnce] at h
    split_ifs at h
    · cases h
      rfl
    · cases h
      rfl

variable {context : Context}

theorem conditionOutcome_terminal
    (h : conditionOutcome env node context = some outcome) : IsTerminal outcome.state := by
  unfold conditionOutcome at h
  split at h
  · cases h
  · split at h
    · cases h
    · cases h
      exact .inr (.inr rfl)
    · cases h
      exact .inr (.inl rfl)

variable {subtaskId key : String}

theorem prepare_error_failed {ticks : ℕ} (h : prepare env task node subtaskId key context ticks = .error outcome) :
    outcome.state = .failed := by
  unfold prepare at h
  split at h
  · cases h
    rfl
  · cases h

theorem prepare_terminal
    {ticks attempt : ℕ}
    (h : (match prepare env task node subtaskId key context ticks with
      | .error outcome => afterOnce task node attempt (.ok outcome)
      | .ok frame => .resolving frame) = .settled (.ok outcome)) : IsTerminal outcome.state := by
  split at h
  · rename_i hp
    cases afterOnce_settled h
    exact .inr (.inl (prepare_error_failed hp))
  · cases h

theorem beginAttempt_terminal {attempt : ℕ}

    (h : beginAttempt env task s node subtaskId key attempt = .settled (.ok outcome)) :
    IsTerminal outcome.state := by
  unfold beginAttempt at h
  split_ifs at h with h1 h2 h3
  · cases h
    exact .inr (.inl rfl)
  · cases h
  · split at h
    · rename_i hc
      cases h
      exact conditionOutcome_terminal hc
    · exact prepare_terminal h
  · exact prepare_terminal h

theorem Flight.set {s s' : Run} (h : Flight task s) {f : InFlight}
    (hid : id ∈ task.dag.ids) (hf : ∀ outcome, f.phase = .settled (.ok outcome) →
      IsTerminal outcome.state) (hs : s'.inFlight = s.inFlight.set id f) : Flight task s' := by
  constructor
  · intro id' hid'
    rw [hs, JsMap.mem_keys_set] at hid'
    rcases hid' with rfl | hid'
    · exact hid
    · exact h.ids id' hid'
  · intro id' f' outcome hget hphase
    rw [hs, JsMap.get_set] at hget
    split_ifs at hget
    · cases hget
      exact hf outcome hphase
    · exact h.outcomes id' f' outcome hget hphase

theorem Flight.of_eq {s s' : Run} (h : Flight task s) (hs : s'.inFlight = s.inFlight) : Flight task s' := by
  obtain ⟨h1, h2⟩ := h
  exact ⟨by rwa [hs], by rwa [hs]⟩

/-- A running state: the loop is still to go on and its books are in order. -/
structure Running (task : TaskFrame) (s : Run) : Prop where
  running : s.phase.isRunning = true
  books : Books task s
  flight : Flight task s

theorem setPhase_running (h : Running task s) {f : InFlight} (hid : id ∈ s.inFlight.keys)
    (hf : ∀ outcome, f.phase = .settled (.ok outcome) → IsTerminal outcome.state) :
    Running task (setPhase s id f) := by
  refine ⟨?_, ⟨h.books.states_ids, h.books.terminal, h.books.recorded⟩, h.flight.set (h.flight.ids id hid) hf rfl⟩
  simp only [setPhase]
  split
  · split_ifs
    · rfl
    · exact h.running
  · exact h.running

theorem recordOutcome_books (h : Running task s) {f : InFlight} (hget : s.inFlight.get id = some f)
    (hphase : f.phase = .settled (.ok outcome)) :
    Books task (recordOutcome s id outcome) ∧ Flight task (recordOutcome s id outcome) := by
  refine ⟨⟨?_, ?_, ?_⟩, ⟨?_, ?_⟩⟩
  · intro id' hid'
    rcases (JsMap.mem_keys_set _ _ _ _).1 hid' with rfl | hid'
    · exact h.flight.ids _ (JsMap.mem_keys_of_get hget)
    · exact h.books.states_ids id' hid'
  · intro id' state hst
    simp only [recordOutcome, JsMap.get_set] at hst
    split_ifs at hst
    · cases hst
      exact h.flight.outcomes id f outcome hget hphase
    · exact h.books.terminal id' state hst
  · intro id'
    simp only [recordOutcome, JsMap.mem_keys_set, h.books.recorded]
  · intro id' hid'
    simp only [recordOutcome, JsMap.mem_keys_delete] at hid'
    exact h.flight.ids id' hid'.1
  · intro id' f' o hget' hphase'
    simp only [recordOutcome, JsMap.get_delete] at hget'
    split_ifs at hget'
    exact h.flight.outcomes id' f' o hget' hphase'

/-- An event of a running state keeps it running or ends it without success. -/
theorem deliver_running (h : Running task s) (e : Event) :
    Running task (deliver env task s e) ∨ ∃ s₁, Books task s₁ ∧ Closes False s₁ (deliver env task s e) := by
  cases e with
  | preflightDone answer =>
    simp only [deliver, onPreflight]
    split
    · split
      · right
        refine ⟨s, h.books, rfl, rfl, rfl, ?_, ?_⟩
        · rintro r hr hc
          cases hr
          cases hc
        · rintro ⟨⟩
      · exact .inl ⟨rfl, ⟨h.books.states_ids, h.books.terminal, h.books.recorded⟩, h.flight.of_eq rfl⟩
    · exact .inl h
  | resolved id answer =>
    left
    simp only [deliver, onResolved]
    split
    · rename_i f hget
      have hid := JsMap.mem_keys_of_get hget
      split
      · split
        · exact setPhase_running h hid (by rintro o ⟨⟩)
        · obtain ⟨h1, ⟨h2, h3, h4⟩, h5⟩ :=
            setPhase_running h (f := { f with phase := .delegated }) hid (by rintro o ⟨⟩)
          exact ⟨h1, ⟨h2, h3, h4⟩, h5.of_eq rfl⟩
      · exact h
    · exact h
  | answered id answer =>
    left
    simp only [deliver, onAnswered]
    split
    · rename_i f hget
      have hid := JsMap.mem_keys_of_get hget
      split
      · have hr := setPhase_running h (f := { f with
            phase := afterOnce task f.node f.attempt (finishOnce env task f.node s.aborted answer) })
          hid fun o ho => finishOnce_terminal (afterOnce_settled ho)
        split
        · obtain ⟨h1, ⟨h2, h3, h4⟩, h5⟩ := hr
          exact ⟨h1, ⟨h2, h3, h4⟩, h5.of_eq rfl⟩
        · exact hr
      · exact h
    · exact h
  | delayed id =>
    left
    simp only [deliver, onDelayed]
    split
    · rename_i f hget
      have hid := JsMap.mem_keys_of_get hget
      split
      · obtain ⟨h1, ⟨h2, h3, h4⟩, h5⟩ := setPhase_running h (f := { f with
            attempt := f.attempt + 1
            phase := beginAttempt env task s f.node f.subtaskId f.idempotencyKey (f.attempt + 1) })
          hid fun o ho => beginAttempt_terminal ho
        exact ⟨h1, ⟨h2, h3, h4⟩, h5.of_eq rfl⟩
      · exact h
    · exact h
  | wake =>
    simp only [deliver, wake]
    split
    · rename_i id hphase
      split
      · rename_i outcome hget
        obtain ⟨⟨h1, h2, h3⟩, h4⟩ := recordOutcome_books h hget rfl
        left
        simp only [takeOutcome]
        split_ifs
        · exact ⟨rfl, ⟨h1, h2, h3⟩, h4.of_eq rfl⟩
        · exact ⟨rfl, ⟨h1, h2, h3⟩, h4.of_eq rfl⟩
      · exact .inr ⟨s, h.books, catchError_closes s _⟩
      · exact .inl h
    · split
      · exact .inr ⟨{ s with inFlight := JsMap.empty },
          ⟨h.books.states_ids, h.books.terminal, h.books.recorded⟩, failRun_closes _ _⟩
      · exact .inl h
    · exact .inl h
  | compensationResolved answer =>
    left
    simp only [deliver, onCompensationResolved]
    split
    · rename_i hc
      have := h.running
      rw [hc] at this
      cases this
    · exact h
  | compensationAnswered answer =>
    left
    simp only [deliver, onCompensationAnswered]
    split
    · rename_i hc
      have := h.running
      rw [hc] at this
      cases this
    · exact h
  | timeout =>
    left
    simp only [deliver, abortRun]
    split_ifs
    · exact h
    · exact ⟨h.running, ⟨h.books.states_ids, h.books.terminal, h.books.recorded⟩, h.flight.of_eq rfl⟩
  | abort =>
    left
    simp only [deliver, abortRun]
    split_ifs <;> exact ⟨h.running, ⟨h.books.states_ids, h.books.terminal, h.books.recorded⟩, h.flight.of_eq rfl⟩
  | cancel =>
    exact .inl ⟨h.running, ⟨h.books.states_ids, h.books.terminal, h.books.recorded⟩, h.flight.of_eq rfl⟩

/-! ### One pass of the loop -/

theorem recordFail_books (h : Books task s) (hn : n ∈ task.dag.nodes) : Books task (recordFail s n) := by
  refine ⟨?_, ?_, ?_⟩
  · intro id hid
    rcases (JsMap.mem_keys_set _ _ _ _).1 hid with rfl | hid
    · exact List.mem_map_of_mem hn
    · exact h.states_ids id hid
  · intro id state hst
    simp only [recordFail, JsMap.get_set] at hst
    split_ifs at hst
    · cases hst
      exact .inr (.inl rfl)
    · exact h.terminal id state hst
  · intro id
    simp only [recordFail, JsMap.mem_keys_set, h.recorded]

theorem failInfeasible_books (h : Books task s)
    (hns : ∀ n ∈ ns, n ∈ task.dag.nodes) : Books task (failInfeasible ns s).1 := by
  induction ns generalizing s with
  | nil => exact h
  | cons n ns ih =>
    simp only [failInfeasible]
    split_ifs
    · exact ih (recordFail_books h (hns n (by simp))) fun m hm => hns m (by simp [hm])
    · exact ih h fun m hm => hns m (by simp [hm])

theorem failInfeasible_subset : ∀ n ∈ (failInfeasible ns s).2, n ∈ ns := by
  induction ns generalizing s with
  | nil => simp [failInfeasible]
  | cons n ns ih =>
    simp only [failInfeasible]
    split_ifs
    · exact fun m hm => List.mem_cons_of_mem _ (ih m hm)
    · intro m hm
      rcases List.mem_cons.1 hm with rfl | hm
      · exact List.mem_cons_self
      · exact List.mem_cons_of_mem _ (ih m hm)

theorem launch_books (hb : Books task s) (hf : Flight task s) (hns : ∀ n ∈ ns, n ∈ task.dag.nodes) :
    Books task (launch env task ns s) ∧ Flight task (launch env task ns s) := by
  induction ns generalizing s with
  | nil => exact ⟨hb, hf⟩
  | cons n ns ih =>
    simp only [launch]
    split_ifs
    · exact ⟨hb, hf⟩
    · exact ih ⟨hb.states_ids, hb.terminal, hb.recorded⟩
        (hf.set (List.mem_map_of_mem (hns n (by simp))) (fun o ho => beginAttempt_terminal ho) rfl)
        fun m hm => hns m (by simp [hm])

theorem schedule_books (hn : task.dag.ids.Nodup) (hb : Books task s) (hf : Flight task s) :
    Books task (schedule env task s) ∧ Flight task (schedule env task s) := by
  have hmem : ∀ n ∈ (allNodes task.dag).values.filter (isReady s), n ∈ task.dag.nodes := by
    rw [allNodes_values hn]
    exact fun n h => (List.mem_filter.1 h).1
  refine launch_books (failInfeasible_books hb hmem) (hf.of_eq ?_)
    fun n h => hmem n (failInfeasible_subset n h)
  rw [failInfeasible_frame]

/-- From its head the loop races on, which it does only if it is not stuck; or it is aborted; or it
is over, and then every node has a state unless it was stuck. -/
theorem loopHead_cases (hn : task.dag.ids.Nodup) (h : Running task s) :
    (Running task (loopHead env task s) ∧ ¬ Stuck env task s) ∨ Closes False s (loopHead env task s) ∨
    ∃ s₁, Books task s₁ ∧ Closes (failedEnds task s₁ = []) s₁ (loopHead env task s) ∧
      (AllSet task s₁ ↔ ¬ Stuck env task s) := by
  unfold loopHead
  split_ifs with hsize hab
  · exact .inr (.inl (catchError_closes s _))
  · simp only
    obtain ⟨hb, hf⟩ : Books task (schedule env task s) ∧ Flight task (schedule env task s) :=
      schedule_books hn h.books h.flight
    split_ifs with hidle
    · exact .inr (.inr ⟨_, hb, conclude_closes _, schedule_allSet hn s hidle⟩)
    · refine .inl ⟨⟨rfl, ⟨hb.states_ids, hb.terminal, hb.recorded⟩, hf.of_eq rfl⟩, fun hstuck => ?_⟩
      exact hidle ((schedule_idle hn s).2 ⟨hstuck.idle, hstuck.blocked⟩)
  · have hall : AllSet task s := by
      intro n hmem
      rw [JsMap.get_isSome_iff]
      rw [allNodes_size hn] at hsize
      exact JsMap.mem_keys_of_size h.books.states_ids (by omega) (List.mem_map_of_mem hmem)
    refine .inr (.inr ⟨s, h.books, conclude_closes s, iff_of_true hall ?_⟩)
    rintro ⟨-, -, n, hmem, hnone, -⟩
    have := hall n hmem
    rw [hnone] at this
    cases this

/-! ### Whole runs -/

def NeverStuck (env : Env) (task : TaskFrame) (s₀ : Run) (events : List Event) : Prop :=
  (s₀.phase = .looping → ¬ Stuck env task s₀) ∧
    Along (step env task) (fun s e => (deliver env task s e).phase = .looping →
      ¬ Stuck env task (deliver env task s e)) (advance env task s₀) events

/-- What is known of a run: while it goes on it was never stuck, and a success accounts for every
node exactly if it never was. -/
structure Accounted (env : Env) (task : TaskFrame) (s : Run) (neverStuck : Prop) : Prop where
  ongoing : s.phase.isRunning = true → Running task s ∧ neverStuck
  books : Books task s
  result : ResultOk s
  success : Succeeds s → failedEnds task s = [] ∧ (AllSet task s ↔ neverStuck)

variable {neverStuck : Prop}

theorem Running.accounted (h : Running task s) (hns : neverStuck) : Accounted env task s neverStuck := by
  have hrun := h.running
  refine ⟨fun _ => ⟨h, hns⟩, h.books, ?_, ?_⟩
  · intro r hr
    rw [hr] at hrun
    cases hrun
  · intro hs
    unfold Succeeds at hs
    split at hs
    · rename_i hp
      rw [hp] at hrun
      cases hrun
    · rename_i hp
      rw [hp] at hrun
      cases hrun
    · exact hs.elim

theorem Closes.accounted {P : Prop} {s s' : Run} (h : Closes P s s') (hb : Books task s)
    (hP : P → failedEnds task s = [] ∧ (AllSet task s ↔ neverStuck)) : Accounted env task s' neverStuck := by
  refine ⟨fun hr => ?_, h.books hb, h.result, fun hs => ?_⟩
  · rw [h.closed] at hr
    cases hr
  · have := hP (h.success hs)
    simpa only [failedEnds, AllSet, h.states] using this

theorem closed_ne_looping (h : s.phase.isRunning = false) : s.phase ≠ .looping := by
  intro hp
  rw [hp] at h
  cases h

theorem advance_accounted (hn : task.dag.ids.Nodup) (h : Accounted env task s neverStuck) :
    Accounted env task (advance env task s) (neverStuck ∧ (s.phase = .looping → ¬ Stuck env task s)) := by
  by_cases hp : s.phase = .looping
  · obtain ⟨hr, hns⟩ := h.ongoing (by rw [hp]; rfl)
    have heq : advance env task s = loopHead env task s := by
      unfold advance
      rw [hp]
    rw [heq]
    rcases loopHead_cases hn hr with ⟨hr', hst⟩ | hc | ⟨s₁, hb, hc, hiff⟩
    · exact hr'.accounted ⟨hns, fun _ => hst⟩
    · exact hc.accounted h.books False.elim
    · exact hc.accounted hb fun hends => ⟨hends, by simp [hns, hp, hiff]⟩
  · have heq : advance env task s = s := by
      unfold advance
      split
      · rename_i h
        exact absurd h hp
      · rfl
    rw [heq]
    have : (neverStuck ∧ (s.phase = .looping → ¬ Stuck env task s)) ↔ neverStuck := by simp [hp]
    rwa [propext this]

theorem step_accounted (hn : task.dag.ids.Nodup) (h : Accounted env task s neverStuck) (e : Event) :
    Accounted env task (step env task s e) (neverStuck ∧
      ((deliver env task s e).phase = .looping → ¬ Stuck env task (deliver env task s e))) := by
  refine advance_accounted hn ?_
  by_cases hrun : s.phase.isRunning = true
  · obtain ⟨hr, hns⟩ := h.ongoing hrun
    rcases deliver_running hr e with hr' | ⟨s₁, hb, hc⟩
    · exact hr'.accounted hns
    · exact hc.accounted hb False.elim
  · exact (deliver_closes (Bool.not_eq_true _ ▸ hrun) h.result e).accounted h.books h.success

variable {store : JsMap String NopTaskRecord} {signalAborted : Bool}

theorem execute_accounted {s₀ : Run} (h : execute env task store signalAborted = .ok s₀) :
    WellFormed task.dag ∧ Running task s₀ := by
  obtain ⟨v, hv, rfl⟩ := execute_ok h
  refine ⟨(validateDag_inv hv).1, ?_, ⟨?_, ?_, ?_⟩, ⟨?_, ?_⟩⟩
  · simp only [initialRun]
    split_ifs <;> rfl
  all_goals simp [initialRun]

theorem runFrom_accounted {s₀ : Run} (h : execute env task store signalAborted = .ok s₀) (events : List Event) :
    Accounted env task (runFrom env task s₀ events) (NeverStuck env task s₀ events) := by
  obtain ⟨hw, hr⟩ := execute_accounted h
  have hrun : Accounted env task s₀ True := hr.accounted trivial
  have hstart := advance_accounted hw.ids_nodup hrun
  refine run_induction_history (I := fun s es => Accounted env task s (NeverStuck env task s₀ es))
    ?_ ?_
  · simpa only [NeverStuck, along_nil, and_true, true_and] using hstart
  · intro es e ih
    have := step_accounted hw.ids_nodup ih e
    simpa only [NeverStuck, along_snoc, and_assoc] using this

/-! ### Completed tasks -/

theorem foldl_assign_get {α : Type*} (es : List (String × α)) (m : JsMap String α) (k : String) :
    k ∈ (es.foldl (fun out e => out.assign e.1 e.2) m).keys ↔
      k ∈ m.keys ∨ (k ≠ "__proto__" ∧ k ∈ es.map Prod.fst) := by
  induction es generalizing m with
  | nil => simp
  | cons e es ih =>
    rw [List.foldl_cons, ih, ← JsMap.get_isSome_iff, JsMap.get_assign]
    split_ifs with h
    · obtain ⟨rfl, hne⟩ := h
      simp [hne]
    · rw [JsMap.get_isSome_iff]
      simp only [List.map_cons, List.mem_cons]
      constructor
      · rintro (h1 | h1)
        · exact .inl h1
        · exact .inr ⟨h1.1, .inr h1.2⟩
      · rintro (h1 | ⟨h1, rfl | h2⟩)
        · exact .inl h1
        · exact absurd ⟨rfl, h1⟩ h
        · exact .inr ⟨h1, h2⟩

theorem mem_keys_mapToRecord (m : JsMap String NodeResult) (k : String) :
    k ∈ (mapToRecord m).keys ↔ k ≠ "__proto__" ∧ k ∈ m.keys := by
  rw [mapToRecord, foldl_assign_get, JsMap.keys_empty]
  simp [JsMap.keys]

def Delivered (task : TaskFrame) (s : Run) (r : NopTaskResult) : Prop :=
  (∀ id ∈ task.dag.ids, (∀ e ∈ task.dag.edges, e.src ≠ id) →
    s.nodeStates.get id = some .completed ∨ s.nodeStates.get id = some .skipped) ∧
  ∀ id ∈ task.dag.ids, id ∈ r.nodeResults.keys

/-- **Completed tasks.**  Whatever the workers answer and in whatever order, a task that is reported
as completed delivers exactly when no head of the main loop was stuck and no node is named
`__proto__`. -/
theorem completed_delivers_iff {store : JsMap String NopTaskRecord} {signalAborted : Bool}
    {s₀ : Run} (h : execute env task store signalAborted = .ok s₀) (events : List Event)
    {r : NopTaskResult} (hr : (runFrom env task s₀ events).phase = .returned r)
    (hc : r.state = .completed) :
    Delivered task (runFrom env task s₀ events) r ↔
      NeverStuck env task s₀ events ∧ "__proto__" ∉ task.dag.ids := by
  obtain ⟨hw, -⟩ := execute_accounted h
  have hacc := runFrom_accounted h events
  have hs : Succeeds (runFrom env task s₀ events) := by
    rw [Succeeds, hr]
    exact hc
  obtain ⟨hends, hiff⟩ := hacc.success hs
  have hkeys : ∀ id, id ∈ r.nodeResults.keys ↔
      id ≠ "__proto__" ∧ id ∈ (runFrom env task s₀ events).nodeStates.keys := by
    intro id
    rw [hacc.result r hr hc, mem_keys_mapToRecord, hacc.books.recorded]
  rw [← hiff]
  constructor
  · rintro ⟨-, hall⟩
    refine ⟨fun n hn => ?_, fun hp => ?_⟩
    · rw [JsMap.get_isSome_iff]
      exact ((hkeys n.id).1 (hall n.id (List.mem_map_of_mem hn))).2
    · exact ((hkeys _).1 (hall _ hp)).1 rfl
  · rintro ⟨hall, hp⟩
    have hset : ∀ id ∈ task.dag.ids, id ∈ (runFrom env task s₀ events).nodeStates.keys := by
      intro id hid
      obtain ⟨n, hn, rfl⟩ := List.mem_map.1 hid
      exact (JsMap.get_isSome_iff _ _).1 (hall n hn)
    refine ⟨fun id hid hout => ?_, fun id hid => (hkeys id).2 ⟨fun hc => hp (hc ▸ hid), hset id hid⟩⟩
    obtain ⟨state, hstate⟩ := JsMap.get_of_mem_keys (hset id hid)
    have hne : state ≠ .failed := by
      rintro rfl
      have : id ∈ failedEnds task (runFrom env task s₀ events) :=
        List.mem_filter.2 ⟨(mem_endNodeIds hw.ids_nodup).2 ⟨hid, hout⟩, by simp [hstate]⟩
      rw [hends] at this
      cases this
    rcases hacc.books.terminal id state hstate with rfl | rfl | rfl
    · exact .inl hstate
    · exact absurd rfl hne
    · exact .inr hstate

/-! ### A chain whose first node fails -/

/-- Surroundings in which every condition holds and every URL is accepted. -/
def plainEnv : Env where
  evaluateCondition := fun _ _ => .ok true
  validateCallbackUrl := fun _ => none
  randomId := fun n => s!"id-{n}"
  now := fun n => n

/-- Three nodes in a row, each of which reads the one before it. -/
def chainTask : TaskFrame where
  taskId := "chain"
  maxRetries := 0
  dag :=
    { nodes := [{ id := "A", action := "a", agent := "w" },
        { id := "B", action := "b", agent := "w", inputFrom := ["A"] },
        { id := "C", action := "c", agent := "w", inputFrom := ["B"] }]
      edges := [⟨"A", "B"⟩, ⟨"B", "C"⟩] }

/-- The first state of the chain. -/
def chainRun : Run := initialRun plainEnv chainTask ⟨["A", "B", "C"], ["A"], ["C"]⟩ false

/-- A worker answers for a node with one final frame, and the main loop takes the outcome. -/
def answerOnce (id : String) (error : Option StreamError) : List Event :=
  [.resolved id (.ok none),
    .answered id { frames := [{ seq := 0, isFinal := true, senderNid := "w", error := error }] },
    .wake]

theorem chain_accepted : execute plainEnv chainTask JsMap.empty false = .ok chainRun := rfl

/-- The witness of `completed_delivers_iff`: a chain whose nodes all complete is never stuck. -/
theorem chain_never_stuck : NeverStuck plainEnv chainTask chainRun
    (answerOnce "A" none ++ answerOnce "B" none ++ answerOnce "C" none) := by
  obtain ⟨r, hr, hb⟩ := Phase.returned_of_result (p := (runFrom plainEnv chainTask chainRun
    (answerOnce "A" none ++ answerOnce "B" none ++ answerOnce "C" none)).phase)
    (f := fun r => (r.state, r.nodeResults.keys)) (b := (.completed, ["A", "B", "C"])) (by decide)
  obtain ⟨hc, hk⟩ := Prod.mk.inj hb
  refine ((completed_delivers_iff chain_accepted _ hr hc).1 ⟨by decide, fun id hid => ?_⟩).1
  rw [hk]
  exact hid

/-- When the first node of the chain fails, the second is failed for lack of inputs and the third,
an end node, is never started; the task is reported as completed. -/
theorem chain_completed_undelivered :
    execute plainEnv chainTask JsMap.empty false = .ok chainRun ∧
    ∃ r, (runFrom plainEnv chainTask chainRun (answerOnce "A" (some { errorCode := "E" }))).phase =
        .returned r ∧ r.state = .completed ∧
      ¬ Delivered chainTask
        (runFrom plainEnv chainTask chainRun (answerOnce "A" (some { errorCode := "E" }))) r := by
  obtain ⟨r, hr, hb⟩ := Phase.returned_of_result (p := (runFrom plainEnv chainTask chainRun
    (answerOnce "A" (some { errorCode := "E" }))).phase)
    (f := fun r => (r.state, r.nodeResults.keys)) (b := (.completed, ["A", "B"])) (by decide)
  obtain ⟨hc, hk⟩ := Prod.mk.inj hb
  refine ⟨chain_accepted, r, hr, hc, fun hd => ?_⟩
  have := hd.2 "C" (by decide)
  rw [hk] at this
  revert this
  decide

end NpsSdk.Nop
