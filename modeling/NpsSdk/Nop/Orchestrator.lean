import NpsSdk.Lib.Runs
import NpsSdk.Lib.StringToNumber
import NpsSdk.Nop.DagValidator
import NpsSdk.Nop.InputMapper

/-!
# The orchestrator

`NopOrchestrator` of `nop/orchestrator.ts` as a state machine.  The machine is the run of one call of
`execute`: between two events it stands where the source awaits a promise.  An event is a preflight
answer, the answer of the cluster resolver, the answer stream of a worker, the end of a back-off
delay, the resumption of the main loop, the task timeout, an abort by the caller or a `cancel`.
Events that nothing awaits are ignored, so every sequence of events is a run.

`Env` collects the options and what the host and the other modules answer: the condition evaluator,
the callback validator, fresh ids and the clock.  The store holds the record by reference, so
`Run.record` is the stored record, and saving it again changes nothing.  The callback and the cache
of the cluster resolver are left out: the resolver's answers are arbitrary.
-/

namespace NpsSdk.Nop

open NpsSdk.Lib

/-- The options of the orchestrator and the answers of its surroundings. -/
structure Env where
  defaultTimeoutMs : ℤ := 30000
  maxTimeoutMs : ℤ := 3600000
  maxConcurrentNodes : ℤ := 8
  validateSenderNid : Bool := true
  defaultAggregateStrategy : String := "merge"
  /-- Is there a cluster resolver? -/
  clusterResolver : Bool := false
  /-- `evaluateCondition`: the message of the error it throws, or the value. -/
  evaluateCondition : String → Context → Except String Bool
  /-- `validateCallbackUrl`: what is wrong with the URL. -/
  validateCallbackUrl : String → Option String
  /-- The ids drawn, in order. -/
  randomId : ℕ → String
  /-- The readings of the clock, in order. -/
  now : ℕ → ℤ

/-! ### Results -/

structure TaskError where
  code : String
  message : String

/-- What is recorded for a node. -/
structure NodeResult where
  nodeId : String
  ok : Bool
  output : Option Json := none
  error : Option TaskError := none
  skipped : Bool := false

structure NopTaskRecord where
  taskId : String
  frame : TaskFrame
  state : TaskState
  startedAt : ℤ
  completedAt : Option ℤ := none
  nodeResults : JsMap String NodeResult
  error : Option TaskError := none

/-- An aggregate of the outputs of the end nodes. -/
inductive Aggregate
  | empty
  | first (v : Option Json)
  | all (vs : List (Option Json))
  | merged (members : JsMap String (Option Json))

/-- What `execute` returns. -/
structure NopTaskResult where
  taskId : String
  state : TaskState
  aggregatedResult : Option Aggregate := none
  nodeResults : JsMap String NodeResult := JsMap.empty
  error : Option TaskError := none
  compensation : Option SagaCompensationResult := none

/-- How the execution of a node ended. -/
structure NodeOutcome where
  state : TaskState
  result : Option Json := none
  errorCode : Option String := none
  errorMessage : Option String := none

/-- What is thrown: the abort of the run, or any other error. -/
inductive Thrown
  | abort
  | error
  deriving DecidableEq

/-! ### Aggregation -/

/-- Merges the outputs; an output that is not an object is added under its position. -/
def merge (results : List (Option Json)) : JsMap String (Option Json) :=
  results.zipIdx.foldl (fun merged r =>
    match r.1 with
    | some (.obj members) => members.foldl (fun m e => m.assign e.1 (some e.2)) merged
    | v => merged.assign s!"_result_{r.2}" v) JsMap.empty

/-- Aggregates the outputs of the end nodes. -/
def aggregate (strategy : String) (results : List (Option Json)) : Aggregate :=
  match results with
  | [] => .empty
  | r :: _ =>
    if strategy = "first" then .first r
    else if strategy = "all" then .all results
    else if strategy = "fastest_k" then .all results
    else .merged (merge results)

/-- Aggregates what the end nodes among `allResults` returned. -/
def aggregateEndNodes (endNodeIds : List String) (allResults : Context) (strategy : String) :
    Aggregate :=
  aggregate strategy (endNodeIds.filterMap allResults.get)

/-! ### Small helpers -/

/-- Is a failed attempt retried? -/
def shouldRetry (retryOn : List String) (errorCode : Option String) (attempt maxRetries : ℤ) :
    Bool :=
  if maxRetries < attempt then false
  else match truthy errorCode with
    | some code => retryOn.isEmpty || decide (code ∈ retryOn)
    | none => true

def computeBackoffMs (policy : Option RetryPolicy) (attempt : ℕ) : ℤ :=
  let base := (policy.bind RetryPolicy.baseDelayMs).getD 1000
  let cap := (policy.bind RetryPolicy.maxDelayMs).getD 30000
  let d := match policy.map RetryPolicy.backoff with
    | some "fixed" => base
    | some "linear" => base * (attempt + 1)
    | _ => base * 2 ^ attempt
  min d cap

/-- The node results as a plain object. -/
def mapToRecord (m : JsMap String NodeResult) : JsMap String NodeResult :=
  m.entries.foldl (fun out e => out.assign e.1 e.2) JsMap.empty

/-- The nodes by their ids. -/
def allNodes (dag : TaskDag) : JsMap String DagNode :=
  JsMap.ofList (dag.nodes.map fun n => (n.id, n))

/-- The nodes without outgoing edges. -/
def endNodeIds (dag : TaskDag) : List String :=
  (allNodes dag).keys.filter fun id => dag.edges.all fun e => e.src != id

/-- The time limit of the whole task. -/
def taskTimeoutMs (env : Env) (task : TaskFrame) : ℤ :=
  min (task.timeoutMs.getD env.defaultTimeoutMs) env.maxTimeoutMs

/-- The time limit of one delegation. -/
def nodeTimeoutMs (env : Env) (task : TaskFrame) (node : DagNode) : ℤ :=
  min (node.timeoutMs.getD (task.timeoutMs.getD env.defaultTimeoutMs)) env.maxTimeoutMs

/-! ### K-of-N -/

def required (node : DagNode) : ℤ :=
  if 0 < node.minRequired then node.minRequired else node.inputFrom.length

/-- Did the node succeed, as far as the nodes that read it are concerned? -/
def isSuccess (state : Option TaskState) : Bool :=
  state == some .completed || state == some .skipped

def successes (node : DagNode) (states : JsMap String TaskState) : ℕ :=
  (node.inputFrom.filter fun d => isSuccess (states.get d)).length

def failures (node : DagNode) (states : JsMap String TaskState) : ℕ :=
  (node.inputFrom.filter fun d => states.get d == some .failed).length

/-- Has enough of the inputs succeeded, or too many failed? -/
def areDepsDone (node : DagNode) (states : JsMap String TaskState) : Bool :=
  if node.inputFrom.isEmpty then true
  else if required node ≤ successes node states then true
  else if (node.inputFrom.length : ℤ) - failures node states < required node then true
  else false

/-- Has a node whose inputs are done too few that succeeded? -/
def isInfeasible (node : DagNode) (states : JsMap String TaskState) : Bool :=
  !node.inputFrom.isEmpty && decide (successes node states < required node)

/-- Can an end node still have enough inputs? -/
def canEndNodeStillSucceed (dag : TaskDag) (endNodeId : String) (states : JsMap String TaskState) :
    Bool :=
  match (allNodes dag).get endNodeId with
  | none => false
  | some node =>
    if node.inputFrom.isEmpty then false
    else decide (required node ≤ (node.inputFrom.length : ℤ) - failures node states)

/-- The breadth-first search for `endNodeId`; each step takes one node from the queue. -/
def searchEndNode (dag : TaskDag) (endNodeId : String) : ℕ → List String → List String → Bool
  | 0, _, _ => false
  | _ + 1, _, [] => false
  | fuel + 1, seen, cur :: queue =>
    if cur = endNodeId then true
    else if cur ∈ seen then searchEndNode dag endNodeId fuel seen queue
    else searchEndNode dag endNodeId fuel (cur :: seen)
      (queue ++ (dag.edges.filter fun e => e.src == cur).map DagEdge.dst)

/-- Is there a path of edges from a node to an end node?  A node enters the queue at the start or
along an edge, and leaves it once for each time it entered, so the steps suffice. -/
def canReachEndNode (dag : TaskDag) (endNodeId fromNodeId : String) : Bool :=
  searchEndNode dag endNodeId (dag.edges.length + 2) [] [fromNodeId]

/-! ### The state of a run -/

/-- Where the execution of a node stands. -/
inductive NodePhase
  /-- The target is being resolved; the frame still names the agent. -/
  | resolving (frame : DelegateFrame)
  /-- The worker was called. -/
  | delegated
  /-- An attempt failed and another follows after the delay. -/
  | backoff (delayMs : ℤ)
  /-- The promise of the node is settled. -/
  | settled (r : Except Thrown NodeOutcome)

structure InFlight where
  node : DagNode
  subtaskId : String
  idempotencyKey : String
  attempt : ℕ
  phase : NodePhase

/-- Why the compensation runs, which decides what is returned after it. -/
inductive CompensationGoal
  | onFailure (message : String)
  | onSuccess (aggregated : Aggregate)

/-- A compensation under way: the node whose compensation is being executed and what is left. -/
structure Compensation where
  goal : CompensationGoal
  attempted : ℕ
  succeeded : ℕ
  failedIds : List String
  current : DagNode
  /-- The frame, until the target is resolved and the worker called. -/
  pending : Option DelegateFrame
  todo : List String

/-- Where the call of `execute` stands. -/
inductive Phase
  | preflight
  /-- The head of the main loop; the run passes it without waiting. -/
  | looping
  /-- The race of the promises in flight, with the node that decided it. -/
  | racing (winner : Option String)
  /-- A node failed for good: the nodes in flight are waited for. -/
  | settling (message : String)
  | compensating (c : Compensation)
  | returned (result : NopTaskResult)
  /-- The call was rejected with an error that is not the abort of the run. -/
  | threw

structure Run where
  phase : Phase
  /-- The validated order. -/
  order : List String
  /-- Is the run's own signal aborted? -/
  aborted : Bool
  /-- Is the caller's signal aborted? -/
  signalAborted : Bool
  timedOut : Bool
  nodeStates : JsMap String TaskState
  nodeResults : Context
  inFlight : JsMap String InFlight
  record : NopTaskRecord
  /-- The number of ids drawn. -/
  ids : ℕ
  /-- The number of readings of the clock. -/
  ticks : ℕ
  /-- The delegate calls made for nodes. -/
  calls : List DelegateFrame
  /-- The nodes whose delegate call returned a successful final frame while `execute` ran. -/
  succeeded : List String
  /-- The delegate calls made for compensation. -/
  compensations : List DelegateFrame

/-- Has `execute` settled? -/
def Phase.isFinished : Phase → Bool
  | .returned _ | .threw => true
  | _ => false

/-- What `execute` returned, if it did. -/
def Phase.result : Phase → Option NopTaskResult
  | .returned r => some r
  | _ => none

theorem Phase.returned_of_result {p : Phase} {β : Type*} {f : NopTaskResult → β} {b : β}
    (h : p.result.map f = some b) : ∃ r, p = .returned r ∧ f r = b := by
  cases p with
  | returned r => exact ⟨r, rfl, Option.some.inj h⟩
  | _ => cases h

/-- Is the promise of the node settled? -/
def NodePhase.isSettled : NodePhase → Bool
  | .settled _ => true
  | _ => false

/-- What a worker answers: its frames, whether its iterator throws where the reading of the frames
ends or it is closed, and whether the node's own signal is aborted by then. -/
structure StreamAnswer where
  frames : List AlignStreamFrame
  throws : Bool := false
  nodeAborted : Bool := false

/-- The events of a run. -/
inductive Event
  /-- The preflight probes answered, or one was rejected with the message. -/
  | preflightDone (answer : Except String (List PreflightResult))
  /-- The resolver answered for a node: an active target, none, or an error. -/
  | resolved (id : String) (answer : Except Unit (Option String))
  /-- The worker answered for a node. -/
  | answered (id : String) (answer : StreamAnswer)
  /-- The delay of a node ended. -/
  | delayed (id : String)
  /-- The main loop resumes. -/
  | wake
  /-- The resolver answered for the compensation under way. -/
  | compensationResolved (answer : Except Unit (Option String))
  /-- The worker answered for the compensation under way. -/
  | compensationAnswered (answer : StreamAnswer)
  /-- The timer of the task fires. -/
  | timeout
  /-- The caller aborts. -/
  | abort
  /-- The caller calls `cancel`. -/
  | cancel

/-! ### Executing a node once -/

def resolveParams (node : DagNode) (context : Context) : Except NopMappingError Params :=
  match buildParams node.inputMapping context with
  | .error e => .error e
  | .ok params =>
    if node.inputMapping.isEmpty then
      match node.inputFrom with
      | [] => .ok .undefined
      | [dep] => .ok (match (context.get dep).join with
        | some v => .output v
        | none => .undefined)
      | deps => .ok (.passthrough
          (deps.foldl (fun m dep => m.assign dep (context.get dep).join) JsMap.empty).entries)
    else .ok (.mapped params)

/-- The part of `_executeNodeOnce` before its first promise: the frame, or the outcome of a mapping
that does not resolve. -/
def prepare (env : Env) (task : TaskFrame) (node : DagNode) (subtaskId idempotencyKey : String)
    (context : Context) (ticks : ℕ) : Except NodeOutcome DelegateFrame :=
  match resolveParams node context with
  | .error e => .error
      { state := .failed, errorCode := some e.errorCode, errorMessage := some e.message }
  | .ok params => .ok
      { taskId := task.taskId
        subtaskId := subtaskId
        action := node.action
        agentNid := node.agent
        params := params.toFrame
        idempotencyKey := idempotencyKey
        targetClusterAnchor := node.targetClusterAnchor
        nodeId := node.id
        deadlineAt := env.now ticks + nodeTimeoutMs env task node
        priority := task.priority
        delegateDepth := task.delegateDepth + 1
        context := task.context
        resolvedParams := params
        resolvedTargetNid := node.agent }

/-- The target of a delegation, from the resolver's answer where it is asked. -/
def resolveTarget (env : Env) (node : DagNode) (answer : Except Unit (Option String)) :
    Except Unit String :=
  if (truthy node.targetClusterAnchor).isSome && env.clusterResolver then
    answer.map fun info => info.getD node.agent
  else .ok node.agent

inductive Reading
  | refused (errorCode : String)
  | finalData (data : Option Json)
  | finalError (error : StreamError)
  | noFinal

/-- Reads the frames up to the first that decides. -/
def readStream (env : Env) (agent : String) : JsDouble → List AlignStreamFrame → Reading
  | _, [] => .noFinal
  | lastSeq, f :: fs =>
    if !f.seq.eq lastSeq && !f.seq.eq 0 && !f.seq.eq (lastSeq + 1) then .refused nopStreamSeqGap
    else if env.validateSenderNid ∧ f.senderNid ≠ "" ∧ f.senderNid ≠ agent then
      .refused nopStreamNidMismatch
    else if f.isFinal then
      match f.error with
      | some e => .finalError e
      | none => .finalData f.data
    else readStream env agent f.seq fs

def Reading.outcome : Reading → NodeOutcome
  | .refused code => { state := .failed, errorCode := some code }
  | .finalData data => { state := .completed, result := data }
  | .finalError e =>
    -- an empty error code is falsy in the source
    if e.errorCode = "" then { state := .completed }
    else { state := .failed, errorCode := some e.errorCode, errorMessage := e.message }
  | .noFinal =>
    { state := .failed, errorCode := some nopDelegateTimeout,
      errorMessage := some "Stream ended without final frame." }

/-- The part of `_executeNodeOnce` after the worker was called. -/
def finishOnce (env : Env) (task : TaskFrame) (node : DagNode) (aborted : Bool)
    (answer : StreamAnswer) : Except Thrown NodeOutcome :=
  if answer.throws then
    if aborted then .error .abort
    else if answer.nodeAborted then .ok
      { state := .failed, errorCode := some nopDelegateTimeout,
        errorMessage :=
          some s!"Node '{node.id}' timed out after {nodeTimeoutMs env task node}ms." }
    else .error .error
  else .ok (readStream env node.agent 0 answer.frames).outcome

/-! ### Executing a node with retries -/

def maxRetries (task : TaskFrame) (node : DagNode) : ℤ :=
  (node.retryPolicy.map RetryPolicy.maxRetries).getD task.maxRetries

/-- What follows an attempt: the end of the node's execution, or another attempt. -/
def afterOnce (task : TaskFrame) (node : DagNode) (attempt : ℕ) :
    Except Thrown NodeOutcome → NodePhase
  | .error e => .settled (.error e)
  | .ok outcome =>
    if outcome.state = .completed then .settled (.ok outcome)
    else if shouldRetry ((node.retryPolicy.map RetryPolicy.retryOn).getD []) outcome.errorCode
        attempt (maxRetries task node) then .backoff (computeBackoffMs node.retryPolicy (attempt - 1))
    else .settled (.ok outcome)

def conditionOutcome (env : Env) (node : DagNode) (context : Context) : Option NodeOutcome :=
  match truthy node.condition with
  | none => none
  | some condition =>
    match env.evaluateCondition condition context with
    | .ok true => none
    | .ok false => some { state := .skipped }
    | .error message => some
        { state := .failed, errorCode := some nopConditionEvalError,
          errorMessage := some message }

/-- The beginning of an attempt, up to its first promise. -/
def beginAttempt (env : Env) (task : TaskFrame) (s : Run) (node : DagNode)
    (subtaskId idempotencyKey : String) (attempt : ℕ) : NodePhase :=
  if maxRetries task node + 1 < attempt then
    .settled (.ok { state := .failed, errorCode := some nopDelegateTimeout,
                    errorMessage :=
                      some s!"Node '{node.id}' exhausted {maxRetries task node} retries." })
  else if s.aborted then .settled (.error .abort)
  else
    match if attempt = 1 then conditionOutcome env node s.nodeResults else none with
    | some outcome => .settled (.ok outcome)
    | none =>
      match prepare env task node subtaskId idempotencyKey s.nodeResults s.ticks with
      | .error outcome => afterOnce task node attempt (.ok outcome)
      | .ok frame => .resolving frame

/-! ### The end of the run -/

/-- `_finalize`, together with the end of `execute`. -/
def finalize (env : Env) (task : TaskFrame) (s : Run) (aggregated : Option Aggregate)
    (state : TaskState) (error : Option TaskError) (compensation : Option SagaCompensationResult) :
    Run :=
  { s with
    phase := .returned
      { taskId := task.taskId
        state := state
        aggregatedResult := if state = .completed then aggregated else none
        nodeResults := mapToRecord s.record.nodeResults
        error := error
        compensation := compensation }
    record := { s.record with
      state := state, error := error, completedAt := some (env.now s.ticks) }
    ticks := s.ticks + 1 }

/-- The `catch` of `execute`. -/
def catchError (env : Env) (task : TaskFrame) (s : Run) (thrown : Thrown) : Run :=
  if s.signalAborted then
    finalize env task s none .cancelled (some ⟨nopTaskCancelled, "Task cancelled."⟩) none
  else if s.timedOut ∨ thrown = .abort then
    finalize env task s none .failed
      (some ⟨nopTaskTimeout, s!"Task exceeded timeout of {taskTimeoutMs env task}ms."⟩) none
  else
    { s with
      phase := .threw
      record := { s.record with completedAt := some (env.now s.ticks) }
      ticks := s.ticks + 1 }

/-! ### Compensation -/

/-- The node that is executed to compensate `node`. -/
def compensationNode (node : DagNode) (action : String) : DagNode :=
  { node with
    action := action
    inputMapping := node.compensateParamsMapping
    condition := none
    retryPolicy := none }

def compensationFailureErrorCode (task : TaskFrame) (compensation : SagaCompensationResult) :
    Option String :=
  if CompensationPolicy.isStrict task.compensationPolicy && compensation.failed != 0 then
    some (if compensation.attempted = 0 then nopCompensationNotSupported else nopCompensationFailed)
  else none

/-- What is returned after the compensation. -/
def finishCompensation (env : Env) (task : TaskFrame) (s : Run) (goal : CompensationGoal)
    (compensation : SagaCompensationResult) : Run :=
  match goal with
  | .onFailure message =>
    finalize env task s none .failed
      (some ⟨(compensationFailureErrorCode task compensation).getD nopSyncDependencyFailed, message⟩)
      (some compensation)
  | .onSuccess aggregated =>
    finalize env task s (some aggregated) .completed none (some compensation)

/-- Executes the compensations of `todo` one after the other, up to the first promise. -/
def compensateNext (env : Env) (task : TaskFrame) (goal : CompensationGoal) (attempted : ℕ)
    (s : Run) (succeeded : ℕ) (failedIds : List String) : List String → Run
  | [] => finishCompensation env task s goal
      { attempted := attempted, succeeded := succeeded, failed := failedIds.length,
        failedNodeIds := failedIds }
  | id :: todo =>
    match (allNodes task.dag).get id with
    | none => compensateNext env task goal attempted s succeeded failedIds todo
    | some node =>
      let node' := compensationNode node (node.compensateAction.getD "")
      match prepare env task node' (env.randomId s.ids) (env.randomId (s.ids + 1)) s.nodeResults
          s.ticks with
      | .error _ =>
        compensateNext env task goal attempted { s with ids := s.ids + 2 } succeeded
          (failedIds ++ [id]) todo
      | .ok frame =>
        { s with
          ids := s.ids + 2
          ticks := s.ticks + 1
          phase := .compensating
            { goal := goal, attempted := attempted, succeeded := succeeded, failedIds := failedIds,
              current := node', pending := some frame, todo := todo } }

/-- Has the node an action that compensates it? -/
def hasCompensation (dag : TaskDag) (id : String) : Bool :=
  match (allNodes dag).get id with
  | none => false
  | some node => (truthy node.compensateAction).isSome

def completedReversed (task : TaskFrame) (s : Run) : List String :=
  (s.order.filter fun id =>
    s.nodeStates.get id == some .completed && (allNodes task.dag).has id).reverse

def runSagaCompensation (env : Env) (task : TaskFrame) (s : Run) (goal : CompensationGoal) : Run :=
  let completed := completedReversed task s
  let missing := completed.filter fun id => !hasCompensation task.dag id
  if CompensationPolicy.isStrict task.compensationPolicy && !missing.isEmpty then
    finishCompensation env task s goal
      { attempted := 0, succeeded := 0, failed := missing.length, failedNodeIds := missing }
  else
    let toCompensate := completed.filter (hasCompensation task.dag)
    compensateNext env task goal toCompensate.length s 0 [] toCompensate

def failRun (env : Env) (task : TaskFrame) (s : Run) (message : String) : Run :=
  if CompensationPolicy.runsOnFailure task.compensationPolicy then
    runSagaCompensation env task s (.onFailure message)
  else
    finalize env task s none .failed (some ⟨nopSyncDependencyFailed, message⟩) none

/-! ### The main loop -/

/-- May the node be started? -/
def isReady (s : Run) (n : DagNode) : Bool :=
  !s.nodeStates.has n.id && !s.inFlight.has n.id && areDepsDone n s.nodeStates

/-- Marks a node as failed for lack of inputs. -/
def recordFail (s : Run) (n : DagNode) : Run :=
  { s with
    nodeStates := s.nodeStates.set n.id .failed
    record := { s.record with
      nodeResults := s.record.nodeResults.set n.id
        { nodeId := n.id
          ok := false
          error := some ⟨nopSyncDependencyFailed,
            s!"Only {successes n s.nodeStates}/{required n} required dependencies succeeded."⟩ } } }

/-- Fails the ready nodes that cannot have enough inputs, and returns the others. -/
def failInfeasible : List DagNode → Run → Run × List DagNode
  | [], s => (s, [])
  | n :: ns, s =>
    if isInfeasible n s.nodeStates then failInfeasible ns (recordFail s n)
    else
      let r := failInfeasible ns s
      (r.1, n :: r.2)

def startNode (env : Env) (task : TaskFrame) (s : Run) (n : DagNode) : Run :=
  let idempotencyKey := env.randomId s.ids
  let subtaskId := env.randomId (s.ids + 1)
  { s with
    ids := s.ids + 2
    ticks := s.ticks + 1
    inFlight := s.inFlight.set n.id
      { node := n, subtaskId := subtaskId, idempotencyKey := idempotencyKey, attempt := 1,
        phase := beginAttempt env task s n subtaskId idempotencyKey 1 } }

/-- Starts ready nodes while there is room. -/
def launch (env : Env) (task : TaskFrame) : List DagNode → Run → Run
  | [], s => s
  | n :: ns, s =>
    if env.maxConcurrentNodes ≤ s.inFlight.size then s
    else launch env task ns (startNode env task s n)

def failedEnds (task : TaskFrame) (s : Run) : List String :=
  (endNodeIds task.dag).filter fun e => s.nodeStates.get e == some .failed

/-- What follows the main loop. -/
def conclude (env : Env) (task : TaskFrame) (s : Run) : Run :=
  let failed := failedEnds task s
  if !failed.isEmpty then
    let ids := join ", " failed
    failRun env task s s!"End node(s) failed: {ids}"
  else
    let aggregated :=
      aggregateEndNodes (endNodeIds task.dag) s.nodeResults env.defaultAggregateStrategy
    if CompensationPolicy.runsOnSuccess task.compensationPolicy then
      runSagaCompensation env task s (.onSuccess aggregated)
    else
      finalize env task s (some aggregated) .completed none none

def firstSettled (s : Run) : Option String :=
  (s.inFlight.entries.find? fun e => e.2.phase.isSettled).map Prod.fst

/-- The ready nodes, of which the infeasible ones are failed and the others started. -/
def schedule (env : Env) (task : TaskFrame) (s : Run) : Run :=
  let r := failInfeasible ((allNodes task.dag).values.filter (isReady s)) s
  launch env task r.2 r.1

/-- The main loop from its head to its next promise. -/
def loopHead (env : Env) (task : TaskFrame) (s : Run) : Run :=
  if s.nodeStates.size < (allNodes task.dag).size then
    if s.aborted then catchError env task s .abort
    else
      let s' := schedule env task s
      if s'.inFlight.size = 0 then conclude env task s'
      else { s' with phase := .racing (firstSettled s') }
  else conclude env task s

def advance (env : Env) (task : TaskFrame) (s : Run) : Run :=
  match s.phase with
  | .looping => loopHead env task s
  | _ => s

/-! ### Events -/

/-- What is recorded for an outcome. -/
def nodeResult (id : String) (outcome : NodeOutcome) : NodeResult :=
  if outcome.state = .completed then { nodeId := id, ok := true, output := outcome.result }
  else if outcome.state = .skipped then { nodeId := id, ok := true, skipped := true }
  else
    { nodeId := id, ok := false,
      error := some ⟨outcome.errorCode.getD nopDelegateTimeout, outcome.errorMessage.getD ""⟩ }

def recordOutcome (s : Run) (id : String) (outcome : NodeOutcome) : Run :=
  { s with
    inFlight := s.inFlight.delete id
    nodeStates := s.nodeStates.set id outcome.state
    nodeResults :=
      if outcome.state = .completed then s.nodeResults.set id outcome.result else s.nodeResults
    record := { s.record with
      nodeResults := s.record.nodeResults.set id (nodeResult id outcome) } }

/-- Has an end node that the failed node leads to become impossible? -/
def mustAbort (task : TaskFrame) (id : String) (states : JsMap String TaskState) : Bool :=
  (endNodeIds task.dag).any fun e =>
    canReachEndNode task.dag e id && !canEndNodeStillSucceed task.dag e states

def takeOutcome (task : TaskFrame) (s : Run) (id : String) (outcome : NodeOutcome) : Run :=
  let s' := recordOutcome s id outcome
  if outcome.state = .failed && mustAbort task id s'.nodeStates then
    let code := outcome.errorCode.getD "undefined"
    { s' with phase := .settling s!"Node '{id}' failed: {code}" }
  else { s' with phase := .looping }

/-- The main loop resumes. -/
def wake (env : Env) (task : TaskFrame) (s : Run) : Run :=
  match s.phase with
  | .racing (some id) =>
    match s.inFlight.get id with
    | some { phase := .settled (.ok outcome), .. } => takeOutcome task s id outcome
    | some { phase := .settled (.error e), .. } => catchError env task s e
    | _ => s
  | .settling message =>
    if s.inFlight.values.all fun f => f.phase.isSettled then
      failRun env task { s with inFlight := JsMap.empty } message
    else s
  | _ => s

/-- A node in flight moves to another phase; if it is the first to settle it decides the race. -/
def setPhase (s : Run) (id : String) (f : InFlight) : Run :=
  { s with
    inFlight := s.inFlight.set id f
    phase := match s.phase with
      | .racing none => if f.phase.isSettled then .racing (some id) else s.phase
      | p => p }

def onResolved (env : Env) (s : Run) (id : String) (answer : Except Unit (Option String)) : Run :=
  match s.inFlight.get id with
  | some f =>
    match f.phase with
    | .resolving frame =>
      match resolveTarget env f.node answer with
      | .error _ => setPhase s id { f with phase := .settled (.error .error) }
      | .ok target =>
        { setPhase s id { f with phase := .delegated } with
          calls := s.calls ++ [{ frame with resolvedTargetNid := target }] }
    | _ => s
  | none => s

/-- Does the stream come to a successful final frame? -/
def Reading.isSuccess (r : Reading) : Bool := r.outcome.state == .completed

def onAnswered (env : Env) (task : TaskFrame) (s : Run) (id : String) (answer : StreamAnswer) :
    Run :=
  match s.inFlight.get id with
  | some f =>
    match f.phase with
    | .delegated =>
      let s' := setPhase s id { f with
        phase := afterOnce task f.node f.attempt (finishOnce env task f.node s.aborted answer) }
      if (readStream env f.node.agent 0 answer.frames).isSuccess && !s.phase.isFinished then
        { s' with succeeded := s.succeeded ++ [id] }
      else s'
    | _ => s
  | none => s

def onDelayed (env : Env) (task : TaskFrame) (s : Run) (id : String) : Run :=
  match s.inFlight.get id with
  | some f =>
    match f.phase with
    | .backoff _ =>
      { setPhase s id { f with
          attempt := f.attempt + 1
          phase := beginAttempt env task s f.node f.subtaskId f.idempotencyKey (f.attempt + 1) } with
        ticks := s.ticks + 1 }
    | _ => s
  | none => s

def onCompensationResolved (env : Env) (task : TaskFrame) (s : Run)
    (answer : Except Unit (Option String)) : Run :=
  match s.phase with
  | .compensating c =>
    match c.pending with
    | some frame =>
      match resolveTarget env c.current answer with
      | .error _ => catchError env task s .error
      | .ok target =>
        { s with
          phase := .compensating { c with pending := none }
          compensations := s.compensations ++ [{ frame with resolvedTargetNid := target }] }
    | none => s
  | _ => s

def onCompensationAnswered (env : Env) (task : TaskFrame) (s : Run) (answer : StreamAnswer) : Run :=
  match s.phase with
  | .compensating c =>
    match c.pending with
    | some _ => s
    | none =>
      match finishOnce env task c.current s.aborted answer with
      | .error e => catchError env task s e
      | .ok outcome =>
        if outcome.state = .completed then
          compensateNext env task c.goal c.attempted s (c.succeeded + 1) c.failedIds c.todo
        else
          compensateNext env task c.goal c.attempted s c.succeeded (c.failedIds ++ [c.current.id])
            c.todo
  | _ => s

/-- `_runPreflight`: why the task cannot run. -/
def preflightFailure : Except String (List PreflightResult) → Option String
  | .error message => some s!"Preflight probe failed: {message}"
  | .ok results =>
    (results.find? fun r => !r.available).map fun r =>
      let reason := r.unavailableReason.getD "no reason given"
      s!"Agent '{r.agentNid}' is unavailable: {reason}"

def failure (task : TaskFrame) (code message : String) : NopTaskResult :=
  { taskId := task.taskId, state := .failed, error := some ⟨code, message⟩ }

/-- The preflight ends. -/
def onPreflight (env : Env) (task : TaskFrame) (s : Run)
    (answer : Except String (List PreflightResult)) : Run :=
  match s.phase with
  | .preflight =>
    match preflightFailure answer with
    | some reason =>
      { s with
        phase := .returned (failure task nopResourceInsufficient reason)
        record := { s.record with state := .failed, completedAt := some (env.now s.ticks) }
        ticks := s.ticks + 1 }
    | none => { s with phase := .looping, record := { s.record with state := .running } }
  | _ => s

/-- The run's signal is aborted, unless the run is over. -/
def abortRun (s : Run) : Run :=
  if s.phase.isFinished ∨ s.aborted then s
  else { s with aborted := true, timedOut := !s.signalAborted }

/-- The effect of an event up to the head of the main loop. -/
def deliver (env : Env) (task : TaskFrame) (s : Run) : Event → Run
  | .preflightDone answer => onPreflight env task s answer
  | .resolved id answer => onResolved env s id answer
  | .answered id answer => onAnswered env task s id answer
  | .delayed id => onDelayed env task s id
  | .wake => wake env task s
  | .compensationResolved answer => onCompensationResolved env task s answer
  | .compensationAnswered answer => onCompensationAnswered env task s answer
  | .timeout => abortRun s
  | .abort => abortRun { s with signalAborted := true }
  | .cancel => { s with record := { s.record with state := .cancelled } }

def step (env : Env) (task : TaskFrame) (s : Run) (e : Event) : Run :=
  advance env task (deliver env task s e)

def initialRun (env : Env) (task : TaskFrame) (validation : DagValidation) (signalAborted : Bool) :
    Run :=
  { phase := if task.preflight then .preflight else .looping
    order := validation.topologicalOrder
    aborted := signalAborted
    signalAborted := signalAborted
    timedOut := false
    nodeStates := JsMap.empty
    nodeResults := JsMap.empty
    inFlight := JsMap.empty
    record :=
      { taskId := task.taskId, frame := task,
        state := if task.preflight then .preflight else .running,
        startedAt := env.now 0, nodeResults := JsMap.empty }
    ids := 0
    ticks := 1
    calls := []
    succeeded := []
    compensations := [] }

/-- The checks of `execute`: a refused task has a result, an accepted one a run. -/
def execute (env : Env) (task : TaskFrame) (store : JsMap String NopTaskRecord)
    (signalAborted : Bool) : Except NopTaskResult Run :=
  if 3 ≤ task.delegateDepth then
    .error (failure task nopDelegateChainTooDeep
      s!"Delegation chain depth {task.delegateDepth} exceeds the maximum of 3.")
  else
    match (truthy task.callbackUrl).bind env.validateCallbackUrl with
    | some urlError => .error (failure task nopTaskDagInvalid urlError)
    | none =>
    match validateDag task.dag with
    | .error e => .error (failure task e.errorCode e.errorMessage)
    | .ok validation =>
    if store.has task.taskId then
      .error (failure task nopTaskAlreadyCompleted s!"Task '{task.taskId}' already exists.")
    else .ok (initialRun env task validation signalAborted)

theorem execute_ok {env : Env} {task : TaskFrame} {store : JsMap String NopTaskRecord}
    {signalAborted : Bool} {s₀ : Run} (h : execute env task store signalAborted = .ok s₀) :
    ∃ v, validateDag task.dag = .ok v ∧ s₀ = initialRun env task v signalAborted := by
  unfold execute at h
  by_cases h1 : 3 ≤ task.delegateDepth
  · rw [if_pos h1] at h
    cases h
  · rw [if_neg h1] at h
    split at h
    · cases h
    · split at h
      · cases h
      · rename_i v hv
        by_cases h2 : store.has task.taskId
        · rw [if_pos h2] at h
          cases h
        · rw [if_neg h2] at h
          cases h
          exact ⟨v, hv, rfl⟩

/-- The run of a task that `execute` accepted, in the state `s`, over a sequence of events. -/
def runFrom (env : Env) (task : TaskFrame) (s : Run) (events : List Event) : Run :=
  run (step env task) (advance env task s) events

end NpsSdk.Nop
