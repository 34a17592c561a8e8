import NpsSdk.Lib.JsDouble
import NpsSdk.Lib.JsString
import NpsSdk.Lib.Json

/-!
# Task models and frames of the orchestration protocol

The records of `nop/models.ts` and the parts of `nop/frames.ts` and `nop/worker-client.ts` that the
orchestrator reads.  A list the source declares optional and reads as `x ?? []` is a list here, and
`minRequired`, read as `x ?? 0`, is a number.  Milliseconds and counts are integers.
-/

namespace NpsSdk.Nop

open NpsSdk.Lib

/-! ### Error codes -/

def nopTaskTimeout : String := "NOP-TASK-TIMEOUT"
def nopTaskDagInvalid : String := "NOP-TASK-DAG-INVALID"
def nopTaskDagCycle : String := "NOP-TASK-DAG-CYCLE"
def nopTaskDagTooLarge : String := "NOP-TASK-DAG-TOO-LARGE"
def nopTaskAlreadyCompleted : String := "NOP-TASK-ALREADY-COMPLETED"
def nopTaskCancelled : String := "NOP-TASK-CANCELLED"
def nopDelegateChainTooDeep : String := "NOP-DELEGATE-CHAIN-TOO-DEEP"
def nopDelegateTimeout : String := "NOP-DELEGATE-TIMEOUT"
def nopSyncDependencyFailed : String := "NOP-SYNC-DEPENDENCY-FAILED"
def nopStreamSeqGap : String := "NOP-STREAM-SEQ-GAP"
def nopStreamNidMismatch : String := "NOP-STREAM-NID-MISMATCH"
def nopResourceInsufficient : String := "NOP-RESOURCE-INSUFFICIENT"
def nopConditionEvalError : String := "NOP-CONDITION-EVAL-ERROR"
def nopInputMappingError : String := "NOP-INPUT-MAPPING-ERROR"
def nopCompensationFailed : String := "NOP-COMPENSATION-FAILED"
def nopCompensationNotSupported : String := "NOP-COMPENSATION-NOT-SUPPORTED"

/-! ### Task models -/

inductive TaskState
  | pending | preflight | running | waitingSync | completed | failed | cancelled | skipped
  | compensating | compensated
  deriving DecidableEq, Repr

/-- How a failed node is retried. -/
structure RetryPolicy where
  maxRetries : ℤ
  backoff : String
  baseDelayMs : Option ℤ := none
  maxDelayMs : Option ℤ := none
  retryOn : List String := []

structure DagNode where
  id : String
  action : String
  agent : String
  inputFrom : List String := []
  inputMapping : List (String × Json) := []
  timeoutMs : Option ℤ := none
  retryPolicy : Option RetryPolicy := none
  condition : Option String := none
  minRequired : ℤ := 0
  compensateAction : Option String := none
  compensateParamsMapping : List (String × Json) := []
  targetClusterAnchor : Option String := none

structure DagEdge where
  src : String
  dst : String

structure TaskDag where
  nodes : List DagNode
  edges : List DagEdge

/-- The node ids in the order of the frame. -/
def TaskDag.ids (dag : TaskDag) : List String := dag.nodes.map DagNode.id

/-- The edges as pairs of node ids. -/
def TaskDag.pairs (dag : TaskDag) : List (String × String) := dag.edges.map fun e => (e.src, e.dst)

/-- The context a task hands to its workers. -/
structure TaskContext where
  sessionKey : Option String := none
  requesterNid : Option String := none
  traceId : Option String := none

namespace CompensationPolicy

/-- Does the policy compensate after a failure? -/
def runsOnFailure (policy : Option String) : Bool :=
  policy == some "best_effort" || policy == some "strict" || policy == some "on_failure" ||
    policy == some "always"

/-- Does the policy compensate after a success? -/
def runsOnSuccess (policy : Option String) : Bool := policy == some "always"

/-- Is a missing or failed compensation step terminal? -/
def isStrict (policy : Option String) : Bool := policy == some "strict"

end CompensationPolicy

/-! ### Frames -/

/-- The request to run a DAG. -/
structure TaskFrame where
  taskId : String
  dag : TaskDag
  timeoutMs : Option ℤ := none
  callbackUrl : Option String := none
  context : Option TaskContext := none
  priority : Option String := none
  depth : Option ℤ := none
  compensationPolicy : Option String := none
  maxRetries : ℤ := 2
  preflight : Bool := false

def TaskFrame.delegateDepth (task : TaskFrame) : ℤ := task.depth.getD 0

/-- A value reached by a path: a JSON value, nothing, or something the host adds. -/
inductive Resolved
  | undefined
  | json (v : Json)
  /-- The whole context, for the path `$.`. -/
  | context (members : List (String × Option Json))
  /-- `Object.prototype`, reached as `__proto__`. -/
  | objectPrototype
  /-- A method every object inherits. -/
  | builtin (name : String)

/-- The value of one parameter: a resolved path, or an array of them. -/
inductive Param
  | one (v : Resolved)
  | many (vs : List Resolved)

/-- The parameters of a delegation, as the engine resolves them. -/
inductive Params
  | undefined
  /-- The output of the only upstream node. -/
  | output (v : Json)
  /-- The outputs of several upstream nodes. -/
  | passthrough (members : List (String × Option Json))
  /-- The parameters of the input mapping. -/
  | mapped (members : List (String × Param))

/-- The parameters as the frame carries them: an object is passed as it is, anything else is
wrapped as `{ value }`. -/
inductive FrameParams
  | record (p : Params)
  | value (p : Params)

/-- Wraps what is not an object. -/
def Params.toFrame : Params → FrameParams
  | .output (.obj ms) => .record (.output (.obj ms))
  | .passthrough ms => .record (.passthrough ms)
  | .mapped ms => .record (.mapped ms)
  | p => .value p

/-- The request sent to a worker. -/
structure DelegateFrame where
  taskId : String
  subtaskId : String
  action : String
  agentNid : String
  params : FrameParams
  idempotencyKey : String
  targetClusterAnchor : Option String
  nodeId : String
  deadlineAt : ℤ
  priority : Option String
  delegateDepth : ℤ
  context : Option TaskContext
  resolvedParams : Params
  resolvedTargetNid : String

/-- The error object of a stream frame. -/
structure StreamError where
  errorCode : String
  message : Option String := none

/-- One frame of a worker's answer. -/
structure AlignStreamFrame where
  seq : JsDouble
  isFinal : Bool
  senderNid : String
  data : Option Json := none
  error : Option StreamError := none

/-- A worker's answer to a preflight probe. -/
structure PreflightResult where
  agentNid : String
  available : Bool
  unavailableReason : Option String := none

/-- The summary of a compensation run. -/
structure SagaCompensationResult where
  attempted : ℕ
  succeeded : ℕ
  failed : ℕ
  failedNodeIds : List String

end NpsSdk.Nop
