import NpsSdk.Wire.Dict

/-!
# The frames of NOP

The classes of `nop/frames.ts`.
-/

namespace NpsSdk.Wire

open NpsSdk.Lib

structure TaskFrame where
  taskId : Option Json
  dag : Option Json
  timeoutMs : Option Json
  callbackUrl : Option Json
  context : Option Json
  priority : Option Json
  depth : Option Json
  compensationPolicy : Option Json
  resultTtlSeconds : Present := .num (.ofNat 3600)
  maxRetries : Present := .num (.ofNat 2)
  callbackSecret : Option Json
  preflight : Present := .bool false
  requestId : Option Json

namespace TaskFrame

def toDict (f : TaskFrame) : Dict :=
  [("task_id", f.taskId),
    ("dag", f.dag),
    ("timeout_ms", orNull f.timeoutMs),
    ("max_retries", some f.maxRetries.1),
    ("priority", orNull f.priority),
    ("callback_url", orNull f.callbackUrl),
    ("callback_secret", orNull f.callbackSecret),
    ("preflight", some f.preflight.1),
    ("context", orNull f.context),
    ("request_id", orNull f.requestId),
    ("delegate_depth", coalesce f.depth (some (.num (.ofNat 0)))),
    ("compensation_policy", coalesce f.compensationPolicy (some (.str "best_effort"))),
    ("result_ttl_seconds", some f.resultTtlSeconds.1)]

def fromDict (data : Dict) : TaskFrame where
  taskId := data.get "task_id"
  dag := data.get "dag"
  timeoutMs := orUndefined (data.get "timeout_ms")
  callbackUrl := orUndefined (data.get "callback_url")
  context := orUndefined (data.get "context")
  priority := orUndefined (data.get "priority")
  -- the depth has an older name
  depth := orUndefined (coalesce (data.get "delegate_depth") (data.get "depth"))
  compensationPolicy := orUndefined (data.get "compensation_policy")
  resultTtlSeconds := .readOr (data.get "result_ttl_seconds") (.num (.ofNat 3600))
  maxRetries := .readOr (data.get "max_retries") (.num (.ofNat 2))
  callbackSecret := orUndefined (data.get "callback_secret")
  preflight := .readOr (data.get "preflight") (.bool false)
  requestId := orUndefined (data.get "request_id")

end TaskFrame

/-- Its task and its agent are read under two names each. -/
structure DelegateFrame where
  taskId : Option Present
  subtaskId : Option Json
  action : Option Json
  agentNid : Option Present
  inputs : Option Json
  params : Option Json
  idempotencyKey : Option Json
  targetClusterAnchor : Option Json
  nodeId : Option Json
  deadlineAt : Option Json
  priority : Option Json
  delegateDepth : Present := .num (.ofNat 0)
  context : Option Json

namespace DelegateFrame

def toDict (f : DelegateFrame) : Dict :=
  [("parent_task_id", Present.val? f.taskId),
    ("subtask_id", f.subtaskId),
    ("node_id", orNull f.nodeId),
    ("target_agent_nid", Present.val? f.agentNid),
    ("action", f.action),
    ("inputs", orNull f.inputs),
    ("params", orNull f.params),
    ("deadline_at", orNull f.deadlineAt),
    ("idempotency_key", orNull f.idempotencyKey),
    ("priority", orNull f.priority),
    ("delegate_depth", some f.delegateDepth.1),
    ("context", orNull f.context),
    ("target_cluster_anchor", orNull f.targetClusterAnchor)]

def fromDict (data : Dict) : DelegateFrame where
  taskId := Present.read (coalesce (data.get "parent_task_id") (data.get "task_id"))
  subtaskId := data.get "subtask_id"
  action := data.get "action"
  agentNid := Present.read (coalesce (data.get "target_agent_nid") (data.get "agent_nid"))
  inputs := orUndefined (data.get "inputs")
  params := orUndefined (data.get "params")
  idempotencyKey := orUndefined (data.get "idempotency_key")
  targetClusterAnchor := orUndefined (data.get "target_cluster_anchor")
  nodeId := orUndefined (data.get "node_id")
  deadlineAt := orUndefined (data.get "deadline_at")
  priority := orUndefined (data.get "priority")
  delegateDepth := .readOr (data.get "delegate_depth") (.num (.ofNat 0))
  context := orUndefined (data.get "context")

end DelegateFrame

structure SyncFrame where
  taskId : Option Json
  syncId : Option Json
  waitFor : Option Json
  minRequired : Present := .num (.ofNat 0)
  aggregate : Present := .str "merge"
  timeoutMs : Option Json

namespace SyncFrame

def toDict (f : SyncFrame) : Dict :=
  [("task_id", f.taskId),
    ("sync_id", f.syncId),
    ("wait_for", f.waitFor),
    ("min_required", some f.minRequired.1),
    ("aggregate", some f.aggregate.1),
    ("timeout_ms", orNull f.timeoutMs)]

def fromDict (data : Dict) : SyncFrame where
  taskId := data.get "task_id"
  syncId := data.get "sync_id"
  waitFor := data.get "wait_for"
  minRequired := .readOr (data.get "min_required") (.num (.ofNat 0))
  aggregate := .readOr (data.get "aggregate") (.str "merge")
  timeoutMs := orUndefined (data.get "timeout_ms")

end SyncFrame

structure StreamError where
  errorCode : Json
  message : Option Json

structure AlignStreamFrame where
  streamId : Option Json
  taskId : Option Json
  subtaskId : Option Json
  seq : Option Json
  isFinal : Option Json
  senderNid : Option Json
  data : Option Json
  error : Option StreamError
  windowSize : Option Json
  ackSeq : Option Json
  nakSeq : Option Json

namespace AlignStreamFrame

def writeError : Option StreamError → Json
  | none => .null
  | some e => .obj [("error_code", e.errorCode), ("message", e.message.getD .null)]

/-- What an error is read from; a message that is `null` is left out. -/
def readError : Option Json → Except String (Option StreamError)
  | none => .ok none
  | some .null => .ok none
  | some (.obj members) => match JsMap.find "error_code" members with
    | some errorCode => .ok (some ⟨errorCode, orUndefined (JsMap.find "message" members)⟩)
    | none => .error "no error_code"
  | some _ => .error "not an error"

def toDict (f : AlignStreamFrame) : Dict :=
  [("stream_id", f.streamId),
    ("task_id", f.taskId),
    ("subtask_id", f.subtaskId),
    ("seq", f.seq),
    ("is_final", f.isFinal),
    ("sender_nid", f.senderNid),
    ("data", orNull f.data),
    ("error", some (writeError f.error)),
    ("window_size", orNull f.windowSize),
    ("ack_seq", orNull f.ackSeq),
    ("nak_seq", orNull f.nakSeq)]

def fromDict (data : Dict) : Except String AlignStreamFrame := do
  let error ← readError (data.get "error")
  .ok
    { streamId := data.get "stream_id"
      taskId := data.get "task_id"
      subtaskId := data.get "subtask_id"
      seq := data.get "seq"
      isFinal := data.get "is_final"
      senderNid := data.get "sender_nid"
      data := orUndefined (data.get "data")
      error
      windowSize := orUndefined (data.get "window_size")
      ackSeq := orUndefined (data.get "ack_seq")
      nakSeq := orUndefined (data.get "nak_seq") }

end AlignStreamFrame

/-! ### What is read of what was written -/

section

attribute [local simp] Dict.get JsMap.find

theorem coalesce_default (x : Option Json) (d : Json) :
    coalesce (orUndefined (coalesce x (some d))) (some d) = coalesce x (some d) := by
  unfold orUndefined
  rw [coalesce_assoc, coalesce_assoc, coalesce_undefined_left, coalesce_self]

theorem orUndefined_coalesce (x y : Option Json) : orUndefined (coalesce (coalesce x y) none) = orUndefined (coalesce x y) :=
  orUndefined_idem _

theorem TaskFrame.toDict_fromDict (f : TaskFrame) : (fromDict f.toDict).toDict = f.toDict := by
  simp [fromDict, toDict, coalesce_default, orUndefined_coalesce]

theorem DelegateFrame.toDict_fromDict (f : DelegateFrame) : (fromDict f.toDict).toDict = f.toDict := by
  simp [fromDict, toDict]

theorem SyncFrame.toDict_fromDict (f : SyncFrame) : (fromDict f.toDict).toDict = f.toDict := by
  simp [fromDict, toDict]

namespace AlignStreamFrame

theorem readError_writeError (e : Option StreamError) :
    ∃ e', readError (some (writeError e)) = .ok e' ∧ writeError e' = writeError e := by
  cases e with
  | none => exact ⟨none, rfl, rfl⟩
  | some e =>
    refine ⟨_, rfl, ?_⟩
    obtain ⟨errorCode, message⟩ := e
    cases message with
    | none => rfl
    | some v => cases v <;> rfl

theorem settles : Settles toDict fromDict := by
  intro f
  obtain ⟨e, he, hsame⟩ := readError_writeError f.error
  have herror : f.toDict.get "error" = some (writeError f.error) := by simp [toDict]
  refine ⟨{ f with
    data := orUndefined f.data
    error := e
    windowSize := orUndefined f.windowSize
    ackSeq := orUndefined f.ackSeq
    nakSeq := orUndefined f.nakSeq }, ?_, ?_⟩
  · unfold fromDict
    rw [herror, he]
    simp [toDict, bind, Except.bind]
  · simp [toDict, hsame]

end AlignStreamFrame

end

end NpsSdk.Wire
