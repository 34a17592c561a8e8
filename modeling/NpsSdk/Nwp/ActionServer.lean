import NpsSdk.Lib.JsValue
import NpsSdk.Lib.Runs
import NpsSdk.Nwp.ActionTaskStore
import NpsSdk.Nwp.ErrorCodes

/-!
# The action server

`ActionNodeApp.handleInvoke` as a machine.  A request runs without a break up to the authorization by the
provider, from there up to the execution, and from there to its end; between these any other request may
run.  An execution, and a stream it answers, goes on by events of its own.
-/

namespace NpsSdk.Nwp.ActionNode

open NpsSdk.Lib

/-! ### Options and requests -/

structure ActionSpec where
  resultAnchor : Option String := none
  async : Bool := false
  timeoutMsDefault : Option ℚ := none
  timeoutMsMax : Option ℚ := none

structure ActionNodeOptions where
  nodeId : String
  /-- The property of that name of the registry. -/
  actions : String → Option ActionSpec
  pathPrefix : String
  requireAuth : Bool := false
  defaultTimeoutMs : ℚ := 5000
  maxTimeoutMs : ℚ := 300000
  idempotencyTtlMs : ℚ := 86400000
  rejectPrivateCallbackUrls : Bool := true

/-- What the server calls outside itself: SHA-256 in hexadecimal, the check of a callback URL, whether
`JSON.stringify` takes a value, and the data of a frame without any. -/
structure Host (V : Type) where
  sha256 : String → String
  validateCallbackUrl : String → Bool → Option String
  serialisable : V → Bool
  noData : V

structure ActionFrame where
  actionId : String
  params : Option JsValue := none
  async_ : Bool := false
  idempotencyKey : Option String := none
  timeoutMs : Option ℚ := none
deriving DecidableEq

structure InvokeBody where
  frame : ActionFrame
  priority : Option String := none
  callbackUrl : Option String := none
  requestId : Option String := none

/-- A request to invoke: the header of the agent, and the body or why it cannot be read. -/
structure InvokeRequest where
  agentNid : Option String
  body : Except String InvokeBody
  wireInputBytes : ℕ := 0

structure ActionContext where
  agentNid : Option String
  requestId : Option String
  taskId : Option String := none
  spec : ActionSpec
  timeoutMs : ℚ
  priority : String
  wireInputBytes : ℕ

/-- What a provider throws. -/
inductive Thrown
  | action (httpStatus : ℕ) (npsStatus errorCode message : String)
  | error (message : String)
  deriving DecidableEq

/-- What an execution resolves to; `streamed` stands for a stream of frames. -/
structure ActionExecutionResult (V : Type) where
  result : Option V := none
  streamed : Bool := false
  anchorRef : Option String := none
  tokenEst : Option ℚ := none

variable {V : Type}

inductive ActionAnswer (V : Type)
  | error (httpStatus : ℕ) (npsStatus error message : String)
  | task (taskId : String) (status : ActionTaskStatus) (pollUrl : String) (requestId : Option String)
      (estimatedMs : Option ℚ)
  | caps (data : Option V) (anchorRef requestId : Option String) (tokenEst : ℚ)
  | taskStatus (rec : ActionTaskRecord V) (requestId : Option String)
  | taskCancelled (taskId : String) (requestId : Option String)
  | stream (streamId : String) (requestId : Option String)
  | threw

/-! ### State -/

/-- Where the frames of a response come from. -/
inductive FrameSource (V : Type)
  | provider
  | replay (rest : List (StreamFrame V))

/-- The pump of a streamed response. -/
structure StreamRun (V : Type) where
  streamId : String
  source : FrameSource V
  anchorRef : Option String := none
  signalAborted : Bool
  readerCancelled : Bool := false
  emitted : List (StreamFrame V) := []
  nextSeq : ℕ := 0
  terminal : Bool := false
  /-- The frames that were written. -/
  lines : List (StreamFrame V) := []

/-- What became of an execution. -/
inductive Outcome (V : Type)
  | running
  | failed
  | result (value : Option V) (anchorRef : Option String)
  | frames (completed : List (StreamFrame V)) (anchorRef : Option String)

/-- A call of `provider.execute`: its place among these calls, the instant of the lookup before it, the
task it runs as, and the instant up to which its result is retained. -/
structure Execution (V : Type) where
  order : ℕ
  since : ℚ
  taskId : Option String
  retain : Option ℚ := none
  outcome : Outcome V := .running

inductive Phase
  | authorizing
  | executing (aborted : Bool)
  | running (taskId : String) (aborted : Bool)
  | streaming
  | finished
  deriving DecidableEq

/-- A request that got to the provider. -/
structure Call (V : Type) where
  frame : ActionFrame
  context : ActionContext
  phase : Phase := .authorizing
  answer : Option (ActionAnswer V) := none
  execution : Option (Execution V) := none
  stream : Option (StreamRun V) := none
  requestAborted : Bool := false

structure ActionNodeApp (V : Type) where
  idempotency : IdempotencyCache V := .empty
  taskStore : ActionTasks V := .empty
  calls : List (Call V) := []
  /-- The requests that were answered at once. -/
  immediate : List (InvokeRequest × ActionAnswer V) := []
  /-- The number of calls of `provider.execute` so far. -/
  executions : ℕ := 0
  now : ℚ := 0

/-! ### Events -/

/-- A random UUID without its dashes. -/
structure Uuid where
  text : String
  nonempty : text ≠ ""

/-- What a turn finds outside: how much time passes up to each reading of the clock, and a random UUID. -/
structure Ambient where
  elapsed : ℕ → ℚ≥0
  uuid : Uuid

/-- The reading `k` of the clock in a turn. -/
def Ambient.clock (amb : Ambient) (now : ℚ) : ℕ → ℚ
  | 0 => now + amb.elapsed 0
  | k + 1 => amb.clock now k + amb.elapsed (k + 1)

/-- How the race of an execution against its cancellation and its timer ends. -/
inductive Settled (V : Type)
  | resolved (result : ActionExecutionResult V)
  | rejected (thrown : Thrown)
  | cancelled

inductive StreamItem (V : Type)
  | frame (f : StreamFrame V)
  | done
  | throws (thrown : Thrown)

inductive Event (V : Type)
  | request (amb : Ambient) (request : InvokeRequest)
  | authorized (amb : Ambient) (call : ℕ) (answer : Except Thrown Unit)
  | timeout (call : ℕ)
  | settled (amb : Ambient) (call : ℕ) (outcome : Settled V)
  | pulled (amb : Ambient) (call : ℕ) (item : StreamItem V)
  | readerCancelled (call : ℕ)
  | requestAborted (call : ℕ)

/-! ### Helpers -/

section

variable (options : ActionNodeOptions) (host : Host V)

def SYSTEM_TASK_STATUS : String := "system.task.status"
def SYSTEM_TASK_CANCEL : String := "system.task.cancel"

def clampTimeout (requested : ℚ) (spec : ActionSpec) : ℚ :=
  let specMax := spec.timeoutMsMax.getD options.maxTimeoutMs
  let hardMax := min specMax options.maxTimeoutMs
  if requested ≤ 0 then spec.timeoutMsDefault.getD options.defaultTimeoutMs
  else if hardMax < requested then hardMax else requested

def scopedCacheActionId (actionId : String) (agentNid : Option String) : String :=
  options.nodeId ++ "\x1f" ++ actionId ++ "\x1f" ++ agentNid.getD ""

def hashParams (params : Option JsValue) : String :=
  let json := match params with
    | none => "null"
    | some params => String.ofList params.json.text
  (host.sha256 json).toUpper

def readStringParam (params : Option JsValue) (name : String) : Option String :=
  match params with
  | some (.obj members) =>
    match JsMap.find name members with
    | some (.str s) => some s
    | _ => none
  | _ => none

def asyncResponse (taskId : String) (status : ActionTaskStatus) (requestId : Option String)
    (estimatedMs : Option ℚ) : ActionAnswer V :=
  let base := String.ofList (options.pathPrefix.toList.reverse.dropWhile (· == '/')).reverse
  .task taskId status (base ++ "/invoke") requestId estimatedMs

def capsResponse (payload : Option V) (anchorRef requestId : Option String) (tokenEst : ℚ) :
    ActionAnswer V :=
  if payload.all host.serialisable then .caps payload anchorRef requestId tokenEst else .threw

def thrownResponse (status : ℕ × String) (message : String) : Thrown → ActionAnswer V
  | .action httpStatus npsStatus errorCode message => .error httpStatus npsStatus errorCode message
  | .error _ => .error status.1 status.2 NWP_NODE_UNAVAILABLE message

/-! ### Tasks of the system -/

/-- The task a request names, if it is one of its caller. -/
def ownTask (s : ActionNodeApp V) (frame : ActionFrame) (agentNid : Option String) :
    Except (ActionAnswer V) (String × ActionTaskRecord V) :=
  match truthy (readStringParam frame.params "task_id") with
  | none => .error (.error 400 "NPS-CLIENT-BAD-REQUEST" NWP_ACTION_PARAMS_INVALID
      "params.task_id is required.")
  | some taskId =>
    match JsMap.get s.taskStore taskId with
    | none => .error (.error 404 "NPS-CLIENT-NOT-FOUND" NWP_TASK_NOT_FOUND
        ("Unknown task_id '" ++ taskId ++ "'."))
    | some rec =>
      if rec.agentNid ≠ agentNid then
        .error (.error 403 "NPS-AUTH-FORBIDDEN" NWP_AUTH_NID_SCOPE_VIOLATION
          "The caller does not own this task.")
      else .ok (taskId, rec)

def handleSystemTaskStatus (s : ActionNodeApp V) (frame : ActionFrame) (requestId agentNid : Option String) :
    ActionAnswer V :=
  match ownTask s frame agentNid with
  | .error answer => answer
  | .ok (_, rec) => if rec.result.all host.serialisable then .taskStatus rec requestId else .threw

/-- `backgroundControllers.get(taskId)?.abort()`, for one call. -/
def Call.abort (taskId : String) (c : Call V) : Call V :=
  match c.phase with
  | .running t _ => if t = taskId then { c with phase := .running t true } else c
  | _ => c

def handleSystemTaskCancel (amb : Ambient) (s : ActionNodeApp V) (frame : ActionFrame)
    (requestId agentNid : Option String) : ActionAnswer V × ActionNodeApp V :=
  match ownTask s frame agentNid with
  | .error answer => (answer, s)
  | .ok (taskId, rec) =>
    if rec.status.terminal then
      (.error 409 "NPS-CLIENT-CONFLICT" NWP_TASK_ALREADY_CANCELLED
        ("Task '" ++ taskId ++ "' is already in a terminal state ('" ++ rec.status.text ++ "')."), s)
    else
      (.taskCancelled taskId requestId,
        { s with taskStore := (s.taskStore.cancel (amb.clock s.now 0) taskId).2
                 calls := s.calls.map (Call.abort taskId) })

/-! ### Streams -/

def nextItem (st : StreamRun V) (item : StreamItem V) : StreamItem V × FrameSource V :=
  match st.source with
  | .provider => (item, .provider)
  | .replay [] => (.done, .replay [])
  | .replay (f :: rest) =>
    match st.readerCancelled, item with
    | true, .done => (.done, .replay [])
    | _, _ => (.frame f, .replay rest)

/-- What is written when the pump throws. -/
def failureLine (st : StreamRun V) (code : String) : StreamRun V :=
  if st.terminal ∨ st.signalAborted ∨ st.readerCancelled then st
  else { st with lines := st.lines ++
    [{ streamId := st.streamId, seq := st.nextSeq, isLast := true, data := host.noData, errorCode := some code }] }

inductive Pumped
  | goesOn | stops | completes
  deriving DecidableEq

/-- One turn of the pump in `streamResponse`, up to the next frame it awaits. -/
def pump (st : StreamRun V) (item : StreamItem V) : StreamRun V × Pumped :=
  match item with
  | .done =>
    if ¬ st.terminal then (failureLine host st NWP_NODE_UNAVAILABLE, .stops)
    else if (st.emitted.getLast?.bind StreamFrame.errorCode).isNone then (st, .completes)
    else (st, .stops)
  | .throws (.action _ _ errorCode _) => (failureLine host st errorCode, .stops)
  | .throws (.error _) => (failureLine host st NWP_NODE_UNAVAILABLE, .stops)
  | .frame supplied =>
    if st.terminal ∨ supplied.seq ≠ st.nextSeq ∨ supplied.errorCode.isSome ∧ ¬ supplied.isLast then
      (failureLine host st NWP_NODE_UNAVAILABLE, .stops)
    else
      let frame := { supplied with streamId := st.streamId }
      let pushed := { st with emitted := st.emitted ++ [frame] }
      if st.readerCancelled ∨ host.serialisable frame.data = false then
        (failureLine host pushed NWP_NODE_UNAVAILABLE, .stops)
      else
        let written := { pushed with lines := st.lines ++ [frame], nextSeq := st.nextSeq + 1,
                                     terminal := frame.isLast }
        -- the head of the loop
        if st.signalAborted then (written, .stops) else (written, .goesOn)

/-! ### The phases of a request -/

def setCall (s : ActionNodeApp V) (i : ℕ) (c : Call V) : ActionNodeApp V := { s with calls := s.calls.set i c }

def Call.finish (c : Call V) (answer : ActionAnswer V) : Call V :=
  { c with phase := .finished, answer := some answer }

section

variable (c : Call V) (answer : ActionAnswer V)

@[simp] theorem Call.finish_execution : (c.finish answer).execution = c.execution := rfl
@[simp] theorem Call.finish_answer : (c.finish answer).answer = some answer := rfl
@[simp] theorem Call.finish_stream : (c.finish answer).stream = c.stream := rfl

end

/-- Starts the pump of a response.  A replay whose request was aborted ends before its first frame. -/
def startStream (amb : Ambient) (c : Call V) (source : FrameSource V) (anchorRef : Option String)
    (signalAborted : Bool) : Call V :=
  { c with phase := if signalAborted then .finished else .streaming
           answer := some (.stream amb.uuid.text c.context.requestId)
           stream := some { streamId := amb.uuid.text, source, anchorRef, signalAborted } }

/-- `handleInvoke` up to the authorization. -/
def accept (r : InvokeRequest) (body : InvokeBody) : Except (ActionAnswer V) (Call V) :=
  let frame := body.frame
  match options.actions frame.actionId with
  | none => .error (.error 404 "NPS-CLIENT-NOT-FOUND" NWP_ACTION_NOT_FOUND
      ("Unknown action_id '" ++ frame.actionId ++ "'."))
  | some spec =>
    if body.priority.any fun p => p ≠ "low" ∧ p ≠ "normal" ∧ p ≠ "high" then
      .error (.error 400 "NPS-CLIENT-BAD-REQUEST" NWP_ACTION_PARAMS_INVALID
        ("priority '" ++ body.priority.getD "" ++ "' is invalid (allowed: low/normal/high)."))
    else if frame.async_ ∧ ¬ spec.async then
      .error (.error 400 "NPS-CLIENT-BAD-REQUEST" NWP_ACTION_PARAMS_INVALID
        ("action '" ++ frame.actionId ++ "' does not support async execution."))
    else
      match body.callbackUrl.bind (host.validateCallbackUrl · options.rejectPrivateCallbackUrls) with
      | some err => .error (.error 400 "NPS-CLIENT-BAD-REQUEST" NWP_ACTION_PARAMS_INVALID err)
      | none => .ok
          { frame
            context :=
              { agentNid := r.agentNid
                requestId := body.requestId
                spec
                timeoutMs := clampTimeout options (frame.timeoutMs.getD 0) spec
                priority := body.priority.getD "normal"
                wireInputBytes := r.wireInputBytes } }

def handleRequest (amb : Ambient) (s : ActionNodeApp V) (r : InvokeRequest) : ActionNodeApp V :=
  let answerAt (s : ActionNodeApp V) (answer : ActionAnswer V) :=
    { s with immediate := s.immediate ++ [(r, answer)] }
  if options.requireAuth ∧ truthy r.agentNid = none then
    answerAt s (.error 401 "NPS-CLIENT-UNAUTHORIZED" NWP_AUTH_NID_SCOPE_VIOLATION
      "X-NWP-Agent header is required.")
  else
    match r.body with
    | .error message => answerAt s (.error 400 "NPS-CLIENT-BAD-REQUEST" NWP_ACTION_PARAMS_INVALID message)
    | .ok body =>
      if body.frame.actionId = SYSTEM_TASK_STATUS then
        answerAt s (handleSystemTaskStatus host s body.frame body.requestId r.agentNid)
      else if body.frame.actionId = SYSTEM_TASK_CANCEL then
        let (answer, s') := handleSystemTaskCancel amb s body.frame body.requestId r.agentNid
        answerAt s' answer
      else
        match accept options host r body with
        | .error answer => answerAt s answer
        | .ok call => { s with calls := s.calls ++ [call] }

/-- The entry that a cached result is stored as. -/
def entryOf (amb : Ambient) (now : ℚ) (k : ℕ) (c : Call V) : IdempotentEntry V :=
  { actionId := c.frame.actionId
    paramsHash := hashParams host c.frame.params
    expiresAt := amb.clock now k + options.idempotencyTtlMs }

/-- The cache after `entry` is stored under the key of a call, if it has one. -/
def store (now : ℚ) (c : Call V) (entry : IdempotentEntry V) (cache : IdempotencyCache V) :
    IdempotencyCache V :=
  match truthy c.frame.idempotencyKey with
  | none => cache
  | some key =>
    (cache.tryStore now (scopedCacheActionId options c.frame.actionId c.context.agentNid) key entry).2

/-- The instant up to which an entry of a call is retained, if the call has a key. -/
def Call.retention (c : Call V) (entry : IdempotentEntry V) : Option ℚ :=
  (truthy c.frame.idempotencyKey).map fun _ => entry.expiresAt

def replay (amb : Ambient) (s : ActionNodeApp V) (c : Call V) (cached : IdempotentEntry V) : Call V :=
  if cached.paramsHash ≠ hashParams host c.frame.params then
    c.finish (.error 409 "NPS-CLIENT-CONFLICT" NWP_ACTION_IDEMPOTENCY_CONFLICT
      "idempotency_key reuse with different params.")
  else
    match truthy cached.taskId with
    | some taskId =>
      let status := match JsMap.get s.taskStore taskId with
        | some rec => rec.status
        | none => .pending
      c.finish (asyncResponse options taskId status c.context.requestId none)
    | none =>
      match cached.streamFrames with
      | some frames => startStream amb c (.replay frames) none c.requestAborted
      | none => c.finish (capsResponse host cached.result cached.anchorRef c.context.requestId 0)

def startTask (amb : Ambient) (s : ActionNodeApp V) (i : ℕ) (c : Call V) : ActionNodeApp V :=
  let taskId := amb.uuid.text
  match s.taskStore.create (amb.clock s.now 1) taskId c.frame.actionId c.context.requestId
      c.context.agentNid with
  | none => setCall s i (c.finish .threw)
  | some tasks =>
    let entry := { entryOf options host amb s.now 2 c with taskId := some taskId }
    let cache := store options (amb.clock s.now 3) c entry s.idempotency
    let answer := asyncResponse options taskId .pending c.context.requestId c.context.spec.timeoutMsDefault
    match tasks.tryTransition (amb.clock s.now 4) taskId .pending .running with
    | (false, tasks) =>
      setCall { s with taskStore := tasks, idempotency := cache } i (c.finish answer)
    | (true, tasks) =>
      setCall { s with taskStore := tasks, idempotency := cache, executions := s.executions + 1 } i
        { c with
          context := { c.context with taskId := some taskId }
          phase := .running taskId false
          answer := some answer
          execution := some { order := s.executions, since := amb.clock s.now 0, taskId := some taskId
                              retain := c.retention entry } }

/-- Starts an execution whose result is the answer. -/
def startExecution (amb : Ambient) (s : ActionNodeApp V) (i : ℕ) (c : Call V) : ActionNodeApp V :=
  setCall { s with executions := s.executions + 1 } i
    { c with phase := .executing false
             execution := some { order := s.executions, since := amb.clock s.now 0, taskId := none } }

/-- `handleInvoke` after the authorization: the lookup, and what it leads to. -/
def lookup (amb : Ambient) (s : ActionNodeApp V) (i : ℕ) (c : Call V) : ActionNodeApp V :=
  let start (s : ActionNodeApp V) :=
    if c.frame.async_ then startTask options host amb s i c else startExecution amb s i c
  match truthy c.frame.idempotencyKey with
  | none => start s
  | some key =>
    match s.idempotency.get (amb.clock s.now 0)
        (scopedCacheActionId options c.frame.actionId c.context.agentNid) key with
    | (some cached, cache) => setCall { s with idempotency := cache } i (replay options host amb s c cached)
    | (none, cache) => start { s with idempotency := cache }

/-- How the race ends; it is lost to the cancellation only once the execution is aborted. -/
def race (aborted : Bool) : Settled V → Option (Except Thrown (ActionExecutionResult V))
  | .resolved result => some (if aborted then .error (.error "action execution cancelled") else .ok result)
  | .rejected thrown => some (.error thrown)
  | .cancelled => if aborted then some (.error (.error "action execution cancelled")) else none

def Call.ended (c : Call V) (outcome : Outcome V) (retain : Option ℚ) : Call V :=
  { c with execution := c.execution.map fun x => { x with outcome, retain } }

def settleExecution (amb : Ambient) (s : ActionNodeApp V) (i : ℕ) (c : Call V) (aborted : Bool) :
    Except Thrown (ActionExecutionResult V) → ActionNodeApp V
  | .error thrown =>
    let answer :=
      if aborted then thrownResponse (504, "NPS-SERVER-TIMEOUT") "action execution timed out." thrown
      else thrownResponse (500, "NPS-SERVER-INTERNAL") "action execution failed." thrown
    setCall s i ((c.finish answer).ended .failed none)
  | .ok result =>
    let anchorRef := result.anchorRef <|> c.context.spec.resultAnchor
    if result.streamed then setCall s i (startStream amb c .provider anchorRef false)
    else
      let entry := { entryOf options host amb s.now 0 c with result := result.result, anchorRef }
      let cache := store options (amb.clock s.now 1) c entry s.idempotency
      let answer := capsResponse host result.result anchorRef c.context.requestId (result.tokenEst.getD 0)
      setCall { s with idempotency := cache } i
        ((c.finish answer).ended (.result result.result anchorRef) (c.retention entry))

def settleTask (amb : Ambient) (s : ActionNodeApp V) (i : ℕ) (c : Call V) (taskId : String) (aborted : Bool) :
    Except Thrown (ActionExecutionResult V) → ActionNodeApp V
  | .ok result =>
    setCall { s with taskStore := (s.taskStore.complete (amb.clock s.now 0) taskId result.result).2 } i
      ({ c with phase := .finished }.ended (.result result.result none) (c.execution.bind Execution.retain))
  | .error thrown =>
    let status := (JsMap.get s.taskStore taskId).map ActionTaskRecord.status
    let error : ActionTaskError := match thrown with
      | .action _ _ code message => ⟨code, if aborted then "task timed out" else message⟩
      | .error message => ⟨NWP_NODE_UNAVAILABLE, if aborted then "task timed out" else message⟩
    let tasks := if status = some .cancelled then s.taskStore
      else (s.taskStore.fail (amb.clock s.now 0) taskId error).2
    setCall { s with taskStore := tasks } i
      ({ c with phase := .finished }.ended .failed (c.execution.bind Execution.retain))

/-- A turn of the pump of a call; where the frames are complete they are stored, unless they are replayed. -/
def pumpCall (amb : Ambient) (s : ActionNodeApp V) (i : ℕ) (c : Call V) (st : StreamRun V)
    (item : StreamItem V) : ActionNodeApp V :=
  let (next, source) := nextItem st item
  let (st', pumped) := pump host { st with source } next
  let moved := { c with stream := some st' }
  match pumped, source with
  | .goesOn, _ => setCall s i moved
  | .stops, .provider => setCall s i ({ moved with phase := .finished }.ended .failed none)
  | .completes, .provider =>
    let entry := { entryOf options host amb s.now 0 c with
      streamFrames := some st'.emitted, anchorRef := st.anchorRef }
    let cache := store options (amb.clock s.now 1) c entry s.idempotency
    setCall { s with idempotency := cache } i
      ({ moved with phase := .finished }.ended (.frames st'.emitted st.anchorRef) (c.retention entry))
  | _, .replay _ => setCall s i { moved with phase := .finished }

/-! ### Steps -/

def callStep (s : ActionNodeApp V) (i : ℕ) (c : Call V) : Event V → ActionNodeApp V
  | .request .. => s
  | .authorized amb _ answer =>
    if c.phase ≠ .authorizing then s
    else match answer with
      | .error thrown => setCall s i
          (c.finish (thrownResponse (500, "NPS-SERVER-INTERNAL") "action authorization failed." thrown))
      | .ok () => lookup options host amb s i c
  | .timeout _ =>
    match c.phase, c.stream with
    | .executing _, _ => setCall s i { c with phase := .executing true }
    | .running taskId _, _ => setCall s i { c with phase := .running taskId true }
    | .streaming, some st =>
      match st.source, st.readerCancelled with
      | .provider, false => setCall s i { c with stream := some { st with signalAborted := true } }
      | _, _ => s
    | _, _ => s
  | .settled amb _ outcome =>
    match c.phase with
    | .executing aborted =>
      match race aborted outcome with
      | some result => settleExecution options host amb s i c aborted result
      | none => s
    | .running taskId aborted =>
      match race aborted outcome with
      | some result => settleTask amb s i c taskId aborted result
      | none => s
    | _ => s
  | .pulled amb _ item =>
    match c.phase, c.stream with
    | .streaming, some st => pumpCall options host amb s i c st item
    | _, _ => s
  | .readerCancelled _ =>
    match c.phase, c.stream with
    | .streaming, some st =>
      let aborted := match st.source with
        | .provider => true
        | .replay _ => st.signalAborted
      setCall s i { c with stream := some { st with readerCancelled := true, signalAborted := aborted } }
    | _, _ => s
  | .requestAborted _ =>
    match c.stream with
    | some st =>
      match st.source with
      | .provider => setCall s i { c with requestAborted := true }
      | .replay _ => setCall s i
          { c with requestAborted := true, stream := some { st with signalAborted := true } }
    | none => setCall s i { c with requestAborted := true }

def Event.call? : Event V → Option ℕ
  | .request .. => none
  | .authorized _ i _ | .timeout i | .settled _ i _ | .pulled _ i _ | .readerCancelled i
  | .requestAborted i => some i

/-- The instant after an event. -/
def Event.after (now : ℚ) : Event V → ℚ
  | .request amb _ | .authorized amb _ _ | .settled amb _ _ | .pulled amb _ _ => amb.clock now 4
  | .timeout _ | .readerCancelled _ | .requestAborted _ => now

/-- The server after an event. -/
def appStep (s : ActionNodeApp V) (e : Event V) : ActionNodeApp V :=
  let s' := match e with
    | .request amb r => handleRequest options host amb s r
    | e =>
      match e.call? with
      | none => s
      | some i =>
        match s.calls[i]? with
        | none => s
        | some c => callStep options host s i c e
  { s' with now := e.after s.now }

variable {options host} in
theorem appStep_eq {s : ActionNodeApp V} {e : Event V} {i : ℕ} (he : e.call? = some i) : appStep options host s e =
    { (match s.calls[i]? with
        | none => s
        | some c => callStep options host s i c e) with now := e.after s.now } := by
  unfold appStep
  cases e with
  | request => cases he
  | _ =>
    cases he
    rfl

/-- The server after some events, from its start. -/
def appAfter (es : List (Event V)) : ActionNodeApp V := run (appStep options host) {} es

end

end NpsSdk.Nwp.ActionNode
