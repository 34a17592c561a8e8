import NpsSdk.Nwp.ActionServer
import NpsSdk.Nwp.ContextStore

/-!
# Requests, responses and chunks of `llm.complete`

The values the action works on, as they are decoded.  `R` is what a provider gives as a receipt of a
context; the receipts of the store are `LlmContextReceiptDto`.
-/

namespace NpsSdk.Nwp

def LLM_COMPLETE_RESPONSE_ANCHOR : String := "nps:system:llm.complete:response"
def LLM_COMPLETE_STREAM_ANCHOR : String := "nps:system:llm.complete:stream"

inductive LlmStopReason
  | end_turn | tool_use | tool_calls | max_tokens | length | error
  deriving DecidableEq

structure LlmUsageDto where
  inputTokens : Option ℤ := none
  outputTokens : Option ℤ := none
  cacheHit : Option Bool := none
  reusedTokens : Option ℤ := none
  evaluatedTokens : Option ℤ := none
  wireInputBytes : Option ℤ := none

structure LlmContextRequestDto where
  operation : LlmContextOperation
  contextId : Option String := none
  baseVersion : Option ℤ := none
  ttlSeconds : Option ℤ := none

structure LlmCompleteActionRequest where
  model : String
  stream : Bool := false
  messages : List LlmMessageDto
  tools : Option (List LlmToolDefinitionDto) := none
  context : Option LlmContextRequestDto := none

structure LlmCompleteActionResponse (R : Type) where
  stopReason : LlmStopReason
  content : Option String := none
  toolCalls : Option (List LlmToolCallDto) := none
  error : Option String := none
  usage : Option LlmUsageDto := none
  context : Option R := none

structure LlmCompleteStreamChunkDto (R : Type) where
  contentDelta : Option String := none
  toolCalls : Option (List LlmToolCallDto) := none
  stopReason : Option LlmStopReason := none
  error : Option String := none
  usage : Option LlmUsageDto := none
  context : Option R := none

variable {R R' : Type}

/-- `{ ...response, context }`. -/
def LlmCompleteActionResponse.withContext (response : LlmCompleteActionResponse R) (context : Option R') :
    LlmCompleteActionResponse R' where
  stopReason := response.stopReason
  content := response.content
  toolCalls := response.toolCalls
  error := response.error
  usage := response.usage
  context := context

/-- `{ ...chunk, context }`. -/
def LlmCompleteStreamChunkDto.withContext (chunk : LlmCompleteStreamChunkDto R) (context : Option R') :
    LlmCompleteStreamChunkDto R' where
  contentDelta := chunk.contentDelta
  toolCalls := chunk.toolCalls
  stopReason := chunk.stopReason
  error := chunk.error
  usage := chunk.usage
  context := context

end NpsSdk.Nwp

/-!
## The provider of stateful completions

`StatefulLlmActionProvider` as a machine.  A call of `complete` runs without a break up to the execution by
the inner provider, from there up to the authorization of the commit, and from there to its end; a stream
it answers with is a generator, which runs from one of its `await`s or `yield`s to the next.  Between these
any other call may run.  The values a provider supplies are given as they are decoded.
-/

namespace NpsSdk.Nwp.StatefulLlm

open NpsSdk.Lib
open ActionNode (Thrown)

/-! ### Options and calls -/

structure StatefulLlmActionOptions where
  securityScope : String
  runtimeRevision : String
  supportsTools : Bool := false
  supportsStream : Bool := false
  /-- Whether there is an authorizer. -/
  authorizer : Bool := false

/-- An invocation of `llm.complete`, with its parameters or what is wrong with them. -/
structure ActionFrame where
  params : Except String LlmCompleteActionRequest
  async_ : Bool := false
  idempotencyKey : Option String := none
  requestId : Option String := none

variable {R : Type}

/-- What the inner provider resolves to: its result or what is wrong with it, and whether there is a stream
of frames. -/
structure ActionExecutionResult (R : Type) where
  result : Except String (LlmCompleteActionResponse R)
  streamFrames : Bool := false
  anchorRef : Option String := none
  tokenEst : Option ℚ := none

/-- What `complete` resolves to. -/
inductive Completion
  | result (result : LlmCompleteActionResponse LlmContextReceiptDto) (anchorRef : String) (tokenEst : Option ℚ)
  | stream (anchorRef : String) (tokenEst : Option ℚ)

/-- A frame of the inner provider: its chunks, or what is wrong with them. -/
abbrev SuppliedFrame (R : Type) := StreamFrame (Except String (List (LlmCompleteStreamChunkDto R)))

abbrev ChunkFrame := StreamFrame (List (LlmCompleteStreamChunkDto LlmContextReceiptDto))

/-! ### State -/

/-- How a block ends. -/
inductive Ending
  | returned
  | threw (thrown : Thrown)

/-- Where the generator stands: before its first statement, at the `await` of the next frame, at the one
of the authorization, at a `yield`, at the `await` of the end of the source, or after its end. -/
inductive Point
  | start
  | pulling
  | authorizing (sanitized : ChunkFrame) (terminalIndex : ℕ)
  | yielded (last : Bool)
  | closing (ending : Ending)
  | done (ending : Ending)

/-- What a consumer calls on the generator. -/
inductive Resume
  | next
  | return
  | throw (thrown : Thrown)
  deriving DecidableEq

/-- The generator of `coordinateStream`. -/
structure Coordination where
  content : List String := []
  toolCalls : List LlmToolCallDto := []
  resolved : Bool := false
  terminalSeen : Bool := false
  point : Point := .start
  /-- The calls that wait for the generator. -/
  queue : List Resume := []
  yields : List ChunkFrame := []

inductive Phase
  | executing
  | authorizing (response : LlmCompleteActionResponse LlmContextReceiptDto) (anchorRef : String)
      (tokenEst : Option ℚ)
  | streaming (generator : Coordination)
  | finished

inductive Settlement
  | committed | aborted
  deriving DecidableEq

structure LlmCall where
  frame : ActionFrame
  request : LlmCompleteActionRequest
  owner : LlmContextOwner
  reservation : LlmContextMutationReservation
  phase : Phase := .executing
  /-- What `complete` resolves to or throws. -/
  answer : Option (Except Thrown Completion) := none
  signalAborted : Bool := false
  /-- How the reservation was settled, in order. -/
  settlements : List Settlement := []

/-- How a call ends before it has a reservation: the inner provider executes it, or it throws. -/
inductive Unreserved
  | passedOn
  | threw (thrown : Thrown)

structure Provider where
  store : LlmContextStore := {}
  calls : List LlmCall := []
  /-- The calls that got no reservation. -/
  unreserved : List (ActionFrame × Unreserved) := []

/-! ### Events -/

inductive StreamItem (R : Type)
  | frame (f : SuppliedFrame R)
  | done
  | throws (thrown : Thrown)

inductive Event (R : Type)
  | complete (amb : StoreAmbient) (agentNid : Option String) (frame : ActionFrame)
  /-- The inner provider settles; it may resolve to nothing at all. -/
  | executed (amb : StoreAmbient) (call : ℕ) (answer : Except Thrown (Option (ActionExecutionResult R)))
  | authorized (amb : StoreAmbient) (call : ℕ) (answer : Except Thrown Unit)
  | resumed (call : ℕ) (resume : Resume)
  | pulled (amb : StoreAmbient) (call : ℕ) (item : StreamItem R)
  | closed (amb : StoreAmbient) (call : ℕ) (answer : Except Thrown Unit)
  | aborted (call : ℕ)
  | release (amb : StoreAmbient) (agentNid : Option String) (contextId : String) (baseVersion : ℤ)
      (idempotencyKey : String)
  | sweep (now : ℚ)

/-- What an operation finds after another one in the same turn. -/
def laterAmbient (amb : StoreAmbient) : StoreAmbient := { amb with clock := fun n => amb.clock (n + 3) }

/-! ### Errors -/

def paramsError (message : String) : Thrown :=
  .action 422 "NPS-CLIENT-UNPROCESSABLE" NWP_ACTION_PARAMS_INVALID message

def internalError (message : String) : Thrown :=
  .action 500 "NPS-SERVER-INTERNAL" NWP_NODE_UNAVAILABLE message

def mapStoreError (error : LlmContextStoreError) : Thrown :=
  match error.errorCode with
  | none => .error error.message
  | some errorCode =>
    let status := (NWP_ERROR_TO_NPS_STATUS.lookup errorCode).getD "NPS-SERVER-INTERNAL"
    .action (toHttpStatus status) status errorCode error.message

/-- The message of a read of a property of `undefined`. -/
def unreadable (property : String) : String :=
  "Cannot read properties of undefined (reading '" ++ property ++ "')"

def abortCode : Thrown → String
  | .action _ _ errorCode _ => errorCode
  | .error _ => NWP_NODE_UNAVAILABLE

/-! ### Up to the reservation -/

section

variable (options : StatefulLlmActionOptions) (storeOptions : LlmContextStoreOptions) (amb : StoreAmbient)

/-- The checks of `complete`: the request, and its context if it has one. -/
def admissible (frame : ActionFrame) :
    Except Thrown (LlmCompleteActionRequest × Option LlmContextRequestDto) := do
  let request ← frame.params.mapError paramsError
  if ¬ options.supportsTools ∧ 0 < (request.tools.getD []).length then
    .error (paramsError "this node does not advertise LLM tool-definition support")
  else match request.context with
    | none => .ok (request, none)
    | some context =>
      if request.stream ∧ ¬ options.supportsStream then
        .error (paramsError "this node does not advertise LLM streaming support")
      else if request.stream ∧ frame.async_ then
        .error (paramsError "stream=true cannot be combined with async=true")
      else if (context.operation = .append ∨ context.operation = .fork ∨ context.operation = .reset) ∧
          (context.contextId = none ∨ context.baseVersion = none) then
        .error (paramsError "append/fork/reset require context_id and base_version")
      else .ok (request, some context)

/-- `owner`. -/
def ownerOf (agentNid : Option String) : Except Thrown LlmContextOwner :=
  match agentNid with
  | none => .error (.action 401 "NPS-AUTH-UNAUTHENTICATED" NWP_AUTH_NID_SCOPE_VIOLATION
      "stateful LLM context actions require an authenticated agent NID")
  | some nid =>
    if isBlank nid then .error (.action 401 "NPS-AUTH-UNAUTHENTICATED" NWP_AUTH_NID_SCOPE_VIOLATION
      "stateful LLM context actions require an authenticated agent NID")
    else .ok { nid, securityScope := options.securityScope }

def bindingOf (store : LlmContextStore) (owner : LlmContextOwner) (request : LlmCompleteActionRequest)
    (context : LlmContextRequestDto) : Except Thrown LlmContextBinding × LlmContextStore :=
  if context.operation = .append ∨ context.operation = .fork then
    match context.contextId with
    | none => (.error (paramsError "append/fork require context_id and base_version"), store)
    | some contextId =>
      match snapshot storeOptions amb store owner contextId with
      | (.error e, store) => (.error (mapStoreError e), store)
      | (.ok found, store) =>
        (.ok { model := request.model
               systemMessages := found.binding.systemMessages
               tools := request.tools <|> found.binding.tools
               runtimeRevision := options.runtimeRevision }, store)
  else
    (.ok { model := request.model
           systemMessages := request.messages.filter fun message => message.role.toLower == "system"
           tools := request.tools
           runtimeRevision := options.runtimeRevision }, store)

def reserve (store : LlmContextStore) (owner : LlmContextOwner) (request : LlmCompleteActionRequest)
    (context : LlmContextRequestDto) (frame : ActionFrame) :
    Except Thrown LlmContextMutationReservation × LlmContextStore :=
  match bindingOf options storeOptions amb store owner request context with
  | (.error thrown, store) => (.error thrown, store)
  | (.ok binding, store) =>
    match Nwp.reserve storeOptions (laterAmbient amb) store
      { operation := context.operation
        owner
        contextId := context.contextId
        baseVersion := context.baseVersion
        binding
        messages := request.messages
        ttlSeconds := context.ttlSeconds.map fun seconds => (seconds : ℚ)
        idempotencyKey := frame.idempotencyKey.getD ""
        requestId := frame.requestId.getD "" } with
    | (.error e, store) => (.error (mapStoreError e), store)
    | (.ok reservation, store) => (.ok reservation, store)

/-- `complete` up to the call of the inner provider. -/
def complete (s : Provider) (agentNid : Option String) (frame : ActionFrame) : Provider :=
  let ended (store : LlmContextStore) (how : Unreserved) : Provider :=
    { s with store, unreserved := s.unreserved ++ [(frame, how)] }
  match admissible options frame with
  | .error thrown => ended s.store (.threw thrown)
  | .ok (_, none) => ended s.store .passedOn
  | .ok (request, some context) =>
    match ownerOf options agentNid with
    | .error thrown => ended s.store (.threw thrown)
    | .ok owner =>
      match reserve options storeOptions amb s.store owner request context frame with
      | (.error thrown, store) => ended store (.threw thrown)
      | (.ok reservation, store) =>
        { s with store, calls := s.calls ++ [{ frame, request, owner, reservation }] }

end

/-! ### Turns of a call -/

structure Turn where
  store : LlmContextStore
  call : LlmCall

def Turn.toPhase (t : Turn) (phase : Phase) : Turn := { t with call := { t.call with phase } }

/-- `complete` ends, and nothing of the call goes on. -/
def Turn.finish (t : Turn) (outcome : Except Thrown Completion) : Turn :=
  { t with call := { t.call with phase := .finished, answer := some outcome } }

/-- The generator of the call goes on as `g`. -/
def Turn.goesOn (t : Turn) (g : Coordination) : Turn := t.toPhase (.streaming g)

/-- `complete` ends with a stream, whose generator has not started. -/
def Turn.startStream (t : Turn) (anchorRef : String) (tokenEst : Option ℚ) : Turn :=
  { t with call := { t.call with phase := .streaming {}, answer := some (.ok (.stream anchorRef tokenEst)) } }

section

variable (options : StatefulLlmActionOptions) (storeOptions : LlmContextStoreOptions) (amb : StoreAmbient)
  (t : Turn) (g : Coordination)

/-- `store.commit` of the reservation of the call. -/
def commit (assistant : LlmMessageDto) : Except LlmContextStoreError LlmContextReceiptDto × Turn :=
  match Nwp.commit storeOptions amb t.store t.call.reservation assistant with
  | (.error e, store) => (.error e, { t with store })
  | (.ok receipt, store) =>
    (.ok receipt,
      { store, call := { t.call with settlements := t.call.settlements ++ [.committed] } })

def abort (errorCode : String) : Except Thrown Unit × Turn :=
  match Nwp.abort storeOptions amb t.store t.call.reservation (some errorCode) with
  | (.error e, store) =>
    (.error (internalError ("failed to abort LLM context reservation: " ++ e.message)), { t with store })
  | (.ok (), store) =>
    (.ok (), { store, call := { t.call with settlements := t.call.settlements ++ [.aborted] } })

/-- `checkAuthorization`, given what the authorizer answers. -/
def checkAuthorization (answer : Except Thrown Unit) : Except Thrown Unit :=
  if options.authorizer then answer
  else .error (.action 403 "NPS-AUTH-FORBIDDEN" NWP_LLM_CONTEXT_FORBIDDEN
    "stateful LLM context authorization is not configured")

/-- What was awaited, unless the signal is aborted. -/
def unlessAborted {α : Type} (message : String) (answer : Except Thrown α) : Except Thrown α := do
  let a ← answer
  if t.call.signalAborted then .error (.error message) else .ok a

/-! ### `complete` after the inner provider -/

/-- Aborts, and ends the call; where the abort throws, the call throws that. -/
def abortAndFinish (errorCode : String) (outcome : Except Thrown Completion) : Turn :=
  match abort storeOptions amb t errorCode with
  | (.error thrown, t) => t.finish (.error thrown)
  | (.ok (), t) => t.finish outcome

/-- From the execution by the inner provider up to the authorization, or to the stream. -/
def executed (answer : Except Thrown (Option (ActionExecutionResult R))) : Turn :=
  match unlessAborted t "action execution cancelled" answer with
  | .error thrown => abortAndFinish storeOptions amb t (abortCode thrown) (.error thrown)
  | .ok none =>
    -- the read of `streamFrames` stands outside of the `try` blocks, the one of `result` inside
    if t.call.request.stream then t.finish (.error (.error (unreadable "streamFrames")))
    else abortAndFinish storeOptions amb t NWP_NODE_UNAVAILABLE (.error (internalError
      ("stateful llm.complete returned an invalid official response: " ++ unreadable "result")))
  | .ok (some providerResult) =>
    if t.call.request.stream then
      if providerResult.streamFrames then
        t.startStream (providerResult.anchorRef.getD LLM_COMPLETE_STREAM_ANCHOR) providerResult.tokenEst
      else abortAndFinish storeOptions amb t NWP_NODE_UNAVAILABLE
        (.error (internalError "stateful streaming llm.complete returned no StreamFrame sequence"))
    else
      match providerResult.result with
      | .error message => abortAndFinish storeOptions amb t NWP_NODE_UNAVAILABLE
          (.error (internalError
            ("stateful llm.complete returned an invalid official response: " ++ message)))
      | .ok response =>
        let anchorRef := providerResult.anchorRef.getD LLM_COMPLETE_RESPONSE_ANCHOR
        if response.stopReason = .error then
          abortAndFinish storeOptions amb t NWP_NODE_UNAVAILABLE
            (.ok (.result (response.withContext none) anchorRef providerResult.tokenEst))
        else t.toPhase (.authorizing (response.withContext none) anchorRef providerResult.tokenEst)

/-- From the authorization to the end of a call that does not stream. -/
def commitResponse (response : LlmCompleteActionResponse LlmContextReceiptDto) (anchorRef : String)
    (tokenEst : Option ℚ) (answer : Except Thrown Unit) : Turn :=
  match unlessAborted t "action execution cancelled" (checkAuthorization options answer) with
  | .error thrown => abortAndFinish storeOptions amb t (abortCode thrown) (.error thrown)
  | .ok () =>
    match commit storeOptions amb t
      { role := "assistant", content := response.content, toolCalls := response.toolCalls } with
    | (.ok receipt, t) => t.finish (.ok (.result (response.withContext (some receipt)) anchorRef tokenEst))
    | (.error e, t) => t.finish (.error (mapStoreError e))

/-! ### `coordinateStream` -/

/-- `rewriteStreamFrame`, of a frame that has its new chunks. -/
def rewriteStreamFrame (frame : ChunkFrame) (errorCode : Option String) : ChunkFrame :=
  { frame with isLast := frame.isLast || errorCode.isSome, errorCode }

/-- A call on the generator.  Where the generator runs, the call waits. -/
def resume (r : Resume) : Coordination :=
  match g.point, r with
  | .start, .next => { g with point := .pulling }
  | .start, .return => { g with point := .done .returned }
  | .start, .throw thrown => { g with point := .done (.threw thrown) }
  | .yielded false, .next => { g with point := .pulling }
  | .yielded true, .next => { g with point := .closing .returned }
  | .yielded _, .return => { g with point := .closing .returned }
  | .yielded _, .throw thrown => { g with point := .closing (.threw thrown) }
  | .done _, _ => g
  | _, r => { g with queue := g.queue ++ [r] }

/-- A `yield`; a call that waits resumes the generator at once. -/
def yields (frame : ChunkFrame) (last : Bool) : Coordination :=
  let g := { g with yields := g.yields ++ [frame], point := .yielded last }
  match g.queue with
  | [] => g
  | r :: queue => resume { g with queue } r

/-- The `finally` block, and the end of the generator. -/
def finallyBlock (ending : Ending) : Turn :=
  if g.resolved then t.goesOn { g with point := .done ending, queue := [] }
  else match abort storeOptions amb t NWP_NODE_UNAVAILABLE with
    | (.error thrown, t) => t.goesOn { g with point := .done (.threw thrown), queue := [] }
    | (.ok (), t) => t.goesOn { g with point := .done ending, queue := [] }

/-- Throws in the body of the loop; the source is closed before the `finally` block. -/
def throwInLoop (thrown : Thrown) : Turn := t.goesOn { g with point := .closing (.threw thrown) }

def abortInLoop (thrown : Thrown) : Turn :=
  match abort storeOptions amb t (abortCode thrown) with
  | (.error thrown, t) => throwInLoop t g thrown
  | (.ok (), t) => throwInLoop t { g with resolved := true } thrown

def hasTerminalField (chunk : LlmCompleteStreamChunkDto R) : Bool :=
  chunk.stopReason.isSome || chunk.error.isSome || chunk.usage.isSome || chunk.context.isSome

def terminalIndex (chunks : List (LlmCompleteStreamChunkDto LlmContextReceiptDto)) : Option ℕ :=
  ((List.range chunks.length).filter fun i =>
    (chunks[i]?.bind LlmCompleteStreamChunkDto.stopReason).isSome).getLast?

/-- The terminal frame up to the authorization. -/
def terminal (sanitized : ChunkFrame) : Turn :=
  let g := { g with terminalSeen := true }
  if sanitized.errorCode.isSome ∨
      sanitized.data.any fun chunk => chunk.stopReason == some .error || chunk.error.isSome then
    let code := sanitized.errorCode.getD NWP_NODE_UNAVAILABLE
    match abort storeOptions amb t code with
    | (.error thrown, t) => throwInLoop t g thrown
    | (.ok (), t) =>
      t.goesOn (yields { g with resolved := true } (rewriteStreamFrame sanitized (some code)) true)
  else match terminalIndex sanitized.data with
    | none =>
      throwInLoop t g (internalError "successful LLM stream terminal frame requires stop_reason")
    | some index => t.goesOn { g with point := .authorizing sanitized index }

/-- The body of the loop, up to its first `await` or `yield`. -/
def loopBody (frame : SuppliedFrame R) : Turn :=
  if t.call.signalAborted then throwInLoop t g (.error "action stream cancelled")
  else if g.terminalSeen then
    throwInLoop t g (internalError "LLM stream emitted frames after terminal")
  else match frame.data with
    | .error message => throwInLoop t g (internalError
        ("stateful llm.complete returned an invalid stream payload: " ++ message))
    | .ok chunks =>
      if ¬ frame.isLast ∧ chunks.any hasTerminalField then
        throwInLoop t g (internalError
          "LLM stream stop_reason, error, usage, and context are terminal-only fields")
      else
        let g := { g with
          content := g.content ++ chunks.filterMap LlmCompleteStreamChunkDto.contentDelta
          toolCalls := g.toolCalls ++ chunks.flatMap fun chunk => chunk.toolCalls.getD [] }
        let sanitized : ChunkFrame := { frame with data := chunks.map (·.withContext none) }
        if frame.isLast then terminal storeOptions amb t g sanitized
        else t.goesOn (yields g (rewriteStreamFrame sanitized frame.errorCode) false)

/-- What the source gives at the head of the loop. -/
def pulled : StreamItem R → Turn
  | .frame f => loopBody storeOptions amb t g f
  | .done => finallyBlock storeOptions amb t g
      (.threw (internalError "stateful llm.complete stream ended without a terminal frame"))
  | .throws thrown => finallyBlock storeOptions amb t g (.threw thrown)

/-- The turn that commits: what is committed is what was accumulated. -/
def assistantTurn : LlmMessageDto where
  role := "assistant"
  content := if String.join g.content = "" then none else some (String.join g.content)
  toolCalls := if g.toolCalls = [] then none else some g.toolCalls

def commitStream (sanitized : ChunkFrame) (index : ℕ) (answer : Except Thrown Unit) : Turn :=
  match unlessAborted t "action stream cancelled" (checkAuthorization options answer) with
  | .error thrown => abortInLoop storeOptions amb t g thrown
  | .ok () =>
    match commit storeOptions amb t (assistantTurn g) with
    | (.error e, t) => abortInLoop storeOptions (laterAmbient amb) t g (mapStoreError e)
    | (.ok receipt, t) =>
      let data := sanitized.data.modify index (·.withContext (some receipt))
      t.goesOn (yields { g with resolved := true }
        (rewriteStreamFrame { sanitized with data } sanitized.errorCode) true)

def closed (ending : Ending) (answer : Except Thrown Unit) : Turn :=
  match ending, answer with
  | .returned, .error thrown => finallyBlock storeOptions amb t g (.threw thrown)
  | ending, _ => finallyBlock storeOptions amb t g ending

end

/-! ### Steps -/

section

variable (options : StatefulLlmActionOptions) (storeOptions : LlmContextStoreOptions)

def callStep (t : Turn) : Event R → Turn
  | .executed amb _ answer =>
    match t.call.phase with
    | .executing => executed storeOptions amb t answer
    | _ => t
  | .authorized amb _ answer =>
    match t.call.phase with
    | .authorizing response anchorRef tokenEst =>
      commitResponse options storeOptions amb t response anchorRef tokenEst answer
    | .streaming g =>
      match g.point with
      | .authorizing sanitized index => commitStream options storeOptions amb t g sanitized index answer
      | _ => t
    | _ => t
  | .resumed _ r =>
    match t.call.phase with
    | .streaming g => t.goesOn (resume g r)
    | _ => t
  | .pulled amb _ item =>
    match t.call.phase with
    | .streaming g =>
      match g.point with
      | .pulling => pulled storeOptions amb t g item
      | _ => t
    | _ => t
  | .closed amb _ answer =>
    match t.call.phase with
    | .streaming g =>
      match g.point with
      | .closing ending => closed storeOptions amb t g ending answer
      | _ => t
    | _ => t
  | .aborted _ => { t with call := { t.call with signalAborted := true } }
  | .complete .. | .release .. | .sweep _ => t

def Event.call? : Event R → Option ℕ
  | .executed _ i _ | .authorized _ i _ | .resumed i _ | .pulled _ i _ | .closed _ i _ | .aborted i => some i
  | .complete .. | .release .. | .sweep _ => none

def providerStep (s : Provider) (e : Event R) : Provider :=
  match e with
  | .complete amb agentNid frame => complete options storeOptions amb s agentNid frame
  | .release amb agentNid contextId baseVersion idempotencyKey =>
    match ownerOf options agentNid with
    | .error _ => s
    | .ok owner =>
      { s with store := (Nwp.release storeOptions amb s.store owner contextId baseVersion idempotencyKey).2 }
  | .sweep now => { s with store := (Nwp.sweep storeOptions s.store now).2 }
  | e =>
    match e.call? with
    | none => s
    | some i =>
      match s.calls[i]? with
      | none => s
      | some call =>
        let t := callStep options storeOptions { store := s.store, call } e
        { s with store := t.store, calls := s.calls.set i t.call }

/-- An event of a call is a turn of it. -/
theorem providerStep_turn {s : Provider} {e : Event R} {i : ℕ} (he : e.call? = some i) :
    providerStep options storeOptions s e = s ∨ ∃ call, s.calls[i]? = some call ∧
      providerStep options storeOptions s e =
        { s with
          store := (callStep options storeOptions { store := s.store, call } e).store
          calls := s.calls.set i (callStep options storeOptions { store := s.store, call } e).call } := by
  cases hget : s.calls[i]? with
  | none =>
    left
    cases e <;> cases he <;> simp [providerStep, Event.call?, hget]
  | some call =>
    refine .inr ⟨call, rfl, ?_⟩
    cases e <;> cases he <;> simp [providerStep, Event.call?, hget]

def providerAfter (es : List (Event R)) : Provider := run (providerStep options storeOptions) {} es

end

end NpsSdk.Nwp.StatefulLlm
