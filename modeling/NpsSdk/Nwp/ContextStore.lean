import NpsSdk.Lib.Buffer
import NpsSdk.Lib.Runs
import NpsSdk.Nip.Ca.Signer
import NpsSdk.Nwp.ErrorCodes

/-!
# The store of LLM contexts

`InMemoryLlmContextStore`: contexts, the reservations of their mutations, and the outcomes retained for
idempotency keys.  An operation that throws may have changed the store before; so each answers its
result together with the store it leaves.  Times are in milliseconds.

Messages and bindings are values here, so the copies the source makes of them are the values themselves.
-/

namespace NpsSdk.Nwp

open NpsSdk.Lib

def COMPLETE_ACTION : String := "llm.complete"
def RELEASE_ACTION : String := "llm.context.release"

/-! ### Data -/

inductive LlmContextOperation
  | create | append | fork | reset | release
  deriving DecidableEq

inductive LlmContextState
  | busy | active | released | expired | failed
  deriving DecidableEq

structure LlmToolCallDto where
  callId : String
  toolName : String
  argumentsJson : String
deriving DecidableEq

structure ToolParameterDto where
  name : String
  type : String
  description : Option String := none
  required : Bool

structure LlmToolDefinitionDto where
  name : String
  description : Option String := none
  parameters : Option (List ToolParameterDto) := none

structure LlmMessageDto where
  role : String
  content : Option String := none
  toolCallId : Option String := none
  toolName : Option String := none
  toolCalls : Option (List LlmToolCallDto) := none
deriving DecidableEq

structure LlmContextReceiptDto where
  contextId : String
  version : ℕ
  operation : LlmContextOperation
  state : LlmContextState
  expiresAt : Option String := none
  parentContextId : Option String := none
  parentVersion : Option ℕ := none

structure LlmContextStatusDto where
  state : LlmContextState
  contextId : Option String := none
  version : Option ℕ := none
  expiresAt : Option String := none
  requestId : Option String := none
  errorCode : Option String := none

structure LlmContextOwner where
  nid : String
  securityScope : String
deriving DecidableEq

structure LlmContextBinding where
  model : String
  systemMessages : List LlmMessageDto
  tools : Option (List LlmToolDefinitionDto) := none
  runtimeRevision : String

structure LlmContextMutationRequest where
  operation : LlmContextOperation
  owner : LlmContextOwner
  contextId : Option String := none
  baseVersion : Option ℤ := none
  binding : LlmContextBinding
  messages : List LlmMessageDto
  ttlSeconds : Option ℚ := none
  idempotencyKey : String
  requestId : String

/-- What an operation throws: a store error, or an error without a code. -/
structure LlmContextStoreError where
  errorCode : Option String
  message : String
  currentVersion : Option ℕ := none

structure Entry where
  contextId : String
  owner : LlmContextOwner
  version : ℕ
  state : LlmContextState
  binding : LlmContextBinding
  bindingFingerprint : String
  transcript : List LlmMessageDto
  ttlSeconds : ℚ
  expiresAt : Option ℚ := none
  tombstoneUntil : Option ℚ := none
  reservationId : Option String := none

inductive OutcomeState
  | busy | completed | failed
  deriving DecidableEq

structure IdempotencyEntry where
  state : OutcomeState
  retainUntil : ℚ
  requestId : Option String := none
  reservationId : Option String := none
  errorCode : Option String := none
  receipt : Option LlmContextReceiptDto := none
  contextId : Option String := none
  baseVersion : Option ℤ := none

/-- A reservation; `object` tells which of the reservation objects it is. -/
structure LlmContextMutationReservation where
  object : ℕ
  reservationId : String
  request : LlmContextMutationRequest
  bindingFingerprint : String
  baseTranscript : List LlmMessageDto
  effectiveTtlSeconds : Option ℚ := none
  parentContextId : Option String := none
  parentVersion : Option ℕ := none

structure LlmContextStoreOptions where
  maxContextsPerPrincipal : ℚ := 32
  defaultTtlSeconds : ℚ := 3600
  maxTtlSeconds : ℚ := 3600
  tombstoneSeconds : ℚ := 86400
  idempotencyTtlMs : ℚ := 86400000
  supportedOperations : List LlmContextOperation := [.create, .append, .fork, .reset, .release]
  /-- The digest of the canonical text of a binding. -/
  bindingFingerprint : LlmContextBinding → String

/-- What a call finds outside the store: the readings of the clock, in the order of the places that read
it, the identifiers the factory gives (nothing where it throws), and the random UUID. -/
structure StoreAmbient where
  clock : ℕ → ℚ
  contextIds : ℕ → Option String
  uuid : String

structure LlmContextStore where
  contexts : JsMap String Entry := .empty
  idempotency : JsMap String IdempotencyEntry := .empty
  reservations : JsMap String LlmContextMutationReservation := .empty
  /-- The number of reservation objects made so far. -/
  objects : ℕ := 0

/-- What an operation answers, and the store it leaves. -/
abbrev Answer (α : Type) := Except LlmContextStoreError α × LlmContextStore

/-! ### Helpers -/

def paramsInvalid {α : Type} (message : String) : Except LlmContextStoreError α :=
  .error { errorCode := some NWP_ACTION_PARAMS_INVALID, message }

def notFound {α : Type} : Except LlmContextStoreError α :=
  .error { errorCode := some NWP_LLM_CONTEXT_NOT_FOUND
           message := "The context or retained outcome was not found." }

def ownerKey (owner : LlmContextOwner) (action key : String) : String :=
  owner.nid ++ "\x1f" ++ owner.securityScope ++ "\x1f" ++ action ++ "\x1f" ++ key

def sameOwner (left right : LlmContextOwner) : Bool :=
  left.nid == right.nid && left.securityScope == right.securityScope

theorem sameOwner_iff {left right : LlmContextOwner} : sameOwner left right = true ↔ left = right := by
  cases left
  cases right
  simp [sameOwner]

/-- `CONTEXT_ID`. -/
def isContextId (value : String) : Bool :=
  decide (22 ≤ value.length) && decide (value.length ≤ 128) && value.toList.all isBase64urlChar

def validateContextId (value : String) : Except LlmContextStoreError Unit :=
  if isContextId value then .ok ()
  else paramsInvalid "context_id must be a 22-128 character unpadded base64url locator."

/-- `new Date(t).toISOString()`; nothing where the date is out of range. -/
def isoDate (t : ℚ) : Option String :=
  if |t| ≤ 8640000000000000 then Nip.Ca.toISOString (t.num.tdiv t.den) else none

variable (options : LlmContextStoreOptions) (amb : StoreAmbient) (s : LlmContextStore)

def clampTtl (seconds : ℚ) : ℚ := min seconds options.maxTtlSeconds

def ensureSupported (operation : LlmContextOperation) : Except LlmContextStoreError Unit :=
  if operation ∈ options.supportedOperations then .ok ()
  else .error { errorCode := some NWP_LLM_CONTEXT_OPERATION_UNSUPPORTED
                message := "Context operation is not advertised." }

/-! ### Sweeping -/

def isExpiring (now : ℚ) (entry : Entry) : Bool :=
  entry.state == .active && entry.reservationId.isNone && entry.expiresAt.any fun t => decide (t ≤ now)

def expire (now : ℚ) (entry : Entry) : Entry :=
  if isExpiring now entry then
    { entry with state := .expired, expiresAt := none
                 tombstoneUntil := some (now + options.tombstoneSeconds * 1000) }
  else entry

/-- A context that has ended is forgotten after its tombstone. -/
def isForgotten (now : ℚ) (entry : Entry) : Bool :=
  (entry.state == .expired || entry.state == .released) &&
    entry.tombstoneUntil.any fun t => decide (t ≤ now)

def sweepContexts (now : ℚ) (contexts : JsMap String Entry) : JsMap String Entry :=
  (contexts.mapValues (expire options now)).filter fun _ entry => !isForgotten now entry

/-- `sweep`: the number of changes, and the store. -/
def sweep (now : ℚ) : ℕ × LlmContextStore :=
  let expired := s.contexts.mapValues (expire options now)
  let contexts := sweepContexts options now s.contexts
  let idempotency := s.idempotency.filter fun _ entry =>
    entry.state == .busy || decide (now < entry.retainUntil)
  ((s.contexts.values.filter (isExpiring now)).length + (expired.size - contexts.size) +
      (s.idempotency.size - idempotency.size),
    { s with contexts, idempotency })

/-! ### Reserving -/

def validateRequest (request : LlmContextMutationRequest) : Except LlmContextStoreError Unit := do
  if request.operation = .release then paramsInvalid "release uses the lifecycle action."
  if isBlank request.idempotencyKey then paramsInvalid "A stateful request requires idempotency_key."
  if request.ttlSeconds.any fun t => t.den ≠ 1 ∨ t ≤ 0 then
    paramsInvalid "ttl_seconds must be a positive integer."
  if request.operation = .create then
    if request.contextId.isSome ∨ request.baseVersion.isSome then
      paramsInvalid "create forbids context_id and base_version."
  else
    match request.contextId, request.baseVersion with
    | some contextId, some _ => validateContextId contextId
    | _, _ => paramsInvalid "append/fork/reset require context_id and base_version."
  if request.operation ≠ .fork ∧ request.messages = [] then
    paramsInvalid "Only fork may carry an empty message delta."
  if (request.operation = .append ∨ request.operation = .fork) ∧
      request.messages.any (fun message => message.role.toLower == "system") then
    .error { errorCode := some NWP_LLM_CONTEXT_BINDING_MISMATCH
             message := "append/fork deltas must not contain system messages." }

def allocated (owner : LlmContextOwner) : ℕ :=
  (s.contexts.values.filter fun entry => sameOwner entry.owner owner && entry.state == .active).length +
  (s.reservations.values.filter fun item => sameOwner item.request.owner owner &&
    (item.request.operation == .create || item.request.operation == .fork)).length

def ensureAllocationAvailable (owner : LlmContextOwner) : Except LlmContextStoreError Unit :=
  if options.maxContextsPerPrincipal ≤ allocated s owner then
    .error { errorCode := some NWP_LLM_CONTEXT_LIMIT_EXCEEDED
             message := "The principal's live context limit has been reached." }
  else .ok ()

def requireEntry (contextId : String) : Except LlmContextStoreError Entry :=
  match s.contexts.get contextId with
  | none => notFound
  | some entry => .ok entry

def ensureOwner (entry : Entry) (owner : LlmContextOwner) : Except LlmContextStoreError Unit :=
  if sameOwner entry.owner owner then .ok ()
  else .error { errorCode := some NWP_LLM_CONTEXT_FORBIDDEN
                message := "The caller does not own this context." }

def requireMutable (owner : LlmContextOwner) (contextId : String) : Except LlmContextStoreError Entry := do
  let entry ← requireEntry s contextId
  ensureOwner entry owner
  if entry.state = .expired then
    .error { errorCode := some NWP_LLM_CONTEXT_EXPIRED, message := "The context expired."
             currentVersion := some entry.version }
  else if entry.state = .released then notFound
  else .ok entry

/-- The version of an entry that can be mutated now. -/
def ensureVersion (entry : Entry) (baseVersion : Option ℤ) : Except LlmContextStoreError Unit :=
  if entry.reservationId.isSome ∨ baseVersion ≠ some (entry.version : ℤ) then
    .error { errorCode := some NWP_LLM_CONTEXT_VERSION_CONFLICT
             message := "The context version is stale or a mutation is running."
             currentVersion := some entry.version }
  else .ok ()

def ensureBinding (request : LlmContextMutationRequest) (entry : Entry) :
    Except LlmContextStoreError Unit :=
  if (request.operation = .append ∨ request.operation = .fork) ∧
      entry.bindingFingerprint ≠ options.bindingFingerprint request.binding then
    .error { errorCode := some NWP_LLM_CONTEXT_BINDING_MISMATCH
             message := "The request binding differs from the retained binding." }
  else .ok ()

def effectiveTtl (now : ℚ) (request : LlmContextMutationRequest) (entry : Entry) : Option ℚ :=
  match request.ttlSeconds with
  | some seconds => some (clampTtl options seconds)
  | none =>
    if request.operation = .fork then entry.expiresAt.map fun t => max 1 ((t - now) / 1000).ceil
    else if entry.ttlSeconds = 0 then none else some entry.ttlSeconds

/-- The reservation of a request, with the entry it changes. -/
structure Grant where
  reservation : LlmContextMutationReservation
  entry : Option Entry := none

def grantMutation (request : LlmContextMutationRequest) (contextId : String) :
    Except LlmContextStoreError Grant := do
  let entry ← requireMutable s request.owner contextId
  ensureVersion entry request.baseVersion
  ensureBinding options request entry
  if request.operation = .fork then ensureAllocationAvailable options s request.owner
  .ok { reservation :=
          { object := s.objects, reservationId := amb.uuid, request
            bindingFingerprint := options.bindingFingerprint request.binding
            baseTranscript := entry.transcript
            effectiveTtlSeconds := effectiveTtl options (amb.clock 1) request entry
            parentContextId := if request.operation = .fork then some entry.contextId else none
            parentVersion := if request.operation = .fork then some entry.version else none }
        entry := if request.operation = .fork then none
                 else some { entry with reservationId := some amb.uuid } }

def grant (request : LlmContextMutationRequest) : Except LlmContextStoreError Grant := do
  validateRequest request
  ensureSupported options request.operation
  if s.idempotency.has (ownerKey request.owner COMPLETE_ACTION request.idempotencyKey) then
    .error { errorCode := some NWP_ACTION_IDEMPOTENCY_CONFLICT
             message := "An outcome already exists for this idempotency key." }
  else match request.operation, request.contextId with
    | .create, _ | _, none => do
      ensureAllocationAvailable options s request.owner
      .ok { reservation :=
              { object := s.objects, reservationId := amb.uuid, request
                bindingFingerprint := options.bindingFingerprint request.binding
                baseTranscript := []
                effectiveTtlSeconds :=
                  some (clampTtl options (request.ttlSeconds.getD options.defaultTtlSeconds)) } }
    | _, some contextId => grantMutation options amb s request contextId

def reserve (request : LlmContextMutationRequest) : Answer LlmContextMutationReservation :=
  let s := (sweep options s (amb.clock 0)).2
  match grant options amb s request with
  | .error e => (.error e, s)
  | .ok { reservation, entry } =>
    let contexts := match entry with
      | none => s.contexts
      | some entry => s.contexts.set entry.contextId entry
    (.ok reservation,
      { contexts
        idempotency := s.idempotency.set (ownerKey request.owner COMPLETE_ACTION request.idempotencyKey)
          { state := .busy, requestId := some request.requestId
            reservationId := some reservation.reservationId
            retainUntil := amb.clock 2 + options.idempotencyTtlMs }
        reservations := s.reservations.set reservation.reservationId reservation
        objects := s.objects + 1 })

/-! ### Looking at a context -/

structure LlmContextSnapshot where
  contextId : String
  version : ℕ
  state : LlmContextState
  transcript : List LlmMessageDto
  binding : LlmContextBinding
  expiresAt : Option ℚ := none

def snapshot (owner : LlmContextOwner) (contextId : String) : Answer LlmContextSnapshot :=
  let s := (sweep options s (amb.clock 0)).2
  (do
    let entry ← requireMutable s owner contextId
    .ok { contextId := entry.contextId, version := entry.version, state := entry.state
          transcript := entry.transcript, binding := entry.binding, expiresAt := entry.expiresAt }, s)

/-- What a status is asked of. -/
structure ContextLocator where
  contextId : Option String := none
  idempotencyKey : Option String := none

def statusOfContext (owner : LlmContextOwner) (contextId : String) :
    Except LlmContextStoreError LlmContextStatusDto := do
  validateContextId contextId
  let entry ← requireEntry s contextId
  ensureOwner entry owner
  match entry.expiresAt.map isoDate with
  | some none => .error { errorCode := none, message := "Invalid time value" }
  | text =>
    .ok { state := if entry.reservationId.isSome then .busy else entry.state
          contextId := some entry.contextId, version := some entry.version, expiresAt := text.join
          requestId := (entry.reservationId.bind s.reservations.get).map fun active =>
            active.request.requestId }

/-- The status after a completed mutation: the context is looked at again, where there is one. -/
def statusFromReceipt (owner : LlmContextOwner) (receipt : LlmContextReceiptDto) :
    Answer LlmContextStatusDto :=
  if s.contexts.has receipt.contextId then
    let s := (sweep options s (amb.clock 1)).2
    (statusOfContext s owner receipt.contextId, s)
  else
    (.ok { state := receipt.state, contextId := some receipt.contextId, version := some receipt.version
           expiresAt := receipt.expiresAt }, s)

def status (owner : LlmContextOwner) (locator : ContextLocator) : Answer LlmContextStatusDto :=
  let s := (sweep options s (amb.clock 0)).2
  match locator.contextId, locator.idempotencyKey with
  | some contextId, none => (statusOfContext s owner contextId, s)
  | none, some idempotencyKey =>
    match s.idempotency.get (ownerKey owner COMPLETE_ACTION idempotencyKey) with
    | none => (notFound, s)
    | some { state := .busy, requestId, .. } => (.ok { state := .busy, requestId }, s)
    | some { state := .failed, requestId, errorCode, .. } =>
      (.ok { state := .failed, requestId, errorCode }, s)
    | some { state := .completed, receipt := some receipt, .. } =>
      statusFromReceipt options amb s owner receipt
    | some { state := .completed, receipt := none, .. } =>
      (.error { errorCode := none
                message := "Cannot read properties of undefined (reading 'contextId')" }, s)
  | _, _ =>
    (paramsInvalid "status requires exactly one of context_id or idempotency_key.", s)

/-! ### Settling -/

def requireReservation (reservation : LlmContextMutationReservation) :
    Except LlmContextStoreError LlmContextMutationReservation :=
  match s.reservations.get reservation.reservationId with
  | some current =>
    if current.object = reservation.object then .ok current
    else .error { errorCode := none, message := "The context reservation is not active." }
  | none => .error { errorCode := none, message := "The context reservation is not active." }

/-- Draws an identifier that no context has, in at most `attempts` attempts. -/
def nextContextId (ids : ℕ → Option String) : ℕ → Except LlmContextStoreError String
  | 0 => .error { errorCode := none, message := "Context ID factory repeatedly produced collisions." }
  | attempts + 1 =>
    match ids 0 with
    | none => .error { errorCode := none, message := "The context ID factory failed." }
    | some contextId => do
      validateContextId contextId
      if s.contexts.has contextId then nextContextId (fun n => ids (n + 1)) attempts
      else .ok contextId

/-- The end of a commit: the receipt, whose date may be out of range, and the outcome. -/
def settle (current : LlmContextMutationReservation) (contextId : String) (version : ℕ)
    (expiry : Option ℚ) : Answer LlmContextReceiptDto :=
  match expiry.map isoDate with
  | some none => (.error { errorCode := none, message := "Invalid time value" }, s)
  | text =>
    let receipt : LlmContextReceiptDto :=
      { contextId, version, operation := current.request.operation, state := .active
        expiresAt := text.join, parentContextId := current.parentContextId
        parentVersion := current.parentVersion }
    (.ok receipt,
      { s with
        idempotency := s.idempotency.set
          (ownerKey current.request.owner COMPLETE_ACTION current.request.idempotencyKey)
          { state := .completed, requestId := some current.request.requestId, receipt := some receipt
            retainUntil := amb.clock 1 + options.idempotencyTtlMs }
        reservations := s.reservations.delete current.reservationId })

/-- The context a create or a fork makes. -/
def newEntry (current : LlmContextMutationReservation) (contextId : String) (expiry : Option ℚ)
    (assistantResult : LlmMessageDto) : Entry where
  contextId := contextId
  owner := current.request.owner
  version := 1
  state := .active
  binding := current.request.binding
  bindingFingerprint := current.bindingFingerprint
  transcript :=
    (if current.request.operation = .fork then current.baseTranscript else []) ++
      current.request.messages ++ [assistantResult]
  ttlSeconds := current.effectiveTtlSeconds.getD 0
  expiresAt := expiry

def nextEntry (current : LlmContextMutationReservation) (entry : Entry) (expiry : Option ℚ)
    (assistantResult : LlmMessageDto) : Entry :=
  let entry := { entry with
    version := entry.version + 1, state := .active, reservationId := none, expiresAt := expiry
    ttlSeconds := current.effectiveTtlSeconds.getD 0 }
  if current.request.operation = .reset then
    { entry with
      binding := current.request.binding, bindingFingerprint := current.bindingFingerprint
      transcript := current.request.messages ++ [assistantResult] }
  else { entry with transcript := entry.transcript ++ current.request.messages ++ [assistantResult] }

/-- The instant a commit of the reservation makes the context expire at. -/
def expiryOf (current : LlmContextMutationReservation) : Option ℚ :=
  current.effectiveTtlSeconds.map fun seconds => amb.clock 0 + seconds * 1000

def commit (reservation : LlmContextMutationReservation) (assistantResult : LlmMessageDto) :
    Answer LlmContextReceiptDto :=
  match requireReservation s reservation with
  | .error e => (.error e, s)
  | .ok current =>
    let expiry := expiryOf amb current
    if current.request.operation = .create ∨ current.request.operation = .fork then
      match nextContextId s amb.contextIds 8 with
      | .error e => (.error e, s)
      | .ok contextId =>
        let entry := newEntry current contextId expiry assistantResult
        settle options amb { s with contexts := s.contexts.set contextId entry } current contextId 1 expiry
    else
      match requireEntry s (current.request.contextId.getD "") with
      | .error e => (.error e, s)
      | .ok entry =>
        let next := nextEntry current entry expiry assistantResult
        settle options amb { s with contexts := s.contexts.set entry.contextId next } current
          entry.contextId next.version expiry

def clearReservation (reservation : LlmContextMutationReservation) : JsMap String Entry :=
  match reservation.request.contextId with
  | none => s.contexts
  | some contextId =>
    match s.contexts.get contextId with
    | none => s.contexts
    | some entry =>
      if entry.reservationId = some reservation.reservationId then
        s.contexts.set contextId { entry with reservationId := none }
      else s.contexts

def abort (reservation : LlmContextMutationReservation) (errorCode : Option String) : Answer Unit :=
  match requireReservation s reservation with
  | .error e => (.error e, s)
  | .ok current =>
    let s := { s with
      contexts := clearReservation s current
      reservations := s.reservations.delete current.reservationId
      idempotency := s.idempotency.set
        (ownerKey current.request.owner COMPLETE_ACTION current.request.idempotencyKey)
        { state := .failed, requestId := some current.request.requestId, errorCode
          retainUntil := amb.clock 0 + options.idempotencyTtlMs } }
    (.ok (), (sweep options s (amb.clock 1)).2)

/-! ### Releasing -/

def releasable (owner : LlmContextOwner) (contextId : String) (baseVersion : ℤ) (idempotencyKey : String) :
    Except LlmContextStoreError (LlmContextReceiptDto ⊕ Entry) := do
  ensureSupported options .release
  validateContextId contextId
  if isBlank idempotencyKey then paramsInvalid "release requires idempotency_key."
  else match s.idempotency.get (ownerKey owner RELEASE_ACTION idempotencyKey) with
    | some { state := .completed, receipt := some receipt, contextId := some c, baseVersion := some v, .. } =>
      if c = contextId ∧ v = baseVersion then .ok (.inl receipt)
      else .error { errorCode := some NWP_ACTION_IDEMPOTENCY_CONFLICT
                    message := "A release with this idempotency key already exists." }
    | some _ =>
      .error { errorCode := some NWP_ACTION_IDEMPOTENCY_CONFLICT
               message := "A release with this idempotency key already exists." }
    | none => do
      let entry ← requireMutable s owner contextId
      ensureVersion entry (some baseVersion)
      .ok (.inr entry)

def release (owner : LlmContextOwner) (contextId : String) (baseVersion : ℤ) (idempotencyKey : String) :
    Answer LlmContextReceiptDto :=
  let s := (sweep options s (amb.clock 0)).2
  match releasable options s owner contextId baseVersion idempotencyKey with
  | .error e => (.error e, s)
  | .ok (.inl receipt) => (.ok receipt, s)
  | .ok (.inr entry) =>
    let next := { entry with
      version := entry.version + 1, state := .released, expiresAt := none
      tombstoneUntil := some (amb.clock 1 + options.tombstoneSeconds * 1000) }
    let receipt : LlmContextReceiptDto :=
      { contextId, version := next.version, operation := .release, state := .released }
    (.ok receipt,
      { s with
        contexts := s.contexts.set entry.contextId next
        idempotency := s.idempotency.set (ownerKey owner RELEASE_ACTION idempotencyKey)
          { state := .completed, receipt := some receipt, contextId := some contextId
            baseVersion := some baseVersion, retainUntil := amb.clock 2 + options.idempotencyTtlMs } })

end NpsSdk.Nwp
