import NpsSdk.Nip.Ca.Service

/-!
# Enrollment policies

The gate that must pass before a registration is carried out: an allowlist, single-use bootstrap
tokens, or a queue of pending registrations.
-/

namespace NpsSdk.Nip.Ca

open NpsSdk.Lib

def RA_TOKEN_INVALID : String := "NIP-RA-TOKEN-INVALID"
def RA_TOKEN_EXPIRED : String := "NIP-RA-TOKEN-EXPIRED"
def RA_NID_NOT_ALLOWED : String := "NIP-RA-NID-NOT-ALLOWED"
def RA_PENDING_REJECTED : String := "NIP-RA-PENDING-REJECTED"

inductive EnrollmentPolicy where
  | allowlist (patterns : List String)
  | bootstrapToken
  | pendingQueue (maxSize : ℕ)

/-- The policy of the configured tier, which needs the tier's store. -/
def createEnrollmentPolicy (opts : ResolvedNipCaOptions) (bootstrapTokenStore pendingStore : Bool) :
    Except String EnrollmentPolicy :=
  match opts.enrollmentTier with
  | .allowlist => .ok (.allowlist opts.enrollmentAllowlistPatterns)
  | .bootstrapToken =>
    if bootstrapTokenStore then .ok .bootstrapToken
    else .error "EnrollmentTier.BootstrapToken requires IBootstrapTokenStore to be registered."
  | .pendingQueue =>
    if pendingStore then .ok (.pendingQueue opts.pendingQueueMaxSize)
    else .error "EnrollmentTier.PendingQueue requires IPendingStore to be registered."

namespace EnrollmentPolicy

def checkAllowlist (patterns : List String) (ctx : EnrollmentContext) : CaAsync Unit :=
  if patterns.any fun pattern => globTest pattern ctx.identifier then pure ()
  else throw (.nipCa ("Identifier '" ++ ctx.identifier ++
    "' does not match any enrollment allowlist pattern.") RA_NID_NOT_ALLOWED)

def checkBootstrapToken (ctx : EnrollmentContext) : CaAsync Unit :=
  match truthy ctx.enrollmentToken with
  | none => missing
  | some token =>
    if startsWith token "nps-bootstrap-" then do
      let valid ← Async.perform (CaOp.tokens (.validateAndConsume token))
      if valid then pure ()
      else throw (.nipCa "Bootstrap token is invalid, expired, or already consumed."
        RA_TOKEN_EXPIRED)
    else missing
where
  missing : CaAsync Unit :=
    throw (.nipCa "A bootstrap token (prefix 'nps-bootstrap-') is required for enrollment."
      RA_TOKEN_INVALID)

/-- Queues the registration; it is never admitted at once. -/
def checkPendingQueue (maxSize : ℕ) (ctx : EnrollmentContext) : CaAsync Unit := do
  let count ← Async.perform (CaOp.pending .pendingCount)
  if maxSize ≤ count then
    throw (.nipCa ("Pending enrollment queue is full (max " ++ toString maxSize ++ "). Retry later.")
      RA_TOKEN_INVALID)
  else do
    let id ← randomHex 16
    let requestedAt ← readClock
    let _ ← Async.perform (CaOp.pending (.enqueue
      { id, entityType := ctx.entityType, identifier := ctx.identifier, pubKey := ctx.pubKey,
        capabilities := ctx.capabilities, scopeJson := ctx.scopeJson,
        metadataJson := ctx.metadataJson, requestedAt, status := .pending }))
    throw (.raPending id)

/-- Ends without an exception when the registration is permitted. -/
def check : EnrollmentPolicy → EnrollmentContext → CaAsync Unit
  | allowlist patterns, ctx => checkAllowlist patterns ctx
  | bootstrapToken, ctx => checkBootstrapToken ctx
  | pendingQueue maxSize, ctx => checkPendingQueue maxSize ctx

theorem checkPendingQueue_ne_ok {maxSize : ℕ} {ctx : EnrollmentContext} {sha256 : String → String}
    {amb : ℕ → Ambient} {s : CaState} : ((checkPendingQueue maxSize ctx).finish (exec sha256) amb s).1 ≠ .ok () := by
  refine (Async.wp_iff_finish (Q := fun r _ => r ≠ .ok ())).1 ?_
  unfold checkPendingQueue
  simp only [Async.wp_bind, Async.wp_perform, exec, execPending]
  split
  · simp
  · simp only [randomHex, readClock, Async.wp_bind, Async.wp_perform, exec, execPending]
    simp

end EnrollmentPolicy

namespace NipCaService

/-- Registration behind the gate of a policy, where there is one. -/
def registerWithRa (ca : NipCaService) (entityType identifier pubKey : String)
    (capabilities : List String) (scopeJson : String) (metadataJson enrollmentToken : Option String)
    (enrollmentPolicy : Option EnrollmentPolicy) : CaAsync CaIdentFrame := do
  let ctx : EnrollmentContext :=
    { entityType, identifier, pubKey, capabilities, scopeJson, metadataJson, enrollmentToken }
  match enrollmentPolicy with
  | none => pure ()
  | some policy => policy.check ctx
  ca.register entityType identifier pubKey capabilities scopeJson metadataJson

end NipCaService

/-!
## The CA's HTTP routes

`NipCaRouter`: which route a request takes, and the handlers of registration, enrollment, renewal,
revocation and verification.
-/

/-! ### Requests and responses -/

/-- The members the handlers read of a parsed JSON body. -/
structure RequestBody where
  identifier : Option String := none
  pubKey : Option String := none
  capabilities : Option (List String) := none
  scopeJson : Option String := none
  metadataJson : Option String := none
  assuranceLevel : Option String := none
  certChain : Option (List String) := none
  ownerUserId : Option String := none
  ownerKeyId : Option String := none
  reason : Option String := none
  ttlSeconds : Option ℤ := none
  label : Option String := none

/-- A request: `path` is the decoded path, `header` reads a header by its lower-case name, and `body`
is none where the text is empty or no JSON. -/
structure CaRequest where
  method : String
  path : String
  header : String → Option String := fun _ => none
  body : Option RequestBody := none

inductive CaBody where
  | ident (frame : CaIdentFrame)
  | revoked (frame : CaRevokeFrame)
  | error (errorCode message : String)
  | queued (pendingId : String)
  | token (token expiresAt : String) (label : Option String)
  | pendingList (items : List PendingRegistration)
  | rejected (id reason : String)
  | valid (nid expiresAt serial : String)
  | invalid (errorCode message : Option String)
  | other (value : Json)

structure CaResponse where
  body : CaBody
  status : ℕ := 200

/-! ### Routes -/

inductive Route where
  | discovery
  | caCert
  | crl
  | certificates
  | register (entityType : String)
  | registerX509 (entityType : String)
  | registerGroup
  | createToken
  | listPending
  | issueSession (groupNid : String)
  | listSessions (groupNid : String)
  | revoke (nid : String)
  | renew (nid : String)
  | verify (nid : String)
  | approve (id : String)
  | reject (id : String)
  | notFound
deriving DecidableEq

/-- The segment between a start and an end of the path: not empty, and without a slash. -/
def matchPath (path start ending : String) : Option String :=
  let p := path.toList
  if start.toList.isPrefixOf p && ending.toList.isSuffixOf p then
    let middle := (p.drop start.length).take (p.length - ending.length - start.length)
    if middle = [] ∨ '/' ∈ middle then none else some (String.ofList middle)
  else none

/-- The route of a request, under the configured path prefix. -/
def route (pfx method path : String) : Route :=
  let fixed (m p : String) (r : Route) : Option Route :=
    if path = p ∧ method = m then some r else none
  let segment (m start ending : String) (r : String → Route) : Option Route :=
    match matchPath path start ending with
    | some middle => if method = m then some (r middle) else none
    | none => none
  ([fixed "GET" "/.well-known/nps-ca" .discovery,
    fixed "GET" (pfx ++ "/v1/ca/cert") .caCert,
    fixed "GET" (pfx ++ "/v1/crl") .crl,
    fixed "GET" (pfx ++ "/v1/certificates") .certificates,
    fixed "POST" (pfx ++ "/v1/agents/register") (.register "agent"),
    fixed "POST" (pfx ++ "/v1/nodes/register") (.register "node"),
    fixed "POST" (pfx ++ "/v1/agents/register-x509") (.registerX509 "agent"),
    fixed "POST" (pfx ++ "/v1/nodes/register-x509") (.registerX509 "node"),
    fixed "POST" (pfx ++ "/v1/orchestrators/groups/register") .registerGroup,
    fixed "POST" (pfx ++ "/v1/enrollment/tokens") .createToken,
    fixed "GET" (pfx ++ "/v1/enrollment/pending") .listPending,
    segment "POST" (pfx ++ "/v1/orchestrators/groups/") "/sessions/issue" .issueSession,
    segment "GET" (pfx ++ "/v1/orchestrators/groups/") "/sessions" .listSessions,
    segment "POST" (pfx ++ "/v1/orchestrators/groups/") "/revoke" .revoke,
    segment "POST" (pfx ++ "/v1/agents/") "/renew" .renew,
    segment "POST" (pfx ++ "/v1/nodes/") "/renew" .renew,
    segment "POST" (pfx ++ "/v1/agents/") "/revoke" .revoke,
    segment "POST" (pfx ++ "/v1/nodes/") "/revoke" .revoke,
    segment "GET" (pfx ++ "/v1/agents/") "/verify" .verify,
    segment "GET" (pfx ++ "/v1/nodes/") "/verify" .verify,
    segment "POST" (pfx ++ "/v1/enrollment/pending/") "/approve" .approve,
    segment "POST" (pfx ++ "/v1/enrollment/pending/") "/reject" .reject].findSome? id).getD .notFound

/-! ### Checks of a request -/

def lowerCase (s : String) : String := String.ofList (s.toList.map Char.toLower)

/-- `IDENTIFIER_RE`. -/
def isIdentifier (s : String) : Bool :=
  let cs := s.toList
  decide (1 ≤ cs.length ∧ cs.length ≤ 256) && cs.all fun c =>
    ('a' ≤ c && c ≤ 'z') || ('A' ≤ c && c ≤ 'Z') || ('0' ≤ c && c ≤ '9') ||
      c == '.' || c == '_' || c == ':' || c == '@' || c == '/' || c == '-'

def invalidIdentifier : String :=
  "identifier contains invalid characters. Allowed: a-z A-Z 0-9 . _ : @ / -"

def isPubKey (pubKey : String) : Bool := startsWith pubKey "ed25519:" && decide (8 < utf16Length pubKey)

/-- The message for a body that cannot be registered. -/
def validateRegisterRequest (body : RequestBody) : Option String :=
  match truthy body.identifier, truthy body.pubKey with
  | some identifier, some pubKey =>
    if ¬ isIdentifier identifier then some invalidIdentifier
    else if ¬ isPubKey pubKey then some "pub_key must be 'ed25519:<base64url>'."
    else none
  | _, _ => some "identifier and pub_key are required."

/-- The message for a body that cannot be registered as a group. -/
def validateGroupRequest (body : RequestBody) : Option String :=
  if (truthy body.identifier).any fun identifier => !isIdentifier identifier then
    some invalidIdentifier
  else if ¬ isPubKey (body.pubKey.getD "") then some "pub_key must be 'ed25519:<base64url>'."
  else none

def parseAssuranceLevel (raw : Option String) : String :=
  match raw.map lowerCase with
  | some "attested" => "attested"
  | some "verified" => "verified"
  | _ => "anonymous"

def defaultCapabilities (entityType : String) : List String :=
  if entityType = "node" then ["nwp:query", "nwp:stream"] else []

def VALID_REVOCATION_REASONS : List String :=
  ["key_compromise", "ca_compromise", "affiliation_changed", "superseded", "cessation_of_operation",
    "parent_revoked"]

/-! ### Errors -/

def errorStatus (code : String) : ℕ :=
  if code = NipErrorCodes.NidNotFound ∨ code = NipErrorCodes.ParentNotFound then 404
  else if code = NipErrorCodes.NidAlreadyExists then 409
  else if code = NipErrorCodes.RenewalTooEarly ∨ code = NipErrorCodes.SessionValidityInvalid ∨
      code = NipErrorCodes.ParentNotGroup then 400
  else if code = NipErrorCodes.ScopeExpansion ∨ code = NipErrorCodes.CertCapMissing ∨
      code = NipErrorCodes.GroupRevoked ∨ code = RA_NID_NOT_ALLOWED ∨
      code = RA_PENDING_REJECTED then 403
  else if code = "NIP-CA-JWS-INVALID" ∨ code = "NIP-CA-JWS-EXPIRED" ∨
      code = NipErrorCodes.CertExpired ∨ code = NipErrorCodes.CertRevoked ∨
      code = NipErrorCodes.ParentRevoked ∨ code = RA_TOKEN_INVALID ∨ code = RA_TOKEN_EXPIRED then 401
  else 400

def errorResult (message errorCode : String) : CaResponse :=
  { body := .error errorCode message, status := errorStatus errorCode }

def badRequest (message : String) : CaResponse :=
  { body := .error "NIP-CA-BAD-REQUEST" message, status := 400 }

def unauthorized : CaResponse :=
  { body := .error "NIP-CA-UNAUTHORIZED" "Valid operator Bearer token required.", status := 401 }

def statusName : PendingStatus → String
  | .pending => "Pending"
  | .approved => "Approved"
  | .rejected => "Rejected"

/-- An exception of the service becomes an error response, and any other goes on. -/
def catchNipCa (call : CaAsync CaResponse) : CaAsync CaResponse :=
  tryCatch call fun e =>
    match e with
    | .nipCa message errorCode => pure (errorResult message errorCode)
    | e => throw e

/-! ### The router -/

/-- A router: its service, its own options, which stores it was given, the policy that was created for
them, and the handlers of the routes that are not modelled here. -/
structure NipCaRouter where
  ca : NipCaService
  opts : ResolvedNipCaOptions
  bootstrapTokenStore : Bool
  pendingStore : Bool
  enrollmentPolicy : EnrollmentPolicy
  created : createEnrollmentPolicy opts bootstrapTokenStore pendingStore = .ok enrollmentPolicy
  others : Route → CaRequest → CaAsync CaResponse

namespace NipCaRouter

variable (router : NipCaRouter)

/-- The path prefix, without a slash at its end. -/
def pfx : String :=
  let cs := router.opts.routePrefix.toList
  if cs.getLast? = some '/' then String.ofList cs.dropLast else router.opts.routePrefix

def isAuthorized (req : CaRequest) : Bool :=
  match router.opts.operatorApiKey with
  | none => true
  | some key =>
    match truthy (req.header "authorization") with
    | none => false
    | some header =>
      startsWith (lowerCase header) "bearer " &&
        trim (String.ofList (header.toList.drop "bearer ".length)) == key

def register (req : CaRequest) (entityType : String) : CaAsync CaResponse :=
  if ¬ router.isAuthorized req then pure unauthorized
  else match req.body with
    | none => pure (badRequest "Invalid JSON body.")
    | some body =>
      match validateRegisterRequest body with
      | some err => pure (badRequest err)
      | none =>
        tryCatch
          (do
            let frame ← router.ca.registerWithRa entityType (body.identifier.getD "")
              (body.pubKey.getD "") (body.capabilities.getD (defaultCapabilities entityType))
              (body.scopeJson.getD "{}") body.metadataJson (req.header "x-nps-enrollment-token")
              (some router.enrollmentPolicy)
            pure { body := .ident frame, status := 201 })
          fun e =>
            match e with
            | .raPending pendingId => pure { body := .queued pendingId, status := 202 }
            | .nipCa message errorCode => pure (errorResult message errorCode)
            | e => throw e

def registerX509 (req : CaRequest) (entityType : String) : CaAsync CaResponse :=
  if ¬ router.isAuthorized req then pure unauthorized
  else match req.body with
    | none => pure (badRequest "Invalid JSON body.")
    | some body =>
      match validateRegisterRequest body with
      | some err => pure (badRequest err)
      | none =>
        catchNipCa do
          -- the enrollment policy is not asked
          let frame ← router.ca.registerX509 entityType (body.identifier.getD "")
            (body.pubKey.getD "") (body.capabilities.getD (defaultCapabilities entityType))
            (body.scopeJson.getD "{}") (body.certChain.getD [])
            (parseAssuranceLevel body.assuranceLevel) body.metadataJson
          pure { body := .ident frame, status := 201 }

def registerGroup (req : CaRequest) : CaAsync CaResponse :=
  if ¬ router.isAuthorized req then pure unauthorized
  else match req.body with
    | none => pure (badRequest "Invalid JSON body.")
    | some body =>
      match validateGroupRequest body with
      | some err => pure (badRequest err)
      | none =>
        catchNipCa do
          -- nor is it here
          let frame ← router.ca.registerGroup body.identifier (body.pubKey.getD "")
            (body.capabilities.getD []) (body.scopeJson.getD "{}") body.ownerUserId body.ownerKeyId
            body.metadataJson
          pure { body := .ident frame, status := 201 }

def renew (req : CaRequest) (nid : String) : CaAsync CaResponse :=
  if ¬ router.isAuthorized req then pure unauthorized
  else catchNipCa do
    let frame ← router.ca.renew nid
    pure { body := .ident frame }

def revoke (req : CaRequest) (nid : String) : CaAsync CaResponse :=
  if ¬ router.isAuthorized req then pure unauthorized
  else
    let reason := (req.body.bind RequestBody.reason).getD "cessation_of_operation"
    if ¬ VALID_REVOCATION_REASONS.contains reason then
      pure (badRequest ("Invalid revocation reason '" ++ reason ++ "'. Allowed: " ++
        join ", " VALID_REVOCATION_REASONS ++ "."))
    else catchNipCa do
      let frame ← router.ca.revoke nid reason
      pure { body := .revoked frame }

def verify (nid : String) : CaAsync CaResponse := do
  let r ← NipCaService.verify nid
  match r.valid, r.record with
  | true, some record => do
    let expiresAt ← NipCaService.isoDate record.expiresAt
    pure { body := .valid record.nid expiresAt record.serial }
  | true, none => throw (.error "TypeError")
  | false, _ =>
    pure { body := .invalid r.errorCode r.message,
           status := if r.errorCode = some NipErrorCodes.NidNotFound then 404 else 200 }

def createToken (req : CaRequest) : CaAsync CaResponse :=
  if ¬ router.isAuthorized req then pure unauthorized
  else if ¬ router.bootstrapTokenStore then
    pure (badRequest "Bootstrap token enrollment is not enabled on this CA.")
  else do
    let label := req.body.bind RequestBody.label
    let ttl := (req.body.bind RequestBody.ttlSeconds).getD 0
    let requested := if 0 < ttl then ttl * 1000 else router.opts.bootstrapTokenMaxTtlMs
    let ttlMs := min requested router.opts.bootstrapTokenMaxTtlMs
    let now ← readClock
    let raw ← Async.perform (CaOp.tokens (.create label (now + ttlMs)))
    let expiresAt ← NipCaService.isoDate (now + ttlMs)
    pure { body := .token raw expiresAt label, status := 201 }

def listPending (req : CaRequest) : CaAsync CaResponse :=
  if ¬ router.isAuthorized req then pure unauthorized
  else if ¬ router.pendingStore then
    pure (badRequest "Pending-queue enrollment is not enabled on this CA.")
  else do
    let records ← Async.perform (CaOp.pending .list)
    pure { body := .pendingList records }

def approvePending (req : CaRequest) (id : String) : CaAsync CaResponse :=
  if ¬ router.isAuthorized req then pure unauthorized
  else if ¬ router.pendingStore then
    pure (badRequest "Pending-queue enrollment is not enabled on this CA.")
  else do
    let found ← Async.perform (CaOp.pending (.get id))
    match found with
    | none =>
      pure { body := .error NipErrorCodes.NidNotFound ("Pending registration '" ++ id ++ "' not found."),
             status := 404 }
    | some record =>
      if record.status ≠ .pending then
        pure { body := .error "NIP-CA-BAD-REQUEST" ("Record '" ++ id ++ "' is already " ++
                 statusName record.status ++ "."),
               status := 409 }
      else catchNipCa do
        let frame ← router.ca.register record.entityType record.identifier record.pubKey
          record.capabilities record.scopeJson record.metadataJson
        let _ ← Async.perform (CaOp.pending (.approve id))
        pure { body := .ident frame, status := 201 }

def rejectPending (req : CaRequest) (id : String) : CaAsync CaResponse :=
  if ¬ router.isAuthorized req then pure unauthorized
  else if ¬ router.pendingStore then
    pure (badRequest "Pending-queue enrollment is not enabled on this CA.")
  else do
    let reason := (req.body.bind RequestBody.reason).getD "rejected_by_operator"
    let ok ← Async.perform (CaOp.pending (.reject id reason))
    if ok then pure { body := .rejected id reason }
    else do
      let found ← Async.perform (CaOp.pending (.get id))
      match found with
      | none =>
        pure { body := .error "NIP-CA-BAD-REQUEST" ("Pending registration '" ++ id ++ "' not found."),
               status := 404 }
      | some record =>
        pure { body := .error "NIP-CA-BAD-REQUEST" ("Record '" ++ id ++ "' is already " ++
                 statusName record.status ++ "."),
               status := 409 }

def handle (r : Route) (req : CaRequest) : CaAsync CaResponse :=
  match r with
  | .register entityType => router.register req entityType
  | .registerX509 entityType => router.registerX509 req entityType
  | .registerGroup => router.registerGroup req
  | .createToken => router.createToken req
  | .listPending => router.listPending req
  | .revoke nid => router.revoke req nid
  | .renew nid => router.renew req nid
  | .verify nid => verify nid
  | .approve id => router.approvePending req id
  | .reject id => router.rejectPending req id
  | .notFound => pure { body := .error "NIP-CA-NOT-FOUND" "No such route.", status := 404 }
  | r => router.others r req

def routeOf (req : CaRequest) : Route :=
  route router.pfx (String.ofList (req.method.toList.map Char.toUpper)) req.path

/-- Answers a request.  The handlers return promises that are not awaited inside the `try` of `fetch`,
so what they throw is thrown on. -/
def fetch (req : CaRequest) : CaAsync CaResponse := router.handle (router.routeOf req) req

end NipCaRouter

end NpsSdk.Nip.Ca
