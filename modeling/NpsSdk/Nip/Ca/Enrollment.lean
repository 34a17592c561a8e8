import NpsSdk.Nip.Ca.Calls
import NpsSdk.Nip.Ca.Router

/-!
# The enrollment gate

A registration route answers an IdentFrame only where the enrollment policy admitted the
registration, or where an operator approves a pending record of it.  The routes `register-x509` and
`groups/register` do not ask the policy; where they are not used, the gate holds of every request.
-/

namespace NpsSdk.Nip.Ca

open NpsSdk.Lib

/-- A request, with what its operations find outside. -/
abbrev Served := CaRequest × (ℕ → Ambient)

namespace NipCaRouter

/-- The answer to a request, and the state after it. -/
def respond (router : NipCaRouter) (sha256 : String → String) (s : CaState) (e : Served) :
    Except CaError CaResponse × CaState :=
  (router.fetch e.1).finish (exec sha256) e.2 s

/-- The state after a request. -/
def serve (router : NipCaRouter) (sha256 : String → String) (s : CaState) (e : Served) : CaState :=
  (router.respond sha256 s e).2

end NipCaRouter

def Route.registers : Route → Bool
  | .register _ | .registerX509 _ | .registerGroup | .approve _ => true
  | _ => false

structure Certifies (ca : NipCaService) (frame : CaIdentFrame) (entityType identifier pubKey : String)
    (capabilities : List String) (scopeJson : String) : Prop where
  nid : frame.nid = ca.buildNid entityType identifier
  pubKey : frame.pubKey = pubKey
  capabilities : frame.capabilities = capabilities
  scope : ca.parseJson scopeJson = some frame.scope

/-- The policy's check, run in the state the request met, admitted the registration of the frame; a
token it consumed is consumed after the request. -/
def Admitted (router : NipCaRouter) (sha256 : String → String) (s : CaState) (e : Served)
    (frame : CaIdentFrame) : Prop :=
  ∃ ctx : EnrollmentContext,
    Certifies router.ca frame ctx.entityType ctx.identifier ctx.pubKey ctx.capabilities
      ctx.scopeJson ∧
    ((router.enrollmentPolicy.check ctx).finish (exec sha256) e.2 s).1 = .ok () ∧
    (router.serve sha256 s e).tokens =
      ((router.enrollmentPolicy.check ctx).finish (exec sha256) e.2 s).2.tokens

def Approved (router : NipCaRouter) (s : CaState) (e : Served) (frame : CaIdentFrame) : Prop :=
  ∃ id record, router.routeOf e.1 = .approve id ∧ router.isAuthorized e.1 = true ∧
    s.pending.get id = some record ∧ record.status = .pending ∧
    Certifies router.ca frame record.entityType record.identifier record.pubKey record.capabilities
      record.scopeJson

/-- **The gate**, for one request. -/
def Gated (router : NipCaRouter) (sha256 : String → String) (s : CaState) (e : Served) : Prop :=
  ∀ frame status, (router.respond sha256 s e).1 = .ok { body := .ident frame, status } →
    (router.routeOf e.1).registers = true →
    Admitted router sha256 s e frame ∨ Approved router s e frame

/-- The request passes all checks of a route that does not ask the policy. -/
def Ungated (router : NipCaRouter) (req : CaRequest) : Prop :=
  router.isAuthorized req = true ∧ ∃ body, req.body = some body ∧
    (((∃ entityType, router.routeOf req = .registerX509 entityType) ∧
        validateRegisterRequest body = none) ∨
      (router.routeOf req = .registerGroup ∧ validateGroupRequest body = none))

section

variable {router : NipCaRouter} {sha256 : String → String} {s : CaState} {e : Served}
  {frame : CaIdentFrame} {status : ℕ}

variable {amb : ℕ → Ambient}

theorem wp_register_certifies {ca : NipCaService} {entityType identifier pubKey : String}
    {capabilities : List String} {scopeJson : String} {metadataJson : Option String} :
    Async.wp (exec sha256) (ca.register entityType identifier pubKey capabilities scopeJson metadataJson)
      (fun r _ s' => ∀ frame, r = .ok frame →
        Certifies ca frame entityType identifier pubKey capabilities scopeJson ∧ s'.tokens = s.tokens) amb s := by
  refine Async.wp_mono NipCaService.wp_register ?_
  rintro r amb' s' h frame rfl
  obtain ⟨⟨record, hr, -, hf, -⟩, htokens⟩ := h
  refine ⟨⟨hf.nid.trans hr.nid, hf.pubKey.trans hr.pubKey, hf.capabilities.trans hr.capabilities, ?_⟩, htokens⟩
  rw [← hr.scopeJson]
  exact hf.scope

theorem wp_registerWithRa {ca : NipCaService} {policy : EnrollmentPolicy} (ctx : EnrollmentContext) :
    Async.wp (exec sha256)
      (ca.registerWithRa ctx.entityType ctx.identifier ctx.pubKey ctx.capabilities ctx.scopeJson
        ctx.metadataJson ctx.enrollmentToken (some policy))
      (fun r _ s' => ∀ frame, r = .ok frame →
        Certifies ca frame ctx.entityType ctx.identifier ctx.pubKey ctx.capabilities ctx.scopeJson ∧
        ((policy.check ctx).finish (exec sha256) amb s).1 = .ok () ∧
        s'.tokens = ((policy.check ctx).finish (exec sha256) amb s).2.tokens) amb s := by
  unfold NipCaService.registerWithRa
  dsimp only
  rw [Async.wp_bind]
  refine Async.wp_mono Async.wp_finish ?_
  rintro r amb' s' ⟨hr, rfl⟩
  cases r with
  | error err => exact fun frame h => nomatch h
  | ok u =>
    refine Async.wp_mono wp_register_certifies ?_
    intro r amb'' s'' h frame hf
    obtain ⟨hcert, htokens⟩ := h frame hf
    exact ⟨hcert, hr.symm, htokens⟩

/-- What a handler answers is a frame that meets `P`, or no frame. -/
def Frames (P : CaIdentFrame → CaState → Prop) (r : Except CaError CaResponse) (_ : ℕ → Ambient)
    (s' : CaState) : Prop :=
  ∀ frame status, r = .ok { body := .ident frame, status } → P frame s'

variable {P : CaIdentFrame → CaState → Prop}

theorem frames_finish {p : CaAsync CaResponse}
    (h : Async.wp (exec sha256) p (Frames P) amb s)
    (hout : (p.finish (exec sha256) amb s).1 = .ok { body := .ident frame, status }) :
    P frame (p.finish (exec sha256) amb s).2 :=
  (Async.wp_iff_finish (Q := fun r s' => ∀ frame status,
    r = .ok { body := .ident frame, status } → P frame s')).1 h frame status hout

theorem frames_error {message code : String} :
    Frames P (.ok (errorResult message code)) amb s := fun _ _ h => nomatch h

theorem frames_badRequest {message : String} :
    Frames P (.ok (badRequest message)) amb s := fun _ _ h => nomatch h

theorem frames_unauthorized :
    Frames P (.ok unauthorized) amb s := fun _ _ h => nomatch h

/-- The `register` route answers frames behind the gate only. -/
theorem wp_register_route {req : CaRequest} {entityType : String} :
    Async.wp (exec sha256) (router.register req entityType)
      (Frames fun frame s' => ∃ ctx : EnrollmentContext,
        Certifies router.ca frame ctx.entityType ctx.identifier ctx.pubKey ctx.capabilities
          ctx.scopeJson ∧ ((router.enrollmentPolicy.check ctx).finish (exec sha256) amb s).1 = .ok () ∧
        s'.tokens = ((router.enrollmentPolicy.check ctx).finish (exec sha256) amb s).2.tokens)
      amb s := by
  unfold NipCaRouter.register
  split
  · exact frames_unauthorized
  cases req.body with
  | none => exact frames_badRequest
  | some body =>
    dsimp only
    cases validateRegisterRequest body with
    | some err => exact frames_badRequest
    | none =>
      dsimp only
      rw [Async.wp_tryCatch, Async.wp_bind]
      refine Async.wp_mono (wp_registerWithRa
        ⟨entityType, body.identifier.getD "", body.pubKey.getD "",
          body.capabilities.getD (defaultCapabilities entityType), body.scopeJson.getD "{}",
          body.metadataJson, req.header "x-nps-enrollment-token"⟩) ?_
      intro r amb' s' h
      cases r with
      | error err =>
        cases err with
        | nipCa message code => exact frames_error
        | raPending id => exact fun _ _ h => nomatch h
        | error message => exact fun _ _ h => nomatch h
      | ok frame =>
        intro frame' status hf
        cases hf
        exact ⟨_, h frame rfl⟩

theorem wp_approve_route {req : CaRequest} {id : String} :
    Async.wp (exec sha256) (router.approvePending req id)
      (Frames fun frame _ => router.isAuthorized req = true ∧ ∃ record,
        s.pending.get id = some record ∧ record.status = .pending ∧
        Certifies router.ca frame record.entityType record.identifier record.pubKey
          record.capabilities record.scopeJson) amb s := by
  unfold NipCaRouter.approvePending
  split
  · exact frames_unauthorized
  rename_i hauth
  split
  · exact frames_badRequest
  rw [Async.wp_bind, Async.wp_perform]
  simp only [exec, execPending]
  cases hg : s.pending.get id with
  | none => exact fun _ _ h => by cases h
  | some record =>
    dsimp only
    split
    · exact fun _ _ h => by cases h
    rename_i hstatus
    unfold catchNipCa
    rw [Async.wp_tryCatch, Async.wp_bind]
    refine Async.wp_mono wp_register_certifies ?_
    intro r amb' s' h
    cases r with
    | error err =>
      cases err with
      | nipCa message code => exact frames_error
      | raPending id => exact fun _ _ h => by cases h
      | error message => exact fun _ _ h => by cases h
    | ok frame =>
      intro frame' status hf
      cases hf
      exact ⟨not_not.1 hauth, record, rfl, not_not.1 hstatus, (h frame rfl).1⟩

theorem wp_ungated_route {req : CaRequest} (h : ¬ Ungated router req) :
    (∀ entityType, router.routeOf req = .registerX509 entityType →
      Async.wp (exec sha256) (router.registerX509 req entityType) (Frames P) amb s) ∧
    (router.routeOf req = .registerGroup → Async.wp (exec sha256) (router.registerGroup req) (Frames P) amb s) := by
  constructor
  · intro entityType hroute
    unfold NipCaRouter.registerX509
    split
    · exact frames_unauthorized
    rename_i hauth
    cases hb : req.body with
    | none => exact frames_badRequest
    | some body =>
      dsimp only
      cases hv : validateRegisterRequest body with
      | some err => exact frames_badRequest
      | none => exact absurd ⟨not_not.1 hauth, body, hb, .inl ⟨⟨_, hroute⟩, hv⟩⟩ h
  · intro hroute
    unfold NipCaRouter.registerGroup
    split
    · exact frames_unauthorized
    rename_i hauth
    cases hb : req.body with
    | none => exact frames_badRequest
    | some body =>
      dsimp only
      cases hv : validateGroupRequest body with
      | some err => exact frames_badRequest
      | none => exact absurd ⟨not_not.1 hauth, body, hb, .inr ⟨hroute, hv⟩⟩ h

/-- One request is behind the gate, unless it passes the checks of an ungated route. -/
theorem gated_of_not_ungated (h : ¬ Ungated router e.1) : Gated router sha256 s e := by
  intro frame status hout hregisters
  have hwp : ∀ {P : CaIdentFrame → CaState → Prop},
      Async.wp (exec sha256) (router.fetch e.1) (Frames P) e.2 s →
      P frame (router.serve sha256 s e) := fun hP => frames_finish hP hout
  unfold NipCaRouter.fetch NipCaRouter.handle at hwp
  cases hroute : router.routeOf e.1 with
  | register entityType =>
    simp only [hroute] at hwp
    exact .inl (hwp wp_register_route)
  | approve id =>
    simp only [hroute] at hwp
    obtain ⟨hauth, record, hrecord⟩ := hwp wp_approve_route
    exact .inr ⟨id, record, hroute, hauth, hrecord⟩
  | registerX509 entityType =>
    simp only [hroute] at hwp
    exact (hwp (P := fun _ _ => False) ((wp_ungated_route h).1 entityType hroute)).elim
  | registerGroup =>
    simp only [hroute] at hwp
    exact (hwp (P := fun _ _ => False) ((wp_ungated_route h).2 hroute)).elim
  | _ =>
    rw [hroute] at hregisters
    cases hregisters

end

/-- **Enrollment gate**: in every sequence of requests none of which passes the checks of an ungated
route, each frame a registration route answers was admitted by the policy, or approved. -/
theorem enrollment_gate (router : NipCaRouter) (sha256 : String → String) (s : CaState)
    (es : List Served)
    (h : Along (router.serve sha256) (fun _ e => ¬ Ungated router e.1) s es) :
    Along (router.serve sha256) (Gated router sha256) s es :=
  h.mono fun _ _ he => gated_of_not_ungated he

/-! ### Two routers -/

def answersFrame : Except CaError CaResponse → Bool
  | .ok { body := .ident _, .. } => true
  | _ => false

/-- A service whose `JSON.parse` is run on `"{}"` only. -/
def gateCa : NipCaService :=
  { opts := { caNid := "urn:nps:org:ca.example" },
    parseJson := fun text => if text = "{}" then some (.obj []) else none,
    sign := fun _ => "signature" }

/-- A router that admits the agents of an allowlist. -/
def allowlistRouter : NipCaRouter :=
  { ca := gateCa, opts := { gateCa.opts with enrollmentAllowlistPatterns := ["edge-*"] },
    bootstrapTokenStore := false, pendingStore := false, enrollmentPolicy := .allowlist ["edge-*"],
    created := rfl, others := fun _ _ => pure { body := .other .null } }

def queueRouter : NipCaRouter :=
  { ca := gateCa, opts := { gateCa.opts with enrollmentTier := .pendingQueue },
    bootstrapTokenStore := false, pendingStore := true, enrollmentPolicy := .pendingQueue 1000,
    created := rfl, others := fun _ _ => pure { body := .other .null } }

/-- A registration of the agent `edge-7` at a path. -/
def registrationAt (path : String) : Served :=
  ({ method := "POST", path, body := some { identifier := some "edge-7", pubKey := some "ed25519:k7" } },
    fun _ => ⟨fun _ => 0, fun _ => "00"⟩)

theorem allowlist_gated :
    answersFrame (allowlistRouter.respond id {} (registrationAt "/v1/agents/register")).1 = true ∧
      Along (allowlistRouter.serve id) (Gated allowlistRouter id) {}
        [registrationAt "/v1/agents/register"] := by
  refine ⟨by decide, enrollment_gate allowlistRouter id {} _ (along_cons.2 ⟨?_, along_nil⟩)⟩
  have hroute : allowlistRouter.routeOf (registrationAt "/v1/agents/register").1 = .register "agent" := by
    decide
  rintro ⟨-, body, -, ⟨⟨entityType, h⟩, -⟩ | ⟨h, -⟩⟩ <;> rw [hroute] at h <;> cases h

/-- The queue admits nothing at once, and yet the X.509 route answers a frame. -/
theorem queue_bypassed : ¬ Along (queueRouter.serve id) (Gated queueRouter id) {}
    [registrationAt "/v1/agents/register-x509"] := by
  intro h
  have hframe : answersFrame (queueRouter.respond id {}
      (registrationAt "/v1/agents/register-x509")).1 = true := by decide
  have hroute : queueRouter.routeOf (registrationAt "/v1/agents/register-x509").1 = .registerX509 "agent" := by decide
  unfold answersFrame at hframe
  split at hframe
  · rename_i frame status hout
    rcases (along_cons.1 h).1 frame status hout (by rw [hroute]; rfl) with
      ⟨ctx, -, hadmitted, -⟩ | ⟨id, record, happrove, -⟩
    · exact EnrollmentPolicy.checkPendingQueue_ne_ok hadmitted
    · rw [hroute] at happrove
      cases happrove
  · cases hframe

/-! ### Bootstrap tokens -/

section

variable (sha256 : String → String) (hash : String)

/-- An entry under this hash that is neither consumed nor revoked. -/
def TokenEntry.isOpen (e : TokenEntry) : Bool := e.hash == hash && !e.consumed && !e.revoked

/-- How many tokens with this hash an operation accepts. -/
def accepted (a : Ambient) (s : InMemoryBootstrapTokenStore) : TokenOp → ℕ
  | .validateAndConsume token =>
    if sha256 token = hash ∧ (s.validateAndConsume sha256 a.time token).1 = true then 1 else 0
  | _ => 0

def made (a : Ambient) : TokenOp → ℕ
  | .create .. => if sha256 ("nps-bootstrap-" ++ a.random 0) = hash then 1 else 0
  | _ => 0

/-- How many tokens with this hash are accepted by operations that come one after the other. -/
def acceptedIn : List (Ambient × TokenOp) → InMemoryBootstrapTokenStore → ℕ
  | [], _ => 0
  | (a, o) :: ops, s => accepted sha256 hash a s o + acceptedIn ops (execTokens sha256 a o s).2

variable {sha256} {hash}

theorem countP_consume {h : String} {clock : ℕ → ℤ} {es es' : List TokenEntry}
    (hes : InMemoryBootstrapTokenStore.consume h clock es = some es') :
    es'.countP (·.isOpen hash) + (if h = hash then 1 else 0) = es.countP (·.isOpen hash) := by
  induction es generalizing clock es' with
  | nil => cases hes
  | cons e es ih =>
    rw [InMemoryBootstrapTokenStore.consume] at hes
    split_ifs at hes with hskip
    · obtain ⟨rest, hrest, rfl⟩ := Option.map_eq_some_iff.1 hes
      rw [List.countP_cons, List.countP_cons, ← ih hrest]
      omega
    · cases hes
      simp only [Bool.or_eq_true, bne_iff_ne, ne_eq, not_or, Bool.not_eq_true, not_not] at hskip
      obtain ⟨⟨⟨hconsumed, hrevoked⟩, -⟩, rfl⟩ := hskip
      simp [List.countP_cons, TokenEntry.isOpen, hconsumed, hrevoked]

/-- **One operation** accepts no token but for one that is open. -/
theorem accepted_step (a : Ambient) (o : TokenOp) (s : InMemoryBootstrapTokenStore) :
    accepted sha256 hash a s o + (execTokens sha256 a o s).2.tokens.countP (·.isOpen hash) ≤
      s.tokens.countP (·.isOpen hash) + made sha256 hash a o := by
  cases o with
  | create label expiresAt =>
    simp [accepted, made, execTokens, InMemoryBootstrapTokenStore.create, TokenEntry.isOpen]
  | validateAndConsume token =>
    obtain h | ⟨tokens, htokens, h⟩ : s.validateAndConsume sha256 a.time token = (false, s) ∨ ∃ tokens,
        InMemoryBootstrapTokenStore.consume (sha256 token) a.time s.tokens = some tokens ∧
          s.validateAndConsume sha256 a.time token = (true, { tokens }) := by
      unfold InMemoryBootstrapTokenStore.validateAndConsume
      split
      · exact .inr ⟨_, ‹_›, rfl⟩
      · exact .inl rfl
    · simp [accepted, execTokens, h]
    · rw [← countP_consume htokens]
      simp [accepted, made, execTokens, h, Nat.add_comm]
  | list => simp [accepted, execTokens]
  | revoke tokenId =>
    simp only [accepted, made, execTokens, InMemoryBootstrapTokenStore.revoke, Nat.zero_add, Nat.add_zero]
    split
    · exact le_rfl
    · split
      · exact le_rfl
      · split_ifs
        · exact le_rfl
        · obtain ⟨hi, rfl⟩ := List.getElem?_eq_some_iff.1 ‹_›
          rw [List.countP_set hi]
          simp [TokenEntry.isOpen]

/-- **Bootstrap tokens are for single use**: of the tokens with one hash, operations in any order accept no more
than were open or have been made. -/
theorem tokens_single_use (ops : List (Ambient × TokenOp)) (s : InMemoryBootstrapTokenStore) :
    acceptedIn sha256 hash ops s ≤
      s.tokens.countP (·.isOpen hash) + (ops.map fun o => made sha256 hash o.1 o.2).sum := by
  induction ops generalizing s with
  | nil => exact Nat.zero_le _
  | cons o ops ih =>
    have hstep := @accepted_step sha256 hash o.1 o.2 s
    have hrest := ih (execTokens sha256 o.1 o.2 s).2
    rw [acceptedIn, List.map_cons, List.sum_cons]
    omega

end

end NpsSdk.Nip.Ca
