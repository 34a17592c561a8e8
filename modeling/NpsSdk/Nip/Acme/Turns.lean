import NpsSdk.Nip.Acme.Server

/-!
# The turns of the ACME server

A handler takes one turn, but for the one that finalizes an order, which waits for the key of the CSR
and for the certificate.  For each handler, what its first turn does to the orders and the challenges.
-/

namespace NpsSdk.Nip.Acme

open NpsSdk.Lib NpsSdk.Nip.X509

/-! ### Requests in flight -/

abbrev AcmeWorld :=
  Pool AcmeRequest AcmeState (StateOp AcmeState AcmeExt) (StateOp.Res AcmeExt.Res) String AcmeReply

/-- A request comes in, or the handler of one takes a turn. -/
abbrev AcmeTurn := Turn AcmeRequest AcmeAmbient

/-- A server that has been started. -/
def AcmeWorld.idle : AcmeWorld := ⟨{}, []⟩

namespace AcmeServer

def step (srv : AcmeServer) (w : AcmeWorld) (t : AcmeTurn) : AcmeWorld :=
  w.step acmeExec acmeWaits srv.dispatch t

/-- The server after the turns `es`. -/
def after (srv : AcmeServer) (es : List AcmeTurn) : AcmeWorld := run srv.step .idle es

theorem after_snoc (srv : AcmeServer) (es : List AcmeTurn) (t : AcmeTurn) :
    srv.after (es ++ [t]) = srv.step (srv.after es) t := run_snoc

end AcmeServer

open AcmeServer

/-- In the turn `t` the handler of the `i`-th request starts. -/
def Starts (srv : AcmeServer) (w : AcmeWorld) (t : AcmeTurn) (i : ℕ) (req : AcmeRequest)
    (amb : ℕ → AcmeAmbient) : Prop :=
  t = .resume i amb ∧ w.calls[i]? = some (req, srv.dispatch req)

/-- In the turn `t` the `i`-th request has a certificate issued. -/
def Issues (w : AcmeWorld) (t : AcmeTurn) (i : ℕ) (req : AcmeRequest) (request : IssueLeafOptions) : Prop :=
  ∃ p amb, t = .resume i amb ∧ w.calls[i]? = some (req, p) ∧
    StateOp.ext (AcmeExt.issueLeaf request) ∈ p.turnOps acmeExec acmeWaits amb w.state

/-! ### Who sent a request -/

/-- The request passes the checks of its signature: its nonce is fresh, and the account `kid` has the
key that verifies it. -/
structure Authentic (srv : AcmeServer) (s : AcmeState) (req : AcmeRequest) (env : Envelope)
    (header : ProtectedHeader) (key : String) : Prop where
  body : req.body = .value env
  decoded : srv.decodeHeader env.protectedHeader = .value header
  nonce : header.nonce ∈ s.nonces
  account : accountKey s (header.kid.getD "") = .ok (some key)
  verified : Jws.verify srv env key = true

def signed (srv : AcmeServer) (s : AcmeState) (req : AcmeRequest) :
    Option (Envelope × ProtectedHeader × String) :=
  match req.body with
  | .value env =>
    match srv.decodeHeader env.protectedHeader with
    | .value header =>
      if header.nonce ∈ s.nonces then
        match accountKey s (header.kid.getD "") with
        | .ok (some key) => if Jws.verify srv env key then some (env, header, key) else none
        | _ => none
      else none
    | _ => none
  | _ => none

/-- Those of a request that names its account. -/
def sender (srv : AcmeServer) (s : AcmeState) (req : AcmeRequest) :
    Option (Envelope × ProtectedHeader × String) :=
  (signed srv s req).filter fun sent => (truthy sent.2.1.kid).isSome

def readPayload (srv : AcmeServer) (env : Envelope) : Except String (Option Payload) :=
  if env.payload = "" then .ok none
  else match srv.decodeJson env.payload with
    | .malformed message => .error message
    | .null => .ok none
    | .value payload => .ok (some payload)

def challengeOf (s : AcmeState) (req : AcmeRequest) : Option ChallengeState :=
  s.challenges.get (dropStart "/chall/" req.url)

def orderOf (s : AcmeState) (req : AcmeRequest) : Option OrderState :=
  s.orders.get (dropStart "/finalize/" req.url)

def SignsToken (srv : AcmeServer) (env : Envelope) (token key : String) : Prop :=
  ∃ payload signature, srv.decodeJson env.payload = .value payload ∧
    payload.agentSignature = some signature ∧ srv.ed25519Verify signature token key = .ok true

def drawnOrder (amb : ℕ → AcmeAmbient) : String := "ord-" ++ (amb 3).random
def drawnAuthz (amb : ℕ → AcmeAmbient) : String := "az-" ++ (amb 4).random
def drawnChallenge (amb : ℕ → AcmeAmbient) : String := "ch-" ++ (amb 5).random

def signsToken (srv : AcmeServer) (payload : Option Payload) (token key : String) : Bool :=
  match truthy (payload.bind Payload.agentSignature) with
  | none => false
  | some signature =>
    match srv.ed25519Verify signature token key with
    | .ok verdict => verdict
    | .error _ => false

/-- The challenge that a request answers, and whether its answer is a signature of the token. -/
def responseOf (srv : AcmeServer) (s : AcmeState) (req : AcmeRequest) : Option (ChallengeState × Bool) :=
  match signed srv s req, challengeOf s req with
  | some (env, _, key), some ch =>
    match readPayload srv env with
    | .ok payload => some (ch, signsToken srv payload ch.token key)
    | .error _ => none
  | _, _ => none

/-- The account that orders a certificate, and for what. -/
def orderedBy (srv : AcmeServer) (s : AcmeState) (req : AcmeRequest) : Option (String × Identifier) :=
  match sender srv s req with
  | some (env, header, _) =>
    match readPayload srv env with
    | .ok payload =>
      ((payload.bind Payload.identifiers).getD []).head?.map fun ident => (header.kid.getD "", ident)
    | .error _ => none
  | none => none

def createOrder (srv : AcmeServer) (accountUrl : String) (ident : Identifier) (amb : ℕ → AcmeAmbient)
    (s : AcmeState) : AcmeState :=
  { s with
    challenges := s.challenges.set (drawnChallenge amb)
      { id := drawnChallenge amb, type := CHALLENGE_AGENT_01, status := Status.PENDING, token := (amb 6).random,
        authzId := drawnAuthz amb, accountUrl }
    authzs := s.authzs.set (drawnAuthz amb)
      { id := drawnAuthz amb, identifier := ident, status := Status.PENDING,
        challengeIds := [drawnChallenge amb], accountUrl }
    orders := s.orders.set (drawnOrder amb)
      { id := drawnOrder amb, identifier := ident, status := Status.PENDING, authzId := drawnAuthz amb,
        finalizeUrl := srv.baseUrl ++ "/finalize/" ++ drawnOrder amb, accountUrl } }

/-! ### What a turn does -/

def Same (s s' : AcmeState) : Prop := s'.orders = s.orders ∧ s'.challenges = s.challenges

/-- **What a request does** to the orders and the challenges in its first turn. -/
inductive Effect (srv : AcmeServer) (s : AcmeState) (req : AcmeRequest) (amb : ℕ → AcmeAmbient)
    (s' : AcmeState) : Prop
  | quiet (same : Same s s')
  | failed (ch : ChallengeState) (status : String) (found : challengeOf s req = some ch)
      (orders : s'.orders = s.orders)
      (challenges : s'.challenges = s.challenges.set (dropStart "/chall/" req.url) { ch with status })
  | created (env : Envelope) (header : ProtectedHeader) (key : String) (orderId challId : String)
      (o : OrderState) (ch : ChallengeState) (route : routeOf req = .newOrder)
      (authentic : Authentic srv s req env header key) (orders : s'.orders = s.orders.set orderId o)
      (challenges : s'.challenges = s.challenges.set challId ch) (id : o.id = drawnOrder amb)
      (status : o.status = Status.PENDING) (authz : o.authzId = drawnAuthz amb)
      (owner : o.accountUrl = header.kid.getD "") (same : ch.authzId = o.authzId)
      (account : ch.accountUrl = o.accountUrl)
  | answered (env : Envelope) (header : ProtectedHeader) (key : String) (ch : ChallengeState)
      (route : routeOf req = .chall) (found : challengeOf s req = some ch)
      (authentic : Authentic srv s req env header key) (token : SignsToken srv env ch.token key)
      (orders : s'.orders = s.orders.mapValues fun o =>
        if o.authzId = ch.authzId then { o with status := Status.READY } else o)
      (challenges : s'.challenges = s.challenges.set (dropStart "/chall/" req.url)
        { ch with status := Status.VALID })

/-- At most the order becomes valid. -/
def Recorded (orderId : String) (s s' : AcmeState) : Prop :=
  s'.challenges = s.challenges ∧ (s'.orders = s.orders ∨ ∃ o certUrl, s.orders.get orderId = some o ∧
    s'.orders = s.orders.set orderId { o with status := Status.VALID, certificateUrl := some certUrl })

/-- What waits for a certificate: it issues no other, and at most the order becomes valid. -/
def Recording (orderId : String) (p : AcmeAsync AcmeReply) : Prop :=
  ∀ amb s, p.turn acmeExec acmeWaits (fun _ _ s' => Recorded orderId s s') (fun _ _ _ => False) amb s

/-- What waits for the key of a CSR: it goes on to issue a certificate to the subject. -/
def Exporting (subject orderId : String) (p : AcmeAsync AcmeReply) : Prop :=
  ∀ amb s, p.turn acmeExec acmeWaits (fun _ _ s' => Same s s')
    (fun o p' s' => (∀ request, o = .ext (.issueLeaf request) → request.subjectNid = subject) ∧
      Same s s' ∧ Recording orderId p') amb s

/-- What a request that is found to finalize a ready order waits for after its first turn. -/
def Begins (srv : AcmeServer) (s : AcmeState) (req : AcmeRequest) (o : StateOp AcmeState AcmeExt)
    (p : AcmeAsync AcmeReply) (s' : AcmeState) : Prop :=
  (∀ request, o ≠ .ext (.issueLeaf request)) ∧ Same s s' ∧ routeOf req = .finalize ∧
    ∃ order env header key, orderOf s req = some order ∧ order.status = Status.READY ∧
      Authentic srv s req env header key ∧
      Exporting order.identifier.value (dropStart "/finalize/" req.url) p

theorem Recording.tryCatch {orderId : String} {p : AcmeAsync AcmeReply} {reply : String → AcmeReply}
    (h : Recording orderId p) : Recording orderId (tryCatch p fun e => pure (reply e)) := by
  intro amb s
  rw [Async.turn_tryCatch]
  refine Async.turn_mono (h amb s) (fun r _ _ hr => ?_) fun _ _ _ hf => hf.elim
  cases r <;> exact hr

theorem Exporting.tryCatch {subject orderId : String} {p : AcmeAsync AcmeReply}
    {reply : String → AcmeReply} (h : Exporting subject orderId p) :
    Exporting subject orderId (tryCatch p fun e => pure (reply e)) := by
  intro amb s
  rw [Async.turn_tryCatch]
  refine Async.turn_mono (h amb s) (fun r _ _ hr => ?_) fun o p' s' ho => ⟨ho.1, ho.2.1, ho.2.2.tryCatch⟩
  cases r <;> exact hr

section Specs

variable {srv : AcmeServer} {req : AcmeRequest} {amb : ℕ → AcmeAmbient} {s : AcmeState} {α : Type}
  {D : Except String α → (ℕ → AcmeAmbient) → AcmeState → Prop}
  {W : StateOp AcmeState AcmeExt → AcmeAsync α → AcmeState → Prop}

theorem turn_consumeNonce {nonce : String} {f : Bool → AcmeAsync α} :
    Async.turn acmeExec acmeWaits D W (consumeNonce nonce >>= f) amb s ↔
      Async.turn acmeExec acmeWaits D W (f (s.nonces.contains nonce)) (fun n => amb (n + 2))
        { s with nonces := s.nonces.filter fun n => n ≠ nonce } := Iff.rfl

variable {f : String → AcmeAsync α}

theorem turn_shortId {start : String} :
    Async.turn acmeExec acmeWaits D W (shortId start >>= f) amb s ↔
      Async.turn acmeExec acmeWaits D W (f (start ++ (amb 0).random)) (fun n => amb (n + 1)) s :=
  Iff.rfl

theorem turn_randomText :
    Async.turn acmeExec acmeWaits D W (randomText >>= f) amb s ↔
      Async.turn acmeExec acmeWaits D W (f (amb 0).random) (fun n => amb (n + 1)) s := Iff.rfl

theorem turn_mintNonce :
    Async.turn acmeExec acmeWaits D W (mintNonce >>= f) amb s ↔
      Async.turn acmeExec acmeWaits D W (f (amb 0).random) (fun n => amb (n + 3))
        { s with nonces := if (amb 0).random ∈ s.nonces then s.nonces
                           else s.nonces ++ [(amb 0).random] } := Iff.rfl

section Envelopes

variable {D : Except String AcmeReply → (ℕ → AcmeAmbient) → AcmeState → Prop}
  {W : StateOp AcmeState AcmeExt → AcmeAsync AcmeReply → AcmeState → Prop}
  {k : Envelope → ProtectedHeader → AcmeAsync AcmeReply}

theorem signed_iff {env : Envelope} {header : ProtectedHeader} {key : String} :
    signed srv s req = some (env, header, key) ↔ Authentic srv s req env header key := by
  constructor
  · intro h
    unfold signed at h
    split at h
    · rename_i env' hb
      split at h
      · rename_i header' hd
        split at h
        · rename_i hnonce
          split at h
          · rename_i key' hkey
            split at h
            · rename_i hv
              cases h
              exact ⟨hb, hd, hnonce, hkey, hv⟩
            · cases h
          · cases h
        · cases h
      · cases h
    · cases h
  · rintro ⟨hb, hd, hnonce, hkey, hv⟩
    simp [signed, hb, hd, hnonce, hkey, hv]

theorem sender_some {env : Envelope} {header : ProtectedHeader} {key : String}
    (h : sender srv s req = some (env, header, key)) : Authentic srv s req env header key :=
  signed_iff.1 (Option.filter_eq_some_iff.1 h).1

theorem turn_withEnvelope (hdecline : signed srv s req = none → ∀ r amb' nonces, D r amb' { s with nonces })
    (hk : ∀ env header, req.body = .value env → srv.decodeHeader env.protectedHeader = .value header →
      Async.turn acmeExec acmeWaits D W (k env header) amb s) :
    Async.turn acmeExec acmeWaits D W (srv.withEnvelope req k) amb s := by
  unfold withEnvelope
  cases hb : req.body with
  | malformed message => exact hdecline (by simp [signed, hb]) _ _ s.nonces
  | null => exact hdecline (by simp [signed, hb]) _ _ s.nonces
  | value env =>
    dsimp only
    cases hd : srv.decodeHeader env.protectedHeader with
    | malformed message => exact hdecline (by simp [signed, hb, hd]) _ _ s.nonces
    | null => exact hdecline (by simp [signed, hb, hd]) _ _ s.nonces
    | value header => exact hk env header hb hd

theorem turn_withNonce (hdecline : signed srv s req = none → ∀ r amb' nonces, D r amb' { s with nonces })
    (hk : ∀ env header, req.body = .value env →
      srv.decodeHeader env.protectedHeader = .value header → header.nonce ∈ s.nonces →
      Async.turn acmeExec acmeWaits D W (k env header) (fun n => amb (n + 2))
        { s with nonces := s.nonces.filter fun n => n ≠ header.nonce }) :
    Async.turn acmeExec acmeWaits D W (srv.withNonce req k) amb s := by
  unfold withNonce
  refine turn_withEnvelope hdecline fun env header hb hd => ?_
  rw [turn_consumeNonce]
  split
  · rename_i hnonce
    exact hk env header hb hd (by simpa using hnonce)
  · rename_i hnonce
    have hused : header.nonce ∉ s.nonces := by simpa using hnonce
    exact hdecline (by simp [signed, hb, hd, hused]) _ _ _

theorem turn_withAccount {refused : ProtectedHeader → AcmeResponse}
    (hdecline : sender srv s req = none → ∀ r amb' nonces, D r amb' { s with nonces })
    (hk : ∀ env header key, sender srv s req = some (env, header, key) →
      Async.turn acmeExec acmeWaits D W (k env header) (fun n => amb (n + 3))
        { s with nonces := s.nonces.filter fun n => n ≠ header.nonce }) :
    Async.turn acmeExec acmeWaits D W (srv.withAccount req refused k) amb s := by
  unfold withAccount
  refine turn_withNonce (fun h => hdecline (by rw [sender, h]; rfl)) fun env header hb hd hnonce => ?_
  unfold verifyAccount
  rw [Async.turn_bind, StateOp.turn_getState]
  cases hkid : truthy header.kid with
  | none =>
    refine hdecline ?_ _ _ _
    rw [sender, Option.filter_eq_none_iff]
    rintro ⟨env', header', key'⟩ hsigned
    have hauth := signed_iff.1 hsigned
    obtain rfl := Parsed.value.inj (hb.symm.trans hauth.body)
    obtain rfl := Parsed.value.inj (hd.symm.trans hauth.decoded)
    simp [hkid]
  | some kid =>
    have hget : header.kid.getD "" = kid := by rw [eq_some_of_truthy hkid, Option.getD_some]
    dsimp only
    cases hkey : accountKey { s with nonces := s.nonces.filter fun n => n ≠ header.nonce } kid with
    | error message =>
      have hnone : accountKey s (header.kid.getD "") = .error message := by rw [hget]; exact hkey
      exact hdecline (by simp [sender, signed, hb, hd, hnonce, hnone]) _ _ _
    | ok key =>
      have hsame : accountKey s (header.kid.getD "") = .ok key := by rw [hget]; exact hkey
      cases key with
      | none => exact hdecline (by simp [sender, signed, hb, hd, hnonce, hsame]) _ _ _
      | some key =>
        simp only [Async.ofExcept, Async.done_bind, Async.pure_eq, Async.turn_done, Option.any_some]
        cases hv : Jws.verify srv env key with
        | false => exact hdecline (by simp [sender, signed, hb, hd, hnonce, hsame, hv]) _ _ _
        | true => exact hk env header key (by simp [sender, signed, hb, hd, hnonce, hsame, hv, hkid])

end Envelopes

theorem decodePayload_eq (srv : AcmeServer) (env : Envelope) :
    srv.decodePayload env = .done (readPayload srv env) := by
  unfold decodePayload readPayload
  split
  · rfl
  · cases srv.decodeJson env.payload <;> rfl

theorem responseOf_some {ch : ChallengeState} {right : Bool} (h : responseOf srv s req = some (ch, right)) :
    challengeOf s req = some ch ∧ ∃ env header key, Authentic srv s req env header key ∧
      (right = true → SignsToken srv env ch.token key) := by
  unfold responseOf at h
  split at h
  · rename_i env header key ch' hsigned hch
    split at h
    · rename_i payload hpayload
      simp only [Option.some.injEq, Prod.mk.injEq] at h
      obtain ⟨rfl, hright⟩ := h
      refine ⟨hch, env, header, key, signed_iff.1 hsigned, fun htrue => ?_⟩
      rw [htrue, signsToken] at hright
      split at hright
      · cases hright
      · rename_i signature hsignature
        split at hright
        · rename_i verdict hv
          obtain ⟨payload, rfl, hagent⟩ := Option.bind_eq_some_iff.1 (eq_some_of_truthy hsignature)
          refine ⟨payload, signature, ?_, hagent, hright ▸ hv⟩
          unfold readPayload at hpayload
          split at hpayload
          · cases hpayload
          · split at hpayload
            · cases hpayload
            · cases hpayload
            · rename_i hdecoded
              cases hpayload
              exact hdecoded
        · cases hright
    · cases h
  · cases h

/-! ### The handlers -/

section Handlers

variable {D : Except String AcmeReply → (ℕ → AcmeAmbient) → AcmeState → Prop}
  {W : StateOp AcmeState AcmeExt → AcmeAsync AcmeReply → AcmeState → Prop}

theorem turn_handleNewAccount (hquiet : ∀ r amb' nonces accountJwks, D r amb' { s with nonces, accountJwks }) :
    Async.turn acmeExec acmeWaits D W (srv.handleNewAccount req) amb s := by
  unfold handleNewAccount
  refine turn_withEnvelope (fun _ r amb' nonces => hquiet r amb' nonces s.accountJwks) fun env header _ _ => ?_
  cases header.jwk with
  | none => exact hquiet _ _ s.nonces s.accountJwks
  | some jwk =>
    dsimp only
    rw [turn_consumeNonce]
    split
    · exact hquiet _ _ _ s.accountJwks
    cases Jws.publicKeyFromJwk jwk with
    | error message => exact hquiet _ _ _ s.accountJwks
    | ok key =>
      simp only [Async.ofExcept, Async.done_bind]
      split
      · exact hquiet _ _ _ s.accountJwks
      · exact hquiet _ _ _ _

theorem turn_handleNewOrder
    (hquiet : orderedBy srv s req = none → ∀ r amb' nonces, D r amb' { s with nonces })
    (hcreated : ∀ accountUrl ident, orderedBy srv s req = some (accountUrl, ident) → ∀ r amb' nonces,
      D r amb' { createOrder srv accountUrl ident amb s with nonces }) :
    Async.turn acmeExec acmeWaits D W (srv.handleNewOrder req) amb s := by
  unfold handleNewOrder
  refine turn_withAccount (fun h => hquiet (by simp [orderedBy, h])) fun env header key hsender => ?_
  rw [decodePayload_eq]
  cases hpayload : readPayload srv env with
  | error message => exact hquiet (by simp [orderedBy, hsender, hpayload]) _ _ _
  | ok payload =>
    rw [Async.done_bind]
    split
    · rename_i hnone
      exact hquiet (by simp [orderedBy, hsender, hpayload, hnone]) _ _ _
    · rename_i ident rest hsome
      rw [turn_shortId, turn_shortId, turn_shortId, turn_randomText, StateOp.turn_modifyState, turn_mintNonce]
      exact hcreated (header.kid.getD "") ident (by simp [orderedBy, hsender, hpayload, hsome]) _ _ _

/-- The handlers that read alone. -/
theorem turn_reads (hquiet : ∀ r amb' nonces, D r amb' { s with nonces }) :
    Async.turn acmeExec acmeWaits D W (srv.handleAuthz req) amb s ∧
      Async.turn acmeExec acmeWaits D W (srv.handleCert req) amb s ∧
      Async.turn acmeExec acmeWaits D W (srv.handleOrder req) amb s := by
  unfold handleAuthz handleCert handleOrder
  refine ⟨?_, ?_, ?_⟩
  all_goals
    refine turn_withAccount (fun _ => hquiet) fun env header key _ => ?_
    rw [StateOp.turn_getState]
    split
    · exact hquiet _ _ _
    · exact hquiet _ _ _

/-- A response to a challenge is declined, or fails the challenge, or passes it. -/
theorem turn_handleChallenge
    (hquiet : responseOf srv s req = none → ∀ r amb' nonces, D r amb' { s with nonces })
    (hfailed : ∀ ch, responseOf srv s req = some (ch, false) → ∀ r amb' nonces,
      D r amb' { setChallengeStatus (dropStart "/chall/" req.url) Status.INVALID s with nonces })
    (hpassed : ∀ ch, responseOf srv s req = some (ch, true) → ∀ r amb' nonces,
      D r amb' { acceptChallenge (dropStart "/chall/" req.url) ch s with nonces }) :
    Async.turn acmeExec acmeWaits D W (srv.handleChallenge req) amb s := by
  unfold handleChallenge
  refine turn_withNonce (fun h => hquiet (by simp [responseOf, h])) fun env header hb hd hnonce => ?_
  rw [StateOp.turn_getState]
  cases hkey : accountKey { s with nonces := s.nonces.filter fun n => n ≠ header.nonce }
      (header.kid.getD "") with
  | error message =>
    have hsame : accountKey s (header.kid.getD "") = .error message := hkey
    exact hquiet (by simp [responseOf, signed, hb, hd, hnonce, hsame]) _ _ _
  | ok key =>
    have hsame : accountKey s (header.kid.getD "") = .ok key := hkey
    simp only [Async.ofExcept, Async.done_bind]
    cases key with
    | none => exact hquiet (by simp [responseOf, signed, hb, hd, hnonce, hsame]) _ _ _
    | some key =>
      dsimp only
      split
      · rename_i hrefused
        exact hquiet (by simp [responseOf, signed, hb, hd, hnonce, hsame, hrefused]) _ _ _
      rename_i hverified
      have hsigned : signed srv s req = some (env, header, key) :=
        signed_iff.2 ⟨hb, hd, hnonce, hsame, not_not.1 hverified⟩
      cases hch : s.challenges.get (dropStart "/chall/" req.url) with
      | none =>
        have hnone : challengeOf s req = none := hch
        exact hquiet (by simp [responseOf, hnone]) _ _ _
      | some ch =>
        have hfound : challengeOf s req = some ch := hch
        dsimp only
        rw [decodePayload_eq]
        cases hpayload : readPayload srv env with
        | error message => exact hquiet (by simp [responseOf, hsigned, hfound, hpayload]) _ _ _
        | ok payload =>
          rw [Async.done_bind]
          have hresponse : responseOf srv s req = some (ch, signsToken srv payload ch.token key) := by
            simp [responseOf, hsigned, hfound, hpayload]
          have hfail : signsToken srv payload ch.token key = false → ∀ r amb',
              D r amb' (setChallengeStatus (dropStart "/chall/" req.url) Status.INVALID
                { s with nonces := s.nonces.filter fun n => n ≠ header.nonce }) := by
            intro hwrong r amb'
            have hd := hfailed ch (hwrong ▸ hresponse) r amb' (s.nonces.filter fun n => n ≠ header.nonce)
            simpa only [setChallengeStatus, hch] using hd
          cases hsig : truthy (payload.bind Payload.agentSignature) with
          | none => exact hfail (by simp [signsToken, hsig]) _ _
          | some signature =>
            dsimp only
            cases hv : srv.ed25519Verify signature ch.token key with
            | error message => exact hfail (by simp [signsToken, hsig, hv]) _ _
            | ok verdict =>
              cases verdict with
              | false => exact hfail (by simp [signsToken, hsig, hv]) _ _
              | true =>
                have hright : signsToken srv payload ch.token key = true := by simp [signsToken, hsig, hv]
                have hpass : ∀ r amb' nonces, D r amb' { acceptChallenge (dropStart "/chall/" req.url) ch
                    { s with nonces := s.nonces.filter fun n => n ≠ header.nonce } with nonces } := by
                  intro r amb' nonces
                  have hd := hpassed ch (hright ▸ hresponse) r amb' nonces
                  simpa only [acceptChallenge, setChallengeStatus, hch] using hd
                dsimp only
                rw [StateOp.turn_modifyState, turn_mintNonce]
                exact hpass _ _ _

/-- The program that a request to finalize an order goes on with when its key is exported. -/
abbrev awaitKey (srv : AcmeServer) (orderId : String) (o : OrderState) (r : Except String String) :
    AcmeAsync AcmeReply :=
  tryCatch (Async.ofExcept r >>= srv.issueCertificate orderId o) fun message => pure (badCsr message)

theorem turn_handleFinalize (hquiet : ∀ r amb' nonces, D r amb' { s with nonces })
    (hbegun : ∀ env header key o csr r nonces, Authentic srv s req env header key → orderOf s req = some o →
      o.status = Status.READY →
      W (.ext (.exportKey csr)) (awaitKey srv (dropStart "/finalize/" req.url) o r) { s with nonces }) :
    Async.turn acmeExec acmeWaits D W (srv.handleFinalize req) amb s := by
  unfold handleFinalize
  refine turn_withAccount (fun _ => hquiet) fun env header key hsender => ?_
  rw [StateOp.turn_getState]
  dsimp only
  split
  · exact hquiet _ _ _
  rename_i o ho
  split
  · exact hquiet _ _ _
  rename_i hready
  rw [decodePayload_eq]
  cases readPayload srv env with
  | error message => exact hquiet _ _ _
  | ok payload =>
    rw [Async.done_bind]
    split
    · exact hquiet _ _ _
    rename_i csr _
    unfold finalizeOrder
    rw [Async.turn_tryCatch]
    cases srv.csrSubject csr with
    | error message => exact hquiet _ _ _
    | ok subject =>
      simp only [Async.ofExcept, Async.done_bind]
      split
      · exact hquiet _ _ _
      rw [StateOp.turn_wait rfl]
      exact hbegun env header key o csr _ _ (sender_some hsender) ho (not_not.1 hready)

/-- **The first turn of a request**: what it does, by its route. -/
theorem turn_handle (hquiet : ∀ r amb' nonces accountJwks, routeOf req ≠ .newOrder → routeOf req ≠ .chall →
      D r amb' { s with nonces, accountJwks })
    (hnewOrder : routeOf req = .newOrder → Async.turn acmeExec acmeWaits D W (srv.handleNewOrder req) amb s)
    (hchall : routeOf req = .chall → Async.turn acmeExec acmeWaits D W (srv.handleChallenge req) amb s)
    (hfinalize : routeOf req = .finalize →
      Async.turn acmeExec acmeWaits D W (srv.handleFinalize req) amb s) :
    Async.turn acmeExec acmeWaits D W (srv.handle req) amb s := by
  unfold handle
  have hsame : ∀ {r amb'} nonces, routeOf req ≠ .newOrder → routeOf req ≠ .chall →
      D r amb' { s with nonces } := fun nonces => hquiet _ _ nonces s.accountJwks
  cases hroute : routeOf req with
  | directory => exact hsame s.nonces (by simp [hroute]) (by simp [hroute])
  | newNonce => exact hsame _ (by simp [hroute]) (by simp [hroute])
  | newAccount =>
    exact turn_handleNewAccount fun _ _ _ _ => hquiet _ _ _ _ (by simp [hroute]) (by simp [hroute])
  | newOrder => exact hnewOrder hroute
  | authz => exact (turn_reads fun _ _ _ => hsame _ (by simp [hroute]) (by simp [hroute])).1
  | chall => exact hchall hroute
  | finalize => exact hfinalize hroute
  | cert => exact (turn_reads fun _ _ _ => hsame _ (by simp [hroute]) (by simp [hroute])).2.1
  | order => exact (turn_reads fun _ _ _ => hsame _ (by simp [hroute]) (by simp [hroute])).2.2
  | none => exact hsame s.nonces (by simp [hroute]) (by simp [hroute])

end Handlers

abbrev FirstTurn (srv : AcmeServer) (s : AcmeState) (req : AcmeRequest) (amb : ℕ → AcmeAmbient)
    (p : AcmeAsync AcmeReply) : Prop :=
  p.turn acmeExec acmeWaits (fun _ _ s' => Effect srv s req amb s') (Begins srv s req) amb s

theorem firstTurn_newOrder (hroute : routeOf req = .newOrder) : FirstTurn srv s req amb (srv.handleNewOrder req) := by
  refine turn_handleNewOrder (fun _ _ _ _ => .quiet ⟨rfl, rfl⟩) fun accountUrl ident h r amb' nonces => ?_
  unfold orderedBy at h
  split at h
  · rename_i env header key hsender
    split at h
    · obtain ⟨ident, -, heq⟩ := Option.map_eq_some_iff.1 h
      cases heq
      exact .created env header key _ _ _ _ hroute (sender_some hsender) rfl rfl rfl rfl rfl rfl rfl rfl
    · cases h
  · cases h

theorem firstTurn_challenge (hroute : routeOf req = .chall) : FirstTurn srv s req amb (srv.handleChallenge req) := by
  refine turn_handleChallenge (fun _ _ _ _ => .quiet ⟨rfl, rfl⟩) (fun ch h r amb' nonces => ?_)
    fun ch h r amb' nonces => ?_
  · obtain ⟨hch, -⟩ := responseOf_some h
    have hget : s.challenges.get (dropStart "/chall/" req.url) = some ch := hch
    refine .failed ch Status.INVALID hch ?_ ?_
    · simp only [setChallengeStatus, hget]
    · simp only [setChallengeStatus, hget]
  · obtain ⟨hch, env, header, key, hauth, htoken⟩ := responseOf_some h
    have hget : s.challenges.get (dropStart "/chall/" req.url) = some ch := hch
    refine .answered env header key ch hroute hch hauth (htoken rfl) ?_ ?_
    · simp only [acceptChallenge, setChallengeStatus, hget]
    · simp only [acceptChallenge, setChallengeStatus, hget]

theorem recording_recordCertificate {orderId leaf : String} {o : OrderState} :
    Recording orderId (srv.recordCertificate orderId o leaf) := by
  intro amb s
  unfold recordCertificate
  rw [turn_shortId, StateOp.turn_modifyState, turn_mintNonce]
  unfold setOrderValid
  dsimp only
  cases ho : s.orders.get orderId with
  | none => exact ⟨rfl, .inl rfl⟩
  | some o => exact ⟨rfl, .inr ⟨o, _, ho, rfl⟩⟩

theorem exporting_issueCertificate {orderId : String} {o : OrderState} {r : Except String String} :
    Exporting o.identifier.value orderId (Async.ofExcept r >>= srv.issueCertificate orderId o) := by
  intro amb s
  cases r with
  | error message => exact ⟨rfl, rfl⟩
  | ok subjectPub =>
    unfold issueCertificate
    simp only [Async.ofExcept, Async.done_bind]
    rw [StateOp.turn_ask rfl]
    simp only [AcmeExt.answer, Async.ofExcept, Async.done_bind]
    rw [turn_randomText, StateOp.turn_wait rfl]
    refine ⟨?_, ⟨rfl, rfl⟩, ?_⟩
    · rintro request ⟨⟩
      rfl
    · intro amb' s'
      simp only [Async.ofExcept]
      cases AcmeExt.answer (amb 2) (.issueLeaf _) with
      | error message => exact ⟨rfl, .inl rfl⟩
      | ok leaf => exact recording_recordCertificate amb' s'

theorem firstTurn_finalize (hroute : routeOf req = .finalize) : FirstTurn srv s req amb (srv.handleFinalize req) :=
  turn_handleFinalize (fun _ _ _ => .quiet ⟨rfl, rfl⟩) fun env header key o _ _ _ hauth ho hready =>
    ⟨nofun, ⟨rfl, rfl⟩, hroute, o, env, header, key, ho, hready, hauth, exporting_issueCertificate.tryCatch⟩

theorem firstTurn_handle : FirstTurn srv s req amb (srv.handle req) :=
  turn_handle (fun _ _ _ _ _ _ => .quiet ⟨rfl, rfl⟩) firstTurn_newOrder firstTurn_challenge firstTurn_finalize

/-- **The first turn of a request** ends with its effect, or a ready order begins to be finalized. -/
theorem firstTurn_dispatch : FirstTurn srv s req amb (srv.dispatch req) := by
  unfold dispatch FirstTurn
  rw [Async.turn_tryCatch]
  refine Async.turn_mono firstTurn_handle (fun r _ _ hr => ?_) fun o p s' ho => ?_
  · cases r <;> exact hr
  · obtain ⟨hno, hsame, hroute, order, env, header, key, hfound, hready, hauth, hexp⟩ := ho
    exact ⟨hno, hsame, hroute, order, env, header, key, hfound, hready, hauth, hexp.tryCatch⟩

end Specs

end NpsSdk.Nip.Acme
