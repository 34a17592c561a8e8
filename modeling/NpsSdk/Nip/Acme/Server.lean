import NpsSdk.Lib.Async
import NpsSdk.Nip.X509.Certificate

/-!
# The ACME server

`AcmeServer` with the `agent-01` challenge: accounts, orders, authorisations and challenges, and the
handlers that work on them.  A handler starts when the body of its request has been read; it waits
only where it finalizes an order, for the key of the CSR and for the certificate.
-/

namespace NpsSdk.Nip.Acme

open NpsSdk.Lib NpsSdk.Nip.X509

namespace Status

def PENDING : String := "pending"
def READY : String := "ready"
def VALID : String := "valid"
def INVALID : String := "invalid"

end Status

def CHALLENGE_AGENT_01 : String := "agent-01"

def ACME_CHALLENGE_FAILED : String := "NIP-ACME-CHALLENGE-FAILED"

/-! ### Messages -/

structure Jwk where
  kty : String
  crv : String
  x : String
deriving DecidableEq

structure ProtectedHeader where
  nonce : String
  jwk : Option Jwk := none
  kid : Option String := none
deriving DecidableEq

structure Envelope where
  protectedHeader : String
  payload : String
  signature : String
deriving DecidableEq

structure Identifier where
  type : String
  value : String

/-- The members the handlers read of a payload. -/
structure Payload where
  identifiers : Option (List Identifier) := none
  agentSignature : Option String := none
  csr : Option String := none

/-- What parsing a JSON text gives: an exception with its message, null, or a value. -/
inductive Parsed (α : Type) where
  | malformed (message : String)
  | null
  | value (v : α)
deriving DecidableEq

/-- A request whose body has been read. -/
structure AcmeRequest where
  method : String
  url : String
  body : Parsed Envelope
deriving DecidableEq

/-! ### State -/

structure OrderState where
  id : String
  identifier : Identifier
  status : String
  authzId : String
  finalizeUrl : String
  accountUrl : String
  certificateUrl : Option String := none

structure AuthzState where
  id : String
  identifier : Identifier
  status : String
  challengeIds : List String
  accountUrl : String

structure ChallengeState where
  id : String
  type : String
  status : String
  token : String
  authzId : String
  accountUrl : String

structure AcmeState where
  nonces : List String := []
  accountJwks : JsMap String Jwk := .empty
  orders : JsMap String OrderState := .empty
  authzs : JsMap String AuthzState := .empty
  challenges : JsMap String ChallengeState := .empty
  certs : JsMap String String := .empty

/-! ### Responses -/

structure ChallengeView where
  type : String
  url : String
  status : String
  token : String

inductive AcmeBody where
  | directory (newNonce newAccount newOrder : String)
  | empty
  | account (location : String)
  | order (location : Option String) (status : String) (identifier : Identifier) (authorization : String)
      (finalize : String) (certificate : Option String)
  | authz (status : String) (identifier : Identifier) (challenges : List ChallengeView)
  | challenge (view : ChallengeView)
  | pem (text : String)
  | problem (type detail : String)

structure AcmeResponse where
  status : ℕ
  body : AcmeBody
  replayNonce : Option String := none

def problem (status : ℕ) (type detail : String) : AcmeResponse :=
  { status, body := .problem type detail }

def acmeError (name : String) : String := "urn:ietf:params:acme:error:" ++ name

/-! ### What a handler asks of others -/

inductive AcmeExt where
  /-- Random bytes in hexadecimal or base64url. -/
  | random
  | now
  /-- `csr.publicKey.export()`. -/
  | exportKey (csr : String)
  | issueLeaf (request : IssueLeafOptions)

@[reducible] def AcmeExt.Res : AcmeExt → Type
  | .random => String
  | .now => ℤ
  | .exportKey _ => String
  | .issueLeaf _ => String

def AcmeExt.awaited : AcmeExt → Bool
  | .exportKey _ => true
  | .issueLeaf _ => true
  | _ => false

/-- What is found outside the server; an error is the message of an exception. -/
structure AcmeAmbient where
  random : String := ""
  time : ℤ := 0
  exported : Except String String := .ok ""
  leaf : Except String String := .ok ""

def AcmeExt.answer (a : AcmeAmbient) (o : AcmeExt) : Except String o.Res :=
  match o with
  | .random => .ok a.random
  | .now => .ok a.time
  | .exportKey _ => a.exported
  | .issueLeaf _ => a.leaf

/-- A handler; its exceptions are messages. -/
abbrev AcmeAsync := Async (StateOp AcmeState AcmeExt) (StateOp.Res AcmeExt.Res) String

abbrev acmeWaits : StateOp AcmeState AcmeExt → Bool := StateOp.awaited AcmeExt.awaited

abbrev acmeExec : AcmeAmbient → (o : StateOp AcmeState AcmeExt) → AcmeState →
    Except String (o.Res AcmeExt.Res) × AcmeState := StateOp.exec AcmeExt.answer

/-- `none` where the handler ends without an answer. -/
abbrev AcmeReply := Option AcmeResponse

/-! ### The server -/

/-- A server: its options, and what it uses of JSON, of Ed25519 and of PKCS#10. -/
structure AcmeServer where
  baseUrl : String
  caNid : String
  caRootPem : String
  certValidityMs : ℤ
  /-- The JSON value of a base64url text, as a header or as a payload. -/
  decodeHeader : String → Parsed ProtectedHeader
  decodeJson : String → Parsed Payload
  /-- Checks the base64url signature of a text under a base64url key, or the message of the
  exception. -/
  ed25519Verify : (signature message key : String) → Except String Bool
  /-- The subject of a base64url CSR, or the message of the exception. -/
  csrSubject : String → Except String String

namespace Jws

def publicKeyFromJwk (jwk : Jwk) : Except String String :=
  if jwk.kty ≠ "OKP" ∨ jwk.crv ≠ "Ed25519" then
    .error ("JWK is not OKP/Ed25519: kty=" ++ jwk.kty ++ " crv=" ++ jwk.crv)
  else .ok jwk.x

/-- The text an envelope's signature is over. -/
def signingInput (env : Envelope) : String := env.protectedHeader ++ "." ++ env.payload

def verify (srv : AcmeServer) (env : Envelope) (key : String) : Bool :=
  match srv.ed25519Verify env.signature (signingInput env) key, srv.decodeHeader env.protectedHeader with
  | .ok true, .value _ => true
  | _, _ => false

end Jws

/-- The common name of a subject. -/
def subjectCn (subject : String) : Option String :=
  (split subject ',').findSome? fun rdn =>
    let t := trim rdn
    if startsWith t "CN=" then some (String.ofList (unescapeDn (t.toList.drop 3))) else none

def dropStart (start url : String) : String := String.ofList (url.toList.drop start.length)

namespace AcmeServer

variable (srv : AcmeServer)

def randomText : AcmeAsync String := StateOp.ask AcmeExt.random

def shortId (start : String) : AcmeAsync String := do
  let hex ← randomText
  pure (start ++ hex)

def mintNonce : AcmeAsync String := do
  let n ← randomText
  StateOp.modifyState fun s : AcmeState =>
    { s with nonces := if n ∈ s.nonces then s.nonces else s.nonces ++ [n] }
  pure n

def consumeNonce (nonce : String) : AcmeAsync Bool := do
  let s ← StateOp.getState
  StateOp.setState { s with nonces := s.nonces.filter fun n => n ≠ nonce }
  pure (s.nonces.contains nonce)

/-- The key of an account, if there is one of this URL; a JWK of another kind throws. -/
def accountKey (s : AcmeState) (kid : String) : Except String (Option String) :=
  match s.accountJwks.get kid with
  | none => .ok none
  | some jwk => (Jws.publicKeyFromJwk jwk).map some

def verifyAccount (env : Envelope) (header : ProtectedHeader) : AcmeAsync Bool := do
  let s ← StateOp.getState
  match truthy header.kid with
  | none => pure false
  | some kid => do
    let key ← Async.ofExcept (accountKey s kid)
    pure (key.any fun key => Jws.verify srv env key)

def withEnvelope (req : AcmeRequest) (k : Envelope → ProtectedHeader → AcmeAsync AcmeReply) :
    AcmeAsync AcmeReply :=
  match req.body with
  | .malformed message =>
    pure (some (problem 400 (acmeError "malformed") ("body read/parse failed: " ++ message)))
  | .null => pure none
  | .value env =>
    match srv.decodeHeader env.protectedHeader with
    | .malformed message =>
      pure (some (problem 400 (acmeError "malformed") ("malformed protected header: " ++ message)))
    | .null => pure none
    | .value header => k env header

def withNonce (req : AcmeRequest) (k : Envelope → ProtectedHeader → AcmeAsync AcmeReply) :
    AcmeAsync AcmeReply :=
  srv.withEnvelope req fun env header => do
    let fresh ← consumeNonce header.nonce
    if fresh then k env header else pure (some (problem 400 (acmeError "badNonce") "invalid nonce"))

/-- Reads the envelope, consumes its nonce and checks that an account signed it. -/
def withAccount (req : AcmeRequest) (refused : ProtectedHeader → AcmeResponse)
    (k : Envelope → ProtectedHeader → AcmeAsync AcmeReply) : AcmeAsync AcmeReply :=
  srv.withNonce req fun env header => do
    let known ← srv.verifyAccount env header
    if known then k env header else pure (some (refused header))

def unauthorized (_ : ProtectedHeader) : AcmeResponse := problem 401 (acmeError "unauthorized") "bad sig"

def decodePayload (env : Envelope) : AcmeAsync (Option Payload) :=
  if env.payload = "" then pure none
  else match srv.decodeJson env.payload with
    | .malformed message => throw message
    | .null => pure none
    | .value payload => pure (some payload)

def handleDirectory : AcmeReply :=
  let body : AcmeBody := .directory (srv.baseUrl ++ "/new-nonce") (srv.baseUrl ++ "/new-account")
    (srv.baseUrl ++ "/new-order")
  some { status := 200, body }

def handleNewNonce (method : String) : AcmeAsync AcmeReply := do
  let n ← mintNonce
  pure (some { status := if method = "HEAD" then 200 else 204, body := .empty, replayNonce := some n })

def handleNewAccount (req : AcmeRequest) : AcmeAsync AcmeReply :=
  srv.withEnvelope req fun env header =>
    match header.jwk with
    | none =>
      pure (some (problem 400 (acmeError "malformed") "newAccount must include a 'jwk' member"))
    | some jwk => do
      let fresh ← consumeNonce header.nonce
      if ¬ fresh then pure (some (problem 400 (acmeError "badNonce") "invalid nonce"))
      else do
        let key ← Async.ofExcept (Jws.publicKeyFromJwk jwk)
        if ¬ Jws.verify srv env key then
          pure (some (problem 400 (acmeError "malformed") "JWS signature verify failed"))
        else do
          let accountId ← shortId "acc-"
          let accountUrl := srv.baseUrl ++ "/account/" ++ accountId
          StateOp.modifyState fun s : AcmeState =>
            { s with accountJwks := s.accountJwks.set accountUrl jwk }
          let nonce ← mintNonce
          pure (some { status := 201, body := .account accountUrl, replayNonce := some nonce })

def handleNewOrder (req : AcmeRequest) : AcmeAsync AcmeReply :=
  let refused (header : ProtectedHeader) : AcmeResponse :=
    problem 401 (acmeError "accountDoesNotExist") ("unknown kid: " ++ header.kid.getD "<missing>")
  srv.withAccount req refused fun env header => do
    let payload ← srv.decodePayload env
    match (payload.bind Payload.identifiers).getD [] with
    | [] => pure (some (problem 400 (acmeError "malformed") "missing identifiers"))
    | ident :: _ => do
      let orderId ← shortId "ord-"
      let authzId ← shortId "az-"
      let challId ← shortId "ch-"
      let token ← randomText
      let accountUrl := header.kid.getD ""
      let finalizeUrl := srv.baseUrl ++ "/finalize/" ++ orderId
      StateOp.modifyState fun s : AcmeState =>
        { s with
          challenges := s.challenges.set challId
            { id := challId, type := CHALLENGE_AGENT_01, status := Status.PENDING, token, authzId,
              accountUrl }
          authzs := s.authzs.set authzId
            { id := authzId, identifier := ident, status := Status.PENDING, challengeIds := [challId],
              accountUrl }
          orders := s.orders.set orderId
            { id := orderId, identifier := ident, status := Status.PENDING, authzId, finalizeUrl,
              accountUrl } }
      let nonce ← mintNonce
      pure (some { status := 201, replayNonce := some nonce,
                   body := .order (some (srv.baseUrl ++ "/order/" ++ orderId)) Status.PENDING ident
                     (srv.baseUrl ++ "/authz/" ++ authzId) finalizeUrl none })

def challengeView (ch : ChallengeState) : ChallengeView :=
  { type := ch.type, url := srv.baseUrl ++ "/chall/" ++ ch.id, status := ch.status, token := ch.token }

def handleAuthz (req : AcmeRequest) : AcmeAsync AcmeReply :=
  srv.withAccount req unauthorized fun _ _ => do
    let s ← StateOp.getState
    match s.authzs.get (dropStart "/authz/" req.url) with
    | none => pure (some (problem 404 (acmeError "malformed") "no authz"))
    | some az => do
      let challenges := az.challengeIds.filterMap fun cid =>
        (s.challenges.get cid).map srv.challengeView
      let nonce ← mintNonce
      pure (some { status := 200, body := .authz az.status az.identifier challenges,
                   replayNonce := some nonce })

def setChallengeStatus (id status : String) (s : AcmeState) : AcmeState :=
  match s.challenges.get id with
  | none => s
  | some ch => { s with challenges := s.challenges.set id { ch with status } }

def failChallenge (id detail : String) : AcmeAsync AcmeReply := do
  StateOp.modifyState (setChallengeStatus id Status.INVALID)
  pure (some (problem 400 ACME_CHALLENGE_FAILED detail))

def acceptChallenge (id : String) (ch : ChallengeState) (s : AcmeState) : AcmeState :=
  let s := setChallengeStatus id Status.VALID s
  let authzs := match s.authzs.get ch.authzId with
    | none => s.authzs
    | some az => s.authzs.set ch.authzId { az with status := Status.VALID }
  { s with
    authzs
    orders := s.orders.mapValues fun o =>
      if o.authzId = ch.authzId then { o with status := Status.READY } else o }

def handleChallenge (req : AcmeRequest) : AcmeAsync AcmeReply :=
  srv.withNonce req fun env header => do
    let s ← StateOp.getState
    -- the caller's account, which need not be the account of the challenge
    let accountPub ← Async.ofExcept (accountKey s (header.kid.getD ""))
    match accountPub with
    | none => pure (some (problem 401 (acmeError "accountDoesNotExist") "unknown kid"))
    | some accountPub =>
      if ¬ Jws.verify srv env accountPub then
        pure (some (problem 400 (acmeError "malformed") "JWS sig fail"))
      else
        let id := dropStart "/chall/" req.url
        match s.challenges.get id with
        | none => pure (some (problem 404 (acmeError "malformed") "no chall"))
        | some ch => do
          let payload ← srv.decodePayload env
          match truthy (payload.bind Payload.agentSignature) with
          | none => failChallenge id "missing agent_signature in challenge response"
          | some agentSignature =>
            match srv.ed25519Verify agentSignature ch.token accountPub with
            | .error message => failChallenge id ("agent-01 verification error: " ++ message)
            | .ok false => failChallenge id "agent-01 signature did not verify"
            | .ok true => do
              StateOp.modifyState (acceptChallenge id ch)
              let nonce ← mintNonce
              pure (some { status := 200, replayNonce := some nonce,
                           body := .challenge (srv.challengeView { ch with status := Status.VALID }) })

def orderBody (o : OrderState) : AcmeBody :=
  .order none o.status o.identifier (srv.baseUrl ++ "/authz/" ++ o.authzId) o.finalizeUrl o.certificateUrl

def setOrderValid (orderId certUrl : String) (s : AcmeState) : AcmeState :=
  match s.orders.get orderId with
  | none => s
  | some o =>
    let o : OrderState := { o with status := Status.VALID, certificateUrl := some certUrl }
    { s with orders := s.orders.set orderId o }

def recordCertificate (orderId : String) (o : OrderState) (leaf : String) : AcmeAsync AcmeReply := do
  let certId ← shortId "crt-"
  let certUrl := srv.baseUrl ++ "/cert/" ++ certId
  StateOp.modifyState fun s : AcmeState =>
    setOrderValid orderId certUrl { s with certs := s.certs.set certId (leaf ++ srv.caRootPem) }
  let nonce ← mintNonce
  let issued : OrderState := { o with status := Status.VALID, certificateUrl := some certUrl }
  pure (some { status := 200, replayNonce := some nonce, body := srv.orderBody issued })

def issueCertificate (orderId : String) (o : OrderState) (subjectPub : String) : AcmeAsync AcmeReply := do
  let now ← StateOp.ask AcmeExt.now
  let serialNumber ← randomText
  let request : IssueLeafOptions :=
    { subjectNid := o.identifier.value, subjectPublicKey := subjectPub, issuerNid := srv.caNid,
      role := .agent, assuranceLevel := .anonymous, notBefore := now - 60000,
      notAfter := now + srv.certValidityMs, serialNumber }
  let leaf ← StateOp.ask (AcmeExt.issueLeaf request)
  srv.recordCertificate orderId o leaf

def badCsr (message : String) : AcmeReply :=
  some (problem 400 (acmeError "badCSR") ("CSR processing failed: " ++ message))

def finalizeOrder (orderId : String) (o : OrderState) (csr : String) : AcmeAsync AcmeReply :=
  tryCatch
    (do
      let subject ← Async.ofExcept (srv.csrSubject csr)
      let cn := subjectCn subject
      if cn ≠ some o.identifier.value then
        pure (some (problem 400 "NIP-CERT-SUBJECT-NID-MISMATCH" ("CSR subject CN '" ++ cn.getD "" ++
          "' does not match order identifier '" ++ o.identifier.value ++ "'")))
      else do
        let subjectPub ← StateOp.ask (AcmeExt.exportKey csr)
        srv.issueCertificate orderId o subjectPub)
    fun message => pure (badCsr message)

def handleFinalize (req : AcmeRequest) : AcmeAsync AcmeReply :=
  -- any account may finalize any order
  srv.withAccount req unauthorized fun env _ => do
    let s ← StateOp.getState
    let orderId := dropStart "/finalize/" req.url
    match s.orders.get orderId with
    | none => pure (some (problem 404 (acmeError "malformed") "no order"))
    | some o =>
      if o.status ≠ Status.READY then
        pure (some (problem 403 (acmeError "orderNotReady") ("order is in state '" ++ o.status ++
          "', not 'ready'")))
      else do
        let fp ← srv.decodePayload env
        match truthy (fp.bind Payload.csr) with
        | none => pure (some (problem 400 (acmeError "malformed") "missing csr"))
        | some csr => srv.finalizeOrder orderId o csr

def handleCert (req : AcmeRequest) : AcmeAsync AcmeReply :=
  srv.withAccount req unauthorized fun _ _ => do
    let s ← StateOp.getState
    match truthy (s.certs.get (dropStart "/cert/" req.url)) with
    | none => pure (some (problem 404 (acmeError "malformed") "no cert"))
    | some pem => do
      let nonce ← mintNonce
      pure (some { status := 200, body := .pem pem, replayNonce := some nonce })

def handleOrder (req : AcmeRequest) : AcmeAsync AcmeReply :=
  srv.withAccount req unauthorized fun _ _ => do
    let s ← StateOp.getState
    match s.orders.get (dropStart "/order/" req.url) with
    | none => pure (some (problem 404 (acmeError "malformed") "no order"))
    | some o => do
      let nonce ← mintNonce
      pure (some { status := 200, body := srv.orderBody o, replayNonce := some nonce })

inductive AcmeRoute where
  | directory
  | newNonce
  | newAccount
  | newOrder
  | authz
  | chall
  | finalize
  | cert
  | order
  | none
deriving DecidableEq

/-- The handler a request is dispatched to. -/
def routeOf (req : AcmeRequest) : AcmeRoute :=
  if req.method = "GET" ∧ req.url = "/directory" then .directory
  else if req.url = "/new-nonce" then .newNonce
  else if req.method ≠ "POST" then .none
  else if req.url = "/new-account" then .newAccount
  else if req.url = "/new-order" then .newOrder
  else if startsWith req.url "/authz/" then .authz
  else if startsWith req.url "/chall/" then .chall
  else if startsWith req.url "/finalize/" then .finalize
  else if startsWith req.url "/cert/" then .cert
  else if startsWith req.url "/order/" then .order
  else .none

def handle (req : AcmeRequest) : AcmeAsync AcmeReply :=
  match routeOf req with
  | .directory => pure srv.handleDirectory
  | .newNonce => handleNewNonce req.method
  | .newAccount => srv.handleNewAccount req
  | .newOrder => srv.handleNewOrder req
  | .authz => srv.handleAuthz req
  | .chall => srv.handleChallenge req
  | .finalize => srv.handleFinalize req
  | .cert => srv.handleCert req
  | .order => srv.handleOrder req
  | .none => pure (some (problem 404 (acmeError "malformed") "no such resource"))

def serverInternal (message : String) : AcmeReply :=
  some (problem 500 (acmeError "serverInternal") message)

/-- Answers a request; what a handler throws is a server error. -/
def dispatch (req : AcmeRequest) : AcmeAsync AcmeReply :=
  tryCatch (srv.handle req) fun message => pure (serverInternal message)

end AcmeServer

end NpsSdk.Nip.Acme
