import NpsSdk.Alpha20.ContextBytes
import NpsSdk.Lib.Exchange

/-!
# Admission of an invocation projection

`admitInvocationProjection` as a program: it reads its options and the clock, and it waits for the key
resolver, for the two validators and for the replay store.  Nothing is assumed of what these answer.
-/

namespace NpsSdk.Alpha20

open NpsSdk.Lib

inductive Assurance
  | anonymous | attested | verified

structure ProjectionClaims where
  issuer : String
  key_id : String
  audience : String
  subject : String
  assurance : Assurance
  capabilities : List String
  scope : List String
  issued_at : ℤ
  expires_at : ℤ
  projection_id : String
  request_digest : String

structure FeatureSelection where
  id : String
  revision : JsDouble
deriving DecidableEq

/-- The options, beside the functions in them. -/
structure InvocationAdmissionOptions where
  experimental : Bool
  allowedIssuers : List String
  audience : String
  expectedSubject : Option String := none
  selectedFeatures : List FeatureSelection
  maximumAssurance : String
  allowedCapabilities : List String
  allowedScopes : List String
  clockSkewSeconds : Option JsDouble := none

/-- The input of `claim`. -/
structure ReplayClaim where
  audience : String
  issuer : String
  projectionId : String
  acceptBefore : ℤ
  retainUntil : ℤ

/-- What a replay store answers: one of its three answers, or something else. -/
inductive ReplayAnswer
  | claimed | duplicate | expired | other
  deriving DecidableEq

structure AdmittedInvocation where
  subject : String
  issuer : String
  audience : String
  assurance : Assurance
  capabilities : List String
  scope : List String
  projectionId : String
  request : JsonObject

def levelOf : Assurance → ℕ
  | .anonymous => 0
  | .attested => 1
  | .verified => 2

/-- `levels[name]`, for an own property of `levels`. -/
def levels (name : String) : Option ℕ :=
  if name = "anonymous" then some 0
  else if name = "attested" then some 1
  else if name = "verified" then some 2
  else none

def INVALID : String := "NIP-CONTEXT-INVALID"
def UNTRUSTED : String := "NIP-CONTEXT-UNTRUSTED"
def MISMATCH : String := "NIP-CONTEXT-BINDING-MISMATCH"
def EXPIRED : String := "NIP-CONTEXT-EXPIRED"
def REPLAY : String := "NIP-CONTEXT-REPLAY"
def UNAVAILABLE : String := "NIP-CONTEXT-VERIFIER-UNAVAILABLE"

/-! ### The schema of the claims -/

def fail {α : Type} (code : String) : Except Failure α := .error (.admission code)

def need (p : Prop) [Decidable p] : Except Failure Unit := if p then .ok () else fail INVALID

def bounded (value : String) (maximum : ℕ) : Bool :=
  decide (1 ≤ value.utf8ByteSize) && decide (value.utf8ByteSize ≤ maximum)

def boundedMember (object : JsonObject) (field : String) (maximum : ℕ) : Except Failure String :=
  match JsMap.find field object with
  | some (.str s) => if bounded s maximum then .ok s else fail INVALID
  | _ => fail INVALID

def isLower (c : Char) : Bool := 'a' ≤ c && c ≤ 'z'

def isHex (c : Char) : Bool := c.isDigit || ('a' ≤ c && c ≤ 'f')

/-- The text is `count` lower-case hexadecimal digits. -/
def isHexText (text : List Char) (count : ℕ) : Bool := text.length == count && text.all isHex

/-- A label: a letter, then letters, digits and hyphens, a hyphen not last. -/
def isLabel (label : String) : Bool :=
  match label.toList with
  | [] => false
  | c :: rest =>
    c.isAlpha && rest.all (fun c => c.isAlphanum || c == '-') &&
      (c :: rest).getLast?.all Char.isAlphanum

/-- `nid`: a NID of an agent, a node or an organisation. -/
def isNid (value : String) : Bool :=
  bounded value 512 &&
    match split value ':' with
    | "urn" :: "nps" :: kind :: domain :: rest =>
      (kind == "agent" || kind == "node" || kind == "org") &&
      (match rest with
        | [] => kind == "org"
        | [identifier] => identifier ≠ "" &&
            identifier.toList.all fun c => c.isAlphanum || c == '_' || c == '.' || c == '-'
        | _ => false) &&
      decide (utf16Length domain ≤ 253) &&
      (split domain '.').all fun label => decide (utf16Length label ≤ 63) && isLabel label
    | _ => false

/-- `strings`: an array of at most 64 strings, in the ascending order of their bytes, which is that of
their code points. -/
def strings (maximum : ℕ) : Option JsonValue → Except Failure (List String)
  | some (.arr items) =>
    match items.mapM fun
        | .str s => if bounded s maximum then some s else none
        | _ => none with
    | some texts =>
      if items.length ≤ 64 ∧ texts.IsChain (· < ·) then .ok texts else fail INVALID
    | none => fail INVALID
  | _ => fail INVALID

def integerMember (object : JsonObject) (field : String) : Except Failure ℤ :=
  match JsMap.find field object with
  | some (.num n) => match n.safeInteger with
    | some i => .ok i
    | none => fail INVALID
  | _ => fail INVALID

def assuranceMember (object : JsonObject) : Except Failure Assurance :=
  match JsMap.find "assurance" object with
  | some (.str "anonymous") => .ok .anonymous
  | some (.str "attested") => .ok .attested
  | some (.str "verified") => .ok .verified
  | _ => fail INVALID

def claimFields : List String :=
  ["profile", "revision", "issuer", "key_id", "audience", "subject", "assurance", "capabilities", "scope",
    "issued_at", "expires_at", "projection_id", "request_digest"]

def isText (value : Option JsonValue) (text : String) : Bool :=
  match value with
  | some (.str s) => s == text
  | _ => false

def isNumber (value : Option JsonValue) (number : JsDouble) : Bool :=
  match value with
  | some (.num n) => n == number
  | _ => false

/-- `MAX_SAFE_INTEGER - 5`: an `expires_at` to which 5 can be added safely. -/
def LATEST_EXPIRY : ℤ := 9007199254740986

def hasDigestShape (text : String) : Bool :=
  startsWith text "sha256:" && isHexText (text.toList.drop 7) 64

/-- `claims`: the claims of a payload. -/
def claims (payload : JsonObject) : Except Failure ProjectionClaims := do
  need (payload.length = claimFields.length ∧ ∀ field ∈ claimFields, (JsMap.find field payload).isSome)
  need (isText (JsMap.find "profile" payload) "nps.invocation_context" ∧
    isNumber (JsMap.find "revision" payload) 1)
  let issuer ← boundedMember payload "issuer" 512
  let subject ← boundedMember payload "subject" 512
  need (isNid issuer ∧ isNid subject)
  let key_id ← boundedMember payload "key_id" 128
  need (key_id.toList.all fun c => c.isAlphanum || c == '.' || c == '_' || c == ':' || c == '-')
  let audience ← boundedMember payload "audience" 512
  let assurance ← assuranceMember payload
  let capabilities ← strings 128 (JsMap.find "capabilities" payload)
  let scope ← strings 256 (JsMap.find "scope" payload)
  let issued_at ← integerMember payload "issued_at"
  need (0 ≤ issued_at)
  let expires_at ← integerMember payload "expires_at"
  need (expires_at ≤ LATEST_EXPIRY ∧ issued_at < expires_at ∧ expires_at - issued_at ≤ 60)
  let projection_id ← boundedMember payload "projection_id" 32
  need (isHexText projection_id.toList 32)
  let request_digest ← boundedMember payload "request_digest" 71
  need (hasDigestShape request_digest)
  return { issuer, key_id, audience, subject, assurance, capabilities, scope, issued_at, expires_at,
           projection_id, request_digest }

/-! ### The schema of the request -/

/-- A name of a feature: a lower-case word, then one or more parts after dots. -/
def isFeatureId (id : String) : Bool :=
  match split id '.' with
  | first :: second :: rest =>
    (match first.toList with
      | [] => false
      | c :: cs => isLower c && cs.all fun c => isLower c || c.isDigit) &&
    (second :: rest).all fun part =>
      match part.toList with
      | [] => false
      | c :: cs => isLower c && cs.all fun c => isLower c || c.isDigit || c == '_' || c == '-'
  | _ => false

def requirementOf : JsonValue → Except Failure FeatureSelection
  | .obj pair => do
    need (pair.length = 2)
    let id ← boundedMember pair "id" 96
    need (isFeatureId id)
    match JsMap.find "revision" pair with
    | some (.num revision) =>
      if revision.isInteger ∧ 1 ≤ revision ∧ revision ≤ 65535 then .ok { id, revision } else fail INVALID
    | _ => fail INVALID
  | _ => fail INVALID

/-- The required features, in ascending order, each among the selected ones. -/
def requirementsOf (selected : List FeatureSelection) :
    String → List JsonValue → Except Failure (List FeatureSelection)
  | _, [] => .ok []
  | previous, pair :: pairs => do
    let requirement ← requirementOf pair
    need (¬ unitsLe (utf16 requirement.id) (utf16 previous))
    if requirement ∉ selected then fail MISMATCH
    else do
      let requirements ← requirementsOf selected requirement.id pairs
      return requirement :: requirements

def revisionOf (requirements : List FeatureSelection) (id : String) : Option JsDouble :=
  (requirements.find? fun r => r.id == id).map FeatureSelection.revision

def bodyIsValid (body : JsonObject) : Bool :=
  if isText (JsMap.find "encoding" body) "json" then
    body.length == 2 && (JsMap.find "value" body).isSome
  else
    isText (JsMap.find "encoding" body) "bytes" && body.length == 3 &&
      (match JsMap.find "content_type" body with
        | some (.str s) => bounded s 256
        | _ => false) &&
      match JsMap.find "sha256" body with
        | some (.str s) => hasDigestShape s
        | _ => false

def requestFields : List String :=
  ["protocol", "operation", "target", "idempotency_key", "required_features", "body"]

def checkNames (request : JsonObject) : Except Failure Unit := do
  need (request.length = requestFields.length ∧
    ∀ field ∈ requestFields, (JsMap.find field request).isSome)
  let protocol ← boundedMember request "protocol" 32
  need (protocol.toList.all fun c => decide (0x21 ≤ c.toNat ∧ c.toNat ≤ 0x7e))
  let _ ← boundedMember request "operation" 256
  let _ ← boundedMember request "target" 512
  match JsMap.find "idempotency_key" request with
  | some .null => .ok ()
  | _ => do
    let _ ← boundedMember request "idempotency_key" 128

def requiredFeatures (request : JsonObject) (selected : List FeatureSelection) :
    Except Failure (List FeatureSelection) :=
  match JsMap.find "required_features" request with
  | some (.arr pairs) => do
    need (pairs.length ≤ 32)
    requirementsOf selected "" pairs
  | _ => fail INVALID

def checkBody (request : JsonObject) : Except Failure Unit :=
  match JsMap.find "body" request with
  | some (.obj body) => need (bodyIsValid body)
  | _ => fail INVALID

def requirementsSuffice (requirements : List FeatureSelection) : Bool :=
  decide (revisionOf requirements "nps.invocation_context" = some 1) &&
    ((revisionOf requirements "nps.governed_challenge").isNone ||
      decide (revisionOf requirements "nps.production_runtime" = some 1))

def requestSchema (request : JsonObject) (selected : List FeatureSelection) : Except Failure Unit := do
  checkNames request
  let requirements ← requiredFeatures request selected
  if requirementsSuffice requirements then checkBody request else fail MISMATCH

/-! ### The program -/

/-- What an admission asks. -/
inductive AdmissionOp
  | options
  | clockSeconds
  | resolveKey (issuer keyId : String)
  | validateOperation (request : JsonObject)
  | authorize (claim : ProjectionClaims) (request : JsonObject)
  | claim (input : ReplayClaim)

@[reducible] def AdmissionOp.Res : AdmissionOp → Type
  | .options => InvocationAdmissionOptions
  | .clockSeconds => JsDouble
  | .resolveKey _ _ => Option KeyObject
  | .validateOperation _ => Bool
  | .authorize _ _ => Bool
  | .claim _ => ReplayAnswer

/-- The options and the clock are read at once. -/
def AdmissionOp.waits : AdmissionOp → Bool
  | .options | .clockSeconds => false
  | _ => true

abbrev Admission (α : Type) := Async AdmissionOp AdmissionOp.Res Failure α

variable (host : Host)

def check (p : Prop) [Decidable p] (code : String) : Admission Unit :=
  if p then pure () else throw (.admission code)

def readOptions : Admission InvocationAdmissionOptions := Async.perform AdmissionOp.options

def clockSeconds : Admission JsDouble := Async.perform AdmissionOp.clockSeconds

/-- Whatever is thrown, the verifier is unavailable. -/
def infrastructure {α : Type} (call : Admission α) : Admission α :=
  tryCatch call fun _ => throw (.admission UNAVAILABLE)

def resolveKey (claim : ProjectionClaims) : Admission (Option KeyObject) :=
  infrastructure (Async.perform (AdmissionOp.resolveKey claim.issuer claim.key_id))

def validateOperation (request : JsonObject) : Admission Bool :=
  infrastructure (Async.perform (AdmissionOp.validateOperation request))

def authorize (claim : ProjectionClaims) (request : JsonObject) : Admission Bool :=
  infrastructure (Async.perform (AdmissionOp.authorize claim request))

def claimReplay (input : ReplayClaim) : Admission ReplayAnswer :=
  infrastructure (Async.perform (AdmissionOp.claim input))

def time (claim : ProjectionClaims) (skew : ℤ) : Admission Unit := do
  let clock ← clockSeconds
  match clock.safeInteger with
  | none => throw (.admission UNAVAILABLE)
  | some now => do
    check (0 ≤ now) UNAVAILABLE
    check (claim.issued_at ≤ now + skew) INVALID
    check (now < claim.expires_at + skew) EXPIRED

/-- The claims are within the ceilings of the options. -/
structure Delegated (claim : ProjectionClaims) (options : InvocationAdmissionOptions) : Prop where
  issuer : claim.issuer ∈ options.allowedIssuers
  audience : claim.audience = options.audience
  subject : ∀ subject, options.expectedSubject = some subject → claim.subject = subject
  assurance : ∃ level, levels options.maximumAssurance = some level ∧ levelOf claim.assurance ≤ level
  capabilities : ∀ capability ∈ claim.capabilities, capability ∈ options.allowedCapabilities
  scope : ∀ scope ∈ claim.scope, scope ∈ options.allowedScopes

def delegation (claim : ProjectionClaims) : Admission Unit := do
  let options ← readOptions
  check (claim.issuer ∈ options.allowedIssuers) UNTRUSTED
  check (claim.audience = options.audience ∧
    options.expectedSubject.all (fun subject => claim.subject = subject)) MISMATCH
  check (levels options.maximumAssurance).isSome UNAVAILABLE
  check ((levels options.maximumAssurance).all (fun level => levelOf claim.assurance ≤ level) ∧
    (∀ capability ∈ claim.capabilities, capability ∈ options.allowedCapabilities) ∧
    ∀ scope ∈ claim.scope, scope ∈ options.allowedScopes) MISMATCH

def verifiedBy (projection : UnadmittedProjection) (key : Option KeyObject) : Bool :=
  key.any (checkProjectionSignature host projection)

def checkSchema (request : JsonObject) : Admission Unit := do
  let options ← readOptions
  Async.ofExcept (requestSchema request options.selectedFeatures)

/-- The tolerated difference of the clocks, in seconds. -/
def skewOf (options : InvocationAdmissionOptions) : Except Failure ℤ :=
  match options.clockSkewSeconds.getD 5 with
  | .fin q => if q.den = 1 ∧ 0 ≤ q.num ∧ q.num ≤ 5 then .ok q.num else fail INVALID
  | _ => fail INVALID

/-- What the final recheck and the claim are about. -/
structure Prepared where
  projection : UnadmittedProjection
  claim : ProjectionClaims
  skew : ℤ
  request : RequestDigest

/-- The checks up to the authorization. -/
def prepare (carriers : List String) (requestJson : String) : Admission Prepared := do
  let options ← readOptions
  check options.experimental UNTRUSTED
  let projection ← Async.ofExcept (decodeProjectionBytes host carriers)
  let claim ← Async.ofExcept (claims projection.payload)
  let options ← readOptions
  let skew ← Async.ofExcept (skewOf options)
  let options ← readOptions
  check (claim.issuer ∈ options.allowedIssuers) UNTRUSTED
  let key ← resolveKey claim
  check (verifiedBy host projection key) UNTRUSTED
  delegation claim
  time claim skew
  let request ← Async.ofExcept (requestDigestBytes host requestJson)
  checkSchema request.value
  check (request.digest = claim.request_digest) MISMATCH
  let valid ← validateOperation request.value
  check valid MISMATCH
  let authorized ← authorize claim request.value
  check authorized MISMATCH
  return { projection, claim, skew, request }

/-- The checks that are made again after the authorization. -/
def recheck (x : Prepared) : Admission Unit := do
  let currentKey ← resolveKey x.claim
  check (verifiedBy host x.projection currentKey) UNTRUSTED
  let options ← readOptions
  check options.experimental UNTRUSTED
  delegation x.claim
  checkSchema x.request.value
  time x.claim x.skew

def Prepared.replayClaim (x : Prepared) : ReplayClaim where
  audience := x.claim.audience
  issuer := x.claim.issuer
  projectionId := x.claim.projection_id
  acceptBefore := x.claim.expires_at + x.skew
  retainUntil := x.claim.expires_at + 5

def Prepared.admitted (x : Prepared) : AdmittedInvocation where
  subject := x.claim.subject
  issuer := x.claim.issuer
  audience := x.claim.audience
  assurance := x.claim.assurance
  capabilities := x.claim.capabilities
  scope := x.claim.scope
  projectionId := x.claim.projection_id
  request := x.request.value

def claimProjection (x : Prepared) : Admission AdmittedInvocation := do
  let replay ← claimReplay x.replayClaim
  check (replay ≠ .duplicate) REPLAY
  check (replay ≠ .expired) EXPIRED
  check (replay = .claimed) UNAVAILABLE
  return x.admitted

def admitInvocationProjection (carriers : List String) (requestJson : String) :
    Admission AdmittedInvocation :=
  tryCatch
    (do
      let x ← prepare host carriers requestJson
      recheck host x
      claimProjection x)
    fun
      | .admission code => throw (.admission code)
      | .format => throw (.admission INVALID)
      | .other => throw (.admission UNAVAILABLE)

end NpsSdk.Alpha20
