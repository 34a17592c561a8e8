import NpsSdk.Nip.IdentFrame

/-!
# The verifier of identity frames

`NipIdentVerifier` of `nip/verifier.ts`, with both of its entry points, and the revocation policy of
`nip/revocation-policy.ts`.  The signature scheme, the byte decoders, the clock, the revocation
sources and the checks of the X.509 chain are parameters; a source that throws answers with an
error.
-/

namespace NpsSdk.Nip

open NpsSdk.Lib

/-! ### Surroundings -/

/-- The signature scheme and the decoders of the host. -/
structure Crypto where
  /-- `ed25519.verify`, or nothing where it throws: signature, message, public key. -/
  ed25519Verify : List UInt8 → ByteArray → List UInt8 → Option Bool
  /-- `Buffer.from(s, "base64")`. -/
  base64 : String → List UInt8
  /-- `Buffer.from(s, "hex")`. -/
  hex : String → List UInt8

/-- The outcome of a verification. -/
structure VerifyResult where
  valid : Bool
  stepFailed : ℕ
  errorCode : Option String := none
  message : Option String := none
  deriving DecidableEq

/-- A passed verification. -/
def VerifyResult.ok : VerifyResult := { valid := true, stepFailed := 0 }

def VerifyResult.fail (stepFailed : ℕ) (errorCode message : String) : VerifyResult :=
  { valid := false, stepFailed := stepFailed, errorCode := some errorCode, message := some message }

/-- What a revocation store knows of a serial. -/
structure NipCertRecord where
  serial : String
  revokedAt : Option String := none
  revokeReason : Option String := none

/-- The answer of an OCSP endpoint; its body may not parse. -/
structure OcspResponse where
  ok : Bool
  status : ℕ
  body : Except String Json

/-- The answer of the X.509 verifier. -/
structure X509Result where
  valid : Bool
  errorCode : Option String := none
  message : Option String := none

/-- The options of a verifier and the answers of its surroundings during one call. -/
structure Services where
  issuerKeys : JsMap String String := JsMap.empty
  /-- Are there trusted X.509 roots? -/
  hasX509Roots : Bool := false
  minAssuranceLevel : Option AssuranceLevel := none
  localRevokedSerials : Option (List String) := none
  revocationCheck : Option (IdentFrame → Except Unit (Option VerifyResult)) := none
  revocationStore : Option (String → Except Unit (Option NipCertRecord)) := none
  ocspUrl : Option String := none
  ocspFailOpen : Bool := false
  /-- Is the revocation mode `required`? -/
  revocationRequired : Bool := false
  phase3Enforcement : Bool := false
  /-- `verify` of `x509/verifier.ts`, against the configured roots. -/
  verifyX509 : IdentFrame → X509Result
  /-- `enforcePhase3`, for the leaf of the verified chain. -/
  enforcePhase3 : IdentFrame → VerifyResult
  /-- The OCSP endpoint: the answer for a NID, or the message of the transport error. -/
  fetchOcsp : String → Except String OcspResponse
  /-- `Date.parse`, or nothing for `NaN`. -/
  dateParse : Json → Option ℤ
  /-- `String(v)`. -/
  stringOf : Json → String
  /-- `s.toLowerCase()`. -/
  toLowerCase : String → String
  now : ℤ

/-- What the node asks of the identity. -/
structure VerifyContext where
  requiredCapabilities : List String := []
  targetNodePath : Option String := none
  asOf : Option ℤ := none

/-! ### Reading the metadata -/

/-- A member of the metadata, `undefined` where the metadata is not an object. -/
def member (metadata : Json) (name : String) : Option Json :=
  match metadata with
  | .obj members => JsMap.find name members
  | _ => none

/-- Is the value true in a condition? -/
def isTruthy : Option Json → Bool
  | none | some .null => false
  | some (.bool b) => b
  | some (.num n) => n.text != ['0']
  | some (.str s) => s != ""
  | some _ => true

def identSerial (frame : IdentFrame) : Option String :=
  match member frame.metadata "serial" with
  | some (.str s) => some s
  | _ => none

def identScopeNodes (frame : IdentFrame) : Option (List Json) :=
  match member frame.metadata "scope" with
  | some (.obj scope) =>
    match JsMap.find "nodes" scope with
    | some (.arr nodes) => some nodes
    | _ => none
  | _ =>
    match member frame.metadata "scopes" with
    | some (.arr scopes) => some scopes
    | _ => none

/-! ### Signature -/

/-- Is the text a non-empty hexadecimal string of even length? -/
def isHex (body : String) : Bool :=
  !body.toList.isEmpty && body.toList.length % 2 == 0 && body.toList.all fun c =>
    c.isDigit || ('a' ≤ c && c ≤ 'f') || ('A' ≤ c && c ≤ 'F')

/-- `s.slice("ed25519:".length)`, for a text with this prefix. -/
def ed25519Body (s : String) : String := String.ofList (s.toList.drop 8)

/-- Reads a public key, or gives the message of the error. -/
def parsePubKeyString (crypto : Crypto) (s : String) : Except String (List UInt8) :=
  if ¬ startsWith s "ed25519:" then .error s!"Unsupported public key format: {s}"
  else
    let body := ed25519Body s
    let bytes := if isHex body then crypto.hex body else crypto.base64 body
    if bytes.length ≠ 32 then .error s!"Ed25519 public key must be 32 bytes, got {bytes.length}"
    else .ok bytes

/-- Reads a signature. -/
def decodeSignature (crypto : Crypto) (body : String) : List UInt8 :=
  let bytes := crypto.base64 body
  if bytes.length = 64 then bytes
  else if isHex body ∧ (crypto.hex body).length = 64 then crypto.hex body
  else bytes

def signedBytes (frame : IdentFrame) : ByteArray :=
  (String.ofList (canonicalJson frame.unsignedDict)).toUTF8

def checkSignature (crypto : Crypto) (frame : IdentFrame) (caPubKeyStr : String) (step : ℕ) :
    VerifyResult :=
  if ¬ startsWith frame.signature "ed25519:" then
    .fail step "NIP-CERT-SIGNATURE-INVALID" "missing or malformed signature"
  else
    match parsePubKeyString crypto caPubKeyStr with
    | .error message =>
      .fail step "NIP-CERT-SIGNATURE-INVALID" s!"v1 signature verification error: {message}"
    | .ok caPubBytes =>
      match crypto.ed25519Verify (decodeSignature crypto (ed25519Body frame.signature))
          (signedBytes frame) caPubBytes with
      | none => .fail step "NIP-CERT-SIGNATURE-INVALID" "v1 signature verification error"
      | some false => .fail step "NIP-CERT-SIGNATURE-INVALID"
          "v1 Ed25519 signature did not verify against issuer CA key"
      | some true => .ok

/-- The X.509 chain of the frame, where both sides opted in. -/
def checkX509 (services : Services) (frame : IdentFrame) (step : ℕ) : VerifyResult :=
  if services.hasX509Roots && frame.certFormat == some "v2-x509" then
    let x509Result := services.verifyX509 frame
    if !x509Result.valid then
      .fail step (x509Result.errorCode.getD "NIP-CERT-FORMAT-INVALID")
        (x509Result.message.getD "X.509 chain validation failed")
    else if services.phase3Enforcement then services.enforcePhase3 frame
    else .ok
  else .ok

/-! ### Revocation -/

/-- What a revocation source says. -/
inductive RevocationOutcome
  | good | revoked | unavailable

def revocationFailure (errorCode : String) : VerifyResult :=
  .fail 4 errorCode "Live revocation verification failed."

/-- The consequence of a source that is not OCSP: nothing, or the failure. -/
def observe : RevocationOutcome → Option VerifyResult
  | .good => none
  | .revoked => some (revocationFailure "NIP-CERT-REVOKED")
  | .unavailable => some (revocationFailure "NIP-OCSP-UNAVAILABLE")

def observeLocal (services : Services) (frame : IdentFrame) : Option VerifyResult :=
  services.localRevokedSerials.bind fun serials =>
    observe (match identSerial frame with
      | some serial => if serial ∈ serials then .revoked else .good
      | none => .good)

def observeCallback (services : Services) (frame : IdentFrame) : Option VerifyResult :=
  services.revocationCheck.bind fun check =>
    match check frame with
    | .ok (some r) => if r.valid then observe .good else some r
    | .ok none => observe .good
    | .error _ => observe .unavailable

def observeStore (services : Services) (frame : IdentFrame) : Option VerifyResult :=
  services.revocationStore.bind fun store =>
    match identSerial frame with
    | none => observe .unavailable
    | some serial =>
      match store serial with
      | .error _ => observe .unavailable
      | .ok record => observe (if (truthy (record.bind NipCertRecord.revokedAt)).isSome then .revoked
          else .good)

def ocspCheck (services : Services) (nid : String) : VerifyResult :=
  let failed (message : String) : VerifyResult :=
    if services.ocspFailOpen then .ok else .fail 4 "NIP-OCSP-UNAVAILABLE" message
  match services.fetchOcsp nid with
  | .error message => failed s!"OCSP call failed for NID {nid}: {message}"
  | .ok response =>
    if !response.ok then failed s!"OCSP endpoint returned {response.status}."
    else
      match response.body with
      | .error message => failed s!"OCSP call failed for NID {nid}: {message}"
      | .ok body =>
        match member body "valid" with
        | some (.bool true) => .ok
        | _ =>
          let errorCode := match member body "error_code" with
            | some (.str code) => code
            | _ => "NIP-CERT-REVOKED"
          .fail 4 errorCode s!"OCSP check failed for NID {nid}."

/-- Is any revocation source configured? -/
def hasRevocationSource (services : Services) : Bool :=
  services.localRevokedSerials.isSome || services.revocationCheck.isSome ||
    services.revocationStore.isSome || (truthy services.ocspUrl).isSome

/-- The revocation step: the sources in turn, and the policy when there is none. -/
def checkRevocation (services : Services) (frame : IdentFrame) : VerifyResult :=
  match observeLocal services frame with
  | some r => r
  | none =>
  match observeCallback services frame with
  | some r => r
  | none =>
  match observeStore services frame with
  | some r => r
  | none =>
  let ocsp := if (truthy services.ocspUrl).isSome then ocspCheck services frame.nid else .ok
  if !ocsp.valid then ocsp
  else if services.revocationRequired && !hasRevocationSource services then
    revocationFailure "NIP-OCSP-UNAVAILABLE"
  else .ok

/-! ### Capabilities and scope -/

/-- The capabilities as a set, or nothing where they cannot be iterated. -/
def heldCapabilities (frame : IdentFrame) : Option (List String) :=
  match member frame.metadata "capabilities" with
  | none | some .null => some []
  | some (.arr items) => some (items.filterMap fun | .str s => some s | _ => none)
  | some (.str s) => some (s.toList.map fun c => String.ofList [c])
  | some _ => none

/-- Does a node path match a pattern? -/
def nwpPathMatches (toLowerCase : String → String) (pattern path : String) : Bool :=
  if pattern = "*" then true
  else if "*/".toList.isPrefixOf pattern.toList.reverse then
    let pre := String.ofList (pattern.toList.take (pattern.toList.length - 2))
    startsWith (toLowerCase path) (toLowerCase pre) &&
      (utf16Length path == utf16Length pre || (utf16 path)[utf16Length pre]? == some 0x2f)
  else toLowerCase pattern == toLowerCase path

def checkScope (services : Services) (frame : IdentFrame) (targetPath : String) : VerifyResult :=
  match identScopeNodes frame with
  | none => .fail 6 "NIP-CERT-SCOPE-VIOLATION" "IdentFrame scope is missing 'nodes' field."
  | some nodes =>
    if nodes.any fun | .str p => nwpPathMatches services.toLowerCase p targetPath | _ => false then
      .ok
    else
      .fail 6 "NIP-CERT-SCOPE-VIOLATION"
        s!"Target path '{targetPath}' is not covered by the certificate scope."

/-! ### The entry points -/

/-- The failure for an issuer whose key is not known; a name that every object inherits finds
something that is not a key. -/
def missingIssuer (frame : IdentFrame) (step : ℕ) (issuer message : String) : VerifyResult :=
  if issuer = "__proto__" ∨ issuer ∈ inheritedNames then
    .fail step "NIP-CERT-SIGNATURE-INVALID"
      (if startsWith frame.signature "ed25519:" then
        "v1 signature verification error: s.startsWith is not a function"
      else "missing or malformed signature")
  else .fail step "NIP-CERT-UNTRUSTED-ISSUER" message

def verify (crypto : Crypto) (services : Services) (frame : IdentFrame) (issuerNid : String) :
    VerifyResult :=
  match services.issuerKeys.get issuerNid with
  | none => missingIssuer frame 1 issuerNid s!"no trusted CA public key for issuer: {issuerNid}"
  | some caPubKeyStr =>
    let sigResult := checkSignature crypto frame caPubKeyStr 1
    if !sigResult.valid then sigResult
    else
      let got := frame.assuranceLevel.getD .anonymous
      match services.minAssuranceLevel with
      | some minLevel =>
        if !got.meetsOrExceeds minLevel then
          .fail 2 "NIP-ASSURANCE-MISMATCH"
            s!"assurance_level ({got.wire}) below required minimum ({minLevel.wire})"
        else checkX509 services frame 3
      | none => checkX509 services frame 3

def issuedBy (services : Services) (frame : IdentFrame) : String :=
  ((member frame.metadata "issuer").map services.stringOf).getD "undefined"

/-- The steps after the signature. -/
def verifyRest (services : Services) (frame : IdentFrame) (context : VerifyContext) :
    Option VerifyResult :=
  let x509Result := checkX509 services frame 3
  if !x509Result.valid then some x509Result
  else
    let revResult := checkRevocation services frame
    if !revResult.valid then some revResult
    else
      let scope := match context.targetNodePath with
        | some path => checkScope services frame path
        | none => .ok
      if context.requiredCapabilities.isEmpty then some scope
      else
        (heldCapabilities frame).map fun held =>
          let missing := context.requiredCapabilities.filter fun c => decide (c ∉ held)
          if !missing.isEmpty then
            let names := join ", " missing
            .fail 5 "NIP-CERT-CAPABILITY-MISSING"
              s!"Certificate is missing required capabilities: {names}."
          else scope

/-- The six-step verification; nothing where it throws. -/
def verifyIdent (crypto : Crypto) (services : Services) (frame : IdentFrame)
    (context : VerifyContext) : Option VerifyResult :=
  let now := context.asOf.getD services.now
  match frame.metadata with
  | .null => none
  | _ =>
    let expiresAtStr := member frame.metadata "expiresAt"
    let expiresAt := if isTruthy expiresAtStr then expiresAtStr.bind services.dateParse else none
    match expiresAt with
    | none =>
      let shown := (expiresAtStr.map services.stringOf).getD "<missing>"
      some (.fail 1 "NIP-CERT-EXPIRED" s!"Certificate expired at {shown}.")
    | some t =>
      if t ≤ now then
        let shown := (expiresAtStr.map services.stringOf).getD "<missing>"
        some (.fail 1 "NIP-CERT-EXPIRED" s!"Certificate expired at {shown}.")
      else
        let issuedBy := issuedBy services frame
        match services.issuerKeys.get issuedBy with
        | none => some (missingIssuer frame 2 issuedBy
            s!"Issuer '{issuedBy}' is not in the trusted issuers list.")
        | some issuerPubKeyEncoded =>
          let sigResult := checkSignature crypto frame issuerPubKeyEncoded 3
          if !sigResult.valid then some sigResult
          else verifyRest services frame context

variable {frame : IdentFrame} {services : Services} {context : VerifyContext}

theorem verifyIdent_eq {crypto : Crypto} {expiresAt : Json} {t : ℤ} {key : String}
    (hmember : member frame.metadata "expiresAt" = some expiresAt)
    (htruthy : isTruthy (some expiresAt) = true) (hdate : services.dateParse expiresAt = some t)
    (hfresh : context.asOf.getD services.now < t) (hkey : services.issuerKeys.get (issuedBy services frame) = some key)
    (hsig : (checkSignature crypto frame key 3).valid = true) :
    verifyIdent crypto services frame context = verifyRest services frame context := by
  have hnull : frame.metadata ≠ .null := by
    intro h
    rw [h] at hmember
    cases hmember
  unfold verifyIdent
  split
  · exact absurd ‹_› hnull
  · simp only [hmember, htruthy, if_true, Option.bind_some, hdate, hkey, hsig, Bool.not_true]
    rw [if_neg (by omega)]
    rfl

/-! ### Revoked serials -/

theorem checkRevocation_listed {serial : String} {serials : List String} (hserial : identSerial frame = some serial)
    (hlocal : services.localRevokedSerials = some serials) (hmem : serial ∈ serials) :
    (checkRevocation services frame).valid = false := by
  have hobs : observeLocal services frame = some (revocationFailure "NIP-CERT-REVOKED") := by
    simp [observeLocal, hlocal, hserial, hmem, observe]
  unfold checkRevocation
  rw [hobs]
  rfl

theorem observeLocal_invalid {r : VerifyResult} (h : observeLocal services frame = some r) : r.valid = false := by
  unfold observeLocal at h
  obtain ⟨serials, -, h⟩ := Option.bind_eq_some_iff.1 h
  split at h
  · split at h
    · cases h
      rfl
    · cases h
  · cases h

theorem observeCallback_invalid {r : VerifyResult}
    (h : observeCallback services frame = some r) : r.valid = false := by
  unfold observeCallback at h
  obtain ⟨check, -, h⟩ := Option.bind_eq_some_iff.1 h
  split at h
  · rename_i r' _
    split at h
    · cases h
    · rename_i hr
      cases h
      simpa using hr
  · cases h
  · cases h
    rfl

theorem checkRevocation_stored {serial : String}
    {store : String → Except Unit (Option NipCertRecord)} {record : NipCertRecord}
    (hserial : identSerial frame = some serial) (hstore : services.revocationStore = some store)
    (hrecord : store serial = .ok (some record)) (hrevoked : (truthy record.revokedAt).isSome = true) :
    (checkRevocation services frame).valid = false := by
  have hobs : observeStore services frame = some (revocationFailure "NIP-CERT-REVOKED") := by
    simp [observeStore, hstore, hserial, hrecord, hrevoked, observe]
  unfold checkRevocation
  -- the sources before the store reject the frame, or leave it to the store
  cases hlocal : observeLocal services frame with
  | some r => exact observeLocal_invalid hlocal
  | none =>
    cases hcallback : observeCallback services frame with
    | some r => exact observeCallback_invalid hcallback
    | none =>
      rw [hobs]
      rfl

theorem missingIssuer_invalid {step : ℕ} {issuer message : String} :
    (missingIssuer frame step issuer message).valid = false := by
  unfold missingIssuer
  split
  · rfl
  · rfl

theorem verifyIdent_issuer {crypto : Crypto}
    {v : VerifyResult} (hv : verifyIdent crypto services frame context = some v)
    (hvalid : v.valid = true) : ∃ key, services.issuerKeys.get (issuedBy services frame) = some key := by
  cases hkey : services.issuerKeys.get (issuedBy services frame) with
  | some key => exact ⟨key, rfl⟩
  | none =>
    unfold verifyIdent at hv
    split at hv
    · cases hv
    dsimp only at hv
    split at hv
    · cases hv
      cases hvalid
    split at hv
    · cases hv
      cases hvalid
    rw [hkey] at hv
    cases hv
    rw [missingIssuer_invalid] at hvalid
    cases hvalid

theorem verifyIdent_invalid {crypto : Crypto} {v : VerifyResult} (h : (checkRevocation services frame).valid = false)
    (hv : verifyIdent crypto services frame context = some v) : v.valid = false := by
  have hrest : ∀ v, verifyRest services frame context = some v → v.valid = false := by
    intro v hv
    unfold verifyRest at hv
    dsimp only at hv
    split at hv
    · rename_i hx
      cases hv
      simpa using hx
    · rw [if_pos (by simp [h])] at hv
      cases hv
      exact h
  unfold verifyIdent at hv
  split at hv
  · cases hv
  dsimp only at hv
  split at hv
  · cases hv
    rfl
  split at hv
  · cases hv
    rfl
  split at hv
  · cases hv
    exact missingIssuer_invalid
  split at hv
  · rename_i hsig
    cases hv
    simpa using hsig
  · exact hrest v hv

end NpsSdk.Nip
