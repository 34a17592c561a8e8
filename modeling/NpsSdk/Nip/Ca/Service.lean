import NpsSdk.Nip.Ca.Effects
import NpsSdk.Nip.Ca.Signer

/-!
# The CA service

`NipCaService`: registration, groups, sessions, renewal, revocation and verification, as calls over
the certificate store.  A call touches the store only in its awaited operations, in the order of the
source.
-/

namespace NpsSdk.Nip.Ca

open NpsSdk.Lib

namespace NipErrorCodes

def CertExpired : String := "NIP-CERT-EXPIRED"
def CertRevoked : String := "NIP-CERT-REVOKED"
def CertCapMissing : String := "NIP-CERT-CAPABILITY-MISSING"
def NidNotFound : String := "NIP-CA-NID-NOT-FOUND"
def NidAlreadyExists : String := "NIP-CA-NID-ALREADY-EXISTS"
def RenewalTooEarly : String := "NIP-CA-RENEWAL-TOO-EARLY"
def ScopeExpansion : String := "NIP-CA-SCOPE-EXPANSION-DENIED"
def GroupRevoked : String := "NIP-CA-GROUP-REVOKED"
def ParentNotFound : String := "NIP-CA-PARENT-NOT-FOUND"
def ParentNotGroup : String := "NIP-CA-PARENT-NOT-GROUP"
def SessionValidityInvalid : String := "NIP-CA-SESSION-VALIDITY-INVALID"
def ParentRevoked : String := "NIP-CERT-PARENT-REVOKED"
def CertFormatInvalid : String := "NIP-CERT-FORMAT-INVALID"

end NipErrorCodes

inductive EnrollmentTier where
  | allowlist
  | bootstrapToken
  | pendingQueue

structure ResolvedNipCaOptions where
  caNid : String
  agentCertValidityDays : ℤ := 30
  nodeCertValidityDays : ℤ := 90
  renewalWindowDays : ℤ := 7
  groupCertValidityDays : ℤ := 365
  sessionDefaultValidityMs : ℤ := 3600000
  sessionMaxValidityMs : ℤ := 24 * 3600000
  sessionMinValidityMs : ℤ := 60000
  sessionJwsClockSkewMs : ℤ := 5 * 60000
  routePrefix : String := ""
  operatorApiKey : Option String := none
  allowedCapabilities : Option (List String) := none
  enrollmentTier : EnrollmentTier := .allowlist
  enrollmentAllowlistPatterns : List String := ["*"]
  bootstrapTokenMaxTtlMs : ℤ := 24 * 3600000
  pendingQueueMaxSize : ℕ := 1000

structure CaIdentFrame where
  frame : String := "0x20"
  nid : String
  pubKey : String
  capabilities : List String
  scope : Json
  issuedBy : String
  issuedAt : String
  expiresAt : String
  serial : String
  signature : String
  metadata : Option Json := none
  assuranceLevel : Option String := none
  lineage : Option Json := none
  certFormat : Option String := none
  certChain : Option (List String) := none

structure CaRevokeFrame where
  frame : String := "0x22"
  targetNid : String
  serial : String
  reason : String
  revokedAt : String
  signerNid : String
  signature : String

structure NipVerifyResult where
  valid : Bool
  errorCode : Option String := none
  message : Option String := none
  record : Option NipCertRecord := none

/-- The service: its options, the host's `JSON.parse` (none where it throws), and the Ed25519
signature of its key over a text. -/
structure NipCaService where
  opts : ResolvedNipCaOptions
  parseJson : String → Option Json
  sign : String → String

/-! ### Lineage -/

def buildLineage (fields : List (String × Option String)) : Json :=
  .obj (fields.filterMap fun f => f.2.map fun v => (f.1, .str v))

namespace NipCaService

variable (ca : NipCaService)

def extractLineageString (lineageJson : Option String) (field : String) : Option String :=
  match truthy lineageJson with
  | none => none
  | some text =>
    match ca.parseJson text with
    | some (.obj members) =>
      match JsMap.find field members with
      | some (.str v) => some v
      | _ => none
    | _ => none

/-! ### Parts of the calls -/

def buildNid (entityType identifier : String) : String :=
  let parts := split ca.opts.caNid ':'
  let domain := if 4 ≤ parts.length then parts.getD 3 "" else ca.opts.caNid
  "urn:nps:" ++ entityType ++ ":" ++ domain ++ ":" ++ identifier

def checkCapabilities (capabilities : List String) : CaAsync Unit :=
  match ca.opts.allowedCapabilities with
  | none => pure ()
  | some allowed =>
    let disallowed := capabilities.filter fun c => !allowed.contains c
    if disallowed ≠ [] then
      throw (.nipCa ("Capabilities not permitted by this CA: " ++ join ", " disallowed)
        NipErrorCodes.CertCapMissing)
    else pure ()

def validityOf (entityType : String) : ℤ :=
  (if entityType = "node" then ca.opts.nodeCertValidityDays else ca.opts.agentCertValidityDays) *
    86400000

def isoDate (d : ℤ) : CaAsync String :=
  match isoRoundTrip d with
  | some text => pure text
  | none => throw (.error "Invalid time value")

def parse (text : String) : CaAsync Json :=
  match ca.parseJson text with
  | some value => pure value
  | none => throw (.error "SyntaxError")

/-- Signs a frame for a certificate. -/
def issueFrame (nid pubKey : String) (capabilities : List String) (scopeJson : String)
    (issuedAt expiresAt : ℤ) (serial : String) (metadataJson assuranceLevel : Option String)
    (lineage : Option Json) : CaAsync CaIdentFrame := do
  let scope ← ca.parse scopeJson
  let issuedAtStr ← isoDate issuedAt
  let expiresAtStr ← isoDate expiresAt
  let payload : Json := .obj (
    [("capabilities", .arr (capabilities.map .str)), ("expires_at", .str expiresAtStr),
      ("frame", .str "0x20"), ("issued_at", .str issuedAtStr), ("issued_by", .str ca.opts.caNid),
      ("nid", .str nid), ("pub_key", .str pubKey), ("scope", scope), ("serial", .str serial)] ++
    (assuranceLevel.map fun level => ("assurance_level", Json.str level)).toList ++
    (lineage.map fun l => ("lineage", l)).toList)
  let frame : CaIdentFrame :=
    { nid, pubKey, capabilities, scope, issuedBy := ca.opts.caNid, issuedAt := issuedAtStr,
      expiresAt := expiresAtStr, serial, signature := signArtifact ca.sign payload,
      assuranceLevel, lineage }
  match metadataJson with
  | none => pure frame
  | some text => do
    let metadata ← ca.parse text
    pure { frame with metadata := some metadata }

/-- Signs the frame of a new record and saves the record: the end every issuing call has. -/
def issue (record : NipCertRecord) (assuranceLevel : Option String) (lineage : Option Json) :
    CaAsync CaIdentFrame := do
  let frame ← ca.issueFrame record.nid record.pubKey record.capabilities record.scopeJson
    record.issuedAt record.expiresAt record.serial record.metadataJson assuranceLevel lineage
  saveCert record
  pure frame

def refuseExisting (nid : String) : CaAsync Unit := do
  match ← getByNid nid with
  | some _ => throw (.nipCa ("NID already exists: " ++ nid) NipErrorCodes.NidAlreadyExists)
  | none => pure ()

/-! ### Registration -/

def register (entityType identifier pubKey : String) (capabilities : List String)
    (scopeJson : String) (metadataJson : Option String) : CaAsync CaIdentFrame := do
  let nid := ca.buildNid entityType identifier
  refuseExisting nid
  ca.checkCapabilities capabilities
  let now ← readClock
  let expiresAt := now + ca.validityOf entityType
  let serial ← nextSerial
  ca.issue
    { nid, entityType, serial, pubKey, capabilities, scopeJson, issuedBy := ca.opts.caNid,
      issuedAt := now, expiresAt, metadataJson } none none

def registerX509 (entityType identifier pubKey : String) (capabilities : List String)
    (scopeJson : String) (chain : List String) (assuranceLevel : String)
    (metadataJson : Option String) : CaAsync CaIdentFrame := do
  if ¬ startsWith pubKey "ed25519:" then
    throw (.nipCa ("X.509 issuance requires an ed25519:* pubkey; got '" ++ pubKey ++ "'.")
      NipErrorCodes.CertFormatInvalid)
  else
    let nid := ca.buildNid entityType identifier
    refuseExisting nid
    ca.checkCapabilities capabilities
    let now ← readClock
    let expiresAt := now + ca.validityOf entityType
    let serial ← nextSerial
    let v1Frame ← ca.issue
      { nid, entityType, serial, pubKey, capabilities, scopeJson, issuedBy := ca.opts.caNid,
        issuedAt := now, expiresAt, metadataJson } (some assuranceLevel) none
    pure { v1Frame with certFormat := some "v2-x509", certChain := some chain }

/-- The identifier of a new group: the reserved prefix is required, and made up with random digits
when there is no identifier. -/
def groupIdentifier (identifier : Option String) : CaAsync String :=
  match truthy identifier with
  | none => do
    let hex ← randomHex 16
    pure ("group-" ++ hex)
  | some id =>
    if startsWith id "group-" then pure id
    else throw (.nipCa ("Group identifier MUST start with reserved prefix 'group-' (got '" ++ id ++
      "'). NPS-3 §3.1.") NipErrorCodes.NidAlreadyExists)

def registerGroup (identifier : Option String) (pubKey : String) (capabilities : List String)
    (scopeJson : String) (ownerUserId ownerKeyId metadataJson : Option String) :
    CaAsync CaIdentFrame := do
  let id ← groupIdentifier identifier
  let nid := ca.buildNid "agent" id
  refuseExisting nid
  ca.checkCapabilities capabilities
  let now ← readClock
  let expiresAt := now + ca.opts.groupCertValidityDays * 86400000
  let serial ← nextSerial
  let lineage := buildLineage [("role", some NID_ROLE_GROUP), ("owner_user_id", ownerUserId),
    ("owner_key_id", ownerKeyId)]
  ca.issue
    { nid, entityType := "agent", serial, pubKey, capabilities, scopeJson,
      issuedBy := ca.opts.caNid, issuedAt := now, expiresAt, metadataJson,
      nidRole := some NID_ROLE_GROUP, parentNid := none, lineageJson := some (canonicalJson lineage) }
    none (some lineage)

/-! ### Sessions -/

def resolveGroup (groupNid : String) : CaAsync NipCertRecord := do
  match ← getByNid groupNid with
  | none =>
    throw (.nipCa ("Group NID not found: " ++ groupNid ++ ".") NipErrorCodes.ParentNotFound)
  | some group =>
    if group.nidRole ≠ some NID_ROLE_GROUP then
      throw (.nipCa ("NID '" ++ groupNid ++ "' is not registered as a group (role='" ++
        group.nidRole.getD "<null>" ++ "').") NipErrorCodes.ParentNotGroup)
    else if group.revokedAt.isSome then
      throw (.nipCa ("Group " ++ groupNid ++ " was revoked; cannot issue new sessions.")
        NipErrorCodes.GroupRevoked)
    else do
      let now ← readClock
      if group.expiresAt < now then
        throw (.nipCa ("Group " ++ groupNid ++ " expired; cannot issue new sessions.")
          NipErrorCodes.CertExpired)
      else pure group

def checkSessionValidity (v : ℤ) : CaAsync Unit :=
  if v < ca.opts.sessionMinValidityMs ∨ ca.opts.sessionMaxValidityMs < v then
    throw (.nipCa ("Session validity must be in [" ++ toString ca.opts.sessionMinValidityMs ++ ", " ++
      toString ca.opts.sessionMaxValidityMs ++ "] ms; got " ++ toString v ++ ".")
      NipErrorCodes.SessionValidityInvalid)
  else pure ()

/-- The capabilities of a session: the group's, or a part of them. -/
def sessionCapabilities (group : NipCertRecord) (capabilities : Option (List String)) :
    CaAsync (List String) :=
  match capabilities with
  | none => pure group.capabilities
  | some capabilities =>
    let expansion := capabilities.filter fun c => !group.capabilities.contains c
    if expansion ≠ [] then
      throw (.nipCa ("Session capabilities not in parent group: " ++ join ", " expansion ++ ".")
        NipErrorCodes.ScopeExpansion)
    else pure capabilities

def issueSession (groupNid sessionPubKey : String) (validityMs : Option ℤ) (purpose : Option String)
    (capabilities : Option (List String)) (scopeJson metadataJson : Option String) :
    CaAsync CaIdentFrame := do
  let group ← resolveGroup groupNid
  let v := validityMs.getD ca.opts.sessionDefaultValidityMs
  ca.checkSessionValidity v
  let sessionCaps ← sessionCapabilities group capabilities
  let sessionScopeJson := scopeJson.getD group.scopeJson
  let unixTime ← readClock
  let hex ← randomHex 8
  let sessionId := "session-" ++ toString (unixTime / 1000) ++ "-" ++ hex
  let sessionNid := ca.buildNid "agent" sessionId
  let now ← readClock
  let expiresAt := now + v
  let serial ← nextSerial
  let lineage := buildLineage [("role", some NID_ROLE_SESSION), ("parent_nid", some groupNid),
    ("group_nid", some groupNid), ("session_id", some sessionId), ("purpose", purpose),
    ("owner_user_id", ca.extractLineageString group.lineageJson "owner_user_id"),
    ("owner_key_id", ca.extractLineageString group.lineageJson "owner_key_id")]
  ca.issue
    { nid := sessionNid, entityType := "agent", serial, pubKey := sessionPubKey,
      capabilities := sessionCaps, scopeJson := sessionScopeJson, issuedBy := ca.opts.caNid,
      issuedAt := now, expiresAt, metadataJson, nidRole := some NID_ROLE_SESSION,
      parentNid := some groupNid, lineageJson := some (canonicalJson lineage) }
    none (some lineage)

def listSessions (groupNid : String) : CaAsync (List NipCertRecord) := getByParentNid groupNid

def getCert (nid : String) : CaAsync (Option NipCertRecord) := getByNid nid

/-! ### Renewal -/

def renewable (nid : String) : CaAsync NipCertRecord := do
  match ← getByNid nid with
  | none => throw (.nipCa ("NID not found: " ++ nid) NipErrorCodes.NidNotFound)
  | some record =>
    if record.revokedAt.isSome then
      throw (.nipCa ("NID is revoked: " ++ nid) NipErrorCodes.CertRevoked)
    else pure record

def renew (nid : String) : CaAsync CaIdentFrame := do
  let record ← renewable nid
  let now ← readClock
  let renewWindowStart := record.expiresAt - ca.opts.renewalWindowDays * 86400000
  if now < renewWindowStart then do
    let opens ← isoDate renewWindowStart
    throw (.nipCa ("Renewal window opens " ++ opens ++ ". Too early to renew.")
      NipErrorCodes.RenewalTooEarly)
  else
    let expiresAt := now + ca.validityOf record.entityType
    let serial ← nextSerial
    -- role, parent and lineage of the record are not carried over
    ca.issue
      { nid, entityType := record.entityType, serial, pubKey := record.pubKey,
        capabilities := record.capabilities, scopeJson := record.scopeJson,
        issuedBy := ca.opts.caNid, issuedAt := now, expiresAt,
        metadataJson := record.metadataJson } none none

/-! ### Revocation -/

def cascade (now : ℤ) : List NipCertRecord → CaAsync Unit
  | [] => pure ()
  | child :: children =>
    if child.revokedAt.isSome then cascade now children
    else do
      let _ ← revokeCert child.nid "parent_revoked" now
      cascade now children

def revoke (nid reason : String) : CaAsync CaRevokeFrame := do
  match ← getByNid nid with
  | none => throw (.nipCa ("NID not found: " ++ nid) NipErrorCodes.NidNotFound)
  | some record => do
    let now ← readClock
    let revoked ← revokeCert nid reason now
    if ¬ revoked then
      throw (.nipCa ("Failed to revoke " ++ nid ++ ".") NipErrorCodes.NidNotFound)
    else do
      if record.nidRole = some NID_ROLE_GROUP then do
        let children ← getByParentNid nid
        cascade now children
      else pure ()
      let revokedAtStr ← isoDate now
      let payload : Json := .obj [("frame", .str "0x22"), ("target_nid", .str nid),
        ("serial", .str record.serial), ("reason", .str reason), ("revoked_at", .str revokedAtStr),
        ("signer_nid", .str ca.opts.caNid)]
      pure { targetNid := nid, serial := record.serial, reason, revokedAt := revokedAtStr,
             signerNid := ca.opts.caNid, signature := signArtifact ca.sign payload }

/-! ### Verification -/

/-- The check of the parent a record names, if it names one. -/
def verifyParent (record : NipCertRecord) : CaAsync NipVerifyResult :=
  match truthy record.parentNid with
  | none => pure { valid := true, record := some record }
  | some parentNid => do
    let failure (message : String) : NipVerifyResult :=
      { valid := false, errorCode := some NipErrorCodes.ParentRevoked,
        message := some ("Parent " ++ message) }
    match ← getByNid parentNid with
    | none => pure (failure ("NID " ++ parentNid ++ " not found."))
    | some parent =>
      if parent.revokedAt.isSome then pure (failure (parentNid ++ " revoked."))
      else do
        let now ← readClock
        if parent.expiresAt < now then pure (failure (parentNid ++ " expired."))
        else pure { valid := true, record := some record }

def verify (nid : String) : CaAsync NipVerifyResult := do
  match ← getByNid nid with
  | none =>
    pure { valid := false, errorCode := some NipErrorCodes.NidNotFound,
           message := some "NID not found." }
  | some record =>
    match record.revokedAt with
    | some revokedAt => do
      let revokedAtStr ← isoDate revokedAt
      pure { valid := false, errorCode := some NipErrorCodes.CertRevoked,
             message := some ("Revoked at " ++ revokedAtStr ++ ": " ++ record.revokeReason.getD "") }
    | none => do
      let now ← readClock
      if record.expiresAt < now then do
        let expiresAtStr ← isoDate record.expiresAt
        pure { valid := false, errorCode := some NipErrorCodes.CertExpired,
               message := some ("Expired at " ++ expiresAtStr ++ ".") }
      else verifyParent record

/-! ### Lists -/

def getCrl : CaAsync (List NipCertRecord) := Async.perform (CaOp.store .getRevoked)

def listCertificates : CaAsync (List NipCertRecord) := Async.perform (CaOp.store .list)

end NipCaService

end NpsSdk.Nip.Ca
