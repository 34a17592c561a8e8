import NpsSdk.Lib.Buffer
import NpsSdk.Nip.Verifier
import NpsSdk.Nip.X509.Certificate
import NpsSdk.Nip.X509.Der

/-!
# Phase 3

`nip/phase3-enforcer.ts`: roles and capabilities are those that the leaf certificate attests, and the OCSP staple
is fresh.  A leaf is shown by its extensions, whose values are the bytes of the certificate.
-/

namespace NpsSdk.Nip

open NpsSdk.Lib

open X509

/-! ### Attested lists -/

def X509.ID_NPS_NODE_ROLES : String := EXTENSION_ARC ++ ".2"
def X509.ID_NPS_CAPABILITIES : String := EXTENSION_ARC ++ ".3"

structure RawExtension where
  type : String
  value : Bytes

/-- Reads strings until the reader is at its end.  Every string takes bytes, so there are not more of them than
bytes. -/
def readStrings : ℕ → DerReader → Reading (List String)
  | 0, _ => pure []
  | fuel + 1, seq =>
    if seq.hasData then do
      let (text, seq) ← seq.readUtf8String
      let texts ← readStrings fuel seq
      pure (text :: texts)
    else pure []

/-- The strings of an extension. -/
def readUtf8Sequence (value : Bytes) : Reading (List String) := do
  let (seq, _) ← (DerReader.new value).readSequence TAG_SEQUENCE
  readStrings value.length seq

/-- Nothing without the extension, and the empty list for one that cannot be read. -/
def readUtf8SequenceExtension (cert : List RawExtension) (oid : String) : Option (List String) :=
  match cert.find? fun e => e.type == oid with
  | none => none
  | some ext =>
    match (readUtf8Sequence ext.value).result with
    | .ok values => some values
    | .error _ => some []

/-! ### The staple -/

/-- `if (r.hasData && p(r.peekTag())) r.skip()`. -/
def skipIf (r : DerReader) (p : ℕ → Bool) : Reading DerReader :=
  if r.hasData then do
    let tag ← r.peekTag
    if p tag then r.skip else pure r
  else pure r

/-- The walk through an `OCSPResponse` down to a reader of the first `SingleResponse`. -/
def walkToSingle (der : Bytes) : Reading (Option DerReader) := do
  let (root, _) ← (DerReader.new der).readSequence TAG_SEQUENCE
  let (_, root) ← root.read (some TAG_ENUMERATED)
  if ¬ root.hasData then pure none
  else do
    let (respBytesWrap, _) ← root.readSequence TAG_CONTEXT_0
    let (respBytes, _) ← respBytesWrap.readSequence TAG_SEQUENCE
    let (_, respBytes) ← respBytes.read (some TAG_OBJECT_ID)
    let (basicDer, _) ← respBytes.readContent TAG_OCTET_STRING
    let (basic, _) ← (DerReader.new basicDer).readSequence TAG_SEQUENCE
    let (tbs, _) ← basic.readSequence TAG_SEQUENCE
    let tbs ← skipIf tbs (· == TAG_CONTEXT_0)
    let tbs ← skipIf tbs isContextSpecific
    let (_, tbs) ← tbs.read (some TAG_GENERALIZED_TIME)
    let (responses, _) ← tbs.readSequence TAG_SEQUENCE
    if ¬ responses.hasData then pure none
    else do
      let (single, _) ← responses.readSequence TAG_SEQUENCE
      pure (some single)

/-- The walk through a `SingleResponse` to a reader of what its `nextUpdate` holds. -/
def walkToNextUpdate (single : DerReader) : Reading (Option DerReader) := do
  let (_, single) ← single.read (some TAG_SEQUENCE)
  let single ← single.skip
  let (_, single) ← single.read (some TAG_GENERALIZED_TIME)
  if ¬ single.hasData then pure none
  else do
    let tag ← single.peekTag
    if tag ≠ TAG_CONTEXT_0 then pure none
    else do
      let (wrap, _) ← single.readSequence TAG_CONTEXT_0
      pure (some wrap)

/-- A reader of what the `nextUpdate` of a response holds. -/
def walkResponse (der : Bytes) : Reading (Option DerReader) := do
  match ← walkToSingle der with
  | none => pure none
  | some single => walkToNextUpdate single

/-- What is thrown makes `null`. -/
def Reading.orNull {α : Type} (x : Reading (Option α)) : Reading (Option α) :=
  match x.result with
  | .ok _ => x
  | .error (.derError _) | .error .typeError => ⟨.ok none, x.looks⟩

def tryGetOcspNextUpdate (der : Bytes) : Reading (Option ℤ) :=
  Reading.orNull do
    match ← walkResponse der with
    | none => pure none
    | some wrap => do
      let (t, _) ← wrap.readGeneralizedTime
      pure (some t)

/-! ### Enforcement -/

def difference (claimed attested : List String) : List String :=
  claimed.foldl (fun out c => if c ∉ attested ∧ c ∉ out then out ++ [c] else out) []

def frameCapabilities (frame : IdentFrame) : List String :=
  match frame.metadata with
  | .obj members =>
    match JsMap.find "capabilities" members with
    | some (.arr items) => items.filterMap fun item => match item with
      | .str s => some s
      | _ => none
    | _ => []
  | _ => []

/-- The bytes of a text in the URL-safe alphabet; nothing where the text has other characters. -/
def fromBase64Url (s : String) : Option Bytes :=
  let padding := s.toList.dropWhile isBase64urlChar
  if padding = [] ∨ padding = ['='] ∨ padding = ['=', '='] then
    let std := s.toList.map fun c => if c = '-' then '+' else if c = '_' then '/' else c
    some (bytesOfBase64 (std ++ List.replicate ((4 - std.length % 4) % 4) '='))
  else none

def OCSP_STAPLE_EXPIRED : String := "NIP-OCSP-STAPLE-EXPIRED"
def CERT_NODE_ROLES_MISMATCH : String := "NIP-CERT-NODE-ROLES-MISMATCH"
def CERT_CAPABILITIES_EXCEEDED : String := "NIP-CERT-CAPABILITIES-EXCEEDED"

def checkStaple (staple : Option String) (now : ℤ) : VerifyResult :=
  match truthy staple with
  | none => .fail 3 OCSP_STAPLE_EXPIRED
      "Phase-3 enforcement requires ocsp_staple on v2-x509 IdentFrames; none was supplied."
  | some staple =>
    match fromBase64Url staple with
    | none => .fail 3 OCSP_STAPLE_EXPIRED "ocsp_staple is not valid base64url."
    | some stapleDer =>
      match (tryGetOcspNextUpdate stapleDer).result with
      | .ok (some nextUpdate) =>
        if nextUpdate ≤ now then
          let text := (Ca.toISOString nextUpdate).getD ""
          .fail 3 OCSP_STAPLE_EXPIRED s!"ocsp_staple nextUpdate {text} has elapsed."
        else .ok
      | _ => .fail 3 OCSP_STAPLE_EXPIRED
          "ocsp_staple could not be parsed as a DER OCSPResponse with a nextUpdate."

def enforcePhase3 (leaf : List RawExtension) (now : ℤ) (frame : IdentFrame) : VerifyResult :=
  let excessRoles := (readUtf8SequenceExtension leaf ID_NPS_NODE_ROLES).map
    (difference (frame.nodeRoles.getD []))
  let excessCaps := (readUtf8SequenceExtension leaf ID_NPS_CAPABILITIES).map
    (difference (frameCapabilities frame))
  if excessRoles.any fun excess => !excess.isEmpty then
    let excess := ", ".intercalate (excessRoles.getD [])
    .fail 3 CERT_NODE_ROLES_MISMATCH
      s!"IdentFrame.node_roles claims role(s) not attested by id-nps-node-roles: {excess}."
  else if excessCaps.any fun excess => !excess.isEmpty then
    let excess := ", ".intercalate (excessCaps.getD [])
    .fail 3 CERT_CAPABILITIES_EXCEEDED
      s!"IdentFrame.capabilities claims capabilit(ies) not attested by id-nps-capabilities: {excess}."
  else checkStaple frame.ocspStaple now

end NpsSdk.Nip
