import NpsSdk.Core.Frames
import NpsSdk.Lib.Binary64

/-!
# The handshake of native mode

What a server and a client agree on: `negotiateHandshake`, and the policy over the encodings that follows
from it.
-/

namespace NpsSdk.Ncp

open NpsSdk.Lib NpsSdk.Core.Frames
open NpsSdk.Core (EncodingTier DEFAULT_MAX_PAYLOAD)

structure NcpHandshakeProfile where
  minVersion : String := "0.1"
  npsVersion : String := "0.11"
  supportedEncodings : List String := ["msgpack", "json", "binary_vector.v1"]
  supportedProtocols : List String := ["ncp", "nwp", "nip", "ndp", "nop"]
  maxFramePayload : JsDouble := .fin DEFAULT_MAX_PAYLOAD
  extSupport : Bool := false
  maxConcurrentStreams : JsDouble := 32

structure HelloFrame where
  npsVersion : String
  supportedEncodings : List String
  supportedProtocols : List String
  minVersion : Option String := none
  maxFramePayload : JsDouble := .fin 0xffff
  extSupport : Bool := false
  maxConcurrentStreams : JsDouble := 32

/-! ### Versions -/

abbrev Version := JsDouble × JsDouble

/-- A decimal number, which is not empty. -/
def parseDecimal (digits : List Char) : Option ℕ :=
  if digits = [] ∨ digits.all Char.isDigit = false then none else some (digitsValue digits)

def parseVersion (value : String) : Option Version :=
  match splitChars '.' value.toList with
  | [major, minor] =>
    match parseDecimal major, parseDecimal minor with
    | some major, some minor => some (.ofNat major, .ofNat minor)
    | _, _ => none
  | _ => none

def compare (a b : Version) : JsDouble := if a.1.eq b.1 then a.2 - b.2 else a.1 - b.1

def minVersion (a b : Version) : Version := if compare a b ≤ 0 then a else b

def maxVersion (a b : Version) : Version := if 0 ≤ compare a b then a else b

/-! ### Negotiation -/

/-- A decision to accept. -/
structure Negotiation where
  sessionVersion : String
  negotiatedEncoding : String
  enabledEncodings : List String
  supportedProtocols : List String
  maxFramePayload : JsDouble
  extSupport : Bool
  maxConcurrentStreams : JsDouble

structure ErrorClose where
  status : String
  error : String

/-- The decision as the two sides hold it. -/
structure NcpHandshakeDecision where
  action : String
  status : Option String := none
  error : Option String := none
  sessionVersion : Option String := none
  negotiatedEncoding : Option String := none
  enabledEncodings : Option (List String) := none
  supportedProtocols : Option (List String) := none
  maxFramePayload : Option JsDouble := none
  extSupport : Option Bool := none
  maxConcurrentStreams : Option JsDouble := none

def decisionOf : Except ErrorClose Negotiation → NcpHandshakeDecision
  | .error err => { action := "error_close", status := some err.status, error := some err.error }
  | .ok n =>
    { action := "accept"
      sessionVersion := some n.sessionVersion
      negotiatedEncoding := some n.negotiatedEncoding
      enabledEncodings := some n.enabledEncodings
      supportedProtocols := some n.supportedProtocols
      maxFramePayload := some n.maxFramePayload
      extSupport := some n.extSupport
      maxConcurrentStreams := some n.maxConcurrentStreams }

def versionError : ErrorClose := ⟨"NPS-PROTO-VERSION-INCOMPATIBLE", "NCP-VERSION-INCOMPATIBLE"⟩

def negotiateHandshake (server : NcpHandshakeProfile) (client : HelloFrame) : Except ErrorClose Negotiation :=
  match parseVersion server.minVersion, parseVersion server.npsVersion,
      parseVersion (client.minVersion.getD client.npsVersion), parseVersion client.npsVersion with
  | some serverMin, some serverMax, some clientMin, some clientMax =>
    if 0 < compare serverMin serverMax ∨ 0 < compare clientMin clientMax then .error versionError
    else
      let overlapMin := maxVersion serverMin clientMin
      let overlapMax := minVersion serverMax clientMax
      if 0 < compare overlapMin overlapMax then .error versionError
      else
        match client.supportedEncodings.find? fun token =>
            (token == "msgpack" || token == "json") && server.supportedEncodings.contains token with
        | none => .error ⟨"NPS-SERVER-ENCODING-UNSUPPORTED", "NCP-ENCODING-UNSUPPORTED"⟩
        | some stable =>
          let protocols := (client.supportedProtocols.filter server.supportedProtocols.contains).eraseDups
          if protocols.contains "ncp" = false ∨ client.maxFramePayload ≤ 0 ∨ server.maxFramePayload ≤ 0 ∨
              client.maxConcurrentStreams ≤ 0 ∨ server.maxConcurrentStreams ≤ 0 then .error versionError
          else .ok
            { sessionVersion := overlapMax.1.wholeText ++ "." ++ overlapMax.2.wholeText
              negotiatedEncoding := stable
              enabledEncodings :=
                if server.supportedEncodings.contains "binary_vector.v1" &&
                  client.supportedEncodings.contains "binary_vector.v1" then [stable, "binary_vector.v1"]
                else [stable]
              supportedProtocols := protocols
              maxFramePayload := JsDouble.min server.maxFramePayload client.maxFramePayload
              extSupport := server.extSupport && client.extSupport
              maxConcurrentStreams := JsDouble.min server.maxConcurrentStreams client.maxConcurrentStreams }
  | _, _, _, _ => .error versionError

/-! ### The policy over the encodings -/

structure NcpEncodingPolicy where
  defaultTier : EncodingTier
  binaryVectorEnabled : Bool := false

namespace NcpEncodingPolicy

def QUERY : UInt8 := 0x10

def isBinaryVectorFrame (frameType : UInt8) : Bool := frameType == QUERY

def allows (policy : NcpEncodingPolicy) (tier : EncodingTier) (frameType : UInt8) : Bool :=
  tier == policy.defaultTier ||
    (tier == .binaryVector && policy.binaryVectorEnabled && isBinaryVectorFrame frameType)

def fromEnabledEncodings (defaultTier : EncodingTier) (enabledEncodings : Option (List String)) :
    NcpEncodingPolicy :=
  ⟨defaultTier, (enabledEncodings.getD []).contains "binary_vector.v1"⟩

end NcpEncodingPolicy

end NpsSdk.Ncp
