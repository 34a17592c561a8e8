import NpsSdk.Core.Codec
import NpsSdk.Ncp.Handshake

/-!
# Sessions of native mode

`NcpServerConnection.accept` and `NcpNativeClient.connect` make the sessions of the two sides of a
connection, `NcpSession` sends and receives frames on one.

The frame limits that were negotiated are held by no part of a session: a frame respects them exactly when it
fits them already.
-/

namespace NpsSdk.Ncp

open NpsSdk.Lib NpsSdk.Core.Frames
open NpsSdk.Core (EncodingTier DEFAULT_MAX_PAYLOAD DEFAULT_HEADER_SIZE EXTENDED_HEADER_SIZE)

variable {D : Type}

structure NcpHandshakeCapsFrame (D : Type) where
  nodeId : String
  caps : List String
  negotiatedEncoding : Option String := none
  enabledEncodings : Option (List String) := none
  anchorRef : Option String := none
  payload : Option D := none
  sessionVersion : Option String := none
  supportedProtocols : Option (List String) := none
  maxFramePayload : Option JsDouble := none
  extSupport : Option Bool := none
  maxConcurrentStreams : Option JsDouble := none

structure NcpSession (D : Type) where
  codec : NpsFrameCodec D (NpsFrame D)
  serverCaps : NcpHandshakeCapsFrame D
  encodingPolicy : NcpEncodingPolicy

inductive SessionError
  | closed (needed got : ℕ)
  | header (message : String)
  /-- The policy does not allow the frame. -/
  | encodingUnsupported (frameType : UInt8) (tier : EncodingTier)
  | codec (err : CodecError)
deriving DecidableEq

/-! ### Reading frames -/

/-- `readExactly`, of the bytes that are still to come. -/
def readExactly (n : ℕ) (incoming : Bytes) : Except SessionError (Bytes × Bytes) :=
  if incoming.length < n then .error (.closed n incoming.length)
  else .ok (incoming.take n, incoming.drop n)

def readFrameHeader (incoming : Bytes) : Except SessionError ((FrameHeader × Bytes) × Bytes) := do
  let (peek, incoming) ← readExactly 2 incoming
  let remaining := if peek.getD 1 0 &&& 0x80 ≠ 0 then EXTENDED_HEADER_SIZE - 2 else DEFAULT_HEADER_SIZE - 2
  let (rest, incoming) ← readExactly remaining incoming
  match FrameHeader.parse (peek ++ rest) with
  | .error message => .error (.header message)
  | .ok header => .ok ((header, peek ++ rest), incoming)

def readFrame (incoming : Bytes) : Except SessionError ((FrameHeader × Bytes) × Bytes) := do
  let ((header, raw), incoming) ← readFrameHeader incoming
  let (payload, incoming) ← readExactly header.payloadLength incoming
  .ok ((header, raw ++ payload), incoming)

/-! ### Sending and receiving -/

def ensureAllows (policy : NcpEncodingPolicy) (header : FrameHeader) : Except SessionError Unit :=
  if policy.allows header.encodingTier header.frameType then .ok ()
  else .error (.encodingUnsupported header.frameType header.encodingTier)

namespace NcpSession

variable (session : NcpSession D)

def negotiatedTier : EncodingTier := session.encodingPolicy.defaultTier

def send (frame : NpsFrame D) (tier : Option EncodingTier) : Except SessionError Bytes :=
  let useTier := tier.getD session.negotiatedTier
  match session.codec.encode frame (some useTier) with
  | .error err => .error (.codec err)
  | .ok wire =>
    match FrameHeader.parse wire with
    | .error message => .error (.header message)
    | .ok header => do
      ensureAllows session.encodingPolicy header
      .ok wire

/-- The next frame of the bytes that are still to come. -/
def receive (incoming : Bytes) : Except SessionError (NpsFrame D) := do
  let ((header, wire), _) ← readFrame incoming
  ensureAllows session.encodingPolicy header
  match session.codec.decode wire with
  | .error err => .error (.codec err)
  | .ok frame => .ok frame

end NcpSession

/-! ### The two sides of a connection -/

structure HandshakeFrames (D : Type) where
  toDict : NcpHandshakeCapsFrame D → D
  fromDict : D → Except String (NcpHandshakeCapsFrame D)
  errorFromDict : D → Except String (String × Option String)

def CAPS : UInt8 := 0x04
def ERROR : UInt8 := 0xfe

inductive HandshakeError
  | negotiation (err : ErrorClose)
  | session (err : SessionError)
  /-- The server has answered with an error frame. -/
  | refused (error : String) (message : Option String)
  | unexpectedFrame (frameType : UInt8)

variable (frames : HandshakeFrames D)

def accept (profile : NcpHandshakeProfile) (clientHello : HelloFrame)
    (codec : NpsFrameCodec D (NpsFrame D)) (serverCaps : NcpHandshakeCapsFrame D) :
    Except HandshakeError (Bytes × NcpSession D) :=
  match negotiateHandshake profile clientHello with
  | .error err => .error (.negotiation err)
  | .ok negotiation =>
    let policy : NcpEncodingPolicy :=
      ⟨if negotiation.negotiatedEncoding = "msgpack" then .msgPack else .json,
        negotiation.enabledEncodings.contains "binary_vector.v1"⟩
    let caps : NcpHandshakeCapsFrame D :=
      { serverCaps with
        negotiatedEncoding := some negotiation.negotiatedEncoding
        enabledEncodings := some negotiation.enabledEncodings
        sessionVersion := some negotiation.sessionVersion
        supportedProtocols := some negotiation.supportedProtocols
        maxFramePayload := some negotiation.maxFramePayload
        extSupport := some negotiation.extSupport
        maxConcurrentStreams := some negotiation.maxConcurrentStreams }
    let frame : NpsFrame D := { frameType := CAPS, preferredTier := .json, toDict := frames.toDict caps }
    match codec.encode frame (some policy.defaultTier) with
    | .error err => .error (.session (.codec err))
    | .ok wire => .ok (wire, { codec, serverCaps := caps, encodingPolicy := policy })

def handshakeCodec (payloads : Payloads D) :
    NpsFrameCodec D (NcpHandshakeCapsFrame D ⊕ String × Option String) where
  payloads
  registry frameType :=
    if frameType = CAPS then some fun dict => (frames.fromDict dict).map .inl
    else if frameType = ERROR then some fun dict => (frames.errorFromDict dict).map .inr
    else none

/-- The session of a client, from what the server writes. -/
def connect (codec : NpsFrameCodec D (NpsFrame D)) (incoming : Bytes) :
    Except HandshakeError (NcpSession D) :=
  match readFrame incoming with
  | .error err => .error (.session err)
  | .ok ((header, wire), _) =>
    if header.frameType ≠ CAPS ∧ header.frameType ≠ ERROR then .error (.unexpectedFrame header.frameType)
    else
      match (handshakeCodec frames codec.payloads).decode wire with
      | .error err => .error (.session (.codec err))
      | .ok (.inr (error, message)) => .error (.refused error message)
      | .ok (.inl caps) => .ok
          { codec
            serverCaps := caps
            encodingPolicy := .fromEnabledEncodings header.encodingTier caps.enabledEncodings }

structure Handshake (D : Type) where
  negotiation : Negotiation
  server : NcpSession D
  client : NcpSession D

def handshake (profile : NcpHandshakeProfile) (hello : HelloFrame)
    (serverCodec clientCodec : NpsFrameCodec D (NpsFrame D)) (serverCaps : NcpHandshakeCapsFrame D) :
    Except HandshakeError (Handshake D) := do
  let negotiation ← (negotiateHandshake profile hello).mapError .negotiation
  let (wire, server) ← accept frames profile hello serverCodec serverCaps
  let client ← connect frames clientCodec wire
  .ok { negotiation, server, client }

end NpsSdk.Ncp
