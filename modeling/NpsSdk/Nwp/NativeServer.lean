import NpsSdk.Core.Codec

/-!
# The native server of a node

`NwpNativeNodeServer`: the frames of a connection are dispatched in the order they come in, and each is
answered with one frame.  `σ` is what the handlers and the sink keep, `D` are the dictionaries that frames
are written as.
-/

namespace NpsSdk.Nwp

open NpsSdk.Lib NpsSdk.Core.Frames
open NpsSdk.Core (EncodingTier)

variable {σ D : Type}

/-! ### Frames -/

/-- A frame as the server tells them apart; of a query and of an action it reads the request id. -/
inductive NativeFrame (D : Type)
  | query (frame : D) (requestId : Option String)
  | action (frame : D) (requestId : Option String)
  | other (frameType : UInt8)

/-- `CapsFrame`, with rows of any kind. -/
structure NativeCapsFrame (D : Type) where
  anchorRef : String
  count : ℕ
  data : List D
  nextCursor : Option String := none
  tokenEst : Option ℕ := none
  cached : Option Bool := none
  tokenizerUsed : Option String := none
  requestId : Option String := none

structure ErrorFrame where
  status : String
  error : String
  message : Option String := none

inductive NativeQueryResult (D : Type)
  | caps (frame : NativeCapsFrame D)
  | rows (rows : List D) (nextCursor : Option String)

inductive NativeActionResult (D : Type)
  | caps (frame : NativeCapsFrame D)
  | frame (frame : NpsFrame D)
  /-- `undefined` or `null`. -/
  | nothing
  | value (result : D)

structure NwpNativeNodeServer (σ D : Type) where
  codec : NpsFrameCodec D (NativeFrame D)
  tier : EncodingTier := .msgPack
  enabledEncodings : List String
  anchorRef : String := "native:nwp"
  queryHandler : Option (σ → D → Except String (NativeQueryResult D) × σ) := none
  actionHandler : Option (σ → D → Except String (NativeActionResult D) × σ) := none
  /-- The sink. -/
  write : σ → Bytes → Except String Unit × σ
  /-- The length of rows as JSON. -/
  jsonLength : List D → ℕ
  capsDict : NativeCapsFrame D → D
  errorDict : ErrorFrame → D

def QUERY : UInt8 := 0x10

def encodingToken : EncodingTier → String
  | .json => "json"
  | .msgPack => "msgpack"
  | .binaryVector => "binary_vector.v1"
  | .reserved => "unknown:3"

/-- `value.toString(16)`. -/
def hexText (value : UInt8) : String := String.ofList (Nat.toDigits 16 value.toNat)

def withRequestId (frame : NativeCapsFrame D) (requestId : Option String) : NativeCapsFrame D :=
  if requestId.isSome then { frame with requestId } else frame

namespace NwpNativeNodeServer

variable (server : NwpNativeNodeServer σ D)

def capsFrame (frame : NativeCapsFrame D) : NpsFrame D :=
  { frameType := 0x04, preferredTier := .msgPack, toDict := server.capsDict frame }

def errorFrame (frame : ErrorFrame) : NpsFrame D :=
  { frameType := 0xfe, preferredTier := .msgPack, toDict := server.errorDict frame }

/-! ### Dispatching -/

def estimateTokens (rows : List D) : ℕ := max 1 (server.jsonLength rows / 4)

def coerceQueryResult : NativeQueryResult D → NativeCapsFrame D
  | .caps frame => frame
  | .rows rows nextCursor =>
    { anchorRef := server.anchorRef, count := rows.length, data := rows, nextCursor
      tokenEst := some (server.estimateTokens rows), tokenizerUsed := some "native-estimate" }

def dispatchQuery (host : σ) (frame : D) (requestId : Option String) : Except String (NpsFrame D) × σ :=
  match server.queryHandler with
  | none => (.error "No native NWP query handler configured.", host)
  | some handler =>
    let (result, host) := handler host frame
    (result.map fun result => server.capsFrame (withRequestId (server.coerceQueryResult result) requestId),
      host)

def dispatchAction (host : σ) (frame : D) (requestId : Option String) : Except String (NpsFrame D) × σ :=
  match server.actionHandler with
  | none => (.error "No native NWP action handler configured.", host)
  | some handler =>
    let (result, host) := handler host frame
    (result.map fun
      | .caps frame => server.capsFrame (withRequestId frame requestId)
      | .frame frame => frame
      | .nothing => server.capsFrame { anchorRef := server.anchorRef, count := 0, data := [], requestId }
      | .value result =>
        server.capsFrame { anchorRef := server.anchorRef, count := 1, data := [result], requestId },
      host)

/-- `dispatch`: what a handler throws is answered with an error frame. -/
def dispatch (host : σ) (frame : NativeFrame D) : NpsFrame D × σ :=
  let (answer, host) := match frame with
    | .query frame requestId => server.dispatchQuery host frame requestId
    | .action frame requestId => server.dispatchAction host frame requestId
    | .other frameType =>
      (.ok (server.errorFrame
        { status := "NPS-CLIENT-BAD-FRAME", error := "NWP-NATIVE-FRAME-UNSUPPORTED"
          message := some ("Native NWP server does not handle frame type 0x" ++ hexText frameType ++ ".") }),
        host)
  match answer with
  | .ok response => (response, host)
  | .error message =>
    (server.errorFrame
      { status := "NPS-SERVER-INTERNAL", error := "NWP-NATIVE-DISPATCH-FAILED", message := some message },
      host)

def encodingPolicyError (header : FrameHeader) : Option ErrorFrame :=
  if header.encodingTier = server.tier then none
  else if header.encodingTier = .binaryVector ∧ "binary_vector.v1" ∈ server.enabledEncodings ∧
      header.frameType = QUERY then none
  else some
    { status := "NPS-SERVER-ENCODING-UNSUPPORTED", error := "NCP-ENCODING-UNSUPPORTED"
      message := some ("Frame type 0x" ++ hexText header.frameType ++ " used " ++
        encodingToken header.encodingTier ++ ", but the negotiated policy allows " ++
        ", ".intercalate server.enabledEncodings ++ ".") }

def dispatchWire (host : σ) (wire : Bytes) : Except CodecError Bytes × σ :=
  match FrameHeader.parse wire with
  | .error message => (.error (.header message), host)
  | .ok header =>
    match server.encodingPolicyError header with
    | some policyError => (server.codec.encode (server.errorFrame policyError) (some server.tier), host)
    | none =>
      match server.codec.decode wire with
      | .error err => (.error err, host)
      | .ok frame =>
        let (response, host) := server.dispatch host frame
        (server.codec.encode response (some server.tier), host)

/-! ### Serving -/

inductive ServeError
  | header (message : String)
  | codec (err : CodecError)
  | sink (message : String)
  | trailing (message : String)
deriving DecidableEq

structure Served (σ : Type) where
  host : σ
  dispatched : List Bytes := []
  written : List Bytes := []

def answerFrame (served : Served σ) (wire : Bytes) : Except ServeError Unit × Served σ :=
  let (response, host) := server.dispatchWire served.host wire
  let served := { served with host, dispatched := served.dispatched ++ [wire] }
  match response with
  | .error err => (.error (.codec err), served)
  | .ok response =>
    match server.write served.host response with
    | (.error message, host) => (.error (.sink message), { served with host })
    | (.ok (), host) => (.ok (), { served with host, written := served.written ++ [response] })

/-- The loop over the frames in the buffer, in at most so many turns: what is left of the buffer. -/
def drain : ℕ → Bytes → Served σ → Except ServeError Bytes × Served σ
  | 0, buffer, served => (.ok buffer, served)
  | fuel + 1, buffer, served =>
    if buffer.length < 4 then (.ok buffer, served)
    else match FrameHeader.parse buffer with
      | .error message => (.error (.header message), served)
      | .ok header =>
        let total := header.headerSize + header.payloadLength
        if buffer.length < total then (.ok buffer, served)
        else match server.answerFrame served (buffer.take total) with
          | (.error err, served) => (.error err, served)
          | (.ok (), served) => drain fuel (buffer.drop total) served

/-- The rest of the chunks; a frame has four bytes at least, so no buffer has more frames than bytes. -/
def serveFrom : List Bytes → Bytes → Served σ → Except ServeError Unit × Served σ
  | [], buffer, served =>
    if buffer.length ≠ 0 then
      (.error (.trailing ("Native NWP stream ended with " ++ toString buffer.length ++ " trailing bytes.")),
        served)
    else (.ok (), served)
  | chunk :: source, buffer, served =>
    match server.drain (buffer ++ chunk).length (buffer ++ chunk) served with
    | (.error err, served) => (.error err, served)
    | (.ok buffer, served) => serveFrom source buffer served

/-- `serve`, of the chunks of a connection. -/
def serve (host : σ) (source : List Bytes) : Except ServeError Unit × Served σ :=
  server.serveFrom source [] { host }

end NwpNativeNodeServer

end NpsSdk.Nwp
