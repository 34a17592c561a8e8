import NpsSdk.Wire.Dict

/-!
# The frames of NCP

The classes of `ncp/frames.ts`, each with the record it is written as and the one it is read from.
-/

namespace NpsSdk.Wire

open NpsSdk.Lib

structure AnchorFrame where
  anchorId : Option Json
  /-- The fields of its schema. -/
  schema : List Members
  ttl : Present := .num (.ofNat 3600)

namespace AnchorFrame

def toDict (f : AnchorFrame) : Dict :=
  [("anchor_id", f.anchorId),
    ("schema", some (.obj [("fields", .arr (f.schema.map .obj))])),
    ("ttl", some f.ttl.1)]

/-- `schemaRaw.fields`. -/
def schemaFields : Option Json → Except String (List Members)
  | some (.obj members) => match JsMap.find "fields" members with
    | some (.arr items) => objects items
    | _ => .error "not a schema"
  | _ => .error "not a schema"

def fromDict (data : Dict) : Except String AnchorFrame := do
  let fields ← schemaFields (data.get "schema")
  .ok
    { anchorId := data.get "anchor_id"
      schema := fields
      ttl := .readOr (data.get "ttl") (.num (.ofNat 3600)) }

end AnchorFrame

structure DiffFrame where
  anchorRef : Option Json
  baseSeq : Option Json
  patch : List Members
  entityId : Option Json

namespace DiffFrame

def toDict (f : DiffFrame) : Dict :=
  [("anchor_ref", f.anchorRef),
    ("base_seq", f.baseSeq),
    ("patch", some (.arr (f.patch.map .obj))),
    ("entity_id", orNull f.entityId)]

def fromDict (data : Dict) : Except String DiffFrame := do
  let items ← array? (data.get "patch")
  let patch ← match items with
    | some items => objects items
    | none => .error "no patch"
  .ok
    { anchorRef := data.get "anchor_ref"
      baseSeq := data.get "base_seq"
      patch
      entityId := orUndefined (data.get "entity_id") }

end DiffFrame

structure StreamFrame where
  streamId : Option Json
  seq : Option Json
  isLast : Option Json
  data : Option Json
  anchorRef : Option Json
  windowSize : Option Json
  errorCode : Option Json

namespace StreamFrame

def toDict (f : StreamFrame) : Dict :=
  [("stream_id", f.streamId),
    ("seq", f.seq),
    ("is_last", f.isLast),
    ("data", f.data),
    ("anchor_ref", orNull f.anchorRef),
    ("window_size", orNull f.windowSize),
    ("error_code", orNull f.errorCode)]

def fromDict (data : Dict) : StreamFrame where
  streamId := data.get "stream_id"
  seq := data.get "seq"
  isLast := data.get "is_last"
  data := data.get "data"
  anchorRef := orUndefined (data.get "anchor_ref")
  windowSize := orUndefined (data.get "window_size")
  errorCode := orUndefined (data.get "error_code")

end StreamFrame

structure CapsFrame where
  anchorRef : Option Json
  count : Option Json
  data : Option Json
  nextCursor : Option Json
  tokenEst : Option Json
  cached : Option Json
  tokenizerUsed : Option Json
  requestId : Option Json

namespace CapsFrame

def toDict (f : CapsFrame) : Dict :=
  [("anchor_ref", f.anchorRef),
    ("count", f.count),
    ("data", f.data),
    ("next_cursor", orNull f.nextCursor),
    ("token_est", orNull f.tokenEst),
    ("cached", orNull f.cached),
    ("tokenizer_used", orNull f.tokenizerUsed),
    ("request_id", orNull f.requestId)]

def fromDict (data : Dict) : CapsFrame where
  anchorRef := data.get "anchor_ref"
  count := data.get "count"
  data := data.get "data"
  nextCursor := orUndefined (data.get "next_cursor")
  tokenEst := orUndefined (data.get "token_est")
  cached := orUndefined (data.get "cached")
  tokenizerUsed := orUndefined (data.get "tokenizer_used")
  requestId := orUndefined (data.get "request_id")

end CapsFrame

structure ErrorFrame where
  status : Option Json
  error : Option Json
  message : Option Json
  details : Option Json

namespace ErrorFrame

def toDict (f : ErrorFrame) : Dict :=
  [("status", f.status),
    ("error", f.error),
    ("message", orNull f.message),
    ("details", orNull f.details)]

def fromDict (data : Dict) : ErrorFrame where
  status := data.get "status"
  error := data.get "error"
  message := orUndefined (data.get "message")
  details := orUndefined (data.get "details")

end ErrorFrame

namespace HelloFrame

def DEFAULT_MAX_FRAME_PAYLOAD : Present := .num (.ofNat 65535)
def DEFAULT_MAX_CONCURRENT_STREAMS : Present := .num (.ofNat 32)

end HelloFrame

structure HelloFrame where
  npsVersion : Option Json
  supportedEncodings : List Json
  supportedProtocols : List Json
  minVersion : Option Json
  agentId : Option Json
  maxFramePayload : Present := HelloFrame.DEFAULT_MAX_FRAME_PAYLOAD
  extSupport : Present := .bool false
  maxConcurrentStreams : Present := HelloFrame.DEFAULT_MAX_CONCURRENT_STREAMS
  e2eEncAlgorithms : Option (List Json)
  pingIntervalMs : Present := .num (.ofNat 0)

namespace HelloFrame

def toDict (f : HelloFrame) : Dict :=
  [("nps_version", f.npsVersion),
    ("supported_encodings", some (.arr f.supportedEncodings)),
    ("supported_protocols", some (.arr f.supportedProtocols)),
    ("min_version", orNull f.minVersion),
    ("agent_id", orNull f.agentId),
    ("max_frame_payload", some f.maxFramePayload.1),
    ("ext_support", some f.extSupport.1),
    ("max_concurrent_streams", some f.maxConcurrentStreams.1),
    ("e2e_enc_algorithms", arrayOrNull f.e2eEncAlgorithms),
    ("ping_interval_ms", some f.pingIntervalMs.1)]

def fromDict (data : Dict) : Except String HelloFrame := do
  let supportedEncodings ← array? (data.get "supported_encodings")
  let supportedProtocols ← array? (data.get "supported_protocols")
  let e2eEncAlgorithms ← array? (data.get "e2e_enc_algorithms")
  .ok
    { npsVersion := data.get "nps_version"
      supportedEncodings := supportedEncodings.getD []
      supportedProtocols := supportedProtocols.getD []
      minVersion := orUndefined (data.get "min_version")
      agentId := orUndefined (data.get "agent_id")
      maxFramePayload := .readOr (data.get "max_frame_payload") DEFAULT_MAX_FRAME_PAYLOAD
      extSupport := .readOr (data.get "ext_support") (.bool false)
      maxConcurrentStreams := .readOr (data.get "max_concurrent_streams") DEFAULT_MAX_CONCURRENT_STREAMS
      e2eEncAlgorithms
      pingIntervalMs := .readOr (data.get "ping_interval_ms") (.num (.ofNat 0)) }

end HelloFrame

/-- The server's answer to a hello, which has the type of a `CapsFrame`. -/
structure NcpHandshakeCapsFrame where
  nodeId : Option Json
  caps : List Json
  negotiatedEncoding : Option Json
  enabledEncodings : Option (List Json)
  anchorRef : Option Json
  payload : Option Json
  sessionVersion : Option Json
  supportedProtocols : Option (List Json)
  maxFramePayload : Option Json
  extSupport : Option Json
  maxConcurrentStreams : Option Json

namespace NcpHandshakeCapsFrame

def toDict (f : NcpHandshakeCapsFrame) : Dict :=
  [("node_id", f.nodeId),
    ("caps", some (.arr f.caps)),
    ("negotiated_encoding", orNull f.negotiatedEncoding),
    ("enabled_encodings", arrayOrNull f.enabledEncodings),
    ("session_version", orNull f.sessionVersion),
    ("supported_protocols", arrayOrNull f.supportedProtocols),
    ("max_frame_payload", orNull f.maxFramePayload),
    ("ext_support", orNull f.extSupport),
    ("max_concurrent_streams", orNull f.maxConcurrentStreams),
    ("anchor_ref", orNull f.anchorRef),
    ("payload", orNull f.payload)]

def fromDict (data : Dict) : Except String NcpHandshakeCapsFrame := do
  let caps ← array? (data.get "caps")
  let enabledEncodings ← array? (data.get "enabled_encodings")
  let supportedProtocols ← array? (data.get "supported_protocols")
  .ok
    { nodeId := data.get "node_id"
      caps := caps.getD []
      negotiatedEncoding := orUndefined (data.get "negotiated_encoding")
      enabledEncodings
      anchorRef := orUndefined (data.get "anchor_ref")
      payload := orUndefined (data.get "payload")
      sessionVersion := orUndefined (data.get "session_version")
      supportedProtocols
      maxFramePayload := orUndefined (data.get "max_frame_payload")
      extSupport := orUndefined (data.get "ext_support")
      maxConcurrentStreams := orUndefined (data.get "max_concurrent_streams") }

end NcpHandshakeCapsFrame

/-! ### What is read of what was written -/

section

attribute [local simp] Dict.get JsMap.find bind Except.bind

theorem AnchorFrame.settles : Settles AnchorFrame.toDict AnchorFrame.fromDict := fun f =>
  ⟨f, by simp [fromDict, toDict, schemaFields], rfl⟩

theorem DiffFrame.settles : Settles DiffFrame.toDict DiffFrame.fromDict := fun f =>
  ⟨{ f with entityId := orUndefined f.entityId }, by simp [fromDict, toDict], by simp [toDict]⟩

theorem StreamFrame.toDict_fromDict (f : StreamFrame) : (fromDict f.toDict).toDict = f.toDict := by
  simp [fromDict, toDict]

theorem CapsFrame.toDict_fromDict (f : CapsFrame) : (fromDict f.toDict).toDict = f.toDict := by
  simp [fromDict, toDict]

theorem ErrorFrame.toDict_fromDict (f : ErrorFrame) : (fromDict f.toDict).toDict = f.toDict := by
  simp [fromDict, toDict]

theorem HelloFrame.settles : Settles HelloFrame.toDict HelloFrame.fromDict := fun f =>
  ⟨{ f with minVersion := orUndefined f.minVersion, agentId := orUndefined f.agentId },
    by simp [fromDict, toDict], by simp [toDict]⟩

theorem NcpHandshakeCapsFrame.settles : Settles NcpHandshakeCapsFrame.toDict NcpHandshakeCapsFrame.fromDict := fun f =>
  ⟨{ f with
      negotiatedEncoding := orUndefined f.negotiatedEncoding
      anchorRef := orUndefined f.anchorRef
      payload := orUndefined f.payload
      sessionVersion := orUndefined f.sessionVersion
      maxFramePayload := orUndefined f.maxFramePayload
      extSupport := orUndefined f.extSupport
      maxConcurrentStreams := orUndefined f.maxConcurrentStreams },
    by simp [fromDict, toDict], by simp [toDict]⟩

end

end NpsSdk.Wire
