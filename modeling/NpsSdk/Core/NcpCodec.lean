import NpsSdk.Core.BinaryVector
import NpsSdk.Core.FrameHeader
import NpsSdk.Lib.TextDecoder

/-!
# The NCP codec

`decodeFrame` and `encodeFrame` of `core/codecs/ncp-codec.ts`, over the codecs of the three tiers.
-/

namespace NpsSdk.Core.NcpCodec

open NpsSdk.Lib
open NpsSdk.Core.BinaryVector (DataView encodeBinaryVectorPayload decodeBinaryVectorPayload)

inductive CodecError
  | ncp (err : NcpError)
  | thrown (err : String)

/-! ### Tier 1 and tier 2 -/

def encodeJson (payload : JsValue) : Bytes := encodeText payload.json.text

def decodeJson (bytes : Bytes) : Except CodecError JsValue :=
  let (decoder, text) := TextDecoder.decode {} bytes
  match Json.parse (text ++ decoder.flush) with
  | some payload => .ok (.ofJson payload)
  | none => .error (.ncp ⟨"NPS-CLIENT-BAD-FRAME", "Malformed JSON payload"⟩)

def encodeMsgPack (msgpack : MsgPack) (payload : JsValue) : Except CodecError Bytes :=
  (msgpack.encode payload).mapError .thrown

def decodeMsgPack (msgpack : MsgPack) (bytes : Bytes) : Except CodecError JsValue :=
  (msgpack.decode bytes).mapError fun _ => .ncp ⟨"NPS-CLIENT-BAD-FRAME", "Malformed MsgPack payload"⟩

/-! ### Frames -/

structure DecodeResult where
  header : FrameHeader
  payload : JsValue
  bytesConsumed : ℕ

structure EncodeOptions where
  frameType : UInt8
  tier : Option EncodingTier := none
  final : Option Bool := none
  encrypted : Option Bool := none
  extended : Option Bool := none

def tierNumber : EncodingTier → UInt8
  | .json => 0
  | .msgPack => 1
  | .binaryVector => 2
  | .reserved => 3

variable (msgpack : MsgPack) (view : DataView)

def decodePayload (tier : EncodingTier) (payloadBytes : Bytes) : Except CodecError JsValue :=
  match tier with
  | .json => decodeJson payloadBytes
  | .msgPack => decodeMsgPack msgpack payloadBytes
  | .binaryVector => (decodeBinaryVectorPayload msgpack view payloadBytes).mapError fun err =>
      .ncp ⟨"NPS-CLIENT-BAD-FRAME", "Malformed BinaryVector payload: " ++ err⟩
  | .reserved => .error (.ncp ⟨"NCP-ENCODING-UNSUPPORTED", "Unsupported encoding tier: 0x03"⟩)

def decodeFrame (buffer : Bytes) (maxFramePayload : Option ℕ) : Except CodecError DecodeResult :=
  match parseFrameHeader buffer none with
  | .error err => .error (.ncp err)
  | .ok header =>
    let maxPayload := maxFramePayload.getD DEFAULT_MAX_PAYLOAD
    if maxPayload < header.payloadLength then
      .error (.ncp ⟨"NCP-FRAME-PAYLOAD-TOO-LARGE", "Payload " ++ toString header.payloadLength ++
        " exceeds max_frame_payload " ++ toString maxPayload⟩)
    else
      let totalSize := header.headerSize + header.payloadLength
      if buffer.length < totalSize then
        .error (.ncp ⟨"NCP-FRAME-INCOMPLETE", "Buffer has " ++ toString buffer.length ++
          " bytes but frame needs " ++ toString totalSize⟩)
      else
        let payloadBytes := (buffer.drop header.headerSize).take header.payloadLength
        match decodePayload msgpack view header.tier payloadBytes with
        | .error err => .error err
        | .ok payload => .ok ⟨header, payload, totalSize⟩

def encodePayload (tier : EncodingTier) (payload : JsValue) : Except CodecError Bytes :=
  match tier with
  | .json => .ok (encodeJson payload)
  | .msgPack => encodeMsgPack msgpack payload
  | .binaryVector => (encodeBinaryVectorPayload msgpack view payload).mapError fun err =>
      .ncp ⟨"NPS-CLIENT-BAD-FRAME", "BinaryVector encode failed: " ++ err⟩
  | .reserved => .error (.ncp ⟨"NCP-ENCODING-UNSUPPORTED",
      "Unsupported encoding tier for encode: " ++ toString (tierNumber tier)⟩)

/-- The header of a frame with a payload of so many bytes. -/
def headerOf (options : EncodeOptions) (payloadLength : ℕ) : FrameHeader :=
  let tier := options.tier.getD .json
  let needsExtended := options.extended.getD false || decide (DEFAULT_MAX_PAYLOAD < payloadLength)
  { frameType := options.frameType
    flags := buildFlags (some (tierNumber tier)) (options.final.getD false) (options.encrypted.getD false)
      needsExtended
    payloadLength, tier
    isFinal := options.final.getD false
    isEncrypted := options.encrypted.getD false
    isExtended := needsExtended
    headerSize := if needsExtended then 8 else 4 }

def encodeFrame (payload : JsValue) (options : EncodeOptions) : Except CodecError Bytes :=
  match encodePayload msgpack view (options.tier.getD .json) payload with
  | .error err => .error err
  | .ok payloadBytes =>
    let header := headerOf options payloadBytes.length
    let frame := List.replicate (header.headerSize + payloadBytes.length) 0
    match writeFrameHeader header frame with
    | .error message => .error (.thrown message)
    | .ok (_, frame) => .ok (frame.take header.headerSize ++ payloadBytes)

end NpsSdk.Core.NcpCodec
