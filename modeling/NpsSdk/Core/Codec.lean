import NpsSdk.Core.Frames
import NpsSdk.Lib.JsDouble

/-!
# The NPS codec

`NpsFrameCodec` of `core/codec.ts`.  The codecs of the payloads are parameters: `D` are the dictionaries
that frames are written as.
-/

namespace NpsSdk.Core.Frames

open NpsSdk.Lib

variable {D α β : Type}

structure NpsFrame (D : Type) where
  frameType : UInt8
  preferredTier : EncodingTier
  /-- Of a frame that has `isLast`. -/
  isLast : Option Bool := none
  toDict : D
deriving DecidableEq

/-- The codecs of the tiers: each may throw. -/
structure Payloads (D : Type) where
  encode : EncodingTier → D → Except String Bytes
  decode : EncodingTier → Bytes → Except String D

abbrev FrameRegistry (D α : Type) := UInt8 → Option (D → Except String α)

inductive CodecError
  | header (message : String)
  | unsupportedTier
  | encode (tier : EncodingTier) (frameType : UInt8) (err : String)
  | tooLarge (frameType : UInt8) (length : ℕ) (maxPayload : JsDouble)
  | unregistered (frameType : UInt8)
  | decode (tier : EncodingTier) (frameType : UInt8) (err : String)
deriving DecidableEq

/-- A codec, whose frames are of type `α`. -/
structure NpsFrameCodec (D α : Type) where
  payloads : Payloads D
  registry : FrameRegistry D α
  maxPayload : JsDouble := .fin DEFAULT_MAX_PAYLOAD

/-- The flag bits of a tier that can be written. -/
def tierFlags : EncodingTier → Option UInt8
  | .json => some 0x00
  | .msgPack => some 0x01
  | .binaryVector => some 0x02
  | .reserved => none

namespace NpsFrameCodec

variable (codec : NpsFrameCodec D α)

def finalFlag (frame : NpsFrame D) : UInt8 := if frame.isLast.getD true then 0x04 else 0

def extFlag (payload : Bytes) : UInt8 := if DEFAULT_MAX_PAYLOAD < payload.length then 0x80 else 0

def headerOf (frame : NpsFrame D) (tier : UInt8) (payload : Bytes) : FrameHeader :=
  ⟨frame.frameType, tier ||| finalFlag frame ||| extFlag payload, payload.length⟩

def encode (frame : NpsFrame D) (overrideTier : Option EncodingTier) : Except CodecError Bytes :=
  let tier := overrideTier.getD frame.preferredTier
  match tierFlags tier with
  | none => .error .unsupportedTier
  | some flags =>
    match codec.payloads.encode tier frame.toDict with
    | .error err => .error (.encode tier frame.frameType err)
    | .ok payload =>
      if codec.maxPayload < .fin payload.length then
        .error (.tooLarge frame.frameType payload.length codec.maxPayload)
      else .ok ((headerOf frame flags payload).toBytes ++ payload)

def decode (wire : Bytes) : Except CodecError α :=
  match FrameHeader.parse wire with
  | .error message => .error (.header message)
  | .ok header =>
    let payload := (wire.drop header.headerSize).take header.payloadLength
    match tierFlags header.encodingTier with
    | none => .error .unsupportedTier
    | some _ =>
      match codec.registry header.frameType with
      | none => .error (.unregistered header.frameType)
      | some fromDict =>
        match codec.payloads.decode header.encodingTier payload >>= fromDict with
        | .error err => .error (.decode header.encodingTier header.frameType err)
        | .ok frame => .ok frame

end NpsFrameCodec

/-! ### Headers of encoded frames -/

namespace FrameHeader

variable (h : FrameHeader)

theorem length_toBytes : h.toBytes.length = h.headerSize := by
  unfold toBytes headerSize
  split <;> simp [EXTENDED_HEADER_SIZE, DEFAULT_HEADER_SIZE]

/-- What is read of a header, however large its payload is: the length is cut to what the header holds. -/
theorem parse_toBytes_mod (rest : Bytes) : parse (h.toBytes ++ rest) =
    .ok ⟨h.frameType, h.flags, h.payloadLength % 256 ^ (if extended h.flags then 4 else 2)⟩ := by
  cases hext : extended h.flags with
  | true =>
    have hget : getUint 4 2 (beBytes 2 0 ++ (beBytes 4 h.payloadLength ++ rest)) = h.payloadLength % 256 ^ 4 := by
      unfold getUint
      rw [List.drop_left' (length_beBytes 2 0), List.take_left' (length_beBytes 4 _), beNat_beBytes]
    rw [toBytes_extended h hext, List.cons_append, List.cons_append, List.append_assoc,
      parse_extended hext (by simp; omega), hget, if_pos rfl]
  | false =>
    have hget : getUint 2 0 (beBytes 2 h.payloadLength ++ rest) = h.payloadLength % 256 ^ 2 := by
      unfold getUint
      rw [List.drop_zero, List.take_left' (length_beBytes 2 _), beNat_beBytes]
    rw [toBytes_default h hext, List.cons_append, List.cons_append, parse_default hext (by simp), hget,
      if_neg Bool.false_ne_true]

theorem parse_toBytes_flags (rest : Bytes) : ∃ length,
    parse (h.toBytes ++ rest) = .ok ⟨h.frameType, h.flags, length⟩ := ⟨_, parse_toBytes_mod h rest⟩

end FrameHeader

theorem flags_or {tier : EncodingTier} {flags : UInt8} (htier : tierFlags tier = some flags)
    (frame : NpsFrame D) (ext : Bool) :
    tierOf (flags ||| NpsFrameCodec.finalFlag frame ||| if ext then 0x80 else 0) = tier ∧
      ((flags ||| NpsFrameCodec.finalFlag frame ||| if ext then 0x80 else 0) &&& 0x80 != 0) = ext := by
  unfold NpsFrameCodec.finalFlag
  generalize frame.isLast.getD true = final
  cases tier with
  | reserved => cases htier
  | json | msgPack | binaryVector =>
    cases htier
    cases final <;> cases ext <;> exact ⟨by decide, by decide⟩

theorem flags_headerOf {tier : EncodingTier} {flags : UInt8} (htier : tierFlags tier = some flags)
    (frame : NpsFrame D) (payload : Bytes) :
    (NpsFrameCodec.headerOf frame flags payload).encodingTier = tier ∧
      (NpsFrameCodec.headerOf frame flags payload).isExtended = decide (DEFAULT_MAX_PAYLOAD < payload.length) := by
  by_cases hext : DEFAULT_MAX_PAYLOAD < payload.length
  · simp only [NpsFrameCodec.headerOf, NpsFrameCodec.extFlag, hext, decide_true]
    exact flags_or htier frame true
  · simp only [NpsFrameCodec.headerOf, NpsFrameCodec.extFlag, hext, decide_false]
    exact flags_or htier frame false

/-! ### Frames that are decoded again -/

section

variable {encoder : NpsFrameCodec D β} (codec : NpsFrameCodec D α)

/-- What is made of a payload. -/
def NpsFrameCodec.decodePayload (codec : NpsFrameCodec D α) (tier : EncodingTier) (frameType : UInt8)
    (payload : Bytes) : Except CodecError α :=
  match codec.registry frameType with
  | none => .error (.unregistered frameType)
  | some fromDict =>
    match codec.payloads.decode tier payload >>= fromDict with
    | .error err => .error (.decode tier frameType err)
    | .ok frame => .ok frame

/-- **What is decoded of an encoded frame**: its payload, up to a multiple of 4 GiB. -/
theorem decode_of_encode {frame : NpsFrame D} {overrideTier : Option EncodingTier} {wire : Bytes}
    (h : encoder.encode frame overrideTier = .ok wire) :
    ∃ payload, encoder.payloads.encode (overrideTier.getD frame.preferredTier) frame.toDict = .ok payload ∧
      codec.decode wire = codec.decodePayload (overrideTier.getD frame.preferredTier) frame.frameType
        (payload.take (payload.length % 256 ^ 4)) := by
  unfold NpsFrameCodec.encode at h
  generalize overrideTier.getD frame.preferredTier = tier at h ⊢
  cases htier : tierFlags tier with
  | none => simp [htier] at h
  | some flags =>
    cases hpayload : encoder.payloads.encode tier frame.toDict with
    | error err => simp [htier, hpayload] at h
    | ok payload =>
      simp only [htier, hpayload] at h
      split at h
      · cases h
      · refine ⟨payload, rfl, ?_⟩
        rw [← Except.ok.inj h]
        obtain ⟨hencoding, hextended⟩ := flags_headerOf htier frame payload
        generalize hheader : NpsFrameCodec.headerOf frame flags payload = header at hencoding hextended ⊢
        have hlength : header.payloadLength % 256 ^ (if extended header.flags then 4 else 2) =
            payload.length % 256 ^ 4 := by
          rw [show header.payloadLength = payload.length by rw [← hheader]; rfl,
            show extended header.flags = decide (DEFAULT_MAX_PAYLOAD < payload.length) from hextended]
          by_cases hlong : DEFAULT_MAX_PAYLOAD < payload.length
          · simp [hlong]
          · simp only [hlong, decide_false, Bool.false_eq_true, if_false]
            unfold DEFAULT_MAX_PAYLOAD at hlong
            omega
        have htype : header.frameType = frame.frameType := by rw [← hheader]; rfl
        have hdrop : (header.toBytes ++ payload).drop header.headerSize = payload :=
          List.drop_left' (FrameHeader.length_toBytes header)
        unfold NpsFrameCodec.decode NpsFrameCodec.decodePayload
        rw [FrameHeader.parse_toBytes_mod, hlength]
        dsimp only
        rw [show FrameHeader.encodingTier ⟨header.frameType, header.flags, payload.length % 256 ^ 4⟩ = tier from hencoding,
          show FrameHeader.headerSize ⟨header.frameType, header.flags, payload.length % 256 ^ 4⟩ = header.headerSize from rfl,
          htier, htype, hdrop]

end

end NpsSdk.Core.Frames
