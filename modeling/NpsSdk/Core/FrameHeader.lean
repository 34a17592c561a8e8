import NpsSdk.Lib.Bytes

/-!
# Frame headers of the NCP codec

`core/frame-header.ts`: parsing and writing the header of a frame.
-/

namespace NpsSdk.Core

open NpsSdk.Lib

inductive EncodingTier
  | json | msgPack | binaryVector | reserved
  deriving DecidableEq

def DEFAULT_HEADER_SIZE : ℕ := 4
def EXTENDED_HEADER_SIZE : ℕ := 8
def DEFAULT_MAX_PAYLOAD : ℕ := 0xffff
def EXTENDED_MAX_PAYLOAD : ℕ := 0xffffffff

def TIER_MASK : UInt8 := 0x03
def FINAL_BIT : UInt8 := 0x04
def ENC_BIT : UInt8 := 0x08
def RESERVED_MASK : UInt8 := 0x70
def EXT_BIT : UInt8 := 0x80

def tierOf (flags : UInt8) : EncodingTier :=
  if flags &&& TIER_MASK = 0 then .json
  else if flags &&& TIER_MASK = 1 then .msgPack
  else if flags &&& TIER_MASK = 2 then .binaryVector
  else .reserved

structure NcpError where
  code : String
  message : String

structure FrameHeader where
  frameType : UInt8
  flags : UInt8
  payloadLength : ℕ
  tier : EncodingTier
  isFinal : Bool
  isEncrypted : Bool
  isExtended : Bool
  headerSize : ℕ

/-- The flags say that the header is extended. -/
def extended (flags : UInt8) : Bool := flags &&& EXT_BIT != 0

/-- The largest length that fits a header with these flags. -/
def maxPayload (flags : UInt8) : ℕ := if extended flags then EXTENDED_MAX_PAYLOAD else DEFAULT_MAX_PAYLOAD

theorem lt_of_le_maxPayload_extended {flags : UInt8} {n : ℕ} (hext : extended flags = true)
    (h : n ≤ maxPayload flags) : n < 256 ^ 4 := by
  rw [maxPayload, if_pos hext, EXTENDED_MAX_PAYLOAD] at h
  omega

theorem lt_of_le_maxPayload_default {flags : UInt8} {n : ℕ} (hext : extended flags = false)
    (h : n ≤ maxPayload flags) : n < 256 ^ 2 := by
  rw [maxPayload, hext, if_neg (by nofun), DEFAULT_MAX_PAYLOAD] at h
  omega

/-- The header with the members its flags give. -/
def FrameHeader.ofFlags (frameType flags : UInt8) (payloadLength : ℕ) : FrameHeader :=
  { frameType, flags, payloadLength
    tier := tierOf flags
    isFinal := flags &&& FINAL_BIT != 0
    isEncrypted := flags &&& ENC_BIT != 0
    isExtended := extended flags
    headerSize := if extended flags then EXTENDED_HEADER_SIZE else DEFAULT_HEADER_SIZE }

def parseFrameHeader (buffer : Bytes) (max_frame_payload : Option ℕ) : Except NcpError FrameHeader :=
  match buffer with
  | frameType :: flags :: _ =>
    if flags &&& RESERVED_MASK ≠ 0 then
      .error ⟨"NCP-FRAME-FLAGS-INVALID", "Reserved flag bits 4-6 must be zero"⟩
    else
      let tooLarge (payloadLength max : ℕ) : NcpError := ⟨"NCP-FRAME-PAYLOAD-TOO-LARGE",
        "Payload length " ++ toString payloadLength ++ " exceeds max_frame_payload " ++ toString max⟩
      let checked (payloadLength : ℕ) : Except NcpError FrameHeader :=
        match max_frame_payload with
        | some max =>
          if max < payloadLength then .error (tooLarge payloadLength max)
          else .ok (.ofFlags frameType flags payloadLength)
        | none => .ok (.ofFlags frameType flags payloadLength)
      if extended flags then
        if buffer.length < EXTENDED_HEADER_SIZE then
          .error ⟨"NCP-FRAME-PARSE-ERROR", "Buffer too small for extended header: need " ++
            toString EXTENDED_HEADER_SIZE ++ " bytes, got " ++ toString buffer.length⟩
        -- the length follows the flags
        else checked (getUint 4 2 buffer)
      else if buffer.length < DEFAULT_HEADER_SIZE then
        .error ⟨"NCP-FRAME-PARSE-ERROR", "Buffer too small for header: need " ++
          toString DEFAULT_HEADER_SIZE ++ " bytes, got " ++ toString buffer.length⟩
      else checked (getUint 2 2 buffer)
  | _ => .error ⟨"NCP-FRAME-PARSE-ERROR",
      "Buffer too small to read frame type and flags: need >= 2 bytes, got " ++ toString buffer.length⟩

section Parse

variable {frameType flags : UInt8} {rest : Bytes}

theorem parseFrameHeader_extended (hreserved : flags &&& RESERVED_MASK = 0) (hext : extended flags = true)
    (hlen : 6 ≤ rest.length) : parseFrameHeader (frameType :: flags :: rest) none =
      .ok (.ofFlags frameType flags (getUint 4 0 rest)) := by
  have hsize : ¬ (frameType :: flags :: rest).length < EXTENDED_HEADER_SIZE := by
    simp only [List.length_cons, EXTENDED_HEADER_SIZE]
    omega
  simp only [parseFrameHeader, hreserved, hext, hsize, ne_eq, not_true_eq_false, if_false, if_true]
  rfl

theorem parseFrameHeader_default (hreserved : flags &&& RESERVED_MASK = 0) (hext : extended flags = false)
    (hlen : 2 ≤ rest.length) : parseFrameHeader (frameType :: flags :: rest) none =
      .ok (.ofFlags frameType flags (getUint 2 0 rest)) := by
  have hsize : ¬ (frameType :: flags :: rest).length < DEFAULT_HEADER_SIZE := by
    simp only [List.length_cons, DEFAULT_HEADER_SIZE]
    omega
  simp only [parseFrameHeader, hreserved, hext, hsize, ne_eq, not_true_eq_false, if_false, Bool.false_eq_true]
  rfl

end Parse

/-- The number of bytes written and the buffer with them, or the message of the error. -/
def writeFrameHeader (header : FrameHeader) (buffer : Bytes) : Except String (ℕ × Bytes) :=
  let size := if header.isExtended then EXTENDED_HEADER_SIZE else DEFAULT_HEADER_SIZE
  if buffer.length < size then
    .error ("Destination buffer must be at least " ++ toString size ++ " bytes, got " ++
      toString buffer.length)
  else
    let buffer := (buffer.set 0 header.frameType).set 1 header.flags
    if header.isExtended then
      .ok (size, ((setUint 4 2 header.payloadLength buffer).set 6 0).set 7 0)
    else .ok (size, setUint 2 2 header.payloadLength buffer)

theorem writeFrameHeader_extended {header : FrameHeader} {buffer : Bytes} (hext : header.isExtended = true)
    (hlen : 8 ≤ buffer.length) : writeFrameHeader header buffer =
      .ok (8, header.frameType :: header.flags :: (beBytes 4 header.payloadLength ++ (0 :: 0 :: buffer.drop 8))) := by
  obtain ⟨a, b, c, d, e, f, g, h, rest, rfl⟩ : ∃ a b c d e f g h rest,
      buffer = a :: b :: c :: d :: e :: f :: g :: h :: rest := by
    match buffer, hlen with
    | a :: b :: c :: d :: e :: f :: g :: h :: rest, _ => exact ⟨a, b, c, d, e, f, g, h, rest, rfl⟩
  simp [writeFrameHeader, hext, EXTENDED_HEADER_SIZE, setUint, beBytes]

theorem writeFrameHeader_default {header : FrameHeader} {buffer : Bytes}
    (hext : header.isExtended = false) (hlen : 4 ≤ buffer.length) : writeFrameHeader header buffer =
      .ok (4, header.frameType :: header.flags :: (beBytes 2 header.payloadLength ++ buffer.drop 4)) := by
  obtain ⟨a, b, c, d, rest, rfl⟩ : ∃ a b c d rest, buffer = a :: b :: c :: d :: rest := by
    match buffer, hlen with
    | a :: b :: c :: d :: rest, _ => exact ⟨a, b, c, d, rest, rfl⟩
  simp [writeFrameHeader, hext, DEFAULT_HEADER_SIZE, setUint, beBytes]

def buildFlags (tier : Option UInt8) (final encrypted extended : Bool) : UInt8 :=
  let flags := tier.getD 0 &&& TIER_MASK
  let flags := if final then flags ||| FINAL_BIT else flags
  let flags := if encrypted then flags ||| ENC_BIT else flags
  if extended then flags ||| EXT_BIT else flags

end NpsSdk.Core
