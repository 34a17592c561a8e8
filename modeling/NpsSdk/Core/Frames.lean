import NpsSdk.Core.FrameHeader

/-!
# Frame headers of the NPS codec

`FrameHeader` of `core/frames.ts`, which the rest of the SDK reads and writes frames with.
-/

namespace NpsSdk.Core.Frames

open NpsSdk.Lib

structure FrameHeader where
  frameType : UInt8
  flags : UInt8
  payloadLength : ℕ
deriving DecidableEq

namespace FrameHeader

variable (h : FrameHeader)

def isExtended : Bool := h.flags &&& 0x80 != 0

def headerSize : ℕ := if h.isExtended then EXTENDED_HEADER_SIZE else DEFAULT_HEADER_SIZE

def encodingTier : EncodingTier := tierOf h.flags

def isFinal : Bool := h.flags &&& 0x04 != 0

def isEncrypted : Bool := h.flags &&& 0x08 != 0

def parse (buf : Bytes) : Except String FrameHeader :=
  match buf with
  | frameType :: flags :: _ =>
    if flags &&& 0x80 ≠ 0 then
      if buf.length < EXTENDED_HEADER_SIZE then
        .error ("Buffer too small for extended frame header: need " ++ toString EXTENDED_HEADER_SIZE ++
          " bytes, got " ++ toString buf.length ++ ".")
      -- the length follows two reserved bytes
      else .ok ⟨frameType, flags, getUint 4 4 buf⟩
    else if buf.length < DEFAULT_HEADER_SIZE then
      .error ("Buffer too small for frame header: need " ++ toString DEFAULT_HEADER_SIZE ++
        " bytes, got " ++ toString buf.length ++ ".")
    else .ok ⟨frameType, flags, getUint 2 2 buf⟩
  | _ => .error ("Buffer too small to read frame type and flags: need >= 2 bytes, got " ++
      toString buf.length ++ ".")

def toBytes : Bytes :=
  if h.isExtended then h.frameType :: h.flags :: (beBytes 2 0 ++ beBytes 4 h.payloadLength)
  else h.frameType :: h.flags :: beBytes 2 h.payloadLength

section Parse

variable {frameType flags : UInt8} {rest : Bytes}

theorem parse_extended (hext : extended flags = true) (hlen : 6 ≤ rest.length) :
    parse (frameType :: flags :: rest) = .ok ⟨frameType, flags, getUint 4 2 rest⟩ := by
  have hsize : ¬ (frameType :: flags :: rest).length < EXTENDED_HEADER_SIZE := by
    simp only [List.length_cons, EXTENDED_HEADER_SIZE]
    omega
  have hbit : flags &&& 0x80 ≠ 0 := by simpa [extended, EXT_BIT] using hext
  simp only [parse, hbit, hsize, if_false, if_true, ne_eq, not_false_eq_true]
  rfl

theorem parse_default (hext : extended flags = false) (hlen : 2 ≤ rest.length) :
    parse (frameType :: flags :: rest) = .ok ⟨frameType, flags, getUint 2 0 rest⟩ := by
  have hsize : ¬ (frameType :: flags :: rest).length < DEFAULT_HEADER_SIZE := by
    simp only [List.length_cons, DEFAULT_HEADER_SIZE]
    omega
  have hbit : flags &&& 0x80 = 0 := by simpa [extended, EXT_BIT] using hext
  simp only [parse, hbit, hsize, if_false, ne_eq, not_true_eq_false]
  rfl

end Parse

theorem toBytes_extended (hext : extended h.flags = true) :
    h.toBytes = h.frameType :: h.flags :: (beBytes 2 0 ++ beBytes 4 h.payloadLength) := if_pos hext

theorem toBytes_default (hext : extended h.flags = false) :
    h.toBytes = h.frameType :: h.flags :: beBytes 2 h.payloadLength := by
  have hno : ¬ h.isExtended = true := by rw [show h.isExtended = extended h.flags from rfl, hext]; nofun
  exact if_neg hno

theorem parse_toBytes (rest : Bytes) (hlen : h.payloadLength ≤ maxPayload h.flags) :
    parse (h.toBytes ++ rest) = .ok h := by
  cases hext : extended h.flags with
  | true =>
    have hlt : h.payloadLength < 256 ^ 4 := lt_of_le_maxPayload_extended hext hlen
    have hget : getUint 4 2 (beBytes 2 0 ++ (beBytes 4 h.payloadLength ++ rest)) = h.payloadLength :=
      getUint_append (beBytes 2 0) rest rfl hlt
    rw [toBytes_extended h hext, List.cons_append, List.cons_append, List.append_assoc,
      parse_extended hext (by simp; omega), hget]
  | false =>
    have hlt : h.payloadLength < 256 ^ 2 := lt_of_le_maxPayload_default hext hlen
    have hget : getUint 2 0 (beBytes 2 h.payloadLength ++ rest) = h.payloadLength :=
      getUint_append [] rest rfl hlt
    rw [toBytes_default h hext, List.cons_append, List.cons_append, parse_default hext (by simp), hget]

end FrameHeader

end NpsSdk.Core.Frames
