import NpsSdk.Core.Frames

/-!
# The two header layouts

The two header codecs agree on headers of four bytes.  In a header of eight bytes the length stands
after the reserved bytes for the one and before them for the other, so they agree on the length zero
only.
-/

namespace NpsSdk.Core

open NpsSdk.Lib

structure CodecsAgree (frameType flags : UInt8) (payloadLength : ℕ) : Prop where
  /-- From `toBytes` to `parseFrameHeader`, with any payload after the header. -/
  toBytes : ∀ payload, parseFrameHeader
    ((Frames.FrameHeader.toBytes ⟨frameType, flags, payloadLength⟩) ++ payload) none =
      .ok (.ofFlags frameType flags payloadLength)
  /-- From `writeFrameHeader` to `parse`, in any buffer that is large enough. -/
  write : ∀ buffer : Bytes, (FrameHeader.ofFlags frameType flags payloadLength).headerSize ≤ buffer.length →
    ∃ bytes, writeFrameHeader (.ofFlags frameType flags payloadLength) buffer =
        .ok ((FrameHeader.ofFlags frameType flags payloadLength).headerSize, bytes) ∧
      Frames.FrameHeader.parse bytes = .ok ⟨frameType, flags, payloadLength⟩ ∧
      (Frames.FrameHeader.mk frameType flags payloadLength).headerSize =
        (FrameHeader.ofFlags frameType flags payloadLength).headerSize

theorem getUint_before {n : ℕ} (payload : Bytes) (hn : n < 256 ^ 4) :
    getUint 4 0 (beBytes 2 0 ++ (beBytes 4 n ++ payload)) = n / 256 ^ 2 := by
  have hhalf : n / 256 ^ 2 < 256 ^ 2 := by omega
  have hfour : beBytes 2 0 ++ (beBytes 4 n ++ payload) =
      (beBytes 2 0 ++ beBytes 2 (n / 256 ^ 2)) ++ (beBytes 2 n ++ payload) := by
    rw [show (4 : ℕ) = 2 + 2 from rfl, beBytes_add]
    simp
  rw [getUint, hfour, List.drop_zero, List.take_left' (by simp), beNat_append, beNat_beBytes_of_lt hhalf]
  simp [beNat_beBytes]

theorem getUint_after {n : ℕ} (rest : Bytes) :
    getUint 4 2 (beBytes 4 n ++ (0 :: 0 :: rest)) = n % 256 ^ 2 * 256 ^ 2 := by
  have hfour : beBytes 4 n ++ (0 :: 0 :: rest) =
      beBytes 2 (n / 256 ^ 2) ++ ((beBytes 2 n ++ beBytes 2 0) ++ rest) := by
    rw [show (4 : ℕ) = 2 + 2 from rfl, beBytes_add]
    simp [beBytes]
  rw [getUint, hfour, List.drop_left' (by simp), List.take_left' (by simp), beNat_append, beNat_beBytes,
    beNat_beBytes]
  simp

section

variable {frameType flags : UInt8} {payloadLength : ℕ}

theorem agree_default (hreserved : flags &&& RESERVED_MASK = 0) (hext : extended flags = false)
    (hlen : payloadLength < 256 ^ 2) : CodecsAgree frameType flags payloadLength := by
  have hsize : (FrameHeader.ofFlags frameType flags payloadLength).headerSize = 4 := by
    simp [FrameHeader.ofFlags, hext, DEFAULT_HEADER_SIZE]
  have hsize' : (Frames.FrameHeader.mk frameType flags payloadLength).headerSize = 4 := by
    rw [Frames.FrameHeader.headerSize,
      show (Frames.FrameHeader.mk frameType flags payloadLength).isExtended = extended flags from rfl, hext]
    rfl
  have hget : ∀ rest : Bytes, getUint 2 0 (beBytes 2 payloadLength ++ rest) = payloadLength := fun rest =>
    getUint_append [] rest rfl hlen
  constructor
  · intro payload
    rw [Frames.FrameHeader.toBytes_default _ hext, List.cons_append, List.cons_append,
      parseFrameHeader_default hreserved hext (by simp), hget]
  · intro buffer hbuffer
    rw [hsize] at hbuffer ⊢
    refine ⟨_, writeFrameHeader_default hext hbuffer, ?_, hsize'⟩
    have hread : Frames.FrameHeader.parse
        (frameType :: flags :: (beBytes 2 payloadLength ++ buffer.drop 4)) =
          .ok ⟨frameType, flags, getUint 2 0 (beBytes 2 payloadLength ++ buffer.drop 4)⟩ :=
      Frames.FrameHeader.parse_default hext (by simp)
    rw [hget] at hread
    exact hread

theorem agree_extended (hreserved : flags &&& RESERVED_MASK = 0) (hext : extended flags = true)
    (hlen : payloadLength < 256 ^ 4) : CodecsAgree frameType flags payloadLength ↔ payloadLength = 0 := by
  have hsize : (FrameHeader.ofFlags frameType flags payloadLength).headerSize = 8 := by
    simp [FrameHeader.ofFlags, hext, EXTENDED_HEADER_SIZE]
  have hparse : ∀ payload, parseFrameHeader
      ((Frames.FrameHeader.toBytes ⟨frameType, flags, payloadLength⟩) ++ payload) none =
        .ok (.ofFlags frameType flags (payloadLength / 256 ^ 2)) := by
    intro payload
    rw [Frames.FrameHeader.toBytes_extended _ hext, List.cons_append, List.cons_append,
      List.append_assoc, parseFrameHeader_extended hreserved hext (by simp; omega),
      getUint_before payload hlen]
  constructor
  · intro h
    have hread := (hparse []).symm.trans (h.toBytes [])
    have hhalf : payloadLength / 256 ^ 2 = payloadLength :=
      congrArg FrameHeader.payloadLength (Except.ok.inj hread)
    omega
  · rintro rfl
    constructor
    · intro payload
      rw [hparse payload]
      rfl
    · intro buffer hbuffer
      have hsize' : (Frames.FrameHeader.mk frameType flags 0).headerSize = 8 := by
        rw [Frames.FrameHeader.headerSize,
          show (Frames.FrameHeader.mk frameType flags 0).isExtended = extended flags from rfl, hext]
        rfl
      rw [hsize] at hbuffer ⊢
      refine ⟨_, writeFrameHeader_extended hext hbuffer, ?_, hsize'⟩
      have hread : Frames.FrameHeader.parse
          (frameType :: flags :: (beBytes 4 0 ++ (0 :: 0 :: buffer.drop 8))) =
            .ok ⟨frameType, flags, getUint 4 2 (beBytes 4 0 ++ (0 :: 0 :: buffer.drop 8))⟩ :=
        Frames.FrameHeader.parse_extended hext (by simp; omega)
      rw [getUint_after] at hread
      exact hread

end

/-- **The codecs agree** on a header exactly if it is not extended or its length is zero. -/
theorem codecs_agree_iff (frameType flags : UInt8) (payloadLength : ℕ)
    (hreserved : flags &&& RESERVED_MASK = 0) (hlen : payloadLength ≤ maxPayload flags) :
    CodecsAgree frameType flags payloadLength ↔ extended flags = false ∨ payloadLength = 0 := by
  cases hext : extended flags with
  | false =>
    have hagree : CodecsAgree frameType flags payloadLength :=
      agree_default hreserved hext (lt_of_le_maxPayload_default hext hlen)
    simp [hagree]
  | true => simp [agree_extended hreserved hext (lt_of_le_maxPayload_extended hext hlen)]

/-- A short frame, and an extended one without payload. -/
theorem codecs_agree_samples : CodecsAgree 0x01 0x04 512 ∧ CodecsAgree 0x01 0x84 0 :=
  ⟨(codecs_agree_iff 0x01 0x04 512 (by decide) (by decide)).2 (.inl (by decide)),
    (codecs_agree_iff 0x01 0x84 0 (by decide) (by decide)).2 (.inr rfl)⟩

/-- An extended header for 65536 bytes, written by the one codec and read by the other. -/
theorem extended_headers_differ : ¬ ∀ (frameType flags : UInt8) (payloadLength : ℕ),
    flags &&& RESERVED_MASK = 0 → payloadLength ≤ maxPayload flags →
      CodecsAgree frameType flags payloadLength := by
  intro h
  have hread := (h 0x01 0x80 65536 (by decide) (by decide)).toBytes []
  have hone : (parseFrameHeader ((Frames.FrameHeader.toBytes ⟨0x01, 0x80, 65536⟩) ++ []) none).toOption.map
      FrameHeader.payloadLength = some 1 := by decide
  rw [hread] at hone
  exact absurd hone (by decide)

end NpsSdk.Core
