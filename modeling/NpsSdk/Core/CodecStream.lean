import NpsSdk.Core.NcpCodec

/-!
# Streams of frames of the NCP codec

Frames that are written one after the other are read as they were written, and no part of a frame is read, exactly if
the payloads fit the length field of an extended header and come back from MessagePack.
-/

namespace NpsSdk.Core.NcpCodec

open NpsSdk.Lib
open NpsSdk.Core.BinaryVector (DataView)

/-- What is read by decoding one frame after the other until no byte is left. -/
inductive Decodes (msgpack : MsgPack) (view : DataView) (maxFramePayload : Option ℕ) :
    Bytes → List DecodeResult → Prop
  | nil : Decodes msgpack view maxFramePayload [] []
  | cons {buffer : Bytes} {result : DecodeResult} {results : List DecodeResult}
      (first : decodeFrame msgpack view buffer maxFramePayload = .ok result)
      (rest : Decodes msgpack view maxFramePayload (buffer.drop result.bytesConsumed) results) :
      Decodes msgpack view maxFramePayload buffer (result :: results)

structure Message (msgpack : MsgPack) (view : DataView) (maxFramePayload : Option ℕ) where
  payload : JsValue
  options : EncodeOptions
  payloadBytes : Bytes
  frame : Bytes
  plain : payload.Plain
  tier : options.tier.getD .json = .json ∨ options.tier.getD .json = .msgPack
  encoded : encodePayload msgpack view (options.tier.getD .json) payload = .ok payloadBytes
  framed : encodeFrame msgpack view payload options = .ok frame
  limited : payloadBytes.length ≤ maxFramePayload.getD DEFAULT_MAX_PAYLOAD

section

variable {msgpack : MsgPack} {view : DataView} {maxFramePayload : Option ℕ}

/-- What a message is read as: its payload with its type, tier and flags. -/
def Message.result (m : Message msgpack view maxFramePayload) : DecodeResult :=
  ⟨headerOf m.options m.payloadBytes.length, m.payload, m.frame.length⟩

/-- The payload fits the length field of an extended header, and MessagePack reads it back. -/
def Message.Fits (m : Message msgpack view maxFramePayload) : Prop :=
  m.payloadBytes.length ≤ EXTENDED_MAX_PAYLOAD ∧ (m.options.tier.getD .json = .msgPack → m.payload.ProtoFree)

/-- **The codec is transparent** for some messages: their stream is read as they are, and no part of a frame is read. -/
structure Transparent (ms : List (Message msgpack view maxFramePayload)) : Prop where
  stream : Decodes msgpack view maxFramePayload (ms.flatMap Message.frame) (ms.map Message.result)
  cutShort (m : Message msgpack view maxFramePayload) (hm : m ∈ ms) (part rest : Bytes) (heq : m.frame = part ++ rest)
    (hrest : rest ≠ []) : ∃ err, decodeFrame msgpack view part maxFramePayload = .error err

end

/-! ### Payloads -/

theorem head_text_ne_mark (v : Json) : v.text.head? ≠ some '\ufeff' := by
  obtain ⟨c, r, htext, hkind⟩ := Json.text_head v
  rw [htext, List.head?_cons]
  intro hc
  cases hc
  -- the mark is no character that a text of another kind begins with
  have hnum : Json.kindOf '\ufeff' = .num := by decide
  rw [hnum] at hkind
  cases v with
  | num n =>
    have hchars := n.chars
    rw [show n.text = '\ufeff' :: r by rw [← htext, Json.text], List.all_cons, Bool.and_eq_true] at hchars
    exact absurd hchars.1 (by decide)
  | bool b => cases b <;> cases hkind
  | null => cases hkind
  | str s => cases hkind
  | arr items => cases hkind
  | obj members => cases hkind

theorem decodeJson_encodeJson {v : JsValue} (hplain : v.Plain) : decodeJson (encodeJson v) = .ok v := by
  have hne : v.json.text ≠ [] := by
    obtain ⟨c, r, htext, -⟩ := Json.text_head v.json
    rw [htext]
    exact List.cons_ne_nil _ _
  have hdecode := @TextDecoder.decode_encodeText v.json.text false (.inr (head_text_ne_mark _)) hne
  unfold decodeJson encodeJson
  rw [hdecode]
  dsimp only
  rw [show TextDecoder.flush { bomSeen := true } = [] from rfl, List.append_nil, Json.parse_text]
  exact congrArg Except.ok (JsValue.throughJson_of_plain v hplain)

theorem decodeMsgPack_encodeMsgPack {msgpack : MsgPack} (hm : msgpack.Lawful) {v : JsValue} {bytes : Bytes}
    (hplain : v.Plain) (h : encodeMsgPack msgpack v = .ok bytes) :
    decodeMsgPack msgpack bytes = .ok v ↔ v.ProtoFree := by
  unfold encodeMsgPack at h
  unfold decodeMsgPack
  cases hencode : msgpack.encode v with
  | error err =>
    rw [hencode] at h
    cases h
  | ok written =>
    rw [hencode] at h
    cases h
    rw [← hm.reads_iff hplain hencode]
    cases msgpack.decode bytes with
    | error err => simp [Except.mapError]
    | ok v' => simp [Except.mapError]

/-- A payload of tier 1 or 2 is read back, unless it is one that MessagePack does not read back. -/
theorem decodePayload_iff {msgpack : MsgPack} (hm : msgpack.Lawful) {view : DataView} {maxFramePayload : Option ℕ}
    (m : Message msgpack view maxFramePayload) :
    decodePayload msgpack view (m.options.tier.getD .json) m.payloadBytes = .ok m.payload ↔
      (m.options.tier.getD .json = .msgPack → m.payload.ProtoFree) := by
  have hencoded := m.encoded
  rcases m.tier with htier | htier
  · rw [htier] at hencoded ⊢
    have hbytes : encodeJson m.payload = m.payloadBytes := Except.ok.inj hencoded
    simp [decodePayload, ← hbytes, decodeJson_encodeJson m.plain]
  · rw [htier] at hencoded ⊢
    simp [decodePayload, decodeMsgPack_encodeMsgPack hm m.plain hencoded]

/-! ### Headers -/

theorem flags_buildFlags (tier : EncodingTier) (final encrypted ext : Bool) :
    (buildFlags (some (tierNumber tier)) final encrypted ext &&& RESERVED_MASK = 0) ∧
      tierOf (buildFlags (some (tierNumber tier)) final encrypted ext) = tier ∧
      (buildFlags (some (tierNumber tier)) final encrypted ext &&& FINAL_BIT != 0) = final ∧
      (buildFlags (some (tierNumber tier)) final encrypted ext &&& ENC_BIT != 0) = encrypted ∧
      NpsSdk.Core.extended (buildFlags (some (tierNumber tier)) final encrypted ext) = ext := by
  cases tier <;> cases final <;> cases encrypted <;> cases ext <;> decide

variable (options : EncodeOptions) (length : ℕ)

theorem reserved_headerOf : (headerOf options length).flags &&& RESERVED_MASK = 0 := (flags_buildFlags _ _ _ _).1

theorem extended_headerOf : NpsSdk.Core.extended (headerOf options length).flags = (headerOf options length).isExtended :=
  (flags_buildFlags _ _ _ _).2.2.2.2

theorem ofFlags_headerOf :
    FrameHeader.ofFlags (headerOf options length).frameType (headerOf options length).flags length =
      headerOf options length := by
  obtain ⟨-, htier, hfinal, hencrypted, hext⟩ := flags_buildFlags (options.tier.getD .json) (options.final.getD false)
    (options.encrypted.getD false) (options.extended.getD false || decide (DEFAULT_MAX_PAYLOAD < length))
  simp only [FrameHeader.ofFlags, headerOf, htier, hfinal, hencrypted, hext, EXTENDED_HEADER_SIZE,
    DEFAULT_HEADER_SIZE]

theorem headerSize_headerOf :
    (headerOf options length).headerSize = if (headerOf options length).isExtended then 8 else 4 := rfl

def headerBytes (header : FrameHeader) : Bytes :=
  header.frameType :: header.flags ::
    if header.isExtended then beBytes 4 header.payloadLength ++ [0, 0] else beBytes 2 header.payloadLength

theorem length_headerBytes :
    (headerBytes (headerOf options length)).length = (headerOf options length).headerSize := by
  rw [headerSize_headerOf, headerBytes]
  split <;> simp

theorem encodeFrame_eq {msgpack : MsgPack} {view : DataView} {payload : JsValue} {options : EncodeOptions}
    {payloadBytes : Bytes}
    (hencoded : encodePayload msgpack view (options.tier.getD .json) payload = .ok payloadBytes) :
    encodeFrame msgpack view payload options =
      .ok (headerBytes (headerOf options payloadBytes.length) ++ payloadBytes) := by
  unfold encodeFrame
  rw [hencoded]
  dsimp only
  cases hext : (headerOf options payloadBytes.length).isExtended with
  | true =>
    rw [headerSize_headerOf, hext, if_pos rfl, writeFrameHeader_extended hext (by rw [List.length_replicate]; omega),
      headerBytes, if_pos hext]
    simp [beBytes]
  | false =>
    rw [headerSize_headerOf, hext, if_neg Bool.false_ne_true,
      writeFrameHeader_default hext (by rw [List.length_replicate]; omega), headerBytes, if_neg (by rw [hext]; exact Bool.false_ne_true)]
    simp [beBytes]

theorem parse_headerBytes (rest : Bytes) : parseFrameHeader (headerBytes (headerOf options length) ++ rest) none =
    .ok (.ofFlags (headerOf options length).frameType (headerOf options length).flags (length % 256 ^ 4)) := by
  have hreserved := reserved_headerOf options length
  have hflag := extended_headerOf options length
  cases hext : (headerOf options length).isExtended with
  | true =>
    rw [hext] at hflag
    have hget : getUint 4 0 (beBytes 4 length ++ ([0, 0] ++ rest)) = length % 256 ^ 4 := by
      unfold getUint
      rw [List.drop_zero, List.take_left' (length_beBytes 4 _), beNat_beBytes]
    rw [headerBytes, if_pos hext, List.cons_append, List.cons_append, List.append_assoc,
      parseFrameHeader_extended hreserved hflag (by simp; omega)]
    exact congrArg _ (congrArg _ hget)
  | false =>
    rw [hext] at hflag
    have hshort : length < 256 ^ 2 := by
      by_contra hlong
      have hlt : DEFAULT_MAX_PAYLOAD < length := by
        rw [DEFAULT_MAX_PAYLOAD]
        omega
      simp [headerOf, hlt] at hext
    have hget : getUint 2 0 (beBytes 2 length ++ rest) = length := getUint_append [] _ rfl hshort
    rw [headerBytes, if_neg (by rw [hext]; exact Bool.false_ne_true), List.cons_append, List.cons_append,
      parseFrameHeader_default hreserved hflag (by simp), Nat.mod_eq_of_lt (by omega)]
    exact congrArg _ (congrArg _ hget)

theorem parse_append {buffer : Bytes} {header : FrameHeader} (h : parseFrameHeader buffer none = .ok header)
    (more : Bytes) : parseFrameHeader (buffer ++ more) none = .ok header := by
  match buffer with
  | [] => cases h
  | [_] => cases h
  | a :: b :: rest =>
    unfold parseFrameHeader at h
    dsimp only at h
    split at h
    · cases h
    · rename_i hreserved
      rw [not_not] at hreserved
      split at h
      · rename_i hext
        split at h
        · cases h
        · rename_i hlen
          simp only [List.length_cons, EXTENDED_HEADER_SIZE] at hlen
          have hlonger : 6 ≤ (rest ++ more).length := by
            rw [List.length_append]
            omega
          rw [List.cons_append, List.cons_append, parseFrameHeader_extended hreserved hext hlonger, ← h]
          unfold getUint
          simp only [List.drop_succ_cons, List.drop_zero]
          rw [List.take_append_of_le_length (by omega)]
      · rename_i hext
        split at h
        · cases h
        · rename_i hlen
          simp only [List.length_cons, DEFAULT_HEADER_SIZE] at hlen
          have hlonger : 2 ≤ (rest ++ more).length := by
            rw [List.length_append]
            omega
          rw [List.cons_append, List.cons_append,
            parseFrameHeader_default hreserved (by simpa using hext) hlonger, ← h]
          unfold getUint
          simp only [List.drop_succ_cons, List.drop_zero]
          rw [List.take_append_of_le_length (by omega)]

/-! ### Frames -/

section

variable {msgpack : MsgPack} {view : DataView} {maxFramePayload : Option ℕ} {buffer part rest : Bytes}
  {result : DecodeResult} {m : Message msgpack view maxFramePayload}

theorem decodeFrame_eq_ok : decodeFrame msgpack view buffer maxFramePayload = .ok result ↔
    parseFrameHeader buffer none = .ok result.header ∧
      result.header.payloadLength ≤ maxFramePayload.getD DEFAULT_MAX_PAYLOAD ∧
      result.bytesConsumed = result.header.headerSize + result.header.payloadLength ∧
      result.bytesConsumed ≤ buffer.length ∧
      decodePayload msgpack view result.header.tier
        ((buffer.drop result.header.headerSize).take result.header.payloadLength) = .ok result.payload := by
  obtain ⟨header, payload, bytesConsumed⟩ := result
  unfold decodeFrame
  constructor
  · intro h
    split at h
    · cases h
    · rename_i header' hparse
      dsimp only at h
      split at h
      · cases h
      · rename_i hmax
        split at h
        · cases h
        · rename_i hlen
          split at h
          · cases h
          · rename_i hpayload
            cases h
            exact ⟨hparse, not_lt.1 hmax, rfl, not_lt.1 hlen, hpayload⟩
  · rintro ⟨hparse, hmax, hconsumed, hlen, hpayload⟩
    dsimp only at *
    subst hconsumed
    rw [hparse]
    dsimp only
    rw [if_neg (by omega), if_neg (by omega), hpayload]

theorem Message.frame_eq (m : Message msgpack view maxFramePayload) :
    m.frame = headerBytes (headerOf m.options m.payloadBytes.length) ++ m.payloadBytes :=
  Except.ok.inj (m.framed.symm.trans (encodeFrame_eq m.encoded))

theorem Message.length_frame (m : Message msgpack view maxFramePayload) :
    m.frame.length = (headerOf m.options m.payloadBytes.length).headerSize + m.payloadBytes.length := by
  rw [m.frame_eq, List.length_append, length_headerBytes]

theorem parse_frame (hlen : m.payloadBytes.length < 256 ^ 4) (rest : Bytes) :
    parseFrameHeader (m.frame ++ rest) none = .ok (headerOf m.options m.payloadBytes.length) := by
  rw [m.frame_eq, List.append_assoc, parse_headerBytes, Nat.mod_eq_of_lt hlen, ofFlags_headerOf]

theorem short_of_long (hlen : 256 ^ 4 ≤ m.payloadBytes.length)
    (h : decodeFrame msgpack view (m.frame ++ rest) maxFramePayload = .ok result) :
    result.bytesConsumed < m.frame.length := by
  obtain ⟨hparse, -, hconsumed, -⟩ := decodeFrame_eq_ok.1 h
  rw [m.frame_eq, List.append_assoc, parse_headerBytes] at hparse
  have hheader := Except.ok.inj hparse
  have hmod : m.payloadBytes.length % 256 ^ 4 < 256 ^ 4 := Nat.mod_lt _ (by norm_num)
  have hsize : result.header.headerSize = (headerOf m.options m.payloadBytes.length).headerSize := by
    rw [← hheader, ← ofFlags_headerOf m.options m.payloadBytes.length]
    rfl
  have hread : result.header.payloadLength = m.payloadBytes.length % 256 ^ 4 := by
    rw [← hheader]
    rfl
  rw [hconsumed, m.length_frame, hsize, hread]
  omega

/-- **A frame is read as it was written** exactly if its payload fits and is read back. -/
theorem decode_frame_iff (hm : msgpack.Lawful) (rest : Bytes) :
    decodeFrame msgpack view (m.frame ++ rest) maxFramePayload = .ok m.result ↔ m.Fits := by
  have hslice : ((m.frame ++ rest).drop (headerOf m.options m.payloadBytes.length).headerSize).take
      m.payloadBytes.length = m.payloadBytes := by
    rw [m.frame_eq, List.append_assoc, List.drop_left' (length_headerBytes _ _), List.take_left' rfl]
  constructor
  · intro h
    have hlt : m.payloadBytes.length < 256 ^ 4 := by
      by_contra hlong
      have hshort := short_of_long (not_lt.1 hlong) h
      exact absurd hshort (lt_irrefl _)
    obtain ⟨-, -, -, -, hpayload⟩ := decodeFrame_eq_ok.1 h
    refine ⟨by rw [EXTENDED_MAX_PAYLOAD]; omega, (decodePayload_iff hm m).1 ?_⟩
    exact Eq.trans (congrArg _ hslice.symm) hpayload
  · rintro ⟨hlen, hfree⟩
    have hlt : m.payloadBytes.length < 256 ^ 4 := by
      rw [EXTENDED_MAX_PAYLOAD] at hlen
      omega
    refine decodeFrame_eq_ok.2 ⟨parse_frame hlt rest, m.limited, m.length_frame, ?_, ?_⟩
    · rw [List.length_append]
      exact Nat.le_add_right _ _
    · refine Eq.trans ?_ ((decodePayload_iff hm m).2 hfree)
      exact congrArg _ hslice

theorem decode_part (hlen : m.payloadBytes.length < 256 ^ 4) (heq : m.frame = part ++ rest) (hrest : rest ≠ []) :
    ∃ err, decodeFrame msgpack view part maxFramePayload = .error err := by
  cases hdecode : decodeFrame msgpack view part maxFramePayload with
  | error err => exact ⟨err, rfl⟩
  | ok result =>
    obtain ⟨hparse, -, hconsumed, hle, -⟩ := decodeFrame_eq_ok.1 hdecode
    have hwhole := parse_frame hlen []
    rw [List.append_nil, heq, parse_append hparse rest] at hwhole
    have hheader := Except.ok.inj hwhole
    have hlength := m.length_frame
    have hpos := List.length_pos_iff.2 hrest
    have hread : result.header.payloadLength = m.payloadBytes.length := by
      rw [hheader]
      rfl
    rw [heq, List.length_append, ← hheader] at hlength
    omega

theorem decodes_cons {results : List DecodeResult}
    (h : Decodes msgpack view maxFramePayload buffer (result :: results)) :
    decodeFrame msgpack view buffer maxFramePayload = .ok result ∧
      Decodes msgpack view maxFramePayload (buffer.drop result.bytesConsumed) results := by
  cases h with
  | cons first rest => exact ⟨first, rest⟩

theorem decodes_nil (h : Decodes msgpack view maxFramePayload buffer []) : buffer = [] := by
  cases h
  rfl

theorem decodes_flatMap (hm : msgpack.Lawful) (ms : List (Message msgpack view maxFramePayload)) :
    Decodes msgpack view maxFramePayload (ms.flatMap Message.frame) (ms.map Message.result) ↔ ∀ m ∈ ms, m.Fits := by
  induction ms with
  | nil => simp [Decodes.nil]
  | cons m ms ih =>
    have hdrop : (m.frame ++ ms.flatMap Message.frame).drop m.result.bytesConsumed = ms.flatMap Message.frame :=
      List.drop_left' rfl
    rw [List.flatMap_cons, List.map_cons, List.forall_mem_cons, ← ih, ← decode_frame_iff hm (ms.flatMap Message.frame)]
    constructor
    · intro h
      obtain ⟨hfirst, hrest⟩ := decodes_cons h
      rw [hdrop] at hrest
      exact ⟨hfirst, hrest⟩
    · rintro ⟨hfirst, hrest⟩
      exact .cons hfirst (by rwa [hdrop])

/-- **The codec is transparent** exactly if the payloads fit their length fields and are read back from MessagePack. -/
theorem transparent_iff (msgpack : MsgPack) (hm : msgpack.Lawful) (view : DataView) (maxFramePayload : Option ℕ)
    (ms : List (Message msgpack view maxFramePayload)) : Transparent ms ↔ ∀ m ∈ ms, m.Fits := by
  constructor
  · intro h
    exact (decodes_flatMap hm ms).1 h.stream
  · intro h
    refine ⟨(decodes_flatMap hm ms).2 h, fun m hmem part rest heq hrest => ?_⟩
    have hlen := (h m hmem).1
    rw [EXTENDED_MAX_PAYLOAD] at hlen
    exact decode_part (by omega) heq hrest

end

/-! ### Messages -/

section

variable {view : DataView} {maxFramePayload : Option ℕ}

def Message.of {msgpack : MsgPack} (payload : JsValue) (options : EncodeOptions) (payloadBytes : Bytes)
    (plain : payload.Plain) (tier : options.tier.getD .json = .json ∨ options.tier.getD .json = .msgPack)
    (encoded : encodePayload msgpack view (options.tier.getD .json) payload = .ok payloadBytes)
    (limited : payloadBytes.length ≤ maxFramePayload.getD DEFAULT_MAX_PAYLOAD) :
    Message msgpack view maxFramePayload :=
  ⟨payload, options, payloadBytes, headerBytes (headerOf options payloadBytes.length) ++ payloadBytes, plain, tier,
    encoded, encodeFrame_eq encoded, limited⟩

theorem encodePayload_only (v : JsValue) (bytes : Bytes) :
    encodePayload (.only v bytes) view .msgPack v = .ok bytes := by
  show Except.mapError _ (if v = v then Except.ok bytes else .error "Error") = _
  rw [if_pos rfl]
  rfl

end

def zeroView : DataView := ⟨fun _ => [0, 0, 0, 0], fun _ => .nan, fun _ => rfl⟩

/-- `null` in JSON and `true` in MessagePack. -/
def sampleMessages : List (Message (.only (.bool true) [0xc3]) zeroView none) :=
  [.of .null { frameType := 0x10, final := some true } (encodeJson .null) trivial (.inl rfl) rfl (by decide),
    .of (.bool true) { frameType := 0x03, tier := some .msgPack, extended := some true } [0xc3] trivial (.inr rfl)
      (encodePayload_only _ _) (by decide)]

theorem sample_transparent : Transparent sampleMessages := by
  refine (transparent_iff _ (@MsgPack.lawful_only (.bool true) trivial _) zeroView none sampleMessages).2 ?_
  intro m hm
  rcases List.mem_cons.1 hm with rfl | hm
  · exact ⟨by decide, nofun⟩
  · obtain rfl := List.mem_singleton.1 hm
    exact ⟨by decide, fun _ => trivial⟩

/-- As long a string as an engine takes. -/
def longString : String := String.ofList (List.replicate 536870888 'a')

/-- Nine long strings, more than four gibibytes. -/
def longPayload : JsValue := .arr (List.replicate 9 (.str longString))

/-- The payload in MessagePack. -/
def longBytes : Bytes :=
  0x99 :: (List.replicate 9 (0xdb :: (beBytes 4 536870888 ++ List.replicate 536870888 0x61))).flatten

theorem length_longBytes : longBytes.length = 4831838038 := by
  unfold longBytes
  rw [List.length_cons, List.length_flatten, List.map_replicate, List.length_cons, List.length_append,
    length_beBytes, List.length_replicate, List.sum_replicate_nat]

theorem plain_replicate (n : ℕ) (s : String) : JsValue.PlainItems (List.replicate n (.str s)) := by
  induction n with
  | zero => trivial
  | succ n ih => exact ⟨trivial, ih⟩

def longMessage : Message (.only longPayload longBytes) zeroView (some 8589934592) :=
  .of longPayload { frameType := 0x03, tier := some .msgPack } longBytes (plain_replicate 9 longString) (.inr rfl)
    (encodePayload_only _ _) (by rw [length_longBytes, Option.getD_some]; norm_num)

/-- The frame of a payload of more than four gibibytes is never read as one frame. -/
theorem long_frame_lost :
    ¬ ∃ result, Decodes (.only longPayload longBytes) zeroView (some 8589934592) longMessage.frame [result] := by
  rintro ⟨result, h⟩
  obtain ⟨hfirst, hrest⟩ := decodes_cons h
  rw [← List.append_nil longMessage.frame] at hfirst
  have hlong : 256 ^ 4 ≤ longMessage.payloadBytes.length := by
    show 256 ^ 4 ≤ longBytes.length
    rw [length_longBytes]
    norm_num
  have hshort := short_of_long hlong hfirst
  have hlen := congrArg List.length (decodes_nil hrest)
  rw [List.length_drop, List.length_nil] at hlen
  omega

end NpsSdk.Core.NcpCodec
