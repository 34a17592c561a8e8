import NpsSdk.Lib.Except
import NpsSdk.Ncp.Session

/-!
# The negotiated limits of a session

The largest payload and the support of extended headers are negotiated, but no part of a session holds a
frame against them: a frame that is sent or received respects them exactly if it fits them already, or is
refused for its encoding.
-/

namespace NpsSdk.Ncp

open NpsSdk.Lib NpsSdk.Core.Frames
open NpsSdk.Core (EncodingTier DEFAULT_MAX_PAYLOAD)

variable {D : Type}

/-- The limits let a payload of this length pass, under an extended header or not. -/
def Negotiation.Admits (n : Negotiation) (isExtended : Bool) (length : ℕ) : Prop :=
  ¬ n.maxFramePayload < .fin length ∧ (isExtended = true → n.extSupport = true)

instance (n : Negotiation) (isExtended : Bool) (length : ℕ) : Decidable (n.Admits isExtended length) :=
  inferInstanceAs (Decidable (_ ∧ _))

/-- What a session is asked to do. -/
inductive SessionOp (D : Type)
  | send (frame : NpsFrame D) (tier : Option EncodingTier)
  | receive (incoming : Bytes)

/-- A frame is refused before it is decoded. -/
def refusedUndecoded {α : Type} : Except SessionError α → Bool
  | .ok _ => false
  | .error (.codec _) => false
  | .error _ => true

/-- **The limits are respected**: what is sent is within them, and what is received outside them is refused
instead of being decoded. -/
def RespectsLimits (n : Negotiation) (session : NcpSession D) : SessionOp D → Prop
  | .send frame tier => ∀ wire header, session.send frame tier = .ok wire →
      FrameHeader.parse wire = .ok header → n.Admits header.isExtended (wire.length - header.headerSize)
  | .receive incoming => ∀ header wire rest, readFrame incoming = .ok ((header, wire), rest) →
      ¬ n.Admits header.isExtended header.payloadLength → refusedUndecoded (session.receive incoming) = true

/-- The frame is within the limits, where neither the codec nor the policy refuses it. -/
def FitsLimits (n : Negotiation) (codec : NpsFrameCodec D (NpsFrame D)) (policy : NcpEncodingPolicy) :
    SessionOp D → Prop
  | .send frame tier =>
      let useTier := tier.getD policy.defaultTier
      ∀ payload, (tierFlags useTier).isSome = true → codec.payloads.encode useTier frame.toDict = .ok payload →
        ¬ codec.maxPayload < .fin payload.length → policy.allows useTier frame.frameType = true →
        n.Admits (decide (DEFAULT_MAX_PAYLOAD < payload.length)) payload.length
  | .receive incoming => ∀ header wire rest, readFrame incoming = .ok ((header, wire), rest) →
      policy.allows header.encodingTier header.frameType = true →
      n.Admits header.isExtended header.payloadLength

variable {n : Negotiation} {session : NcpSession D} {frame : NpsFrame D} {tier : Option EncodingTier}
  {incoming wire : Bytes} {header : FrameHeader}

/-! ### Sending -/

theorem encode_eq_ok_iff {codec : NpsFrameCodec D (NpsFrame D)} {useTier : EncodingTier} :
    codec.encode frame (some useTier) = .ok wire ↔ ∃ flags payload, tierFlags useTier = some flags ∧
      codec.payloads.encode useTier frame.toDict = .ok payload ∧ ¬ codec.maxPayload < .fin payload.length ∧
      wire = (NpsFrameCodec.headerOf frame flags payload).toBytes ++ payload := by
  unfold NpsFrameCodec.encode
  dsimp only [Option.getD_some]
  cases htier : tierFlags useTier with
  | none => simp
  | some flags =>
    cases hpayload : codec.payloads.encode useTier frame.toDict with
    | error err => simp
    | ok payload =>
      dsimp only
      constructor
      · intro h
        split_ifs at h with hsize
        exact ⟨flags, payload, rfl, rfl, hsize, (Except.ok.inj h).symm⟩
      · rintro ⟨flags', payload', hflags, hpayload', hsize, rfl⟩
        cases hflags
        cases hpayload'
        rw [if_neg hsize]

theorem send_eq_ok_iff : session.send frame tier = .ok wire ↔
    session.codec.encode frame (some (tier.getD session.negotiatedTier)) = .ok wire ∧
      session.encodingPolicy.allows (tier.getD session.negotiatedTier) frame.frameType = true := by
  unfold NcpSession.send
  dsimp only
  cases hencode : session.codec.encode frame (some (tier.getD session.negotiatedTier)) with
  | error err => simp
  | ok wire' =>
    obtain ⟨flags, payload, htier, -, -, hwire⟩ := encode_eq_ok_iff.1 hencode
    obtain ⟨length, hparse⟩ := FrameHeader.parse_toBytes_flags (NpsFrameCodec.headerOf frame flags payload) payload
    have htierOf := (flags_headerOf htier frame payload).1
    rw [← hwire] at hparse
    dsimp only
    rw [hparse]
    dsimp only
    unfold ensureAllows
    rw [show FrameHeader.encodingTier ⟨(NpsFrameCodec.headerOf frame flags payload).frameType,
      (NpsFrameCodec.headerOf frame flags payload).flags, length⟩ = tier.getD session.negotiatedTier from htierOf]
    rw [show (NpsFrameCodec.headerOf frame flags payload).frameType = frame.frameType from rfl]
    split_ifs with hallows
    · simp [bind, Except.bind, hallows]
    · simp [bind, Except.bind, hallows]

theorem header_of_encoded {flags : UInt8} {payload : Bytes} {useTier : EncodingTier}
    (htier : tierFlags useTier = some flags)
    (hparse : FrameHeader.parse ((NpsFrameCodec.headerOf frame flags payload).toBytes ++ payload) = .ok header) :
    header.isExtended = decide (DEFAULT_MAX_PAYLOAD < payload.length) ∧
      ((NpsFrameCodec.headerOf frame flags payload).toBytes ++ payload).length - header.headerSize =
        payload.length := by
  obtain ⟨length, hparse'⟩ := FrameHeader.parse_toBytes_flags (NpsFrameCodec.headerOf frame flags payload) payload
  rw [hparse'] at hparse
  cases hparse
  refine ⟨(flags_headerOf htier frame payload).2, ?_⟩
  rw [List.length_append, FrameHeader.length_toBytes]
  exact Nat.add_sub_cancel_left _ _

theorem respects_send_iff : RespectsLimits n session (.send frame tier) ↔
    FitsLimits n session.codec session.encodingPolicy (.send frame tier) := by
  unfold RespectsLimits FitsLimits
  dsimp only
  constructor
  · intro h payload htier hpayload hsize hallows
    obtain ⟨flags, htier⟩ := Option.isSome_iff_exists.1 htier
    obtain ⟨length, hparse⟩ := FrameHeader.parse_toBytes_flags (NpsFrameCodec.headerOf frame flags payload) payload
    have hsend := send_eq_ok_iff.2 ⟨encode_eq_ok_iff.2 ⟨flags, payload, htier, hpayload, hsize, rfl⟩, hallows⟩
    have hadmits := h _ _ hsend hparse
    obtain ⟨hext, hlen⟩ := header_of_encoded htier hparse
    rw [hext, hlen] at hadmits
    exact hadmits
  · intro h wire header hsend hparse
    obtain ⟨hencode, hallows⟩ := send_eq_ok_iff.1 hsend
    obtain ⟨flags, payload, htier, hpayload, hsize, rfl⟩ := encode_eq_ok_iff.1 hencode
    obtain ⟨hext, hlen⟩ := header_of_encoded htier hparse
    rw [hext, hlen]
    exact h payload (Option.isSome_iff_exists.2 ⟨flags, htier⟩) hpayload hsize hallows

/-! ### Receiving -/

theorem receive_of_readFrame {rest : Bytes} (h : readFrame incoming = .ok ((header, wire), rest)) :
    refusedUndecoded (session.receive incoming) =
      !session.encodingPolicy.allows header.encodingTier header.frameType := by
  unfold NcpSession.receive
  rw [h]
  dsimp only [bind, Except.bind]
  unfold ensureAllows
  cases session.encodingPolicy.allows header.encodingTier header.frameType with
  | false => rfl
  | true =>
    cases session.codec.decode wire with
    | error err => rfl
    | ok frame => rfl

theorem respects_receive_iff : RespectsLimits n session (.receive incoming) ↔
    FitsLimits n session.codec session.encodingPolicy (.receive incoming) := by
  constructor
  · intro h header wire rest hread hallows
    by_contra hadmits
    have hrefused := h header wire rest hread hadmits
    rw [receive_of_readFrame hread, hallows] at hrefused
    cases hrefused
  · intro h header wire rest hread hadmits
    rw [receive_of_readFrame hread, Bool.not_eq_true']
    rw [← Bool.not_eq_true]
    exact fun hallows => hadmits (h header wire rest hread hallows)

/-! ### Both sides of a handshake -/

variable {frames : HandshakeFrames D} {profile : NcpHandshakeProfile} {hello : HelloFrame}
  {serverCodec clientCodec : NpsFrameCodec D (NpsFrame D)} {serverCaps : NcpHandshakeCapsFrame D}

theorem codec_of_accept {result : Bytes × NcpSession D}
    (h : accept frames profile hello serverCodec serverCaps = .ok result) : result.2.codec = serverCodec := by
  unfold accept at h
  split at h
  · cases h
  · dsimp only at h
    split at h
    · cases h
    · cases h
      rfl

theorem codec_of_connect (h : connect frames clientCodec incoming = .ok session) : session.codec = clientCodec := by
  unfold connect at h
  split at h
  · cases h
  · split_ifs at h
    split at h
    · cases h
    · cases h
    · cases h
      rfl

theorem codecs_of_handshake {h : Handshake D}
    (hok : handshake frames profile hello serverCodec clientCodec serverCaps = .ok h) :
    h.server.codec = serverCodec ∧ h.client.codec = clientCodec := by
  unfold handshake at hok
  obtain ⟨negotiation, -, hok⟩ := ok_bind.1 hok
  obtain ⟨⟨wire, server⟩, haccept, hok⟩ := ok_bind.1 hok
  obtain ⟨client, hconnect, hok⟩ := ok_bind.1 hok
  cases hok
  exact ⟨codec_of_accept haccept, codec_of_connect hconnect⟩

/-- **Either side respects the negotiated limits exactly where** the frame fits them, or is refused by the
limit of the codec or by the policy over the encodings. -/
theorem respectsLimits_iff_fits {h : Handshake D}
    (hok : handshake frames profile hello serverCodec clientCodec serverCaps = .ok h) (op : SessionOp D) :
    (RespectsLimits h.negotiation h.server op ↔
      FitsLimits h.negotiation serverCodec h.server.encodingPolicy op) ∧
    (RespectsLimits h.negotiation h.client op ↔
      FitsLimits h.negotiation clientCodec h.client.encodingPolicy op) := by
  obtain ⟨hserver, hclient⟩ := codecs_of_handshake hok
  rw [← hserver, ← hclient]
  cases op with
  | send frame tier => exact ⟨respects_send_iff, respects_send_iff⟩
  | receive incoming => exact ⟨respects_receive_iff, respects_receive_iff⟩

/-! ### A small connection -/

/-- The dictionary of a keepalive frame, and that of the capabilities of one server. -/
inductive Dict | nop | caps
deriving DecidableEq

/-- `{}`. -/
def nopText : Bytes := [0x7b, 0x7d]

/-- The capabilities of a server, for a client that takes payloads of one byte. -/
def smallCaps : NcpHandshakeCapsFrame Dict where
  nodeId := "n"
  caps := []
  negotiatedEncoding := some "json"
  enabledEncodings := some ["json"]
  sessionVersion := some "0.11"
  supportedProtocols := some ["ncp"]
  maxFramePayload := some 1
  extSupport := some false
  maxConcurrentStreams := some 32

/-- The JSON text of `smallCaps`. -/
def smallCapsText : Bytes :=
  ("\x7b\"node_id\":\"n\",\"caps\":[],\"negotiated_encoding\":\"json\"," ++
    "\"enabled_encodings\":[\"json\"],\"session_version\":\"0.11\",\"supported_protocols\":[\"ncp\"]," ++
    "\"max_frame_payload\":1,\"ext_support\":false,\"max_concurrent_streams\":32," ++
    "\"anchor_ref\":null,\"payload\":null\x7d").toList.map fun c => UInt8.ofNat c.toNat

def nopFrame : NpsFrame Dict := { frameType := 0x07, preferredTier := .json, toDict := .nop }

def smallCodec : NpsFrameCodec Dict (NpsFrame Dict) where
  payloads :=
    { encode := fun _ dict => .ok (match dict with | .nop => nopText | .caps => smallCapsText)
      decode := fun _ payload => if payload = nopText then .ok .nop else .ok .caps }
  registry frameType := if frameType = 0x07 then some fun _ => .ok nopFrame else none

def smallFrames : HandshakeFrames Dict where
  toDict _ := .caps
  fromDict _ := .ok smallCaps
  errorFromDict _ := .error "not an error frame"

def smallHello : HelloFrame where
  npsVersion := "0.11"
  supportedEncodings := ["json"]
  supportedProtocols := ["ncp"]
  maxFramePayload := 1

/-- The handshake of a server of the default profile and a client that takes payloads of one byte. -/
def smallHandshake : Except HandshakeError (Handshake Dict) :=
  handshake smallFrames {} smallHello smallCodec smallCodec smallCaps

/-- An extended header over an empty dictionary. -/
def extendedNop : Bytes := [0x07, 0x84, 0, 0, 0, 0, 0, 2] ++ nopText

/-- A keepalive frame, which is larger than what was negotiated. -/
def largeNop : Bytes := [0x07, 0x04, 0, 2] ++ nopText

/-- The codec of the small connection, over another text of the capabilities. -/
def codecOver (capsText : Bytes) : NpsFrameCodec Dict (NpsFrame Dict) :=
  { smallCodec with
    payloads :=
      { encode := fun _ dict => .ok (match dict with | .nop => nopText | .caps => capsText)
        decode := fun _ payload => if payload = nopText then .ok .nop else .ok .caps } }

/-- What the sides of a small connection negotiate, send and take. -/
def exceeds : Except HandshakeError (Handshake Dict) → Bool
  | .error _ => false
  | .ok h => decide (¬ h.negotiation.Admits false 2 ∧ ¬ h.negotiation.Admits true 2 ∧
      h.server.send nopFrame none = .ok largeNop ∧ h.client.receive largeNop = .ok nopFrame ∧
      h.client.receive extendedNop = .ok nopFrame)

theorem of_pieces {a b c d : List Char} {P : List Char → Prop} (h : P (a ++ b ++ c ++ d)) :
    P (String.ofList a ++ String.ofList b ++ String.ofList c ++ String.ofList d).toList := by
  simpa only [String.toList_append, String.toList_ofList] using h

theorem exceeds_smallHandshake : exceeds smallHandshake = true := by
  show exceeds (handshake smallFrames {} smallHello (codecOver smallCapsText) (codecOver smallCapsText)
    smallCaps) = true
  unfold smallCapsText
  refine @of_pieces _ _ _ _ (fun text => exceeds (handshake smallFrames {} smallHello
    (codecOver (text.map fun c => UInt8.ofNat c.toNat)) (codecOver (text.map fun c => UInt8.ofNat c.toNat))
      smallCaps) = true) ?_
  decide +kernel

theorem exists_smallHandshake : ∃ h, smallHandshake = .ok h ∧
    ¬ h.negotiation.Admits false 2 ∧ ¬ h.negotiation.Admits true 2 ∧
    h.server.send nopFrame none = .ok largeNop ∧ h.client.receive largeNop = .ok nopFrame ∧
    h.client.receive extendedNop = .ok nopFrame := by
  have hrun := exceeds_smallHandshake
  cases h : smallHandshake with
  | error err =>
    rw [h] at hrun
    cases hrun
  | ok h' =>
    rw [h] at hrun
    exact ⟨h', rfl, of_decide_eq_true hrun⟩

theorem smallHandshake_respects_iff : ∃ h, smallHandshake = .ok h ∧
    (RespectsLimits h.negotiation h.server (.send nopFrame none) ↔
      FitsLimits h.negotiation smallCodec h.server.encodingPolicy (.send nopFrame none)) := by
  obtain ⟨h, hok, -⟩ := exists_smallHandshake
  exact ⟨h, hok, (respectsLimits_iff_fits hok _).1⟩

/-- **The limits are not respected**: after a handshake on payloads of one byte without extended headers, the
server sends a payload of two bytes, which the client takes, and takes under an extended header, too. -/
theorem smallHandshake_exceeds : ∃ h, smallHandshake = .ok h ∧
    ¬ RespectsLimits h.negotiation h.server (.send nopFrame none) ∧
    ¬ RespectsLimits h.negotiation h.client (.receive largeNop) ∧
    ¬ RespectsLimits h.negotiation h.client (.receive extendedNop) := by
  obtain ⟨h, hok, hlarge, hextended, hsend, hreceive, hreceive'⟩ := exists_smallHandshake
  refine ⟨h, hok, fun hrespects => ?_, fun hrespects => ?_, fun hrespects => ?_⟩
  · exact hlarge (hrespects largeNop ⟨0x07, 0x04, 2⟩ hsend (by decide))
  · have hrefused := hrespects ⟨0x07, 0x04, 2⟩ largeNop [] (by decide) hlarge
    rw [hreceive] at hrefused
    cases hrefused
  · have hrefused := hrespects ⟨0x07, 0x84, 2⟩ extendedNop [] (by decide) hextended
    rw [hreceive'] at hrefused
    cases hrefused

end NpsSdk.Ncp
