import NpsSdk.Ncp.CapsFrame
import NpsSdk.Ncp.Negotiation
import NpsSdk.Ncp.SessionLimits

/-!
# The session that both sides derive

A server builds its session from what it has negotiated, a client from the frame of capabilities that arrives.
Both have the same policy; the limits are the same unless one is not finite and the frame is written as JSON.
-/

namespace NpsSdk.Ncp

open NpsSdk.Lib NpsSdk.Core.Frames
open NpsSdk.Core (EncodingTier DEFAULT_MAX_PAYLOAD maxPayload extended tierOf EXTENDED_HEADER_SIZE
  DEFAULT_HEADER_SIZE EXTENDED_MAX_PAYLOAD)

/-- The two ends allow the same encodings, and hold the same of what was negotiated. -/
structure SameSession {D : Type} (server client : NcpSession D) : Prop where
  encodings : ∀ tier frameType,
    server.encodingPolicy.allows tier frameType = client.encodingPolicy.allows tier frameType
  sessionVersion : server.serverCaps.sessionVersion = client.serverCaps.sessionVersion
  supportedProtocols : server.serverCaps.supportedProtocols = client.serverCaps.supportedProtocols
  maxFramePayload : server.serverCaps.maxFramePayload = client.serverCaps.maxFramePayload
  extSupport : server.serverCaps.extSupport = client.serverCaps.extSupport
  maxConcurrentStreams : server.serverCaps.maxConcurrentStreams = client.serverCaps.maxConcurrentStreams

/-- What `JSON` and `@msgpack/msgpack` do to a dictionary. -/
structure HostCodecs (payloads : Payloads WireValue) (dict : WireValue) : Prop where
  json : ∀ bytes v, payloads.encode .json dict = .ok bytes → payloads.decode .json bytes = .ok v →
    v = dict.jsonWritten
  msgPack : ∀ bytes v, payloads.encode .msgPack dict = .ok bytes → payloads.decode .msgPack bytes = .ok v →
    v = dict
  /-- What was written is read, unless a member has a name that is refused. -/
  reads : ∀ tier bytes, payloads.encode tier dict = .ok bytes → dict.noProto = true →
    ∃ v, payloads.decode tier bytes = .ok v
  /-- No buffer is longer than the length of a frame can say. -/
  short : ∀ tier bytes, payloads.encode tier dict = .ok bytes → bytes.length ≤ EXTENDED_MAX_PAYLOAD

def FiniteLimit (a b : JsDouble) : Prop := a ≠ .nan ∧ b ≠ .nan ∧ ¬ (a = .posInf ∧ b = .posInf)

/-! ### Reading a frame -/

theorem readExactly_append {a b : Bytes} {n : ℕ} (h : a.length = n) : readExactly n (a ++ b) = .ok (a, b) := by
  subst h
  rw [readExactly, if_neg (by simp), List.take_left, List.drop_left]

variable {payload : Bytes}

theorem readFrame_toBytes {h : FrameHeader} (hlength : h.payloadLength = payload.length)
    (hmax : payload.length ≤ maxPayload h.flags) :
    readFrame (h.toBytes ++ payload) = .ok ((h, h.toBytes ++ payload), []) := by
  have hparse : FrameHeader.parse h.toBytes = .ok h := by
    rw [← List.append_nil h.toBytes]
    exact h.parse_toBytes [] (hlength ▸ hmax)
  have hheader : readFrameHeader (h.toBytes ++ payload) = .ok ((h, h.toBytes), payload) := by
    obtain ⟨rest, hbytes, hrest⟩ : ∃ rest, h.toBytes = [h.frameType, h.flags] ++ rest ∧
        rest.length = if h.flags &&& 0x80 ≠ 0 then EXTENDED_HEADER_SIZE - 2 else DEFAULT_HEADER_SIZE - 2 := by
      by_cases hext : h.flags &&& 0x80 ≠ 0
      · have hextended : extended h.flags = true := by simpa [extended, NpsSdk.Core.EXT_BIT] using hext
        exact ⟨_, h.toBytes_extended hextended, by rw [if_pos hext]; simp [EXTENDED_HEADER_SIZE]⟩
      · have hextended : extended h.flags = false := by simpa [extended, NpsSdk.Core.EXT_BIT] using hext
        exact ⟨_, h.toBytes_default hextended, by rw [if_neg hext]; simp [DEFAULT_HEADER_SIZE]⟩
    have htwo : ([h.frameType, h.flags] : Bytes).length = 2 := rfl
    unfold readFrameHeader
    rw [hbytes] at hparse ⊢
    rw [List.append_assoc, readExactly_append htwo]
    dsimp only [bind, Except.bind]
    rw [show ([h.frameType, h.flags] : Bytes).getD 1 0 = h.flags from rfl, readExactly_append hrest]
    dsimp only
    rw [hparse]
  unfold readFrame
  rw [hheader]
  dsimp only [bind, Except.bind]
  rw [hlength, ← List.append_nil payload, readExactly_append (by simp), List.append_nil]

/-! ### What the two ends hold -/

def tierOfEncoding (encoding : String) : EncodingTier := if encoding = "msgpack" then .msgPack else .json

/-- The capabilities that a server sends. -/
def capsOf (n : Negotiation) (serverCaps : NcpHandshakeCapsFrame WireValue) : NcpHandshakeCapsFrame WireValue :=
  { serverCaps with
    negotiatedEncoding := some n.negotiatedEncoding
    enabledEncodings := some n.enabledEncodings
    sessionVersion := some n.sessionVersion
    supportedProtocols := some n.supportedProtocols
    maxFramePayload := some n.maxFramePayload
    extSupport := some n.extSupport
    maxConcurrentStreams := some n.maxConcurrentStreams }

/-- The capabilities that a client holds of these. -/
def receivedCaps (n : Negotiation) (serverCaps : NcpHandshakeCapsFrame WireValue)
    (payload : Option WireValue) : NcpHandshakeCapsFrame WireValue :=
  let json : Bool := tierOfEncoding n.negotiatedEncoding = .json
  { capsOf n serverCaps with
    payload
    maxFramePayload := if json then finiteOnly (some n.maxFramePayload) else some n.maxFramePayload
    maxConcurrentStreams :=
      if json then finiteOnly (some n.maxConcurrentStreams) else some n.maxConcurrentStreams }

variable {payloads : Payloads WireValue}
  {serverRegistry clientRegistry : FrameRegistry WireValue (NpsFrame WireValue)}
  {serverMax clientMax : JsDouble} {profile : NcpHandshakeProfile} {hello : HelloFrame}
  {serverCaps : NcpHandshakeCapsFrame WireValue} {wire : Bytes} {server client : NcpSession WireValue}
  {n : Negotiation}

/-- **What a server does** that accepts. -/
theorem accept_ok (h : accept handshakeFrames profile hello ⟨payloads, serverRegistry, serverMax⟩ serverCaps =
    .ok (wire, server)) : ∃ n flags payload, negotiateHandshake profile hello = .ok n ∧
      server = ⟨⟨payloads, serverRegistry, serverMax⟩, capsOf n serverCaps,
        ⟨tierOfEncoding n.negotiatedEncoding, n.enabledEncodings.contains "binary_vector.v1"⟩⟩ ∧
      tierFlags (tierOfEncoding n.negotiatedEncoding) = some flags ∧
      payloads.encode (tierOfEncoding n.negotiatedEncoding) (capsOf n serverCaps).toDict = .ok payload ∧
      wire = (NpsFrameCodec.headerOf
        { frameType := CAPS, preferredTier := .json, toDict := (capsOf n serverCaps).toDict } flags
          payload).toBytes ++ payload := by
  unfold accept at h
  cases hn : negotiateHandshake profile hello with
  | error err =>
    rw [hn] at h
    cases h
  | ok n =>
    rw [hn] at h
    dsimp only at h
    split at h
    · cases h
    · rename_i wire' hencode
      cases h
      obtain ⟨flags, payload, hflags, hpayload, -, hwire⟩ := encode_eq_ok_iff.1 hencode
      exact ⟨n, flags, payload, rfl, rfl, hflags, hpayload, hwire⟩

/-- The frame that a server sends is decoded by its tier. -/
theorem connect_wire {flags : UInt8} {tier : EncodingTier} {dict : WireValue}
    (hflags : tierFlags tier = some flags) (hshort : payload.length ≤ EXTENDED_MAX_PAYLOAD) :
    connect handshakeFrames ⟨payloads, clientRegistry, clientMax⟩
      ((NpsFrameCodec.headerOf { frameType := CAPS, preferredTier := .json, toDict := dict } flags
        payload).toBytes ++ payload) =
      match payloads.decode tier payload >>= NcpHandshakeCapsFrame.fromDict with
      | .error err => .error (.session (.codec (.decode tier CAPS err)))
      | .ok caps => .ok ⟨⟨payloads, clientRegistry, clientMax⟩, caps,
          .fromEnabledEncodings tier caps.enabledEncodings⟩ := by
  generalize hframe :
    ({ frameType := CAPS, preferredTier := .json, toDict := dict } : NpsFrame WireValue) = frame
  have htype : (NpsFrameCodec.headerOf frame flags payload).frameType = CAPS := by
    rw [← hframe]
    rfl
  obtain ⟨htier, hext⟩ := flags_headerOf hflags frame payload
  have hmax : payload.length ≤ maxPayload (NpsFrameCodec.headerOf frame flags payload).flags := by
    have hext : extended (NpsFrameCodec.headerOf frame flags payload).flags =
        decide (DEFAULT_MAX_PAYLOAD < payload.length) := hext
    rw [maxPayload, hext]
    by_cases hlong : DEFAULT_MAX_PAYLOAD < payload.length
    · rw [if_pos (by simpa using hlong)]
      exact hshort
    · rw [if_neg (by simpa using hlong)]
      exact not_lt.1 hlong
  have hread := readFrame_toBytes (h := NpsFrameCodec.headerOf frame flags payload) rfl hmax
  have hparse := (NpsFrameCodec.headerOf frame flags payload).parse_toBytes payload hmax
  unfold connect
  rw [hread]
  dsimp only
  rw [htype, if_neg (by simp), NpsFrameCodec.decode, hparse]
  dsimp only
  rw [htier, hflags, htype, List.drop_append_of_le_length (by rw [FrameHeader.length_toBytes]),
    ← FrameHeader.length_toBytes, List.drop_length, List.nil_append,
    show (NpsFrameCodec.headerOf frame flags payload).payloadLength = payload.length from rfl, List.take_length]
  dsimp only [handshakeCodec]
  rw [if_pos rfl]
  cases payloads.decode tier payload with
  | error err => rfl
  | ok dict =>
    dsimp only [bind, Except.bind]
    rw [show handshakeFrames.fromDict dict = NcpHandshakeCapsFrame.fromDict dict from rfl]
    cases NcpHandshakeCapsFrame.fromDict dict <;> rfl

/-! ### Limits that arrive -/

theorem finiteOnly_iff {d : JsDouble} : some d = finiteOnly (some d) ↔ ∃ q, d = .fin q := by
  cases d <;> simp [finiteOnly]

/-- The lesser of two positive limits is finite exactly if one of them is, and none is `NaN`. -/
theorem min_finite_iff {a b : JsDouble} (ha : ¬ a ≤ 0) (hb : ¬ b ≤ 0) :
    (∃ q, JsDouble.min a b = .fin q) ↔ FiniteLimit a b := by
  have hinf : JsDouble.negInf ≤ 0 := JsDouble.le_of_lt rfl
  unfold FiniteLimit JsDouble.min
  cases a with
  | nan => simp
  | negInf => exact absurd hinf ha
  | fin p =>
    cases b with
    | nan => simp
    | negInf => exact absurd hinf hb
    | fin q =>
      rw [if_neg (by simp)]
      split <;> simp
    | posInf =>
      rw [if_neg (by simp), if_pos (show JsDouble.fin p < .posInf from rfl)]
      simp
  | posInf =>
    cases b with
    | nan => simp
    | negInf => exact absurd hinf hb
    | fin q =>
      rw [if_neg (by simp), if_neg (show ¬ JsDouble.posInf < .fin q from nofun)]
      simp
    | posInf =>
      rw [if_neg (by simp), if_neg (show ¬ JsDouble.posInf < .posInf from nofun)]
      simp

/-! ### Both ends -/

theorem arrived_of_decode {encoding : String} {dict v : WireValue} (hhost : HostCodecs payloads dict)
    (hencode : payloads.encode (tierOfEncoding encoding) dict = .ok payload)
    (hdecode : payloads.decode (tierOfEncoding encoding) payload = .ok v) :
    v = arrived (decide (tierOfEncoding encoding = .json)) dict := by
  unfold tierOfEncoding at hencode hdecode ⊢
  by_cases hmsgpack : encoding = "msgpack"
  · rw [if_pos hmsgpack] at hencode hdecode ⊢
    exact hhost.msgPack _ _ hencode hdecode
  · rw [if_neg hmsgpack] at hencode hdecode ⊢
    exact hhost.json _ _ hencode hdecode

/-- **What a client makes** of the frame of a server. -/
theorem connect_ok (hhost : HostCodecs payloads (capsOf n serverCaps).toDict) {flags : UInt8}
    (hflags : tierFlags (tierOfEncoding n.negotiatedEncoding) = some flags)
    (hencode : payloads.encode (tierOfEncoding n.negotiatedEncoding) (capsOf n serverCaps).toDict = .ok payload)
    (hconnect : connect handshakeFrames ⟨payloads, clientRegistry, clientMax⟩
      ((NpsFrameCodec.headerOf
        { frameType := CAPS, preferredTier := .json, toDict := (capsOf n serverCaps).toDict } flags
          payload).toBytes ++ payload) = .ok client) :
    ∃ received, client = ⟨⟨payloads, clientRegistry, clientMax⟩, receivedCaps n serverCaps received,
      ⟨tierOfEncoding n.negotiatedEncoding, n.enabledEncodings.contains "binary_vector.v1"⟩⟩ := by
  rw [connect_wire hflags (hhost.short _ _ hencode)] at hconnect
  cases hdecode : payloads.decode (tierOfEncoding n.negotiatedEncoding) payload with
  | error err =>
    rw [hdecode] at hconnect
    cases hconnect
  | ok v =>
    obtain ⟨received, hread⟩ :=
      fromDict_arrived (decide (tierOfEncoding n.negotiatedEncoding = .json)) (capsOf n serverCaps)
    rw [hdecode, arrived_of_decode hhost hencode hdecode] at hconnect
    dsimp only [bind, Except.bind] at hconnect
    rw [hread] at hconnect
    cases hconnect
    exact ⟨received, rfl⟩

theorem noProto_strings (items : List String) : (WireValue.strings items).noProto = true := by
  show WireValue.noProtoItems (items.map .str) = true
  induction items with
  | nil => rfl
  | cons s items ih =>
    rw [List.map_cons, WireValue.noProtoItems, ih]
    rfl

theorem noProto_orNull {α : Type} {f : α → WireValue} {o : Option α} (h : ∀ a ∈ o, (f a).noProto = true) :
    (WireValue.orNull f o).noProto = true := by
  cases o with
  | none => rfl
  | some a => exact h a rfl

theorem noProto_toDict {f : NcpHandshakeCapsFrame WireValue} (h : ∀ v ∈ f.payload, v.noProto = true) :
    f.toDict.noProto = true := by
  unfold NcpHandshakeCapsFrame.toDict
  simp only [WireValue.noProto, WireValue.noProtoMembers, noProto_strings,
    noProto_orNull (f := .str) fun _ _ => rfl, noProto_orNull (f := .num) fun _ _ => rfl,
    noProto_orNull (f := .bool) fun _ _ => rfl,
    noProto_orNull (f := WireValue.strings) fun _ _ => noProto_strings _, noProto_orNull (f := id) h]
  decide

/-- **The two sessions** are the same exactly if the encoding is MessagePack, or both limits are finite. -/
theorem sameSession_iff {smin smax cmin cmax : ℕ × ℕ} {stable : String} {received : Option WireValue}
    (h : Accepts profile hello smin smax cmin cmax stable)
    (hn : n = agreed profile hello (minVersion (readVersion smax) (readVersion cmax)) stable) :
    SameSession ⟨⟨payloads, serverRegistry, serverMax⟩, capsOf n serverCaps,
        ⟨tierOfEncoding n.negotiatedEncoding, n.enabledEncodings.contains "binary_vector.v1"⟩⟩
      ⟨⟨payloads, clientRegistry, clientMax⟩, receivedCaps n serverCaps received,
        ⟨tierOfEncoding n.negotiatedEncoding, n.enabledEncodings.contains "binary_vector.v1"⟩⟩ ↔
      hello.supportedEncodings.find? (isStable profile) = some "msgpack" ∨
        FiniteLimit profile.maxFramePayload hello.maxFramePayload ∧
          FiniteLimit profile.maxConcurrentStreams hello.maxConcurrentStreams := by
  have hencoding : n.negotiatedEncoding = stable := by
    rw [hn]
    rfl
  have hlimits := h.limits
  simp only [not_or] at hlimits
  have hpayload : (∃ q, n.maxFramePayload = .fin q) ↔ FiniteLimit profile.maxFramePayload hello.maxFramePayload := by
    rw [hn]
    exact min_finite_iff hlimits.2.1 hlimits.1
  have hstreams : (∃ q, n.maxConcurrentStreams = .fin q) ↔
      FiniteLimit profile.maxConcurrentStreams hello.maxConcurrentStreams := by
    rw [hn]
    exact min_finite_iff hlimits.2.2.2 hlimits.2.2.1
  rw [h.encoding, ← hpayload, ← hstreams, ← finiteOnly_iff, ← finiteOnly_iff, Option.some.injEq]
  by_cases hmsgpack : stable = "msgpack"
  · have htier : tierOfEncoding n.negotiatedEncoding ≠ .json := by
      rw [hencoding, tierOfEncoding, if_pos hmsgpack]
      decide
    refine iff_of_true ⟨fun _ _ => rfl, rfl, rfl, ?_, rfl, ?_⟩ (.inl hmsgpack)
    · simp [receivedCaps, capsOf, htier]
    · simp [receivedCaps, capsOf, htier]
  · have htier : tierOfEncoding n.negotiatedEncoding = .json := by
      rw [hencoding, tierOfEncoding, if_neg hmsgpack]
    have hreceived : (receivedCaps n serverCaps received).maxFramePayload = finiteOnly (some n.maxFramePayload) ∧
        (receivedCaps n serverCaps received).maxConcurrentStreams = finiteOnly (some n.maxConcurrentStreams) := by
      simp [receivedCaps, htier]
    constructor
    · intro hsame
      exact .inr ⟨hsame.maxFramePayload.trans hreceived.1, hsame.maxConcurrentStreams.trans hreceived.2⟩
    · rintro (hstable | ⟨h1, h2⟩)
      · exact absurd hstable hmsgpack
      · exact ⟨fun _ _ => rfl, rfl, rfl, h1.trans hreceived.1.symm, rfl, h2.trans hreceived.2.symm⟩

theorem exists_client (clientRegistry : FrameRegistry WireValue (NpsFrame WireValue)) (clientMax : JsDouble)
    (haccept : accept handshakeFrames profile hello ⟨payloads, serverRegistry, serverMax⟩
      serverCaps = .ok (wire, server)) (hhost : HostCodecs payloads server.serverCaps.toDict)
    (hproto : ∀ v ∈ serverCaps.payload, v.noProto = true) :
    ∃ client, connect handshakeFrames ⟨payloads, clientRegistry, clientMax⟩ wire = .ok client := by
  obtain ⟨n, flags, payload, hn, rfl, hflags, hencode, rfl⟩ := accept_ok haccept
  obtain ⟨v, hdecode⟩ := hhost.reads _ _ hencode (noProto_toDict (f := capsOf n serverCaps) hproto)
  obtain ⟨received, hread⟩ :=
    fromDict_arrived (decide (tierOfEncoding n.negotiatedEncoding = .json)) (capsOf n serverCaps)
  rw [connect_wire hflags (hhost.short _ _ hencode), hdecode, arrived_of_decode hhost hencode hdecode]
  dsimp only [bind, Except.bind]
  rw [hread]
  exact ⟨_, rfl⟩

theorem sameSession_of_connect (haccept : accept handshakeFrames profile hello
      ⟨payloads, serverRegistry, serverMax⟩ serverCaps = .ok (wire, server))
    (hhost : HostCodecs payloads server.serverCaps.toDict)
    (hconnect : connect handshakeFrames ⟨payloads, clientRegistry, clientMax⟩ wire = .ok client) :
    SameSession server client ↔ hello.supportedEncodings.find? (isStable profile) = some "msgpack" ∨
      FiniteLimit profile.maxFramePayload hello.maxFramePayload ∧
        FiniteLimit profile.maxConcurrentStreams hello.maxConcurrentStreams := by
  obtain ⟨n, flags, payload, hn, rfl, hflags, hencode, rfl⟩ := accept_ok haccept
  obtain ⟨smin, smax, cmin, cmax, stable, h, hagreed⟩ := negotiateHandshake_ok_iff.1 hn
  obtain ⟨received, rfl⟩ := connect_ok hhost hflags hencode hconnect
  exact sameSession_iff h hagreed

/-- **Both ends derive the same session** exactly if the encoding is MessagePack, or both limits are finite. -/
theorem both_ends_agree_iff (payloads : Payloads WireValue)
    (serverRegistry clientRegistry : FrameRegistry WireValue (NpsFrame WireValue))
    (serverMax clientMax : JsDouble)
    (profile : NcpHandshakeProfile) (hello : HelloFrame) (serverCaps : NcpHandshakeCapsFrame WireValue)
    (wire : Bytes) (server : NcpSession WireValue)
    (haccept : accept handshakeFrames profile hello ⟨payloads, serverRegistry, serverMax⟩ serverCaps =
      .ok (wire, server)) (hhost : HostCodecs payloads server.serverCaps.toDict) :
    (∀ client, connect handshakeFrames ⟨payloads, clientRegistry, clientMax⟩ wire = .ok client →
      (SameSession server client ↔
        hello.supportedEncodings.find? (isStable profile) = some "msgpack" ∨
          FiniteLimit profile.maxFramePayload hello.maxFramePayload ∧
            FiniteLimit profile.maxConcurrentStreams hello.maxConcurrentStreams)) ∧
    ((∀ v ∈ serverCaps.payload, v.noProto = true) →
      ∃ client, connect handshakeFrames ⟨payloads, clientRegistry, clientMax⟩ wire = .ok client) :=
  ⟨fun _ hconnect => sameSession_of_connect haccept hhost hconnect, exists_client clientRegistry clientMax haccept hhost⟩

/-! ### A server without limits -/

/-- A server that takes payloads of any length. -/
def unlimitedProfile : NcpHandshakeProfile := { maxFramePayload := .posInf }

/-- A client that offers the same: `1e999` in its hello. -/
def unlimitedHello : HelloFrame where
  npsVersion := "0.11"
  supportedEncodings := ["json"]
  supportedProtocols := ["ncp"]
  maxFramePayload := .posInf

def bareCaps : NcpHandshakeCapsFrame WireValue := { nodeId := "n", caps := [] }

/-- The capabilities that this server sends a client, with one limit. -/
def sentCaps (limit : JsDouble) : NcpHandshakeCapsFrame WireValue :=
  { bareCaps with
    negotiatedEncoding := some "json"
    enabledEncodings := some ["json"]
    sessionVersion := some "0.11"
    supportedProtocols := some ["ncp"]
    maxFramePayload := some limit
    extSupport := some false
    maxConcurrentStreams := some 32 }

def sentText (limit : String) : Bytes :=
  ("\x7b\"node_id\":\"n\",\"caps\":[],\"negotiated_encoding\":\"json\",".toList ++
    "\"enabled_encodings\":[\"json\"],\"session_version\":\"0.11\",".toList ++
    "\"supported_protocols\":[\"ncp\"],\"max_frame_payload\":".toList ++ limit.toList ++
    ",\"ext_support\":false,\"max_concurrent_streams\":32,\"anchor_ref\":null,".toList ++
    "\"payload\":null\x7d".toList).map fun c => UInt8.ofNat c.toNat

/-- JSON, for these capabilities. -/
def sentPayloads (limit : JsDouble) (text : String) : Payloads WireValue where
  encode
    | .json, _ => .ok (sentText text)
    | _, _ => .error "not JSON"
  decode
    | .json, _ => .ok (sentCaps limit).toDict.jsonWritten
    | _, _ => .error "not JSON"

theorem hostCodecs_sent (limit : JsDouble) (text : String) (hshort : (sentText text).length ≤ EXTENDED_MAX_PAYLOAD) :
    HostCodecs (sentPayloads limit text) (sentCaps limit).toDict where
  json bytes v _ hdecode := (Except.ok.inj hdecode).symm
  msgPack := nofun
  reads tier bytes hencode _ := by
    cases tier with
    | json => exact ⟨_, rfl⟩
    | _ => cases hencode
  short tier bytes hencode := by
    cases tier with
    | json =>
      cases hencode
      exact hshort
    | _ => cases hencode

def isSent (limit : JsDouble) : Except ErrorClose Negotiation → Bool
  | .ok n => n.sessionVersion == "0.11" && n.negotiatedEncoding == "json" && n.enabledEncodings == ["json"] &&
      n.supportedProtocols == ["ncp"] && n.maxFramePayload == limit && n.extSupport == false &&
      n.maxConcurrentStreams == 32
  | .error _ => false

theorem sent_evaluated : isSent .posInf (negotiateHandshake unlimitedProfile unlimitedHello) = true ∧
    isSent (.fin 65535) (negotiateHandshake {} unlimitedHello) = true ∧
    (sentText "null").length ≤ EXTENDED_MAX_PAYLOAD ∧ (sentText "65535").length ≤ EXTENDED_MAX_PAYLOAD := by
  decide +kernel

theorem accept_sent {limit : JsDouble} (text : String) (h : isSent limit (negotiateHandshake profile hello) = true) :
    ∃ wire server, accept handshakeFrames profile hello ⟨sentPayloads limit text, fun _ => none, .posInf⟩
        bareCaps = .ok (wire, server) ∧ server.serverCaps = sentCaps limit := by
  cases hn : negotiateHandshake profile hello with
  | error err =>
    rw [hn] at h
    cases h
  | ok n =>
    obtain ⟨version, encoding, enabled, protocols, maxFramePayload, ext, streams⟩ := n
    rw [hn] at h
    simp only [isSent, Bool.and_eq_true, beq_iff_eq] at h
    obtain ⟨⟨⟨⟨⟨⟨rfl, rfl⟩, rfl⟩, rfl⟩, rfl⟩, rfl⟩, rfl⟩ := h
    unfold accept
    rw [hn]
    exact ⟨_, _, rfl, rfl⟩

/-- With no limit on either side, the client holds no limit where the server holds infinity. -/
theorem unlimited_disagrees : ¬ ∀ (payloads : Payloads WireValue)
    (serverRegistry clientRegistry : FrameRegistry WireValue (NpsFrame WireValue))
    (serverMax clientMax : JsDouble)
    (profile : NcpHandshakeProfile) (hello : HelloFrame) (serverCaps : NcpHandshakeCapsFrame WireValue)
    (wire : Bytes) (server client : NcpSession WireValue),
    accept handshakeFrames profile hello ⟨payloads, serverRegistry, serverMax⟩ serverCaps = .ok (wire, server) →
    HostCodecs payloads server.serverCaps.toDict →
    connect handshakeFrames ⟨payloads, clientRegistry, clientMax⟩ wire = .ok client →
      SameSession server client := by
  intro hall
  obtain ⟨wire, server, haccept, hcaps⟩ := accept_sent "null" sent_evaluated.1
  have hhost : HostCodecs (sentPayloads .posInf "null") server.serverCaps.toDict := by
    rw [hcaps]
    exact hostCodecs_sent _ _ sent_evaluated.2.2.1
  obtain ⟨client, hconnect⟩ := exists_client (fun _ => none) .posInf haccept hhost nofun
  have hsame := hall _ _ _ _ _ _ _ _ _ _ _ haccept hhost hconnect
  rcases (sameSession_of_connect haccept hhost hconnect).1 hsame with h | ⟨h, -⟩
  · exact absurd h (by decide)
  · exact h.2.2 ⟨rfl, rfl⟩

/-- With the limit of the default profile, both hold it. -/
theorem limited_agrees : ∃ wire server client,
    accept handshakeFrames {} unlimitedHello ⟨sentPayloads (.fin 65535) "65535", fun _ => none, .posInf⟩
      bareCaps = .ok (wire, server) ∧
    connect handshakeFrames ⟨sentPayloads (.fin 65535) "65535", fun _ => none, .posInf⟩ wire = .ok client ∧
    SameSession server client := by
  obtain ⟨wire, server, haccept, hcaps⟩ := accept_sent "65535" sent_evaluated.2.1
  have hhost : HostCodecs (sentPayloads (.fin 65535) "65535") server.serverCaps.toDict := by
    rw [hcaps]
    exact hostCodecs_sent _ _ sent_evaluated.2.2.2
  obtain ⟨hiff, hexists⟩ := both_ends_agree_iff _ _ (fun _ => none) _ .posInf _ _ _ _ _ haccept hhost
  obtain ⟨client, hconnect⟩ := hexists nofun
  exact ⟨wire, server, client, haccept, hconnect, (hiff client hconnect).2
    (.inr ⟨⟨by decide, by decide, by decide⟩, by decide, by decide, by decide⟩)⟩

end NpsSdk.Ncp
