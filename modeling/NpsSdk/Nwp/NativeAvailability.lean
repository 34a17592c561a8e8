import NpsSdk.Lib.Runs
import NpsSdk.Nwp.NativeChunks

/-!
# Availability of a native server

What a handler throws is answered with an error frame.  The decoding before it and the encoding after it are
not guarded: what they throw ends the connection, and the frames that follow are not answered.
-/

namespace NpsSdk.Nwp

open NpsSdk.Lib NpsSdk.Core.Frames

variable {σ D : Type}

/-- One frame with a header that can be read, and its whole payload. -/
def CompleteFrame (wire : Bytes) : Prop := frameLength wire = some wire.length

instance : DecidablePred CompleteFrame := fun _ => inferInstanceAs (Decidable (_ = _))

namespace NwpNativeNodeServer

/-- What was dispatched and written, after one more frame. -/
def Served.answered (served : Served σ) (host : σ) (wire response : Bytes) : Served σ :=
  { host, dispatched := served.dispatched ++ [wire], written := served.written ++ [response] }

section

variable (server : NwpNativeNodeServer σ D)

/-! ### What is asked of the server -/

inductive Answered : σ → List Bytes → List Bytes → Prop
  | nil (host : σ) : Answered host [] []
  | cons {host host' host'' : σ} {wire response : Bytes} {wires responses : List Bytes}
      (dispatched : server.dispatchWire host wire = (.ok response, host'))
      (written : server.write host' response = (.ok (), host''))
      (rest : Answered host'' wires responses) : Answered host (wire :: wires) (response :: responses)

/-- **The server stays available** on a connection: it answers every frame, in their order, and ends without
a failure. -/
def Available (host : σ) (wires chunks : List Bytes) : Prop :=
  ∃ responses, Answered server host wires responses ∧
    seen (server.serve host chunks) = (.ok (), wires, responses)

/-! ### The unguarded steps -/

def Decodes (wire : Bytes) (frame : NativeFrame D) : Prop :=
  ∃ header fromDict, FrameHeader.parse wire = .ok header ∧ (tierFlags header.encodingTier).isSome ∧
    server.codec.registry header.frameType = some fromDict ∧
      server.codec.payloads.decode header.encodingTier
        ((wire.drop header.headerSize).take header.payloadLength) >>= fromDict = .ok frame

inductive Responds (host : σ) (wire : Bytes) : NpsFrame D → σ → Prop
  | refused (header : FrameHeader) (policyError : ErrorFrame) (parsed : FrameHeader.parse wire = .ok header)
      (refused : server.encodingPolicyError header = some policyError) :
      Responds host wire (server.errorFrame policyError) host
  | dispatched (header : FrameHeader) (frame : NativeFrame D) (parsed : FrameHeader.parse wire = .ok header)
      (admitted : server.encodingPolicyError header = none) (decodes : Decodes server wire frame) :
      Responds host wire (server.dispatch host frame).1 (server.dispatch host frame).2

/-- A response can be encoded, as these bytes: the tier of the server takes its dictionary, and the payload is
not too large. -/
def Encodes (response : NpsFrame D) (bytes : Bytes) : Prop :=
  ∃ flags payload, tierFlags server.tier = some flags ∧
    server.codec.payloads.encode server.tier response.toDict = .ok payload ∧
      ¬ server.codec.maxPayload < .fin payload.length ∧
        bytes = (NpsFrameCodec.headerOf response flags payload).toBytes ++ payload

/-- **A frame can be answered**: the encoding policy refuses it or it can be decoded, its response can be encoded,
and the sink takes the bytes. -/
def Answerable (host : σ) (wire : Bytes) : Prop :=
  ∃ response host' bytes, Responds server host wire response host' ∧ Encodes server response bytes ∧
    (server.write host' bytes).1 = .ok ()

def hostAfter (host : σ) (wire : Bytes) : σ := (server.answerFrame { host } wire).2.host

end

variable {server : NwpNativeNodeServer σ D} {host host' : σ} {wire bytes : Bytes} {wires chunks : List Bytes}

theorem encode_eq_ok_iff {response : NpsFrame D} :
    server.codec.encode response (some server.tier) = .ok bytes ↔ Encodes server response bytes := by
  unfold NpsFrameCodec.encode Encodes
  simp only [Option.getD_some]
  cases hflags : tierFlags server.tier with
  | none => simp
  | some flags =>
    cases hpayload : server.codec.payloads.encode server.tier response.toDict with
    | error err => simp
    | ok payload =>
      by_cases hlarge : server.codec.maxPayload < .fin payload.length
      · simp [hlarge]
      · simp [hlarge, eq_comm]

theorem decode_eq_ok_iff {frame : NativeFrame D} :
    server.codec.decode wire = .ok frame ↔ Decodes server wire frame := by
  unfold NpsFrameCodec.decode Decodes
  cases hparse : FrameHeader.parse wire with
  | error message => simp
  | ok header =>
    cases hflags : tierFlags header.encodingTier with
    | none => simp [hflags]
    | some flags =>
      cases hregistry : server.codec.registry header.frameType with
      | none => simp [hflags, hregistry]
      | some fromDict =>
        simp only [Except.ok.injEq, exists_and_left, exists_eq_left', hflags, Option.isSome_some, true_and,
          hregistry, Option.some.injEq]
        split
        · rename_i heq
          simp [heq]
        · rename_i heq
          simp [heq]

/-- **The response to a frame**: the bytes of the frame that answers it. -/
theorem dispatchWire_eq_ok_iff : server.dispatchWire host wire = (.ok bytes, host') ↔
    ∃ response, Responds server host wire response host' ∧ Encodes server response bytes := by
  constructor
  · intro h
    unfold dispatchWire at h
    cases hparse : FrameHeader.parse wire with
    | error message => simp [hparse] at h
    | ok header =>
      simp only [hparse] at h
      cases hpolicy : server.encodingPolicyError header with
      | some policyError =>
        simp only [hpolicy, Prod.mk.injEq] at h
        obtain ⟨hencode, rfl⟩ := h
        exact ⟨_, .refused header policyError hparse hpolicy, encode_eq_ok_iff.1 hencode⟩
      | none =>
        simp only [hpolicy] at h
        cases hdecode : server.codec.decode wire with
        | error err => simp [hdecode] at h
        | ok frame =>
          simp only [hdecode, Prod.mk.injEq] at h
          obtain ⟨hencode, rfl⟩ := h
          exact ⟨_, .dispatched header frame hparse hpolicy (decode_eq_ok_iff.1 hdecode), encode_eq_ok_iff.1 hencode⟩
  · rintro ⟨response, hresponds, hencodes⟩
    have hencode := encode_eq_ok_iff.2 hencodes
    cases hresponds with
    | refused header policyError parsed refused => simp only [dispatchWire, parsed, refused, hencode]
    | dispatched header frame parsed admitted decodes =>
      have hdecode := decode_eq_ok_iff.2 decodes
      simp only [dispatchWire, parsed, admitted, hdecode, hencode]

variable (server) in
theorem answerFrame_cases (served : Served σ) (wire : Bytes) :
    (∃ response host' host'', server.dispatchWire served.host wire = (.ok response, host') ∧
      server.write host' response = (.ok (), host'') ∧ Answerable server served.host wire ∧
        hostAfter server served.host wire = host'' ∧
          server.answerFrame served wire = (.ok (), served.answered host'' wire response)) ∨
    (¬ Answerable server served.host wire ∧ (∀ response host' host'',
      server.dispatchWire served.host wire = (.ok response, host') → server.write host' response ≠ (.ok (), host'')) ∧
      ∃ err served', server.answerFrame served wire = (.error err, served')) := by
  rcases hwire : server.dispatchWire served.host wire with ⟨err | response, host'⟩
  · right
    refine ⟨?_, by rintro _ _ _ ⟨⟩, ?_⟩
    · rintro ⟨response, host'', bytes, hresponds, hencodes, -⟩
      have hok := dispatchWire_eq_ok_iff.2 ⟨response, hresponds, hencodes⟩
      rw [hwire] at hok
      cases hok
    · rw [answerFrame, hwire]
      exact ⟨_, _, rfl⟩
  · obtain ⟨frame, hresponds, hencodes⟩ := dispatchWire_eq_ok_iff.1 hwire
    rcases hwrite : server.write host' response with ⟨message | ⟨⟩, host''⟩
    · right
      refine ⟨?_, ?_, ?_⟩
      · rintro ⟨frame', host₁, bytes, hresponds', hencodes', hok⟩
        have heq := dispatchWire_eq_ok_iff.2 ⟨frame', hresponds', hencodes'⟩
        rw [hwire] at heq
        cases heq
        rw [hwrite] at hok
        cases hok
      · rintro _ _ _ ⟨⟩ hok
        rw [hwrite] at hok
        cases hok
      · simp only [answerFrame, hwire, hwrite]
        exact ⟨_, _, rfl⟩
    · left
      refine ⟨response, host', host'', rfl, hwrite, ⟨frame, host', response, hresponds, hencodes, by rw [hwrite]⟩,
        ?_, ?_⟩
      · simp only [hostAfter, answerFrame, hwire, hwrite]
      · simp only [answerFrame, hwire, hwrite, Served.answered]

/-- **The frames are all answered** exactly if each can be answered in the state it finds. -/
theorem answerFrames_ok_iff (served : Served σ) : (server.answerFrames wires served).1 = .ok () ↔
    Along (hostAfter server) (Answerable server) served.host wires := by
  induction wires generalizing served with
  | nil => exact iff_of_true rfl along_nil
  | cons wire wires ih =>
    rw [along_cons, answerFrames]
    rcases answerFrame_cases server served wire with
      ⟨response, host', host'', -, -, hanswerable, hafter, hanswer⟩ | ⟨hno, -, err, served', hanswer⟩
    · rw [hanswer, hafter]
      simp only [hanswerable, true_and]
      exact ih _
    · rw [hanswer]
      exact iff_of_false (by simp) fun h => hno h.1

theorem answered_of_ok (served : Served σ) (h : (server.answerFrames wires served).1 = .ok ()) :
    ∃ responses, Answered server served.host wires responses ∧
      (server.answerFrames wires served).2.dispatched = served.dispatched ++ wires ∧
      (server.answerFrames wires served).2.written = served.written ++ responses := by
  induction wires generalizing served with
  | nil => exact ⟨[], .nil _, by simp [answerFrames], by simp [answerFrames]⟩
  | cons wire wires ih =>
    rw [answerFrames] at h ⊢
    rcases answerFrame_cases server served wire with
      ⟨response, host', host'', hdispatch, hwrite, -, -, hanswer⟩ | ⟨-, -, err, served', hanswer⟩
    · rw [hanswer] at h ⊢
      obtain ⟨responses, hanswered, hdispatched, hwritten⟩ := ih _ h
      exact ⟨response :: responses, .cons hdispatch hwrite hanswered, by simpa [Served.answered] using hdispatched,
        by simpa [Served.answered] using hwritten⟩
    · rw [hanswer] at h
      cases h

theorem answerFrames_of_answered {responses : List Bytes} (h : Answered server host wires responses)
    (dispatched written : List Bytes) : ∃ host', server.answerFrames wires { host, dispatched, written } =
      (.ok (), { host := host', dispatched := dispatched ++ wires, written := written ++ responses }) := by
  induction h generalizing dispatched written with
  | nil host => exact ⟨host, by simp [answerFrames]⟩
  | @cons host host' host'' wire response wires responses dispatched' written' rest ih =>
    have hanswer : server.answerFrame { host, dispatched, written } wire =
        (.ok (), Served.answered { host, dispatched, written } host'' wire response) := by
      simp only [answerFrame, dispatched', written', Served.answered]
    obtain ⟨host₁, hrest⟩ := ih (dispatched ++ [wire]) (written ++ [response])
    refine ⟨host₁, ?_⟩
    rw [answerFrames, hanswer]
    simpa [Served.answered] using hrest

theorem serve_whole (hframes : ∀ wire ∈ wires, CompleteFrame wire) :
    server.serve host [wires.flatten] = server.answerFrames wires { host } := by
  rw [serve, serveFrom_cons, List.nil_append, nativeFraming.cut_flatten hframes]
  rcases server.answerFrames wires { host } with ⟨err | ⟨⟩, served⟩ <;> rfl

/-- **The server stays available exactly if every frame can be answered** and no chunk cuts an extended header. -/
theorem available_iff (hframes : ∀ wire ∈ wires, CompleteFrame wire) (hchunks : chunks.flatten = wires.flatten) :
    Available server host wires chunks ↔
      ¬ CutsHeader server host chunks ∧ Along (hostAfter server) (Answerable server) host wires := by
  have hwhole : seen (server.serve host chunks) = seen (server.answerFrames wires { host }) ↔
      ¬ CutsHeader server host chunks := by
    rw [← serve_whole hframes, ← hchunks]
    exact seen_serveFrom_iff chunks rfl id _
  have hok : (server.answerFrames wires { host }).1 = .ok () ↔
      Along (hostAfter server) (Answerable server) host wires := answerFrames_ok_iff { host }
  constructor
  · rintro ⟨responses, hanswered, hserve⟩
    obtain ⟨host', hrun⟩ := answerFrames_of_answered hanswered [] []
    have hsame : seen (server.serve host chunks) = seen (server.answerFrames wires { host }) := by
      rw [hserve, hrun]
      rfl
    exact ⟨hwhole.1 hsame, hok.1 (by rw [hrun])⟩
  · rintro ⟨hcuts, hall⟩
    obtain ⟨responses, hanswered, hdispatched, hwritten⟩ := answered_of_ok _ (hok.2 hall)
    refine ⟨responses, hanswered, ?_⟩
    rw [hwhole.2 hcuts, seen, hok.2 hall, hdispatched, hwritten]
    rfl

end NwpNativeNodeServer

/-- A server that acknowledges actions and knows no other type of frame. -/
def actionServer : NwpNativeNodeServer (List Bytes) Bytes :=
  { echoServer with
    codec := { echoServer.codec with
      registry := fun frameType => if frameType = 0x11 then some fun payload => .ok (.action payload none) else none } }

/-- An action frame with a payload of one byte, and a keepalive. -/
def actionWire : Bytes := [0x11, 0x05, 0, 1, 0x2a]
def nopWire : Bytes := [0x07, 0x05, 0, 1, 0x80]

open NwpNativeNodeServer in
/-- Two actions are answered. -/
theorem actions_answered : Available actionServer [] [actionWire, actionWire] [actionWire, actionWire] := by
  have halong : Along (hostAfter actionServer) (Answerable actionServer) [] [actionWire, actionWire] :=
    (answerFrames_ok_iff { host := [] }).1 (by decide)
  refine (available_iff (by decide) rfl).2 ⟨?_, halong⟩
  have hsame : seen (actionServer.serve [] [actionWire, actionWire]) =
      seen (actionServer.serve [] [[actionWire, actionWire].flatten]) := by decide
  exact (seen_serveFrom_iff [actionWire, actionWire] rfl id _).1 hsame

open NwpNativeNodeServer in
/-- No type is registered for the keepalive: the action that follows it is not answered. -/
theorem keepalive_ends_connection : ¬ ∀ (server : NwpNativeNodeServer (List Bytes) Bytes) (host : List Bytes)
    (wires chunks : List Bytes), (∀ wire ∈ wires, CompleteFrame wire) → chunks.flatten = wires.flatten →
      Available server host wires chunks := by
  intro h
  obtain ⟨responses, -, hserve⟩ := h actionServer [] [nopWire, actionWire] [nopWire ++ actionWire] (by decide) rfl
  have hfailed : (actionServer.serve [] [nopWire ++ actionWire]).1 = .error (.codec (.unregistered 0x07)) := by decide
  have hok : (actionServer.serve [] [nopWire ++ actionWire]).1 = .ok () := congrArg Prod.fst hserve
  rw [hfailed] at hok
  cases hok

end NpsSdk.Nwp
