import NpsSdk.Lib.Framing
import NpsSdk.Nwp.NativeServer

/-!
# Chunks of a native connection

The server answers the frames that the bytes of a connection are cut into.  It wants a whole header as
soon as it has four bytes, so that a chunk that ends within an extended header fails the connection.
-/

namespace NpsSdk.Nwp

open NpsSdk.Lib NpsSdk.Core.Frames
open NpsSdk.Core (EXT_BIT EXTENDED_HEADER_SIZE DEFAULT_HEADER_SIZE extended)

variable {σ D : Type}

/-! ### Headers in buffers -/

/-- The buffer starts with an extended header that has not come in as a whole. -/
def HeaderCut : Bytes → Prop
  | _ :: flags :: rest => extended flags = true ∧ 2 ≤ rest.length ∧ rest.length < 6
  | _ => False

instance : DecidablePred HeaderCut := fun buffer =>
  match buffer with
  | _ :: _ :: _ => inferInstanceAs (Decidable (_ ∧ _ ∧ _))
  | [_] => isFalse id
  | [] => isFalse id

theorem getUint_append_of_le {k pos : ℕ} {b : Bytes} (c : Bytes) (h : pos + k ≤ b.length) :
    getUint k pos (b ++ c) = getUint k pos b := by
  have hpos : pos ≤ b.length := by omega
  have hk : k ≤ (b.drop pos).length := by
    rw [List.length_drop]
    omega
  rw [getUint, List.drop_append_of_le_length hpos, List.take_append_of_le_length hk]
  rfl

def headerCutMessage (length : ℕ) : String :=
  "Buffer too small for extended frame header: need 8 bytes, got " ++ toString length ++ "."

theorem parse_of_headerCut {b : Bytes} (h : HeaderCut b) :
    FrameHeader.parse b = .error (headerCutMessage b.length) := by
  match b, h with
  | frameType :: flags :: rest, ⟨hext, hle, hlt⟩ =>
    have hbit : flags &&& 0x80 ≠ 0 := by simpa [extended, EXT_BIT] using hext
    have hsize : (frameType :: flags :: rest).length < EXTENDED_HEADER_SIZE := by
      simp only [List.length_cons, EXTENDED_HEADER_SIZE]
      omega
    simp only [FrameHeader.parse, hbit, hsize, if_true, ne_eq, not_false_eq_true]
    rfl

theorem parse_of_not_headerCut {b : Bytes} (hlen : 4 ≤ b.length) (h : ¬ HeaderCut b) :
    ∃ header, ∀ c, FrameHeader.parse (b ++ c) = .ok header := by
  match b, hlen, h with
  | frameType :: flags :: rest, hlen, h =>
    simp only [List.length_cons] at hlen
    cases hext : extended flags with
    | true =>
      have hrest : 2 + 4 ≤ rest.length := by
        by_contra hlt
        exact h ⟨hext, by omega, by omega⟩
      refine ⟨⟨frameType, flags, getUint 4 2 rest⟩, fun c => ?_⟩
      have hrest' : 6 ≤ (rest ++ c).length := by
        rw [List.length_append]
        omega
      rw [← getUint_append_of_le c hrest]
      exact FrameHeader.parse_extended hext hrest'
    | false =>
      have hrest : 0 + 2 ≤ rest.length := by omega
      refine ⟨⟨frameType, flags, getUint 2 0 rest⟩, fun c => ?_⟩
      have hrest' : 2 ≤ (rest ++ c).length := by
        rw [List.length_append]
        omega
      rw [← getUint_append_of_le c hrest]
      exact FrameHeader.parse_default hext hrest'

theorem HeaderCut.length {b : Bytes} (h : HeaderCut b) : 4 ≤ b.length ∧ b.length < 8 := by
  match b, h with
  | _ :: _ :: rest, h =>
    obtain ⟨-, hle, hlt⟩ := h
    simp only [List.length_cons]
    omega

theorem headerSize_pos (header : FrameHeader) : 0 < header.headerSize := by
  unfold FrameHeader.headerSize EXTENDED_HEADER_SIZE DEFAULT_HEADER_SIZE
  split <;> omega

/-- The length of the frame at the start of a buffer. -/
def frameLength (b : Bytes) : Option ℕ :=
  if b.length < 4 then none
  else match FrameHeader.parse b with
    | .error _ => none
    | .ok header =>
      if b.length < header.headerSize + header.payloadLength then none
      else some (header.headerSize + header.payloadLength)

theorem frameLength_eq_some {b : Bytes} {n : ℕ} : frameLength b = some n ↔
    ∃ header, 4 ≤ b.length ∧ FrameHeader.parse b = .ok header ∧
      n = header.headerSize + header.payloadLength ∧ n ≤ b.length := by
  unfold frameLength
  cases hparse : FrameHeader.parse b with
  | error message => simp
  | ok header =>
    constructor
    · intro h
      by_cases hlen : b.length < 4
      · rw [if_pos hlen] at h
        cases h
      · by_cases htotal : b.length < header.headerSize + header.payloadLength
        · simp only [hlen, htotal, if_true, if_false] at h
          cases h
        · simp only [hlen, htotal, if_false] at h
          cases h
          exact ⟨header, by omega, rfl, rfl, by omega⟩
    · rintro ⟨header', hlen, hheader, rfl, hle⟩
      cases hheader
      rw [if_neg (by omega)]
      simp only [not_lt.2 hle, if_false]

def nativeFraming : Framing UInt8 where
  length := frameLength
  fits h := by
    obtain ⟨header, -, -, rfl, hle⟩ := frameLength_eq_some.1 h
    have hpos := headerSize_pos header
    exact ⟨by omega, hle⟩
  stable := by
    intro b c n h
    obtain ⟨header, hlen, hparse, hn, hle⟩ := frameLength_eq_some.1 h
    have hcut : ¬ HeaderCut b := fun hcut => by rw [parse_of_headerCut hcut] at hparse; cases hparse
    obtain ⟨header', hheader⟩ := parse_of_not_headerCut hlen hcut
    have heq := hheader []
    rw [List.append_nil, hparse] at heq
    cases heq
    rw [frameLength_eq_some, List.length_append]
    exact ⟨header, by omega, hheader c, hn, by omega⟩

/-! ### Frame by frame -/

namespace NwpNativeNodeServer

variable (server : NwpNativeNodeServer σ D)

/-- Answers the frames until one fails. -/
def answerFrames : List Bytes → Served σ → Except ServeError Unit × Served σ
  | [], served => (.ok (), served)
  | wire :: wires, served =>
    match server.answerFrame served wire with
    | (.error err, served) => (.error err, served)
    | (.ok (), served) => answerFrames wires served

/-- A failure ends the connection; else the rest goes on with it. -/
def andThen {α β : Type} (run : Except ServeError α × Served σ)
    (next : α → Served σ → Except ServeError β × Served σ) : Except ServeError β × Served σ :=
  match run with
  | (.error err, served) => (.error err, served)
  | (.ok a, served) => next a served

/-- What is left of a buffer that starts with no frame. -/
def leftover (rest : Bytes) (served : Served σ) : Except ServeError Bytes × Served σ :=
  if HeaderCut rest then (.error (.header (headerCutMessage rest.length)), served)
  else (.ok rest, served)

/-- The end of the connection. -/
def finish (rest : Bytes) (served : Served σ) : Except ServeError Unit × Served σ :=
  server.serveFrom [] rest served

/-- A chunk ends within an extended header while the frames before are answered, and more bytes come. -/
def CutFrom (buffer : Bytes) (served : Served σ) (chunks : List Bytes) : Prop :=
  ∃ before after, chunks = before ++ after ∧ after.flatten ≠ [] ∧
    (server.answerFrames (nativeFraming.cut (buffer ++ before.flatten)).1 served).1 = .ok () ∧
    HeaderCut (nativeFraming.cut (buffer ++ before.flatten)).2

variable {server} {buffer : Bytes} {served : Served σ}

theorem answerFrames_append (wires wires' : List Bytes) (served : Served σ) :
    server.answerFrames (wires ++ wires') served =
      andThen (server.answerFrames wires served) fun _ => server.answerFrames wires' := by
  induction wires generalizing served with
  | nil => rfl
  | cons wire wires ih =>
    simp only [List.cons_append, answerFrames]
    rcases server.answerFrame served wire with ⟨err | ⟨⟩, served'⟩
    · rfl
    · exact ih served'

theorem dispatched_answerFrame (served : Served σ) (wire : Bytes) :
    (server.answerFrame served wire).2.dispatched = served.dispatched ++ [wire] := by
  unfold answerFrame
  rcases server.dispatchWire served.host wire with ⟨err | response, host⟩
  · rfl
  · simp only
    split <;> rfl

theorem dispatched_answerFrames (wires : List Bytes) (served : Served σ) :
    ∃ more, (server.answerFrames wires served).2.dispatched = served.dispatched ++ more ∧
      (more = [] → wires = []) := by
  induction wires generalizing served with
  | nil => exact ⟨[], (List.append_nil _).symm, fun _ => rfl⟩
  | cons wire wires ih =>
    have hdispatched : (server.answerFrame served wire).2.dispatched = served.dispatched ++ [wire] :=
      dispatched_answerFrame served wire
    rw [answerFrames]
    rcases hanswer : server.answerFrame served wire with ⟨err | ⟨⟩, served'⟩
    · rw [hanswer] at hdispatched
      exact ⟨[wire], hdispatched, nofun⟩
    · rw [hanswer] at hdispatched
      obtain ⟨more, hmore, -⟩ := ih served'
      refine ⟨wire :: more, ?_, nofun⟩
      rw [hmore, hdispatched, List.append_assoc]
      rfl

/-- **The loop over the buffer** answers the frames that the buffer is cut into. -/
theorem drain_eq {fuel : ℕ} (h : buffer.length ≤ fuel) (served : Served σ) :
    server.drain fuel buffer served =
      andThen (server.answerFrames (nativeFraming.cut buffer).1 served) fun _ =>
        leftover (nativeFraming.cut buffer).2 := by
  induction fuel generalizing buffer served with
  | zero =>
    have hnil : buffer = [] := List.eq_nil_of_length_eq_zero (by omega)
    subst hnil
    rfl
  | succ fuel ih =>
    rw [drain]
    by_cases hlen : buffer.length < 4
    · have hnone : frameLength buffer = none := if_pos hlen
      have hcut : ¬ HeaderCut buffer := fun hcut => by have := hcut.length; omega
      rw [if_pos hlen, Framing.cut_of_none hnone]
      simp only [answerFrames, andThen, leftover, hcut, if_false]
    · rw [if_neg hlen]
      by_cases hcut : HeaderCut buffer
      · have hparse := parse_of_headerCut hcut
        have hnone : frameLength buffer = none := by rw [frameLength, if_neg hlen, hparse]
        rw [Framing.cut_of_none hnone, hparse]
        simp only [answerFrames, andThen, leftover, hcut, if_true]
      · obtain ⟨header, hheader⟩ := parse_of_not_headerCut (by omega) hcut
        have hparse := hheader []
        rw [List.append_nil] at hparse
        by_cases htotal : buffer.length < header.headerSize + header.payloadLength
        · have hnone : frameLength buffer = none := by
            simp only [frameLength, hlen, hparse, htotal, if_true, if_false]
          rw [Framing.cut_of_none hnone, hparse]
          simp only [htotal, if_true, answerFrames, andThen, leftover, hcut, if_false]
        · have hsome : frameLength buffer = some (header.headerSize + header.payloadLength) := by
            simp only [frameLength, hlen, hparse, htotal, if_false]
          have hpos := headerSize_pos header
          have hdrop : (buffer.drop (header.headerSize + header.payloadLength)).length ≤ fuel := by
            rw [List.length_drop]
            omega
          rw [Framing.cut_of_some hsome, hparse]
          simp only [htotal, if_false, answerFrames]
          rcases server.answerFrame served _ with ⟨err | ⟨⟩, served'⟩
          · rfl
          · exact ih hdrop served'

theorem serveFrom_cons (chunk : Bytes) (chunks : List Bytes) (buffer : Bytes) (served : Served σ) :
    server.serveFrom (chunk :: chunks) buffer served =
      andThen (server.answerFrames (nativeFraming.cut (buffer ++ chunk)).1 served) fun _ served =>
        andThen (leftover (nativeFraming.cut (buffer ++ chunk)).2 served) (server.serveFrom chunks) := by
  rw [serveFrom, drain_eq (Nat.le_refl _)]
  rcases server.answerFrames _ served with ⟨err | ⟨⟩, served'⟩
  · rfl
  · simp only [andThen]
    rcases leftover _ served' with ⟨err | rest, served''⟩ <;> rfl

theorem serveFrom_append (chunk more buffer : Bytes) (served : Served σ) :
    server.serveFrom [chunk ++ more] buffer served =
      andThen (server.answerFrames (nativeFraming.cut (buffer ++ chunk)).1 served) fun _ =>
        server.serveFrom [more] (nativeFraming.cut (buffer ++ chunk)).2 := by
  rw [serveFrom_cons, ← List.append_assoc, Framing.cut_append, answerFrames_append]
  rcases server.answerFrames (nativeFraming.cut (buffer ++ chunk)).1 served with ⟨err | ⟨⟩, served'⟩
  · rfl
  · exact (serveFrom_cons more [] _ served').symm

theorem cutFrom_cons {chunk : Bytes} {chunks : List Bytes} (hnone : frameLength buffer = none)
    (hcut : ¬ HeaderCut buffer) : CutFrom server buffer served (chunk :: chunks) ↔
      ∃ served', server.answerFrames (nativeFraming.cut (buffer ++ chunk)).1 served = (.ok (), served') ∧
        (chunks.flatten ≠ [] ∧ HeaderCut (nativeFraming.cut (buffer ++ chunk)).2 ∨
          CutFrom server (nativeFraming.cut (buffer ++ chunk)).2 served' chunks) := by
  constructor
  · rintro ⟨before, after, hchunks, hafter, hok, hheader⟩
    cases before with
    | nil =>
      rw [List.flatten_nil, List.append_nil, Framing.cut_of_none hnone] at hheader
      exact absurd hheader hcut
    | cons first before =>
      obtain ⟨rfl, rfl⟩ := List.cons.inj hchunks
      rw [List.flatten_cons, ← List.append_assoc, Framing.cut_append] at hok hheader
      rw [answerFrames_append] at hok
      rcases hrun : server.answerFrames (nativeFraming.cut (buffer ++ chunk)).1 served
        with ⟨err | ⟨⟩, served'⟩
      · rw [hrun] at hok
        cases hok
      · rw [hrun] at hok
        exact ⟨served', rfl, .inr ⟨before, after, rfl, hafter, hok, hheader⟩⟩
  · rintro ⟨served', hrun, ⟨hmore, hheader⟩ | ⟨before, after, rfl, hafter, hok, hheader⟩⟩
    · refine ⟨[chunk], chunks, rfl, hmore, ?_, ?_⟩
      · rw [List.flatten_singleton, hrun]
      · rw [List.flatten_singleton]
        exact hheader
    · refine ⟨chunk :: before, after, rfl, hafter, ?_, ?_⟩
      · rw [List.flatten_cons, ← List.append_assoc, Framing.cut_append, answerFrames_append, hrun]
        exact hok
      · rw [List.flatten_cons, ← List.append_assoc, Framing.cut_append]
        exact hheader

def seen (run : Except ServeError Unit × Served σ) : Except ServeError Unit × List Bytes × List Bytes :=
  (run.1, run.2.dispatched, run.2.written)

theorem headerCutMessage_inj {m n : ℕ} (hm : m < 8) (hn : n < 8)
    (h : headerCutMessage m = headerCutMessage n) : m = n := by
  have hall : ∀ i j : Fin 8, headerCutMessage i = headerCutMessage j → (i : ℕ) = j := by decide
  exact hall ⟨m, hm⟩ ⟨n, hn⟩ h

theorem served_serveFrom_singleton (chunk buffer : Bytes) (served : Served σ) :
    (server.serveFrom [chunk] buffer served).2 =
      (server.answerFrames (nativeFraming.cut (buffer ++ chunk)).1 served).2 := by
  rw [serveFrom_cons]
  rcases server.answerFrames _ served with ⟨err | ⟨⟩, served'⟩
  · rfl
  · simp only [andThen, leftover]
    by_cases hcut : HeaderCut (nativeFraming.cut (buffer ++ chunk)).2
    · rw [if_pos hcut]
    · rw [if_neg hcut]
      simp only [serveFrom]
      split <;> rfl

theorem seen_serveFrom_ne {rest more : Bytes} (hcut : HeaderCut rest) (hmore : more ≠ [])
    (served : Served σ) : seen (server.serveFrom [more] rest served) ≠
      seen (.error (.header (headerCutMessage rest.length)), served) := by
  intro heq
  have hlen := List.length_pos_iff.2 hmore
  have hrest := hcut.length
  cases hframe : frameLength (rest ++ more) with
  | none =>
    -- no frame is complete: the buffer is longer than the cut header
    rw [serveFrom_cons, Framing.cut_of_none hframe] at heq
    simp only [answerFrames, andThen, leftover] at heq
    by_cases hcut' : HeaderCut (rest ++ more)
    · have hrest' := hcut'.length
      rw [if_pos hcut'] at heq
      injection (congrArg Prod.fst heq : Except.error _ = Except.error _) with herror
      injection herror with hmessage
      have hsame := headerCutMessage_inj hrest'.2 hrest.2 hmessage
      rw [List.length_append] at hsame
      omega
    · have hpos : (rest ++ more).length ≠ 0 := by
        rw [List.length_append]
        omega
      rw [if_neg hcut'] at heq
      simp only [serveFrom, hpos, ne_eq, not_false_eq_true, if_true] at heq
      injection (congrArg Prod.fst heq : Except.error _ = Except.error _) with herror
      cases herror
  | some n =>
    -- one more frame is dispatched
    obtain ⟨wires, hwires, hnil⟩ :=
      @dispatched_answerFrames _ _ server (nativeFraming.cut (rest ++ more)).1 served
    have hdispatched : (server.serveFrom [more] rest served).2.dispatched = served.dispatched :=
      congrArg (fun run => run.2.1) heq
    rw [served_serveFrom_singleton, hwires] at hdispatched
    have hcons := hnil (List.append_right_eq_self.1 hdispatched)
    rw [Framing.cut_of_some hframe] at hcons
    cases hcons

/-- **The rest of a connection**, from a buffer that starts with no frame and no cut header. -/
theorem seen_serveFrom_iff (chunks : List Bytes) (hnone : frameLength buffer = none)
    (hcut : ¬ HeaderCut buffer) (served : Served σ) :
    seen (server.serveFrom chunks buffer served) = seen (server.serveFrom [chunks.flatten] buffer served) ↔
      ¬ CutFrom server buffer served chunks := by
  induction chunks generalizing buffer served with
  | nil =>
    have hsame : server.serveFrom [[]] buffer served = server.serveFrom [] buffer served := by
      rw [serveFrom_cons, List.append_nil, Framing.cut_of_none hnone]
      simp only [answerFrames, andThen, leftover, hcut, if_false]
    refine iff_of_true (by rw [List.flatten_nil, hsame]) ?_
    rintro ⟨before, after, hchunks, hafter, -, -⟩
    obtain ⟨rfl, rfl⟩ := List.append_eq_nil_iff.1 hchunks.symm
    exact hafter rfl
  | cons chunk chunks ih =>
    rw [List.flatten_cons, cutFrom_cons hnone hcut, serveFrom_append, serveFrom_cons]
    rcases hrun : server.answerFrames (nativeFraming.cut (buffer ++ chunk)).1 served
      with ⟨err | ⟨⟩, served'⟩
    · -- a frame of this chunk fails, in one chunk as in many
      refine iff_of_true rfl ?_
      rintro ⟨served'', hok, -⟩
      cases hok
    · have hrest := nativeFraming.length_rest (buffer ++ chunk)
      simp only [andThen, leftover]
      by_cases hheader : HeaderCut (nativeFraming.cut (buffer ++ chunk)).2
      · rw [if_pos hheader]
        by_cases hmore : chunks.flatten = []
        · refine iff_of_true ?_ ?_
          · rw [hmore, serveFrom_cons, List.append_nil, Framing.cut_of_none hrest]
            simp only [answerFrames, andThen, leftover, hheader, if_true]
          · rintro ⟨served'', -, ⟨hne, -⟩ | ⟨before, after, rfl, hafter, -, -⟩⟩
            · exact hne hmore
            · rw [List.flatten_append] at hmore
              exact hafter (List.append_eq_nil_iff.1 hmore).2
        · refine iff_of_false (fun heq => ?_) (fun hno => ?_)
          · exact seen_serveFrom_ne hheader hmore served' heq.symm
          · exact hno ⟨served', rfl, .inl ⟨hmore, hheader⟩⟩
      · rw [if_neg hheader]
        rw [ih hrest hheader served']
        refine not_congr ⟨fun h => ⟨served', rfl, .inr h⟩, ?_⟩
        rintro ⟨served'', hok, ⟨-, h⟩ | h⟩
        · exact absurd h hheader
        · cases hok
          exact h

variable (server) (host : σ) (chunks : List Bytes)

/-- Some chunk ends four to seven bytes into an extended header, the frames before it are answered without
a failure, and more bytes come. -/
def CutsHeader : Prop := CutFrom server [] { host } chunks

/-- **Chunks**: a connection is served as if it came in one chunk unless a chunk cuts an extended header. -/
theorem serve_chunks_iff :
    seen (server.serve host chunks) = seen (server.serve host [chunks.flatten]) ↔
      ¬ CutsHeader server host chunks :=
  seen_serveFrom_iff chunks rfl id _

end NwpNativeNodeServer

def echoServer : NwpNativeNodeServer (List Bytes) Bytes where
  codec :=
    { payloads := { encode := fun _ payload => .ok payload, decode := fun _ payload => .ok payload }
      registry := fun _ => some fun payload => .ok (.action payload none) }
  enabledEncodings := ["msgpack"]
  actionHandler := some fun host payload => (.ok (.value payload), host)
  write := fun host chunk => (.ok (), host ++ [chunk])
  jsonLength := fun rows => rows.flatten.length
  capsDict := fun caps => caps.data.flatten
  errorDict := fun _ => []

/-- An action frame with an extended header and a payload of one byte. -/
def extendedFrame : Bytes := [0x11, 0x85, 0, 0, 0, 0, 0, 1, 0x2a]

open NwpNativeNodeServer in
/-- In one chunk the frame is answered; after its first four bytes the connection fails. -/
theorem extended_header_cut :
    [extendedFrame.take 4, extendedFrame.drop 4].flatten = extendedFrame ∧
    seen (echoServer.serve [] [extendedFrame]) =
      (.ok (), [extendedFrame], [[0x04, 0x05, 0, 1, 0x2a]]) ∧
    seen (echoServer.serve [] [extendedFrame.take 4, extendedFrame.drop 4]) =
      (.error (.header (headerCutMessage 4)), [], []) := by
  decide

end NpsSdk.Nwp
