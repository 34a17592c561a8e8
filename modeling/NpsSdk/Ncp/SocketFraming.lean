import NpsSdk.Core.Frames
import NpsSdk.Lib.Async

/-!
# Reading frames from a socket

`SocketFrameReader` of `ncp/socket-frame-reader.ts`.  The socket delivers bytes in chunks, a call of `readFrame` waits
for the bytes that it needs, and what comes from the socket wakes it.  Calls are made one after the other.
-/

namespace NpsSdk.Ncp

open NpsSdk.Lib
open NpsSdk.Core (EXTENDED_HEADER_SIZE DEFAULT_HEADER_SIZE)
open NpsSdk.Core.Frames

inductive ReaderError
  | streamClosed (needed got : ℕ)
  | socket (message : String)
  | frame (message : String)

def ReaderError.message : ReaderError → String
  | .streamClosed needed got => s!"Stream closed before reading {needed} bytes (got {got})."
  | .socket message => message
  | .frame message => message

structure SocketFrameReader where
  buffer : Bytes := []
  ended : Bool := false
  error : Option String := none

namespace SocketFrameReader

/-- A program that reads numbers of bytes. -/
abbrev Reading := Async ℕ (fun _ => Bytes) ReaderError

def readExactly (n : ℕ) : Reading Bytes := Async.perform n

/-- One pass of the loop of `readExactly`: what it answers and the reader after that, or none if it waits. -/
def tryRead (r : SocketFrameReader) (n : ℕ) : Option (Except ReaderError Bytes × SocketFrameReader) :=
  if r.buffer.length < n then
    match r.error with
    | some err => some (.error (.socket err), r)
    | none => if r.ended then some (.error (.streamClosed n r.buffer.length), r) else none
  else some (.ok (r.buffer.take n), { r with buffer := r.buffer.drop n })

def readFrameHeader : Reading (FrameHeader × Bytes) := do
  let peek ← readExactly 2
  let ext := peek.getD 1 0 &&& 0x80 != 0
  let rest ← readExactly (if ext then EXTENDED_HEADER_SIZE - 2 else DEFAULT_HEADER_SIZE - 2)
  let raw := peek ++ rest
  match FrameHeader.parse raw with
  | .ok header => pure (header, raw)
  | .error message => throw (.frame message)

def readFrame : Reading (FrameHeader × Bytes) := do
  let (header, raw) ← readFrameHeader
  let payload ← readExactly header.payloadLength
  pure (header, raw ++ payload)

/-! ### The socket and the calls -/

/-- A call that is under way: what is left of it, and if its resolver is among those that wait for more data. -/
structure Call where
  program : Reading (FrameHeader × Bytes)
  waiting : Bool

structure Connection where
  reader : SocketFrameReader := {}
  call : Option Call := none
  results : List (Except ReaderError (FrameHeader × Bytes)) := []

inductive Event
  | data (chunk : Bytes)
  | ended
  | closed
  | error (err : String)
  /-- A call of `readFrame` is made. -/
  | readFrame
  /-- The call goes on that is under way and does not wait. -/
  | turn
deriving DecidableEq

def Connection.wakeAll (s : Connection) : Connection :=
  { s with call := s.call.map fun c => { c with waiting := false } }

def Connection.append (s : Connection) (chunk : Bytes) : Connection :=
  if chunk.length = 0 then s
  else { s with reader := { s.reader with buffer := s.reader.buffer ++ chunk } : Connection }.wakeAll

/-- The call goes on with what is left of it, up to the next bytes that it needs. -/
def Connection.resume (s : Connection) (reader : SocketFrameReader) :
    Reading (FrameHeader × Bytes) → Connection
  | .done result => ⟨reader, none, s.results ++ [result]⟩
  | .op n k => { s with reader, call := some ⟨.op n k, false⟩ }

def Connection.turn (s : Connection) : Connection :=
  match s.call with
  | some ⟨.op n k, false⟩ => match s.reader.tryRead n with
    | some (answer, reader) => s.resume reader (k answer)
    | none => { s with call := some ⟨.op n k, true⟩ }
  | _ => s

def step (s : Connection) : Event → Connection
  | .data chunk => s.append chunk
  | .ended | .closed => { s with reader := { s.reader with ended := true } : Connection }.wakeAll
  | .error err => { s with reader := { s.reader with error := some err } : Connection }.wakeAll
  | .readFrame => if s.call.isNone then { s with call := some ⟨readFrame, false⟩ } else s
  | .turn => s.turn

/-- A new reader after some events. -/
def after (events : List Event) : Connection := run step {} events

end SocketFrameReader

end NpsSdk.Ncp

/-!
## What is read from a socket

However the socket delivers a stream of frames, and wherever the stream ends, the calls of `readFrame` return the frames
that were delivered, in order, and the next call fails.  No call sleeps over what it waits for.
-/

namespace NpsSdk.Ncp.SocketFrameReader

open NpsSdk.Lib
open NpsSdk.Core (EXTENDED_HEADER_SIZE DEFAULT_HEADER_SIZE extended)
open NpsSdk.Core.Frames

/-- A complete frame. -/
structure WholeFrame where
  header : FrameHeader
  wire : Bytes
  parsed : FrameHeader.parse wire = .ok header
  size : wire.length = header.headerSize + header.payloadLength

def stream (frames : List WholeFrame) : Bytes := frames.flatMap WholeFrame.wire

/-- What a call returns that reads a frame. -/
def WholeFrame.read (frame : WholeFrame) : Except ReaderError (FrameHeader × Bytes) := .ok (frame.header, frame.wire)

def Event.bytes : Event → Bytes
  | .data chunk => chunk
  | _ => []

def Event.isEnd : Event → Bool
  | .ended | .closed => true
  | _ => false

/-- What the socket has delivered. -/
def delivered (events : List Event) : Bytes := events.flatMap Event.bytes

def hasEnded (events : List Event) : Bool := events.any Event.isEnd

/-- The socket has no error, and delivers nothing after the end of the stream. -/
structure Orderly (events : List Event) : Prop where
  noError (err : String) : .error err ∉ events
  endsLast : events.Pairwise fun e e' => e.isEnd = true → ∀ chunk, e' ≠ .data chunk

def Delivered (frames : List WholeFrame) (bytes : Bytes) (k : ℕ) : Prop :=
  k ≤ frames.length ∧ (stream (frames.take k)).length ≤ bytes.length

/-- **The frames come through**: the calls return the frames that were delivered, in order, and if one fails, the stream
has ended and the next frame was not delivered; and a call whose frame was delivered, or that meets the end of the
stream, is over by its third turn, whatever else happens. -/
structure Framed (frames : List WholeFrame) (events : List Event) : Prop where
  inOrder : ∃ k later, (after events).results = (frames.take k).map WholeFrame.read ++ later ∧
    Delivered frames (delivered events) k ∧
      (later = [] ∨ hasEnded events = true ∧ ¬ Delivered frames (delivered events) (k + 1) ∧
        ∃ needed got more, later = .error (.streamClosed needed got) :: more)
  answered (pre post : List Event) (heq : events = pre ++ post) (hcall : (after pre).call.isSome = true)
    (hready : Delivered frames (delivered pre) ((after pre).results.length + 1) ∨ hasEnded pre = true)
    (hturns : 3 ≤ post.count .turn) : (after pre).results.length < (after events).results.length

/-! ### Headers and frames -/

section Parse

variable {a b : UInt8} {rest bytes : Bytes} {header : FrameHeader}

/-- The bytes that a header needs after the first two. -/
def restLength (flags : UInt8) : ℕ := if extended flags then 6 else 2

theorem headerSize_eq (header : FrameHeader) : header.headerSize = 2 + restLength header.flags := by
  unfold FrameHeader.headerSize restLength
  rw [show header.isExtended = extended header.flags from rfl]
  cases extended header.flags <;> rfl

theorem parse_of_length (h : restLength b ≤ rest.length) : ∃ length, ∀ more,
    FrameHeader.parse (a :: b :: (rest ++ more)) = .ok ⟨a, b, length⟩ := by
  cases hext : extended b with
  | true =>
    have hlen : 6 ≤ rest.length := by simpa [restLength, hext] using h
    refine ⟨getUint 4 2 rest, fun more => ?_⟩
    rw [FrameHeader.parse_extended hext (by rw [List.length_append]; omega)]
    unfold getUint
    rw [List.drop_append_of_le_length (by omega), List.take_append_of_le_length (by rw [List.length_drop]; omega)]
  | false =>
    have hlen : 2 ≤ rest.length := by simpa [restLength, hext] using h
    refine ⟨getUint 2 0 rest, fun more => ?_⟩
    rw [FrameHeader.parse_default hext (by rw [List.length_append]; omega)]
    unfold getUint
    rw [List.drop_zero, List.drop_zero, List.take_append_of_le_length hlen]

theorem parse_ok (h : FrameHeader.parse bytes = .ok header) :
    ∃ rest, bytes = header.frameType :: header.flags :: rest ∧ restLength header.flags ≤ rest.length := by
  match bytes with
  | [] => cases h
  | [_] => cases h
  | a :: b :: rest =>
    unfold FrameHeader.parse at h
    dsimp only at h
    unfold restLength extended NpsSdk.Core.EXT_BIT
    split at h <;> split at h
    · cases h
    · rename_i hext hlen
      cases h
      simp only [List.length_cons, EXTENDED_HEADER_SIZE] at hlen
      refine ⟨rest, rfl, ?_⟩
      rw [if_pos (by simpa using hext)]
      omega
    · cases h
    · rename_i hext hlen
      cases h
      simp only [List.length_cons, DEFAULT_HEADER_SIZE] at hlen
      refine ⟨rest, rfl, ?_⟩
      rw [if_neg (by simpa using hext)]
      omega

theorem parse_append (h : FrameHeader.parse bytes = .ok header) (more : Bytes) :
    FrameHeader.parse (bytes ++ more) = .ok header := by
  obtain ⟨rest, rfl, hlen⟩ := parse_ok h
  obtain ⟨length, hparse⟩ := @parse_of_length header.frameType _ _ hlen
  have hnone := hparse []
  rw [List.append_nil, h] at hnone
  rw [List.cons_append, List.cons_append, hparse more, hnone]

end Parse

namespace WholeFrame

variable {f f' : WholeFrame} {raw x y : Bytes} {header : FrameHeader}

theorem header_eq (h : f.wire ++ x = raw ++ y) (hparsed : FrameHeader.parse raw = .ok header) : f.header = header := by
  have h1 := parse_append f.parsed x
  rw [h, parse_append hparsed y] at h1
  exact (Except.ok.inj h1).symm

/-- **A stream begins with one frame only.** -/
theorem eq_of_append (h : f.wire ++ x = f'.wire ++ y) : f = f' := by
  have hheader : f.header = f'.header := header_eq h f'.parsed
  have hlen : f.wire.length = f'.wire.length := by rw [f.size, f'.size, hheader]
  have hwire := (List.append_inj h hlen).1
  cases f
  cases f'
  cases hheader
  cases hwire
  rfl

theorem two_le_length (f : WholeFrame) : 2 ≤ f.wire.length := by
  rw [f.size, headerSize_eq]
  omega

end WholeFrame

/-! ### What is left of a call -/

def afterHeader (header : FrameHeader) (raw : Bytes) : Reading (FrameHeader × Bytes) := do
  let payload ← readExactly header.payloadLength
  pure (header, raw ++ payload)

/-- A call that has read the first two bytes. -/
def afterPeek (peek : Bytes) : Reading (FrameHeader × Bytes) := do
  let rest ← readExactly (restLength (peek.getD 1 0))
  match FrameHeader.parse (peek ++ rest) with
  | .ok header => afterHeader header (peek ++ rest)
  | .error message => throw (.frame message)

theorem readFrame_eq : readFrame = readExactly 2 >>= afterPeek := by
  have hrest (peek : Bytes) : (if peek.getD 1 0 &&& 0x80 != 0 then EXTENDED_HEADER_SIZE - 2
      else DEFAULT_HEADER_SIZE - 2) = restLength (peek.getD 1 0) := rfl
  simp only [readFrame, readFrameHeader, hrest, bind_assoc]
  congr
  funext peek
  unfold afterPeek
  congr
  funext rest
  cases FrameHeader.parse (peek ++ rest) <;> rfl

/-- What is left of a call that has taken some bytes, and how many more reads it needs. -/
inductive Phase : ℕ → Bytes → Reading (FrameHeader × Bytes) → Prop
  | start : Phase 3 [] readFrame
  | peeked (a b : UInt8) : Phase 2 [a, b] (afterPeek [a, b])
  | headed {raw : Bytes} {header : FrameHeader} (parsed : FrameHeader.parse raw = .ok header)
      (size : raw.length = header.headerSize) : Phase 1 raw (afterHeader header raw)

section

variable {m : ℕ} {taken : Bytes} {program : Reading (FrameHeader × Bytes)}

theorem Phase.bounds (h : Phase m taken program) : 1 ≤ m ∧ m ≤ 3 := by
  cases h <;> omega

/-- **What a call does next**: it asks for some bytes, no more than the frame has that it is in, and goes on with them
or returns a frame. -/
theorem Phase.next (h : Phase m taken program) : ∃ n k, program = .op n k ∧
    (∀ err, k (.error err) = .done (.error err)) ∧
    (∀ bytes : Bytes, bytes.length = n → (∃ m', m = m' + 1 ∧ Phase m' (taken ++ bytes) (k (.ok bytes))) ∨
      ∃ frame : WholeFrame, taken ++ bytes = frame.wire ∧ k (.ok bytes) = .done frame.read) ∧
    ∀ (frame : WholeFrame) (x y : Bytes), frame.wire ++ x = taken ++ y → taken.length + n ≤ frame.wire.length := by
  cases h with
  | start =>
    rw [readFrame_eq]
    refine ⟨2, _, rfl, fun _ => rfl, fun bytes hlen => .inl ⟨2, rfl, ?_⟩, fun frame _ _ _ => ?_⟩
    · match bytes, hlen with
      | [a, b], _ => exact .peeked a b
    · simpa using frame.two_le_length
  | peeked a b =>
    refine ⟨restLength b, _, rfl, fun _ => rfl, fun bytes hlen => .inl ⟨1, rfl, ?_⟩, fun frame x y heq => ?_⟩
    · obtain ⟨length, hparse⟩ := @parse_of_length a b bytes hlen.ge
      have hparsed : FrameHeader.parse ([a, b] ++ bytes) = .ok ⟨a, b, length⟩ := by simpa using hparse []
      have hgo : Phase 1 ([a, b] ++ bytes) (afterHeader ⟨a, b, length⟩ ([a, b] ++ bytes)) := by
        refine .headed hparsed ?_
        rw [headerSize_eq, List.length_append, hlen]
        rfl
      show Phase 1 ([a, b] ++ bytes) (match FrameHeader.parse ([a, b] ++ bytes) with
        | .ok header => afterHeader header ([a, b] ++ bytes)
        | .error message => throw (.frame message))
      rw [hparsed]
      exact hgo
    · obtain ⟨rest, hwire, hlen⟩ := parse_ok frame.parsed
      rw [hwire] at heq
      obtain rfl : frame.header.flags = b := (List.cons.inj (List.cons.inj heq).2).1
      rw [hwire]
      simp only [List.length_cons, List.length_nil]
      omega
  | @headed _ header parsed size =>
    refine ⟨header.payloadLength, _, rfl, fun _ => rfl, fun bytes hlen => .inr ⟨⟨header, taken ++ bytes,
      parse_append parsed bytes, ?_⟩, rfl, rfl⟩, fun frame x y heq => ?_⟩
    · rw [List.length_append, size, hlen]
    · rw [frame.size, frame.header_eq heq parsed, size]

end

/-! ### What holds at any time -/

def Taken (s : Connection) (taken : Bytes) : Prop :=
  match s.call with
  | some call => ∃ m, Phase m taken call.program
  | none => taken = []

/-- The calls have returned frames, and what is taken and what is in the buffer follow these. -/
def Aligned (frames : List WholeFrame) (bytes : Bytes) (s : Connection) : Prop :=
  ∃ k taken, k ≤ frames.length ∧ s.results = (frames.take k).map WholeFrame.read ∧
    bytes = stream (frames.take k) ++ (taken ++ s.reader.buffer) ∧ Taken s taken

/-- A call has failed for want of the next frame. -/
def Stopped (frames : List WholeFrame) (bytes : Bytes) (s : Connection) : Prop :=
  s.reader.ended = true ∧ (∃ taken, Taken s taken) ∧ ∃ k needed got later,
    s.results = (frames.take k).map WholeFrame.read ++ .error (.streamClosed needed got) :: later ∧
      Delivered frames bytes k ∧ ¬ Delivered frames bytes (k + 1)

/-- **What holds at any time**, when some bytes have come in and the stream may have ended. -/
structure Inv (frames : List WholeFrame) (bytes : Bytes) (ended : Bool) (s : Connection) : Prop where
  error : s.reader.error = none
  seen : s.reader.ended = ended
  /-- A call waits only for bytes that are not there. -/
  alert (call : Call) (hcall : s.call = some call) (hwaiting : call.waiting = true)
    (n : ℕ) (k : Except ReaderError Bytes → Reading (FrameHeader × Bytes)) (hop : call.program = .op n k) :
    s.reader.buffer.length < n ∧ ended = false
  aligned : Aligned frames bytes s ∨ Stopped frames bytes s

variable {frames : List WholeFrame} {bytes taken : Bytes} {ended : Bool} {s : Connection} {n m k : ℕ}
  {program : Reading (FrameHeader × Bytes)}

theorem stream_cons (f : WholeFrame) (fs : List WholeFrame) : stream (f :: fs) = f.wire ++ stream fs :=
  List.flatMap_cons

theorem stream_append (fs fs' : List WholeFrame) : stream (fs ++ fs') = stream fs ++ stream fs' :=
  List.flatMap_append

theorem rest_begins (hstart : bytes <+: stream frames) (heq : bytes = stream (frames.take k) ++ taken) :
    taken <+: stream (frames.drop k) := by
  rw [heq, ← List.take_append_drop k frames, stream_append] at hstart
  simpa using hstart

theorem next_frame {frame : WholeFrame} (h : frame.wire <+: stream (frames.drop k)) :
    frames.drop k = frame :: frames.drop (k + 1) := by
  obtain ⟨x, hx⟩ := h
  have htwo := frame.two_le_length
  cases hdrop : frames.drop k with
  | nil =>
    rw [hdrop] at hx
    have hlen := congrArg List.length hx
    simp only [List.length_append, stream, List.flatMap_nil, List.length_nil] at hlen
    omega
  | cons f fs =>
    rw [hdrop, stream_cons] at hx
    obtain rfl := WholeFrame.eq_of_append hx
    rw [List.drop_add_one_eq_tail_drop, hdrop, List.tail_cons]

theorem stream_take_succ {f : WholeFrame} (h : frames.drop k = f :: frames.drop (k + 1)) :
    stream (frames.take (k + 1)) = stream (frames.take k) ++ f.wire := by
  have hget : frames[k]? = some f := by
    rw [← List.head?_drop, h]
    rfl
  rw [List.take_add_one, hget, stream_append]
  simp [stream]

theorem length_le_of_delivered (hstart : bytes <+: stream frames)
    (heq : bytes = stream (frames.take k) ++ (taken ++ s.reader.buffer))
    (hneeds : ∀ (frame : WholeFrame) (x y : Bytes), frame.wire ++ x = taken ++ y →
      taken.length + n ≤ frame.wire.length)
    (hdelivered : Delivered frames bytes (k + 1)) : n ≤ s.reader.buffer.length := by
  obtain ⟨hk, hlen⟩ := hdelivered
  have hdrop : frames.drop k = frames[k] :: frames.drop (k + 1) := List.drop_eq_getElem_cons (by omega)
  obtain ⟨z, hz⟩ := rest_begins hstart heq
  rw [hdrop, stream_cons, List.append_assoc] at hz
  have hle := hneeds frames[k] _ _ hz.symm
  rw [stream_take_succ hdrop, heq] at hlen
  simp only [List.length_append] at hlen
  omega

/-! ### What an event does -/

theorem taken_wakeAll (h : Taken s taken) : Taken s.wakeAll taken := by
  unfold Taken Connection.wakeAll at *
  cases hcall : s.call with
  | none => simpa [hcall] using h
  | some call => simpa [hcall] using h

theorem not_waiting_wakeAll {call : Call} (h : s.wakeAll.call = some call) : call.waiting = false := by
  unfold Connection.wakeAll at h
  obtain ⟨call', -, rfl⟩ := Option.map_eq_some_iff.1 h
  rfl

theorem Inv.data (h : Inv frames bytes false s) (chunk : Bytes) :
    Inv frames (bytes ++ chunk) false (s.append chunk) := by
  unfold Connection.append
  split
  · rename_i hempty
    rw [List.length_eq_zero_iff.1 hempty, List.append_nil]
    exact h
  · refine ⟨h.error, h.seen, fun call hcall hwaiting => ?_, .inl ?_⟩
    · rw [not_waiting_wakeAll hcall] at hwaiting
      cases hwaiting
    · rcases h.aligned with ⟨k, taken, hk, hresults, rfl, htaken⟩ | ⟨hended, -⟩
      · refine ⟨k, taken, hk, hresults, ?_, taken_wakeAll htaken⟩
        simp [Connection.wakeAll]
      · rw [h.seen] at hended
        cases hended

theorem Inv.close (h : Inv frames bytes ended s) :
    Inv frames bytes true { s with reader := { s.reader with ended := true } : Connection }.wakeAll := by
  refine ⟨h.error, rfl, fun call hcall hwaiting => ?_, ?_⟩
  · rw [not_waiting_wakeAll hcall] at hwaiting
    cases hwaiting
  · rcases h.aligned with ⟨k, taken, hk, hresults, hbytes, htaken⟩ | ⟨-, ⟨taken, htaken⟩, hstopped⟩
    · exact .inl ⟨k, taken, hk, hresults, hbytes, taken_wakeAll htaken⟩
    · exact .inr ⟨rfl, ⟨taken, taken_wakeAll htaken⟩, hstopped⟩

theorem Inv.readFrame (h : Inv frames bytes ended s) : Inv frames bytes ended (step s .readFrame) := by
  unfold step
  dsimp only
  split
  · rename_i hnone
    have hcall : s.call = none := Option.isNone_iff_eq_none.1 hnone
    have hstart : Taken { s with call := some ⟨SocketFrameReader.readFrame, false⟩ } [] := ⟨3, .start⟩
    refine ⟨h.error, h.seen, fun call hcall hwaiting => ?_, ?_⟩
    · cases hcall
      cases hwaiting
    · rcases h.aligned with ⟨k, taken, hk, hresults, hbytes, htaken⟩ | ⟨hended, -, hstopped⟩
      · have hnil : taken = [] := by simpa [Taken, hcall] using htaken
        rw [hnil] at hbytes
        exact .inl ⟨k, [], hk, hresults, hbytes, hstart⟩
      · exact .inr ⟨hended, ⟨[], hstart⟩, hstopped⟩
  · exact h

/-! ### What a turn does -/

section

variable {k : Except ReaderError Bytes → Reading (FrameHeader × Bytes)}

theorem turn_of_enough (hcall : s.call = some ⟨.op n k, false⟩) (hle : n ≤ s.reader.buffer.length) :
    s.turn = s.resume { s.reader with buffer := s.reader.buffer.drop n } (k (.ok (s.reader.buffer.take n))) := by
  unfold Connection.turn
  rw [hcall]
  dsimp only
  rw [tryRead, if_neg (by omega)]

theorem turn_of_ended (hcall : s.call = some ⟨.op n k, false⟩) (hlt : s.reader.buffer.length < n)
    (herror : s.reader.error = none) (hended : s.reader.ended = true) :
    s.turn = s.resume s.reader (k (.error (.streamClosed n s.reader.buffer.length))) := by
  unfold Connection.turn
  rw [hcall]
  dsimp only
  rw [tryRead, if_pos hlt, herror]
  dsimp only
  rw [if_pos hended]

theorem turn_of_waits (hcall : s.call = some ⟨.op n k, false⟩) (hlt : s.reader.buffer.length < n)
    (herror : s.reader.error = none) (hended : s.reader.ended = false) :
    s.turn = { s with call := some ⟨.op n k, true⟩ } := by
  unfold Connection.turn
  rw [hcall]
  dsimp only
  rw [tryRead, if_pos hlt, herror]
  dsimp only
  rw [if_neg (by rw [hended]; nofun)]

end

/-- A turn changes nothing unless a call is under way that does not wait. -/
theorem turn_of_none (h : ∀ n k, s.call ≠ some ⟨.op n k, false⟩) : s.turn = s := by
  unfold Connection.turn
  split
  · rename_i n k hcall
    exact absurd hcall (h n k)
  · rfl

theorem resume_phase {reader : SocketFrameReader} (h : Phase m taken program) :
    s.resume reader program = { s with reader, call := some ⟨program, false⟩ } := by
  obtain ⟨n, k, rfl, -⟩ := h.next
  rfl

theorem Taken.next {k : Except ReaderError Bytes → Reading (FrameHeader × Bytes)} {waiting : Bool}
    (h : Taken s taken) (hcall : s.call = some ⟨.op n k, waiting⟩) :
    (∀ err, k (.error err) = .done (.error err)) ∧
    (∀ chunk : Bytes, chunk.length = n → (∃ m, Phase m (taken ++ chunk) (k (.ok chunk))) ∨
      ∃ frame : WholeFrame, taken ++ chunk = frame.wire ∧ k (.ok chunk) = .done frame.read) ∧
    ∀ (frame : WholeFrame) (x y : Bytes), frame.wire ++ x = taken ++ y → taken.length + n ≤ frame.wire.length := by
  obtain ⟨m, hphase⟩ : ∃ m, Phase m taken (.op n k) := by simpa [Taken, hcall] using h
  obtain ⟨n', k', hop, herr, hgo, hneeds⟩ := hphase.next
  cases hop
  refine ⟨herr, fun chunk hlen => ?_, hneeds⟩
  rcases hgo chunk hlen with ⟨m', -, hphase'⟩ | hframe
  · exact .inl ⟨m', hphase'⟩
  · exact .inr hframe

/-- What a call has that was stopped before, whatever it comes to. -/
theorem Stopped.snoc {reader : SocketFrameReader} (h : Stopped frames bytes s) (hended : reader.ended = true)
    (result : Except ReaderError (FrameHeader × Bytes)) :
    Stopped frames bytes ⟨reader, none, s.results ++ [result]⟩ := by
  obtain ⟨-, -, k, needed, got, later, hresults, hdelivered, hnext⟩ := h
  refine ⟨hended, ⟨[], rfl⟩, k, needed, got, later ++ [result], ?_, hdelivered, hnext⟩
  simp [hresults]

/-- A turn with all the bytes that the call asks for. -/
theorem Inv.turn_of_enough {k : Except ReaderError Bytes → Reading (FrameHeader × Bytes)}
    (h : Inv frames bytes ended s) (hstart : bytes <+: stream frames)
    (hcall : s.call = some ⟨.op n k, false⟩) (hle : n ≤ s.reader.buffer.length) : Inv frames bytes ended s.turn := by
  have hlen : (s.reader.buffer.take n).length = n := by
    rw [List.length_take]
    omega
  rw [SocketFrameReader.turn_of_enough hcall hle]
  rcases h.aligned with ⟨j, taken, hj, hresults, hbytes, htaken⟩ | hstopped
  · rcases (htaken.next hcall).2.1 _ hlen with ⟨m, hphase⟩ | ⟨frame, hwire, hdone⟩
    · rw [resume_phase hphase]
      refine ⟨h.error, h.seen, fun call heq hwaiting => ?_, .inl ⟨j, _, hj, hresults, ?_, ⟨m, hphase⟩⟩⟩
      · cases heq
        cases hwaiting
      · rw [List.append_assoc, List.take_append_drop]
        exact hbytes
    · have hdrop : frames.drop j = frame :: frames.drop (j + 1) := by
        refine next_frame (List.IsPrefix.trans ?_ (rest_begins hstart hbytes))
        rw [← hwire]
        exact List.prefix_append_right_inj _ |>.2 (List.take_prefix _ _)
      have hlt : j < frames.length := by
        by_contra hge
        rw [List.drop_of_length_le (by omega)] at hdrop
        cases hdrop
      rw [hdone]
      refine ⟨h.error, h.seen, nofun, .inl ⟨j + 1, [], hlt, ?_, ?_, rfl⟩⟩
      · have hget : frames[j]? = some frame := by
          rw [← List.head?_drop, hdrop]
          rfl
        rw [List.take_add_one, hget]
        simp [Connection.resume, hresults]
      · rw [stream_take_succ hdrop, ← hwire, hbytes]
        simp [Connection.resume]
  · obtain ⟨hended, ⟨taken, htaken⟩, hrest⟩ := hstopped
    rcases (htaken.next hcall).2.1 _ hlen with ⟨m, hphase⟩ | ⟨frame, -, hdone⟩
    · rw [resume_phase hphase]
      refine ⟨h.error, h.seen, fun call heq hwaiting => ?_, .inr ⟨hended, ⟨_, m, hphase⟩, hrest⟩⟩
      cases heq
      cases hwaiting
    · rw [hdone]
      exact ⟨h.error, h.seen, nofun, .inr (Stopped.snoc ⟨hended, ⟨taken, htaken⟩, hrest⟩ hended _)⟩

theorem Inv.turn_of_ended {k : Except ReaderError Bytes → Reading (FrameHeader × Bytes)}
    (h : Inv frames bytes true s) (hstart : bytes <+: stream frames)
    (hcall : s.call = some ⟨.op n k, false⟩) (hlt : s.reader.buffer.length < n) : Inv frames bytes true s.turn := by
  rw [SocketFrameReader.turn_of_ended hcall hlt h.error h.seen]
  rcases h.aligned with ⟨j, taken, hj, hresults, hbytes, htaken⟩ | hstopped
  · obtain ⟨herr, -, hneeds⟩ := htaken.next hcall
    rw [herr]
    refine ⟨h.error, h.seen, nofun, .inr ⟨h.seen, ⟨[], rfl⟩, j, n, s.reader.buffer.length, [], ?_, ⟨hj, ?_⟩,
      fun hdelivered => ?_⟩⟩
    · rw [Connection.resume, hresults]
    · rw [hbytes, List.length_append]
      omega
    · have hle := length_le_of_delivered hstart hbytes hneeds hdelivered
      omega
  · obtain ⟨hended, ⟨taken, htaken⟩, hrest⟩ := hstopped
    rw [(htaken.next hcall).1]
    exact ⟨h.error, h.seen, nofun, .inr (Stopped.snoc ⟨hended, ⟨taken, htaken⟩, hrest⟩ hended _)⟩

theorem Inv.turn (h : Inv frames bytes ended s) (hstart : bytes <+: stream frames) :
    Inv frames bytes ended s.turn := by
  by_cases hgoes : ∃ n k, s.call = some ⟨.op n k, false⟩
  · obtain ⟨n, k, hcall⟩ := hgoes
    rcases Nat.lt_or_ge s.reader.buffer.length n with hlt | hle
    · cases ended with
      | true => exact h.turn_of_ended hstart hcall hlt
      | false =>
        -- the call waits
        rw [turn_of_waits hcall hlt h.error h.seen]
        refine ⟨h.error, h.seen, fun call heq _ n' k' hop => ?_, ?_⟩
        · cases heq
          cases hop
          exact ⟨hlt, rfl⟩
        · rcases h.aligned with ⟨j, taken, hj, hresults, hbytes, htaken⟩ | ⟨hended, -⟩
          · refine .inl ⟨j, taken, hj, hresults, hbytes, ?_⟩
            simpa [Taken, hcall] using htaken
          · rw [h.seen] at hended
            cases hended
    · exact h.turn_of_enough hstart hcall hle
  · rw [turn_of_none fun n k hcall => hgoes ⟨n, k, hcall⟩]
    exact h

/-! ### What a run does -/

variable {events pre post : List Event} {e : Event}

theorem delivered_append (pre post : List Event) : delivered (pre ++ post) = delivered pre ++ delivered post :=
  List.flatMap_append

theorem hasEnded_append (pre post : List Event) : hasEnded (pre ++ post) = (hasEnded pre || hasEnded post) :=
  List.any_append

theorem after_snoc : after (events ++ [e]) = step (after events) e := run_snoc

theorem Orderly.upTo (h : Orderly (pre ++ post)) : Orderly pre :=
  ⟨fun err hmem => h.noError err (List.mem_append_left _ hmem), (List.pairwise_append.1 h.endsLast).1⟩

theorem Orderly.open_of_data {chunk : Bytes} (h : Orderly (events ++ [.data chunk])) : hasEnded events = false := by
  by_contra hended
  rw [Bool.not_eq_false] at hended
  obtain ⟨e, he, hend⟩ := List.any_eq_true.1 hended
  exact (List.pairwise_append.1 h.endsLast).2.2 e he (.data chunk) (by simp) hend chunk rfl

theorem inv_new (frames : List WholeFrame) : Inv frames [] false {} :=
  ⟨rfl, rfl, nofun, .inl ⟨0, [], Nat.zero_le _, rfl, rfl, rfl⟩⟩

/-- **What holds at any time** of a run. -/
theorem inv_after (horderly : Orderly events) (hstart : delivered events <+: stream frames) :
    Inv frames (delivered events) (hasEnded events) (after events) := by
  induction events using List.reverseRecOn with
  | nil => exact inv_new frames
  | append_singleton events e ih =>
    rw [delivered_append] at hstart
    have hinv := ih horderly.upTo ((List.prefix_append _ _).trans hstart)
    have hbytes (h : e.bytes = []) : delivered events ++ delivered [e] = delivered events := by
      simp [delivered, h]
    rw [after_snoc, delivered_append, hasEnded_append]
    cases e with
    | data chunk =>
      rw [horderly.open_of_data] at hinv ⊢
      simpa [step, delivered, hasEnded, Event.bytes, Event.isEnd] using hinv.data chunk
    | ended =>
      rw [hbytes rfl]
      simpa [step, hasEnded, Event.isEnd] using hinv.close
    | closed =>
      rw [hbytes rfl]
      simpa [step, hasEnded, Event.isEnd] using hinv.close
    | error err => exact absurd (by simp) (horderly.noError err)
    | readFrame =>
      rw [hbytes rfl]
      simpa [hasEnded, Event.isEnd] using hinv.readFrame
    | turn =>
      rw [hbytes rfl]
      have hbefore : delivered events <+: stream frames := (List.prefix_append _ _).trans hstart
      simpa [step, hasEnded, Event.isEnd] using hinv.turn hbefore

/-! ### A call comes to its end -/

def Ready (frames : List WholeFrame) (bytes : Bytes) (ended : Bool) (s : Connection) : Prop :=
  Delivered frames bytes (s.results.length + 1) ∨ ended = true

/-- A call is under way that does not wait, and needs so many more reads. -/
def Left (s : Connection) (m : ℕ) : Prop :=
  ∃ n k, s.call = some ⟨.op n k, false⟩ ∧ ∃ taken, Phase m taken (.op n k)

theorem Inv.fed {k : Except ReaderError Bytes → Reading (FrameHeader × Bytes)} {waiting : Bool}
    (h : Inv frames bytes ended s) (hstart : bytes <+: stream frames) (hready : Ready frames bytes ended s)
    (hcall : s.call = some ⟨.op n k, waiting⟩) : n ≤ s.reader.buffer.length ∨ ended = true := by
  rcases hready with hdelivered | hended
  · rcases h.aligned with ⟨j, taken, hj, hresults, hbytes, htaken⟩ | ⟨hended, -⟩
    · left
      rw [hresults, List.length_map, List.length_take, Nat.min_eq_left hj] at hdelivered
      exact length_le_of_delivered hstart hbytes (htaken.next hcall).2.2 hdelivered
    · exact .inr (h.seen ▸ hended)
  · exact .inr hended

/-- **No call sleeps over what it waits for.** -/
theorem Inv.awake (h : Inv frames bytes ended s) (hstart : bytes <+: stream frames)
    (hready : Ready frames bytes ended s) (hcall : s.call.isSome = true) : ∃ m, m ≤ 3 ∧ Left s m := by
  obtain ⟨⟨program, waiting⟩, hcall⟩ := Option.isSome_iff_exists.1 hcall
  obtain ⟨taken, m, hphase⟩ : ∃ taken m, Phase m taken program := by
    rcases h.aligned with ⟨_, taken, _, _, _, htaken⟩ | ⟨_, ⟨taken, htaken⟩, _⟩
    · exact ⟨taken, by simpa [Taken, hcall] using htaken⟩
    · exact ⟨taken, by simpa [Taken, hcall] using htaken⟩
  obtain ⟨n, k, rfl, -⟩ := hphase.next
  cases waiting with
  | false => exact ⟨m, hphase.bounds.2, n, k, hcall, taken, hphase⟩
  | true =>
    obtain ⟨hlt, hopen⟩ := h.alert _ hcall rfl n k rfl
    rcases h.fed hstart hready hcall with hle | hended
    · omega
    · rw [hopen] at hended
      cases hended

theorem Inv.progress (h : Inv frames bytes ended s) (hstart : bytes <+: stream frames)
    (hready : Ready frames bytes ended s) (hleft : Left s m) :
    s.results.length < s.turn.results.length ∨
      s.turn.results.length = s.results.length ∧ ∃ m', m = m' + 1 ∧ Left s.turn m' := by
  obtain ⟨n, k, hcall, taken, hphase⟩ := hleft
  obtain ⟨n', k', hop, herr, hgo, -⟩ := hphase.next
  cases hop
  rcases Nat.lt_or_ge s.reader.buffer.length n with hlt | hle
  · have hended : ended = true := by
      rcases h.fed hstart hready hcall with hle | hended
      · omega
      · exact hended
    left
    rw [SocketFrameReader.turn_of_ended hcall hlt h.error (h.seen.trans hended), herr]
    simp [Connection.resume]
  · have hlen : (s.reader.buffer.take n).length = n := by
      rw [List.length_take]
      omega
    rw [SocketFrameReader.turn_of_enough hcall hle]
    rcases hgo _ hlen with ⟨m', rfl, hphase'⟩ | ⟨frame, -, hdone⟩
    · right
      rw [resume_phase hphase']
      obtain ⟨n', k', hop, -⟩ := hphase'.next
      exact ⟨rfl, m', rfl, n', k', by rw [hop], _, hop ▸ hphase'⟩
    · left
      rw [hdone]
      simp [Connection.resume]

theorem step_left (hleft : Left s m) (he : e ≠ .turn) : (step s e).results = s.results ∧ Left (step s e) m := by
  obtain ⟨n, k, hcall, hphase⟩ := hleft
  have hwake (reader : SocketFrameReader) : Left { s with reader : Connection }.wakeAll m :=
    ⟨n, k, by simp [Connection.wakeAll, hcall], hphase⟩
  cases e with
  | data chunk =>
    unfold step Connection.append
    dsimp only
    split
    · exact ⟨rfl, n, k, hcall, hphase⟩
    · exact ⟨rfl, hwake _⟩
  | ended | closed => exact ⟨rfl, hwake _⟩
  | error err => exact ⟨rfl, hwake _⟩
  | readFrame =>
    have hsome : ¬ s.call.isNone = true := by simp [hcall]
    unfold step
    dsimp only
    rw [if_neg hsome]
    exact ⟨rfl, n, k, hcall, hphase⟩
  | turn => exact absurd rfl he

theorem results_le_step (s : Connection) (e : Event) : s.results.length ≤ (step s e).results.length := by
  cases e with
  | turn =>
    unfold step Connection.turn
    dsimp only
    split
    · split
      · unfold Connection.resume
        split <;> simp
      · exact le_refl _
    · exact le_refl _
  | readFrame =>
    unfold step
    dsimp only
    split <;> exact le_refl _
  | data chunk =>
    unfold step Connection.append
    dsimp only
    split <;> exact le_refl _
  | ended | closed => exact le_refl _
  | error err => exact le_refl _

theorem answered_or_left (horderly : Orderly (pre ++ post)) (hstart : delivered (pre ++ post) <+: stream frames)
    (hcall : (after pre).call.isSome = true) (hready : Ready frames (delivered pre) (hasEnded pre) (after pre)) :
    (after pre).results.length < (after (pre ++ post)).results.length ∨
      (after (pre ++ post)).results.length = (after pre).results.length ∧
        ∃ m, m + post.count .turn ≤ 3 ∧ Left (after (pre ++ post)) m := by
  induction post using List.reverseRecOn with
  | nil =>
    rw [List.append_nil] at *
    obtain ⟨m, hm, hleft⟩ := (inv_after horderly hstart).awake hstart hready hcall
    exact .inr ⟨rfl, m, hm, hleft⟩
  | append_singleton post e ih =>
    rw [← List.append_assoc] at *
    have hbefore : delivered (pre ++ post) <+: stream frames := by
      rw [delivered_append] at hstart
      exact (List.prefix_append _ _).trans hstart
    rw [after_snoc]
    rcases ih horderly.upTo hbefore with hlt | ⟨hlen, m, hm, hleft⟩
    · exact .inl (hlt.trans_le (results_le_step _ _))
    · by_cases he : e = .turn
      · subst he
        have hready' : Ready frames (delivered (pre ++ post)) (hasEnded (pre ++ post)) (after (pre ++ post)) := by
          rcases hready with ⟨hk, hdelivered⟩ | hended
          · refine .inl ⟨by rw [hlen]; exact hk, ?_⟩
            rw [hlen, delivered_append, List.length_append]
            exact hdelivered.trans (Nat.le_add_right _ _)
          · exact .inr (by rw [hasEnded_append, hended, Bool.true_or])
        rcases (inv_after horderly.upTo hbefore).progress hbefore hready' hleft with hlt | ⟨hsame, m', rfl, hleft'⟩
        · exact .inl (hlen ▸ hlt)
        · refine .inr ⟨hsame.trans hlen, m', ?_, hleft'⟩
          rw [List.count_append, List.count_singleton_self]
          omega
      · obtain ⟨hsame, hleft'⟩ := step_left hleft he
        refine .inr ⟨by rw [hsame, hlen], m, ?_, hleft'⟩
        rw [List.count_append, List.count_singleton, if_neg (by simpa using he)]
        omega

/-- **The frames come through** however they are delivered and wherever the stream ends. -/
theorem framed (frames : List WholeFrame) (events : List Event) (horderly : Orderly events)
    (hstart : delivered events <+: stream frames) : Framed frames events := by
  refine ⟨?_, ?_⟩
  · have hinv := inv_after horderly hstart
    rcases hinv.aligned with ⟨k, taken, hk, hresults, hbytes, -⟩ |
      ⟨hended, -, k, needed, got, later, hresults, hdelivered, hnext⟩
    · refine ⟨k, [], by rw [hresults, List.append_nil], ⟨hk, ?_⟩, .inl rfl⟩
      rw [hbytes, List.length_append]
      omega
    · exact ⟨k, _, hresults, hdelivered, .inr ⟨hinv.seen ▸ hended, hnext, needed, got, later, rfl⟩⟩
  · rintro pre post rfl hcall hready hturns
    rcases answered_or_left horderly hstart hcall hready with hlt | ⟨-, m, hm, _, _, _, taken, hphase⟩
    · exact hlt
    · have hleft := hphase.bounds.1
      omega

/-- A frame of three bytes, and one without a payload. -/
def sampleFrames : List WholeFrame :=
  [⟨⟨0x10, 0x04, 3⟩, [0x10, 0x04, 0, 3, 7, 8, 9], by rfl, by decide⟩,
    ⟨⟨0x07, 0x84, 0⟩, [0x07, 0x84, 0, 0, 0, 0, 0, 0], by rfl, by decide⟩]

/-- A stream that is delivered in two chunks while a call waits, and ends in the second frame. -/
theorem framed_of_sample : Framed sampleFrames [.readFrame, .turn, .data [0x10, 0x04, 0], .turn, .turn,
    .data [3, 7, 8, 9, 0x07, 0x84, 0], .turn, .turn, .readFrame, .turn, .turn, .ended, .turn] :=
  framed sampleFrames _ ⟨by simp, by simp [Event.isEnd]⟩ (by decide)

end NpsSdk.Ncp.SocketFrameReader
