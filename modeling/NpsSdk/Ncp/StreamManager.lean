import NpsSdk.Lib.JsDouble
import NpsSdk.Lib.JsMap
import NpsSdk.Lib.JsString
import NpsSdk.Lib.Runs

/-!
# Streams of frames

`StreamManager`: the streams that are received, which are reassembled by their sequence numbers, and the
streams that are sent, which are paced by a window.  `V` are the items of the data.
-/

namespace NpsSdk.Ncp

open NpsSdk.Lib

structure StreamFrame (V : Type) where
  stream_id : String
  seq : JsDouble
  is_last : Bool
  data : List V
  window_size : Option ℤ := none
  error_code : Option String := none

/-- What a manager throws. -/
inductive StreamError
  | notFound (streamId : String)
  | limitExceeded (maxConcurrent : JsDouble)
  | conflict (streamId : String)
  | seqGap (expected : ℕ) (seq : JsDouble) (streamId : String)
  | windowOverflow (streamId : String)
deriving DecidableEq

def StreamError.code : StreamError → String
  | .notFound _ => "NCP-STREAM-NOT-FOUND"
  | .limitExceeded _ => "NCP-STREAM-LIMIT-EXCEEDED"
  | .conflict _ => "NPS-CLIENT-CONFLICT"
  | .seqGap .. => "NCP-STREAM-SEQ-GAP"
  | .windowOverflow _ => "NCP-STREAM-WINDOW-OVERFLOW"

structure ActiveStream (V : Type) where
  expectedSeq : ℕ := 0
  chunks : List (List V) := []
  completed : Bool := false
  errorCode : Option String := none

/-- A stream that is sent; without a window there is no flow control. -/
structure OutgoingStream where
  remainingWindow : Option ℤ := none
  paused : Bool := false

structure StreamManager (V : Type) where
  streams : JsMap String (ActiveStream V) := .empty
  outgoing : JsMap String OutgoingStream := .empty

variable {V : Type} (maxConcurrent : JsDouble) (s : StreamManager V) (frame : StreamFrame V)

/-! ### Receiving -/

/-- The stream after a frame is taken up. -/
def ActiveStream.push (stream : ActiveStream V) : ActiveStream V :=
  let pushed := { stream with
    chunks := stream.chunks ++ [frame.data], expectedSeq := stream.expectedSeq + 1 }
  match truthy frame.error_code with
  | some code => { pushed with completed := true, errorCode := some code }
  | none => if frame.is_last then { pushed with completed := true } else pushed

/-- `receive`, of a frame whose stream is known. -/
def receiveOn (stream : ActiveStream V) : Except StreamError Bool × StreamManager V :=
  if stream.completed then (.error (.conflict frame.stream_id), s)
  else if frame.seq = .fin stream.expectedSeq then
    let pushed := stream.push frame
    (.ok pushed.completed, { s with streams := s.streams.set frame.stream_id pushed })
  else if frame.seq < .fin stream.expectedSeq then (.ok false, s)
  else (.error (.seqGap stream.expectedSeq frame.seq frame.stream_id), s)

def receive : Except StreamError Bool × StreamManager V :=
  match s.streams.get frame.stream_id with
  | some stream => receiveOn s frame stream
  | none =>
    if frame.seq ≠ 0 then (.error (.notFound frame.stream_id), s)
    else if maxConcurrent ≤ .fin s.streams.size then (.error (.limitExceeded maxConcurrent), s)
    else receiveOn { s with streams := s.streams.set frame.stream_id {} } frame {}

def getData (streamId : String) : Option (List V) :=
  match s.streams.get streamId with
  | none => none
  | some stream => if stream.completed then some stream.chunks.flatten else none

/-! ### Sending -/

/-- The stream with an identifier, which is made where there is none. -/
def outgoingOf (streamId : String) : OutgoingStream := (s.outgoing.get streamId).getD {}

def setOutgoing (streamId : String) (out : OutgoingStream) : StreamManager V :=
  { s with outgoing := s.outgoing.set streamId out }

def send : Except StreamError Unit × StreamManager V :=
  let out := outgoingOf s frame.stream_id
  let opening := if frame.seq = 0 then frame.window_size else none
  match opening, out.remainingWindow with
  | some window, _ => (.ok (), setOutgoing s frame.stream_id { out with remainingWindow := some window })
  | none, none => (.ok (), setOutgoing s frame.stream_id out)
  | none, some remaining =>
    if remaining = 0 then (.error (.windowOverflow frame.stream_id), setOutgoing s frame.stream_id out)
    else (.ok (), setOutgoing s frame.stream_id { out with remainingWindow := some (remaining - 1) })

def updateWindow (streamId : String) (newSize : ℤ) : StreamManager V :=
  setOutgoing s streamId { remainingWindow := some newSize, paused := newSize == 0 }

def isPaused (streamId : String) : Bool :=
  match s.outgoing.get streamId with
  | none => false
  | some out => out.paused

/-! ### Runs -/

inductive StreamCall (V : Type)
  | receive (frame : StreamFrame V)
  | send (frame : StreamFrame V)
  | updateWindow (streamId : String) (newSize : ℤ)

def streamStep : StreamCall V → StreamManager V
  | .receive frame => (receive maxConcurrent s frame).2
  | .send frame => (send s frame).2
  | .updateWindow streamId newSize => updateWindow s streamId newSize

def streamsAfter (es : List (StreamCall V)) : StreamManager V := run (streamStep maxConcurrent) {} es

end NpsSdk.Ncp
