import NpsSdk.Ncp.StreamManager

/-!
# Streams are put together from their frames

Any calls, in any order: a stream that is complete has the data of its frames `0, 1, …, n`, in this order
and each of them once.  What is not taken up leaves the manager as it is.
-/

namespace NpsSdk.Ncp

open NpsSdk.Lib

variable {V : Type}

/-! ### The frames that count -/

def StreamFrame.ends (frame : StreamFrame V) : Bool := (truthy frame.error_code).isSome || frame.is_last

/-- A frame counts if its number is the next one and none before it ended the stream. -/
def count (counted : List (StreamFrame V)) (frame : StreamFrame V) : List (StreamFrame V) :=
  if counted.any StreamFrame.ends = false ∧ frame.seq = .fin counted.length then counted ++ [frame] else counted

def counted (frames : List (StreamFrame V)) : List (StreamFrame V) := frames.foldl count []

variable {maxConcurrent : JsDouble} {s : StreamManager V} {frame : StreamFrame V} {frames : List (StreamFrame V)}
  {stream : ActiveStream V} {id : String}

theorem counted_snoc : counted (frames ++ [frame]) = count (counted frames) frame := by
  rw [counted, List.foldl_append]
  rfl

theorem counted_sublist : (counted frames).Sublist frames := by
  induction frames using List.reverseRecOn with
  | nil => exact .refl []
  | append_singleton frames frame ih =>
    rw [counted_snoc, count]
    split
    · exact ih.append (.refl [frame])
    · exact ih.trans (List.sublist_append_left frames [frame])

theorem seq_counted : (counted frames).map StreamFrame.seq =
    (List.range (counted frames).length).map fun k : ℕ => JsDouble.fin k := by
  induction frames using List.reverseRecOn with
  | nil => rfl
  | append_singleton frames frame ih =>
    rw [counted_snoc, count]
    split
    · rename_i hnext
      have hlength : (counted frames ++ [frame]).length = (counted frames).length + 1 := by simp
      rw [hlength, List.range_succ, List.map_append, List.map_append, ih, List.map_singleton,
        List.map_singleton, hnext.2]
    · exact ih

/-! ### What a call does -/

def keep (maxConcurrent : JsDouble) (id : String) (kept : List (StreamFrame V)) (s : StreamManager V) :
    StreamCall V → List (StreamFrame V)
  | .receive frame =>
    if frame.stream_id = id ∧ (receive maxConcurrent s frame).1.isOk then kept ++ [frame] else kept
  | _ => kept

structure Reassembles (stream : ActiveStream V) (frames : List (StreamFrame V)) : Prop where
  chunks : stream.chunks = (counted frames).map StreamFrame.data
  expectedSeq : stream.expectedSeq = (counted frames).length
  completed : stream.completed = (counted frames).any StreamFrame.ends

theorem reassembles_nil : Reassembles ({} : ActiveStream V) [] := ⟨rfl, rfl, rfl⟩

theorem ActiveStream.push_chunks : (stream.push frame).chunks = stream.chunks ++ [frame.data] := by
  unfold ActiveStream.push
  dsimp only
  split
  · rfl
  · split <;> rfl

theorem ActiveStream.push_expectedSeq : (stream.push frame).expectedSeq = stream.expectedSeq + 1 := by
  unfold ActiveStream.push
  dsimp only
  split
  · rfl
  · split <;> rfl

theorem ActiveStream.push_completed (h : stream.completed = false) : (stream.push frame).completed = frame.ends := by
  unfold ActiveStream.push StreamFrame.ends
  dsimp only
  split
  · rename_i hcode
    simp [hcode]
  · rename_i hcode
    split
    · rename_i hlast
      simp [hcode, hlast]
    · rename_i hlast
      simp [hcode, hlast, h]

theorem Reassembles.push (h : Reassembles stream frames) (hopen : stream.completed = false)
    (hseq : frame.seq = .fin stream.expectedSeq) : Reassembles (stream.push frame) (frames ++ [frame]) := by
  have hcounted : counted (frames ++ [frame]) = counted frames ++ [frame] := by
    rw [counted_snoc, count, if_pos]
    exact ⟨by rw [← h.completed, hopen], by rw [hseq, h.expectedSeq]⟩
  constructor
  · rw [ActiveStream.push_chunks, hcounted, h.chunks, List.map_append, List.map_singleton]
  · rw [ActiveStream.push_expectedSeq, hcounted, h.expectedSeq, List.length_append, List.length_singleton]
  · rw [ActiveStream.push_completed hopen, hcounted, List.any_append, ← h.completed, hopen]
    simp

theorem Reassembles.duplicate (h : Reassembles stream frames) (hseq : frame.seq ≠ .fin stream.expectedSeq) :
    Reassembles stream (frames ++ [frame]) := by
  have hcounted : counted (frames ++ [frame]) = counted frames := by
    rw [counted_snoc, count, if_neg]
    rintro ⟨-, hnext⟩
    exact hseq (by rw [hnext, h.expectedSeq])
  constructor
  · rw [hcounted, h.chunks]
  · rw [hcounted, h.expectedSeq]
  · rw [hcounted, h.completed]

def Kept (s : StreamManager V) (id : String) (frames : List (StreamFrame V)) : Prop :=
  match s.streams.get id with
  | none => frames = []
  | some stream => Reassembles stream frames

variable (s frame stream) in
theorem receiveOn_cases : (∃ e, receiveOn s frame stream = (.error e, s)) ∨
    receiveOn s frame stream = (.ok false, s) ∧ frame.seq ≠ .fin stream.expectedSeq ∨
    stream.completed = false ∧ frame.seq = .fin stream.expectedSeq ∧
      receiveOn s frame stream = (.ok (stream.push frame).completed,
        { s with streams := s.streams.set frame.stream_id (stream.push frame) }) := by
  unfold receiveOn
  split
  · exact .inl ⟨_, rfl⟩
  · rename_i hopen
    split
    · rename_i hseq
      exact .inr (.inr ⟨Bool.eq_false_iff.2 hopen, hseq, rfl⟩)
    · rename_i hseq
      split
      · exact .inr (.inl ⟨rfl, hseq⟩)
      · exact .inl ⟨_, rfl⟩

variable (maxConcurrent s frame) in
/-- What a call of `receive` does: it throws, it ignores a duplicate, or it takes up the next frame of a
stream, which is a new one if there is none. -/
theorem receive_cases : (∃ e, receive maxConcurrent s frame = (.error e, s)) ∨
    (∃ stream, s.streams.get frame.stream_id = some stream ∧ frame.seq ≠ .fin stream.expectedSeq ∧
      receive maxConcurrent s frame = (.ok false, s)) ∨
    ∃ stream s', (s.streams.get frame.stream_id = some stream ∨
        s.streams.get frame.stream_id = none ∧ stream = {}) ∧
      stream.completed = false ∧ frame.seq = .fin stream.expectedSeq ∧
      receive maxConcurrent s frame = (.ok (stream.push frame).completed, s') ∧
      s'.outgoing = s.outgoing ∧
      ∀ id, s'.streams.get id = if id = frame.stream_id then some (stream.push frame) else s.streams.get id := by
  unfold receive
  split
  · rename_i stream hstream
    rcases receiveOn_cases s frame stream with
      ⟨e, heq⟩ | ⟨heq, hseq⟩ | ⟨hopen, hseq, heq⟩
    · exact .inl ⟨e, heq⟩
    · exact .inr (.inl ⟨stream, hstream, hseq, heq⟩)
    · refine .inr (.inr ⟨stream, _, .inl hstream, hopen, hseq, heq, rfl, fun id => ?_⟩)
      exact JsMap.get_set _ _ _ _
  · rename_i hnone
    split
    · exact .inl ⟨_, rfl⟩
    · rename_i hzero
      split
      · exact .inl ⟨_, rfl⟩
      · -- the opening frame has the number a new stream expects
        have hseq : frame.seq = .fin ((0 : ℕ) : ℚ) := not_not.1 hzero
        refine .inr (.inr ⟨{}, { s with
          streams := (s.streams.set frame.stream_id {}).set frame.stream_id (ActiveStream.push frame {}) },
          .inr ⟨hnone, rfl⟩, rfl, hseq, ?_, rfl, fun id => ?_⟩)
        · unfold receiveOn
          rw [if_neg (by simp), if_pos hseq]
        · rw [JsMap.get_set, JsMap.get_set]
          by_cases hid : id = frame.stream_id
          · rw [if_pos hid, if_pos hid]
          · rw [if_neg hid, if_neg hid, if_neg hid]

theorem receive_error {e : StreamError} (h : (receive maxConcurrent s frame).1 = .error e) :
    (receive maxConcurrent s frame).2 = s := by
  rcases receive_cases maxConcurrent s frame with
    ⟨e', heq⟩ | ⟨stream, -, -, heq⟩ | ⟨stream, s', -, -, -, heq, -⟩
  · rw [heq]
  · rw [heq] at h
    cases h
  · rw [heq] at h
    cases h

/-! ### Runs -/

theorem kept_receive (h : Kept s id frames) : Kept (receive maxConcurrent s frame).2 id
    (if frame.stream_id = id ∧ (receive maxConcurrent s frame).1.isOk then frames ++ [frame] else frames) := by
  rcases receive_cases maxConcurrent s frame with
    ⟨e, heq⟩ | ⟨stream, hstream, hseq, heq⟩ | ⟨stream, s', hstream, hopen, hseq, heq, -, hget⟩
  · rw [heq, if_neg (by rintro ⟨-, hok⟩; cases hok)]
    exact h
  · rw [heq]
    split
    · rename_i hid
      unfold Kept at h ⊢
      rw [← hid.1, hstream] at h ⊢
      exact h.duplicate hseq
    · exact h
  · rw [heq]
    by_cases hid : frame.stream_id = id
    · rw [if_pos ⟨hid, rfl⟩]
      unfold Kept at h ⊢
      dsimp only
      rw [hget id, if_pos hid.symm]
      rw [← hid] at h
      rcases hstream with hstream | ⟨hstream, rfl⟩
      · rw [hstream] at h
        exact h.push hopen hseq
      · rw [hstream] at h
        subst h
        exact reassembles_nil.push rfl hseq
    · rw [if_neg fun hok => hid hok.1]
      unfold Kept at h ⊢
      dsimp only
      rw [hget id, if_neg (Ne.symm hid)]
      exact h

theorem streams_send : (send s frame).2.streams = s.streams := by
  unfold send
  dsimp only
  split
  · rfl
  · rfl
  · split <;> rfl

theorem kept_step (h : Kept s id frames) (e : StreamCall V) :
    Kept (streamStep maxConcurrent s e) id (keep maxConcurrent id frames s e) := by
  cases e with
  | receive frame => exact kept_receive h
  | send frame =>
    unfold Kept at h ⊢
    rw [streamStep, streams_send]
    exact h
  | updateWindow streamId newSize => exact h

def keptFrames (maxConcurrent : JsDouble) (id : String) (es : List (StreamCall V)) : List (StreamFrame V) :=
  noted (keep maxConcurrent id) (streamStep maxConcurrent) [] {} es

theorem kept_streamsAfter {es : List (StreamCall V)} :
    Kept (streamsAfter maxConcurrent es) id (keptFrames maxConcurrent id es) :=
  noted_induction (I := fun s frames => Kept s id frames) rfl fun _ _ e h => kept_step h e

theorem keptFrames_sublist {es : List (StreamCall V)} : (keptFrames maxConcurrent id es).Sublist
    (es.filterMap fun | .receive frame => if frame.stream_id = id then some frame else none | _ => none) := by
  induction es using List.reverseRecOn with
  | nil => exact .refl []
  | append_singleton es e ih =>
    rw [keptFrames, noted_snoc, List.filterMap_append]
    unfold keep
    split
    · rename_i frame
      split
      · rename_i hkept
        refine ih.append ?_
        simp [hkept.1]
      · exact ih.trans (List.sublist_append_left _ _)
    · exact ih.trans (List.sublist_append_left _ _)

/-- **Reassembly**: the data of a complete stream is the data of its frames `0, 1, …, n`, in their order and
each once, out of the ones that came in for it; and a call of `receive` that throws changes nothing. -/
theorem stream_reassembly (maxConcurrent : JsDouble) (es : List (StreamCall V)) :
    (∀ id data, getData (streamsAfter maxConcurrent es) id = some data → ∃ n frames,
      frames = counted (keptFrames maxConcurrent id es) ∧
      frames.Sublist (es.filterMap fun
        | .receive frame => if frame.stream_id = id then some frame else none
        | _ => none) ∧
      frames.map StreamFrame.seq = (List.range (n + 1)).map (fun k : ℕ => JsDouble.fin k) ∧
      data = frames.flatMap StreamFrame.data) ∧
    ∀ pre frame post e, es = pre ++ .receive frame :: post →
      (receive maxConcurrent (streamsAfter maxConcurrent pre) frame).1 = .error e →
      streamsAfter maxConcurrent (pre ++ [.receive frame]) = streamsAfter maxConcurrent pre := by
  constructor
  · intro id data hdata
    have hkept : Kept (streamsAfter maxConcurrent es) id (keptFrames maxConcurrent id es) := kept_streamsAfter
    unfold Kept at hkept
    unfold getData at hdata
    split at hdata
    · cases hdata
    · rename_i stream hstream
      rw [hstream] at hkept
      split at hdata
      · rename_i hcompleted
        cases hdata
        rw [hkept.completed] at hcompleted
        obtain ⟨frame, hframe, -⟩ := List.any_eq_true.1 hcompleted
        have hpos : 0 < (counted (keptFrames maxConcurrent id es)).length := List.length_pos_of_mem hframe
        refine ⟨(counted (keptFrames maxConcurrent id es)).length - 1, _, rfl,
          counted_sublist.trans keptFrames_sublist, ?_, ?_⟩
        · rw [seq_counted, Nat.sub_add_cancel hpos]
        · rw [hkept.chunks, List.flatMap_def]
      · cases hdata
  · intro pre frame post e _ herror
    rw [streamsAfter, run_snoc]
    exact receive_error herror

end NpsSdk.Ncp
