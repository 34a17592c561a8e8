import NpsSdk.Ncp.StreamReassembly

/-!
# The limit of concurrent streams

A stream is open once a frame of it has been answered, and complete once one was answered with `true`.
The manager counts all the streams it knows against its maximum, complete ones too.
-/

namespace NpsSdk.Ncp

open NpsSdk.Lib

variable {V : Type}

def activeCount (s : StreamManager V) : ℕ := (s.streams.values.filter fun stream => !stream.completed).length

/-! ### What the answers tell -/

/-- The streams that were opened, and the ones that are complete, by the answers of the manager. -/
structure StreamRecord where
  opened : List String := []
  finished : List String := []

def StreamRecord.unfinished (record : StreamRecord) : List String :=
  record.opened.filter fun id => decide (id ∉ record.finished)

def recordAnswer (maxConcurrent : JsDouble) (record : StreamRecord) (s : StreamManager V) :
    StreamCall V → StreamRecord
  | .receive frame =>
    match (receive maxConcurrent s frame).1 with
    | .error _ => record
    | .ok complete =>
      { opened := if frame.stream_id ∈ record.opened then record.opened
          else record.opened ++ [frame.stream_id]
        finished := if complete then record.finished ++ [frame.stream_id] else record.finished }
  | _ => record

def recordAfter (maxConcurrent : JsDouble) (es : List (StreamCall V)) : StreamRecord :=
  noted (recordAnswer maxConcurrent) (streamStep maxConcurrent) {} {} es

variable {maxConcurrent : JsDouble} {s s' : StreamManager V} {frame : StreamFrame V} {record : StreamRecord}

structure Tracks (s : StreamManager V) (record : StreamRecord) : Prop where
  nodup : record.opened.Nodup
  opened : ∀ id, id ∈ s.streams.keys ↔ id ∈ record.opened
  finished : ∀ id stream, s.streams.get id = some stream →
    (stream.completed = true ↔ id ∈ record.finished)
  bounded : ∀ id ∈ record.finished, id ∈ record.opened

theorem tracks_empty : Tracks ({} : StreamManager V) {} where
  nodup := List.nodup_nil
  opened _ := Iff.rfl
  finished _ _ h := by cases h
  bounded _ h := h

theorem Tracks.size (h : Tracks s record) : s.streams.size = record.opened.length :=
  JsMap.size_of_keys h.nodup h.opened

/-- The next frame of a stream, which is a new one if there is none. -/
theorem Tracks.push {stream : ActiveStream V} (h : Tracks s record)
    (hstream : s.streams.get frame.stream_id = some stream ∨
      s.streams.get frame.stream_id = none ∧ stream = {})
    (hopen : stream.completed = false)
    (hget : ∀ id, s'.streams.get id =
      if id = frame.stream_id then some (stream.push frame) else s.streams.get id) :
    Tracks s'
      { opened := if frame.stream_id ∈ record.opened then record.opened
          else record.opened ++ [frame.stream_id]
        finished := if (stream.push frame).completed then record.finished ++ [frame.stream_id]
          else record.finished } := by
  have hunfinished : frame.stream_id ∉ record.finished := by
    intro hmem
    rcases hstream with hstream | ⟨hnone, -⟩
    · rw [(h.finished _ _ hstream).2 hmem] at hopen
      cases hopen
    · exact (JsMap.get_eq_none_iff _ _).1 hnone ((h.opened _).2 (h.bounded _ hmem))
  refine ⟨?_, fun id => ?_, fun id found hfound => ?_, fun id hmem => ?_⟩
  · split
    · exact h.nodup
    · rename_i hmem
      exact List.Nodup.append h.nodup (List.nodup_singleton _) (by simpa using hmem)
  · rw [← JsMap.get_isSome_iff, hget id]
    by_cases hid : id = frame.stream_id
    · rw [if_pos hid, hid]
      split
      · simpa
      · simp
    · have hold := h.opened id
      rw [← JsMap.get_isSome_iff] at hold
      rw [if_neg hid, hold]
      split
      · rfl
      · simp [hid]
  · rw [hget id] at hfound
    by_cases hid : id = frame.stream_id
    · rw [if_pos hid] at hfound
      cases hfound
      rw [hid]
      dsimp only
      split
      · rename_i hcompleted
        simp [hcompleted]
      · rename_i hcompleted
        simp [hcompleted, hunfinished]
    · rw [if_neg hid] at hfound
      rw [h.finished id found hfound]
      dsimp only
      split
      · simp [hid]
      · rfl

  · dsimp only at hmem ⊢
    have hcases : id ∈ record.finished ∨ id = frame.stream_id := by
      split at hmem
      · simpa using hmem
      · exact .inl hmem
    rcases hcases with hold | rfl
    · have hopened := h.bounded id hold
      split
      · exact hopened
      · exact List.mem_append_left _ hopened
    · split
      · assumption
      · simp

theorem Tracks.step (h : Tracks s record) (e : StreamCall V) :
    Tracks (streamStep maxConcurrent s e) (recordAnswer maxConcurrent record s e) := by
  cases e with
  | receive frame =>
    unfold recordAnswer
    rw [streamStep]
    dsimp only
    rcases receive_cases maxConcurrent s frame with
      ⟨e, heq⟩ | ⟨stream, hstream, -, heq⟩ | ⟨stream, s', hstream, hopen, -, heq, -, hget⟩
    · rw [heq]
      exact h
    · rw [heq]
      have hmem : frame.stream_id ∈ record.opened := (h.opened _).1 (JsMap.mem_keys_of_get hstream)
      dsimp only
      rw [if_pos hmem, if_neg (by decide)]
      exact h
    · rw [heq]
      exact h.push hstream hopen hget
  | send frame =>
    have hstreams : (send s frame).2.streams = s.streams := streams_send
    unfold recordAnswer
    rw [streamStep]
    exact ⟨h.nodup, by rw [hstreams]; exact h.opened, by rw [hstreams]; exact h.finished, h.bounded⟩
  | updateWindow streamId newSize => exact ⟨h.nodup, h.opened, h.finished, h.bounded⟩

theorem tracks_streamsAfter (maxConcurrent : JsDouble) (es : List (StreamCall V)) :
    Tracks (streamsAfter maxConcurrent es) (recordAfter maxConcurrent es) :=
  noted_induction tracks_empty fun _ _ e h => h.step e

/-! ### The limit -/

def Opening (maxConcurrent : JsDouble) (es : List (StreamCall V)) (frame : StreamFrame V) : Prop :=
  frame.seq = 0 ∧ frame.stream_id ∉ (recordAfter maxConcurrent es).opened

def LimitExact (maxConcurrent : JsDouble) (es : List (StreamCall V)) (frame : StreamFrame V) : Prop :=
  (receive maxConcurrent (streamsAfter maxConcurrent es) frame).1 = .error (.limitExceeded maxConcurrent) ↔
    maxConcurrent ≤ .fin (recordAfter maxConcurrent es).unfinished.length

/-- The limit is met by unfinished streams alone, or not by all that were opened. -/
def Decisive (maxConcurrent : JsDouble) (es : List (StreamCall V)) : Prop :=
  maxConcurrent ≤ .fin (recordAfter maxConcurrent es).unfinished.length ∨
    ¬ maxConcurrent ≤ .fin (recordAfter maxConcurrent es).opened.length

theorem refused_iff {es : List (StreamCall V)} (h : Opening maxConcurrent es frame) :
    (receive maxConcurrent (streamsAfter maxConcurrent es) frame).1 = .error (.limitExceeded maxConcurrent) ↔
      maxConcurrent ≤ .fin (recordAfter maxConcurrent es).opened.length := by
  have htracks := tracks_streamsAfter maxConcurrent es
  have hnone : (streamsAfter maxConcurrent es).streams.get frame.stream_id = none :=
    (JsMap.get_eq_none_iff _ _).2 (mt (htracks.opened _).1 h.2)
  rw [receive, hnone]
  dsimp only
  rw [if_neg (not_not.2 h.1), htracks.size]
  split
  · simp [*]
  · rename_i hspare
    have hseq : frame.seq = .fin (({} : ActiveStream V).expectedSeq : ℚ) := h.1
    rw [receiveOn, if_neg nofun, if_pos hseq]
    simp [hspare]

variable (maxConcurrent) in
/-- **The limit is exact** along a run if and only if, at each opening, the streams that are complete make
no difference to it. -/
theorem limit_exact_iff (es : List (StreamCall V)) :
    (∀ pre frame post, es = pre ++ .receive frame :: post → Opening maxConcurrent pre frame →
      LimitExact maxConcurrent pre frame) ↔
    ∀ pre frame post, es = pre ++ .receive frame :: post → Opening maxConcurrent pre frame →
      Decisive maxConcurrent pre := by
  refine forall₃_congr fun pre frame post => forall₂_congr fun hes hopening => ?_
  have hle : (recordAfter maxConcurrent pre).unfinished.length ≤
      (recordAfter maxConcurrent pre).opened.length := List.length_filter_le _ _
  rw [LimitExact, refused_iff hopening, Decisive]
  have hmono : maxConcurrent ≤ .fin (recordAfter maxConcurrent pre).unfinished.length →
      maxConcurrent ≤ .fin (recordAfter maxConcurrent pre).opened.length := by
    intro hmax
    exact JsDouble.le_trans hmax (JsDouble.fin_le_fin.2 (by exact_mod_cast hle))
  tauto

/-- **A complete stream takes up the limit**: one is complete, none is open, and the next is refused. -/
theorem complete_stream_counts :
    ¬ ∀ pre frame post,
      [.receive { stream_id := "a", seq := 0, is_last := true, data := [1] },
        .receive { stream_id := "b", seq := 0, is_last := true, data := [2] }] =
          pre ++ StreamCall.receive (frame : StreamFrame ℕ) :: post →
      Opening 1 pre frame → LimitExact 1 pre frame := by
  intro h
  have hexact := h [.receive { stream_id := "a", seq := 0, is_last := true, data := [1] }]
    { stream_id := "b", seq := 0, is_last := true, data := [2] } [] rfl ⟨rfl, by decide⟩
  revert hexact
  unfold LimitExact
  decide

end NpsSdk.Ncp
