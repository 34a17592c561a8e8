import NpsSdk.Nwp.ActionIsolation

/-!
# Streams of the action server

What a provider streams is checked frame by frame: what fails the checks is cut off by a frame of failure.
Only a whole stream without an error is kept, and replayed under another id.
-/

namespace NpsSdk.Nwp.ActionNode

open NpsSdk.Lib

variable {V : Type}

/-! ### Well-formed streams -/

def Numbered (frames : List (StreamFrame V)) : Prop :=
  frames.map StreamFrame.seq = (List.range frames.length).map Nat.cast

def EndsOnce (frames : List (StreamFrame V)) : Prop :=
  ∃ before last, frames = before ++ [last] ∧ last.isLast = true ∧ ∀ f ∈ before, f.isLast = false

/-- **A body is disciplined**: its frames have one stream id, they are numbered, and they end once. -/
structure Disciplined (streamId : String) (lines : List (StreamFrame V)) : Prop where
  one : ∀ f ∈ lines, f.streamId = streamId
  numbered : Numbered lines
  ends : EndsOnce lines

structure WellFormed (frames : List (StreamFrame V)) : Prop where
  numbered : Numbered frames
  ends : EndsOnce frames
  clean : ∀ f ∈ frames, f.errorCode = none

def retag (streamId : String) (f : StreamFrame V) : StreamFrame V := { f with streamId }

@[simp] theorem retag_seq (streamId : String) (f : StreamFrame V) : (retag streamId f).seq = f.seq := rfl

@[simp] theorem retag_isLast (streamId : String) (f : StreamFrame V) :
    (retag streamId f).isLast = f.isLast := rfl

@[simp] theorem retag_errorCode (streamId : String) (f : StreamFrame V) :
    (retag streamId f).errorCode = f.errorCode := rfl

variable {frames : List (StreamFrame V)} {f : StreamFrame V} {streamId : String}

theorem Numbered.concat (h : Numbered frames) (hf : f.seq = frames.length) : Numbered (frames ++ [f]) := by
  unfold Numbered at h ⊢
  simp [List.range_succ, h, hf]

theorem Numbered.retagged (h : Numbered frames) : Numbered (frames.map (retag streamId)) := by
  unfold Numbered at h ⊢
  simpa [Function.comp_def] using h

theorem EndsOnce.retagged (h : EndsOnce frames) : EndsOnce (frames.map (retag streamId)) := by
  obtain ⟨before, last, rfl, hlast, hbefore⟩ := h
  refine ⟨before.map (retag streamId), retag streamId last, by simp, hlast, fun f hf => ?_⟩
  obtain ⟨g, hg, rfl⟩ := List.mem_map.1 hf
  exact hbefore g hg

theorem WellFormed.retagged (h : WellFormed frames) : WellFormed (frames.map (retag streamId)) := by
  refine ⟨h.numbered.retagged, h.ends.retagged, fun f hf => ?_⟩
  obtain ⟨g, hg, rfl⟩ := List.mem_map.1 hf
  exact h.clean g hg

theorem WellFormed.disciplined (h : WellFormed frames) : Disciplined streamId (frames.map (retag streamId)) := by
  refine ⟨fun f hf => ?_, h.numbered.retagged, h.ends.retagged⟩
  obtain ⟨g, -, rfl⟩ := List.mem_map.1 hf
  rfl

/-! ### The pump -/

structure Written (st : StreamRun V) (frames : List (StreamFrame V)) : Prop where
  lines : st.lines = frames.map (retag st.streamId)
  nextSeq : st.nextSeq = frames.length
  numbered : Numbered frames
  /-- The pump knows whether the last frame was terminal. -/
  terminal : if st.terminal then EndsOnce frames else ∀ f ∈ frames, f.isLast = false

/-- What the pump holds once some frames have passed the checks. -/
structure Accepted (host : Host V) (st : StreamRun V) (frames : List (StreamFrame V)) : Prop
    extends Written st frames where
  emitted : st.emitted = frames.map (retag st.streamId)
  code : ∀ f ∈ frames, f.errorCode.isSome = true → f.isLast = true
  serialisable : ∀ f ∈ frames, host.serialisable f.data = true

variable {host : Host V} {st : StreamRun V} {code : String}

theorem Written.one (h : Written st frames) : ∀ f ∈ st.lines, f.streamId = st.streamId := by
  rw [h.lines]
  intro f hf
  obtain ⟨g, -, rfl⟩ := List.mem_map.1 hf
  rfl

theorem Written.ended (h : Written st frames) (hterminal : st.terminal = true) :
    EndsOnce frames ∧ Disciplined st.streamId st.lines := by
  have hends := h.terminal
  rw [hterminal, if_pos rfl] at hends
  exact ⟨hends, h.one, by rw [h.lines]; exact h.numbered.retagged, by rw [h.lines]; exact hends.retagged⟩

theorem Written.fails (h : Written st frames) (haborted : st.signalAborted = false)
    (hcancelled : st.readerCancelled = false) : Disciplined st.streamId (failureLine host st code).lines := by
  have hterminal := h.terminal
  unfold failureLine
  cases hst : st.terminal with
  | true =>
    simp only [true_or, if_true]
    exact (h.ended hst).2
  | false =>
    rw [hst, if_neg Bool.false_ne_true] at hterminal
    simp only [haborted, hcancelled, Bool.false_eq_true, or_self, if_false]
    refine ⟨fun f hf => ?_, ?_, _, _, rfl, rfl, fun f hf => ?_⟩
    · rcases List.mem_append.1 hf with hf | hf
      · exact h.one f hf
      · rw [List.mem_singleton.1 hf]
    · rw [h.lines]
      refine h.numbered.retagged.concat ?_
      simp [h.nextSeq]
    · rw [h.lines] at hf
      obtain ⟨g, hg, rfl⟩ := List.mem_map.1 hf
      exact hterminal g hg

inductive Turn (host : Host V) (st : StreamRun V) (frames : List (StreamFrame V)) :
    StreamItem V → StreamRun V × Pumped → Prop
  /-- One more frame has passed the checks. -/
  | goesOn (f : StreamFrame V) (st' : StreamRun V) (accepted : Accepted host st' (frames ++ [f])) :
      Turn host st frames (.frame f) (st', .goesOn)
  | stops (item : StreamItem V) (st' : StreamRun V)
      (disciplined : st.signalAborted = false → st.readerCancelled = false → Disciplined st.streamId st'.lines) :
      Turn host st frames item (st', .stops)
  /-- The source has ended after a terminal frame without an error. -/
  | completes (wellFormed : WellFormed frames) : Turn host st frames .done (st, .completes)

theorem Accepted.clean (h : Accepted host st frames) {before : List (StreamFrame V)} {last : StreamFrame V}
    (hframes : frames = before ++ [last]) (hbefore : ∀ f ∈ before, f.isLast = false)
    (hlast : last.errorCode = none) : ∀ f ∈ frames, f.errorCode = none := by
  intro f hf
  rw [hframes] at hf
  rcases List.mem_append.1 hf with hmem | hmem
  · cases hcode : f.errorCode with
    | none => rfl
    | some code =>
      have hterminal := h.code f (by rw [hframes]; exact List.mem_append_left _ hmem) (by rw [hcode]; rfl)
      rw [hbefore f hmem] at hterminal
      cases hterminal
  · rw [List.mem_singleton.1 hmem, hlast]

theorem Accepted.next (h : Accepted host st frames) (hopen : st.terminal = false) (hseq : f.seq = st.nextSeq)
    (hcode : f.errorCode.isSome = true → f.isLast = true) (hserialisable : host.serialisable f.data = true) :
    Accepted host
      { st with emitted := st.emitted ++ [retag st.streamId f], lines := st.lines ++ [retag st.streamId f]
                nextSeq := st.nextSeq + 1, terminal := f.isLast } (frames ++ [f]) := by
  have hnone := h.terminal
  rw [hopen, if_neg Bool.false_ne_true] at hnone
  have hall : ∀ {p : StreamFrame V → Prop}, (∀ g ∈ frames, p g) → p f → ∀ g ∈ frames ++ [f], p g := by
    intro p hframes hf g hg
    rcases List.mem_append.1 hg with hg | hg
    · exact hframes g hg
    · rwa [List.mem_singleton.1 hg]
  refine ⟨⟨?_, ?_, ?_, ?_⟩, ?_, hall h.code hcode, hall h.serialisable hserialisable⟩
  · simp [h.lines]
  · simp [h.nextSeq]
  · exact h.numbered.concat (by rw [hseq, h.nextSeq])
  · cases hlast : f.isLast with
    | true => simpa using ⟨frames, f, rfl, hlast, hnone⟩
    | false => simpa using hall hnone hlast
  · simp [h.emitted]

/-- **A turn of the pump**: a frame that passes the checks is written, and what does not is cut off. -/
theorem pump_turn (h : Accepted host st frames) (item : StreamItem V) : Turn host st frames item (pump host st item) := by
  cases item with
  | throws thrown =>
    cases thrown <;> exact .stops _ _ h.toWritten.fails
  | done =>
    unfold pump
    dsimp only
    by_cases hterminal : st.terminal = true
    · rw [if_neg (not_not.2 hterminal)]
      obtain ⟨hends, hdisciplined⟩ := h.toWritten.ended hterminal
      obtain ⟨before, last, hframes, hlast, hbefore⟩ := hends
      have hemitted : st.emitted.getLast?.bind StreamFrame.errorCode = last.errorCode := by
        rw [h.emitted, hframes]
        simp
      rw [hemitted]
      cases hcode : last.errorCode with
      | none => exact .completes ⟨h.numbered, ⟨before, last, hframes, hlast, hbefore⟩, h.clean hframes hbefore hcode⟩
      | some code => exact .stops _ _ fun _ _ => hdisciplined
    · rw [if_pos hterminal]
      exact .stops _ _ h.toWritten.fails
  | frame f =>
    unfold pump
    dsimp only
    by_cases hbad : st.terminal = true ∨ f.seq ≠ st.nextSeq ∨ f.errorCode.isSome = true ∧ ¬ f.isLast = true
    · rw [if_pos hbad]
      exact .stops _ _ h.toWritten.fails
    · rw [if_neg hbad]
      rw [not_or, not_or, not_not, not_and_not_right] at hbad
      obtain ⟨hopen, hseq, hcode⟩ := hbad
      by_cases hunwritten : st.readerCancelled = true ∨ host.serialisable f.data = false
      · rw [if_pos hunwritten]
        have hpushed : Written { st with emitted := st.emitted ++ [retag st.streamId f] } frames :=
          ⟨h.lines, h.nextSeq, h.numbered, h.terminal⟩
        exact .stops _ _ hpushed.fails
      · rw [if_neg hunwritten]
        rw [not_or, Bool.not_eq_false] at hunwritten
        by_cases haborted : st.signalAborted = true
        · rw [if_pos haborted]
          refine .stops _ _ fun hnot => ?_
          rw [haborted] at hnot
          cases hnot
        · rw [if_neg haborted]
          exact .goesOn f _ (h.next (by simpa using hopen) hseq hcode hunwritten.2)

/-! ### What a provider streams -/

/-- An item that is pulled, if the frames of the call come from its provider. -/
def Call.provides (c : Call V) (item : StreamItem V) : List (StreamItem V) :=
  match c.phase, c.stream with
  | .streaming, some st =>
    match st.source with
    | .provider => [item]
    | .replay _ => []
  | _, _ => []

def pulledItems (s : ActionNodeApp V) (i : ℕ) : Event V → List (StreamItem V)
  | .pulled _ j item => if j = i then (s.calls[i]?.elim [] fun c => c.provides item) else []
  | _ => []

def provided (options : ActionNodeOptions) (host : Host V) (es : List (Event V)) (i : ℕ) : List (StreamItem V) :=
  noted (fun items s e => items ++ pulledItems s i e) (appStep options host) [] {} es

/-! ### The stream of a call -/

inductive Replaying (host : Host V) (frames : List (StreamFrame V)) (c : Call V) : Prop
  | goesOn (st : StreamRun V) (given rest : List (StreamFrame V)) (phase : c.phase = .streaming)
      (stream : c.stream = some st) (source : st.source = .replay rest) (split : frames = given ++ rest)
      (accepted : Accepted host st given)
  | ended (st : StreamRun V) (rest : List (StreamFrame V)) (phase : c.phase = .finished) (stream : c.stream = some st)
      (source : st.source = .replay rest)
      (lines : st.signalAborted = false → st.readerCancelled = false → st.lines = frames.map (retag st.streamId))

inductive Providing (host : Host V) (items : List (StreamItem V)) (c : Call V) : Prop
  | goesOn (st : StreamRun V) (frames : List (StreamFrame V)) (phase : c.phase = .streaming)
      (stream : c.stream = some st) (source : st.source = .provider) (items : items = frames.map .frame)
      (accepted : Accepted host st frames)
  | ended (st : StreamRun V) (phase : c.phase = .finished) (stream : c.stream = some st) (source : st.source = .provider)
      (disciplined : st.signalAborted = false → st.readerCancelled = false → Disciplined st.streamId st.lines)

/-- The stream of a call has ended well, and these frames of it are kept. -/
structure Completed (host : Host V) (items : List (StreamItem V)) (c : Call V) (frames : List (StreamFrame V)) :
    Prop where
  phase : c.phase = .finished
  serialisable : ∀ f ∈ frames, host.serialisable f.data = true
  own : ∃ st own, c.stream = some st ∧ st.source = .provider ∧ items = own.map .frame ++ [.done] ∧ WellFormed own ∧
    frames = own.map (retag st.streamId)

/-- **The stream of a call**, if it has one. -/
inductive Stands (host : Host V) (items : List (StreamItem V)) (c : Call V) : Prop
  | without (phase : c.phase ≠ .streaming) (stream : c.stream = none) (items : items = [])
  | providing (providing : Providing host items c)
  | replaying (frames : List (StreamFrame V)) (wellFormed : WellFormed frames)
      (serialisable : ∀ f ∈ frames, host.serialisable f.data = true) (replaying : Replaying host frames c)

theorem Completed.wellFormed {items : List (StreamItem V)} {c : Call V} (h : Completed host items c frames) :
    WellFormed frames := by
  obtain ⟨st, own, -, -, -, hown, rfl⟩ := h.own
  exact hown.retagged

theorem WellFormed.split {given rest : List (StreamFrame V)} (h : WellFormed (given ++ f :: rest)) :
    (∀ g ∈ given, g.isLast = false) ∧ f.seq = given.length ∧ f.errorCode = none := by
  refine ⟨fun g hg => ?_, ?_, h.clean f (by simp)⟩
  · obtain ⟨before, last, hframes, -, hbefore⟩ := h.ends
    have hbefore' : before = given ++ (f :: rest).dropLast := by
      have hdrop := congrArg List.dropLast hframes
      rw [List.dropLast_concat, List.dropLast_append_of_ne_nil (by simp)] at hdrop
      exact hdrop.symm
    exact hbefore g (by rw [hbefore']; exact List.mem_append_left _ hg)
  · have hnumbered := congrArg (·[given.length]?) h.numbered
    simpa using hnumbered

theorem accepted_nil (host : Host V) (streamId : String) (source : FrameSource V) (anchorRef : Option String)
    (signalAborted : Bool) : Accepted host { streamId, source, anchorRef, signalAborted } [] :=
  { lines := rfl, nextSeq := rfl, numbered := rfl, terminal := by simp, emitted := rfl, code := by simp
    serialisable := by simp }

/-! ### What an event does to the streams -/

/-- What holds of all streams and of the entries that keep one, in any state. -/
structure Kept (host : Host V) (s : ActionNodeApp V) (items : ℕ → List (StreamItem V)) : Prop where
  stands : ∀ i c, s.calls[i]? = some c → Stands host (items i) c
  fresh : ∀ i, s.calls[i]? = none → items i = []
  stored : ∀ k e frames, JsMap.get s.idempotency k = some e → e.streamFrames = some frames →
    ∃ j d, s.calls[j]? = some d ∧ Completed host (items j) d frames

/-- **A turn of a call**: what becomes of its stream, and the entries it leaves. -/
structure Moved (host : Host V) (s : ActionNodeApp V) (i : ℕ) (items items' : List (StreamItem V)) (c c' : Call V)
    (s' : ActionNodeApp V) : Prop where
  calls : s'.calls = s.calls.set i c'
  stands : Stands host items' c'
  kept : ∀ frames, Completed host items c frames → Completed host items' c' frames
  entries : ∀ k e frames, JsMap.get s'.idempotency k = some e → e.streamFrames = some frames →
    JsMap.get s.idempotency k = some e ∨ Completed host items' c' frames

variable {options : ActionNodeOptions} {amb : Ambient} {s s' : ActionNodeApp V} {i : ℕ} {c c' : Call V}
  {items : List (StreamItem V)} {cache : IdempotencyCache V} {entry : IdempotentEntry V}

variable {k : String}

theorem get_store_cases {now : ℚ} {e : IdempotentEntry V}
    (h : JsMap.get (store options now c entry cache) k = some e) : JsMap.get cache k = some e ∨ e = entry := by
  have hset : ∀ {cache' : IdempotencyCache V} {k' : String},
      (∀ e, JsMap.get cache' k = some e → JsMap.get cache k = some e) →
        JsMap.get (cache'.set k' entry) k = some e → JsMap.get cache k = some e ∨ e = entry := by
    intro cache' k' hsub hget
    rw [JsMap.get_set] at hget
    split at hget
    · cases hget
      exact .inr rfl
    · exact .inl (hsub e hget)
  unfold store at h
  split at h
  · exact .inl h
  · unfold IdempotencyCache.tryStore at h
    dsimp only at h
    split at h
    · exact hset (fun _ he => he) h
    · split at h
      · refine hset (fun e he => ?_) h
        rw [JsMap.get_delete] at he
        split at he
        · cases he
        · exact he
      · exact .inl h

theorem get_of_lookup {now : ℚ} {actionId key k : String} {e : IdempotentEntry V}
    (h : JsMap.get (cache.get now actionId key).2 k = some e) : JsMap.get cache k = some e := by
  unfold IdempotencyCache.get at h
  dsimp only at h
  split at h
  · exact h
  · split at h
    · rw [JsMap.get_delete] at h
      split at h
      · cases h
      · exact h
    · exact h

theorem Moved.without (hcalls : s'.calls = s.calls.set i c') (hphase : c'.phase ≠ .streaming)
    (hstream : c'.stream = none) (hbefore : c.stream = none)
    (hentries : ∀ k e frames, JsMap.get s'.idempotency k = some e → e.streamFrames = some frames →
      JsMap.get s.idempotency k = some e) : Moved host s i [] [] c c' s' :=
  { calls := hcalls
    stands := .without hphase hstream rfl
    kept := fun frames h => by
      obtain ⟨st, own, hst, -⟩ := h.own
      rw [hbefore] at hst
      cases hst
    entries := fun k e frames hget hframes => .inl (hentries k e frames hget hframes) }

theorem entries_store {now : ℚ} (hnone : entry.streamFrames = none) (k : String) (e : IdempotentEntry V)
    (frames : List (StreamFrame V)) (hget : JsMap.get (store options now c entry cache) k = some e)
    (hframes : e.streamFrames = some frames) : JsMap.get cache k = some e := by
  rcases get_store_cases hget with hget | rfl
  · exact hget
  · rw [hnone] at hframes
    cases hframes

theorem startTask_moves (hstream : c.stream = none) :
    ∃ c', Moved host s i [] [] c c' (startTask options host amb s i c) := by
  unfold startTask
  dsimp only
  split
  · exact ⟨_, .without rfl nofun hstream hstream fun k e frames hget _ => hget⟩
  · split
    · exact ⟨_, .without rfl nofun hstream hstream (entries_store rfl)⟩
    · exact ⟨_, .without rfl nofun hstream hstream (entries_store rfl)⟩

theorem start_moves (hstream : c.stream = none) :
    ∃ c', Moved host s i [] [] c c'
      (if c.frame.async_ then startTask options host amb s i c else startExecution amb s i c) := by
  split
  · exact startTask_moves hstream
  · exact ⟨_, .without rfl nofun hstream hstream fun k e frames hget _ => hget⟩

theorem startStream_replaying (amb : Ambient) (c : Call V) (anchorRef : Option String) (aborted : Bool) :
    Replaying host frames (startStream amb c (.replay frames) anchorRef aborted) := by
  cases aborted with
  | true => exact .ended _ frames rfl rfl rfl nofun
  | false => exact .goesOn _ [] frames rfl rfl rfl rfl (accepted_nil ..)

theorem replay_moves {items : ℕ → List (StreamItem V)} (h : Kept host s items) (hstream : c.stream = none)
    (hentry : JsMap.get s.idempotency k = some entry) :
    Moved host s i [] [] c (replay options host amb s c entry) (setCall s i (replay options host amb s c entry)) := by
  unfold replay
  split
  · exact .without rfl (by rintro ⟨⟩) hstream hstream fun k e frames hget _ => hget
  · split
    · exact .without rfl (by rintro ⟨⟩) hstream hstream fun k e frames hget _ => hget
    · split
      · rename_i frames hframes
        obtain ⟨j, d, -, hcompleted⟩ := h.stored k entry frames hentry hframes
        exact
          { calls := rfl
            stands := .replaying frames hcompleted.wellFormed hcompleted.serialisable (startStream_replaying ..)
            kept := fun frames hd => by
              obtain ⟨st, own, hst, -⟩ := hd.own
              rw [hstream] at hst
              cases hst
            entries := fun k e frames hget _ => .inl hget }
      · exact .without rfl (by rintro ⟨⟩) hstream hstream fun k e frames hget _ => hget

theorem lookup_moves {items : ℕ → List (StreamItem V)} (h : Kept host s items) (hstream : c.stream = none) :
    ∃ c', Moved host s i [] [] c c' (lookup options host amb s i c) := by
  unfold lookup
  dsimp only
  cases hkey : truthy c.frame.idempotencyKey with
  | none => exact start_moves hstream
  | some key =>
    dsimp only
    have hsub : ∀ k e, JsMap.get (s.idempotency.get (amb.clock s.now 0)
        (scopedCacheActionId options c.frame.actionId c.context.agentNid) key).2 k = some e →
          JsMap.get s.idempotency k = some e := fun k e => get_of_lookup
    rcases IdempotencyCache.get_cases s.idempotency (amb.clock s.now 0)
        (scopedCacheActionId options c.frame.actionId c.context.agentNid) key with
      ⟨cached, hentry, -, hget⟩ | ⟨cache, hget, -⟩
    · rw [hget]
      exact ⟨_, replay_moves h hstream hentry⟩
    · rw [hget] at hsub ⊢
      obtain ⟨c', hmoved⟩ := @start_moves V host options amb { s with idempotency := cache } i c hstream
      refine ⟨c', hmoved.calls, hmoved.stands, hmoved.kept, fun k e frames hcached hframes => ?_⟩
      exact (hmoved.entries k e frames hcached hframes).imp (hsub k e) id

theorem settleExecution_moves {aborted : Bool} (result : Except Thrown (ActionExecutionResult V))
    (hstream : c.stream = none) : ∃ c', Moved host s i [] [] c c' (settleExecution options host amb s i c aborted result) := by
  cases result with
  | error thrown => exact ⟨_, .without rfl nofun hstream hstream fun k e frames hget _ => hget⟩
  | ok result =>
    unfold settleExecution
    dsimp only
    split
    · refine ⟨startStream amb c .provider _ false, rfl, ?_, fun frames hd => ?_, fun k e frames hget _ => .inl hget⟩
      · exact .providing (.goesOn _ [] rfl rfl rfl rfl (accepted_nil ..))
      · obtain ⟨st, own, hst, -⟩ := hd.own
        rw [hstream] at hst
        cases hst
    · exact ⟨_, .without rfl nofun hstream hstream (entries_store rfl)⟩

theorem settleTask_moves {taskId : String} {aborted : Bool} (result : Except Thrown (ActionExecutionResult V))
    (hstream : c.stream = none) : ∃ c', Moved host s i [] [] c c' (settleTask amb s i c taskId aborted result) := by
  cases result with
  | error thrown => exact ⟨_, .without rfl nofun hstream hstream fun k e frames hget _ => hget⟩
  | ok result => exact ⟨_, .without rfl nofun hstream hstream fun k e frames hget _ => hget⟩

theorem pump_frame (host : Host V) (st : StreamRun V) (item : StreamItem V) :
    (pump host st item).1.streamId = st.streamId ∧ (pump host st item).1.source = st.source ∧
      (pump host st item).1.signalAborted = st.signalAborted ∧
        (pump host st item).1.readerCancelled = st.readerCancelled := by
  have hfail : ∀ (st : StreamRun V) code, (failureLine host st code).streamId = st.streamId ∧
      (failureLine host st code).source = st.source ∧
        (failureLine host st code).signalAborted = st.signalAborted ∧
          (failureLine host st code).readerCancelled = st.readerCancelled := by
    intro st code
    unfold failureLine
    split <;> exact ⟨rfl, rfl, rfl, rfl⟩
  cases item with
  | done =>
    unfold pump
    dsimp only
    split
    · exact hfail ..
    · split <;> exact ⟨rfl, rfl, rfl, rfl⟩
  | throws thrown => cases thrown <;> exact hfail ..
  | frame f =>
    unfold pump
    dsimp only
    split
    · exact hfail ..
    · split
      · exact hfail ..
      · split <;> exact ⟨rfl, rfl, rfl, rfl⟩

/-- A turn of the pump of a call whose frames come from its provider. -/
theorem pumpCall_provided {st : StreamRun V} (item : StreamItem V) (hphase : c.phase = .streaming)
    (hsource : st.source = .provider) (hitems : items = frames.map .frame) (h : Accepted host st frames) :
    ∃ c', Moved host s i items (items ++ [item]) c c' (pumpCall options host amb s i c st item) := by
  have hnot : ∀ kept, ¬ Completed host items c kept := by
    intro kept hd
    have hfinished := hd.phase
    rw [hphase] at hfinished
    cases hfinished
  have hnext : nextItem st item = (item, .provider) := by rw [nextItem, hsource]
  have hst : ({ st with source := .provider } : StreamRun V) = st := by rw [← hsource]
  obtain ⟨hid, hsource', haborted, hcancelled⟩ := pump_frame host st item
  rw [hsource] at hsource'
  have hturn := pump_turn h item
  unfold pumpCall
  rw [hnext]
  dsimp only
  rw [hst]
  rcases hpump : pump host st item with ⟨st', pumped⟩
  rw [hpump] at hturn hid hsource' haborted hcancelled
  cases hturn with
  | goesOn f st' accepted =>
    refine ⟨_, rfl, .providing (.goesOn st' (frames ++ [f]) hphase rfl hsource' (by simp [hitems]) accepted),
      fun kept hd => absurd hd (hnot kept), fun k e frames hget _ => .inl hget⟩
  | stops item st' disciplined =>
    refine ⟨_, rfl, .providing (.ended st' rfl rfl hsource' fun h1 h2 => ?_), fun kept hd => absurd hd (hnot kept),
      fun k e frames hget _ => .inl hget⟩
    dsimp only at hid haborted hcancelled
    rw [hid]
    exact disciplined (haborted ▸ h1) (hcancelled ▸ h2)
  | completes wellFormed =>
    have hlines : ∀ streamId, Disciplined streamId (frames.map (retag streamId)) := fun _ => wellFormed.disciplined
    refine ⟨_, rfl, .providing (.ended st rfl rfl hsource fun _ _ => h.lines ▸ hlines _),
      fun kept hd => absurd hd (hnot kept), fun k e kept hget hkept => ?_⟩
    rcases get_store_cases hget with hget | rfl
    · exact .inl hget
    · cases hkept
      refine .inr ⟨rfl, ?_, st, frames, rfl, hsource, by rw [hitems], wellFormed, h.emitted⟩
      rw [h.emitted]
      intro f hf
      obtain ⟨g, hg, rfl⟩ := List.mem_map.1 hf
      exact h.serialisable g hg

theorem pump_done (h : Accepted host st frames) (hframes : WellFormed frames) : pump host st .done = (st, .completes) := by
  obtain ⟨before, last, hsplit, hlast, -⟩ := hframes.ends
  have hterminal : st.terminal = true := by
    by_contra hopen
    have hnone := h.terminal
    rw [if_neg hopen] at hnone
    rw [hnone last (by simp [hsplit])] at hlast
    cases hlast
  have hcode : last.errorCode = none := hframes.clean last (by simp [hsplit])
  have hemitted : st.emitted.getLast?.bind StreamFrame.errorCode = none := by
    rw [h.emitted, hsplit]
    simp [hcode]
  unfold pump
  simp only [hterminal, hemitted, not_true_eq_false, if_false, Option.isNone_none, if_true]

variable {rest : List (StreamFrame V)}

theorem pump_next (h : Accepted host st frames) (hframes : WellFormed (frames ++ f :: rest))
    (hserialisable : host.serialisable f.data = true) (haborted : st.signalAborted = false)
    (hcancelled : st.readerCancelled = false) : (pump host st (.frame f)).2 = .goesOn := by
  obtain ⟨hopen, hseq, hcode⟩ := hframes.split
  have hterminal : st.terminal = false := by
    by_contra hended
    rw [Bool.not_eq_false] at hended
    obtain ⟨⟨before, last, rfl, hlast, -⟩, -⟩ := h.toWritten.ended hended
    rw [hopen last (by simp)] at hlast
    cases hlast
  unfold pump
  simp [hterminal, hseq, hcode, h.nextSeq, hserialisable, haborted, hcancelled]

theorem pumpCall_of_replay {st : StreamRun V} {item next : StreamItem V}
    (hnext : nextItem st item = (next, .replay rest)) : pumpCall options host amb s i c st item =
      setCall s i { c with
        stream := some (pump host { st with source := .replay rest } next).1
        phase := if (pump host { st with source := .replay rest } next).2 = .goesOn then c.phase else .finished } := by
  unfold pumpCall
  rw [hnext]
  dsimp only
  rcases pump host { st with source := .replay rest } next with ⟨st', pumped⟩
  cases pumped <;> rfl

theorem nextItem_cases {st : StreamRun V} (item : StreamItem V) (hsource : st.source = .replay rest) :
    (rest = [] ∧ nextItem st item = (.done, .replay [])) ∨
      (st.readerCancelled = true ∧ nextItem st item = (.done, .replay [])) ∨
        ∃ f rest', rest = f :: rest' ∧ nextItem st item = (.frame f, .replay rest') := by
  unfold nextItem
  rw [hsource]
  cases rest with
  | nil => exact .inl ⟨rfl, rfl⟩
  | cons f rest =>
    dsimp only
    split
    · rename_i hcancelled
      exact .inr (.inl ⟨hcancelled, rfl⟩)
    · exact .inr (.inr ⟨f, rest, rfl, rfl⟩)

/-- A turn of the pump of a call that replays some frames. -/
theorem pumpCall_replayed {st : StreamRun V} {given rest : List (StreamFrame V)} (item : StreamItem V)
    (hphase : c.phase = .streaming) (hsource : st.source = .replay rest) (hsplit : frames = given ++ rest)
    (h : Accepted host st given) (hframes : WellFormed frames)
    (hserialisable : ∀ f ∈ frames, host.serialisable f.data = true) :
    ∃ c', (pumpCall options host amb s i c st item).calls = s.calls.set i c' ∧ Replaying host frames c' ∧
      (pumpCall options host amb s i c st item).idempotency = s.idempotency := by
  have hwith : ∀ source, Accepted host { st with source } given := fun source =>
    { lines := h.lines, nextSeq := h.nextSeq, numbered := h.numbered, terminal := h.terminal, emitted := h.emitted
      code := h.code, serialisable := h.serialisable }
  rcases nextItem_cases item hsource with ⟨rfl, hnext⟩ | ⟨hcancelled, hnext⟩ | ⟨f, rest', rfl, hnext⟩
  · -- all is given
    rw [List.append_nil] at hsplit
    subst hsplit
    rw [pumpCall_of_replay hnext, pump_done (hwith _) hframes]
    exact ⟨_, rfl, .ended _ [] rfl rfl rfl fun _ _ => h.lines, rfl⟩
  · -- the reader has gone
    rw [pumpCall_of_replay hnext]
    refine ⟨_, rfl, ?_, rfl⟩
    obtain ⟨-, hsource', -, hcancelled'⟩ := pump_frame host { st with source := .replay [] } .done
    have hturn := pump_turn (hwith (.replay [])) .done
    rcases hpump : pump host { st with source := .replay [] } .done with ⟨st', pumped⟩
    rw [hpump] at hturn hsource' hcancelled'
    have hflag : st'.readerCancelled = true := hcancelled'.trans hcancelled
    cases hturn with
    | stops | completes =>
      refine .ended _ [] rfl rfl hsource' fun _ hnot => ?_
      rw [hflag] at hnot
      cases hnot
  · -- the next frame
    rw [pumpCall_of_replay hnext]
    refine ⟨_, rfl, ?_, rfl⟩
    obtain ⟨hid, hsource', haborted, hcancelled⟩ := pump_frame host { st with source := .replay rest' } (.frame f)
    have hturn := pump_turn (hwith (.replay rest')) (.frame f)
    have hgoesOn := pump_next (hwith (.replay rest')) (hsplit ▸ hframes) (hserialisable f (by simp [hsplit]))
    rcases hpump : pump host { st with source := .replay rest' } (.frame f) with ⟨st', pumped⟩
    rw [hpump] at hturn hid hsource' haborted hcancelled hgoesOn
    cases hturn with
    | goesOn f st' accepted =>
      exact .goesOn st' (given ++ [f]) rest' hphase rfl hsource' (by simp [hsplit]) accepted
    | stops item st' disciplined =>
      refine .ended st' rest' rfl rfl hsource' fun h1 h2 => ?_
      have hgoes := hgoesOn (haborted.symm.trans h1) (hcancelled.symm.trans h2)
      cases hgoes

/-! ### The turns of a call -/

theorem same_calls (hi : s.calls[i]? = some c) : s.calls = s.calls.set i c := by
  obtain ⟨hlt, rfl⟩ := List.getElem?_eq_some_iff.1 hi
  exact (List.set_getElem_self hlt).symm

theorem Accepted.flagged {st st' : StreamRun V} (h : Accepted host st frames)
    (hsame : st'.lines = st.lines ∧ st'.emitted = st.emitted ∧ st'.streamId = st.streamId ∧
      st'.nextSeq = st.nextSeq ∧ st'.terminal = st.terminal) : Accepted host st' frames := by
  obtain ⟨hlines, hemitted, hid, hseq, hterminal⟩ := hsame
  refine ⟨⟨?_, ?_, h.numbered, ?_⟩, ?_, h.code, h.serialisable⟩
  · rw [hlines, hid, h.lines]
  · rw [hseq, h.nextSeq]
  · rw [hterminal]
    exact h.terminal
  · rw [hemitted, hid, h.emitted]

variable (options) in
theorem callStep_replaying (hi : s.calls[i]? = some c) (hframes : WellFormed frames)
    (hserialisable : ∀ f ∈ frames, host.serialisable f.data = true) (h : Replaying host frames c) (e : Event V) :
    ∃ c', (callStep options host s i c e).calls = s.calls.set i c' ∧ Replaying host frames c' ∧
      (callStep options host s i c e).idempotency = s.idempotency := by
  have hstill : ∃ c', s.calls = s.calls.set i c' ∧ Replaying host frames c' ∧ s.idempotency = s.idempotency :=
    ⟨c, same_calls hi, h, rfl⟩
  cases h with
  | goesOn st given rest phase stream source split accepted =>
    cases e with
    | pulled amb j item =>
      simp only [callStep, phase, stream]
      exact pumpCall_replayed item phase source split accepted hframes hserialisable
    | readerCancelled j =>
      simp only [callStep, phase, stream, source]
      exact ⟨_, rfl, .goesOn _ given rest rfl rfl rfl split (accepted.flagged ⟨rfl, rfl, rfl, rfl, rfl⟩), rfl⟩
    | requestAborted j =>
      simp only [callStep, stream, source]
      exact ⟨_, rfl, .goesOn _ given rest phase rfl rfl split (accepted.flagged ⟨rfl, rfl, rfl, rfl, rfl⟩), rfl⟩
    | request | authorized | timeout | settled =>
      simpa [callStep, phase, stream, source] using hstill
  | ended st rest phase stream source lines =>
    cases e with
    | requestAborted j =>
      simp only [callStep, stream, source]
      exact ⟨_, rfl, .ended _ rest phase rfl rfl (by simp), rfl⟩
    | request | authorized | timeout | settled | pulled | readerCancelled =>
      simpa [callStep, phase, stream, source] using hstill

/-- An event of a call whose frames come from its provider. -/
theorem callStep_providing (hi : s.calls[i]? = some c) (h : Providing host items c) (e : Event V)
    (he : e.call? = some i) :
    ∃ c', Moved host s i items (items ++ pulledItems s i e) c c' (callStep options host s i c e) := by
  have hmoved : ∀ (s' : ActionNodeApp V) (c' : Call V), s'.calls = s.calls.set i c' →
      Providing host items c' → c'.phase = c.phase → (c.phase = .finished → c'.stream = c.stream) →
        s'.idempotency = s.idempotency → Moved host s i items items c c' s' := by
    intro s' c' hcalls hproviding hphase hstream hcache
    refine ⟨hcalls, .providing hproviding, fun frames hd => ?_, fun k e frames hget _ => .inl (hcache ▸ hget)⟩
    refine ⟨hphase.trans hd.phase, hd.serialisable, ?_⟩
    rw [hstream hd.phase]
    exact hd.own
  have hstill : Moved host s i items items c c s := hmoved s c (same_calls hi) h rfl (fun _ => rfl) rfl
  cases h with
  | goesOn st frames phase stream source items accepted =>
    cases e with
    | pulled amb j item =>
      cases he
      have hpulled : pulledItems s i (.pulled amb i item) = [item] := by
        simp [pulledItems, hi, Call.provides, phase, stream, source]
      rw [hpulled]
      simp only [callStep, phase, stream]
      exact pumpCall_provided item phase source items accepted
    | readerCancelled j =>
      rw [show pulledItems s i _ = [] from rfl, List.append_nil]
      simp only [callStep, phase, stream, source]
      refine ⟨_, hmoved _ _ rfl ?_ phase.symm (fun hnot => ?_) rfl⟩
      · exact .goesOn _ frames rfl rfl rfl items (accepted.flagged ⟨rfl, rfl, rfl, rfl, rfl⟩)
      · rw [phase] at hnot
        cases hnot
    | timeout j =>
      rw [show pulledItems s i _ = [] from rfl, List.append_nil]
      cases hcancelled : st.readerCancelled with
      | true => simpa [callStep, phase, stream, source, hcancelled] using ⟨c, hstill⟩
      | false =>
        simp only [callStep, phase, stream, source, hcancelled]
        refine ⟨_, hmoved _ _ rfl ?_ phase.symm (fun hnot => ?_) rfl⟩
        · exact .goesOn _ frames rfl rfl rfl items (accepted.flagged ⟨rfl, rfl, rfl, rfl, rfl⟩)
        · rw [phase] at hnot
          cases hnot
    | requestAborted j =>
      rw [show pulledItems s i _ = [] from rfl, List.append_nil]
      simp only [callStep, stream, source]
      exact ⟨_, hmoved _ _ rfl (.goesOn st frames phase rfl source items accepted) rfl (fun _ => stream.symm) rfl⟩
    | request => cases he
    | authorized | settled =>
      rw [show pulledItems s i _ = [] from rfl, List.append_nil]
      simpa [callStep, phase] using ⟨c, hstill⟩
  | ended st phase stream source disciplined =>
    have hpulled : pulledItems s i e = [] := by
      cases e with
      | pulled amb j item => simp [pulledItems, hi, Call.provides, phase]
      | _ => rfl
    rw [hpulled, List.append_nil]
    cases e with
    | requestAborted j =>
      simp only [callStep, stream, source]
      exact ⟨_, hmoved _ _ rfl (.ended st phase rfl source disciplined) rfl (fun _ => stream.symm) rfl⟩
    | request | authorized | timeout | settled | pulled | readerCancelled =>
      simpa [callStep, phase, stream, source] using ⟨c, hstill⟩

/-- An event of a call without a stream. -/
theorem callStep_without {items : ℕ → List (StreamItem V)} (h : Kept host s items) (hi : s.calls[i]? = some c)
    (hphase : c.phase ≠ .streaming) (hstream : c.stream = none) (e : Event V) :
    ∃ c', Moved host s i [] [] c c' (callStep options host s i c e) := by
  have hstill : ∃ c', Moved host s i [] [] c c' s :=
    ⟨c, .without (same_calls hi) hphase hstream hstream fun k e frames hget _ => hget⟩
  cases e with
  | request => exact hstill
  | authorized amb j answer =>
    unfold callStep
    dsimp only
    split
    · exact hstill
    · split
      · exact ⟨_, .without rfl nofun hstream hstream fun k e frames hget _ => hget⟩
      · exact lookup_moves h hstream
  | timeout j =>
    unfold callStep
    dsimp only
    split
    · exact ⟨_, .without rfl nofun hstream hstream fun k e frames hget _ => hget⟩
    · exact ⟨_, .without rfl nofun hstream hstream fun k e frames hget _ => hget⟩
    · rename_i hst
      rw [hstream] at hst
      cases hst
    · exact hstill
  | settled amb j outcome =>
    unfold callStep
    dsimp only
    split
    · split
      · exact settleExecution_moves _ hstream
      · exact hstill
    · split
      · exact settleTask_moves _ hstream
      · exact hstill
    · exact hstill
  | pulled amb j item =>
    unfold callStep
    simpa [hstream] using hstill
  | readerCancelled j =>
    unfold callStep
    simpa [hstream] using hstill
  | requestAborted j =>
    unfold callStep
    simp only [hstream]
    exact ⟨_, .without rfl hphase rfl hstream fun k e frames hget _ => hget⟩

variable (options) in
/-- **An event of a call**, and its stream. -/
theorem callStep_moves {items : ℕ → List (StreamItem V)} (h : Kept host s items) (hi : s.calls[i]? = some c)
    (e : Event V) (he : e.call? = some i) :
    ∃ c', Moved host s i (items i) (items i ++ pulledItems s i e) c c' (callStep options host s i c e) := by
  cases h.stands i c hi with
  | without phase stream none =>
    have hpulled : pulledItems s i e = [] := by
      cases e with
      | pulled amb j item => simp [pulledItems, hi, Call.provides, stream]
      | _ => rfl
    rw [hpulled, none]
    exact callStep_without h hi phase stream e
  | providing providing => exact callStep_providing hi providing e he
  | replaying frames wellFormed serialisable replaying =>
    obtain ⟨c', hcalls, hreplaying, hcache⟩ := callStep_replaying options hi wellFormed serialisable replaying e
    refine ⟨c', hcalls, .replaying frames wellFormed serialisable hreplaying, fun kept hd => ?_,
      fun k e kept hget _ => .inl (hcache ▸ hget)⟩
    obtain ⟨st, own, hst, hsource, -⟩ := hd.own
    cases replaying with
    | goesOn st' given rest phase stream source | ended st' rest phase stream source =>
      rw [stream] at hst
      cases hst
      rw [source] at hsource
      cases hsource

/-! ### Requests that arrive -/

variable (host options amb s) in
theorem handleRequest_calls (r : InvokeRequest) :
    (handleRequest options host amb s r).calls = s.calls ∨
      (∃ taskId, (handleRequest options host amb s r).calls = s.calls.map (Call.abort taskId)) ∨
        ∃ c, (handleRequest options host amb s r).calls = s.calls ++ [c] ∧ c.phase = .authorizing ∧
          c.stream = none := by
  unfold handleRequest
  dsimp only
  split
  · exact .inl rfl
  · split
    · exact .inl rfl
    · split
      · exact .inl rfl
      · split
        · unfold handleSystemTaskCancel
          split
          · exact .inl rfl
          · split
            · exact .inl rfl
            · exact .inr (.inl ⟨_, rfl⟩)
        · split
          · exact .inl rfl
          · rename_i c hc
            obtain ⟨-, hphase, -, -, hstream⟩ := accept_fresh hc
            exact .inr (.inr ⟨c, rfl, hphase, hstream⟩)

theorem abort_of_phase (taskId : String) (hphase : ∀ taskId b, c.phase ≠ .running taskId b) : c.abort taskId = c := by
  rcases c.abort_cases taskId with heq | ⟨b, hrunning, -⟩
  · exact heq
  · exact absurd hrunning (hphase taskId b)

theorem Stands.abort (h : Stands host items c) (taskId : String) : Stands host items (c.abort taskId) := by
  cases h with
  | without phase stream none =>
    rcases c.abort_cases taskId with heq | ⟨b, hrunning, heq⟩
    · rw [heq]
      exact .without phase stream none
    · rw [heq]
      exact .without nofun stream none
  | providing providing =>
    have hsame : c.abort taskId = c := by
      cases providing with
      | goesOn st frames phase | ended st phase => exact abort_of_phase taskId fun _ _ => by rw [phase]; nofun
    rw [hsame]
    exact .providing providing
  | replaying frames wellFormed serialisable replaying =>
    have hsame : c.abort taskId = c := by
      cases replaying with
      | goesOn st given rest phase | ended st rest phase =>
        exact abort_of_phase taskId fun _ _ => by rw [phase]; nofun
    rw [hsame]
    exact .replaying frames wellFormed serialisable replaying

theorem Completed.abort (h : Completed host items c frames) (taskId : String) :
    Completed host items (c.abort taskId) frames := by
  rw [abort_of_phase taskId fun _ _ => by rw [h.phase]; nofun]
  exact h

/-! ### Runs -/

variable {e : Event V}

theorem pulledItems_other {j : ℕ} (h : e.call? ≠ some j) : pulledItems s j e = [] := by
  cases e with
  | pulled amb i item => exact if_neg fun heq => h (by rw [Event.call?, heq])
  | _ => rfl

theorem Kept.request {items : ℕ → List (StreamItem V)} (h : Kept host s items) (amb : Ambient) (r : InvokeRequest)
    (now : ℚ) : Kept host { handleRequest options host amb s r with now } items := by
  have hcache : (handleRequest options host amb s r).idempotency = s.idempotency := handleRequest_keeps r |>.1
  rcases handleRequest_calls host options amb s r with
    heq | ⟨taskId, heq⟩ | ⟨c, heq, hphase, hstream⟩
  · refine ⟨fun i c hi => h.stands i c (heq ▸ hi), fun i hi => h.fresh i (heq ▸ hi), fun k e frames hget hframes => ?_⟩
    obtain ⟨j, d, hj, hd⟩ := h.stored k e frames (hcache ▸ hget) hframes
    exact ⟨j, d, heq ▸ hj, hd⟩
  · refine ⟨fun i c hi => ?_, fun i hi => ?_, fun k e frames hget hframes => ?_⟩
    · dsimp only at hi
      rw [heq, List.getElem?_map, Option.map_eq_some_iff] at hi
      obtain ⟨d, hd, rfl⟩ := hi
      exact (h.stands i d hd).abort taskId
    · dsimp only at hi
      rw [heq, List.getElem?_map, Option.map_eq_none_iff] at hi
      exact h.fresh i hi
    · obtain ⟨j, d, hj, hd⟩ := h.stored k e frames (hcache ▸ hget) hframes
      refine ⟨j, d.abort taskId, ?_, hd.abort taskId⟩
      dsimp only
      rw [heq, List.getElem?_map, hj]
      rfl
  · refine ⟨fun i d hi => ?_, fun i hi => ?_, fun k e frames hget hframes => ?_⟩
    · dsimp only at hi
      rw [heq] at hi
      by_cases hlt : i < s.calls.length
      · rw [List.getElem?_append_left hlt] at hi
        exact h.stands i d hi
      · rw [List.getElem?_append_right (by omega)] at hi
        have hnone : s.calls[i]? = none := List.getElem?_eq_none (by omega)
        rw [List.mem_singleton.1 (List.mem_of_getElem? hi)]
        rw [h.fresh i hnone]
        exact .without (by rw [hphase]; nofun) hstream rfl
    · dsimp only at hi
      rw [heq, List.getElem?_eq_none_iff, List.length_append] at hi
      exact h.fresh i (List.getElem?_eq_none (by omega))
    · obtain ⟨j, d, hj, hd⟩ := h.stored k e frames (hcache ▸ hget) hframes
      refine ⟨j, d, ?_, hd⟩
      dsimp only
      rw [heq, List.getElem?_append_left (List.getElem?_eq_some_iff.1 hj).1, hj]

theorem Kept.moved {items : ℕ → List (StreamItem V)} (h : Kept host s items) (hi : s.calls[i]? = some c)
    {items' : ℕ → List (StreamItem V)} (hmoved : Moved host s i (items i) (items' i) c c' s')
    (hothers : ∀ j, j ≠ i → items' j = items j) (now : ℚ) : Kept host { s' with now } items' := by
  have hlt := (List.getElem?_eq_some_iff.1 hi).1
  have hcompleted : ∀ j d frames, s.calls[j]? = some d → Completed host (items j) d frames →
      ∃ j d, s'.calls[j]? = some d ∧ Completed host (items' j) d frames := by
    intro j d frames hj hd
    by_cases hji : j = i
    · subst hji
      rw [hi] at hj
      cases hj
      exact ⟨j, c', by rw [hmoved.calls, List.getElem?_set_self hlt], hmoved.kept frames hd⟩
    · exact ⟨j, d, by rw [hmoved.calls, List.getElem?_set_ne (Ne.symm hji), hj], by rwa [hothers j hji]⟩
  refine ⟨fun j d hj => ?_, fun j hj => ?_, fun k e frames hget hframes => ?_⟩
  · dsimp only at hj
    rw [hmoved.calls] at hj
    by_cases hji : j = i
    · subst hji
      rw [List.getElem?_set_self hlt] at hj
      cases hj
      exact hmoved.stands
    · rw [List.getElem?_set_ne (Ne.symm hji)] at hj
      rw [hothers j hji]
      exact h.stands j d hj
  · dsimp only at hj
    rw [hmoved.calls, List.getElem?_eq_none_iff, List.length_set] at hj
    have hji : j ≠ i := by omega
    rw [hothers j hji]
    exact h.fresh j (List.getElem?_eq_none hj)
  · rcases hmoved.entries k e frames hget hframes with hold | hnew
    · obtain ⟨j, d, hj, hd⟩ := h.stored k e frames hold hframes
      exact hcompleted j d frames hj hd
    · exact ⟨i, c', by rw [hmoved.calls, List.getElem?_set_self hlt], hnew⟩

theorem Kept.step {items : ℕ → List (StreamItem V)} (h : Kept host s items) (e : Event V) :
    Kept host (appStep options host s e) fun i => items i ++ pulledItems s i e := by
  cases he : e.call? with
  | none =>
    have hnone : (fun i => items i ++ pulledItems s i e) = items := by
      funext i
      rw [pulledItems_other (by rw [he]; nofun), List.append_nil]
    rw [hnone]
    cases e with
    | request amb r => exact h.request amb r _
    | _ => cases he
  | some i =>
    rw [appStep_eq he]
    have hothers : ∀ j, j ≠ i → items j ++ pulledItems s j e = items j := by
      intro j hji
      rw [pulledItems_other (by rw [he]; exact fun heq => hji (Option.some.inj heq).symm), List.append_nil]
    cases hi : s.calls[i]? with
    | none =>
      have hnone : (fun i => items i ++ pulledItems s i e) = items := by
        funext j
        by_cases hji : j = i
        · subst hji
          have hpulled : pulledItems s j e = [] := by
            cases e with
            | pulled amb l item => simp [pulledItems, hi]
            | _ => rfl
          rw [hpulled, List.append_nil]
        · exact hothers j hji
      rw [hnone]
      exact ⟨h.stands, h.fresh, h.stored⟩
    | some c =>
      obtain ⟨c', hmoved⟩ := callStep_moves options h hi e he
      exact h.moved hi hmoved hothers _

theorem provided_snoc (es : List (Event V)) (e : Event V) (i : ℕ) : provided options host (es ++ [e]) i =
    provided options host es i ++ pulledItems (appAfter options host es) i e := by
  rw [provided, noted_snoc]
  rfl

theorem kept_appAfter (options : ActionNodeOptions) (host : Host V) (es : List (Event V)) :
    Kept host (appAfter options host es) (provided options host es) := by
  induction es using List.reverseRecOn with
  | nil =>
    rw [appAfter, run_nil]
    refine ⟨fun i c hi => ?_, fun i _ => ?_, fun k e frames hget => ?_⟩
    · rw [List.getElem?_nil] at hi
      cases hi
    · rw [provided, noted_nil]
    · rw [show JsMap.get ({} : ActionNodeApp V).idempotency k = none from rfl] at hget
      cases hget
  | append_singleton es e ih =>
    have hitems : provided options host (es ++ [e]) =
        fun i => provided options host es i ++ pulledItems (appAfter options host es) i e := by
      funext i
      exact provided_snoc es e i
    rw [hitems, appAfter, run_snoc]
    exact ih.step e

/-! ### Replays -/

def Replays (host : Host V) (frames : List (StreamFrame V)) (c : Call V) : Prop :=
  Replaying host frames c ∨ c.phase = .finished ∧ c.stream = none

variable (options) in
theorem callStep_replays (hi : s.calls[i]? = some c) (hframes : WellFormed frames)
    (hserialisable : ∀ f ∈ frames, host.serialisable f.data = true) (h : Replays host frames c) (e : Event V) :
    ∃ c', (callStep options host s i c e).calls = s.calls.set i c' ∧ Replays host frames c' := by
  rcases h with h | ⟨hphase, hstream⟩
  · obtain ⟨c', hcalls, hreplaying, -⟩ := callStep_replaying options hi hframes hserialisable h e
    exact ⟨c', hcalls, .inl hreplaying⟩
  · have hstill : ∃ c', s.calls = s.calls.set i c' ∧ Replays host frames c' :=
      ⟨c, same_calls hi, .inr ⟨hphase, hstream⟩⟩
    cases e with
    | requestAborted j =>
      simp only [callStep, hstream]
      exact ⟨_, rfl, .inr ⟨hphase, rfl⟩⟩
    | request | authorized | timeout | settled | pulled | readerCancelled =>
      simpa [callStep, hphase, hstream] using hstill

theorem Replays.abort (h : Replays host frames c) (taskId : String) : c.abort taskId = c := by
  refine abort_of_phase taskId fun t b hrunning => ?_
  rcases h with h | ⟨hphase, -⟩
  · cases h with
    | goesOn st given rest phase | ended st rest phase =>
      rw [phase] at hrunning
      cases hrunning
  · rw [hphase] at hrunning
    cases hrunning

theorem appStep_replays (hframes : WellFormed frames) (hserialisable : ∀ f ∈ frames, host.serialisable f.data = true)
    (hi : s.calls[i]? = some c) (h : Replays host frames c) (e : Event V) :
    ∃ c', (appStep options host s e).calls[i]? = some c' ∧ Replays host frames c' := by
  have hlt : i < s.calls.length := (List.getElem?_eq_some_iff.1 hi).1
  cases he : e.call? with
  | none =>
    cases e with
    | request amb r =>
      refine ⟨c, ?_, h⟩
      show (handleRequest options host amb s r).calls[i]? = some c
      rcases handleRequest_calls host options amb s r with
        heq | ⟨taskId, heq⟩ | ⟨d, heq, -⟩
      · rw [heq, hi]
      · rw [heq, List.getElem?_map, hi, Option.map_some, h.abort taskId]
      · rw [heq, List.getElem?_append_left hlt, hi]
    | _ => cases he
  | some j =>
    rw [appStep_eq he]
    dsimp only
    by_cases hji : j = i
    · subst hji
      rw [hi]
      obtain ⟨c', hcalls, hc'⟩ := callStep_replays options hi hframes hserialisable h e
      refine ⟨c', ?_, hc'⟩
      dsimp only
      rw [hcalls, List.getElem?_set_self hlt]
    · cases hj : s.calls[j]? with
      | none => exact ⟨c, hi, h⟩
      | some d =>
        obtain ⟨⟨d', hcalls, -⟩, -⟩ := callStep_keeps options host hj e
        refine ⟨c, ?_, h⟩
        dsimp only
        rw [hcalls, List.getElem?_set_ne hji, hi]

theorem run_replays (hframes : WellFormed frames) (hserialisable : ∀ f ∈ frames, host.serialisable f.data = true)
    (hi : s.calls[i]? = some c) (h : Replays host frames c) (post : List (Event V)) :
    ∃ c', (run (appStep options host) s post).calls[i]? = some c' ∧ Replays host frames c' := by
  have hkept : ∀ (s : ActionNodeApp V) e, (∃ c', s.calls[i]? = some c' ∧ Replays host frames c') →
      ∃ c', (appStep options host s e).calls[i]? = some c' ∧ Replays host frames c' := by
    rintro s e ⟨c', hi', h'⟩
    exact appStep_replays hframes hserialisable hi' h' e
  exact run_induction ⟨c, hi, h⟩ hkept

variable (host options amb s) in
theorem replay_replays (hframes : entry.streamFrames = some frames) (hstream : c.stream = none) :
    Replays host frames (replay options host amb s c entry) := by
  unfold replay
  split
  · exact .inr ⟨rfl, hstream⟩
  · split
    · exact .inr ⟨rfl, hstream⟩
    · rw [hframes]
      exact .inl (startStream_replaying ..)

theorem Kept.stream_of_answeredFrom {items : ℕ → List (StreamItem V)} (h : Kept host s items)
    (he : answeredFrom options s e = some (i, k)) (hi : s.calls[i]? = some c) : c.stream = none := by
  have hphase : c.phase = .authorizing := by
    unfold answeredFrom at he
    split at he
    · rename_i amb j
      split at he
      · cases he
      · rename_i d hd
        split_ifs at he with hphase
        have hij : j = i := by
          split at he
          · cases he
          · dsimp only at he
            split at he
            · cases he
            · cases he
              rfl
        rw [hij, hi, Option.some.injEq] at hd
        rw [hd]
        exact not_not.1 hphase
    · cases he
  cases h.stands i c hi with
  | without phase stream => exact stream
  | providing providing =>
    cases providing with
    | goesOn st frames phase | ended st phase =>
      rw [hphase] at phase
      cases phase
  | replaying frames wellFormed serialisable replaying =>
    cases replaying with
    | goesOn st given rest phase | ended st rest phase =>
      rw [hphase] at phase
      cases phase

/-! ### Discipline -/

/-- **Discipline of the streams** of a server: of the bodies that it writes, and of what it stores and replays.
Bodies whose request is aborted or times out, or whose reader has cancelled, are left out. -/
structure StreamDiscipline (options : ActionNodeOptions) (host : Host V) (es : List (Event V)) : Prop where
  bodies : ∀ (i : ℕ) c st, (appAfter options host es).calls[i]? = some c → c.stream = some st → c.phase = .finished →
    st.signalAborted = false → st.readerCancelled = false → Disciplined st.streamId st.lines
  /-- Frames are stored of a provider that has streamed a well-formed sequence, and has ended right after it. -/
  stored : ∀ k entry frames, JsMap.get (appAfter options host es).idempotency k = some entry →
    entry.streamFrames = some frames → ∃ (i : ℕ) (c : Call V) (st : StreamRun V) (own : List (StreamFrame V)),
      (appAfter options host es).calls[i]? = some c ∧ c.stream = some st ∧
        provided options host es i = own.map .frame ++ [.done] ∧ WellFormed own ∧
          frames = own.map (retag st.streamId)
  /-- A request that is answered out of an entry with frames is answered with the same frames, under an id of its
  own. -/
  replayed : ∀ pre e post i k entry frames c st, es = pre ++ e :: post →
    answeredFrom options (appAfter options host pre) e = some (i, k) →
      JsMap.get (appAfter options host pre).idempotency k = some entry → entry.streamFrames = some frames →
        (appAfter options host es).calls[i]? = some c → c.stream = some st → c.phase = .finished →
          st.signalAborted = false → st.readerCancelled = false → st.lines = frames.map (retag st.streamId)

theorem Kept.disciplined {items : ℕ → List (StreamItem V)} (h : Kept host s items) (hi : s.calls[i]? = some c)
    (hstream : c.stream = some st) (hphase : c.phase = .finished) (haborted : st.signalAborted = false)
    (hcancelled : st.readerCancelled = false) : Disciplined st.streamId st.lines := by
  cases h.stands i c hi with
  | without phase stream =>
    rw [hstream] at stream
    cases stream
  | providing providing =>
    cases providing with
    | goesOn st' frames phase =>
      rw [hphase] at phase
      cases phase
    | ended st' phase stream source disciplined =>
      rw [hstream] at stream
      cases stream
      exact disciplined haborted hcancelled
  | replaying frames wellFormed serialisable replaying =>
    cases replaying with
    | goesOn st' given rest phase =>
      rw [hphase] at phase
      cases phase
    | ended st' rest phase stream source lines =>
      rw [hstream] at stream
      cases stream
      rw [lines haborted hcancelled]
      exact wellFormed.disciplined

/-- The frames that are stored at some time are what is replayed of them, whatever happens in between. -/
theorem replayed_lines {pre post : List (Event V)}
    (hanswered : answeredFrom options (appAfter options host pre) e = some (i, k))
    (hentry : JsMap.get (appAfter options host pre).idempotency k = some entry)
    (hframes : entry.streamFrames = some frames)
    (hi : (appAfter options host (pre ++ e :: post)).calls[i]? = some c) (hstream : c.stream = some st)
    (hphase : c.phase = .finished) (haborted : st.signalAborted = false) (hcancelled : st.readerCancelled = false) :
    st.lines = frames.map (retag st.streamId) := by
  have hkept := kept_appAfter options host pre
  obtain ⟨amb, d, cached, hd, hcached, hcalls⟩ := replay_of_answeredFrom host hanswered
  rw [hentry, Option.some.injEq] at hcached
  subst hcached
  obtain ⟨j, completedCall, -, hcompleted⟩ := hkept.stored k entry frames hentry hframes
  have hreplays := replay_replays host options amb (appAfter options host pre) hframes
    (hkept.stream_of_answeredFrom hanswered hd)
  have hnow : (appStep options host (appAfter options host pre) e).calls[i]? =
      some (replay options host amb (appAfter options host pre) d entry) := by
    rw [hcalls, List.getElem?_set_self (List.getElem?_eq_some_iff.1 hd).1]
  obtain ⟨c', hc', hend⟩ := run_replays hcompleted.wellFormed hcompleted.serialisable hnow hreplays post
  rw [appAfter, run_append, run_cons] at hi
  rw [appAfter] at hc'
  rw [hi, Option.some.injEq] at hc'
  subst hc'
  rcases hend with hend | ⟨-, hnone⟩
  · cases hend with
    | goesOn st' given rest phase =>
      rw [hphase] at phase
      cases phase
    | ended st' rest phase stream source lines =>
      rw [hstream] at stream
      cases stream
      exact lines haborted hcancelled
  · rw [hstream] at hnone
    cases hnone

end NpsSdk.Nwp.ActionNode
