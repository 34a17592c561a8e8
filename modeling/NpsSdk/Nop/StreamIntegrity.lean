import NpsSdk.Nop.Scheduling

/-!
# Integrity of a delegated stream

An attempt is completed by the frames up to the first final one.  The orchestrator takes a number for the next one
also if it repeats the one before it or is zero, and the first number may be one; the error object of the final
frame counts only with an error code.  A stream without these is completed only if its numbers count up from zero.
-/

namespace NpsSdk.Nop

open NpsSdk.Lib

/-! ### Streams -/

/-- The frames begin with those up to the first final one. -/
structure UpToFinal (frames pre : List AlignStreamFrame) (final : AlignStreamFrame) : Prop where
  frames : ∃ rest, frames = pre ++ final :: rest
  earlier : ∀ f ∈ pre, f.isFinal = false
  final : final.isFinal = true

def SendersChecked (env : Env) (agent : String) (frames : List AlignStreamFrame) : Prop :=
  ∀ f ∈ frames, env.validateSenderNid = true → f.senderNid ≠ "" → f.senderNid = agent

/-- The frames up to the first final one are numbered from zero without a gap, a repetition or a restart, come from the
agent and end without an error. -/
def Intact (env : Env) (agent : String) (frames : List AlignStreamFrame) : Prop :=
  ∃ pre final, UpToFinal frames pre final ∧
    (pre ++ [final]).map AlignStreamFrame.seq = (List.range (pre.length + 1)).map (fun k : ℕ => JsDouble.fin k) ∧
    SendersChecked env agent (pre ++ [final]) ∧ final.error = none

/-- What an attempt that read the frames comes to. -/
structure Integrity (env : Env) (task : TaskFrame) (node : DagNode) (attempt : ℕ) (aborted : Bool)
    (answer : StreamAnswer) : Prop where
  recorded : ∀ outcome, afterOnce task node attempt (finishOnce env task node aborted answer) = .settled (.ok outcome) →
    outcome.state = .completed → Intact env node.agent answer.frames
  failed : ∀ outcome, finishOnce env task node aborted answer = .ok outcome → ¬ Intact env node.agent answer.frames →
    outcome.state = .failed

/-! ### Numbers -/

/-- The number is not a jump: it is the one before it, zero, or one more. -/
def NoJump (lastSeq seq : JsDouble) : Prop := seq.eq lastSeq = true ∨ seq.eq 0 = true ∨ seq.eq (lastSeq + 1) = true

/-- The number is neither a repetition nor a restart. -/
def Advances (lastSeq seq : JsDouble) : Prop := seq ≠ lastSeq ∧ seq ≠ 0

theorem fin_add_one {k : ℕ} (h : k < 2 ^ 53) : JsDouble.fin k + 1 = .fin (k + 1 : ℕ) := by
  show JsDouble.ofRat ((k : ℚ) + (1 : ℕ)) = _
  rw [← Nat.cast_add]
  rcases (Nat.succ_le_of_lt h).lt_or_eq with hlt | heq
  · exact JsDouble.ofRat_natCast hlt
  · have hk : k + 1 = 2 ^ 53 := heq
    rw [hk]
    decide +kernel

theorem fin_add_one_limit : JsDouble.fin (2 ^ 53 : ℕ) + 1 = .fin (2 ^ 53 : ℕ) := by decide +kernel

theorem NoJump.eq_succ {k : ℕ} {seq : JsDouble} (hk : k ≤ 2 ^ 53) (h : NoJump (.fin k) seq)
    (hadvances : Advances (.fin k) seq) : k < 2 ^ 53 ∧ seq = .fin (k + 1 : ℕ) := by
  have heq {a : JsDouble} (ha : seq.eq a = true) : seq = a := by
    simp only [JsDouble.eq, decide_eq_true_eq] at ha
    exact ha.1
  rcases h with h | h | h
  · exact absurd (heq h) hadvances.1
  · exact absurd (heq h) hadvances.2
  · have hnext := heq h
    rcases hk.lt_or_eq with hlt | rfl
    · rw [fin_add_one hlt] at hnext
      exact ⟨hlt, hnext⟩
    · rw [fin_add_one_limit] at hnext
      exact absurd hnext hadvances.1

theorem counted_of_chain {k : ℕ} {seqs : List JsDouble} (hk : k ≤ 2 ^ 53) (hfollows : (.fin k :: seqs).IsChain NoJump)
    (hadvances : (.fin k :: seqs).IsChain Advances) :
    seqs = (List.range' (k + 1) seqs.length).map (fun i : ℕ => JsDouble.fin i) := by
  induction seqs generalizing k with
  | nil => rfl
  | cons seq seqs ih =>
    rw [List.isChain_cons_cons] at hfollows hadvances
    obtain ⟨hlt, rfl⟩ := hfollows.1.eq_succ hk hadvances.1
    rw [List.length_cons, List.range'_succ, List.map_cons, ← ih hlt hfollows.2 hadvances.2]

theorem advances_counted (k n : ℕ) : ((List.range' k n).map fun i : ℕ => JsDouble.fin i).IsChain Advances := by
  induction n generalizing k with
  | zero => exact .nil
  | succ n ih =>
    cases n with
    | zero => exact .singleton _
    | succ n =>
      have htail := ih (k + 1)
      rw [List.range'_succ, List.map_cons] at htail ⊢
      rw [List.range'_succ, List.map_cons]
      refine List.isChain_cons_cons.2 ⟨⟨fun h => ?_, fun h => ?_⟩, htail⟩
      · have hcast : k + 1 = k := Nat.cast_injective (JsDouble.fin.inj h)
        omega
      · have hcast : k + 1 = 0 := Nat.cast_injective (JsDouble.fin.inj h)
        omega

/-! ### Reading -/

/-- The frames up to a final one pass the checks of the orchestrator, whose last number is `lastSeq`. -/
structure Passes (env : Env) (agent : String) (lastSeq : JsDouble) (pre : List AlignStreamFrame)
    (final : AlignStreamFrame) : Prop where
  follows : (lastSeq :: (pre ++ [final]).map AlignStreamFrame.seq).IsChain NoJump
  senders : SendersChecked env agent (pre ++ [final])
  codeless : ∀ e, final.error = some e → e.errorCode = ""

section

variable {env : Env} {task : TaskFrame} {node : DagNode} {agent : String} {lastSeq : JsDouble}
  {f final final' : AlignStreamFrame} {pre pre' frames fs : List AlignStreamFrame} {attempt : ℕ} {aborted : Bool}
  {answer : StreamAnswer} {outcome : NodeOutcome}

theorem not_ends_nil : ¬ UpToFinal [] pre final := by
  rintro ⟨⟨rest, h⟩, -, -⟩
  simp at h

theorem ends_cons_of_final (hfinal : f.isFinal = true) : UpToFinal (f :: fs) pre final ↔ pre = [] ∧ final = f := by
  constructor
  · rintro ⟨⟨rest, h⟩, hearlier, -⟩
    cases pre with
    | nil => exact ⟨rfl, (List.cons.inj h).1.symm⟩
    | cons p pre =>
      obtain rfl := (List.cons.inj h).1
      rw [hearlier f List.mem_cons_self] at hfinal
      cases hfinal
  · rintro ⟨rfl, rfl⟩
    exact ⟨⟨fs, rfl⟩, fun p hp => absurd hp List.not_mem_nil, hfinal⟩

theorem ends_cons_of_not_final (hfinal : f.isFinal = false) :
    UpToFinal (f :: fs) pre final ↔ ∃ pre', pre = f :: pre' ∧ UpToFinal fs pre' final := by
  constructor
  · rintro ⟨⟨rest, h⟩, hearlier, hend⟩
    cases pre with
    | nil =>
      obtain rfl := (List.cons.inj h).1
      rw [hfinal] at hend
      cases hend
    | cons p pre =>
      obtain ⟨rfl, htail⟩ := List.cons.inj h
      exact ⟨pre, rfl, ⟨rest, htail⟩, fun p hp => hearlier p (List.mem_cons_of_mem _ hp), hend⟩
  · rintro ⟨pre', rfl, ⟨rest, rfl⟩, hearlier, hend⟩
    exact ⟨⟨rest, rfl⟩, List.forall_mem_cons.2 ⟨hfinal, hearlier⟩, hend⟩

theorem UpToFinal.unique (h : UpToFinal frames pre final) (h' : UpToFinal frames pre' final') : pre = pre' ∧ final = final' := by
  induction frames generalizing pre pre' with
  | nil => exact absurd h not_ends_nil
  | cons f fs ih =>
    by_cases hfinal : f.isFinal = true
    · obtain ⟨rfl, rfl⟩ := (ends_cons_of_final hfinal).1 h
      obtain ⟨rfl, rfl⟩ := (ends_cons_of_final hfinal).1 h'
      exact ⟨rfl, rfl⟩
    · have hfinal : f.isFinal = false := by simpa using hfinal
      obtain ⟨pre, rfl, hpre⟩ := (ends_cons_of_not_final hfinal).1 h
      obtain ⟨pre', rfl, hpre'⟩ := (ends_cons_of_not_final hfinal).1 h'
      obtain ⟨rfl, rfl⟩ := ih hpre hpre'
      exact ⟨rfl, rfl⟩

structure FramePasses (env : Env) (agent : String) (lastSeq : JsDouble) (f : AlignStreamFrame) : Prop where
  follows : NoJump lastSeq f.seq
  sender : env.validateSenderNid = true → f.senderNid ≠ "" → f.senderNid = agent

theorem readStream_of_passes (h : FramePasses env agent lastSeq f) : readStream env agent lastSeq (f :: fs) =
    if f.isFinal then
      match f.error with
      | some e => .finalError e
      | none => .finalData f.data
    else readStream env agent f.seq fs := by
  have hfollows : ¬ (!f.seq.eq lastSeq && !f.seq.eq 0 && !f.seq.eq (lastSeq + 1)) = true := by
    rcases h.follows with h | h | h <;> simp [h]
  have hsender : ¬ (env.validateSenderNid = true ∧ f.senderNid ≠ "" ∧ f.senderNid ≠ agent) := fun hs =>
    hs.2.2 (h.sender hs.1 hs.2.1)
  rw [readStream, if_neg hfollows, if_neg hsender] <;> rfl

theorem readStream_of_not_passes (h : ¬ FramePasses env agent lastSeq f) :
    ∃ code, readStream env agent lastSeq (f :: fs) = .refused code := by
  unfold readStream
  split_ifs with hjump hsender
  · exact ⟨_, rfl⟩
  · exact ⟨_, rfl⟩
  all_goals
    refine absurd ⟨?_, fun hvalidate hne => ?_⟩ h
    · by_contra hnot
      simp only [NoJump, not_or, Bool.not_eq_true] at hnot
      exact hjump (by simp [hnot])
    · by_contra hother
      exact hsender ⟨hvalidate, hne, hother⟩

theorem passes_nil_iff : Passes env agent lastSeq [] final ↔
    FramePasses env agent lastSeq final ∧ ∀ e, final.error = some e → e.errorCode = "" := by
  constructor
  · rintro ⟨hfollows, hsenders, hcodeless⟩
    exact ⟨⟨(List.isChain_cons_cons.1 hfollows).1, hsenders final (by simp)⟩, hcodeless⟩
  · rintro ⟨⟨hfollows, hsender⟩, hcodeless⟩
    refine ⟨List.isChain_cons_cons.2 ⟨hfollows, .singleton _⟩, fun f hf => ?_, hcodeless⟩
    obtain rfl := List.mem_singleton.1 hf
    exact hsender

theorem passes_cons_iff : Passes env agent lastSeq (f :: pre) final ↔
    FramePasses env agent lastSeq f ∧ Passes env agent f.seq pre final := by
  constructor
  · rintro ⟨hfollows, hsenders, hcodeless⟩
    obtain ⟨hfirst, hrest⟩ := List.isChain_cons_cons.1 hfollows
    obtain ⟨hsender, hsenders⟩ := List.forall_mem_cons.1 hsenders
    exact ⟨⟨hfirst, hsender⟩, hrest, hsenders, hcodeless⟩
  · rintro ⟨⟨hfirst, hsender⟩, hrest, hsenders, hcodeless⟩
    exact ⟨List.isChain_cons_cons.2 ⟨hfirst, hrest⟩, List.forall_mem_cons.2 ⟨hsender, hsenders⟩, hcodeless⟩

/-- **Reading**: an attempt is completed just by frames that pass the checks, up to a final one. -/
theorem completed_iff : (readStream env agent lastSeq frames).outcome.state = .completed ↔
    ∃ pre final, UpToFinal frames pre final ∧ Passes env agent lastSeq pre final := by
  induction frames generalizing lastSeq with
  | nil =>
    constructor
    · intro h
      cases h
    · rintro ⟨pre, final, hends, -⟩
      exact absurd hends not_ends_nil
  | cons f fs ih =>
    by_cases hpasses : FramePasses env agent lastSeq f
    · rw [readStream_of_passes hpasses]
      by_cases hfinal : f.isFinal = true
      · have hcode : (match f.error with
            | some e => Reading.finalError e
            | none => .finalData f.data).outcome.state = .completed ↔ ∀ e, f.error = some e → e.errorCode = "" := by
          cases herror : f.error with
          | none => simp [Reading.outcome]
          | some e => by_cases hempty : e.errorCode = "" <;> simp [Reading.outcome, hempty]
        rw [if_pos hfinal, hcode]
        constructor
        · intro h
          exact ⟨[], f, (ends_cons_of_final hfinal).2 ⟨rfl, rfl⟩, passes_nil_iff.2 ⟨hpasses, h⟩⟩
        · rintro ⟨pre, final, hends, hpass⟩
          obtain ⟨rfl, rfl⟩ := (ends_cons_of_final hfinal).1 hends
          exact (passes_nil_iff.1 hpass).2
      · have hfinal : f.isFinal = false := by simpa using hfinal
        rw [if_neg (by simp [hfinal]), ih]
        constructor
        · rintro ⟨pre, final, hends, hpass⟩
          exact ⟨f :: pre, final, (ends_cons_of_not_final hfinal).2 ⟨pre, rfl, hends⟩,
            passes_cons_iff.2 ⟨hpasses, hpass⟩⟩
        · rintro ⟨pre, final, hends, hpass⟩
          obtain ⟨pre, rfl, hrest⟩ := (ends_cons_of_not_final hfinal).1 hends
          exact ⟨pre, final, hrest, (passes_cons_iff.1 hpass).2⟩
    · obtain ⟨code, hcode⟩ : ∃ code, readStream env agent lastSeq (f :: fs) = .refused code :=
        readStream_of_not_passes hpasses
      rw [hcode]
      constructor
      · intro h
        cases h
      · rintro ⟨pre, final, hends, hpass⟩
        refine absurd ?_ hpasses
        by_cases hfinal : f.isFinal = true
        · obtain ⟨rfl, rfl⟩ := (ends_cons_of_final hfinal).1 hends
          exact (passes_nil_iff.1 hpass).1
        · obtain ⟨pre, rfl, -⟩ := (ends_cons_of_not_final (by simpa using hfinal)).1 hends
          exact (passes_cons_iff.1 hpass).1

theorem outcome_state (r : Reading) : r.outcome.state = .completed ∨ r.outcome.state = .failed := by
  cases r with
  | refused code => exact .inr rfl
  | finalData data => exact .inl rfl
  | finalError e => by_cases h : e.errorCode = "" <;> simp [Reading.outcome, h]
  | noFinal => exact .inr rfl

theorem finishOnce_state (h : finishOnce env task node aborted answer = .ok outcome) :
    outcome.state = .completed ∧ answer.throws = false ∧
        (readStream env node.agent 0 answer.frames).outcome.state = .completed ∨ outcome.state = .failed := by
  unfold finishOnce at h
  split_ifs at h with hthrows
  · cases h
    exact .inr rfl
  · cases h
    rcases outcome_state (readStream env node.agent 0 answer.frames) with hstate | hstate
    · exact .inl ⟨hstate, by simpa using hthrows, hstate⟩
    · exact .inr hstate

theorem afterOnce_of_completed (h : outcome.state = .completed) :
    afterOnce task node attempt (.ok outcome) = .settled (.ok outcome) := if_pos h

theorem intact_iff (hends : UpToFinal frames pre final) (hpass : Passes env agent 0 pre final) :
    Intact env agent frames ↔
      ((pre ++ [final]).map AlignStreamFrame.seq).head? = some 0 ∧
        ((pre ++ [final]).map AlignStreamFrame.seq).IsChain Advances ∧ final.error = none := by
  constructor
  · rintro ⟨pre', final', hends', hnumbers, -, herror⟩
    obtain ⟨rfl, rfl⟩ := hends.unique hends'
    rw [hnumbers, List.range_eq_range']
    exact ⟨by rw [List.range'_succ]; rfl, advances_counted 0 _, herror⟩
  · rintro ⟨hzero, hadvances, herror⟩
    refine ⟨pre, final, hends, ?_, hpass.senders, herror⟩
    obtain ⟨seqs, hseqs⟩ : ∃ seqs, (pre ++ [final]).map AlignStreamFrame.seq = 0 :: seqs := by
      obtain ⟨seqs, hseqs⟩ := List.head?_eq_some_iff.1 hzero
      exact ⟨seqs, hseqs⟩
    have hfollows := hpass.follows
    rw [hseqs] at hfollows hadvances
    have hcounted := counted_of_chain (Nat.zero_le _) (List.isChain_cons_cons.1 hfollows).2 hadvances
    have hlength : seqs.length = pre.length := by
      have := congrArg List.length hseqs
      simpa using this.symm
    rw [hseqs, List.range_eq_range', List.range'_succ, List.map_cons, ← hlength, ← hcounted]
    rfl

end

/-- **Integrity**: an attempt is completed by an intact stream only, just where no stream that passes the checks starts
at another number than zero, repeats a number, starts again or ends with an error that has no code. -/
theorem integrity_iff (env : Env) (task : TaskFrame) (node : DagNode) (attempt : ℕ) (aborted : Bool)
    (answer : StreamAnswer) : Integrity env task node attempt aborted answer ↔
      (answer.throws = false → ∀ pre final, UpToFinal answer.frames pre final → Passes env node.agent 0 pre final →
        ((pre ++ [final]).map AlignStreamFrame.seq).head? = some 0 ∧
          ((pre ++ [final]).map AlignStreamFrame.seq).IsChain Advances ∧ final.error = none) := by
  constructor
  · intro h hthrows pre final hends hpass
    have hok : finishOnce env task node aborted answer = .ok (readStream env node.agent 0 answer.frames).outcome := by
      simp [finishOnce, hthrows]
    have hstate := completed_iff.2 ⟨pre, final, hends, hpass⟩
    refine (intact_iff hends hpass).1 (h.recorded _ ?_ hstate)
    rw [hok]
    exact afterOnce_of_completed hstate
  · intro h
    have hintact {outcome : NodeOutcome} (hok : finishOnce env task node aborted answer = .ok outcome)
        (hstate : outcome.state = .completed) : Intact env node.agent answer.frames := by
      rcases finishOnce_state hok with ⟨-, hthrows, hread⟩ | hfailed
      · obtain ⟨pre, final, hends, hpass⟩ := completed_iff.1 hread
        exact (intact_iff hends hpass).2 (h hthrows pre final hends hpass)
      · rw [hfailed] at hstate
        cases hstate
    refine ⟨fun outcome hsettled => hintact (afterOnce_settled hsettled), fun outcome hok hnot => ?_⟩
    rcases finishOnce_state hok with ⟨hstate, -, -⟩ | hfailed
    · exact absurd (hintact hok hstate) hnot
    · exact hfailed

/-- The first frame never arrived. -/
def headless : List AlignStreamFrame := [{ seq := 1, isFinal := true, senderNid := "w" }]

/-- Surroundings of a node that has no condition. -/
def bareEnv : Env where
  evaluateCondition := fun _ _ => .ok true
  validateCallbackUrl := fun _ => none
  randomId := fun _ => ""
  now := fun _ => 0

/-- A stream without its first frame completes an attempt. -/
theorem headless_completes : ¬ Integrity bareEnv { taskId := "t", dag := { nodes := [], edges := [] } }
    { id := "A", action := "a", agent := "w" } 1 false { frames := headless } := by
  intro h
  have hcompleted : (readStream bareEnv "w" 0 headless).outcome.state = .completed := by decide +kernel
  obtain ⟨pre, final, hends, hnumbers, -⟩ := h.recorded _ (afterOnce_of_completed hcompleted) hcompleted
  obtain ⟨rfl, rfl⟩ := (ends_cons_of_final rfl).1 hends
  exact absurd hnumbers (by decide)

end NpsSdk.Nop
