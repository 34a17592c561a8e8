import NpsSdk.Nop.Scheduling

/-!
# The records of tasks

What the store says of a task while `execute` runs, and after it.  Between the result of `_runDag` and
the end of `execute` there is one more promise, at which a `cancel` can land; a deadline may be no date;
and a preflight probe may be rejected with no error to read a message from.
-/

namespace NpsSdk.Nop

open NpsSdk.Lib

/-! ### The run to its end -/

def TaskState.isFinal : TaskState → Bool
  | .completed | .failed | .cancelled => true
  | _ => false

/-- `_runDag` returned the result: the preflight and the `catch` have error codes of their own. -/
def NopTaskResult.ofDag (r : NopTaskResult) : Bool :=
  match r.error with
  | none => true
  | some e => e.code != nopTaskCancelled && e.code != nopTaskTimeout && e.code != nopResourceInsufficient

/-- A call of `execute`, to its last promise. -/
structure Execution where
  run : Run
  /-- `_runDag` has returned and `execute` has not resumed. -/
  resuming : Bool

inductive ExecutionEvent
  | run (e : Event)
  /-- A preflight probe was rejected with something that has no members, or answered it. -/
  | preflightCrashed
  /-- `execute` resumes after `_runDag`. -/
  | resume

/-- The deadline of the frame is no date, and its text throws. -/
def isBroken (frame : DelegateFrame) : Bool :=
  decide (frame.deadlineAt < -8640000000000000 ∨ 8640000000000000 < frame.deadlineAt)

variable (env : Env) (task : TaskFrame)

/-- `deliver`, for deadlines that may throw where the frame is made. -/
def deliverChecked (s : Run) : Event → Run
  | .resolved id answer =>
    match s.inFlight.get id with
    | some { node, subtaskId, idempotencyKey, attempt, phase := .resolving frame } =>
      if isBroken frame then
        setPhase s id { node, subtaskId, idempotencyKey, attempt, phase := .settled (.error .error) }
      else deliver env task s (.resolved id answer)
    | _ => s
  | .compensationResolved answer =>
    match s.phase with
    | .compensating { pending := some frame, .. } =>
      if isBroken frame then catchError env task s .error
      else deliver env task s (.compensationResolved answer)
    | _ => s
  | e => deliver env task s e

/-- The run after an event, up to the head of the main loop. -/
def deliverTo (s : Run) : ExecutionEvent → Run
  | .run e => deliverChecked env task s e
  | .preflightCrashed =>
    match s.phase with
    | .preflight => catchError env task s .error
    | _ => s
  | .resume => s

/-- The end of `execute`. -/
def resume (x : Execution) : Execution :=
  match x.run.phase, x.resuming with
  | .returned r, true =>
    { run := { x.run with record := { x.run.record with state := r.state, error := r.error } }
      resuming := false }
  | _, _ => x

/-- The run goes on from `before` to `after`. -/
def goOn (before after : Run) (resuming : Bool) : Execution :=
  { run := after
    resuming := resuming || (!before.phase.isFinished && after.phase.result.any NopTaskResult.ofDag) }

def executionStep (x : Execution) : ExecutionEvent → Execution
  | .resume => resume x
  | e => goOn x.run (advance env task (deliverTo env task x.run e)) x.resuming

/-- An accepted task, up to its first promise. -/
def started (s₀ : Run) : Execution := goOn s₀ (advance env task s₀) false

/-- The call of `execute` of an accepted task, after some events. -/
def executionAfter (s₀ : Run) (es : List ExecutionEvent) : Execution :=
  run (executionStep env task) (started env task s₀) es

/-- `execute` has returned or thrown. -/
def Execution.isSettled (x : Execution) : Bool := x.run.phase.isFinished && !x.resuming

/-- The state in the store. -/
def Execution.state (x : Execution) : TaskState := x.run.record.state

/-! ### What reaches the `catch` -/

/-- The error that reaches the `catch` of `execute` at an event. -/
def caughtAt (s : Run) : ExecutionEvent → Option Thrown
  | .run .wake =>
    match s.phase with
    | .racing (some id) =>
      match s.inFlight.get id with
      | some { phase := .settled (.error e), .. } => some e
      | _ => none
    | _ => none
  | .run (.compensationResolved answer) =>
    match s.phase with
    | .compensating { pending := some frame, current, .. } =>
      if isBroken frame then some .error
      else match resolveTarget env current answer with
        | .error _ => some .error
        | .ok _ => none
    | _ => none
  | .run (.compensationAnswered answer) =>
    match s.phase with
    | .compensating { pending := none, current, .. } =>
      match finishOnce env task current s.aborted answer with
      | .error e => some e
      | .ok _ => none
    | _ => none
  | .preflightCrashed =>
    match s.phase with
    | .preflight => some .error
    | _ => none
  | _ => none

/-- `execute` throws on: the error is not the abort of the run, the caller has not aborted and the timer
has not fired. -/
def Rethrows (s : Run) (e : ExecutionEvent) : Prop :=
  caughtAt env task s e = some .error ∧ s.signalAborted = false ∧ s.timedOut = false

variable {env task} {s s' : Run}

/-- How a part of a run leaves the state in the store; `P` is when it throws on. -/
inductive Course (P : Prop) (s s' : Run) : Prop
  | goesOn (ongoing : s'.phase.isFinished = false) (same : s'.record.state = s.record.state)
  | ended (r : NopTaskResult) (phase : s'.phase = .returned r)
      (state : r.state = .completed ∨ r.state = .failed) (stored : s'.record.state = r.state)
      (ofDag : r.ofDag = true)
  | caught (r : NopTaskResult) (phase : s'.phase = .returned r)
      (state : r.state = .cancelled ∨ r.state = .failed) (stored : s'.record.state = r.state)
      (ofDag : r.ofDag = false)
  | threw (on : P) (phase : s'.phase = .threw) (same : s'.record.state = s.record.state)

theorem Course.mono {P Q : Prop} (h : Course P s s') (hpq : P → Q) : Course Q s s' := by
  cases h with
  | goesOn ongoing same => exact .goesOn ongoing same
  | ended r phase state stored ofDag => exact .ended r phase state stored ofDag
  | caught r phase state stored ofDag => exact .caught r phase state stored ofDag
  | threw on phase same => exact .threw (hpq on) phase same

theorem Course.after {P : Prop} {s₁ : Run} (h : Course P s₁ s') (hsame : s₁.record.state = s.record.state) :
    Course P s s' := by
  cases h with
  | goesOn ongoing same => exact .goesOn ongoing (same.trans hsame)
  | ended r phase state stored ofDag => exact .ended r phase state stored ofDag
  | caught r phase state stored ofDag => exact .caught r phase state stored ofDag
  | threw on phase same => exact .threw on phase (same.trans hsame)

theorem catchError_course (s : Run) (t : Thrown) :
    Course (t = .error ∧ s.signalAborted = false ∧ s.timedOut = false) s (catchError env task s t) := by
  unfold catchError
  split_ifs with h1 h2
  · exact .caught _ rfl (.inl rfl) rfl rfl
  · exact .caught _ rfl (.inr rfl) rfl rfl
  · rw [not_or] at h2
    refine .threw ⟨?_, by simpa using h1, by simpa using h2.1⟩ rfl rfl
    cases t with
    | abort => exact absurd rfl h2.2
    | error => rfl

theorem catchError_throws (s : Run) (hsignal : s.signalAborted = false) (htimer : s.timedOut = false) :
    (catchError env task s .error).phase = .threw ∧ (catchError env task s .error).record.state = s.record.state := by
  unfold catchError
  simp [hsignal, htimer]

/-! ### The parts of `_runDag` -/

theorem compensationCode_ofDag (compensation : SagaCompensationResult) :
    let code := (compensationFailureErrorCode task compensation).getD nopSyncDependencyFailed
    (code != nopTaskCancelled && code != nopTaskTimeout && code != nopResourceInsufficient) = true := by
  unfold compensationFailureErrorCode
  split_ifs <;> rfl

theorem finishCompensation_course (s : Run) (goal : CompensationGoal) (result : SagaCompensationResult) :
    Course False s (finishCompensation env task s goal result) := by
  cases goal with
  | onFailure message => exact .ended _ rfl (.inr rfl) rfl (compensationCode_ofDag result)
  | onSuccess aggregated => exact .ended _ rfl (.inl rfl) rfl rfl

theorem compensateNext_course (goal : CompensationGoal) (attempted : ℕ) (s : Run) (succeeded : ℕ)
    (failedIds todo : List String) :
    Course False s (compensateNext env task goal attempted s succeeded failedIds todo) := by
  induction todo generalizing s failedIds with
  | nil => exact finishCompensation_course s goal _
  | cons id todo ih =>
    simp only [compensateNext]
    split
    · exact ih s failedIds
    · split
      · exact (ih { s with ids := s.ids + 2 } (failedIds ++ [id])).after rfl
      · exact .goesOn rfl rfl

theorem runSagaCompensation_course (s : Run) (goal : CompensationGoal) :
    Course False s (runSagaCompensation env task s goal) := by
  simp only [runSagaCompensation]
  split_ifs
  · exact finishCompensation_course s goal _
  · exact compensateNext_course goal _ s 0 [] _

theorem failRun_course (s : Run) (message : String) : Course False s (failRun env task s message) := by
  unfold failRun
  split_ifs
  · exact runSagaCompensation_course s _
  · exact .ended _ rfl (.inr rfl) rfl rfl

theorem conclude_course (s : Run) : Course False s (conclude env task s) := by
  simp only [conclude]
  split_ifs
  · exact failRun_course s _
  · exact runSagaCompensation_course s _
  · exact .ended _ rfl (.inl rfl) rfl rfl

theorem schedule_state (s : Run) : (schedule env task s).record.state = s.record.state := by
  simp only [schedule]
  rw [launch_frame, failInfeasible_frame]

theorem loopHead_course (s : Run) : Course False s (loopHead env task s) := by
  unfold loopHead
  split_ifs
  · exact (catchError_course s .abort).mono fun h => nomatch h.1
  · dsimp only
    split_ifs
    · exact (conclude_course (schedule env task s)).after (schedule_state s)
    · exact .goesOn rfl (schedule_state s)
  · exact conclude_course s

theorem advance_course (h : s.phase.isFinished = false) : Course False s (advance env task s) := by
  unfold advance
  split
  · exact loopHead_course s
  · exact .goesOn h rfl

/-! ### Events -/

theorem setPhase_ongoing {id : String} {f : InFlight} (h : s.phase.isFinished = false) :
    (setPhase s id f).phase.isFinished = false := by
  simp only [setPhase]
  split
  · split_ifs
    · rfl
    · exact h
  · exact h

/-- The events that assign the state in the store themselves. -/
def ExecutionEvent.assigns : ExecutionEvent → Bool
  | .run (.preflightDone _) | .run .cancel | .resume => true
  | _ => false

theorem wake_course (h : s.phase.isFinished = false) :
    Course (Rethrows env task s (.run .wake)) s (wake env task s) := by
  unfold wake
  split
  · rename_i id hphase
    split
    · refine .goesOn ?_ ?_
      · simp only [takeOutcome]
        split_ifs <;> rfl
      · simp only [takeOutcome]
        split_ifs <;> rfl
    · rename_i t hget
      refine (catchError_course s t).mono fun h => ⟨?_, h.2⟩
      simp only [caughtAt, hphase, hget, h.1]
    · exact .goesOn h rfl
  · rename_i message hphase
    split_ifs
    · have hfail : Course False { s with inFlight := JsMap.empty }
          (failRun env task { s with inFlight := JsMap.empty } message) := failRun_course _ message
      refine Course.mono ?_ False.elim
      exact hfail.after rfl
    · exact .goesOn h rfl
  · exact .goesOn h rfl

theorem compensationResolved_course (h : s.phase.isFinished = false) (answer : Except Unit (Option String)) :
    Course (Rethrows env task s (.run (.compensationResolved answer))) s
      (deliverChecked env task s (.compensationResolved answer)) := by
  simp only [deliverChecked]
  split
  · rename_i goal attempted succeeded failedIds current frame todo hphase
    split_ifs with hbroken
    · refine (catchError_course s .error).mono fun hcatch => ⟨?_, hcatch.2⟩
      simp only [caughtAt, hphase, hbroken, if_true]
    · simp only [deliver, onCompensationResolved, hphase]
      split
      · rename_i hresolve
        refine (catchError_course s .error).mono fun hcatch => ⟨?_, hcatch.2⟩
        simp only [caughtAt, hphase, hresolve, hbroken, Bool.false_eq_true, if_false]
      · exact .goesOn rfl rfl
  · exact .goesOn h rfl

theorem compensationAnswered_course (h : s.phase.isFinished = false) (answer : StreamAnswer) :
    Course (Rethrows env task s (.run (.compensationAnswered answer))) s
      (onCompensationAnswered env task s answer) := by
  unfold onCompensationAnswered
  split
  · rename_i c hphase
    split
    · exact .goesOn h rfl
    · rename_i hpending
      split
      · rename_i t hfinish
        refine (catchError_course s t).mono fun ⟨ht, hsignal, htimer⟩ => ⟨?_, hsignal, htimer⟩
        obtain ⟨goal, attempted, succeeded, failedIds, current, pending, todo⟩ := c
        cases hpending
        simp only [caughtAt, hphase, hfinish, ht]
      · split_ifs
        · exact (compensateNext_course _ _ s _ _ _).mono False.elim
        · exact (compensateNext_course _ _ s _ _ _).mono False.elim
  · exact .goesOn h rfl

/-- What an event of a run does up to the head of the loop. -/
theorem deliverTo_course (h : s.phase.isFinished = false) (e : ExecutionEvent) (he : e.assigns = false) :
    Course (Rethrows env task s e) s (deliverTo env task s e) := by
  have hsame : ∀ P, Course P s s := fun P => .goesOn h rfl
  have hset : ∀ P id f, Course P s (setPhase s id f) := fun P id f => .goesOn (setPhase_ongoing h) rfl
  cases e with
  | preflightCrashed =>
    simp only [deliverTo]
    split
    · rename_i hphase
      refine (catchError_course s .error).mono fun hcatch => ⟨?_, hcatch.2⟩
      simp only [caughtAt, hphase]
    · exact hsame _
  | resume => cases he
  | run e =>
    cases e with
    | preflightDone answer => cases he
    | cancel => cases he
    | resolved id answer =>
      simp only [deliverTo, deliverChecked]
      split
      · split
        · exact hset _ _ _
        · simp only [deliver, onResolved]
          split
          · split
            · split
              · exact hset _ _ _
              · exact .goesOn (setPhase_ongoing h) rfl
            · exact hsame _
          · exact hsame _
      · exact hsame _
    | answered id answer =>
      simp only [deliverTo, deliverChecked, deliver, onAnswered]
      split
      · split
        · split
          · exact .goesOn (setPhase_ongoing h) rfl
          · exact hset _ _ _
        · exact hsame _
      · exact hsame _
    | delayed id =>
      simp only [deliverTo, deliverChecked, deliver, onDelayed]
      split
      · split
        · exact .goesOn (setPhase_ongoing h) rfl
        · exact hsame _
      · exact hsame _
    | wake => exact wake_course h
    | compensationResolved answer => exact compensationResolved_course h answer
    | compensationAnswered answer => exact compensationAnswered_course h answer
    | timeout =>
      simp only [deliverTo, deliverChecked, deliver, abortRun]
      split_ifs
      · exact hsame _
      · exact .goesOn h rfl
    | abort =>
      simp only [deliverTo, deliverChecked, deliver, abortRun]
      split_ifs
      · exact .goesOn h rfl
      · exact .goesOn h rfl

/-! ### Steps -/

theorem advance_of_ne_looping (h : s.phase ≠ .looping) : advance env task s = s := by
  unfold advance
  split
  · exact absurd ‹_› h
  · rfl

theorem advance_of_finished (h : s.phase.isFinished = true) : advance env task s = s := by
  apply advance_of_ne_looping
  intro hphase
  rw [hphase] at h
  cases h

theorem Course.advance {P : Prop} (h : Course P s s') : Course P s (advance env task s') := by
  cases h with
  | goesOn ongoing same => exact ((advance_course ongoing).after same).mono False.elim
  | ended r phase state stored ofDag =>
    rw [advance_of_finished (by rw [phase]; rfl)]
    exact .ended r phase state stored ofDag
  | caught r phase state stored ofDag =>
    rw [advance_of_finished (by rw [phase]; rfl)]
    exact .caught r phase state stored ofDag
  | threw on phase same =>
    rw [advance_of_finished (by rw [phase]; rfl)]
    exact .threw on phase same

theorem advance_ne_looping (s : Run) : (advance env task s).phase ≠ .looping := by
  unfold advance
  split
  · unfold loopHead
    split_ifs
    · exact closed_ne_looping (catchError_closes s .abort).closed
    · dsimp only
      split_ifs
      · exact closed_ne_looping (conclude_closes (schedule env task s)).closed
      · nofun
    · exact closed_ne_looping (conclude_closes s).closed
  · assumption

/-- After its end a run is left as it is, but for a `cancel`. -/
theorem deliverTo_finished (h : s.phase.isFinished = true) (e : ExecutionEvent) :
    (deliverTo env task s e).phase = s.phase ∧
      (e ≠ .run .cancel → (deliverTo env task s e).record.state = s.record.state) := by
  have hset : ∀ id f, (setPhase s id f).phase = s.phase := by
    intro id f
    simp only [setPhase]
    split
    · rename_i hphase
      rw [hphase] at h
      cases h
    · rfl
  have hsame : ∀ p : Prop, s.phase = s.phase ∧ (p → s.record.state = s.record.state) := fun _ => ⟨rfl, fun _ => rfl⟩
  cases e with
  | preflightCrashed =>
    simp only [deliverTo]
    split
    · rename_i hphase
      rw [hphase] at h
      cases h
    · exact hsame _
  | resume => exact hsame _
  | run e =>
    cases e with
    | preflightDone answer =>
      simp only [deliverTo, deliverChecked, deliver, onPreflight]
      split
      · rename_i hphase
        rw [hphase] at h
        cases h
      · exact hsame _
    | cancel => exact ⟨rfl, fun hne => absurd rfl hne⟩
    | resolved id answer =>
      simp only [deliverTo, deliverChecked]
      split
      · split
        · exact ⟨hset _ _, fun _ => rfl⟩
        · simp only [deliver, onResolved]
          split
          · split
            · split
              · exact ⟨hset _ _, fun _ => rfl⟩
              · exact ⟨hset _ _, fun _ => rfl⟩
            · exact hsame _
          · exact hsame _
      · exact hsame _
    | answered id answer =>
      simp only [deliverTo, deliverChecked, deliver, onAnswered]
      split
      · split
        · split
          · exact ⟨hset _ _, fun _ => rfl⟩
          · exact ⟨hset _ _, fun _ => rfl⟩
        · exact hsame _
      · exact hsame _
    | delayed id =>
      simp only [deliverTo, deliverChecked, deliver, onDelayed]
      split
      · split
        · exact ⟨hset _ _, fun _ => rfl⟩
        · exact hsame _
      · exact hsame _
    | wake =>
      simp only [deliverTo, deliverChecked, deliver, wake]
      split
      · rename_i hphase
        rw [hphase] at h
        cases h
      · rename_i hphase
        rw [hphase] at h
        cases h
      · exact hsame _
    | compensationResolved answer =>
      simp only [deliverTo, deliverChecked]
      split
      · rename_i hphase
        rw [hphase] at h
        cases h
      · exact hsame _
    | compensationAnswered answer =>
      simp only [deliverTo, deliverChecked, deliver, onCompensationAnswered]
      split
      · rename_i hphase
        rw [hphase] at h
        cases h
      · exact hsame _
    | timeout =>
      simp only [deliverTo, deliverChecked, deliver, abortRun, h]
      exact hsame _
    | abort =>
      simp only [deliverTo, deliverChecked, deliver, abortRun, h]
      exact hsame _

/-- The invariant of a call of `execute`. -/
structure InOrder (x : Execution) : Prop where
  waiting : x.run.phase ≠ .looping
  ongoing : x.run.phase.isFinished = false →
    x.resuming = false ∧ (x.state = .preflight ∨ x.state = .running ∨ x.state = .cancelled)
  returning : x.resuming = true → ∃ r, x.run.phase = .returned r ∧
    (r.state = .completed ∨ r.state = .failed) ∧ (x.state = r.state ∨ x.state = .cancelled)

variable {x : Execution} {P : Prop}

theorem result_of_ongoing {p : Phase} (h : p.isFinished = false) : p.result = none := by
  cases p with
  | returned r => cases h
  | _ => rfl

theorem Course.inOrder {before : Run} (h : Course P s s') (hwaiting : s'.phase ≠ .looping)
    (hstate : s.record.state = .preflight ∨ s.record.state = .running ∨ s.record.state = .cancelled) :
    InOrder (goOn before s' false) := by
  cases h with
  | goesOn ongoing same =>
    have hresuming : (goOn before s' false).resuming = false := by
      simp [goOn, result_of_ongoing ongoing]
    refine ⟨hwaiting, fun _ => ⟨hresuming, ?_⟩, fun hr => ?_⟩
    · rw [← same] at hstate
      exact hstate
    · rw [hresuming] at hr
      cases hr
  | ended r phase state stored ofDag =>
    refine ⟨hwaiting, fun hf => ?_, fun _ => ⟨r, phase, state, .inl stored⟩⟩
    simp [goOn, phase, Phase.isFinished] at hf
  | caught r phase state stored ofDag =>
    refine ⟨hwaiting, fun hf => ?_, fun hr => ?_⟩
    · simp [goOn, phase, Phase.isFinished] at hf
    · simp [goOn, phase, Phase.result, ofDag] at hr
  | threw on phase same =>
    refine ⟨hwaiting, fun hf => ?_, fun hr => ?_⟩
    · simp [goOn, phase, Phase.isFinished] at hf
    · simp [goOn, phase, Phase.result] at hr

theorem inOrder_started (hs : s.phase.isFinished = false)
    (hstate : s.record.state = .preflight ∨ s.record.state = .running ∨ s.record.state = .cancelled) :
    InOrder (started env task s) :=
  (advance_course hs).inOrder (advance_ne_looping s) hstate

/-- What an event does to a run that goes on: `s₁` is the run with the state that the event assigns. -/
theorem step_course (hs : s.phase.isFinished = false) (e : ExecutionEvent)
    (hstate : s.record.state = .preflight ∨ s.record.state = .running ∨ s.record.state = .cancelled) :
    ∃ s₁ : Run, Course (Rethrows env task s e) s₁ (advance env task (deliverTo env task s e)) ∧
      s₁.phase.isFinished = false ∧
      (s₁.record.state = .preflight ∨ s₁.record.state = .running ∨ s₁.record.state = .cancelled) := by
  cases he : e.assigns with
  | false => exact ⟨s, (deliverTo_course hs e he).advance, hs, hstate⟩
  | true =>
    cases e with
    | preflightCrashed => cases he
    | resume => exact ⟨s, ((advance_course hs).mono False.elim), hs, hstate⟩
    | run e =>
      cases e with
      | cancel =>
        have hcourse := @advance_course env task (deliver env task s .cancel) hs
        exact ⟨_, hcourse.mono False.elim, hs, .inr (.inr rfl)⟩
      | preflightDone answer =>
        simp only [deliverTo, deliverChecked, deliver, onPreflight]
        split
        · split
          · exact ⟨s, Course.advance (.caught _ rfl (.inr rfl) rfl rfl), hs, hstate⟩
          · exact ⟨_, (advance_course rfl).mono False.elim, rfl, .inr (.inl rfl)⟩
        · exact ⟨s, (advance_course hs).mono False.elim, hs, hstate⟩
      | _ => cases he

theorem executionStep_ne_resume {e : ExecutionEvent} (he : e ≠ .resume) : executionStep env task x e =
    goOn x.run (advance env task (deliverTo env task x.run e)) x.resuming := by
  cases e with
  | resume => exact absurd rfl he
  | _ => rfl

/-- After the end of the run only a `cancel` does anything, before `execute` resumes. -/
theorem executionStep_finished (hs : x.run.phase.isFinished = true) {e : ExecutionEvent} (he : e ≠ .resume) :
    (executionStep env task x e).run.phase = x.run.phase ∧ (executionStep env task x e).resuming = x.resuming ∧
      (executionStep env task x e).run = deliverTo env task x.run e := by
  obtain ⟨hphase, -⟩ := @deliverTo_finished env task _ hs e
  rw [executionStep_ne_resume he, advance_of_finished (by rw [hphase, hs])]
  exact ⟨hphase, by simp [goOn, hs], rfl⟩

theorem state_finished (hs : x.run.phase.isFinished = true) {e : ExecutionEvent} (he : e ≠ .resume)
    (hcancel : e ≠ .run .cancel) : (executionStep env task x e).state = x.state := by
  obtain ⟨-, -, hrun⟩ := @executionStep_finished env task _ hs _ he
  rw [Execution.state, hrun]
  exact (deliverTo_finished hs e).2 hcancel

theorem resume_cases (x : Execution) : (resume x = x ∧ ∀ r, x.run.phase = .returned r → x.resuming = false) ∨
    ∃ r, x.run.phase = .returned r ∧ x.resuming = true ∧ (resume x).run.phase = .returned r ∧
      (resume x).resuming = false ∧ (resume x).state = r.state := by
  obtain ⟨s, resuming⟩ := x
  cases hphase : s.phase with
  | returned r =>
    cases resuming with
    | false => exact .inl ⟨by simp only [resume, hphase], fun _ _ => rfl⟩
    | true => exact .inr ⟨r, rfl, rfl, by simp [resume, hphase, Execution.state]⟩
  | _ => exact .inl ⟨by simp only [resume, hphase], fun r hr => nomatch hr⟩

theorem inOrder_step (h : InOrder x) (e : ExecutionEvent) : InOrder (executionStep env task x e) := by
  by_cases he : e = .resume
  · subst he
    rcases resume_cases x with ⟨heq, -⟩ | ⟨r, -, -, hphase, hresuming, -⟩
    · rw [executionStep, heq]
      exact h
    · rw [executionStep]
      refine ⟨by rw [hphase]; nofun, fun hf => ?_, fun hr => ?_⟩
      · rw [hphase] at hf
        cases hf
      · rw [hresuming] at hr
        cases hr
  cases hs : x.run.phase.isFinished with
  | false =>
    obtain ⟨hresuming, hstate⟩ := h.ongoing hs
    obtain ⟨s₁, hcourse, hs₁, hstate₁⟩ := @step_course env task _ hs e hstate
    rw [executionStep_ne_resume he, hresuming]
    exact hcourse.inOrder (advance_ne_looping _) hstate₁
  | true =>
    obtain ⟨hphase, hresuming, -⟩ := @executionStep_finished env task _ hs _ he
    refine ⟨by rw [hphase]; exact h.waiting, fun hf => ?_, fun hr => ?_⟩
    · rw [hphase, hs] at hf
      cases hf
    · rw [hresuming] at hr
      obtain ⟨r, hr, hfinal, hstate⟩ := h.returning hr
      refine ⟨r, hphase.trans hr, hfinal, ?_⟩
      by_cases hcancel : e = .run .cancel
      · subst hcancel
        obtain ⟨-, -, hrun⟩ := @executionStep_finished env task _ hs _ he
        right
        rw [Execution.state, hrun]
        rfl
      · rw [state_finished hs he hcancel]
        exact hstate

variable {store : JsMap String NopTaskRecord} {signalAborted : Bool} {s₀ : Run}

theorem started_open
    (h : execute env task store signalAborted = .ok s₀) : s₀.phase.isFinished = false ∧
      (s₀.record.state = .preflight ∨ s₀.record.state = .running ∨ s₀.record.state = .cancelled) := by
  obtain ⟨v, -, rfl⟩ := execute_ok h
  simp only [initialRun]
  split_ifs
  · exact ⟨rfl, .inl rfl⟩
  · exact ⟨rfl, .inr (.inl rfl)⟩

theorem inOrder_executionAfter (h : execute env task store signalAborted = .ok s₀) (es : List ExecutionEvent) :
    InOrder (executionAfter env task s₀ es) := by
  obtain ⟨hs, hstate⟩ := started_open h
  exact run_induction (inOrder_started hs hstate) fun _ e hx => inOrder_step hx e

/-! ### Final states stay -/

/-- The event leaves the state in the store alone, also where the run goes on behind it. -/
def LeavesState (env : Env) (task : TaskFrame) (x : Execution) (e : ExecutionEvent) : Prop :=
  (deliverTo env task x.run e).record.state = x.state ∧ (executionStep env task x e).state = x.state

/-- The task is let through its preflight. -/
def LeavesPreflight (x : Execution) (e : ExecutionEvent) : Prop :=
  x.run.phase = .preflight ∧ ∃ answer, e = .run (.preflightDone answer)

/-- The run comes to a result that is not its cancellation by the caller's signal. -/
def ComesToResult (env : Env) (task : TaskFrame) (x : Execution) (e : ExecutionEvent) : Prop :=
  x.run.phase.isFinished = false ∧
    ∃ r, (executionStep env task x e).run.phase = .returned r ∧ r.state ≠ .cancelled

/-- A `cancel` meets a task that has completed or failed; or `execute` ends, or goes on, with a task that
was cancelled. -/
inductive Overwrites (env : Env) (task : TaskFrame) (x : Execution) : ExecutionEvent → Prop
  | late (state : x.state = .completed ∨ x.state = .failed) : Overwrites env task x (.run .cancel)
  | resumed (state : x.state = .cancelled) (resuming : x.resuming = true) : Overwrites env task x .resume
  | wentOn {e : ExecutionEvent} (state : x.state = .cancelled)
      (on : LeavesPreflight x e ∨ ComesToResult env task x e) : Overwrites env task x e

structure FinalStays (env : Env) (task : TaskFrame) (s₀ : Run) (es : List ExecutionEvent) : Prop where
  stays : ∀ pre e post, es = pre ++ e :: post → (executionAfter env task s₀ pre).state.isFinal = true →
    LeavesState env task (executionAfter env task s₀ pre) e
  cancelled : ∀ pre post, es = pre ++ .run .cancel :: post →
    (executionAfter env task s₀ pre).state.isFinal = false →
    (executionAfter env task s₀ es).state = .cancelled

theorem Course.finished {P : Prop} (h : Course P s s') (hs' : s'.phase.isFinished = true) :
    (∃ r, s'.phase = .returned r ∧ s'.record.state = r.state ∧ r.state.isFinal = true) ∨
      (P ∧ s'.phase = .threw ∧ s'.record.state = s.record.state) := by
  cases h with
  | goesOn ongoing same =>
    rw [ongoing] at hs'
    cases hs'
  | ended r phase state stored ofDag =>
    refine .inl ⟨r, phase, stored, ?_⟩
    rcases state with h | h <;> rw [h] <;> rfl
  | caught r phase state stored ofDag =>
    refine .inl ⟨r, phase, stored, ?_⟩
    rcases state with h | h <;> rw [h] <;> rfl
  | threw on phase same => exact .inr ⟨on, phase, same⟩

theorem Course.cancelled {P : Prop} (h : Course P s s') (hstate : s.record.state = .cancelled)
    (hresult : ∀ r, s'.phase = .returned r → r.state = .cancelled) : s'.record.state = .cancelled := by
  cases h with
  | goesOn ongoing same => rw [same, hstate]
  | ended r phase state stored ofDag => rw [stored, hresult r phase]
  | caught r phase state stored ofDag => rw [stored, hresult r phase]
  | threw on phase same => rw [same, hstate]

/-- A `cancel` marks the record, whatever it says. -/
theorem state_cancel (h : x.run.phase ≠ .looping) : (executionStep env task x (.run .cancel)).state = .cancelled := by
  have hphase : (deliverTo env task x.run (.run .cancel)).phase ≠ .looping := h
  have hne : ExecutionEvent.run .cancel ≠ .resume := nofun
  rw [executionStep_ne_resume hne, goOn, Execution.state, advance_of_ne_looping hphase]
  rfl

theorem leavesState_of_cancelled (h : InOrder x) {e : ExecutionEvent} (hs : x.run.phase.isFinished = false)
    (hstate : x.state = .cancelled) (hresume : e ≠ .resume) (hcancel : e ≠ .run .cancel)
    (hpreflight : ¬ LeavesPreflight x e) (hresult : ¬ ComesToResult env task x e) : LeavesState env task x e := by
  have hstep := @executionStep_ne_resume env task x _ hresume
  have hreturned : ∀ r, (advance env task (deliverTo env task x.run e)).phase = .returned r →
      r.state = .cancelled := by
    intro r hr
    by_contra hne
    exact hresult ⟨hs, r, by rw [hstep]; exact hr, hne⟩
  have hmid : ∀ r, (deliverTo env task x.run e).phase = .returned r → r.state = .cancelled := by
    intro r hr
    apply hreturned
    rw [advance_of_finished (by rw [hr]; rfl), hr]
  have hafter : (executionStep env task x e).state =
      (advance env task (deliverTo env task x.run e)).record.state := by rw [hstep]; rfl
  rw [LeavesState, hafter, hstate]
  cases he : e.assigns with
  | false =>
    have hcourse := @deliverTo_course env task _ hs e he
    exact ⟨hcourse.cancelled hstate hmid, hcourse.advance.cancelled hstate hreturned⟩
  | true =>
    have hsame : deliverTo env task x.run e = x.run := by
      match e with
      | .run (.preflightDone answer) =>
        simp only [deliverTo, deliverChecked, deliver, onPreflight]
        split
        · rename_i hphase
          exact absurd ⟨hphase, answer, rfl⟩ hpreflight
        · rfl
      | .run .cancel => exact absurd rfl hcancel
      | .resume => exact absurd rfl hresume
    rw [hsame, advance_of_ne_looping h.waiting]
    exact ⟨hstate, hstate⟩

theorem leavesState_of_not_overwrites (h : InOrder x) (e : ExecutionEvent) (hfinal : x.state.isFinal = true)
    (hno : ¬ Overwrites env task x e) : LeavesState env task x e := by
  by_cases hresume : e = .resume
  · subst hresume
    refine ⟨rfl, ?_⟩
    rw [executionStep]
    rcases resume_cases x with ⟨heq, -⟩ | ⟨r, hphase, hresuming, -, -, hstate⟩
    · rw [heq]
    · obtain ⟨r', hphase', -, hstored⟩ := h.returning hresuming
      rw [hphase] at hphase'
      cases hphase'
      rcases hstored with hstored | hcancelled
      · rw [hstate, hstored]
      · exact absurd (.resumed hcancelled hresuming) hno
  by_cases hcancel : e = .run .cancel
  · subst hcancel
    have hstate : x.state = .cancelled := by
      have hopen : ¬ (x.state = .completed ∨ x.state = .failed) := fun hstate => hno (.late hstate)
      cases hx : x.state <;> simp [hx, TaskState.isFinal] at hfinal hopen ⊢
    rw [LeavesState, state_cancel h.waiting, hstate]
    exact ⟨rfl, rfl⟩
  cases hs : x.run.phase.isFinished with
  | true =>
    exact ⟨(deliverTo_finished hs e).2 hcancel, state_finished hs hresume hcancel⟩
  | false =>
    have hstate : x.state = .cancelled := by
      rcases (h.ongoing hs).2 with hx | hx | hx
      · simp [hx, TaskState.isFinal] at hfinal
      · simp [hx, TaskState.isFinal] at hfinal
      · exact hx
    have hquiet := not_or.1 fun hor => hno (.wentOn hstate hor)
    exact leavesState_of_cancelled h hs hstate hresume hcancel hquiet.1 hquiet.2

/-- What overwrites does not leave the state alone. -/
theorem final_of_overwrites {e : ExecutionEvent} (h : InOrder x) (ho : Overwrites env task x e) :
    x.state.isFinal = true ∧ ¬ LeavesState env task x e := by
  cases ho with
  | late hstate =>
    refine ⟨by rcases hstate with hx | hx <;> rw [hx] <;> rfl, fun hleaves => ?_⟩
    have hcancelled := hleaves.2.symm.trans (state_cancel h.waiting)
    rcases hstate with hx | hx <;> rw [hx] at hcancelled <;> cases hcancelled
  | resumed hstate hresuming =>
    refine ⟨by rw [hstate]; rfl, fun hleaves => ?_⟩
    obtain ⟨r, hphase, hfinal, -⟩ := h.returning hresuming
    have hafter := hleaves.2
    rw [executionStep, hstate] at hafter
    rcases resume_cases x with ⟨-, hno⟩ | ⟨r', hphase', -, -, -, hr⟩
    · rw [hno r hphase] at hresuming
      cases hresuming
    · rw [hphase] at hphase'
      cases hphase'
      rw [hafter] at hr
      rcases hfinal with hx | hx <;> rw [hx] at hr <;> cases hr
  | wentOn hstate hon =>
    refine ⟨by rw [hstate]; rfl, fun hleaves => ?_⟩
    rcases hon with ⟨hphase, answer, rfl⟩ | ⟨hs, r, hr, hne⟩
    · have hmid := hleaves.1
      rw [hstate] at hmid
      simp only [deliverTo, deliverChecked, deliver, onPreflight, hphase] at hmid
      split at hmid <;> cases hmid
    · have hresume : e ≠ .resume := by
        rintro rfl
        rw [executionStep] at hr
        rcases resume_cases x with ⟨heq, -⟩ | ⟨r', hphase', -⟩
        · rw [heq] at hr
          rw [hr] at hs
          cases hs
        · rw [hphase'] at hs
          cases hs
      obtain ⟨s₁, hcourse, -⟩ := @step_course env task _ hs e (h.ongoing hs).2
      have hafter := hleaves.2
      rw [executionStep_ne_resume hresume] at hr hafter
      have hreturned : (advance env task (deliverTo env task x.run e)).phase = .returned r := hr
      rcases hcourse.finished (by rw [hreturned]; rfl) with ⟨r', hphase', hstored, -⟩ | ⟨-, hthrew, -⟩
      · rw [hreturned] at hphase'
        cases hphase'
        rw [← hstored] at hne
        exact hne (hafter.trans hstate)
      · rw [hreturned] at hthrew
        cases hthrew

theorem executionAfter_snoc {es : List ExecutionEvent} {e : ExecutionEvent} :
    executionAfter env task s₀ (es ++ [e]) = executionStep env task (executionAfter env task s₀ es) e :=
  run_snoc

/-- **Final states stay.**  Exactly in the runs in which no `cancel` comes after the end and no cancelled
task goes on. -/
theorem final_state_iff {store : JsMap String NopTaskRecord} {signalAborted : Bool} {s₀ : Run}
    (h : execute env task store signalAborted = .ok s₀) (es : List ExecutionEvent) :
    FinalStays env task s₀ es ↔
      Along (executionStep env task) (fun x e => ¬ Overwrites env task x e) (started env task s₀) es := by
  constructor
  · intro hstays pre e post hes ho
    obtain ⟨hfinal, hleaves⟩ := final_of_overwrites (inOrder_executionAfter h pre) ho
    exact hleaves (hstays.stays pre e post hes hfinal)
  · intro halong
    have hstays : ∀ pre e post, es = pre ++ e :: post →
        (executionAfter env task s₀ pre).state.isFinal = true →
        LeavesState env task (executionAfter env task s₀ pre) e :=
      fun pre e post hes hfinal =>
        leavesState_of_not_overwrites (inOrder_executionAfter h pre) e hfinal (halong pre e post hes)
    refine ⟨hstays, fun pre post hes _ => ?_⟩
    -- the state stays `cancelled` over the events behind the `cancel`
    have hbehind : ∀ mid rest, post = mid ++ rest →
        (executionAfter env task s₀ (pre ++ .run .cancel :: mid)).state = .cancelled := by
      intro mid
      induction mid using List.reverseRecOn with
      | nil =>
        intro rest _
        rw [executionAfter_snoc]
        exact state_cancel (inOrder_executionAfter h pre).waiting
      | append_singleton mid e ih =>
        intro rest hrest
        have hbefore := ih (e :: rest) (by rw [hrest]; simp)
        have hleaves := hstays (pre ++ .run .cancel :: mid) e rest (by rw [hes, hrest]; simp)
          (by rw [hbefore]; rfl)
        rw [← List.cons_append, ← List.append_assoc, executionAfter_snoc, hleaves.2, hbefore]
    have hall := hbehind post [] (by simp)
    rw [← hes] at hall
    exact hall

/-- A worker answers for a node, as `execute` sees it. -/
def answered (id : String) : List ExecutionEvent := (answerOnce id none).map .run

/-- A task that is cancelled while its first node is at work stays cancelled as long as it works. -/
theorem chain_stays_cancelled : FinalStays plainEnv chainTask chainRun [.run .cancel, .run .abort] := by
  refine (final_state_iff chain_accepted _).2 (along_cons.2 ⟨fun ho => ?_, along_cons.2 ⟨fun ho => ?_, along_nil⟩⟩)
  · have hstate := (final_of_overwrites (inOrder_executionAfter chain_accepted []) ho).1
    revert hstate
    decide
  · cases ho with
    | wentOn hstate hon =>
      rcases hon with ⟨-, answer, heq⟩ | ⟨-, r, hr, -⟩
      · cases heq
      · have hresult : (executionAfter plainEnv chainTask chainRun
          [.run .cancel, .run .abort]).run.phase.result.isSome = false := by decide
        have hphase : (executionAfter plainEnv chainTask chainRun
          [.run .cancel, .run .abort]).run.phase = .returned r := hr
        rw [hphase] at hresult
        cases hresult

/-- The chain is cancelled while its first node is at work, and all nodes succeed. -/
def cancelledChain : List ExecutionEvent :=
  .run .cancel :: (answered "A" ++ answered "B" ++ answered "C" ++ [.resume])

/-- A task that is cancelled while its nodes work is completed in the end. -/
theorem cancelled_chain_completes : execute plainEnv chainTask JsMap.empty false = .ok chainRun ∧
    (executionAfter plainEnv chainTask chainRun cancelledChain).isSettled = true ∧
    (executionAfter plainEnv chainTask chainRun cancelledChain).state = .completed ∧
    ¬ FinalStays plainEnv chainTask chainRun cancelledChain := by
  refine ⟨chain_accepted, by decide, by decide, fun hstays => ?_⟩
  have hcancelled := hstays.cancelled [] _ rfl (by decide)
  revert hcancelled
  decide

/-! ### Tasks end in a final state -/

/-- The call settles by throwing on, and the task was not cancelled before. -/
def LeftOpen (env : Env) (task : TaskFrame) (x : Execution) (e : ExecutionEvent) : Prop :=
  Rethrows env task x.run e ∧ x.state ≠ .cancelled

theorem threw_of_rethrows {e : ExecutionEvent} (h : Rethrows env task s e) :
    (deliverTo env task s e).phase = .threw ∧ (deliverTo env task s e).record.state = s.record.state := by
  obtain ⟨hcaught, hsignal, htimer⟩ := h
  have hthrows := @catchError_throws env task s hsignal htimer
  unfold caughtAt at hcaught
  split at hcaught
  · split at hcaught
    · rename_i id hphase
      split at hcaught
      · rename_i hget
        cases hcaught
        simpa only [deliverTo, deliverChecked, deliver, wake, hphase, hget] using hthrows
      · cases hcaught
    · cases hcaught
  · split at hcaught
    · rename_i hphase
      split_ifs at hcaught with hbroken
      · simpa only [deliverTo, deliverChecked, hphase, hbroken, if_true] using hthrows
      · split at hcaught
        · rename_i hresolve
          simpa only [deliverTo, deliverChecked, deliver, onCompensationResolved, hphase, hbroken,
            hresolve, Bool.false_eq_true, if_false] using hthrows
        · cases hcaught
    · cases hcaught
  · split at hcaught
    · rename_i hphase
      split at hcaught
      · rename_i hfinish
        cases hcaught
        simpa only [deliverTo, deliverChecked, deliver, onCompensationAnswered, hphase, hfinish]
          using hthrows
      · cases hcaught
    · cases hcaught
  · split at hcaught
    · rename_i hphase
      simpa only [deliverTo, hphase] using hthrows
    · cases hcaught
  · cases hcaught

theorem step_settles {e : ExecutionEvent} (h : InOrder x) (hopen : x.isSettled = false)
    (hsettled : (executionStep env task x e).isSettled = true) :
    (executionStep env task x e).state.isFinal = true ↔ ¬ LeftOpen env task x e := by
  by_cases hresume : e = .resume
  · -- `execute` resumes with the result of `_runDag`
    subst hresume
    rw [executionStep] at hsettled ⊢
    rcases resume_cases x with ⟨heq, -⟩ | ⟨r, hphase, hresuming, -, -, hstate⟩
    · rw [heq, hopen] at hsettled
      cases hsettled
    · obtain ⟨r', hphase', hfinal, -⟩ := h.returning hresuming
      rw [hphase] at hphase'
      cases hphase'
      have hno : ¬ LeftOpen env task x .resume := fun hleft => nomatch hleft.1.1
      rw [hstate]
      refine iff_of_true ?_ hno
      rcases hfinal with hx | hx <;> rw [hx] <;> rfl
  cases hs : x.run.phase.isFinished with
  | true =>
    obtain ⟨hphase, hresuming, -⟩ := @executionStep_finished env task _ hs _ hresume
    rw [Execution.isSettled, hphase, hresuming] at hsettled
    rw [Execution.isSettled, hsettled] at hopen
    cases hopen
  | false =>
    obtain ⟨s₁, hcourse, -⟩ := @step_course env task _ hs e (h.ongoing hs).2
    have hstep := @executionStep_ne_resume env task x _ hresume
    rw [hstep] at hsettled ⊢
    have hfinished : (advance env task (deliverTo env task x.run e)).phase.isFinished = true :=
      (Bool.and_eq_true _ _ ▸ hsettled).1
    have hthrows : Rethrows env task x.run e →
        (advance env task (deliverTo env task x.run e)).phase = .threw ∧
          (advance env task (deliverTo env task x.run e)).record.state = x.state := by
      intro hrethrows
      obtain ⟨hphase, hstate⟩ := threw_of_rethrows hrethrows
      rw [advance_of_finished (by rw [hphase]; rfl)]
      exact ⟨hphase, hstate⟩
    rcases hcourse.finished hfinished with ⟨r, hphase, hstored, hfinal⟩ | ⟨hrethrows, -, -⟩
    · rw [← hstored] at hfinal
      refine iff_of_true hfinal fun hleft => ?_
      have := (hthrows hleft.1).1.symm.trans hphase
      cases this
    · have hstate : (goOn x.run (advance env task (deliverTo env task x.run e)) x.resuming).state =
          x.state := (hthrows hrethrows).2
      rw [hstate, LeftOpen]
      rcases (h.ongoing hs).2 with hx | hx | hx
      · simp [hx, TaskState.isFinal, hrethrows]
      · simp [hx, TaskState.isFinal, hrethrows]
      · simp [hx, TaskState.isFinal]

/-- **Tasks end in a final state.**  Where `execute` settles the state in the store is final, unless it
throws on an error while the task is not cancelled. -/
theorem settled_final_iff {store : JsMap String NopTaskRecord} {signalAborted : Bool} {s₀ : Run}
    (h : execute env task store signalAborted = .ok s₀) :
    ((started env task s₀).isSettled = true → (started env task s₀).state.isFinal = true) ∧
    ∀ (es : List ExecutionEvent) (e : ExecutionEvent),
      (executionAfter env task s₀ es).isSettled = false →
      (executionAfter env task s₀ (es ++ [e])).isSettled = true →
      ((executionAfter env task s₀ (es ++ [e])).state.isFinal = true ↔
        ¬ LeftOpen env task (executionAfter env task s₀ es) e) := by
  constructor
  · intro hsettled
    obtain ⟨hs, -⟩ := started_open h
    have hfinished : (advance env task s₀).phase.isFinished = true :=
      (Bool.and_eq_true _ _ ▸ hsettled).1
    rcases (@advance_course env task _ hs).finished hfinished with
      ⟨r, -, hstored, hfinal⟩ | ⟨hno, -⟩
    · rw [← hstored] at hfinal
      exact hfinal
    · exact hno.elim
  · intro es e hopen hsettled
    rw [executionAfter_snoc] at hsettled ⊢
    exact step_settles (inOrder_executionAfter h es) hopen hsettled

theorem chain_settles_final : (executionAfter plainEnv chainTask chainRun
    (answered "A" ++ answered "B" ++ answered "C" ++ [.resume])).state.isFinal = true :=
  ((settled_final_iff chain_accepted).2 (answered "A" ++ answered "B" ++ answered "C") .resume
    (by decide) (by decide)).2 fun hleft => nomatch hleft.1.1

def clusterTask : TaskFrame where
  taskId := "cluster"
  maxRetries := 0
  dag :=
    { nodes := [{ id := "A", action := "a", agent := "w", targetClusterAnchor := some "anchor" }]
      edges := [] }

def clusterEnv : Env := { plainEnv with clusterResolver := true }

def clusterRun : Run := initialRun clusterEnv clusterTask ⟨["A"], ["A"], ["A"]⟩ false

/-- The resolver fails, `execute` throws, and the task is left as running. -/
theorem unresolved_left_running : execute clusterEnv clusterTask JsMap.empty false = .ok clusterRun ∧
    (executionAfter clusterEnv clusterTask clusterRun
      [.run (.resolved "A" (.error ())), .run .wake]).isSettled = true ∧
    (executionAfter clusterEnv clusterTask clusterRun
      [.run (.resolved "A" (.error ())), .run .wake]).state = .running :=
  ⟨rfl, by decide, by decide⟩

end NpsSdk.Nop
