import NpsSdk.Nop.Saga
import NpsSdk.Nop.TaskRecords

/-!
# Tasks that are sent

A task that is written with `toDict` and read with `fromDict` has a compensation policy even where it had none:
`toDict` writes `best_effort`, but the orchestrator compensates nothing for a task without a policy.  Apart from
that a task means the same when it is sent.
-/

namespace NpsSdk.Nop

open NpsSdk.Lib

/-! ### The record of a task -/

/-- A task with the fields that the engine does not read. -/
structure SentTaskFrame extends TaskFrame where
  resultTtlSeconds : ℤ := 3600
  callbackSecret : Option String := none
  requestId : Option String := none

inductive TaskMember
  | null
  | text (s : String)
  | number (n : ℤ)
  | flag (b : Bool)
  | dag (d : TaskDag)
  | context (c : TaskContext)

namespace TaskMember

/-- `value ?? null`. -/
def orNull {α : Type} (member : α → TaskMember) : Option α → TaskMember
  | none => .null
  | some a => member a

def text? : TaskMember → Option String
  | .text s => some s
  | _ => none

def number? : TaskMember → Option ℤ
  | .number n => some n
  | _ => none

def flag? : TaskMember → Option Bool
  | .flag b => some b
  | _ => none

def dag? : TaskMember → Option TaskDag
  | .dag d => some d
  | _ => none

def context? : TaskMember → Option TaskContext
  | .context c => some c
  | _ => none

/-- `data[key] ?? undefined`; nothing where the member is not of the type that the source casts it to. -/
def cast? {α : Type} (cast : TaskMember → Option α) (data : List (String × TaskMember)) (key : String) :
    Option (Option α) :=
  match JsMap.find key data with
  | none | some .null => some none
  | some member => (cast member).map some

end TaskMember

open TaskMember

namespace SentTaskFrame

def toDict (task : SentTaskFrame) : List (String × TaskMember) :=
  [("task_id", .text task.taskId),
    ("dag", .dag task.dag),
    ("timeout_ms", TaskMember.orNull .number task.timeoutMs),
    ("max_retries", .number task.maxRetries),
    ("priority", TaskMember.orNull .text task.priority),
    ("callback_url", TaskMember.orNull .text task.callbackUrl),
    ("callback_secret", TaskMember.orNull .text task.callbackSecret),
    ("preflight", .flag task.preflight),
    ("context", TaskMember.orNull .context task.context),
    ("request_id", TaskMember.orNull .text task.requestId),
    ("delegate_depth", .number (task.depth.getD 0)),
    ("compensation_policy", .text (task.compensationPolicy.getD "best_effort")),
    ("result_ttl_seconds", .number task.resultTtlSeconds)]

/-- `fromDict`, on records whose members have the types it casts them to. -/
def fromDict (data : List (String × TaskMember)) : Option SentTaskFrame := do
  let delegateDepth ← cast? number? data "delegate_depth"
  let depth ← cast? number? data "depth"
  let taskId ← (JsMap.find "task_id" data).bind text?
  let dag ← (JsMap.find "dag" data).bind dag?
  let timeoutMs ← cast? number? data "timeout_ms"
  let callbackUrl ← cast? text? data "callback_url"
  let context ← cast? context? data "context"
  let priority ← cast? text? data "priority"
  let compensationPolicy ← cast? text? data "compensation_policy"
  let resultTtlSeconds ← cast? number? data "result_ttl_seconds"
  let maxRetries ← cast? number? data "max_retries"
  let callbackSecret ← cast? text? data "callback_secret"
  let preflight ← cast? flag? data "preflight"
  let requestId ← cast? text? data "request_id"
  return {
    taskId, dag, timeoutMs, callbackUrl, context, priority, depth := delegateDepth <|> depth, compensationPolicy
    resultTtlSeconds := resultTtlSeconds.getD 3600
    maxRetries := maxRetries.getD 2
    callbackSecret
    preflight := preflight.getD false
    requestId }

end SentTaskFrame

def TaskFrame.under (policy : Option String) (task : TaskFrame) : TaskFrame :=
  { task with depth := some task.delegateDepth, compensationPolicy := policy }

def TaskFrame.sentPolicy (task : TaskFrame) : Option String := some (task.compensationPolicy.getD "best_effort")

theorem read_orNull {α : Type} {cast : TaskMember → Option α} {data : List (String × TaskMember)} {key : String}
    (member : α → TaskMember) (value : Option α) (h : JsMap.find key data = some (TaskMember.orNull member value))
    (hcast : ∀ a, cast (member a) = some a) (hnull : cast .null = none) : cast? cast data key = some value := by
  unfold cast?
  rw [h]
  cases value with
  | none => rfl
  | some a =>
    unfold TaskMember.orNull
    dsimp only
    split
    · rename_i heq
      cases heq
    · rename_i heq
      have hsome := hcast a
      rw [Option.some.inj heq, hnull] at hsome
      cases hsome
    · rename_i heq
      rw [← Option.some.inj heq, hcast]
      rfl

theorem read_member {α : Type} {cast : TaskMember → Option α} {data : List (String × TaskMember)} {key : String}
    (member : α → TaskMember) (a : α) (h : JsMap.find key data = some (member a)) (hcast : ∀ a, cast (member a) = some a)
    (hnull : cast .null = none) : cast? cast data key = some (some a) :=
  read_orNull member (some a) h hcast hnull

/-- **What is read of a task that is sent.** -/
theorem SentTaskFrame.fromDict_toDict (task : SentTaskFrame) :
    fromDict task.toDict = some { task with toTaskFrame := task.toTaskFrame.under task.sentPolicy } := by
  have hdepth : cast? number? task.toDict "depth" = some none := by simp [cast?, toDict, JsMap.find]
  have htaskId : (JsMap.find "task_id" task.toDict).bind text? = some task.taskId := by simp [toDict, JsMap.find, text?]
  have hdag : (JsMap.find "dag" task.toDict).bind dag? = some task.dag := by simp [toDict, JsMap.find, dag?]
  unfold fromDict
  rw [hdepth, htaskId, hdag,
    read_member .number (task.depth.getD 0) (by simp [toDict, JsMap.find]) (fun _ => rfl) rfl,
    read_orNull .number task.timeoutMs (by simp [toDict, JsMap.find]) (fun _ => rfl) rfl,
    read_orNull .text task.callbackUrl (by simp [toDict, JsMap.find]) (fun _ => rfl) rfl,
    read_orNull .context task.context (by simp [toDict, JsMap.find]) (fun _ => rfl) rfl,
    read_orNull .text task.priority (by simp [toDict, JsMap.find]) (fun _ => rfl) rfl,
    read_member .text (task.compensationPolicy.getD "best_effort") (by simp [toDict, JsMap.find]) (fun _ => rfl) rfl,
    read_member .number task.resultTtlSeconds (by simp [toDict, JsMap.find]) (fun _ => rfl) rfl,
    read_member .number task.maxRetries (by simp [toDict, JsMap.find]) (fun _ => rfl) rfl,
    read_orNull .text task.callbackSecret (by simp [toDict, JsMap.find]) (fun _ => rfl) rfl,
    read_member .flag task.preflight (by simp [toDict, JsMap.find]) (fun _ => rfl) rfl,
    read_orNull .text task.requestId (by simp [toDict, JsMap.find]) (fun _ => rfl) rfl]
  rfl

/-! ### Runs of the two tasks -/

def Run.reframe (f : TaskFrame) (s : Run) : Run := { s with record := { s.record with frame := f } }

section under

variable {env : Env} {task : TaskFrame} {p : Option String} {f : TaskFrame} {s : Run}

theorem catchError_under (thrown : Thrown) :
    catchError env (task.under p) (s.reframe f) thrown = (catchError env task s thrown).reframe f := by
  have hsame : (s.reframe f).signalAborted = s.signalAborted ∧ (s.reframe f).timedOut = s.timedOut := ⟨rfl, rfl⟩
  unfold catchError
  rw [hsame.1, hsame.2]
  split_ifs <;> rfl

theorem recordFail_reframe (n : DagNode) : recordFail (s.reframe f) n = (recordFail s n).reframe f := rfl

theorem failInfeasible_reframe (ns : List DagNode) :
    failInfeasible ns (s.reframe f) = ((failInfeasible ns s).1.reframe f, (failInfeasible ns s).2) := by
  induction ns generalizing s with
  | nil => rfl
  | cons n ns ih =>
    have hsame : isInfeasible n (s.reframe f).nodeStates = isInfeasible n s.nodeStates := rfl
    simp only [failInfeasible, hsame]
    split_ifs
    · rw [recordFail_reframe, ih]
    · rw [ih]

theorem launch_under (ns : List DagNode) :
    launch env (task.under p) ns (s.reframe f) = (launch env task ns s).reframe f := by
  induction ns generalizing s with
  | nil => rfl
  | cons n ns ih =>
    have hsame : (s.reframe f).inFlight = s.inFlight := rfl
    simp only [launch, hsame]
    split_ifs
    · rfl
    · exact ih (s := startNode env task s n)

theorem schedule_under : schedule env (task.under p) (s.reframe f) = (schedule env task s).reframe f := by
  unfold schedule
  have hready : (allNodes (task.under p).dag).values.filter (isReady (s.reframe f)) =
      (allNodes task.dag).values.filter (isReady s) := rfl
  rw [hready, failInfeasible_reframe, launch_under]

theorem failedEnds_under : failedEnds (task.under p) (s.reframe f) = failedEnds task s := rfl

theorem completedReversed_under : completedReversed (task.under p) (s.reframe f) = completedReversed task s := rfl

/-! ### Compensation -/

section same

variable (hstrict : CompensationPolicy.isStrict p = CompensationPolicy.isStrict task.compensationPolicy)

include hstrict

theorem finishCompensation_under (goal : CompensationGoal) (compensation : SagaCompensationResult) :
    finishCompensation env (task.under p) (s.reframe f) goal compensation =
      (finishCompensation env task s goal compensation).reframe f := by
  have hcode : compensationFailureErrorCode (task.under p) compensation =
      compensationFailureErrorCode task compensation := by
    unfold compensationFailureErrorCode
    rw [show (task.under p).compensationPolicy = p from rfl, hstrict]
  unfold finishCompensation
  rw [hcode]
  cases goal <;> rfl

theorem compensateNext_under (goal : CompensationGoal) (attempted succeeded : ℕ) (failedIds todo : List String) :
    compensateNext env (task.under p) goal attempted (s.reframe f) succeeded failedIds todo =
      (compensateNext env task goal attempted s succeeded failedIds todo).reframe f := by
  induction todo generalizing s failedIds with
  | nil => exact finishCompensation_under hstrict _ _
  | cons id todo ih =>
    unfold compensateNext
    rw [show (allNodes (task.under p).dag).get id = (allNodes task.dag).get id from rfl]
    cases (allNodes task.dag).get id with
    | none => exact ih failedIds
    | some node =>
      dsimp only
      have hprepare : prepare env (task.under p) (compensationNode node (node.compensateAction.getD ""))
          (env.randomId (s.reframe f).ids) (env.randomId ((s.reframe f).ids + 1)) (s.reframe f).nodeResults
            (s.reframe f).ticks =
          prepare env task (compensationNode node (node.compensateAction.getD "")) (env.randomId s.ids)
            (env.randomId (s.ids + 1)) s.nodeResults s.ticks := rfl
      rw [hprepare]
      cases prepare env task (compensationNode node (node.compensateAction.getD "")) (env.randomId s.ids)
          (env.randomId (s.ids + 1)) s.nodeResults s.ticks with
      | error outcome => exact ih (s := { s with ids := s.ids + 2 }) (failedIds ++ [id])
      | ok frame => rfl

theorem runSagaCompensation_under (goal : CompensationGoal) :
    runSagaCompensation env (task.under p) (s.reframe f) goal = (runSagaCompensation env task s goal).reframe f := by
  unfold runSagaCompensation
  rw [completedReversed_under, show (task.under p).compensationPolicy = p from rfl,
    show (task.under p).dag = task.dag from rfl, hstrict]
  dsimp only
  split
  · exact finishCompensation_under hstrict _ _
  · exact compensateNext_under hstrict _ _ _ _ _

theorem failRun_under
    (hfailure : CompensationPolicy.runsOnFailure p = CompensationPolicy.runsOnFailure task.compensationPolicy)
    (message : String) : failRun env (task.under p) (s.reframe f) message = (failRun env task s message).reframe f := by
  unfold failRun
  rw [show (task.under p).compensationPolicy = p from rfl, hfailure]
  split
  · exact runSagaCompensation_under hstrict _
  · rfl

end same

/-! ### Where a task is given up -/

def givesUpAtHead (env : Env) (task : TaskFrame) (s : Run) : Option Run :=
  match s.phase with
  | .looping =>
    if s.nodeStates.size < (allNodes task.dag).size then
      if s.aborted = false ∧ (schedule env task s).inFlight.size = 0 ∧ failedEnds task (schedule env task s) ≠ [] then
        some (schedule env task s)
      else none
    else if failedEnds task s ≠ [] then some s else none
  | _ => none

/-- The state in which a task is given up at an event, if it is: what is in flight has settled after a node has
failed for good, or the main loop ends and an end node has failed. -/
def givesUp (env : Env) (task : TaskFrame) (s : Run) (e : Event) : Option Run :=
  match e, s.phase with
  | .wake, .settling _ =>
    if s.inFlight.values.all fun f => f.phase.isSettled then some { s with inFlight := JsMap.empty } else none
  | _, _ => givesUpAtHead env task (deliver env task s e)

/-- Two runs do the same, apart from the frame of the record, unless they give the task up. -/
inductive Follows (env : Env) (task : TaskFrame) (p : Option String) (f : TaskFrame) (up : Option Run) (s s' : Run) : Prop
  | same (goesOn : up = none) (same : s' = s.reframe f)
  | givesUp (s₁ : Run) (message : String) (givesUp : up = some s₁) (here : s = failRun env task s₁ message)
      (there : s' = failRun env (task.under p) (s₁.reframe f) message)

section same

variable (hstrict : CompensationPolicy.isStrict p = CompensationPolicy.isStrict task.compensationPolicy)
  (hsuccess : CompensationPolicy.runsOnSuccess p = CompensationPolicy.runsOnSuccess task.compensationPolicy)

include hstrict hsuccess

theorem conclude_follows : Follows env task p f (if failedEnds task s ≠ [] then some s else none) (conclude env task s)
    (conclude env (task.under p) (s.reframe f)) := by
  by_cases hfailed : failedEnds task s = []
  · refine .same (by simp [hfailed]) ?_
    unfold conclude
    rw [failedEnds_under, show (task.under p).compensationPolicy = p from rfl, hsuccess, hfailed]
    simp only [List.isEmpty_nil, Bool.not_true, Bool.false_eq_true, if_false]
    split
    · exact runSagaCompensation_under hstrict _
    · rfl
  · let ids := join ", " (failedEnds task s)
    have hnot : (!(failedEnds task s).isEmpty) = true := by simp [hfailed]
    exact .givesUp s s!"End node(s) failed: {ids}" (by simp [hfailed]) (if_pos hnot) (if_pos hnot)

theorem advance_follows : Follows env task p f (givesUpAtHead env task s) (advance env task s)
    (advance env (task.under p) (s.reframe f)) := by
  unfold givesUpAtHead advance
  rw [show (s.reframe f).phase = s.phase from rfl]
  cases s.phase with
  | looping =>
    dsimp only
    unfold loopHead
    rw [show (s.reframe f).nodeStates = s.nodeStates from rfl, show (task.under p).dag = task.dag from rfl,
      show (s.reframe f).aborted = s.aborted from rfl, schedule_under]
    split
    · cases haborted : s.aborted with
      | true => exact .same (by simp) (catchError_under _)
      | false =>
        dsimp only
        rw [show ((schedule env task s).reframe f).inFlight = (schedule env task s).inFlight from rfl]
        by_cases hidle : (schedule env task s).inFlight.size = 0
        · simpa [hidle] using conclude_follows (s := schedule env task s) hstrict hsuccess
        · refine .same (by simp [hidle]) ?_
          simp [hidle]
          rfl
    · exact conclude_follows hstrict hsuccess
  | _ => exact .same rfl rfl

omit hstrict hsuccess in
theorem takeOutcome_under (id : String) (outcome : NodeOutcome) :
    takeOutcome (task.under p) (s.reframe f) id outcome = (takeOutcome task s id outcome).reframe f := by
  unfold takeOutcome
  dsimp only
  rw [apply_ite (Run.reframe f)]
  rfl

omit hstrict hsuccess in
theorem abortRun_reframe : abortRun (s.reframe f) = (abortRun s).reframe f := by
  unfold abortRun
  rw [apply_ite (Run.reframe f)]
  rfl

omit hsuccess in
/-- An event does the same to both runs, up to the head of the main loop, unless it gives the task up. -/
theorem deliver_under (e : Event) (hwake : e = .wake → ∀ message, s.phase ≠ .settling message) :
    deliver env (task.under p) (s.reframe f) e = (deliver env task s e).reframe f := by
  have hflight : (s.reframe f).inFlight = s.inFlight := rfl
  have hphase : (s.reframe f).phase = s.phase := rfl
  cases e with
  | preflightDone answer =>
    unfold deliver onPreflight
    rw [hphase]
    dsimp only
    split
    · split <;> rfl
    · rfl
  | resolved id answer =>
    unfold deliver onResolved
    rw [hflight]
    dsimp only
    split
    · split
      · split <;> rfl
      · rfl
    · rfl
  | answered id answer =>
    unfold deliver onAnswered
    rw [hflight, hphase]
    dsimp only
    split
    · split
      · split <;> rfl
      · rfl
    · rfl
  | delayed id =>
    unfold deliver onDelayed
    rw [hflight]
    dsimp only
    split
    · split <;> rfl
    · rfl
  | wake =>
    unfold deliver wake
    rw [hflight, hphase]
    dsimp only
    split
    · split
      · exact takeOutcome_under _ _
      · exact catchError_under _
      · rfl
    · rename_i message heq
      exact absurd heq (hwake rfl message)
    · rfl
  | compensationResolved answer =>
    unfold deliver onCompensationResolved
    rw [hphase]
    dsimp only
    split
    · split
      · split
        · exact catchError_under _
        · rfl
      · rfl
    · rfl
  | compensationAnswered answer =>
    unfold deliver onCompensationAnswered
    rw [hphase]
    dsimp only
    split
    · split
      · rfl
      · rw [show finishOnce env (task.under p) _ (s.reframe f).aborted answer = finishOnce env task _ s.aborted answer
          from rfl]
        split
        · exact catchError_under _
        · split
          · exact compensateNext_under hstrict _ _ _ _ _
          · exact compensateNext_under hstrict _ _ _ _ _
    · rfl
  | timeout => exact abortRun_reframe
  | abort => exact abortRun_reframe (s := { s with signalAborted := true })
  | cancel => rfl

/-- **A step** does the same to both runs, unless it gives the task up. -/
theorem step_follows (e : Event) : Follows env task p f (givesUp env task s e) (step env task s e)
    (step env (task.under p) (s.reframe f) e) := by
  by_cases hwake : e = .wake → ∀ message, s.phase ≠ .settling message
  · have hup : givesUp env task s e = givesUpAtHead env task (deliver env task s e) := by
      unfold givesUp
      split
      · rename_i message heq
        exact absurd heq (hwake rfl message)
      · rfl
    rw [hup]
    unfold step
    rw [deliver_under hstrict e hwake]
    exact advance_follows hstrict hsuccess
  · push Not at hwake
    obtain ⟨rfl, message, hsettling⟩ := hwake
    have hwoken : ∀ (task : TaskFrame) (s : Run), s.phase = .settling message → wake env task s =
        if s.inFlight.values.all fun g => g.phase.isSettled then
          failRun env task { s with inFlight := JsMap.empty } message else s := by
      intro task s hs
      unfold wake
      rw [hs]
    have hup : givesUp env task s .wake = if s.inFlight.values.all fun g => g.phase.isSettled then
        some { s with inFlight := JsMap.empty } else none := by
      unfold givesUp
      split
      · rfl
      · rename_i hnot
        exact absurd hsettling (hnot message rfl)
    have hclosed : ∀ (task : TaskFrame) (s : Run),
        advance env task (failRun env task s message) = failRun env task s message := fun task s =>
      advance_of_ne_looping (closed_ne_looping (failRun_closes s message).closed)
    have hidle : ∀ (task : TaskFrame) (s : Run), s.phase = .settling message → advance env task s = s := fun task s hs =>
      advance_of_ne_looping (by rw [hs]; nofun)
    unfold step deliver
    dsimp only
    rw [hup, hwoken _ _ hsettling, hwoken _ (s.reframe f) hsettling, show (s.reframe f).inFlight = s.inFlight from rfl]
    split
    · refine .givesUp { s with inFlight := JsMap.empty } message rfl (hclosed _ _) ?_
      rw [hclosed]
      rfl
    · refine .same rfl ?_
      rw [hidle _ _ hsettling, hidle _ (s.reframe f) hsettling]

end same

end under

/-! ### What is in flight where a task is given up -/

def Apart (s : Run) : Prop := ∀ id ∈ s.inFlight.keys, s.nodeStates.get id = none

section apart

variable {env : Env} {task : TaskFrame} {s : Run}

theorem Apart.recordFail (h : Apart s) {n : DagNode} (hn : n.id ∉ s.inFlight.keys) : Apart (recordFail s n) := by
  intro id hid
  simp only [Nop.recordFail, JsMap.get_set]
  rw [if_neg (by rintro rfl; exact hn hid)]
  exact h id hid

theorem Apart.launch {ns : List DagNode} (h : Apart s) (hf : Fresh s ns) : Apart (launch env task ns s) := by
  induction ns generalizing s with
  | nil => exact h
  | cons n ns ih =>
    obtain ⟨⟨h1, -⟩, -⟩ := hf.uncons
    simp only [Nop.launch]
    split_ifs
    · exact h
    · refine ih (fun id hid => ?_) hf.started
      rcases (JsMap.mem_keys_set _ _ _ _).1 hid with rfl | hid
      · exact h1
      · exact h id hid

theorem Apart.schedule (hn : task.dag.ids.Nodup) (h : Apart s) : Apart (schedule env task s) := by
  have hfresh : Fresh s (task.dag.nodes.filter (isReady s)) := fresh_ready hn
  simp only [Nop.schedule, schedule_ready hn]
  exact (Fresh.failInfeasible_induction h hfresh fun _ _ h _ h2 => h.recordFail h2).launch hfresh.failInfeasible

theorem Apart.setPhase (h : Apart s) {id : String} {f g : InFlight} (hget : s.inFlight.get id = some f) :
    Apart (setPhase s id g) := by
  intro i hi
  rcases (JsMap.mem_keys_set _ _ _ _).1 hi with rfl | hi
  · exact h _ (JsMap.mem_keys_of_get hget)
  · exact h i hi

theorem Apart.recordOutcome (h : Apart s) (id : String) (outcome : NodeOutcome) : Apart (recordOutcome s id outcome) := by
  intro i hi
  simp only [Nop.recordOutcome, JsMap.mem_keys_delete] at hi
  simp only [Nop.recordOutcome, JsMap.get_set]
  rw [if_neg hi.2]
  exact h i hi.1

/-- While the loop goes on, what is in flight stays apart. -/
theorem Apart.deliver (h : Apart s) (hs : s.phase.isRunning = true) (e : Event)
    (hrun : (deliver env task s e).phase.isRunning = true) : Apart (deliver env task s e) := by
  have hcaught : ∀ thrown, (catchError env task s thrown).phase.isRunning = true → False := by
    intro thrown hrunning
    rw [(catchError_closes s thrown).closed] at hrunning
    cases hrunning
  cases e with
  | preflightDone answer =>
    simp only [Nop.deliver, onPreflight]
    split
    · split <;> exact h
    · exact h
  | resolved id answer =>
    simp only [Nop.deliver, onResolved]
    split
    · rename_i f hget
      split
      · split
        · exact h.setPhase hget
        · exact h.setPhase hget
      · exact h
    · exact h
  | answered id answer =>
    simp only [Nop.deliver, onAnswered]
    split
    · rename_i f hget
      split
      · split
        · exact h.setPhase hget
        · exact h.setPhase hget
      · exact h
    · exact h
  | delayed id =>
    simp only [Nop.deliver, onDelayed]
    split
    · rename_i f hget
      split
      · exact h.setPhase hget
      · exact h
    · exact h
  | wake =>
    unfold Nop.deliver wake at hrun ⊢
    dsimp only at hrun ⊢
    split
    · rename_i id heq
      rw [heq] at hrun
      dsimp only at hrun
      split
      · unfold takeOutcome
        dsimp only
        split
        · exact h.recordOutcome _ _
        · exact h.recordOutcome _ _
      · rename_i hget
        rw [hget] at hrun
        exact (hcaught _ hrun).elim
      · exact h
    · rename_i message heq
      rw [heq] at hrun
      dsimp only at hrun
      split
      · rename_i hall
        rw [if_pos hall, (failRun_closes _ message).closed] at hrun
        cases hrun
      · exact h
    · exact h
  | compensationResolved answer =>
    simp only [Nop.deliver, onCompensationResolved]
    split
    · rename_i heq
      rw [heq] at hs
      cases hs
    · exact h
  | compensationAnswered answer =>
    simp only [Nop.deliver, onCompensationAnswered]
    split
    · rename_i heq
      rw [heq] at hs
      cases hs
    · exact h
  | timeout | abort =>
    simp only [Nop.deliver, abortRun]
    split <;> exact h
  | cancel => exact h

theorem Apart.advance (hn : task.dag.ids.Nodup) (h : Apart s) (hrun : (advance env task s).phase.isRunning = true) :
    Apart (advance env task s) := by
  unfold Nop.advance at hrun ⊢
  split
  · rename_i hlooping
    rw [hlooping] at hrun
    dsimp only at hrun
    unfold loopHead at hrun ⊢
    split at hrun
    · rename_i hsize
      rw [if_pos hsize]
      split at hrun
      · rw [(catchError_closes s .abort).closed] at hrun
        cases hrun
      · rename_i haborted
        rw [if_neg haborted]
        dsimp only at hrun ⊢
        split at hrun
        · rw [(conclude_closes _).closed] at hrun
          cases hrun
        · rename_i hidle
          rw [if_neg hidle]
          exact h.schedule hn
    · rw [(conclude_closes s).closed] at hrun
      cases hrun
  · exact h

/-- A run that goes on is in order. -/
structure Ongoing (env : Env) (task : TaskFrame) (s : Run) : Prop where
  result : ResultOk s
  ongoing : s.phase.isRunning = true → Running task s ∧ Apart s

theorem Ongoing.deliver (h : Ongoing env task s) (e : Event) (hrun : (deliver env task s e).phase.isRunning = true) :
    Running task (deliver env task s e) ∧ Apart (deliver env task s e) := by
  have hs : s.phase.isRunning = true := by
    by_contra hs
    rw [(deliver_closes (Bool.not_eq_true _ ▸ hs) h.result e).closed] at hrun
    cases hrun
  obtain ⟨hrunning, hapart⟩ := h.ongoing hs
  refine ⟨?_, hapart.deliver hs e hrun⟩
  rcases deliver_running hrunning e with hr | ⟨s₁, -, hc⟩
  · exact hr
  · rw [hc.closed] at hrun
    cases hrun

variable {s₁ : Run}

theorem givesUp_cases {e : Event} (hup : givesUp env task s e = some s₁) :
    s₁ = { s with inFlight := JsMap.empty } ∨ givesUpAtHead env task (deliver env task s e) = some s₁ := by
  unfold givesUp at hup
  split at hup
  · split at hup
    · cases hup
      exact .inl rfl
    · cases hup
  · exact .inr hup

theorem idle_of_givesUpAtHead (hn : task.dag.ids.Nodup) (hrunning : Running task s) (hapart : Apart s)
    (hup : givesUpAtHead env task s = some s₁) : ∀ id, s₁.inFlight.get id = none := by
  unfold givesUpAtHead at hup
  split at hup
  · split at hup
    · split at hup
      · rename_i hgiven
        cases hup
        exact (JsMap.size_eq_zero_iff _).1 hgiven.2.1
      · cases hup
    · rename_i hsize
      split at hup
      · cases hup
        intro id
        rw [JsMap.get_eq_none_iff]
        intro hid
        -- every node has a state, so none is in flight
        rw [allNodes_size hn] at hsize
        have hstate := JsMap.mem_keys_of_size hrunning.books.states_ids (by omega) (hrunning.flight.ids id hid)
        rw [← JsMap.get_isSome_iff, hapart id hid] at hstate
        cases hstate
      · cases hup
  · cases hup

theorem looping_of_givesUpAtHead (hup : givesUpAtHead env task s = some s₁) : s.phase = .looping := by
  unfold givesUpAtHead at hup
  split at hup
  · assumption
  · cases hup

theorem Ongoing.idle (h : Ongoing env task s) (hn : task.dag.ids.Nodup) {e : Event}
    (hup : givesUp env task s e = some s₁) : ∀ id, s₁.inFlight.get id = none := by
  rcases givesUp_cases hup with rfl | hup
  · intro id
    exact JsMap.get_empty id
  · obtain ⟨hrunning, hapart⟩ := h.deliver e (by rw [looping_of_givesUpAtHead hup]; rfl)
    exact idle_of_givesUpAtHead hn hrunning hapart hup

theorem ongoing_runFrom {store : JsMap String NopTaskRecord} {signalAborted : Bool} {s₀ : Run}
    (h : execute env task store signalAborted = .ok s₀) (events : List Event) :
    Ongoing env task (runFrom env task s₀ events) := by
  obtain ⟨hwell, -⟩ := execute_accounted h
  obtain ⟨v, -, hs₀⟩ := execute_ok h
  have hn := hwell.ids_nodup
  induction events using List.reverseRecOn with
  | nil =>
    have haccounted := runFrom_accounted h []
    refine ⟨haccounted.result, fun hrun => ⟨(haccounted.ongoing hrun).1, Apart.advance hn ?_ hrun⟩⟩
    intro id hid
    rw [hs₀]
    rfl
  | append_singleton events e ih =>
    have haccounted := runFrom_accounted h (events ++ [e])
    have hstep : runFrom env task s₀ (events ++ [e]) = step env task (runFrom env task s₀ events) e := run_snoc
    rw [hstep] at haccounted ⊢
    refine ⟨haccounted.result, fun hrun => ⟨(haccounted.ongoing hrun).1, ?_⟩⟩
    have hdelivered : (deliver env task (runFrom env task s₀ events) e).phase.isRunning = true := by
      by_contra hclosed
      rw [Bool.not_eq_true] at hclosed
      have hstays : step env task (runFrom env task s₀ events) e = deliver env task (runFrom env task s₀ events) e :=
        advance_of_ne_looping (closed_ne_looping hclosed)
      rw [hstays, hclosed] at hrun
      cases hrun
    exact (ih.deliver e hdelivered).2.advance hn hrun

end apart

/-! ### What is seen of a run -/

/-- What a run calls, and how it has ended.  The summary of the compensation is left out. -/
structure Meaning where
  calls : List DelegateFrame
  compensations : List DelegateFrame
  result : Option NopTaskResult
  threw : Bool

def Run.meaning (s : Run) : Meaning where
  calls := s.calls
  compensations := s.compensations
  result := s.phase.result.map fun r => { r with compensation := none }
  threw := match s.phase with
    | .threw => true
    | _ => false

/-- `execute` does the same for two tasks, as far as the events go. -/
def SameMeaning (env : Env) (task task' : TaskFrame) (store : JsMap String NopTaskRecord) (signalAborted : Bool)
    (events : List Event) : Prop :=
  match execute env task store signalAborted, execute env task' store signalAborted with
  | .error result, .error result' => result = result'
  | .ok s, .ok s' => (runFrom env task s events).meaning = (runFrom env task' s' events).meaning
  | _, _ => False

/-- **A task means the same once it is sent**, as far as the events go. -/
def MeansTheSame (env : Env) (task : SentTaskFrame) (store : JsMap String NopTaskRecord) (signalAborted : Bool)
    (events : List Event) : Prop :=
  ∃ task', SentTaskFrame.fromDict task.toDict = some task' ∧
    SameMeaning env task.toTaskFrame task'.toTaskFrame store signalAborted events

def compensable (task : TaskFrame) (s : Run) (id : String) : Bool :=
  match (allNodes task.dag).get id with
  | none => false
  | some node =>
    (truthy node.compensateAction).isSome &&
      match resolveParams (compensationNode node (node.compensateAction.getD "")) s.nodeResults with
      | .ok _ => true
      | .error _ => false

/-- Some node has completed whose compensation can be called. -/
def Compensates (task : TaskFrame) (s : Run) : Prop := ∃ id ∈ completedReversed task s, compensable task s id = true

section outcome

variable {env : Env} {task : TaskFrame} {s : Run}

theorem compensateNext_passes {goal : CompensationGoal} {attempted succeeded : ℕ} {failedIds todo : List String}
    (hnone : ∀ id ∈ todo, ∀ node, (allNodes task.dag).get id = some node →
      ∃ e, resolveParams (compensationNode node (node.compensateAction.getD "")) s.nodeResults = .error e) :
    ∃ ids failed, compensateNext env task goal attempted s succeeded failedIds todo =
      finishCompensation env task { s with ids } goal
        { attempted, succeeded, failed := failed.length, failedNodeIds := failed } := by
  induction todo generalizing s failedIds with
  | nil => exact ⟨s.ids, failedIds, rfl⟩
  | cons id todo ih =>
    have htodo := fun i hi => hnone i (List.mem_cons_of_mem id hi)
    unfold compensateNext
    cases hget : (allNodes task.dag).get id with
    | none => exact ih htodo
    | some node =>
      obtain ⟨e, he⟩ := hnone id List.mem_cons_self node hget
      dsimp only
      rw [prepare, he]
      exact ih (s := { s with ids := s.ids + 2 }) htodo

theorem compensateNext_calls {goal : CompensationGoal} {attempted succeeded : ℕ} {failedIds todo : List String}
    (h : ∃ id ∈ todo, compensable task s id = true) :
    ∃ c, (compensateNext env task goal attempted s succeeded failedIds todo).phase = .compensating c := by
  induction todo generalizing s failedIds with
  | nil =>
    obtain ⟨id, hid, -⟩ := h
    cases hid
  | cons id todo ih =>
    obtain ⟨i, hi, hcompensable⟩ := h
    unfold compensateNext
    cases hget : (allNodes task.dag).get id with
    | none =>
      refine ih ⟨i, (List.mem_cons.1 hi).resolve_left ?_, hcompensable⟩
      rintro rfl
      rw [compensable, hget] at hcompensable
      cases hcompensable
    | some node =>
      dsimp only
      cases hparams : resolveParams (compensationNode node (node.compensateAction.getD "")) s.nodeResults with
      | ok params =>
        rw [prepare, hparams]
        exact ⟨_, rfl⟩
      | error e =>
        rw [prepare, hparams]
        refine ih (s := { s with ids := s.ids + 2 }) ⟨i, (List.mem_cons.1 hi).resolve_left ?_, hcompensable⟩
        rintro rfl
        rw [compensable, hget] at hcompensable
        simp [hparams] at hcompensable

/-- Both runs have ended, have nothing in flight, and were seen to do the same. -/
structure Ended (s s' : Run) : Prop where
  finished : s.phase.isFinished = true
  finished' : s'.phase.isFinished = true
  idle : ∀ id, s.inFlight.get id = none
  idle' : ∀ id, s'.inFlight.get id = none
  meaning : s'.meaning = s.meaning

variable (env task) in
/-- A run that has ended with nothing in flight stays as it is seen. -/
theorem step_ended (hfinished : s.phase.isFinished = true) (hidle : ∀ id, s.inFlight.get id = none) (e : Event) :
    (step env task s e).phase = s.phase ∧ (∀ id, (step env task s e).inFlight.get id = none) ∧
      (step env task s e).meaning = s.meaning := by
  obtain ⟨hphase, -, -, hcompensations⟩ := @deliver_finished env task s hfinished e
  have hstep : step env task s e = deliver env task s e := advance_of_finished (by rw [hphase]; exact hfinished)
  have hkept : (deliver env task s e).inFlight = s.inFlight ∧ (deliver env task s e).calls = s.calls := by
    cases e with
    | preflightDone answer =>
      simp only [deliver, onPreflight]
      split
      · split <;> exact ⟨rfl, rfl⟩
      · exact ⟨rfl, rfl⟩
    | resolved id answer => simp only [deliver, onResolved, hidle id, and_self]
    | answered id answer => simp only [deliver, onAnswered, hidle id, and_self]
    | delayed id => simp only [deliver, onDelayed, hidle id, and_self]
    | wake =>
      simp only [deliver, wake]
      split
      · rename_i heq
        rw [heq] at hfinished
        cases hfinished
      · rename_i heq
        rw [heq] at hfinished
        cases hfinished
      · exact ⟨rfl, rfl⟩
    | compensationResolved answer =>
      simp only [deliver, onCompensationResolved]
      split
      · rename_i heq
        rw [heq] at hfinished
        cases hfinished
      · exact ⟨rfl, rfl⟩
    | compensationAnswered answer =>
      simp only [deliver, onCompensationAnswered]
      split
      · rename_i heq
        rw [heq] at hfinished
        cases hfinished
      · exact ⟨rfl, rfl⟩
    | timeout | abort =>
      simp only [deliver, abortRun]
      split <;> exact ⟨rfl, rfl⟩
    | cancel => exact ⟨rfl, rfl⟩
  rw [hstep]
  refine ⟨hphase, fun id => by rw [hkept.1, hidle id], ?_⟩
  simp only [Run.meaning, hphase, hkept.2, hcompensations]

theorem Ended.step {s' : Run} {task' : TaskFrame} (h : Ended s s') (e : Event) :
    Ended (step env task s e) (step env task' s' e) := by
  obtain ⟨hphase, hidle, hmeaning⟩ := step_ended env task h.finished h.idle e
  obtain ⟨hphase', hidle', hmeaning'⟩ := step_ended env task' h.finished' h.idle' e
  exact ⟨hphase ▸ h.finished, hphase' ▸ h.finished', hidle, hidle', hmeaning'.trans (h.meaning.trans hmeaning.symm)⟩

theorem meaning_reframe (f : TaskFrame) : (s.reframe f).meaning = s.meaning := rfl

/-- The policy that is written for a task without one. -/
def bestEffort : Option String := some "best_effort"

theorem failRun_without (hpolicy : task.compensationPolicy = none) (message : String) : failRun env task s message =
    finalize env task s none .failed (some ⟨nopSyncDependencyFailed, message⟩) none := by
  unfold failRun
  rw [hpolicy]
  rfl

theorem failRun_bestEffort (f : TaskFrame) (message : String) :
    failRun env (task.under bestEffort) (s.reframe f) message =
      compensateNext env (task.under bestEffort) (.onFailure message)
        ((completedReversed task s).filter (hasCompensation task.dag)).length (s.reframe f) 0 []
        ((completedReversed task s).filter (hasCompensation task.dag)) := rfl

/-- **Where no compensation can be called**, a task is given up in the same way under both policies. -/
theorem ended_of_givesUp (hpolicy : task.compensationPolicy = none) (hidle : ∀ id, s.inFlight.get id = none)
    (hnone : ¬ Compensates task s) (f : TaskFrame) (message : String) :
    Ended (failRun env task s message) (failRun env (task.under bestEffort) (s.reframe f) message) := by
  rw [failRun_without hpolicy, failRun_bestEffort]
  obtain ⟨ids, failed, heq⟩ := @compensateNext_passes env (task.under bestEffort) (s.reframe f)
    (.onFailure message) ((completedReversed task s).filter (hasCompensation task.dag)).length 0 []
    ((completedReversed task s).filter (hasCompensation task.dag)) (by
      intro id hid node hget
      obtain ⟨hcompleted, hhas⟩ := List.mem_filter.1 hid
      cases hparams : resolveParams (compensationNode node (node.compensateAction.getD "")) s.nodeResults with
      | error e => exact ⟨e, hparams⟩
      | ok params =>
        refine absurd ⟨id, hcompleted, ?_⟩ hnone
        have hget' : (allNodes task.dag).get id = some node := hget
        rw [hasCompensation, hget'] at hhas
        rw [compensable, hget']
        dsimp only at hhas ⊢
        rw [hhas, hparams]
        rfl)
  rw [heq]
  exact ⟨rfl, rfl, hidle, hidle, rfl⟩

/-- **Where a compensation can be called**, it is only called under the policy that is written. -/
theorem differs_of_givesUp (hpolicy : task.compensationPolicy = none) (hsome : Compensates task s) (f : TaskFrame)
    (message : String) : (failRun env task s message).meaning ≠
      (failRun env (task.under bestEffort) (s.reframe f) message).meaning := by
  rw [failRun_without hpolicy, failRun_bestEffort]
  obtain ⟨id, hid, hcompensable⟩ := hsome
  have hhas : hasCompensation task.dag id = true := by
    unfold compensable at hcompensable
    unfold hasCompensation
    cases hget : (allNodes task.dag).get id with
    | none =>
      rw [hget] at hcompensable
      cases hcompensable
    | some node =>
      rw [hget] at hcompensable
      exact (Bool.and_eq_true_iff.1 hcompensable).1
  obtain ⟨c, hc⟩ := @compensateNext_calls env (task.under bestEffort) (s.reframe f)
    (.onFailure message) ((completedReversed task s).filter (hasCompensation task.dag)).length 0 [] _
    ⟨id, List.mem_filter.2 ⟨hid, hhas⟩, hcompensable⟩
  intro heq
  have hresult := congrArg Meaning.result heq
  unfold Run.meaning at hresult
  dsimp only at hresult
  rw [hc] at hresult
  cases hresult

end outcome

/-! ### Two runs -/

section runs

variable {env : Env} {task : TaskFrame} {store : JsMap String NopTaskRecord} {signalAborted : Bool}

/-- The checks of `execute` do not look at the policy. -/
theorem execute_under (p : Option String) : execute env (task.under p) store signalAborted =
    (execute env task store signalAborted).map (Run.reframe (task.under p)) := by
  have hdepth : (task.under p).delegateDepth = task.delegateDepth := rfl
  unfold execute
  rw [hdepth, show (task.under p).callbackUrl = task.callbackUrl from rfl, show (task.under p).dag = task.dag from rfl,
    show (task.under p).taskId = task.taskId from rfl]
  split
  · rfl
  · split
    · rfl
    · split
      · rfl
      · split <;> rfl

theorem sameMeaning_iff {p : Option String} {s₀ : Run} (h : execute env task store signalAborted = .ok s₀)
    (events : List Event) : SameMeaning env task (task.under p) store signalAborted events ↔
      (runFrom env task s₀ events).meaning =
        (runFrom env (task.under p) (s₀.reframe (task.under p)) events).meaning := by
  unfold SameMeaning
  rw [execute_under, h]
  rfl

theorem sameMeaning_refused {p : Option String} {result : NopTaskResult}
    (h : execute env task store signalAborted = .error result) (events : List Event) :
    SameMeaning env task (task.under p) store signalAborted events := by
  unfold SameMeaning
  rw [execute_under, h]
  rfl

theorem sameMeaning_of_policy (events : List Event) :
    SameMeaning env task (task.under task.compensationPolicy) store signalAborted events := by
  cases h : execute env task store signalAborted with
  | error result => exact sameMeaning_refused h events
  | ok s₀ =>
    have hfollows : ∀ {up : Option Run} {s s' : Run},
        Follows env task task.compensationPolicy (task.under task.compensationPolicy) up s s' →
          s' = s.reframe (task.under task.compensationPolicy) := by
      intro up s s' hf
      cases hf with
      | same _ same => exact same
      | givesUp s₁ message _ here there => rw [there, here, failRun_under rfl rfl]
    have hrun : runFrom env (task.under task.compensationPolicy) (s₀.reframe (task.under task.compensationPolicy)) events =
        (runFrom env task s₀ events).reframe (task.under task.compensationPolicy) := by
      induction events using List.reverseRecOn with
      | nil => exact hfollows (advance_follows rfl rfl)
      | append_singleton events e ih =>
        unfold runFrom at ih ⊢
        rw [run_snoc, run_snoc, ih]
        exact hfollows (step_follows rfl rfl e)
    rw [sameMeaning_iff h, hrun, meaning_reframe]

/-- How the run of a task without a policy and the run under the policy that is written stand to each other. -/
inductive Related (task : TaskFrame) (s s' : Run) : Prop
  | same (same : s' = s.reframe (task.under bestEffort))
  | ended (ended : Ended s s')

variable {s s' : Run}

theorem Related.meaning (h : Related task s s') : s.meaning = s'.meaning := by
  cases h with
  | same same => rw [same, meaning_reframe]
  | ended ended => exact ended.meaning.symm

def NothingToCall (env : Env) (task : TaskFrame) (s : Run) (e : Event) : Prop :=
  ∀ s₁, givesUp env task s e = some s₁ → ¬ Compensates task s₁

theorem related_of_follows (hpolicy : task.compensationPolicy = none) {up : Option Run}
    (h : Follows env task bestEffort (task.under bestEffort) up s s')
    (hup : ∀ s₁, up = some s₁ → (∀ id, s₁.inFlight.get id = none) ∧ ¬ Compensates task s₁) : Related task s s' := by
  cases h with
  | same _ same => exact .same same
  | givesUp s₁ message up here there =>
    obtain ⟨hidle, hnone⟩ := hup s₁ up
    rw [here, there]
    exact .ended (ended_of_givesUp hpolicy hidle hnone _ message)

theorem related_start (hpolicy : task.compensationPolicy = none) {s₀ : Run}
    (h : execute env task store signalAborted = .ok s₀) :
    Related task (runFrom env task s₀ []) (runFrom env (task.under bestEffort) (s₀.reframe (task.under bestEffort)) []) := by
  obtain ⟨hwell, hrunning⟩ := execute_accounted h
  obtain ⟨v, -, hs₀⟩ := execute_ok h
  have hapart : Apart s₀ := by
    intro id hid
    rw [hs₀]
    rfl
  refine related_of_follows hpolicy (advance_follows (by rw [hpolicy]; rfl) (by rw [hpolicy]; rfl)) fun s₁ hup =>
    ⟨idle_of_givesUpAtHead hwell.ids_nodup hrunning hapart hup, ?_⟩
  rintro ⟨id, hid, -⟩
  have hcompleted : s₁.nodeStates.get id = some .completed := by
    have hmem := (List.mem_filter.1 (List.mem_reverse.1 hid)).2
    simp only [Bool.and_eq_true, beq_iff_eq] at hmem
    exact hmem.1
  have hnone : s₀.nodeStates.get id = none := by
    rw [hs₀]
    rfl
  unfold givesUpAtHead at hup
  split at hup
  · split at hup
    · split at hup
      · cases hup
        rw [schedule_states hwell.ids_nodup, hnone] at hcompleted
        split_ifs at hcompleted
        cases hcompleted
      · cases hup
    · split at hup
      · cases hup
        rw [hnone] at hcompleted
        cases hcompleted
      · cases hup
  · cases hup

theorem related_step (hpolicy : task.compensationPolicy = none) (hn : task.dag.ids.Nodup)
    (h : Related task s s') (hongoing : Ongoing env task s) {e : Event} (hnothing : NothingToCall env task s e) :
    Related task (step env task s e) (step env (task.under bestEffort) s' e) := by
  cases h with
  | same same =>
    rw [same]
    exact related_of_follows hpolicy (step_follows (by rw [hpolicy]; rfl) (by rw [hpolicy]; rfl) e) fun s₁ hup =>
      ⟨hongoing.idle hn hup, hnothing s₁ hup⟩
  | ended ended => exact .ended (ended.step e)

/-- **In a run that gives the task up only where no compensation can be called**, both runs are the same. -/
theorem related_along (hpolicy : task.compensationPolicy = none) {s₀ : Run}
    (h : execute env task store signalAborted = .ok s₀) {events : List Event}
    (hnothing : Along (step env task) (NothingToCall env task) (advance env task s₀) events) :
    Related task (runFrom env task s₀ events)
      (runFrom env (task.under bestEffort) (s₀.reframe (task.under bestEffort)) events) := by
  obtain ⟨hwell, -⟩ := execute_accounted h
  induction events using List.reverseRecOn with
  | nil => exact related_start hpolicy h
  | append_singleton events e ih =>
    obtain ⟨hevents, he⟩ := along_snoc.1 hnothing
    have hongoing := ongoing_runFrom h events
    unfold runFrom at ih hongoing ⊢
    rw [run_snoc, run_snoc]
    exact related_step hpolicy hwell.ids_nodup (ih hevents) hongoing he

theorem differs_of_step (hpolicy : task.compensationPolicy = none) (h : Related task s s') {e : Event}
    {s₁ : Run} (hup : givesUp env task s e = some s₁) (hsome : Compensates task s₁) :
    s.phase.isFinished = true ∨ (step env task s e).meaning ≠ (step env (task.under bestEffort) s' e).meaning := by
  cases h with
  | ended ended => exact .inl ended.finished
  | same same =>
    right
    rw [same]
    have hfollows := @step_follows env task bestEffort (task.under bestEffort) s
      (by rw [hpolicy]; rfl) (by rw [hpolicy]; rfl) e
    cases hfollows with
    | same goesOn =>
      rw [hup] at goesOn
      cases goesOn
    | givesUp s₂ message up here there =>
      rw [hup, Option.some.injEq] at up
      subst up
      rw [here, there]
      exact differs_of_givesUp hpolicy hsome _ message

theorem givesUp_finished {s : Run} (h : s.phase.isFinished = true) (e : Event) : givesUp env task s e = none := by
  cases hup : givesUp env task s e with
  | none => rfl
  | some s₁ =>
    exfalso
    unfold givesUp at hup
    split at hup
    · rename_i heq
      rw [heq] at h
      cases h
    · have hlooping := looping_of_givesUpAtHead hup
      rw [(deliver_finished h _).1] at hlooping
      rw [hlooping] at h
      cases h

end runs

/-- **Sending a task.**  However the workers answer, a task means the same once it is sent exactly if it names its
compensation policy, or it is never given up where a node has completed whose compensation can be called. -/
theorem sent_means_same_iff (env : Env) (task : SentTaskFrame) (store : JsMap String NopTaskRecord)
    (signalAborted : Bool) (events : List Event) :
    (∀ before, before <+: events → MeansTheSame env task store signalAborted before) ↔
      task.compensationPolicy.isSome = true ∨ ∀ s₀, execute env task.toTaskFrame store signalAborted = .ok s₀ →
        Along (step env task.toTaskFrame) (NothingToCall env task.toTaskFrame) (advance env task.toTaskFrame s₀) events := by
  have hmeans : ∀ before, MeansTheSame env task store signalAborted before ↔
      SameMeaning env task.toTaskFrame (task.toTaskFrame.under task.sentPolicy) store signalAborted before := by
    intro before
    unfold MeansTheSame
    rw [SentTaskFrame.fromDict_toDict]
    simp
  simp only [hmeans]
  cases hpolicy : task.compensationPolicy with
  | some policy =>
    have hsent : task.sentPolicy = task.compensationPolicy := by rw [TaskFrame.sentPolicy, hpolicy]; rfl
    rw [hsent]
    exact iff_of_true (fun before _ => sameMeaning_of_policy before) (.inl rfl)
  | none =>
    have hsent : task.sentPolicy = bestEffort := by rw [TaskFrame.sentPolicy, hpolicy]; rfl
    rw [hsent]
    simp only [Option.isSome_none, Bool.false_eq_true, false_or]
    constructor
    · intro hsame s₀ hs₀
      induction events using List.reverseRecOn with
      | nil => exact along_nil
      | append_singleton events e ih =>
        have hevents := ih fun before hbefore => hsame before (hbefore.trans (List.prefix_append _ _))
        refine along_snoc.2 ⟨hevents, fun s₁ hup hsome => ?_⟩
        have hrelated := related_along hpolicy hs₀ hevents
        rcases differs_of_step hpolicy hrelated hup hsome with hfinished | hdiffers
        · rw [show givesUp env task.toTaskFrame (run (step env task.toTaskFrame) (advance env task.toTaskFrame s₀) events) e
            = none from givesUp_finished hfinished e] at hup
          cases hup
        · have hlast := (sameMeaning_iff hs₀ _).1 (hsame (events ++ [e]) List.prefix_rfl)
          unfold runFrom at hlast hdiffers
          rw [run_snoc, run_snoc] at hlast
          exact hdiffers hlast
    · rintro halong before ⟨after, rfl⟩
      cases hs₀ : execute env task.toTaskFrame store signalAborted with
      | error result => exact sameMeaning_refused hs₀ before
      | ok s₀ =>
        have hbefore : Along (step env task.toTaskFrame) (NothingToCall env task.toTaskFrame)
            (advance env task.toTaskFrame s₀) before :=
          fun pre e post heq => halong s₀ hs₀ pre e (post ++ after) (by simp [heq])
        rw [sameMeaning_iff hs₀]
        exact (related_along hpolicy hs₀ hbefore).meaning

def unspokenTask : SentTaskFrame := { pairTask with compensationPolicy := none }

/-- `A` completes and `B` fails: `A` is compensated only if the task was sent. -/
theorem unspoken_compensated_once_sent : ¬ MeansTheSame plainEnv unspokenTask JsMap.empty false pairEvents := by
  rintro ⟨task', hread, hsame⟩
  rw [SentTaskFrame.fromDict_toDict] at hread
  cases hread
  have hexecute : execute plainEnv unspokenTask.toTaskFrame JsMap.empty false =
      .ok (initialRun plainEnv unspokenTask.toTaskFrame ⟨["A", "B"], ["A"], ["B"]⟩ false) := rfl
  rw [sameMeaning_iff hexecute] at hsame
  have hcompensations := congrArg (fun m => m.compensations.length) hsame
  revert hcompensations
  decide

end NpsSdk.Nop
