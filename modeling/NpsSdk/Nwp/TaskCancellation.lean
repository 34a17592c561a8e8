import NpsSdk.Nwp.ActionOnce
import NpsSdk.Nwp.TerminalTasks

/-!
# Cancelled tasks

The server again, with the end of a task drawn out: the race of its execution is decided, then
`executeWithTimeout` goes on and looks at the signal, and then `runAsyncTask` goes on and writes the record.  A
request to cancel, like anything else, may be handled in between.
-/

namespace NpsSdk.Nwp.ActionNode

open NpsSdk.Lib

/-! ### The machine -/

section

variable {V : Type}

/-- How far the execution of a task has come. -/
inductive TaskStage (V : Type)
  | racing
  /-- `Promise.race` is decided. -/
  | raced (outcome : Except Thrown (ActionExecutionResult V))
  /-- `executeWithTimeout` has ended. -/
  | returned (outcome : Except Thrown (ActionExecutionResult V))
  | resumed

structure TaskServer (V : Type) where
  app : ActionNodeApp V := {}
  /-- The stage of the task of a call. -/
  stage : ℕ → TaskStage V := fun _ => .racing

inductive TaskEvent (V : Type)
  | server (e : Event V)
  /-- `executeWithTimeout` goes on. -/
  | returns (call : ℕ)
  /-- `runAsyncTask` goes on. -/
  | resumes (amb : Ambient) (call : ℕ)
  /-- The provider, or the operator, calls the store. -/
  | updateProgress (now : ℚ) (taskId : String) (progress : JsDouble)
  | purgeExpired (retentionMs now : ℚ)

/-- A call that runs as a task: its task, and whether its controller is aborted. -/
def runningAt (s : ActionNodeApp V) (i : ℕ) : Option (Call V × String × Bool) :=
  match s.calls[i]? with
  | none => none
  | some c =>
    match c.phase with
    | .running taskId aborted => some (c, taskId, aborted)
    | _ => none

def decided (aborted : Bool) : Settled V → Option (Except Thrown (ActionExecutionResult V))
  | .resolved result => some (.ok result)
  | .rejected thrown => some (.error thrown)
  | .cancelled => if aborted then some (.error (.error "action execution cancelled")) else none

/-- `executeWithTimeout` after the race. -/
def returnedOf (aborted : Bool) : Except Thrown (ActionExecutionResult V) → Except Thrown (ActionExecutionResult V)
  | .ok result => if aborted then .error (.error "action execution cancelled") else .ok result
  | .error thrown => .error thrown

variable (options : ActionNodeOptions) (host : Host V)

def taskStep (s : TaskServer V) : TaskEvent V → TaskServer V
  | .server e =>
    match e, e.call?.bind (runningAt s.app) with
    | .settled _ i outcome, some (_, _, aborted) =>
      match s.stage i, decided aborted outcome with
      | .racing, some result => { s with stage := Function.update s.stage i (.raced result) }
      | _, _ => s
    | .timeout i, some _ =>
      match s.stage i with
      | .returned _ => s -- the timer is cleared
      | _ => { s with app := appStep options host s.app e }
    | _, _ => { s with app := appStep options host s.app e }
  | .returns i =>
    match runningAt s.app i, s.stage i with
    | some (_, _, aborted), .raced result =>
      { s with stage := Function.update s.stage i (.returned (returnedOf aborted result)) }
    | _, _ => s
  | .resumes amb i =>
    match runningAt s.app i, s.stage i with
    | some (c, taskId, aborted), .returned result =>
      { app := { settleTask amb s.app i c taskId aborted result with now := amb.clock s.app.now 4 }
        stage := Function.update s.stage i .resumed }
    | _, _ => s
  | .updateProgress now taskId progress =>
    { s with app := { s.app with taskStore := (s.app.taskStore.updateProgress now taskId progress).2 } }
  | .purgeExpired retentionMs now =>
    { s with app := { s.app with taskStore := (s.app.taskStore.purgeExpired retentionMs now).2 } }

def taskServerAfter (es : List (TaskEvent V)) : TaskServer V := run (taskStep options host) {} es

/-! ### What the callers see -/

/-- What an answer tells of a task. -/
structure Sighting (V : Type) where
  taskId : String
  status : ActionTaskStatus
  result : Option V
  error : Option ActionTaskError

def ActionAnswer.sighting : ActionAnswer V → Option (Sighting V)
  | .task taskId status .. => some ⟨taskId, status, none, none⟩
  | .taskStatus rec _ => some ⟨rec.taskId, rec.status, rec.result, rec.error⟩
  | .taskCancelled taskId _ => some ⟨taskId, .cancelled, none, none⟩
  | _ => none

def answerOf (s : TaskServer V) : TaskEvent V → Option (ActionAnswer V)
  | .server (.request amb r) =>
    ((handleRequest options host amb s.app r).immediate.drop s.app.immediate.length).head?.map Prod.snd
  | .server e =>
    e.call?.bind fun i =>
      match s.app.calls[i]?.bind Call.answer with
      | some _ => none
      | none => (taskStep options host s (.server e)).app.calls[i]?.bind Call.answer
  | _ => none

/-- What the answers in a run from `s` tell of the tasks, in their order. -/
def sightings (s : TaskServer V) (es : List (TaskEvent V)) : List (Sighting V) :=
  noted (fun seen s e => seen ++ ((answerOf options host s e).bind ActionAnswer.sighting).toList)
    (taskStep options host) [] s es

/-- The statuses of a task that are seen in a run from `s`. -/
def statuses (s : TaskServer V) (es : List (TaskEvent V)) (taskId : String) : List ActionTaskStatus :=
  ((sightings options host s es).filter fun x => x.taskId = taskId).map Sighting.status

def Unpurged (taskId : String) (s : TaskServer V) (e : TaskEvent V) : Prop :=
  JsMap.has s.app.taskStore taskId = true → JsMap.has (taskStep options host s e).app.taskStore taskId = true

/-- Pending, then running, then one terminal status; each may be seen any number of times, also never. -/
def Progresses (seen : List ActionTaskStatus) : Prop :=
  ∃ p r n t, t.terminal = true ∧
    seen = List.replicate p .pending ++ List.replicate r .running ++ List.replicate n t

/-- **Cancellation wins**, in a run: what is seen of a task is in order, and what is seen of it once a request to
cancel it has succeeded is that it is cancelled, without a result or an error.  This is up to a purge of the
task. -/
structure CancellationWins (es : List (TaskEvent V)) : Prop where
  ordered : ∀ pre mid post taskId, es = pre ++ mid ++ post →
    Along (taskStep options host) (Unpurged options host taskId) (taskServerAfter options host pre) mid →
      Progresses (statuses options host (taskServerAfter options host pre) mid taskId)
  final : ∀ pre e mid post taskId requestId, es = pre ++ e :: mid ++ post →
    answerOf options host (taskServerAfter options host pre) e = some (.taskCancelled taskId requestId) →
      Along (taskStep options host) (Unpurged options host taskId) (taskServerAfter options host (pre ++ [e])) mid →
        ∀ x ∈ sightings options host (taskServerAfter options host (pre ++ [e])) mid, x.taskId = taskId →
          x.status = .cancelled ∧ x.result = none ∧ x.error = none

end

/-! ### The store -/

section

variable {V : Type} {tasks : ActionTasks V} {rec rec' : ActionTaskRecord V} {c : TaskCall V ActionTaskError} {taskId : String}

/-- The calls of the store that a server makes between two purges. -/
def Orderly : TaskCall V ActionTaskError → Prop
  | .tryTransition _ _ expected next => expected = .pending ∧ next = .running
  | .purgeExpired .. => False
  | _ => True

/-- A record that the server may have come to. -/
structure Fits (taskId : String) (rec : ActionTaskRecord V) : Prop where
  taskId : rec.taskId = taskId
  status : rec.status = .pending ∨ rec.status = .running ∨ rec.status.terminal = true
  result : rec.status ≠ .completed → rec.result = none
  error : rec.status ≠ .failed → rec.error = none

/-- What an orderly call makes of a record. -/
inductive Goes (rec rec' : ActionTaskRecord V) : Prop
  | stays (taskId : rec'.taskId = rec.taskId) (status : rec'.status = rec.status) (result : rec'.result = rec.result)
      (error : rec'.error = rec.error)
  | starts (taskId : rec'.taskId = rec.taskId) (pending : rec.status = .pending) (running : rec'.status = .running)
      (result : rec'.result = rec.result) (error : rec'.error = rec.error)
  | ends (taskId : rec'.taskId = rec.taskId) (open_ : rec.status.terminal = false) (ended : rec'.status.terminal = true)
      (result : rec'.status ≠ .completed → rec'.result = rec.result)
      (error : rec'.status ≠ .failed → rec'.error = rec.error)

inductive OrderlyEffect (tasks tasks' : ActionTasks V) (taskId : String) : Prop
  | same (kept : tasks'.get taskId = tasks.get taskId)
  | created (rec : ActionTaskRecord V) (absent : tasks.get taskId = none) (now : tasks'.get taskId = some rec)
      (fits : Fits taskId rec) (pending : rec.status = .pending)
  | goes (rec rec' : ActionTaskRecord V) (before : tasks.get taskId = some rec) (now : tasks'.get taskId = some rec')
      (goes : Goes rec rec')

theorem orderlyEffect_set {id : String} (hget : tasks.get id = some rec) (hgoes : Goes rec rec') :
    OrderlyEffect tasks (tasks.set id rec') taskId := by
  by_cases hid : taskId = id
  · subst hid
    exact .goes rec rec' hget (JsMap.get_set_self ..) hgoes
  · exact .same (JsMap.get_set_ne _ _ hid)

theorem orderlyEffect_settle {now : ℚ} {id : String} {update : ActionTaskRecord V → ActionTaskRecord V}
    (hgoes : ∀ rec, rec.status.terminal = false → Goes rec { update rec with updatedAt := now }) :
    OrderlyEffect tasks (tasks.settle now id update).2 taskId := by
  unfold ActionTasks.settle
  cases hget : tasks.get id with
  | none => exact .same rfl
  | some rec =>
    dsimp only
    split
    · exact .same rfl
    · rename_i hopen
      exact orderlyEffect_set hget (hgoes rec (by simpa using hopen))

variable (tasks taskId) in
theorem orderlyEffect (hc : Orderly c) : OrderlyEffect tasks (tasks.step c) taskId := by
  cases c with
  | create now id actionId requestId agentNid =>
    unfold ActionTasks.step ActionTasks.create
    dsimp only
    split
    · exact .same rfl
    · rename_i hhas
      rw [Option.getD_some]
      by_cases hid : taskId = id
      · subst hid
        have habsent : tasks.get taskId = none := by simpa [JsMap.has] using hhas
        exact .created _ habsent (JsMap.get_set_self ..) ⟨rfl, .inl rfl, fun _ => rfl, fun _ => rfl⟩ rfl
      · exact .same (JsMap.get_set_ne _ _ hid)
  | tryTransition now id expected next =>
    obtain ⟨rfl, rfl⟩ := hc
    unfold ActionTasks.step ActionTasks.tryTransition
    dsimp only
    cases hget : tasks.get id with
    | none => exact .same rfl
    | some rec =>
      dsimp only
      split
      · exact .same rfl
      · rename_i hpending
        exact orderlyEffect_set hget (.starts rfl (not_not.1 hpending) rfl rfl rfl)
  | complete now id result =>
    exact orderlyEffect_settle fun rec hopen => .ends rfl hopen rfl (fun h => absurd rfl h) fun _ => rfl
  | fail now id error =>
    exact orderlyEffect_settle fun rec hopen => .ends rfl hopen rfl (fun _ => rfl) fun h => absurd rfl h
  | cancel now id => exact orderlyEffect_settle fun rec hopen => .ends rfl hopen rfl (fun _ => rfl) fun _ => rfl
  | updateProgress now id progress =>
    unfold ActionTasks.step ActionTasks.updateProgress
    dsimp only
    cases hget : tasks.get id with
    | none => exact .same rfl
    | some rec => exact orderlyEffect_set hget (.stays rfl rfl rfl rfl)
  | purgeExpired => exact hc.elim

theorem Fits.goes (h : Fits taskId rec) (hgoes : Goes rec rec') : Fits taskId rec' := by
  cases hgoes with
  | stays hid hstatus hresult herror =>
    exact ⟨hid.trans h.taskId, hstatus ▸ h.status, fun hne => hresult.trans (h.result (hstatus ▸ hne)),
      fun hne => herror.trans (h.error (hstatus ▸ hne))⟩
  | starts hid hpending hrunning hresult herror =>
    exact ⟨hid.trans h.taskId, .inr (.inl hrunning), fun _ => hresult.trans (h.result (by rw [hpending]; nofun)),
      fun _ => herror.trans (h.error (by rw [hpending]; nofun))⟩
  | ends hid hopen hended hresult herror =>
    have hne : ∀ status : ActionTaskStatus, status.terminal = true → rec.status ≠ status := by
      rintro status hterminal rfl
      rw [hopen] at hterminal
      cases hterminal
    exact ⟨hid.trans h.taskId, .inr (.inr hended), fun h' => (hresult h').trans (h.result (hne _ rfl)),
      fun h' => (herror h').trans (h.error (hne _ rfl))⟩

/-! ### Statuses -/

/-- How far a status is from the first one. -/
def rank (status : ActionTaskStatus) : ℕ :=
  match status with
  | .running => 1
  | .completed | .failed | .cancelled => 2
  | _ => 0

/-- A status that may be seen after another. -/
def Onward (a b : ActionTaskStatus) : Prop := b = a ∨ rank a < rank b

theorem Onward.refl (a : ActionTaskStatus) : Onward a a := .inl rfl

theorem Onward.trans {a b c : ActionTaskStatus} (hab : Onward a b) (hbc : Onward b c) : Onward a c := by
  rcases hab with rfl | hab
  · exact hbc
  · rcases hbc with rfl | hbc
    · exact .inr hab
    · exact .inr (hab.trans hbc)

theorem rank_le (a : ActionTaskStatus) : rank a ≤ 2 := by cases a <;> simp [rank]

theorem rank_of_terminal {a : ActionTaskStatus} (h : a.terminal = true) : rank a = 2 := by
  cases a <;> simp_all [rank, ActionTaskStatus.terminal]

theorem Onward.of_terminal {a b : ActionTaskStatus} (h : Onward a b) (ha : a.terminal = true) : b = a := by
  rcases h with rfl | h
  · rfl
  · rw [rank_of_terminal ha] at h
    have hle := rank_le b
    omega

theorem Goes.onward (h : Goes rec rec') : Onward rec.status rec'.status := by
  cases h with
  | stays _ status => exact .inl status
  | starts _ pending running => exact .inr (by rw [pending, running]; decide)
  | ends _ open_ ended =>
    refine .inr ?_
    rw [rank_of_terminal ended]
    cases hstatus : rec.status with
    | pending | running | other => simp [rank]
    | completed | failed | cancelled =>
      rw [hstatus] at open_
      cases open_

theorem progresses_of_pairwise {seen : List ActionTaskStatus} (h : seen.Pairwise Onward)
    (hnamed : ∀ a ∈ seen, a = .pending ∨ a = .running ∨ a.terminal = true) : Progresses seen := by
  induction seen with
  | nil => exact ⟨0, 0, 0, .completed, rfl, rfl⟩
  | cons a seen ih =>
    obtain ⟨hhead, htail⟩ := List.pairwise_cons.1 h
    obtain ⟨p, r, n, t, hterminal, rfl⟩ := ih htail fun b hb => hnamed b (List.mem_cons_of_mem a hb)
    rcases hnamed a List.mem_cons_self with rfl | rfl | ha
    · exact ⟨p + 1, r, n, t, hterminal, by simp [List.replicate_succ]⟩
    · have hp : p = 0 := by
        by_contra hp
        have hback := hhead .pending (by simp [hp])
        rcases hback with hback | hback
        · cases hback
        · simp [rank] at hback
      subst hp
      exact ⟨0, r + 1, n, t, hterminal, by simp [List.replicate_succ]⟩
    · have hsame : ∀ b ∈ List.replicate p .pending ++ List.replicate r .running ++ List.replicate n t, b = a :=
        fun b hb => (hhead b hb).of_terminal ha
      refine ⟨0, 0, p + r + n + 1, a, ha, ?_⟩
      rw [List.eq_replicate_of_mem hsame]
      simp [List.replicate_succ]
      omega

end

/-! ### What the server calls -/

section

variable {V : Type} {options : ActionNodeOptions} {host : Host V} {amb : Ambient} {s s' : ActionNodeApp V} {i : ℕ}
  {c : Call V}

def Stores (s s' : ActionNodeApp V) : Prop :=
  ∃ calls, s'.taskStore = run ActionTasks.step s.taskStore calls ∧ ∀ c ∈ calls, Orderly c

theorem Stores.same (h : s'.taskStore = s.taskStore) : Stores s s' := ⟨[], h, by simp⟩

theorem Stores.one {c : TaskCall V ActionTaskError} (hc : Orderly c) (h : s'.taskStore = s.taskStore.step c) :
    Stores s s' := ⟨[c], h, by simpa using hc⟩

theorem startTask_stores : Stores s (startTask options host amb s i c) := by
  unfold startTask
  dsimp only
  split
  · exact .same rfl
  · rename_i tasks hcreate
    have hstep : tasks = s.taskStore.step
        (.create (amb.clock s.now 1) amb.uuid.text c.frame.actionId c.context.requestId c.context.agentNid) := by
      rw [ActionTasks.step, hcreate, Option.getD_some]
    have hcalls : ∀ tasks' b, tasks.tryTransition (amb.clock s.now 4) amb.uuid.text .pending .running = (b, tasks') →
        tasks' = run ActionTasks.step s.taskStore
          [.create (amb.clock s.now 1) amb.uuid.text c.frame.actionId c.context.requestId c.context.agentNid,
            .tryTransition (amb.clock s.now 4) amb.uuid.text .pending .running] := by
      intro tasks' b htry
      rw [run_cons, run_cons, run_nil, ← hstep, ActionTasks.step, htry]
    split
    · rename_i tasks' htry
      exact ⟨_, hcalls _ _ htry, by simp [Orderly]⟩
    · rename_i tasks' htry
      exact ⟨_, hcalls _ _ htry, by simp [Orderly]⟩

theorem lookup_stores : Stores s (lookup options host amb s i c) := by
  unfold lookup
  dsimp only
  split
  · split
    · exact startTask_stores
    · exact .same rfl
  · split
    · exact .same rfl
    · split
      · exact startTask_stores (s := { s with idempotency := _ })
      · exact .same rfl

theorem settleTask_stores {taskId : String} {aborted : Bool} (result : Except Thrown (ActionExecutionResult V)) :
    Stores s (settleTask amb s i c taskId aborted result) := by
  cases result with
  | ok result => exact .one (c := .complete (amb.clock s.now 0) taskId result.result) trivial rfl
  | error thrown =>
    unfold settleTask
    dsimp only
    split
    · exact .same rfl
    · exact .one (c := .fail (amb.clock s.now 0) taskId _) trivial rfl

theorem settleExecution_stores {aborted : Bool} (result : Except Thrown (ActionExecutionResult V)) :
    (settleExecution options host amb s i c aborted result).taskStore = s.taskStore := by
  cases result with
  | error thrown => rfl
  | ok result =>
    unfold settleExecution
    dsimp only
    split <;> rfl

theorem pumpCall_stores (st : StreamRun V) (item : StreamItem V) :
    (pumpCall options host amb s i c st item).taskStore = s.taskStore := by
  unfold pumpCall
  dsimp only
  split <;> rfl

theorem callStep_stores (e : Event V) : Stores s (callStep options host s i c e) := by
  cases e with
  | request => exact .same rfl
  | authorized amb j answer =>
    unfold callStep
    dsimp only
    split
    · exact .same rfl
    · split
      · exact .same rfl
      · exact lookup_stores
  | timeout j =>
    unfold callStep
    dsimp only
    split
    · exact .same rfl
    · exact .same rfl
    · split <;> exact .same rfl
    · exact .same rfl
  | settled amb j outcome =>
    unfold callStep
    dsimp only
    split
    · split
      · exact .same (settleExecution_stores _)
      · exact .same rfl
    · split
      · exact settleTask_stores _
      · exact .same rfl
    · exact .same rfl
  | pulled amb j item =>
    unfold callStep
    dsimp only
    split
    · exact .same (pumpCall_stores ..)
    · exact .same rfl
  | readerCancelled j =>
    unfold callStep
    dsimp only
    split <;> exact .same rfl
  | requestAborted j =>
    unfold callStep
    dsimp only
    split
    · split <;> exact .same rfl
    · exact .same rfl

theorem handleRequest_stores (r : InvokeRequest) : Stores s (handleRequest options host amb s r) := by
  unfold handleRequest
  dsimp only
  split
  · exact .same rfl
  · split
    · exact .same rfl
    · split
      · exact .same rfl
      · split
        · unfold handleSystemTaskCancel
          split
          · exact .same rfl
          · rename_i taskId rec _
            split
            · exact .same rfl
            · exact .one (c := .cancel (amb.clock s.now 0) taskId) trivial rfl
        · split <;> exact .same rfl

theorem appStep_stores (e : Event V) : Stores s (appStep options host s e) := by
  have hcall : ∀ (j : ℕ), Stores s
      (match s.calls[j]? with
        | none => s
        | some c => callStep options host s j c e) := by
    intro j
    split
    · exact .same rfl
    · exact callStep_stores e
  cases e with
  | request amb r => exact handleRequest_stores r
  | authorized | timeout | settled | pulled | readerCancelled | requestAborted => exact hcall _

/-! ### What an answer tells -/

/-- What is seen of a task in an event that takes the store from `tasks` to `tasks'`. -/
inductive Seen (tasks tasks' : ActionTasks V) (x : Sighting V) : Prop
  | current (rec : ActionTaskRecord V) (here : tasks.get x.taskId = some rec) (status : x.status = rec.status)
      (outcome : x.result = none ∧ x.error = none ∨ x.result = rec.result ∧ x.error = rec.error)
  | absent (absent : tasks.get x.taskId = none) (status : x.status = .pending) (result : x.result = none)
      (error : x.error = none)
  | cancels (rec rec' : ActionTaskRecord V) (before : tasks.get x.taskId = some rec) (open_ : rec.status.terminal = false)
      (now : tasks'.get x.taskId = some rec') (cancelled : rec'.status = .cancelled) (status : x.status = .cancelled)
      (result : x.result = none) (error : x.error = none)

variable {answer : ActionAnswer V} {x : Sighting V}

theorem thrownResponse_sighting (status : ℕ × String) (message : String) (thrown : Thrown) :
    (thrownResponse status message thrown : ActionAnswer V).sighting = none := by
  cases thrown <;> rfl

theorem capsResponse_sighting (payload : Option V) (anchorRef requestId : Option String) (tokenEst : ℚ) :
    (capsResponse host payload anchorRef requestId tokenEst).sighting = none := by
  unfold capsResponse
  split <;> rfl

theorem ownTask_cases (s : ActionNodeApp V) (frame : ActionFrame) (agentNid : Option String) :
    (∃ answer, ownTask s frame agentNid = .error answer ∧ answer.sighting = none) ∨
      ∃ taskId rec, ownTask s frame agentNid = .ok (taskId, rec) ∧ JsMap.get s.taskStore taskId = some rec := by
  unfold ownTask
  split
  · exact .inl ⟨_, rfl, rfl⟩
  · split
    · exact .inl ⟨_, rfl, rfl⟩
    · rename_i taskId _ _ rec hget
      split
      · exact .inl ⟨_, rfl, rfl⟩
      · exact .inr ⟨taskId, rec, rfl, hget⟩

theorem accept_sighting {r : InvokeRequest} {body : InvokeBody} (h : accept options host r body = .error answer) :
    answer.sighting = none := by
  unfold accept at h
  dsimp only at h
  split at h
  · cases h
    rfl
  · split_ifs at h
    · cases h
      rfl
    · cases h
      rfl
    · split at h
      · cases h
        rfl
      · cases h

theorem handleSystemTaskStatus_seen {frame : ActionFrame} {requestId agentNid : Option String}
    (hfits : ∀ id rec, s.taskStore.get id = some rec → Fits id rec)
    (hx : (handleSystemTaskStatus host s frame requestId agentNid).sighting = some x) (tasks : ActionTasks V) :
    Seen s.taskStore tasks x := by
  unfold handleSystemTaskStatus at hx
  rcases ownTask_cases s frame agentNid with ⟨answer, hown, hsighting⟩ | ⟨taskId, rec, hown, hget⟩
  · rw [hown] at hx
    dsimp only at hx
    rw [hsighting] at hx
    cases hx
  · rw [hown] at hx
    dsimp only at hx
    split at hx
    · cases hx
      have htaskId : rec.taskId = taskId := (hfits taskId rec hget).taskId
      exact .current rec (by rw [← hget, ← htaskId]) rfl (.inr ⟨rfl, rfl⟩)
    · cases hx

theorem handleSystemTaskCancel_seen {frame : ActionFrame} {requestId agentNid : Option String}
    (hx : (handleSystemTaskCancel amb s frame requestId agentNid).1.sighting = some x) :
    Seen s.taskStore (handleSystemTaskCancel amb s frame requestId agentNid).2.taskStore x := by
  unfold handleSystemTaskCancel at hx ⊢
  rcases ownTask_cases s frame agentNid with ⟨answer, hown, hsighting⟩ | ⟨taskId, rec, hown, hget⟩
  · rw [hown] at hx
    dsimp only at hx
    rw [hsighting] at hx
    cases hx
  · rw [hown] at hx ⊢
    dsimp only at hx ⊢
    split at hx
    · cases hx
    · rename_i hopen
      cases hx
      rw [if_neg hopen]
      rw [Bool.not_eq_true] at hopen
      refine .cancels rec { rec with status := .cancelled, updatedAt := amb.clock s.now 0 } hget hopen ?_ rfl rfl rfl
        rfl
      simp [ActionTasks.cancel, ActionTasks.settle, hget, hopen]

variable (options host amb s) in
theorem handleRequest_answers (r : InvokeRequest) :
    (handleRequest options host amb s r).immediate = s.immediate ∨
    (∃ answer, answer.sighting = none ∧ (handleRequest options host amb s r).immediate = s.immediate ++ [(r, answer)]) ∨
    (∃ body : InvokeBody, (handleRequest options host amb s r).immediate = s.immediate ++
      [(r, handleSystemTaskStatus host s body.frame body.requestId r.agentNid)]) ∨
    ∃ body : InvokeBody, (handleRequest options host amb s r).immediate = s.immediate ++
        [(r, (handleSystemTaskCancel amb s body.frame body.requestId r.agentNid).1)] ∧
      (handleRequest options host amb s r).taskStore =
        (handleSystemTaskCancel amb s body.frame body.requestId r.agentNid).2.taskStore := by
  unfold handleRequest
  dsimp only
  split
  · exact .inr (.inl ⟨_, rfl, rfl⟩)
  · split
    · exact .inr (.inl ⟨_, rfl, rfl⟩)
    · rename_i body _
      split
      · exact .inr (.inr (.inl ⟨body, rfl⟩))
      · split
        · refine .inr (.inr (.inr ⟨body, ?_, rfl⟩))
          have hsame : (handleSystemTaskCancel amb s body.frame body.requestId r.agentNid).2.immediate = s.immediate := by
            unfold handleSystemTaskCancel
            split
            · rfl
            · split <;> rfl
          dsimp only
          rw [hsame]
        · split
          · rename_i answer haccept
            exact .inr (.inl ⟨answer, accept_sighting haccept, rfl⟩)
          · exact .inl rfl

theorem handleRequest_seen {r : InvokeRequest} (hfits : ∀ id rec, s.taskStore.get id = some rec → Fits id rec)
    (ha : ((handleRequest options host amb s r).immediate.drop s.immediate.length).head?.map Prod.snd = some answer)
    (hx : answer.sighting = some x) : Seen s.taskStore (handleRequest options host amb s r).taskStore x := by
  rcases handleRequest_answers options host amb s r with
    heq | ⟨answer', hsighting, heq⟩ | ⟨body, heq⟩ | ⟨body, heq, htasks⟩
  · rw [heq] at ha
    simp at ha
  · rw [heq, List.drop_left] at ha
    cases ha
    rw [hsighting] at hx
    cases hx
  · rw [heq, List.drop_left] at ha
    cases ha
    exact handleSystemTaskStatus_seen hfits hx _
  · rw [heq, List.drop_left] at ha
    cases ha
    rw [htasks]
    exact handleSystemTaskCancel_seen hx

/-! ### The answer of a call -/

theorem answer_setCall (hi : s.calls[i]? = some c) {c' : Call V} (hcalls : s'.calls = s.calls.set i c') :
    s'.calls[i]?.bind Call.answer = c'.answer := by
  rw [hcalls, List.getElem?_set_self (List.getElem?_eq_some_iff.1 hi).1]
  rfl

theorem startTask_seen (hi : s.calls[i]? = some c)
    (ha : (startTask options host amb s i c).calls[i]?.bind Call.answer = some answer) (hx : answer.sighting = some x)
    (tasks : ActionTasks V) : Seen s.taskStore tasks x := by
  unfold startTask at ha
  dsimp only at ha
  split at ha
  · rw [answer_setCall hi rfl] at ha
    cases ha
    cases hx
  · rename_i tasks' hcreate
    have habsent : s.taskStore.get amb.uuid.text = none := by
      unfold ActionTasks.create at hcreate
      split at hcreate
      · cases hcreate
      · rename_i hhas
        simpa [JsMap.has] using hhas
    split at ha
    · rw [answer_setCall hi rfl] at ha
      cases ha
      cases hx
      exact .absent habsent rfl rfl rfl
    · rw [answer_setCall hi rfl] at ha
      cases ha
      cases hx
      exact .absent habsent rfl rfl rfl

theorem start_seen (hi : s.calls[i]? = some c) (hnone : c.answer = none)
    (ha : (if c.frame.async_ then startTask options host amb s i c else startExecution amb s i c).calls[i]?.bind
      Call.answer = some answer) (hx : answer.sighting = some x) (tasks : ActionTasks V) : Seen s.taskStore tasks x := by
  split at ha
  · exact startTask_seen hi ha hx tasks
  · rw [startExecution, answer_setCall hi rfl] at ha
    dsimp only at ha
    rw [hnone] at ha
    cases ha

theorem replay_seen {entry : IdempotentEntry V} (ha : (replay options host amb s c entry).answer = some answer)
    (hx : answer.sighting = some x) (tasks : ActionTasks V) : Seen s.taskStore tasks x := by
  unfold replay at ha
  split at ha
  · cases ha
    cases hx
  · split at ha
    · rename_i taskId _
      cases ha
      cases hx
      cases hget : JsMap.get s.taskStore taskId with
      | none => exact .absent hget rfl rfl rfl
      | some rec => exact .current rec hget rfl (.inl ⟨rfl, rfl⟩)
    · split at ha
      · cases ha
        cases hx
      · cases ha
        rw [capsResponse_sighting] at hx
        cases hx

theorem lookup_seen (hi : s.calls[i]? = some c) (hnone : c.answer = none)
    (ha : (lookup options host amb s i c).calls[i]?.bind Call.answer = some answer) (hx : answer.sighting = some x)
    (tasks : ActionTasks V) : Seen s.taskStore tasks x := by
  unfold lookup at ha
  dsimp only at ha
  split at ha
  · exact start_seen hi hnone ha hx tasks
  · split at ha
    · rw [answer_setCall hi rfl] at ha
      exact replay_seen ha hx tasks
    · rename_i cache _
      exact start_seen (s := { s with idempotency := cache }) hi hnone ha hx tasks

theorem settleExecution_sighting {aborted : Bool} (result : Except Thrown (ActionExecutionResult V))
    (hi : s.calls[i]? = some c)
    (ha : (settleExecution options host amb s i c aborted result).calls[i]?.bind Call.answer = some answer) :
    answer.sighting = none := by
  cases result with
  | error thrown =>
    unfold settleExecution at ha
    rw [answer_setCall hi rfl] at ha
    dsimp only [Call.ended, Call.finish_answer] at ha
    split at ha <;> cases ha <;> exact thrownResponse_sighting ..
  | ok result =>
    unfold settleExecution at ha
    dsimp only at ha
    split at ha
    · rw [answer_setCall hi rfl] at ha
      cases ha
      rfl
    · rw [answer_setCall hi rfl] at ha
      cases ha
      exact capsResponse_sighting ..

theorem settleTask_answer {taskId : String} {aborted : Bool} (result : Except Thrown (ActionExecutionResult V))
    (hi : s.calls[i]? = some c) :
    (settleTask amb s i c taskId aborted result).calls[i]?.bind Call.answer = c.answer := by
  unfold settleTask
  cases result with
  | ok result =>
    rw [answer_setCall hi rfl]
    rfl
  | error thrown =>
    rw [answer_setCall hi rfl]
    rfl

theorem pumpCall_answer (st : StreamRun V) (item : StreamItem V) (hi : s.calls[i]? = some c) :
    (pumpCall options host amb s i c st item).calls[i]?.bind Call.answer = c.answer := by
  unfold pumpCall
  dsimp only
  split
  · rw [answer_setCall hi rfl]
  · rw [answer_setCall hi rfl]
    rfl
  · rw [answer_setCall hi rfl]
    rfl
  · rw [answer_setCall hi rfl]

/-- The answer that a call is given. -/
theorem callStep_seen (hi : s.calls[i]? = some c) (hnone : c.answer = none) (e : Event V)
    (ha : (callStep options host s i c e).calls[i]?.bind Call.answer = some answer) (hx : answer.sighting = some x)
    (tasks : ActionTasks V) : Seen s.taskStore tasks x := by
  have hno : ∀ {o : Option (ActionAnswer V)}, o = some answer → o = c.answer → Seen s.taskStore tasks x := by
    rintro o h rfl
    rw [hnone] at h
    cases h
  have hsame : s.calls[i]?.bind Call.answer = c.answer := by rw [hi]; rfl
  cases e with
  | request => exact hno ha hsame
  | authorized amb j result =>
    unfold callStep at ha
    dsimp only at ha
    split at ha
    · exact hno ha hsame
    · split at ha
      · rw [answer_setCall hi rfl] at ha
        cases ha
        rw [thrownResponse_sighting] at hx
        cases hx
      · exact lookup_seen hi hnone ha hx tasks
  | timeout j =>
    unfold callStep at ha
    dsimp only at ha
    split at ha
    · exact hno ha (by rw [answer_setCall hi rfl])
    · exact hno ha (by rw [answer_setCall hi rfl])
    · split at ha
      · exact hno ha (by rw [answer_setCall hi rfl])
      · exact hno ha hsame
    · exact hno ha hsame
  | settled amb j outcome =>
    unfold callStep at ha
    dsimp only at ha
    split at ha
    · split at ha
      · rw [settleExecution_sighting _ hi ha] at hx
        cases hx
      · exact hno ha hsame
    · split at ha
      · exact hno ha (settleTask_answer _ hi)
      · exact hno ha hsame
    · exact hno ha hsame
  | pulled amb j item =>
    unfold callStep at ha
    dsimp only at ha
    split at ha
    · exact hno ha (pumpCall_answer _ _ hi)
    · exact hno ha hsame
  | readerCancelled j =>
    unfold callStep at ha
    dsimp only at ha
    split at ha
    · exact hno ha (by rw [answer_setCall hi rfl])
    · exact hno ha hsame
  | requestAborted j =>
    unfold callStep at ha
    dsimp only at ha
    split at ha
    · split at ha <;> exact hno ha (by rw [answer_setCall hi rfl])
    · exact hno ha (by rw [answer_setCall hi rfl])

/-! ### Runs -/

variable {t : TaskServer V} {e : TaskEvent V} {es : List (TaskEvent V)} {taskId : String}

theorem taskStep_stores (options : ActionNodeOptions) (host : Host V) (t : TaskServer V) (e : TaskEvent V) :
    Stores t.app (taskStep options host t e).app ∨ ∃ retentionMs now, e = .purgeExpired retentionMs now := by
  cases e with
  | server e =>
    left
    unfold taskStep
    dsimp only
    split
    · split <;> exact .same rfl
    · split
      · exact .same rfl
      · exact appStep_stores _
    · exact appStep_stores _
  | returns i =>
    left
    unfold taskStep
    dsimp only
    split <;> exact .same rfl
  | resumes amb i =>
    left
    unfold taskStep
    dsimp only
    split
    · exact settleTask_stores _
    · exact .same rfl
  | updateProgress now taskId progress =>
    exact .inl (.one (c := .updateProgress now taskId progress) trivial rfl)
  | purgeExpired retentionMs now => exact .inr ⟨retentionMs, now, rfl⟩

theorem fits_orderly {tasks : ActionTasks V} {c : TaskCall V ActionTaskError} (hc : Orderly c)
    (h : ∀ id rec, tasks.get id = some rec → Fits id rec) : ∀ id rec, (tasks.step c).get id = some rec → Fits id rec := by
  intro id rec hget
  cases orderlyEffect tasks id hc with
  | same kept => exact h id rec (kept ▸ hget)
  | created rec' absent now fits =>
    rw [now] at hget
    cases hget
    exact fits
  | goes before rec' hbefore now goes =>
    rw [now] at hget
    cases hget
    exact (h id before hbefore).goes goes

theorem get_purgeExpired {tasks : ActionTasks V} (retentionMs now : ℚ) (taskId : String) :
    (tasks.purgeExpired retentionMs now).2.get taskId =
      (tasks.get taskId).filter fun rec => !ActionTasks.expired (now - retentionMs) rec := JsMap.get_filter _ _ _

variable (options host) in
theorem fits_after (es : List (TaskEvent V)) :
    ∀ id rec, (taskServerAfter options host es).app.taskStore.get id = some rec → Fits id rec := by
  refine run_induction (I := fun t : TaskServer V => ∀ id rec, t.app.taskStore.get id = some rec → Fits id rec) ?_ ?_
  · intro id rec hget
    cases hget
  · intro t e h
    rcases taskStep_stores options host t e with ⟨calls, hcalls, horderly⟩ | ⟨retentionMs, now, rfl⟩
    · rw [hcalls]
      refine run_induction_along (I := fun tasks : ActionTasks V => ∀ id rec, tasks.get id = some rec → Fits id rec) h
        (fun tasks c htasks hc => fits_orderly hc htasks) (P := fun _ c => Orderly c) ?_
      rintro pre c post rfl
      exact horderly c (by simp)
    · intro id rec hget
      unfold taskStep at hget
      dsimp only at hget
      rw [get_purgeExpired] at hget
      exact h id rec (Option.filter_eq_some_iff.1 hget).1

def statusAt (tasks : ActionTasks V) (taskId : String) : Option ActionTaskStatus :=
  (tasks.get taskId).map ActionTaskRecord.status

theorem Stores.statusAt (h : Stores s s') {a : ActionTaskStatus} (ha : statusAt s.taskStore taskId = some a) :
    ∃ b, statusAt s'.taskStore taskId = some b ∧ Onward a b := by
  obtain ⟨calls, hcalls, horderly⟩ := h
  rw [hcalls]
  refine run_induction_along (P := fun _ c => Orderly c)
    (I := fun tasks : ActionTasks V => ∃ b, ActionNode.statusAt tasks taskId = some b ∧ Onward a b) ⟨a, ha, .refl a⟩ ?_ ?_
  · rintro tasks c ⟨b, hb, hab⟩ hc
    obtain ⟨rec, hget, rfl⟩ := Option.map_eq_some_iff.1 hb
    cases orderlyEffect tasks taskId hc with
    | same kept => exact ⟨_, by rw [ActionNode.statusAt, kept]; exact hb, hab⟩
    | created rec' absent =>
      rw [hget] at absent
      cases absent
    | goes before rec' hbefore now goes =>
      rw [hget] at hbefore
      cases hbefore
      exact ⟨rec'.status, by rw [ActionNode.statusAt, now]; rfl, hab.trans goes.onward⟩
  · rintro pre c post rfl
    exact horderly c (by simp)

/-- **A step** moves the status of a task on, unless it purges the task. -/
theorem statusAt_step (h : Unpurged options host taskId t e) {a : ActionTaskStatus}
    (ha : statusAt t.app.taskStore taskId = some a) :
    ∃ b, statusAt (taskStep options host t e).app.taskStore taskId = some b ∧ Onward a b := by
  rcases taskStep_stores options host t e with hstores | ⟨retentionMs, now, rfl⟩
  · exact hstores.statusAt ha
  · obtain ⟨rec, hget, rfl⟩ := Option.map_eq_some_iff.1 ha
    have hhas := h (by simp [JsMap.has, hget])
    unfold taskStep at hhas ⊢
    dsimp only at hhas ⊢
    rw [JsMap.has, get_purgeExpired, hget] at hhas
    obtain ⟨kept, hkept⟩ := Option.isSome_iff_exists.1 hhas
    obtain ⟨hsome, -⟩ := Option.filter_eq_some_iff.1 hkept
    cases hsome
    exact ⟨rec.status, by rw [statusAt, get_purgeExpired, hget, hkept]; rfl, .refl _⟩

theorem answerOf_call {e : Event V} (he : e.call? = some i) : answerOf options host t (.server e) =
    match t.app.calls[i]?.bind Call.answer with
    | some _ => none
    | none => (taskStep options host t (.server e)).app.calls[i]?.bind Call.answer := by
  cases e with
  | request => cases he
  | authorized | timeout | settled | pulled | readerCancelled | requestAborted =>
    obtain rfl := Option.some.inj he
    rfl

/-- **The answer in an event** tells what the store says. -/
theorem answerOf_seen (hfits : ∀ id rec, t.app.taskStore.get id = some rec → Fits id rec)
    (ha : answerOf options host t e = some answer) (hx : answer.sighting = some x) :
    Seen t.app.taskStore (taskStep options host t e).app.taskStore x := by
  cases e with
  | returns | resumes | updateProgress | purgeExpired => cases ha
  | server e =>
    cases hcall : e.call? with
    | none =>
      cases e with
      | request amb r => exact handleRequest_seen hfits ha hx
      | _ => cases hcall
    | some i =>
      rw [answerOf_call hcall] at ha
      split at ha
      · cases ha
      rename_i hnone
      have happ : (taskStep options host t (.server e)).app = t.app ∨
          (taskStep options host t (.server e)).app = appStep options host t.app e := by
        unfold taskStep
        dsimp only
        split
        · split <;> exact .inl rfl
        · split
          · exact .inl rfl
          · exact .inr rfl
        · exact .inr rfl
      rcases happ with happ | happ
      · rw [happ, hnone] at ha
        cases ha
      · rw [happ, appStep_eq hcall] at ha
        cases hi : t.app.calls[i]? with
        | none =>
          rw [hi] at ha
          dsimp only at ha
          rw [hi] at ha
          cases ha
        | some c =>
          rw [hi] at ha hnone
          exact callStep_seen hi hnone e ha hx _

structure Behind (tasks : ActionTasks V) (taskId : String) (seen : List ActionTaskStatus) : Prop where
  pairwise : seen.Pairwise Onward
  named : ∀ a ∈ seen, a = .pending ∨ a = .running ∨ a.terminal = true
  standing : ∀ a ∈ seen, ∀ b, statusAt tasks taskId = some b → Onward a b
  absent : ∀ a ∈ seen, statusAt tasks taskId = none → a = .pending

theorem Onward.of_pending {b : ActionTaskStatus} (h : b = .pending ∨ b = .running ∨ b.terminal = true) :
    Onward .pending b := by
  rcases h with rfl | rfl | h
  · exact .refl _
  · exact .inr (by decide)
  · exact .inr (by rw [rank_of_terminal h]; decide)

theorem Onward.of_open {a b : ActionTaskStatus} (ha : a.terminal = false) (hb : b.terminal = true) : Onward a b := by
  refine .inr ?_
  rw [rank_of_terminal hb]
  cases a with
  | pending | running | other => simp [rank]
  | completed | failed | cancelled => cases ha

theorem Behind.step {seen : List ActionTaskStatus} (h : Behind t.app.taskStore taskId seen)
    (hun : Unpurged options host taskId t e)
    (hfits : ∀ id rec, (taskStep options host t e).app.taskStore.get id = some rec → Fits id rec) :
    Behind (taskStep options host t e).app.taskStore taskId seen := by
  refine ⟨h.pairwise, h.named, fun a ha b hb => ?_, fun a ha hnone => ?_⟩
  · cases hstatus : statusAt t.app.taskStore taskId with
    | none =>
      rw [h.absent a ha hstatus]
      obtain ⟨rec, hget, rfl⟩ := Option.map_eq_some_iff.1 hb
      exact .of_pending (hfits taskId rec hget).status
    | some s =>
      obtain ⟨b', hb', hon⟩ := statusAt_step hun hstatus
      rw [hb, Option.some.injEq] at hb'
      subst hb'
      exact (h.standing a ha s hstatus).trans hon
  · cases hstatus : statusAt t.app.taskStore taskId with
    | none => exact h.absent a ha hstatus
    | some s =>
      obtain ⟨b', hb', -⟩ := statusAt_step hun hstatus
      rw [hnone] at hb'
      cases hb'

/-- What is seen in a step comes after what was seen before. -/
theorem Behind.sees {seen : List ActionTaskStatus} (h : Behind t.app.taskStore taskId seen)
    (hun : Unpurged options host taskId t e) (hfits : ∀ id rec, t.app.taskStore.get id = some rec → Fits id rec)
    (hfits' : ∀ id rec, (taskStep options host t e).app.taskStore.get id = some rec → Fits id rec)
    (hx : Seen t.app.taskStore (taskStep options host t e).app.taskStore x) (hid : x.taskId = taskId) :
    Behind (taskStep options host t e).app.taskStore taskId (seen ++ [x.status]) := by
  subst hid
  have hstep := h.step hun hfits'
  have hsnoc : (∀ a ∈ seen, Onward a x.status) → (x.status = .pending ∨ x.status = .running ∨ x.status.terminal = true) →
      (∀ b, statusAt (taskStep options host t e).app.taskStore x.taskId = some b → Onward x.status b) →
        (statusAt (taskStep options host t e).app.taskStore x.taskId = none → x.status = .pending) →
          Behind (taskStep options host t e).app.taskStore x.taskId (seen ++ [x.status]) := by
    intro hseen hnamed hstanding habsent
    refine ⟨?_, ?_, ?_, ?_⟩
    · rw [List.pairwise_append]
      refine ⟨h.pairwise, List.pairwise_singleton .., fun a ha b hb => ?_⟩
      rw [List.mem_singleton.1 hb]
      exact hseen a ha
    all_goals
      intro a ha
      rcases List.mem_append.1 ha with ha | ha
    · exact h.named a ha
    · rwa [List.mem_singleton.1 ha]
    · exact hstep.standing a ha
    · rwa [List.mem_singleton.1 ha]
    · exact hstep.absent a ha
    · rwa [List.mem_singleton.1 ha]
  cases hx with
  | current rec here status =>
    have hstatus : statusAt t.app.taskStore x.taskId = some x.status := by rw [statusAt, here, status]; rfl
    obtain ⟨b, hb, hon⟩ := statusAt_step hun hstatus
    refine hsnoc (fun a ha => h.standing a ha _ hstatus) (status ▸ (hfits _ rec here).status) (fun b' hb' => ?_)
      fun hnone => ?_
    · rw [hb, Option.some.injEq] at hb'
      exact hb' ▸ hon
    · rw [hb] at hnone
      cases hnone
  | absent absent status =>
    have hstatus : statusAt t.app.taskStore x.taskId = none := by rw [statusAt, absent]; rfl
    refine hsnoc (fun a ha => ?_) (.inl status) (fun b hb => ?_) fun _ => status
    · rw [h.absent a ha hstatus, status]
      exact .refl _
    · obtain ⟨rec, hget, rfl⟩ := Option.map_eq_some_iff.1 hb
      rw [status]
      exact .of_pending (hfits' _ rec hget).status
  | cancels rec rec' before open_ now cancelled status =>
    have hnow : statusAt (taskStep options host t e).app.taskStore x.taskId = some x.status := by
      rw [statusAt, now, status, ← cancelled]
      rfl
    refine hsnoc (fun a ha => ?_) (.inr (.inr (by rw [status]; rfl))) (fun b hb => ?_) fun hnone => ?_
    · refine (h.standing a ha rec.status (by rw [statusAt, before]; rfl)).trans ?_
      exact .of_open open_ (by rw [status]; rfl)
    · rw [hnow, Option.some.injEq] at hb
      exact hb ▸ .refl _
    · rw [hnow] at hnone
      cases hnone

theorem taskServerAfter_append (pre mid : List (TaskEvent V)) : taskServerAfter options host (pre ++ mid) =
    run (taskStep options host) (taskServerAfter options host pre) mid := run_append

theorem sightings_snoc (t : TaskServer V) (mid : List (TaskEvent V)) (e : TaskEvent V) :
    sightings options host t (mid ++ [e]) = sightings options host t mid ++
      ((answerOf options host (run (taskStep options host) t mid) e).bind ActionAnswer.sighting).toList := noted_snoc

theorem statuses_snoc (t : TaskServer V) (mid : List (TaskEvent V)) (e : TaskEvent V) (taskId : String) :
    statuses options host t (mid ++ [e]) taskId = statuses options host t mid taskId ++
      (((answerOf options host (run (taskStep options host) t mid) e).bind ActionAnswer.sighting).toList.filter
        fun x => x.taskId = taskId).map Sighting.status := by
  rw [statuses, sightings_snoc, List.filter_append, List.map_append]
  rfl

theorem behind_along (pre mid : List (TaskEvent V))
    (h : Along (taskStep options host) (Unpurged options host taskId) (taskServerAfter options host pre) mid) :
    Behind (taskServerAfter options host (pre ++ mid)).app.taskStore taskId
      (statuses options host (taskServerAfter options host pre) mid taskId) := by
  induction mid using List.reverseRecOn with
  | nil => exact ⟨.nil, by simp [statuses, sightings], by simp [statuses, sightings], by simp [statuses, sightings]⟩
  | append_singleton mid e ih =>
    obtain ⟨hmid, hun⟩ := along_snoc.1 h
    have hbehind := ih hmid
    have hfits := fits_after options host (pre ++ mid)
    have hfits' := fits_after options host (pre ++ (mid ++ [e]))
    rw [taskServerAfter_append] at hbehind hfits
    rw [taskServerAfter_append, run_snoc] at hfits' ⊢
    rw [statuses_snoc]
    cases hanswer : (answerOf options host (run (taskStep options host) (taskServerAfter options host pre) mid) e).bind
        ActionAnswer.sighting with
    | none =>
      rw [Option.toList_none, List.filter_nil, List.map_nil, List.append_nil]
      exact hbehind.step hun hfits'
    | some x =>
      obtain ⟨answer, ha, hx⟩ := Option.bind_eq_some_iff.1 hanswer
      by_cases hid : x.taskId = taskId
      · simpa [hid] using hbehind.sees hun hfits hfits' (answerOf_seen hfits ha hx) hid
      · simpa [hid] using hbehind.step hun hfits'

theorem cancelled_along (pre mid : List (TaskEvent V))
    (hcancelled : statusAt (taskServerAfter options host pre).app.taskStore taskId = some .cancelled)
    (h : Along (taskStep options host) (Unpurged options host taskId) (taskServerAfter options host pre) mid) :
    statusAt (taskServerAfter options host (pre ++ mid)).app.taskStore taskId = some .cancelled ∧
      ∀ x ∈ sightings options host (taskServerAfter options host pre) mid, x.taskId = taskId →
        x.status = .cancelled ∧ x.result = none ∧ x.error = none := by
  induction mid using List.reverseRecOn with
  | nil => exact ⟨by rwa [List.append_nil], by simp [sightings]⟩
  | append_singleton mid e ih =>
    obtain ⟨hmid, hun⟩ := along_snoc.1 h
    obtain ⟨hstatus, hseen⟩ := ih hmid
    have hfits := fits_after options host (pre ++ mid)
    rw [taskServerAfter_append] at hstatus hfits
    rw [taskServerAfter_append, run_snoc, sightings_snoc]
    constructor
    · obtain ⟨b, hb, hon⟩ := statusAt_step hun hstatus
      rw [hb, hon.of_terminal rfl]
    · intro x hx hid
      rcases List.mem_append.1 hx with hx | hx
      · exact hseen x hx hid
      · obtain ⟨answer, ha, hx⟩ := Option.bind_eq_some_iff.1 (Option.mem_toList.1 hx)
        obtain ⟨rec, hget, hrec⟩ := Option.map_eq_some_iff.1 hstatus
        subst hid
        cases answerOf_seen hfits ha hx with
        | current rec' here status outcome =>
          rw [hget] at here
          cases here
          refine ⟨status.trans hrec, ?_⟩
          rcases outcome with houtcome | ⟨hresult, herror⟩
          · exact houtcome
          · have hfit := hfits _ rec hget
            exact ⟨hresult.trans (hfit.result (by rw [hrec]; nofun)), herror.trans (hfit.error (by rw [hrec]; nofun))⟩
        | absent absent =>
          rw [hget] at absent
          cases absent
        | cancels rec' _ before open_ =>
          rw [hget] at before
          cases before
          rw [hrec] at open_
          cases open_

theorem cancelled_of_answer (pre : List (TaskEvent V)) {requestId : Option String}
    (ha : answerOf options host (taskServerAfter options host pre) e = some (.taskCancelled taskId requestId)) :
    statusAt (taskServerAfter options host (pre ++ [e])).app.taskStore taskId = some .cancelled := by
  have hfits := fits_after options host pre
  rw [taskServerAfter_append, run_cons, run_nil]
  cases answerOf_seen hfits ha rfl with
  | current rec here status =>
    have hstatus : statusAt (taskServerAfter options host pre).app.taskStore taskId = some .cancelled := by
      rw [statusAt, here, Option.map_some, ← status]
    rcases taskStep_stores options host (taskServerAfter options host pre) e with hstores | ⟨retentionMs, now, rfl⟩
    · obtain ⟨b, hb, hon⟩ := hstores.statusAt hstatus
      rw [hb, hon.of_terminal rfl]
    · cases ha
  | absent absent status => cases status
  | cancels rec rec' before open_ now cancelled =>
    rw [statusAt, now, ← cancelled]
    rfl

/-- **Cancellation wins**, wherever it lands. -/
theorem cancellation_wins (options : ActionNodeOptions) (host : Host V) (es : List (TaskEvent V)) :
    CancellationWins options host es where
  ordered pre mid post taskId _ h := by
    have hbehind := behind_along pre mid h
    exact progresses_of_pairwise hbehind.pairwise hbehind.named
  final pre e mid post taskId requestId _ ha h := by
    exact (cancelled_along (pre ++ [e]) mid (cancelled_of_answer pre ha) h).2

end

end NpsSdk.Nwp.ActionNode
