import NpsSdk.Lib.Runs
import NpsSdk.Nwp.ActionTaskStore

/-!
# Tasks that have ended

Runs of an `InMemoryActionTaskStore`.  `complete`, `fail` and `cancel` leave a task alone that has ended;
`updateProgress` has no such guard, and `tryTransition` moves a task on from any status it is asked to.
-/

namespace NpsSdk.Nwp

open NpsSdk.Lib

variable {V E : Type}

/-- A call of the store, with the instant its clock reads. -/
inductive TaskCall (V E : Type)
  | create (now : ℚ) (taskId actionId : String) (requestId agentNid : Option String)
  | tryTransition (now : ℚ) (taskId : String) (expected next : ActionTaskStatus)
  | complete (now : ℚ) (taskId : String) (result : Option V)
  | fail (now : ℚ) (taskId : String) (error : E)
  | cancel (now : ℚ) (taskId : String)
  | updateProgress (now : ℚ) (taskId : String) (progress : JsDouble)
  | purgeExpired (retentionMs now : ℚ)

def TaskCall.now : TaskCall V E → ℚ
  | .create now .. | .tryTransition now .. | .complete now .. | .fail now .. | .cancel now ..
  | .updateProgress now .. | .purgeExpired _ now => now

namespace ActionTasks

variable (tasks : ActionTasks V E)

/-- The tasks after a call; a `create` that throws leaves them as they are. -/
def step : TaskCall V E → ActionTasks V E
  | .create now taskId actionId requestId agentNid =>
    (tasks.create now taskId actionId requestId agentNid).getD tasks
  | .tryTransition now taskId expected next => (tasks.tryTransition now taskId expected next).2
  | .complete now taskId result => (tasks.complete now taskId result).2
  | .fail now taskId error => (tasks.fail now taskId error).2
  | .cancel now taskId => (tasks.cancel now taskId).2
  | .updateProgress now taskId progress => (tasks.updateProgress now taskId progress).2
  | .purgeExpired retentionMs now => (tasks.purgeExpired retentionMs now).2

/-- The tasks of a new store after some calls. -/
def after (calls : List (TaskCall V E)) : ActionTasks V E := run step .empty calls

/-! ### What a call does to a task -/

/-- **What a call does** to the record of one task. -/
inductive Effect (c : TaskCall V E) (taskId : String) : Prop
  | same (kept : (tasks.step c).get taskId = tasks.get taskId)
  | created (rec : ActionTaskRecord V E) (absent : tasks.get taskId = none)
      (status : rec.status = .pending) (now : (tasks.step c).get taskId = some rec)
  | ended (rec rec' : ActionTaskRecord V E) (open_ : rec.status.terminal = false)
      (before : tasks.get taskId = some rec) (updatedAt : rec'.updatedAt = c.now)
      (now : (tasks.step c).get taskId = some rec')
  | moved (rec : ActionTaskRecord V E) (t : ℚ) (next : ActionTaskStatus)
      (call : c = .tryTransition t taskId rec.status next) (before : tasks.get taskId = some rec)
      (now : (tasks.step c).get taskId = some { rec with status := next, updatedAt := t })
  | progressed (rec : ActionTaskRecord V E) (t : ℚ) (progress : JsDouble)
      (call : c = .updateProgress t taskId progress) (before : tasks.get taskId = some rec)
      (now : (tasks.step c).get taskId =
        some { rec with progress := some (clampProgress progress), updatedAt := t })
  | purged (rec : ActionTaskRecord V E) (retentionMs t : ℚ) (call : c = .purgeExpired retentionMs t)
      (terminal : rec.status.terminal = true) (before : tasks.get taskId = some rec)
      (expired : rec.updatedAt < t - retentionMs) (now : (tasks.step c).get taskId = none)

variable {tasks} {c : TaskCall V E} {taskId : String}

theorem effect_settle {now : ℚ} {id : String} {update : ActionTaskRecord V E → ActionTaskRecord V E}
    (hstep : tasks.step c = (tasks.settle now id update).2) (hnow : c.now = now) : Effect tasks c taskId := by
  cases hget : tasks.get id with
  | none => exact .same (by rw [hstep, settle, hget])
  | some rec =>
    by_cases hterminal : rec.status.terminal = true
    · exact .same (by simp only [hstep, settle, hget, hterminal, if_true])
    · have hset : tasks.step c = tasks.set id { update rec with updatedAt := now } := by
        simp only [hstep, settle, hget, hterminal, if_false, Bool.false_eq_true]
      by_cases hid : taskId = id
      · subst hid
        exact .ended rec _ (by simpa using hterminal) hget hnow.symm (by rw [hset, JsMap.get_set_self])
      · exact .same (by rw [hset, JsMap.get_set_ne _ _ hid])

theorem effect (tasks : ActionTasks V E) (c : TaskCall V E) (taskId : String) : Effect tasks c taskId := by
  cases c with
  | create now id actionId requestId agentNid =>
    by_cases hhas : tasks.has id = true
    · exact .same (by simp only [step, create, hhas, if_true, Option.getD_none])
    · have hset : tasks.step (.create now id actionId requestId agentNid) = tasks.set id
          { taskId := id, actionId, status := .pending, createdAt := now, updatedAt := now, requestId,
            agentNid } := by
        simp only [step, create, hhas, if_false, Option.getD_some, Bool.false_eq_true]
      by_cases hid : taskId = id
      · subst hid
        have habsent : tasks.get taskId = none := by simpa [JsMap.has] using hhas
        exact .created _ habsent rfl (by rw [hset, JsMap.get_set_self])
      · exact .same (by rw [hset, JsMap.get_set_ne _ _ hid])
  | tryTransition now id expected next =>
    cases hget : tasks.get id with
    | none => exact .same (by simp only [step, tryTransition, hget])
    | some rec =>
      by_cases hstatus : rec.status = expected
      · subst hstatus
        have hset : tasks.step (.tryTransition now id rec.status next) =
            tasks.set id { rec with status := next, updatedAt := now } := by
          simp only [step, tryTransition, hget, ne_eq, not_true_eq_false, if_false]
        by_cases hid : taskId = id
        · subst hid
          exact .moved rec now next rfl hget (by rw [hset, JsMap.get_set_self])
        · exact .same (by rw [hset, JsMap.get_set_ne _ _ hid])
      · exact .same (by simp only [step, tryTransition, hget, ne_eq, hstatus, not_false_eq_true, if_true])
  | complete now id result => exact effect_settle rfl rfl
  | fail now id error => exact effect_settle rfl rfl
  | cancel now id => exact effect_settle rfl rfl
  | updateProgress now id progress =>
    cases hget : tasks.get id with
    | none => exact .same (by simp only [step, updateProgress, hget])
    | some rec =>
      have hset : tasks.step (.updateProgress now id progress) =
          tasks.set id { rec with progress := some (clampProgress progress), updatedAt := now } := by
        simp only [step, updateProgress, hget]
      by_cases hid : taskId = id
      · subst hid
        exact .progressed rec now progress rfl hget (by rw [hset, JsMap.get_set_self])
      · exact .same (by rw [hset, JsMap.get_set_ne _ _ hid])
  | purgeExpired retentionMs now =>
    have hfilter : (tasks.step (.purgeExpired retentionMs now)).get taskId =
        (tasks.get taskId).filter fun rec => !expired (now - retentionMs) rec := by
      rw [step, purgeExpired]
      exact JsMap.get_filter _ _ _
    cases hget : tasks.get taskId with
    | none => exact .same (by rw [hfilter, hget]; rfl)
    | some rec =>
      by_cases hexpired : expired (now - retentionMs) rec = true
      · obtain ⟨hterminal, hlt⟩ : rec.status.terminal = true ∧ rec.updatedAt < now - retentionMs := by
          simpa [expired] using hexpired
        exact .purged rec retentionMs now rfl hterminal hget hlt (by simp [hfilter, hget, hexpired])
      · exact .same (by simp [hfilter, hget, hexpired])

/-! ### When a task has ended -/

def hasEnded (tasks : ActionTasks V E) (taskId : String) : Bool :=
  (tasks.get taskId).any fun rec => rec.status.terminal

def noteEnds (endedAt : String → Option ℚ) (tasks : ActionTasks V E) (c : TaskCall V E) :
    String → Option ℚ :=
  fun taskId =>
    if hasEnded (tasks.step c) taskId then
      if hasEnded tasks taskId then endedAt taskId else some c.now
    else none

def endedAt (calls : List (TaskCall V E)) : String → Option ℚ :=
  noted noteEnds step (fun _ => none) .empty calls

end ActionTasks

open ActionTasks

/-- What a task has come to. -/
structure SameOutcome (rec rec' : ActionTaskRecord V E) : Prop where
  status : rec'.status = rec.status
  result : rec'.result = rec.result
  error : rec'.error = rec.error
  progress : rec'.progress = rec.progress
  updatedAt : rec'.updatedAt = rec.updatedAt

/-- **Terminal records are immutable** in the run of some calls: what a task that has ended has come to
stays, and a record goes only by a purge, when the retention since the task ended has passed. -/
def TerminalKept (calls : List (TaskCall V E)) : Prop :=
  ∀ pre c post, calls = pre ++ c :: post → ∀ taskId rec, (after pre).get taskId = some rec →
    rec.status.terminal = true →
      (∃ rec', (after (pre ++ [c])).get taskId = some rec' ∧ SameOutcome rec rec') ∨
      (after (pre ++ [c])).get taskId = none ∧ ∃ retentionMs now t, c = .purgeExpired retentionMs now ∧
        endedAt pre taskId = some t ∧ t + retentionMs < now

/-- A call writes nothing new to a task that has ended: `tryTransition` is not asked to move it on from its
terminal status and `updateProgress` is not called for it, but for a call that writes what stands there. -/
def Spares (tasks : ActionTasks V E) : TaskCall V E → Prop
  | .tryTransition now taskId expected next => ∀ rec, tasks.get taskId = some rec →
      rec.status.terminal = true → rec.status = expected → next = rec.status ∧ now = rec.updatedAt
  | .updateProgress now taskId progress => ∀ rec, tasks.get taskId = some rec →
      rec.status.terminal = true → some (clampProgress progress) = rec.progress ∧ now = rec.updatedAt
  | _ => True

variable {tasks : ActionTasks V E} {calls : List (TaskCall V E)} {c : TaskCall V E} {taskId : String}
  {rec : ActionTaskRecord V E}

theorem after_snoc : after (calls ++ [c]) = (after calls).step c := run_snoc

theorem endedAt_snoc : endedAt (calls ++ [c]) = noteEnds (endedAt calls) (after calls) c := noted_snoc

/-- **A call that spares the tasks that have ended** keeps such a record, or purges it. -/
theorem kept_or_purged (hspares : Spares tasks c) (hget : tasks.get taskId = some rec)
    (hterminal : rec.status.terminal = true) :
    (tasks.step c).get taskId = some rec ∨ (tasks.step c).get taskId = none ∧
      ∃ retentionMs now, c = .purgeExpired retentionMs now ∧ rec.updatedAt < now - retentionMs := by
  cases effect tasks c taskId with
  | same kept => exact .inl (kept.trans hget)
  | created rec' absent => simp [hget] at absent
  | ended rec₀ rec' open_ before =>
    obtain rfl : rec₀ = rec := Option.some.inj (before.symm.trans hget)
    simp [open_] at hterminal
  | moved rec₀ t next call before now =>
    obtain rfl : rec₀ = rec := Option.some.inj (before.symm.trans hget)
    subst call
    obtain ⟨rfl, rfl⟩ := hspares rec₀ hget hterminal rfl
    exact .inl now
  | progressed rec₀ t progress call before now =>
    obtain rfl : rec₀ = rec := Option.some.inj (before.symm.trans hget)
    subst call
    obtain ⟨hprogress, rfl⟩ := hspares rec₀ hget hterminal
    exact .inl (by rw [now, hprogress])
  | purged rec₀ retentionMs t call terminal before expired now =>
    obtain rfl : rec₀ = rec := Option.some.inj (before.symm.trans hget)
    exact .inr ⟨now, retentionMs, t, call, expired⟩

/-- **Where the tasks that have ended are spared**, their records carry the instants at which they ended. -/
theorem endedAt_of_spares (h : Along step Spares .empty calls) :
    ∀ taskId rec, (after calls).get taskId = some rec → rec.status.terminal = true →
      endedAt calls taskId = some rec.updatedAt := by
  induction calls using List.reverseRecOn with
  | nil =>
    intro taskId rec hget
    cases hget
  | append_singleton calls c ih =>
    obtain ⟨hcalls, hspares⟩ : Along step Spares .empty calls ∧ Spares (after calls) c := along_snoc.1 h
    intro taskId rec hget hterminal
    have hended : hasEnded ((after calls).step c) taskId = true := by
      rw [after_snoc] at hget
      simp [hasEnded, hget, hterminal]
    rw [endedAt_snoc, noteEnds, if_pos hended]
    by_cases hbefore : hasEnded (after calls) taskId = true
    · obtain ⟨rec₀, hget₀, hterminal₀⟩ : ∃ rec₀, (after calls).get taskId = some rec₀ ∧
          rec₀.status.terminal = true := (Option.any_eq_true _ _).1 hbefore
      rw [if_pos hbefore, ih hcalls taskId rec₀ hget₀ hterminal₀]
      rw [after_snoc] at hget
      rcases kept_or_purged hspares hget₀ hterminal₀ with hkept | ⟨hgone, -⟩
      · rw [Option.some.inj (hget.symm.trans hkept)]
      · simp [hgone] at hget
    · rw [if_neg hbefore]
      rw [after_snoc] at hget
      have hopen : ∀ rec₀, (after calls).get taskId = some rec₀ → rec₀.status.terminal = false := by
        intro rec₀ h₀
        simpa [hasEnded, h₀] using hbefore
      cases effect (after calls) c taskId with
      | same kept =>
        have hfalse := hopen rec (kept.symm.trans hget)
        simp [hfalse] at hterminal
      | created rec' absent status now =>
        rw [Option.some.inj (hget.symm.trans now), status] at hterminal
        cases hterminal
      | ended rec₀ rec' open_ before updatedAt now =>
        rw [Option.some.inj (hget.symm.trans now), updatedAt]
      | moved rec₀ t next call before now =>
        rw [Option.some.inj (hget.symm.trans now), call]
        rfl
      | progressed rec₀ t progress call before now =>
        rw [Option.some.inj (hget.symm.trans now), call]
        rfl
      | purged rec₀ retentionMs t call terminal before expired now => simp [now] at hget

/-- **A run leaves the tasks that have ended alone exactly if its calls do**: no call moves a task on from a
terminal status or reports progress of a task that has ended. -/
theorem terminal_kept_iff : TerminalKept calls ↔ Along step Spares .empty calls := by
  constructor
  · intro h pre c post heq
    show Spares (after pre) c
    have hkept := h pre c post heq
    rw [after_snoc] at hkept
    cases c with
    | tryTransition now taskId expected next =>
      intro rec hget hterminal hstatus
      subst hstatus
      have hset : ((after pre).step (.tryTransition now taskId rec.status next)).get taskId =
          some { rec with status := next, updatedAt := now } := by
        simp only [step, tryTransition, hget, ne_eq, not_true_eq_false, if_false, JsMap.get_set_self]
      rcases hkept taskId rec hget hterminal with ⟨rec', hget', hsame⟩ | ⟨hgone, -⟩
      · obtain rfl := Option.some.inj (hset.symm.trans hget')
        exact ⟨hsame.status, hsame.updatedAt⟩
      · simp [hset] at hgone
    | updateProgress now taskId progress =>
      intro rec hget hterminal
      have hset : ((after pre).step (.updateProgress now taskId progress)).get taskId =
          some { rec with progress := some (clampProgress progress), updatedAt := now } := by
        simp only [step, updateProgress, hget, JsMap.get_set_self]
      rcases hkept taskId rec hget hterminal with ⟨rec', hget', hsame⟩ | ⟨hgone, -⟩
      · obtain rfl := Option.some.inj (hset.symm.trans hget')
        exact ⟨hsame.progress, hsame.updatedAt⟩
      · simp [hset] at hgone
    | _ => trivial
  · intro h pre c post heq taskId rec hget hterminal
    obtain ⟨hpre, hspares⟩ : Along step Spares .empty pre ∧ Spares (after pre) c := h.upTo heq
    rw [after_snoc]
    rcases kept_or_purged hspares hget hterminal with hkept | ⟨hgone, retentionMs, now, hcall, hlt⟩
    · exact .inl ⟨rec, hkept, rfl, rfl, rfl, rfl, rfl⟩
    · have hended : endedAt pre taskId = some rec.updatedAt :=
        endedAt_of_spares hpre taskId rec hget hterminal
      exact .inr ⟨hgone, retentionMs, now, rec.updatedAt, hcall, hended, lt_sub_iff_add_lt.1 hlt⟩

def lateProgress : List (TaskCall Unit Unit) :=
  [.create 0 "t" "nop:run" none none, .complete 5 "t" none, .updateProgress 9 "t" (.fin (1 / 2))]

/-- The late report takes the progress of the completed task back. -/
theorem terminal_record_changes : ¬ ∀ calls : List (TaskCall Unit Unit), TerminalKept calls := by
  intro h
  have hspares := terminal_kept_iff.1 (h lateProgress)
  have hlast : ∀ rec, (after (lateProgress.take 2)).get "t" = some rec → rec.status.terminal = true →
      some (clampProgress (.fin (1 / 2))) = rec.progress ∧ 9 = rec.updatedAt :=
    hspares (lateProgress.take 2) (.updateProgress 9 "t" (.fin (1 / 2))) [] rfl
  have hrec : (after (lateProgress.take 2)).get "t" = some
      { taskId := "t", actionId := "nop:run", status := .completed, progress := some 1, createdAt := 0,
        updatedAt := 5, requestId := none, agentNid := none, result := none, error := none } := by rfl
  obtain ⟨-, hlate⟩ := hlast _ hrec rfl
  exact absurd hlate (show ¬ (9 : ℚ) = 5 by decide)

end NpsSdk.Nwp
