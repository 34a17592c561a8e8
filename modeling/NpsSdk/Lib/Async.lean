import NpsSdk.Lib.Runs

/-!
# Programs that wait

A program performs operations, one after the other, and goes on with what each answers.  An
operation answers a value or throws.  Between two operations a program touches nothing it shares,
so its operations are all that other programs see of it.

* `finish` runs a program alone; `wp` is the weakest precondition of such a run.
* `advance` runs a program up to the end of the next operation it waits for, `turn` says what such a
  turn leads to, and `Pool.step` lets any number of programs take turns in any order.
* `Keeps` is a guarantee of a program: as long as its operations answer as they may, each of them
  meets a condition.  `Passes` says that a program has no result without a certain operation.
-/

namespace NpsSdk.Lib

/-- A program over the operations `Op`, where the operation `o` answers a `Res o` or throws. -/
inductive Async (Op : Type) (Res : Op → Type) (ε α : Type) where
  | done (r : Except ε α)
  | op (o : Op) (k : Except ε (Res o) → Async Op Res ε α)

namespace Async

variable {Op : Type} {Res : Op → Type} {ε α β : Type}

/-- The program that performs one operation and answers what it answers. -/
def perform (o : Op) : Async Op Res ε (Res o) := .op o .done

/-- One program after the other. -/
def bind : Async Op Res ε α → (α → Async Op Res ε β) → Async Op Res ε β
  | .done (.ok a), f => f a
  | .done (.error e), _ => .done (.error e)
  | .op o k, f => .op o fun r => (k r).bind f

/-- A program and what handles its exception. -/
def handle : Async Op Res ε α → (ε → Async Op Res ε α) → Async Op Res ε α
  | .done (.ok a), _ => .done (.ok a)
  | .done (.error e), h => h e
  | .op o k, h => .op o fun r => (k r).handle h

instance : Monad (Async Op Res ε) where
  pure a := .done (.ok a)
  bind := bind

instance : MonadExceptOf ε (Async Op Res ε) where
  throw e := .done (.error e)
  tryCatch := handle

/-- A result that is already there. -/
def ofExcept (r : Except ε α) : Async Op Res ε α := .done r

@[simp] theorem pure_eq (a : α) : (pure a : Async Op Res ε α) = .done (.ok a) := rfl

@[simp] theorem throw_eq (e : ε) : (throw e : Async Op Res ε α) = .done (.error e) := rfl

@[simp] theorem done_bind (a : α) (f : α → Async Op Res ε β) :
    (Async.done (.ok a) >>= f) = f a := rfl

@[simp] theorem op_bind (o : Op) (k : Except ε (Res o) → Async Op Res ε α)
    (f : α → Async Op Res ε β) : (Async.op o k >>= f) = .op o fun r => k r >>= f := rfl

@[simp] theorem tryCatch_op (o : Op) (k : Except ε (Res o) → Async Op Res ε α)
    (h : ε → Async Op Res ε α) :
    tryCatch (Async.op o k) h = .op o fun r => tryCatch (k r) h := rfl

theorem bind_done (p : Async Op Res ε α) : (p >>= fun a => .done (.ok a)) = p := by
  induction p with
  | done r => cases r <;> rfl
  | op o k ih =>
    rw [op_bind]
    exact congrArg (Async.op o) (funext ih)

theorem bind_bind {γ : Type} (p : Async Op Res ε α) (f : α → Async Op Res ε β)
    (g : β → Async Op Res ε γ) : (p >>= f >>= g) = (p >>= fun a => f a >>= g) := by
  induction p with
  | done r => cases r <;> rfl
  | op o k ih =>
    simp only [op_bind]
    exact congrArg (Async.op o) (funext ih)

instance : LawfulMonad (Async Op Res ε) :=
  LawfulMonad.mk' _ bind_done (fun _ _ => rfl) bind_bind

/-! ### Running a program alone -/

section Alone

variable {σ η : Type} (exec : η → (o : Op) → σ → Except ε (Res o) × σ)

/-- Runs a program to its end; `amb n` is what its `n`-th operation finds outside the state (a clock
reading, a random text). -/
def finish : Async Op Res ε α → (ℕ → η) → σ → Except ε α × σ
  | .done r, _, s => (r, s)
  | .op o k, amb, s =>
    (k (exec (amb 0) o s).1).finish (fun n => amb (n + 1)) (exec (amb 0) o s).2

/-- **Weakest precondition**: run on what `amb` gives, the program ends in `Q`, which also sees what
is left of `amb`. -/
def wp : Async Op Res ε α → (Except ε α → (ℕ → η) → σ → Prop) → (ℕ → η) → σ → Prop
  | .done r, Q, amb, s => Q r amb s
  | .op o k, Q, amb, s =>
    (k (exec (amb 0) o s).1).wp Q (fun n => amb (n + 1)) (exec (amb 0) o s).2

variable {exec} {p : Async Op Res ε α} {amb : ℕ → η} {s : σ}
  {Q Q' : Except ε α → (ℕ → η) → σ → Prop}

@[simp] theorem wp_done {r : Except ε α} : wp exec (.done r) Q amb s ↔ Q r amb s := Iff.rfl

@[simp] theorem wp_perform {o : Op} {Q : Except ε (Res o) → (ℕ → η) → σ → Prop} :
    wp exec (perform o) Q amb s ↔
      Q (exec (amb 0) o s).1 (fun n => amb (n + 1)) (exec (amb 0) o s).2 := Iff.rfl

theorem wp_mono (h : wp exec p Q amb s) (hq : ∀ r amb' s', Q r amb' s' → Q' r amb' s') : wp exec p Q' amb s := by
  induction p generalizing amb s with
  | done r => exact hq _ _ _ h
  | op o k ih => exact ih _ h

theorem wp_bind {f : α → Async Op Res ε β} {R : Except ε β → (ℕ → η) → σ → Prop} :
    wp exec (p >>= f) R amb s ↔
      wp exec p (fun r amb' s' => match r with
        | .ok a => wp exec (f a) R amb' s'
        | .error e => R (.error e) amb' s') amb s := by
  induction p generalizing amb s with
  | done r => cases r <;> rfl
  | op o k ih => exact ih _

theorem wp_tryCatch {h : ε → Async Op Res ε α} :
    wp exec (tryCatch p h) Q amb s ↔
      wp exec p (fun r amb' s' => match r with
        | .ok a => Q (.ok a) amb' s'
        | .error e => wp exec (h e) Q amb' s') amb s := by
  induction p generalizing amb s with
  | done r => cases r <;> rfl
  | op o k ih => exact ih _

theorem wp_iff_finish {Q : Except ε α → σ → Prop} :
    wp exec p (fun r _ s' => Q r s') amb s ↔ Q (p.finish exec amb s).1 (p.finish exec amb s).2 := by
  induction p generalizing amb s with
  | done r => rfl
  | op o k ih => exact ih _

theorem finish_induction {M : Async Op Res ε α → σ → Prop}
    (hM : ∀ o k s a, M (.op o k) s → M (k (exec a o s).1) (exec a o s).2) (h : M p s) :
    M (.done (p.finish exec amb s).1) (p.finish exec amb s).2 := by
  induction p generalizing amb s with
  | done r => exact h
  | op o k ih => exact ih _ (hM o k s (amb 0) h)

theorem wp_finish : wp exec p (fun r _ s' => r = (p.finish exec amb s).1 ∧ s' = (p.finish exec amb s).2) amb s :=
  (wp_iff_finish (Q := fun r s' => r = (p.finish exec amb s).1 ∧ s' = (p.finish exec amb s).2)).2
    ⟨rfl, rfl⟩

end Alone

/-! ### What a program guarantees -/

section Guarantee

variable (ok : (o : Op) → Prop) (ans : (o : Op) → Except ε (Res o) → Prop)

/-- Each operation meets `ok`, as long as the operations answer what `ans` allows. -/
def Keeps : Async Op Res ε α → Prop
  | .done _ => True
  | .op o k => ok o ∧ ∀ r, ans o r → (k r).Keeps

variable {ok ans} {p : Async Op Res ε α}

theorem Keeps.mono {ok' : Op → Prop} {ans' : (o : Op) → Except ε (Res o) → Prop}
    (h : Keeps ok ans p) (hok : ∀ o, ok o → ok' o) (hans : ∀ o r, ans' o r → ans o r) : Keeps ok' ans' p := by
  induction p with
  | done r => trivial
  | op o k ih => exact ⟨hok o h.1, fun r hr => ih r (h.2 r (hans o r hr))⟩

theorem Keeps.bind {f : α → Async Op Res ε β} (hp : Keeps ok ans p)
    (hf : ∀ a, Keeps ok ans (f a)) : Keeps ok ans (p >>= f) := by
  induction p with
  | done r =>
    cases r with
    | error e => exact trivial
    | ok a => exact hf a
  | op o k ih => exact ⟨hp.1, fun r hr => ih r (hp.2 r hr)⟩

/-- Each way to a result passes an operation with an answer in `hit`. -/
def Passes (hit : (o : Op) → Except ε (Res o) → Prop) : Async Op Res ε α → Prop
  | .done r => ∀ a, r ≠ .ok a
  | .op o k => ∀ r, hit o r ∨ (k r).Passes hit

end Guarantee

/-! ### What a program can answer -/

/-- The program has this result, for some answers of its operations. -/
def Answers : Async Op Res ε α → Except ε α → Prop
  | .done r', r => r' = r
  | .op _ k, r => ∃ a, (k a).Answers r

section Answers

variable {p : Async Op Res ε α} {f : α → Async Op Res ε β}

theorem Answers.bind {b : β} (h : (p >>= f).Answers (.ok b)) : ∃ a, p.Answers (.ok a) ∧ (f a).Answers (.ok b) := by
  induction p with
  | done r =>
    cases r with
    | error e => cases h
    | ok a => exact ⟨a, rfl, h⟩
  | op o k ih =>
    obtain ⟨r, hr⟩ := h
    obtain ⟨a, ha, hf⟩ := ih r hr
    exact ⟨a, ⟨r, ha⟩, hf⟩

theorem answers_finish {σ η : Type} {exec : η → (o : Op) → σ → Except ε (Res o) × σ} {amb : ℕ → η} {s : σ} :
    p.Answers (p.finish exec amb s).1 := by
  induction p generalizing amb s with
  | done r => rfl
  | op o k ih => exact ⟨_, ih _⟩

end Answers

/-! ### Taking turns -/

section Turns

variable {σ η κ : Type} (exec : η → (o : Op) → σ → Except ε (Res o) × σ) (waits : Op → Bool)

/-- Runs a program until an operation it waits for has answered, or to its end. -/
def advance : Async Op Res ε α → (ℕ → η) → σ → Async Op Res ε α × σ
  | .done r, _, s => (.done r, s)
  | .op o k, amb, s =>
    if waits o then (k (exec (amb 0) o s).1, (exec (amb 0) o s).2)
    else (k (exec (amb 0) o s).1).advance (fun n => amb (n + 1)) (exec (amb 0) o s).2

/-- The operations `advance` performs. -/
def turnOps : Async Op Res ε α → (ℕ → η) → σ → List Op
  | .done _, _, _ => []
  | .op o k, amb, s =>
    if waits o then [o]
    else o :: (k (exec (amb 0) o s).1).turnOps (fun n => amb (n + 1)) (exec (amb 0) o s).2

/-- The operations `advance` performs, each with its answer. -/
def turnAnswers : Async Op Res ε α → (ℕ → η) → σ → List ((o : Op) × Except ε (Res o))
  | .done _, _, _ => []
  | .op o k, amb, s =>
    if waits o then [⟨o, (exec (amb 0) o s).1⟩]
    else ⟨o, (exec (amb 0) o s).1⟩ ::
      (k (exec (amb 0) o s).1).turnAnswers (fun n => amb (n + 1)) (exec (amb 0) o s).2

variable {exec waits}

theorem mem_turnOps_of_mem_turnAnswers {p : Async Op Res ε α} {amb : ℕ → η} {s : σ}
    {a : (o : Op) × Except ε (Res o)} (h : a ∈ turnAnswers exec waits p amb s) : a.1 ∈ turnOps exec waits p amb s := by
  induction p generalizing amb s with
  | done r => cases h
  | op o k ih =>
    unfold turnAnswers at h
    unfold turnOps
    split at h
    · rename_i hw
      rw [if_pos hw]
      rw [List.mem_singleton.1 h]
      exact List.mem_singleton_self _
    · rename_i hw
      rw [if_neg hw]
      rcases List.mem_cons.1 h with rfl | h
      · exact List.mem_cons_self
      · exact List.mem_cons_of_mem _ (ih _ h)

theorem advance_induction {M : Async Op Res ε α → σ → Prop} {C : Op → Prop}
    (hM : ∀ o k s a, C o → M (.op o k) s → M (k (exec a o s).1) (exec a o s).2)
    {p : Async Op Res ε α} {amb : ℕ → η} {s : σ} (hC : ∀ o ∈ turnOps exec waits p amb s, C o)
    (h : M p s) : M (advance exec waits p amb s).1 (advance exec waits p amb s).2 := by
  induction p generalizing amb s with
  | done r => exact h
  | op o k ih =>
    by_cases hw : waits o = true
    · have ho : C o := hC o (by simp [turnOps, hw])
      simpa [advance, hw] using hM o k s (amb 0) ho h
    · have ho : C o := hC o (by simp [turnOps, hw])
      simp only [advance, hw, Bool.false_eq_true, if_false]
      refine ih _ (fun o' ho' => hC o' ?_) (hM o k s (amb 0) ho h)
      simp only [turnOps, hw, Bool.false_eq_true, if_false]
      exact List.mem_cons_of_mem _ ho'

/-- A turn: without waiting it ends in `D`, or it waits for an operation and goes on in `W`. -/
def turn (exec : η → (o : Op) → σ → Except ε (Res o) × σ) (waits : Op → Bool)
    (D : Except ε α → (ℕ → η) → σ → Prop) (W : Op → Async Op Res ε α → σ → Prop) :
    Async Op Res ε α → (ℕ → η) → σ → Prop
  | .done r, amb, s => D r amb s
  | .op o k, amb, s =>
    if waits o then W o (k (exec (amb 0) o s).1) (exec (amb 0) o s).2
    else (k (exec (amb 0) o s).1).turn exec waits D W (fun n => amb (n + 1)) (exec (amb 0) o s).2

variable {D D' : Except ε α → (ℕ → η) → σ → Prop} {W W' : Op → Async Op Res ε α → σ → Prop}
  {p : Async Op Res ε α} {amb : ℕ → η} {s : σ}

@[simp] theorem turn_done {r : Except ε α} : turn exec waits D W (.done r) amb s ↔ D r amb s :=
  Iff.rfl

theorem turn_op {o : Op} {k : Except ε (Res o) → Async Op Res ε α} :
    turn exec waits D W (.op o k) amb s ↔
      if waits o then W o (k (exec (amb 0) o s).1) (exec (amb 0) o s).2
      else turn exec waits D W (k (exec (amb 0) o s).1) (fun n => amb (n + 1))
        (exec (amb 0) o s).2 := Iff.rfl

theorem turn_mono (h : turn exec waits D W p amb s) (hd : ∀ r amb' s', D r amb' s' → D' r amb' s')
    (hw : ∀ o p' s', W o p' s' → W' o p' s') : turn exec waits D' W' p amb s := by
  induction p generalizing amb s with
  | done r => exact hd _ _ _ h
  | op o k ih =>
    rw [turn_op] at h ⊢
    split
    · rename_i ho
      rw [if_pos ho] at h
      exact hw _ _ _ h
    · rename_i ho
      rw [if_neg ho] at h
      exact ih _ h

theorem turn_bind {f : α → Async Op Res ε β} {E : Except ε β → (ℕ → η) → σ → Prop}
    {V : Op → Async Op Res ε β → σ → Prop} :
    turn exec waits E V (p >>= f) amb s ↔
      turn exec waits (fun r amb' s' => match r with
        | .ok a => turn exec waits E V (f a) amb' s'
        | .error e => E (.error e) amb' s') (fun o p' s' => V o (p' >>= f) s') p amb s := by
  induction p generalizing amb s with
  | done r => cases r <;> rfl
  | op o k ih =>
    rw [op_bind, turn_op, turn_op]
    split
    · rfl
    · exact ih _

theorem turn_tryCatch {h : ε → Async Op Res ε α} :
    turn exec waits D W (tryCatch p h) amb s ↔
      turn exec waits (fun r amb' s' => match r with
        | .ok a => D (.ok a) amb' s'
        | .error e => turn exec waits D W (h e) amb' s')
        (fun o p' s' => W o (tryCatch p' h) s') p amb s := by
  induction p generalizing amb s with
  | done r => cases r <;> rfl
  | op o k ih =>
    rw [tryCatch_op, turn_op, turn_op]
    split
    · rfl
    · exact ih _

/-- **A turn is what `advance` does**, and what it waits for is all it performs of that kind. -/
theorem advance_turn {Q : Async Op Res ε α → σ → Prop} {C : Op → Prop} (hC : ∀ o, waits o = false → C o)
    (h : turn exec waits (fun r _ s' => Q (.done r) s') (fun o p' s' => C o ∧ Q p' s') p amb s) :
    Q (advance exec waits p amb s).1 (advance exec waits p amb s).2 ∧ ∀ o ∈ turnOps exec waits p amb s, C o := by
  induction p generalizing amb s with
  | done r => exact ⟨h, by simp [turnOps]⟩
  | op o k ih =>
    rw [turn_op] at h
    by_cases ho : waits o = true
    · rw [if_pos ho] at h
      simpa [advance, turnOps, ho] using And.intro h.2 h.1
    · rw [if_neg ho] at h
      obtain ⟨hq, hops⟩ := ih _ h
      simp only [advance, turnOps, ho, Bool.false_eq_true, if_false, List.forall_mem_cons]
      exact ⟨hq, hC o (by simpa using ho), hops⟩

end Turns

end Async

/-! ### Programs over a state -/

/-- The operations of a program that reads and writes its whole state, and asks others for the rest. -/
inductive StateOp (σ Ext : Type) where
  | get
  | set (s : σ)
  | ext (o : Ext)

namespace StateOp

variable {σ Ext η ε : Type} {R : Ext → Type}

@[reducible] def Res (R : Ext → Type) : StateOp σ Ext → Type
  | .get => σ
  | .set _ => Unit
  | .ext o => R o

/-- Performs an operation; `answer` says what the others answer. -/
def exec (answer : η → (o : Ext) → Except ε (R o)) (a : η) (o : StateOp σ Ext) (s : σ) :
    Except ε (o.Res R) × σ :=
  match o with
  | .get => (.ok s, s)
  | .set s' => (.ok (), s')
  | .ext o => (answer a o, s)

/-- Only the others are waited for, and not all of them. -/
def awaited (waits : Ext → Bool) : StateOp σ Ext → Bool
  | .ext o => waits o
  | _ => false

def getState : Async (StateOp σ Ext) (Res R) ε σ := Async.perform StateOp.get

def setState (s : σ) : Async (StateOp σ Ext) (Res R) ε Unit := Async.perform (StateOp.set s)

def modifyState (f : σ → σ) : Async (StateOp σ Ext) (Res R) ε Unit := do
  let s ← getState
  setState (f s)

def ask (o : Ext) : Async (StateOp σ Ext) (Res R) ε (R o) := Async.perform (StateOp.ext o)

variable {answer : η → (o : Ext) → Except ε (R o)} {α : Type} {amb : ℕ → η} {s : σ}
  {Q : Except ε α → (ℕ → η) → σ → Prop}

section Turns

variable {waits : Ext → Bool} {D : Except ε α → (ℕ → η) → σ → Prop}
  {W : StateOp σ Ext → Async (StateOp σ Ext) (Res R) ε α → σ → Prop}

@[simp] theorem turn_getState {f : σ → Async (StateOp σ Ext) (Res R) ε α} :
    Async.turn (exec answer) (awaited waits) D W (getState >>= f) amb s ↔
      Async.turn (exec answer) (awaited waits) D W (f s) (fun n => amb (n + 1)) s := Iff.rfl

@[simp] theorem turn_modifyState {g : σ → σ} {f : Unit → Async (StateOp σ Ext) (Res R) ε α} :
    Async.turn (exec answer) (awaited waits) D W (modifyState g >>= f) amb s ↔
      Async.turn (exec answer) (awaited waits) D W (f ()) (fun n => amb (n + 1 + 1)) (g s) := Iff.rfl

theorem turn_ask {o : Ext} {f : R o → Async (StateOp σ Ext) (Res R) ε α} (ho : waits o = false) :
    Async.turn (exec answer) (awaited waits) D W (ask o >>= f) amb s ↔
      Async.turn (exec answer) (awaited waits) D W (Async.ofExcept (answer (amb 0) o) >>= f)
        (fun n => amb (n + 1)) s := by
  show (if awaited waits (.ext o) then _ else _) ↔ _
  rw [if_neg (by simp [awaited, ho])]
  rfl

theorem turn_wait {o : Ext} {f : R o → Async (StateOp σ Ext) (Res R) ε α} (ho : waits o = true) :
    Async.turn (exec answer) (awaited waits) D W (ask o >>= f) amb s ↔
      W (.ext o) (Async.ofExcept (answer (amb 0) o) >>= f) s := by
  show (if awaited waits (.ext o) then _ else _) ↔ _
  rw [if_pos (by simp [awaited, ho])]
  rfl

end Turns

end StateOp

/-! ### Pools of programs -/

/-- Calls in flight, each under the name it was started with, and the state they share.  A call that
has ended stays, with its result. -/
structure Pool (κ σ : Type) (Op : Type) (Res : Op → Type) (ε α : Type) where
  state : σ
  calls : List (κ × Async Op Res ε α)

/-- A call is started, or the `i`-th call takes a turn. -/
inductive Turn (κ η : Type) where
  | start (c : κ)
  | resume (i : ℕ) (amb : ℕ → η)

namespace Pool

variable {κ σ η Op : Type} {Res : Op → Type} {ε α : Type}

def step (exec : η → (o : Op) → σ → Except ε (Res o) × σ) (waits : Op → Bool)
    (program : κ → Async Op Res ε α) (w : Pool κ σ Op Res ε α) :
    Turn κ η → Pool κ σ Op Res ε α
  | .start c => { w with calls := w.calls ++ [(c, program c)] }
  | .resume i amb =>
    match w.calls[i]? with
    | none => w
    | some (c, p) =>
      ⟨(p.advance exec waits amb w.state).2,
        w.calls.set i (c, (p.advance exec waits amb w.state).1)⟩

variable {exec : η → (o : Op) → σ → Except ε (Res o) × σ} {waits : Op → Bool}
  {program : κ → Async Op Res ε α} {w : Pool κ σ Op Res ε α}

@[simp] theorem step_start {c : κ} : w.step exec waits program (.start c) =
    { w with calls := w.calls ++ [(c, program c)] } := rfl

theorem step_resume_none {i : ℕ} {amb : ℕ → η} (h : w.calls[i]? = none) :
    w.step exec waits program (.resume i amb) = w := by
  simp [step, h]

theorem step_resume {i : ℕ} {amb : ℕ → η} {c : κ} {p : Async Op Res ε α}
    (h : w.calls[i]? = some (c, p)) : w.step exec waits program (.resume i amb) =
      ⟨(p.advance exec waits amb w.state).2, w.calls.set i (c, (p.advance exec waits amb w.state).1)⟩ := by
  simp [step, h]

end Pool

end NpsSdk.Lib
