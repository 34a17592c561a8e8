import NpsSdk.Lib.Async

/-!
# What a program exchanges with its surroundings

An exchange is an operation with its answer.  `Always` says what holds of a program whatever its
operations answer: a condition of each operation, given the exchanges before it, and one of the
result, given all exchanges.  `PassesTo` says that certain results come only after certain exchanges;
in a turn the exchange takes place, or it is still to come.
-/

namespace NpsSdk.Lib

/-- An operation and what it answered. -/
abbrev Exchange (Op : Type) (Res : Op → Type) (ε : Type) := (o : Op) × Except ε (Res o)

namespace Async

variable {Op : Type} {Res : Op → Type} {ε α β : Type}

section Always

variable (C : List (Exchange Op Res ε) → Op → Prop)

/-- Whatever the operations answer, each meets `C` and the result meets `Q`. -/
def Always (Q : List (Exchange Op Res ε) → Except ε α → Prop) :
    Async Op Res ε α → List (Exchange Op Res ε) → Prop
  | .done r, log => Q log r
  | .op o k, log => C log o ∧ ∀ a, (k a).Always Q (log ++ [⟨o, a⟩])

variable {C} {p : Async Op Res ε α} {log : List (Exchange Op Res ε)}
  {Q Q' : List (Exchange Op Res ε) → Except ε α → Prop}

@[simp] theorem always_op {o : Op} {k : Except ε (Res o) → Async Op Res ε α} :
    Always C Q (.op o k) log ↔ C log o ∧ ∀ a, Always C Q (k a) (log ++ [⟨o, a⟩]) := Iff.rfl

theorem Always.mono (h : Always C Q p log) (hq : ∀ log r, Q log r → Q' log r) : Always C Q' p log := by
  induction p generalizing log with
  | done r => exact hq _ _ h
  | op o k ih => exact ⟨h.1, fun a => ih a (h.2 a)⟩

theorem always_bind {f : α → Async Op Res ε β} {R : List (Exchange Op Res ε) → Except ε β → Prop} :
    Always C R (p >>= f) log ↔
      Always C (fun log r => match r with
        | .ok a => Always C R (f a) log
        | .error e => R log (.error e)) p log := by
  induction p generalizing log with
  | done r => cases r <;> rfl
  | op o k ih =>
    rw [op_bind, always_op, always_op]
    exact and_congr_right fun _ => forall_congr' fun a => ih a

theorem always_tryCatch {h : ε → Async Op Res ε α} :
    Always C Q (tryCatch p h) log ↔
      Always C (fun log r => match r with
        | .ok a => Q log (.ok a)
        | .error e => Always C Q (h e) log) p log := by
  induction p generalizing log with
  | done r => cases r <;> rfl
  | op o k ih =>
    rw [tryCatch_op, always_op, always_op]
    exact and_congr_right fun _ => forall_congr' fun a => ih a

end Always

section Passing

variable (hit : Exchange Op Res ε → Prop) (R : α → Prop)

/-- Each way to a result in `R` passes an exchange in `hit`. -/
def PassesTo : Async Op Res ε α → Prop
  | .done r => ∀ a, r = .ok a → ¬ R a
  | .op o k => ∀ a, hit ⟨o, a⟩ ∨ (k a).PassesTo

variable {hit R} {p : Async Op Res ε α} {log : List (Exchange Op Res ε)}
  {C : List (Exchange Op Res ε) → Op → Prop} {Q : List (Exchange Op Res ε) → Except ε α → Prop}

theorem Always.passesTo (h : Always C Q p log) (hq : ∀ log a, Q log (.ok a) → R a → ∃ x ∈ log, hit x) :
    (∃ x ∈ log, hit x) ∨ PassesTo hit R p := by
  induction p generalizing log with
  | done r =>
    by_cases hr : ∃ a, r = .ok a ∧ R a
    · obtain ⟨a, rfl, ha⟩ := hr
      exact .inl (hq log a h ha)
    · exact .inr fun a ha hra => hr ⟨a, ha, hra⟩
  | op o k ih =>
    by_cases hlog : ∃ x ∈ log, hit x
    · exact .inl hlog
    · refine .inr fun a => ?_
      rcases ih a (h.2 a) with ⟨x, hx, hhit⟩ | hpass
      · rcases List.mem_append.1 hx with hx | hx
        · exact absurd ⟨x, hx, hhit⟩ hlog
        · rw [List.mem_singleton.1 hx] at hhit
          exact .inl hhit
      · exact .inr hpass

end Passing

section Turns

variable {σ η : Type} (exec : η → (o : Op) → σ → Except ε (Res o) × σ) (waits : Op → Bool)

/-- The exchanges of `advance`. -/
def turnLog : Async Op Res ε α → (ℕ → η) → σ → List (Exchange Op Res ε)
  | .done _, _, _ => []
  | .op o k, amb, s =>
    if waits o then [⟨o, (exec (amb 0) o s).1⟩]
    else ⟨o, (exec (amb 0) o s).1⟩ ::
      (k (exec (amb 0) o s).1).turnLog (fun n => amb (n + 1)) (exec (amb 0) o s).2

variable {exec waits} {hit : Exchange Op Res ε → Prop} {R : α → Prop} {p : Async Op Res ε α}
  {amb : ℕ → η} {s : σ}

theorem PassesTo.advance (h : PassesTo hit R p) :
    (∃ x ∈ turnLog exec waits p amb s, hit x) ∨ PassesTo hit R (advance exec waits p amb s).1 := by
  induction p generalizing amb s with
  | done r => exact .inr h
  | op o k ih =>
    by_cases hw : waits o = true
    · rcases h (exec (amb 0) o s).1 with hhit | hpass
      · exact .inl ⟨_, by simp [turnLog, hw], hhit⟩
      · right
        simpa [Async.advance, hw] using hpass
    · rcases h (exec (amb 0) o s).1 with hhit | hpass
      · exact .inl ⟨_, by simp [turnLog, hw], hhit⟩
      · rcases @ih _ (fun n => amb (n + 1)) (exec (amb 0) o s).2 hpass with ⟨x, hx, hhit⟩ | hrest
        · refine .inl ⟨x, ?_, hhit⟩
          simp only [turnLog, hw, Bool.false_eq_true, if_false]
          exact List.mem_cons_of_mem _ hx
        · right
          simpa [Async.advance, hw] using hrest

theorem exchange_of_turn {x : Exchange Op Res ε} (hx : x ∈ turnLog exec waits p amb s)
    (hw : waits x.1 = true) (hquiet : ∀ a o s, waits o = false → (exec a o s).2 = s) :
    ∃ a, x.2 = (exec a x.1 s).1 ∧ (advance exec waits p amb s).2 = (exec a x.1 s).2 := by
  induction p generalizing amb s with
  | done r => cases hx
  | op o k ih =>
    by_cases ho : waits o = true
    · simp only [turnLog, ho, if_true, List.mem_singleton] at hx
      subst hx
      exact ⟨amb 0, rfl, by simp [Async.advance, ho]⟩
    · simp only [Bool.not_eq_true] at ho
      simp only [turnLog, ho, Bool.false_eq_true, if_false, List.mem_cons] at hx
      rcases hx with rfl | hx
      · rw [ho] at hw
        cases hw
      · rw [hquiet _ _ _ ho] at hx
        have := ih _ hx
        simpa only [Async.advance, ho, Bool.false_eq_true, if_false, hquiet _ _ _ ho] using this

end Turns

end Async

end NpsSdk.Lib
