import Mathlib.Data.List.Basic

/-!
# Failover reconnects

`NcpFailoverConnector.connect` of `ncp/failover-connector.ts` resolves the active anchor anew for each attempt, so
its delegates may answer each attempt in another way.
-/

namespace NpsSdk.Ncp

structure AnchorEndpoint where
  host : String
  port : ℕ

/-- What an attempt meets: what `throwIfAborted` throws, and the answers of the delegates. -/
structure Attempt (E S : Type) where
  aborted : Option E
  resolveActive : Except E AnchorEndpoint
  connect : AnchorEndpoint → Except E S

structure NcpFailoverConnector (E : Type) where
  maxAttempts : ℕ
  isFailoverShaped : E → Bool
  positive : 0 < maxAttempts

variable {E S : Type}

/-- What an attempt returns or throws, and the endpoint it dials. -/
def Attempt.run (a : Attempt E S) : Except E S × Option AnchorEndpoint :=
  match a.aborted, a.resolveActive with
  | some e, _ => (.error e, none)
  | none, .error e => (.error e, none)
  | none, .ok endpoint => (a.connect endpoint, some endpoint)

namespace NcpFailoverConnector

variable (c : NcpFailoverConnector E) (attempts : ℕ → Attempt E S)

/-- The error of an attempt that is caught; only `connect` is under the `try`. -/
def caught (a : Attempt E S) : Option E :=
  match a.run with
  | (.error e, some _) => if c.isFailoverShaped e then some e else none
  | _ => none

/-- The loop over the attempts to come, with the endpoints it dials. -/
def connectFrom : ℕ → (ℕ → Attempt E S) → Option E → Except (Option E) S × List AnchorEndpoint
  | 0, _, lastError => (.error lastError, [])
  | left + 1, attempts, _ =>
    match c.caught (attempts 0) with
    | some e =>
      let rest := connectFrom left (fun i => attempts (i + 1)) (some e)
      (rest.1, (attempts 0).run.2.toList ++ rest.2)
    | none => ((attempts 0).run.1.mapError some, (attempts 0).run.2.toList)

def connect : Except (Option E) S × List AnchorEndpoint := c.connectFrom c.maxAttempts attempts none

/-- The course of a call with some attempts left: `n` of them fail over. -/
structure Course (left : ℕ) (lastError : Option E) (answer : Except (Option E) S × List AnchorEndpoint) (n : ℕ) :
    Prop where
  le : n ≤ left
  failed : ∀ i < n, (c.caught (attempts i)).isSome
  dialled : answer.2 = (List.range (min (n + 1) left)).flatMap fun i => (attempts i).run.2.toList
  ended : n < left → c.caught (attempts n) = none ∧ answer.1 = (attempts n).run.1.mapError some
  exhausted : n = left → answer.1 = .error (if n = 0 then lastError else c.caught (attempts (n - 1)))

theorem connectFrom_course (left : ℕ) (lastError : Option E) :
    ∃ n, c.Course attempts left lastError (c.connectFrom left attempts lastError) n := by
  induction left generalizing attempts lastError with
  | zero => exact ⟨0, Nat.le_refl 0, by simp, rfl, by simp, fun _ => rfl⟩
  | succ left ih =>
    rw [connectFrom]
    cases hcaught : c.caught (attempts 0) with
    | none => exact ⟨0, Nat.zero_le _, by simp, by simp, fun _ => ⟨hcaught, rfl⟩, by simp⟩
    | some e =>
      obtain ⟨n, h⟩ := ih (fun i => attempts (i + 1)) (some e)
      refine ⟨n + 1, Nat.succ_le_succ h.le, fun i hi => ?_, ?_, fun hlt => h.ended (Nat.lt_of_succ_lt_succ hlt),
        fun heq => ?_⟩
      · cases i with
        | zero => rw [hcaught]; rfl
        | succ i => exact h.failed i (Nat.lt_of_succ_lt_succ hi)
      · rw [Nat.succ_min_succ, List.range_succ_eq_map, List.flatMap_cons, List.flatMap_map]
        exact congrArg (_ ++ ·) h.dialled
      · refine (h.exhausted (Nat.succ.inj heq)).trans ?_
        cases n with
        | zero => exact congrArg _ hcaught.symm
        | succ n => rfl

/-- **What a call of `connect` does**: some attempts fail over; it ends as the next one does, or it throws the last
failure if there is none. -/
theorem connect_course : ∃ n, c.Course attempts c.maxAttempts none (c.connect attempts) n ∧
    (c.connect attempts).1 ≠ .error none := by
  obtain ⟨n, h⟩ := c.connectFrom_course attempts c.maxAttempts none
  refine ⟨n, h, ?_⟩
  rcases Nat.lt_or_eq_of_le h.le with hlt | heq
  · rw [connect, (h.ended hlt).2]
    cases (attempts n).run.1 <;> simp [Except.mapError]
  · have hpos : n ≠ 0 := heq ▸ Nat.ne_of_gt c.positive
    have hlast := h.failed (n - 1) (Nat.sub_one_lt hpos)
    rw [connect, h.exhausted heq, if_neg hpos]
    intro hnone
    rw [Except.error.inj hnone] at hlast
    cases hlast

end NcpFailoverConnector

end NpsSdk.Ncp
