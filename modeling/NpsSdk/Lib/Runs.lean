import Mathlib.Data.List.Basic
import Mathlib.Data.List.Induction

/-!
# Runs of a machine

A machine is a function from a state and an event to the next state, and a run is the fold of a
sequence of events.  `Along` says that a condition holds of every state and event a run passes.
-/

namespace NpsSdk.Lib

variable {σ ε : Type*} (step : σ → ε → σ)

/-- The state after the events `es`. -/
def run (s : σ) (es : List ε) : σ := es.foldl step s

/-- `P` holds of each event of `es` and the state it meets. -/
def Along (P : σ → ε → Prop) (s : σ) (es : List ε) : Prop :=
  ∀ pre e post, es = pre ++ e :: post → P (run step s pre) e

/-- `Along`, for a condition that is computed. -/
def alongAll (p : σ → ε → Bool) : σ → List ε → Bool
  | _, [] => true
  | s, e :: es => p s e && alongAll p (step s e) es

variable {step} {P : σ → ε → Prop} {s : σ} {es : List ε} {e : ε}

@[simp] theorem run_nil : run step s [] = s := rfl

@[simp] theorem run_cons : run step s (e :: es) = run step (step s e) es := rfl

theorem run_snoc : run step s (es ++ [e]) = step (run step s es) e := by
  simp [run, List.foldl_append]

theorem run_append {es' : List ε} : run step s (es ++ es') = run step (run step s es) es' := by
  simp [run, List.foldl_append]

theorem along_nil : Along step P s [] := by
  intro pre e post h
  simp at h

theorem along_snoc : Along step P s (es ++ [e]) ↔ Along step P s es ∧ P (run step s es) e := by
  constructor
  · intro h
    exact ⟨fun pre e' post heq => h pre e' (post ++ [e]) (by simp [heq]), h es e [] rfl⟩
  · rintro ⟨h, he⟩ pre e' post heq
    rcases List.eq_nil_or_concat post with rfl | ⟨post', x, rfl⟩
    · obtain ⟨rfl, h2⟩ := List.append_inj' heq rfl
      cases h2
      exact he
    · rw [List.concat_eq_append, ← List.cons_append, ← List.append_assoc] at heq
      obtain ⟨hes, -⟩ := List.append_inj' heq rfl
      exact h pre e' post' hes

theorem along_cons : Along step P s (e :: es) ↔ P s e ∧ Along step P (step s e) es := by
  constructor
  · intro h
    exact ⟨h [] e es rfl, fun pre e' post heq => h (e :: pre) e' post (by simp [heq])⟩
  · rintro ⟨he, h⟩ pre e' post heq
    cases pre with
    | nil =>
      cases heq
      exact he
    | cons x pre =>
      cases heq
      exact h pre e' post rfl

theorem along_append {es' : List ε} (h : Along step P s es) (h' : Along step P (run step s es) es') :
    Along step P s (es ++ es') := by
  induction es generalizing s with
  | nil => exact h'
  | cons e es ih =>
    obtain ⟨he, hes⟩ := along_cons.1 h
    exact along_cons.2 ⟨he, ih hes h'⟩

theorem Along.upTo {pre post : List ε} (h : Along step P s es) (hes : es = pre ++ e :: post) :
    Along step P s pre ∧ P (run step s pre) e := by
  refine ⟨fun pre' e' post' heq => h pre' e' (post' ++ e :: post) ?_, h pre e post hes⟩
  rw [hes, heq, List.append_assoc, List.cons_append]

theorem Along.within {pre mid post : List ε} (h : Along step P s (pre ++ (mid ++ post))) :
    Along step P (run step s pre) mid := by
  rintro pre' e post' rfl
  rw [← run_append]
  exact h (pre ++ pre') e (post' ++ post) (by simp)

theorem Along.mono {Q : σ → ε → Prop} (h : Along step P s es) (hpq : ∀ s e, P s e → Q s e) :
    Along step Q s es := fun pre e post heq => hpq _ _ (h pre e post heq)

theorem along_of_alongAll {p : σ → ε → Bool} (h : alongAll step p s es = true) :
    Along step (fun s e => p s e = true) s es := by
  induction es generalizing s with
  | nil => exact along_nil
  | cons e es ih =>
    simp only [alongAll, Bool.and_eq_true] at h
    exact along_cons.2 ⟨h.1, ih h.2⟩

theorem run_induction {I : σ → Prop} (h0 : I s) (hstep : ∀ s e, I s → I (step s e)) : I (run step s es) := by
  induction es generalizing s with
  | nil => exact h0
  | cons e es ih => exact ih (hstep s e h0)

theorem run_induction_along {I : σ → Prop} (h0 : I s) (hstep : ∀ s e, I s → P s e → I (step s e))
    (h : Along step P s es) : I (run step s es) := by
  induction es using List.reverseRecOn with
  | nil => exact h0
  | append_singleton es e ih =>
    obtain ⟨h1, h2⟩ := along_snoc.1 h
    rw [run_snoc]
    exact hstep _ _ (ih h1) h2

theorem forall_prefix_iff_along {I : σ → Prop} (hstep : ∀ s e, I s → (I (step s e) ↔ P s e)) :
    (∀ before, before <+: es → I (run step s before)) ↔ I s ∧ Along step P s es := by
  constructor
  · intro h
    refine ⟨h [] List.nil_prefix, fun pre e post heq => ?_⟩
    have hpre : I (run step s pre) := h pre ⟨e :: post, heq.symm⟩
    have hnext : I (run step s (pre ++ [e])) := h _ ⟨post, by simp [heq]⟩
    rw [run_snoc] at hnext
    exact (hstep _ _ hpre).1 hnext
  · rintro ⟨h0, h⟩ before ⟨after, rfl⟩
    refine run_induction_along h0 (fun s e hs he => (hstep s e hs).2 he) (P := P) fun pre e post heq => ?_
    exact h pre e (post ++ after) (by simp [heq])

theorem run_induction_history {I : σ → List ε → Prop} (h0 : I s [])
    (hstep : ∀ es e, I (run step s es) es → I (step (run step s es) e) (es ++ [e])) : I (run step s es) es := by
  induction es using List.reverseRecOn with
  | nil => exact h0
  | append_singleton es e ih =>
    rw [run_snoc]
    exact hstep es e ih

/-! ### What is noted along a run -/

section

variable {ν : Type*} (note : ν → σ → ε → ν)

/-- The notes taken along a run: each is taken of an event and the state it meets. -/
def noted (step : σ → ε → σ) (n : ν) (s : σ) (es : List ε) : ν :=
  (run (fun p e => (step p.1 e, note p.2 p.1 e)) (s, n) es).2

variable {note} {n : ν}

@[simp] theorem noted_nil : noted note step n s [] = n := rfl

theorem noted_snoc : noted note step n s (es ++ [e]) = note (noted note step n s es) (run step s es) e := by
  have hfst : ∀ es, (run (fun (p : σ × ν) e => (step p.1 e, note p.2 p.1 e)) (s, n) es).1 = run step s es := by
    intro es
    induction es using List.reverseRecOn with
    | nil => rfl
    | append_singleton es e ih => rw [run_snoc, run_snoc, ih]
  rw [noted, run_snoc, hfst]
  rfl

theorem noted_induction {I : σ → ν → Prop} (h0 : I s n) (hstep : ∀ s n e, I s n → I (step s e) (note n s e)) :
    I (run step s es) (noted note step n s es) := by
  induction es using List.reverseRecOn with
  | nil => exact h0
  | append_singleton es e ih =>
    rw [run_snoc, noted_snoc]
    exact hstep _ _ e ih

end

/-! ### The parties of a machine -/

section

variable {α : Type*} {parties : List α} {i j : ℕ} {a a' b : α}

theorem getElem?_set_cases (hi : parties[i]? = some a) (hj : (parties.set i a')[j]? = some b) :
    j = i ∧ b = a' ∨ j ≠ i ∧ parties[j]? = some b := by
  by_cases hij : j = i
  · subst hij
    have hlt : j < parties.length := (List.getElem?_eq_some_iff.1 hi).1
    rw [List.getElem?_set_self hlt, Option.some.injEq] at hj
    exact .inl ⟨rfl, hj.symm⟩
  · rw [List.getElem?_set_ne (Ne.symm hij)] at hj
    exact .inr ⟨hij, hj⟩

theorem mem_set_self (hi : parties[i]? = some a) : a' ∈ parties.set i a' := by
  have hlt : i < parties.length := (List.getElem?_eq_some_iff.1 hi).1
  exact List.mem_of_getElem? (List.getElem?_set_self hlt)

theorem mem_set_ne (hj : parties[j]? = some b) (hij : j ≠ i) : b ∈ parties.set i a' :=
  List.mem_of_getElem? (by rw [List.getElem?_set_ne (Ne.symm hij), hj])

theorem getElem?_snoc_cases (hj : (parties ++ [a])[j]? = some b) :
    j = parties.length ∧ b = a ∨ parties[j]? = some b := by
  rw [List.getElem?_append] at hj
  split at hj
  · exact .inr hj
  · rename_i hlt
    rw [List.getElem?_singleton] at hj
    split at hj
    · cases hj
      exact .inl ⟨by omega, rfl⟩
    · cases hj

end

end NpsSdk.Lib
