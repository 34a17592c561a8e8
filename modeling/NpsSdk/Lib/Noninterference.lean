import NpsSdk.Lib.Runs

/-!
# Noninterference

A machine that answers its events, and one party that sees the answers to some of them.  The run of all
is compared with the run in which each event of the others leaves a residue only: the party sees the
same in both where a relation of their states unwinds.
-/

namespace NpsSdk.Lib

variable {σ ε ο : Type*} (step : σ → ε → σ) (out : σ → ε → ο) (mine : ε → Bool) (residue : σ → ε → List ε)

/-- The answers that the party sees along a run. -/
def observed : σ → List ε → List ο
  | _, [] => []
  | s, e :: es => if mine e then out s e :: observed (step s e) es else observed (step s e) es

/-- A run with the residues of the events of others in their places. -/
def purged : σ → List ε → List ε
  | _, [] => []
  | s, e :: es => (if mine e then [e] else residue s e) ++ purged (step s e) es

/-- What relates the states of a run to those of its purged run; `I` is an invariant of the run and of
the events to come. -/
structure Unwinding (I : σ → List ε → Prop) (R : σ → σ → Prop) : Prop where
  invariant : ∀ {s e es}, I s (e :: es) → I (step s e) es
  answer : ∀ {s s' e es}, I s (e :: es) → R s s' → mine e → out s e = out s' e
  own : ∀ {s s' e es}, I s (e :: es) → R s s' → mine e → R (step s e) (step s' e)
  other : ∀ {s s' e es}, I s (e :: es) → R s s' → mine e = false → R (step s e) (run step s' (residue s e))
  silent : ∀ {s e}, mine e = false → ∀ x ∈ residue s e, mine x = false

variable {step out mine residue} {s s' : σ} {es es' : List ε}

theorem observed_append_of_silent (h : ∀ x ∈ es', mine x = false) :
    observed step out mine s (es' ++ es) = observed step out mine (run step s es') es := by
  induction es' generalizing s with
  | nil => rfl
  | cons x xs ih =>
    have hx : mine x = false := h x List.mem_cons_self
    rw [List.cons_append, observed, hx, if_neg (by decide), run_cons]
    exact ih fun y hy => h y (List.mem_cons_of_mem x hy)

/-- **Noninterference, by unwinding.** -/
theorem Unwinding.observed_eq {I : σ → List ε → Prop} {R : σ → σ → Prop}
    (h : Unwinding step out mine residue I R) (hI : I s es) (hR : R s s') :
    observed step out mine s es = observed step out mine s' (purged step mine residue s es) := by
  induction es generalizing s s' with
  | nil => rfl
  | cons e es ih =>
    cases he : mine e with
    | true =>
      have hrest := ih (h.invariant hI) (h.own hI hR he)
      rw [purged, he, if_pos rfl, List.singleton_append, observed, observed, he, if_pos rfl, if_pos rfl,
        h.answer hI hR he, hrest]
    | false =>
      have hrest := ih (h.invariant hI) (h.other hI hR he)
      rw [purged, he, if_neg (by decide), observed_append_of_silent (h.silent he), observed, he,
        if_neg (by decide), hrest]

end NpsSdk.Lib
