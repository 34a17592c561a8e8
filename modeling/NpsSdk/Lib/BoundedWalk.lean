import Mathlib.Data.List.Chain
import Mathlib.Data.Set.Insert

/-!
# Walks with a budget

A visit to a node carries a budget of steps and the set of nodes it has come through.  It goes on only from a
node that it has not come through, with a step less, and having come through that node as well.

Whatever the graph is, a walk has no more steps than the budget it starts with, and a node that it comes back to
is never new: so nothing is visited anew twice, and what is asked along all walks has an answer.
-/

namespace NpsSdk.Lib

variable {N : Type*}

structure Visit (N : Type*) where
  node : N
  budget : ℕ
  visited : Set N

namespace Visit

/-- A visit to a node that it has not come through. -/
def IsNew (v : Visit N) : Prop := v.node ∉ v.visited

/-- From a visit to the next one. -/
structure Step (v w : Visit N) : Prop where
  isNew : v.IsNew
  budget : w.budget + 1 = v.budget
  visited : w.visited = insert v.node v.visited

/-- A visit that has come through the nodes of another one. -/
def After (v w : Visit N) : Prop := insert v.node v.visited ⊆ w.visited

theorem Step.after {v w : Visit N} (h : Step v w) : After v w := h.visited.ge

instance : Trans (After (N := N)) After After where
  trans h₁ h₂ := h₁.trans ((Set.subset_insert _ _).trans h₂)

variable {v : Visit N} {vs : List (Visit N)}

theorem length_le_budget (h : List.IsChain Step (v :: vs)) : vs.length ≤ v.budget := by
  induction vs generalizing v with
  | nil => exact Nat.zero_le _
  | cons w vs ih =>
    obtain ⟨hstep, hrest⟩ := List.isChain_cons_cons.1 h
    have hle := ih hrest
    have hbudget := hstep.budget
    rw [List.length_cons]
    omega

theorem pairwise_after (h : List.IsChain Step vs) : vs.Pairwise After :=
  (h.imp fun _ _ => Step.after).pairwise

/-- **No return**: a visit that is new is to another node than each one before it. -/
theorem pairwise_ne (h : List.IsChain Step vs) : vs.Pairwise fun a b => b.IsNew → a.node ≠ b.node := by
  refine (pairwise_after h).imp fun hafter hnew heq => hnew ?_
  rw [← heq]
  exact hafter (Set.mem_insert _ _)

end Visit

/-! ### What is asked along walks -/

section Ask

variable {C R : Type*} [Nonempty R] (Answers : ℕ → C → R → Prop) (Calls : C → C → Prop) {size : C → ℕ}

theorem exists_answer (hsmaller : ∀ {c d}, Calls c d → size d < size c)
    (hanswer : ∀ c (answer : C → R), ∃ r, ∀ n, (∀ d, Calls c d → Answers n d (answer d)) → Answers (n + 1) c r)
    (c : C) : ∃ r, ∀ n, size c < n → Answers n c r := by
  induction hsize : size c using Nat.strong_induction_on generalizing c with
  | _ k ih =>
    have hchildren : ∀ d, Calls c d → ∃ r, ∀ n, size d < n → Answers n d r := fun d hd =>
      ih (size d) (hsize ▸ hsmaller hd) d rfl
    choose! answer hanswers using hchildren
    obtain ⟨r, hr⟩ := hanswer c answer
    refine ⟨r, fun n hn => ?_⟩
    obtain ⟨m, rfl⟩ : ∃ m, n = m + 1 := ⟨n - 1, by omega⟩
    refine hr m fun d hd => hanswers d hd m ?_
    have hlt := hsmaller hd
    omega

end Ask

end NpsSdk.Lib
