import Mathlib.Tactic.Common

/-!
# Results of computations that may throw
-/

namespace NpsSdk.Lib

variable {ε α β : Type}

theorem ok_bind {x : Except ε α} {f : α → Except ε β} {b : β} : (x >>= f) = .ok b ↔ ∃ a, x = .ok a ∧ f a = .ok b := by
  cases x with
  | error e => simp [bind, Except.bind]
  | ok a => simp [bind, Except.bind]

theorem ok_check {p : Prop} [Decidable p] {x : Except ε α} {f : α → Except ε β}
    {g : Except ε β} {b : β} (hx : ∀ a, x ≠ .ok a) :
    (if p then x >>= f else g) = .ok b ↔ ¬ p ∧ g = .ok b := by
  by_cases hp : p
  · simp only [hp, if_true, not_true_eq_false, false_and, iff_false, ok_bind, not_exists, not_and]
    exact fun a ha => absurd ha (hx a)
  · simp only [hp, if_false, not_false_eq_true, true_and]

theorem map_bind_congr {ε α β β' γ : Type} {x : Except ε α} {f : α → Except ε β} {f' : α → Except ε β'}
    {g : β → γ} {g' : β' → γ} (h : ∀ a, (f a).map g = (f' a).map g') : (x >>= f).map g = (x >>= f').map g' := by
  cases x with
  | error e => rfl
  | ok a => exact h a

theorem exists_of_mem_mapM {f : α → Except ε β} {xs : List α} {ys : List β} {y : β}
    (h : xs.mapM f = .ok ys) (hy : y ∈ ys) : ∃ x ∈ xs, f x = .ok y := by
  induction xs generalizing ys with
  | nil =>
    cases h
    cases hy
  | cons x xs ih =>
    rw [List.mapM_cons] at h
    obtain ⟨z, hx, h⟩ := ok_bind.1 h
    obtain ⟨zs, hxs, h⟩ := ok_bind.1 h
    cases h
    rcases List.mem_cons.1 hy with rfl | hy
    · exact ⟨x, List.mem_cons_self, hx⟩
    · obtain ⟨x', hx', heq⟩ := ih hxs hy
      exact ⟨x', List.mem_cons_of_mem _ hx', heq⟩

theorem mapM_answered {f : α → ExceptT ε Option β} {g : α → β} {xs : List α}
    (h : ∀ x ∈ xs, f x = some (.ok (g x))) : xs.mapM f = (some (.ok (xs.map g)) : ExceptT ε Option (List β)) := by
  induction xs with
  | nil => rfl
  | cons x xs ih =>
    rw [List.mapM_cons, h x List.mem_cons_self, ih fun y hy => h y (List.mem_cons_of_mem x hy)]
    rfl

end NpsSdk.Lib
