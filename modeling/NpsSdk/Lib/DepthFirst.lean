import Mathlib.Data.List.Basic
import Mathlib.Logic.Relation

/-!
# What a search reaches

A depth-first search over an arbitrary type, with the nodes it has met kept in a list.  It is bounded by the
depth of its calls, and meets exactly what can be reached if the bound exceeds the number of nodes.
-/

namespace NpsSdk.Lib

open Relation

variable {κ : Type*} [DecidableEq κ]

/-- What is met from `x` on, after what was met before. -/
def collect (next : κ → List κ) : ℕ → List κ → κ → List κ
  | 0, seen, _ => seen
  | fuel + 1, seen, x =>
    (next x).foldl (fun seen d => if d ∈ seen then seen else collect next fuel (seen ++ [d]) d) seen

variable {next : κ → List κ} {ids seen : List κ} {x y : κ} {fuel : ℕ}

theorem reachable_of_mem_collect (h : y ∈ collect next fuel seen x) :
    y ∈ seen ∨ TransGen (fun a b => b ∈ next a) x y := by
  induction fuel generalizing seen x with
  | zero => exact .inl h
  | succ fuel ih =>
    have hfold : ∀ (ds acc : List κ), (∀ d ∈ ds, d ∈ next x) →
        y ∈ ds.foldl (fun seen d => if d ∈ seen then seen else collect next fuel (seen ++ [d]) d) acc →
        y ∈ acc ∨ TransGen (fun a b => b ∈ next a) x y := by
      intro ds
      induction ds with
      | nil => exact fun acc _ hy => .inl hy
      | cons d ds ihds =>
        intro acc hds hy
        have hd : d ∈ next x := hds d List.mem_cons_self
        rw [List.foldl_cons] at hy
        rcases ihds _ (fun e he => hds e (List.mem_cons_of_mem d he)) hy with hy | hy
        · split at hy
          · exact .inl hy
          · rcases ih hy with hy | hy
            · rcases List.mem_append.1 hy with hy | hy
              · exact .inl hy
              · rw [List.mem_singleton.1 hy]
                exact .inr (.single hd)
            · exact .inr (.head hd hy)
        · exact .inr hy
    exact hfold _ _ (fun d hd => hd) h

/-- The number of nodes that are not met yet. -/
def unmet (ids seen : List κ) : ℕ := (ids.filter fun x => x ∉ seen).length

theorem unmet_lt {acc : List κ} (hsub : seen ⊆ acc) (hy : y ∈ ids) (hnot : y ∉ seen) (hmem : y ∈ acc) :
    unmet ids acc < unmet ids seen := by
  have hfilter : ids.filter (fun x => x ∉ acc) = (ids.filter fun x => x ∉ seen).filter fun x => x ∉ acc := by
    rw [List.filter_filter]
    refine List.filter_congr fun x _ => ?_
    by_cases hx : x ∈ seen
    · simp [hx, hsub hx]
    · simp [hx]
  unfold unmet
  rw [hfilter, List.length_filter_lt_length_iff_exists]
  exact ⟨y, List.mem_filter.2 ⟨hy, by simpa using hnot⟩, by simpa using hmem⟩

/-- What a search with enough fuel leaves: it keeps what was met, meets what `x` leads to, and whatever it
meets newly leads to nothing that it does not meet. -/
theorem collect_closed (hids : ∀ x ∈ ids, ∀ d ∈ next x, d ∈ ids) (hx : x ∈ ids) (hfuel : unmet ids seen < fuel) :
    seen ⊆ collect next fuel seen x ∧ (∀ d ∈ next x, d ∈ collect next fuel seen x) ∧
      ∀ y ∈ collect next fuel seen x, y ∉ seen → ∀ d ∈ next y, d ∈ collect next fuel seen x := by
  induction fuel generalizing seen x with
  | zero => exact absurd hfuel (Nat.not_lt_zero _)
  | succ fuel ih =>
    have hfold : ∀ (ds acc : List κ), (∀ d ∈ ds, d ∈ ids) → seen ⊆ acc →
        (∀ y ∈ acc, y ∉ seen → ∀ d ∈ next y, d ∈ acc) →
        let acc' := ds.foldl (fun seen d => if d ∈ seen then seen else collect next fuel (seen ++ [d]) d) acc
        acc ⊆ acc' ∧ (∀ d ∈ ds, d ∈ acc') ∧ ∀ y ∈ acc', y ∉ seen → ∀ d ∈ next y, d ∈ acc' := by
      intro ds
      induction ds with
      | nil => exact fun acc _ _ hacc => ⟨List.Subset.refl _, by rintro d ⟨⟩, hacc⟩
      | cons d ds ihds =>
        intro acc hds hsub hacc
        have hd : d ∈ ids := hds d List.mem_cons_self
        have hds' : ∀ e ∈ ds, e ∈ ids := fun e he => hds e (List.mem_cons_of_mem d he)
        dsimp only
        rw [List.foldl_cons]
        split
        · rename_i hmem
          obtain ⟨h1, h2, h3⟩ := ihds acc hds' hsub hacc
          refine ⟨h1, fun e he => ?_, h3⟩
          rcases List.mem_cons.1 he with rfl | he
          · exact h1 hmem
          · exact h2 e he
        · rename_i hnot
          have hless : unmet ids (acc ++ [d]) < fuel := by
            have hlt : unmet ids (acc ++ [d]) < unmet ids seen :=
              unmet_lt (fun z hz => List.mem_append_left _ (hsub hz)) hd (fun hz => hnot (hsub hz)) (by simp)
            omega
          obtain ⟨k1, k2, k3⟩ := ih hd hless
          have hsub' : seen ⊆ collect next fuel (acc ++ [d]) d := fun z hz => k1 (List.mem_append_left _ (hsub hz))
          obtain ⟨h1, h2, h3⟩ := ihds (collect next fuel (acc ++ [d]) d) hds' hsub' (by
            intro z hz hznot e he
            by_cases hzacc : z ∈ acc ++ [d]
            · rcases List.mem_append.1 hzacc with hzacc | hzd
              · exact k1 (List.mem_append_left _ (hacc z hzacc hznot e he))
              · rw [List.mem_singleton.1 hzd] at he
                exact k2 e he
            · exact k3 z hz hzacc e he)
          refine ⟨fun z hz => h1 (k1 (List.mem_append_left _ hz)), fun e he => ?_, h3⟩
          rcases List.mem_cons.1 he with rfl | he
          · exact h1 (k1 (by simp))
          · exact h2 e he
    obtain ⟨h1, h2, h3⟩ := hfold (next x) seen (hids x hx) (List.Subset.refl _) fun y hy hnot => absurd hy hnot
    exact ⟨h1, h2, h3⟩

/-- **A search meets what can be reached**, if the depth of its calls may exceed the number of nodes. -/
theorem mem_collect_iff (hids : ∀ x ∈ ids, ∀ d ∈ next x, d ∈ ids) (hx : x ∈ ids) (hfuel : ids.length < fuel) :
    y ∈ collect next fuel [] x ↔ TransGen (fun a b => b ∈ next a) x y := by
  constructor
  · intro h
    exact (reachable_of_mem_collect h).resolve_left List.not_mem_nil
  · intro h
    have hall : unmet ids [] < fuel := Nat.lt_of_le_of_lt (List.length_filter_le _ _) hfuel
    obtain ⟨-, h2, h3⟩ := @collect_closed _ _ next ids [] x fuel hids hx hall
    induction h with
    | single hd => exact h2 _ hd
    | tail _ hd ih => exact h3 _ ih List.not_mem_nil _ hd

end NpsSdk.Lib
