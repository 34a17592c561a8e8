import Mathlib.Data.List.Chain

/-!
# Chains of trust

In a chain each document is signed with the key of the next one.  Where what certified authorities
sign is certified, a chain whose issuers are authorities and whose last document is certified has
only certified documents.
-/

namespace NpsSdk.Lib

variable {δ : Type*} {signs : δ → δ → Prop} {authority certified : δ → Prop}

/-- **Trust passes down a chain** of authorities. -/
theorem certified_of_chain {chain : List δ} (hlinks : chain.IsChain fun c d => signs d c)
    (hissuers : ∀ d ∈ chain.tail, authority d) (hlast : ∀ d ∈ chain.getLast?, certified d)
    (hsigns : ∀ d c, certified d → authority d → signs d c → certified c) : ∀ c ∈ chain, certified c := by
  induction chain with
  | nil => simp
  | cons c rest ih =>
    cases rest with
    | nil =>
      intro c' hc'
      obtain rfl := List.mem_singleton.1 hc'
      exact hlast c' rfl
    | cons d rest =>
      rw [List.isChain_cons_cons] at hlinks
      have hrest : ∀ c' ∈ d :: rest, certified c' := by
        refine ih hlinks.2 (fun d' hd' => hissuers d' (List.mem_cons_of_mem _ hd')) fun d' hd' => ?_
        refine hlast d' ?_
        rwa [List.getLast?_cons_cons]
      have hd : authority d := hissuers d (List.mem_cons_self ..)
      intro c' hc'
      rcases List.mem_cons.1 hc' with rfl | hc'
      · exact hsigns d c' (hrest d (List.mem_cons_self ..)) hd hlinks.1
      · exact hrest c' hc'

end NpsSdk.Lib
