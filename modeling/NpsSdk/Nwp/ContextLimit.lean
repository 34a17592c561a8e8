import Mathlib.Data.Rat.Floor
import NpsSdk.Nwp.ContextVersions

/-!
# The context limit of a principal

The active contexts of a principal, and the ones that its reservations are going to make.  Room for a
context is asked for when its reservation is made; the commit turns the reservation into the context, and
no other call makes a context active.
-/

namespace NpsSdk.Nwp

open NpsSdk.Lib

def contextLimit (options : LlmContextStoreOptions) : ℕ := ⌈options.maxContextsPerPrincipal⌉.toNat

def activeContexts (contexts : JsMap String Entry) (owner : LlmContextOwner) : ℕ :=
  (contexts.values.filter fun entry => sameOwner entry.owner owner && entry.state == .active).length

def allocatesFor (owner : LlmContextOwner) (r : LlmContextMutationReservation) : Bool :=
  sameOwner r.request.owner owner && (r.request.operation == .create || r.request.operation == .fork)

def pendingContexts (reservations : JsMap String LlmContextMutationReservation) (owner : LlmContextOwner) : ℕ :=
  (reservations.values.filter (allocatesFor owner)).length

variable {options : LlmContextStoreOptions} {amb : StoreAmbient} {s s' : LlmContextStore} {c : String}
  {owner : LlmContextOwner} {request : LlmContextMutationRequest} {entry entry' : Entry} {now : ℚ}
  {r current : LlmContextMutationReservation} {contexts contexts' contexts'' : JsMap String Entry}
  {reservations : JsMap String LlmContextMutationReservation}

theorem allocated_eq :
    allocated s owner = activeContexts s.contexts owner + pendingContexts s.reservations owner := rfl

/-! ### Contexts -/

/-- The active contexts are some of those before, of the same owners. -/
def FewerActive (contexts contexts' : JsMap String Entry) : Prop :=
  ∀ c entry', contexts'.get c = some entry' → entry'.state = .active →
    ∃ entry, contexts.get c = some entry ∧ entry.state = .active ∧ entry.owner = entry'.owner

theorem FewerActive.refl (contexts : JsMap String Entry) : FewerActive contexts contexts :=
  fun _ entry h hactive => ⟨entry, h, hactive, rfl⟩

theorem FewerActive.trans (h : FewerActive contexts contexts') (h' : FewerActive contexts' contexts'') :
    FewerActive contexts contexts'' := by
  intro c entry'' hget hactive
  obtain ⟨entry', hentry', hactive', howner'⟩ := h' c entry'' hget hactive
  obtain ⟨entry, hentry, hactive, howner⟩ := h c entry' hentry' hactive'
  exact ⟨entry, hentry, hactive, howner.trans howner'⟩

theorem FewerActive.activeContexts_le (h : FewerActive contexts contexts') :
    activeContexts contexts' owner ≤ activeContexts contexts owner := by
  apply JsMap.length_filter_values_le
  intro c entry' hget hcounts
  simp only [Bool.and_eq_true, beq_iff_eq] at hcounts
  obtain ⟨entry, hentry, hactive, howner⟩ := h c entry' hget hcounts.2
  refine ⟨entry, hentry, ?_⟩
  rw [howner, hactive, hcounts.1]
  rfl

theorem fewerActive_sweepContexts : FewerActive contexts (sweepContexts options now contexts) := by
  intro c entry' hget hactive
  obtain ⟨entry, hentry, rfl⟩ := get_sweepContexts hget
  refine ⟨entry, hentry, ?_⟩
  unfold expire at hactive ⊢
  split
  · rename_i hexpiring
    rw [if_pos hexpiring] at hactive
    cases hactive
  · rename_i hexpiring
    rw [if_neg hexpiring] at hactive
    exact ⟨hactive, rfl⟩

theorem fewerActive_set (hget : contexts.get c = some entry)
    (h : entry'.state = .active → entry.state = .active ∧ entry.owner = entry'.owner) :
    FewerActive contexts (contexts.set c entry') := by
  intro c' found hfound hactive
  rw [JsMap.get_set] at hfound
  split at hfound
  · rename_i hc
    cases hfound
    rw [hc]
    exact ⟨entry, hget, h hactive⟩
  · exact ⟨found, hfound, hactive, rfl⟩

theorem fewerActive_clearReservation : FewerActive s.contexts (clearReservation s r) := by
  rcases clearReservation_cases (s := s) (r := r) with heq | ⟨c, entry, -, hentry, -, heq⟩
  · rw [heq]
    exact .refl _
  · rw [heq]
    exact fewerActive_set hentry fun hactive => ⟨hactive, rfl⟩

theorem activeContexts_set_le :
    activeContexts (contexts.set c entry') owner ≤
      activeContexts contexts owner + if entry'.owner = owner then 1 else 0 := by
  split
  · exact JsMap.length_filter_values_set_le contexts c entry' _
  · rename_i hother
    rw [Nat.add_zero]
    apply JsMap.length_filter_values_le
    intro c' found hfound hcounts
    rw [JsMap.get_set] at hfound
    split at hfound
    · cases hfound
      simp only [Bool.and_eq_true] at hcounts
      exact absurd (sameOwner_iff.1 hcounts.1) hother
    · exact ⟨found, hfound, hcounts⟩

def Staged (contexts : JsMap String Entry) : Prop :=
  ∀ c entry, contexts.get c = some entry →
    entry.state = .active ∨ entry.state = .expired ∨ entry.state = .released

theorem Staged.set (h : Staged contexts)
    (hstate : entry'.state = .active ∨ entry'.state = .expired ∨ entry'.state = .released) :
    Staged (contexts.set c entry') := by
  intro c' found hfound
  rw [JsMap.get_set] at hfound
  split at hfound
  · cases hfound
    exact hstate
  · exact h c' found hfound

theorem Staged.sweep (h : Staged contexts) : Staged (sweepContexts options now contexts) := by
  intro c entry' hget
  obtain ⟨entry, hentry, rfl⟩ := get_sweepContexts hget
  unfold expire
  split
  · exact .inr (.inl rfl)
  · exact h c entry hentry

theorem Staged.clearReservation (h : Staged s.contexts) : Staged (clearReservation s r) := by
  rcases clearReservation_cases (s := s) (r := r) with heq | ⟨c, entry, -, hentry, -, heq⟩
  · rw [heq]
    exact h
  · rw [heq]
    exact h.set (h c entry hentry)

theorem Held.active (hheld : Held contexts r c entry) (h : Staged contexts) : entry.state = .active := by
  rcases h c entry hheld.stored with hactive | hexpired | hreleased
  · exact hactive
  · exact absurd hexpired hheld.live.1
  · exact absurd hreleased hheld.live.2

/-! ### Reservations -/

theorem pendingContexts_set_le {id : String} :
    pendingContexts (reservations.set id r) owner ≤
      pendingContexts reservations owner + if allocatesFor owner r then 1 else 0 := by
  split
  · exact JsMap.length_filter_values_set_le reservations id r _
  · rename_i hother
    rw [Nat.add_zero]
    apply JsMap.length_filter_values_le
    intro id' found hfound hcounts
    rw [JsMap.get_set] at hfound
    split at hfound
    · cases hfound
      exact absurd hcounts hother
    · exact ⟨found, hfound, hcounts⟩

theorem pendingContexts_delete_le {id : String} :
    pendingContexts (reservations.delete id) owner ≤ pendingContexts reservations owner := by
  apply JsMap.length_filter_values_le
  intro id' found hfound hcounts
  rw [JsMap.get_delete] at hfound
  split at hfound
  · cases hfound
  · exact ⟨found, hfound, hcounts⟩

theorem allocated_lt_of_grant {g : Grant} (h : grant options amb s request = .ok g)
    (hop : request.operation = .create ∨ request.operation = .fork) :
    allocated s request.owner < contextLimit options := by
  have hroom : ensureAllocationAvailable options s request.owner = .ok () →
      allocated s request.owner < contextLimit options := by
    intro hok
    unfold ensureAllocationAvailable at hok
    split at hok
    · cases hok
    · rename_i hlt
      have hceil : ((allocated s request.owner : ℤ)) < ⌈options.maxContextsPerPrincipal⌉ := by
        rw [Int.lt_ceil]
        exact_mod_cast not_le.1 hlt
      unfold contextLimit
      omega
  unfold grant at h
  obtain ⟨_, hvalid, h⟩ := ok_bind.1 h
  obtain ⟨_, -, h⟩ := ok_bind.1 h
  split at h
  · cases h
  · split at h
    · obtain ⟨_, hok, -⟩ := ok_bind.1 h
      exact hroom hok
    · obtain ⟨_, hok, -⟩ := ok_bind.1 h
      exact hroom hok
    · rename_i hc hcreate
      have hfork : request.operation = .fork := hop.resolve_left hcreate
      unfold grantMutation at h
      obtain ⟨entry, -, h⟩ := ok_bind.1 h
      obtain ⟨_, -, h⟩ := ok_bind.1 h
      obtain ⟨_, -, h⟩ := ok_bind.1 h
      rw [if_pos hfork] at h
      obtain ⟨_, hok, -⟩ := ok_bind.1 h
      exact hroom hok

theorem allocated_lt_of_reserve (h : reserve options amb s request = (.ok r, s'))
    (hop : request.operation = .create ∨ request.operation = .fork) :
    allocated (sweep options s (amb.clock 0)).2 request.owner < contextLimit options := by
  unfold reserve at h
  dsimp only at h
  split at h
  · cases h
  · rename_i hgrant
    exact allocated_lt_of_grant hgrant hop

/-! ### Calls -/

/-- The invariant: no principal has more than its share. -/
structure Limited (options : LlmContextStoreOptions) (s : LlmContextStore) : Prop where
  consistent : Consistent s
  staged : Staged s.contexts
  share : ∀ owner, allocated s owner ≤ contextLimit options

theorem Limited.of_fewer (h : Limited options s) (hconsistent : Consistent s') (hstaged : Staged s'.contexts)
    (hcontexts : FewerActive s.contexts s'.contexts)
    (hpending : ∀ owner, pendingContexts s'.reservations owner ≤ pendingContexts s.reservations owner) :
    Limited options s' where
  consistent := hconsistent
  staged := hstaged
  share owner := by
    have hshare := h.share owner
    have hactive : activeContexts s'.contexts owner ≤ activeContexts s.contexts owner :=
      hcontexts.activeContexts_le
    have hpend := hpending owner
    rw [allocated_eq] at hshare ⊢
    omega

theorem Limited.sweep (h : Limited options s) : Limited options (sweep options s now).2 :=
  h.of_fewer h.consistent.sweep h.staged.sweep fewerActive_sweepContexts fun _ => le_rfl

theorem limited_reserve (h : Limited options s) : Limited options (reserve options amb s request).2 := by
  have hconsistent : Consistent (reserve options amb s request).2 := consistent_reserve h.consistent
  have hswept : Limited options (sweep options s (amb.clock 0)).2 := h.sweep
  rcases reserve_cases options amb s request with
    ⟨e, heq⟩ | ⟨r, held, s', heq, hrequest, -, -, hcase, hcontexts, hreservations, -⟩
  · rw [heq]
    exact hswept
  have hroom := allocated_lt_of_reserve heq
  rw [heq] at hconsistent ⊢
  -- the owner of a new context has had room for it, and for the others nothing changes
  have hnew : (request.operation = .create ∨ request.operation = .fork) →
      s'.contexts = sweepContexts options (amb.clock 0) s.contexts → Limited options s' := by
    intro hop hsame
    refine ⟨hconsistent, by rw [hsame]; exact hswept.staged, fun owner => ?_⟩
    have hshare := hswept.share owner
    have hpending : pendingContexts (s.reservations.set r.reservationId r) owner ≤
        pendingContexts s.reservations owner + if allocatesFor owner r then 1 else 0 := pendingContexts_set_le
    rw [← hreservations] at hpending
    rw [allocated_eq] at hshare ⊢
    rw [hsame]
    change activeContexts (sweepContexts options (amb.clock 0) s.contexts) owner +
      pendingContexts s.reservations owner ≤ _ at hshare
    by_cases howner : request.owner = owner
    · have hlt := hroom hop
      rw [allocated_eq, howner] at hlt
      change activeContexts (sweepContexts options (amb.clock 0) s.contexts) owner +
        pendingContexts s.reservations owner < _ at hlt
      split at hpending <;> omega
    · have hnone : allocatesFor owner r = false := by
        have hother : sameOwner r.request.owner owner = false := by
          rw [hrequest, Bool.eq_false_iff]
          exact fun h => howner (sameOwner_iff.1 h)
        rw [allocatesFor, hother]
        rfl
      rw [hnone] at hpending
      simp only [Bool.false_eq_true, if_false] at hpending
      omega
  cases hcase with
  | create hop => exact hnew (.inl hop) hcontexts
  | fork hop hon => exact hnew (.inr hop) hcontexts
  | mutation hop hon =>
    rename_i c entry
    have hstored := hon.stored
    rw [← hswept.consistent.keyed _ _ hon.stored] at hstored
    have hsame : s'.contexts = (sweepContexts options (amb.clock 0) s.contexts).set entry.contextId
        { entry with reservationId := some r.reservationId } := hcontexts
    refine hswept.of_fewer hconsistent ?_ ?_ fun owner => ?_
    · rw [hsame]
      exact hswept.staged.set (hswept.staged c entry hon.stored)
    · rw [hsame]
      exact fewerActive_set hstored fun hactive => ⟨hactive, rfl⟩
    · have hnone : allocatesFor owner r = false := by
        rw [allocatesFor, hrequest]
        rcases hop with hop | hop <;> simp [hop]
      have hpending : pendingContexts (s.reservations.set r.reservationId r) owner ≤
          pendingContexts s.reservations owner + if allocatesFor owner r then 1 else 0 := pendingContexts_set_le
      rw [← hreservations, hnone] at hpending
      simp only [Bool.false_eq_true, if_false, Nat.add_zero] at hpending
      exact hpending

theorem nextEntry_active (expiry : Option ℚ) (assistantResult : LlmMessageDto) :
    (nextEntry current entry expiry assistantResult).state = .active ∧
      (nextEntry current entry expiry assistantResult).owner = entry.owner := by
  unfold nextEntry
  split <;> exact ⟨rfl, rfl⟩

theorem limited_commit {assistantResult : LlmMessageDto} (h : Limited options s)
    (hexpiry : expiryRepresentable s (.commit amb r assistantResult) = true) :
    Limited options (commit options amb s r assistantResult).2 := by
  have hconsistent : Consistent (commit options amb s r assistantResult).2 :=
    consistent_commit h.consistent hexpiry
  rcases commit_cases options hexpiry with ⟨e, heq⟩ |
    ⟨current, receipt, s', hcurrent, heq, -, hcase, hreservations, -⟩
  · rw [heq]
    exact h
  rw [heq] at hconsistent ⊢
  have hget := h.consistent.get_current hcurrent
  generalize hcontexts : s'.contexts = contexts at hcase
  cases hcase with
  | created hop hfresh hversion =>
    -- the context takes the place of its reservation
    refine ⟨hconsistent, by rw [hcontexts]; exact h.staged.set (.inl rfl), fun owner => ?_⟩
    have hshare := h.share owner
    have hactive : activeContexts (s.contexts.set receipt.contextId
        (newEntry current receipt.contextId (expiryOf amb current) assistantResult)) owner ≤
        activeContexts s.contexts owner + if current.request.owner = owner then 1 else 0 :=
      activeContexts_set_le
    rw [allocated_eq] at hshare ⊢
    rw [hcontexts, hreservations]
    split at hactive
    · rename_i howner
      have hallocates : allocatesFor owner current = true := by
        rw [allocatesFor, sameOwner_iff.2 howner]
        rcases hop with hop | hop <;> simp [hop]
      have hpending : pendingContexts (s.reservations.delete _) owner < pendingContexts s.reservations owner :=
        JsMap.length_filter_values_delete_lt hget hallocates
      omega
    · have hpending : pendingContexts (s.reservations.delete current.reservationId) owner ≤
          pendingContexts s.reservations owner := pendingContexts_delete_le
      omega
  | advanced hop hstored hlocated hversion =>
    rename_i entry
    obtain ⟨-, -, hheld⟩ := h.consistent.held hcurrent hop hstored
    have hnext : (nextEntry current entry (expiryOf amb current) assistantResult).state = .active ∧
        (nextEntry current entry (expiryOf amb current) assistantResult).owner = entry.owner :=
      nextEntry_active _ _
    obtain ⟨hactive, howner⟩ := hnext
    refine h.of_fewer hconsistent ?_ ?_ fun owner => ?_
    · rw [hcontexts]
      exact h.staged.set (.inl hactive)
    · rw [hcontexts]
      exact fewerActive_set hheld.stored fun _ => ⟨hheld.active h.staged, howner.symm⟩
    · rw [hreservations]
      exact pendingContexts_delete_le

theorem limited_abort {errorCode : Option String} (h : Limited options s) :
    Limited options (abort options amb s r errorCode).2 := by
  have hconsistent : Consistent (abort options amb s r errorCode).2 := consistent_abort h.consistent
  rcases abort_cases options amb s r errorCode with
    ⟨e, heq⟩ | ⟨current, s', -, heq, hcontexts, hreservations, -⟩
  · rw [heq]
    exact h
  rw [heq] at hconsistent ⊢
  refine h.of_fewer hconsistent ?_ ?_ fun owner => ?_
  · rw [hcontexts]
    exact h.staged.clearReservation.sweep
  · rw [hcontexts]
    exact fewerActive_clearReservation.trans fewerActive_sweepContexts
  · rw [hreservations]
    exact pendingContexts_delete_le

theorem limited_release {baseVersion : ℤ} {key : String} (h : Limited options s) :
    Limited options (release options amb s owner c baseVersion key).2 := by
  have hconsistent : Consistent (release options amb s owner c baseVersion key).2 :=
    consistent_release h.consistent
  have hswept : Limited options (sweep options s (amb.clock 0)).2 := h.sweep
  rcases release_cases options amb s owner c baseVersion key with
    ⟨answer, heq, -⟩ | ⟨entry, next, receipt, s', heq, -, hcase, hcontexts, hreservations, -⟩
  · rw [heq]
    exact hswept
  rw [heq] at hconsistent ⊢
  have hstored := hcase.stored
  rw [← hswept.consistent.keyed _ _ hcase.stored] at hstored
  refine hswept.of_fewer hconsistent ?_ ?_ fun owner => ?_
  · rw [hcontexts]
    exact hswept.staged.set (.inr (.inr hcase.state))
  · rw [hcontexts]
    refine fewerActive_set hstored fun hactive => ?_
    rw [hcase.state] at hactive
    cases hactive
  · rw [hreservations]
    exact le_rfl

/-- **One call** keeps the share of every principal. -/
theorem limited_step (e : ContextCall) (h : Limited options s) (hexpiry : expiryRepresentable s e = true) :
    Limited options (contextStep options s e) := by
  cases e with
  | reserve amb request => exact limited_reserve h
  | commit amb r assistantResult => exact limited_commit h hexpiry
  | abort amb r errorCode => exact limited_abort h
  | release amb owner c baseVersion key => exact limited_release h
  | sweep now => exact h.sweep

theorem limited_empty : Limited options {} where
  consistent := consistent_empty
  staged _ _ h := by cases h
  share _ := Nat.zero_le _

/-- **The context limit**: in every state that calls lead to, the active contexts of a principal and the
ones it has reserved are no more than the limit, rounded up to a whole number of contexts. -/
theorem principals_within_limit (options : LlmContextStoreOptions) (es : List ContextCall)
    (h : Along (contextStep options) (fun s e => expiryRepresentable s e = true) {} es)
    (owner : LlmContextOwner) :
    allocated (contextsAfter options es) owner ≤ ⌈options.maxContextsPerPrincipal⌉.toNat ∧
      ∀ limit : ℕ, options.maxContextsPerPrincipal = limit →
        allocated (contextsAfter options es) owner ≤ limit := by
  have hlimited : Limited options (contextsAfter options es) :=
    run_induction_along limited_empty (fun _ e hs he => limited_step e hs he) h
  refine ⟨hlimited.share owner, fun limit hlimit => ?_⟩
  have hshare := hlimited.share owner
  rw [contextLimit, hlimit, Int.ceil_natCast, Int.toNat_natCast] at hshare
  exact hshare

/-! ### Sample runs -/

/-- One context is all there may be. -/
def singleOptions : LlmContextStoreOptions := { sampleStoreOptions with maxContextsPerPrincipal := 1 }

/-- A second context is asked for while the first one is active. -/
def crowdedRun : List ContextCall :=
  sampleRun ++ [.reserve (sampleStoreAmbient 4 "p") { sampleCreate with idempotencyKey := "third" }]

theorem principals_within_limit_crowdedRun :
    allocated (contextsAfter singleOptions crowdedRun) ⟨"alice", "default"⟩ ≤ 1 :=
  (principals_within_limit singleOptions crowdedRun (along_of_alongAll (by decide +kernel))
    ⟨"alice", "default"⟩).2 1 rfl

/-- A limit of half a context lets a whole one through. -/
theorem half_a_context : ∃ es : List ContextCall,
    Along (contextStep { sampleStoreOptions with maxContextsPerPrincipal := 1 / 2 })
      (fun s e => expiryRepresentable s e = true) {} es ∧
    (1 / 2 : ℚ) < allocated (contextsAfter { sampleStoreOptions with maxContextsPerPrincipal := 1 / 2 } es)
      ⟨"alice", "default"⟩ :=
  ⟨[.reserve (sampleStoreAmbient 0 "r") sampleCreate], along_of_alongAll (by decide), by decide +kernel⟩

end NpsSdk.Nwp
