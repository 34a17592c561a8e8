import NpsSdk.Nip.Ca.PendingDecisions

/-!
# Each pending record is decided once

Approvals and rejects in any interleaving.  Two approvals that have both found the NID free both issue a
certificate, and a reject that falls into an approval is answered "rejected" although the certificate is
issued.  Where neither happens to a record, it leads to one certificate at most, and to none where a reject of
it was answered "rejected".
-/

namespace NpsSdk.Nip.Ca

open NpsSdk.Lib

/-- The `i`-th call is an approval of `id`, with the program `p` left. -/
def Approving (w : DecisionPool) (id : String) (i : ℕ) (p : CaAsync CaResponse) : Prop :=
  ∃ req, w.calls[i]? = some (.approve req id, p)

/-- The `i`-th call is a reject of `id`, with the program `p` left. -/
def Rejecting (w : DecisionPool) (id : String) (i : ℕ) (p : CaAsync CaResponse) : Prop :=
  ∃ req, w.calls[i]? = some (.reject req id, p)

/-- The `i`-th call has issued a certificate for the record `id`. -/
def issued (w : DecisionPool) (id : String) (i : ℕ) : Bool :=
  match w.calls[i]? with
  | some (.approve _ id', p) => id' == id && certified p
  | _ => false

/-- The `i`-th call is a reject of the record `id` that was answered "rejected". -/
def rejected (w : DecisionPool) (id : String) (i : ℕ) : Bool :=
  match w.calls[i]? with
  | some (.reject _ id', .done r) => id' == id && answersRejected r
  | _ => false

/-- The decisions of a pending record: one certificate at most, and none where it was rejected. -/
structure DecidedOnce (w : DecisionPool) (id : String) : Prop where
  once : ∀ i j, issued w id i = true → issued w id j = true → i = j
  rejected : ∀ i j, rejected w id i = true → ¬ issued w id j = true

/-- When the turn is an approval of the record that finds its NID free, each other approval of the record
gives up where the NID is taken; when it is a reject that finds the record undecided, no approval of the
record can issue a certificate any more. -/
def DecidesAlone (sha256 : String → String) (id : String) (w : DecisionPool) : DecisionTurn → Prop
  | .start _ => True
  | .resume i amb =>
    (∀ p nid, Approving w id i p →
      CaOp.store (.getByNid nid) ∈ p.turnOps (exec sha256) CaOp.awaited amb w.state →
      ¬ w.state.Taken nid → ∀ j q, j ≠ i → Approving w id j q → Yields nid q) ∧
    (∀ p reason, Rejecting w id i p →
      CaOp.pending (.reject id reason) ∈ p.turnOps (exec sha256) CaOp.awaited amb w.state →
      w.state.pending.Open id → ∀ j q, Approving w id j q → Withdrawn w.state id q)

section

variable {w : DecisionPool} {id : String} {i : ℕ}

theorem issued_iff : issued w id i = true ↔ ∃ p, Approving w id i p ∧ certified p = true := by
  unfold issued Approving
  constructor
  · intro h
    split at h
    · rename_i req id' p hi
      simp only [Bool.and_eq_true, beq_iff_eq] at h
      obtain ⟨rfl, hp⟩ := h
      exact ⟨p, ⟨req, hi⟩, hp⟩
    · cases h
  · rintro ⟨p, ⟨req, hi⟩, hp⟩
    rw [hi]
    simpa using hp

theorem rejected_iff : rejected w id i = true ↔ ∃ r, Rejecting w id i (.done r) ∧ answersRejected r = true := by
  unfold rejected Rejecting
  constructor
  · intro h
    split at h
    · rename_i req id' r hi
      simp only [Bool.and_eq_true, beq_iff_eq] at h
      obtain ⟨rfl, hr⟩ := h
      exact ⟨r, ⟨req, hi⟩, hr⟩
    · cases h
  · rintro ⟨r, ⟨req, hi⟩, hr⟩
    rw [hi]
    simpa using hr

end

/-! ### The invariant -/

/-- The call is at one of its stages, where `nid` says under which NID each record is registered. -/
def DecisionStage (ca : NipCaService) (nid : String → String) : DecisionCall × CaAsync CaResponse → Prop
  | (.approve _ id, p) => Approves ca id (nid id) p
  | (.reject _ id, p) => Rejects id p

/-- What holds of the calls and the pending records at any time. -/
structure Underway (ca : NipCaService) (nid : String → String) (w : DecisionPool) : Prop where
  stage : ∀ q ∈ w.calls, DecisionStage ca nid q
  filed : ∀ id record, w.state.pending.get id = some record → record.nid ca = nid id

/-- What holds of the record `id` while it is decided alone. -/
structure Sound (ca : NipCaService) (nid : String → String) (id : String) (w : DecisionPool) : Prop
    extends Underway ca nid w where
  /-- Of two approvals one gives up where the NID is taken. -/
  apart : ∀ i j p q, i ≠ j → Approving w id i p → Approving w id j q → Yields (nid id) p ∨ Yields (nid id) q
  saved : ∀ i p, Approving w id i p → certified p = true → w.state.Taken (nid id) ∧
    ∀ j q, j ≠ i → Approving w id j q → Yields (nid id) q ∧ certified q = false
  marked : ∀ i p, Approving w id i p → Certified p → ¬ w.state.pending.Open id
  rejected : ∀ i r, Rejecting w id i (.done r) → answersRejected r = true → ¬ w.state.pending.Open id ∧
    ∀ j q, Approving w id j q → Withdrawn w.state id q ∧ certified q = false

section

variable {router : NipCaRouter} {ca : NipCaService} {sha256 : String → String} {nid : String → String}
  {w : DecisionPool} {id id' : String} {c : DecisionCall} {req : CaRequest} {p p' q : CaAsync CaResponse}
  {i j : ℕ} {amb : ℕ → Ambient} {s' : CaState}

theorem Sound.decidedOnce (h : Sound ca nid id w) : DecidedOnce w id where
  once i j hi hj := by
    obtain ⟨p, hp, hcertified⟩ := issued_iff.1 hi
    obtain ⟨q, hq, hcertified'⟩ := issued_iff.1 hj
    by_contra hne
    have hnot := ((h.saved i p hp hcertified).2 j q (Ne.symm hne) hq).2
    rw [hcertified'] at hnot
    cases hnot
  rejected i j hi hj := by
    obtain ⟨r, hr, hrejected⟩ := rejected_iff.1 hi
    obtain ⟨q, hq, hcertified⟩ := issued_iff.1 hj
    have hnot := ((h.rejected i r hr hrejected).2 j q hq).2
    rw [hcertified] at hnot
    cases hnot

/-- An approval after the `i`-th call has changed. -/
theorem approving_set (hi : w.calls[i]? = some (c, p)) (h : Approving ⟨s', w.calls.set i (c, p')⟩ id j q) :
    (j = i ∧ q = p' ∧ Approving w id i p) ∨ j ≠ i ∧ Approving w id j q := by
  obtain ⟨req, hj⟩ := h
  rcases getElem?_set_cases hi hj with ⟨rfl, heq⟩ | ⟨hne, hj⟩
  · obtain ⟨rfl, rfl⟩ := Prod.mk.inj heq
    exact .inl ⟨rfl, rfl, req, hi⟩
  · exact .inr ⟨hne, req, hj⟩

theorem rejecting_set (hi : w.calls[i]? = some (c, p)) (h : Rejecting ⟨s', w.calls.set i (c, p')⟩ id j q) :
    (j = i ∧ q = p' ∧ Rejecting w id i p) ∨ j ≠ i ∧ Rejecting w id j q := by
  obtain ⟨req, hj⟩ := h
  rcases getElem?_set_cases hi hj with ⟨rfl, heq⟩ | ⟨hne, hj⟩
  · obtain ⟨rfl, rfl⟩ := Prod.mk.inj heq
    exact .inl ⟨rfl, rfl, req, hi⟩
  · exact .inr ⟨hne, req, hj⟩

theorem Underway.set (h : Underway ca nid w) (hstage : DecisionStage ca nid (c, p'))
    (hl : Later ca w.state s') : Underway ca nid ⟨s', w.calls.set i (c, p')⟩ where
  stage q hq := by
    rcases List.mem_or_eq_of_mem_set hq with hq | rfl
    · exact h.stage q hq
    · exact hstage
  filed i record hget := by
    obtain ⟨record₀, hrecord, hnid, -⟩ := hl.pending i record hget
    rw [hnid]
    exact h.filed i record₀ hrecord

theorem Underway.approve (h : Underway ca nid w) (hi : w.calls[i]? = some (.approve req id', p)) :
    LeadsTo (ApprovalTurn ca id' (nid id')) sha256 amb w.state p :=
  Approves.turn (h.stage _ (List.mem_of_getElem? hi)) (h.filed id')

theorem Underway.reject (h : Underway ca nid w) (hi : w.calls[i]? = some (.reject req id', p)) :
    LeadsTo (RejectTurn ca id') sha256 amb w.state p :=
  Rejects.turn (h.stage _ (List.mem_of_getElem? hi))

theorem Underway.start (h : Underway router.ca nid w) (c : DecisionCall) :
    Underway router.ca nid { w with calls := w.calls ++ [(c, c.program router)] } where
  stage q hq := by
    rcases List.mem_append.1 hq with hq | hq
    · exact h.stage q hq
    · rw [List.mem_singleton.1 hq]
      cases c with
      | approve req i =>
        rcases @opens_approvePending router req i with hopens | hrefused
        · exact .opens hopens
        · exact .refused hrefused
      | reject req i =>
        rcases @decides_rejectPending router req i with hdecides | hmissed
        · exact .decides hdecides
        · exact .missed hmissed
  filed := h.filed

/-! ### The turn of an approval -/

section Approve

variable {ops : List CaOp}

/-- Where the approval that takes the turn is one of `id`, its turn is one of `id`. -/
theorem approving_same {p₀ : CaAsync CaResponse} (hi : w.calls[i]? = some (.approve req id', p))
    (h : Approving w id i p₀) : p₀ = p ∧ id' = id := by
  obtain ⟨req', heq⟩ := h
  rw [hi] at heq
  cases heq
  exact ⟨rfl, rfl⟩

variable (h : Sound ca nid id w) (hi : w.calls[i]? = some (.approve req id', p))
  (hturn : ApprovalTurn ca id' (nid id') w.state s' p p' ops)

include h hi hturn

theorem Sound.apart_approve
    (halone : Approving w id i p → CaOp.store (.getByNid (nid id)) ∈ ops → ¬ w.state.Taken (nid id) →
      ∀ j q, j ≠ i → Approving w id j q → Yields (nid id) q) (a b : ℕ) (p₁ p₂ : CaAsync CaResponse) (hab : a ≠ b)
    (h₁ : Approving ⟨s', w.calls.set i (.approve req id', p')⟩ id a p₁)
    (h₂ : Approving ⟨s', w.calls.set i (.approve req id', p')⟩ id b p₂) : Yields (nid id) p₁ ∨ Yields (nid id) p₂ := by
  -- the approval, or another one of the record, gives up where the NID is taken
  have hyields : ∀ j q, j ≠ i → Approving w id i p → Approving w id j q → Yields (nid id) p' ∨ Yields (nid id) q := by
    intro j q hj hp hq
    obtain ⟨-, rfl⟩ := approving_same hi hp
    rcases h.apart i j p q (Ne.symm hj) hp hq with hyp | hyq
    · rcases hturn.yields hyp with hyp' | ⟨hlooked, hfree⟩
      · exact .inl hyp'
      · exact .inr (halone hp hlooked hfree j q hj hq)
    · exact .inr hyq
  rcases approving_set hi h₁ with ⟨ha, hp₁, hbefore⟩ | ⟨ha, hbefore⟩
  · rcases approving_set hi h₂ with ⟨hb, -, -⟩ | ⟨hb, hother⟩
    · exact absurd (ha.trans hb.symm) hab
    · rw [hp₁]
      exact hyields b p₂ hb hbefore hother
  · rcases approving_set hi h₂ with ⟨-, hp₂, hother⟩ | ⟨hb, hother⟩
    · rw [hp₂]
      exact (hyields a p₁ ha hother hbefore).symm
    · exact h.apart a b p₁ p₂ hab hbefore hother

theorem Sound.saved_approve (a : ℕ) (p₁ : CaAsync CaResponse)
    (h₁ : Approving ⟨s', w.calls.set i (.approve req id', p')⟩ id a p₁) (hcertified : certified p₁ = true) :
    s'.Taken (nid id) ∧ ∀ b q, b ≠ a → Approving ⟨s', w.calls.set i (.approve req id', p')⟩ id b q →
      Yields (nid id) q ∧ certified q = false := by
  rcases approving_set hi h₁ with ⟨rfl, rfl, hp⟩ | ⟨ha, hp⟩
  · obtain ⟨-, rfl⟩ := approving_same hi hp
    have hothers : s'.Taken (nid id') ∧ ∀ b q, b ≠ a → Approving w id' b q →
        Yields (nid id') q ∧ certified q = false := by
      rcases hturn.saved hcertified with hbefore | ⟨hstores, htaken⟩
      · obtain ⟨htaken, hothers⟩ := h.saved a p hp hbefore
        exact ⟨hturn.later.taken _ htaken, hothers⟩
      · refine ⟨htaken, fun b q hb hq => ⟨?_, ?_⟩⟩
        · exact (h.apart a b p q (Ne.symm hb) hp hq).resolve_left hstores.not_yields
        · -- an approval that has its certificate would have made this one give up
          by_contra hcertified'
          exact hstores.not_yields ((h.saved b q hq (by simpa using hcertified')).2 a p (Ne.symm hb) hp).1
    refine ⟨hothers.1, fun b q hb hq => ?_⟩
    rcases approving_set hi hq with ⟨hba, -, -⟩ | ⟨-, hq⟩
    · exact absurd hba hb
    · exact hothers.2 b q hb hq
  · obtain ⟨htaken, hothers⟩ := h.saved a p₁ hp hcertified
    refine ⟨hturn.later.taken _ htaken, fun b q hb hq => ?_⟩
    rcases approving_set hi hq with ⟨rfl, rfl, hbefore⟩ | ⟨-, hq⟩
    · obtain ⟨-, rfl⟩ := approving_same hi hbefore
      obtain ⟨hyields, hcertified'⟩ := hothers b p hb hbefore
      refine ⟨(hturn.yields hyields).resolve_right fun hfree => hfree.2 htaken, ?_⟩
      by_contra hsaved
      rcases hturn.saved (by simpa using hsaved) with hissued | ⟨hstores, -⟩
      · rw [hcertified'] at hissued
        cases hissued
      · exact hstores.not_yields hyields
    · exact hothers b q hb hq

theorem Sound.marked_approve (a : ℕ) (p₁ : CaAsync CaResponse)
    (h₁ : Approving ⟨s', w.calls.set i (.approve req id', p')⟩ id a p₁) (hended : Certified p₁) :
    ¬ s'.pending.Open id := by
  rcases approving_set hi h₁ with ⟨rfl, rfl, hp⟩ | ⟨ha, hp⟩
  · obtain ⟨-, rfl⟩ := approving_same hi hp
    rcases hturn.marked hended with hbefore | hclosed
    · exact hturn.later.closed (h.marked a p hp hbefore)
    · exact hclosed
  · exact hturn.later.closed (h.marked a p₁ hp hended)

theorem Sound.rejected_approve (a : ℕ) (r : Except CaError CaResponse)
    (hr : Rejecting ⟨s', w.calls.set i (.approve req id', p')⟩ id a (.done r))
    (hrejected : answersRejected r = true) : ¬ s'.pending.Open id ∧
      ∀ j q, Approving ⟨s', w.calls.set i (.approve req id', p')⟩ id j q →
        Withdrawn s' id q ∧ certified q = false := by
  obtain ⟨hclosed, hothers⟩ : ¬ w.state.pending.Open id ∧ ∀ j q, Approving w id j q →
      Withdrawn w.state id q ∧ certified q = false := by
    rcases rejecting_set hi hr with ⟨rfl, -, req', hr⟩ | ⟨-, hr⟩
    · rw [hi] at hr
      cases hr
    · exact h.rejected a r hr hrejected
  refine ⟨hturn.later.closed hclosed, fun b q hq => ?_⟩
  rcases approving_set hi hq with ⟨rfl, rfl, hbefore⟩ | ⟨-, hq⟩
  · obtain ⟨-, rfl⟩ := approving_same hi hbefore
    obtain ⟨hwithdrawn, hcertified⟩ := hothers b p hbefore
    obtain ⟨hwithdrawn', hcertified'⟩ := hturn.withdrawn hclosed hwithdrawn hcertified
    exact ⟨hwithdrawn'.later hturn.later, hcertified'⟩
  · obtain ⟨hwithdrawn, hcertified⟩ := hothers b q hq
    exact ⟨hwithdrawn.later hturn.later, hcertified⟩

omit h hi hturn in
/-- The turn of an approval, of the record `id` or of another one. -/
theorem Sound.approve (h : Sound ca nid id w) (hi : w.calls[i]? = some (.approve req id', p))
    (halone : DecidesAlone sha256 id w (.resume i amb)) : Sound ca nid id
      ⟨(p.advance (exec sha256) CaOp.awaited amb w.state).2,
        w.calls.set i (.approve req id', (p.advance (exec sha256) CaOp.awaited amb w.state).1)⟩ := by
  have hturn := @Underway.approve ca sha256 nid w id' req p i amb h.toUnderway hi
  exact ⟨h.toUnderway.set hturn.stage hturn.later,
    h.apart_approve hi hturn fun hp hlooked hfree => halone.1 p _ hp hlooked hfree,
    h.saved_approve hi hturn, h.marked_approve hi hturn, h.rejected_approve hi hturn⟩

end Approve

/-! ### The turn of a reject -/

/-- The turn of a reject, of the record `id` or of another one. -/
theorem Sound.reject (h : Sound ca nid id w) (hi : w.calls[i]? = some (.reject req id', p))
    (halone : DecidesAlone sha256 id w (.resume i amb)) : Sound ca nid id
      ⟨(p.advance (exec sha256) CaOp.awaited amb w.state).2,
        w.calls.set i (.reject req id', (p.advance (exec sha256) CaOp.awaited amb w.state).1)⟩ := by
  have hturn := @Underway.reject ca sha256 nid w id' req p i amb h.toUnderway hi
  -- the approvals are as they were
  have hold : ∀ {s' p' j q}, Approving ⟨s', w.calls.set i (.reject req id', p')⟩ id j q → Approving w id j q := by
    intro s' p' j q hq
    rcases approving_set hi hq with ⟨-, -, req', hq⟩ | ⟨-, hq⟩
    · rw [hi] at hq
      cases hq
    · exact hq
  refine ⟨h.toUnderway.set hturn.stage hturn.later, ?_, ?_, ?_, ?_⟩
  · exact fun a b p₁ p₂ hab h₁ h₂ => h.apart a b p₁ p₂ hab (hold h₁) (hold h₂)
  · intro a p₁ h₁ hcertified
    obtain ⟨htaken, hothers⟩ := h.saved a p₁ (hold h₁) hcertified
    exact ⟨hturn.later.taken _ htaken, fun b q hb hq => hothers b q hb (hold hq)⟩
  · exact fun a p₁ h₁ hended => hturn.later.closed (h.marked a p₁ (hold h₁) hended)
  · intro a r hr hrejected
    have hafter : ∀ b, Rejecting w id b (.done r) →
        ¬ (p.advance (exec sha256) CaOp.awaited amb w.state).2.pending.Open id ∧ ∀ j q, Approving w id j q →
          Withdrawn (p.advance (exec sha256) CaOp.awaited amb w.state).2 id q ∧ certified q = false := by
      intro b hb
      obtain ⟨hopen, hothers⟩ := h.rejected b r hb hrejected
      refine ⟨hturn.later.closed hopen, fun j q hq => ?_⟩
      obtain ⟨hwithdrawn, hcertified⟩ := hothers j q hq
      exact ⟨hwithdrawn.later hturn.later, hcertified⟩
    rcases rejecting_set hi hr with ⟨rfl, hdone, hr'⟩ | ⟨ha, hr'⟩
    · have hid : id' = id := by
        obtain ⟨req', heq⟩ := hr'
        rw [hi] at heq
        cases heq
        rfl
      subst hid
      rcases hturn.rejected r hdone.symm hrejected with hbefore | ⟨⟨reason, hops⟩, hopen, hclosed⟩
      · subst hbefore
        obtain ⟨hclosed, hothers⟩ := hafter a hr'
        exact ⟨hclosed, fun j q hq => hothers j q (hold hq)⟩
      · refine ⟨hclosed, fun j q hq => ?_⟩
        have hq := hold hq
        have hwithdrawn : Withdrawn w.state id' q := halone.2 p reason hr' hops hopen j q hq
        refine ⟨hwithdrawn.later hturn.later, ?_⟩
        by_contra hcertified
        have hstage' : Approves ca id' (nid id') q := by
          obtain ⟨req', heq⟩ := hq
          exact h.stage _ (List.mem_of_getElem? heq)
        rcases hstage'.of_certified (by simpa using hcertified) with hmarking | hended
        · exact hmarking.not_withdrawn hwithdrawn
        · exact h.marked j q hq hended hopen
    · obtain ⟨hclosed, hothers⟩ := hafter a hr'
      exact ⟨hclosed, fun j q hq => hothers j q (hold hq)⟩

/-! ### Runs -/

/-- A request that starts has issued nothing. -/
theorem Sound.start (h : Sound router.ca nid id w) (c : DecisionCall) :
    Sound router.ca nid id { w with calls := w.calls ++ [(c, c.program router)] } := by
  have happroving : ∀ j q, Approving { w with calls := w.calls ++ [(c, c.program router)] } id j q →
      (j = w.calls.length ∧ (Opens router.ca id q ∨ Refused q)) ∨ Approving w id j q := by
    rintro j q ⟨req, hj⟩
    rcases getElem?_snoc_cases hj with ⟨hlast, heq⟩ | hj
    · obtain ⟨rfl, rfl⟩ := Prod.mk.inj heq
      exact .inl ⟨hlast, opens_approvePending⟩
    · exact .inr ⟨req, hj⟩
  have hfresh : ∀ {q}, Opens router.ca id q ∨ Refused q →
      Yields (nid id) q ∧ Withdrawn w.state id q ∧ certified q = false := by
    rintro q (hopens | hrefused)
    · exact ⟨hopens.yields, hopens.withdrawn, hopens.certified⟩
    · exact ⟨hrefused.keeps, hrefused.keeps, hrefused.certified⟩
  refine ⟨h.toUnderway.start c, ?_, ?_, ?_, ?_⟩
  · intro a b p q hab hp hq
    rcases happroving a p hp with ⟨-, hp⟩ | hp
    · exact .inl (hfresh hp).1
    · rcases happroving b q hq with ⟨-, hq⟩ | hq
      · exact .inr (hfresh hq).1
      · exact h.apart a b p q hab hp hq
  · intro a p hp hcertified
    rcases happroving a p hp with ⟨-, hp⟩ | hp
    · rw [(hfresh hp).2.2] at hcertified
      cases hcertified
    · obtain ⟨htaken, hothers⟩ := h.saved a p hp hcertified
      refine ⟨htaken, fun b q hb hq => ?_⟩
      rcases happroving b q hq with ⟨-, hq⟩ | hq
      · exact ⟨(hfresh hq).1, (hfresh hq).2.2⟩
      · exact hothers b q hb hq
  · intro a p hp hended
    rcases happroving a p hp with ⟨-, hp⟩ | hp
    · have hnot := (hfresh hp).2.2
      rw [hended.certified] at hnot
      cases hnot
    · exact h.marked a p hp hended
  · rintro a r ⟨req, hr⟩ hrejected
    rcases getElem?_snoc_cases hr with ⟨-, heq⟩ | hr
    · obtain ⟨rfl, hprogram⟩ := Prod.mk.inj heq
      rcases @decides_rejectPending router req id with ⟨reason, k, hk, -⟩ | hmissed
      · have hdone : router.rejectPending req id = .done r := hprogram.symm
        rw [hk] at hdone
        cases hdone
      · rw [hmissed.not_rejected hprogram.symm] at hrejected
        cases hrejected
    · obtain ⟨hclosed, hothers⟩ := h.rejected a r ⟨req, hr⟩ hrejected
      refine ⟨hclosed, fun b q hq => ?_⟩
      rcases happroving b q hq with ⟨-, hq⟩ | hq
      · exact (hfresh hq).2
      · exact hothers b q hq

/-- **Each turn preserves it**, of a record that is decided alone. -/
theorem Sound.turn {e : DecisionTurn} (h : Sound router.ca nid id w) (he : DecidesAlone sha256 id w e) :
    Sound router.ca nid id (decisionTurn router sha256 w e) := by
  cases e with
  | start c => exact h.start c
  | resume i amb =>
    unfold decisionTurn
    cases hi : w.calls[i]? with
    | none =>
      rw [Pool.step_resume_none hi]
      exact h
    | some q =>
      obtain ⟨c, p⟩ := q
      rw [Pool.step_resume hi]
      cases c with
      | approve req id' => exact h.approve hi he
      | reject req id' => exact h.reject hi he

end

def nidAt (ca : NipCaService) (s : CaState) (id : String) : String :=
  match s.pending.get id with
  | none => ""
  | some record => record.nid ca

theorem underway_start (ca : NipCaService) (s : CaState) : Underway ca (nidAt ca s) ⟨s, []⟩ where
  stage q hq := absurd hq List.not_mem_nil
  filed i record hget := by
    unfold nidAt
    rw [show s.pending.get i = some record from hget]

theorem sound_start (ca : NipCaService) (s : CaState) (id : String) : Sound ca (nidAt ca s) id ⟨s, []⟩ := by
  have happroving : ∀ {i p}, ¬ Approving ⟨s, []⟩ id i p := by
    rintro i p ⟨req, hi⟩
    simp at hi
  refine ⟨underway_start ca s, ?_, ?_, ?_, ?_⟩
  · exact fun _ _ _ _ _ h _ => absurd h happroving
  · exact fun _ _ h _ => absurd h happroving
  · exact fun _ _ h _ => absurd h happroving
  · rintro i r ⟨req, hi⟩ -
    simp at hi

/-- **Each pending record is decided once**: in every interleaving of approvals and rejects in which no
approval of the record finds its NID free while another one that has found it free can still save it, and no
reject of it decides it while an approval of it can still issue a certificate. -/
theorem decided_once (router : NipCaRouter) (sha256 : String → String) (s : CaState) (es : List DecisionTurn)
    (id : String) (halone : Along (decisionTurn router sha256) (DecidesAlone sha256 id) ⟨s, []⟩ es) :
    DecidedOnce (run (decisionTurn router sha256) ⟨s, []⟩ es) id :=
  (run_induction_along (I := Sound router.ca (nidAt router.ca s) id) (sound_start router.ca s id)
    (fun _ _ h he => h.turn he) halone).decidedOnce

/-! ### Two decisions of one record -/

def decisionRequest : CaRequest := { method := "POST", path := "/v1/enrollment/pending/7f" }

def pendingAgent : PendingRegistration :=
  { id := "7f", entityType := "agent", identifier := "a", pubKey := "ed25519:a", capabilities := [],
    scopeJson := "{}", metadataJson := none, requestedAt := 0, status := .pending }

/-- An agent waits for its decision. -/
def queuedAgent : CaState := { pending := { records := JsMap.empty.set "7f" pendingAgent } }

def approveAgent : DecisionTurn := .start (.approve decisionRequest "7f")

def rejectAgent : DecisionTurn := .start (.reject decisionRequest "7f")

def decidedInTurn : List DecisionTurn :=
  [approveAgent, .resume 0 (onDay 0), .resume 0 (onDay 0), .resume 0 (onDay 0), .resume 0 (onDay 0),
    .resume 0 (onDay 0), rejectAgent, .resume 1 (onDay 0), .resume 1 (onDay 0)]

/-- Two approvals look the NID up before one of them saves. -/
def approvedTogether : List DecisionTurn :=
  [approveAgent, approveAgent, .resume 0 (onDay 0), .resume 1 (onDay 0), .resume 0 (onDay 0),
    .resume 1 (onDay 0), .resume 0 (onDay 0), .resume 1 (onDay 0), .resume 0 (onDay 0), .resume 1 (onDay 0),
    .resume 0 (onDay 0), .resume 1 (onDay 0)]

/-- A reject falls between an approval's look at the record and its look at the NID. -/
def rejectedMeanwhile : List DecisionTurn :=
  [approveAgent, .resume 0 (onDay 0), rejectAgent, .resume 1 (onDay 0), .resume 0 (onDay 0),
    .resume 0 (onDay 0), .resume 0 (onDay 0), .resume 0 (onDay 0)]

/-- No other call is in flight, or the turn finds the NID taken or the record decided. -/
def decidesLast (sha256 : String → String) (w : DecisionPool) : DecisionTurn → Bool
  | .start _ => true
  | .resume i amb => decide (w.calls.length ≤ 1) ||
      match w.calls[i]? with
      | none => true
      | some (_, p) => (p.turnOps (exec sha256) CaOp.awaited amb w.state).all fun
        | .store (.getByNid n) => (w.state.certs.getByNid n).isSome
        | .pending (.reject id _) => (w.state.pending.get id).all fun record => record.status != .pending
        | _ => true

theorem decidesAlone_of_last {sha256 : String → String} {id : String} {w : DecisionPool} {e : DecisionTurn}
    (h : decidesLast sha256 w e = true) : DecidesAlone sha256 id w e := by
  cases e with
  | start c => trivial
  | resume i amb =>
    have hlone : ∀ {j : ℕ} {q q'}, w.calls.length ≤ 1 → w.calls[i]? = some q → w.calls[j]? = some q' → j = i := by
      intro j q q' hone hi hj
      have hi' := (List.getElem?_eq_some_iff.1 hi).1
      have hj' := (List.getElem?_eq_some_iff.1 hj).1
      omega
    constructor
    · rintro p nid ⟨req, hi⟩ hlooked hfree j q hj ⟨req', hq⟩
      rcases Bool.or_eq_true_iff.1 h with hone | hops
      · exact absurd (hlone (of_decide_eq_true hone) hi hq) hj
      · rw [hi] at hops
        exact absurd (List.all_eq_true.1 hops _ hlooked) hfree
    · rintro p reason ⟨req, hi⟩ hdecides ⟨record, hget, hstatus⟩ j q ⟨req', hq⟩
      rcases Bool.or_eq_true_iff.1 h with hone | hops
      · rw [hlone (of_decide_eq_true hone) hi hq, hi] at hq
        cases hq
      · rw [hi] at hops
        have hdecided := List.all_eq_true.1 hops _ hdecides
        dsimp only at hdecided
        rw [hget] at hdecided
        simp [hstatus] at hdecided

def decisionsAfter (es : List DecisionTurn) : DecisionPool := run (decisionTurn queueRouter id) ⟨queuedAgent, []⟩ es

theorem decidedInTurn_once : DecidedOnce (decisionsAfter decidedInTurn) "7f" :=
  decided_once queueRouter id queuedAgent decidedInTurn "7f"
    ((along_of_alongAll (p := decidesLast id) (by decide)).mono fun _ _ => decidesAlone_of_last)

/-- Two approvals of one record both issue a certificate, and a record whose reject was answered "rejected"
leads to a certificate. -/
theorem decided_twice :
    (issued (decisionsAfter approvedTogether) "7f" 0 = true ∧
      issued (decisionsAfter approvedTogether) "7f" 1 = true ∧
      ¬ DecidedOnce (decisionsAfter approvedTogether) "7f") ∧
    (rejected (decisionsAfter rejectedMeanwhile) "7f" 1 = true ∧
      issued (decisionsAfter rejectedMeanwhile) "7f" 0 = true ∧
      ¬ DecidedOnce (decisionsAfter rejectedMeanwhile) "7f") := by
  have hfirst : issued (decisionsAfter approvedTogether) "7f" 0 = true := by decide
  have hsecond : issued (decisionsAfter approvedTogether) "7f" 1 = true := by decide
  have hrejected : rejected (decisionsAfter rejectedMeanwhile) "7f" 1 = true := by decide
  have hissued : issued (decisionsAfter rejectedMeanwhile) "7f" 0 = true := by decide
  refine ⟨⟨hfirst, hsecond, fun h => ?_⟩, hrejected, hissued, fun h => h.rejected 1 0 hrejected hissued⟩
  have hsame := h.once 0 1 hfirst hsecond
  omega

end NpsSdk.Nip.Ca
