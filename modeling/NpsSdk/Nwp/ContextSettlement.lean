import NpsSdk.Nwp.ContextReservations

/-!
# Settling a reservation

A reservation that is in the store is settled by a commit or an abort of it.  What is busy is accounted
for by a reservation: the mark on a context, and the outcome of an idempotency key.  Where each call
settles its reservation, nothing stays busy.
-/

namespace NpsSdk.Nwp

open NpsSdk.Lib

variable {options : LlmContextStoreOptions} {amb : StoreAmbient} {s s' : LlmContextStore} {now : ℚ}
  {c id : String} {entry : Entry} {request : LlmContextMutationRequest}
  {r current : LlmContextMutationReservation}

def LlmContextMutationReservation.outcomeKey (r : LlmContextMutationReservation) : String :=
  ownerKey r.request.owner COMPLETE_ACTION r.request.idempotencyKey

def MarkedBy (reservations : JsMap String LlmContextMutationReservation) (c id : String) : Prop :=
  ∃ r, reservations.get id = some r ∧ r.Mutates ∧ r.request.contextId = some c

def BusyBy (reservations : JsMap String LlmContextMutationReservation) (k : String)
    (entry : IdempotencyEntry) : Prop :=
  ∃ r, entry.reservationId = some r.reservationId ∧ reservations.get r.reservationId = some r ∧
    r.outcomeKey = k

structure Accounted (s : LlmContextStore) : Prop where
  keyed : ∀ c entry, s.contexts.get c = some entry → entry.contextId = c
  named : ∀ id r, s.reservations.get id = some r → r.reservationId = id
  marked : ∀ c entry id, s.contexts.get c = some entry → entry.reservationId = some id →
    MarkedBy s.reservations c id
  busy : ∀ k entry, s.idempotency.get k = some entry → entry.state = .busy → BusyBy s.reservations k entry

theorem accounted_empty : Accounted {} where
  keyed _ _ h := by cases h
  named _ _ h := by cases h
  marked _ _ _ h := by cases h
  busy _ _ h := by cases h

/-! ### Sweeping -/

theorem Accounted.sweep (h : Accounted s) : Accounted (sweep options s now).2 where
  keyed _ _ := keyed_sweepContexts h.keyed
  named := h.named
  marked c entry id hentry hid := by
    obtain ⟨old, hold, rfl⟩ := get_sweepContexts hentry
    rw [reservationId_expire] at hid
    exact h.marked c old id hold hid
  busy k entry hentry hbusy := by
    have hold : s.idempotency.get k = some entry := by
      have := hentry
      rw [Nwp.sweep, JsMap.get_filter, Option.filter_eq_some_iff] at this
      exact this.1
    exact h.busy k entry hold hbusy

/-! ### Changes of an accounted store -/

structure FewerMarks (contexts contexts' : JsMap String Entry) : Prop where
  keyed : ∀ c entry, contexts'.get c = some entry → entry.contextId = c
  marked : ∀ c entry id, contexts'.get c = some entry → entry.reservationId = some id →
    ∃ old, contexts.get c = some old ∧ old.reservationId = some id

theorem FewerMarks.refl (h : ∀ c entry, s.contexts.get c = some entry → entry.contextId = c) :
    FewerMarks s.contexts s.contexts := ⟨h, fun _ entry _ hentry hid => ⟨entry, hentry, hid⟩⟩

theorem FewerMarks.set {contexts : JsMap String Entry}
    (h : ∀ c entry, contexts.get c = some entry → entry.contextId = c) (hc : entry.contextId = c)
    (hfree : entry.reservationId = none) : FewerMarks contexts (contexts.set c entry) where
  keyed _ _ hget := keyed_set h hc hget
  marked c' found id hget hid := by
    rw [JsMap.get_set] at hget
    split at hget
    · cases hget
      rw [hfree] at hid
      cases hid
    · exact ⟨found, hget, hid⟩

theorem Accounted.of_fewerMarks (h : Accounted s) (hreservations : s'.reservations = s.reservations)
    (hcontexts : FewerMarks s.contexts s'.contexts)
    (hidempotency : ∀ k entry, s'.idempotency.get k = some entry → entry.state = .busy →
      s.idempotency.get k = some entry) : Accounted s' where
  keyed := hcontexts.keyed
  named id r hr := by
    rw [hreservations] at hr
    exact h.named id r hr
  marked c entry id hentry hid := by
    obtain ⟨old, hold, hid⟩ := hcontexts.marked c entry id hentry hid
    rw [hreservations]
    exact h.marked c old id hold hid
  busy k entry hentry hbusy := by
    rw [hreservations]
    exact h.busy k entry (hidempotency k entry hentry hbusy) hbusy

theorem Accounted.of_settled (h : Accounted s) (hr : s.reservations.get r.reservationId = some r)
    (hreservations : s'.reservations = s.reservations.delete r.reservationId)
    (hcontexts : FewerMarks s.contexts s'.contexts)
    (hfree : ∀ c entry, r.Mutates → r.request.contextId = some c → s'.contexts.get c = some entry →
      entry.reservationId ≠ some r.reservationId)
    (hidempotency : ∀ k entry, s'.idempotency.get k = some entry → entry.state = .busy →
      k ≠ r.outcomeKey ∧ s.idempotency.get k = some entry) : Accounted s' where
  keyed := hcontexts.keyed
  named id r' hr' := by
    rw [hreservations] at hr'
    exact h.named id r' (get_of_delete hr').2
  marked c entry id hentry hid := by
    obtain ⟨old, hold, hmark⟩ := hcontexts.marked c entry id hentry hid
    obtain ⟨r', hr', hmutates, hc⟩ := h.marked c old id hold hmark
    refine ⟨r', ?_, hmutates, hc⟩
    have hne : id ≠ r.reservationId := by
      rintro rfl
      rw [hr, Option.some.injEq] at hr'
      subst hr'
      exact hfree c entry hmutates hc hentry hid
    rw [hreservations, JsMap.get_delete, if_neg hne, hr']
  busy k entry hentry hbusy := by
    obtain ⟨hk, hold⟩ := hidempotency k entry hentry hbusy
    obtain ⟨r', hid, hr', hkey⟩ := h.busy k entry hold hbusy
    refine ⟨r', hid, ?_, hkey⟩
    have hne : r'.reservationId ≠ r.reservationId := by
      intro heq
      rw [heq, hr, Option.some.injEq] at hr'
      subst hr'
      exact hk hkey.symm
    rw [hreservations, JsMap.get_delete, if_neg hne, hr']

/-! ### Aborting -/

theorem requireReservation_active (h : s.reservations.get r.reservationId = some r) :
    requireReservation s r = .ok r := by
  unfold requireReservation
  rw [h]
  exact if_pos rfl

theorem fewerMarks_clearReservation (h : ∀ c entry, s.contexts.get c = some entry → entry.contextId = c) :
    FewerMarks s.contexts (clearReservation s r) := by
  rcases clearReservation_cases (s := s) (r := r) with heq | ⟨c, entry, -, hentry, -, heq⟩
  · rw [heq]
    exact .refl h
  · rw [heq]
    exact .set h (h c entry hentry) rfl

theorem clearReservation_free (hc : r.request.contextId = some c)
    (hentry : (clearReservation s r).get c = some entry) : entry.reservationId ≠ some r.reservationId := by
  intro hmark
  unfold clearReservation at hentry
  rw [hc] at hentry
  dsimp only at hentry
  split at hentry
  · rename_i hnone
    rw [hnone] at hentry
    cases hentry
  · rename_i old hold
    split at hentry
    · rw [JsMap.get_set_self, Option.some.injEq] at hentry
      subst hentry
      cases hmark
    · rename_i hne
      rw [hold, Option.some.injEq] at hentry
      subst hentry
      exact hne hmark

variable (options amb) in
/-- **An abort settles** the reservation, if it is in the store. -/
theorem abort_active (h : Accounted s) (hr : s.reservations.get r.reservationId = some r) (errorCode : Option String) :
    ∃ s', abort options amb s r errorCode = (.ok (), s') ∧ Accounted s' ∧
      s'.reservations = s.reservations.delete r.reservationId := by
  unfold abort
  rw [requireReservation_active hr]
  refine ⟨_, rfl, ?_, rfl⟩
  refine Accounted.sweep (h.of_settled hr rfl (fewerMarks_clearReservation h.keyed) ?_ ?_)
  · intro c entry _ hc hentry
    exact clearReservation_free hc hentry
  · intro k entry hentry hbusy
    rw [JsMap.get_set] at hentry
    split at hentry
    · cases hentry
      cases hbusy
    · exact ⟨‹_›, hentry⟩

/-! ### Committing -/

variable {assistantResult : LlmMessageDto} {expiry : Option ℚ}

theorem fewerMarks_nextEntry (h : ∀ c entry, s.contexts.get c = some entry → entry.contextId = c) :
    FewerMarks s.contexts (s.contexts.set entry.contextId (nextEntry current entry expiry assistantResult)) := by
  apply FewerMarks.set h
  · unfold nextEntry
    split <;> rfl
  · unfold nextEntry
    split <;> rfl

structure Committed (s : LlmContextStore) (r : LlmContextMutationReservation)
    (contexts' : JsMap String Entry) : Prop where
  fewer : FewerMarks s.contexts contexts'
  free : ∀ c entry, r.Mutates → r.request.contextId = some c → contexts'.get c = some entry →
    entry.reservationId ≠ some r.reservationId

theorem settle_active {contexts : JsMap String Entry} {version : ℕ} (h : Accounted s)
    (hr : s.reservations.get r.reservationId = some r) (hcontexts : Committed s r contexts) :
    (∃ e s', settle options amb { s with contexts } r c version expiry = (.error e, s') ∧ Accounted s' ∧
      s'.reservations = s.reservations) ∨
    ∃ receipt s', settle options amb { s with contexts } r c version expiry = (.ok receipt, s') ∧
      Accounted s' ∧ s'.reservations = s.reservations.delete r.reservationId := by
  unfold settle
  split
  · exact .inl ⟨_, _, rfl, h.of_fewerMarks rfl hcontexts.fewer fun _ _ hentry _ => hentry, rfl⟩
  · refine .inr ⟨_, _, rfl, h.of_settled hr rfl hcontexts.fewer hcontexts.free ?_, rfl⟩
    intro k entry hentry hbusy
    rw [JsMap.get_set] at hentry
    split at hentry
    · cases hentry
      cases hbusy
    · exact ⟨‹_›, hentry⟩

theorem committed_create (h : Accounted s) (hop : r.request.operation = .create ∨ r.request.operation = .fork) :
    Committed s r (s.contexts.set c (newEntry r c expiry assistantResult)) where
  fewer := .set h.keyed rfl rfl
  free _ _ hmutates := by
    rcases hop with hop | hop <;> rcases hmutates with hop' | hop' <;> rw [hop] at hop' <;> cases hop'

theorem committed_nextEntry (h : Accounted s) (hentry : s.contexts.get (r.request.contextId.getD "") = some entry) :
    Committed s r (s.contexts.set entry.contextId (nextEntry r entry expiry assistantResult)) where
  fewer := fewerMarks_nextEntry h.keyed
  free c found _ hc hfound := by
    rw [hc, Option.getD_some] at hentry
    rw [h.keyed c entry hentry, JsMap.get_set_self, Option.some.injEq] at hfound
    subst hfound
    unfold nextEntry
    split <;> nofun

variable (options amb) in
/-- **A commit settles** the reservation, if it is in the store, or throws. -/
theorem commit_active (h : Accounted s) (hr : s.reservations.get r.reservationId = some r)
    (assistantResult : LlmMessageDto) :
    (∃ e s', commit options amb s r assistantResult = (.error e, s') ∧ Accounted s' ∧
      s'.reservations = s.reservations) ∨
    ∃ receipt s', commit options amb s r assistantResult = (.ok receipt, s') ∧ Accounted s' ∧
      s'.reservations = s.reservations.delete r.reservationId := by
  unfold commit
  rw [requireReservation_active hr]
  dsimp only
  split
  · rename_i hop
    split
    · exact .inl ⟨_, _, rfl, h, rfl⟩
    · exact settle_active h hr (committed_create h hop)
  · split
    · exact .inl ⟨_, _, rfl, h, rfl⟩
    · rename_i hentry
      exact settle_active h hr (committed_nextEntry h (requireEntry_ok hentry))

/-- The commit of a reservation gets to a context, and makes it expire at a date there is, if at any. -/
def commits (amb : StoreAmbient) (s : LlmContextStore) (r : LlmContextMutationReservation) : Bool :=
  findsContext amb s r && (expiryOf amb r).all fun t => decide (|t| ≤ 8640000000000000)

variable (options) in
theorem commit_ok (hr : s.reservations.get r.reservationId = some r) (hcommits : commits amb s r = true)
    (assistantResult : LlmMessageDto) : ∃ receipt, (commit options amb s r assistantResult).1 = .ok receipt := by
  obtain ⟨hfinds, hexpiry⟩ := Bool.and_eq_true_iff.1 hcommits
  have hrange : ∀ t, expiryOf amb r = some t → |t| ≤ 8640000000000000 := by
    intro t ht
    rw [ht] at hexpiry
    exact of_decide_eq_true hexpiry
  unfold commit
  rw [requireReservation_active hr]
  dsimp only
  split
  · rename_i hop
    rw [findsContext, if_pos hop] at hfinds
    split
    · rename_i e he
      rw [he] at hfinds
      cases hfinds
    · obtain ⟨receipt, s', heq, -⟩ := settle_ok hrange
      exact ⟨receipt, by rw [heq]⟩
  · rename_i hop
    rw [findsContext, if_neg hop] at hfinds
    split
    · rename_i e he
      rw [he] at hfinds
      cases hfinds
    · obtain ⟨receipt, s', heq, -⟩ := settle_ok hrange
      exact ⟨receipt, by rw [heq]⟩

/-! ### Reserving and releasing -/

theorem Accounted.release {owner : LlmContextOwner} {baseVersion : ℤ} {key : String} (h : Accounted s) :
    Accounted (release options amb s owner c baseVersion key).2 ∧
      (Nwp.release options amb s owner c baseVersion key).2.reservations = s.reservations := by
  have hswept : Accounted (Nwp.sweep options s (amb.clock 0)).2 := h.sweep
  unfold Nwp.release
  dsimp only
  split
  · exact ⟨hswept, rfl⟩
  · exact ⟨hswept, rfl⟩
  · rename_i entry hreleasable
    obtain ⟨-, -, -, -, hfree, -⟩ := releasable_ok hreleasable
    refine ⟨hswept.of_fewerMarks rfl (.set hswept.keyed rfl hfree) ?_, rfl⟩
    intro k entry hentry hbusy
    rw [JsMap.get_set] at hentry
    split at hentry
    · cases hentry
      cases hbusy
    · exact hentry

theorem markedBy_set (h : s.reservations.get r.reservationId = none)
    (hmarked : MarkedBy s.reservations c id) : MarkedBy (s.reservations.set r.reservationId r) c id := by
  obtain ⟨r', hr', hmutates, hc⟩ := hmarked
  refine ⟨r', ?_, hmutates, hc⟩
  rw [JsMap.get_set_ne _ _ ?_, hr']
  rintro rfl
  rw [h] at hr'
  cases hr'

theorem busyBy_set {k : String} {entry : IdempotencyEntry} (h : s.reservations.get r.reservationId = none)
    (hbusy : BusyBy s.reservations k entry) : BusyBy (s.reservations.set r.reservationId r) k entry := by
  obtain ⟨r', hid, hr', hkey⟩ := hbusy
  refine ⟨r', hid, ?_, hkey⟩
  rw [JsMap.get_set_ne _ _ ?_, hr']
  intro heq
  rw [heq, h] at hr'
  cases hr'

variable (options request) in
/-- **What a request to reserve does**, where the random UUID is not the one of a reservation. -/
theorem reserve_fresh (h : Accounted s) (hfresh : s.reservations.get amb.uuid = none) :
    (∃ e s', reserve options amb s request = (.error e, s') ∧ Accounted s' ∧ s'.reservations = s.reservations) ∨
    ∃ r s', reserve options amb s request = (.ok r, s') ∧ Accounted s' ∧ r.reservationId = amb.uuid ∧
      r.request = request ∧ s'.reservations = s.reservations.set r.reservationId r := by
  have hswept : Accounted (Nwp.sweep options s (amb.clock 0)).2 := h.sweep
  unfold reserve
  dsimp only
  split
  · exact .inl ⟨_, _, rfl, hswept, rfl⟩
  · rename_i r held hgrant
    obtain ⟨hrequest, -, hid, hcase⟩ := grant_cases hgrant
    change GrantCase _ request r held at hcase
    refine .inr ⟨r, _, rfl, ?_, hid, hrequest, rfl⟩
    have hnone : (Nwp.sweep options s (amb.clock 0)).2.reservations.get r.reservationId = none := by
      rw [hid]
      exact hfresh
    constructor
    · intro c entry hentry
      cases held with
      | none => exact hswept.keyed c entry hentry
      | some marked => exact keyed_set hswept.keyed rfl hentry
    · intro id' r' hr'
      rw [JsMap.get_set] at hr'
      split at hr'
      · cases hr'
        exact Eq.symm ‹_›
      · exact hswept.named id' r' hr'
    · intro c entry id' hentry hid'
      cases hcase with
      | create | fork => exact markedBy_set hnone (hswept.marked c entry id' hentry hid')
      | @mutation c' old hop hon =>
        dsimp only at hentry
        rw [JsMap.get_set] at hentry
        split at hentry
        · -- the mark of the new reservation
          rename_i hc
          cases hentry
          cases hid'
          refine ⟨r, JsMap.get_set_self _ _ _, by rw [← hrequest] at hop; exact hop, ?_⟩
          rw [hrequest, hon.located, hc, hswept.keyed c' old hon.stored]
        · exact markedBy_set hnone (hswept.marked c entry id' hentry hid')
    · intro k entry hentry hbusy
      rw [JsMap.get_set] at hentry
      split at hentry
      · rename_i hk
        cases hentry
        refine ⟨r, rfl, JsMap.get_set_self _ _ _, ?_⟩
        rw [LlmContextMutationReservation.outcomeKey, hrequest, hk]
      · exact busyBy_set hnone (hswept.busy k entry hentry hbusy)

end NpsSdk.Nwp
