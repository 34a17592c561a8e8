import Mathlib.Algebra.Order.Ring.Abs
import NpsSdk.Lib.Except
import NpsSdk.Nwp.ContextStore

/-!
# Reservations of contexts

Any calls of the store, in any order and by any principals.  A context that is to be appended to or
reset is held by one reservation: it neither expires nor is released, and its version and transcript
stay what the reservation was granted on until the reservation is settled.
-/

namespace NpsSdk.Nwp

open NpsSdk.Lib

/-! ### Runs -/

inductive ContextCall
  | reserve (amb : StoreAmbient) (request : LlmContextMutationRequest)
  | commit (amb : StoreAmbient) (reservation : LlmContextMutationReservation)
      (assistantResult : LlmMessageDto)
  | abort (amb : StoreAmbient) (reservation : LlmContextMutationReservation) (errorCode : Option String)
  | release (amb : StoreAmbient) (owner : LlmContextOwner) (contextId : String) (baseVersion : ℤ)
      (idempotencyKey : String)
  | sweep (now : ℚ)

variable (options : LlmContextStoreOptions)

def contextStep (s : LlmContextStore) : ContextCall → LlmContextStore
  | .reserve amb request => (reserve options amb s request).2
  | .commit amb reservation assistantResult => (commit options amb s reservation assistantResult).2
  | .abort amb reservation errorCode => (abort options amb s reservation errorCode).2
  | .release amb owner contextId baseVersion idempotencyKey =>
    (release options amb s owner contextId baseVersion idempotencyKey).2
  | .sweep now => (sweep options s now).2

def contextsAfter (es : List ContextCall) : LlmContextStore := run (contextStep options) {} es

/-- A commit finds the context to change, or an identifier for the one to make. -/
def findsContext (amb : StoreAmbient) (s : LlmContextStore) (current : LlmContextMutationReservation) :
    Bool :=
  if current.request.operation = .create ∨ current.request.operation = .fork then
    (nextContextId s amb.contextIds 8).isOk
  else (requireEntry s (current.request.contextId.getD "")).isOk

/-- A commit that gets to a context makes it expire at a date there is, if at any. -/
def expiryRepresentable (s : LlmContextStore) : ContextCall → Bool
  | .commit amb reservation _ =>
    match requireReservation s reservation with
    | .ok current =>
      !findsContext amb s current || (expiryOf amb current).all fun t => decide (|t| ≤ 8640000000000000)
    | .error _ => true
  | _ => true

/-- A reservation of a change to an existing context. -/
def LlmContextMutationReservation.Mutates (r : LlmContextMutationReservation) : Prop :=
  r.request.operation = .append ∨ r.request.operation = .reset

variable {options} {amb : StoreAmbient} {s : LlmContextStore} {now : ℚ} {c : String} {entry entry' : Entry}
  {request : LlmContextMutationRequest} {r r' current : LlmContextMutationReservation}

/-! ### What a call can do -/

/-- The context is the one it was, but for its mark and its expiry. -/
structure Kept (entry entry' : Entry) : Prop where
  contextId : entry'.contextId = entry.contextId
  version : entry'.version = entry.version
  transcript : entry'.transcript = entry.transcript
  released : entry'.state = .released ↔ entry.state = .released

theorem Kept.refl (entry : Entry) : Kept entry entry := ⟨rfl, rfl, rfl, Iff.rfl⟩

theorem Kept.trans {entry'' : Entry} (h : Kept entry entry') (h' : Kept entry' entry'') : Kept entry entry'' where
  contextId := h'.contextId.trans h.contextId
  version := h'.version.trans h.version
  transcript := h'.transcript.trans h.transcript
  released := h'.released.trans h.released

theorem kept_expire : Kept entry (expire options now entry) := by
  unfold expire
  split
  · rename_i hexpiring
    refine ⟨rfl, rfl, rfl, ⟨nofun, fun hreleased => ?_⟩⟩
    simp [isExpiring, hreleased] at hexpiring
  · exact .refl entry

theorem reservationId_expire : (expire options now entry).reservationId = entry.reservationId := by
  unfold expire
  split <;> rfl

variable {contexts : JsMap String Entry}

theorem get_sweepContexts (h :
    (sweepContexts options now contexts).get c = some entry') :
    ∃ entry, contexts.get c = some entry ∧ entry' = expire options now entry := by
  rw [sweepContexts, JsMap.get_filter, JsMap.get_mapValues, Option.filter_eq_some_iff, Option.map_eq_some_iff] at h
  obtain ⟨⟨entry, hentry, rfl⟩, -⟩ := h
  exact ⟨entry, hentry, rfl⟩

theorem sweepContexts_held (hentry : contexts.get c = some entry)
    (hheld : entry.reservationId.isSome) (hstate : entry.state ≠ .expired ∧ entry.state ≠ .released) :
    (sweepContexts options now contexts).get c = some entry := by
  have hexpire : expire options now entry = entry := by
    have : isExpiring now entry = false := by
      simp [isExpiring, Option.isNone_eq_false_iff.2 hheld]
    rw [expire, this]
    rfl
  have hkept : isForgotten now entry = false := by
    have h1 : (entry.state == .expired) = false := beq_eq_false_iff_ne.2 hstate.1
    have h2 : (entry.state == .released) = false := beq_eq_false_iff_ne.2 hstate.2
    rw [isForgotten, h1, h2]
    rfl
  rw [sweepContexts, JsMap.get_filter, JsMap.get_mapValues, hentry, Option.map_some, hexpire,
    Option.filter_some_pos (by simp [hkept])]

theorem paramsInvalid_ne {α : Type} (message : String) (a : α) : paramsInvalid message ≠ .ok a := nofun

theorem validateRequest_ok (h : validateRequest request = .ok ()) :
    request.operation ≠ .release ∧ (request.operation ≠ .create → ∃ c, request.contextId = some c) := by
  simp only [validateRequest, ok_check (paramsInvalid_ne _)] at h
  obtain ⟨hrelease, -, -, h⟩ := h
  refine ⟨hrelease, fun hcreate => ?_⟩
  rw [if_neg hcreate] at h
  split at h
  · exact ⟨_, ‹_›⟩
  · obtain ⟨_, h, -⟩ := ok_bind.1 h
    cases h

variable {owner : LlmContextOwner}

theorem requireMutable_ok (h : requireMutable s owner c = .ok entry) :
    s.contexts.get c = some entry ∧ sameOwner entry.owner owner ∧
      entry.state ≠ .expired ∧ entry.state ≠ .released := by
  unfold requireMutable at h
  obtain ⟨found, hfound, h⟩ := ok_bind.1 h
  obtain ⟨_, howner, h⟩ := ok_bind.1 h
  unfold requireEntry at hfound
  unfold ensureOwner at howner
  split at hfound
  · cases hfound
  · cases hfound
    split at howner
    · split at h
      · cases h
      · split at h
        · cases h
        · cases h
          exact ⟨‹_›, ‹_›, ‹_›, ‹_›⟩
    · cases howner

theorem ensureVersion_ok {baseVersion : Option ℤ} (h : ensureVersion entry baseVersion = .ok ()) :
    entry.reservationId = none ∧ baseVersion = some (entry.version : ℤ) := by
  unfold ensureVersion at h
  split at h
  · cases h
  · rename_i hne
    obtain ⟨hfree, hversion⟩ := not_or.1 hne
    exact ⟨Option.not_isSome_iff_eq_none.1 hfree, not_not.1 hversion⟩

theorem releasable_ok {baseVersion : ℤ} {key : String}
    {found : LlmContextReceiptDto ⊕ Entry}
    (h : releasable options s owner c baseVersion key = .ok found) :
    match found with
    | .inl _ => s.idempotency.has (ownerKey owner RELEASE_ACTION key)
    | .inr entry => ¬ s.idempotency.has (ownerKey owner RELEASE_ACTION key) ∧
        s.contexts.get c = some entry ∧ sameOwner entry.owner owner ∧ entry.state ≠ .released ∧
        entry.reservationId = none ∧ baseVersion = entry.version := by
  unfold releasable at h
  obtain ⟨_, -, h⟩ := ok_bind.1 h
  obtain ⟨_, -, h⟩ := ok_bind.1 h
  split at h
  · cases h
  · split at h
    · rename_i hprior
      split at h
      · cases h
        simp [JsMap.has, hprior]
      · cases h
    · cases h
    · rename_i hprior
      obtain ⟨entry, hentry, h⟩ := ok_bind.1 h
      obtain ⟨hstored, howner, -, hlive⟩ := requireMutable_ok hentry
      obtain ⟨_, hversion, h⟩ := ok_bind.1 h
      obtain ⟨hfree, hversion⟩ := ensureVersion_ok hversion
      cases h
      exact ⟨by simp [JsMap.has, hprior], hstored, howner, hlive, hfree, Option.some.inj hversion⟩

structure GrantedOn (s : LlmContextStore) (request : LlmContextMutationRequest)
    (r : LlmContextMutationReservation) (c : String) (entry : Entry) : Prop where
  located : request.contextId = some c
  stored : s.contexts.get c = some entry
  live : entry.state ≠ .expired ∧ entry.state ≠ .released
  free : entry.reservationId = none
  version : request.baseVersion = some (entry.version : ℤ)
  transcript : r.baseTranscript = entry.transcript

inductive GrantCase (s : LlmContextStore) (request : LlmContextMutationRequest)
    (r : LlmContextMutationReservation) : Option Entry → Prop
  | create (operation : request.operation = .create) : GrantCase s request r none
  | fork {c : String} {entry : Entry} (operation : request.operation = .fork)
      (on : GrantedOn s request r c entry) : GrantCase s request r none
  | mutation {c : String} {entry : Entry} (operation : request.operation = .append ∨ request.operation = .reset)
      (on : GrantedOn s request r c entry) :
      GrantCase s request r (some { entry with reservationId := some r.reservationId })

theorem grantMutation_cases {g : Grant} (hrelease : request.operation ≠ .release)
    (hcreate : request.operation ≠ .create) (hlocated : request.contextId = some c)
    (h : grantMutation options amb s request c = .ok g) :
    g.reservation.request = request ∧ g.reservation.object = s.objects ∧
      g.reservation.reservationId = amb.uuid ∧ GrantCase s request g.reservation g.entry := by
  unfold grantMutation at h
  obtain ⟨entry, hentry, h⟩ := ok_bind.1 h
  obtain ⟨hstored, -, hlive⟩ := requireMutable_ok hentry
  obtain ⟨_, hversion, h⟩ := ok_bind.1 h
  obtain ⟨hfree, hversion⟩ := ensureVersion_ok hversion
  obtain ⟨_, -, h⟩ := ok_bind.1 h
  by_cases hfork : request.operation = .fork
  · rw [if_pos hfork] at h
    obtain ⟨_, -, h⟩ := ok_bind.1 h
    simp only [hfork, if_true] at h
    cases h
    exact ⟨rfl, rfl, rfl, .fork hfork ⟨hlocated, hstored, hlive, hfree, hversion, rfl⟩⟩
  · simp only [hfork, if_false] at h
    cases h
    have hop : request.operation = .append ∨ request.operation = .reset := by
      cases hop : request.operation with
      | create => exact absurd hop hcreate
      | append => exact .inl rfl
      | fork => exact absurd hop hfork
      | reset => exact .inr rfl
      | release => exact absurd hop hrelease
    exact ⟨rfl, rfl, rfl, .mutation hop ⟨hlocated, hstored, hlive, hfree, hversion, rfl⟩⟩

theorem grant_cases {g : Grant} (h : grant options amb s request = .ok g) :
    g.reservation.request = request ∧ g.reservation.object = s.objects ∧
      g.reservation.reservationId = amb.uuid ∧ GrantCase s request g.reservation g.entry := by
  unfold grant at h
  obtain ⟨_, hvalid, h⟩ := ok_bind.1 h
  obtain ⟨_, -, h⟩ := ok_bind.1 h
  obtain ⟨hrelease, hlocated⟩ := validateRequest_ok hvalid
  split at h
  · cases h
  · split at h
    · obtain ⟨_, -, h⟩ := ok_bind.1 h
      cases h
      exact ⟨rfl, rfl, rfl, .create ‹_›⟩
    · rename_i hnone hcreate
      obtain ⟨c, hc⟩ := hlocated hcreate
      rw [hnone] at hc
      cases hc
    · rename_i hc hcreate
      exact grantMutation_cases hrelease hcreate hc h

variable (options amb s request) in
theorem reserve_cases : (∃ e, reserve options amb s request = (.error e, (sweep options s (amb.clock 0)).2)) ∨
    ∃ r held s', reserve options amb s request = (.ok r, s') ∧
      r.request = request ∧ r.object = s.objects ∧ r.reservationId = amb.uuid ∧
      GrantCase (sweep options s (amb.clock 0)).2 request r held ∧
      s'.contexts = (held.elim (sweepContexts options (amb.clock 0) s.contexts) fun entry =>
        (sweepContexts options (amb.clock 0) s.contexts).set entry.contextId entry) ∧
      s'.reservations = s.reservations.set r.reservationId r ∧ s'.objects = s.objects + 1 := by
  unfold reserve
  dsimp only
  split
  · exact .inl ⟨_, rfl⟩
  · rename_i r held hgrant
    obtain ⟨hrequest, hobject, hid, hcase⟩ := grant_cases hgrant
    refine .inr ⟨r, held, _, rfl, hrequest, hobject, hid, hcase, ?_, rfl, rfl⟩
    cases held with
    | none => rfl
    | some entry => rfl

theorem requireReservation_ok (h : requireReservation s r = .ok current) :
    s.reservations.get r.reservationId = some current ∧ current.object = r.object := by
  unfold requireReservation at h
  split at h
  · split at h
    · cases h
      exact ⟨‹_›, ‹_›⟩
    · cases h
  · cases h

theorem requireEntry_ok (h : requireEntry s c = .ok entry) : s.contexts.get c = some entry := by
  unfold requireEntry at h
  split at h
  · cases h
  · cases h
    assumption

theorem nextContextId_fresh {ids : ℕ → Option String} {n : ℕ} (h : nextContextId s ids n = .ok c) :
    s.contexts.get c = none := by
  induction n generalizing ids with
  | zero => cases h
  | succ n ih =>
    unfold nextContextId at h
    split at h
    · cases h
    · obtain ⟨_, -, h⟩ := ok_bind.1 h
      split at h
      · exact ih h
      · rename_i hhas
        cases h
        exact Option.not_isSome_iff_eq_none.1 hhas

theorem isSome_isoDate {t : ℚ} (h : |t| ≤ 8640000000000000) : (isoDate t).isSome := by
  have hden : (0 : ℚ) < t.den := by exact_mod_cast t.den_pos
  have hnum : |t.num| ≤ 8640000000000000 * t.den := by
    have : (|t.num| : ℚ) ≤ 8640000000000000 * t.den := by
      have heq : (t.num : ℚ) = t * t.den := (Rat.mul_den_eq_num t).symm
      rw [heq, abs_mul, abs_of_pos hden]
      exact mul_le_mul_of_nonneg_right h hden.le
    exact_mod_cast this
  have hdiv : (t.num.tdiv t.den).natAbs ≤ 8640000000000000 := by
    rw [Int.natAbs_tdiv, Int.natAbs_natCast]
    apply Nat.div_le_of_le_mul
    rw [Int.abs_eq_natAbs] at hnum
    omega
  have hrange : ¬ (t.num.tdiv t.den < -Nip.Ca.maxTime ∨ Nip.Ca.maxTime < t.num.tdiv t.den) := by
    unfold Nip.Ca.maxTime
    omega
  rw [isoDate, if_pos h, Nip.Ca.toISOString, if_neg hrange]
  rfl

/-- What a commit changes. -/
inductive CommitCase (s : LlmContextStore) (current : LlmContextMutationReservation) (expiry : Option ℚ)
    (assistantResult : LlmMessageDto) (receipt : LlmContextReceiptDto) : JsMap String Entry → Prop
  | created (operation : current.request.operation = .create ∨ current.request.operation = .fork)
      (fresh : s.contexts.get receipt.contextId = none) (version : receipt.version = 1) :
      CommitCase s current expiry assistantResult receipt
        (s.contexts.set receipt.contextId (newEntry current receipt.contextId expiry assistantResult))
  | advanced {entry : Entry}
      (operation : ¬ (current.request.operation = .create ∨ current.request.operation = .fork))
      (stored : s.contexts.get (current.request.contextId.getD "") = some entry)
      (located : receipt.contextId = entry.contextId) (version : receipt.version = entry.version + 1) :
      CommitCase s current expiry assistantResult receipt
        (s.contexts.set entry.contextId (nextEntry current entry expiry assistantResult))

theorem settle_ok {version : ℕ} {expiry : Option ℚ} (h : ∀ t, expiry = some t → |t| ≤ 8640000000000000) :
    ∃ receipt s', settle options amb s current c version expiry = (.ok receipt, s') ∧
      receipt.contextId = c ∧ receipt.version = version ∧
      receipt.operation = current.request.operation ∧ s'.contexts = s.contexts ∧
      s'.reservations = s.reservations.delete current.reservationId ∧ s'.objects = s.objects := by
  unfold settle
  split
  · rename_i hnone
    obtain ⟨t, ht, hiso⟩ := Option.map_eq_some_iff.1 hnone
    have := isSome_isoDate (h t ht)
    rw [hiso] at this
    cases this
  · exact ⟨_, _, rfl, rfl, rfl, rfl, rfl, rfl, rfl⟩

variable (options) in
/-- What a commit does, where its expiry is a date there is. -/
theorem commit_cases {assistantResult : LlmMessageDto}
    (h : expiryRepresentable s (.commit amb r assistantResult) = true) :
    (∃ e, commit options amb s r assistantResult = (.error e, s)) ∨
    ∃ current receipt s', requireReservation s r = .ok current ∧
      commit options amb s r assistantResult = (.ok receipt, s') ∧ receipt.operation = current.request.operation ∧
      CommitCase s current (expiryOf amb current) assistantResult receipt s'.contexts ∧
      s'.reservations = s.reservations.delete current.reservationId ∧ s'.objects = s.objects := by
  unfold commit
  split
  · exact .inl ⟨_, rfl⟩
  · rename_i current hcurrent
    have hexpiry : findsContext amb s current = true →
        ∀ t, expiryOf amb current = some t → |t| ≤ 8640000000000000 := by
      intro hfinds t ht
      simpa only [expiryRepresentable, hcurrent, hfinds, ht, Bool.not_true, Bool.false_or,
        Option.all_some, decide_eq_true_eq] using h
    dsimp only
    split
    · rename_i hop
      split
      · exact .inl ⟨_, rfl⟩
      · rename_i c hc
        have hfinds : findsContext amb s current = true := by
          rw [findsContext, if_pos hop, hc]
          rfl
        obtain ⟨receipt, s', heq, hid, hversion, hreceipt, hcontexts, hreservations, hobjects⟩ :=
          settle_ok (hexpiry hfinds)
        refine .inr ⟨current, receipt, s', hcurrent, heq, hreceipt, ?_, hreservations, hobjects⟩
        rw [hcontexts]
        subst hid
        exact .created hop (nextContextId_fresh hc) hversion
    · rename_i hop
      split
      · exact .inl ⟨_, rfl⟩
      · rename_i entry hentry
        have hfinds : findsContext amb s current = true := by
          rw [findsContext, if_neg hop, hentry]
          rfl
        obtain ⟨receipt, s', heq, hid, hversion, hreceipt, hcontexts, hreservations, hobjects⟩ :=
          settle_ok (hexpiry hfinds)
        refine .inr ⟨current, receipt, s', hcurrent, heq, hreceipt, ?_, hreservations, hobjects⟩
        rw [hcontexts]
        have hstored : s.contexts.get (current.request.contextId.getD "") = some entry := by
          unfold requireEntry at hentry
          split at hentry
          · cases hentry
          · cases hentry
            assumption
        have hnext : receipt.version = entry.version + 1 := by
          rw [hversion, nextEntry]
          split <;> rfl
        exact .advanced hop hstored hid hnext

variable (options amb s r) in
theorem abort_cases (errorCode : Option String) : (∃ e, abort options amb s r errorCode = (.error e, s)) ∨
    ∃ current s', requireReservation s r = .ok current ∧ abort options amb s r errorCode = (.ok (), s') ∧
      s'.contexts = sweepContexts options (amb.clock 1) (clearReservation s current) ∧
      s'.reservations = s.reservations.delete current.reservationId ∧ s'.objects = s.objects := by
  unfold abort
  split
  · exact .inl ⟨_, rfl⟩
  · rename_i current hcurrent
    exact .inr ⟨current, _, hcurrent, rfl, rfl, rfl, rfl⟩

/-- A release that has an outcome for its key already. -/
def ReleaseKnown (options : LlmContextStoreOptions) (amb : StoreAmbient) (s : LlmContextStore)
    (owner : LlmContextOwner) (idempotencyKey : String) : Prop :=
  (sweep options s (amb.clock 0)).2.idempotency.has (ownerKey owner RELEASE_ACTION idempotencyKey)

/-- What a release changes. -/
structure ReleaseCase (s : LlmContextStore) (owner : LlmContextOwner) (c : String) (baseVersion : ℤ)
    (entry next : Entry) : Prop where
  stored : s.contexts.get c = some entry
  owned : sameOwner entry.owner owner
  live : entry.state ≠ .released
  free : entry.reservationId = none
  base : baseVersion = entry.version
  contextId : next.contextId = entry.contextId
  version : next.version = entry.version + 1
  state : next.state = .released
  transcript : next.transcript = entry.transcript

variable (options amb s) in
theorem release_cases (owner : LlmContextOwner) (c : String) (baseVersion : ℤ) (key : String) :
    (∃ answer, release options amb s owner c baseVersion key = (answer, (sweep options s (amb.clock 0)).2) ∧
      ∀ receipt, answer = .ok receipt → ReleaseKnown options amb s owner key) ∨
    ∃ entry next receipt s', release options amb s owner c baseVersion key = (.ok receipt, s') ∧
      ¬ ReleaseKnown options amb s owner key ∧
      ReleaseCase (sweep options s (amb.clock 0)).2 owner c baseVersion entry next ∧
      s'.contexts = (sweepContexts options (amb.clock 0) s.contexts).set entry.contextId next ∧
      s'.reservations = s.reservations ∧ s'.objects = s.objects := by
  unfold release
  dsimp only
  split
  · exact .inl ⟨_, rfl, nofun⟩
  · rename_i receipt hreleasable
    exact .inl ⟨_, rfl, fun _ _ => releasable_ok hreleasable⟩
  · rename_i entry hreleasable
    obtain ⟨hnew, hstored, howner, hlive, hfree, hbase⟩ := releasable_ok hreleasable
    exact .inr ⟨entry, { entry with
      version := entry.version + 1, state := .released, expiresAt := none
      tombstoneUntil := some (amb.clock 1 + options.tombstoneSeconds * 1000) }, _, _, rfl, hnew,
      ⟨hstored, howner, hlive, hfree, hbase, rfl, rfl, rfl, rfl⟩, rfl, rfl, rfl⟩

/-! ### Held contexts -/

/-- The reservation holds the context it was granted on, which is as it was then. -/
structure Held (contexts : JsMap String Entry) (r : LlmContextMutationReservation) (c : String)
    (entry : Entry) : Prop where
  located : r.request.contextId = some c
  stored : contexts.get c = some entry
  live : entry.state ≠ .expired ∧ entry.state ≠ .released
  marked : entry.reservationId = some r.reservationId
  version : r.request.baseVersion = some (entry.version : ℤ)
  transcript : r.baseTranscript = entry.transcript

theorem Held.sweep (h : Held contexts r c entry) : Held (sweepContexts options now contexts) r c entry where
  located := h.located
  stored := sweepContexts_held h.stored (by rw [h.marked]; rfl) h.live
  live := h.live
  marked := h.marked
  version := h.version
  transcript := h.transcript

theorem Held.set {c' : String} (h : Held contexts r c entry)
    (hne : c ≠ c') : Held (contexts.set c' entry') r c entry where
  located := h.located
  stored := by rw [JsMap.get_set_ne _ _ hne, h.stored]
  live := h.live
  marked := h.marked
  version := h.version
  transcript := h.transcript

theorem Held.not_free (h : Held contexts r c entry)
    (hentry : contexts.get c = some entry') : entry'.reservationId ≠ none := by
  have heq := h.stored.symm.trans hentry
  rw [← Option.some.inj heq, h.marked]
  nofun

theorem GrantedOn.held (h : GrantedOn s request r c entry) (hrequest : r.request = request)
    (hc : entry.contextId = c) :
    Held (s.contexts.set entry.contextId { entry with reservationId := some r.reservationId }) r c
      { entry with reservationId := some r.reservationId } where
  located := by rw [hrequest, h.located]
  stored := by rw [hc, JsMap.get_set_self]
  live := h.live
  marked := rfl
  version := by rw [hrequest, h.version]
  transcript := h.transcript

/-- What a reservation in the store is for. -/
def Reserved (contexts : JsMap String Entry) (r : LlmContextMutationReservation) : Prop :=
  (r.request.operation = .create ∨ r.request.operation = .fork) ∨
    (r.Mutates ∧ ∃ c entry, Held contexts r c entry)

/-- The invariant of the store. -/
structure Consistent (s : LlmContextStore) : Prop where
  keyed : ∀ c entry, s.contexts.get c = some entry → entry.contextId = c
  named : ∀ id r, s.reservations.get id = some r → r.reservationId = id
  made : ∀ id r, s.reservations.get id = some r → r.object < s.objects
  reserved : ∀ id r, s.reservations.get id = some r → Reserved s.contexts r

variable {s' : LlmContextStore}

theorem keyed_sweepContexts (h : ∀ c entry, contexts.get c = some entry → entry.contextId = c)
    (hget : (sweepContexts options now contexts).get c = some entry) : entry.contextId = c := by
  obtain ⟨old, hold, rfl⟩ := get_sweepContexts hget
  rw [kept_expire.contextId]
  exact h c old hold

theorem keyed_set {c' : String}
    (h : ∀ c entry, contexts.get c = some entry → entry.contextId = c) (hc : entry'.contextId = c')
    (hget : (contexts.set c' entry').get c = some entry) : entry.contextId = c := by
  rw [JsMap.get_set] at hget
  split at hget
  · cases hget
    rw [hc]
    exact Eq.symm ‹_›
  · exact h c entry hget

theorem Consistent.of_fewer (h : Consistent s)
    (hreservations : ∀ id r, s'.reservations.get id = some r → s.reservations.get id = some r)
    (hobjects : s'.objects = s.objects) (hkeyed : ∀ c entry, s'.contexts.get c = some entry → entry.contextId = c)
    (hheld : ∀ id r c entry, s'.reservations.get id = some r → Held s.contexts r c entry →
      ∃ entry', Held s'.contexts r c entry') : Consistent s' where
  keyed := hkeyed
  named id r hr := h.named id r (hreservations id r hr)
  made id r hr := by
    rw [hobjects]
    exact h.made id r (hreservations id r hr)
  reserved id r hr := by
    rcases h.reserved id r (hreservations id r hr) with hop | ⟨hop, c, entry, hentry⟩
    · exact .inl hop
    · obtain ⟨entry', hentry'⟩ := hheld id r c entry hr hentry
      exact .inr ⟨hop, c, entry', hentry'⟩

theorem Consistent.sweep (h : Consistent s) : Consistent (sweep options s now).2 :=
  h.of_fewer (fun _ _ hr => hr) rfl (fun _ _ => keyed_sweepContexts h.keyed)
    fun _ _ _ entry _ hentry => ⟨entry, hentry.sweep⟩

theorem get_of_delete {id k : String} (h : (s.reservations.delete k).get id = some r) :
    id ≠ k ∧ s.reservations.get id = some r := by
  rw [JsMap.get_delete] at h
  split at h
  · cases h
  · exact ⟨‹_›, h⟩

theorem Consistent.get_current (h : Consistent s) (hcurrent : requireReservation s r = .ok current) :
    s.reservations.get current.reservationId = some current := by
  obtain ⟨hget, -⟩ := requireReservation_ok hcurrent
  rw [h.named _ _ hget]
  exact hget

theorem Consistent.held (h : Consistent s) (hcurrent : requireReservation s r = .ok current)
    (hop : ¬ (current.request.operation = .create ∨ current.request.operation = .fork))
    (hentry : s.contexts.get (current.request.contextId.getD "") = some entry) :
    current.Mutates ∧ current.request.contextId = some entry.contextId ∧
      Held s.contexts current entry.contextId entry := by
  rcases h.reserved _ _ (h.get_current hcurrent) with hop' | ⟨hmutates, c, held, hheld⟩
  · exact absurd hop' hop
  · rw [hheld.located, Option.getD_some, hheld.stored, Option.some.injEq] at hentry
    subst hentry
    have hc : held.contextId = c := h.keyed _ _ hheld.stored
    rw [hc]
    exact ⟨hmutates, hheld.located, hheld⟩

theorem consistent_commit {assistantResult : LlmMessageDto} (h : Consistent s)
    (hexpiry : expiryRepresentable s (.commit amb r assistantResult) = true) :
    Consistent (commit options amb s r assistantResult).2 := by
  rcases commit_cases options hexpiry with ⟨e, heq⟩ |
    ⟨current, receipt, s', hcurrent, heq, -, hcase, hreservations, hobjects⟩
  · rw [heq]
    exact h
  rw [heq]
  refine h.of_fewer ?_ hobjects ?_ ?_
  · intro id r hr
    rw [hreservations] at hr
    exact (get_of_delete hr).2
  · generalize s'.contexts = contexts at hcase ⊢
    cases hcase with
    | created hop hfresh hversion => exact fun _ _ => keyed_set h.keyed rfl
    | advanced hop hstored hlocated hversion =>
      refine fun _ _ => keyed_set h.keyed ?_
      unfold nextEntry
      split <;> rfl
  · intro id r c entry hr hheld
    rw [hreservations] at hr
    obtain ⟨hne, hr⟩ := get_of_delete hr
    refine ⟨entry, ?_⟩
    generalize s'.contexts = contexts at hcase ⊢
    cases hcase with
    | created hop hfresh hversion =>
      apply hheld.set
      rintro rfl
      rw [hheld.stored] at hfresh
      cases hfresh
    | advanced hop hstored hlocated hversion =>
      obtain ⟨-, -, hmine⟩ := h.held hcurrent hop hstored
      apply hheld.set
      -- the two reservations would mark one context
      rintro rfl
      have hentry := hheld.stored.symm.trans hmine.stored
      have hmark := hheld.marked
      rw [Option.some.inj hentry, hmine.marked, Option.some.injEq, h.named id r hr] at hmark
      exact hne hmark.symm

theorem clearReservation_cases : clearReservation s r = s.contexts ∨
    ∃ c entry, r.request.contextId = some c ∧ s.contexts.get c = some entry ∧
      entry.reservationId = some r.reservationId ∧
      clearReservation s r = s.contexts.set c { entry with reservationId := none } := by
  unfold clearReservation
  split
  · exact .inl rfl
  · rename_i c hc
    split
    · exact .inl rfl
    · rename_i entry hentry
      split
      · exact .inr ⟨c, entry, hc, hentry, ‹_›, rfl⟩
      · exact .inl rfl

theorem keyed_clearReservation (h : ∀ c entry, s.contexts.get c = some entry → entry.contextId = c)
    (hget : (clearReservation s r).get c = some entry) : entry.contextId = c := by
  rcases clearReservation_cases (s := s) (r := r) with heq | ⟨c', old, -, hold, -, heq⟩
  · rw [heq] at hget
    exact h c entry hget
  · rw [heq] at hget
    refine keyed_set h ?_ hget
    exact h c' old hold

theorem Held.clearReservation (h : Held s.contexts r c entry) (hne : r.reservationId ≠ r'.reservationId) :
    Held (clearReservation s r') r c entry := by
  rcases clearReservation_cases (s := s) (r := r') with heq | ⟨c', old, -, hold, hmark, heq⟩
  · rw [heq]
    exact h
  · rw [heq]
    apply h.set
    rintro rfl
    have hentry := h.stored.symm.trans hold
    rw [← Option.some.inj hentry, h.marked, Option.some.injEq] at hmark
    exact hne hmark

theorem consistent_abort {errorCode : Option String} (h : Consistent s) :
    Consistent (abort options amb s r errorCode).2 := by
  rcases abort_cases options amb s r errorCode with
    ⟨e, heq⟩ | ⟨current, s', hcurrent, heq, hcontexts, hreservations, hobjects⟩
  · rw [heq]
    exact h
  rw [heq]
  refine h.of_fewer ?_ hobjects ?_ ?_
  · intro id r hr
    rw [hreservations] at hr
    exact (get_of_delete hr).2
  · intro c entry hentry
    rw [hcontexts] at hentry
    exact keyed_sweepContexts (fun _ _ => keyed_clearReservation h.keyed) hentry
  · intro id r c entry hr hheld
    rw [hreservations] at hr
    obtain ⟨hne, hr⟩ := get_of_delete hr
    rw [← h.named id r hr] at hne
    exact ⟨entry, by rw [hcontexts]; exact (hheld.clearReservation hne).sweep⟩

theorem consistent_release {baseVersion : ℤ} {key : String} (h : Consistent s) :
    Consistent (release options amb s owner c baseVersion key).2 := by
  rcases release_cases options amb s owner c baseVersion key with
    ⟨answer, heq, -⟩ | ⟨entry, next, receipt, s', heq, -, hcase, hcontexts, hreservations, hobjects⟩
  · rw [heq]
    exact h.sweep
  rw [heq]
  have hswept : Consistent (sweep options s (amb.clock 0)).2 := h.sweep
  refine h.of_fewer ?_ hobjects ?_ ?_
  · intro id r hr
    rw [hreservations] at hr
    exact hr
  · intro c entry hentry
    rw [hcontexts] at hentry
    exact keyed_set hswept.keyed hcase.contextId hentry
  · intro id r c' held hr hheld
    refine ⟨held, ?_⟩
    rw [hcontexts]
    apply hheld.sweep.set
    rintro rfl
    have hstored := hcase.stored
    rw [← hswept.keyed _ _ hcase.stored] at hstored
    exact hheld.sweep.not_free hstored hcase.free

theorem consistent_reserve (h : Consistent s) : Consistent (reserve options amb s request).2 := by
  rcases reserve_cases options amb s request with
    ⟨e, heq⟩ | ⟨r, held, s', heq, hrequest, hobject, hid, hcase, hcontexts, hreservations, hobjects⟩
  · rw [heq]
    exact h.sweep
  rw [heq]
  have hswept : Consistent (sweep options s (amb.clock 0)).2 := h.sweep
  have hget : ∀ id r', s'.reservations.get id = some r' →
      id = r.reservationId ∧ r' = r ∨ s.reservations.get id = some r' := by
    intro id r' hr'
    rw [hreservations, JsMap.get_set] at hr'
    split at hr'
    · exact .inl ⟨‹_›, (Option.some.inj hr').symm⟩
    · exact .inr hr'
  constructor
  · intro c entry hentry
    rw [hcontexts] at hentry
    cases held with
    | none => exact hswept.keyed c entry hentry
    | some marked => exact keyed_set hswept.keyed rfl hentry
  · intro id r' hr'
    rcases hget id r' hr' with ⟨rfl, rfl⟩ | hr'
    · rfl
    · exact h.named id r' hr'
  · intro id r' hr'
    rw [hobjects]
    rcases hget id r' hr' with ⟨-, rfl⟩ | hr'
    · omega
    · have := h.made id r' hr'
      omega
  · intro id r' hr'
    rcases hget id r' hr' with ⟨rfl, rfl⟩ | hr'
    · cases hcase with
      | create hop =>
        rw [← hrequest] at hop
        exact .inl (.inl hop)
      | fork hop hon =>
        rw [← hrequest] at hop
        exact .inl (.inr hop)
      | mutation hop hon =>
        rw [← hrequest] at hop
        have hheld := hon.held hrequest (hswept.keyed _ _ hon.stored)
        exact .inr ⟨hop, _, _, by rw [hcontexts]; exact hheld⟩
    · rcases h.reserved id r' hr' with hop | ⟨hop, c, entry, hheld⟩
      · exact .inl hop
      · refine .inr ⟨hop, c, entry, ?_⟩
        rw [hcontexts]
        cases hcase with
        | create | fork => exact hheld.sweep
        | mutation hop' hon =>
          apply hheld.sweep.set
          rintro rfl
          have hstored := hon.stored
          rw [← hswept.keyed _ _ hon.stored] at hstored
          exact hheld.sweep.not_free hstored hon.free

theorem consistent_step (e : ContextCall) (h : Consistent s) (hexpiry : expiryRepresentable s e = true) :
    Consistent (contextStep options s e) := by
  cases e with
  | reserve amb request => exact consistent_reserve h
  | commit amb r assistantResult => exact consistent_commit h hexpiry
  | abort amb r errorCode => exact consistent_abort h
  | release amb owner c baseVersion key => exact consistent_release h
  | sweep now => exact h.sweep

theorem consistent_empty : Consistent {} where
  keyed _ _ h := by cases h
  named _ _ h := by cases h
  made _ _ h := by cases h
  reserved _ _ h := by cases h

theorem consistent_contextsAfter {es : List ContextCall}
    (h : Along (contextStep options) (fun s e => expiryRepresentable s e = true) {} es) : Consistent (contextsAfter options es) :=
  run_induction_along consistent_empty (fun _ e hs he => consistent_step e hs he) h

/-! ### What is left as it was -/

/-- The contexts that are left are the ones that were. -/
def Unmoved (contexts contexts' : JsMap String Entry) : Prop :=
  ∀ c entry', contexts'.get c = some entry' → ∃ entry, contexts.get c = some entry ∧ Kept entry entry'

theorem Unmoved.refl (contexts : JsMap String Entry) : Unmoved contexts contexts :=
  fun _ entry h => ⟨entry, h, .refl entry⟩

theorem Unmoved.trans {contexts contexts' contexts'' : JsMap String Entry}
    (h : Unmoved contexts contexts') (h' : Unmoved contexts' contexts'') : Unmoved contexts contexts'' := by
  intro c entry'' hget
  obtain ⟨entry', hentry', hkept'⟩ := h' c entry'' hget
  obtain ⟨entry, hentry, hkept⟩ := h c entry' hentry'
  exact ⟨entry, hentry, hkept.trans hkept'⟩

theorem unmoved_sweepContexts (contexts : JsMap String Entry) :
    Unmoved contexts (sweepContexts options now contexts) := by
  intro c entry' h
  obtain ⟨entry, hentry, rfl⟩ := get_sweepContexts h
  exact ⟨entry, hentry, kept_expire⟩

theorem unmoved_set (h : contexts.get c = some entry)
    (hkept : Kept entry entry') : Unmoved contexts (contexts.set c entry') := by
  intro c' found hget
  rw [JsMap.get_set] at hget
  split at hget
  · rename_i heq
    cases hget
    rw [heq]
    exact ⟨entry, h, hkept⟩
  · exact ⟨found, hget, .refl found⟩

variable (options amb request) in
theorem unmoved_reserve (h : Consistent s) : Unmoved s.contexts (reserve options amb s request).2.contexts := by
  have hswept : Consistent (sweep options s (amb.clock 0)).2 := h.sweep
  rcases reserve_cases options amb s request with
    ⟨e, heq⟩ | ⟨r, held, s', heq, -, -, -, hcase, hcontexts, -⟩
  · rw [heq]
    exact unmoved_sweepContexts s.contexts
  · rw [heq]
    dsimp only
    rw [hcontexts]
    have hsweep : Unmoved s.contexts (sweepContexts options (amb.clock 0) s.contexts) :=
      unmoved_sweepContexts s.contexts
    refine hsweep.trans ?_
    cases hcase with
    | create | fork => exact .refl _
    | mutation hop hon =>
      have hstored := hon.stored
      rw [← hswept.keyed _ _ hon.stored] at hstored
      exact unmoved_set hstored ⟨rfl, rfl, rfl, Iff.rfl⟩

theorem unmoved_abort {errorCode : Option String} :
    Unmoved s.contexts (abort options amb s r errorCode).2.contexts := by
  rcases abort_cases options amb s r errorCode with
    ⟨e, heq⟩ | ⟨current, s', -, heq, hcontexts, -⟩
  · rw [heq]
    exact .refl _
  · rw [heq]
    dsimp only
    rw [hcontexts]
    refine Unmoved.trans ?_ (unmoved_sweepContexts _)
    rcases clearReservation_cases (s := s) (r := current) with heq | ⟨c, entry, -, hentry, -, heq⟩
    · rw [heq]
      exact .refl _
    · rw [heq]
      exact unmoved_set hentry ⟨rfl, rfl, rfl, Iff.rfl⟩

/-! ### Where reservations come from -/

/-- A reservation in the store was there before the call, or the call made it. -/
theorem reservation_step {e : ContextCall} {id : String} (hexpiry : expiryRepresentable s e = true)
    (h : (contextStep options s e).reservations.get id = some r) :
    s.reservations.get id = some r ∨
      ∃ amb request, e = .reserve amb request ∧ (reserve options amb s request).1 = .ok r := by
  cases e with
  | reserve amb request =>
    rw [contextStep] at h
    rcases reserve_cases options amb s request with
      ⟨e, heq⟩ | ⟨r', held, s', heq, -, -, -, -, -, hreservations, -⟩
    · rw [heq] at h
      exact .inl h
    · rw [heq] at h
      rw [hreservations, JsMap.get_set] at h
      split at h
      · cases h
        exact .inr ⟨amb, request, rfl, by rw [heq]⟩
      · exact .inl h
  | commit amb r' assistantResult =>
    rw [contextStep] at h
    rcases commit_cases options hexpiry with ⟨e, heq⟩ | ⟨current, receipt, s', -, heq, -, -, hreservations, -⟩
    · rw [heq] at h
      exact .inl h
    · rw [heq] at h
      rw [hreservations] at h
      exact .inl (get_of_delete h).2
  | abort amb r' errorCode =>
    rw [contextStep] at h
    rcases abort_cases options amb s r' errorCode with
      ⟨e, heq⟩ | ⟨current, s', -, heq, -, hreservations, -⟩
    · rw [heq] at h
      exact .inl h
    · rw [heq] at h
      rw [hreservations] at h
      exact .inl (get_of_delete h).2
  | release amb owner c baseVersion key =>
    rw [contextStep] at h
    rcases release_cases options amb s owner c baseVersion key with
      ⟨answer, heq, -⟩ | ⟨entry, next, receipt, s', heq, -, -, -, hreservations, -⟩
    · rw [heq] at h
      exact .inl h
    · rw [heq] at h
      rw [hreservations] at h
      exact .inl h
  | sweep now => exact .inl h

theorem reserved_earlier {es : List ContextCall} {id : String}
    (h : Along (contextStep options) (fun s e => expiryRepresentable s e = true) {} es)
    (hr : (contextsAfter options es).reservations.get id = some r) :
    ∃ pre amb request mid, es = pre ++ .reserve amb request :: mid ∧
      (reserve options amb (contextsAfter options pre) request).1 = .ok r := by
  induction es using List.reverseRecOn with
  | nil => cases hr
  | append_singleton es e ih =>
    obtain ⟨hes, he⟩ := along_snoc.1 h
    rw [contextsAfter, run_snoc] at hr
    rcases reservation_step he hr with hold | ⟨amb, request, rfl, hnew⟩
    · obtain ⟨pre, amb, request, mid, rfl, hgrant⟩ := ih hes hold
      exact ⟨pre, amb, request, mid ++ [e], by simp, hgrant⟩
    · exact ⟨es, amb, request, [], rfl, hnew⟩

theorem stored_of_reserve (h : (reserve options amb s request).1 = .ok r) :
    (reserve options amb s request).2.reservations.get r.reservationId = some r ∧ r.request = request := by
  rcases reserve_cases options amb s request with
    ⟨e, heq⟩ | ⟨r', held, s', heq, hrequest, -, -, -, -, hreservations, -⟩
  · rw [heq] at h
    cases h
  · rw [heq] at h ⊢
    cases h
    rw [hreservations, JsMap.get_set_self]
    exact ⟨rfl, hrequest⟩

end NpsSdk.Nwp
