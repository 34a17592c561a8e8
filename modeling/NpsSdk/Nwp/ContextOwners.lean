import NpsSdk.Lib.Noninterference
import NpsSdk.Nwp.ContextReservations

/-!
# The owners of contexts

The calls of the store as operations of owners, in any order.  An owner commits and aborts the
reservations it was given; `ContextWorld` is the store together with these.

What an operation does to the store is a sequence of changes, each of the owner's own: `Moves`.
-/

namespace NpsSdk.Nwp

open NpsSdk.Lib

/-! ### Operations -/

/-- An operation; the reservations of an owner are counted in the order it was given them. -/
inductive OwnerCall
  | reserve (request : LlmContextMutationRequest)
  | commit (nth : ℕ) (assistantResult : LlmMessageDto)
  | abort (nth : ℕ) (errorCode : Option String)
  | release (contextId : String) (baseVersion : ℤ) (idempotencyKey : String)
  | status (locator : ContextLocator)
  | snapshot (contextId : String)

inductive StoreEvent
  | operation (owner : LlmContextOwner) (amb : StoreAmbient) (call : OwnerCall)
  | sweepExpired (now : ℚ)

/-- What an owner is answered; `nothing` where it has no such reservation to give. -/
inductive OwnerAnswer
  | reservation (result : Except LlmContextStoreError LlmContextMutationReservation)
  | receipt (result : Except LlmContextStoreError LlmContextReceiptDto)
  | aborted (result : Except LlmContextStoreError Unit)
  | status (result : Except LlmContextStoreError LlmContextStatusDto)
  | snapshot (result : Except LlmContextStoreError LlmContextSnapshot)
  | nothing

structure ContextWorld where
  store : LlmContextStore := {}
  handles : LlmContextOwner → List LlmContextMutationReservation := fun _ => []

/-- A reservation without the number of its object, which is no part of what its holder reads. -/
def LlmContextMutationReservation.unnumbered (r : LlmContextMutationReservation) :
    LlmContextMutationReservation := { r with object := 0 }

variable (options : LlmContextStoreOptions) (w : ContextWorld) (owner : LlmContextOwner)
  (amb : StoreAmbient)

def perform : OwnerCall → OwnerAnswer × ContextWorld
  | .reserve request =>
    let answer := reserve options amb w.store { request with owner }
    (.reservation (answer.1.map LlmContextMutationReservation.unnumbered),
      { store := answer.2
        handles := Function.update w.handles owner (w.handles owner ++ answer.1.toOption.toList) })
  | .commit nth assistantResult =>
    match (w.handles owner)[nth]? with
    | none => (.nothing, w)
    | some reservation =>
      let answer := commit options amb w.store reservation assistantResult
      (.receipt answer.1, { w with store := answer.2 })
  | .abort nth errorCode =>
    match (w.handles owner)[nth]? with
    | none => (.nothing, w)
    | some reservation =>
      let answer := abort options amb w.store reservation errorCode
      (.aborted answer.1, { w with store := answer.2 })
  | .release contextId baseVersion idempotencyKey =>
    let answer := release options amb w.store owner contextId baseVersion idempotencyKey
    (.receipt answer.1, { w with store := answer.2 })
  | .status locator =>
    let answer := status options amb w.store owner locator
    (.status answer.1, { w with store := answer.2 })
  | .snapshot contextId =>
    let answer := snapshot options amb w.store owner contextId
    (.snapshot answer.1, { w with store := answer.2 })

def worldStep (w : ContextWorld) : StoreEvent → ContextWorld
  | .operation owner amb call => (perform options w owner amb call).2
  | .sweepExpired now => { w with store := (sweep options w.store now).2 }

def worldAnswer (w : ContextWorld) : StoreEvent → OwnerAnswer
  | .operation owner amb call => (perform options w owner amb call).1
  | .sweepExpired _ => .nothing

def looksAgain (s : LlmContextStore) (locator : ContextLocator) : Bool :=
  match locator.contextId, locator.idempotencyKey with
  | none, some idempotencyKey =>
    match s.idempotency.get (ownerKey owner COMPLETE_ACTION idempotencyKey) with
    | some { state := .completed, receipt := some receipt, .. } => s.contexts.has receipt.contextId
    | _ => false
  | _, _ => false

/-- The instants at which an operation sweeps the store. -/
def sweepTimes : OwnerCall → List ℚ
  | .commit _ _ => []
  | .abort nth _ =>
    match (w.handles owner)[nth]? with
    | none => []
    | some reservation =>
      if (requireReservation w.store reservation).isOk then [amb.clock 1] else []
  | .status locator =>
    if looksAgain owner (sweep options w.store (amb.clock 0)).2 locator then [amb.clock 0, amb.clock 1]
    else [amb.clock 0]
  | .reserve _ | .release _ _ _ | .snapshot _ => [amb.clock 0]

/-! ### Keys and identifiers -/

/-- The key of an outcome an operation retains. -/
def retainedKey (owner : LlmContextOwner) : OwnerCall → Option String
  | .reserve request => some (ownerKey owner COMPLETE_ACTION request.idempotencyKey)
  | .release _ _ idempotencyKey => some (ownerKey owner RELEASE_ACTION idempotencyKey)
  | _ => none

/-- The key of an outcome an operation asks for. -/
def lookedUpKey (owner : LlmContextOwner) : OwnerCall → Option String
  | .status { idempotencyKey := some idempotencyKey, .. } =>
    some (ownerKey owner COMPLETE_ACTION idempotencyKey)
  | call => retainedKey owner call

def RetainedBy (es : List StoreEvent) (o : LlmContextOwner) (k : String) : Prop :=
  ∃ amb call, StoreEvent.operation o amb call ∈ es ∧ retainedKey o call = some k

def LookedUpBy (es : List StoreEvent) (o : LlmContextOwner) (k : String) : Prop :=
  ∃ amb call, StoreEvent.operation o amb call ∈ es ∧ lookedUpKey o call = some k

/-- The identifier is one of those generated for the commits of the owner. -/
def DrawnBy (es : List StoreEvent) (o : LlmContextOwner) (c : String) : Prop :=
  ∃ amb nth assistantResult n, StoreEvent.operation o amb (.commit nth assistantResult) ∈ es ∧
    amb.contextIds n = some c

/-- The identifier is one of those generated for the reservations of the owner. -/
def ReservedBy (es : List StoreEvent) (o : LlmContextOwner) (id : String) : Prop :=
  ∃ amb request, StoreEvent.operation o amb (.reserve request) ∈ es ∧ amb.uuid = id

/-- The identifier generated for a reservation. -/
def reservationUuid : StoreEvent → Option String
  | .operation _ amb (.reserve _) => some amb.uuid
  | _ => none

/-! ### What an operation changes -/

/-- The key under which the outcome of a reservation is retained. -/
def completeKey (r : LlmContextMutationReservation) : String :=
  ownerKey r.request.owner COMPLETE_ACTION r.request.idempotencyKey

section

/-- Whose the context identifiers, the keys of outcomes and the reservation identifiers are. -/
structure Origins where
  contexts : LlmContextOwner → String → Prop
  keys : LlmContextOwner → String → Prop
  reservations : LlmContextOwner → String → Prop

variable (O : Origins)

/-- Nothing is two owners'. -/
def Sole (P : LlmContextOwner → String → Prop) : Prop := ∀ o o' x, P o x → P o' x → o = o'

structure Placed (r : LlmContextMutationReservation) : Prop where
  written : O.keys r.request.owner (completeKey r)
  drawn : ∀ c, r.request.contextId = some c → O.contexts r.request.owner c
  located : ¬ (r.request.operation = .create ∨ r.request.operation = .fork) →
    ∃ c, r.request.contextId = some c
  named : O.reservations r.request.owner r.reservationId

structure Traced (s : LlmContextStore) : Prop where
  keyed : ∀ c entry, s.contexts.get c = some entry → entry.contextId = c
  contexts : ∀ c entry, s.contexts.get c = some entry → O.contexts entry.owner c
  marks : ∀ c entry id, s.contexts.get c = some entry → entry.reservationId = some id →
    O.reservations entry.owner id
  reservations : ∀ id r, s.reservations.get id = some r → r.reservationId = id ∧ Placed O r
  receipts : ∀ k v receipt, s.idempotency.get k = some v → v.receipt = some receipt →
    ∃ o, O.keys o k ∧ O.contexts o receipt.contextId

/-- The changes of an owner to the store, one after the other, with the instants of the sweeps among them
and the reservation that is made. -/
inductive Moves (o : LlmContextOwner) (s : LlmContextStore) :
    List ℚ → Option LlmContextMutationReservation → LlmContextStore → Prop
  | refl : Moves o s [] none s
  | sweep {ts : List ℚ} {held : Option LlmContextMutationReservation} {s' : LlmContextStore}
      (h : Moves o s ts held s') (now : ℚ) : Moves o s (ts ++ [now]) held (sweep options s' now).2
  | context {ts : List ℚ} {held : Option LlmContextMutationReservation} {s' : LlmContextStore}
      (h : Moves o s ts held s') (entry : Entry) (owner : entry.owner = o)
      (drawn : O.contexts o entry.contextId)
      (marked : ∀ id, entry.reservationId = some id → O.reservations o id)
      (own : ∀ old, s'.contexts.get entry.contextId = some old → old.owner = o) :
      Moves o s ts held { s' with contexts := s'.contexts.set entry.contextId entry }
  | outcome {ts : List ℚ} {held : Option LlmContextMutationReservation} {s' : LlmContextStore}
      (h : Moves o s ts held s') (k : String) (v : IdempotencyEntry) (written : O.keys o k)
      (drawn : ∀ receipt, v.receipt = some receipt → O.contexts o receipt.contextId) :
      Moves o s ts held { s' with idempotency := s'.idempotency.set k v }
  | hold {ts : List ℚ} {s' : LlmContextStore} (h : Moves o s ts none s')
      (r : LlmContextMutationReservation) (owner : r.request.owner = o) (placed : Placed O r)
      (fresh : s'.reservations.get r.reservationId = none) :
      Moves o s ts (some r)
        { s' with reservations := s'.reservations.set r.reservationId r, objects := s'.objects + 1 }
  | drop {ts : List ℚ} {held : Option LlmContextMutationReservation} {s' : LlmContextStore}
      (h : Moves o s ts held s') (id : String)
      (own : ∀ r, s'.reservations.get id = some r → r.request.owner = o) :
      Moves o s ts held { s' with reservations := s'.reservations.delete id }

end

variable {options} {O : Origins} {o : LlmContextOwner} {s s' : LlmContextStore}
  {ts : List ℚ} {held : Option LlmContextMutationReservation} {c : String} {entry : Entry}

theorem owner_expire (now : ℚ) (entry : Entry) : (expire options now entry).owner = entry.owner := by
  unfold expire
  split <;> rfl

/-- The changes of an owner leave a store that can be traced. -/
theorem Traced.moves (h : Traced O s) (hm : Moves options O o s ts held s') : Traced O s' := by
  induction hm with
  | refl => exact h
  | sweep hm now ih =>
    refine ⟨fun _ _ => keyed_sweepContexts ih.keyed, fun c entry hget => ?_, fun c entry id hget hmark => ?_,
      ih.reservations, ?_⟩
    · obtain ⟨old, hold, rfl⟩ := get_sweepContexts hget
      rw [owner_expire]
      exact ih.contexts c old hold
    · obtain ⟨old, hold, rfl⟩ := get_sweepContexts hget
      rw [owner_expire]
      rw [reservationId_expire] at hmark
      exact ih.marks c old id hold hmark
    · intro k v receipt hget
      change (JsMap.filter _ _).get k = some v at hget
      rw [JsMap.get_filter, Option.filter_eq_some_iff] at hget
      exact ih.receipts k v receipt hget.1
  | context hm entry howner hdrawn hmarked hown ih =>
    refine ⟨fun _ _ => keyed_set ih.keyed rfl, fun c found hget => ?_, fun c found id hget hmark => ?_,
      ih.reservations, ih.receipts⟩
    · rw [JsMap.get_set] at hget
      split at hget
      · rename_i hc
        cases hget
        rw [hc, howner]
        exact hdrawn
      · exact ih.contexts c found hget
    · rw [JsMap.get_set] at hget
      split at hget
      · cases hget
        rw [howner]
        exact hmarked id hmark
      · exact ih.marks c found id hget hmark
  | outcome hm k v hwritten hdrawn ih =>
    refine ⟨ih.keyed, ih.contexts, ih.marks, ih.reservations, fun k' v' receipt hget hreceipt => ?_⟩
    rw [JsMap.get_set] at hget
    split at hget
    · rename_i hk
      cases hget
      rw [hk]
      exact ⟨o, hwritten, hdrawn receipt hreceipt⟩
    · exact ih.receipts k' v' receipt hget hreceipt
  | hold hm r howner hplaced hfresh ih =>
    refine ⟨ih.keyed, ih.contexts, ih.marks, fun id r' hget => ?_, ih.receipts⟩
    rw [JsMap.get_set] at hget
    split at hget
    · rename_i hid
      cases hget
      exact ⟨hid.symm, hplaced⟩
    · exact ih.reservations id r' hget
  | drop hm id hown ih =>
    exact ⟨ih.keyed, ih.contexts, ih.marks, fun id' r hget => ih.reservations id' r (get_of_delete hget).2,
      ih.receipts⟩

theorem Moves.reservation (hm : Moves options O o s ts held s') {id : String}
    {r : LlmContextMutationReservation} (hget : s'.reservations.get id = some r) :
    s.reservations.get id = some r ∨ held = some r ∧ r.reservationId = id := by
  induction hm with
  | refl => exact .inl hget
  | sweep hm now ih => exact ih hget
  | context hm entry howner hdrawn hmarked hown ih => exact ih hget
  | outcome hm k v hwritten hdrawn ih => exact ih hget
  | hold hm r' howner hplaced hfresh ih =>
    rw [JsMap.get_set] at hget
    split at hget
    · rename_i hid
      cases hget
      exact .inr ⟨rfl, hid.symm⟩
    · rcases ih hget with hold | ⟨hnone, -⟩
      · exact .inl hold
      · cases hnone
  | drop hm id' hown ih => exact ih (get_of_delete hget).2

/-! ### The changes of each operation -/

variable {amb : StoreAmbient} {request : LlmContextMutationRequest} {r current : LlmContextMutationReservation}
  {g : Grant}

theorem requireMutable_owner {owner : LlmContextOwner} (h : requireMutable s owner c = .ok entry) :
    s.contexts.get c = some entry ∧ entry.owner = owner :=
  ⟨(requireMutable_ok h).1, sameOwner_iff.1 (requireMutable_ok h).2.1⟩

theorem contextId_of_create (h : validateRequest request = .ok ()) (hop : request.operation = .create) :
    request.contextId = none := by
  simp only [validateRequest, ok_check (paramsInvalid_ne _)] at h
  obtain ⟨-, -, -, h⟩ := h
  rw [if_pos hop] at h
  obtain ⟨h, -⟩ := (ok_check (paramsInvalid_ne _)).1 h
  exact Option.not_isSome_iff_eq_none.1 (not_or.1 h).1

theorem grant_owns (h : grant options amb s request = .ok g) (hc : request.contextId = some c) :
    ∃ entry, s.contexts.get c = some entry ∧ entry.owner = request.owner := by
  unfold grant at h
  obtain ⟨_, hvalid, h⟩ := ok_bind.1 h
  obtain ⟨_, -, h⟩ := ok_bind.1 h
  split at h
  · cases h
  · split at h
    · rename_i hop
      rw [contextId_of_create hvalid hop] at hc
      cases hc
    · rename_i hnone hop
      rw [hnone] at hc
      cases hc
    · rename_i c' hc' hop
      rw [hc', Option.some.injEq] at hc
      subst hc
      unfold grantMutation at h
      obtain ⟨entry, hentry, -⟩ := ok_bind.1 h
      exact ⟨entry, requireMutable_owner hentry⟩

variable (options amb) in
theorem moves_reserve (h : Traced O s)
    (hkey : O.keys request.owner (ownerKey request.owner COMPLETE_ACTION request.idempotencyKey))
    (hname : O.reservations request.owner amb.uuid) (hfresh : s.reservations.get amb.uuid = none) :
    Moves options O request.owner s [amb.clock 0] (reserve options amb s request).1.toOption
      (reserve options amb s request).2 := by
  have hsweep : Moves options O request.owner s [amb.clock 0] none (sweep options s (amb.clock 0)).2 :=
    .sweep .refl _
  have hswept : Traced O (sweep options s (amb.clock 0)).2 := h.moves hsweep
  unfold reserve
  dsimp only
  split
  · exact hsweep
  · rename_i r marked hgrant
    obtain ⟨hrequest, -, hid, hcase⟩ := grant_cases hgrant
    dsimp only at hrequest hid hcase
    have howned : ∀ c entry, (sweep options s (amb.clock 0)).2.contexts.get c = some entry →
        request.contextId = some c → entry.owner = request.owner := by
      intro c entry hentry hc
      obtain ⟨found, hfound, howner⟩ := grant_owns hgrant hc
      rw [hentry, Option.some.injEq] at hfound
      rw [hfound, howner]
    have hplaced : Placed O r := by
      refine ⟨?_, fun c hc => ?_, fun hop => ?_, ?_⟩
      · rw [completeKey, hrequest]
        exact hkey
      · rw [hrequest] at hc ⊢
        obtain ⟨entry, hentry, howner⟩ := grant_owns hgrant hc
        rw [← howner]
        exact hswept.contexts c entry hentry
      · rw [hrequest] at hop ⊢
        cases hcase with
        | create hcreate => exact absurd (.inl hcreate) hop
        | fork hfork => exact absurd (.inr hfork) hop
        | mutation hmutation hon => exact ⟨_, hon.located⟩
      · rw [hrequest, hid]
        exact hname
    have hfree : (sweep options s (amb.clock 0)).2.reservations.get r.reservationId = none := by
      rw [hid]
      exact hfresh
    have howner : r.request.owner = request.owner := by rw [hrequest]
    have hbusy : ∀ receipt, (none : Option LlmContextReceiptDto) = some receipt →
        O.contexts request.owner receipt.contextId := by
      intro receipt hreceipt
      cases hreceipt
    cases hcase with
    | create hcreate => exact .hold (.outcome hsweep _ _ hkey hbusy) r howner hplaced hfree
    | fork hfork hon => exact .hold (.outcome hsweep _ _ hkey hbusy) r howner hplaced hfree
    | @mutation c entry hmutation hon =>
      have hc : entry.contextId = c := hswept.keyed _ _ hon.stored
      have hentry := howned _ _ hon.stored hon.located
      have hdrawn : O.contexts request.owner entry.contextId := by
        rw [← hentry, hc]
        exact hswept.contexts _ _ hon.stored
      have hmark := hsweep.context { entry with reservationId := some r.reservationId } hentry hdrawn (by
        intro id hmark
        cases hmark
        rw [hid]
        exact hname) (by
        intro old hold
        exact howned _ _ hold (hc ▸ hon.located))
      exact .hold (.outcome hmark _ _ hkey hbusy) r howner hplaced hfree

def Genuine (s : LlmContextStore) (r : LlmContextMutationReservation) : Prop :=
  ∀ current, s.reservations.get r.reservationId = some current → current = r

theorem Genuine.eq (h : Genuine s r) (hcurrent : requireReservation s r = .ok current) : current = r :=
  h current (requireReservation_ok hcurrent).1

theorem nextContextId_drawn {ids : ℕ → Option String} {n : ℕ} (h : nextContextId s ids n = .ok c) :
    ∃ m, ids m = some c := by
  induction n generalizing ids with
  | zero => cases h
  | succ n ih =>
    unfold nextContextId at h
    split at h
    · cases h
    · rename_i found hfound
      obtain ⟨_, -, h⟩ := ok_bind.1 h
      split at h
      · obtain ⟨m, hm⟩ := ih h
        exact ⟨m + 1, hm⟩
      · cases h
        exact ⟨0, hfound⟩

theorem Traced.owner_eq (h : Traced O s) (hsole : Sole O.contexts)
    (hget : s.contexts.get c = some entry) (hc : O.contexts o c) : entry.owner = o :=
  hsole _ _ c (h.contexts c entry hget) hc

theorem nextEntry_owner (entry : Entry) (expiry : Option ℚ) (assistantResult : LlmMessageDto) :
    (nextEntry current entry expiry assistantResult).owner = entry.owner := by
  unfold nextEntry
  split <;> rfl

theorem nextEntry_contextId (entry : Entry) (expiry : Option ℚ) (assistantResult : LlmMessageDto) :
    (nextEntry current entry expiry assistantResult).contextId = entry.contextId := by
  unfold nextEntry
  split <;> rfl

theorem nextEntry_reservationId (entry : Entry) (expiry : Option ℚ) (assistantResult : LlmMessageDto) :
    (nextEntry current entry expiry assistantResult).reservationId = none := by
  unfold nextEntry
  split <;> rfl

theorem Moves.settle (hm : Moves options O r.request.owner s ts held s') (version : ℕ) (expiry : Option ℚ)
    (hwritten : O.keys r.request.owner (completeKey r)) (hdrawn : O.contexts r.request.owner c) (hr : Genuine s' r) :
    Moves options O r.request.owner s ts held (settle options amb s' r c version expiry).2 := by
  unfold NpsSdk.Nwp.settle
  split
  · exact hm
  · dsimp only
    refine .drop (.outcome hm _ _ hwritten ?_) _ fun current hcurrent => ?_
    · intro receipt hreceipt
      cases hreceipt
      exact hdrawn
    · rw [hr current hcurrent]

theorem moves_commit (h : Traced O s) (hsole : Sole O.contexts)
    (hids : ∀ n id, amb.contextIds n = some id → O.contexts r.request.owner id) (hr : Genuine s r)
    (assistantResult : LlmMessageDto) :
    Moves options O r.request.owner s [] none (commit options amb s r assistantResult).2 := by
  unfold commit
  split
  · exact .refl
  · rename_i current hcurrent
    obtain rfl := hr.eq hcurrent
    have hplaced : Placed O current := (h.reservations _ _ (requireReservation_ok hcurrent).1).2
    dsimp only
    split
    · split
      · exact .refl
      · rename_i c hc
        obtain ⟨n, hn⟩ := nextContextId_drawn hc
        have hdrawn : O.contexts current.request.owner c := hids n c hn
        let entry := newEntry current c (expiryOf amb current) assistantResult
        have hnew : Moves options O current.request.owner s [] none
            { s with contexts := s.contexts.set c entry } :=
          .context .refl entry rfl hdrawn (by
            intro id hmark
            cases hmark) (by
            intro old hold
            have hfresh : s.contexts.get c = none := nextContextId_fresh hc
            have hold : s.contexts.get c = some old := hold
            rw [hfresh] at hold
            cases hold)
        exact hnew.settle 1 _ hplaced.written hdrawn hr
    · rename_i hop
      split
      · exact .refl
      · rename_i entry hentry
        obtain ⟨c, hc⟩ := hplaced.located hop
        have hget : s.contexts.get c = some entry := by
          rw [hc] at hentry
          exact requireEntry_ok hentry
        have hid : entry.contextId = c := h.keyed c entry hget
        have howner : entry.owner = current.request.owner := h.owner_eq hsole hget (hplaced.drawn c hc)
        have hdrawn : O.contexts current.request.owner entry.contextId := by
          rw [hid]
          exact hplaced.drawn c hc
        let next := nextEntry current entry (expiryOf amb current) assistantResult
        have hnextId : next.contextId = entry.contextId := nextEntry_contextId _ _ _
        have hunmarked : ∀ id, next.reservationId = some id → O.reservations current.request.owner id := by
          intro id hmark
          rw [nextEntry_reservationId] at hmark
          cases hmark
        have hnext : Moves options O current.request.owner s [] none
            { s with contexts := s.contexts.set next.contextId next } :=
          .context .refl next ((nextEntry_owner _ _ _).trans howner) (hnextId ▸ hdrawn) hunmarked (by
            intro old hold
            rw [hnextId] at hold
            exact h.owner_eq hsole hold hdrawn)
        rw [hnextId] at hnext
        exact hnext.settle _ _ hplaced.written hdrawn hr

theorem Moves.clear (h : Traced O s) (hsole : Sole O.contexts) (hplaced : Placed O r) :
    Moves options O r.request.owner s [] none { s with contexts := clearReservation s r } := by
  rcases clearReservation_cases (s := s) (r := r) with heq | ⟨c, entry, hc, hget, -, heq⟩
  · rw [heq]
    exact .refl
  · have hid : entry.contextId = c := h.keyed c entry hget
    have hdrawn : O.contexts r.request.owner entry.contextId := by
      rw [hid]
      exact hplaced.drawn c hc
    have howner : entry.owner = r.request.owner := h.owner_eq hsole hget (hplaced.drawn c hc)
    rw [heq, ← hid]
    refine .context .refl { entry with reservationId := none } howner hdrawn ?_ fun old hold =>
      h.owner_eq hsole hold hdrawn
    intro id hmark
    cases hmark

theorem moves_abort (h : Traced O s) (hsole : Sole O.contexts) (hr : Genuine s r)
    (errorCode : Option String) :
    Moves options O r.request.owner s
      (if (requireReservation s r).isOk then [amb.clock 1] else []) none
      (abort options amb s r errorCode).2 := by
  unfold abort
  cases hrequired : requireReservation s r with
  | error e => exact .refl
  | ok current =>
    obtain rfl := hr.eq hrequired
    have hplaced : Placed O current := (h.reservations _ _ (requireReservation_ok hrequired).1).2
    have hclear : Moves options O current.request.owner s [] none
        { s with contexts := clearReservation s current } := .clear h hsole hplaced
    have hdropped := hclear.drop current.reservationId fun r' hr' => by rw [hr r' hr']
    refine .sweep (.outcome hdropped (completeKey current) _ hplaced.written ?_) _
    intro receipt hreceipt
    cases hreceipt

theorem releasable_owner {owner : LlmContextOwner} {baseVersion : ℤ} {key : String}
    (h : releasable options s owner c baseVersion key = .ok (.inr entry)) :
    s.contexts.get c = some entry ∧ entry.owner = owner :=
  ⟨(releasable_ok h).2.1, sameOwner_iff.1 (releasable_ok h).2.2.1⟩

theorem moves_release (h : Traced O s) (c : String) (baseVersion : ℤ) (key : String)
    (hkey : O.keys o (ownerKey o RELEASE_ACTION key)) :
    Moves options O o s [amb.clock 0] none (release options amb s o c baseVersion key).2 := by
  have hsweep : Moves options O o s [amb.clock 0] none (NpsSdk.Nwp.sweep options s (amb.clock 0)).2 :=
    .sweep .refl _
  have hswept : Traced O (NpsSdk.Nwp.sweep options s (amb.clock 0)).2 := h.moves hsweep
  unfold release
  dsimp only
  split
  · exact hsweep
  · exact hsweep
  · rename_i entry hreleasable
    obtain ⟨hget, howner⟩ := releasable_owner hreleasable
    have hid : entry.contextId = c := hswept.keyed c entry hget
    have hdrawn : O.contexts o c := by
      rw [← howner]
      exact hswept.contexts c entry hget
    have hmarked : ∀ id, entry.reservationId = some id → O.reservations o id := by
      intro id hmark
      rw [← howner]
      exact hswept.marks c entry id hget hmark
    have hown : ∀ old,
        (NpsSdk.Nwp.sweep options s (amb.clock 0)).2.contexts.get entry.contextId = some old → old.owner = o := by
      intro old hold
      rw [hid, hget, Option.some.injEq] at hold
      rw [← hold, howner]
    refine .outcome (.context hsweep { entry with
      version := entry.version + 1, state := .released, expiresAt := none
      tombstoneUntil := some (amb.clock 1 + options.tombstoneSeconds * 1000) } howner (hid ▸ hdrawn) hmarked
      hown) _ _ hkey ?_
    intro receipt hreceipt
    cases hreceipt
    exact hdrawn

theorem moves_status (locator : ContextLocator) :
    Moves options O o s
      (if looksAgain o (sweep options s (amb.clock 0)).2 locator then [amb.clock 0, amb.clock 1]
        else [amb.clock 0]) none
      (status options amb s o locator).2 := by
  have hsweep : Moves options O o s [amb.clock 0] none (sweep options s (amb.clock 0)).2 := .sweep .refl _
  have hagain : Moves options O o s [amb.clock 0, amb.clock 1] none
      (sweep options (sweep options s (amb.clock 0)).2 (amb.clock 1)).2 := .sweep hsweep _
  obtain ⟨contextId, idempotencyKey⟩ := locator
  cases contextId with
  | some c => cases idempotencyKey <;> exact hsweep
  | none =>
    cases idempotencyKey with
    | none => exact hsweep
    | some key =>
      simp only [status, looksAgain]
      rcases Option.eq_none_or_eq_some ((sweep options s (amb.clock 0)).2.idempotency.get
        (ownerKey o COMPLETE_ACTION key)) with hget | ⟨outcome, hget⟩
      · simp only [hget]
        exact hsweep
      · simp only [hget]
        obtain ⟨state, retainUntil, requestId, reservationId, errorCode, receipt, contextId, baseVersion⟩ :=
          outcome
        cases state with
        | busy | failed => exact hsweep
        | completed =>
          cases receipt with
          | none => exact hsweep
          | some receipt =>
            simp only [statusFromReceipt]
            split
            · exact hagain
            · exact hsweep

/-! ### The changes along a run -/

variable {es : List StoreEvent} {w : ContextWorld} {call : OwnerCall}

def originsOf (es : List StoreEvent) : Origins where
  contexts := DrawnBy es
  keys := RetainedBy es
  reservations := ReservedBy es

/-- The store and the reservations of the owners, in a run of the events `es`. -/
structure Sound (es : List StoreEvent) (w : ContextWorld) : Prop where
  traced : Traced (originsOf es) w.store
  handles : ∀ o r, r ∈ w.handles o → r.request.owner = o ∧ Genuine w.store r

theorem sound_empty : Sound es {} where
  traced := by constructor <;> (intros; contradiction)
  handles _ _ h := absurd h List.not_mem_nil

/-- No reservation has the identifier. -/
structure Unused (w : ContextWorld) (id : String) : Prop where
  store : w.store.reservations.get id = none
  handles : ∀ o r, r ∈ w.handles o → r.reservationId ≠ id

variable (options) in
/-- **What an operation changes.** -/
theorem moves_perform (h : Sound es w) (hids : Sole (DrawnBy es)) (he : .operation o amb call ∈ es)
    (hfresh : ∀ id, reservationUuid (.operation o amb call) = some id → Unused w id) :
    ∃ held, Moves options (originsOf es) o w.store (sweepTimes options w o amb call) held
        (perform options w o amb call).2.store ∧
      (perform options w o amb call).2.handles = Function.update w.handles o (w.handles o ++ held.toList) ∧
      ∀ r, held = some r → r.request.owner = o ∧ reservationUuid (.operation o amb call) = some r.reservationId := by
  have hsame : w.handles = Function.update w.handles o
      (w.handles o ++ (none : Option LlmContextMutationReservation).toList) := by simp
  have hnone : ∀ r, (none : Option LlmContextMutationReservation) = some r → r.request.owner = o ∧
      reservationUuid (.operation o amb call) = some r.reservationId := by
    intro r hr
    cases hr
  cases call with
  | reserve request =>
    have hkey : RetainedBy es o (ownerKey o COMPLETE_ACTION request.idempotencyKey) :=
      ⟨amb, _, he, rfl⟩
    have hmoves := @moves_reserve options (originsOf es) w.store amb { request with owner := o } h.traced hkey
      ⟨amb, _, he, rfl⟩ (hfresh _ rfl).store
    refine ⟨_, hmoves, rfl, fun r hr => ?_⟩
    rcases reserve_cases options amb w.store { request with owner := o } with
      ⟨e, heq⟩ | ⟨r', marked, s', heq, hrequest, -, hid, -⟩
    · rw [heq] at hr
      cases hr
    · rw [heq] at hr
      cases hr
      rw [hrequest, hid]
      exact ⟨rfl, rfl⟩
  | commit nth assistantResult =>
    refine ⟨none, ?_, ?_, hnone⟩
    · unfold perform sweepTimes
      dsimp only
      split
      · exact .refl
      · rename_i r hr
        obtain ⟨rfl, hgenuine⟩ := h.handles o r (List.mem_of_getElem? hr)
        exact moves_commit h.traced hids (fun n id hn => ⟨amb, nth, assistantResult, n, he, hn⟩) hgenuine _
    · unfold perform
      dsimp only
      split <;> exact hsame
  | abort nth errorCode =>
    refine ⟨none, ?_, ?_, hnone⟩
    · unfold perform sweepTimes
      dsimp only
      split
      · exact .refl
      · rename_i r hr
        obtain ⟨rfl, hgenuine⟩ := h.handles o r (List.mem_of_getElem? hr)
        exact moves_abort h.traced hids hgenuine _
    · unfold perform
      dsimp only
      split <;> exact hsame
  | release c baseVersion key =>
    exact ⟨none, moves_release h.traced c baseVersion key ⟨amb, _, he, rfl⟩, hsame, hnone⟩
  | status locator => exact ⟨none, moves_status locator, hsame, hnone⟩
  | snapshot c => exact ⟨none, .sweep .refl _, hsame, hnone⟩

theorem Sound.sweep (h : Sound es w) (now : ℚ) :
    Sound es { w with store := (NpsSdk.Nwp.sweep options w.store now).2 } where
  traced := h.traced.moves (o := ⟨"", ""⟩) (.sweep .refl now)
  handles := h.handles

variable (options) in
/-- An operation keeps the invariant, and uses no identifier but the one generated for it. -/
theorem Sound.step (h : Sound es w) (hids : Sole (DrawnBy es)) {e : StoreEvent} (he : e ∈ es)
    (hfresh : ∀ id, reservationUuid e = some id → Unused w id) :
    Sound es (worldStep options w e) ∧
      ∀ id, Unused w id → reservationUuid e ≠ some id → Unused (worldStep options w e) id := by
  cases e with
  | sweepExpired now =>
    exact ⟨h.sweep now, fun id hid _ => ⟨hid.store, hid.handles⟩⟩
  | operation o amb call =>
    obtain ⟨held, hmoves, hhandles, hheld⟩ := moves_perform options h hids he hfresh
    have hmem : ∀ o' r, r ∈ (worldStep options w (.operation o amb call)).handles o' →
        r ∈ w.handles o' ∨ o' = o ∧ held = some r := by
      intro o' r hr
      change r ∈ (perform options w o amb call).2.handles o' at hr
      rw [hhandles, Function.update_apply] at hr
      split at hr
      · rename_i ho
        rw [ho]
        rcases List.mem_append.1 hr with hold | hnew
        · exact .inl hold
        · exact .inr ⟨rfl, Option.mem_toList.1 hnew⟩
      · exact .inl hr
    refine ⟨⟨h.traced.moves hmoves, fun o' r hr => ?_⟩, fun id hid hne => ⟨?_, fun o' r hr => ?_⟩⟩
    · rcases hmem o' r hr with hold | ⟨rfl, hnew⟩
      · obtain ⟨howner, hgenuine⟩ := h.handles o' r hold
        refine ⟨howner, fun current hcurrent => ?_⟩
        rcases hmoves.reservation hcurrent with hbefore | ⟨hmade, hid⟩
        · exact hgenuine current hbefore
        · -- the new reservation would have the identifier of an old one
          have hunused := hfresh _ (hheld current hmade).2
          exact absurd hid.symm (hunused.handles o' r hold)
      · refine ⟨(hheld r hnew).1, fun current hcurrent => ?_⟩
        rcases hmoves.reservation hcurrent with hbefore | ⟨hmade, -⟩
        · rw [(hfresh _ (hheld r hnew).2).store] at hbefore
          cases hbefore
        · exact (Option.some.inj (hnew.symm.trans hmade)).symm
    · rw [Option.eq_none_iff_forall_ne_some]
      intro r hr
      rcases hmoves.reservation hr with hbefore | ⟨hmade, hrid⟩
      · rw [hid.store] at hbefore
        cases hbefore
      · exact hne (by rw [(hheld r hmade).2, hrid])
    · rcases hmem o' r hr with hold | ⟨-, hnew⟩
      · exact hid.handles o' r hold
      · rintro rfl
        exact hne (hheld r hnew).2

end NpsSdk.Nwp
