import Mathlib.Data.List.Pairwise
import NpsSdk.Nwp.ContextOwners
import NpsSdk.Nwp.ContextVersions

/-!
# Isolation of the owners of contexts

What an owner is answered, in any run, is what it would be answered if the operations of the others did
nothing to the store but sweep it: when a context expires, and how long it is kept after that, is told
by the first sweep that comes upon it, whoever makes it.

The keys of the retained outcomes join the texts of an owner, an action and a key; this holds for owners
whose keys do not come out the same.
-/

namespace NpsSdk.Nwp

open NpsSdk.Lib

/-! ### The part of an owner -/

/-- The store `s'` has what `s` has of the owner `a`, with the outcomes of the keys in `K`. -/
structure Part (a : LlmContextOwner) (K : String → Prop) (s s' : LlmContextStore) : Prop where
  contexts : ∀ c, s'.contexts.get c = (s.contexts.get c).filter fun entry => decide (entry.owner = a)
  outcomes : ∀ k, K k → s'.idempotency.get k = s.idempotency.get k
  reservations : ∀ id, (s'.reservations.get id).map LlmContextMutationReservation.unnumbered =
    ((s.reservations.get id).filter fun r => decide (r.request.owner = a)).map
      LlmContextMutationReservation.unnumbered

/-- Two operations answer the same, and leave the part of the owner the same. -/
structure SameAnswer (a : LlmContextOwner) (K : String → Prop) {α : Type} (x x' : α × LlmContextStore) : Prop where
  answer : x'.1 = x.1
  part : Part a K x.2 x'.2

/-- No other owner has a context with the identifier. -/
def Own (a : LlmContextOwner) (s : LlmContextStore) (c : String) : Prop :=
  ∀ entry, s.contexts.get c = some entry → entry.owner = a

variable {options : LlmContextStoreOptions} {amb : StoreAmbient} {a o : LlmContextOwner}
  {K : String → Prop} {s s' : LlmContextStore} {c : String} {entry : Entry}
  {r r' : LlmContextMutationReservation}

theorem Part.get (h : Part a K s s') (hc : Own a s c) : s'.contexts.get c = s.contexts.get c := by
  rw [h.contexts c]
  cases hget : s.contexts.get c with
  | none => rfl
  | some entry => simp [hc entry hget]

variable (options) in
theorem Part.swept (h : Part a K s s') (now : ℚ) : Part a K (sweep options s now).2 (sweep options s' now).2 := by
  refine ⟨fun c => ?_, fun k hk => ?_, h.reservations⟩
  · change (sweepContexts options now s'.contexts).get c = ((sweepContexts options now s.contexts).get c).filter _
    rw [sweepContexts, sweepContexts, JsMap.get_filter, JsMap.get_filter, JsMap.get_mapValues,
      JsMap.get_mapValues, h.contexts c]
    cases s.contexts.get c with
    | none => rfl
    | some entry =>
      by_cases howner : entry.owner = a
      · cases hforgotten : isForgotten now (expire options now entry) <;>
          simp [Option.filter, howner, owner_expire, hforgotten]
      · cases hforgotten : isForgotten now (expire options now entry) <;>
          simp [Option.filter, howner, owner_expire, hforgotten]
  · change (JsMap.filter _ _).get k = (JsMap.filter _ _).get k
    rw [JsMap.get_filter, JsMap.get_filter, h.outcomes k hk]

theorem Own.sweep (h : Own a s c) (now : ℚ) : Own a (sweep options s now).2 c := by
  intro entry hget
  obtain ⟨old, hold, rfl⟩ := get_sweepContexts hget
  rw [owner_expire]
  exact h old hold

/-! ### Changes to the part -/

theorem Part.context (h : Part a K s s') (c : String) (howner : entry.owner = a) :
    Part a K { s with contexts := s.contexts.set c entry }
      { s' with contexts := s'.contexts.set c entry } := by
  refine ⟨fun c' => ?_, h.outcomes, h.reservations⟩
  rw [JsMap.get_set, JsMap.get_set]
  by_cases hc : c' = c
  · simp [hc, howner, Option.filter]
  · rw [if_neg hc, if_neg hc]
    exact h.contexts c'

theorem Part.outcome (h : Part a K s s') (k : String) (v : IdempotencyEntry) :
    Part a K { s with idempotency := s.idempotency.set k v }
      { s' with idempotency := s'.idempotency.set k v } := by
  refine ⟨h.contexts, fun k' hk => ?_, h.reservations⟩
  rw [JsMap.get_set, JsMap.get_set, h.outcomes k' hk]

theorem Part.hold (h : Part a K s s') (howner : r.request.owner = a) (hr : r'.unnumbered = r.unnumbered)
    (n n' : ℕ) :
    Part a K { s with reservations := s.reservations.set r.reservationId r, objects := n }
      { s' with reservations := s'.reservations.set r'.reservationId r', objects := n' } := by
  have hid : r'.reservationId = r.reservationId :=
    congrArg (fun r => r.reservationId) hr
  refine ⟨h.contexts, h.outcomes, fun id => ?_⟩
  rw [JsMap.get_set, JsMap.get_set, hid]
  by_cases hid : id = r.reservationId
  · simp [hid, howner, hr, Option.filter]
  · rw [if_neg hid, if_neg hid]
    exact h.reservations id

theorem Part.drop (h : Part a K s s') (id : String) :
    Part a K { s with reservations := s.reservations.delete id }
      { s' with reservations := s'.reservations.delete id } := by
  refine ⟨h.contexts, h.outcomes, fun id' => ?_⟩
  rw [JsMap.get_delete, JsMap.get_delete]
  by_cases hid : id' = id
  · simp [hid]
  · rw [if_neg hid, if_neg hid]
    exact h.reservations id'

def sweeps (options : LlmContextStoreOptions) (s : LlmContextStore) (ts : List ℚ) : LlmContextStore :=
  run (fun s now => (sweep options s now).2) s ts

theorem sweeps_snoc (ts : List ℚ) (now : ℚ) :
    sweeps options s (ts ++ [now]) = (sweep options (sweeps options s ts) now).2 := run_snoc

/-- **The changes of another owner do nothing to the part but sweep it.** -/
theorem Part.moves {O : Origins} {ts : List ℚ}
    {held : Option LlmContextMutationReservation} {s₁ : LlmContextStore} (h : Part a K s s')
    (hm : Moves options O o s ts held s₁) (ho : o ≠ a) (hK : ∀ k, O.keys o k → ¬ K k) :
    Part a K s₁ (sweeps options s' ts) := by
  induction hm with
  | refl => exact h
  | sweep hm now ih =>
    rw [sweeps_snoc]
    exact ih.swept options now
  | context hm entry howner hdrawn hmarked hown ih =>
    refine ⟨fun c => ?_, ih.outcomes, ih.reservations⟩
    rw [ih.contexts c, JsMap.get_set]
    split
    · rename_i hc
      rw [hc]
      cases hold : JsMap.get _ entry.contextId with
      | none => simp [Option.filter, howner, ho]
      | some old => simp [Option.filter, howner, hown old hold, ho]
    · rfl
  | outcome hm k v hwritten hdrawn ih =>
    refine ⟨ih.contexts, fun k' hk' => ?_, ih.reservations⟩
    rw [ih.outcomes k' hk', JsMap.get_set, if_neg]
    rintro rfl
    exact hK _ hwritten hk'
  | hold hm r howner hplaced hfresh ih =>
    refine ⟨ih.contexts, ih.outcomes, fun id => ?_⟩
    rw [ih.reservations id, JsMap.get_set]
    split
    · rename_i hid
      rw [hid, hfresh]
      simp [Option.filter, howner, ho]
    · rfl
  | drop hm id hown ih =>
    refine ⟨ih.contexts, ih.outcomes, fun id' => ?_⟩
    rw [ih.reservations id', JsMap.get_delete]
    split
    · rename_i hid
      rw [hid]
      cases hold : JsMap.get _ id with
      | none => rfl
      | some r => simp [Option.filter, hown r hold, ho]
    · rfl

/-! ### The operations of the owner -/

section

variable {request : LlmContextMutationRequest} {key : String}

theorem Part.allocated_eq (h : Part a K s s') : allocated s' a = allocated s a := by
  have hcontexts :
      (s'.contexts.values.filter fun entry => sameOwner entry.owner a && entry.state == .active).length =
      (s.contexts.values.filter fun entry => sameOwner entry.owner a && entry.state == .active).length := by
    apply JsMap.length_filter_values_congr
    intro c
    rw [h.contexts c]
    cases s.contexts.get c with
    | none => rfl
    | some entry =>
      by_cases howner : entry.owner = a
      · simp [Option.filter, howner]
      · have hother : sameOwner entry.owner a = false := Bool.eq_false_iff.2 (mt sameOwner_iff.1 howner)
        simp [Option.filter, howner, hother]
  have hreservations : (s'.reservations.values.filter fun item => sameOwner item.request.owner a &&
        (item.request.operation == .create || item.request.operation == .fork)).length =
      (s.reservations.values.filter fun item => sameOwner item.request.owner a &&
        (item.request.operation == .create || item.request.operation == .fork)).length := by
    apply JsMap.length_filter_values_congr
    intro id
    have hid := congrArg (fun found => found.any fun item => sameOwner item.request.owner a &&
      (item.request.operation == .create || item.request.operation == .fork)) (h.reservations id)
    simp only [Option.any_map] at hid
    refine hid.trans ?_
    cases s.reservations.get id with
    | none => rfl
    | some r =>
      by_cases howner : r.request.owner = a
      · simp [Option.filter, howner, LlmContextMutationReservation.unnumbered]
      · have hother : sameOwner r.request.owner a = false := Bool.eq_false_iff.2 (mt sameOwner_iff.1 howner)
        simp [Option.filter, howner, hother]
  rw [allocated, allocated, hcontexts, hreservations]

theorem Part.requireMutable_eq (h : Part a K s s') (hc : Own a s c) :
    requireMutable s' a c = requireMutable s a c := by
  rw [requireMutable, requireMutable, requireEntry, requireEntry, h.get hc]

theorem Part.has (h : Part a K s s') {k : String} (hk : K k) : s'.idempotency.has k = s.idempotency.has k := by
  rw [JsMap.has, JsMap.has, h.outcomes k hk]

def Grant.unnumbered (g : Grant) : Grant := { g with reservation := g.reservation.unnumbered }

variable (options amb) in
theorem Part.grant_eq (h : Part a K s s') (howner : request.owner = a)
    (hkey : K (ownerKey request.owner COMPLETE_ACTION request.idempotencyKey))
    (hown : ∀ c, request.contextId = some c → Own a s c) :
    (grant options amb s' request).map Grant.unnumbered = (grant options amb s request).map Grant.unnumbered := by
  have hlimit : ensureAllocationAvailable options s' request.owner =
      ensureAllocationAvailable options s request.owner := by
    rw [ensureAllocationAvailable, ensureAllocationAvailable, howner, h.allocated_eq]
  unfold grant
  rw [h.has hkey]
  refine map_bind_congr fun _ => map_bind_congr fun _ => ?_
  split
  · rfl
  · split
    · rw [hlimit]
      exact map_bind_congr fun _ => rfl
    · rw [hlimit]
      exact map_bind_congr fun _ => rfl
    · rename_i c hc hop
      unfold grantMutation
      rw [hlimit, howner, h.requireMutable_eq (hown c hc)]
      refine map_bind_congr fun entry => map_bind_congr fun _ => map_bind_congr fun _ => ?_
      split
      · exact map_bind_congr fun _ => rfl
      · rfl

theorem grant_entry_owner {g : Grant} (h : grant options amb s request = .ok g)
    (hentry : g.entry = some entry) : entry.owner = request.owner := by
  obtain ⟨-, -, -, hcase⟩ := grant_cases h
  rw [hentry] at hcase
  cases hcase with
  | mutation hop hon =>
    obtain ⟨found, hfound, howner⟩ := grant_owns h hon.located
    have heq := hon.stored.symm.trans hfound
    rw [← howner, ← Option.some.inj heq]

theorem eq_of_unnumbered (h : r'.unnumbered = r.unnumbered) : ∃ n, r' = { r with object := n } := by
  cases r
  cases r'
  simp only [LlmContextMutationReservation.unnumbered, LlmContextMutationReservation.mk.injEq] at h
  obtain ⟨-, rfl, rfl, rfl, rfl, rfl, rfl, rfl⟩ := h
  exact ⟨_, rfl⟩

variable (options amb) in
theorem Part.reserve_same (h : Part a K s s') (howner : request.owner = a)
    (hkey : K (ownerKey request.owner COMPLETE_ACTION request.idempotencyKey))
    (hown : ∀ c, request.contextId = some c → Own a s c) :
    (reserve options amb s' request).1.map LlmContextMutationReservation.unnumbered =
        (reserve options amb s request).1.map LlmContextMutationReservation.unnumbered ∧
      Part a K (reserve options amb s request).2 (reserve options amb s' request).2 := by
  have hswept := h.swept options (amb.clock 0)
  have hgrant := hswept.grant_eq options amb howner hkey fun c hc =>
    (hown c hc).sweep (amb.clock 0)
  unfold reserve
  dsimp only
  cases hs : grant options amb (sweep options s (amb.clock 0)).2 request with
  | error e =>
    cases hs' : grant options amb (sweep options s' (amb.clock 0)).2 request with
    | error e' =>
      rw [hs, hs'] at hgrant
      cases hgrant
      exact ⟨rfl, hswept⟩
    | ok g' =>
      rw [hs, hs'] at hgrant
      cases hgrant
  | ok g =>
    cases hs' : grant options amb (sweep options s' (amb.clock 0)).2 request with
    | error e' =>
      rw [hs, hs'] at hgrant
      cases hgrant
    | ok g' =>
      rw [hs, hs'] at hgrant
      obtain ⟨r, marked⟩ := g
      obtain ⟨r', marked'⟩ := g'
      simp only [Except.map, Grant.unnumbered, Except.ok.injEq, Grant.mk.injEq] at hgrant
      obtain ⟨hr, rfl⟩ := hgrant
      have hrowner : r.request.owner = a := by
        rw [(grant_cases hs).1, howner]
      obtain ⟨n, rfl⟩ := eq_of_unnumbered hr
      refine ⟨rfl, ?_⟩
      dsimp only
      cases marked' with
      | none => exact (hswept.outcome _ _).hold hrowner hr _ _
      | some entry =>
        have hentry : entry.owner = a := (grant_entry_owner hs rfl).trans howner
        exact ((hswept.context entry.contextId hentry).outcome _ _).hold hrowner hr _ _

theorem Part.requireReservation_cases (h : Part a K s s') (howner : r.request.owner = a)
    (heq : r'.unnumbered = r.unnumbered) (hr : Genuine s r) (hr' : Genuine s' r') :
    (∃ e, requireReservation s r = .error e ∧ requireReservation s' r' = .error e) ∨
      requireReservation s r = .ok r ∧ requireReservation s' r' = .ok r' := by
  have hpart := h.reservations r.reservationId
  have hid : r'.reservationId = r.reservationId := congrArg (fun r => r.reservationId) heq
  unfold requireReservation
  unfold Genuine at hr'
  rw [hid] at hr' ⊢
  cases hs : s.reservations.get r.reservationId with
  | none =>
    rw [hs] at hpart
    have hnone : s'.reservations.get r.reservationId = none := Option.map_eq_none_iff.1 hpart
    rw [hnone]
    exact .inl ⟨_, rfl, rfl⟩
  | some current =>
    obtain rfl := hr current hs
    have hmine : (some current).filter (fun r => decide (r.request.owner = a)) = some current := by
      simp [Option.filter, howner]
    rw [hs, hmine] at hpart
    obtain ⟨current', hs', -⟩ := Option.map_eq_some_iff.1 hpart
    obtain rfl := hr' current' hs'
    rw [hs']
    exact .inr ⟨if_pos rfl, if_pos rfl⟩

theorem nextContextId_congr {ids : ℕ → Option String} (h : ∀ n id, ids n = some id →
    s'.contexts.has id = s.contexts.has id) (n : ℕ) : nextContextId s' ids n = nextContextId s ids n := by
  induction n generalizing ids with
  | zero => rfl
  | succ n ih =>
    unfold nextContextId
    cases hid : ids 0 with
    | none => rfl
    | some id =>
      dsimp only
      rw [h 0 id hid, ih fun m id' hm => h (m + 1) id' hm]

variable {O : Origins}

theorem Traced.own (h : Traced O s) (hsole : Sole O.contexts) (hc : O.contexts a c) : Own a s c :=
  fun _ hget => h.owner_eq hsole hget hc

variable (options amb) in
theorem Part.settle_same (h : Part a K s s') (n : ℕ) (c : String) (version : ℕ) (expiry : Option ℚ) :
    SameAnswer a K (settle options amb s r c version expiry)
      (settle options amb s' { r with object := n } c version expiry) := by
  unfold settle
  rcases hexpiry : expiry.map isoDate with - | - | text
  · exact ⟨rfl, (h.outcome _ _).drop _⟩
  · exact ⟨rfl, h⟩
  · exact ⟨rfl, (h.outcome _ _).drop _⟩

variable (options amb) in
theorem Part.commit_same (h : Part a K s s') (howner : r.request.owner = a)
    (heq : r'.unnumbered = r.unnumbered) (hr : Genuine s r) (hr' : Genuine s' r') (htraced : Traced O s)
    (hsole : Sole O.contexts) (hids : ∀ n id, amb.contextIds n = some id → O.contexts a id)
    (assistantResult : LlmMessageDto) :
    SameAnswer a K (commit options amb s r assistantResult) (commit options amb s' r' assistantResult) := by
  obtain ⟨n, rfl⟩ := eq_of_unnumbered heq
  unfold commit
  rcases h.requireReservation_cases howner heq hr hr' with ⟨e, hs, hs'⟩ | ⟨hs, hs'⟩
  · rw [hs, hs']
    exact ⟨rfl, h⟩
  · rw [hs, hs']
    have hplaced : Placed O r := (htraced.reservations _ _ (requireReservation_ok hs).1).2
    dsimp only
    split
    · have hnext : nextContextId s' amb.contextIds 8 = nextContextId s amb.contextIds 8 := by
        apply nextContextId_congr
        intro n id hn
        rw [JsMap.has, JsMap.has, h.get (htraced.own hsole (hids n id hn))]
      rw [hnext]
      split
      · exact ⟨rfl, h⟩
      · exact (h.context _ howner).settle_same options amb n _ 1 _
    · rename_i hop
      obtain ⟨c, hc⟩ := hplaced.located hop
      have hown : Own a s c := htraced.own hsole (howner ▸ hplaced.drawn c hc)
      rw [hc, Option.getD_some, requireEntry, requireEntry, h.get hown]
      cases hget : s.contexts.get c with
      | none => exact ⟨rfl, h⟩
      | some entry =>
        have hnext : (nextEntry r entry (expiryOf amb r) assistantResult).owner = a :=
          (nextEntry_owner _ _ _).trans (hown entry hget)
        exact (h.context entry.contextId hnext).settle_same options amb n _ _ _

theorem Part.clear (h : Part a K s s') (hown : ∀ c, r.request.contextId = some c → Own a s c) (n : ℕ) :
    Part a K { s with contexts := clearReservation s r }
      { s' with contexts := clearReservation s' { r with object := n } } := by
  unfold clearReservation
  dsimp only
  cases hc : r.request.contextId with
  | none => exact h
  | some c =>
    dsimp only
    rw [h.get (hown c hc)]
    cases hget : s.contexts.get c with
    | none => exact h
    | some entry =>
      dsimp only
      split
      · exact h.context c (hown c hc entry hget)
      · exact h

variable (options amb) in
theorem Part.abort_same (h : Part a K s s') (howner : r.request.owner = a)
    (heq : r'.unnumbered = r.unnumbered) (hr : Genuine s r) (hr' : Genuine s' r') (htraced : Traced O s)
    (hsole : Sole O.contexts) (errorCode : Option String) :
    SameAnswer a K (abort options amb s r errorCode) (abort options amb s' r' errorCode) := by
  obtain ⟨n, rfl⟩ := eq_of_unnumbered heq
  unfold abort
  rcases h.requireReservation_cases howner heq hr hr' with ⟨e, hs, hs'⟩ | ⟨hs, hs'⟩
  · rw [hs, hs']
    exact ⟨rfl, h⟩
  · rw [hs, hs']
    have hplaced : Placed O r := (htraced.reservations _ _ (requireReservation_ok hs).1).2
    have hown : ∀ c, r.request.contextId = some c → Own a s c := fun c hc =>
      htraced.own hsole (howner ▸ hplaced.drawn c hc)
    exact ⟨rfl, (((h.clear hown n).drop r.reservationId).outcome _ _).swept options _⟩

variable (options amb) in
theorem Part.release_same (h : Part a K s s') (hkey : K (ownerKey a RELEASE_ACTION key)) (hown : Own a s c)
    (baseVersion : ℤ) :
    SameAnswer a K (release options amb s a c baseVersion key) (release options amb s' a c baseVersion key) := by
  have hswept := h.swept options (amb.clock 0)
  have hreleasable : releasable options (sweep options s' (amb.clock 0)).2 a c baseVersion key =
      releasable options (sweep options s (amb.clock 0)).2 a c baseVersion key := by
    rw [releasable, releasable, hswept.outcomes _ hkey, hswept.requireMutable_eq (hown.sweep _)]
  unfold release
  dsimp only
  rw [hreleasable]
  split
  · exact ⟨rfl, hswept⟩
  · exact ⟨rfl, hswept⟩
  · rename_i entry hentry
    have hreleased : ({ entry with
        version := entry.version + 1, state := .released, expiresAt := none
        tombstoneUntil := some (amb.clock 1 + options.tombstoneSeconds * 1000) } : Entry).owner = a :=
      (releasable_owner hentry).2
    exact ⟨rfl, (hswept.context entry.contextId hreleased).outcome _ _⟩

variable (options amb) in
theorem Part.snapshot_same (h : Part a K s s') (hown : Own a s c) :
    SameAnswer a K (snapshot options amb s a c) (snapshot options amb s' a c) := by
  have hswept := h.swept options (amb.clock 0)
  refine ⟨?_, hswept⟩
  rw [snapshot, snapshot, hswept.requireMutable_eq (hown.sweep _)]

theorem Part.statusOfContext_eq (h : Part a K s s') (htraced : Traced O s)
    (hsole : Sole O.reservations) (hown : Own a s c) : statusOfContext s' a c = statusOfContext s a c := by
  have hrequest : ∀ entry, s.contexts.get c = some entry →
      (entry.reservationId.bind s'.reservations.get).map (fun active => active.request.requestId) =
        (entry.reservationId.bind s.reservations.get).map fun active => active.request.requestId := by
    intro entry hget
    cases hmark : entry.reservationId with
    | none => rfl
    | some id =>
      have hid := congrArg (Option.map fun active => active.request.requestId) (h.reservations id)
      rw [Option.map_map, Option.map_map] at hid
      refine hid.trans ?_
      rw [Option.bind_some]
      cases hr : s.reservations.get id with
      | none => rfl
      | some r =>
        obtain ⟨rfl, hplaced⟩ := htraced.reservations id r hr
        have hmine : O.reservations a r.reservationId := by
          rw [← hown entry hget]
          exact htraced.marks c entry _ hget hmark
        have howner : r.request.owner = a := hsole _ _ _ hplaced.named hmine
        simp [Option.filter, howner, LlmContextMutationReservation.unnumbered]
  unfold statusOfContext requireEntry
  rw [h.get hown]
  cases hget : s.contexts.get c with
  | none => rfl
  | some entry =>
    have hread := hrequest entry hget
    simp only [bind, Except.bind, hread]

variable (options amb) in
theorem Part.statusFromReceipt_same (h : Part a K s s') (htraced : Traced O s)
    (hsole : Sole O.reservations) {receipt : LlmContextReceiptDto} (hown : Own a s receipt.contextId) :
    SameAnswer a K (statusFromReceipt options amb s a receipt) (statusFromReceipt options amb s' a receipt) := by
  have hswept := h.swept options (amb.clock 1)
  have hswept' : Traced O (sweep options s (amb.clock 1)).2 :=
    htraced.moves (o := a) (.sweep .refl (amb.clock 1))
  unfold statusFromReceipt
  rw [JsMap.has, JsMap.has, h.get hown]
  split
  · exact ⟨hswept.statusOfContext_eq hswept' hsole (hown.sweep _), hswept⟩
  · exact ⟨rfl, h⟩

variable (options amb) in
theorem Part.status_same (h : Part a K s s') (htraced : Traced O s) (hcontexts : Sole O.contexts)
    (hreservations : Sole O.reservations) (hkeys : ∀ o k, O.keys o k → K k → o = a) (locator : ContextLocator)
    (hown : ∀ c, locator.contextId = some c → Own a s c)
    (hkey : ∀ key, locator.idempotencyKey = some key → K (ownerKey a COMPLETE_ACTION key)) :
    SameAnswer a K (status options amb s a locator) (status options amb s' a locator) := by
  have hswept := h.swept options (amb.clock 0)
  have htraced₀ : Traced O (sweep options s (amb.clock 0)).2 :=
    htraced.moves (o := a) (.sweep .refl (amb.clock 0))
  obtain ⟨contextId, idempotencyKey⟩ := locator
  cases contextId with
  | some c =>
    cases idempotencyKey with
    | some key => exact ⟨rfl, hswept⟩
    | none =>
      refine ⟨?_, hswept⟩
      exact hswept.statusOfContext_eq htraced₀ hreservations ((hown c rfl).sweep _)
  | none =>
    cases idempotencyKey with
    | none => exact ⟨rfl, hswept⟩
    | some key =>
      unfold status
      dsimp only
      rw [hswept.outcomes _ (hkey key rfl)]
      rcases Option.eq_none_or_eq_some ((sweep options s (amb.clock 0)).2.idempotency.get
        (ownerKey a COMPLETE_ACTION key)) with hget | ⟨outcome, hget⟩
      · simp only [hget]
        exact ⟨rfl, hswept⟩
      · simp only [hget]
        have hreceipts := htraced₀.receipts (ownerKey a COMPLETE_ACTION key) outcome
        obtain ⟨state, retainUntil, requestId, reservationId, errorCode, receipt, contextId, baseVersion⟩ :=
          outcome
        cases state with
        | busy | failed => exact ⟨rfl, hswept⟩
        | completed =>
          cases receipt with
          | none => exact ⟨rfl, hswept⟩
          | some receipt =>
            -- the receipt under a key of the owner is for a context of the owner
            obtain ⟨o, ho, hdrawn⟩ := hreceipts receipt hget rfl
            obtain rfl := hkeys o _ ho (hkey key rfl)
            exact hswept.statusFromReceipt_same options amb htraced₀ hreservations (htraced₀.own hcontexts hdrawn)

end

/-! ### Runs -/

/-- The context that an operation names. -/
def presentedId : OwnerCall → Option String
  | .reserve request => request.contextId
  | .release contextId _ _ => some contextId
  | .status locator => locator.contextId
  | .snapshot contextId => some contextId
  | .commit _ _ | .abort _ _ => none

/-- An operation of the owner `a` names no context of another. -/
def presentsOwn (a : LlmContextOwner) (w : ContextWorld) : StoreEvent → Bool
  | .operation owner _ call =>
    decide (owner ≠ a) || (presentedId call).all fun c =>
      (w.store.contexts.get c).all fun entry => decide (entry.owner = a)
  | .sweepExpired _ => true

def isOperationOf (a : LlmContextOwner) : StoreEvent → Bool
  | .operation owner _ _ => decide (owner = a)
  | .sweepExpired _ => false

/-- What is left of an operation: the sweeps it makes. -/
def sweepsOf (options : LlmContextStoreOptions) (w : ContextWorld) : StoreEvent → List StoreEvent
  | .operation owner amb call => (sweepTimes options w owner amb call).map .sweepExpired
  | .sweepExpired now => [.sweepExpired now]

/-- No other owner retains an outcome under a key that the owner `a` asks for. -/
def KeysApart (a : LlmContextOwner) (es : List StoreEvent) : Prop :=
  ∀ o k, RetainedBy es o k → LookedUpBy es a k → o = a

/-- What the owner `a` is answered along a run. -/
def answersTo (options : LlmContextStoreOptions) (a : LlmContextOwner) (es : List StoreEvent) :
    List OwnerAnswer :=
  observed (worldStep options) (worldAnswer options) (isOperationOf a) {} es

/-- The run in which the others do nothing but sweep the store, when they do. -/
def alone (options : LlmContextStoreOptions) (a : LlmContextOwner) (es : List StoreEvent) : List StoreEvent :=
  purged (worldStep options) (isOperationOf a) (sweepsOf options) {} es

section

variable {es rest : List StoreEvent} {w w' : ContextWorld} {call : OwnerCall} {e : StoreEvent}

/-- The world `w'` has what `w` has of the owner `a`, and nothing of the others. -/
structure SamePart (a : LlmContextOwner) (es : List StoreEvent) (w w' : ContextWorld) : Prop where
  part : Part a (LookedUpBy es a) w.store w'.store
  handles : (w'.handles a).map LlmContextMutationReservation.unnumbered =
    (w.handles a).map LlmContextMutationReservation.unnumbered
  others : ∀ o, o ≠ a → w'.handles o = []
  sound : Sound es w'

theorem toList_of_map_eq {ε α β : Type} {x y : Except ε α} {f : α → β} (h : x.map f = y.map f) :
    x.toOption.toList.map f = y.toOption.toList.map f := by
  cases x with
  | error e =>
    cases y with
    | error e' => rfl
    | ok b => cases h
  | ok a =>
    cases y with
    | error e' => cases h
    | ok b =>
      have hab : f a = f b := Except.ok.inj h
      change [f a] = [f b]
      rw [hab]

theorem SamePart.handle (h : SamePart a es w w') (nth : ℕ) :
    (w.handles a)[nth]? = none ∧ (w'.handles a)[nth]? = none ∨
      ∃ r r', (w.handles a)[nth]? = some r ∧ (w'.handles a)[nth]? = some r' ∧ r'.unnumbered = r.unnumbered := by
  have hnth := congrArg (fun rs => rs[nth]?) h.handles
  simp only [List.getElem?_map] at hnth
  cases hr : (w.handles a)[nth]? with
  | none =>
    rw [hr] at hnth
    exact .inl ⟨rfl, Option.map_eq_none_iff.1 hnth⟩
  | some r =>
    rw [hr, Option.map_some] at hnth
    obtain ⟨r', hr', heq⟩ := Option.map_eq_some_iff.1 hnth
    exact .inr ⟨r, r', rfl, hr', heq⟩

theorem SamePart.unused (h : SamePart a es w w') {id : String} (hid : Unused w id) : Unused w' id where
  store := by
    have hpart := h.part.reservations id
    rw [hid.store] at hpart
    exact Option.map_eq_none_iff.1 hpart
  handles o r hr := by
    by_cases ho : o = a
    · subst ho
      obtain ⟨n, hn⟩ := List.mem_iff_getElem?.1 hr
      rcases h.handle n with ⟨-, hnone⟩ | ⟨r₀, r', hr₀, hr', heq⟩
      · rw [hnone] at hn
        cases hn
      · rw [hr', Option.some.injEq] at hn
        subst hn
        have hname : r'.reservationId = r₀.reservationId := congrArg (fun r => r.reservationId) heq
        rw [hname]
        exact hid.handles o r₀ (List.mem_of_getElem? hr₀)
    · rw [h.others o ho] at hr
      exact absurd hr List.not_mem_nil

theorem own_of_presentsOwn (h : presentsOwn a w (.operation a amb call) = true) (hc : presentedId call = some c) :
    Own a w.store c := by
  simp only [presentsOwn, hc, ne_eq, not_true_eq_false, decide_false, Bool.false_or, Option.all_some] at h
  intro entry hget
  rw [hget] at h
  exact of_decide_eq_true h

variable (options) in
/-- The owner is answered the same, and its part remains the same. -/
theorem SamePart.perform_same (h : SamePart a es w w') (hsound : Sound es w) (he : .operation a amb call ∈ es)
    (hids : Sole (DrawnBy es)) (huuids : Sole (ReservedBy es)) (hkeys : KeysApart a es)
    (hown : presentsOwn a w (.operation a amb call) = true) :
    (perform options w' a amb call).1 = (perform options w a amb call).1 ∧
      Part a (LookedUpBy es a) (perform options w a amb call).2.store (perform options w' a amb call).2.store ∧
      ((perform options w' a amb call).2.handles a).map LlmContextMutationReservation.unnumbered =
        ((perform options w a amb call).2.handles a).map
          LlmContextMutationReservation.unnumbered := by
  have hpresented : ∀ c, presentedId call = some c → Own a w.store c := fun c => own_of_presentsOwn hown
  have hlooked : ∀ k, lookedUpKey a call = some k → LookedUpBy es a k := fun k hk => ⟨amb, call, he, hk⟩
  cases call with
  | reserve request =>
    obtain ⟨hanswer, hpart⟩ := @Part.reserve_same options amb a _ _ _ { request with owner := a } h.part rfl
      (hlooked _ rfl) hpresented
    refine ⟨congrArg OwnerAnswer.reservation hanswer, hpart, ?_⟩
    have hnew := toList_of_map_eq hanswer
    change (Function.update w'.handles a _ a).map _ = (Function.update w.handles a _ a).map _
    rw [Function.update_self, Function.update_self, List.map_append, List.map_append, h.handles, hnew]
  | commit nth assistantResult =>
    unfold perform
    dsimp only
    rcases h.handle nth with ⟨hr, hr'⟩ | ⟨r, r', hr, hr', heq⟩
    · rw [hr, hr']
      exact ⟨rfl, h.part, h.handles⟩
    · rw [hr, hr']
      obtain ⟨howner, hgenuine⟩ := hsound.handles a r (List.mem_of_getElem? hr)
      have hgenuine' := (h.sound.handles a r' (List.mem_of_getElem? hr')).2
      obtain ⟨hanswer, hpart⟩ := h.part.commit_same options amb howner heq hgenuine hgenuine'
        hsound.traced hids (fun n id hn => ⟨amb, nth, assistantResult, n, he, hn⟩) assistantResult
      exact ⟨congrArg OwnerAnswer.receipt hanswer, hpart, h.handles⟩
  | abort nth errorCode =>
    unfold perform
    dsimp only
    rcases h.handle nth with ⟨hr, hr'⟩ | ⟨r, r', hr, hr', heq⟩
    · rw [hr, hr']
      exact ⟨rfl, h.part, h.handles⟩
    · rw [hr, hr']
      obtain ⟨howner, hgenuine⟩ := hsound.handles a r (List.mem_of_getElem? hr)
      have hgenuine' := (h.sound.handles a r' (List.mem_of_getElem? hr')).2
      obtain ⟨hanswer, hpart⟩ := h.part.abort_same options amb howner heq hgenuine hgenuine'
        hsound.traced hids errorCode
      exact ⟨congrArg OwnerAnswer.aborted hanswer, hpart, h.handles⟩
  | release c baseVersion key =>
    obtain ⟨hanswer, hpart⟩ := h.part.release_same options amb (hlooked _ rfl)
      (hpresented c rfl) baseVersion
    exact ⟨congrArg OwnerAnswer.receipt hanswer, hpart, h.handles⟩
  | status locator =>
    have hkey : ∀ key, locator.idempotencyKey = some key → LookedUpBy es a (ownerKey a COMPLETE_ACTION key) := by
      intro key hkey
      apply hlooked
      obtain ⟨contextId, idempotencyKey⟩ := locator
      subst hkey
      rfl
    obtain ⟨hanswer, hpart⟩ := h.part.status_same options amb hsound.traced hids huuids hkeys
      locator hpresented hkey
    exact ⟨congrArg OwnerAnswer.status hanswer, hpart, h.handles⟩
  | snapshot c =>
    obtain ⟨hanswer, hpart⟩ := h.part.snapshot_same options amb (hpresented c rfl)
    exact ⟨congrArg OwnerAnswer.snapshot hanswer, hpart, h.handles⟩

/-- The world of a run, and the events to come. -/
structure Running (options : LlmContextStoreOptions) (a : LlmContextOwner) (es : List StoreEvent)
    (w : ContextWorld) (rest : List StoreEvent) : Prop where
  sound : Sound es w
  mem : ∀ e ∈ rest, e ∈ es
  nodup : (rest.filterMap reservationUuid).Nodup
  unused : ∀ id ∈ rest.filterMap reservationUuid, Unused w id
  own : Along (worldStep options) (fun w e => presentsOwn a w e = true) w rest

theorem Running.fresh (h : Running options a es w (e :: rest)) (id : String)
    (hid : reservationUuid e = some id) : Unused w id :=
  h.unused id (List.mem_filterMap.2 ⟨e, List.mem_cons_self, hid⟩)

theorem Running.step (h : Running options a es w (e :: rest)) (hids : Sole (DrawnBy es)) :
    Running options a es (worldStep options w e) rest := by
  obtain ⟨hsound, hunused⟩ := h.sound.step options hids (h.mem e List.mem_cons_self) h.fresh
  have hrest : (rest.filterMap reservationUuid).Nodup :=
    h.nodup.sublist ((List.sublist_cons_self e rest).filterMap _)
  refine ⟨hsound, fun e' he' => h.mem e' (List.mem_cons_of_mem e he'), hrest, fun id hid => ?_,
    (along_cons.1 h.own).2⟩
  obtain ⟨e', he', heq⟩ := List.mem_filterMap.1 hid
  apply hunused id (h.unused id (List.mem_filterMap.2 ⟨e', List.mem_cons_of_mem e he', heq⟩))
  intro hsame
  have hnodup := h.nodup
  rw [List.filterMap_cons_some hsame, List.nodup_cons] at hnodup
  exact hnodup.1 hid

theorem SamePart.after_sweeps (h : SamePart a es w w') {s : LlmContextStore} {handles}
    (ts : List ℚ) (hpart : Part a (LookedUpBy es a) s (sweeps options w'.store ts))
    (hhandles : handles a = w.handles a) :
    SamePart a es { store := s, handles } (run (worldStep options) w' (ts.map .sweepExpired)) := by
  have hrun : run (worldStep options) w' (ts.map .sweepExpired) =
      { w' with store := sweeps options w'.store ts } ∧
      Sound es { w' with store := sweeps options w'.store ts } := by
    clear hpart
    induction ts using List.reverseRecOn with
    | nil => exact ⟨rfl, h.sound⟩
    | append_singleton ts now ih =>
      obtain ⟨ih, hsound⟩ := ih
      rw [List.map_append, List.map_singleton, run_snoc, ih, sweeps_snoc]
      exact ⟨rfl, hsound.sweep now⟩
  rw [hrun.1]
  refine ⟨hpart, ?_, h.others, hrun.2⟩
  dsimp only
  rw [hhandles]
  exact h.handles

theorem unwinding (hids : Sole (DrawnBy es)) (huuids : Sole (ReservedBy es)) (hkeys : KeysApart a es) :
    Unwinding (worldStep options) (worldAnswer options) (isOperationOf a) (sweepsOf options)
      (Running options a es) (SamePart a es) where
  invariant h := h.step hids
  answer {w w' e rest} h hpart hmine := by
    cases e with
    | sweepExpired now => cases hmine
    | operation o amb call =>
      obtain rfl : o = a := of_decide_eq_true hmine
      exact (hpart.perform_same options h.sound (h.mem _ List.mem_cons_self) hids huuids hkeys
        (along_cons.1 h.own).1).1.symm
  own {w w' e rest} h hpart hmine := by
    cases e with
    | sweepExpired now => cases hmine
    | operation o amb call =>
      obtain rfl : o = a := of_decide_eq_true hmine
      have he := h.mem _ List.mem_cons_self
      obtain ⟨-, hstore, hhandles⟩ := hpart.perform_same options h.sound he hids huuids hkeys
        (along_cons.1 h.own).1
      have hfresh : ∀ id, reservationUuid (.operation o amb call) = some id → Unused w' id :=
        fun id hid => hpart.unused (h.fresh id hid)
      obtain ⟨held, -, hupdate, -⟩ := moves_perform options hpart.sound hids he hfresh
      refine ⟨hstore, hhandles, fun o' ho' => ?_, (hpart.sound.step options hids he hfresh).1⟩
      change (perform options w' o amb call).2.handles o' = []
      rw [hupdate, Function.update_of_ne ho', hpart.others o' ho']
  other {w w' e rest} h hpart hmine := by
    cases e with
    | sweepExpired now =>
      exact hpart.after_sweeps [now] (hpart.part.swept options now) rfl
    | operation o amb call =>
      have ho : o ≠ a := of_decide_eq_false hmine
      obtain ⟨held, hmoves, hupdate, -⟩ :=
        moves_perform options h.sound hids (h.mem _ List.mem_cons_self) h.fresh
      refine hpart.after_sweeps _ (hpart.part.moves hmoves ho fun k hk hlooked => ho (hkeys o k hk hlooked)) ?_
      rw [hupdate, Function.update_of_ne ho.symm]
  silent {w e} hmine x hx := by
    cases e with
    | sweepExpired now =>
      rw [List.mem_singleton.1 hx]
      rfl
    | operation o amb call =>
      obtain ⟨now, -, rfl⟩ := List.mem_map.1 hx
      rfl

theorem sole_reservedBy (h : (es.filterMap reservationUuid).Nodup) : Sole (ReservedBy es) := by
  rintro o o' id ⟨amb, request, he, hid⟩ ⟨amb', request', he', hid'⟩
  by_contra ho
  have hpairs := List.pairwise_filterMap.1 h
  have hne : StoreEvent.operation o amb (.reserve request) ≠ .operation o' amb' (.reserve request') := by
    intro heq
    cases heq
    exact ho rfl
  have hsymm : Std.Symm fun e e' : StoreEvent =>
      ∀ id, reservationUuid e = some id → ∀ id', reservationUuid e' = some id' → id ≠ id' :=
    ⟨fun e e' hee id hid id' hid' => (hee id' hid' id hid).symm⟩
  exact hpairs.forall he he' hne _ rfl _ rfl (hid.trans hid'.symm)

variable (options a es) in
/-- **Isolation of the owners**: what an owner is answered is what it would be answered if the others did
nothing but sweep the store, when they do. -/
theorem answersTo_alone (huuids : (es.filterMap reservationUuid).Nodup) (hids : Sole (DrawnBy es))
    (hkeys : KeysApart a es)
    (hown : Along (worldStep options) (fun w e => presentsOwn a w e = true) {} es) :
    answersTo options a es = answersTo options a (alone options a es) := by
  have hrunning : Running options a es {} es :=
    ⟨sound_empty, fun e he => he, huuids, fun id _ => ⟨rfl, fun o r hr => absurd hr List.not_mem_nil⟩, hown⟩
  have hpart : SamePart a es {} {} :=
    ⟨⟨fun c => rfl, fun k _ => rfl, fun id => rfl⟩, rfl, fun o _ => rfl, sound_empty⟩
  exact (unwinding hids (sole_reservedBy huuids) hkeys).observed_eq hrunning hpart

/-! ### Owners without the separator -/

/-- An owner whose name and scope are without the separator. -/
def LlmContextOwner.Plain (owner : LlmContextOwner) : Prop :=
  '\x1f' ∉ owner.nid.toList ∧ '\x1f' ∉ owner.securityScope.toList

theorem toList_ownerKey (owner : LlmContextOwner) (action key : String) :
    (ownerKey owner action key).toList = owner.nid.toList ++ '\x1f' ::
      (owner.securityScope.toList ++ '\x1f' :: (action.toList ++ '\x1f' :: key.toList)) := by
  have hsep : "\x1f".toList = ['\x1f'] := rfl
  simp [ownerKey, hsep]

theorem owner_of_ownerKey {owner owner' : LlmContextOwner} {action action' key key' : String}
    (h : owner.Plain) (h' : owner'.Plain) (heq : ownerKey owner action key = ownerKey owner' action' key') :
    owner = owner' := by
  have htext := congrArg String.toList heq
  rw [toList_ownerKey, toList_ownerKey] at htext
  obtain ⟨hnid, hrest⟩ := append_sep_cancel h.1 h'.1 htext
  obtain ⟨hscope, -⟩ := append_sep_cancel h.2 h'.2 hrest
  cases owner
  cases owner'
  rw [LlmContextOwner.mk.injEq]
  exact ⟨String.toList_inj.1 hnid, String.toList_inj.1 hscope⟩

theorem lookedUpKey_eq {k : String} (h : lookedUpKey o call = some k) : ∃ action key, k = ownerKey o action key := by
  unfold lookedUpKey retainedKey at h
  split at h
  · exact ⟨_, _, (Option.some.inj h).symm⟩
  · split at h
    · exact ⟨_, _, (Option.some.inj h).symm⟩
    · exact ⟨_, _, (Option.some.inj h).symm⟩
    · cases h

theorem keysApart_of_plain (h : ∀ o amb call, .operation o amb call ∈ es → o.Plain) : KeysApart a es := by
  rintro o k ⟨amb, call, he, hk⟩ ⟨amb', call', he', hk'⟩
  obtain ⟨action', key', rfl⟩ := lookedUpKey_eq hk'
  have hretained : ∃ action key, ownerKey a action' key' = ownerKey o action key := by
    unfold retainedKey at hk
    split at hk
    · exact ⟨_, _, (Option.some.inj hk).symm⟩
    · exact ⟨_, _, (Option.some.inj hk).symm⟩
    · cases hk
  obtain ⟨action, key, heq⟩ := hretained
  exact (owner_of_ownerKey (h a amb' call' he') (h o amb call he) heq).symm

end

/-! ### Two owners -/

def alice : LlmContextOwner := ⟨"alice", "default"⟩

def bob : LlmContextOwner := ⟨"bob", "default"⟩

def bobsAmbient (now : ℚ) (uuid : String) : StoreAmbient :=
  { sampleStoreAmbient now uuid with contextIds := fun _ => some "BBBBBBBBBBBBBBBBBBBBBB" }

/-- Both create a context under one key; both contexts expire after an hour, and are kept a day after the
sweep that finds them so. -/
def visitedRun : List StoreEvent :=
  [.operation alice (sampleStoreAmbient 0 "r") (.reserve sampleCreate),
    .operation bob (bobsAmbient 0 "q") (.reserve sampleCreate),
    .operation alice (sampleStoreAmbient 1 "") (.commit 0 (sampleMessage "assistant" "hi")),
    .operation bob (bobsAmbient 1 "") (.commit 0 (sampleMessage "assistant" "hi")),
    .operation bob (bobsAmbient 4000000 "") (.status { idempotencyKey := some "first" }),
    .operation alice (sampleStoreAmbient 91000000 "")
      (.status { contextId := some "AAAAAAAAAAAAAAAAAAAAAA" })]

theorem visitedRun_alone :
    answersTo sampleStoreOptions alice visitedRun =
      answersTo sampleStoreOptions alice (alone sampleStoreOptions alice visitedRun) := by
  refine answersTo_alone sampleStoreOptions alice visitedRun (by decide) ?_ (keysApart_of_plain ?_)
    (along_of_alongAll (by decide +kernel))
  · have hdiffer : some "AAAAAAAAAAAAAAAAAAAAAA" ≠ some "BBBBBBBBBBBBBBBBBBBBBB" := by decide
    rintro o o' c ⟨amb, nth, message, n, he, hn⟩ ⟨amb', nth', message', n', he', hn'⟩
    simp only [visitedRun, List.mem_cons, List.not_mem_nil, StoreEvent.operation.injEq, OwnerCall.commit.injEq,
      reduceCtorEq, and_false, false_or, or_false] at he he'
    rcases he with ⟨rfl, rfl, -⟩ | ⟨rfl, rfl, -⟩ <;> rcases he' with ⟨rfl, rfl, -⟩ | ⟨rfl, rfl, -⟩
    · rfl
    · exact absurd (hn.trans hn'.symm) hdiffer
    · exact absurd (hn'.trans hn.symm) hdiffer
    · rfl
  · intro o amb call he
    have ho : o = alice ∨ o = bob := by
      simp only [visitedRun, List.mem_cons, List.not_mem_nil, StoreEvent.operation.injEq] at he
      tauto
    rcases ho with rfl | rfl
    · exact ⟨by decide, by decide⟩
    · exact ⟨by decide, by decide⟩

/-- Two owners whose keys come out the same. -/
def collidingRun : List StoreEvent :=
  [.operation ⟨"a\x1fb", "c"⟩ (bobsAmbient 0 "q") (.reserve sampleCreate),
    .operation ⟨"a", "b\x1fc"⟩ (sampleStoreAmbient 0 "r") (.reserve sampleCreate)]

def OwnerAnswer.isError : OwnerAnswer → Bool
  | .reservation result => !result.isOk
  | .receipt result => !result.isOk
  | .aborted result => !result.isOk
  | .status result => !result.isOk
  | .snapshot result => !result.isOk
  | .nothing => false

/-- **Owners are disturbed**: by the sweep of another, which tells how long a context is kept, and by one
whose keys come out the same. -/
theorem owners_disturbed :
    answersTo sampleStoreOptions alice visitedRun ≠
        answersTo sampleStoreOptions alice (visitedRun.filter (isOperationOf alice)) ∧
      answersTo sampleStoreOptions ⟨"a", "b\x1fc"⟩ collidingRun ≠
        answersTo sampleStoreOptions ⟨"a", "b\x1fc"⟩
          (collidingRun.filter (isOperationOf ⟨"a", "b\x1fc"⟩)) := by
  constructor
  · intro h
    have hcodes := congrArg (List.map OwnerAnswer.isError) h
    revert hcodes
    decide +kernel
  · intro h
    have hcodes := congrArg (List.map OwnerAnswer.isError) h
    revert hcodes
    decide

end NpsSdk.Nwp
