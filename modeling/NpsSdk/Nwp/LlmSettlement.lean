import NpsSdk.Nwp.ContextSettlement
import NpsSdk.Nwp.LlmActionServer

/-!
# Each completion settles its reservation once

Any calls of the provider, in any order, over any inner provider, authorizer and consumers.  A call settles
its reservation at most once, and has settled it when it is finished; what is busy in the store belongs to
a call that is not finished.  There are three ways to finish without: a commit of a response that throws, a
stream that is ended before its first frame is asked for, and an inner provider that resolves to nothing
where a stream is asked for.
-/

namespace NpsSdk.Nwp.StatefulLlm

open NpsSdk.Lib
open ActionNode (Thrown)

/-! ### What is settled -/

/-- `complete` has ended, and with it the stream if there is one. -/
def LlmCall.finished (c : LlmCall) : Bool :=
  match c.phase with
  | .finished => true
  | .streaming g =>
    match g.point with
    | .done _ => true
    | _ => false
  | _ => false

def Pending (s : Provider) (id : String) : Prop :=
  ∃ c ∈ s.calls, c.finished = false ∧ c.settlements = [] ∧ c.reservation.reservationId = id

/-- **Every reservation is settled exactly once** before its call is finished, and nothing stays busy. -/
structure SettlesOnce (s : Provider) : Prop where
  once : ∀ c ∈ s.calls, c.settlements.length ≤ 1
  finished : ∀ c ∈ s.calls, c.finished = true → c.settlements.length = 1
  reservations : ∀ id r, s.store.reservations.get id = some r → Pending s id
  contexts : ∀ k entry id, s.store.contexts.get k = some entry → entry.reservationId = some id → Pending s id
  keys : ∀ k entry, s.store.idempotency.get k = some entry → entry.state = .busy →
    ∃ id, entry.reservationId = some id ∧ Pending s id

variable {R : Type}

/-- The random UUID of a call is not the identifier of a reservation that is not settled. -/
def freshUuid (s : Provider) : Event R → Bool
  | .complete amb _ _ => (s.store.reservations.get amb.uuid).isNone
  | _ => true

variable (options : StatefulLlmActionOptions) (storeOptions : LlmContextStoreOptions)

/-- The event meets none of the ways to finish without settling: a response that is authorized can be
committed, a stream that has not started is not ended, and the inner provider resolves to something where a
stream is asked for. -/
def handled (s : Provider) : Event R → Bool
  | .executed _ i (.ok none) =>
    match s.calls[i]? with
    | some c =>
      match c.phase with
      | .executing => !c.request.stream || c.signalAborted
      | _ => true
    | none => true
  | .authorized amb i answer =>
    match s.calls[i]? with
    | some c =>
      match c.phase with
      | .authorizing .. =>
        !(options.authorizer && answer.isOk && !c.signalAborted) || commits amb s.store c.reservation
      | _ => true
    | none => true
  | .resumed i r =>
    match s.calls[i]? with
    | some c =>
      match c.phase with
      | .streaming g =>
        match g.point with
        | .start => r == .next
        | _ => true
      | _ => true
    | none => true
  | _ => true

/-! ### Turns -/

/-- How often the reservation is settled where the generator stands. -/
def Coordination.Sound (g : Coordination) (n : ℕ) : Prop :=
  match g.point with
  | .start | .pulling | .authorizing .. | .yielded false => g.resolved = false ∧ n = 0
  | .yielded true => g.resolved = true ∧ n = 1
  | .closing _ => n = if g.resolved then 1 else 0
  | .done _ => n = 1

/-- How often the reservation is settled in each phase. -/
def LlmCall.Sound (c : LlmCall) : Prop :=
  match c.phase with
  | .executing | .authorizing .. => c.settlements.length = 0
  | .streaming g => g.Sound c.settlements.length
  | .finished => c.settlements.length = 1

structure Ready (t : Turn) : Prop where
  accounted : Accounted t.store
  active : t.call.settlements.length = 0 →
    t.store.reservations.get t.call.reservation.reservationId = some t.call.reservation

structure Keeps (t t' : Turn) : Prop where
  accounted : Accounted t'.store
  reservations : t'.store.reservations = t.store.reservations
  reservation : t'.call.reservation = t.call.reservation
  settlements : t'.call.settlements = t.call.settlements

structure Settles (t t' : Turn) : Prop where
  accounted : Accounted t'.store
  reservations : t'.store.reservations = t.store.reservations.delete t.call.reservation.reservationId
  reservation : t'.call.reservation = t.call.reservation
  unsettled : t.call.settlements.length = 0
  settled : t'.call.settlements.length = 1

structure Moved (t t' : Turn) : Prop where
  cases : Keeps t t' ∨ Settles t t'
  sound : t'.call.Sound

variable {options storeOptions} {amb : StoreAmbient} {t t' t'' : Turn} {g : Coordination} {n : ℕ}

theorem Keeps.refl (h : Ready t) : Keeps t t := ⟨h.accounted, rfl, rfl, rfl⟩

theorem Keeps.ready (hk : Keeps t t') (h : Ready t) : Ready t' where
  accounted := hk.accounted
  active hn := by
    rw [hk.reservations, hk.reservation]
    rw [hk.settlements] at hn
    exact h.active hn

theorem Keeps.trans (h : Keeps t t') (h' : Keeps t' t'') : Keeps t t'' where
  accounted := h'.accounted
  reservations := h'.reservations.trans h.reservations
  reservation := h'.reservation.trans h.reservation
  settlements := h'.settlements.trans h.settlements

theorem Keeps.settles (h : Keeps t t') (h' : Settles t' t'') : Settles t t'' where
  accounted := h'.accounted
  reservations := by rw [h'.reservations, h.reservations, h.reservation]
  reservation := h'.reservation.trans h.reservation
  unsettled := by
    rw [← h.settlements]
    exact h'.unsettled
  settled := h'.settled

theorem Keeps.goesOn (h : Keeps t t') (hg : g.Sound t.call.settlements.length) : Moved t (t'.goesOn g) where
  cases := .inl ⟨h.accounted, h.reservations, h.reservation, h.settlements⟩
  sound := by
    rw [← h.settlements] at hg
    exact hg

theorem Settles.goesOn (h : Settles t t') (hg : g.Sound 1) : Moved t (t'.goesOn g) where
  cases := .inr ⟨h.accounted, h.reservations, h.reservation, h.unsettled, h.settled⟩
  sound := by
    rw [← h.settled] at hg
    exact hg

theorem Settles.finish {outcome : Except Thrown Completion} (h : Settles t t') : Moved t (t'.finish outcome) where
  cases := .inr ⟨h.accounted, h.reservations, h.reservation, h.unsettled, h.settled⟩
  sound := h.settled

variable (storeOptions amb) in
theorem abort_settles (h : Ready t) (hn : t.call.settlements.length = 0) (errorCode : String) :
    ∃ t', abort storeOptions amb t errorCode = (.ok (), t') ∧ Settles t t' := by
  obtain ⟨store, heq, haccounted, hreservations⟩ :=
    abort_active storeOptions amb h.accounted (h.active hn) (some errorCode)
  unfold abort
  rw [heq]
  refine ⟨_, rfl, haccounted, hreservations, rfl, hn, ?_⟩
  rw [List.length_append, hn]
  rfl

variable (storeOptions amb) in
theorem commit_settles (h : Ready t) (hn : t.call.settlements.length = 0) (assistant : LlmMessageDto) :
    (∃ e t', commit storeOptions amb t assistant = (.error e, t') ∧ Keeps t t') ∨
      ∃ receipt t', commit storeOptions amb t assistant = (.ok receipt, t') ∧ Settles t t' := by
  unfold commit
  rcases commit_active storeOptions amb h.accounted (h.active hn) assistant with
    ⟨e, store, heq, haccounted, hreservations⟩ | ⟨receipt, store, heq, haccounted, hreservations⟩
  · rw [heq]
    exact .inl ⟨e, _, rfl, haccounted, hreservations, rfl, rfl⟩
  · rw [heq]
    refine .inr ⟨receipt, _, rfl, haccounted, hreservations, rfl, hn, ?_⟩
    rw [List.length_append, hn]
    rfl

/-! ### `complete` -/

theorem abortAndFinish_moved {errorCode : String} {outcome : Except Thrown Completion} (h : Ready t)
    (hn : t.call.settlements.length = 0) : Moved t (abortAndFinish storeOptions amb t errorCode outcome) := by
  obtain ⟨t', heq, hsettles⟩ := abort_settles storeOptions amb h hn errorCode
  unfold abortAndFinish
  rw [heq]
  exact hsettles.finish

theorem unlessAborted_ok {α : Type} {message : String} {answer : Except Thrown α} {a : α}
    (h : unlessAborted t message answer = .ok a) : answer = .ok a ∧ t.call.signalAborted = false := by
  unfold unlessAborted at h
  obtain ⟨b, hb, h⟩ := ok_bind.1 h
  split at h
  · cases h
  · cases h
    exact ⟨hb, Bool.eq_false_iff.2 ‹_›⟩

theorem executed_moved {answer : Except Thrown (Option (ActionExecutionResult R))} (h : Ready t)
    (hn : t.call.settlements.length = 0)
    (hsome : answer = .ok none → t.call.signalAborted = false → t.call.request.stream = false) :
    Moved t (executed storeOptions amb t answer) := by
  unfold executed
  split
  · exact abortAndFinish_moved h hn
  · rename_i hok
    obtain ⟨hanswer, hsignal⟩ := unlessAborted_ok hok
    rw [if_neg (by rw [hsome hanswer hsignal]; nofun)]
    exact abortAndFinish_moved h hn
  · split
    · split
      · exact ⟨.inl ⟨h.accounted, rfl, rfl, rfl⟩, rfl, hn⟩
      · exact abortAndFinish_moved h hn
    · split
      · exact abortAndFinish_moved h hn
      · dsimp only
        split
        · exact abortAndFinish_moved h hn
        · exact ⟨.inl ⟨h.accounted, rfl, rfl, rfl⟩, hn⟩

variable {answer : Except Thrown Unit}

theorem checkAuthorization_ok (h : checkAuthorization options answer = .ok ()) :
    options.authorizer = true ∧ answer = .ok () := by
  unfold checkAuthorization at h
  split at h
  · exact ⟨‹_›, h⟩
  · cases h

theorem commitResponse_moved {response : LlmCompleteActionResponse LlmContextReceiptDto} {anchorRef : String}
    {tokenEst : Option ℚ} (h : Ready t) (hn : t.call.settlements.length = 0)
    (hcommits : options.authorizer = true → answer = .ok () → t.call.signalAborted = false →
      commits amb t.store t.call.reservation = true) :
    Moved t (commitResponse options storeOptions amb t response anchorRef tokenEst answer) := by
  unfold commitResponse
  split
  · exact abortAndFinish_moved h hn
  · rename_i hok
    obtain ⟨hauthorized, hsignal⟩ := unlessAborted_ok hok
    obtain ⟨hauthorizer, hanswer⟩ := checkAuthorization_ok hauthorized
    rcases commit_settles storeOptions amb h hn
        { role := "assistant", content := response.content, toolCalls := response.toolCalls } with
      ⟨e, t', heq, -⟩ | ⟨receipt, t', heq, hsettles⟩
    · -- the commit does not throw
      obtain ⟨receipt, hreceipt⟩ := commit_ok storeOptions (h.active hn)
        (hcommits hauthorizer hanswer hsignal)
        { role := "assistant", content := response.content, toolCalls := response.toolCalls }
      unfold commit at heq
      split at heq
      · rename_i herror
        rw [herror] at hreceipt
        cases hreceipt
      · cases heq
    · rw [heq]
      exact hsettles.finish

/-! ### `coordinateStream` -/

theorem resume_sound {r : Resume} (h : g.Sound n) (hr : g.point = .start → r = .next) : (resume g r).Sound n := by
  unfold Coordination.Sound at h
  unfold resume
  split
  · rename_i hpoint
    rw [hpoint] at h
    exact h
  · rename_i hpoint
    cases hr hpoint
  · rename_i hpoint
    cases hr hpoint
  · rename_i hpoint
    rw [hpoint] at h
    exact h
  · rename_i hpoint
    rw [hpoint] at h
    show n = if g.resolved = true then 1 else 0
    rw [h.1, if_pos rfl]
    exact h.2
  · rename_i last hpoint
    rw [hpoint] at h
    show n = if g.resolved = true then 1 else 0
    cases last with
    | false =>
      rw [h.1, if_neg nofun]
      exact h.2
    | true =>
      rw [h.1, if_pos rfl]
      exact h.2
  · rename_i last thrown hpoint
    rw [hpoint] at h
    show n = if g.resolved = true then 1 else 0
    cases last with
    | false =>
      rw [h.1, if_neg nofun]
      exact h.2
    | true =>
      rw [h.1, if_pos rfl]
      exact h.2
  · exact h
  · exact h

theorem yields_sound {frame : ChunkFrame} {last : Bool} (hresolved : g.resolved = last)
    (hn : n = if last then 1 else 0) : (yields g frame last).Sound n := by
  have hyielded : ∀ queue : List Resume, Coordination.Sound
      { g with yields := g.yields ++ [frame], point := .yielded last, queue } n := by
    intro queue
    cases last with
    | false | true => exact ⟨hresolved, hn⟩
  unfold yields
  dsimp only
  split
  · exact hyielded g.queue
  · exact resume_sound (hyielded _) nofun

/-- The generator has not settled the reservation. -/
structure Open (t : Turn) (g : Coordination) : Prop where
  ready : Ready t
  unsettled : t.call.settlements.length = 0
  unresolved : g.resolved = false

theorem finallyBlock_moved {ending : Ending} (h : Ready t)
    (hn : t.call.settlements.length = if g.resolved then 1 else 0) :
    Moved t (finallyBlock storeOptions amb t g ending) := by
  unfold finallyBlock
  split
  · rename_i hresolved
    rw [if_pos hresolved] at hn
    exact (Keeps.refl h).goesOn hn
  · rename_i hresolved
    rw [if_neg hresolved] at hn
    obtain ⟨t', heq, hsettles⟩ := abort_settles storeOptions amb h hn NWP_NODE_UNAVAILABLE
    rw [heq]
    exact hsettles.goesOn rfl

theorem throwInLoop_moved {thrown : Thrown} (h : Open t g) : Moved t (throwInLoop t g thrown) := by
  refine (Keeps.refl h.ready).goesOn ?_
  show t.call.settlements.length = if g.resolved = true then 1 else 0
  rw [h.unresolved, if_neg nofun]
  exact h.unsettled

theorem abortInLoop_moved {thrown : Thrown} (h : Open t g) : Moved t (abortInLoop storeOptions amb t g thrown) := by
  obtain ⟨t', heq, hsettles⟩ := abort_settles storeOptions amb h.ready h.unsettled (abortCode thrown)
  unfold abortInLoop
  rw [heq]
  exact hsettles.goesOn rfl

theorem terminal_moved {sanitized : ChunkFrame} (h : Open t g) :
    Moved t (terminal storeOptions amb t g sanitized) := by
  unfold terminal
  dsimp only
  split
  · obtain ⟨t', heq, hsettles⟩ := abort_settles storeOptions amb h.ready h.unsettled
      (sanitized.errorCode.getD NWP_NODE_UNAVAILABLE)
    rw [heq]
    exact hsettles.goesOn (yields_sound rfl rfl)
  · split
    · exact throwInLoop_moved ⟨h.ready, h.unsettled, h.unresolved⟩
    · exact (Keeps.refl h.ready).goesOn ⟨h.unresolved, h.unsettled⟩

theorem loopBody_moved {frame : SuppliedFrame R} (h : Open t g) : Moved t (loopBody storeOptions amb t g frame) := by
  unfold loopBody
  split
  · exact throwInLoop_moved h
  split
  · exact throwInLoop_moved h
  split
  · exact throwInLoop_moved h
  split
  · exact throwInLoop_moved h
  dsimp only
  split
  · exact terminal_moved ⟨h.ready, h.unsettled, h.unresolved⟩
  · exact (Keeps.refl h.ready).goesOn (yields_sound h.unresolved h.unsettled)

theorem pulled_moved {item : StreamItem R} (h : Open t g) : Moved t (pulled storeOptions amb t g item) := by
  have hn : t.call.settlements.length = if g.resolved then 1 else 0 := by
    rw [h.unresolved, if_neg nofun]
    exact h.unsettled
  cases item with
  | frame f => exact loopBody_moved h
  | done => exact finallyBlock_moved h.ready hn
  | throws thrown => exact finallyBlock_moved h.ready hn

theorem commitStream_moved {sanitized : ChunkFrame} {index : ℕ}
    (h : Open t g) : Moved t (commitStream options storeOptions amb t g sanitized index answer) := by
  unfold commitStream
  split
  · exact abortInLoop_moved h
  · rcases commit_settles storeOptions amb h.ready h.unsettled (assistantTurn g) with
      ⟨e, t', heq, hkeeps⟩ | ⟨receipt, t', heq, hsettles⟩
    · rw [heq]
      have hn : t'.call.settlements.length = 0 := by
        rw [hkeeps.settlements]
        exact h.unsettled
      have hmoved : Moved t' (abortInLoop storeOptions (laterAmbient amb) t' g (mapStoreError e)) :=
        abortInLoop_moved ⟨hkeeps.ready h.ready, hn, h.unresolved⟩
      refine ⟨?_, hmoved.sound⟩
      rcases hmoved.cases with hkeeps' | hsettles
      · exact .inl (hkeeps.trans hkeeps')
      · exact .inr (hkeeps.settles hsettles)
    · rw [heq]
      exact hsettles.goesOn (yields_sound rfl rfl)

theorem closed_moved {ending : Ending} (h : Ready t)
    (hn : t.call.settlements.length = if g.resolved then 1 else 0) :
    Moved t (closed storeOptions amb t g ending answer) := by
  unfold closed
  split
  · exact finallyBlock_moved h hn
  · exact finallyBlock_moved h hn

/-! ### Steps of a call -/

variable (storeOptions) in
/-- A turn of a call that is sound, unless it is one of those that are not handled. -/
theorem callStep_moved {s : Provider} {e : Event R} {i : ℕ} {c : LlmCall} (h : Ready { store := s.store, call := c })
    (hsound : c.Sound) (hi : s.calls[i]? = some c) (he : e.call? = some i)
    (hhandled : handled options s e = true) :
    Moved { store := s.store, call := c } (callStep options storeOptions { store := s.store, call := c } e) := by
  have hkept : Moved { store := s.store, call := c } { store := s.store, call := c } := ⟨.inl (.refl h), hsound⟩
  -- where the generator is at a point at which nothing is settled
  have hopen : ∀ g, c.phase = .streaming g → (∀ n, g.Sound n → g.resolved = false ∧ n = 0) →
      Open { store := s.store, call := c } g := by
    intro g hphase hpoint
    unfold LlmCall.Sound at hsound
    rw [hphase] at hsound
    obtain ⟨hresolved, hn⟩ := hpoint _ hsound
    exact ⟨h, hn, hresolved⟩
  cases e with
  | complete amb agentNid frame => cases he
  | release amb agentNid contextId baseVersion key => cases he
  | sweep now => cases he
  | aborted j => exact ⟨.inl ⟨h.accounted, rfl, rfl, rfl⟩, hsound⟩
  | executed amb j answer =>
    cases he
    unfold callStep
    dsimp only
    split
    · rename_i hphase
      unfold LlmCall.Sound at hsound
      rw [hphase] at hsound
      refine executed_moved h hsound fun hanswer hsignal => ?_
      change c.signalAborted = false at hsignal
      simpa only [handled, hi, hphase, hanswer, hsignal, Bool.or_false, Bool.not_eq_true'] using hhandled
    · exact hkept
  | authorized amb j answer =>
    cases he
    unfold callStep
    dsimp only
    split
    · rename_i hphase
      simp only [handled, hi, hphase, Bool.or_eq_true, Bool.not_eq_true', Bool.and_eq_false_iff] at hhandled
      unfold LlmCall.Sound at hsound
      rw [hphase] at hsound
      refine commitResponse_moved h hsound fun hauthorizer hanswer hsignal => ?_
      rcases hhandled with ((hno | hno) | hno) | hcommits
      · rw [hauthorizer] at hno
        cases hno
      · rw [hanswer] at hno
        cases hno
      · rw [hsignal] at hno
        cases hno
      · exact hcommits
    · rename_i g hphase
      split
      · rename_i hpoint
        refine commitStream_moved (hopen g hphase fun n hn => ?_)
        unfold Coordination.Sound at hn
        rw [hpoint] at hn
        exact hn
      · exact hkept
    · exact hkept
  | resumed j r =>
    cases he
    unfold callStep
    dsimp only
    split
    · rename_i g hphase
      have hn := hsound
      unfold LlmCall.Sound at hn
      rw [hphase] at hn
      refine (Keeps.refl h).goesOn (resume_sound hn fun hstart => ?_)
      simpa only [handled, hi, hphase, hstart, beq_iff_eq] using hhandled
    · exact hkept
  | pulled amb j item =>
    unfold callStep
    dsimp only
    split
    · rename_i g hphase
      split
      · rename_i hpoint
        refine pulled_moved (hopen g hphase fun n hn => ?_)
        unfold Coordination.Sound at hn
        rw [hpoint] at hn
        exact hn
      · exact hkept
    · exact hkept
  | closed amb j answer =>
    unfold callStep
    dsimp only
    split
    · rename_i g hphase
      split
      · rename_i hpoint
        unfold LlmCall.Sound Coordination.Sound at hsound
        rw [hphase] at hsound
        dsimp only at hsound
        rw [hpoint] at hsound
        exact closed_moved h hsound
      · exact hkept
    · exact hkept

/-! ### The invariant -/

structure Tracked (s : Provider) : Prop where
  accounted : Accounted s.store
  sound : ∀ (i : ℕ) (c : LlmCall), s.calls[i]? = some c → c.Sound
  active : ∀ (i : ℕ) (c : LlmCall), s.calls[i]? = some c → c.settlements.length = 0 →
    s.store.reservations.get c.reservation.reservationId = some c.reservation
  apart : ∀ (i j : ℕ) (c d : LlmCall), s.calls[i]? = some c → s.calls[j]? = some d → c.settlements.length = 0 →
    d.settlements.length = 0 → c.reservation.reservationId = d.reservation.reservationId → i = j
  opened : ∀ id r, s.store.reservations.get id = some r →
    ∃ (i : ℕ) (c : LlmCall), s.calls[i]? = some c ∧ c.settlements.length = 0 ∧ c.reservation = r

variable {s : Provider} {i : ℕ} {c : LlmCall}

theorem tracked_empty : Tracked {} where
  accounted := accounted_empty
  sound _ _ h := by cases h
  active _ _ h := by cases h
  apart _ _ _ _ h := by cases h
  opened _ _ h := by cases h

theorem Tracked.ready (h : Tracked s) (hi : s.calls[i]? = some c) : Ready { store := s.store, call := c } where
  accounted := h.accounted
  active := h.active i c hi

variable {store : LlmContextStore}

theorem Tracked.of_store (h : Tracked s) (haccounted : Accounted store)
    (hreservations : store.reservations = s.store.reservations) : Tracked { s with store } where
  accounted := haccounted
  sound := h.sound
  active i c hi hn := by
    rw [← h.active i c hi hn]
    show store.reservations.get _ = s.store.reservations.get _
    rw [hreservations]
  apart := h.apart
  opened id r hr := by
    change store.reservations.get id = some r at hr
    rw [hreservations] at hr
    exact h.opened id r hr

/-- A turn of a call that leaves its reservation. -/
theorem Tracked.keeps (h : Tracked s) (hi : s.calls[i]? = some c) (hk : Keeps { store := s.store, call := c } t)
    (hsound : t.call.Sound) : Tracked { s with store := t.store, calls := s.calls.set i t.call } := by
  have hreservations : t.store.reservations = s.store.reservations := hk.reservations
  have hreservation : t.call.reservation = c.reservation := hk.reservation
  have hsettlements : t.call.settlements = c.settlements := hk.settlements
  -- each call is as settled as before
  have hold : ∀ (j : ℕ) (d : LlmCall), (s.calls.set i t.call)[j]? = some d → ∃ d' : LlmCall, s.calls[j]? = some d' ∧
      d'.reservation = d.reservation ∧ d'.settlements = d.settlements := by
    intro j d hj
    rcases getElem?_set_cases hi hj with ⟨rfl, rfl⟩ | ⟨-, hj⟩
    · exact ⟨c, hi, hreservation.symm, hsettlements.symm⟩
    · exact ⟨d, hj, rfl, rfl⟩
  constructor
  · exact hk.accounted
  · intro j d hj
    rcases getElem?_set_cases hi hj with ⟨-, rfl⟩ | ⟨-, hj⟩
    · exact hsound
    · exact h.sound j d hj
  · intro j d hj hn
    obtain ⟨d', hj', hreservation', hsettlements'⟩ := hold j d hj
    rw [← hsettlements'] at hn
    show t.store.reservations.get _ = _
    rw [hreservations, ← hreservation', h.active j d' hj' hn]
  · intro j k d b hj hk' hn hm hid
    obtain ⟨d', hj', hd, hdn⟩ := hold j d hj
    obtain ⟨b', hk', hb, hbn⟩ := hold k b hk'
    rw [← hdn] at hn
    rw [← hbn] at hm
    rw [← hd, ← hb] at hid
    exact h.apart j k d' b' hj' hk' hn hm hid
  · intro id r hr
    change t.store.reservations.get id = some r at hr
    rw [hreservations] at hr
    obtain ⟨j, d, hj, hn, hd⟩ := h.opened id r hr
    by_cases hij : j = i
    · subst hij
      rw [hi, Option.some.injEq] at hj
      subst hj
      refine ⟨j, t.call, List.getElem?_set_self (List.getElem?_eq_some_iff.1 hi).1, ?_, ?_⟩
      · rw [hsettlements]
        exact hn
      · rw [hreservation]
        exact hd
    · refine ⟨j, d, ?_, hn, hd⟩
      show (s.calls.set i t.call)[j]? = some d
      rw [List.getElem?_set_ne (Ne.symm hij), hj]

/-- A turn of a call that settles its reservation: the other calls keep theirs. -/
theorem Tracked.settles (h : Tracked s) (hi : s.calls[i]? = some c)
    (hs : Settles { store := s.store, call := c } t) (hsound : t.call.Sound) :
    Tracked { s with store := t.store, calls := s.calls.set i t.call } := by
  have hreservations : t.store.reservations = s.store.reservations.delete c.reservation.reservationId :=
    hs.reservations
  have hn : c.settlements.length = 0 := hs.unsettled
  -- a call that has not settled is another one
  have hother : ∀ (j : ℕ) (d : LlmCall), (s.calls.set i t.call)[j]? = some d → d.settlements.length = 0 →
      j ≠ i ∧ s.calls[j]? = some d := by
    intro j d hj hd
    rcases getElem?_set_cases hi hj with ⟨-, rfl⟩ | hj
    · rw [hs.settled] at hd
      cases hd
    · exact hj
  constructor
  · exact hs.accounted
  · intro j d hj
    rcases getElem?_set_cases hi hj with ⟨-, rfl⟩ | ⟨-, hj⟩
    · exact hsound
    · exact h.sound j d hj
  · intro j d hj hd
    obtain ⟨hij, hj⟩ := hother j d hj hd
    have hne : d.reservation.reservationId ≠ c.reservation.reservationId :=
      fun heq => hij (h.apart j i d c hj hi hd hn heq)
    show t.store.reservations.get _ = _
    rw [hreservations, JsMap.get_delete, if_neg hne, h.active j d hj hd]
  · intro j k d b hj hk hd hb hid
    exact h.apart j k d b (hother j d hj hd).2 (hother k b hk hb).2 hd hb hid
  · intro id r hr
    change t.store.reservations.get id = some r at hr
    rw [hreservations] at hr
    obtain ⟨hne, hr⟩ := get_of_delete hr
    obtain ⟨j, d, hj, hd, rfl⟩ := h.opened id r hr
    have hij : j ≠ i := by
      rintro rfl
      rw [hi, Option.some.injEq] at hj
      subst hj
      exact hne (h.accounted.named id _ hr).symm
    refine ⟨j, d, ?_, hd, rfl⟩
    show (s.calls.set i t.call)[j]? = some d
    rw [List.getElem?_set_ne (Ne.symm hij), hj]

/-! ### New calls -/

variable (options storeOptions amb) in
theorem bindingOf_keeps {owner : LlmContextOwner} {request : LlmCompleteActionRequest}
    {context : LlmContextRequestDto} (h : Accounted store) :
    Accounted (bindingOf options storeOptions amb store owner request context).2 ∧
      (bindingOf options storeOptions amb store owner request context).2.reservations = store.reservations := by
  unfold bindingOf
  split
  · split
    · exact ⟨h, rfl⟩
    · rename_i contextId hc
      have hsnapshot : (snapshot storeOptions amb store owner contextId).2 =
          (Nwp.sweep storeOptions store (amb.clock 0)).2 := rfl
      have hswept : Accounted (Nwp.sweep storeOptions store (amb.clock 0)).2 := h.sweep
      split
      · rename_i e store' heq
        rw [heq] at hsnapshot
        change store' = _ at hsnapshot
        rw [hsnapshot]
        exact ⟨hswept, rfl⟩
      · rename_i found store' heq
        rw [heq] at hsnapshot
        change store' = _ at hsnapshot
        rw [hsnapshot]
        exact ⟨hswept, rfl⟩
  · exact ⟨h, rfl⟩

variable (options) in
theorem reserve_fresh_cases {owner : LlmContextOwner}
    {request : LlmCompleteActionRequest} {context : LlmContextRequestDto} {frame : ActionFrame}
    (h : Accounted store) (hfresh : store.reservations.get amb.uuid = none) :
    (∃ thrown store', reserve options storeOptions amb store owner request context frame = (.error thrown, store') ∧
      Accounted store' ∧ store'.reservations = store.reservations) ∨
    ∃ r store', reserve options storeOptions amb store owner request context frame = (.ok r, store') ∧
      Accounted store' ∧ r.reservationId = amb.uuid ∧
      store'.reservations = store.reservations.set r.reservationId r := by
  have hbinding : Accounted (bindingOf options storeOptions amb store owner request context).2 ∧
      (bindingOf options storeOptions amb store owner request context).2.reservations = store.reservations :=
    bindingOf_keeps options storeOptions amb h
  unfold reserve
  split
  · rename_i thrown store' heq
    rw [heq] at hbinding
    exact .inl ⟨thrown, store', rfl, hbinding.1, hbinding.2⟩
  · rename_i binding store' heq
    rw [heq] at hbinding
    obtain ⟨haccounted, hreservations⟩ := hbinding
    change store'.reservations = _ at hreservations
    have hfresh' : store'.reservations.get (laterAmbient amb).uuid = none := by
      rw [hreservations]
      exact hfresh
    generalize hasked : ({ operation := context.operation, owner, contextId := context.contextId
                           baseVersion := context.baseVersion, binding, messages := request.messages
                           ttlSeconds := context.ttlSeconds.map fun seconds => (seconds : ℚ)
                           idempotencyKey := frame.idempotencyKey.getD ""
                           requestId := frame.requestId.getD "" } : LlmContextMutationRequest) = asked
    rcases reserve_fresh storeOptions asked haccounted hfresh' with
      ⟨e, store'', heq', haccounted', hreservations'⟩ |
      ⟨r, store'', heq', haccounted', hid, -, hreservations'⟩
    · rw [heq']
      exact .inl ⟨_, _, rfl, haccounted', hreservations'.trans hreservations⟩
    · rw [heq']
      refine .inr ⟨r, _, rfl, haccounted', hid, ?_⟩
      rw [hreservations', hreservations]

/-- A new call, whose reservation is under an identifier that none has. -/
theorem Tracked.arrives (h : Tracked s) (haccounted : Accounted store)
    (hfresh : s.store.reservations.get c.reservation.reservationId = none)
    (hreservations : store.reservations = s.store.reservations.set c.reservation.reservationId c.reservation)
    (hphase : c.phase = .executing) (hn : c.settlements.length = 0) :
    Tracked { s with store, calls := s.calls ++ [c] } := by
  have hne : ∀ (j : ℕ) (d : LlmCall), s.calls[j]? = some d → d.settlements.length = 0 →
      d.reservation.reservationId ≠ c.reservation.reservationId := by
    intro j d hj hd heq
    have hactive := h.active j d hj hd
    rw [heq, hfresh] at hactive
    cases hactive
  constructor
  · exact haccounted
  · intro j d hj
    rcases getElem?_snoc_cases hj with ⟨-, rfl⟩ | hj
    · unfold LlmCall.Sound
      rw [hphase]
      exact hn
    · exact h.sound j d hj
  · intro j d hj hd
    show store.reservations.get _ = _
    rw [hreservations]
    rcases getElem?_snoc_cases hj with ⟨-, rfl⟩ | hj
    · exact JsMap.get_set_self _ _ _
    · rw [JsMap.get_set_ne _ _ (hne j d hj hd), h.active j d hj hd]
  · intro j k d b hj hk hd hb hid
    rcases getElem?_snoc_cases hj with ⟨hjlast, rfl⟩ | hjold
    · rcases getElem?_snoc_cases hk with ⟨hklast, rfl⟩ | hkold
      · exact hjlast.trans hklast.symm
      · exact absurd hid.symm (hne k b hkold hb)
    · rcases getElem?_snoc_cases hk with ⟨-, rfl⟩ | hkold
      · exact absurd hid (hne j d hjold hd)
      · exact h.apart j k d b hjold hkold hd hb hid
  · intro id r hr
    change store.reservations.get id = some r at hr
    rw [hreservations, JsMap.get_set] at hr
    split at hr
    · cases hr
      exact ⟨s.calls.length, c, by simp, hn, rfl⟩
    · obtain ⟨j, d, hj, hd, hdr⟩ := h.opened id r hr
      have hlt : j < s.calls.length := (List.getElem?_eq_some_iff.1 hj).1
      exact ⟨j, d, by rw [List.getElem?_append_left hlt, hj], hd, hdr⟩

theorem Tracked.complete {agentNid : Option String} {frame : ActionFrame} (h : Tracked s)
    (hfresh : s.store.reservations.get amb.uuid = none) :
    Tracked (complete options storeOptions amb s agentNid frame) := by
  have hended : ∀ {store : LlmContextStore} (how : Unreserved), Accounted store →
      store.reservations = s.store.reservations →
      Tracked { s with store, unreserved := s.unreserved ++ [(frame, how)] } := by
    intro store how haccounted hreservations
    obtain ⟨haccounted, hsound, hactive, hapart, hopened⟩ := h.of_store haccounted hreservations
    exact ⟨haccounted, hsound, hactive, hapart, hopened⟩
  unfold StatefulLlm.complete
  dsimp only
  split
  · exact hended _ h.accounted rfl
  · exact hended _ h.accounted rfl
  · split
    · exact hended _ h.accounted rfl
    · rename_i request context _ owner _
      rcases reserve_fresh_cases options h.accounted hfresh with
        ⟨thrown, store, heq, haccounted, hreservations⟩ |
        ⟨r, store, heq, haccounted, hid, hreservations⟩
      · rw [heq]
        exact hended _ haccounted hreservations
      · rw [heq]
        rw [← hid] at hfresh
        exact h.arrives haccounted hfresh hreservations rfl rfl

/-! ### Runs -/

theorem tracked_step (e : Event R) (h : Tracked s) (hfresh : freshUuid s e = true)
    (hhandled : handled options s e = true) : Tracked (providerStep options storeOptions s e) := by
  cases he : e.call? with
  | some i =>
    rcases providerStep_turn options storeOptions he with heq | ⟨c, hi, heq⟩
    · rw [heq]
      exact h
    · rw [heq]
      have hmoved := callStep_moved storeOptions (h.ready hi) (h.sound i c hi) hi he hhandled
      rcases hmoved.cases with hkeeps | hsettles
      · exact h.keeps hi hkeeps hmoved.sound
      · exact h.settles hi hsettles hmoved.sound
  | none =>
    cases e with
    | complete amb agentNid frame => exact h.complete (Option.isNone_iff_eq_none.1 hfresh)
    | release amb agentNid contextId baseVersion key =>
      unfold providerStep
      dsimp only
      split
      · exact h
      · obtain ⟨haccounted, hreservations⟩ := h.accounted.release
        exact h.of_store haccounted hreservations
    | sweep now => exact h.of_store h.accounted.sweep rfl
    | _ => cases he

theorem LlmCall.Sound.finished (h : c.Sound) (hf : c.finished = true) : c.settlements.length = 1 := by
  unfold LlmCall.finished at hf
  unfold LlmCall.Sound at h
  split at hf
  · rename_i hphase
    rw [hphase] at h
    exact h
  · rename_i g hphase
    rw [hphase] at h
    split at hf
    · rename_i hpoint
      unfold Coordination.Sound at h
      dsimp only at h
      rw [hpoint] at h
      exact h
    · cases hf
  · cases hf

theorem LlmCall.Sound.once (h : c.Sound) : c.settlements.length ≤ 1 := by
  unfold LlmCall.Sound at h
  split at h
  · omega
  · omega
  · unfold Coordination.Sound at h
    split at h
    · omega
    · omega
    · omega
    · omega
    · omega
    · split at h <;> omega
    · omega
  · omega

theorem Tracked.pending (h : Tracked s) {id : String} {r : LlmContextMutationReservation}
    (hr : s.store.reservations.get id = some r) : Pending s id := by
  obtain ⟨i, c, hi, hn, rfl⟩ := h.opened id r hr
  refine ⟨c, List.mem_of_getElem? hi, ?_, List.length_eq_zero_iff.1 hn, h.accounted.named id _ hr⟩
  rw [Bool.eq_false_iff]
  intro hf
  have := (h.sound i c hi).finished hf
  omega

theorem Tracked.settlesOnce (h : Tracked s) : SettlesOnce s where
  once c hc := by
    obtain ⟨i, hi⟩ := List.getElem?_of_mem hc
    exact (h.sound i c hi).once
  finished c hc hf := by
    obtain ⟨i, hi⟩ := List.getElem?_of_mem hc
    exact (h.sound i c hi).finished hf
  reservations id r hr := h.pending hr
  contexts k entry id hentry hid := by
    obtain ⟨r, hr, -⟩ := h.accounted.marked k entry id hentry hid
    exact h.pending hr
  keys k entry hentry hbusy := by
    obtain ⟨r, hid, hr, -⟩ := h.accounted.busy k entry hentry hbusy
    exact ⟨r.reservationId, hid, h.pending hr⟩

/-- **Every reservation is settled exactly once**, whatever the calls, the inner provider, the authorizer,
the consumers and the store do, as long as no response that is authorized fails to commit, no stream is
ended before its first frame is asked for, and no provider resolves to nothing instead of a stream. -/
theorem settlesOnce_providerAfter (es : List (Event R))
    (hfresh : Along (providerStep options storeOptions) (fun s e => freshUuid s e = true) {} es)
    (hhandled : Along (providerStep options storeOptions) (fun s e => handled options s e = true) {} es) :
    SettlesOnce (providerAfter options storeOptions es) := by
  refine Tracked.settlesOnce ?_
  have hboth : Along (providerStep options storeOptions)
      (fun s e => freshUuid s e = true ∧ handled options s e = true) {} es :=
    fun pre e post heq => ⟨hfresh pre e post heq, hhandled pre e post heq⟩
  exact run_induction_along tracked_empty (fun _ e hs he => tracked_step e hs he.1 he.2) hboth

/-! ### Fixed runs -/

theorem not_settlesOnce (h : s.calls.any (fun c => c.finished && c.settlements.length != 1) = true) :
    ¬ SettlesOnce s := by
  intro hsettles
  obtain ⟨c, hc, hne⟩ := List.any_eq_true.1 h
  obtain ⟨hf, hn⟩ := Bool.and_eq_true_iff.1 hne
  have hone : c.settlements.length = 1 := hsettles.finished c hc hf
  rw [hone] at hn
  cases hn

def nodeOptions : StatefulLlmActionOptions :=
  { securityScope := "scope", runtimeRevision := "1", supportsStream := true, authorizer := true }

def contextOptions : LlmContextStoreOptions := { bindingFingerprint := fun _ => "digest" }

/-- What a call finds where the factory always gives the same identifier. -/
def found (uuid : String) : StoreAmbient where
  clock := fun _ => 0
  contextIds := fun _ => some "AAAAAAAAAAAAAAAAAAAAAA"
  uuid := uuid

/-- A request for a new context. -/
def creation (stream : Bool) (key : String) : ActionFrame where
  params := .ok { model := "model", stream, messages := [{ role := "user", content := some "hello" }]
                  context := some { operation := .create } }
  idempotencyKey := some key

def lastFrame : SuppliedFrame Unit :=
  { streamId := "stream", seq := 0, isLast := true
    data := .ok [{ contentDelta := some "hi", stopReason := some .end_turn }] }

/-- A stream that is read to its end. -/
def streamedRun : List (Event Unit) :=
  [ .complete (found "r1") (some "agent") (creation true "key"),
    .executed (found "") 0 (.ok (some { result := .error "", streamFrames := true })),
    .resumed 0 .next,
    .pulled (found "") 0 (.frame lastFrame),
    .authorized (found "") 0 (.ok ()),
    .resumed 0 .next,
    .closed (found "") 0 (.ok ()) ]

theorem streamedRun_settlesOnce : SettlesOnce (providerAfter nodeOptions contextOptions streamedRun) ∧
    (providerAfter nodeOptions contextOptions streamedRun).calls.map LlmCall.settlements = [[.committed]] := by
  refine ⟨settlesOnce_providerAfter streamedRun ?_ ?_, by decide +kernel⟩
  · exact along_of_alongAll (by decide)
  · exact along_of_alongAll (by decide +kernel)

def unpulledRun : List (Event Unit) :=
  [ .complete (found "r1") (some "agent") (creation true "key"),
    .executed (found "") 0 (.ok (some { result := .error "", streamFrames := true })),
    .resumed 0 .return ]

/-- Two completions; the second finds the identifier of its context taken. -/
def collidingRun : List (Event Unit) :=
  [ .complete (found "r1") (some "agent") (creation false "first"),
    .executed (found "") 0 (.ok (some { result := .ok { stopReason := .end_turn } })),
    .authorized (found "") 0 (.ok ()),
    .complete (found "r2") (some "agent") (creation false "second"),
    .executed (found "") 1 (.ok (some { result := .ok { stopReason := .end_turn } })),
    .authorized (found "") 1 (.ok ()) ]

/-- An inner provider that resolves to nothing. -/
def emptyRun : List (Event Unit) :=
  [ .complete (found "r1") (some "agent") (creation true "key"),
    .executed (found "") 0 (.ok none) ]

/-- **A reservation is left busy** by a stream that is ended before its first frame, by a commit of a
response that throws, and by a provider that resolves to nothing. -/
theorem finished_unsettled : ¬ SettlesOnce (providerAfter nodeOptions contextOptions unpulledRun) ∧
    ¬ SettlesOnce (providerAfter nodeOptions contextOptions collidingRun) ∧
    ¬ SettlesOnce (providerAfter nodeOptions contextOptions emptyRun) := by
  refine ⟨?_, ?_, ?_⟩
  · exact not_settlesOnce (by decide)
  · exact not_settlesOnce (by decide +kernel)
  · exact not_settlesOnce (by decide)

end NpsSdk.Nwp.StatefulLlm
