import NpsSdk.Nip.Acme.Binding

/-!
# The statuses of orders, authorisations and challenges

An order is ready when its challenge is answered, and valid when its certificate is on record.  The
handlers set the three statuses without asking what they were, but for the one that finalizes an order:
it asks whether the order is ready, and then waits twice.  Where each turn meets the statuses it is meant
for, they only move on, and each order has one certificate.
-/

namespace NpsSdk.Nip.Acme

open NpsSdk.Lib NpsSdk.Nip.X509 AcmeServer

/-! ### Moves -/

/-- The moves of the status of an order or an authorisation. -/
inductive StatusMove : String → String → Prop
  | ready : StatusMove Status.PENDING Status.READY
  | valid : StatusMove Status.READY Status.VALID
  | invalid : StatusMove Status.PENDING Status.INVALID

inductive ChallengeMove : String → String → Prop
  | valid : ChallengeMove Status.PENDING Status.VALID
  | invalid : ChallengeMove Status.PENDING Status.INVALID

def MovesOn {α : Type} (R : String → String → Prop) (status : α → String) (m m' : JsMap String α) :
    Prop :=
  ∀ id v, m.get id = some v → ∃ v', m'.get id = some v' ∧ R (status v) (status v')

/-- **The statuses only move on**; an authorisation passes `ready` at once. -/
structure StatusesMove (s s' : AcmeState) : Prop where
  orders : MovesOn (Relation.ReflGen StatusMove) OrderState.status s.orders s'.orders
  authzs : MovesOn (Relation.ReflTransGen StatusMove) AuthzState.status s.authzs s'.authzs
  challenges : MovesOn (Relation.ReflGen ChallengeMove) ChallengeState.status s.challenges s'.challenges

section Moves

variable {α : Type} {R : String → String → Prop} {status : α → String} {m : JsMap String α} {id : String}
  {v : α} {a b : String}

theorem movesOn_refl (hR : ∀ a, R a a) : MovesOn R status m m := fun _ v h => ⟨v, h, hR _⟩

theorem movesOn_set (hR : ∀ a, R a a) :
    MovesOn R status m (m.set id v) ↔ ∀ v', m.get id = some v' → R (status v') (status v) := by
  constructor
  · intro h v' hget
    obtain ⟨v'', hset, hmove⟩ := h id v' hget
    rw [JsMap.get_set_self] at hset
    cases hset
    exact hmove
  · intro h id' v' hget
    by_cases hid : id' = id
    · subst hid
      exact ⟨v, JsMap.get_set_self _ _ _, h v' hget⟩
    · exact ⟨v', (JsMap.get_set_ne _ _ hid).trans hget, hR _⟩

theorem movesOn_mapValues {f : α → α} :
    MovesOn R status m (m.mapValues f) ↔ ∀ id v, m.get id = some v → R (status v) (status (f v)) := by
  constructor
  · intro h id v hget
    obtain ⟨v', hmap, hmove⟩ := h id v hget
    rw [JsMap.get_mapValues, hget] at hmap
    cases hmap
    exact hmove
  · intro h id v hget
    exact ⟨f v, by rw [JsMap.get_mapValues, hget, Option.map_some], h id v hget⟩

theorem statusMove_iff : StatusMove a b ↔ a = Status.PENDING ∧ b = Status.READY ∨
    a = Status.READY ∧ b = Status.VALID ∨ a = Status.PENDING ∧ b = Status.INVALID := by
  constructor
  · rintro (_ | _ | _) <;> simp
  · rintro (⟨rfl, rfl⟩ | ⟨rfl, rfl⟩ | ⟨rfl, rfl⟩)
    · exact .ready
    · exact .valid
    · exact .invalid

theorem challengeMove_iff : ChallengeMove a b ↔
    a = Status.PENDING ∧ b = Status.VALID ∨ a = Status.PENDING ∧ b = Status.INVALID := by
  constructor
  · rintro (_ | _) <;> simp
  · rintro (⟨rfl, rfl⟩ | ⟨rfl, rfl⟩)
    · exact .valid
    · exact .invalid

/-- Nothing moves back to `pending`. -/
theorem eq_of_moves_pending (h : Relation.ReflTransGen StatusMove a Status.PENDING) : a = Status.PENDING := by
  rcases h.cases_tail with h | ⟨b, -, hb⟩
  · exact h.symm
  · rw [statusMove_iff] at hb
    rcases hb with ⟨-, h⟩ | ⟨-, h⟩ | ⟨-, h⟩
    · exact absurd h (by decide)
    · exact absurd h (by decide)
    · exact absurd h (by decide)

theorem moves_pending_valid : Relation.ReflTransGen StatusMove Status.PENDING Status.VALID :=
  .tail (.single .ready) .valid

end Moves

/-! ### Certificates -/

def certified (w : AcmeWorld) : AcmeTurn → List String
  | .start _ => []
  | .resume i amb =>
    match w.calls[i]? with
    | none => []
    | some (req, p) => (p.turnAnswers acmeExec acmeWaits amb w.state).filterMap fun
      | ⟨.ext (.issueLeaf _), .ok _⟩ => some (dropStart "/finalize/" req.url)
      | _ => none

namespace AcmeServer

/-- The orders whose certificates have been issued in the turns `es`, one for each certificate. -/
def finalised (srv : AcmeServer) (es : List AcmeTurn) : List String :=
  noted (fun orders w t => orders ++ certified w t) srv.step [] .idle es

/-- What a request to finalize an order goes on with when the key of its CSR is exported. -/
def exporting (srv : AcmeServer) (orderId : String) (o : OrderState) (r : Except String String) :
    AcmeAsync AcmeReply :=
  tryCatch (awaitKey srv orderId o r) fun message => pure (serverInternal message)

/-- What it goes on with when the certificate is issued. -/
def recording (srv : AcmeServer) (orderId : String) (o : OrderState) (r : Except String String) :
    AcmeAsync AcmeReply :=
  tryCatch
    (tryCatch (Async.ofExcept r >>= srv.recordCertificate orderId o) fun message => pure (badCsr message))
    fun message => pure (serverInternal message)

/-- The call waits with a certificate that is not on record yet. -/
def HoldsCertificate (srv : AcmeServer) (orderId : String) (p : AcmeAsync AcmeReply) : Prop :=
  ∃ o leaf, p = srv.recording orderId o (.ok leaf)

end AcmeServer

def HasStatus (s : AcmeState) (orderId status : String) : Prop :=
  ∃ o, s.orders.get orderId = some o ∧ o.status = status

/-- **A request in order**: what it does to a status is what the status is for. -/
structure RequestInOrder (srv : AcmeServer) (s : AcmeState) (req : AcmeRequest) (amb : ℕ → AcmeAmbient) :
    Prop where
  /-- A wrong response is not to a challenge that is valid. -/
  failed : routeOf req = .chall → ∀ ch, responseOf srv s req = some (ch, false) →
    ch.status ≠ Status.VALID
  /-- A right response is not to a challenge that is invalid, nor are its orders valid. -/
  passed : routeOf req = .chall → ∀ ch, responseOf srv s req = some (ch, true) →
    ch.status ≠ Status.INVALID ∧
      ∀ id o, s.orders.get id = some o → o.authzId = ch.authzId → o.status ≠ Status.VALID
  /-- A new order takes no place but that of a pending one. -/
  created : routeOf req = .newOrder → (orderedBy srv s req).isSome →
    (∀ o, s.orders.get (drawnOrder amb) = some o → o.status = Status.PENDING) ∧
    (∀ az, s.authzs.get (drawnAuthz amb) = some az → az.status = Status.PENDING) ∧
    ∀ ch, s.challenges.get (drawnChallenge amb) = some ch → ch.status = Status.PENDING

/-- **A turn in order**: a request that starts is, and a certificate is issued for a ready order, while no
other certificate of it waits to be put on record. -/
structure InOrder (srv : AcmeServer) (w : AcmeWorld) (t : AcmeTurn) : Prop where
  request : ∀ i req amb, Starts srv w t i req amb → RequestInOrder srv w.state req amb
  certificate : ∀ orderId ∈ certified w t, HasStatus w.state orderId Status.READY ∧
    ∀ (i : ℕ) (req : AcmeRequest) (p : AcmeAsync AcmeReply), w.calls[i]? = some (req, p) →
      ¬ srv.HoldsCertificate orderId p

/-! ### The turns of a request -/

structure SameBooks (s s' : AcmeState) : Prop where
  orders : s'.orders = s.orders
  authzs : s'.authzs = s.authzs
  challenges : s'.challenges = s.challenges

/-- What a request makes of the state in its first turn, but for nonces and accounts. -/
def booksAfter (srv : AcmeServer) (s : AcmeState) (req : AcmeRequest) (amb : ℕ → AcmeAmbient) : AcmeState :=
  match routeOf req with
  | .newOrder =>
    match orderedBy srv s req with
    | some (accountUrl, ident) => createOrder srv accountUrl ident amb s
    | none => s
  | .chall =>
    match responseOf srv s req with
    | some (ch, true) => acceptChallenge (dropStart "/chall/" req.url) ch s
    | some (_, false) => setChallengeStatus (dropStart "/chall/" req.url) Status.INVALID s
    | none => s
  | _ => s

section Turns

variable {srv : AcmeServer} {s s' : AcmeState} {req : AcmeRequest} {amb : ℕ → AcmeAmbient}
  {w : AcmeWorld} {i : ℕ} {orderId : String} {o : OrderState} {p : AcmeAsync AcmeReply} {leaf : String}

variable (srv s req amb) in
/-- **The first turn**: it leaves the books of `booksAfter`, and issues no certificate. -/
theorem firstTurn_books : Async.turn acmeExec acmeWaits (fun _ _ s' => SameBooks (booksAfter srv s req amb) s')
    (fun op p s' => (∀ request, op ≠ .ext (.issueLeaf request)) ∧ SameBooks (booksAfter srv s req amb) s' ∧
      ∃ o r, orderOf s req = some o ∧ o.status = Status.READY ∧
        p = srv.exporting (dropStart "/finalize/" req.url) o r) (srv.dispatch req) amb s := by
  unfold dispatch
  rw [Async.turn_tryCatch]
  refine Async.turn_mono (D := fun _ _ s' => SameBooks (booksAfter srv s req amb) s')
    (W := fun op p s' => (∀ request, op ≠ .ext (.issueLeaf request)) ∧ SameBooks (booksAfter srv s req amb) s' ∧
      ∃ o r, orderOf s req = some o ∧ o.status = Status.READY ∧
        p = awaitKey srv (dropStart "/finalize/" req.url) o r) ?_ (fun r _ _ h => ?_) ?_
  · refine turn_handle (fun _ _ _ _ hnew hchall => ?_) (fun hroute => ?_) (fun hroute => ?_) fun hroute => ?_
    · have hsame : booksAfter srv s req amb = s := by
        unfold booksAfter
        split
        · rename_i h
          exact absurd h hnew
        · rename_i h
          exact absurd h hchall
        · rfl
      rw [hsame]
      exact ⟨rfl, rfl, rfl⟩
    · refine turn_handleNewOrder (fun h _ _ _ => ?_) fun accountUrl ident h _ _ _ => ?_
      · simp only [booksAfter, hroute, h]
        exact ⟨rfl, rfl, rfl⟩
      · simp only [booksAfter, hroute, h]
        exact ⟨rfl, rfl, rfl⟩
    · refine turn_handleChallenge (fun h _ _ _ => ?_) (fun ch h _ _ _ => ?_) fun ch h _ _ _ => ?_
      · simp only [booksAfter, hroute, h]
        exact ⟨rfl, rfl, rfl⟩
      · simp only [booksAfter, hroute, h]
        exact ⟨rfl, rfl, rfl⟩
      · simp only [booksAfter, hroute, h]
        exact ⟨rfl, rfl, rfl⟩
    · have hsame : booksAfter srv s req amb = s := by simp only [booksAfter, hroute]
      rw [hsame]
      exact turn_handleFinalize (fun _ _ _ => ⟨rfl, rfl, rfl⟩) fun _ _ _ o _ r _ _ ho hready =>
        ⟨nofun, ⟨rfl, rfl, rfl⟩, o, r, ho, hready, rfl⟩
  · cases r <;> exact h
  · rintro op p s' ⟨hop, hbooks, o, r, ho, hready, rfl⟩
    exact ⟨hop, hbooks, o, r, ho, hready, rfl⟩

def leafRequest (srv : AcmeServer) (o : OrderState) (subjectPub serialNumber : String) (now : ℤ) :
    IssueLeafOptions :=
  { subjectNid := o.identifier.value, subjectPublicKey := subjectPub, issuerNid := srv.caNid,
    role := .agent, assuranceLevel := .anonymous, notBefore := now - 60000,
    notAfter := now + srv.certValidityMs, serialNumber }

theorem turn_exporting_ok {subjectPub : String} :
    (srv.exporting orderId o (.ok subjectPub)).advance acmeExec acmeWaits amb s =
        (srv.recording orderId o (amb 2).leaf, s) ∧
      (srv.exporting orderId o (.ok subjectPub)).turnAnswers acmeExec acmeWaits amb s =
        [⟨.ext .now, .ok (amb 0).time⟩, ⟨.ext .random, .ok (amb 1).random⟩,
          ⟨.ext (.issueLeaf (leafRequest srv o subjectPub (amb 1).random (amb 0).time)), (amb 2).leaf⟩] :=
  ⟨rfl, rfl⟩

variable (srv s amb orderId o leaf) in
theorem turn_recording_ok : Async.turn acmeExec acmeWaits
    (fun _ _ s' => SameBooks (setOrderValid orderId (srv.baseUrl ++ "/cert/" ++ ("crt-" ++ (amb 0).random)) s) s')
    (fun _ _ _ => False) (srv.recording orderId o (.ok leaf)) amb s := by
  unfold recording
  rw [Async.turn_tryCatch, Async.turn_tryCatch]
  simp only [Async.ofExcept, Async.done_bind]
  unfold recordCertificate
  rw [turn_shortId, StateOp.turn_modifyState, turn_mintNonce]
  unfold setOrderValid
  dsimp only
  cases s.orders.get orderId with
  | none => exact ⟨rfl, rfl, rfl⟩
  | some o => exact ⟨rfl, rfl, rfl⟩

theorem certified_nil (hi : w.calls[i]? = some (req, p))
    (h : ∀ op ∈ p.turnOps acmeExec acmeWaits amb w.state, ∀ request, op ≠ .ext (.issueLeaf request)) :
    certified w (.resume i amb) = [] := by
  simp only [certified, hi]
  rw [List.filterMap_eq_nil_iff]
  rintro ⟨op, answer⟩ ha
  have hop := h op (Async.mem_turnOps_of_mem_turnAnswers ha)
  split
  · rename_i request leaf heq
    cases heq
    exact absurd rfl (hop request)
  · rfl

/-! ### Who holds a certificate -/

def lone (orderId : String) : AcmeState :=
  { orders := JsMap.empty.set orderId
      { id := orderId, identifier := ⟨"", ""⟩, status := Status.READY, authzId := "", finalizeUrl := "",
        accountUrl := "" } }

theorem lone_ready : ¬ HasStatus (lone orderId) orderId Status.VALID := by
  rintro ⟨o, hget, hstatus⟩
  rw [lone, JsMap.get_set_self, Option.some.injEq] at hget
  rw [← hget] at hstatus
  have hvalid : Status.READY = Status.VALID := hstatus
  exact absurd hvalid (by decide)

theorem AcmeServer.HoldsCertificate.valid (h : srv.HoldsCertificate orderId p) (hs : (s.orders.get orderId).isSome) :
    HasStatus (p.advance acmeExec acmeWaits amb s).2 orderId Status.VALID := by
  obtain ⟨o, leaf, rfl⟩ := h
  obtain ⟨o', ho'⟩ := Option.isSome_iff_exists.1 hs
  refine (Async.advance_turn (C := fun _ => True) (Q := fun _ s' => HasStatus s' orderId Status.VALID)
    (fun _ _ => trivial) (Async.turn_mono (turn_recording_ok srv s amb orderId o leaf) (fun _ _ s' hbooks => ?_)
      fun _ _ _ hf => hf.elim)).1
  rw [HasStatus, hbooks.orders, setOrderValid, ho']
  exact ⟨_, JsMap.get_set_self _ _ _, rfl⟩

variable (amb) in
theorem not_holdsCertificate (h : (p.advance acmeExec acmeWaits amb (lone orderId)).2.orders = (lone orderId).orders) :
    ¬ srv.HoldsCertificate orderId p := by
  intro hholds
  have hvalid : HasStatus (p.advance acmeExec acmeWaits amb (lone orderId)).2 orderId Status.VALID :=
    hholds.valid (by rw [lone, JsMap.get_set_self]; rfl)
  rw [HasStatus, h] at hvalid
  exact lone_ready hvalid

theorem not_holdsCertificate_dispatch : ¬ srv.HoldsCertificate orderId (srv.dispatch req) := by
  have amb : ℕ → AcmeAmbient := fun _ => {}
  -- no nonce is fresh there
  have hsigned : signed srv (lone orderId) req = none := by
    simp [signed, lone]
    split
    · split <;> rfl
    · rfl
  have hsame : booksAfter srv (lone orderId) req amb = lone orderId := by
    unfold booksAfter
    split
    · simp [orderedBy, sender, hsigned]
    · simp [responseOf, hsigned]
    · rfl
  have hturn := Async.advance_turn (C := fun _ => True)
    (Q := fun _ s' => s'.orders = (lone orderId).orders) (fun _ _ => trivial)
    (Async.turn_mono (firstTurn_books srv (lone orderId) req amb)
      (fun _ _ s' h => by rw [h.orders, hsame]) fun op p s' h => ⟨trivial, by rw [h.2.1.orders, hsame]⟩)
  exact not_holdsCertificate amb hturn.1

theorem not_holdsCertificate_done {r : Except String AcmeReply} : ¬ srv.HoldsCertificate orderId (.done r) :=
  not_holdsCertificate (fun _ => {}) rfl

theorem not_holdsCertificate_exporting {r : Except String String} {orderId' : String} :
    ¬ srv.HoldsCertificate orderId (srv.exporting orderId' o r) := by
  cases r with
  | error message => exact not_holdsCertificate_done
  | ok subjectPub =>
    refine not_holdsCertificate (fun _ => {}) ?_
    rw [turn_exporting_ok.1]

theorem holdsCertificate_recording {r : Except String String} {orderId' : String}
    (h : srv.HoldsCertificate orderId (srv.recording orderId' o r)) : orderId = orderId' ∧ ∃ leaf, r = .ok leaf := by
  cases r with
  | error message => exact absurd h not_holdsCertificate_done
  | ok leaf =>
    refine ⟨by_contra fun hne => ?_, leaf, rfl⟩
    have hother : (lone orderId).orders.get orderId' = none := by
      rw [lone, JsMap.get_set_ne _ _ (Ne.symm hne), JsMap.get_empty]
    have hturn := Async.advance_turn (C := fun _ => True)
      (Q := fun _ s' => s'.orders = (lone orderId).orders) (fun _ _ => trivial)
      (Async.turn_mono (turn_recording_ok srv (lone orderId) (fun _ => {}) orderId' o leaf) (fun _ _ s' h => by rw [h.orders, setOrderValid, hother])
        fun _ _ _ hf => hf.elim)
    exact not_holdsCertificate (fun _ => {}) hturn.1 h

/-! ### The books -/

structure Known (s : AcmeState) : Prop where
  orders : ∀ id o, s.orders.get id = some o →
    o.status = Status.PENDING ∨ o.status = Status.READY ∨ o.status = Status.VALID
  authzs : ∀ id az, s.authzs.get id = some az → az.status = Status.PENDING ∨ az.status = Status.VALID
  challenges : ∀ id ch, s.challenges.get id = some ch →
    ch.status = Status.PENDING ∨ ch.status = Status.VALID ∨ ch.status = Status.INVALID

variable {ch : ChallengeState} {accountUrl id : String} {ident : Identifier}

theorem moves_refl : StatusesMove s s :=
  ⟨movesOn_refl fun _ => .refl, movesOn_refl fun _ => .refl, movesOn_refl fun _ => .refl⟩

theorem eq_of_move_pending {a : String} (h : Relation.ReflGen ChallengeMove a Status.PENDING) :
    a = Status.PENDING := by
  rcases h with _ | h
  · rfl
  · rcases challengeMove_iff.1 h with ⟨-, h⟩ | ⟨-, h⟩
    · exact absurd h (by decide)
    · exact absurd h (by decide)

theorem moves_createOrder : StatusesMove s (createOrder srv accountUrl ident amb s) ↔
    (∀ o, s.orders.get (drawnOrder amb) = some o → o.status = Status.PENDING) ∧
    (∀ az, s.authzs.get (drawnAuthz amb) = some az → az.status = Status.PENDING) ∧
    ∀ ch, s.challenges.get (drawnChallenge amb) = some ch → ch.status = Status.PENDING := by
  constructor
  · rintro ⟨horders, hauthzs, hchallenges⟩
    refine ⟨fun o ho => ?_, fun az haz => ?_, fun ch hch => ?_⟩
    · exact eq_of_moves_pending ((movesOn_set fun _ => .refl).1 horders o ho).to_reflTransGen
    · exact eq_of_moves_pending ((movesOn_set fun _ => .refl).1 hauthzs az haz)
    · exact eq_of_move_pending ((movesOn_set fun _ => .refl).1 hchallenges ch hch)
  · rintro ⟨horders, hauthzs, hchallenges⟩
    refine ⟨(movesOn_set fun _ => .refl).2 fun o ho => ?_, (movesOn_set fun _ => .refl).2 fun az haz => ?_,
      (movesOn_set fun _ => .refl).2 fun ch hch => ?_⟩
    · rw [horders o ho]
    · rw [hauthzs az haz]
    · rw [hchallenges ch hch]

theorem setChallengeStatus_eq {status : String} (hch : s.challenges.get id = some ch) :
    setChallengeStatus id status s = { s with challenges := s.challenges.set id { ch with status } } := by
  rw [setChallengeStatus, hch]

theorem moves_failed (h : Known s) (hch : s.challenges.get id = some ch) :
    StatusesMove s (setChallengeStatus id Status.INVALID s) ↔ ch.status ≠ Status.VALID := by
  rw [setChallengeStatus_eq hch]
  constructor
  · intro hmoves hvalid
    have hmove : Relation.ReflGen ChallengeMove ch.status Status.INVALID :=
      (movesOn_set fun _ => .refl).1 hmoves.challenges ch hch
    rw [hvalid, Relation.reflGen_iff, challengeMove_iff] at hmove
    exact absurd hmove (by decide)
  · intro hne
    refine ⟨movesOn_refl fun _ => .refl, movesOn_refl fun _ => .refl,
      (movesOn_set fun _ => .refl).2 fun ch' hch' => ?_⟩
    obtain rfl := Option.some.inj (hch.symm.trans hch')
    rcases h.challenges id ch hch with hstatus | hstatus | hstatus
    · rw [hstatus]
      exact .single .invalid
    · exact absurd hstatus hne
    · rw [hstatus]

theorem moves_accepted (h : Known s) (hch : s.challenges.get id = some ch) :
    StatusesMove s (acceptChallenge id ch s) ↔ ch.status ≠ Status.INVALID ∧
      ∀ id o, s.orders.get id = some o → o.authzId = ch.authzId → o.status ≠ Status.VALID := by
  rw [acceptChallenge, setChallengeStatus_eq hch]
  constructor
  · intro hmoves
    constructor
    · intro hinvalid
      have hmove : Relation.ReflGen ChallengeMove ch.status Status.VALID :=
        (movesOn_set fun _ => .refl).1 hmoves.challenges ch hch
      rw [hinvalid, Relation.reflGen_iff, challengeMove_iff] at hmove
      exact absurd hmove (by decide)
    · intro id o ho hauthz hvalid
      have hmove := movesOn_mapValues.1 hmoves.orders id o ho
      rw [if_pos hauthz, hvalid] at hmove
      have hback : Relation.ReflGen StatusMove Status.VALID Status.READY := hmove
      rw [Relation.reflGen_iff, statusMove_iff] at hback
      exact absurd hback (by decide)
  · rintro ⟨hne, horders⟩
    refine ⟨movesOn_mapValues.2 fun id o ho => ?_, ?_, (movesOn_set fun _ => .refl).2 fun ch' hch' => ?_⟩
    · split
      · rename_i hauthz
        rcases h.orders id o ho with hstatus | hstatus | hstatus
        · rw [hstatus]
          exact .single .ready
        · rw [hstatus]
        · exact absurd hstatus (horders id o ho hauthz)
      · exact .refl
    · dsimp only
      split
      · exact movesOn_refl fun _ => .refl
      · rename_i az haz
        refine (movesOn_set fun _ => .refl).2 fun az' haz' => ?_
        obtain rfl := Option.some.inj (haz.symm.trans haz')
        rcases h.authzs _ az haz with hstatus | hstatus
        · rw [hstatus]
          exact moves_pending_valid
        · rw [hstatus]
    · obtain rfl := Option.some.inj (hch.symm.trans hch')
      rcases h.challenges id ch hch with hstatus | hstatus | hstatus
      · rw [hstatus]
        exact .single .valid
      · rw [hstatus]
      · exact absurd hstatus hne

/-- **A request keeps to the moves just when it is in order.** -/
theorem moves_booksAfter (h : Known s) : StatusesMove s (booksAfter srv s req amb) ↔ RequestInOrder srv s req amb := by
  unfold booksAfter
  split
  · rename_i hroute
    have hchall : routeOf req ≠ .chall := by simp [hroute]
    split
    · rename_i accountUrl ident hordered
      rw [moves_createOrder]
      constructor
      · exact fun hcreated => ⟨fun hr => absurd hr hchall, fun hr => absurd hr hchall, fun _ _ => hcreated⟩
      · exact fun hinOrder => hinOrder.created hroute (by rw [hordered]; rfl)
    · rename_i hnone
      exact iff_of_true moves_refl ⟨fun hr => absurd hr hchall, fun hr => absurd hr hchall, by simp [hnone]⟩
  · rename_i hroute
    have hnewOrder : routeOf req ≠ .newOrder := by simp [hroute]
    split
    · rename_i ch hresponse
      rw [moves_accepted h (responseOf_some hresponse).1]
      constructor
      · intro hpassed
        refine ⟨fun _ ch' hch' => ?_, fun _ ch' hch' => ?_, fun hr => absurd hr hnewOrder⟩
        · rw [hresponse] at hch'
          cases hch'
        · rw [hresponse] at hch'
          cases hch'
          exact hpassed
      · exact fun hinOrder => hinOrder.passed hroute ch hresponse
    · rename_i ch hresponse
      rw [moves_failed h (responseOf_some hresponse).1]
      constructor
      · intro hfailed
        refine ⟨fun _ ch' hch' => ?_, fun _ ch' hch' => ?_, fun hr => absurd hr hnewOrder⟩
        · rw [hresponse] at hch'
          cases hch'
          exact hfailed
        · rw [hresponse] at hch'
          cases hch'
      · exact fun hinOrder => hinOrder.failed hroute ch hresponse
    · rename_i hnone
      exact iff_of_true moves_refl ⟨by simp [hnone], by simp [hnone], fun hr => absurd hr hnewOrder⟩
  · rename_i hnewOrder hchall
    exact iff_of_true moves_refl
      ⟨fun hr => absurd hr hchall, fun hr => absurd hr hchall, fun hr => absurd hr hnewOrder⟩

theorem Known.created (h : Known s) : Known (createOrder srv accountUrl ident amb s) := by
  refine ⟨fun id o ho => ?_, fun id az haz => ?_, fun id ch hch => ?_⟩
  · rw [createOrder, JsMap.get_set] at ho
    split at ho
    · cases ho
      exact .inl rfl
    · exact h.orders id o ho
  · rw [createOrder, JsMap.get_set] at haz
    split at haz
    · cases haz
      exact .inl rfl
    · exact h.authzs id az haz
  · rw [createOrder, JsMap.get_set] at hch
    split at hch
    · cases hch
      exact .inl rfl
    · exact h.challenges id ch hch

theorem Known.failed (h : Known s) (hch : s.challenges.get id = some ch) :
    Known (setChallengeStatus id Status.INVALID s) := by
  rw [setChallengeStatus_eq hch]
  refine ⟨h.orders, h.authzs, fun id' ch' hch' => ?_⟩
  rw [JsMap.get_set] at hch'
  split at hch'
  · cases hch'
    exact .inr (.inr rfl)
  · exact h.challenges id' ch' hch'

theorem Known.accepted (h : Known s) (hch : s.challenges.get id = some ch) : Known (acceptChallenge id ch s) := by
  rw [acceptChallenge, setChallengeStatus_eq hch]
  refine ⟨fun id' o ho => ?_, fun id' az haz => ?_, fun id' ch' hch' => ?_⟩
  · rw [JsMap.get_mapValues, Option.map_eq_some_iff] at ho
    obtain ⟨o', ho', rfl⟩ := ho
    split
    · exact .inr (.inl rfl)
    · exact h.orders id' o' ho'
  · dsimp only at haz
    split at haz
    · exact h.authzs id' az haz
    · rw [JsMap.get_set] at haz
      split at haz
      · cases haz
        exact .inr rfl
      · exact h.authzs id' az haz
  · rw [JsMap.get_set] at hch'
    split at hch'
    · cases hch'
      exact .inr (.inl rfl)
    · exact h.challenges id' ch' hch'

theorem known_booksAfter (h : Known s) : Known (booksAfter srv s req amb) := by
  unfold booksAfter
  split
  · split
    · exact h.created
    · exact h
  · split
    · rename_i hresponse
      exact h.accepted (responseOf_some hresponse).1
    · rename_i hresponse
      exact h.failed (responseOf_some hresponse).1
    · exact h
  · exact h

theorem valid_booksAfter (h : HasStatus (booksAfter srv s req amb) orderId Status.VALID) :
    HasStatus s orderId Status.VALID := by
  obtain ⟨o, ho, hstatus⟩ := h
  unfold booksAfter at ho
  split at ho
  · split at ho
    · rw [createOrder, JsMap.get_set] at ho
      split at ho
      · cases ho
        have hpending : Status.PENDING = Status.VALID := hstatus
        exact absurd hpending (by decide)
      · exact ⟨o, ho, hstatus⟩
    · exact ⟨o, ho, hstatus⟩
  · split at ho
    · rename_i hresponse
      rw [acceptChallenge, setChallengeStatus_eq (responseOf_some hresponse).1, JsMap.get_mapValues,
        Option.map_eq_some_iff] at ho
      obtain ⟨o', ho', rfl⟩ := ho
      split at hstatus
      · have hready : Status.READY = Status.VALID := hstatus
        exact absurd hready (by decide)
      · exact ⟨o', ho', hstatus⟩
    · rename_i hresponse
      rw [setChallengeStatus_eq (responseOf_some hresponse).1] at ho
      exact ⟨o, ho, hstatus⟩
    · exact ⟨o, ho, hstatus⟩
  · exact ⟨o, ho, hstatus⟩

end Turns

/-! ### The invariant -/

/-- Where the handler of a request stands; a request that waits for a key has found its order ready. -/
inductive Stage (srv : AcmeServer) (s : AcmeState) (req : AcmeRequest) : AcmeAsync AcmeReply → Prop
  | fresh : Stage srv s req (srv.dispatch req)
  | exporting (o : OrderState) (r : Except String String)
      (begun : HasStatus s (dropStart "/finalize/" req.url) Status.READY ∨
        HasStatus s (dropStart "/finalize/" req.url) Status.VALID) :
      Stage srv s req (srv.exporting (dropStart "/finalize/" req.url) o r)
  | recording (o : OrderState) (r : Except String String) :
      Stage srv s req (srv.recording (dropStart "/finalize/" req.url) o r)
  | ended (r : Except String AcmeReply) : Stage srv s req (.done r)

/-- **The invariant**, where certificates have been issued for the `orders`. -/
structure Kept (srv : AcmeServer) (orders : List String) (w : AcmeWorld) : Prop where
  known : Known w.state
  calls : ∀ (i : ℕ) (req : AcmeRequest) (p : AcmeAsync AcmeReply), w.calls[i]? = some (req, p) →
    Stage srv w.state req p
  /-- A certificate that is not on record is of a ready order. -/
  holds : ∀ (i : ℕ) (req : AcmeRequest) (p : AcmeAsync AcmeReply) (orderId : String),
    w.calls[i]? = some (req, p) → srv.HoldsCertificate orderId p →
      HasStatus w.state orderId Status.READY ∧ orderId ∈ orders
  alone : ∀ (i j : ℕ) (req req' : AcmeRequest) (p p' : AcmeAsync AcmeReply) (orderId : String),
    w.calls[i]? = some (req, p) → w.calls[j]? = some (req', p') → srv.HoldsCertificate orderId p →
      srv.HoldsCertificate orderId p' → i = j
  issued : ∀ orderId ∈ orders, HasStatus w.state orderId Status.VALID ∨
    ∃ (i : ℕ) (req : AcmeRequest) (p : AcmeAsync AcmeReply), w.calls[i]? = some (req, p) ∧
      srv.HoldsCertificate orderId p
  valid : ∀ orderId, HasStatus w.state orderId Status.VALID → orderId ∈ orders

section Invariant

variable {srv : AcmeServer} {orders : List String} {w : AcmeWorld} {t : AcmeTurn} {i : ℕ} {req : AcmeRequest}
  {amb : ℕ → AcmeAmbient} {s s' : AcmeState} {orderId : String} {p : AcmeAsync AcmeReply}

theorem HasStatus.unique {status status' : String} (h : HasStatus s orderId status)
    (h' : HasStatus s orderId status') : status = status' := by
  obtain ⟨o, ho, rfl⟩ := h
  obtain ⟨o', ho', rfl⟩ := h'
  rw [Option.some.inj (ho.symm.trans ho')]

theorem HasStatus.valid_moved (h : HasStatus s orderId Status.VALID) (hmoves : StatusesMove s s') :
    HasStatus s' orderId Status.VALID := by
  obtain ⟨o, ho, hstatus⟩ := h
  obtain ⟨o', ho', hmove⟩ := hmoves.orders orderId o ho
  rw [hstatus, Relation.reflGen_iff, statusMove_iff] at hmove
  rcases hmove with hstatus | ⟨hp, -⟩ | ⟨hp, -⟩ | ⟨hp, -⟩
  · exact ⟨o', ho', hstatus⟩
  · exact absurd hp (by decide)
  · exact absurd hp (by decide)
  · exact absurd hp (by decide)

theorem HasStatus.ready_moved (h : HasStatus s orderId Status.READY) (hmoves : StatusesMove s s')
    (hvalid : HasStatus s' orderId Status.VALID → HasStatus s orderId Status.VALID) :
    HasStatus s' orderId Status.READY := by
  obtain ⟨o, ho, hready⟩ := h
  obtain ⟨o', ho', hmove⟩ := hmoves.orders orderId o ho
  rw [hready, Relation.reflGen_iff, statusMove_iff] at hmove
  rcases hmove with hstatus | ⟨hp, -⟩ | ⟨-, hstatus⟩ | ⟨hp, -⟩
  · exact ⟨o', ho', hstatus⟩
  · exact absurd hp (by decide)
  · have hsame := HasStatus.unique ⟨o, ho, hready⟩ (hvalid ⟨o', ho', hstatus⟩)
    exact absurd hsame (by decide)
  · exact absurd hp (by decide)

theorem Kept.quiet {calls' : List (AcmeRequest × AcmeAsync AcmeReply)} (h : Kept srv orders w)
    (hmoves : StatusesMove w.state s') (hknown : Known s')
    (hvalid : ∀ orderId, HasStatus s' orderId Status.VALID → HasStatus w.state orderId Status.VALID)
    (hcalls : ∀ (j : ℕ) req p, calls'[j]? = some (req, p) → w.calls[j]? = some (req, p) ∨
      Stage srv s' req p ∧ ∀ orderId, ¬ srv.HoldsCertificate orderId p)
    (hheld : ∀ (j : ℕ) req p orderId, w.calls[j]? = some (req, p) → srv.HoldsCertificate orderId p →
      calls'[j]? = some (req, p)) : Kept srv orders ⟨s', calls'⟩ := by
  have hold : ∀ (j : ℕ) req p orderId, calls'[j]? = some (req, p) → srv.HoldsCertificate orderId p →
      w.calls[j]? = some (req, p) := by
    intro j req p orderId hj hholds
    rcases hcalls j req p hj with hj | ⟨-, hnot⟩
    · exact hj
    · exact absurd hholds (hnot orderId)
  constructor
  · exact hknown
  · intro j req p hj
    rcases hcalls j req p hj with hj | ⟨hstage, -⟩
    · cases h.calls j req p hj with
      | fresh => exact .fresh
      | exporting o r begun =>
        refine .exporting o r (begun.imp ?_ ?_)
        · exact fun hready => hready.ready_moved hmoves (hvalid _)
        · exact fun hstatus => hstatus.valid_moved hmoves
      | recording o r => exact .recording o r
      | ended r => exact .ended r
    · exact hstage
  · intro j req p orderId hj hholds
    obtain ⟨hready, hmem⟩ := h.holds j req p orderId (hold j req p orderId hj hholds) hholds
    exact ⟨hready.ready_moved hmoves (hvalid orderId), hmem⟩
  · intro j k req req' p p' orderId hj hk hholds hholds'
    exact h.alone j k req req' p p' orderId (hold j req p orderId hj hholds)
      (hold k req' p' orderId hk hholds') hholds hholds'
  · intro orderId hmem
    rcases h.issued orderId hmem with hstatus | ⟨j, req, p, hj, hholds⟩
    · exact .inl (hstatus.valid_moved hmoves)
    · exact .inr ⟨j, req, p, hheld j req p orderId hj hholds, hholds⟩
  · exact fun orderId hstatus => h.valid orderId (hvalid orderId hstatus)

theorem Kept.quietCall {p' : AcmeAsync AcmeReply} (h : Kept srv orders w) (hi : w.calls[i]? = some (req, p))
    (hmoves : StatusesMove w.state s') (hknown : Known s')
    (hvalid : ∀ orderId, HasStatus s' orderId Status.VALID → HasStatus w.state orderId Status.VALID)
    (hp : ∀ orderId, ¬ srv.HoldsCertificate orderId p) (hstage : Stage srv s' req p')
    (hp' : ∀ orderId, ¬ srv.HoldsCertificate orderId p') : Kept srv orders ⟨s', w.calls.set i (req, p')⟩ := by
  refine h.quiet hmoves hknown hvalid (fun j req' q hj => ?_) fun j req' q orderId hj hholds => ?_
  · rcases getElem?_set_cases hi hj with ⟨rfl, heq⟩ | ⟨-, hj⟩
    · cases heq
      exact .inr ⟨hstage, hp'⟩
    · exact .inl hj
  · by_cases hji : j = i
    · subst hji
      rw [hi] at hj
      cases hj
      exact absurd hholds (hp orderId)
    · rw [List.getElem?_set_ne (Ne.symm hji)]
      exact hj

/-! ### One turn -/

theorem SameBooks.moves {s'' : AcmeState} (h : SameBooks s' s'') : StatusesMove s s'' ↔ StatusesMove s s' := by
  constructor
  · rintro ⟨horders, hauthzs, hchallenges⟩
    rw [h.orders] at horders
    rw [h.authzs] at hauthzs
    rw [h.challenges] at hchallenges
    exact ⟨horders, hauthzs, hchallenges⟩
  · rintro ⟨horders, hauthzs, hchallenges⟩
    refine ⟨?_, ?_, ?_⟩
    · rw [h.orders]
      exact horders
    · rw [h.authzs]
      exact hauthzs
    · rw [h.challenges]
      exact hchallenges

theorem SameBooks.known (h : SameBooks s s') (hs : Known s) : Known s' := by
  refine ⟨?_, ?_, ?_⟩
  · rw [h.orders]
    exact hs.orders
  · rw [h.authzs]
    exact hs.authzs
  · rw [h.challenges]
    exact hs.challenges

theorem SameBooks.hasStatus {status : String} (h : SameBooks s s') :
    HasStatus s' orderId status ↔ HasStatus s orderId status := by
  rw [HasStatus, h.orders]
  rfl

variable (srv amb) in
theorem start_turn (hi : w.calls[i]? = some (req, srv.dispatch req)) : certified w (.resume i amb) = [] ∧
    ∃ s' p', srv.step w (.resume i amb) = ⟨s', w.calls.set i (req, p')⟩ ∧
      SameBooks (booksAfter srv w.state req amb) s' ∧ ((∃ r, p' = .done r) ∨ ∃ o r,
        orderOf w.state req = some o ∧ o.status = Status.READY ∧
          p' = srv.exporting (dropStart "/finalize/" req.url) o r) := by
  have hturn := Async.advance_turn (C := fun op => ∀ request, op ≠ .ext (.issueLeaf request))
    (Q := fun p' s' => SameBooks (booksAfter srv w.state req amb) s' ∧ ((∃ r, p' = .done r) ∨ ∃ o r,
      orderOf w.state req = some o ∧ o.status = Status.READY ∧
        p' = srv.exporting (dropStart "/finalize/" req.url) o r)) (by rintro op hop request rfl; cases hop)
    (Async.turn_mono (firstTurn_books srv w.state req amb)
      (fun r _ s' h => ⟨h, .inl ⟨r, rfl⟩⟩) fun op p' s' h => ⟨h.1, h.2.1, .inr h.2.2⟩)
  exact ⟨certified_nil hi hturn.2, _, _, Pool.step_resume hi, hturn.1⟩

variable (amb) in
theorem record_turn {o : OrderState} {leaf : String}
    (hi : w.calls[i]? = some (req, srv.recording orderId o (.ok leaf))) :
    certified w (.resume i amb) = [] ∧ ∃ s' r, srv.step w (.resume i amb) = ⟨s', w.calls.set i (req, .done r)⟩ ∧
      ∃ certUrl, SameBooks (setOrderValid orderId certUrl w.state) s' := by
  have hturn := Async.advance_turn (C := fun op => ∀ request, op ≠ .ext (.issueLeaf request))
    (Q := fun p' s' => (∃ r, p' = .done r) ∧ ∃ certUrl, SameBooks (setOrderValid orderId certUrl w.state) s')
    (by rintro op hop request rfl; cases hop)
    (Async.turn_mono (turn_recording_ok srv w.state amb orderId o leaf) (fun r _ s' h => ⟨⟨r, rfl⟩, _, h⟩) fun _ _ _ hf => hf.elim)
  obtain ⟨⟨⟨r, hdone⟩, hbooks⟩, hops⟩ := hturn
  have hstep : srv.step w (.resume i amb) = _ := Pool.step_resume hi
  rw [hdone] at hstep
  exact ⟨certified_nil hi hops, _, r, hstep, hbooks⟩

variable (amb) in
theorem export_turn {o : OrderState} {subjectPub : String}
    (hi : w.calls[i]? = some (req, srv.exporting orderId o (.ok subjectPub))) :
    srv.step w (.resume i amb) = ⟨w.state, w.calls.set i (req, srv.recording orderId o (amb 2).leaf)⟩ ∧
      certified w (.resume i amb) = match (amb 2).leaf with
        | .ok _ => [dropStart "/finalize/" req.url]
        | .error _ => [] := by
  constructor
  · exact (Pool.step_resume hi).trans (by rw [turn_exporting_ok.1])
  · simp only [certified, hi, turn_exporting_ok.2]
    cases (amb 2).leaf <;> rfl

variable (srv amb) in
theorem ended_turn {r : Except String AcmeReply} (hi : w.calls[i]? = some (req, .done r)) :
    srv.step w (.resume i amb) = w ∧ certified w (.resume i amb) = [] := by
  constructor
  · have hlt : i < w.calls.length := (List.getElem?_eq_some_iff.1 hi).1
    have hget : w.calls[i] = (req, .done r) := (List.getElem?_eq_some_iff.1 hi).2
    have hstep : srv.step w (.resume i amb) = ⟨w.state, w.calls.set i (req, .done r)⟩ := Pool.step_resume hi
    rw [hstep, ← hget, List.set_getElem_self hlt]
  · simp only [certified, hi]
    rfl

/-- What one turn keeps. -/
structure TurnKept (srv : AcmeServer) (orders : List String) (w : AcmeWorld) (t : AcmeTurn) : Prop where
  kept : Kept srv (orders ++ certified w t) (srv.step w t)
  moves : StatusesMove w.state (srv.step w t).state
  fresh : ∀ orderId ∈ certified w t, orderId ∉ orders

theorem TurnKept.of_still (h : Kept srv orders w) (hstep : srv.step w t = w) (hcertified : certified w t = []) :
    TurnKept srv orders w t := by
  constructor
  · rw [hstep, hcertified, List.append_nil]
    exact h
  · rw [hstep]
    exact moves_refl
  · rw [hcertified]
    simp

theorem Kept.ended {r : Except String AcmeReply} (h : Kept srv orders w)
    (hi : w.calls[i]? = some (req, .done r)) : TurnKept srv orders w (.resume i amb) := by
  obtain ⟨hstep, hcertified⟩ := ended_turn srv amb hi
  exact .of_still h hstep hcertified

theorem Kept.start (h : Kept srv orders w) (hi : w.calls[i]? = some (req, srv.dispatch req))
    (hin : RequestInOrder srv w.state req amb) : TurnKept srv orders w (.resume i amb) := by
  obtain ⟨hcertified, s', p', hstep, hbooks, hnext⟩ := start_turn srv amb hi
  have hmoves : StatusesMove w.state s' := hbooks.moves.2 ((moves_booksAfter h.known).2 hin)
  have hvalid : ∀ orderId, HasStatus s' orderId Status.VALID → HasStatus w.state orderId Status.VALID :=
    fun orderId hstatus => valid_booksAfter (hbooks.hasStatus.1 hstatus)
  constructor
  · rw [hstep, hcertified, List.append_nil]
    refine h.quietCall hi hmoves (hbooks.known (known_booksAfter h.known)) hvalid
      (fun _ => not_holdsCertificate_dispatch) ?_ fun orderId => ?_
    · rcases hnext with ⟨r, rfl⟩ | ⟨o, r, ho, hready, rfl⟩
      · exact .ended r
      · have hfound : HasStatus w.state (dropStart "/finalize/" req.url) Status.READY := ⟨o, ho, hready⟩
        exact .exporting o r (.inl (hfound.ready_moved hmoves (hvalid _)))
    · rcases hnext with ⟨r, rfl⟩ | ⟨o, r, -, -, rfl⟩
      · exact not_holdsCertificate_done
      · exact not_holdsCertificate_exporting
  · rw [hstep]
    exact hmoves
  · rw [hcertified]
    simp

/-- A certificate is asked for. -/
theorem Kept.export {o : OrderState} {subjectPub : String} (h : Kept srv orders w)
    (hi : w.calls[i]? = some (req, srv.exporting (dropStart "/finalize/" req.url) o (.ok subjectPub)))
    (hin : ∀ orderId ∈ certified w (.resume i amb), HasStatus w.state orderId Status.READY ∧
      ∀ (i : ℕ) (req : AcmeRequest) (p : AcmeAsync AcmeReply), w.calls[i]? = some (req, p) →
        ¬ srv.HoldsCertificate orderId p) : TurnKept srv orders w (.resume i amb) := by
  obtain ⟨hstep, hcertified⟩ := export_turn amb hi
  cases hleaf : (amb 2).leaf with
  | error message =>
    rw [hleaf] at hstep hcertified
    constructor
    · rw [hstep, hcertified, List.append_nil]
      exact h.quietCall hi moves_refl h.known (fun _ => id) (fun _ => not_holdsCertificate_exporting)
        (.recording o _) fun _ => not_holdsCertificate_done
    · rw [hstep]
      exact moves_refl
    · rw [hcertified]
      simp
  | ok leaf =>
    rw [hleaf] at hstep hcertified
    have hmem : dropStart "/finalize/" req.url ∈ certified w (.resume i amb) := by
      rw [hcertified]
      exact List.mem_singleton_self _
    obtain ⟨hready, hnone⟩ := hin _ hmem
    have hlt : i < w.calls.length := (List.getElem?_eq_some_iff.1 hi).1
    have hself : srv.HoldsCertificate (dropStart "/finalize/" req.url)
        (srv.recording (dropStart "/finalize/" req.url) o (.ok leaf)) := ⟨o, leaf, rfl⟩
    have hfresh : dropStart "/finalize/" req.url ∉ orders := by
      intro hmem
      rcases h.issued _ hmem with hvalid | ⟨j, req', p', hj, hholds⟩
      · exact absurd (hready.unique hvalid) (by decide)
      · exact hnone j req' p' hj hholds
    constructor
    · rw [hstep, hcertified]
      constructor
      · exact h.known
      · intro j req' p' hj
        rcases getElem?_set_cases hi hj with ⟨rfl, heq⟩ | ⟨-, hj⟩
        · cases heq
          exact .recording o _
        · exact h.calls j req' p' hj
      · intro j req' p' orderId hj hholds
        rcases getElem?_set_cases hi hj with ⟨rfl, heq⟩ | ⟨-, hj⟩
        · cases heq
          obtain ⟨rfl, -⟩ := holdsCertificate_recording hholds
          exact ⟨hready, List.mem_append_right _ (List.mem_singleton_self _)⟩
        · obtain ⟨hstatus, hmem⟩ := h.holds j req' p' orderId hj hholds
          exact ⟨hstatus, List.mem_append_left _ hmem⟩
      · intro j k req₁ req₂ p₁ p₂ orderId hj hk hholds₁ hholds₂
        rcases getElem?_set_cases hi hj with ⟨rfl, heq⟩ | ⟨-, hj⟩
        · cases heq
          obtain ⟨rfl, -⟩ := holdsCertificate_recording hholds₁
          rcases getElem?_set_cases hi hk with ⟨rfl, -⟩ | ⟨-, hk⟩
          · rfl
          · exact absurd hholds₂ (hnone k req₂ p₂ hk)
        · have hnot : orderId = dropStart "/finalize/" req.url → False := fun heq =>
            hnone j req₁ p₁ hj (heq ▸ hholds₁)
          rcases getElem?_set_cases hi hk with ⟨rfl, heq⟩ | ⟨-, hk⟩
          · cases heq
            exact (hnot (holdsCertificate_recording hholds₂).1).elim
          · exact h.alone j k req₁ req₂ p₁ p₂ orderId hj hk hholds₁ hholds₂
      · intro orderId hmem
        rcases List.mem_append.1 hmem with hmem | hmem
        · rcases h.issued orderId hmem with hvalid | ⟨j, req', p', hj, hholds⟩
          · exact .inl hvalid
          · have hji : j ≠ i := by
              rintro rfl
              rw [hi] at hj
              cases hj
              exact not_holdsCertificate_exporting hholds
            exact .inr ⟨j, req', p', by rw [List.getElem?_set_ne (Ne.symm hji)]; exact hj, hholds⟩
        · rw [List.mem_singleton.1 hmem]
          exact .inr ⟨i, req, _, List.getElem?_set_self hlt, hself⟩
      · exact fun orderId hvalid => List.mem_append_left _ (h.valid orderId hvalid)
    · rw [hstep]
      exact moves_refl
    · rw [hcertified]
      intro orderId hmem
      rw [List.mem_singleton.1 hmem]
      exact hfresh

theorem setOrderValid_eq {certUrl : String} {o : OrderState} (ho : s.orders.get orderId = some o) :
    setOrderValid orderId certUrl s = { s with
      orders := s.orders.set orderId { o with status := Status.VALID, certificateUrl := some certUrl } } := by
  rw [setOrderValid, ho]

theorem hasStatus_setOrderValid {certUrl orderId' status : String} (hs : HasStatus s orderId status') :
    HasStatus (setOrderValid orderId certUrl s) orderId' status ↔
      if orderId' = orderId then status = Status.VALID else HasStatus s orderId' status := by
  obtain ⟨o, ho, -⟩ := hs
  rw [HasStatus, setOrderValid_eq ho, JsMap.get_set]
  split
  · constructor
    · rintro ⟨o', heq, hstatus⟩
      cases heq
      exact hstatus.symm
    · rintro rfl
      exact ⟨_, rfl, rfl⟩
  · rfl

/-- A certificate is put on record. -/
theorem Kept.record {o : OrderState} {leaf : String} (h : Kept srv orders w)
    (hi : w.calls[i]? = some (req, srv.recording orderId o (.ok leaf))) : TurnKept srv orders w (.resume i amb) := by
  obtain ⟨hcertified, s', r, hstep, certUrl, hbooks⟩ := record_turn amb hi
  obtain ⟨hready, hmem⟩ := h.holds i req _ orderId hi ⟨o, leaf, rfl⟩
  have hstatus : ∀ orderId' status, HasStatus s' orderId' status ↔
      if orderId' = orderId then status = Status.VALID else HasStatus w.state orderId' status := by
    intro orderId' status
    rw [hbooks.hasStatus, hasStatus_setOrderValid hready]
  -- the other calls are as they were, and hold the certificates of other orders
  have hother : ∀ (j : ℕ) req' p' orderId', (w.calls.set i (req, .done r))[j]? = some (req', p') →
      srv.HoldsCertificate orderId' p' → w.calls[j]? = some (req', p') ∧ orderId' ≠ orderId := by
    intro j req' p' orderId' hj hholds
    rcases getElem?_set_cases hi hj with ⟨rfl, heq⟩ | ⟨hji, hj⟩
    · cases heq
      exact absurd hholds not_holdsCertificate_done
    · refine ⟨hj, ?_⟩
      rintro rfl
      exact hji (h.alone j i req' req p' _ orderId' hj hi hholds ⟨o, leaf, rfl⟩)
  obtain ⟨o', ho', hstatus'⟩ := hready
  have hmoves : StatusesMove w.state s' := by
    rw [hbooks.moves, setOrderValid_eq ho']
    refine ⟨(movesOn_set fun _ => .refl).2 fun o'' ho'' => ?_, movesOn_refl fun _ => .refl,
      movesOn_refl fun _ => .refl⟩
    obtain rfl := Option.some.inj (ho'.symm.trans ho'')
    rw [hstatus']
    exact .single .valid
  have hknown : Known s' := by
    refine hbooks.known ?_
    rw [setOrderValid_eq ho']
    refine ⟨fun id o'' ho'' => ?_, h.known.authzs, h.known.challenges⟩
    rw [JsMap.get_set] at ho''
    split at ho''
    · cases ho''
      exact .inr (.inr rfl)
    · exact h.known.orders id o'' ho''
  constructor
  · rw [hstep, hcertified, List.append_nil]
    constructor
    · exact hknown
    · intro j req' p' hj
      rcases getElem?_set_cases hi hj with ⟨rfl, heq⟩ | ⟨-, hj⟩
      · cases heq
        exact .ended r
      · cases h.calls j req' p' hj with
        | fresh => exact .fresh
        | exporting o r begun =>
          refine .exporting o r ?_
          rw [hstatus, hstatus]
          split
          · exact .inr rfl
          · exact begun
        | recording o r => exact .recording o r
        | ended r => exact .ended r
    · intro j req' p' orderId' hj hholds
      obtain ⟨hj, hne⟩ := hother j req' p' orderId' hj hholds
      rw [hstatus, if_neg hne]
      exact h.holds j req' p' orderId' hj hholds
    · intro j k req₁ req₂ p₁ p₂ orderId' hj hk hholds₁ hholds₂
      exact h.alone j k req₁ req₂ p₁ p₂ orderId' (hother j req₁ p₁ orderId' hj hholds₁).1
        (hother k req₂ p₂ orderId' hk hholds₂).1 hholds₁ hholds₂
    · intro orderId' hmem'
      by_cases heq : orderId' = orderId
      · exact .inl ((hstatus orderId' Status.VALID).2 (by rw [if_pos heq]))
      · rcases h.issued orderId' hmem' with hvalid | ⟨j, req', p', hj, hholds⟩
        · exact .inl ((hstatus orderId' Status.VALID).2 (by rw [if_neg heq]; exact hvalid))
        · have hji : j ≠ i := by
            rintro rfl
            rw [hi] at hj
            cases hj
            exact heq (holdsCertificate_recording hholds).1
          exact .inr ⟨j, req', p', by rw [List.getElem?_set_ne (Ne.symm hji)]; exact hj, hholds⟩
    · intro orderId' hvalid
      by_cases heq : orderId' = orderId
      · rw [heq]
        exact hmem
      · rw [hstatus, if_neg heq] at hvalid
        exact h.valid orderId' hvalid
  · rw [hstep]
    exact hmoves
  · rw [hcertified]
    simp

/-- **A turn in order keeps the invariant**, and has a certificate issued for no order that has one. -/
theorem Kept.step (h : Kept srv orders w) (hin : InOrder srv w t) : TurnKept srv orders w t := by
  cases t with
  | start c =>
    constructor
    · rw [show certified w (.start c) = [] from rfl, List.append_nil]
      refine h.quiet moves_refl h.known (fun _ => id) (fun j req p hj => ?_) fun j req p orderId hj _ => ?_
      · rcases getElem?_snoc_cases hj with ⟨-, heq⟩ | hj
        · cases heq
          exact .inr ⟨.fresh, fun _ => not_holdsCertificate_dispatch⟩
        · exact .inl hj
      · have hlt : j < w.calls.length := (List.getElem?_eq_some_iff.1 hj).1
        rw [List.getElem?_append_left hlt]
        exact hj
    · exact moves_refl
    · rintro orderId ⟨⟩
  | resume i amb =>
    cases hi : w.calls[i]? with
    | none =>
      exact TurnKept.of_still h (Pool.step_resume_none hi) (by simp only [certified, hi])
    | some c =>
      obtain ⟨req, p⟩ := c
      cases h.calls i req p hi with
      | fresh => exact h.start hi (hin.request i req amb ⟨rfl, hi⟩)
      | exporting o r begun =>
        cases r with
        | error message => exact h.ended hi
        | ok subjectPub => exact h.export hi hin.certificate
      | recording o r =>
        cases r with
        | error message => exact h.ended hi
        | ok leaf => exact h.record hi
      | ended r => exact h.ended hi

theorem Kept.certified_cases (h : Kept srv orders w) :
    certified w t = [] ∨ ∃ orderId, certified w t = [orderId] ∧
      (HasStatus w.state orderId Status.READY ∨ HasStatus w.state orderId Status.VALID) := by
  cases t with
  | start c => exact .inl rfl
  | resume i amb =>
    cases hi : w.calls[i]? with
    | none => exact .inl (by simp only [certified, hi])
    | some c =>
      obtain ⟨req, p⟩ := c
      cases h.calls i req p hi with
      | fresh => exact .inl (start_turn srv amb hi).1
      | exporting o r begun =>
        cases r with
        | error message => exact .inl (ended_turn srv amb hi).2
        | ok subjectPub =>
          have hcertified := (export_turn amb hi).2
          cases hleaf : (amb 2).leaf with
          | error message =>
            rw [hleaf] at hcertified
            exact .inl hcertified
          | ok leaf =>
            rw [hleaf] at hcertified
            exact .inr ⟨_, hcertified, begun⟩
      | recording o r =>
        cases r with
        | error message => exact .inl (ended_turn srv amb hi).2
        | ok leaf => exact .inl (record_turn amb hi).1
      | ended r => exact .inl (ended_turn srv amb hi).2

/-- **A turn that keeps to the moves, and has a certificate issued for no order that has one, is in
order.** -/
theorem Kept.inOrder (h : Kept srv orders w) (hmoves : StatusesMove w.state (srv.step w t).state)
    (hfresh : ∀ orderId ∈ certified w t, orderId ∉ orders) : InOrder srv w t := by
  constructor
  · rintro i req amb ⟨rfl, hi⟩
    obtain ⟨-, s', p', hstep, hbooks, -⟩ := start_turn srv amb hi
    rw [hstep] at hmoves
    exact (moves_booksAfter h.known).1 (hbooks.moves.1 hmoves)
  · intro orderId hmem
    refine ⟨?_, fun j req' p' hj hholds => hfresh orderId hmem (h.holds j req' p' orderId hj hholds).2⟩
    rcases h.certified_cases (t := t) with hnil | ⟨orderId', hone, hstatus⟩
    · rw [hnil] at hmem
      cases hmem
    · have hself : orderId = orderId' := by
        rw [hone] at hmem
        exact List.mem_singleton.1 hmem
      subst hself
      rcases hstatus with hready | hvalid
      · exact hready
      · exact absurd (h.valid orderId hvalid) (hfresh orderId hmem)

theorem kept_idle : Kept srv [] .idle := by
  have hnone : ∀ (i : ℕ) (c : AcmeRequest × AcmeAsync AcmeReply), AcmeWorld.idle.calls[i]? = some c → False := by
    intro i c hi
    cases hi
  refine ⟨⟨?_, ?_, ?_⟩, fun i req p hi => (hnone i _ hi).elim, fun i req p _ hi => (hnone i _ hi).elim,
    fun i _ req _ p _ _ hi => (hnone i _ hi).elim, ?_, ?_⟩
  · rintro id o ⟨⟩
  · rintro id az ⟨⟩
  · rintro id ch ⟨⟩
  · rintro orderId ⟨⟩
  · rintro orderId ⟨o, ⟨⟩, -⟩

end Invariant

/-- **The lifecycle**: in each turn the statuses only move on, and each order is finalised at most once. -/
structure KeepsLifecycle (srv : AcmeServer) (es : List AcmeTurn) : Prop where
  moves : Along srv.step (fun w t => StatusesMove w.state (srv.step w t).state) .idle es
  once : (srv.finalised es).Nodup

theorem finalised_snoc (srv : AcmeServer) (es : List AcmeTurn) (t : AcmeTurn) :
    srv.finalised (es ++ [t]) = srv.finalised es ++ certified (srv.after es) t := noted_snoc

theorem kept_run {srv : AcmeServer} {es : List AcmeTurn} (h : Along srv.step (InOrder srv) .idle es) :
    Kept srv (srv.finalised es) (srv.after es) := by
  induction es using List.reverseRecOn with
  | nil => exact kept_idle
  | append_singleton es t ih =>
    obtain ⟨hes, ht⟩ := along_snoc.1 h
    rw [finalised_snoc, after_snoc]
    exact ((ih hes).step ht).kept

/-- **The lifecycle is kept in the runs whose turns are in order**, and in no others. -/
theorem lifecycle_iff_in_order (srv : AcmeServer) (es : List AcmeTurn) :
    KeepsLifecycle srv es ↔ Along srv.step (InOrder srv) .idle es := by
  induction es using List.reverseRecOn with
  | nil => exact iff_of_true ⟨along_nil, List.nodup_nil⟩ along_nil
  | append_singleton es t ih =>
    constructor
    · rintro ⟨hmoves, honce⟩
      obtain ⟨hmoves, hmove⟩ := along_snoc.1 hmoves
      rw [finalised_snoc, List.nodup_append] at honce
      obtain ⟨honce, -, hdisjoint⟩ := honce
      have hes := ih.1 ⟨hmoves, honce⟩
      refine along_snoc.2 ⟨hes, (kept_run hes).inOrder hmove fun orderId hnew hold => ?_⟩
      exact hdisjoint orderId hold orderId hnew rfl
    · intro h
      obtain ⟨hes, ht⟩ := along_snoc.1 h
      have hkept : Kept srv (srv.finalised es) (srv.after es) := kept_run hes
      obtain ⟨hmoves, honce⟩ := ih.2 hes
      have hturn := hkept.step ht
      refine ⟨along_snoc.2 ⟨hmoves, hturn.moves⟩, ?_⟩
      rw [finalised_snoc, List.nodup_append]
      refine ⟨honce, ?_, fun orderId hold orderId' hnew heq => hturn.fresh orderId' hnew (heq ▸ hold)⟩
      rcases hkept.certified_cases (t := t) with hnil | ⟨orderId, hone, -⟩
      · rw [hnil]
        exact List.nodup_nil
      · rw [hone]
        exact List.nodup_singleton orderId

/-! ### An order that is finalised twice -/

def anySigner : AcmeServer :=
  { sampleServer with
    ed25519Verify := fun signature message key => .ok (decide (signature = key ++ "!" ++ message)) }

/-- The account `acc-a` is created, and an order by it; it answers the challenge, and has the nonce `c`. -/
def readyTurns : List AcmeTurn :=
  [.start { method := "HEAD", url := "/new-nonce", body := .null }, .resume 0 (drawing "n"),
    .start (post "/new-account" "n jwk ka" "" "ka"), .resume 1 (drawing "a"),
    .start (post "/new-order" "a kid /account/acc-a" "order urn:nps:agent:x:1" "ka"), .resume 2 (drawing "tok"),
    .start (post "/chall/ch-tok" "tok kid /account/acc-a" "agent ka!tok" "ka"), .resume 3 (drawing "c")]

def atOnce : List AcmeTurn := readyTurns ++
  [.start { method := "HEAD", url := "/new-nonce", body := .null }, .resume 4 (drawing "d"),
    .start (post "/finalize/ord-tok" "c kid /account/acc-a" "csr urn:nps:agent:x:1" "ka"),
    .start (post "/finalize/ord-tok" "d kid /account/acc-a" "csr urn:nps:agent:x:1" "ka"),
    .resume 5 (drawing "e"), .resume 6 (drawing "f"), .resume 5 (drawing "g"), .resume 6 (drawing "h")]

/-- The order is finalised, and then the challenge answered once more. -/
def afterwards : List AcmeTurn := readyTurns ++
  [.start (post "/finalize/ord-tok" "c kid /account/acc-a" "csr urn:nps:agent:x:1" "ka"),
    .resume 4 (drawing "d"), .resume 4 (drawing "e"), .resume 4 (drawing "f"),
    .start (post "/chall/ch-tok" "f kid /account/acc-a" "agent ka!tok" "ka")]

/-- Two certificates are issued for one order; and an order leaves its terminal status. -/
theorem order_finalised_twice : anySigner.finalised atOnce = ["ord-tok", "ord-tok"] ∧
    ¬ KeepsLifecycle anySigner atOnce ∧
    HasStatus (anySigner.after afterwards).state "ord-tok" Status.VALID ∧
    HasStatus (anySigner.after (afterwards ++ [.resume 5 (drawing "g")])).state "ord-tok" Status.READY ∧
    ¬ KeepsLifecycle anySigner (afterwards ++ [.resume 5 (drawing "g")]) := by
  have htwice : anySigner.finalised atOnce = ["ord-tok", "ord-tok"] := by decide
  have hvalid : HasStatus (anySigner.after afterwards).state "ord-tok" Status.VALID :=
    Option.map_eq_some_iff.1 (by decide)
  have hready :
      HasStatus (anySigner.after (afterwards ++ [.resume 5 (drawing "g")])).state "ord-tok" Status.READY :=
    Option.map_eq_some_iff.1 (by decide)
  refine ⟨htwice, fun h => ?_, hvalid, hready, fun h => ?_⟩
  · have honce := h.once
    rw [htwice] at honce
    exact absurd honce (by decide)
  · have hmoves := (along_snoc.1 h.moves).2
    rw [after_snoc] at hready
    exact absurd ((hvalid.valid_moved hmoves).unique hready) (by decide)

end NpsSdk.Nip.Acme
