import Mathlib.Data.List.Infix
import NpsSdk.Nip.Acme.Turns

/-!
# Orders and their accounts

Orders and challenges record the account that created them, but the handlers only check that *some*
account signed the request.  Where each challenge is answered, and each ready order finalized, by the
account recorded in it, a certificate is issued for an order only after its account has answered its
challenge, and on its account's own request.
-/

namespace NpsSdk.Nip.Acme

open NpsSdk.Lib NpsSdk.Nip.X509 AcmeServer

/-! ### What an account has done -/

def Unforgeable (srv : AcmeServer) (signs : (key text : String) → Prop) : Prop :=
  ∀ signature text key, srv.ed25519Verify signature text key = .ok true → signs key text

section Binding

variable (srv : AcmeServer) (signs : (key text : String) → Prop)

def SentBy (s : AcmeState) (req : AcmeRequest) (account key : String) : Prop :=
  ∃ env header, Authentic srv s req env header key ∧ header.kid.getD "" = account ∧
    signs key (Jws.signingInput env)

/-- In a turn of `es` the account created the order. -/
def CreatedBy (es : List AcmeTurn) (orderId account : String) : Prop :=
  ∃ pre t post i req amb key, es = pre ++ t :: post ∧ Starts srv (srv.after pre) t i req amb ∧
    routeOf req = .newOrder ∧ drawnOrder amb = orderId ∧
    SentBy srv signs (srv.after pre).state req account key

/-- In a turn of `es` the account answered a challenge of the authorisation: its key has signed the
token. -/
def AnsweredBy (es : List AcmeTurn) (authzId account : String) : Prop :=
  ∃ pre t post i req amb ch key, es = pre ++ t :: post ∧ Starts srv (srv.after pre) t i req amb ∧
    routeOf req = .chall ∧ challengeOf (srv.after pre).state req = some ch ∧ ch.authzId = authzId ∧
    SentBy srv signs (srv.after pre).state req account key ∧ signs key ch.token

/-- In a turn of `es` the `i`-th request was found to finalize the order `o`, sent by the account that
had created the order and had answered its challenge. -/
def FinalizedBy (es : List AcmeTurn) (i : ℕ) (req : AcmeRequest) (o : OrderState) : Prop :=
  ∃ pre t post amb key, es = pre ++ t :: post ∧ Starts srv (srv.after pre) t i req amb ∧
    routeOf req = .finalize ∧ orderOf (srv.after pre).state req = some o ∧
    CreatedBy srv signs pre o.id o.accountUrl ∧ AnsweredBy srv signs pre o.authzId o.accountUrl ∧
    SentBy srv signs (srv.after pre).state req o.accountUrl key

/-- **The binding**: a certificate issued in the turn `t` after the turns `pre` is the certificate of
an order whose own account did all this. -/
def BoundToOwner (pre : List AcmeTurn) (t : AcmeTurn) : Prop :=
  ∀ i req request, Issues (srv.after pre) t i req request →
    ∃ o, FinalizedBy srv signs pre i req o ∧ request.subjectNid = o.identifier.value

end Binding

def ActsAsOwner (srv : AcmeServer) (w : AcmeWorld) (t : AcmeTurn) : Prop :=
  ∀ i req amb env header key, Starts srv w t i req amb → Authentic srv w.state req env header key →
    (routeOf req = .chall → ∀ ch, challengeOf w.state req = some ch → SignsToken srv env ch.token key →
      header.kid.getD "" = ch.accountUrl) ∧
    (routeOf req = .finalize → ∀ o, orderOf w.state req = some o → o.status = Status.READY →
      header.kid.getD "" = o.accountUrl)

def DrawsFreshAuthz (srv : AcmeServer) (w : AcmeWorld) (t : AcmeTurn) : Prop :=
  ∀ i req amb, Starts srv w t i req amb → routeOf req = .newOrder →
    (∀ id o, w.state.orders.get id = some o → o.authzId ≠ drawnAuthz amb) ∧
    ∀ id ch, w.state.challenges.get id = some ch → ch.authzId ≠ drawnAuthz amb

/-! ### The invariant -/

section Invariant

variable {srv : AcmeServer} {signs : (key text : String) → Prop} {es : List AcmeTurn} {t : AcmeTurn}
  {i : ℕ} {req : AcmeRequest} {amb : ℕ → AcmeAmbient} {s s' : AcmeState}

theorem CreatedBy.snoc {orderId account : String} (h : CreatedBy srv signs es orderId account) :
    CreatedBy srv signs (es ++ [t]) orderId account := by
  obtain ⟨pre, t', post, i, req, amb, key, rfl, h⟩ := h
  exact ⟨pre, t', post ++ [t], i, req, amb, key, by simp, h⟩

theorem AnsweredBy.snoc {authzId account : String} (h : AnsweredBy srv signs es authzId account) :
    AnsweredBy srv signs (es ++ [t]) authzId account := by
  obtain ⟨pre, t', post, i, req, amb, ch, key, rfl, h⟩ := h
  exact ⟨pre, t', post ++ [t], i, req, amb, ch, key, by simp, h⟩

theorem FinalizedBy.snoc {o : OrderState} (h : FinalizedBy srv signs es i req o) :
    FinalizedBy srv signs (es ++ [t]) i req o := by
  obtain ⟨pre, t', post, amb, key, rfl, h⟩ := h
  exact ⟨pre, t', post ++ [t], amb, key, by simp, h⟩

theorem Authentic.sentBy {env : Envelope} {header : ProtectedHeader} {key : String}
    (h : Authentic srv s req env header key) (hunf : Unforgeable srv signs) :
    SentBy srv signs s req (header.kid.getD "") key := by
  refine ⟨env, header, h, rfl, hunf env.signature _ _ ?_⟩
  have hv := h.verified
  unfold Jws.verify at hv
  split at hv
  · assumption
  · cases hv

/-- **The invariant** of the orders and the challenges. -/
structure Books (srv : AcmeServer) (signs : (key text : String) → Prop) (es : List AcmeTurn)
    (s : AcmeState) : Prop where
  created : ∀ id o, s.orders.get id = some o → CreatedBy srv signs es o.id o.accountUrl
  /-- The orders and the challenges of an authorisation have one account. -/
  linked : ∀ id o cid ch, s.orders.get id = some o → s.challenges.get cid = some ch →
    ch.authzId = o.authzId → ch.accountUrl = o.accountUrl
  answered : ∀ id o, s.orders.get id = some o → o.status = Status.READY →
    AnsweredBy srv signs es o.authzId o.accountUrl

theorem Books.snoc (h : Books srv signs es s) : Books srv signs (es ++ [t]) s :=
  ⟨fun id o ho => (h.created id o ho).snoc, h.linked, fun id o ho hr => (h.answered id o ho hr).snoc⟩

theorem Books.same (h : Books srv signs es s) (hs : Same s s') : Books srv signs es s' := by
  obtain ⟨ho, hc⟩ := hs
  exact ⟨by rw [ho]; exact h.created, by rw [ho, hc]; exact h.linked, by rw [ho]; exact h.answered⟩

theorem Books.recorded {orderId : String} (h : Books srv signs es s) (hs : Recorded orderId s s') :
    Books srv signs es s' := by
  obtain ⟨hc, ho | ⟨o, certUrl, ho, hset⟩⟩ := hs
  · exact h.same ⟨ho, hc⟩
  constructor
  · intro id o' ho'
    rw [hset, JsMap.get_set] at ho'
    split at ho'
    · cases ho'
      exact h.created orderId o ho
    · exact h.created id o' ho'
  · intro id o' cid ch ho' hch
    rw [hc] at hch
    rw [hset, JsMap.get_set] at ho'
    split at ho'
    · cases ho'
      exact h.linked orderId o cid ch ho hch
    · exact h.linked id o' cid ch ho' hch
  · intro id o' ho' hready
    rw [hset, JsMap.get_set] at ho'
    split at ho'
    · cases ho'
      have hvalid : Status.VALID = Status.READY := hready
      exact absurd hvalid (by decide)
    · exact h.answered id o' ho' hready

/-- **The first turn of a request keeps the invariant.** -/
theorem Books.effect (h : Books srv signs es (srv.after es).state)
    (hstart : Starts srv (srv.after es) t i req amb) (hunf : Unforgeable srv signs)
    (hfresh : DrawsFreshAuthz srv (srv.after es) t) (howner : ActsAsOwner srv (srv.after es) t)
    (he : Effect srv (srv.after es).state req amb s') : Books srv signs (es ++ [t]) s' := by
  have hfresh := hfresh i req amb hstart
  cases he with
  | quiet same => exact (h.same same).snoc
  | failed ch status found orders challenges =>
    constructor
    · intro id o ho
      rw [orders] at ho
      exact (h.created id o ho).snoc
    · intro id o cid ch' ho hch'
      rw [orders] at ho
      rw [challenges, JsMap.get_set] at hch'
      split at hch'
      · cases hch'
        exact h.linked id o _ ch ho found
      · exact h.linked id o cid ch' ho hch'
    · intro id o ho hready
      rw [orders] at ho
      exact (h.answered id o ho hready).snoc
  | created env header key orderId challId o ch route authentic orders challenges id status authz owner
      same account =>
    obtain ⟨hnoOrder, hnoChallenge⟩ := hfresh route
    constructor
    · intro id' o' ho'
      rw [orders, JsMap.get_set] at ho'
      split at ho'
      · cases ho'
        refine ⟨es, t, [], i, req, amb, key, rfl, hstart, route, id.symm, ?_⟩
        rw [owner]
        exact authentic.sentBy hunf
      · exact (h.created id' o' ho').snoc
    · intro id' o' cid ch' ho' hch' heq
      rw [orders, JsMap.get_set] at ho'
      rw [challenges, JsMap.get_set] at hch'
      split at ho' <;> split at hch'
      · cases ho'
        cases hch'
        exact account
      · cases ho'
        exact absurd (heq.trans authz) (hnoChallenge cid ch' hch')
      · cases hch'
        exact absurd (heq.symm.trans (same.trans authz)) (hnoOrder id' o' ho')
      · exact h.linked id' o' cid ch' ho' hch' heq
    · intro id' o' ho' hready
      rw [orders, JsMap.get_set] at ho'
      split at ho'
      · cases ho'
        rw [status] at hready
        exact absurd hready (by decide)
      · exact (h.answered id' o' ho' hready).snoc
  | answered env header key ch route found authentic token orders challenges =>
    have hkid : header.kid.getD "" = ch.accountUrl :=
      (howner i req amb env header key hstart authentic).1 route ch found token
    have hanswered : AnsweredBy srv signs (es ++ [t]) ch.authzId ch.accountUrl := by
      obtain ⟨payload, signature, -, -, hv⟩ := token
      exact ⟨es, t, [], i, req, amb, ch, key, rfl, hstart, route, found, rfl,
        hkid ▸ authentic.sentBy hunf, hunf signature _ _ hv⟩
    -- an order of the new state is one of the old state, but for its status
    have hold : ∀ id o', s'.orders.get id = some o' → ∃ o,
        (srv.after es).state.orders.get id = some o ∧ o'.id = o.id ∧ o'.accountUrl = o.accountUrl ∧
          o'.authzId = o.authzId ∧ (o'.status = o.status ∨ o.authzId = ch.authzId) := by
      intro id o' ho'
      rw [orders, JsMap.get_mapValues, Option.map_eq_some_iff] at ho'
      obtain ⟨o, ho, rfl⟩ := ho'
      refine ⟨o, ho, ?_⟩
      split
      · exact ⟨rfl, rfl, rfl, .inr ‹_›⟩
      · exact ⟨rfl, rfl, rfl, .inl rfl⟩
    constructor
    · intro id o' ho'
      obtain ⟨o, ho, hid, haccount, -⟩ := hold id o' ho'
      rw [hid, haccount]
      exact (h.created id o ho).snoc
    · intro id o' cid ch' ho' hch' heq
      obtain ⟨o, ho, -, haccount, hauthz, -⟩ := hold id o' ho'
      rw [hauthz] at heq
      rw [haccount]
      rw [challenges, JsMap.get_set] at hch'
      split at hch'
      · cases hch'
        exact h.linked id o _ ch ho found heq
      · exact h.linked id o cid ch' ho hch' heq
    · intro id o' ho' hready
      obtain ⟨o, ho, -, haccount, hauthz, hstatus⟩ := hold id o' ho'
      rw [haccount, hauthz]
      rcases hstatus with hstatus | hsame
      · exact (h.answered id o ho (hstatus ▸ hready)).snoc
      · rw [hsame, ← h.linked id o _ ch ho found hsame.symm]
        exact hanswered

/-- Where the handler of a request stands. -/
inductive Phase (srv : AcmeServer) (signs : (key text : String) → Prop) (es : List AcmeTurn) (i : ℕ)
    (req : AcmeRequest) : AcmeAsync AcmeReply → Prop
  | fresh : Phase srv signs es i req (srv.dispatch req)
  | exporting (o : OrderState) {p : AcmeAsync AcmeReply} (finalized : FinalizedBy srv signs es i req o)
      (next : Exporting o.identifier.value (dropStart "/finalize/" req.url) p) : Phase srv signs es i req p
  | recording {p : AcmeAsync AcmeReply} (next : Recording (dropStart "/finalize/" req.url) p) :
      Phase srv signs es i req p
  | ended (r : Except String AcmeReply) : Phase srv signs es i req (.done r)

theorem Phase.snoc {p : AcmeAsync AcmeReply} (h : Phase srv signs es i req p) :
    Phase srv signs (es ++ [t]) i req p := by
  cases h with
  | fresh => exact .fresh
  | exporting o finalized next => exact .exporting o finalized.snoc next
  | recording next => exact .recording next
  | ended r => exact .ended r

/-- A request in flight issues nothing but the certificate of an order that its account has
finalized. -/
def IssuesBound (srv : AcmeServer) (signs : (key text : String) → Prop) (es : List AcmeTurn) (i : ℕ)
    (req : AcmeRequest) (o : StateOp AcmeState AcmeExt) : Prop :=
  ∀ request, o = .ext (.issueLeaf request) →
    ∃ order, FinalizedBy srv signs es i req order ∧ request.subjectNid = order.identifier.value

theorem issuesBound_of_not_waits {o : StateOp AcmeState AcmeExt} (h : acmeWaits o = false) :
    IssuesBound srv signs es i req o := by
  rintro request rfl
  cases h

/-- **One turn of one request**: it keeps the invariant, and issues only what it may. -/
theorem Phase.advance {p : AcmeAsync AcmeReply} (hp : Phase srv signs es i req p)
    (hbooks : Books srv signs es (srv.after es).state) (hunf : Unforgeable srv signs)
    (hcall : (srv.after es).calls[i]? = some (req, p)) (hfresh : DrawsFreshAuthz srv (srv.after es) (.resume i amb))
    (howner : ActsAsOwner srv (srv.after es) (.resume i amb)) :
    (Phase srv signs (es ++ [.resume i amb]) i req (p.advance acmeExec acmeWaits amb (srv.after es).state).1 ∧
      Books srv signs (es ++ [.resume i amb]) (p.advance acmeExec acmeWaits amb (srv.after es).state).2) ∧
    ∀ o ∈ p.turnOps acmeExec acmeWaits amb (srv.after es).state, IssuesBound srv signs es i req o := by
  refine Async.advance_turn (Q := fun p' s' => Phase srv signs (es ++ [.resume i amb]) i req p' ∧
    Books srv signs (es ++ [.resume i amb]) s') (fun o => issuesBound_of_not_waits) ?_
  cases hp with
  | fresh =>
    have hstart : Starts srv (srv.after es) (.resume i amb) i req amb := ⟨rfl, hcall⟩
    refine Async.turn_mono firstTurn_dispatch (fun r _ s' he => ?_) fun o p' s' hb => ?_
    · exact ⟨.ended r, hbooks.effect hstart hunf hfresh howner he⟩
    · obtain ⟨hno, hsame, hroute, order, env, header, key, hfound, hready, hauth, hexp⟩ := hb
      have hkid : header.kid.getD "" = order.accountUrl :=
        (howner i req amb env header key hstart hauth).2 hroute order hfound hready
      have hfinalized : FinalizedBy srv signs (es ++ [.resume i amb]) i req order :=
        ⟨es, .resume i amb, [], amb, key, rfl, hstart, hroute, hfound, hbooks.created _ _ hfound,
          hbooks.answered _ _ hfound hready, hkid ▸ hauth.sentBy hunf⟩
      exact ⟨fun request heq => absurd heq (hno request), .exporting order hfinalized hexp, (hbooks.same hsame).snoc⟩
  | exporting order finalized next =>
    refine Async.turn_mono (next amb _) (fun r _ s' hs => ?_) fun o p' s' ho => ?_
    · exact ⟨.ended r, (hbooks.same hs).snoc⟩
    · obtain ⟨hsubject, hsame, hrec⟩ := ho
      exact ⟨fun request heq => ⟨order, finalized, hsubject request heq⟩, .recording hrec, (hbooks.same hsame).snoc⟩
  | recording next =>
    exact Async.turn_mono (next amb _) (fun r _ s' hs => ⟨.ended r, (hbooks.recorded hs).snoc⟩)
      fun _ _ _ hf => hf.elim
  | ended r => exact ⟨.ended r, hbooks.snoc⟩

/-- **The invariant** of the server. -/
structure Bound (srv : AcmeServer) (signs : (key text : String) → Prop) (es : List AcmeTurn) : Prop where
  books : Books srv signs es (srv.after es).state
  calls : ∀ i req p, (srv.after es).calls[i]? = some (req, p) → Phase srv signs es i req p

theorem bound_nil : Bound srv signs [] := by
  have hnone : ∀ (i : ℕ) (c : AcmeRequest × AcmeAsync AcmeReply), (srv.after []).calls[i]? = some c → False := by
    intro i c h
    cases h
  refine ⟨⟨?_, ?_, ?_⟩, fun i req p h => (hnone i _ h).elim⟩
  · intro id o ho
    cases ho
  · intro id o cid ch ho
    cases ho
  · intro id o ho
    cases ho

/-- **One turn keeps the invariant.** -/
theorem Bound.step (h : Bound srv signs es) (hunf : Unforgeable srv signs)
    (hfresh : DrawsFreshAuthz srv (srv.after es) t) (howner : ActsAsOwner srv (srv.after es) t) :
    Bound srv signs (es ++ [t]) := by
  have hafter := after_snoc srv es t
  cases t with
  | start c =>
    have hstep : srv.after (es ++ [.start c]) =
        ⟨(srv.after es).state, (srv.after es).calls ++ [(c, srv.dispatch c)]⟩ := hafter
    constructor
    · rw [hstep]
      exact h.books.snoc
    · intro i req p hi
      rw [hstep, List.getElem?_append] at hi
      split at hi
      · exact (h.calls i req p hi).snoc
      · rw [List.getElem?_singleton] at hi
        split at hi
        · cases hi
          exact .fresh
        · cases hi
  | resume i amb =>
    cases hi : (srv.after es).calls[i]? with
    | none =>
      have hstep : srv.after (es ++ [.resume i amb]) = srv.after es :=
        hafter.trans (Pool.step_resume_none hi)
      refine ⟨hstep ▸ h.books.snoc, fun j req p hj => ?_⟩
      rw [hstep] at hj
      exact (h.calls j req p hj).snoc
    | some c =>
      obtain ⟨req, p⟩ := c
      have hstep := hafter.trans (Pool.step_resume hi)
      obtain ⟨⟨hphase, hbooks⟩, -⟩ := (h.calls i req p hi).advance h.books hunf hi hfresh howner
      constructor
      · rw [hstep]
        exact hbooks
      · intro j req' p' hj
        rw [hstep, List.getElem?_set] at hj
        split at hj
        · split at hj
          · cases hj
            subst i
            exact hphase
          · cases hj
        · exact (h.calls j req' p' hj).snoc

theorem bound_run (hunf : Unforgeable srv signs) (hfresh : Along srv.step (DrawsFreshAuthz srv) .idle es)
    (howner : Along srv.step (ActsAsOwner srv) .idle es) : Bound srv signs es := by
  induction es using List.reverseRecOn with
  | nil => exact bound_nil
  | append_singleton es t ih =>
    obtain ⟨hfresh, hfresh'⟩ := along_snoc.1 hfresh
    obtain ⟨howner, howner'⟩ := along_snoc.1 howner
    exact (ih hfresh howner).step hunf hfresh' howner'

end Invariant

/-- **A certificate is bound to the account of its order**: in every run in which each challenge is
answered and each ready order finalized by the account recorded in it, a certificate is issued only for
an order whose account has created it, has answered its challenge and has sent the request. -/
theorem certificate_bound_to_owner (srv : AcmeServer) (signs : (key text : String) → Prop)
    (hunf : Unforgeable srv signs) (es : List AcmeTurn)
    (hfresh : Along srv.step (DrawsFreshAuthz srv) .idle es)
    (howner : Along srv.step (ActsAsOwner srv) .idle es) (pre : List AcmeTurn) (t : AcmeTurn)
    (post : List AcmeTurn) (hes : es = pre ++ t :: post) : BoundToOwner srv signs pre t := by
  obtain ⟨hfresh, hfresh'⟩ := hfresh.upTo hes
  obtain ⟨howner, howner'⟩ := howner.upTo hes
  have hbound : Bound srv signs pre := bound_run hunf hfresh howner
  rintro i req request ⟨p, amb, rfl, hi, hop⟩
  have hturn := (hbound.calls i req p hi).advance hbound.books hunf hi hfresh' howner'
  exact hturn.2 _ hop request rfl

/-! ### Two accounts and an order -/

/-- What a turn issues for the `i`-th request. -/
def issued (w : AcmeWorld) (i : ℕ) (amb : ℕ → AcmeAmbient) : List IssueLeafOptions :=
  match w.calls[i]? with
  | none => []
  | some (_, p) => (p.turnOps acmeExec acmeWaits amb w.state).filterMap fun
    | .ext (.issueLeaf request) => some request
    | _ => none

variable {w : AcmeWorld}

theorem issues_of_issued {i : ℕ} {amb : ℕ → AcmeAmbient} {req : AcmeRequest}
    {request : IssueLeafOptions} (hreq : w.calls[i]?.map Prod.fst = some req) (h : request ∈ issued w i amb) :
    Issues w (.resume i amb) i req request := by
  unfold issued at h
  split at h
  · cases h
  · rename_i req' p hi
    rw [hi, Option.map_some, Option.some.injEq] at hreq
    obtain rfl : req' = req := hreq
    obtain ⟨o, ho, heq⟩ := List.mem_filterMap.1 h
    split at heq
    · cases heq
      exact ⟨p, amb, rfl, hi, ho⟩
    · cases heq

/-- Where the caller of a request that may start says to come from. -/
def callerOf (srv : AcmeServer) (w : AcmeWorld) : AcmeTurn → Option (AcmeRequest × String)
  | .start _ => none
  | .resume i _ => do
    let c ← w.calls[i]?
    match c.1.body with
    | .value env => match srv.decodeHeader env.protectedHeader with
      | .value header => if header.nonce ∈ w.state.nonces then some (c.1, header.kid.getD "") else none
      | _ => none
    | _ => none

variable {srv : AcmeServer}

theorem callerOf_eq {t : AcmeTurn} {i : ℕ} {req : AcmeRequest}
    {amb : ℕ → AcmeAmbient} {env : Envelope} {header : ProtectedHeader} {key : String}
    (hstart : Starts srv w t i req amb) (h : Authentic srv w.state req env header key) :
    callerOf srv w t = some (req, header.kid.getD "") := by
  obtain ⟨rfl, hi⟩ := hstart
  simp [callerOf, hi, h.body, h.decoded, h.nonce]

/-- `ActsAsOwner`, for whoever the caller is. -/
def actsAsOwner (srv : AcmeServer) (w : AcmeWorld) (t : AcmeTurn) : Bool :=
  (callerOf srv w t).all fun c =>
    (routeOf c.1 != .chall || (challengeOf w.state c.1).all fun ch => c.2 == ch.accountUrl) &&
    (routeOf c.1 != .finalize || (orderOf w.state c.1).all fun o => c.2 == o.accountUrl)

theorem actsAsOwner_sound {t : AcmeTurn} (h : actsAsOwner srv w t = true) : ActsAsOwner srv w t := by
  intro i req amb env header key hstart hauth
  rw [actsAsOwner, callerOf_eq hstart hauth, Option.all_some, Bool.and_eq_true] at h
  constructor
  · intro hroute ch hch _
    simpa [hroute, hch] using h.1
  · intro hroute o ho _
    simpa [hroute, ho] using h.2

/-- `DrawsFreshAuthz`, for each request there is. -/
def drawsFreshAuthz (w : AcmeWorld) : AcmeTurn → Bool
  | .start _ => true
  | .resume i amb => w.calls[i]?.all fun c => routeOf c.1 != .newOrder ||
      ((w.state.orders.entries.all fun e => e.2.authzId != drawnAuthz amb) &&
        w.state.challenges.entries.all fun e => e.2.authzId != drawnAuthz amb)

theorem drawsFreshAuthz_sound {t : AcmeTurn} (h : drawsFreshAuthz w t = true) : DrawsFreshAuthz srv w t := by
  rintro i req amb ⟨rfl, hi⟩ hroute
  simp only [drawsFreshAuthz, hi, Option.all_some, hroute, bne_self_eq_false, Bool.false_or,
    Bool.and_eq_true, List.all_eq_true, bne_iff_ne] at h
  constructor
  · intro id o ho
    exact h.1 (id, o) ((JsMap.mem_entries_iff _ _ _).2 ho)
  · intro id ch hch
    exact h.2 (id, ch) ((JsMap.mem_entries_iff _ _ _).2 hch)

/-- What the keys `ka` and `kb` sign below. -/
def sampleSigned : List (String × String) :=
  [("ka", "n jwk ka."), ("kb", "a jwk kb."), ("ka", "b kid /account/acc-a.order urn:nps:agent:x:1"),
    ("ka", "tok"), ("kb", "tok"), ("ka", "tok kid /account/acc-a.agent ka!tok"),
    ("kb", "tok kid /account/acc-b.agent kb!tok"), ("ka", "c kid /account/acc-a.csr urn:nps:agent:x:1"),
    ("kb", "c kid /account/acc-b.csr urn:nps:agent:x:1")]

def sampleSigns (key text : String) : Prop := (key, text) ∈ sampleSigned

/-- A server that reads words separated by blanks, and knows the signatures above. -/
def sampleServer : AcmeServer where
  baseUrl := ""
  caNid := "urn:nps:ca:x"
  caRootPem := ""
  certValidityMs := 86400000
  decodeHeader text := match split text ' ' with
    | [nonce, "jwk", x] => .value { nonce, jwk := some { kty := "OKP", crv := "Ed25519", x } }
    | [nonce, "kid", kid] => .value { nonce, kid := some kid }
    | _ => .malformed "no header"
  decodeJson text := match split text ' ' with
    | ["order", nid] => .value { identifiers := some [{ type := "nid", value := nid }] }
    | ["agent", signature] => .value { agentSignature := some signature }
    | ["csr", nid] => .value { csr := some nid }
    | _ => .malformed "no payload"
  ed25519Verify signature message key :=
    .ok (decide (signature = key ++ "!" ++ message ∧ (key, message) ∈ sampleSigned))
  csrSubject csr := .ok ("CN=" ++ csr)

theorem sampleServer_unforgeable : Unforgeable sampleServer sampleSigns := by
  intro signature text key h
  simp only [sampleServer, Except.ok.injEq, decide_eq_true_eq] at h
  exact h.2

/-- A request with an envelope signed by `key`. -/
def post (url header payload key : String) : AcmeRequest :=
  { method := "POST", url,
    body := .value { protectedHeader := header, payload, signature := key ++ "!" ++ header ++ "." ++ payload } }

/-- Everything random in a turn is `text`. -/
def drawing (text : String) : ℕ → AcmeAmbient := fun _ => { random := text }

/-- The request of an account and its key to finalize the order `ord-tok`. -/
def sampleFinalize (name key : String) : AcmeRequest :=
  post "/finalize/ord-tok" ("c kid /account/acc-" ++ name) "csr urn:nps:agent:x:1" key

/-- The accounts `acc-a` and `acc-b` are created, and an order by `acc-a`; an account answers the
challenge and asks to finalize the order. -/
def sampleTurns (name key : String) : List AcmeTurn :=
  [.start { method := "HEAD", url := "/new-nonce", body := .null }, .resume 0 (drawing "n"),
    .start (post "/new-account" "n jwk ka" "" "ka"), .resume 1 (drawing "a"),
    .start (post "/new-account" "a jwk kb" "" "kb"), .resume 2 (drawing "b"),
    .start (post "/new-order" "b kid /account/acc-a" "order urn:nps:agent:x:1" "ka"),
    .resume 3 (drawing "tok"),
    .start (post "/chall/ch-tok" ("tok kid /account/acc-" ++ name) ("agent " ++ key ++ "!tok") key),
    .resume 4 (drawing "c"), .start (sampleFinalize name key), .resume 5 (drawing "d")]

/-- The certificate issued then. -/
def sampleRequest : IssueLeafOptions :=
  { subjectNid := "urn:nps:agent:x:1", subjectPublicKey := "", issuerNid := "urn:nps:ca:x",
    role := .agent, assuranceLevel := .anonymous, notBefore := -60000, notAfter := 86400000,
    serialNumber := "e" }

/-- The order's own account gets its certificate. -/
theorem sample_bound_to_owner :
    Issues (sampleServer.after (sampleTurns "a" "ka")) (.resume 5 (drawing "e")) 5
        (sampleFinalize "a" "ka") sampleRequest ∧
      BoundToOwner sampleServer sampleSigns (sampleTurns "a" "ka") (.resume 5 (drawing "e")) := by
  constructor
  · exact issues_of_issued (by decide) (by decide)
  · refine certificate_bound_to_owner sampleServer sampleSigns sampleServer_unforgeable
      (sampleTurns "a" "ka" ++ [.resume 5 (drawing "e")]) ?_ ?_ _ _ [] rfl
    · exact (along_of_alongAll (by decide)).mono fun _ _ h => drawsFreshAuthz_sound h
    · exact (along_of_alongAll (by decide)).mono fun _ _ h => actsAsOwner_sound h

/-- Another account gets the certificate of the order. -/
theorem certificate_for_another_account :
    Unforgeable sampleServer sampleSigns ∧
      Issues (sampleServer.after (sampleTurns "b" "kb")) (.resume 5 (drawing "e")) 5
        (sampleFinalize "b" "kb") sampleRequest ∧
      ¬ BoundToOwner sampleServer sampleSigns (sampleTurns "b" "kb") (.resume 5 (drawing "e")) := by
  have hissues : Issues (sampleServer.after (sampleTurns "b" "kb")) (.resume 5 (drawing "e")) 5
      (sampleFinalize "b" "kb") sampleRequest := issues_of_issued (by decide) (by decide)
  refine ⟨sampleServer_unforgeable, hissues, fun hbound => ?_⟩
  obtain ⟨o, ⟨pre, t, post, amb, key, hes, -, -, ho, -, -, env, header, hauth, hkid, -⟩, -⟩ :=
    hbound 5 _ _ hissues
  -- whenever the order is there, it is the order of the first account
  have howner : ∀ pre ∈ (sampleTurns "b" "kb").inits,
      (orderOf (sampleServer.after pre).state (sampleFinalize "b" "kb")).all
        fun o => o.accountUrl = "/account/acc-a" := by decide
  have haccount := howner pre (List.mem_inits pre _ |>.2 ⟨t :: post, hes.symm⟩)
  rw [ho, Option.all_some, decide_eq_true_eq] at haccount
  obtain rfl := Parsed.value.inj hauth.body
  have hcaller : header.kid = some "/account/acc-b" := by
    have hd := hauth.decoded
    have hsample : sampleServer.decodeHeader "c kid /account/acc-b" =
      .value { nonce := "c", kid := some "/account/acc-b" } := by decide
    rw [show ("c kid /account/acc-" ++ "b" : String) = "c kid /account/acc-b" by decide, hsample] at hd
    rw [← Parsed.value.inj hd]
  rw [haccount, hcaller] at hkid
  exact absurd hkid (by decide)

end NpsSdk.Nip.Acme
