import NpsSdk.Nip.Ca.Enrollment
import NpsSdk.Nip.Ca.RegisteredOnce

/-!
# Deciding pending registrations

An operator approves or rejects the records of the pending store.  A reject decides its record at once.  An
approval reads its record, registers it, and marks it approved after that, whatever the mark answers: this
module says which stages it passes, and what a turn of each leads to.
-/

namespace NpsSdk.Nip.Ca

open NpsSdk.Lib

inductive DecisionCall where
  | approve (req : CaRequest) (id : String)
  | reject (req : CaRequest) (id : String)

def DecisionCall.program (router : NipCaRouter) : DecisionCall → CaAsync CaResponse
  | .approve req id => router.approvePending req id
  | .reject req id => router.rejectPending req id

abbrev DecisionPool := Pool DecisionCall CaState CaOp CaOp.Res CaError CaResponse

abbrev DecisionTurn := Turn DecisionCall Ambient

/-- A request is started, or one takes a turn. -/
def decisionTurn (router : NipCaRouter) (sha256 : String → String) (w : DecisionPool) (e : DecisionTurn) :
    DecisionPool :=
  w.step (exec sha256) CaOp.awaited (DecisionCall.program router) e

/-- The approval has saved its certificate: it is about to mark the record, or has answered the frame. -/
def certified : CaAsync CaResponse → Bool
  | .op (.pending (.approve _)) _ => true
  | .done r => answersFrame r
  | _ => false

def answersRejected : Except CaError CaResponse → Bool
  | .ok { body := .rejected .., .. } => true
  | _ => false

def PendingRegistration.nid (ca : NipCaService) (record : PendingRegistration) : String :=
  ca.buildNid record.entityType record.identifier

/-- The record waits for its decision. -/
def InMemoryPendingStore.Open (s : InMemoryPendingStore) (id : String) : Prop :=
  ∃ record, s.get id = some record ∧ record.status = .pending

/-! ### The stages of an approval -/

/-- Over, without a certificate. -/
def Refused (p : CaAsync CaResponse) : Prop := ∃ r, p = .done r ∧ answersFrame r = false

def Certified (p : CaAsync CaResponse) : Prop := ∃ r, p = .done r ∧ answersFrame r = true

/-- About to mark the record approved, and to answer its frame then. -/
def Marking (id : String) (p : CaAsync CaResponse) : Prop :=
  ∃ k, p = .op (.pending (.approve id)) k ∧ (∀ e, Refused (k (.error e))) ∧ ∀ marked, Certified (k (.ok marked))

/-- About to save the certificate. -/
def Stores (id nid : String) (p : CaAsync CaResponse) : Prop :=
  ∃ record k, p = .op (.store (.save record)) k ∧ record.nid = nid ∧ Marking id (k (.ok ())) ∧
    ∀ e, Refused (k (.error e))

/-- Has found its NID free. -/
def Numbers (id nid : String) (p : CaAsync CaResponse) : Prop :=
  ∃ k, p = .op .now k ∧ (∀ e, Refused (k (.error e))) ∧ ∀ t, ∃ k', k (.ok t) = .op (.store .nextSerial) k' ∧
    (∀ e, Refused (k' (.error e))) ∧ ∀ serial, Stores id nid (k' (.ok serial)) ∨ Refused (k' (.ok serial))

/-- Has found its record undecided, and is about to look its NID up. -/
def Seeking (id nid : String) (p : CaAsync CaResponse) : Prop :=
  ∃ k, p = .op (.store (.getByNid nid)) k ∧ (∀ e, Refused (k (.error e))) ∧ (∀ r, Refused (k (.ok (some r)))) ∧
    (Numbers id nid (k (.ok none)) ∨ Refused (k (.ok none)))

/-- About to read its record. -/
def Opens (ca : NipCaService) (id : String) (p : CaAsync CaResponse) : Prop :=
  ∃ k, p = .op (.pending (.get id)) k ∧ (∀ e, Refused (k (.error e))) ∧ Refused (k (.ok none)) ∧
    ∀ record : PendingRegistration, (record.status ≠ .pending → Refused (k (.ok (some record)))) ∧
      (record.status = .pending → Seeking id (record.nid ca) (k (.ok (some record))))

/-- The stages of an approval of `id`, whose record is registered under `nid`. -/
inductive Approves (ca : NipCaService) (id nid : String) (p : CaAsync CaResponse) : Prop where
  | opens (h : Opens ca id p)
  | seeking (h : Seeking id nid p)
  | numbers (h : Numbers id nid p)
  | stores (h : Stores id nid p)
  | marks (h : Marking id p)
  | certified (h : Certified p)
  | refused (h : Refused p)

/-! ### The stages of a reject -/

def Missed (p : CaAsync CaResponse) : Prop := ∃ r, p = .done r ∧ answersRejected r = false

/-- Has not decided the record, and is about to see why. -/
def Explains (id : String) (p : CaAsync CaResponse) : Prop :=
  ∃ k, p = .op (.pending (.get id)) k ∧ ∀ found, Missed (k (.ok found))

/-- About to decide the record. -/
def Decides (id : String) (p : CaAsync CaResponse) : Prop :=
  ∃ reason k, p = .op (.pending (.reject id reason)) k ∧ Explains id (k (.ok false)) ∧
    ∃ r, k (.ok true) = .done r ∧ answersRejected r = true

/-- The stages of a reject of `id`. -/
inductive Rejects (id : String) (p : CaAsync CaResponse) : Prop where
  | decides (h : Decides id p)
  | explains (h : Explains id p)
  | rejected (r : Except CaError CaResponse) (h : p = .done r) (hr : answersRejected r = true)
  | missed (h : Missed p)

/-! ### The programs -/

section

variable {router : NipCaRouter} {ca : NipCaService} {req : CaRequest} {id nid : String}

theorem refused_catchNipCa {e : CaError} : Refused (catchNipCa (.done (.error e))) := by
  cases e with
  | nipCa message errorCode => exact ⟨_, rfl, rfl⟩
  | raPending pendingId => exact ⟨_, rfl, rfl⟩
  | error message => exact ⟨_, rfl, rfl⟩

/-- An approval that has found its record undecided. -/
def approving (id : String) (call : CaAsync CaIdentFrame) : CaAsync CaResponse :=
  catchNipCa do
    let frame ← call
    let _ ← Async.perform (CaOp.pending (.approve id))
    pure { body := .ident frame, status := 201 }

theorem stores_issue {record : NipCertRecord} (hnid : record.nid = nid) :
    Stores id nid (approving id (ca.issue record none none)) ∨ Refused (approving id (ca.issue record none none)) := by
  unfold NipCaService.issue
  rcases ca.issueFrame_cases record none none with ⟨e, he⟩ | ⟨frame, hf, -⟩
  · right
    rw [he]
    exact refused_catchNipCa
  · left
    rw [hf]
    exact ⟨record, _, rfl, hnid, ⟨_, rfl, fun e => refused_catchNipCa, fun marked => ⟨_, rfl, rfl⟩⟩,
      fun e => refused_catchNipCa⟩

theorem seeking_register {entityType identifier pubKey scopeJson : String} {capabilities : List String}
    {metadataJson : Option String} : Seeking id (ca.buildNid entityType identifier)
      (approving id (ca.register entityType identifier pubKey capabilities scopeJson metadataJson)) := by
  refine ⟨_, rfl, fun e => refused_catchNipCa, fun r => ⟨_, rfl, rfl⟩, ?_⟩
  cases hpermits : ca.permits capabilities with
  | false =>
    obtain ⟨e, he⟩ := NipCaService.checkCapabilities_refused hpermits
    right
    show Refused (approving id (ca.checkCapabilities capabilities >>= _))
    rw [he]
    exact refused_catchNipCa
  | true =>
    left
    show Numbers id _ (approving id (ca.checkCapabilities capabilities >>= _))
    rw [NipCaService.checkCapabilities_ok hpermits]
    refine ⟨_, rfl, fun e => refused_catchNipCa, fun t => ⟨_, rfl, fun e => refused_catchNipCa, ?_⟩⟩
    exact fun serial => @stores_issue ca id _ _ rfl

theorem opens_approvePending :
    Opens router.ca id (router.approvePending req id) ∨ Refused (router.approvePending req id) := by
  unfold NipCaRouter.approvePending
  split
  · exact .inr ⟨_, rfl, rfl⟩
  split
  · exact .inr ⟨_, rfl, rfl⟩
  left
  refine ⟨_, rfl, fun e => ⟨_, rfl, rfl⟩, ⟨_, rfl, rfl⟩, fun record => ⟨fun hdecided => ?_, fun hopen => ?_⟩⟩
  · show Refused (if record.status ≠ .pending then _ else _)
    rw [if_pos hdecided]
    exact ⟨_, rfl, rfl⟩
  · show Seeking id (record.nid router.ca) (if record.status ≠ .pending then _ else _)
    rw [if_neg (not_not.2 hopen)]
    exact seeking_register

theorem decides_rejectPending : Decides id (router.rejectPending req id) ∨ Missed (router.rejectPending req id) := by
  unfold NipCaRouter.rejectPending
  split
  · exact .inr ⟨_, rfl, rfl⟩
  split
  · exact .inr ⟨_, rfl, rfl⟩
  left
  refine ⟨_, _, rfl, ⟨_, rfl, fun found => ?_⟩, _, rfl, rfl⟩
  cases found with
  | none => exact ⟨_, rfl, rfl⟩
  | some record => exact ⟨_, rfl, rfl⟩

end

/-! ### What a call can still do -/

/-- The operations of an approval that issue a certificate, or say so. -/
def CaOp.certifies : CaOp → Bool
  | .store (.save _) | .pending (.approve _) => true
  | _ => false

/-- The NID has a record. -/
def CaState.Taken (s : CaState) (nid : String) : Prop := (s.certs.getByNid nid).isSome = true

/-- What may be answered once the record `id` is decided, from the state `s` on. -/
def SeesDecided (s : CaState) (id : String) : (o : CaOp) → Except CaError o.Res → Prop
  | .store (.getByNid nid), r => s.Taken nid → ∃ record : NipCertRecord, r = .ok (some record)
  | .pending (.get i), r => i = id → ∃ found : Option PendingRegistration, r = .ok found ∧
      ∀ record ∈ found, record.status ≠ .pending
  | _, _ => True

/-- Now that the record is decided, the call issues no certificate. -/
def Withdrawn (s : CaState) (id : String) (p : CaAsync CaResponse) : Prop :=
  p.Keeps (fun o => o.certifies = false) (SeesDecided s id)

/-- From `s` to `s'` no NID got free, and the pending records ask for what they did; those that are undecided
were so before. -/
structure Later (ca : NipCaService) (s s' : CaState) : Prop where
  taken : ∀ nid, s.Taken nid → s'.Taken nid
  pending : ∀ id record', s'.pending.get id = some record' → ∃ record, s.pending.get id = some record ∧
    record'.nid ca = record.nid ca ∧ (record'.status = .pending → record.status = .pending)

/-- What `Q` says of a turn that leads from a state and a program to others through some operations. -/
abbrev LeadsTo (Q : CaState → CaState → CaAsync CaResponse → CaAsync CaResponse → List CaOp → Prop)
    (sha256 : String → String) (amb : ℕ → Ambient) (s : CaState) (p : CaAsync CaResponse) : Prop :=
  Q s (p.advance (exec sha256) CaOp.awaited amb s).2 p (p.advance (exec sha256) CaOp.awaited amb s).1
    (p.turnOps (exec sha256) CaOp.awaited amb s)

section

variable {ca : NipCaService} {sha256 : String → String} {id nid n : String} {p : CaAsync CaResponse}
  {s s' : CaState} {amb : ℕ → Ambient}

theorem later_refl : Later ca s s where
  taken _ h := h
  pending _ record h := ⟨record, h, rfl, fun h => h⟩

theorem Later.closed (h : Later ca s s') (hclosed : ¬ s.pending.Open id) : ¬ s'.pending.Open id := by
  rintro ⟨record', hget, hopen⟩
  obtain ⟨record, hrecord, -, hstatus⟩ := h.pending id record' hget
  exact hclosed ⟨record, hrecord, hstatus hopen⟩

theorem Withdrawn.later (h : Withdrawn s id p) (hl : Later ca s s') : Withdrawn s' id p := by
  refine h.mono (fun _ ho => ho) ?_
  intro o r hr
  cases o with
  | store o =>
    cases o with
    | getByNid nid => exact fun htaken => hr (hl.taken nid htaken)
    | _ => trivial
  | pending o =>
    cases o with
    | get i => exact hr
    | _ => trivial
  | _ => trivial

theorem later_nextSerial {c : InMemoryNipCaStore} (h : c = s.certs.nextSerial.2) :
    Later ca s { s with certs := c } where
  taken _ ht := by
    subst h
    exact ht
  pending _ record hget := ⟨record, hget, rfl, fun h => h⟩

theorem later_save {record : NipCertRecord} :
    Later ca s { s with certs := { s.certs with records := s.certs.records ++ [record] } } where
  taken nid ht := by
    unfold CaState.Taken
    rw [InMemoryNipCaStore.getByNid_append]
    split
    · rfl
    · exact ht
  pending _ record hget := ⟨record, hget, rfl, fun h => h⟩

/-! ### Decisions of the store -/

theorem decideWith_cases (s : InMemoryPendingStore) (id : String)
    (f : PendingRegistration → PendingRegistration) :
    (∃ record, s.get id = some record ∧ record.status = .pending ∧
        s.decideWith id f = (true, { s with records := s.records.set id (f record) })) ∨
      ¬ s.Open id ∧ s.decideWith id f = (false, s) := by
  unfold InMemoryPendingStore.decideWith
  cases hget : s.records.get id with
  | none =>
    right
    refine ⟨?_, rfl⟩
    rintro ⟨record, hrecord, -⟩
    rw [show s.get id = none from hget] at hrecord
    cases hrecord
  | some record =>
    by_cases hstatus : record.status = .pending
    · left
      refine ⟨record, hget, hstatus, ?_⟩
      simp [hstatus]
    · right
      constructor
      · rintro ⟨record', hrecord, hopen⟩
        obtain rfl : record = record' := by
          rw [show s.get id = some record from hget] at hrecord
          injection hrecord
        exact hstatus hopen
      · simp [hstatus]

theorem later_decideWith {f : PendingRegistration → PendingRegistration} (hnid : ∀ r, (f r).nid ca = r.nid ca)
    (hf : ∀ r, (f r).status ≠ .pending) :
    Later ca s { s with pending := (s.pending.decideWith id f).2 } ∧
      ¬ (s.pending.decideWith id f).2.Open id := by
  rcases decideWith_cases s.pending id f with ⟨record, hget, hstatus, heq⟩ | ⟨hclosed, heq⟩
  · rw [heq]
    have hself : (s.pending.records.set id (f record)).get id = some (f record) := JsMap.get_set_self ..
    refine ⟨⟨fun _ h => h, ?_⟩, ?_⟩
    · intro i record' hrecord'
      have hi : (s.pending.records.set id (f record)).get i = some record' := hrecord'
      by_cases hid : i = id
      · subst hid
        rw [hself] at hi
        cases hi
        exact ⟨record, hget, hnid record, fun h => absurd h (hf record)⟩
      · rw [JsMap.get_set_ne _ _ hid] at hi
        exact ⟨record', hi, rfl, fun h => h⟩
    · rintro ⟨record', hrecord', hopen⟩
      have hi : (s.pending.records.set id (f record)).get id = some record' := hrecord'
      rw [hself] at hi
      cases hi
      exact hf record hopen
  · rw [heq]
    exact ⟨later_refl, hclosed⟩

/-! ### The turns of an approval -/

theorem Refused.certified (h : Refused p) : certified p = false := by
  obtain ⟨r, rfl, hr⟩ := h
  exact hr

theorem Certified.certified (h : Certified p) : certified p = true := by
  obtain ⟨r, rfl, hr⟩ := h
  exact hr

theorem Opens.certified (h : Opens ca id p) : certified p = false := by
  obtain ⟨k, rfl, -⟩ := h
  rfl

theorem Seeking.certified (h : Seeking id nid p) : certified p = false := by
  obtain ⟨k, rfl, -⟩ := h
  rfl

theorem Numbers.certified (h : Numbers id nid p) : certified p = false := by
  obtain ⟨k, rfl, -⟩ := h
  rfl

theorem Stores.certified (h : Stores id nid p) : certified p = false := by
  obtain ⟨record, k, rfl, -⟩ := h
  rfl

theorem Marking.certified (h : Marking id p) : certified p = true := by
  obtain ⟨k, rfl, -⟩ := h
  rfl

theorem Refused.keeps {ok : CaOp → Prop} {ans : (o : CaOp) → Except CaError o.Res → Prop} (h : Refused p) :
    p.Keeps ok ans := by
  obtain ⟨r, rfl, -⟩ := h
  trivial

theorem Stores.not_yields (h : Stores id nid p) : ¬ Yields nid p := by
  obtain ⟨record, k, rfl, hnid, -⟩ := h
  exact fun hyields => hyields.1 hnid

theorem Stores.not_withdrawn (h : Stores id nid p) : ¬ Withdrawn s id p := by
  obtain ⟨record, k, rfl, -⟩ := h
  intro hwithdrawn
  cases hwithdrawn.1

theorem Marking.not_withdrawn (h : Marking id p) : ¬ Withdrawn s id p := by
  obtain ⟨k, rfl, -⟩ := h
  intro hwithdrawn
  cases hwithdrawn.1

theorem Approves.of_certified (h : Approves ca id nid p) (hp : Ca.certified p = true) :
    Marking id p ∨ Certified p := by
  have hnot : ∀ {b : Bool}, b = false → b = true → Marking id p ∨ Certified p := by
    rintro b rfl hb
    cases hb
  cases h with
  | opens h => exact hnot h.certified hp
  | seeking h => exact hnot h.certified hp
  | numbers h => exact hnot h.certified hp
  | stores h => exact hnot h.certified hp
  | marks h => exact .inl h
  | certified h => exact .inr h
  | refused h => exact hnot h.certified hp

/-- What a turn of an approval leads to: from the state `s` and the program `p` to `s'` and `p'`, through the
operations `ops`. -/
structure ApprovalTurn (ca : NipCaService) (id nid : String) (s s' : CaState) (p p' : CaAsync CaResponse)
    (ops : List CaOp) : Prop where
  stage : Approves ca id nid p'
  later : Later ca s s'
  saved : certified p' = true → certified p = true ∨ Stores id nid p ∧ s'.Taken nid
  marked : Certified p' → Certified p ∨ ¬ s'.pending.Open id
  yields : Yields nid p → Yields nid p' ∨ CaOp.store (.getByNid nid) ∈ ops ∧ ¬ s.Taken nid
  withdrawn : ¬ s.pending.Open id → Withdrawn s id p → certified p = false →
    Withdrawn s id p' ∧ certified p' = false

theorem ApprovalTurn.refused {p' : CaAsync CaResponse} {ops : List CaOp} (h : Refused p')
    (hl : Later ca s s') : ApprovalTurn ca id nid s s' p p' ops where
  stage := .refused h
  later := hl
  saved hc := by
    rw [h.certified] at hc
    cases hc
  marked hc := by
    have := hc.certified
    rw [h.certified] at this
    cases this
  yields _ := .inl h.keeps
  withdrawn _ _ _ := ⟨h.keeps, h.certified⟩

theorem ApprovalTurn.quiet {p' : CaAsync CaResponse} {ops : List CaOp} (h : Approves ca id nid p')
    (hp' : certified p' = false) (hl : Later ca s s')
    (hyields : Yields nid p → Yields nid p' ∨ CaOp.store (.getByNid nid) ∈ ops ∧ ¬ s.Taken nid)
    (hwithdrawn : ¬ s.pending.Open id → Withdrawn s id p → Withdrawn s id p') :
    ApprovalTurn ca id nid s s' p p' ops where
  stage := h
  later := hl
  saved hc := by
    rw [hp'] at hc
    cases hc
  marked hc := by
    have := hc.certified
    rw [hp'] at this
    cases this
  yields := hyields
  withdrawn hclosed hw _ := ⟨hwithdrawn hclosed hw, hp'⟩

theorem Marking.yields (h : Marking id p) : Yields nid p := by
  obtain ⟨k, rfl, herror, hmarked⟩ := h
  refine ⟨trivial, fun r _ => ?_⟩
  cases r with
  | error e => exact (herror e).keeps
  | ok marked =>
    obtain ⟨r, hr, -⟩ := hmarked marked
    rw [hr]
    trivial

theorem Stores.yields (h : Stores id n p) (hn : n ≠ nid) : Yields nid p := by
  obtain ⟨record, k, rfl, hrecord, hmarking, herror⟩ := h
  refine ⟨?_, fun r _ => ?_⟩
  · show record.nid ≠ nid
    rwa [hrecord]
  · cases r with
    | error e => exact (herror e).keeps
    | ok u => exact hmarking.yields

theorem Numbers.yields (h : Numbers id n p) (hn : n ≠ nid) : Yields nid p := by
  obtain ⟨k, rfl, herror, hclock⟩ := h
  refine ⟨trivial, fun r _ => ?_⟩
  cases r with
  | error e => exact (herror e).keeps
  | ok t =>
    obtain ⟨k', hk', herror', hserial⟩ := hclock t
    rw [hk']
    refine ⟨trivial, fun r _ => ?_⟩
    cases r with
    | error e => exact (herror' e).keeps
    | ok serial =>
      rcases hserial serial with hstores | hrefused
      · exact hstores.yields hn
      · exact hrefused.keeps

theorem Seeking.yields (h : Seeking id n p) : Yields nid p := by
  obtain ⟨k, rfl, herror, htaken, hfree⟩ := h
  refine ⟨trivial, fun r hr => ?_⟩
  match r, hr with
  | .error e, _ => exact (herror e).keeps
  | .ok (some record), _ => exact (htaken record).keeps
  | .ok none, hr =>
    by_cases hn : n = nid
    · obtain ⟨record, hrecord⟩ := hr hn
      cases hrecord
    · rcases hfree with hnumbers | hrefused
      · exact hnumbers.yields hn
      · exact hrefused.keeps

theorem Opens.yields (h : Opens ca id p) : Yields nid p := by
  obtain ⟨k, rfl, herror, hnone, hsome⟩ := h
  refine ⟨trivial, fun r _ => ?_⟩
  match r with
  | .error e => exact (herror e).keeps
  | .ok none => exact hnone.keeps
  | .ok (some record) =>
    by_cases hstatus : record.status = .pending
    · exact ((hsome record).2 hstatus).yields
    · exact ((hsome record).1 hstatus).keeps

theorem Opens.withdrawn (h : Opens ca id p) : Withdrawn s id p := by
  obtain ⟨k, rfl, herror, hnone, hsome⟩ := h
  refine ⟨rfl, fun r hr => ?_⟩
  obtain ⟨found, rfl, hfound⟩ := hr rfl
  cases found with
  | none => exact hnone.keeps
  | some record => exact ((hsome record).1 (hfound record rfl)).keeps

theorem Opens.turn (h : Opens ca id p) (hfiled : ∀ record, s.pending.get id = some record → record.nid ca = nid) :
    LeadsTo (ApprovalTurn ca id nid) sha256 amb s p := by
  obtain ⟨k, rfl, -, hnone, hsome⟩ := h
  show ApprovalTurn ca id nid s s _ (k (.ok (s.pending.get id))) _
  cases hget : s.pending.get id with
  | none => exact .refused hnone later_refl
  | some record =>
    by_cases hstatus : record.status = .pending
    · have hseeking : Seeking id nid (k (.ok (some record))) := by
        rw [← hfiled record hget]
        exact (hsome record).2 hstatus
      refine .quiet (.seeking hseeking) hseeking.certified later_refl (fun _ => .inl hseeking.yields) ?_
      intro hclosed _
      exact absurd ⟨record, hget, hstatus⟩ hclosed
    · exact .refused ((hsome record).1 hstatus) later_refl

theorem Seeking.turn (h : Seeking id nid p) : LeadsTo (ApprovalTurn ca id nid) sha256 amb s p := by
  obtain ⟨k, rfl, -, htaken, hfree⟩ := h
  show ApprovalTurn ca id nid s s _ (k (.ok (s.certs.getByNid nid))) [CaOp.store (.getByNid nid)]
  cases hget : s.certs.getByNid nid with
  | some record => exact .refused (htaken record) later_refl
  | none =>
    have hnot : ¬ s.Taken nid := by
      unfold CaState.Taken
      rw [hget]
      exact Bool.false_ne_true
    rcases hfree with hnumbers | hrefused
    · refine .quiet (.numbers hnumbers) hnumbers.certified later_refl
        (fun _ => .inr ⟨List.mem_singleton_self _, hnot⟩) ?_
      exact fun _ hwithdrawn => hwithdrawn.2 (.ok none) fun htaken => absurd htaken hnot
    · exact .refused hrefused later_refl

theorem Numbers.turn (h : Numbers id nid p) : LeadsTo (ApprovalTurn ca id nid) sha256 amb s p := by
  obtain ⟨k, rfl, -, hclock⟩ := h
  obtain ⟨k', hk', -, hserial⟩ := hclock ((amb 0).time 0)
  -- the clock is read and the serial is drawn in one turn
  have hadvance : (Async.op CaOp.now k).advance (exec sha256) CaOp.awaited amb s =
      (k' (.ok s.certs.nextSerial.1), { s with certs := s.certs.nextSerial.2 }) := by
    show (k (.ok ((amb 0).time 0))).advance (exec sha256) CaOp.awaited (fun m => amb (m + 1)) s = _
    rw [hk']
    rfl
  have hkeeps : ∀ {ok : CaOp → Prop} {ans : (o : CaOp) → Except CaError o.Res → Prop},
      (∀ t, ans .now (.ok t)) → (∀ serial, ans (.store .nextSerial) (.ok serial)) →
      (Async.op CaOp.now k).Keeps ok ans → (k' (.ok s.certs.nextSerial.1)).Keeps ok ans := by
    intro ok ans hnow hnext h
    have hafter := h.2 (.ok ((amb 0).time 0)) (hnow _)
    rw [hk'] at hafter
    exact hafter.2 _ (hnext _)
  rw [LeadsTo, hadvance]
  rcases hserial s.certs.nextSerial.1 with hstores | hrefused
  · refine .quiet (.stores hstores) hstores.certified (later_nextSerial rfl) ?_ ?_
    · exact fun hyields => .inl (hkeeps (fun _ => trivial) (fun _ => trivial) hyields)
    · exact fun _ hwithdrawn => hkeeps (fun _ => trivial) (fun _ => trivial) hwithdrawn
  · exact .refused hrefused (later_nextSerial rfl)

theorem Stores.turn (h : Stores id nid p) : LeadsTo (ApprovalTurn ca id nid) sha256 amb s p := by
  have hstores := h
  obtain ⟨record, k, rfl, hnid, hmarking, herror⟩ := h
  have hadvance : (Async.op (CaOp.store (.save record)) k).advance (exec sha256) CaOp.awaited amb s =
      (k (exec sha256 (amb 0) (.store (.save record)) s).1, (exec sha256 (amb 0) (.store (.save record)) s).2) := rfl
  rw [LeadsTo, hadvance]
  rcases InMemoryNipCaStore.save_cases s.certs record with ⟨e, he⟩ | hsaved
  · simp only [exec, execStore, he]
    exact .refused (herror _) later_refl
  · simp only [exec, execStore, hsaved]
    constructor
    · exact .marks hmarking
    · exact later_save
    · refine fun _ => .inr ⟨hstores, ?_⟩
      unfold CaState.Taken
      rw [InMemoryNipCaStore.getByNid_append, if_pos hnid]
      rfl
    · rintro ⟨r, hr, -⟩
      obtain ⟨k', hk', -⟩ := hmarking
      rw [show Except.mapError CaError.error (.ok ()) = (.ok () : Except CaError Unit) from rfl, hk'] at hr
      cases hr
    · exact fun hyields => absurd hyields hstores.not_yields
    · exact fun _ hwithdrawn _ => absurd hwithdrawn hstores.not_withdrawn

theorem Marking.turn (h : Marking id p) : LeadsTo (ApprovalTurn ca id nid) sha256 amb s p := by
  have hmarking := h
  obtain ⟨k, rfl, -, hmarked⟩ := h
  have hend : Certified (k (.ok (s.pending.approve id).1)) := hmarked _
  obtain ⟨hlater, hclosed⟩ := @later_decideWith ca id s (fun r => { r with status := .approved })
    (fun _ => rfl) (fun _ => by simp)
  show ApprovalTurn ca id nid s { s with pending := (s.pending.approve id).2 } _
    (k (.ok (s.pending.approve id).1)) _
  constructor
  · exact .certified hend
  · exact hlater
  · exact fun _ => .inl hmarking.certified
  · exact fun _ => .inr hclosed
  · intro _
    left
    obtain ⟨r, hr, -⟩ := hend
    rw [hr]
    trivial
  · exact fun _ hwithdrawn => absurd hwithdrawn hmarking.not_withdrawn

theorem ApprovalTurn.ended {r : Except CaError CaResponse} {ops : List CaOp} (h : p = .done r) :
    ApprovalTurn ca id nid s s p p ops where
  stage := by
    cases hr : answersFrame r with
    | true => exact .certified ⟨r, h, hr⟩
    | false => exact .refused ⟨r, h, hr⟩
  later := later_refl
  saved := .inl
  marked := .inl
  yields := .inl
  withdrawn _ hwithdrawn hp := ⟨hwithdrawn, hp⟩

/-- **A turn of an approval.** -/
theorem Approves.turn (h : Approves ca id nid p)
    (hfiled : ∀ record, s.pending.get id = some record → record.nid ca = nid) :
    LeadsTo (ApprovalTurn ca id nid) sha256 amb s p := by
  cases h with
  | opens h => exact h.turn hfiled
  | seeking h => exact h.turn
  | numbers h => exact h.turn
  | stores h => exact h.turn
  | marks h => exact h.turn
  | certified h =>
    obtain ⟨r, rfl, -⟩ := h
    exact .ended rfl
  | refused h =>
    obtain ⟨r, rfl, -⟩ := h
    exact .ended rfl

/-! ### The turns of a reject -/

structure RejectTurn (ca : NipCaService) (id : String) (s s' : CaState) (p p' : CaAsync CaResponse)
    (ops : List CaOp) : Prop where
  stage : Rejects id p'
  later : Later ca s s'
  /-- It answers "rejected" where it has found the record undecided. -/
  rejected : ∀ r, p' = .done r → answersRejected r = true → p = .done r ∨
    (∃ reason, CaOp.pending (.reject id reason) ∈ ops) ∧ s.pending.Open id ∧ ¬ s'.pending.Open id

theorem Missed.not_rejected {r : Except CaError CaResponse} (h : Missed p) (hp : p = .done r) :
    answersRejected r = false := by
  obtain ⟨r', rfl, hr'⟩ := h
  cases hp
  exact hr'

theorem Decides.turn (h : Decides id p) : LeadsTo (RejectTurn ca id) sha256 amb s p := by
  obtain ⟨reason, k, rfl, hexplains, r, hr, hrejected⟩ := h
  show RejectTurn ca id s { s with pending := (s.pending.reject id reason).2 } _
    (k (.ok (s.pending.reject id reason).1)) [CaOp.pending (.reject id reason)]
  obtain ⟨hlater, hclosed⟩ := @later_decideWith ca id s
    (fun r => { r with status := .rejected, rejectReason := some reason }) (fun _ => rfl) (fun _ => by simp)
  rcases decideWith_cases s.pending id fun r => { r with status := .rejected, rejectReason := some reason } with
    ⟨record, hget, hstatus, heq⟩ | ⟨-, heq⟩
  · have hdone : k (.ok (s.pending.reject id reason).1) = .done r := by
      rw [show (s.pending.reject id reason).1 = true from congrArg Prod.fst heq]
      exact hr
    refine ⟨.rejected r hdone hrejected, hlater, fun _ _ _ => .inr ⟨?_, ⟨record, hget, hstatus⟩, hclosed⟩⟩
    exact ⟨reason, List.mem_singleton_self _⟩
  · have hexplains' : Explains id (k (.ok (s.pending.reject id reason).1)) := by
      rw [show (s.pending.reject id reason).1 = false from congrArg Prod.fst heq]
      exact hexplains
    refine ⟨.explains hexplains', hlater, fun r' hr' _ => ?_⟩
    obtain ⟨k', hk', -⟩ := hexplains'
    rw [hk'] at hr'
    cases hr'

/-- **A turn of a reject.** -/
theorem Rejects.turn (h : Rejects id p) : LeadsTo (RejectTurn ca id) sha256 amb s p := by
  cases h with
  | decides h => exact h.turn
  | explains h =>
    obtain ⟨k, rfl, hmissed⟩ := h
    show RejectTurn ca id s s _ (k (.ok (s.pending.get id))) _
    refine ⟨.missed (hmissed _), later_refl, fun r hr hrejected => ?_⟩
    rw [(hmissed _).not_rejected hr] at hrejected
    cases hrejected
  | rejected r h hr =>
    subst h
    exact ⟨.rejected r rfl hr, later_refl, fun _ h _ => .inl h⟩
  | missed h =>
    obtain ⟨r, rfl, hr⟩ := h
    exact ⟨.missed ⟨r, rfl, hr⟩, later_refl, fun _ h _ => .inl h⟩

end

end NpsSdk.Nip.Ca
