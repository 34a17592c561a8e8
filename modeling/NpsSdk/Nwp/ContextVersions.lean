import NpsSdk.Nwp.ContextReservations

/-!
# Versions of contexts

The version of a context counts the appends and resets committed to it and its release.  A commit of an
append or a reset meets the version and the transcript its reservation was granted on.
-/

namespace NpsSdk.Nwp

open NpsSdk.Lib

variable {options : LlmContextStoreOptions} {amb : StoreAmbient} {s s' : LlmContextStore} {c : String}
  {r r' current : LlmContextMutationReservation}

def Advances (options : LlmContextStoreOptions) (s : LlmContextStore) (c : String) : ContextCall → Prop
  | .commit amb reservation assistantResult =>
    (∃ receipt, (commit options amb s reservation assistantResult).1 = .ok receipt) ∧
      ∃ current, requireReservation s reservation = .ok current ∧ current.Mutates ∧
        current.request.contextId = some c
  | .release amb owner contextId baseVersion idempotencyKey =>
    (∃ receipt, (release options amb s owner contextId baseVersion idempotencyKey).1 = .ok receipt) ∧
      ¬ ReleaseKnown options amb s owner idempotencyKey ∧ contextId = c
  | _ => False

def FailsLeaving (options : LlmContextStoreOptions) (s : LlmContextStore) :
    ContextCall → JsMap String Entry → Prop
  | .reserve amb request, contexts => (∃ e, (reserve options amb s request).1 = .error e) →
      contexts = sweepContexts options (amb.clock 0) s.contexts
  | .commit amb reservation assistantResult, contexts =>
    (∃ e, (commit options amb s reservation assistantResult).1 = .error e) → contexts = s.contexts
  | .abort amb reservation errorCode, contexts =>
    (∃ e, (abort options amb s reservation errorCode).1 = .error e) → contexts = s.contexts
  | .release amb owner contextId baseVersion idempotencyKey, contexts =>
    (∃ e, (release options amb s owner contextId baseVersion idempotencyKey).1 = .error e) →
      contexts = sweepContexts options (amb.clock 0) s.contexts
  | .sweep _, _ => True

theorem failsLeaving_step {e : ContextCall} (hexpiry : expiryRepresentable s e = true) :
    FailsLeaving options s e (contextStep options s e).contexts := by
  cases e with
  | reserve amb request =>
    rintro ⟨err, herr⟩
    rw [contextStep]
    rcases reserve_cases options amb s request with
      ⟨e, heq⟩ | ⟨r', held, s', heq, -⟩
    · rw [heq]
      rfl
    · rw [heq] at herr
      cases herr
  | commit amb r' assistantResult =>
    rintro ⟨err, herr⟩
    rw [contextStep]
    rcases commit_cases options hexpiry with ⟨e, heq⟩ | ⟨current, receipt, s', -, heq, -⟩
    · rw [heq]
    · rw [heq] at herr
      cases herr
  | abort amb r' errorCode =>
    rintro ⟨err, herr⟩
    rw [contextStep]
    rcases abort_cases options amb s r' errorCode with
      ⟨e, heq⟩ | ⟨current, s', -, heq, -⟩
    · rw [heq]
    · rw [heq] at herr
      cases herr
  | release amb owner c baseVersion key =>
    rintro ⟨err, herr⟩
    rw [contextStep]
    rcases release_cases options amb s owner c baseVersion key with
      ⟨answer, heq, -⟩ | ⟨entry, next, receipt, s', heq, -⟩
    · rw [heq]
      rfl
    · rw [heq] at herr
      cases herr
  | sweep now => trivial

theorem not_mutates (hop : r.request.operation = .create ∨ r.request.operation = .fork) : ¬ r.Mutates := by
  rintro (h | h) <;> simp [h] at hop

structure VersionStep (options : LlmContextStoreOptions) (s : LlmContextStore) (c : String)
    (e : ContextCall) : Prop where
  advances : Advances options s c e → ∃ entry entry', s.contexts.get c = some entry ∧
    (contextStep options s e).contexts.get c = some entry' ∧ entry'.version = entry.version + 1
  otherwise : ¬ Advances options s c e → ∀ entry entry', s.contexts.get c = some entry →
    (contextStep options s e).contexts.get c = some entry' → entry'.version = entry.version

theorem VersionStep.of_unmoved {e : ContextCall} (hno : ¬ Advances options s c e)
    (h : Unmoved s.contexts (contextStep options s e).contexts) : VersionStep options s c e where
  advances hadv := absurd hadv hno
  otherwise _ entry entry' hentry hentry' := by
    obtain ⟨old, hold, hkept⟩ := h c entry' hentry'
    rw [hentry, Option.some.injEq] at hold
    rw [hkept.version, hold]

theorem version_commit {assistantResult : LlmMessageDto} (h : Consistent s)
    (hexpiry : expiryRepresentable s (.commit amb r assistantResult) = true) :
    VersionStep options s c (.commit amb r assistantResult) := by
  rcases commit_cases options hexpiry with ⟨e, heq⟩ |
    ⟨current, receipt, s', hcurrent, heq, -, hcase, -, -⟩
  · apply VersionStep.of_unmoved
    · rintro ⟨⟨receipt, hok⟩, -⟩
      rw [heq] at hok
      cases hok
    · rw [contextStep, heq]
      exact .refl _
  have hsome : ∀ current', requireReservation s r = .ok current' → current' = current := by
    intro current' h'
    rw [hcurrent] at h'
    exact (Except.ok.inj h').symm
  have hcontexts : (contextStep options s (.commit amb r assistantResult)).contexts = s'.contexts := by
    rw [contextStep, heq]
  generalize s'.contexts = contexts at hcase hcontexts
  cases hcase with
  | created hop hfresh hversion =>
    have hno : ¬ Advances options s c (.commit amb r assistantResult) := by
      rintro ⟨-, current', hcurrent', hmutates, -⟩
      rw [hsome current' hcurrent'] at hmutates
      exact not_mutates hop hmutates
    refine ⟨fun hadv => absurd hadv hno, fun _ entry entry' hentry hentry' => ?_⟩
    rw [hcontexts, JsMap.get_set] at hentry'
    split at hentry'
    · rename_i hc
      rw [← hc, hentry] at hfresh
      cases hfresh
    · rw [hentry, Option.some.injEq] at hentry'
      rw [hentry']
  | advanced hop hstored hlocated hversion =>
    rename_i entry
    obtain ⟨hmutates, hid, hheld⟩ := h.held hcurrent hop hstored
    have hnext : (nextEntry current entry (expiryOf amb current) assistantResult).version = entry.version + 1 := by
      rw [nextEntry]
      split <;> rfl
    constructor
    · rintro ⟨-, current', hcurrent', -, hc⟩
      rw [hsome current' hcurrent', hid, Option.some.injEq] at hc
      refine ⟨entry, _, by rw [← hc]; exact hheld.stored, ?_, hnext⟩
      rw [hcontexts, ← hc, JsMap.get_set_self]
    · intro hno old new hold hnew
      rw [hcontexts, JsMap.get_set] at hnew
      split at hnew
      · rename_i hc
        rw [hc] at hno
        exact absurd ⟨⟨receipt, by rw [heq]⟩, current, hcurrent, hmutates, hid⟩ hno
      · rw [hold, Option.some.injEq] at hnew
        rw [hnew]

theorem version_release {owner : LlmContextOwner} {c' : String} {baseVersion : ℤ} {key : String}
    (h : Consistent s) : VersionStep options s c (.release amb owner c' baseVersion key) := by
  have hswept : Consistent (sweep options s (amb.clock 0)).2 := h.sweep
  rcases release_cases options amb s owner c' baseVersion key with
    ⟨answer, heq, hknown⟩ | ⟨entry, next, receipt, s', heq, hnew, hcase, hcontexts, -, -⟩
  · apply VersionStep.of_unmoved
    · rintro ⟨⟨receipt, hok⟩, hnew, -⟩
      rw [heq] at hok
      exact hnew (hknown receipt hok)
    · rw [contextStep, heq]
      exact unmoved_sweepContexts s.contexts
  have hcontexts' : (contextStep options s (.release amb owner c' baseVersion key)).contexts =
      (sweepContexts options (amb.clock 0) s.contexts).set c' next := by
    rw [contextStep, heq]
    dsimp only
    rw [hcontexts, hswept.keyed _ _ hcase.stored]
  obtain ⟨old, hold, hkept⟩ := unmoved_sweepContexts s.contexts c' entry hcase.stored
  constructor
  · rintro ⟨-, -, rfl⟩
    refine ⟨old, next, hold, ?_, by rw [hcase.version, hkept.version]⟩
    rw [hcontexts', JsMap.get_set_self]
  · intro hno found found' hfound hfound'
    rw [hcontexts', JsMap.get_set] at hfound'
    split at hfound'
    · rename_i hc
      exact absurd ⟨⟨receipt, by rw [heq]⟩, hnew, hc.symm⟩ hno
    · obtain ⟨old', hold', hkept'⟩ := unmoved_sweepContexts s.contexts c found' hfound'
      rw [hfound, Option.some.injEq] at hold'
      rw [hkept'.version, hold']

theorem version_step {e : ContextCall} (h : Consistent s) (hexpiry : expiryRepresentable s e = true) :
    VersionStep options s c e := by
  cases e with
  | reserve amb request => exact .of_unmoved nofun (unmoved_reserve options amb request h)
  | commit amb r assistantResult => exact version_commit h hexpiry
  | abort amb r errorCode => exact .of_unmoved nofun unmoved_abort
  | release amb owner c' baseVersion key => exact version_release h
  | sweep now => exact .of_unmoved nofun (unmoved_sweepContexts s.contexts)

/-- What a run keeps of the versions of its contexts. -/
structure Optimistic (options : LlmContextStoreOptions) (es : List ContextCall) : Prop where
  /-- A version moves by the commits of appends and resets and by the release, and by nothing else. -/
  versions : ∀ pre e post c, es = pre ++ e :: post → VersionStep options (contextsAfter options pre) c e
  /-- A commit of an append or a reset is made to the version that its reservation was granted for. -/
  committed : ∀ pre amb r assistantResult post, es = pre ++ .commit amb r assistantResult :: post →
    ∀ current, requireReservation (contextsAfter options pre) r = .ok current → current.Mutates →
    ∀ receipt, (commit options amb (contextsAfter options pre) r assistantResult).1 = .ok receipt →
    ∃ before amb' request between, pre = before ++ .reserve amb' request :: between ∧
      (reserve options amb' (contextsAfter options before) request).1 = .ok current ∧
      ∃ c granted entry, request.contextId = some c ∧ request.baseVersion = some (granted.version : ℤ) ∧
        (contextsAfter options (before ++ [.reserve amb' request])).contexts.get c = some granted ∧
        (contextsAfter options pre).contexts.get c = some entry ∧
        entry.version = granted.version ∧ entry.transcript = granted.transcript ∧
        receipt.contextId = c ∧ receipt.version = granted.version + 1
  /-- One append or reset of a context is outstanding. -/
  exclusive : ∀ id id' r r', (contextsAfter options es).reservations.get id = some r →
    (contextsAfter options es).reservations.get id' = some r' → r.Mutates → r'.Mutates →
    r.request.contextId = r'.request.contextId → r = r'
  /-- What throws changes nothing but what its sweep does. -/
  failed : ∀ pre e post, es = pre ++ e :: post → FailsLeaving options (contextsAfter options pre) e
    (contextsAfter options (pre ++ [e])).contexts

theorem Consistent.held_of_get (h : Consistent s) {id : String} (hr : s.reservations.get id = some r)
    (hmutates : r.Mutates) : ∃ c entry, Held s.contexts r c entry := by
  rcases h.reserved id r hr with hop | ⟨-, hheld⟩
  · exact absurd hmutates (not_mutates hop)
  · exact hheld

theorem Consistent.exclusive (h : Consistent s) {id id' : String}
    (hr : s.reservations.get id = some r) (hr' : s.reservations.get id' = some r')
    (hmutates : r.Mutates) (hmutates' : r'.Mutates) (hc : r.request.contextId = r'.request.contextId) : r = r' := by
  obtain ⟨c, entry, hheld⟩ := h.held_of_get hr hmutates
  obtain ⟨c', entry', hheld'⟩ := h.held_of_get hr' hmutates'
  rw [hheld.located, hheld'.located, Option.some.injEq] at hc
  subst hc
  have hentry := hheld.stored.symm.trans hheld'.stored
  have hmark := hheld.marked
  rw [Option.some.inj hentry, hheld'.marked, Option.some.injEq, h.named id r hr, h.named id' r' hr'] at hmark
  rw [hmark, hr, Option.some.injEq] at hr'
  exact hr'

theorem Consistent.receipt_of_commit (h : Consistent s) {assistantResult : LlmMessageDto} {entry : Entry}
    {receipt : LlmContextReceiptDto} (hexpiry : expiryRepresentable s (.commit amb r assistantResult) = true)
    (hcurrent : requireReservation s r = .ok current) (hheld : Held s.contexts current c entry)
    (hmutates : current.Mutates) (hok : (commit options amb s r assistantResult).1 = .ok receipt) :
    receipt.contextId = c ∧ receipt.version = entry.version + 1 := by
  rcases commit_cases options hexpiry with ⟨e, heq⟩ |
    ⟨current', receipt', s', hcurrent', heq, -, hcase, -, -⟩
  · rw [heq] at hok
    cases hok
  rw [heq] at hok
  cases hok
  rw [hcurrent] at hcurrent'
  cases hcurrent'
  generalize s'.contexts = contexts at hcase
  cases hcase with
  | created hop => exact absurd hmutates (not_mutates hop)
  | advanced hop hstored hlocated hversion =>
    rw [hheld.located, Option.getD_some, hheld.stored, Option.some.injEq] at hstored
    subst hstored
    exact ⟨hlocated.trans (h.keyed _ _ hheld.stored), hversion⟩

/-- **Optimistic concurrency.**  In every run whose commits make contexts expire at dates there are. -/
theorem optimistic_concurrency (es : List ContextCall)
    (h : Along (contextStep options) (fun s e => expiryRepresentable s e = true) {} es) :
    Optimistic options es where
  versions pre e post c hes := by
    obtain ⟨hpre, he⟩ := h.upTo hes
    exact version_step (consistent_contextsAfter hpre) he
  committed pre amb r assistantResult post hes current hcurrent hmutates receipt hok := by
    obtain ⟨hpre, he⟩ := h.upTo hes
    have hnow := consistent_contextsAfter hpre
    obtain ⟨before, amb', request, between, rfl, hgrant⟩ := reserved_earlier hpre (hnow.get_current hcurrent)
    obtain ⟨hbefore, hreserve⟩ := hpre.upTo rfl
    obtain ⟨hstored, rfl⟩ := stored_of_reserve hgrant
    have hthen := consistent_contextsAfter (along_snoc.2 ⟨hbefore, hreserve⟩)
    have hsnoc : (contextsAfter options (before ++ [.reserve amb' current.request])).reservations.get
        current.reservationId = some current := by
      rw [contextsAfter, run_snoc]
      exact hstored
    obtain ⟨c, granted, hgranted⟩ := hthen.held_of_get hsnoc hmutates
    obtain ⟨c', entry, hentry⟩ := hnow.held_of_get (hnow.get_current hcurrent) hmutates
    have hc : c = c' := Option.some.inj (hgranted.located.symm.trans hentry.located)
    subst hc
    have hversion : entry.version = granted.version := by
      have := Option.some.inj (hentry.version.symm.trans hgranted.version)
      omega
    obtain ⟨hid, hreceipt⟩ := hnow.receipt_of_commit he hcurrent hentry hmutates hok
    exact ⟨before, amb', current.request, between, rfl, hgrant, c, granted, entry, hgranted.located,
      hgranted.version, hgranted.stored, hentry.stored, hversion,
      hentry.transcript.symm.trans hgranted.transcript, hid, by rw [hreceipt, hversion]⟩
  exclusive id id' r r' := (consistent_contextsAfter h).exclusive
  failed pre e post hes := by
    obtain ⟨-, he⟩ := h.upTo hes
    rw [show contextsAfter options (pre ++ [e]) = contextStep options (contextsAfter options pre) e from
      run_snoc]
    exact failsLeaving_step he

/-! ### A sample run -/

def sampleStoreOptions : LlmContextStoreOptions := { bindingFingerprint := fun binding => binding.model }

def sampleStoreAmbient (now : ℚ) (uuid : String) : StoreAmbient :=
  { clock := fun _ => now, contextIds := fun _ => some "AAAAAAAAAAAAAAAAAAAAAA", uuid }

def sampleMessage (role content : String) : LlmMessageDto := { role, content := some content }

def sampleCreate : LlmContextMutationRequest :=
  { operation := .create, owner := ⟨"alice", "default"⟩
    binding := { model := "m", systemMessages := [], runtimeRevision := "1" }
    messages := [sampleMessage "user" "hello"], idempotencyKey := "first", requestId := "1" }

def sampleAppend : LlmContextMutationRequest :=
  { sampleCreate with
    operation := .append, contextId := some "AAAAAAAAAAAAAAAAAAAAAA", baseVersion := some 1
    messages := [sampleMessage "user" "again"], idempotencyKey := "second", requestId := "2" }

/-- The reservation a request is granted as the `object`-th. -/
def sampleReservation (object : ℕ) (uuid : String) (request : LlmContextMutationRequest) :
    LlmContextMutationReservation :=
  { object, reservationId := uuid, request, bindingFingerprint := "m", baseTranscript := [] }

def sampleRun : List ContextCall :=
  [.reserve (sampleStoreAmbient 0 "r") sampleCreate,
    .commit (sampleStoreAmbient 1 "") (sampleReservation 0 "r" sampleCreate)
      (sampleMessage "assistant" "hi"),
    .reserve (sampleStoreAmbient 2 "q") sampleAppend,
    .commit (sampleStoreAmbient 3 "") (sampleReservation 1 "q" sampleAppend)
      (sampleMessage "assistant" "yes")]

theorem optimistic_sampleRun : Optimistic sampleStoreOptions sampleRun ∧
    ((contextsAfter sampleStoreOptions sampleRun).contexts.get "AAAAAAAAAAAAAAAAAAAAAA").map Entry.version =
      some 2 :=
  ⟨optimistic_concurrency sampleRun (along_of_alongAll (by decide +kernel)), by decide +kernel⟩

end NpsSdk.Nwp
