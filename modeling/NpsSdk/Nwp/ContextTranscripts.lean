import NpsSdk.Nwp.ContextVersions

/-!
# Transcripts of contexts

The history of a context is what has been committed to it, and its transcript is read off that history.
An observer of the calls keeps a ledger of histories; the store agrees with it as long as its commits
go through once they have changed a context.
-/

namespace NpsSdk.Nwp

open NpsSdk.Lib

/-! ### Histories -/

/-- The commits a context came from. -/
inductive History
  | create (messages : List LlmMessageDto) (assistantResult : LlmMessageDto)
  | append (base : History) (messages : List LlmMessageDto) (assistantResult : LlmMessageDto)
  | reset (base : History) (messages : List LlmMessageDto) (assistantResult : LlmMessageDto)
  | fork (parent : History) (messages : List LlmMessageDto) (assistantResult : LlmMessageDto)

namespace History

def transcript : History → List LlmMessageDto
  | create messages assistantResult => messages ++ [assistantResult]
  | append base messages assistantResult => base.transcript ++ messages ++ [assistantResult]
  | reset _ messages assistantResult => messages ++ [assistantResult]
  | fork parent messages assistantResult => parent.transcript ++ messages ++ [assistantResult]

def version : History → ℕ
  | create _ _ => 1
  | append base _ _ => base.version + 1
  | reset base _ _ => base.version + 1
  | fork _ _ _ => 1

end History

/-- The history a commit makes; `ground` is the one its reservation was granted on. -/
def committed (ground : Option History) (messages : List LlmMessageDto) (assistantResult : LlmMessageDto) :
    LlmContextOperation → Option History
  | .create => some (.create messages assistantResult)
  | .append => ground.map fun base => .append base messages assistantResult
  | .reset => ground.map fun base => .reset base messages assistantResult
  | .fork => ground.map fun parent => .fork parent messages assistantResult
  | .release => none

/-- What an observer of the calls knows. -/
structure Ledger where
  /-- The history of each context. -/
  histories : String → Option History := fun _ => none
  /-- The history a reservation was granted on, for each reservation object. -/
  grounds : ℕ → Option History := fun _ => none

variable (options : LlmContextStoreOptions)

/-- The observer sees the calls and what they answer. -/
def Ledger.record (l : Ledger) (s : LlmContextStore) : ContextCall → Ledger
  | .reserve amb request =>
    match (reserve options amb s request).1 with
    | .ok r => { l with grounds := Function.update l.grounds r.object (request.contextId.bind l.histories) }
    | .error _ => l
  | .commit amb reservation assistantResult =>
    match requireReservation s reservation, (commit options amb s reservation assistantResult).1 with
    | .ok current, .ok receipt =>
      let history :=
        committed (l.grounds current.object) current.request.messages assistantResult receipt.operation
      { l with histories := Function.update l.histories receipt.contextId history }
    | _, _ => l
  | _ => l

/-- The store and its observer. -/
def ledgerStep (w : LlmContextStore × Ledger) (e : ContextCall) : LlmContextStore × Ledger :=
  (contextStep options w.1 e, w.2.record options w.1 e)

def ledgerAfter (es : List ContextCall) : Ledger := (run (ledgerStep options) ({}, {}) es).2

/-- **The law of transcripts**: each context has the transcript of its history, and each reservation the
one of the version it was granted for. -/
structure TranscriptLaw (s : LlmContextStore) (l : Ledger) : Prop where
  stored : ∀ c entry, s.contexts.get c = some entry → ∃ h, l.histories c = some h ∧
    entry.transcript = h.transcript ∧
    entry.version = if entry.state = .released then h.version + 1 else h.version
  granted : ∀ id r, s.reservations.get id = some r → r.request.operation ≠ .create →
    ∃ g, l.grounds r.object = some g ∧ r.baseTranscript = g.transcript ∧
      r.request.baseVersion = some (g.version : ℤ)

def TranscriptFrame (options : LlmContextStoreOptions) (s : LlmContextStore) (e : ContextCall) : Prop :=
  ∀ c entry entry', s.contexts.get c = some entry → (contextStep options s e).contexts.get c = some entry' →
    entry'.transcript ≠ entry.transcript →
    ∃ amb r assistantResult, e = .commit amb r assistantResult ∧ Advances options s c e

variable {options} {amb : StoreAmbient} {s s' : LlmContextStore} {l : Ledger} {c : String}
  {request : LlmContextMutationRequest} {r current : LlmContextMutationReservation}

/-! ### Calls that commit nothing -/

theorem ledgerAfter_snoc {es : List ContextCall} {e : ContextCall} :
    ledgerAfter options (es ++ [e]) = (ledgerAfter options es).record options (contextsAfter options es) e := by
  have hfst : ∀ es, (run (ledgerStep options) ({}, {}) es).1 = contextsAfter options es := by
    intro es
    induction es using List.reverseRecOn with
    | nil => rfl
    | append_singleton es e ih => rw [run_snoc, ledgerStep, ih, contextsAfter, contextsAfter, run_snoc]
  rw [ledgerAfter, run_snoc, ledgerStep, hfst]
  rfl

theorem TranscriptLaw.of_unmoved (h : TranscriptLaw s l) (hunmoved : Unmoved s.contexts s'.contexts)
    (hreservations : ∀ id r, s'.reservations.get id = some r → s.reservations.get id = some r) :
    TranscriptLaw s' l where
  stored c entry' hentry' := by
    obtain ⟨entry, hentry, hkept⟩ := hunmoved c entry' hentry'
    obtain ⟨history, hhistory, htranscript, hversion⟩ := h.stored c entry hentry
    refine ⟨history, hhistory, hkept.transcript.trans htranscript, ?_⟩
    rw [hkept.version, hversion]
    simp only [hkept.released]
  granted id r hr := h.granted id r (hreservations id r hr)

theorem TranscriptLaw.sweep {now : ℚ} (h : TranscriptLaw s l) : TranscriptLaw (sweep options s now).2 l :=
  h.of_unmoved (unmoved_sweepContexts s.contexts) fun _ _ hr => hr

theorem GrantedOn.ground {entry : Entry} (hon : GrantedOn s request r c entry) (h : TranscriptLaw s l) :
    ∃ g, request.contextId.bind l.histories = some g ∧ r.baseTranscript = g.transcript ∧
      request.baseVersion = some (g.version : ℤ) := by
  obtain ⟨history, hhistory, htranscript, hversion⟩ := h.stored c entry hon.stored
  rw [if_neg hon.live.2] at hversion
  refine ⟨history, ?_, hon.transcript.trans htranscript, by rw [hon.version, hversion]⟩
  rw [hon.located, Option.bind_some, hhistory]

theorem law_reserve (hs : Consistent s) (h : TranscriptLaw s l) :
    TranscriptLaw (contextStep options s (.reserve amb request)) (l.record options s (.reserve amb request)) := by
  have hunmoved := unmoved_reserve options amb request hs
  rw [contextStep, Ledger.record]
  rcases reserve_cases options amb s request with
    ⟨e, heq⟩ | ⟨r, held, s', heq, hrequest, hobject, -, hcase, -, hreservations, -⟩
  · rw [heq]
    exact h.sweep
  rw [heq] at hunmoved ⊢
  have hswept : TranscriptLaw (sweep options s (amb.clock 0)).2 l := h.sweep
  constructor
  · have hkept : TranscriptLaw { s with contexts := s'.contexts } l := h.of_unmoved hunmoved fun _ _ hr => hr
    exact hkept.stored
  · intro id r' hr' hop
    dsimp only at hr' ⊢
    rw [hreservations, JsMap.get_set] at hr'
    split at hr'
    · cases hr'
      rw [Function.update_self, hrequest]
      rw [hrequest] at hop
      cases hcase with
      | create hcreate => exact absurd hcreate hop
      | fork _ hon => exact hon.ground hswept
      | mutation _ hon => exact hon.ground hswept
    · have hne : r'.object ≠ r.object := by
        have := hs.made id r' hr'
        omega
      rw [Function.update_of_ne hne]
      exact h.granted id r' hr' hop

/-! ### Commits -/

variable {assistantResult : LlmMessageDto} {expiry : Option ℚ}

theorem nextEntry_transcript {entry : Entry} :
    (nextEntry current entry expiry assistantResult).transcript =
      (if current.request.operation = .reset then [] else entry.transcript) ++
        current.request.messages ++ [assistantResult] := by
  unfold nextEntry
  dsimp only
  split <;> rfl

variable (current) in
theorem nextEntry_version (entry : Entry) (expiry : Option ℚ) (assistantResult : LlmMessageDto) :
    (nextEntry current entry expiry assistantResult).version = entry.version + 1 := by
  unfold nextEntry
  dsimp only
  split <;> rfl

theorem nextEntry_state {entry : Entry} : (nextEntry current entry expiry assistantResult).state = .active := by
  unfold nextEntry
  dsimp only
  split <;> rfl

/-- The context a commit makes or changes has the transcript of the history that is recorded for it. -/
theorem committed_of_case {receipt : LlmContextReceiptDto} {contexts : JsMap String Entry} (hs : Consistent s)
    (h : TranscriptLaw s l) (hcurrent : requireReservation s r = .ok current)
    (hcase : CommitCase s current expiry assistantResult receipt contexts) :
    ∃ entry history, contexts = s.contexts.set receipt.contextId entry ∧
      committed (l.grounds current.object) current.request.messages assistantResult
        current.request.operation = some history ∧
      entry.transcript = history.transcript ∧ entry.version = history.version ∧ entry.state = .active := by
  have hget := hs.get_current hcurrent
  cases hcase with
  | created hop hfresh hversion =>
    rcases hop with hop | hop
    · refine ⟨_, _, rfl, by rw [hop]; rfl, ?_, rfl, rfl⟩
      simp [newEntry, hop, History.transcript]
    · obtain ⟨g, hg, htranscript, -⟩ := h.granted _ _ hget (by rw [hop]; nofun)
      refine ⟨_, .fork g current.request.messages assistantResult, rfl, ?_, ?_, rfl, rfl⟩
      · rw [hop, hg]
        rfl
      · simp [newEntry, hop, History.transcript, htranscript]
  | advanced hop hstored hlocated hversion =>
    rename_i entry
    obtain ⟨hmutates, -, hheld⟩ := hs.held hcurrent hop hstored
    obtain ⟨g, hg, htranscript, hbase⟩ := h.granted _ _ hget fun hcreate => hop (.inl hcreate)
    have hentry : entry.version = g.version := by
      have := Option.some.inj (hheld.version.symm.trans hbase)
      omega
    have hnext := nextEntry_version current entry expiry assistantResult
    rw [← hlocated]
    rcases hmutates with happend | hreset
    · refine ⟨_, .append g current.request.messages assistantResult, rfl, ?_, ?_, ?_, nextEntry_state⟩
      · rw [happend, hg]
        rfl
      · rw [nextEntry_transcript, happend, if_neg nofun, ← hheld.transcript, htranscript]
        rfl
      · rw [hnext, hentry]
        rfl
    · refine ⟨_, .reset g current.request.messages assistantResult, rfl, ?_, ?_, ?_, nextEntry_state⟩
      · rw [hreset, hg]
        rfl
      · rw [nextEntry_transcript, if_pos hreset]
        rfl
      · rw [hnext, hentry]
        rfl

theorem law_commit (hs : Consistent s) (h : TranscriptLaw s l)
    (hexpiry : expiryRepresentable s (.commit amb r assistantResult) = true) :
    TranscriptLaw (contextStep options s (.commit amb r assistantResult))
      (l.record options s (.commit amb r assistantResult)) := by
  rw [contextStep, Ledger.record]
  rcases commit_cases options hexpiry with ⟨e, heq⟩ |
    ⟨current, receipt, s', hcurrent, heq, hoperation, hcase, hreservations, -⟩
  · rw [heq]
    split
    · rename_i hok
      cases hok
    · exact h
  rw [heq, hcurrent]
  obtain ⟨entry, history, hcontexts, hhistory, htranscript, hversion, hstate⟩ :=
    committed_of_case hs h hcurrent hcase
  constructor
  · intro c found hfound
    dsimp only at hfound ⊢
    rw [hcontexts, JsMap.get_set] at hfound
    split at hfound
    · rename_i hc
      cases hfound
      refine ⟨history, ?_, htranscript, ?_⟩
      · rw [hc, Function.update_self, hoperation, hhistory]
      · rw [hstate, if_neg (by simp), hversion]
    · rw [Function.update_of_ne ‹_›]
      exact h.stored c found hfound
  · intro id r' hr'
    dsimp only at hr'
    rw [hreservations] at hr'
    exact h.granted id r' (get_of_delete hr').2

/-! ### The law -/

theorem law_release {owner : LlmContextOwner} {c' : String} {baseVersion : ℤ} {key : String}
    (hs : Consistent s) (h : TranscriptLaw s l) :
    TranscriptLaw (contextStep options s (.release amb owner c' baseVersion key)) l := by
  have hconsistent : Consistent (sweep options s (amb.clock 0)).2 := hs.sweep
  have hswept : TranscriptLaw (sweep options s (amb.clock 0)).2 l := h.sweep
  rw [contextStep]
  rcases release_cases options amb s owner c' baseVersion key with
    ⟨answer, heq, hknown⟩ | ⟨entry, next, receipt, s', heq, hnew, hcase, hcontexts, hreservations, -⟩
  · rw [heq]
    exact hswept
  rw [heq]
  constructor
  · intro c found hfound
    dsimp only at hfound
    rw [hcontexts, JsMap.get_set] at hfound
    split at hfound
    · rename_i hc
      cases hfound
      obtain ⟨history, hhistory, htranscript, hversion⟩ := hswept.stored c' entry hcase.stored
      rw [hconsistent.keyed _ _ hcase.stored] at hc
      rw [if_neg hcase.live] at hversion
      refine ⟨history, by rw [hc, hhistory], hcase.transcript.trans htranscript, ?_⟩
      rw [hcase.version, if_pos hcase.state, hversion]
    · exact hswept.stored c found hfound
  · intro id r hr
    dsimp only at hr
    rw [hreservations] at hr
    exact h.granted id r hr

theorem law_step {e : ContextCall} (hs : Consistent s) (h : TranscriptLaw s l)
    (hexpiry : expiryRepresentable s e = true) : TranscriptLaw (contextStep options s e) (l.record options s e) := by
  cases e with
  | reserve amb request => exact law_reserve hs h
  | commit amb r assistantResult => exact law_commit hs h hexpiry
  | abort amb r errorCode =>
    apply h.of_unmoved unmoved_abort
    intro id r' hr'
    rcases reservation_step hexpiry hr' with hold | ⟨amb', request, hno, -⟩
    · exact hold
    · cases hno
  | release amb owner c baseVersion key => exact law_release hs h
  | sweep now => exact h.sweep

theorem law_empty : TranscriptLaw {} {} where
  stored _ _ h := by cases h
  granted _ _ h := by cases h

theorem frame_step {e : ContextCall} (hs : Consistent s) (hexpiry : expiryRepresentable s e = true) :
    TranscriptFrame options s e := by
  have hunmoved : Unmoved s.contexts (contextStep options s e).contexts → TranscriptFrame options s e := by
    intro h c entry entry' hentry hentry' hne
    obtain ⟨old, hold, hkept⟩ := h c entry' hentry'
    rw [hentry, Option.some.injEq] at hold
    rw [← hold] at hkept
    exact absurd hkept.transcript hne
  cases e with
  | reserve amb request => exact hunmoved (unmoved_reserve options amb request hs)
  | commit amb r assistantResult =>
    intro c entry entry' hentry hentry' hne
    refine ⟨amb, r, assistantResult, rfl, ?_⟩
    rw [contextStep] at hentry'
    rcases commit_cases options hexpiry with ⟨e, heq⟩ |
      ⟨current, receipt, s', hcurrent, heq, -, hcase, -, -⟩
    · rw [heq] at hentry'
      rw [hentry, Option.some.injEq] at hentry'
      exact absurd (by rw [hentry']) hne
    rw [heq] at hentry'
    dsimp only at hentry'
    generalize s'.contexts = contexts at hcase hentry'
    cases hcase with
    | created hop hfresh hversion =>
      rw [JsMap.get_set] at hentry'
      split at hentry'
      · rename_i hc
        rw [← hc, hentry] at hfresh
        cases hfresh
      · rw [hentry, Option.some.injEq] at hentry'
        exact absurd (by rw [hentry']) hne
    | advanced hop hstored hlocated hversion =>
      obtain ⟨hmutates, hid, -⟩ := hs.held hcurrent hop hstored
      rw [JsMap.get_set] at hentry'
      split at hentry'
      · rename_i hc
        rw [hc]
        exact ⟨⟨receipt, by rw [heq]⟩, current, hcurrent, hmutates, hid⟩
      · rw [hentry, Option.some.injEq] at hentry'
        exact absurd (by rw [hentry']) hne
  | abort amb r errorCode => exact hunmoved unmoved_abort
  | release amb owner c' baseVersion key =>
    intro c entry entry' hentry hentry' hne
    refine absurd ?_ hne
    have hkept : ∀ c found found', s.contexts.get c = some found →
        (sweepContexts options (amb.clock 0) s.contexts).get c = some found' →
        found'.transcript = found.transcript := by
      intro c found found' hfound hfound'
      obtain ⟨old, hold, hkept⟩ := unmoved_sweepContexts s.contexts c found' hfound'
      rw [hfound, Option.some.injEq] at hold
      rw [hkept.transcript, hold]
    rw [contextStep] at hentry'
    rcases release_cases options amb s owner c' baseVersion key with
      ⟨answer, heq, -⟩ | ⟨found, next, receipt, s', heq, -, hcase, hcontexts, -, -⟩
    · rw [heq] at hentry'
      exact hkept c entry entry' hentry hentry'
    · rw [heq] at hentry'
      dsimp only at hentry'
      rw [hcontexts, JsMap.get_set] at hentry'
      split at hentry'
      · rename_i hc
        cases hentry'
        have hid : found.contextId = c' := hs.sweep.keyed _ _ hcase.stored
        rw [hc, hid] at hentry
        exact hcase.transcript.trans (hkept c' entry found hentry hcase.stored)
      · exact hkept c entry entry' hentry hentry'
  | sweep now => exact hunmoved (unmoved_sweepContexts s.contexts)

/-- **Transcripts.**  While the commits make contexts expire at dates there are, every context has the
transcript of its history, and only a commit to it changes that. -/
theorem transcript_law (es : List ContextCall)
    (h : Along (contextStep options) (fun s e => expiryRepresentable s e = true) {} es) :
    TranscriptLaw (contextsAfter options es) (ledgerAfter options es) ∧
      ∀ pre e post, es = pre ++ e :: post → TranscriptFrame options (contextsAfter options pre) e := by
  constructor
  · induction es using List.reverseRecOn with
    | nil => exact law_empty
    | append_singleton es e ih =>
      obtain ⟨hes, he⟩ := along_snoc.1 h
      rw [contextsAfter, run_snoc, ledgerAfter_snoc]
      exact law_step (consistent_contextsAfter hes) (ih hes) he
  · intro pre e post hes
    obtain ⟨hpre, he⟩ := h.upTo hes
    exact frame_step (consistent_contextsAfter hpre) he

theorem transcript_law_sampleRun :
    TranscriptLaw (contextsAfter sampleStoreOptions sampleRun) (ledgerAfter sampleStoreOptions sampleRun) ∧
      ((contextsAfter sampleStoreOptions sampleRun).contexts.get "AAAAAAAAAAAAAAAAAAAAAA").map
        Entry.transcript = some [sampleMessage "user" "hello", sampleMessage "assistant" "hi",
          sampleMessage "user" "again", sampleMessage "assistant" "yes"] :=
  ⟨(transcript_law sampleRun (along_of_alongAll (by decide +kernel))).1, by decide +kernel⟩

/-! ### A date that is out of range -/

/-- A store that lets a context live for as long as a request wants. -/
def unboundedOptions : LlmContextStoreOptions :=
  { sampleStoreOptions with maxTtlSeconds := 9007199254740991 }

/-- An append that is to live past the last date there is. -/
def endlessAppend : LlmContextMutationRequest := { sampleAppend with ttlSeconds := some 9007199254740991 }

def endlessRun : List ContextCall :=
  [.reserve (sampleStoreAmbient 0 "r") sampleCreate,
    .commit (sampleStoreAmbient 1 "") (sampleReservation 0 "r" sampleCreate)
      (sampleMessage "assistant" "hi"),
    .reserve (sampleStoreAmbient 2 "q") endlessAppend,
    .commit (sampleStoreAmbient 3 "") (sampleReservation 1 "q" endlessAppend)
      (sampleMessage "assistant" "yes")]

/-- The commit of the append throws once the context has the new messages. -/
theorem endless_append_uncommitted :
    ¬ ∀ (options : LlmContextStoreOptions) (es : List ContextCall),
      TranscriptLaw (contextsAfter options es) (ledgerAfter options es) := by
  intro hall
  have hstored : ((contextsAfter unboundedOptions endlessRun).contexts.get "AAAAAAAAAAAAAAAAAAAAAA").map
      Entry.transcript = some [sampleMessage "user" "hello", sampleMessage "assistant" "hi",
        sampleMessage "user" "again", sampleMessage "assistant" "yes"] := by decide +kernel
  have hledger : ((ledgerAfter unboundedOptions endlessRun).histories "AAAAAAAAAAAAAAAAAAAAAA").map
      History.transcript = some [sampleMessage "user" "hello", sampleMessage "assistant" "hi"] := by
    decide +kernel
  obtain ⟨entry, hentry, htranscript⟩ := Option.map_eq_some_iff.1 hstored
  obtain ⟨history, hhistory, hlaw, -⟩ := (hall unboundedOptions endlessRun).stored _ entry hentry
  rw [hhistory, Option.map_some, ← hlaw, htranscript] at hledger
  revert hledger
  decide

end NpsSdk.Nwp
