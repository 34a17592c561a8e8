import NpsSdk.Nwp.ActionOnce

/-!
# Idempotency entries of different callers

An entry is stored under one string, which is joined from the action, the caller and the idempotency key.  As
long as the requests of a run that differ in one of these differ in the string, too, none is answered out of
the entry of another.
-/

namespace NpsSdk.Nwp.ActionNode

open NpsSdk.Lib

variable {V : Type} (options : ActionNodeOptions) (host : Host V)

def Ask.triple (a : Ask) : String × Option String × Option String :=
  (a.frame.actionId, a.agentNid, a.frame.idempotencyKey)

/-- Requests whose entries are stored under one string agree in their triples. -/
def Apart (as : List Ask) : Prop :=
  ∀ a ∈ as, ∀ b ∈ as, (a.cacheKey options).isSome → a.cacheKey options = b.cacheKey options →
    a.triple = b.triple

instance (as : List Ask) : Decidable (Apart options as) :=
  inferInstanceAs (Decidable (∀ a ∈ as, ∀ b ∈ as, _ → _ → _))

/-! ### Whose entry it is -/

deriving instance DecidableEq for IdempotentEntry

/-- Which call each entry is of: the one whose event has put it where it is. -/
def owners [DecidableEq V] (owner : String → Option ℕ) (s : ActionNodeApp V) (e : Event V) :
    String → Option ℕ := fun k =>
  if JsMap.get (appStep options host s e).idempotency k = JsMap.get s.idempotency k then owner k else e.call?

/-- Which call each entry is of, after some events. -/
def ownersAfter [DecidableEq V] (es : List (Event V)) : String → Option ℕ :=
  noted (owners options host) (appStep options host) (fun _ => none) {} es

/-- The call that an event answers out of an entry, be it with a result or with a conflict, and the string the
entry is stored under. -/
def answeredFrom (s : ActionNodeApp V) : Event V → Option (ℕ × String)
  | .authorized amb i (.ok ()) =>
    match s.calls[i]? with
    | none => none
    | some c =>
      if c.phase ≠ .authorizing then none
      else match truthy c.frame.idempotencyKey with
        | none => none
        | some key =>
          let actionId := scopedCacheActionId options c.frame.actionId c.context.agentNid
          match (s.idempotency.get (amb.clock s.now 0) actionId key).1 with
          | none => none
          | some _ => some (i, IdempotencyCache.key actionId key)
  | _ => none

/-- **Isolation**: a request that is answered out of an entry has the triple of the request that has stored
it. -/
def Isolated (s : ActionNodeApp V) (owner : String → Option ℕ) (e : Event V) : Prop :=
  ∀ i k j c d, answeredFrom options s e = some (i, k) → owner k = some j → s.calls[i]? = some c →
    s.calls[j]? = some d → c.ask.triple = d.ask.triple

variable {options host} {s : ActionNodeApp V} {i : ℕ} {c : Call V} {amb : Ambient}

/-! ### What a turn changes -/

/-- A turn of a call changes no other one, leaves what it asks, and changes no entry under another string. -/
structure Keeps (options : ActionNodeOptions) (s : ActionNodeApp V) (i : ℕ) (c : Call V) (s' : ActionNodeApp V) :
    Prop where
  calls : ∃ c', s'.calls = s.calls.set i c' ∧ c'.ask = c.ask
  entries : ∀ k, c.ask.cacheKey options ≠ some k → JsMap.get s'.idempotency k = JsMap.get s.idempotency k

theorem Keeps.of_calls {s' : ActionNodeApp V} {c' : Call V} (hcalls : s'.calls = s.calls.set i c')
    (hask : c'.ask = c.ask) (hentries : s'.idempotency = s.idempotency) : Keeps options s i c s' :=
  ⟨⟨c', hcalls, hask⟩, fun k _ => by rw [hentries]⟩

theorem Keeps.same (hi : s.calls[i]? = some c) : Keeps options s i c s := by
  obtain ⟨hlt, rfl⟩ := List.getElem?_eq_some_iff.1 hi
  exact Keeps.of_calls (List.set_getElem_self hlt).symm rfl rfl

theorem get_store {now : ℚ} {entry : IdempotentEntry V} {cache : IdempotencyCache V} {k : String}
    (hk : c.ask.cacheKey options ≠ some k) : JsMap.get (store options now c entry cache) k = JsMap.get cache k := by
  unfold store
  cases hkey : truthy c.frame.idempotencyKey with
  | none => rfl
  | some key =>
    rw [cacheKey_eq hkey, ne_eq, Option.some.injEq] at hk
    dsimp only
    unfold IdempotencyCache.tryStore
    dsimp only
    split
    · rw [JsMap.get_set, if_neg (Ne.symm hk)]
    · split
      · rw [JsMap.get_set, if_neg (Ne.symm hk), JsMap.get_delete, if_neg (Ne.symm hk)]
      · rfl

theorem Keeps.stores {s' : ActionNodeApp V} {c' : Call V} {now : ℚ} {entry : IdempotentEntry V}
    (hcalls : s'.calls = s.calls.set i c') (hask : c'.ask = c.ask)
    (hentries : s'.idempotency = store options now c entry s.idempotency) : Keeps options s i c s' :=
  ⟨⟨c', hcalls, hask⟩, fun k hk => by rw [hentries, get_store hk]⟩

theorem Keeps.earlier {s' : ActionNodeApp V} {cache : IdempotencyCache V}
    (h : Keeps options { s with idempotency := cache } i c s')
    (hcache : ∀ k, c.ask.cacheKey options ≠ some k → JsMap.get cache k = JsMap.get s.idempotency k) :
    Keeps options s i c s' := ⟨h.calls, fun k hk => (h.entries k hk).trans (hcache k hk)⟩

theorem startTask_keeps : Keeps options s i c (startTask options host amb s i c) := by
  unfold startTask
  dsimp only
  split
  · exact Keeps.of_calls rfl rfl rfl
  · split
    · exact Keeps.stores rfl rfl rfl
    · exact Keeps.stores rfl rfl rfl

theorem lookup_keeps : Keeps options s i c (lookup options host amb s i c) := by
  have hstart : ∀ s : ActionNodeApp V, Keeps options s i c
      (if c.frame.async_ then startTask options host amb s i c else startExecution amb s i c) := by
    intro s
    split
    · exact startTask_keeps
    · exact Keeps.of_calls rfl rfl rfl
  unfold lookup
  dsimp only
  cases hkey : truthy c.frame.idempotencyKey with
  | none => exact hstart s
  | some key =>
    dsimp only
    rcases IdempotencyCache.get_cases s.idempotency (amb.clock s.now 0)
        (scopedCacheActionId options c.frame.actionId c.context.agentNid) key with
      ⟨cached, -, -, hget⟩ | ⟨cache, hget, -, -, hothers⟩
    · rw [hget]
      exact Keeps.of_calls rfl (replay_frame cached).1 rfl
    · rw [hget]
      refine (hstart _).earlier fun k hk => hothers k ?_
      rw [cacheKey_eq hkey, ne_eq, Option.some.injEq] at hk
      exact Ne.symm hk

theorem settleExecution_keeps {aborted : Bool} (result : Except Thrown (ActionExecutionResult V)) :
    Keeps options s i c (settleExecution options host amb s i c aborted result) := by
  cases result with
  | error thrown => exact Keeps.of_calls rfl rfl rfl
  | ok result =>
    unfold settleExecution
    dsimp only
    split
    · exact Keeps.of_calls rfl rfl rfl
    · exact Keeps.stores rfl rfl rfl

theorem pumpCall_keeps (st : StreamRun V) (item : StreamItem V) :
    Keeps options s i c (pumpCall options host amb s i c st item) := by
  unfold pumpCall
  dsimp only
  split
  · exact Keeps.of_calls rfl rfl rfl
  · exact Keeps.of_calls rfl rfl rfl
  · exact Keeps.stores rfl rfl rfl
  · exact Keeps.of_calls rfl rfl rfl

variable (options host) in
/-- What one turn of a call keeps. -/
theorem callStep_keeps (hi : s.calls[i]? = some c) (e : Event V) :
    Keeps options s i c (callStep options host s i c e) := by
  cases e with
  | request => exact Keeps.same hi
  | authorized amb j answer =>
    unfold callStep
    dsimp only
    split
    · exact Keeps.same hi
    · split
      · exact Keeps.of_calls rfl rfl rfl
      · exact lookup_keeps
  | timeout j =>
    unfold callStep
    dsimp only
    split
    · exact Keeps.of_calls rfl rfl rfl
    · exact Keeps.of_calls rfl rfl rfl
    · split
      · exact Keeps.of_calls rfl rfl rfl
      · exact Keeps.same hi
    · exact Keeps.same hi
  | settled amb j outcome =>
    unfold callStep
    dsimp only
    split
    · split
      · exact settleExecution_keeps _
      · exact Keeps.same hi
    · split
      · rename_i result _
        cases result <;> exact Keeps.of_calls rfl rfl rfl
      · exact Keeps.same hi
    · exact Keeps.same hi
  | pulled amb j item =>
    unfold callStep
    dsimp only
    split
    · exact pumpCall_keeps _ item
    · exact Keeps.same hi
  | readerCancelled j =>
    unfold callStep
    dsimp only
    split
    · exact Keeps.of_calls rfl rfl rfl
    · exact Keeps.same hi
  | requestAborted j =>
    unfold callStep
    dsimp only
    split
    · split
      · exact Keeps.of_calls rfl rfl rfl
      · exact Keeps.of_calls rfl rfl rfl
    · exact Keeps.of_calls rfl rfl rfl

/-! ### What an event changes -/

/-- A request that arrives joins the calls, or aborts some, and is asked by itself; no entry changes. -/
theorem handleRequest_keeps (r : InvokeRequest) :
    (handleRequest options host amb s r).idempotency = s.idempotency ∧
      (∀ (j : ℕ) (d : Call V), s.calls[j]? = some d →
        ∃ d', (handleRequest options host amb s r).calls[j]? = some d' ∧ d'.ask = d.ask) ∧
      ∀ d' ∈ (handleRequest options host amb s r).calls, (∃ d ∈ s.calls, d'.ask = d.ask) ∨
        ∃ body, r.body = .ok body ∧ d'.ask = ⟨r.agentNid, body.frame⟩ := by
  have hsame : ∀ (j : ℕ) (d : Call V), s.calls[j]? = some d → ∃ d', s.calls[j]? = some d' ∧ d'.ask = d.ask :=
    fun j d hd => ⟨d, hd, rfl⟩
  have hold : ∀ d' ∈ s.calls, (∃ d ∈ s.calls, d'.ask = d.ask) ∨
      ∃ body, r.body = .ok body ∧ d'.ask = ⟨r.agentNid, body.frame⟩ := fun d hd => .inl ⟨d, hd, rfl⟩
  unfold handleRequest
  dsimp only
  split
  · exact ⟨rfl, hsame, hold⟩
  · split
    · exact ⟨rfl, hsame, hold⟩
    · rename_i body hbody
      split
      · exact ⟨rfl, hsame, hold⟩
      · split
        · unfold handleSystemTaskCancel
          split
          · exact ⟨rfl, hsame, hold⟩
          · split
            · exact ⟨rfl, hsame, hold⟩
            · rename_i taskId _ _ _
              have habort : ∀ d : Call V, (d.abort taskId).ask = d.ask :=
                fun d => (@Call.alike_abort V options taskId d).ask
              refine ⟨rfl, fun j d hd => ⟨d.abort taskId, ?_, habort d⟩, fun d' hd' => ?_⟩
              · show (s.calls.map (Call.abort taskId))[j]? = _
                rw [List.getElem?_map, hd]
                rfl
              · obtain ⟨d, hd, rfl⟩ := List.mem_map.1 hd'
                exact .inl ⟨d, hd, habort d⟩
        · split
          · exact ⟨rfl, hsame, hold⟩
          · rename_i c hc
            refine ⟨rfl, fun j d hd => ⟨d, ?_, rfl⟩, fun d' hd' => ?_⟩
            · show (s.calls ++ [c])[j]? = _
              rw [List.getElem?_append_left (List.getElem?_eq_some_iff.1 hd).1, hd]
            · rcases List.mem_append.1 hd' with hd' | hd'
              · exact hold d' hd'
              · rw [List.mem_singleton.1 hd']
                exact .inr ⟨body, hbody, (accept_fresh hc).1⟩

variable (options host s) in
/-- An event leaves what each call asks, adds only the call of its own request, and changes no entry but the
one of its call. -/
theorem appStep_keeps (e : Event V) :
    (∀ (j : ℕ) (d : Call V), s.calls[j]? = some d →
      ∃ d', (appStep options host s e).calls[j]? = some d' ∧ d'.ask = d.ask) ∧
    (∀ d' ∈ (appStep options host s e).calls, (∃ d ∈ s.calls, d'.ask = d.ask) ∨ d'.ask ∈ asks [e]) ∧
    ∀ k, JsMap.get (appStep options host s e).idempotency k ≠ JsMap.get s.idempotency k →
      ∃ i c, e.call? = some i ∧ s.calls[i]? = some c ∧ c.ask.cacheKey options = some k := by
  cases he : e.call? with
  | some i =>
    rw [appStep_eq he]
    cases hi : s.calls[i]? with
    | none => exact ⟨fun j d hd => ⟨d, hd, rfl⟩, fun d hd => .inl ⟨d, hd, rfl⟩, fun k hk => absurd rfl hk⟩
    | some c =>
      have hkeeps : Keeps options s i c (callStep options host s i c e) := callStep_keeps options host hi e
      obtain ⟨⟨c', hcalls, hask⟩, hentries⟩ := hkeeps
      dsimp only
      rw [hcalls]
      refine ⟨fun j d hd => ?_, fun d' hd' => ?_, fun k hk => ⟨i, c, rfl, hi, ?_⟩⟩
      · by_cases hij : j = i
        · subst hij
          rw [hi] at hd
          cases hd
          exact ⟨c', List.getElem?_set_self (List.getElem?_eq_some_iff.1 hi).1, hask⟩
        · exact ⟨d, by rw [List.getElem?_set_ne (Ne.symm hij), hd], rfl⟩
      · rcases List.mem_or_eq_of_mem_set hd' with hd' | rfl
        · exact .inl ⟨d', hd', rfl⟩
        · exact .inl ⟨c, List.mem_of_getElem? hi, hask⟩
      · by_contra hne
        exact hk (hentries k hne)
  | none =>
    cases e with
    | request amb r =>
      obtain ⟨hentries, hcalls, hasks⟩ := @handleRequest_keeps V options host s amb r
      refine ⟨hcalls, fun d' hd' => ?_, fun k hk => ?_⟩
      · rcases hasks d' hd' with hd | ⟨body, hbody, hask⟩
        · exact .inl hd
        · refine .inr ?_
          rw [hask]
          simp [asks, hbody]
      · exact absurd (congrArg (JsMap.get · k) hentries) hk
    | _ => cases he

/-! ### Runs -/

section

variable [DecidableEq V]

structure Owned (options : ActionNodeOptions) (s : ActionNodeApp V) (owner : String → Option ℕ) (as : List Ask) :
    Prop where
  asked : ∀ c ∈ s.calls, c.ask ∈ as
  own : ∀ k j, owner k = some j → ∃ d, s.calls[j]? = some d ∧ d.ask.cacheKey options = some k

theorem Owned.step {owner : String → Option ℕ} {as : List Ask} (h : Owned options s owner as) (e : Event V) :
    Owned options (appStep options host s e) (owners options host owner s e) (as ++ asks [e]) := by
  obtain ⟨hcalls, hasks, hentries⟩ := appStep_keeps options host s e
  refine ⟨fun c hc => ?_, fun k j hj => ?_⟩
  · rcases hasks c hc with ⟨d, hd, heq⟩ | hnew
    · rw [heq]
      exact List.mem_append_left _ (h.asked d hd)
    · exact List.mem_append_right _ hnew
  · obtain ⟨d, hd, hkey⟩ : ∃ d, s.calls[j]? = some d ∧ d.ask.cacheKey options = some k := by
      unfold owners at hj
      split_ifs at hj with hsame
      · exact h.own k j hj
      · obtain ⟨i, c, hi, hc, hkey⟩ := hentries k hsame
        rw [hj, Option.some.injEq] at hi
        subst hi
        exact ⟨c, hc, hkey⟩
    obtain ⟨d', hd', hask⟩ := hcalls j d hd
    exact ⟨d', hd', by rw [hask, hkey]⟩

variable (options host) in
theorem owned_appAfter (es : List (Event V)) :
    Owned options (appAfter options host es) (ownersAfter options host es) (asks es) := by
  induction es using List.reverseRecOn with
  | nil =>
    rw [appAfter, run_nil, ownersAfter, noted_nil]
    exact ⟨fun c hc => absurd hc List.not_mem_nil, fun k j hj => by cases hj⟩
  | append_singleton es e ih =>
    have hasks : asks (es ++ [e]) = asks es ++ asks [e] := List.filterMap_append
    rw [appAfter, run_snoc, ownersAfter, noted_snoc, hasks]
    exact ih.step e

omit [DecidableEq V] in
theorem cacheKey_of_answeredFrom {e : Event V} {k : String} (h : answeredFrom options s e = some (i, k))
    (hi : s.calls[i]? = some c) : c.ask.cacheKey options = some k := by
  unfold answeredFrom at h
  split at h
  · split at h
    · cases h
    · rename_i c' hc'
      split_ifs at h
      split at h
      · cases h
      · rename_i key hkey
        dsimp only at h
        split at h
        · cases h
        · cases h
          rw [hi] at hc'
          cases hc'
          exact cacheKey_eq hkey
  · cases h

omit [DecidableEq V] in
variable (host) in
theorem replay_of_answeredFrom {e : Event V} {k : String} (h : answeredFrom options s e = some (i, k)) :
    ∃ amb c cached, s.calls[i]? = some c ∧ JsMap.get s.idempotency k = some cached ∧
      (appStep options host s e).calls = s.calls.set i (replay options host amb s c cached) := by
  unfold answeredFrom at h
  split at h
  · rename_i amb i'
    split at h
    · cases h
    · rename_i c hc
      split_ifs at h with hphase
      split at h
      · cases h
      · rename_i key hkey
        dsimp only at h
        rcases IdempotencyCache.get_cases s.idempotency (amb.clock s.now 0)
            (scopedCacheActionId options c.frame.actionId c.context.agentNid) key with
          ⟨cached, hentry, -, hget⟩ | ⟨cache, hget, -⟩
        · rw [hget] at h
          cases h
          refine ⟨amb, c, cached, hc, hentry, ?_⟩
          unfold appStep Event.call?
          dsimp only
          rw [hc]
          dsimp only
          unfold callStep
          dsimp only
          rw [if_neg hphase]
          unfold lookup
          dsimp only
          rw [hkey]
          dsimp only
          rw [hget]
          rfl
        · rw [hget] at h
          cases h
  · cases h

/-- **Isolation of the callers**: in a run in which requests with different triples have different strings,
none is answered out of the entry of another, at any time. -/
theorem isolated_of_apart (es : List (Event V)) (hapart : Apart options (asks es)) :
    ∀ pre e post, es = pre ++ e :: post →
      Isolated options (appAfter options host pre) (ownersAfter options host pre) e := by
  intro pre e post hes i k j c d hanswered howner hi hj
  obtain ⟨hasked, hown⟩ := owned_appAfter options host pre
  have hmem : ∀ a ∈ asks pre, a ∈ asks es := by
    intro a ha
    rw [hes, asks, List.filterMap_append]
    exact List.mem_append_left _ ha
  obtain ⟨d', hd', hkey⟩ := hown k j howner
  rw [hj] at hd'
  cases hd'
  have hckey := cacheKey_of_answeredFrom hanswered hi
  exact hapart c.ask (hmem _ (hasked c (List.mem_of_getElem? hi))) d.ask
    (hmem _ (hasked d (List.mem_of_getElem? hj))) (by rw [hckey]; rfl) (by rw [hckey, hkey])

end

/-! ### Two callers -/

/-- A request for an order. -/
def callerRequest (agentNid idempotencyKey : String) : InvokeRequest where
  agentNid := some agentNid
  body := .ok { frame := { actionId := "orders.create", idempotencyKey := some idempotencyKey } }

/-- Two requests of different callers, one after the other. -/
def callersRun (nid key nid' key' : String) : List (Event ℕ) :=
  [.request (sampleAmbient 0) (callerRequest nid key), .authorized (sampleAmbient 1) 0 (.ok ()),
    .settled laterAmbient 0 (.resolved { result := some 7 }),
    .request (sampleAmbient 1) (callerRequest nid' key'), .authorized (sampleAmbient 1) 1 (.ok ())]

/-- The callers use the same key. -/
theorem callersRun_isolated :
    Isolated sampleOptions
      (appAfter sampleOptions sampleHost ((callersRun "alice" "k1" "bob" "k1").take 4))
      (ownersAfter sampleOptions sampleHost ((callersRun "alice" "k1" "bob" "k1").take 4))
      (.authorized (sampleAmbient 1) 1 (.ok ())) :=
  isolated_of_apart (callersRun "alice" "k1" "bob" "k1") (by decide) _ _ [] rfl

/-- **A caller is answered with the result of another**: the separator may be in the name of a caller. -/
theorem callersRun_replays :
    (appAfter sampleOptions sampleHost (callersRun "alice\x1fk" "1" "alice" "k\x1f1")).executions = 1 ∧
    ¬ Isolated sampleOptions
      (appAfter sampleOptions sampleHost ((callersRun "alice\x1fk" "1" "alice" "k\x1f1").take 4))
      (ownersAfter sampleOptions sampleHost ((callersRun "alice\x1fk" "1" "alice" "k\x1f1").take 4))
      (.authorized (sampleAmbient 1) 1 (.ok ())) := by
  refine ⟨by decide +kernel, fun h => ?_⟩
  have hasks : ∀ i < 2, ((appAfter sampleOptions sampleHost
      ((callersRun "alice\x1fk" "1" "alice" "k\x1f1").take 4)).calls[i]?.map fun c => c.ask.triple) =
        some (if i = 0 then ("orders.create", some "alice\x1fk", some "1")
          else ("orders.create", some "alice", some "k\x1f1")) := by
    intro i hi
    rcases (show i = 0 ∨ i = 1 by omega) with rfl | rfl <;> decide
  obtain ⟨d, hd, hdask⟩ := Option.map_eq_some_iff.1 (hasks 0 (by decide))
  obtain ⟨c, hc, hcask⟩ := Option.map_eq_some_iff.1 (hasks 1 (by decide))
  have hsame := h 1 (IdempotencyCache.key (scopedCacheActionId sampleOptions "orders.create" (some "alice"))
    "k\x1f1") 0 c d (by decide +kernel) (by decide +kernel) hc hd
  rw [hcask, hdask] at hsame
  revert hsame
  decide

end NpsSdk.Nwp.ActionNode
