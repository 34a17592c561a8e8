import NpsSdk.Nwp.ActionServer

/-!
# Executions behind idempotency keys

Requests that share an idempotency key are answered out of one execution.  The synchronous path looks an
entry up before the execution and stores it after, so this needs that no request looks up in between; the
asynchronous path stores the entry in the turn of the lookup.
-/

namespace NpsSdk.Nwp.ActionNode

open NpsSdk.Lib

variable {V : Type} (options : ActionNodeOptions) (host : Host V)

/-! ### What is asked -/

/-- What a caller asks. -/
structure Ask where
  agentNid : Option String
  frame : ActionFrame
deriving DecidableEq

def Call.ask (c : Call V) : Ask := ⟨c.context.agentNid, c.frame⟩

namespace Ask

def cacheKey (a : Ask) : Option String :=
  (truthy a.frame.idempotencyKey).map fun key =>
    IdempotencyCache.key (scopedCacheActionId options a.frame.actionId a.agentNid) key

def Same (a b : Ask) : Prop :=
  a.agentNid = b.agentNid ∧ a.frame.actionId = b.frame.actionId ∧ a.frame.params = b.frame.params ∧
    a.frame.idempotencyKey.isSome ∧ a.frame.idempotencyKey = b.frame.idempotencyKey

instance (a b : Ask) : Decidable (Same a b) := inferInstanceAs (Decidable (_ ∧ _))

end Ask

/-- What is asked in a run. -/
def asks (es : List (Event V)) : List Ask :=
  es.filterMap fun
    | .request _ r =>
      match r.body with
      | .ok body => some ⟨r.agentNid, body.frame⟩
      | .error _ => none
    | _ => none

/-- No request has an empty key, and those that the scoped keys and the digests do not tell apart are the
same. -/
def Distinct (as : List Ask) : Prop :=
  ∀ a ∈ as, a.frame.idempotencyKey ≠ some "" ∧ ∀ b ∈ as, (a.cacheKey options).isSome →
    a.cacheKey options = b.cacheKey options → hashParams host a.frame.params = hashParams host b.frame.params →
      a.Same b

instance (as : List Ask) : Decidable (Distinct options host as) :=
  inferInstanceAs (Decidable (∀ a ∈ as, _ ∧ ∀ b ∈ as, _ → _ → _ → _))

/-! ### Executions and answers -/

def Outcome.succeeded : Outcome V → Bool
  | .result .. | .frames .. => true
  | _ => false

/-- An answer that does not report an error. -/
def ActionAnswer.successful : ActionAnswer V → Bool
  | .task .. | .caps .. | .stream .. => true
  | _ => false

def StreamFrame.untagged (f : StreamFrame V) : StreamFrame V := { f with streamId := "" }

def Delivers (x : Execution V) (b : Call V) : ActionAnswer V → Prop
  | .task taskId .. => x.taskId = some taskId
  | .caps data anchorRef .. => x.outcome = .result data anchorRef
  | .stream .. => ∃ st, b.stream = some st ∧
      (b.execution.map Execution.order = some x.order ∨ ∃ frames anchorRef, x.outcome = .frames frames anchorRef ∧
        st.emitted.map StreamFrame.untagged <+: frames.map StreamFrame.untagged)
  | _ => False

/-- **At most one execution.**  Of the calls that ask the same, one that is executed after the successful
execution of another looked up when the result of that was no longer retained; and whatever is answered
without an error comes from the execution of a call that asks the same. -/
structure AtMostOnce (s : ActionNodeApp V) : Prop where
  once : ∀ a ∈ s.calls, ∀ b ∈ s.calls, a.ask.Same b.ask → ∀ x y, a.execution = some x →
    b.execution = some y → x.order < y.order → x.outcome.succeeded = true →
      ∃ t, x.retain = some t ∧ t ≤ y.since
  answered : ∀ b ∈ s.calls, b.frame.idempotencyKey.isSome → ∀ answer, b.answer = some answer →
    answer.successful = true →
      ∃ a ∈ s.calls, a.ask.Same b.ask ∧ ∃ x, a.execution = some x ∧ Delivers x b answer

/-- An execution that stores its result when it ends, and may still do so. -/
def Call.live (c : Call V) : Bool :=
  match c.phase, c.stream with
  | .executing false, _ => true
  | .streaming, some st =>
    match st.source with
    | .provider => true
    | .replay _ => false
  | _, _ => false

/-- A lookup that finds nothing finds no execution under its key that has still to store its result. -/
def noRace (s : ActionNodeApp V) : Event V → Bool
  | .authorized amb i (.ok ()) =>
    match s.calls[i]? with
    | none => true
    | some c =>
      match c.ask.cacheKey options with
      | none => true
      | some k =>
        c.phase != .authorizing ||
          (JsMap.get s.idempotency k).any (fun entry => decide (amb.clock s.now 0 < entry.expiresAt)) ||
          s.calls.all fun b => decide (b.ask.cacheKey options = some k → b.live = false)
  | _ => true

/-! ### Time -/

variable {options host} {s : ActionNodeApp V} {amb : Ambient} {now : ℚ}

theorem Ambient.clock_mono {j k : ℕ} (h : j ≤ k) : amb.clock now j ≤ amb.clock now k := by
  induction h with
  | refl => exact le_rfl
  | step _ ih =>
    refine ih.trans ?_
    exact le_add_of_nonneg_right (amb.elapsed _).2

theorem Ambient.le_clock (k : ℕ) : now ≤ amb.clock now k :=
  (le_add_of_nonneg_right (amb.elapsed 0).2).trans (amb.clock_mono (Nat.zero_le k))

theorem Event.le_after (e : Event V) : now ≤ e.after now := by
  cases e with
  | timeout | readerCancelled | requestAborted => exact le_rfl
  | request amb | authorized amb | settled amb | pulled amb => exact amb.le_clock 4

/-! ### The cache -/

section

variable {cache : IdempotencyCache V} {k : String} {entry : IdempotentEntry V}

theorem IdempotencyCache.get_cases (cache : IdempotencyCache V) (now : ℚ) (actionId key : String) :
    (∃ entry, JsMap.get cache (IdempotencyCache.key actionId key) = some entry ∧ now < entry.expiresAt ∧
      cache.get now actionId key = (some entry, cache)) ∨
    ∃ cache', cache.get now actionId key = (none, cache') ∧
      JsMap.get cache' (IdempotencyCache.key actionId key) = none ∧
      (∀ entry, JsMap.get cache (IdempotencyCache.key actionId key) = some entry → entry.expiresAt ≤ now) ∧
      ∀ k, k ≠ IdempotencyCache.key actionId key → JsMap.get cache' k = JsMap.get cache k := by
  unfold IdempotencyCache.get
  dsimp only
  split
  · rename_i hget
    refine .inr ⟨_, rfl, hget, ?_, fun _ _ => rfl⟩
    rw [hget]
    exact fun e he => by cases he
  · rename_i entry hget
    split
    · rename_i hle
      refine .inr ⟨_, rfl, by simp, ?_, ?_⟩
      · rintro e he
        rw [hget] at he
        cases he
        exact hle
      · intro k hk
        rw [JsMap.get_delete, if_neg hk]
    · rename_i hlt
      exact .inl ⟨entry, hget, not_le.1 hlt, rfl⟩

theorem IdempotencyCache.tryStore_vacant {actionId key : String}
    (h : JsMap.get cache (IdempotencyCache.key actionId key) = none) :
    (cache.tryStore now actionId key entry).2 = cache.set (IdempotencyCache.key actionId key) entry := by
  unfold IdempotencyCache.tryStore
  simp [h]

end

/-! ### Calls -/

def Call.Lost (c : Call V) (x : Execution V) : Prop := x.outcome = .failed ∨ c.phase = .executing true

/-- The parts of a call fit each other. -/
structure Call.Wf (options : ActionNodeOptions) (c : Call V) : Prop where
  fresh : c.phase = .authorizing → c.execution = none ∧ c.answer = none ∧ c.stream = none
  live : c.live = true → ∃ x, c.execution = some x ∧ x.outcome = .running ∧ x.retain = none
  executing : ∀ b, c.phase = .executing b →
    (∃ x, c.execution = some x ∧ x.outcome = .running ∧ x.retain = none) ∧ c.answer = none ∧ c.stream = none
  running : ∀ t b, c.phase = .running t b → ∃ x, c.execution = some x ∧ x.outcome = .running
  standing : ∀ x, c.execution = some x →
    c.live = true ∨ c.Lost x ∨ ((c.ask.cacheKey options).isSome → x.retain.isSome)

/-- What a step may do to an execution. -/
structure Execution.Onward (x x' : Execution V) : Prop where
  order : x'.order = x.order
  since : x'.since = x.since
  taskId : x'.taskId = x.taskId
  retain : ∀ t, x.retain = some t → x'.retain = some t
  settled : x.outcome ≠ .running → x' = x

theorem Execution.Onward.refl (x : Execution V) : x.Onward x := ⟨rfl, rfl, rfl, fun _ h => h, fun _ => rfl⟩

/-- An entry of the cache stands for an execution. -/
def Backs (x : Execution V) (entry : IdempotentEntry V) : Prop :=
  match truthy entry.taskId, entry.streamFrames with
  | some taskId, _ => x.taskId = some taskId
  | none, some frames => ∃ anchorRef, x.outcome = .frames frames anchorRef
  | none, none => x.outcome = .result entry.result entry.anchorRef

/-- `Delivers`, and for a replay that goes on, that what it has still to give is of that execution too. -/
def Hands (x : Execution V) (b : Call V) (answer : ActionAnswer V) : Prop :=
  Delivers x b answer ∧ ∀ st rest, b.stream = some st → b.phase = .streaming → st.source = .replay rest →
    ∃ frames anchorRef, x.outcome = .frames frames anchorRef ∧
      (st.emitted ++ rest).map StreamFrame.untagged <+: frames.map StreamFrame.untagged

variable {entry : IdempotentEntry V}

theorem Backs.onward {x x' : Execution V} (h : Backs x entry) (hx : x.Onward x') : Backs x' entry := by
  unfold Backs at h ⊢
  cases htask : truthy entry.taskId with
  | some taskId =>
    simp only [htask] at h ⊢
    rw [hx.taskId, h]
  | none =>
    cases hframes : entry.streamFrames with
    | some frames =>
      simp only [htask, hframes] at h ⊢
      obtain ⟨anchorRef, h⟩ := h
      rw [hx.settled (by rw [h]; nofun)]
      exact ⟨anchorRef, h⟩
    | none =>
      simp only [htask, hframes] at h ⊢
      rw [hx.settled (by rw [h]; nofun), h]

variable {answer : ActionAnswer V}

theorem Delivers.onward {x x' : Execution V} {b : Call V} (h : Delivers x b answer)
    (hx : x.Onward x') : Delivers x' b answer := by
  cases answer with
  | task taskId =>
    have h : x.taskId = some taskId := h
    show x'.taskId = some taskId
    rw [hx.taskId, h]
  | caps data anchorRef =>
    have h : x.outcome = .result data anchorRef := h
    show x'.outcome = .result data anchorRef
    rw [hx.settled (by rw [h]; nofun), h]
  | stream =>
    obtain ⟨st, hst, hown | ⟨frames, anchorRef, hx', hpre⟩⟩ := h
    · exact ⟨st, hst, .inl (by rw [hown, hx.order])⟩
    · refine ⟨st, hst, .inr ⟨frames, anchorRef, ?_, hpre⟩⟩
      rw [hx.settled (by rw [hx']; nofun), hx']
  | _ => exact h.elim

theorem Hands.onward {x x' : Execution V} {b : Call V} (h : Hands x b answer)
    (hx : x.Onward x') : Hands x' b answer := by
  refine ⟨h.1.onward hx, fun st rest hst hphase hsource => ?_⟩
  obtain ⟨frames, anchorRef, hout, hpre⟩ := h.2 st rest hst hphase hsource
  refine ⟨frames, anchorRef, ?_, hpre⟩
  rw [hx.settled (by rw [hout]; nofun), hout]

/-! ### The invariant -/

def FromExecution (options : ActionNodeOptions) (host : Host V) (calls : List (Call V)) (b : Call V)
    (answer : ActionAnswer V) : Prop :=
  ∃ a ∈ calls, a.ask.cacheKey options = b.ask.cacheKey options ∧
    hashParams host a.frame.params = hashParams host b.frame.params ∧
      ∃ x, a.execution = some x ∧ Hands x b answer

/-- What holds of the calls and the cache between the turns. -/
structure Sound (options : ActionNodeOptions) (host : Host V) (s : ActionNodeApp V) : Prop where
  wf : ∀ (i : ℕ) (c : Call V), s.calls[i]? = some c → c.Wf options
  numbered : ∀ (i : ℕ) (c : Call V) x, s.calls[i]? = some c → c.execution = some x →
    x.order < s.executions ∧ x.since ≤ s.now
  /-- What is retained is in the cache. -/
  retained : ∀ (i : ℕ) (c : Call V) k x t, s.calls[i]? = some c → c.ask.cacheKey options = some k →
    c.execution = some x → x.retain = some t →
      t ≤ s.now ∨ ∃ entry, JsMap.get s.idempotency k = some entry ∧ entry.expiresAt = t
  /-- While an execution has still to store its result, nothing is stored under its key. -/
  vacant : ∀ (i : ℕ) (c : Call V) k, s.calls[i]? = some c → c.live = true → c.ask.cacheKey options = some k →
    JsMap.get s.idempotency k = none
  alone : ∀ (i j : ℕ) (a b : Call V) k, s.calls[i]? = some a → s.calls[j]? = some b → a.live = true → b.live = true →
    a.ask.cacheKey options = some k → b.ask.cacheKey options = some k → i = j
  backed : ∀ k entry, JsMap.get s.idempotency k = some entry → ∃ c ∈ s.calls,
    c.ask.cacheKey options = some k ∧ hashParams host c.frame.params = entry.paramsHash ∧
      ∃ x, c.execution = some x ∧ Backs x entry
  once : ∀ (i j : ℕ) (a b : Call V) k x y, s.calls[i]? = some a → s.calls[j]? = some b →
    a.ask.cacheKey options = some k → b.ask.cacheKey options = some k → a.execution = some x →
      b.execution = some y → x.order < y.order → a.Lost x ∨ ∃ t, x.retain = some t ∧ t ≤ y.since
  answered : ∀ b ∈ s.calls, (b.ask.cacheKey options).isSome → ∀ answer, b.answer = some answer →
    answer.successful = true → FromExecution options host s.calls b answer

/-- An answer without an error is the one from before the turn, or comes from an execution. -/
abbrev Answers (options : ActionNodeOptions) (host : Host V) (s : ActionNodeApp V) (i : ℕ) (c c' : Call V) : Prop :=
  ∀ answer, c'.answer = some answer → answer.successful = true → (c.ask.cacheKey options).isSome →
    c.answer = some answer ∧ (∀ x, Hands x c answer → Hands x c' answer) ∨
      FromExecution options host (s.calls.set i c') c' answer

/-- What a turn makes of call `i`, of the cache and of the counters. -/
structure Turned (options : ActionNodeOptions) (host : Host V) (s : ActionNodeApp V) (i : ℕ) (c c' : Call V)
    (s' : ActionNodeApp V) : Prop where
  calls : s'.calls = s.calls.set i c'
  ask : c'.ask = c.ask
  wf : c'.Wf options
  now : s.now ≤ s'.now
  executions : s.executions ≤ s'.executions
  /-- An execution goes on. -/
  carried : ∀ x, c.execution = some x → ∃ x', c'.execution = some x' ∧ x.Onward x' ∧ (c.Lost x → c'.Lost x')
  /-- An execution starts only where every earlier one under its key is lost or no longer retained. -/
  started : ∀ x', c.execution = none → c'.execution = some x' → x'.order = s.executions ∧
    x'.order < s'.executions ∧ x'.since ≤ s'.now ∧ ∀ (j : ℕ) a k x, s.calls[j]? = some a →
      a.ask.cacheKey options = some k → c.ask.cacheKey options = some k → a.execution = some x →
        a.Lost x ∨ ∃ t, x.retain = some t ∧ t ≤ x'.since
  lost : ∀ k entry, JsMap.get s.idempotency k = some entry →
    JsMap.get s'.idempotency k = some entry ∨ entry.expiresAt ≤ s'.now
  /-- An entry is stored where no other execution has still to store one. -/
  stored : ∀ k entry, JsMap.get s'.idempotency k = some entry → JsMap.get s.idempotency k = some entry ∨
    c.ask.cacheKey options = some k ∧ hashParams host c.frame.params = entry.paramsHash ∧ c'.live = false ∧
      (∃ x', c'.execution = some x' ∧ Backs x' entry) ∧
      ∀ (j : ℕ) b, j ≠ i → s.calls[j]? = some b → b.live = true → b.ask.cacheKey options ≠ some k
  retained : ∀ k x' t, c.ask.cacheKey options = some k → c'.execution = some x' → x'.retain = some t →
    (∃ x, c.execution = some x ∧ x.retain = some t) ∨
      ∃ entry, JsMap.get s'.idempotency k = some entry ∧ entry.expiresAt = t
  live : ∀ k, c'.live = true → c.ask.cacheKey options = some k → c.live = true ∨
    JsMap.get s'.idempotency k = none ∧
      ∀ (j : ℕ) b, s.calls[j]? = some b → b.live = true → b.ask.cacheKey options ≠ some k
  answered : Answers options host s i c c'

variable {i : ℕ} {c c' : Call V} {s' : ActionNodeApp V}

theorem FromExecution.turned (hi : s.calls[i]? = some c) (ht : Turned options host s i c c' s') {b b' : Call V}
    (h : FromExecution options host s.calls b answer) (hask : b'.ask = b.ask)
    (hands : ∀ x, Hands x b answer → Hands x b' answer) : FromExecution options host (s.calls.set i c') b' answer := by
  obtain ⟨a, ha, hkey, hhash, x, hx, hd⟩ := h
  have hframe : b'.frame = b.frame := congrArg Ask.frame hask
  obtain ⟨j, hj⟩ := List.mem_iff_getElem?.1 ha
  by_cases hij : j = i
  · subst hij
    rw [hi, Option.some.injEq] at hj
    subst hj
    obtain ⟨x', hx', honward, -⟩ := ht.carried x hx
    have hframe' : c'.frame = c.frame := congrArg Ask.frame ht.ask
    exact ⟨c', mem_set_self hi, by rw [ht.ask, hask, hkey], by rw [hframe', hframe, hhash], x', hx',
      (hands x hd).onward honward⟩
  · exact ⟨a, mem_set_ne hj hij, by rw [hask, hkey], by rw [hframe, hhash], x, hx, hands x hd⟩

/-- **One turn.**  What a turn makes of the calls and the cache keeps the invariant. -/
theorem Sound.turned (h : Sound options host s) (hi : s.calls[i]? = some c)
    (ht : Turned options host s i c c' s') : Sound options host s' := by
  have hself := ht.carried
  -- an execution of a call after the turn is one from before it, or it has just started
  have hback : ∀ x', c'.execution = some x' →
      (∃ x, c.execution = some x ∧ x.Onward x' ∧ (c.Lost x → c'.Lost x')) ∨ c.execution = none := by
    intro x' hx'
    cases hx : c.execution with
    | none => exact .inr rfl
    | some x =>
      obtain ⟨x'', hx'', honward, hlost⟩ := ht.carried x hx
      rw [hx', Option.some.injEq] at hx''
      subst hx''
      exact .inl ⟨x, rfl, honward, hlost⟩
  constructor
  case wf =>
    intro j b hj
    rw [ht.calls] at hj
    rcases getElem?_set_cases hi hj with ⟨-, rfl⟩ | ⟨-, hj⟩
    · exact ht.wf
    · exact h.wf j b hj
  case numbered =>
    intro j b x hj hx
    rw [ht.calls] at hj
    rcases getElem?_set_cases hi hj with ⟨-, rfl⟩ | ⟨-, hj⟩
    · rcases hback x hx with ⟨x₀, hx₀, honward, -⟩ | hnone
      · obtain ⟨horder, hsince⟩ := h.numbered i c x₀ hi hx₀
        rw [honward.order, honward.since]
        exact ⟨horder.trans_le ht.executions, hsince.trans ht.now⟩
      · obtain ⟨-, horder, hsince, -⟩ := ht.started x hnone hx
        exact ⟨horder, hsince⟩
    · obtain ⟨horder, hsince⟩ := h.numbered j b x hj hx
      exact ⟨horder.trans_le ht.executions, hsince.trans ht.now⟩
  case retained =>
    have hold : ∀ k t, (t ≤ s.now ∨ ∃ entry, JsMap.get s.idempotency k = some entry ∧ entry.expiresAt = t) →
        t ≤ s'.now ∨ ∃ entry, JsMap.get s'.idempotency k = some entry ∧ entry.expiresAt = t := by
      rintro k t (hle | ⟨entry, hget, rfl⟩)
      · exact .inl (hle.trans ht.now)
      · rcases ht.lost k entry hget with hget' | hle
        · exact .inr ⟨entry, hget', rfl⟩
        · exact .inl hle
    intro j b k x t hj hk hx hretain
    rw [ht.calls] at hj
    rcases getElem?_set_cases hi hj with ⟨-, rfl⟩ | ⟨-, hj⟩
    · rw [ht.ask] at hk
      rcases ht.retained k x t hk hx hretain with ⟨x₀, hx₀, hretain₀⟩ | hstored
      · exact hold k t (h.retained i c k x₀ t hi hk hx₀ hretain₀)
      · exact .inr hstored
    · exact hold k t (h.retained j b k x t hj hk hx hretain)
  case vacant =>
    intro j b k hj hlive hk
    rw [ht.calls] at hj
    rcases getElem?_set_cases hi hj with ⟨-, rfl⟩ | ⟨hij, hj⟩
    · rw [ht.ask] at hk
      rcases ht.live k hlive hk with hwas | ⟨hnone, -⟩
      · rw [Option.eq_none_iff_forall_ne_some]
        intro entry hget
        rcases ht.stored k entry hget with hget₀ | ⟨-, -, hnot, -⟩
        · rw [h.vacant i c k hi hwas hk] at hget₀
          cases hget₀
        · rw [hlive] at hnot
          cases hnot
      · exact hnone
    · rw [Option.eq_none_iff_forall_ne_some]
      intro entry hget
      rcases ht.stored k entry hget with hget₀ | ⟨-, -, -, -, hothers⟩
      · rw [h.vacant j b k hj hlive hk] at hget₀
        cases hget₀
      · exact hothers j b hij hj hlive hk
  case alone =>
    have hone : ∀ (j : ℕ) b k, j ≠ i → s.calls[j]? = some b → b.live = true → c'.live = true →
        b.ask.cacheKey options = some k → c.ask.cacheKey options = some k → False := by
      intro j b k hij hj hb hc hkb hkc
      rcases ht.live k hc hkc with hwas | ⟨-, hothers⟩
      · exact hij (h.alone j i b c k hj hi hb hwas hkb hkc)
      · exact hothers j b hj hb hkb
    intro j l a b k hj hl ha hb hka hkb
    rw [ht.calls] at hj hl
    rcases getElem?_set_cases hi hj with ⟨rfl, rfl⟩ | ⟨hij, hj'⟩
    · rcases getElem?_set_cases hi hl with ⟨rfl, rfl⟩ | ⟨hil, hl'⟩
      · rfl
      · rw [ht.ask] at hka
        exact (hone l b k hil hl' hb ha hkb hka).elim
    · rcases getElem?_set_cases hi hl with ⟨rfl, rfl⟩ | ⟨hil, hl'⟩
      · rw [ht.ask] at hkb
        exact (hone j a k hij hj' ha hb hka hkb).elim
      · exact h.alone j l a b k hj' hl' ha hb hka hkb
  case backed =>
    intro k entry hget
    have hframe : c'.frame = c.frame := congrArg Ask.frame ht.ask
    rw [ht.calls]
    rcases ht.stored k entry hget with hget₀ | ⟨hk, hhash, -, ⟨x, hx, hbacks⟩, -⟩
    · obtain ⟨a, ha, hk, hhash, x, hx, hbacks⟩ := h.backed k entry hget₀
      obtain ⟨j, hj⟩ := List.mem_iff_getElem?.1 ha
      by_cases hij : j = i
      · subst hij
        rw [hi, Option.some.injEq] at hj
        subst hj
        obtain ⟨x', hx', honward, -⟩ := ht.carried x hx
        exact ⟨c', mem_set_self hi, by rw [ht.ask, hk], by rw [hframe, hhash], x', hx', hbacks.onward honward⟩
      · exact ⟨a, mem_set_ne hj hij, hk, hhash, x, hx, hbacks⟩
    · exact ⟨c', mem_set_self hi, by rw [ht.ask, hk], by rw [hframe, hhash], x, hx, hbacks⟩
  case once =>
    intro j l a b k x y hj hl hka hkb hx hy hlt
    rw [ht.calls] at hj hl
    rcases getElem?_set_cases hi hj with ⟨rfl, rfl⟩ | ⟨hij, hj'⟩
    · rcases getElem?_set_cases hi hl with ⟨rfl, rfl⟩ | ⟨hil, hl'⟩
      · rw [hx, Option.some.injEq] at hy
        subst hy
        exact absurd hlt (lt_irrefl _)
      · -- a later execution of another call
        rw [ht.ask] at hka
        rcases hback x hx with ⟨x₀, hx₀, honward, hlost⟩ | hnone
        · rw [honward.order] at hlt
          rcases h.once j l c b k x₀ y hi hl' hka hkb hx₀ hy hlt with hl₀ | ⟨t, hretain, hle⟩
          · exact .inl (hlost hl₀)
          · exact .inr ⟨t, honward.retain t hretain, hle⟩
        · obtain ⟨horder, -⟩ := ht.started x hnone hx
          have hbound := (h.numbered l b y hl' hy).1
          omega
    · rcases getElem?_set_cases hi hl with ⟨rfl, rfl⟩ | ⟨hil, hl'⟩
      · -- an earlier execution of another call
        rw [ht.ask] at hkb
        rcases hback y hy with ⟨y₀, hy₀, honward, -⟩ | hnone
        · rw [honward.order] at hlt
          rw [honward.since]
          exact h.once j l a c k x y₀ hj' hi hka hkb hx hy₀ hlt
        · exact (ht.started y hnone hy).2.2.2 j a k x hj' hka hkb hx
      · exact h.once j l a b k x y hj' hl' hka hkb hx hy hlt
  case answered =>
    intro b hb hkey answer hanswer hok
    rw [ht.calls] at hb ⊢
    obtain ⟨j, hj⟩ := List.mem_iff_getElem?.1 hb
    rcases getElem?_set_cases hi hj with ⟨-, rfl⟩ | ⟨-, hj⟩
    · rw [ht.ask] at hkey
      rcases ht.answered answer hanswer hok hkey with ⟨hwas, hands⟩ | hfrom
      · exact (h.answered c (List.mem_of_getElem? hi) hkey answer hwas hok).turned hi ht ht.ask hands
      · exact hfrom
    · exact (h.answered b (List.mem_of_getElem? hj) hkey answer hanswer hok).turned hi ht rfl fun _ hd => hd

/-! ### Turns that store nothing -/

theorem Sound.later (h : Sound options host s) {now : ℚ} (hnow : s.now ≤ now) :
    Sound options host { s with now } where
  wf := h.wf
  numbered := fun i c x hi hx => ⟨(h.numbered i c x hi hx).1, (h.numbered i c x hi hx).2.trans hnow⟩
  retained := fun i c k x t hi hk hx ht => (h.retained i c k x t hi hk hx ht).imp_left fun hle => hle.trans hnow
  vacant := h.vacant
  alone := h.alone
  backed := h.backed
  once := h.once
  answered := h.answered

theorem live_of_finished (h : c.phase = .finished) : c.live = false := by
  unfold Call.live
  rw [h]

theorem wf_finished (hphase : c.phase = .finished)
    (h : ∀ x, c.execution = some x → x.outcome = .failed ∨ ((c.ask.cacheKey options).isSome → x.retain.isSome)) :
    c.Wf options where
  fresh := by rw [hphase]; nofun
  live := by rw [live_of_finished hphase]; nofun
  executing := by rw [hphase]; nofun
  running := by rw [hphase]; nofun
  standing := fun x hx => .inr ((h x hx).imp .inl id)

theorem Turned.quiet (hcalls : s'.calls = s.calls.set i c') (hcache : s'.idempotency = s.idempotency) (hexecutions : s'.executions = s.executions)
    (hnow : s.now ≤ s'.now) (hask : c'.ask = c.ask) (hwf : c'.Wf options)
    (hexecution : c'.execution = c.execution) (hlost : c.phase = .executing true → c'.phase = .executing true)
    (hlive : c'.live = true → c.live = true) (hanswer : Answers options host s i c c') :
    Turned options host s i c c' s' where
  calls := hcalls
  ask := hask
  wf := hwf
  now := hnow
  executions := hexecutions.ge
  carried := fun x hx => ⟨x, by rw [hexecution, hx], .refl x, fun h => h.imp_right hlost⟩
  started := fun x' hnone hx' => by rw [hexecution, hnone] at hx'; cases hx'
  lost := fun k entry hget => .inl (by rw [hcache, hget])
  stored := fun k entry hget => .inl (by rw [← hget, hcache])
  retained := fun k x' t _ hx' ht => .inl ⟨x', by rw [← hexecution, hx'], ht⟩
  live := fun k h _ => .inl (hlive h)
  answered := hanswer

variable {x : Execution V} (h : Sound options host s) (hi : s.calls[i]? = some c)

theorem Turned.ends {retain : Option ℚ} (outcome : Outcome V) (hx : c.execution = some x)
    (hrunning : x.outcome = .running) (hretain : retain = x.retain)
    (hcalls : s'.calls = s.calls.set i c') (hcache : s'.idempotency = s.idempotency)
    (hexecutions : s'.executions = s.executions) (hnow : s.now ≤ s'.now) (hask : c'.ask = c.ask)
    (hphase : c'.phase = .finished) (hexecution : c'.execution = some { x with outcome, retain })
    (hstanding : outcome = .failed ∨ c.phase ≠ .executing true ∧
      ((c.ask.cacheKey options).isSome → x.retain.isSome))
    (hanswer : Answers options host s i c c') :
    Turned options host s i c c' s' where
  calls := hcalls
  ask := hask
  wf := wf_finished hphase fun y hy => by
    rw [hexecution, Option.some.injEq] at hy
    subst hy
    rw [hask, hretain]
    exact hstanding.imp_right And.right
  now := hnow
  executions := hexecutions.ge
  carried := fun y hy => by
    rw [hx, Option.some.injEq] at hy
    subst hy
    refine ⟨_, hexecution, ⟨rfl, rfl, rfl, fun t ht => by rw [← ht, hretain], fun h => absurd hrunning h⟩, ?_⟩
    rintro (hfailed | hp)
    · rw [hrunning] at hfailed
      cases hfailed
    · rcases hstanding with hfailed | ⟨hne, -⟩
      · exact .inl hfailed
      · exact absurd hp hne
  started := fun x' hnone _ => by rw [hx] at hnone; cases hnone
  lost := fun k entry hget => .inl (by rw [hcache, hget])
  stored := fun k entry hget => .inl (by rw [← hget, hcache])
  retained := fun k x' t _ hx' ht => .inl ⟨x, hx, by
    rw [hexecution, Option.some.injEq] at hx'
    subst hx'
    rw [← hretain, ← ht]⟩
  live := fun k h _ => by rw [live_of_finished hphase] at h; cases h
  answered := hanswer

theorem Hands.congr (hstream : c'.stream = c.stream)
    (hexecution : c'.execution.map Execution.order = c.execution.map Execution.order)
    (hphase : c'.phase = .streaming → c.phase = .streaming) (h : Hands x c answer) : Hands x c' answer := by
  refine ⟨?_, fun st rest hst hp => h.2 st rest (by rw [← hstream, hst]) (hphase hp)⟩
  cases answer with
  | stream =>
    obtain ⟨st, hst, hd⟩ := h.1
    exact ⟨st, by rw [hstream, hst], by rw [hexecution]; exact hd⟩
  | _ => exact h.1

/-! ### Turns that store an entry -/

section

variable {k : String} {entry : IdempotentEntry V} {cache : IdempotencyCache V}

theorem cacheKey_eq {key : String} (h : truthy c.frame.idempotencyKey = some key) :
    c.ask.cacheKey options =
      some (IdempotencyCache.key (scopedCacheActionId options c.frame.actionId c.context.agentNid) key) := by
  have h' : truthy c.ask.frame.idempotencyKey = some key := h
  simp only [Ask.cacheKey, h', Option.map_some]
  rfl

theorem cacheKey_none (h : truthy c.frame.idempotencyKey = none) : c.ask.cacheKey options = none := by
  have h' : truthy c.ask.frame.idempotencyKey = none := h
  simp only [Ask.cacheKey, h', Option.map_none]

/-- What storing `entry` makes of a cache that has none under the key of the call. -/
structure Storing (options : ActionNodeOptions) (c : Call V) (entry : IdempotentEntry V)
    (cache cache' : IdempotencyCache V) : Prop where
  kept : ∀ k e, JsMap.get cache k = some e → JsMap.get cache' k = some e
  found : ∀ k e, JsMap.get cache' k = some e → JsMap.get cache k = some e ∨
    c.ask.cacheKey options = some k ∧ e = entry
  retained : ∀ k t, c.ask.cacheKey options = some k → c.retention entry = some t →
    JsMap.get cache' k = some entry ∧ entry.expiresAt = t
  retains : (c.ask.cacheKey options).isSome → (c.retention entry).isSome

theorem store_storing (now : ℚ) (entry : IdempotentEntry V)
    (hvacant : ∀ k, c.ask.cacheKey options = some k → JsMap.get cache k = none) :
    Storing options c entry cache (store options now c entry cache) := by
  unfold store
  cases hkey : truthy c.frame.idempotencyKey with
  | none =>
    have hnone : c.ask.cacheKey options = none := cacheKey_none hkey
    exact ⟨fun _ _ h => h, fun _ _ h => .inl h, by rw [hnone]; nofun, by rw [hnone]; nofun⟩
  | some key =>
    have hk : c.ask.cacheKey options = some _ := cacheKey_eq hkey
    have hretention : c.retention entry = some entry.expiresAt := by
      unfold Call.retention
      rw [hkey]
      rfl
    dsimp only
    rw [IdempotencyCache.tryStore_vacant (hvacant _ hk)]
    refine ⟨fun k e hget => ?_, fun k e hget => ?_, fun k t hk' ht => ?_, fun _ => by rw [hretention]; rfl⟩
    · rw [JsMap.get_set_ne _ _ ?_, hget]
      rintro rfl
      rw [hvacant _ hk] at hget
      cases hget
    · rw [JsMap.get_set] at hget
      split_ifs at hget with hkk
      · cases hget
        exact .inr ⟨hkk ▸ hk, rfl⟩
      · exact .inl hget
    · rw [hk, Option.some.injEq] at hk'
      rw [hretention, Option.some.injEq] at ht
      exact ⟨by rw [← hk', JsMap.get_set_self], ht⟩

include h hi in
/-- A turn that ends an execution with its result, and stores it. -/
theorem Turned.stores {x : Execution V} {outcome : Outcome V} (hlive : c.live = true) (hx : c.execution = some x)
    (hcalls : s'.calls = s.calls.set i c') (hcache : s'.idempotency = store options now c entry s.idempotency)
    (hexecutions : s'.executions = s.executions) (hnow : s.now ≤ s'.now) (hask : c'.ask = c.ask)
    (hphase : c'.phase = .finished)
    (hexecution : c'.execution = some { x with outcome, retain := c.retention entry })
    (hhash : entry.paramsHash = hashParams host c.frame.params)
    (hbacks : Backs { x with outcome, retain := c.retention entry } entry)
    (hanswer : Answers options host s i c c') :
    Turned options host s i c c' s' := by
  obtain ⟨x₀, hx₀, hrunning, hretain⟩ := (h.wf i c hi).live hlive
  rw [hx, Option.some.injEq] at hx₀
  subst hx₀
  have hvacant : ∀ k, c.ask.cacheKey options = some k → JsMap.get s.idempotency k = none :=
    fun k hk => h.vacant i c k hi hlive hk
  have hstore := store_storing now entry hvacant
  rw [← hcache] at hstore
  refine
    { calls := hcalls, ask := hask, now := hnow, executions := hexecutions.ge, answered := hanswer,
      wf := ?wf, carried := ?carried, started := ?started,
      lost := fun k e hget => .inl (hstore.kept k e hget), stored := ?stored, retained := ?retained,
      live := ?live }
  case wf =>
    refine wf_finished hphase fun y hy => ?_
    rw [hexecution, Option.some.injEq] at hy
    subst hy
    rw [hask]
    exact .inr hstore.retains
  case carried =>
    intro y hy
    rw [hx, Option.some.injEq] at hy
    subst hy
    refine ⟨_, hexecution, ⟨rfl, rfl, rfl, ?_, fun hne => absurd hrunning hne⟩, ?_⟩
    · rw [hretain]
      nofun
    · rintro (hfailed | hp)
      · rw [hrunning] at hfailed
        cases hfailed
      · unfold Call.live at hlive
        rw [hp] at hlive
        cases hlive
  case started =>
    intro x' hnone
    rw [hx] at hnone
    cases hnone
  case stored =>
    intro k e hget
    rcases hstore.found k e hget with hwas | ⟨hk, rfl⟩
    · exact .inl hwas
    · refine .inr ⟨hk, hhash.symm, live_of_finished hphase, ⟨_, hexecution, hbacks⟩, ?_⟩
      intro j b hij hj hb hkb
      exact hij (h.alone j i b c k hj hi hb hlive hkb hk)
  case retained =>
    intro k x' t hk hx' ht
    rw [hexecution, Option.some.injEq] at hx'
    subst hx'
    exact .inr ⟨entry, hstore.retained k t hk ht⟩
  case live =>
    intro k hl
    rw [live_of_finished hphase] at hl
    cases hl

end

/-! ### Turns that start an execution -/

/-- A lookup that has found nothing, and the cache it left. -/
structure Missed (options : ActionNodeOptions) (s : ActionNodeApp V) (c : Call V) (now : ℚ)
    (cache : IdempotencyCache V) : Prop where
  vacant : ∀ k, c.ask.cacheKey options = some k → JsMap.get cache k = none
  lost : ∀ k entry, JsMap.get s.idempotency k = some entry →
    JsMap.get cache k = some entry ∨ entry.expiresAt ≤ now
  kept : ∀ k entry, JsMap.get cache k = some entry → JsMap.get s.idempotency k = some entry
  expired : ∀ k entry, c.ask.cacheKey options = some k → JsMap.get s.idempotency k = some entry →
    entry.expiresAt ≤ now
  /-- No execution under the key has still to store its result. -/
  idle : ∀ (j : ℕ) b k, s.calls[j]? = some b → c.ask.cacheKey options = some k → b.live = true →
    b.ask.cacheKey options ≠ some k

variable {cache : IdempotencyCache V}

theorem Missed.earlier (h : Sound options host s)
    (hm : Missed options s c now cache) (hnow : s.now ≤ now) {j : ℕ} {a : Call V} {k : String}
    (hj : s.calls[j]? = some a) (ha : a.ask.cacheKey options = some k)
    (hc : c.ask.cacheKey options = some k) (hx : a.execution = some x) :
    a.Lost x ∨ ∃ t, x.retain = some t ∧ t ≤ now := by
  rcases (h.wf j a hj).standing x hx with hlive | hlost | hretain
  · exact absurd ha (hm.idle j a k hj hc hlive)
  · exact .inl hlost
  · obtain ⟨t, ht⟩ := Option.isSome_iff_exists.1 (hretain (by rw [ha]; rfl))
    rcases h.retained j a k x t hj ha hx ht with hle | ⟨entry, hget, rfl⟩
    · exact .inr ⟨t, ht, hle.trans hnow⟩
    · exact .inr ⟨_, ht, hm.expired k entry hc hget⟩

theorem Turned.executes (h : Sound options host s)
    (hfresh : c.execution = none ∧ c.answer = none ∧ c.stream = none)
    (hm : Missed options s c (amb.clock s.now 0) cache) :
    Turned options host s i c
      { c with phase := .executing false
               execution := some { order := s.executions, since := amb.clock s.now 0, taskId := none } }
      { startExecution amb { s with idempotency := cache } i c with now := amb.clock s.now 4 } := by
  have hnow : s.now ≤ amb.clock s.now 0 := amb.le_clock 0
  have hlater : amb.clock s.now 0 ≤ amb.clock s.now 4 := amb.clock_mono (by omega)
  obtain ⟨hexecution, hanswer, hstream⟩ := hfresh
  refine
    { calls := rfl, ask := rfl, now := hnow.trans hlater, executions := Nat.le_succ _,
      wf := ⟨nofun, fun _ => ⟨_, rfl, rfl, rfl⟩, fun b _ => ⟨⟨_, rfl, rfl, rfl⟩, hanswer, hstream⟩, nofun,
        fun x _ => .inl rfl⟩,
      carried := fun x hx => by rw [hexecution] at hx; cases hx
      started := ?started
      lost := fun k entry hget => (hm.lost k entry hget).imp_right fun hle => hle.trans hlater
      stored := fun k entry hget => .inl (hm.kept k entry hget)
      retained := ?retained
      live := fun k _ hk => .inr ⟨hm.vacant k hk, fun j b hj hb => hm.idle j b k hj hk hb⟩
      answered := fun answer h => by rw [show _ = c.answer from rfl, hanswer] at h; cases h }
  case started =>
    intro x' _ hx'
    cases hx'
    refine ⟨rfl, Nat.lt_succ_self _, hlater, fun j a k x hj ha hc hx => ?_⟩
    exact hm.earlier h hnow hj ha hc hx
  case retained =>
    intro k x' t _ hx' ht
    cases hx'
    cases ht

theorem ActionTasks.tryTransition_create (now : ℚ) {tasks tasks' : ActionTasks V} {t : ℚ} {taskId actionId : String}
    {requestId agentNid : Option String} (h : tasks.create t taskId actionId requestId agentNid = some tasks') :
    (tasks'.tryTransition now taskId .pending .running).1 = true := by
  unfold ActionTasks.create at h
  split_ifs at h
  cases h
  unfold ActionTasks.tryTransition
  rw [JsMap.get_set_self]
  rfl

include h hi in
/-- A turn that starts a task: its entry is stored before the task runs. -/
theorem startTask_turned (hfresh : c.execution = none ∧ c.answer = none ∧ c.stream = none)
    (hm : Missed options s c (amb.clock s.now 0) cache) :
    ∃ c', Turned options host s i c c'
      { startTask options host amb { s with idempotency := cache } i c with now := amb.clock s.now 4 } := by
  have hnow : s.now ≤ amb.clock s.now 0 := amb.le_clock 0
  have hlater : amb.clock s.now 0 ≤ amb.clock s.now 4 := amb.clock_mono (by omega)
  obtain ⟨hexecution, hanswer, hstream⟩ := hfresh
  unfold startTask
  dsimp only
  split
  · -- the identifier is taken: the handler throws before anything is stored
    refine ⟨c.finish .threw,
      { calls := rfl, ask := rfl, now := hnow.trans hlater, executions := le_rfl,
        wf := wf_finished rfl (by simp [hexecution])
        carried := by simp [hexecution]
        started := by simp [hexecution]
        lost := fun k entry hget => (hm.lost k entry hget).imp_right fun hle => hle.trans hlater
        stored := fun k entry hget => .inl (hm.kept k entry hget)
        retained := by simp [hexecution]
        live := fun k hl => by rw [live_of_finished rfl] at hl; cases hl
        answered := fun answer ha hok => by cases ha; cases hok }⟩
  · rename_i tasks hcreate
    have htrans := ActionTasks.tryTransition_create (amb.clock s.now 4) hcreate
    rcases htasks : tasks.tryTransition (amb.clock s.now 4) amb.uuid.text .pending .running with ⟨b, tasks'⟩
    rw [htasks] at htrans
    cases htrans
    dsimp only
    set entry : IdempotentEntry V :=
      { entryOf options host amb s.now 2 c with taskId := some amb.uuid.text } with hentry
    have hstore := store_storing (amb.clock s.now 3) entry hm.vacant
    have huuid : truthy entry.taskId = some amb.uuid.text := by
      rw [hentry]
      exact if_neg amb.uuid.nonempty
    refine ⟨_,
      { calls := rfl, ask := rfl, now := hnow.trans hlater, executions := Nat.le_succ _,
        wf := ⟨by rintro ⟨⟩, by rintro ⟨⟩, by rintro _ ⟨⟩, fun t b _ => ⟨_, rfl, rfl⟩, ?standing⟩
        carried := by simp [hexecution]
        started := ?started
        lost := fun k e hget => (hm.lost k e hget).imp (hstore.kept k e) fun hle => hle.trans hlater
        stored := ?stored
        retained := ?retained
        live := by rintro _ ⟨⟩
        answered := ?answered }⟩
    case standing =>
      intro x hx
      cases hx
      exact .inr (.inr hstore.retains)
    case started =>
      intro x' _ hx'
      cases hx'
      refine ⟨rfl, Nat.lt_succ_self _, hlater, fun j a k x hj ha hc hx => ?_⟩
      exact hm.earlier h hnow hj ha hc hx
    case stored =>
      intro k e hget
      rcases hstore.found k e hget with hwas | ⟨hk, rfl⟩
      · exact .inl (hm.kept k e hwas)
      · refine .inr ⟨hk, rfl, rfl, ⟨_, rfl, ?_⟩, fun j b _ hj hb => hm.idle j b k hj hk hb⟩
        unfold Backs
        rw [huuid]
    case retained =>
      intro k x' t hk hx' ht
      cases hx'
      exact .inr ⟨entry, hstore.retained k t hk ht⟩
    case answered =>
      intro answer ha _ _
      cases ha
      refine .inr ⟨_, mem_set_self hi, rfl, rfl, _, rfl, rfl, ?_⟩
      intro st rest hst
      rw [show _ = c.stream from rfl, hstream] at hst
      cases hst

/-! ### The lookup -/

theorem replay_hands (hbacks : Backs x entry) (hstream : c.stream = none)
    (hanswer : (replay options host amb s c entry).answer = some answer) (hok : answer.successful = true)
    (hhash : entry.paramsHash = hashParams host c.frame.params) :
    Hands x (replay options host amb s c entry) answer := by
  unfold replay at hanswer ⊢
  rw [if_neg (not_not.2 hhash)] at hanswer ⊢
  unfold Backs at hbacks
  cases htask : truthy entry.taskId with
  | some taskId =>
    simp only [htask] at hbacks hanswer ⊢
    cases hanswer
    refine ⟨hbacks, fun st rest hst => ?_⟩
    rw [Call.finish_stream, hstream] at hst
    cases hst
  | none =>
    cases hframes : entry.streamFrames with
    | some frames =>
      simp only [htask, hframes] at hbacks hanswer ⊢
      obtain ⟨anchorRef, hout⟩ := hbacks
      cases hanswer
      refine ⟨⟨_, rfl, .inr ⟨frames, anchorRef, hout, List.nil_prefix⟩⟩, fun st rest hst _ hsource => ?_⟩
      cases hst
      cases hsource
      exact ⟨frames, anchorRef, hout, List.prefix_refl _⟩
    | none =>
      simp only [htask, hframes] at hbacks hanswer ⊢
      unfold capsResponse at hanswer
      split_ifs at hanswer
      · cases hanswer
        refine ⟨hbacks, fun st rest hst => ?_⟩
        rw [Call.finish_stream, hstream] at hst
        cases hst
      · cases hanswer
        cases hok

theorem replay_frame (entry : IdempotentEntry V) : (replay options host amb s c entry).ask = c.ask ∧
    (replay options host amb s c entry).execution = c.execution ∧
      (replay options host amb s c entry).live = false ∧
        ((replay options host amb s c entry).phase = .finished ∨
          (replay options host amb s c entry).phase = .streaming) := by
  unfold replay
  split
  · exact ⟨rfl, rfl, rfl, .inl rfl⟩
  · split
    · exact ⟨rfl, rfl, rfl, .inl rfl⟩
    · split
      · unfold startStream
        cases c.requestAborted with
        | true => exact ⟨rfl, rfl, rfl, .inl rfl⟩
        | false => exact ⟨rfl, rfl, rfl, .inr rfl⟩
      · exact ⟨rfl, rfl, rfl, .inl rfl⟩

include h hi in
theorem Turned.replays {k : String} (hfresh : c.execution = none ∧ c.answer = none ∧ c.stream = none)
    (hkey : c.ask.cacheKey options = some k) (hget : JsMap.get s.idempotency k = some entry)
    (hphase : c.phase = .authorizing) :
    Turned options host s i c (replay options host amb s c entry)
      { setCall s i (replay options host amb s c entry) with now := amb.clock s.now 4 } := by
  obtain ⟨hexecution, hanswer, hstream⟩ := hfresh
  obtain ⟨hask, hexec, hlive, hend⟩ := @replay_frame V options host s amb c entry
  have hwf : (replay options host amb s c entry).Wf options :=
    { fresh := by rcases hend with hp | hp <;> rw [hp] <;> nofun
      live := by rw [hlive]; nofun
      executing := by rcases hend with hp | hp <;> rw [hp] <;> nofun
      running := by rcases hend with hp | hp <;> rw [hp] <;> nofun
      standing := by rw [hexec, hexecution]; nofun }
  refine .quiet rfl rfl rfl (amb.le_clock 4) hask hwf hexec (by rw [hphase]; nofun)
    (by rw [hlive]; nofun) fun answer ha hok _ => ?_
  by_cases hhash : entry.paramsHash = hashParams host c.frame.params
  · obtain ⟨a, hmem, hak, hahash, x, hx, hbacks⟩ := h.backed k entry hget
    obtain ⟨j, hj⟩ := List.mem_iff_getElem?.1 hmem
    have hij : j ≠ i := by
      rintro rfl
      rw [hi, Option.some.injEq] at hj
      rw [← hj, hexecution] at hx
      cases hx
    have hframe : (replay options host amb s c entry).frame = c.frame := congrArg Ask.frame hask
    exact .inr ⟨a, mem_set_ne hj hij, by rw [hask, hak, hkey], by rw [hframe, hahash, hhash], x, hx,
      replay_hands hbacks hstream ha hok hhash⟩
  · rw [replay, if_pos hhash] at ha
    cases ha
    cases hok

include h hi in
theorem start_turned (hfresh : c.execution = none ∧ c.answer = none ∧ c.stream = none)
    (hm : Missed options s c (amb.clock s.now 0) cache) :
    ∃ c', Turned options host s i c c'
      { (if c.frame.async_ then startTask options host amb { s with idempotency := cache } i c
          else startExecution amb { s with idempotency := cache } i c) with now := amb.clock s.now 4 } := by
  cases c.frame.async_ with
  | true => exact startTask_turned h hi hfresh hm
  | false => exact ⟨_, .executes h hfresh hm⟩

include h hi in
/-- The turn after the authorization, where no lookup races with an execution. -/
theorem lookup_turned (hphase : c.phase = .authorizing)
    (hrace : noRace options s (.authorized amb i (.ok ())) = true) :
    ∃ c', Turned options host s i c c' { lookup options host amb s i c with now := amb.clock s.now 4 } := by
  have hfresh := (h.wf i c hi).fresh hphase
  unfold lookup
  dsimp only
  cases hkey : truthy c.frame.idempotencyKey with
  | none =>
    have hnone : c.ask.cacheKey options = none := cacheKey_none hkey
    refine start_turned h hi hfresh
      ⟨?_, fun k entry hget => .inl hget, fun k entry hget => hget, ?_, ?_⟩
    · rw [hnone]
      nofun
    · rw [hnone]
      nofun
    · intro j b k _ hk
      rw [hnone] at hk
      cases hk
  | some key =>
    have hk : c.ask.cacheKey options = some _ := cacheKey_eq hkey
    dsimp only
    rcases IdempotencyCache.get_cases s.idempotency (amb.clock s.now 0)
      (scopedCacheActionId options c.frame.actionId c.context.agentNid) key with
      ⟨entry, hget, -, heq⟩ | ⟨cache, heq, hvacant, hexpired, hothers⟩
    · rw [heq]
      exact ⟨_, .replays h hi hfresh hk hget hphase⟩
    · rw [heq]
      refine start_turned h hi hfresh ⟨?_, ?_, ?_, ?_, ?_⟩
      · intro k hk'
        rw [hk, Option.some.injEq] at hk'
        rw [← hk', hvacant]
      · intro k entry hget
        by_cases hkk : k = IdempotencyCache.key
            (scopedCacheActionId options c.frame.actionId c.context.agentNid) key
        · subst hkk
          exact .inr (hexpired entry hget)
        · exact .inl (by rw [hothers k hkk, hget])
      · intro k entry hget
        by_cases hkk : k = IdempotencyCache.key
            (scopedCacheActionId options c.frame.actionId c.context.agentNid) key
        · subst hkk
          rw [hvacant] at hget
          cases hget
        · rw [← hothers k hkk, hget]
      · intro k entry hk' hget
        rw [hk, Option.some.injEq] at hk'
        subst hk'
        exact hexpired entry hget
      · intro j b k hj hk' hlive hkb
        rw [hk, Option.some.injEq] at hk'
        subst hk'
        simp only [noRace, hi, hk, hphase, bne_self_eq_false, Bool.false_or, Bool.or_eq_true] at hrace
        rcases hrace with hhit | hall
        · rw [Option.any_eq_true] at hhit
          obtain ⟨entry, hget, hlt⟩ := hhit
          have hle := hexpired entry hget
          have hlt : amb.clock s.now 0 < entry.expiresAt := of_decide_eq_true hlt
          exact absurd hlt (not_lt.2 hle)
        · have hb := List.all_eq_true.1 hall b (List.mem_of_getElem? hj)
          have hb := of_decide_eq_true hb hkb
          rw [hlive] at hb
          cases hb

/-! ### The end of an execution -/

variable {aborted : Bool}

theorem race_ok {outcome : Settled V} {result : ActionExecutionResult V}
    (h : race aborted outcome = some (.ok result)) : aborted = false := by
  cases outcome <;> cases aborted <;> simp_all [race]

theorem thrownResponse_error (status : ℕ × String) (message : String) (thrown : Thrown) :
    (thrownResponse status message thrown : ActionAnswer V).successful = false := by
  cases thrown <;> rfl

theorem Call.ended_execution {outcome : Outcome V} {retain : Option ℚ}
    (h : c.execution = some x) : (c.ended outcome retain).execution = some { x with outcome, retain } := by
  simp [Call.ended, h]

theorem capsResponse_cases (host : Host V) (payload : Option V) (anchorRef requestId : Option String) (tokenEst : ℚ) :
    capsResponse host payload anchorRef requestId tokenEst = .caps payload anchorRef requestId tokenEst ∨
      capsResponse host payload anchorRef requestId tokenEst = .threw := by
  unfold capsResponse
  split
  · exact .inl rfl
  · exact .inr rfl

include h hi in
theorem settleExecution_turned {outcome : Settled V} {result : Except Thrown (ActionExecutionResult V)}
    (hphase : c.phase = .executing aborted) (hrace : race aborted outcome = some result) :
    ∃ c', Turned options host s i c c'
      { settleExecution options host amb s i c aborted result with now := amb.clock s.now 4 } := by
  obtain ⟨⟨x, hx, hrunning, hretain⟩, hnoAnswer, hnoStream⟩ := (h.wf i c hi).executing aborted hphase
  cases result with
  | error thrown =>
    refine ⟨_, .ends .failed hx hrunning hretain.symm rfl rfl rfl (amb.le_clock 4) rfl rfl ?_ (.inl rfl) ?_⟩
    · exact Call.ended_execution hx
    · intro answer ha hok
      cases ha
      cases aborted with
      | true =>
        rw [if_pos rfl, thrownResponse_error] at hok
        cases hok
      | false =>
        rw [if_neg Bool.false_ne_true, thrownResponse_error] at hok
        cases hok
  | ok result =>
    obtain rfl := race_ok hrace
    have hlive : c.live = true := by
      unfold Call.live
      rw [hphase]
    unfold settleExecution
    dsimp only
    split
    · -- the frames of the provider follow
      refine ⟨_, .quiet rfl rfl rfl (amb.le_clock 4) rfl ?_ rfl (by rw [hphase]; nofun) (fun _ => hlive) ?_⟩
      · exact ⟨nofun, fun _ => ⟨x, hx, hrunning, hretain⟩, nofun, nofun, fun y hy => .inl rfl⟩
      · intro answer ha _ _
        cases ha
        refine .inr ⟨_, mem_set_self hi, rfl, rfl, x, hx, ⟨_, rfl, .inl ?_⟩, ?_⟩
        · exact (congrArg (Option.map Execution.order) hx).trans rfl
        · intro st rest hst _ hsource
          cases hst
          cases hsource
    · refine ⟨_, .stores h hi hlive hx rfl rfl rfl (amb.le_clock 4) rfl rfl ?_ rfl rfl ?_⟩
      · exact Call.ended_execution hx
      · intro answer ha hok _
        refine .inr ⟨_, mem_set_self hi, rfl, rfl, _, Call.ended_execution hx, ?_⟩
        have ha : capsResponse host result.result _ _ _ = answer := Option.some.inj ha
        rcases capsResponse_cases host result.result (result.anchorRef <|> c.context.spec.resultAnchor)
          c.context.requestId (result.tokenEst.getD 0) with heq | heq
        · rw [heq] at ha
          subst ha
          refine ⟨rfl, fun st rest hst => ?_⟩
          have hst : c.stream = some st := hst
          rw [hnoStream] at hst
          cases hst
        · rw [heq] at ha
          subst ha
          cases hok

include h hi in
theorem settleTask_turned {taskId : String}
    (result : Except Thrown (ActionExecutionResult V)) (hphase : c.phase = .running taskId aborted) :
    ∃ c', Turned options host s i c c'
      { settleTask amb s i c taskId aborted result with now := amb.clock s.now 4 } := by
  obtain ⟨x, hx, hrunning⟩ := (h.wf i c hi).running taskId aborted hphase
  have hbind : c.execution.bind Execution.retain = x.retain := by rw [hx]; rfl
  have hne : c.phase ≠ .executing true := by rw [hphase]; nofun
  have hstored : (c.ask.cacheKey options).isSome → x.retain.isSome := by
    rcases (h.wf i c hi).standing x hx with hlive | (hfailed | hp) | hretain
    · unfold Call.live at hlive
      rw [hphase] at hlive
      cases hlive
    · rw [hrunning] at hfailed
      cases hfailed
    · exact absurd hp hne
    · exact hretain
  have hands : ∀ outcome answer y, Hands y c answer →
      Hands y ({ c with phase := .finished }.ended outcome (c.execution.bind Execution.retain)) answer := by
    intro outcome answer y hd
    have hx' : Call.execution { c with phase := .finished } = some x := hx
    refine Hands.congr ?_ ?_ nofun hd
    · rfl
    · rw [Call.ended_execution hx', hx]
      rfl
  cases result with
  | error thrown =>
    refine ⟨_, .ends .failed hx hrunning hbind rfl rfl rfl (amb.le_clock 4) rfl rfl ?_ (.inl rfl)
      fun answer ha _ _ => .inl ⟨ha, hands _ answer⟩⟩
    exact Call.ended_execution hx
  | ok result =>
    refine ⟨_, .ends (.result result.result none) hx hrunning hbind rfl rfl rfl (amb.le_clock 4) rfl rfl ?_ (.inr ⟨hne, hstored⟩)
      fun answer ha _ _ => .inl ⟨ha, hands _ answer⟩⟩
    exact Call.ended_execution hx

/-! ### Streams -/

theorem pump_emitted (st : StreamRun V) (item : StreamItem V) : (pump host st item).1.source = st.source ∧
    ((pump host st item).1.emitted = st.emitted ∧ (pump host st item).2 ≠ .goesOn ∨
      ∃ f, item = .frame f ∧ (pump host st item).1.emitted = st.emitted ++ [{ f with streamId := st.streamId }]) := by
  have hfail : ∀ (st : StreamRun V) code, (failureLine host st code).source = st.source ∧
      (failureLine host st code).emitted = st.emitted := by
    intro st code
    unfold failureLine
    split <;> exact ⟨rfl, rfl⟩
  cases item with
  | done =>
    unfold pump
    dsimp only
    split
    · exact ⟨(hfail st _).1, .inl ⟨(hfail st _).2, nofun⟩⟩
    · split <;> exact ⟨rfl, .inl ⟨rfl, nofun⟩⟩
  | throws thrown =>
    cases thrown <;> exact ⟨(hfail st _).1, .inl ⟨(hfail st _).2, nofun⟩⟩
  | frame f =>
    unfold pump
    dsimp only
    split
    · exact ⟨(hfail st _).1, .inl ⟨(hfail st _).2, nofun⟩⟩
    · split
      · exact ⟨(hfail _ _).1, .inr ⟨f, rfl, (hfail _ _).2⟩⟩
      · split <;> exact ⟨rfl, .inr ⟨f, rfl, rfl⟩⟩

variable {st : StreamRun V}

theorem nextItem_replay {rest : List (StreamFrame V)} (item : StreamItem V)
    (hsource : st.source = .replay rest) : ∃ rest', (nextItem st item).2 = .replay rest' ∧
      ((nextItem st item).1 = .done ∨ ∃ f, (nextItem st item).1 = .frame f ∧ rest = f :: rest') := by
  unfold nextItem
  rw [hsource]
  cases rest with
  | nil => exact ⟨[], rfl, .inl rfl⟩
  | cons f rest =>
    dsimp only
    split
    · exact ⟨[], rfl, .inl rfl⟩
    · exact ⟨rest, rfl, .inr ⟨f, rfl, rfl⟩⟩

include h hi in
/-- A call whose pump takes frames from a replay. -/
theorem replayed_turned {st st' : StreamRun V}
    {rest : List (StreamFrame V)} {p : Phase} {n : ℚ} (hphase : c.phase = .streaming)
    (hstream : c.stream = some st) (hsource : st.source = .replay rest) (hp : p = .streaming ∨ p = .finished)
    {rest' : List (StreamFrame V)} (hsource' : st'.source = .replay rest') (hnow : s.now ≤ n)
    (hemitted : st'.emitted = st.emitted ∧ (p = .streaming → rest' = rest) ∨
      ∃ f, rest = f :: rest' ∧ st'.emitted = st.emitted ++ [{ f with streamId := st.streamId }]) :
    ∃ c', Turned options host s i c c'
      { setCall s i { c with phase := p, stream := some st' } with now := n } := by
  have hdead : ∀ c' : Call V, (c'.phase = .streaming ∨ c'.phase = .finished) → c'.stream = some st' →
      c'.live = false := by
    rintro c' (hp | hp) hst
    · unfold Call.live
      rw [hp, hst]
      simp only [hsource']
    · exact live_of_finished hp
  have hlive : c.live = false := by
    unfold Call.live
    rw [hphase, hstream]
    simp only [hsource]
  have hwf : ({ c with phase := p, stream := some st' } : Call V).Wf options :=
    { fresh := by rcases hp with rfl | rfl <;> nofun
      live := by rw [hdead _ hp rfl]; nofun
      executing := by rcases hp with rfl | rfl <;> nofun
      running := by rcases hp with rfl | rfl <;> nofun
      standing := by
        intro x hx
        rcases (h.wf i c hi).standing x hx with hl | (hfailed | hexec) | hretain
        · rw [hlive] at hl
          cases hl
        · exact .inr (.inl (.inl hfailed))
        · rw [hphase] at hexec
          cases hexec
        · exact .inr (.inr hretain) }
  refine ⟨_, .quiet rfl rfl rfl hnow rfl hwf rfl (by rw [hphase]; nofun)
    (by rw [hdead _ hp rfl]; nofun) fun answer ha _ _ => .inl ⟨ha, fun x hd => ?_⟩⟩
  -- all that is left to give was of the execution, and so is what has now been passed on
  obtain ⟨frames, anchorRef, hout, hpre⟩ := hd.2 st rest hstream hphase hsource
  have hwhole : p = .streaming ∨ st'.emitted ≠ st.emitted →
      (st'.emitted ++ rest').map StreamFrame.untagged = (st.emitted ++ rest).map StreamFrame.untagged := by
    intro hor
    rcases hemitted with ⟨heq, hrest⟩ | ⟨f, hrest, heq⟩
    · rcases hor with hp | hne
      · rw [heq, hrest hp]
      · exact absurd heq hne
    · rw [heq, hrest]
      simp [StreamFrame.untagged]
  have hemit : st'.emitted.map StreamFrame.untagged <+: frames.map StreamFrame.untagged := by
    by_cases heq : st'.emitted = st.emitted
    · rw [heq]
      refine List.IsPrefix.trans ?_ hpre
      rw [List.map_append]
      exact List.prefix_append _ _
    · refine List.IsPrefix.trans ?_ hpre
      rw [← hwhole (.inr heq), List.map_append]
      exact List.prefix_append _ _
  refine ⟨?_, fun st₂ rest₂ hst₂ hp₂ hsource₂ => ?_⟩
  · cases answer with
    | stream => exact ⟨st', rfl, .inr ⟨frames, anchorRef, hout, hemit⟩⟩
    | _ => exact hd.1
  · cases hst₂
    rw [hsource'] at hsource₂
    cases hsource₂
    have hp₂ : p = .streaming := hp₂
    refine ⟨frames, anchorRef, hout, ?_⟩
    rw [hwhole (.inl hp₂)]
    exact hpre

theorem own_stream (hi : s.calls[i]? = some c)
    (hx : c'.execution = some x) (hstream : c'.stream = some st) (hsource : st.source = .provider)
    (ha : c'.answer = some answer) (hwas : c'.answer = c.answer) :
    c.answer = some answer ∧ (∀ x, Hands x c answer → Hands x c' answer) ∨
      FromExecution options host (s.calls.set i c') c' answer := by
  have hsecond : ∀ st₂ rest, c'.stream = some st₂ → st₂.source ≠ .replay rest := by
    intro st₂ rest hst₂
    rw [hstream, Option.some.injEq] at hst₂
    rw [← hst₂, hsource]
    nofun
  cases answer with
  | stream =>
    refine .inr ⟨c', mem_set_self hi, rfl, rfl, x, hx, ⟨st, hstream, .inl ?_⟩, ?_⟩
    · rw [hx]
      rfl
    · exact fun st₂ rest hst₂ _ hs => absurd hs (hsecond st₂ rest hst₂)
  | _ =>
    exact .inl ⟨hwas.symm.trans ha, fun x hd =>
      ⟨hd.1, fun st₂ rest hst₂ _ hs => absurd hs (hsecond st₂ rest hst₂)⟩⟩

include h hi in
theorem pumpCall_turned (item : StreamItem V) (hphase : c.phase = .streaming) (hstream : c.stream = some st) :
    ∃ c', Turned options host s i c c'
      { pumpCall options host amb s i c st item with now := amb.clock s.now 4 } := by
  cases hsource : st.source with
  | replay rest =>
    obtain ⟨rest', hrest', hitem⟩ := nextItem_replay item hsource
    unfold pumpCall
    rcases hnext : nextItem st item with ⟨next, source⟩
    rw [hnext] at hrest' hitem
    dsimp only at hrest' hitem ⊢
    subst hrest'
    obtain ⟨hsource', hemitted⟩ := @pump_emitted V host { st with source := .replay rest' } next
    rcases hpump : pump host { st with source := .replay rest' } next with ⟨st', pumped⟩
    rw [hpump] at hsource' hemitted
    dsimp only at hsource' hemitted ⊢
    have hpassed : st'.emitted = st.emitted ∧ pumped ≠ .goesOn ∨
        ∃ f, rest = f :: rest' ∧ st'.emitted = st.emitted ++ [{ f with streamId := st.streamId }] := by
      rcases hemitted with hsame | ⟨f, rfl, heq⟩
      · exact .inl hsame
      · rcases hitem with hdone | ⟨g, hframe, hrest⟩
        · cases hdone
        · cases hframe
          exact .inr ⟨f, hrest, heq⟩
    cases pumped with
    | goesOn =>
      have hturned := replayed_turned (p := .streaming) h hi hphase hstream hsource (.inl rfl) hsource'
        (@Ambient.le_clock amb s.now 4) (hpassed.imp_left fun hsame => absurd rfl hsame.2)
      rw [← hphase] at hturned
      exact hturned
    | stops | completes =>
      exact replayed_turned h hi hphase hstream hsource (.inr rfl) hsource' (amb.le_clock 4)
        (hpassed.imp_left fun hsame => ⟨hsame.1, nofun⟩)
  | provider =>
    have hlive : c.live = true := by
      unfold Call.live
      rw [hphase, hstream]
      simp only [hsource]
    obtain ⟨x, hx, hrunning, hretain⟩ := (h.wf i c hi).live hlive
    have hnext : nextItem st item = (item, .provider) := by
      unfold nextItem
      rw [hsource]
    unfold pumpCall
    rw [hnext]
    dsimp only
    obtain ⟨hsource', -⟩ := @pump_emitted V host { st with source := .provider } item
    rcases hpump : pump host { st with source := .provider } item with ⟨st', pumped⟩
    rw [hpump] at hsource'
    dsimp only at hsource' ⊢
    have hlive' : Call.live { c with stream := some st' } = true := by
      unfold Call.live
      simp only [hphase, hsource']
    have hx' : Call.execution { c with stream := some st', phase := .finished } = some x := hx
    cases pumped with
    | goesOn =>
      refine ⟨_, .quiet rfl rfl rfl (amb.le_clock 4) rfl ?_ rfl id (fun _ => hlive)
        fun answer ha _ _ => own_stream hi hx rfl hsource' ha rfl⟩
      exact ⟨by rw [hphase]; nofun, fun _ => ⟨x, hx, hrunning, hretain⟩, by rw [hphase]; nofun,
        by rw [hphase]; nofun, fun y _ => .inl hlive'⟩
    | stops =>
      refine ⟨_, .ends .failed hx hrunning hretain.symm rfl rfl rfl (amb.le_clock 4) rfl rfl
        (Call.ended_execution hx') (.inl rfl) fun answer ha _ _ => ?_⟩
      exact own_stream hi (Call.ended_execution hx') rfl hsource' ha rfl
    | completes =>
      refine ⟨_, .stores h hi hlive hx rfl rfl rfl (amb.le_clock 4) rfl rfl
        (Call.ended_execution hx') rfl ⟨_, rfl⟩ fun answer ha _ _ => ?_⟩
      exact own_stream hi (Call.ended_execution hx') rfl hsource' ha rfl

/-! ### Signals -/

include h hi in
theorem flagged_turned {st st' : StreamRun V} (hstream : c.stream = some st) (hsource : st'.source = st.source)
    (hemitted : st'.emitted = st.emitted) :
    Turned options host s i c { c with stream := some st', requestAborted := aborted }
      (setCall s i { c with stream := some st', requestAborted := aborted }) := by
  have hlive : Call.live { c with stream := some st', requestAborted := aborted } = c.live := by
    unfold Call.live
    rw [hstream]
    cases c.phase with
    | executing b => cases b <;> rfl
    | _ => simp only [hsource]
  have hwf := h.wf i c hi
  refine .quiet rfl rfl rfl le_rfl rfl ?_ rfl id (fun hl => hlive ▸ hl) fun answer ha _ _ => .inl ⟨ha, fun x hd => ?_⟩
  · refine ⟨fun hp => ?_, fun hl => hwf.live (hlive ▸ hl), fun b hp => ?_, hwf.running, fun x hx => ?_⟩
    · obtain ⟨-, -, hnone⟩ := hwf.fresh hp
      rw [hstream] at hnone
      cases hnone
    · obtain ⟨-, -, hnone⟩ := hwf.executing b hp
      rw [hstream] at hnone
      cases hnone
    · rw [hlive]
      exact hwf.standing x hx
  · refine ⟨?_, fun st₂ rest hst₂ hp hs => ?_⟩
    · cases answer with
      | stream =>
        obtain ⟨st₀, hst₀, hd₀⟩ := hd.1
        rw [hstream, Option.some.injEq] at hst₀
        subst hst₀
        exact ⟨st', rfl, by rw [hemitted]; exact hd₀⟩
      | _ => exact hd.1
    · cases hst₂
      rw [hemitted]
      exact hd.2 st rest hstream hp (by rw [← hsource, hs])

include h hi in
theorem aborted_turned {p : Phase}
    (hp : (∃ b, c.phase = .executing b) ∧ p = .executing true ∨ ∃ t b, c.phase = .running t b ∧ p = .running t true) :
    Turned options host s i c { c with phase := p } (setCall s i { c with phase := p }) := by
  have hwf := h.wf i c hi
  have hdead : Call.live { c with phase := p } = false := by
    unfold Call.live
    rcases hp with ⟨-, rfl⟩ | ⟨t, b, -, rfl⟩ <;> rfl
  refine .quiet rfl rfl rfl le_rfl rfl ?_ rfl ?_ (by rw [hdead]; nofun)
    fun answer ha _ _ => .inl ⟨ha, fun x hd => ?_⟩
  · rcases hp with ⟨⟨b, hphase⟩, rfl⟩ | ⟨t, b, hphase, rfl⟩
    · exact ⟨nofun, nofun, fun _ _ => hwf.executing b hphase, nofun, fun x _ => .inr (.inl (.inr rfl))⟩
    · refine ⟨nofun, nofun, nofun, fun t₂ b₂ _ => hwf.running t b hphase, fun x hx => ?_⟩
      rcases hwf.standing x hx with hl | (hfailed | hexec) | hretain
      · unfold Call.live at hl
        rw [hphase] at hl
        cases hl
      · exact .inr (.inl (.inl hfailed))
      · rw [hphase] at hexec
        cases hexec
      · exact .inr (.inr hretain)
  · rcases hp with ⟨-, rfl⟩ | ⟨t, b, hphase, rfl⟩
    · exact fun _ => rfl
    · rw [hphase]
      nofun
  · refine Hands.congr ?_ ?_ ?_ hd
    · rfl
    · rfl
    · rcases hp with ⟨-, rfl⟩ | ⟨t, b, -, rfl⟩ <;> nofun

include h hi in
theorem noted_turned :
    Turned options host s i c { c with requestAborted := true } (setCall s i { c with requestAborted := true }) := by
  have hwf := h.wf i c hi
  refine .quiet rfl rfl rfl le_rfl rfl ⟨hwf.fresh, hwf.live, hwf.executing, hwf.running, hwf.standing⟩ rfl id id
    fun answer ha _ _ => .inl ⟨ha, fun x hd => ?_⟩
  refine Hands.congr ?_ ?_ ?_ hd
  · rfl
  · rfl
  · exact id

include h hi in
/-- **One event of a call**, where no lookup races with an execution. -/
theorem callStep_turned (e : Event V)
    (he : e.call? = some i) (hrace : noRace options s e = true) :
    callStep options host s i c e = s ∨
      ∃ c', Turned options host s i c c' { callStep options host s i c e with now := e.after s.now } := by
  cases e with
  | request => cases he
  | authorized amb j answer =>
    cases he
    simp only [callStep]
    split
    · exact .inl rfl
    · rename_i hphase
      have hphase : c.phase = .authorizing := not_not.1 hphase
      cases answer with
      | ok =>
        exact .inr (lookup_turned h hi hphase hrace)
      | error thrown =>
        obtain ⟨hexecution, -, -⟩ := (h.wf i c hi).fresh hphase
        refine .inr ⟨_, .quiet rfl rfl rfl (amb.le_clock 4) rfl ?_ rfl ?_ ?_ fun answer ha hok => ?_⟩
        · exact wf_finished rfl (by simp [hexecution])
        · rw [hphase]
          nofun
        · rw [live_of_finished rfl]
          nofun
        · cases ha
          rw [thrownResponse_error] at hok
          cases hok
  | timeout j =>
    cases he
    simp only [callStep]
    split
    · rename_i b hphase
      exact .inr ⟨_, aborted_turned h hi (.inl ⟨⟨_, ‹_›⟩, rfl⟩)⟩
    · rename_i t b hphase
      exact .inr ⟨_, aborted_turned h hi (.inr ⟨_, _, ‹_›, rfl⟩)⟩
    · rename_i st hphase hstream
      split
      · exact .inr ⟨_, flagged_turned h hi hstream rfl rfl⟩
      · exact .inl rfl
    · exact .inl rfl
  | settled amb j outcome =>
    cases he
    simp only [callStep]
    split
    · rename_i b hphase
      split
      · rename_i result hresult
        exact .inr (settleExecution_turned h hi hphase hresult)
      · exact .inl rfl
    · rename_i t b hphase
      split
      · rename_i result hresult
        exact .inr (settleTask_turned h hi result hphase)
      · exact .inl rfl
    · exact .inl rfl
  | pulled amb j item =>
    cases he
    simp only [callStep]
    split
    · rename_i st hphase hstream
      exact .inr (pumpCall_turned h hi item hphase hstream)
    · exact .inl rfl
  | readerCancelled j =>
    cases he
    simp only [callStep]
    split
    · rename_i st hphase hstream
      exact .inr ⟨_, flagged_turned h hi hstream rfl rfl⟩
    · exact .inl rfl
  | requestAborted j =>
    cases he
    simp only [callStep]
    split
    · rename_i st hstream
      split
      · exact .inr ⟨_, noted_turned h hi⟩
      · exact .inr ⟨_, flagged_turned h hi hstream rfl rfl⟩
    · exact .inr ⟨_, noted_turned h hi⟩

/-! ### Requests -/

theorem Sound.arrives (h : Sound options host s) (hask : c.execution = none ∧ c.answer = none ∧ c.stream = none)
    (hphase : c.phase = .authorizing) : Sound options host { s with calls := s.calls ++ [c] } := by
  obtain ⟨hexecution, hanswer, hstream⟩ := hask
  have hlive : c.live = false := by
    unfold Call.live
    rw [hphase]
  -- the new call has neither executed nor answered anything
  have hold : ∀ (j : ℕ) b, (s.calls ++ [c])[j]? = some b → s.calls[j]? = some b ∨ b = c := by
    intro j b hj
    rcases getElem?_snoc_cases hj with ⟨-, hb⟩ | hj
    · exact .inr hb
    · exact .inl hj
  constructor
  case wf =>
    intro j b hj
    rcases hold j b hj with hj | rfl
    · exact h.wf j b hj
    · exact ⟨fun _ => ⟨hexecution, hanswer, hstream⟩, by rw [hlive]; nofun, by rw [hphase]; nofun,
        by rw [hphase]; nofun, by rw [hexecution]; nofun⟩
  case numbered =>
    intro j b x hj hx
    rcases hold j b hj with hj | rfl
    · exact h.numbered j b x hj hx
    · rw [hexecution] at hx
      cases hx
  case retained =>
    intro j b k x t hj hk hx
    rcases hold j b hj with hj | rfl
    · exact h.retained j b k x t hj hk hx
    · rw [hexecution] at hx
      cases hx
  case vacant =>
    intro j b k hj hl
    rcases hold j b hj with hj | rfl
    · exact h.vacant j b k hj hl
    · rw [hlive] at hl
      cases hl
  case alone =>
    intro j l a b k hj hl ha hb
    rcases hold j a hj with hj | rfl
    · rcases hold l b hl with hl | rfl
      · exact h.alone j l a b k hj hl ha hb
      · rw [hlive] at hb
        cases hb
    · rw [hlive] at ha
      cases ha
  case backed =>
    intro k entry hget
    obtain ⟨a, ha, hrest⟩ := h.backed k entry hget
    exact ⟨a, List.mem_append_left _ ha, hrest⟩
  case once =>
    intro j l a b k x y hj hl hka hkb hx hy
    rcases hold j a hj with hj | rfl
    · rcases hold l b hl with hl | rfl
      · exact h.once j l a b k x y hj hl hka hkb hx hy
      · rw [hexecution] at hy
        cases hy
    · rw [hexecution] at hx
      cases hx
  case answered =>
    intro b hb hkey answer ha hok
    rcases List.mem_append.1 hb with hb | hb
    · obtain ⟨a, hmem, hrest⟩ := h.answered b hb hkey answer ha hok
      exact ⟨a, List.mem_append_left _ hmem, hrest⟩
    · rw [List.mem_singleton.1 hb, hanswer] at ha
      cases ha

theorem Call.abort_cases (taskId : String) (c : Call V) : c.abort taskId = c ∨
    ∃ b, c.phase = .running taskId b ∧ c.abort taskId = { c with phase := .running taskId true } := by
  unfold Call.abort
  split
  · rename_i t b hphase
    split
    · rename_i ht
      subst ht
      exact .inr ⟨b, hphase, rfl⟩
    · exact .inl rfl
  · exact .inl rfl

/-- Two states of a call that differ in flags of its execution. -/
structure Call.Alike (options : ActionNodeOptions) (a b : Call V) : Prop where
  ask : b.ask = a.ask
  execution : b.execution = a.execution
  answer : b.answer = a.answer
  live : b.live = a.live
  lost : ∀ x, a.Lost x → b.Lost x
  hands : ∀ x answer, Hands x a answer → Hands x b answer
  wf : a.Wf options → b.Wf options

theorem Call.alike_abort (taskId : String) (c : Call V) : c.Alike options (c.abort taskId) := by
  rcases c.abort_cases taskId with heq | ⟨b, hphase, heq⟩
  · rw [heq]
    exact ⟨rfl, rfl, rfl, rfl, fun x hl => hl, fun x answer hd => hd, id⟩
  · rw [heq]
    have hlive : c.live = false := by
      unfold Call.live
      rw [hphase]
    have hlost : ∀ x, c.Lost x → Call.Lost { c with phase := .running taskId true } x := by
      rintro x (hfailed | hexec)
      · exact .inl hfailed
      · rw [hphase] at hexec
        cases hexec
    refine ⟨rfl, rfl, rfl, hlive.symm ▸ rfl, hlost, fun x answer hd => ?_, fun hwf => ?_⟩
    · refine Hands.congr ?_ ?_ nofun hd
      · rfl
      · rfl
    · refine ⟨nofun, nofun, nofun, fun t b' _ => hwf.running taskId b hphase, fun x hx => ?_⟩
      rcases hwf.standing x hx with hl | hl | hretain
      · rw [hlive] at hl
        cases hl
      · exact .inr (.inl (hlost x hl))
      · exact .inr (.inr hretain)

theorem Sound.aborts (h : Sound options host s) (taskId : String) {tasks : ActionTasks V} :
    Sound options host { s with taskStore := tasks, calls := s.calls.map (Call.abort taskId) } := by
  have hback : ∀ (j : ℕ) b, (s.calls.map (Call.abort taskId))[j]? = some b →
      ∃ a, s.calls[j]? = some a ∧ a.Alike options b := by
    intro j b hj
    rw [List.getElem?_map, Option.map_eq_some_iff] at hj
    obtain ⟨a, hj, rfl⟩ := hj
    exact ⟨a, hj, a.alike_abort taskId⟩
  have hmem : ∀ a ∈ s.calls, ∃ b ∈ s.calls.map (Call.abort taskId), a.Alike options b :=
    fun a ha => ⟨_, List.mem_map_of_mem ha, a.alike_abort taskId⟩
  constructor
  case wf =>
    intro j b hj
    obtain ⟨a, hj, hab⟩ := hback j b hj
    exact hab.wf (h.wf j a hj)
  case numbered =>
    intro j b x hj hx
    obtain ⟨a, hj, hab⟩ := hback j b hj
    exact h.numbered j a x hj (hab.execution ▸ hx)
  case retained =>
    intro j b k x t hj hk hx ht
    obtain ⟨a, hj, hab⟩ := hback j b hj
    exact h.retained j a k x t hj (hab.ask ▸ hk) (hab.execution ▸ hx) ht
  case vacant =>
    intro j b k hj hl hk
    obtain ⟨a, hj, hab⟩ := hback j b hj
    exact h.vacant j a k hj (hab.live ▸ hl) (hab.ask ▸ hk)
  case alone =>
    intro j l b b' k hj hl hb hb' hk hk'
    obtain ⟨a, hj, hab⟩ := hback j b hj
    obtain ⟨a', hl, hab'⟩ := hback l b' hl
    exact h.alone j l a a' k hj hl (hab.live ▸ hb) (hab'.live ▸ hb') (hab.ask ▸ hk) (hab'.ask ▸ hk')
  case backed =>
    intro k entry hget
    obtain ⟨a, ha, hk, hhash, x, hx, hbacks⟩ := h.backed k entry hget
    obtain ⟨b, hb, hab⟩ := hmem a ha
    have hframe : b.frame = a.frame := congrArg Ask.frame hab.ask
    exact ⟨b, hb, by rw [hab.ask, hk], by rw [hframe, hhash], x, by rw [hab.execution, hx], hbacks⟩
  case once =>
    intro j l b b' k x y hj hl hk hk' hx hy hlt
    obtain ⟨a, hj, hab⟩ := hback j b hj
    obtain ⟨a', hl, hab'⟩ := hback l b' hl
    exact (h.once j l a a' k x y hj hl (hab.ask ▸ hk) (hab'.ask ▸ hk') (hab.execution ▸ hx)
      (hab'.execution ▸ hy) hlt).imp_left (hab.lost x)
  case answered =>
    intro b hb hkey answer hanswer hok
    obtain ⟨j, hj⟩ := List.mem_iff_getElem?.1 hb
    obtain ⟨a, hj, hab⟩ := hback j b hj
    obtain ⟨e, he, hk, hhash, x, hx, hd⟩ := h.answered a (List.mem_of_getElem? hj) (hab.ask ▸ hkey) answer
      (hab.answer ▸ hanswer) hok
    obtain ⟨e', he', hee⟩ := hmem e he
    have hframe : b.frame = a.frame := congrArg Ask.frame hab.ask
    have hframe' : e'.frame = e.frame := congrArg Ask.frame hee.ask
    exact ⟨e', he', by rw [hee.ask, hab.ask, hk], by rw [hframe', hframe, hhash], x, by rw [hee.execution, hx],
      hab.hands x answer hd⟩

theorem accept_fresh {r : InvokeRequest} {body : InvokeBody} (h : accept options host r body = .ok c) :
    c.ask = ⟨r.agentNid, body.frame⟩ ∧ c.phase = .authorizing ∧ c.execution = none ∧ c.answer = none ∧
      c.stream = none := by
  unfold accept at h
  dsimp only at h
  split at h
  · cases h
  · split_ifs at h
    split at h
    · cases h
    · cases h
      exact ⟨rfl, rfl, rfl, rfl, rfl⟩

theorem Sound.immediate (h : Sound options host s) {answers : List (InvokeRequest × ActionAnswer V)} :
    Sound options host { s with immediate := answers } :=
  ⟨h.wf, h.numbered, h.retained, h.vacant, h.alone, h.backed, h.once, h.answered⟩

theorem handleRequest_sound (amb : Ambient) (h : Sound options host s) (r : InvokeRequest) :
    Sound options host (handleRequest options host amb s r) ∧ (handleRequest options host amb s r).now = s.now ∧
      ∀ c ∈ (handleRequest options host amb s r).calls, (∃ a ∈ s.calls, c.ask = a.ask) ∨
        ∃ body, r.body = .ok body ∧ c.ask = ⟨r.agentNid, body.frame⟩ := by
  have hold : ∀ c ∈ s.calls, (∃ a ∈ s.calls, c.ask = a.ask) ∨
      ∃ body, r.body = .ok body ∧ c.ask = ⟨r.agentNid, body.frame⟩ := fun c hc => .inl ⟨c, hc, rfl⟩
  unfold handleRequest
  dsimp only
  split
  · exact ⟨h.immediate, rfl, hold⟩
  · split
    · exact ⟨h.immediate, rfl, hold⟩
    · rename_i body hbody
      split
      · exact ⟨h.immediate, rfl, hold⟩
      · split
        · unfold handleSystemTaskCancel
          split
          · exact ⟨h.immediate, rfl, hold⟩
          · split
            · exact ⟨h.immediate, rfl, hold⟩
            · refine ⟨(h.aborts _).immediate, rfl, fun c hc => ?_⟩
              obtain ⟨a, ha, rfl⟩ := List.mem_map.1 hc
              exact .inl ⟨a, ha, (@Call.alike_abort V options _ a).ask⟩
        · split
          · exact ⟨h.immediate, rfl, hold⟩
          · rename_i c hc
            obtain ⟨hask, hphase, hfresh⟩ := accept_fresh hc
            refine ⟨h.arrives hfresh hphase, rfl, fun b hb => ?_⟩
            rcases List.mem_append.1 hb with hb | hb
            · exact hold b hb
            · rw [List.mem_singleton.1 hb]
              exact .inr ⟨body, hbody, hask⟩

/-! ### Runs -/

/-- One event keeps the invariant, and every call asks what a request of the run asked. -/
theorem appStep_sound (h : Sound options host s) {as : List Ask} (has : ∀ c ∈ s.calls, c.ask ∈ as) (e : Event V)
    (hrace : noRace options s e = true) : Sound options host (appStep options host s e) ∧
      ∀ c ∈ (appStep options host s e).calls, c.ask ∈ as ++ asks [e] := by
  have hkept : ∀ c ∈ s.calls, c.ask ∈ as ++ asks [e] := fun c hc => List.mem_append_left _ (has c hc)
  cases he : e.call? with
  | some i =>
    rw [appStep_eq he]
    cases hi : s.calls[i]? with
    | none => exact ⟨h.later e.le_after, hkept⟩
    | some c =>
      dsimp only
      rcases callStep_turned h hi e he hrace with heq | ⟨c', ht⟩
      · rw [heq]
        exact ⟨h.later e.le_after, hkept⟩
      · refine ⟨h.turned hi ht, fun b hb => ?_⟩
        have hcalls : (callStep options host s i c e).calls = s.calls.set i c' := ht.calls
        rw [hcalls] at hb
        rcases List.mem_or_eq_of_mem_set hb with hb | rfl
        · exact hkept b hb
        · rw [ht.ask]
          exact hkept c (List.mem_of_getElem? hi)
  | none =>
    cases e with
    | request amb r =>
      obtain ⟨hsound, hnow, hfrom⟩ := handleRequest_sound amb h r
      refine ⟨hsound.later ?_, fun c hc => ?_⟩
      · rw [hnow]
        exact amb.le_clock 4
      · rcases hfrom c hc with ⟨a, ha, hask⟩ | ⟨body, hbody, hask⟩
        · rw [hask]
          exact hkept a ha
        · rw [hask]
          exact List.mem_append_right _ (by simp [asks, hbody])
    | _ => cases he

theorem sound_init : Sound options host ({} : ActionNodeApp V) where
  wf := by simp
  numbered := by simp
  retained := by simp
  vacant := by simp
  alone := by simp
  backed := by
    intro k entry hget
    cases hget
  once := by simp
  answered := by simp

theorem appAfter_sound {es : List (Event V)}
    (h : Along (appStep options host) (fun s e => noRace options s e = true) {} es) :
    Sound options host (appAfter options host es) ∧ ∀ c ∈ (appAfter options host es).calls, c.ask ∈ asks es := by
  induction es using List.reverseRecOn with
  | nil =>
    rw [appAfter, run_nil]
    exact ⟨sound_init, by simp⟩
  | append_singleton es e ih =>
    obtain ⟨h₁, h₂⟩ := along_snoc.1 h
    obtain ⟨hsound, hasks⟩ := ih h₁
    have hstep := appStep_sound hsound hasks e h₂
    rw [appAfter, run_snoc, asks, List.filterMap_append]
    exact hstep

theorem Sound.atMostOnce (h : Sound options host s) {as : List Ask} (has : ∀ c ∈ s.calls, c.ask ∈ as)
    (hdistinct : Distinct options host as) : AtMostOnce s := by
  have hkeyed : ∀ a ∈ s.calls, a.frame.idempotencyKey.isSome → (a.ask.cacheKey options).isSome := by
    intro a ha hsome
    obtain ⟨key, hkey⟩ := Option.isSome_iff_exists.1 hsome
    have hne : key ≠ "" := by
      rintro rfl
      exact (hdistinct _ (has a ha)).1 hkey
    rw [cacheKey_eq (show truthy a.frame.idempotencyKey = some key by rw [hkey]; exact if_neg hne)]
    rfl
  constructor
  case once =>
    intro a ha b hb hsame x y hx hy hlt hok
    obtain ⟨i, hi⟩ := List.mem_iff_getElem?.1 ha
    obtain ⟨j, hj⟩ := List.mem_iff_getElem?.1 hb
    obtain ⟨hagent, haction, -, hsome, hkey⟩ := hsame
    obtain ⟨k, hk⟩ := Option.isSome_iff_exists.1 (hkeyed a ha hsome)
    have hk' : b.ask.cacheKey options = some k := by
      rw [← hk]
      unfold Ask.cacheKey
      rw [hagent, haction, hkey]
    rcases h.once i j a b k x y hi hj hk hk' hx hy hlt with (hfailed | hphase) | hle
    · rw [hfailed] at hok
      cases hok
    · obtain ⟨⟨x₀, hx₀, hrunning, -⟩, -⟩ := (h.wf i a hi).executing true hphase
      rw [hx, Option.some.injEq] at hx₀
      rw [hx₀, hrunning] at hok
      cases hok
    · exact hle
  case answered =>
    intro b hb hsome answer hanswer hok
    have hkey := hkeyed b hb hsome
    obtain ⟨a, ha, hk, hhash, x, hx, hd⟩ := h.answered b hb hkey answer hanswer hok
    refine ⟨a, ha, ?_, x, hx, hd.1⟩
    exact (hdistinct _ (has a ha)).2 _ (has b hb) (by rw [hk]; exact hkey) hk hhash

/-- **At most one execution for each idempotency key.**  In a run in which no lookup that finds nothing races
with an execution that has still to store its result, requests that ask the same are executed once while the
result is retained, and are answered out of that execution. -/
theorem executes_at_most_once (es : List (Event V))
    (hrace : Along (appStep options host) (fun s e => noRace options s e = true) {} es)
    (hdistinct : Distinct options host (asks es)) : AtMostOnce (appAfter options host es) := by
  obtain ⟨hsound, hasks⟩ := appAfter_sound hrace
  exact hsound.atMostOnce hasks hdistinct

/-! ### Two retries -/

def sampleOptions : ActionNodeOptions where
  nodeId := "urn:nps:node:api.example.com:orders"
  actions := fun actionId => if actionId = "orders.create" then some { async := true } else none
  pathPrefix := "/orders"

def sampleHost : Host ℕ where
  sha256 := id
  validateCallbackUrl := fun _ _ => none
  serialisable := fun _ => true
  noData := 0

/-- A turn `elapsed` milliseconds after the one before it. -/
def sampleAmbient (elapsed : ℚ≥0) : Ambient where
  elapsed := fun k => if k = 0 then elapsed else 0
  uuid := ⟨"00000000000040008000000000000001", by decide⟩

def laterAmbient : Ambient := sampleAmbient 5

def orderAsk (async_ : Bool) : Ask where
  agentNid := some "urn:nps:agent:example.com:alice"
  frame :=
    { actionId := "orders.create", async_, params := some (.obj [("x", .str "1")]), idempotencyKey := some "k1" }

def orderRequest (async_ : Bool) : InvokeRequest where
  agentNid := (orderAsk async_).agentNid
  body := .ok { frame := (orderAsk async_).frame }

/-- Two synchronous requests, the second after the first has ended, and then an asynchronous one. -/
def retriedRun : List (Event ℕ) :=
  [.request (sampleAmbient 0) (orderRequest false), .authorized (sampleAmbient 1) 0 (.ok ()),
    .request (sampleAmbient 1) (orderRequest false), .settled laterAmbient 0 (.resolved { result := some 7 }),
    .authorized (sampleAmbient 1) 1 (.ok ()), .request (sampleAmbient 1) (orderRequest true),
    .authorized (sampleAmbient 1) 2 (.ok ())]

theorem retriedRun_once : (appAfter sampleOptions sampleHost retriedRun).executions = 1 ∧
    AtMostOnce (appAfter sampleOptions sampleHost retriedRun) :=
  ⟨by decide +kernel, executes_at_most_once retriedRun (along_of_alongAll (by decide +kernel)) (by decide +kernel)⟩

/-- Two synchronous requests, both authorized before the execution of the first has ended. -/
def concurrentRun : List (Event ℕ) :=
  [.request (sampleAmbient 0) (orderRequest false), .request (sampleAmbient 1) (orderRequest false),
    .authorized (sampleAmbient 1) 0 (.ok ()), .authorized (sampleAmbient 1) 1 (.ok ()),
    .settled laterAmbient 0 (.resolved { result := some 1 }),
    .settled laterAmbient 1 (.resolved { result := some 2 })]

/-- Both find nothing, and both are executed. -/
theorem concurrent_executes_twice : Distinct sampleOptions sampleHost (asks concurrentRun) ∧
    ¬ AtMostOnce (appAfter sampleOptions sampleHost concurrentRun) := by
  refine ⟨by decide +kernel, fun h => ?_⟩
  have hcall : ∀ i < 2, ∃ c ∈ (appAfter sampleOptions sampleHost concurrentRun).calls, c.ask = orderAsk false ∧
      ∃ x, c.execution = some x ∧ x.order = i ∧ x.since < 86400000 ∧ x.retain.all (86400000 < ·) ∧
        x.outcome.succeeded = true := by
    intro i hi
    have hall : ∀ i < 2, ((appAfter sampleOptions sampleHost concurrentRun).calls[i]?.bind fun c =>
        c.execution.map fun x => (c.ask, x.order, decide (x.since < 86400000),
          x.retain.all (86400000 < ·), x.outcome.succeeded)) = some (orderAsk false, i, true, true, true) := by
      intro i hi
      rcases (show i = 0 ∨ i = 1 by omega) with rfl | rfl <;> decide +kernel
    obtain ⟨c, hc, hx⟩ := Option.bind_eq_some_iff.1 (hall i hi)
    obtain ⟨x, hx, heq⟩ := Option.map_eq_some_iff.1 hx
    simp only [Prod.mk.injEq, decide_eq_true_eq] at heq
    obtain ⟨hask, horder, hsince, hretain, hok⟩ := heq
    exact ⟨c, List.mem_of_getElem? hc, hask, x, hx, horder, hsince, hretain, hok⟩
  obtain ⟨a, ha, hask, x, hx, hxo, -, hretain, hok⟩ := hcall 0 (by omega)
  obtain ⟨b, hb, hbask, y, hy, hyo, hsince, -⟩ := hcall 1 (by omega)
  obtain ⟨t, ht, hle⟩ := h.once a ha b hb (by rw [hask, hbask]; decide) x y hx hy (by omega) hok
  rw [ht] at hretain
  have hlt : 86400000 < t := of_decide_eq_true hretain
  exact absurd (hlt.trans_le hle) (not_lt.2 hsince.le)

end NpsSdk.Nwp.ActionNode
