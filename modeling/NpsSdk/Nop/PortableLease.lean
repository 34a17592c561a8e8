import NpsSdk.Lib.StringToNumber
import NpsSdk.Lib.Runs

/-!
# Leases of the portable profile

`evaluateLease` of `nop/portable-profile.ts`: the answers to a sequence of claims, renewals and terminal
marks.  At most one runner holds a task at a time.  A mark is remembered under the text of its two parts,
joined by a NUL, so that another pair with the same text is taken for a marked one.
-/

namespace NpsSdk.Nop

open NpsSdk.Lib

namespace PortableProfile

/-! ### Events -/

/-- `String(value)`, where the member may be missing. -/
def textOf : Option Json → Option String
  | none => some "undefined"
  | some v => v.toText

/-- `Number(value)`, where the member may be missing. -/
def numberOf : Option Json → Option JsDouble
  | none => some .nan
  | some v => v.toDouble

/-- A member of an event that can be converted to a text. -/
structure TextMember where
  value : Option Json
  text : String
  isText : textOf value = some text

/-- The text of a member, unless its conversion throws. -/
def textMember (value : Option Json) : Option TextMember :=
  match h : textOf value with
  | some text => some ⟨value, text, h⟩
  | none => none

/-- The pair that a terminal mark is about. -/
structure TerminalPair where
  dedupKey : TextMember
  nodeId : TextMember

def terminalKey (pair : TerminalPair) : String := pair.dedupKey.text ++ "\x00" ++ pair.nodeId.text

inductive LeaseOp
  | claim (taskId runnerNid : String) (leaseSeconds : JsDouble)
  | renew (taskId runnerNid : String) (leaseSeconds : JsDouble)
  | markTerminal (pair : TerminalPair)
  | isTerminal (pair : TerminalPair)
  /-- Any other operation: it is passed over. -/
  | other

structure LeaseEvent where
  time : JsDouble
  op : LeaseOp

def terminalPair (event : JsMap String Json) : Option TerminalPair := do
  some ⟨← textMember (event.get "dedup_key"), ← textMember (event.get "node_id")⟩

def readLeaseEvent (event : JsMap String Json) : Option LeaseEvent := do
  let time ← numberOf (event.get "at")
  match event.get "op" with
  | some (.str "claim") =>
    some ⟨time, .claim (← textOf (event.get "task_id")) (← textOf (event.get "runner_nid"))
      (← numberOf (event.get "lease_seconds"))⟩
  | some (.str "renew") =>
    some ⟨time, .renew (← textOf (event.get "task_id")) (← textOf (event.get "runner_nid"))
      (← numberOf (event.get "lease_seconds"))⟩
  | some (.str "mark_terminal") => some ⟨time, .markTerminal (← terminalPair event)⟩
  | some (.str "is_terminal") => some ⟨time, .isTerminal (← terminalPair event)⟩
  | _ => some ⟨time, .other⟩

/-! ### The loop -/

structure Lease where
  runnerNid : String
  expiresAt : JsDouble

structure LeaseState where
  leases : JsMap String Lease
  terminal : List String

def LeaseState.init : LeaseState := ⟨JsMap.empty, []⟩

inductive LeaseOutcome
  | granted | reclaimed | conflict | recorded | terminal | pending
  deriving DecidableEq

def LeaseOutcome.text : LeaseOutcome → String
  | .granted => "granted"
  | .reclaimed => "reclaimed"
  | .conflict => "conflict"
  | .recorded => "recorded"
  | .terminal => "terminal"
  | .pending => "pending"

/-- The length of a lease: between ten seconds and ten minutes. -/
def leaseLength (leaseSeconds : JsDouble) : JsDouble := JsDouble.min 600 (JsDouble.max 10 leaseSeconds)

def LeaseState.grant (s : LeaseState) (time : JsDouble) (taskId runnerNid : String) (leaseSeconds : JsDouble) :
    LeaseState :=
  { s with leases := s.leases.set taskId ⟨runnerNid, time + leaseLength leaseSeconds⟩ }

/-- One event of the loop: the state after it and its answer. -/
def leaseStep (s : LeaseState) (e : LeaseEvent) : LeaseState × Option LeaseOutcome :=
  match e.op with
  | .claim taskId runner seconds =>
    match s.leases.get taskId with
    | some lease =>
      if e.time < lease.expiresAt then
        if lease.runnerNid = runner then (s.grant e.time taskId runner seconds, some .granted)
        else (s, some .conflict)
      else (s.grant e.time taskId runner seconds, some .reclaimed)
    | none => (s.grant e.time taskId runner seconds, some .granted)
  | .renew taskId runner seconds =>
    match s.leases.get taskId with
    | some lease =>
      if e.time < lease.expiresAt ∧ lease.runnerNid = runner then
        (s.grant e.time taskId runner seconds, some .granted)
      else (s, some .conflict)
    | none => (s, some .conflict)
  | .markTerminal pair => ({ s with terminal := terminalKey pair :: s.terminal }, some .recorded)
  | .isTerminal pair => (s, some (if terminalKey pair ∈ s.terminal then .terminal else .pending))
  | .other => (s, none)

def leaseNext (s : LeaseState) (e : LeaseEvent) : LeaseState := (leaseStep s e).1

/-- The answers from the state `s` on. -/
def leaseOutcomes (s : LeaseState) : List LeaseEvent → List LeaseOutcome
  | [] => []
  | e :: es => (leaseStep s e).2.toList ++ leaseOutcomes (leaseNext s e) es

/-- `evaluateLease`, unless it throws. -/
def evaluateLease (events : List (JsMap String Json)) : Option (List String) := do
  let es ← events.mapM readLeaseEvent
  some ((leaseOutcomes .init es).map LeaseOutcome.text)

/-! ### Grants -/

/-- A lease that was given out. -/
structure LeaseGrant where
  taskId : String
  lease : Lease

/-- The lease that an event gives out in the state `s`. -/
def grantOf (s : LeaseState) (e : LeaseEvent) : Option LeaseGrant :=
  match e.op, (leaseStep s e).2 with
  | .claim taskId runner seconds, some .granted | .claim taskId runner seconds, some .reclaimed
  | .renew taskId runner seconds, some .granted => some ⟨taskId, runner, e.time + leaseLength seconds⟩
  | _, _ => none

/-- The state after the events `es`. -/
def leaseState (es : List LeaseEvent) : LeaseState := run leaseNext .init es

/-- The leases that the events `es` gave out, the latest first. -/
def grants (es : List LeaseEvent) : List LeaseGrant :=
  noted (fun gs s e => (grantOf s e).toList ++ gs) leaseNext [] .init es

def latestOn (gs : List LeaseGrant) (taskId : String) : Option LeaseGrant :=
  gs.find? fun g => decide (g.taskId = taskId)

def latestTo (gs : List LeaseGrant) (taskId runnerNid : String) : Option LeaseGrant :=
  gs.find? fun g => decide (g.taskId = taskId ∧ g.lease.runnerNid = runnerNid)

theorem leases_next (s : LeaseState) (e : LeaseEvent) :
    (leaseNext s e).leases = match grantOf s e with
      | some g => s.leases.set g.taskId g.lease
      | none => s.leases := by
  obtain ⟨time, op⟩ := e
  cases op with
  | claim taskId runner seconds =>
    simp only [leaseNext, grantOf, leaseStep]
    cases s.leases.get taskId with
    | none => rfl
    | some lease =>
      dsimp only
      split_ifs <;> rfl
  | renew taskId runner seconds =>
    simp only [leaseNext, grantOf, leaseStep]
    cases s.leases.get taskId with
    | none => rfl
    | some lease =>
      dsimp only
      split_ifs <;> rfl
  | markTerminal pair => rfl
  | isTerminal pair => rfl
  | other => rfl

theorem grantOf_cases {s : LeaseState} {e : LeaseEvent} {g : LeaseGrant} (h : grantOf s e = some g) :
    (∃ seconds, (e.op = .claim g.taskId g.lease.runnerNid seconds ∨ e.op = .renew g.taskId g.lease.runnerNid seconds) ∧
      g.lease.expiresAt = e.time + leaseLength seconds) ∧
    ∀ lease, s.leases.get g.taskId = some lease → e.time < lease.expiresAt → lease.runnerNid = g.lease.runnerNid := by
  obtain ⟨time, op⟩ := e
  cases op with
  | claim taskId runner seconds =>
    simp only [grantOf, leaseStep] at h
    cases hl : s.leases.get taskId with
    | none =>
      simp only [hl, Option.some.injEq] at h
      subst h
      exact ⟨⟨seconds, .inl rfl, rfl⟩, fun lease hlease => by simp [hl] at hlease⟩
    | some held =>
      rw [hl] at h
      dsimp only at h
      split_ifs at h with hactive hrunner
      · cases h
        exact ⟨⟨seconds, .inl rfl, rfl⟩, fun lease hlease _ => by
          rw [hl, Option.some.injEq] at hlease
          rw [← hlease, hrunner]⟩
      · cases h
        exact ⟨⟨seconds, .inl rfl, rfl⟩, fun lease hlease hlt => by
          rw [hl, Option.some.injEq] at hlease
          exact absurd (hlease ▸ hlt) hactive⟩
  | renew taskId runner seconds =>
    simp only [grantOf, leaseStep] at h
    cases hl : s.leases.get taskId with
    | none => simp [hl] at h
    | some held =>
      rw [hl] at h
      dsimp only at h
      split_ifs at h with hactive
      cases h
      exact ⟨⟨seconds, .inr rfl, rfl⟩, fun lease hlease _ => by
        rw [hl, Option.some.injEq] at hlease
        rw [← hlease, hactive.2]⟩
  | markTerminal pair => cases h
  | isTerminal pair => cases h
  | other => cases h

/-!
## At most one holder

Along a run whose times do not decrease, a lease is given out only where the latest lease of every other runner
on the task has expired.  What was marked terminal is found again, and what was not is found only under a text
that it shares with a marked pair.
-/

variable {s : LeaseState} {gs : List LeaseGrant} {e : LeaseEvent} {es : List LeaseEvent}

/-! ### The runs in question -/

def NonDecreasing (es : List LeaseEvent) : Prop := es.Pairwise fun e e' => e.time ≤ e'.time

instance : Decidable (NonDecreasing es) := inferInstanceAs (Decidable (es.Pairwise _))

/-- The length that an event asks for is a number. -/
def LeaseEvent.Numeric (e : LeaseEvent) : Prop :=
  ∀ taskId runner seconds, e.op = .claim taskId runner seconds ∨ e.op = .renew taskId runner seconds →
    seconds ≠ .nan

theorem min_fin (p q : ℚ) : ∃ r, JsDouble.min (.fin p) (.fin q) = .fin r := by
  unfold JsDouble.min
  rw [if_neg (by simp)]
  split_ifs
  · exact ⟨p, rfl⟩
  · exact ⟨q, rfl⟩

theorem max_fin (p q : ℚ) : ∃ r, JsDouble.max (.fin p) (.fin q) = .fin r := by
  unfold JsDouble.max
  rw [if_neg (by simp)]
  split_ifs
  · exact ⟨q, rfl⟩
  · exact ⟨p, rfl⟩

theorem leaseLength_fin {seconds : JsDouble} (h : seconds ≠ .nan) : ∃ q, leaseLength seconds = .fin q := by
  have h10 : (10 : JsDouble) = .fin 10 := rfl
  have h600 : (600 : JsDouble) = .fin 600 := rfl
  unfold leaseLength
  rw [h10, h600]
  cases seconds with
  | nan => exact absurd rfl h
  | negInf => exact ⟨10, by decide⟩
  | posInf => exact ⟨600, by decide⟩
  | fin q =>
    obtain ⟨r, hr⟩ := max_fin 10 q
    rw [hr]
    exact min_fin 600 r

theorem grantOf_expiresAt {g : LeaseGrant} (hnum : e.Numeric) (htime : e.time ≠ .nan) (h : grantOf s e = some g) :
    g.lease.expiresAt ≠ .nan := by
  obtain ⟨⟨seconds, hop, heq⟩, -⟩ := grantOf_cases h
  obtain ⟨q, hq⟩ := leaseLength_fin (hnum _ _ _ hop)
  rw [heq, hq]
  exact JsDouble.add_fin_ne_nan htime q

/-! ### The invariant -/

/-- What is known of the leases once the time is `now`. -/
structure Settled (now : JsDouble) (s : LeaseState) (gs : List LeaseGrant) : Prop where
  /-- The lease that is stored is the latest one. -/
  held : ∀ taskId, s.leases.get taskId = (latestOn gs taskId).map LeaseGrant.lease
  /-- The latest leases of all other runners have expired. -/
  others : ∀ taskId lease, s.leases.get taskId = some lease → ∀ runner, runner ≠ lease.runnerNid →
    ∀ g, latestTo gs taskId runner = some g → g.lease.expiresAt ≤ now
  /-- A lease expires at some time. -/
  timed : ∀ g ∈ gs, g.lease.expiresAt ≠ .nan

theorem Settled.init (now : JsDouble) : Settled now .init [] where
  held := fun _ => rfl
  others := fun _ _ h => by cases h
  timed := fun _ hg => by cases hg

theorem Settled.later {now later : JsDouble} (h : Settled now s gs) (hle : now ≤ later) : Settled later s gs where
  held := h.held
  others := fun taskId lease hlease runner hne g hg => JsDouble.le_trans (h.others taskId lease hlease runner hne g hg) hle
  timed := h.timed

theorem latestTo_of_latestOn {taskId : String} {g : LeaseGrant} (h : latestOn gs taskId = some g) :
    latestTo gs taskId g.lease.runnerNid = some g := by
  induction gs with
  | nil => cases h
  | cons g' gs ih =>
    simp only [latestOn, latestTo, List.find?_cons] at h ih ⊢
    by_cases htask : g'.taskId = taskId
    · simp only [htask, decide_true, Option.some.injEq] at h
      subst h
      simp [htask]
    · simp only [htask, decide_false, false_and] at h ⊢
      exact ih h

/-- **Exclusivity.**  When an event gives out a lease, the latest leases of all other runners have expired. -/
theorem Settled.exclusive (h : Settled e.time s gs) (htime : gs ≠ [] → e.time ≠ .nan) {g : LeaseGrant}
    (hg : grantOf s e = some g) {runner : String} (hne : runner ≠ g.lease.runnerNid) {g' : LeaseGrant}
    (hg' : latestTo gs g.taskId runner = some g') : g'.lease.expiresAt ≤ e.time := by
  have hmem : g' ∈ gs := List.mem_of_find?_eq_some hg'
  cases hlast : latestOn gs g.taskId with
  | none =>
    have htask := List.find?_some hg'
    have := List.find?_eq_none.1 hlast g' hmem
    simp_all
  | some last =>
    have hlease : s.leases.get g.taskId = some last.lease := by rw [h.held, hlast]; rfl
    by_cases hrunner : runner = last.lease.runnerNid
    · -- the other runner is the one that held the task last
      subst hrunner
      have hsame : g' = last := by
        rw [latestTo_of_latestOn hlast, Option.some.injEq] at hg'
        exact hg'.symm
      subst hsame
      refine (JsDouble.le_or_lt (h.timed g' hmem) (htime (List.ne_nil_of_mem hmem))).resolve_right fun hlt => ?_
      exact hne ((grantOf_cases hg).2 _ hlease hlt)
    · exact h.others _ _ hlease runner hrunner g' hg'

theorem Settled.next (h : Settled e.time s gs) (htime : e.time ≠ .nan) (hnum : e.Numeric) :
    Settled e.time (leaseNext s e) ((grantOf s e).toList ++ gs) := by
  have hleases := leases_next s e
  cases hg : grantOf s e with
  | none =>
    rw [hg] at hleases
    dsimp only at hleases
    exact ⟨fun k => by rw [hleases]; exact h.held k, fun k l hl => h.others k l (hleases ▸ hl), h.timed⟩
  | some g =>
    rw [hg] at hleases
    dsimp only at hleases
    refine ⟨fun taskId => ?_, fun taskId lease hlease runner hne g' hg' => ?_, ?_⟩
    · rw [hleases, JsMap.get_set]
      simp only [Option.toList_some, List.singleton_append, latestOn, List.find?_cons]
      by_cases htask : taskId = g.taskId
      · simp [htask]
      · simp only [htask, Ne.symm htask, if_false, decide_false]
        exact h.held taskId
    · rw [hleases, JsMap.get_set] at hlease
      simp only [Option.toList_some, List.singleton_append, latestTo, List.find?_cons] at hg'
      by_cases htask : taskId = g.taskId
      · subst htask
        rw [if_pos rfl, Option.some.injEq] at hlease
        subst hlease
        simp only [true_and, Ne.symm hne, decide_false] at hg'
        exact h.exclusive (fun _ => htime) hg hne hg'
      · rw [if_neg htask] at hlease
        simp only [Ne.symm htask, false_and, decide_false] at hg'
        exact h.others taskId lease hlease runner hne g' hg'
    · intro g' hg'
      rcases List.mem_cons.1 hg' with rfl | hg'
      · exact grantOf_expiresAt hnum htime hg
      · exact h.timed g' hg'

/-! ### Runs -/

theorem leaseState_snoc : leaseState (es ++ [e]) = leaseNext (leaseState es) e := run_snoc

theorem grants_snoc : grants (es ++ [e]) = (grantOf (leaseState es) e).toList ++ grants es := noted_snoc

theorem settled_before (hmono : NonDecreasing es) (hnum : ∀ e ∈ es, e.Numeric) {pre post : List LeaseEvent}
    (heq : es = pre ++ e :: post) :
    Settled e.time (leaseState pre) (grants pre) ∧ (grants pre ≠ [] → e.time ≠ .nan) := by
  induction pre using List.reverseRecOn generalizing e post with
  | nil => exact ⟨Settled.init _, fun h => absurd rfl h⟩
  | append_singleton pre e' ih =>
    have heq' : es = pre ++ e' :: e :: post := by simpa using heq
    have hle : e'.time ≤ e.time := by
      rw [heq', NonDecreasing, List.pairwise_append, List.pairwise_cons] at hmono
      exact hmono.2.1.1 e List.mem_cons_self
    obtain ⟨htime', htime⟩ := JsDouble.ne_nan_of_le hle
    rw [leaseState_snoc, grants_snoc]
    exact ⟨((ih heq').1.next htime' (hnum e' (by simp [heq']))).later hle, fun _ => htime⟩

/-! ### Renewals and refusals -/

/-- **Renewals.**  A lease is renewed just for the runner that holds the task. -/
theorem renew_granted_iff {now : JsDouble} (h : Settled now s gs) {taskId runner : String} {seconds : JsDouble}
    (hop : e.op = .renew taskId runner seconds) :
    (leaseStep s e).2 = some .granted ↔
      ∃ g, latestOn gs taskId = some g ∧ g.lease.runnerNid = runner ∧ e.time < g.lease.expiresAt := by
  have hheld := h.held taskId
  unfold leaseStep
  rw [hop]
  dsimp only
  cases hlast : latestOn gs taskId with
  | none =>
    rw [hlast] at hheld
    simp [hheld]
  | some g =>
    rw [hlast] at hheld
    rw [hheld]
    dsimp only [Option.map_some]
    split_ifs with hholds
    · simp [hholds]
    · simpa [and_comm] using hholds

theorem leaseNext_of_conflict (h : (leaseStep s e).2 = some .conflict) : leaseNext s e = s := by
  obtain ⟨time, op⟩ := e
  unfold leaseNext
  cases op with
  | claim taskId runner seconds =>
    simp only [leaseStep] at h ⊢
    cases hl : s.leases.get taskId with
    | none => simp [hl] at h
    | some lease =>
      simp only [hl] at h ⊢
      split_ifs at h ⊢ <;> first | rfl | cases h
  | renew taskId runner seconds =>
    simp only [leaseStep] at h ⊢
    cases hl : s.leases.get taskId with
    | none => rfl
    | some lease =>
      simp only [hl] at h ⊢
      split_ifs at h ⊢ <;> first | rfl | cases h
  | markTerminal pair => cases h
  | isTerminal pair => rfl
  | other => rfl

/-! ### Terminal marks -/

def Marked (es : List LeaseEvent) (pair : TerminalPair) : Prop := ∃ e ∈ es, e.op = .markTerminal pair

theorem leaseNext_terminal (s : LeaseState) (e : LeaseEvent) (key : String) :
    key ∈ (leaseNext s e).terminal ↔ (∃ pair, e.op = .markTerminal pair ∧ terminalKey pair = key) ∨ key ∈ s.terminal := by
  obtain ⟨time, op⟩ := e
  cases op with
  | claim taskId runner seconds =>
    simp only [leaseNext, leaseStep]
    cases s.leases.get taskId with
    | none => simp [LeaseState.grant]
    | some lease =>
      dsimp only
      split_ifs <;> simp [LeaseState.grant]
  | renew taskId runner seconds =>
    simp only [leaseNext, leaseStep]
    cases s.leases.get taskId with
    | none => simp
    | some lease =>
      dsimp only
      split_ifs <;> simp [LeaseState.grant]
  | markTerminal pair => simp [leaseNext, leaseStep, eq_comm]
  | isTerminal pair => simp [leaseNext, leaseStep]
  | other => simp [leaseNext, leaseStep]

theorem mem_terminal {key : String} :
    key ∈ (leaseState es).terminal ↔ ∃ pair, Marked es pair ∧ terminalKey pair = key := by
  induction es using List.reverseRecOn with
  | nil => simp [leaseState, LeaseState.init, Marked]
  | append_singleton es e ih =>
    rw [leaseState_snoc, leaseNext_terminal, ih]
    constructor
    · rintro (⟨pair, hop, hkey⟩ | ⟨pair, ⟨e', he', hop⟩, hkey⟩)
      · exact ⟨pair, ⟨e, by simp, hop⟩, hkey⟩
      · exact ⟨pair, ⟨e', List.mem_append_left _ he', hop⟩, hkey⟩
    · rintro ⟨pair, ⟨e', he', hop⟩, hkey⟩
      rcases List.mem_append.1 he' with he' | he'
      · exact .inr ⟨pair, ⟨e', he', hop⟩, hkey⟩
      · rw [List.mem_singleton.1 he'] at hop
        exact .inl ⟨pair, hop, hkey⟩

/-! ### The law -/

/-- Leases are exclusive, and terminal marks are remembered for the pairs that were marked. -/
structure LeaseLaw (es : List LeaseEvent) : Prop where
  /-- A lease is given out where the latest lease of every other runner has expired. -/
  exclusive : ∀ pre e post, es = pre ++ e :: post → ∀ g, grantOf (leaseState pre) e = some g →
    ∀ runner, runner ≠ g.lease.runnerNid → ∀ g', latestTo (grants pre) g.taskId runner = some g' →
    g'.lease.expiresAt ≤ e.time
  /-- It is renewed for its holder, while it lasts. -/
  renewed : ∀ pre e post, es = pre ++ e :: post → ∀ taskId runner seconds, e.op = .renew taskId runner seconds →
    (leaseStep (leaseState pre) e).2 = some .granted →
    ∃ g, latestOn (grants pre) taskId = some g ∧ g.lease.runnerNid = runner ∧ e.time < g.lease.expiresAt
  /-- A conflict changes no lease. -/
  refused : ∀ pre e post, es = pre ++ e :: post → (leaseStep (leaseState pre) e).2 = some .conflict →
    (leaseNext (leaseState pre) e).leases = (leaseState pre).leases
  /-- A marked pair is terminal. -/
  marked : ∀ pre e post, es = pre ++ e :: post → ∀ pair, e.op = .isTerminal pair → Marked pre pair →
    (leaseStep (leaseState pre) e).2 = some .terminal
  /-- A pair that was never marked is pending. -/
  unmarked : ∀ pre e post, es = pre ++ e :: post → ∀ pair, e.op = .isTerminal pair → ¬ Marked pre pair →
    (leaseStep (leaseState pre) e).2 = some .pending

/-- No pair is asked for that has the text of a marked pair and is not marked itself. -/
def Distinguished (es : List LeaseEvent) : Prop :=
  ∀ pre e post, es = pre ++ e :: post → ∀ pair, e.op = .isTerminal pair →
    ∀ other, Marked pre other → terminalKey other = terminalKey pair → Marked pre pair

/-- **Leases.**  Whatever the runners do, the law holds just where the pairs that are asked for are told apart
from the marked ones. -/
theorem leaseLaw_iff (hmono : NonDecreasing es) (hnum : ∀ e ∈ es, e.Numeric) : LeaseLaw es ↔ Distinguished es := by
  have hanswer : ∀ (s : LeaseState) (e : LeaseEvent) pair, e.op = .isTerminal pair →
      (leaseStep s e).2 = some (if terminalKey pair ∈ s.terminal then .terminal else .pending) := by
    intro s e pair hop
    unfold leaseStep
    rw [hop]
  constructor
  · intro h pre e post heq pair hop other hother hkey
    by_contra hnot
    have hpending := h.unmarked pre e post heq pair hop hnot
    rw [hanswer _ _ _ hop, if_pos (mem_terminal.2 ⟨other, hother, hkey⟩)] at hpending
    cases hpending
  · intro h
    refine ⟨?_, ?_, ?_, ?_, ?_⟩
    · intro pre e post heq g hg runner hne g' hg'
      obtain ⟨hsettled, htime⟩ := settled_before hmono hnum heq
      exact hsettled.exclusive htime hg hne hg'
    · intro pre e post heq taskId runner seconds hop hgranted
      exact (renew_granted_iff (settled_before hmono hnum heq).1 hop).1 hgranted
    · intro pre e post _ hconflict
      rw [leaseNext_of_conflict hconflict]
    · intro pre e post _ pair hop hmarked
      rw [hanswer _ _ _ hop, if_pos (mem_terminal.2 ⟨pair, hmarked, rfl⟩)]
    · intro pre e post heq pair hop hunmarked
      rw [hanswer _ _ _ hop, if_neg fun hmem => ?_]
      obtain ⟨other, hother, hkey⟩ := mem_terminal.1 hmem
      exact hunmarked (h pre e post heq pair hop other hother hkey)

def TextMember.ofString (s : String) : TextMember := ⟨some (.str s), s, rfl⟩

/-- The two parts are texts, and the first one has no NUL in it. -/
def TerminalPair.Plain (pair : TerminalPair) : Prop :=
  pair.dedupKey = .ofString pair.dedupKey.text ∧ pair.nodeId = .ofString pair.nodeId.text ∧
    '\x00' ∉ pair.dedupKey.text.toList

theorem terminalKey_inj {a b : TerminalPair} (ha : a.Plain) (hb : b.Plain) (h : terminalKey a = terminalKey b) :
    a = b := by
  have hchars := congrArg String.toList h
  simp only [terminalKey, String.toList_append, List.append_assoc] at hchars
  obtain ⟨h1, h2⟩ := append_sep_cancel ha.2.2 hb.2.2 hchars
  obtain ⟨dedupKey, nodeId⟩ := a
  obtain ⟨dedupKey', nodeId'⟩ := b
  obtain ⟨ha1, ha2, -⟩ := ha
  obtain ⟨hb1, hb2, -⟩ := hb
  dsimp only at ha1 ha2 hb1 hb2 h1 h2
  rw [ha1, ha2, hb1, hb2, String.toList_injective h1, String.toList_injective h2]

theorem distinguished_of_plain
    (h : ∀ e ∈ es, ∀ pair, e.op = .markTerminal pair ∨ e.op = .isTerminal pair → pair.Plain) : Distinguished es := by
  rintro pre e post rfl pair hop other hother hkey
  obtain ⟨e', he', hop'⟩ := hother
  have hplain' := h e' (by simp [he']) other (.inl hop')
  have hplain := h e (by simp) pair (.inr hop)
  rw [← terminalKey_inj hplain' hplain hkey]
  exact ⟨e', he', hop'⟩

/-- A lease changes hands when it has expired, and a mark is found. -/
def handover : List LeaseEvent :=
  [⟨0, .claim "t" "a" 30⟩, ⟨20, .claim "t" "b" 30⟩, ⟨30, .claim "t" "b" 30⟩,
    ⟨40, .markTerminal ⟨.ofString "k", .ofString "n"⟩⟩, ⟨50, .isTerminal ⟨.ofString "k", .ofString "n"⟩⟩]

example : leaseOutcomes .init handover = [.granted, .conflict, .reclaimed, .recorded, .terminal] := by
  decide +kernel

theorem handover_lawful : LeaseLaw handover := by
  refine (leaseLaw_iff (by decide) ?_).2 (distinguished_of_plain ?_)
  · intro e he taskId runner seconds hop
    simp only [handover, List.mem_cons, List.not_mem_nil, or_false] at he
    rcases he with rfl | rfl | rfl | rfl | rfl <;> rcases hop with hop | hop <;> cases hop <;> decide
  · intro e he pair hop
    simp only [handover, List.mem_cons, List.not_mem_nil, or_false] at he
    rcases he with rfl | rfl | rfl | rfl | rfl <;> rcases hop with hop | hop <;> cases hop <;>
      exact ⟨rfl, rfl, by decide⟩

/-- A pair that was never marked, with the text of one that was. -/
def sharedText : List LeaseEvent :=
  [⟨0, .markTerminal ⟨.ofString "a\x00b", .ofString "c"⟩⟩, ⟨1, .isTerminal ⟨.ofString "a", .ofString "b\x00c"⟩⟩]

theorem sharedText_unlawful :
    NonDecreasing sharedText ∧ (∀ e ∈ sharedText, e.Numeric) ∧ ¬ LeaseLaw sharedText := by
  refine ⟨by decide, ?_, fun h => ?_⟩
  · intro e he taskId runner seconds hop
    simp only [sharedText, List.mem_cons, List.not_mem_nil, or_false] at he
    rcases he with rfl | rfl <;> rcases hop with hop | hop <;> cases hop
  · have hpending := h.unmarked [sharedText[0]] sharedText[1] [] rfl _ rfl fun ⟨e, he, hop⟩ => by
      rw [List.mem_singleton.1 he] at hop
      have hkey := congrArg (fun pair : TerminalPair => pair.dedupKey.text) (LeaseOp.markTerminal.inj hop)
      exact absurd hkey (by decide)
    exact absurd hpending (by decide)

end PortableProfile

end NpsSdk.Nop
