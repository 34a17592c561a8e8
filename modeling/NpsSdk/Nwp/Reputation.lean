import Mathlib.Tactic.Linarith
import NpsSdk.Lib.JsMap
import NpsSdk.Lib.LowerCase
import NpsSdk.Lib.Runs

/-!
# Reputation checks

`DefaultReputationEvaluator`: an evaluation looks at the floor of the policy, the bans and the entries of a
log, which are cached by subject for all policies.  Where no log can be read and the policy denies, one
entry is made up, and it is judged by the rules like any other.

An evaluation is a call with turns of its own: it starts, each log source answers or fails, and its entries are
judged.  The clock is read once a turn.  A number is not `NaN`, and an absent list is an empty one.
-/

namespace NpsSdk.Nwp

open NpsSdk.Lib

/-! ### Policies and entries -/

structure ReputationRule where
  incident : Option String := none
  severity : Option String := none
  withinDays : Option ℚ := none
  count : Option ℚ := none
deriving DecidableEq

structure ReputationPolicy where
  enabled : Option Bool := none
  logSources : List String := []
  minAssuranceLevel : Option String := none
  cacheTtlSeconds : Option ℚ := none
  banTtlSeconds : Option ℚ := none
  onLogUnavailable : Option String := none
  throttleOn : List ReputationRule := []
  rejectOn : List ReputationRule := []
  banOn : List ReputationRule := []

inductive RepOutcome
  | accept | throttle | reject | ban
deriving DecidableEq

/-- How strict an outcome is. -/
def RepOutcome.strictness : RepOutcome → ℕ
  | accept => 0
  | throttle => 1
  | reject => 2
  | ban => 3

structure ReputationDecision where
  outcome : RepOutcome
  matchedRule : Option ReputationRule := none
  errorCode : Option String := none
deriving DecidableEq

structure LogEntry where
  incident : String
  severity : String
  timestamp : String
deriving DecidableEq

namespace ReputationPolicy

variable (policy : ReputationPolicy)

/-- The rules in the order in which they are tried. -/
def rules : List ReputationRule := policy.banOn ++ policy.rejectOn ++ policy.throttleOn

/-- The lifetime of cached entries in seconds. -/
def ttl : ℚ := policy.cacheTtlSeconds.getD 300

end ReputationPolicy

/-- What a runtime gives: the lower case of a text, and the texts of dates; `none` is `NaN`. -/
structure ReputationHost where
  toLowerCase : String → String
  toISOString : ℚ → String
  getTime : String → Option ℚ

/-! ### The rules -/

/-- `indexOf`: `-1` where there is none. -/
def indexIn (order : List String) (s : String) : ℤ := if s ∈ order then order.idxOf s else -1

def SEV_ORDER : List String := ["info", "minor", "moderate", "major", "critical"]

def ASS_ORDER : List String := ["anonymous", "attested", "verified"]

inductive SevOp
  | atLeast | exactly

namespace ReputationHost

variable (host : ReputationHost)

def sevIdx (s : String) : ℤ := indexIn SEV_ORDER (host.toLowerCase s)

def assIdx (s : String) : ℤ := indexIn ASS_ORDER (host.toLowerCase s)

def sevMatch (op : SevOp) (threshold : ℤ) (actual : String) : Bool :=
  let idx := host.sevIdx actual
  if idx < 0 then false
  else match op with
    | .atLeast => threshold ≤ idx
    | .exactly => idx = threshold

def parseSev (s : String) : SevOp × ℤ :=
  if startsWith s ">=" then (.atLeast, host.sevIdx (String.ofList (s.toList.drop 2)))
  else (.exactly, host.sevIdx s)

def incidentMatch (pattern incident : String) : Bool :=
  pattern = "*" || host.toLowerCase pattern = host.toLowerCase incident

/-- An entry is in the window of a rule; one whose date cannot be read is. -/
def inWindow (now : ℚ) (rule : ReputationRule) (timestamp : String) : Bool :=
  match rule.withinDays with
  | none => true
  | some days => !(host.getTime timestamp).any fun time => decide (time < now - days * 86400000)

def counts (now : ℚ) (rule : ReputationRule) (e : LogEntry) : Bool :=
  let sev := host.parseSev (rule.severity.getD ">=minor")
  host.inWindow now rule e.timestamp && host.incidentMatch (rule.incident.getD "*") e.incident &&
    host.sevMatch sev.1 sev.2 e.severity

/-- The loop of `ruleMatches`. -/
def matchFrom (now : ℚ) (rule : ReputationRule) (matched : ℕ) : List LogEntry → Bool
  | [] => false
  | e :: entries =>
    if host.counts now rule e then
      if rule.count.getD 1 ≤ (matched + 1 : ℕ) then true else matchFrom now rule (matched + 1) entries
    else matchFrom now rule matched entries

def ruleMatches (now : ℚ) (rule : ReputationRule) (entries : List LogEntry) : Bool :=
  host.matchFrom now rule 0 entries

def judge (now : ℚ) (policy : ReputationPolicy) (entries : List LogEntry) : ReputationDecision :=
  match policy.banOn.find? fun rule => host.ruleMatches now rule entries with
  | some rule => { outcome := .ban, matchedRule := some rule, errorCode := some "NWP-AUTH-REPUTATION-BLOCKED" }
  | none =>
    match policy.rejectOn.find? fun rule => host.ruleMatches now rule entries with
    | some rule =>
      { outcome := .reject, matchedRule := some rule, errorCode := some "NWP-AUTH-REPUTATION-BLOCKED" }
    | none =>
      match policy.throttleOn.find? fun rule => host.ruleMatches now rule entries with
      | some rule => { outcome := .throttle, matchedRule := some rule }
      | none => { outcome := .accept }

/-- Whether a policy denies where no log can be read. -/
def denies (policy : ReputationPolicy) : Bool :=
  host.toLowerCase (policy.onLogUnavailable.getD "allow") = "deny"

/-- What stands for the entries of a log that cannot be read. -/
def unavailable (now : ℚ) (policy : ReputationPolicy) : List LogEntry :=
  if host.denies policy then [{ incident := "*", severity := "critical", timestamp := host.toISOString now }]
  else []

end ReputationHost

namespace ReputationHost

variable {host : ReputationHost} {now : ℚ} {rule : ReputationRule} {policy : ReputationPolicy}
  {entries : List LogEntry}

theorem matchFrom_iff {matched : ℕ} : host.matchFrom now rule matched entries = true ↔
    entries.filter (host.counts now rule) ≠ [] ∧
      rule.count.getD 1 ≤ (matched + (entries.filter (host.counts now rule)).length : ℕ) := by
  induction entries generalizing matched with
  | nil => simp [matchFrom]
  | cons e entries ih =>
    rw [matchFrom]
    by_cases hcounts : host.counts now rule e = true
    · rw [if_pos hcounts, List.filter_cons_of_pos hcounts]
      by_cases henough : rule.count.getD 1 ≤ (matched + 1 : ℕ)
      · have hmore : ((matched + 1 : ℕ) : ℚ) ≤
            (matched + (e :: entries.filter (host.counts now rule)).length : ℕ) := by
          rw [List.length_cons]
          exact_mod_cast by omega
        simp only [henough, if_true, ne_eq, reduceCtorEq, not_false_eq_true, true_and, true_iff]
        exact henough.trans hmore
      · rw [if_neg henough, ih, List.length_cons, show matched + 1 + (entries.filter _).length =
          matched + ((entries.filter (host.counts now rule)).length + 1) by omega]
        constructor
        · exact fun h => ⟨by simp, h.2⟩
        · rintro ⟨-, hle⟩
          refine ⟨?_, hle⟩
          rintro hnone
          rw [hnone] at hle
          exact henough hle
    · rw [if_neg hcounts, ih, List.filter_cons_of_neg hcounts]

/-- **A rule matches** the entries of a log if it counts enough of them, and at least one. -/
theorem ruleMatches_iff : host.ruleMatches now rule entries = true ↔
    entries.filter (host.counts now rule) ≠ [] ∧
      rule.count.getD 1 ≤ ((entries.filter (host.counts now rule)).length : ℕ) := by
  rw [ruleMatches, matchFrom_iff, Nat.zero_add]

/-- A rule takes in the entry that is made up at a time where no log can be read. -/
structure TakesUnavailable (host : ReputationHost) (rule : ReputationRule) (timestamp : String) (now : ℚ) :
    Prop where
  window : host.inWindow now rule timestamp = true
  incident : host.incidentMatch (rule.incident.getD "*") "*" = true
  severity : host.sevMatch (host.parseSev (rule.severity.getD ">=minor")).1
    (host.parseSev (rule.severity.getD ">=minor")).2 "critical" = true
  one : rule.count.getD 1 ≤ 1

theorem unavailable_of_denies (h : host.denies policy = true) : host.unavailable now policy =
    [{ incident := "*", severity := "critical", timestamp := host.toISOString now }] := by
  rw [unavailable, if_pos h]

theorem ruleMatches_made_up {timestamp : String} :
    host.ruleMatches now rule [{ incident := "*", severity := "critical", timestamp }] = true ↔
      TakesUnavailable host rule timestamp now := by
  rw [ruleMatches_iff]
  by_cases hcounts : host.counts now rule { incident := "*", severity := "critical", timestamp } = true
  · rw [List.filter_cons_of_pos hcounts]
    simp only [counts, Bool.and_eq_true] at hcounts
    obtain ⟨⟨hwindow, hincident⟩, hseverity⟩ := hcounts
    constructor
    · rintro ⟨-, hone⟩
      exact ⟨hwindow, hincident, hseverity, by simpa using hone⟩
    · intro h
      exact ⟨by simp, by simpa using h.one⟩
  · rw [List.filter_cons_of_neg hcounts]
    refine iff_of_false (by simp) fun h => hcounts ?_
    simp only [counts, Bool.and_eq_true]
    exact ⟨⟨h.window, h.incident⟩, h.severity⟩

/-- **A decision accepts** if no rule of the policy matches. -/
theorem judge_accept_iff : (host.judge now policy entries).outcome = .accept ↔
    ∀ rule ∈ policy.rules, host.ruleMatches now rule entries = false := by
  have hnone : ∀ rules : List ReputationRule, rules.find? (fun rule => host.ruleMatches now rule entries) = none ↔
      ∀ rule ∈ rules, host.ruleMatches now rule entries = false := by
    intro rules
    simp [List.find?_eq_none]
  unfold judge
  simp only [ReputationPolicy.rules, List.mem_append, or_imp, forall_and, ← hnone]
  cases hban : policy.banOn.find? fun rule => host.ruleMatches now rule entries with
  | some rule => simp
  | none =>
    cases hreject : policy.rejectOn.find? fun rule => host.ruleMatches now rule entries with
    | some rule => simp
    | none =>
      cases hthrottle : policy.throttleOn.find? fun rule => host.ruleMatches now rule entries with
      | some rule => simp
      | none => simp

section

variable {entries' : List LogEntry} (h : entries.Subperm entries')

include h

theorem ruleMatches_mono (hmatches : host.ruleMatches now rule entries = true) :
    host.ruleMatches now rule entries' = true := by
  rw [ruleMatches_iff] at hmatches ⊢
  have hle := (h.filter (host.counts now rule)).length_le
  exact ⟨List.ne_nil_of_length_pos ((List.length_pos_of_ne_nil hmatches.1).trans_le hle),
    hmatches.2.trans (by exact_mod_cast hle)⟩

/-- **A longer log is judged no more mildly**, in whatever order its entries stand. -/
theorem judge_mono :
    (host.judge now policy entries).outcome.strictness ≤ (host.judge now policy entries').outcome.strictness := by
  have hfind (rules : List ReputationRule) : (rules.find? fun rule => host.ruleMatches now rule entries).isSome →
      (rules.find? fun rule => host.ruleMatches now rule entries').isSome := by
    simp only [List.find?_isSome]
    exact fun ⟨rule, hrule, hmatches⟩ => ⟨rule, hrule, ruleMatches_mono h hmatches⟩
  have hban := hfind policy.banOn
  have hreject := hfind policy.rejectOn
  have hthrottle := hfind policy.throttleOn
  clear hfind
  unfold judge
  -- each list of rules has a match in the longer log if it has one in the other
  generalize (policy.banOn.find? fun rule => host.ruleMatches now rule entries) = ban at *
  generalize (policy.banOn.find? fun rule => host.ruleMatches now rule entries') = ban' at *
  generalize (policy.rejectOn.find? fun rule => host.ruleMatches now rule entries) = reject at *
  generalize (policy.rejectOn.find? fun rule => host.ruleMatches now rule entries') = reject' at *
  generalize (policy.throttleOn.find? fun rule => host.ruleMatches now rule entries) = throttle at *
  generalize (policy.throttleOn.find? fun rule => host.ruleMatches now rule entries') = throttle' at *
  grind [RepOutcome.strictness]

end

end ReputationHost

/-! ### The evaluator -/

structure CacheEntry where
  expiresAt : ℚ
  entries : List LogEntry

/-- How far an evaluation has come: with the sources that are left to read, the first of them under way. -/
inductive EvaluationStage
  | reading (sources : List String)
  | judging (entries : List LogEntry)
  | answered (decision : ReputationDecision)
deriving DecidableEq

structure Evaluation where
  nid : String
  policy : ReputationPolicy
  stage : EvaluationStage

structure DefaultReputationEvaluator where
  bans : JsMap String ℚ := .empty
  cache : JsMap String CacheEntry := .empty
  /-- The calls so far. -/
  evaluations : List Evaluation := []
  /-- The successful reads so far, with their subjects and times. -/
  reads : List (String × ℚ) := []

inductive ReputationEvent
  | evaluate (nid assuranceLevel : String) (policy : ReputationPolicy) (now : ℚ)
  /-- The source that an evaluation reads answers, or fails. -/
  | fetched (call : ℕ) (answer : Option (List LogEntry)) (now : ℚ)
  /-- The entries of an evaluation are judged. -/
  | judged (call : ℕ) (now : ℚ)
  | clearBan (nid : String)

namespace DefaultReputationEvaluator

variable (host : ReputationHost) (s : DefaultReputationEvaluator)

def setStage (call : ℕ) (nid : String) (policy : ReputationPolicy) (stage : EvaluationStage) :
    DefaultReputationEvaluator :=
  { s with evaluations := s.evaluations.set call { nid, policy, stage } }

/-- The entries that are cached for a subject, as long as a policy has them looked up. -/
def held (nid : String) (policy : ReputationPolicy) (now : ℚ) : Option (List LogEntry) :=
  if 0 < policy.ttl then
    ((s.cache.get nid).filter fun c => decide (now < c.expiresAt)).map CacheEntry.entries
  else none

/-- The end of `_fetchEntries`. -/
def fetchedEntries (call : ℕ) (nid : String) (policy : ReputationPolicy) (entries : List LogEntry) (now : ℚ) :
    DefaultReputationEvaluator :=
  let s := s.setStage call nid policy (.judging entries)
  if 0 < policy.ttl then
    { s with cache := s.cache.set nid { expiresAt := now + policy.ttl * 1000, entries } }
  else s

/-- The loop over the sources, up to the next one. -/
def readNext (call : ℕ) (nid : String) (policy : ReputationPolicy) (sources : List String) (now : ℚ) :
    DefaultReputationEvaluator :=
  match sources with
  | [] => s.fetchedEntries call nid policy (host.unavailable now policy) now
  | source :: rest => s.setStage call nid policy (.reading (source :: rest))

/-- Whether an evaluation is answered before it looks for entries, and how. -/
def floor (nid assuranceLevel : String) (policy : ReputationPolicy) (now : ℚ) : Option ReputationDecision :=
  if policy.enabled = some false then some { outcome := .accept }
  else if host.assIdx assuranceLevel < host.assIdx (policy.minAssuranceLevel.getD "anonymous") then
    some { outcome := .reject, errorCode := some "NWP-AUTH-ASSURANCE-TOO-LOW" }
  else if (s.bans.get nid).any fun expiresAt => decide (now < expiresAt) then
    some { outcome := .ban, errorCode := some "NWP-AUTH-REPUTATION-BLOCKED" }
  else none

/-- `evaluate`, up to what it awaits first. -/
def evaluate (nid assuranceLevel : String) (policy : ReputationPolicy) (now : ℚ) : DefaultReputationEvaluator :=
  let call := s.evaluations.length
  let started (stage : EvaluationStage) : DefaultReputationEvaluator :=
    { s with evaluations := s.evaluations ++ [{ nid, policy, stage }] }
  match s.floor host nid assuranceLevel policy now with
  | some decision => started (.answered decision)
  | none =>
    match s.held nid policy now with
    | some entries => started (.judging entries)
    | none => (started (.reading policy.logSources)).readNext host call nid policy policy.logSources now

def fetched (call : ℕ) (answer : Option (List LogEntry)) (now : ℚ) : DefaultReputationEvaluator :=
  match s.evaluations[call]? with
  | some { nid, policy, stage := .reading (_ :: rest) } =>
    match answer with
    | some entries => { s with reads := s.reads ++ [(nid, now)] }.fetchedEntries call nid policy entries now
    | none => s.readNext host call nid policy rest now
  | _ => s

/-- The rest of `evaluate`. -/
def judged (call : ℕ) (now : ℚ) : DefaultReputationEvaluator :=
  match s.evaluations[call]? with
  | some { nid, policy, stage := .judging entries } =>
    let decision := host.judge now policy entries
    let s := s.setStage call nid policy (.answered decision)
    if decision.outcome = .ban then
      { s with bans := s.bans.set nid (now + policy.banTtlSeconds.getD 3600 * 1000) }
    else s
  | _ => s

def clearBan (nid : String) : DefaultReputationEvaluator := { s with bans := s.bans.delete nid }

def step : ReputationEvent → DefaultReputationEvaluator
  | .evaluate nid assuranceLevel policy now => s.evaluate host nid assuranceLevel policy now
  | .fetched call answer now => s.fetched host call answer now
  | .judged call now => s.judged host call now
  | .clearBan nid => s.clearBan nid

def after (es : List ReputationEvent) : DefaultReputationEvaluator := run (step host) {} es

/-- How far a call has come. -/
def stageOf (call : ℕ) : Option EvaluationStage := (s.evaluations[call]?).map Evaluation.stage

/-! ### What is asked of it -/

/-- **No log is there for an evaluation** whose policy is to deny that: none of its sources answers, and what was
read for the subject before is older than the lifetime of the policy. -/
structure ShutOut (nid : String) (policy : ReputationPolicy) (now : ℚ) (mid : List ReputationEvent) : Prop where
  denies : host.denies policy = true
  rules : policy.banOn ≠ [] ∨ policy.rejectOn ≠ []
  unread : ∀ time, (nid, time) ∈ s.reads → time + policy.ttl * 1000 ≤ now
  unreadable : ∀ answer time, .fetched s.evaluations.length answer time ∈ mid → answer = none

/-- **The checks fail closed** in a run: no evaluation that is shut out ends with `Accept`. -/
def FailsClosed (es : List ReputationEvent) : Prop :=
  ∀ pre nid assuranceLevel policy now mid post,
    es = pre ++ .evaluate nid assuranceLevel policy now :: (mid ++ post) →
      ShutOut host (after host pre) nid policy now mid → ∀ decision,
        (after host (pre ++ .evaluate nid assuranceLevel policy now :: mid)).stageOf
          (after host pre).evaluations.length = some (.answered decision) → decision.outcome ≠ .accept

/-- **A rule stands guard** over each evaluation that is shut out: it is not switched off, and at the time when
its entries are judged a rule of the policy matches the cached entries, or takes in the entry that is made up. -/
def Guarded (es : List ReputationEvent) : Prop :=
  ∀ pre nid assuranceLevel policy now mid post,
    es = pre ++ .evaluate nid assuranceLevel policy now :: (mid ++ post) →
      ShutOut host (after host pre) nid policy now mid →
        policy.enabled ≠ some false ∧ ∀ time post' entries,
          post = .judged (after host pre).evaluations.length time :: post' →
            (after host (pre ++ .evaluate nid assuranceLevel policy now :: mid)).stageOf
              (after host pre).evaluations.length = some (.judging entries) →
                match (after host pre).held nid policy now with
                | some cached => ∃ rule ∈ policy.rules, host.ruleMatches time rule cached = true
                | none => ∃ rule ∈ policy.rules, ∀ e ∈ entries, host.TakesUnavailable rule e.timestamp time

/-! ### The turns of one call -/

/-- Where the loop over the sources comes to. -/
def nextStage (policy : ReputationPolicy) (sources : List String) (now : ℚ) : EvaluationStage :=
  match sources with
  | [] => .judging (host.unavailable now policy)
  | source :: rest => .reading (source :: rest)

def advance (call : ℕ) (evaluation : Evaluation) (e : ReputationEvent) : Evaluation :=
  match e, evaluation.stage with
  | .fetched call' answer now, .reading (_ :: rest) =>
    if call' = call then
      { evaluation with stage := match answer with
          | some entries => .judging entries
          | none => nextStage host evaluation.policy rest now }
    else evaluation
  | .judged call' now, .judging entries =>
    if call' = call then
      { evaluation with stage := .answered (host.judge now evaluation.policy entries) }
    else evaluation
  | _, _ => evaluation

variable {host s} {call : ℕ} {nid assuranceLevel : String} {policy : ReputationPolicy} {now : ℚ}
  {mid es : List ReputationEvent} {evaluation : Evaluation} {e : ReputationEvent}

variable {entries : List LogEntry}

@[simp] theorem evaluations_fetchedEntries :
    (s.fetchedEntries call nid policy entries now).evaluations =
      s.evaluations.set call { nid, policy, stage := .judging entries } := by
  unfold fetchedEntries
  split <;> rfl

variable {sources : List String}

@[simp] theorem evaluations_readNext :
    (s.readNext host call nid policy sources now).evaluations =
      s.evaluations.set call { nid, policy, stage := nextStage host policy sources now } := by
  cases sources with
  | nil => exact evaluations_fetchedEntries
  | cons source rest => rfl

/-- The call that an evaluation starts with. -/
def opened (host : ReputationHost) (s : DefaultReputationEvaluator) (nid assuranceLevel : String)
    (policy : ReputationPolicy) (now : ℚ) : Evaluation :=
  { nid, policy
    stage := match s.floor host nid assuranceLevel policy now with
      | some decision => .answered decision
      | none =>
        match s.held nid policy now with
        | some entries => .judging entries
        | none => nextStage host policy policy.logSources now }

theorem evaluations_evaluate : (s.evaluate host nid assuranceLevel policy now).evaluations =
    s.evaluations ++ [opened host s nid assuranceLevel policy now] := by
  unfold evaluate opened
  cases hfloor : s.floor host nid assuranceLevel policy now with
  | some decision => rfl
  | none =>
    cases hheld : s.held nid policy now with
    | some entries => rfl
    | none =>
      dsimp only
      rw [evaluations_readNext]
      simp

theorem set_getElem {calls : List Evaluation} (h : calls[call]? = some evaluation) :
    calls.set call evaluation = calls := by
  obtain ⟨hlt, rfl⟩ := List.getElem?_eq_some_iff.1 h
  exact List.set_getElem_self hlt

theorem evaluations_fetched {answer : Option (List LogEntry)} (h : s.evaluations[call]? = some evaluation) :
    (s.fetched host call answer now).evaluations =
      s.evaluations.set call (advance host call evaluation (.fetched call answer now)) := by
  obtain ⟨nid, policy, stage⟩ := evaluation
  unfold fetched
  match stage, answer with
  | .reading [], _ | .judging _, _ | .answered _, _ =>
    simp only [h]
    exact (set_getElem h).symm
  | .reading (_ :: rest), some entries => simp [h, advance]
  | .reading (_ :: rest), none => simp [h, advance]

theorem evaluations_judged (h : s.evaluations[call]? = some evaluation) : (s.judged host call now).evaluations =
    s.evaluations.set call (advance host call evaluation (.judged call now)) := by
  obtain ⟨nid, policy, stage⟩ := evaluation
  unfold judged
  match stage with
  | .reading _ | .answered _ =>
    simp only [h]
    exact (set_getElem h).symm
  | .judging entries =>
    simp only [h, advance, if_true]
    by_cases hban : (host.judge now policy entries).outcome = .ban
    · rw [if_pos hban]
      rfl
    · rw [if_neg hban]
      rfl

theorem advance_other {call' : ℕ} (hne : call' ≠ call) (answer : Option (List LogEntry)) :
    advance host call evaluation (.fetched call' answer now) = evaluation ∧
      advance host call evaluation (.judged call' now) = evaluation := by
  obtain ⟨nid, policy, stage⟩ := evaluation
  match stage with
  | .reading [] | .reading (_ :: _) | .judging _ | .answered _ => simp [advance, hne]

/-- **A call goes on by itself**: what moves it on is told by the event and the call alone. -/
theorem evaluations_step (h : s.evaluations[call]? = some evaluation) :
    (s.step host e).evaluations[call]? = some (advance host call evaluation e) := by
  have hlt := (List.getElem?_eq_some_iff.1 h).1
  cases e with
  | evaluate nid assuranceLevel policy now =>
    rw [step, evaluations_evaluate, List.getElem?_append_left hlt, h]
    rfl
  | clearBan nid => exact h
  | fetched call' answer now =>
    rw [step]
    by_cases heq : call' = call
    · subst heq
      rw [evaluations_fetched h, List.getElem?_set_self hlt]
    · rw [(advance_other heq answer).1]
      cases hcall : s.evaluations[call']? with
      | none => simpa [fetched, hcall] using h
      | some other => rw [evaluations_fetched hcall, List.getElem?_set_ne heq, h]
  | judged call' now =>
    rw [step]
    by_cases heq : call' = call
    · subst heq
      rw [evaluations_judged h, List.getElem?_set_self hlt]
    · rw [(advance_other heq none).2]
      cases hcall : s.evaluations[call']? with
      | none => simpa [judged, hcall] using h
      | some other => rw [evaluations_judged hcall, List.getElem?_set_ne heq, h]

theorem evaluations_run (h : s.evaluations[call]? = some evaluation) :
    (run (step host) s mid).evaluations[call]? = some (run (advance host call) evaluation mid) := by
  induction mid generalizing s evaluation with
  | nil => exact h
  | cons e mid ih => exact ih (evaluations_step h)

@[simp] theorem policy_advance : (advance host call evaluation e).policy = evaluation.policy := by
  unfold advance
  split
  · split <;> rfl
  · split <;> rfl
  · rfl

@[simp] theorem policy_run : (run (advance host call) evaluation mid).policy = evaluation.policy := by
  induction mid generalizing evaluation with
  | nil => rfl
  | cons e mid ih => rw [run_cons, ih, policy_advance]

theorem stageOf_after {pre : List ReputationEvent} :
    (after host (pre ++ .evaluate nid assuranceLevel policy now :: mid)).stageOf (after host pre).evaluations.length =
      some (run (advance host (after host pre).evaluations.length)
        (opened host (after host pre) nid assuranceLevel policy now) mid).stage := by
  have hopened : ((after host pre).evaluate host nid assuranceLevel policy now).evaluations[
      (after host pre).evaluations.length]? = some (opened host (after host pre) nid assuranceLevel policy now) := by
    rw [evaluations_evaluate]
    simp
  rw [stageOf, after, run_append, run_cons]
  exact congrArg (Option.map Evaluation.stage) (evaluations_run hopened)

theorem advance_judging (h : evaluation.stage = .judging entries) :
    (advance host call evaluation (.judged call now)).stage =
      .answered (host.judge now evaluation.policy entries) := by
  obtain ⟨nid, policy, stage⟩ := evaluation
  subst h
  simp [advance]

variable {decision : ReputationDecision}

theorem answered_nextStage : nextStage host policy sources now ≠ .answered decision := by
  cases sources <;> simp [nextStage]

theorem answered_advance
    (h : (advance host call evaluation e).stage = .answered decision) : evaluation.stage = .answered decision ∨
      ∃ time entries, e = .judged call time ∧ evaluation.stage = .judging entries ∧
        decision = host.judge time evaluation.policy entries := by
  unfold advance at h
  split at h
  · rename_i call' answer time _ rest hstage
    split at h
    · cases answer with
      | some entries => cases h
      | none => exact absurd h answered_nextStage
    · exact .inl h
  · rename_i call' time entries hstage
    split at h
    · rename_i heq
      cases h
      exact .inr ⟨time, entries, by rw [heq], hstage, rfl⟩
    · exact .inl h
  · exact .inl h

/-! ### An evaluation that is shut out -/

theorem ShutOut.upTo {post : List ReputationEvent} (h : ShutOut host s nid policy now (mid ++ post)) :
    ShutOut host s nid policy now mid :=
  { h with unreadable := fun answer time hmem => h.unreadable answer time (List.mem_append_left _ hmem) }

/-- What a call that is shut out is at: it judges the cached entries, or what is made up where none are cached. -/
def Awaits (host : ReputationHost) (s : DefaultReputationEvaluator) (nid : String) (policy : ReputationPolicy)
    (now : ℚ) : EvaluationStage → Prop
  | .reading _ => s.held nid policy now = none
  | .judging entries => s.held nid policy now = some entries ∨
      s.held nid policy now = none ∧ ∃ time, entries = host.unavailable time policy
  | .answered _ => True

theorem awaits_nextStage {time : ℚ} (h : s.held nid policy now = none) :
    Awaits host s nid policy now (nextStage host policy sources time) := by
  cases sources with
  | nil => exact .inr ⟨h, time, rfl⟩
  | cons source rest => exact h

theorem awaits_advance (hpolicy : evaluation.policy = policy)
    (hfetched : ∀ answer time, e = .fetched call answer time → answer = none)
    (h : Awaits host s nid policy now evaluation.stage) :
    Awaits host s nid policy now (advance host call evaluation e).stage := by
  unfold advance
  split
  · rename_i call' answer time _ rest hstage
    rw [hstage] at h
    split
    · rename_i heq
      rw [hfetched answer time (by rw [heq]), hpolicy]
      exact awaits_nextStage h
    · rw [hstage]
      exact h
  · split
    · trivial
    · exact h
  · exact h

/-- **The entries of a call that is shut out.** -/
theorem ShutOut.awaits (h : ShutOut host s nid policy now mid) (assuranceLevel : String) :
    Awaits host s nid policy now
      (run (advance host s.evaluations.length) (opened host s nid assuranceLevel policy now) mid).stage := by
  induction mid using List.reverseRecOn with
  | nil =>
    rw [run_nil, opened]
    dsimp only
    split
    · trivial
    · split
      · rename_i entries hheld
        exact .inl hheld
      · rename_i hheld
        exact awaits_nextStage hheld
  | append_singleton mid e ih =>
    rw [run_snoc]
    exact awaits_advance policy_run (fun answer time heq => h.unreadable answer time (by simp [heq])) (ih h.upTo)

theorem ShutOut.matches_iff {time : ℚ} (h : ShutOut host s nid policy now mid)
    (hawaits : Awaits host s nid policy now (.judging entries)) :
    (∃ rule ∈ policy.rules, host.ruleMatches time rule entries = true) ↔
      match s.held nid policy now with
      | some cached => ∃ rule ∈ policy.rules, host.ruleMatches time rule cached = true
      | none => ∃ rule ∈ policy.rules, ∀ e ∈ entries, host.TakesUnavailable rule e.timestamp time := by
  rcases hawaits with hheld | ⟨hheld, stamp, rfl⟩
  · rw [hheld]
  · rw [hheld, ReputationHost.unavailable_of_denies h.denies]
    simp only [ReputationHost.ruleMatches_made_up, List.mem_singleton, forall_eq]

theorem opened_not_accept (hon : policy.enabled ≠ some false)
    (h : (opened host s nid assuranceLevel policy now).stage = .answered decision) : decision.outcome ≠ .accept := by
  unfold opened at h
  dsimp only at h
  split at h
  · rename_i answer hfloor
    cases h
    unfold floor at hfloor
    rw [if_neg hon] at hfloor
    split at hfloor
    · cases hfloor
      simp
    · split at hfloor
      · cases hfloor
        simp
      · cases hfloor
  · split at h
    · cases h
    · exact absurd h answered_nextStage

/-- **Reputation checks fail closed exactly if a rule stands guard** over each evaluation that is shut out. -/
theorem failsClosed_iff_guarded (host : ReputationHost) (es : List ReputationEvent) :
    FailsClosed host es ↔ Guarded host es := by
  constructor
  · intro h pre nid assuranceLevel policy now mid post heq hshut
    refine ⟨fun hoff => ?_, ?_⟩
    · refine h pre nid assuranceLevel policy now [] (mid ++ post) (by simp [heq])
        { hshut with unreadable := by simp } { outcome := .accept } ?_ rfl
      rw [stageOf_after]
      simp [opened, floor, hoff]
    · rintro time post' entries rfl hstage
      rw [stageOf_after, Option.some.injEq] at hstage
      have hawaits := hshut.awaits assuranceLevel
      rw [hstage] at hawaits
      rw [← hshut.matches_iff hawaits]
      by_contra hno
      refine h pre nid assuranceLevel policy now (mid ++ [.judged (after host pre).evaluations.length time]) post'
        (by simp [heq]) { hshut with unreadable := fun answer t hmem => hshut.unreadable answer t (by simpa using hmem) }
        (host.judge time policy entries) ?_ ?_
      · rw [stageOf_after, run_snoc, advance_judging hstage, policy_run]
        rfl
      · rw [ReputationHost.judge_accept_iff]
        exact fun rule hrule => by simpa using fun hmatches => hno ⟨rule, hrule, hmatches⟩
  · intro h pre nid assuranceLevel policy now mid
    induction mid using List.reverseRecOn with
    | nil =>
      intro post heq hshut decision hanswered
      rw [stageOf_after, Option.some.injEq, run_nil] at hanswered
      exact opened_not_accept (h pre nid assuranceLevel policy now [] post heq hshut).1 hanswered
    | append_singleton mid e ih =>
      intro post heq hshut decision hanswered
      rw [stageOf_after, Option.some.injEq, run_snoc] at hanswered
      have hearlier : es = pre ++ .evaluate nid assuranceLevel policy now :: (mid ++ e :: post) := by simp [heq]
      rcases answered_advance hanswered with hbefore | ⟨time, entries, rfl, hstage, rfl⟩
      · refine ih (e :: post) hearlier hshut.upTo decision ?_
        rw [stageOf_after, hbefore]
      · -- the entries are judged now, and a rule stands guard over them
        have hguard := (h pre nid assuranceLevel policy now mid _ hearlier hshut.upTo).2 time post entries rfl
          (by rw [stageOf_after, hstage])
        have hawaits := hshut.upTo.awaits assuranceLevel
        rw [hstage] at hawaits
        rw [← hshut.upTo.matches_iff hawaits] at hguard
        obtain ⟨rule, hrule, hmatches⟩ := hguard
        rw [policy_run, ne_eq, ReputationHost.judge_accept_iff]
        intro hnone
        rw [hnone rule hrule] at hmatches
        cases hmatches

end DefaultReputationEvaluator

open DefaultReputationEvaluator

/-- The letters of one alphabet, and no dates. -/
def undatedHost : ReputationHost where
  toLowerCase := lowerLatin
  toISOString _ := ""
  getTime _ := none

/-- Who has committed fraud is banned, and where no log can be read, access is to be denied. -/
def fraudPolicy : ReputationPolicy :=
  { logSources := ["https://log.example"]
    onLogUnavailable := some "deny"
    banOn := [{ incident := some "fraud" }] }

theorem fraud_judged : (undatedHost.judge 0 fraudPolicy []).outcome.strictness ≤
    (undatedHost.judge 0 fraudPolicy [⟨"fraud", "major", ""⟩]).outcome.strictness :=
  ReputationHost.judge_mono List.nil_subperm

/-- The one source of the policy cannot be read. -/
def unreadRun : List ReputationEvent :=
  [.evaluate "urn:nps:agent:x:a" "anonymous" fraudPolicy 0, .fetched 0 none 1, .judged 0 2]

/-- The incident that is made up is no fraud, and the evaluation accepts. -/
theorem unread_accepted : ¬ ∀ es, FailsClosed undatedHost es := by
  intro h
  have hshut : ShutOut undatedHost (after undatedHost []) "urn:nps:agent:x:a" fraudPolicy 0
      [.fetched 0 none 1, .judged 0 2] :=
    { denies := by decide
      rules := .inl nofun
      unread := nofun
      unreadable := fun answer time hmem => by
        simp only [List.mem_cons, reduceCtorEq, List.not_mem_nil, or_false] at hmem
        cases hmem
        rfl }
  refine h unreadRun [] "urn:nps:agent:x:a" "anonymous" fraudPolicy 0 _ [] rfl hshut { outcome := .accept } ?_ rfl
  rw [stageOf_after]
  decide

end NpsSdk.Nwp
