import NpsSdk.Lib.Runs
import NpsSdk.Ndp.Validator

/-!
# The announce registry

`NdpRegistryProfile`: the entries of the announced nodes and the highest sequence number of each NID,
which outlives its entry.  An entry stands for the highest sequence that has been taken; a removal
leaves the sequence behind, so that only a later announce makes the NID live again.
-/

namespace NpsSdk.Ndp

open NpsSdk.Lib

inductive NdpRegistryDecision
  | accepted | duplicate | refreshed | removed | rejected
  deriving DecidableEq

structure NdpRegistryAdmission where
  decision : NdpRegistryDecision
  errorCode : Option String := none

def reject (errorCode : String) : NdpRegistryAdmission :=
  { decision := .rejected, errorCode := some errorCode }

structure RegistryEntry where
  frame : RawFrame
  signedDigest : String
  expiresAt : ℤ

/-! ### Reading a frame -/

def stringValue (frame : RawFrame) (field : String) : Option String :=
  match JsMap.find field frame with
  | some (.str s) => some s
  | _ => none

def strings (frame : RawFrame) (field : String) : List String :=
  match JsMap.find field frame with
  | some (.arr items) => items.filterMap fun
    | .str s => some s
    | _ => none
  | _ => []

def roles (frame : RawFrame) : List String := strings frame "node_roles"

def isBridge (frame : RawFrame) : Bool :=
  "bridge" ∈ roles frame || stringValue frame "node_type" = some "bridge"

def natOf (n : JsNumber) : Option ℕ :=
  if n.text.all Char.isDigit then some (n.text.foldl (fun k c => 10 * k + (c.toNat - 48)) 0) else none

def MAX_SAFE_INTEGER : ℕ := 9007199254740991

def unsignedInteger (value : Option JsValue) (maximum : ℕ) : Option ℕ :=
  match value with
  | some (.num (.finite n)) => (natOf n).filter fun k => k ≤ maximum
  | _ => none

/-- The list of protocols in a field, `some []` where there is no field. -/
def protocolList (frame : RawFrame) (field : String) : Option (List String) :=
  match JsMap.find field frame with
  | none => some []
  | some (.arr items) =>
    items.mapM fun
      | .str s => if isBlank s then none else some s
      | _ => none
  | some _ => none

def bridgeShapeIsValid (frame : RawFrame) : Bool :=
  match protocolList frame "bridge_protocols", protocolList frame "bridge_inbound_protocols" with
  | some outbound, some inbound =>
    if isBridge frame then 0 < outbound.length + inbound.length
    else (JsMap.find "bridge_protocols" frame).isNone && (JsMap.find "bridge_inbound_protocols" frame).isNone
  | _, _ => false

/-- `a === b`, for the members of two different frames. -/
def strictEq : Option JsValue → Option JsValue → Bool
  | none, none | some .null, some .null => true
  | some (.bool a), some (.bool b) => a == b
  | some (.num (.finite a)), some (.num (.finite b)) => a.text == b.text
  | some (.num .infinity), some (.num .infinity) => true
  | some (.num .negInfinity), some (.num .negInfinity) => true
  | some (.str a), some (.str b) => a == b
  | _, _ => false

def sameLiveness (left right : RawFrame) : Bool :=
  strictEq (JsMap.find "health" left) (JsMap.find "health" right) &&
    strictEq (JsMap.find "last_seen" left) (JsMap.find "last_seen" right)

/-- The profile, with what it uses of its host. -/
structure NdpRegistryProfile where
  securityProfile : String := "local-dev"
  /-- `Date.parse`, in milliseconds; nothing for `NaN`. -/
  dateParse : String → Option ℤ
  sha256 : String → String

structure RegistryState where
  entries : JsMap String RegistryEntry := .empty
  sequences : JsMap String ℕ := .empty

/-- An announce that comes in.  Its frame is an object: no two members have one name. -/
structure Announce where
  frame : RawFrame
  names : (frame.map Prod.fst).Nodup
  signatureValid : Bool
  receivedAt : ℤ

namespace NdpRegistryProfile

variable (p : NdpRegistryProfile)

def timeValue (frame : RawFrame) (field : String) : Option ℤ :=
  (truthy (stringValue frame field)).bind p.dateParse

def freshnessDeadline (frame : RawFrame) : Option ℤ :=
  let ttl : ℕ := match JsMap.find "ttl" frame with
    | some (.num (.finite n)) => (natOf n).getD 0
    | _ => 0
  ((p.timeValue frame "last_seen").orElse fun _ => p.timeValue frame "timestamp").map
    fun source => source + ttl * 1000

def freshUntil (frame : RawFrame) (now : ℤ) : Option ℤ :=
  (p.freshnessDeadline frame).filter fun expiresAt => now < expiresAt

def digestOf (frame : RawFrame) : String := p.sha256 (canonicalAnnounceJson frame)

/-- The sequence number of a frame; a frame without one has the number 0. -/
def sequenceOf (frame : RawFrame) : ℕ :=
  (unsignedInteger (JsMap.find "graph_seq" frame) MAX_SAFE_INTEGER).getD 0

/-- The NID, the sequence number and the lifetime of a frame of the right shape, or the error. -/
def admissible (a : Announce) : Except String (String × ℕ × ℕ) :=
  if ¬ a.signatureValid then .error NDP_ANNOUNCE_SIGNATURE_INVALID
  else match truthy (stringValue a.frame "nid"), p.timeValue a.frame "timestamp" with
    | some nid, some timestamp =>
      let sequencePresent := (JsMap.find "graph_seq" a.frame).isSome
      let parsedSequence := unsignedInteger (JsMap.find "graph_seq" a.frame) MAX_SAFE_INTEGER
      if sequencePresent ∧ parsedSequence = none ∨ ¬ sequencePresent ∧ p.securityProfile ≠ "local-dev" then
        .error NDP_ANNOUNCE_PROFILE_VIOLATION
      else match unsignedInteger (JsMap.find "ttl" a.frame) 0xffffffff with
        | none => .error NDP_ANNOUNCE_PROFILE_VIOLATION
        | some ttl =>
          if ¬ bridgeShapeIsValid a.frame then .error NDP_ANNOUNCE_PROFILE_VIOLATION
          else if p.securityProfile ≠ "local-dev" ∧ 300000 < |a.receivedAt - timestamp| then
            .error NDP_ANNOUNCE_SIGNATURE_INVALID
          else .ok (nid, sequenceOf a.frame, ttl)
    | _, _ => .error NDP_ANNOUNCE_PROFILE_VIOLATION

def entryOf (frame : RawFrame) (expiresAt : ℤ) : RegistryEntry :=
  { frame, signedDigest := p.digestOf frame, expiresAt }

/-- An announce with the highest sequence of its NID: at most the liveness of its entry changes. -/
def refresh (s : RegistryState) (a : Announce) (nid : String) : NdpRegistryAdmission × RegistryState :=
  match s.entries.get nid with
  | none => ({ decision := .duplicate }, s)
  | some current =>
    if current.signedDigest ≠ p.digestOf a.frame then (reject NDP_ANNOUNCE_CONFLICT, s)
    else if sameLiveness current.frame a.frame then ({ decision := .duplicate }, s)
    else match p.freshUntil a.frame a.receivedAt with
      | none => (reject NDP_ANNOUNCE_STALE, s)
      | some expiresAt =>
        ({ decision := .refreshed }, { s with entries := s.entries.set nid (p.entryOf a.frame expiresAt) })

/-- An announce with a new sequence number. -/
def advance (s : RegistryState) (a : Announce) (nid : String) (sequence ttl : ℕ) :
    NdpRegistryAdmission × RegistryState :=
  if ttl = 0 then
    ({ decision := .removed },
      { entries := s.entries.delete nid, sequences := s.sequences.set nid sequence })
  else match p.freshUntil a.frame a.receivedAt with
    | none => (reject NDP_ANNOUNCE_STALE, s)
    | some expiresAt =>
      ({ decision := .accepted },
        { entries := s.entries.set nid (p.entryOf a.frame expiresAt)
          sequences := s.sequences.set nid sequence })

def applyAnnounce (s : RegistryState) (a : Announce) : NdpRegistryAdmission × RegistryState :=
  match p.admissible a with
  | .error errorCode => (reject errorCode, s)
  | .ok (nid, sequence, ttl) =>
    match s.sequences.get nid with
    | none => p.advance s a nid sequence ttl
    | some highest =>
      if sequence < highest then (reject NDP_GRAPH_SEQ_ROLLBACK, s)
      else if sequence = highest then p.refresh s a nid
      else p.advance s a nid sequence ttl

def step (s : RegistryState) (a : Announce) : RegistryState := (p.applyAnnounce s a).2

def liveNids (s : RegistryState) (now : ℤ) : List String :=
  sortKeys ((s.entries.entries.filter fun e => now < e.2.expiresAt).map Prod.fst)

/-! ### What an announce does -/

/-- **What an announce does** to the registry. -/
inductive Effect (s : RegistryState) (a : Announce) : Prop
  | unchanged (decision : (p.applyAnnounce s a).1.decision = .rejected ∨
        (p.applyAnnounce s a).1.decision = .duplicate) (same : p.step s a = s)
  | refreshed (nid : String) (entry : RegistryEntry)
      (decision : (p.applyAnnounce s a).1.decision = .refreshed) (frame : entry.frame = a.frame)
      (current : s.sequences.get nid = some (sequenceOf a.frame)) (live : s.entries.get nid ≠ none)
      (entries : (p.step s a).entries = s.entries.set nid entry)
      (sequences : (p.step s a).sequences = s.sequences)
  | removed (nid : String) (isNid : stringValue a.frame "nid" = some nid)
      (decision : (p.applyAnnounce s a).1.decision = .removed)
      (above : ∀ h, s.sequences.get nid = some h → h < sequenceOf a.frame)
      (entries : (p.step s a).entries = s.entries.delete nid)
      (sequences : (p.step s a).sequences = s.sequences.set nid (sequenceOf a.frame))
  | accepted (nid : String) (entry : RegistryEntry) (isNid : stringValue a.frame "nid" = some nid)
      (decision : (p.applyAnnounce s a).1.decision = .accepted) (frame : entry.frame = a.frame)
      (above : ∀ h, s.sequences.get nid = some h → h < sequenceOf a.frame)
      (entries : (p.step s a).entries = s.entries.set nid entry)
      (sequences : (p.step s a).sequences = s.sequences.set nid (sequenceOf a.frame))

variable {p} {s : RegistryState} {a : Announce} {nid : String} {sequence ttl : ℕ}

theorem admissible_ok (h : p.admissible a = .ok (nid, sequence, ttl)) :
    stringValue a.frame "nid" = some nid ∧ sequence = sequenceOf a.frame := by
  unfold admissible at h
  split at h
  · cases h
  split at h
  · rename_i nid' timestamp hnid htime
    dsimp only at h
    split at h
    · cases h
    split at h
    · cases h
    split at h
    · cases h
    split at h
    · cases h
    · cases h
      exact ⟨eq_some_of_truthy hnid, rfl⟩
  · cases h

theorem effect_refresh (happly : p.applyAnnounce s a = p.refresh s a nid)
    (hcurrent : s.sequences.get nid = some (sequenceOf a.frame)) : Effect p s a := by
  cases hentry : s.entries.get nid with
  | none =>
    have hr : p.applyAnnounce s a = ({ decision := .duplicate }, s) := by
      rw [happly, refresh, hentry]
    exact .unchanged (.inr (by rw [hr])) (by rw [step, hr])
  | some current =>
    by_cases hdigest : current.signedDigest = p.digestOf a.frame
    · by_cases hlive : sameLiveness current.frame a.frame = true
      · have hr : p.applyAnnounce s a = ({ decision := .duplicate }, s) := by
          rw [happly, refresh, hentry]
          simp only [hdigest, hlive, ne_eq, not_true_eq_false, if_false, if_true]
        exact .unchanged (.inr (by rw [hr])) (by rw [step, hr])
      · cases hfresh : p.freshUntil a.frame a.receivedAt with
        | none =>
          have hr : p.applyAnnounce s a = (reject NDP_ANNOUNCE_STALE, s) := by
            rw [happly, refresh, hentry]
            simp only [hdigest, hlive, hfresh, ne_eq, not_true_eq_false, if_false, Bool.false_eq_true]
          exact .unchanged (.inl (by rw [hr]; rfl)) (by rw [step, hr])
        | some expiresAt =>
          have hr : p.applyAnnounce s a = ({ decision := .refreshed },
              { s with entries := s.entries.set nid (p.entryOf a.frame expiresAt) }) := by
            rw [happly, refresh, hentry]
            simp only [hdigest, hlive, hfresh, ne_eq, not_true_eq_false, if_false, Bool.false_eq_true]
          exact .refreshed nid (p.entryOf a.frame expiresAt) (by rw [hr]) rfl hcurrent (by simp [hentry])
            (by rw [step, hr]) (by rw [step, hr])
    · have hr : p.applyAnnounce s a = (reject NDP_ANNOUNCE_CONFLICT, s) := by
        rw [happly, refresh, hentry]
        simp only [hdigest, ne_eq, not_false_eq_true, if_true]
      exact .unchanged (.inl (by rw [hr]; rfl)) (by rw [step, hr])

theorem effect_advance (happly : p.applyAnnounce s a = p.advance s a nid (sequenceOf a.frame) ttl)
    (hnid : stringValue a.frame "nid" = some nid)
    (habove : ∀ h, s.sequences.get nid = some h → h < sequenceOf a.frame) : Effect p s a := by
  by_cases httl : ttl = 0
  · rw [advance, if_pos httl] at happly
    exact .removed nid hnid (by rw [happly]) habove (by rw [step, happly]) (by rw [step, happly])
  · cases hfresh : p.freshUntil a.frame a.receivedAt with
    | none =>
      rw [advance, if_neg httl, hfresh] at happly
      exact .unchanged (.inl (by rw [happly]; rfl)) (by rw [step, happly])
    | some expiresAt =>
      rw [advance, if_neg httl, hfresh] at happly
      exact .accepted nid (p.entryOf a.frame expiresAt) hnid (by rw [happly]) rfl habove
        (by rw [step, happly]) (by rw [step, happly])

theorem effect (p : NdpRegistryProfile) (s : RegistryState) (a : Announce) : Effect p s a := by
  cases had : p.admissible a with
  | error errorCode =>
    have hr : p.applyAnnounce s a = (reject errorCode, s) := by rw [applyAnnounce, had]
    exact .unchanged (.inl (by rw [hr]; rfl)) (by rw [step, hr])
  | ok t =>
    obtain ⟨nid, sequence, ttl⟩ := t
    obtain ⟨hnid, rfl⟩ := admissible_ok had
    cases hseq : s.sequences.get nid with
    | none =>
      have happly : p.applyAnnounce s a = p.advance s a nid (sequenceOf a.frame) ttl := by
        rw [applyAnnounce, had]
        simp only [hseq]
      exact effect_advance happly hnid (by simp [hseq])
    | some highest =>
      rcases lt_trichotomy (sequenceOf a.frame) highest with hlt | heq | hgt
      · have hr : p.applyAnnounce s a = (reject NDP_GRAPH_SEQ_ROLLBACK, s) := by
          rw [applyAnnounce, had]
          simp only [hseq, hlt, if_true]
        exact .unchanged (.inl (by rw [hr]; rfl)) (by rw [step, hr])
      · refine effect_refresh ?_ (heq ▸ hseq)
        rw [applyAnnounce, had]
        simp only [hseq, heq, lt_irrefl, if_false, if_true]
      · have happly : p.applyAnnounce s a = p.advance s a nid (sequenceOf a.frame) ttl := by
          rw [applyAnnounce, had]
          simp only [hseq, hgt.not_gt, hgt.ne', if_false]
        refine effect_advance happly hnid fun h hh => ?_
        rw [hseq, Option.some.injEq] at hh
        exact hh ▸ hgt

/-! ### Runs -/

variable {es : List Announce} {q : ℕ}

def after (p : NdpRegistryProfile) (es : List Announce) : RegistryState := run p.step {} es

theorem after_snoc : p.after (es ++ [a]) = p.step (p.after es) a := run_snoc

/-- The sequence number of a NID was taken, by a live announce or a removal. -/
def Took (p : NdpRegistryProfile) (es : List Announce) (nid : String) (q : ℕ) : Prop :=
  ∃ pre a post, es = pre ++ a :: post ∧ stringValue a.frame "nid" = some nid ∧ sequenceOf a.frame = q ∧
    ((p.applyAnnounce (p.after pre) a).1.decision = .accepted ∨
      (p.applyAnnounce (p.after pre) a).1.decision = .removed)

theorem took_snoc : Took p (es ++ [a]) nid q ↔ Took p es nid q ∨
    stringValue a.frame "nid" = some nid ∧ sequenceOf a.frame = q ∧
      ((p.applyAnnounce (p.after es) a).1.decision = .accepted ∨
        (p.applyAnnounce (p.after es) a).1.decision = .removed) := by
  constructor
  · rintro ⟨pre, b, post, heq, h⟩
    rcases List.eq_nil_or_concat post with rfl | ⟨post, c, rfl⟩
    · obtain ⟨rfl, hb⟩ := List.append_inj' heq rfl
      cases hb
      exact .inr h
    · rw [List.concat_eq_append, ← List.cons_append, ← List.append_assoc] at heq
      exact .inl ⟨pre, b, post, (List.append_inj' heq rfl).1, h⟩
  · rintro (⟨pre, b, post, rfl, h⟩ | h)
    · exact ⟨pre, b, post ++ [a], by simp, h⟩
    · exact ⟨es, a, [], rfl, h⟩

/-- **The invariant**: the sequence numbers are the greatest ones taken, and an entry carries that of
its NID. -/
structure Sequenced (p : NdpRegistryProfile) (es : List Announce) (s : RegistryState) : Prop where
  greatest : ∀ nid h, s.sequences.get nid = some h → IsGreatest {q | Took p es nid q} h
  untaken : ∀ nid, s.sequences.get nid = none → ∀ q, ¬ Took p es nid q
  carried : ∀ nid entry, s.entries.get nid = some entry →
    s.sequences.get nid = some (sequenceOf entry.frame)

theorem sequenced_nil : Sequenced p [] (p.after []) := by
  refine ⟨nofun, fun nid _ q => ?_, nofun⟩
  rintro ⟨pre, a, post, heq, -⟩
  simp at heq

theorem took_snoc_of_not (hno : (p.applyAnnounce (p.after es) a).1.decision ≠ .accepted)
    (hno' : (p.applyAnnounce (p.after es) a).1.decision ≠ .removed) : Took p (es ++ [a]) nid q ↔ Took p es nid q := by
  rw [took_snoc]
  constructor
  · rintro (h | ⟨-, -, h | h⟩)
    · exact h
    · exact absurd h hno
    · exact absurd h hno'
  · exact .inl

theorem Sequenced.take {s' : RegistryState} (h : Sequenced p es (p.after es))
    (hnid : stringValue a.frame "nid" = some nid)
    (hdecision : (p.applyAnnounce (p.after es) a).1.decision = .accepted ∨
      (p.applyAnnounce (p.after es) a).1.decision = .removed)
    (habove : ∀ h, (p.after es).sequences.get nid = some h → h < sequenceOf a.frame)
    (hseq : s'.sequences = (p.after es).sequences.set nid (sequenceOf a.frame)) :
    (∀ nid h, s'.sequences.get nid = some h → IsGreatest {q | Took p (es ++ [a]) nid q} h) ∧
      ∀ nid, s'.sequences.get nid = none → ∀ q, ¬ Took p (es ++ [a]) nid q := by
  have hother : ∀ {nid' q}, nid' ≠ nid → (Took p (es ++ [a]) nid' q ↔ Took p es nid' q) := by
    intro nid' q hne
    rw [took_snoc]
    constructor
    · rintro (h | ⟨h, -⟩)
      · exact h
      · exact absurd (Option.some.inj (h.symm.trans hnid)) hne
    · exact .inl
  constructor
  · intro nid' k hk
    rw [hseq, JsMap.get_set] at hk
    split at hk
    · rename_i heq
      subst heq
      cases hk
      refine ⟨took_snoc.2 (.inr ⟨hnid, rfl, hdecision⟩), fun q hq => ?_⟩
      rcases took_snoc.1 hq with hq | ⟨-, hq, -⟩
      · cases hcurrent : (p.after es).sequences.get nid' with
        | none => exact absurd hq (h.untaken nid' hcurrent q)
        | some top => exact le_trans ((h.greatest nid' top hcurrent).2 hq) (habove top hcurrent).le
      · exact hq.ge
    · rename_i hne
      have := h.greatest nid' k hk
      simpa only [hother hne] using this
  · intro nid' hk q hq
    rw [hseq, JsMap.get_set] at hk
    split at hk
    · cases hk
    · rename_i hne
      exact h.untaken nid' hk q ((hother hne).1 hq)

/-- **One announce keeps the invariant.** -/
theorem Sequenced.step (h : Sequenced p es (p.after es)) : Sequenced p (es ++ [a]) (p.after (es ++ [a])) := by
  rw [after_snoc]
  cases effect p (p.after es) a with
  | unchanged decision same =>
    rw [same]
    have htook : ∀ nid q, Took p (es ++ [a]) nid q ↔ Took p es nid q := by
      intro nid q
      rcases decision with hd | hd <;> exact took_snoc_of_not (by rw [hd]; decide) (by rw [hd]; decide)
    exact ⟨by simpa only [htook] using h.greatest, by simpa only [htook] using h.untaken, h.carried⟩
  | refreshed nid entry decision frame current live entries sequences =>
    have htook : ∀ nid q, Took p (es ++ [a]) nid q ↔ Took p es nid q := fun nid q =>
      took_snoc_of_not (by rw [decision]; decide) (by rw [decision]; decide)
    refine ⟨by simpa only [sequences, htook] using h.greatest,
      by simpa only [sequences, htook] using h.untaken, fun nid' entry' hentry => ?_⟩
    rw [entries, JsMap.get_set] at hentry
    rw [sequences]
    split at hentry
    · rename_i heq
      subst heq
      cases hentry
      rw [frame]
      exact current
    · exact h.carried nid' entry' hentry
  | removed nid isNid decision above entries sequences =>
    obtain ⟨hgreatest, huntaken⟩ := h.take isNid (.inr decision) above sequences
    refine ⟨hgreatest, huntaken, fun nid' entry' hentry => ?_⟩
    rw [entries, JsMap.get_delete] at hentry
    split at hentry
    · cases hentry
    · rename_i hne
      rw [sequences, JsMap.get_set_ne _ _ hne]
      exact h.carried nid' entry' hentry
  | accepted nid entry isNid decision frame above entries sequences =>
    obtain ⟨hgreatest, huntaken⟩ := h.take isNid (.inl decision) above sequences
    refine ⟨hgreatest, huntaken, fun nid' entry' hentry => ?_⟩
    rw [entries, JsMap.get_set] at hentry
    rw [sequences, JsMap.get_set]
    split at hentry
    · rename_i heq
      cases hentry
      rw [if_pos heq, frame]
    · rename_i hne
      rw [if_neg hne]
      exact h.carried nid' entry' hentry

theorem sequenced : Sequenced p es (p.after es) := by
  induction es using List.reverseRecOn with
  | nil => exact sequenced_nil
  | append_singleton es a ih => exact ih.step

theorem sequence_le {mid : List Announce} {h : ℕ} (hh : (p.after es).sequences.get nid = some h) :
    ∃ h', (p.after (es ++ mid)).sequences.get nid = some h' ∧ h ≤ h' := by
  have htook : Took p (es ++ mid) nid h := by
    obtain ⟨pre, a, post, rfl, hrest⟩ := (sequenced.greatest nid h hh).1
    exact ⟨pre, a, post ++ mid, by simp, hrest⟩
  cases hcurrent : (p.after (es ++ mid)).sequences.get nid with
  | none => exact absurd htook (sequenced.untaken nid hcurrent h)
  | some h' => exact ⟨h', rfl, (sequenced.greatest nid h' hcurrent).2 htook⟩

theorem accepted_of_entry {mid : List Announce} {h : ℕ} (hnone : (p.after es).entries.get nid = none)
    (hh : (p.after es).sequences.get nid = some h) (hsome : (p.after (es ++ mid)).entries.get nid ≠ none) :
    ∃ before a later, mid = before ++ a :: later ∧ stringValue a.frame "nid" = some nid ∧
      (p.applyAnnounce (p.after (es ++ before)) a).1.decision = .accepted ∧ h < sequenceOf a.frame := by
  induction mid using List.reverseRecOn with
  | nil =>
    rw [List.append_nil] at hsome
    exact absurd hnone hsome
  | append_singleton mid a ih =>
    by_cases hmid : (p.after (es ++ mid)).entries.get nid = none
    · obtain ⟨h', hh', hle⟩ : ∃ h', (p.after (es ++ mid)).sequences.get nid = some h' ∧ h ≤ h' :=
        sequence_le hh
      rw [← List.append_assoc, after_snoc] at hsome
      cases effect p (p.after (es ++ mid)) a with
      | unchanged decision same =>
        rw [same] at hsome
        exact absurd hmid hsome
      | refreshed nid' entry decision frame current live entries sequences =>
        rw [entries, JsMap.get_set] at hsome
        split at hsome
        · rename_i heq
          subst heq
          exact absurd hmid live
        · exact absurd hmid hsome
      | removed nid' isNid decision above entries sequences =>
        rw [entries, JsMap.get_delete] at hsome
        split at hsome
        · exact absurd rfl hsome
        · exact absurd hmid hsome
      | accepted nid' entry isNid decision frame above entries sequences =>
        rw [entries, JsMap.get_set] at hsome
        split at hsome
        · rename_i heq
          subst heq
          exact ⟨mid, a, [], rfl, isNid, decision, lt_of_le_of_lt hle (above h' hh')⟩
        · exact absurd hmid hsome
    · obtain ⟨before, b, later, rfl, hrest⟩ := ih hmid
      exact ⟨before, b, later ++ [a], by simp, hrest⟩

theorem entry_of_live {now : ℤ} (h : nid ∈ liveNids s now) :
    ∃ entry, s.entries.get nid = some entry ∧ now < entry.expiresAt := by
  unfold liveNids at h
  rw [mem_sortKeys, List.mem_map] at h
  obtain ⟨⟨nid', entry⟩, hmem, rfl⟩ := h
  rw [List.mem_filter, decide_eq_true_eq] at hmem
  exact ⟨entry, (JsMap.mem_entries_iff _ _ _).1 hmem.1, hmem.2⟩

end NdpRegistryProfile

open NdpRegistryProfile

/-- **Sequencing**: the highest sequence of a NID never decreases; a live entry carries the greatest
number that has been taken for its NID; after a removal the NID is live again only by an accepted
announce with a greater number; and what is rejected or a duplicate changes nothing. -/
theorem registry_sequencing (p : NdpRegistryProfile) :
    (∀ es mid nid h, (p.after es).sequences.get nid = some h →
      ∃ h', (p.after (es ++ mid)).sequences.get nid = some h' ∧ h ≤ h') ∧
    (∀ es nid now, nid ∈ liveNids (p.after es) now → ∃ entry, (p.after es).entries.get nid = some entry ∧
      (p.after es).sequences.get nid = some (sequenceOf entry.frame) ∧
      IsGreatest {q | Took p es nid q} (sequenceOf entry.frame)) ∧
    (∀ es a mid nid now, (p.applyAnnounce (p.after es) a).1.decision = .removed →
      stringValue a.frame "nid" = some nid → nid ∈ liveNids (p.after (es ++ a :: mid)) now →
      ∃ before b later, mid = before ++ b :: later ∧ stringValue b.frame "nid" = some nid ∧
        (p.applyAnnounce (p.after (es ++ a :: before)) b).1.decision = .accepted ∧
        sequenceOf a.frame < sequenceOf b.frame) ∧
    ∀ es a, (p.applyAnnounce (p.after es) a).1.decision = .rejected ∨
      (p.applyAnnounce (p.after es) a).1.decision = .duplicate → p.after (es ++ [a]) = p.after es := by
  refine ⟨fun es mid nid h => sequence_le, ?_, ?_, ?_⟩
  · intro es nid now hlive
    obtain ⟨entry, hentry, -⟩ := entry_of_live hlive
    have hcarried := sequenced.carried nid entry hentry
    exact ⟨entry, hentry, hcarried, sequenced.greatest nid _ hcarried⟩
  · intro es a mid nid now hdecision hnid hlive
    have hsplit : ∀ rest, es ++ a :: rest = (es ++ [a]) ++ rest := fun rest => by simp
    have hremoved : (p.after (es ++ [a])).entries.get nid = none ∧
        (p.after (es ++ [a])).sequences.get nid = some (sequenceOf a.frame) := by
      rw [after_snoc]
      cases effect p (p.after es) a with
      | unchanged decision same => rcases decision with hd | hd <;> simp [hd] at hdecision
      | refreshed nid' entry decision => simp [decision] at hdecision
      | removed nid' isNid decision above entries sequences =>
        obtain rfl : nid' = nid := Option.some.inj (isNid.symm.trans hnid)
        exact ⟨by rw [entries, JsMap.get_delete_self], by rw [sequences, JsMap.get_set_self]⟩
      | accepted nid' entry isNid decision => simp [decision] at hdecision
    obtain ⟨entry, hentry, -⟩ := entry_of_live hlive
    rw [hsplit] at hentry
    obtain ⟨before, b, later, hmid, hb, haccepted, hlt⟩ :=
      accepted_of_entry hremoved.1 hremoved.2 (by rw [hentry]; nofun)
    exact ⟨before, b, later, hmid, hb, by rwa [hsplit], hlt⟩
  · intro es a hdecision
    rw [after_snoc]
    cases effect p (p.after es) a with
    | unchanged decision same => exact same
    | refreshed nid' entry decision => simp [decision] at hdecision
    | removed nid' isNid decision => simp [decision] at hdecision
    | accepted nid' entry isNid decision => simp [decision] at hdecision

end NpsSdk.Ndp
