import NpsSdk.Lib.JsDouble
import NpsSdk.Lib.Runs

/-!
# The epoch fence of an anchor

`AnchorEpochFence`, and how the anchor server applies it.  The highest epoch an anchor has observed
is a bound of its own; an anchor that has seen a higher epoch accepts no topology write until it takes
ownership at an epoch above all it has observed.
-/

namespace NpsSdk.Nwp

open NpsSdk.Lib

def NWP_ANCHOR_EPOCH_FENCED : String := "NWP-ANCHOR-EPOCH-FENCED"
def NWP_ANCHOR_NOT_LEADER : String := "NWP-ANCHOR-NOT-LEADER"

/-- Whether an anchor owns its cluster. -/
inductive AnchorRole
  | active | standby
  deriving DecidableEq

/-- What the fence reads of a frame. -/
structure InboundEpochFrame where
  cluster_epoch : Option JsDouble := none
  sender_anchor_nid : Option String := none

namespace AnchorFailoverReason

def PLANNED : String := "planned"
def ACTIVE_LOST : String := "active_lost"

end AnchorFailoverReason

inductive AnchorStateEvent where
  | anchorFailover (version : ℕ) (successor_nid : String) (cluster_epoch : JsDouble) (reason : String)
  | anchorQuorumLost (version : ℕ) (quorum_size available : JsDouble)

/-- What the fence calls of its owner. -/
inductive FenceOutput where
  | emit (event : AnchorStateEvent)
  | closeStreams
  | healthChange (health : String)

inductive FenceError where
  | fenced (inbound ownEpoch : JsDouble) (successor : String)
  | notLeader (degraded : Bool) (anchorNid : String)
  | epochTooLow (newEpoch highestObserved : JsDouble)
deriving DecidableEq

/-- The error code; a `RangeError` has none. -/
def FenceError.nwpErrorCode : FenceError → Option String
  | .fenced .. => some NWP_ANCHOR_EPOCH_FENCED
  | .notLeader .. => some NWP_ANCHOR_NOT_LEADER
  | .epochTooLow .. => none

def FenceError.npsStatus : FenceError → Option String
  | .fenced .. | .notLeader .. => some "NPS-CLIENT-CONFLICT"
  | .epochTooLow .. => none

/-- The message; `stringOf` is `String(n)`. -/
def FenceError.message (stringOf : JsDouble → String) : FenceError → String
  | .fenced inbound ownEpoch successor =>
    "Inbound cluster_epoch " ++ stringOf inbound ++ " supersedes this Anchor's epoch " ++
      stringOf ownEpoch ++ "; ownership has moved" ++
      (if successor = "" then "" else " to '" ++ successor ++ "'") ++ "."
  | .notLeader true anchorNid => "Anchor '" ++ anchorNid ++
      "' is the cluster owner but read-only-degraded (quorum lost); topology writes are refused."
  | .notLeader false anchorNid => "Anchor '" ++ anchorNid ++
      "' is a standby; only the active cluster owner accepts topology writes."
  | .epochTooLow newEpoch highestObserved =>
    "cluster_epoch must strictly increase: " ++ stringOf newEpoch ++
      " is not greater than the highest epoch observed (" ++ stringOf highestObserved ++ ")."

structure AnchorEpochFenceOptions where
  anchorNid : String
  ownEpoch : Option JsDouble := none
  role : Option AnchorRole := none
  degraded : Option Bool := none
  /-- An epoch is a number. -/
  isNumber : ownEpoch ≠ some .nan := by simp

structure AnchorEpochFence where
  anchorNid : String
  ownEpoch : JsDouble
  role : AnchorRole
  degraded : Bool
  highestObserved : JsDouble

/-- What a call returns or throws, the fence after it, and what it has called. -/
structure FenceResult (α : Type) where
  outcome : Except FenceError α
  fence : AnchorEpochFence
  outputs : List FenceOutput := []

namespace AnchorEpochFence

def create (options : AnchorEpochFenceOptions) : Except String AnchorEpochFence :=
  if options.anchorNid = "" then .error "AnchorEpochFence requires an anchorNid."
  else .ok
    { anchorNid := options.anchorNid
      ownEpoch := options.ownEpoch.getD 1
      role := options.role.getD .active
      degraded := options.degraded.getD false
      highestObserved := options.ownEpoch.getD 1 }

def isActive (f : AnchorEpochFence) : Bool := f.role = .active && !f.degraded

def inboundEpoch (frame : Option InboundEpochFrame) : JsDouble :=
  (frame.bind InboundEpochFrame.cluster_epoch).getD 1

def onInboundFrame (f : AnchorEpochFence) (frame : Option InboundEpochFrame) (isTopologyWrite : Bool) :
    FenceResult Unit :=
  let inbound := inboundEpoch frame
  let f := if f.highestObserved < inbound then { f with highestObserved := inbound } else f
  if f.ownEpoch < inbound then
    let successor := (frame.bind InboundEpochFrame.sender_anchor_nid).getD ""
    let event : AnchorStateEvent :=
      .anchorFailover 0 successor inbound AnchorFailoverReason.ACTIVE_LOST
    { outcome := .error (.fenced inbound f.ownEpoch successor)
      fence := { f with role := .standby }
      outputs := [.emit event, .closeStreams] }
  else if isTopologyWrite ∧ ¬ f.isActive then
    { outcome := .error (.notLeader f.degraded f.anchorNid), fence := f }
  else { outcome := .ok (), fence := f }

def onQuorumLost (f : AnchorEpochFence) (quorumSize available : JsDouble) : FenceResult AnchorStateEvent :=
  let event : AnchorStateEvent := .anchorQuorumLost 0 quorumSize available
  { outcome := .ok event, fence := { f with degraded := true },
    outputs := [.emit event, .healthChange "degraded"] }

def onQuorumRestored (f : AnchorEpochFence) : FenceResult Unit :=
  { outcome := .ok (), fence := { f with degraded := false }, outputs := [.healthChange "healthy"] }

def takeOwnership (f : AnchorEpochFence) (newEpoch : JsDouble) (reason : String) :
    FenceResult AnchorStateEvent :=
  if newEpoch.isInteger = false ∨ newEpoch ≤ f.highestObserved then
    { outcome := .error (.epochTooLow newEpoch f.highestObserved), fence := f }
  else
    let event : AnchorStateEvent := .anchorFailover 0 f.anchorNid newEpoch reason
    { outcome := .ok event
      fence := { f with ownEpoch := newEpoch, highestObserved := newEpoch, role := .active,
                        degraded := false }
      outputs := [.emit event] }

end AnchorEpochFence

open AnchorEpochFence

/-! ### The fence of the anchor server -/

def topologyHttpStatus (npsStatus : Option String) : ℕ :=
  if npsStatus = some "NPS-AUTH-FORBIDDEN" then 403
  else if npsStatus = some "NPS-CLIENT-CONFLICT" then 409
  else 400

structure ErrorResponse where
  httpStatus : ℕ
  npsStatus : Option String
  errorCode : Option String
  message : String

/-- The epoch and the sender of a request; `numberOf` is `Number(text)`. -/
def readInboundEpoch (numberOf : String → JsDouble) (bodyEpoch : Option JsDouble)
    (bodyNid headerEpoch headerNid : Option String) : InboundEpochFrame :=
  let ofHeader : Option JsDouble := match headerEpoch with
    | none => none
    | some text =>
      if text ≠ "" ∧ numberOf text ≠ .nan then some (numberOf text) else none
  { cluster_epoch := bodyEpoch.orElse fun _ => ofHeader
    sender_anchor_nid := bodyNid.orElse fun _ => headerNid }

/-- The response that refuses a request, if it is refused, and the fence after it. -/
def applyFence (stringOf : JsDouble → String) (fence : Option AnchorEpochFence)
    (frame : InboundEpochFrame) (isTopologyWrite : Bool) :
    Option ErrorResponse × Option AnchorEpochFence :=
  match fence with
  | none => (none, none)
  | some f =>
    let r := f.onInboundFrame (some frame) isTopologyWrite
    match r.outcome with
    | .ok _ => (none, some r.fence)
    | .error e =>
      (some ⟨topologyHttpStatus e.npsStatus, e.npsStatus, e.nwpErrorCode, e.message stringOf⟩,
        some r.fence)

/-! ### Runs -/

inductive FenceCall where
  | onInboundFrame (frame : Option InboundEpochFrame) (isTopologyWrite : Bool)
  | onQuorumLost (quorumSize available : JsDouble)
  | onQuorumRestored
  | takeOwnership (newEpoch : JsDouble) (reason : String)

def AnchorEpochFence.step (f : AnchorEpochFence) : FenceCall → AnchorEpochFence
  | .onInboundFrame frame isTopologyWrite => (f.onInboundFrame frame isTopologyWrite).fence
  | .onQuorumLost quorumSize available => (f.onQuorumLost quorumSize available).fence
  | .onQuorumRestored => f.onQuorumRestored.fence
  | .takeOwnership newEpoch reason => (f.takeOwnership newEpoch reason).fence

def observedEpochs (es : List FenceCall) : List JsDouble :=
  es.filterMap fun
    | .onInboundFrame frame _ => some (inboundEpoch frame)
    | _ => none

def Supersedes (f : AnchorEpochFence) (call : FenceCall) : Prop :=
  ∃ frame isTopologyWrite, call = .onInboundFrame frame isTopologyWrite ∧ f.ownEpoch < inboundEpoch frame

def AcceptsWrite (f : AnchorEpochFence) (call : FenceCall) : Prop :=
  ∃ frame, call = .onInboundFrame frame true ∧ (f.onInboundFrame frame true).outcome = .ok ()

def TakesOver (f : AnchorEpochFence) (call : FenceCall) (newEpoch : JsDouble) : Prop :=
  ∃ reason event, call = .takeOwnership newEpoch reason ∧
    (f.takeOwnership newEpoch reason).outcome = .ok event

section

variable {f : AnchorEpochFence} {call : FenceCall} {es : List FenceCall}

/-- **The invariant**: the highest observed epoch bounds the own one. -/
structure Fenced (f : AnchorEpochFence) : Prop where
  own : f.ownEpoch ≠ .nan
  highest : f.highestObserved ≠ .nan
  le : f.ownEpoch ≤ f.highestObserved

theorem fenced_create {options : AnchorEpochFenceOptions} (h : create options = .ok f) : Fenced f := by
  unfold create at h
  split at h
  · cases h
  · cases h
    have hown : options.ownEpoch.getD 1 ≠ .nan := by
      have hnumber := options.isNumber
      cases hown : options.ownEpoch with
      | none => decide
      | some n =>
        rw [hown] at hnumber
        exact fun h => hnumber (congrArg some h)
    exact ⟨hown, hown, JsDouble.le_refl hown⟩

/-- **What a call does** to the epochs and the role. -/
inductive CallEffect (f : AnchorEpochFence) (call : FenceCall) : Prop
  | frame (frame : Option InboundEpochFrame) (isTopologyWrite : Bool)
      (isCall : call = .onInboundFrame frame isTopologyWrite) (own : (f.step call).ownEpoch = f.ownEpoch)
      (highest : (f.step call).highestObserved =
        if f.highestObserved < inboundEpoch frame then inboundEpoch frame else f.highestObserved)
      (role : (f.step call).role = if f.ownEpoch < inboundEpoch frame then .standby else f.role)
  | takeover (newEpoch : JsDouble) (taken : TakesOver f call newEpoch) (above : f.highestObserved < newEpoch)
      (own : (f.step call).ownEpoch = newEpoch) (highest : (f.step call).highestObserved = newEpoch)
  | other (noFrame : ∀ frame isTopologyWrite, call ≠ .onInboundFrame frame isTopologyWrite)
      (own : (f.step call).ownEpoch = f.ownEpoch)
      (highest : (f.step call).highestObserved = f.highestObserved) (role : (f.step call).role = f.role)

theorem callEffect (call : FenceCall) (hf : Fenced f) : CallEffect f call := by
  cases call with
  | onInboundFrame frame isTopologyWrite =>
    refine .frame frame isTopologyWrite rfl ?_ ?_ ?_ <;>
      · simp only [AnchorEpochFence.step, AnchorEpochFence.onInboundFrame]
        split_ifs <;> rfl
  | onQuorumLost quorumSize available => exact .other nofun rfl rfl rfl
  | onQuorumRestored => exact .other nofun rfl rfl rfl
  | takeOwnership newEpoch reason =>
    by_cases hlow : newEpoch.isInteger = false ∨ newEpoch ≤ f.highestObserved
    · have hsame : f.step (.takeOwnership newEpoch reason) = f := by
        simp only [AnchorEpochFence.step, AnchorEpochFence.takeOwnership, if_pos hlow]
      exact .other nofun (by rw [hsame]) (by rw [hsame]) (by rw [hsame])
    · have hinteger : newEpoch.isInteger = true := by
        cases h : newEpoch.isInteger with
        | true => rfl
        | false => exact absurd (.inl h) hlow
      have habove : f.highestObserved < newEpoch :=
        (JsDouble.le_or_lt (JsDouble.isInteger_ne_nan hinteger) hf.highest).resolve_left
          fun h => hlow (.inr h)
      refine .takeover newEpoch ⟨reason, .anchorFailover 0 f.anchorNid newEpoch reason, rfl, ?_⟩ habove ?_ ?_
      · simp only [AnchorEpochFence.takeOwnership, if_neg hlow]
      · simp only [AnchorEpochFence.step, AnchorEpochFence.takeOwnership, if_neg hlow]
      · simp only [AnchorEpochFence.step, AnchorEpochFence.takeOwnership, if_neg hlow]

/-- **One call** keeps the invariant, and no epoch decreases. -/
theorem Fenced.step (call : FenceCall) (hf : Fenced f) : Fenced (f.step call) ∧ f.ownEpoch ≤ (f.step call).ownEpoch ∧
    f.highestObserved ≤ (f.step call).highestObserved := by
  cases callEffect call hf with
  | frame frame isTopologyWrite isCall own highest role =>
    have hle : f.highestObserved ≤ (f.step call).highestObserved := by
      rw [highest]
      split_ifs with h
      · exact JsDouble.le_of_lt h
      · exact JsDouble.le_refl hf.highest
    have hnum : (f.step call).highestObserved ≠ .nan := by
      rw [highest]
      split_ifs with h
      · exact (JsDouble.ne_nan_of_lt h).2
      · exact hf.highest
    refine ⟨⟨by rw [own]; exact hf.own, hnum, ?_⟩, ?_, hle⟩
    · rw [own]
      exact JsDouble.le_trans hf.le hle
    · rw [own]
      exact JsDouble.le_refl hf.own
  | takeover newEpoch taken above own highest =>
    have hnum := (JsDouble.ne_nan_of_lt above).2
    refine ⟨⟨by rwa [own], by rwa [highest], ?_⟩, ?_, ?_⟩
    · rw [own, highest]
      exact JsDouble.le_refl hnum
    · rw [own]
      exact JsDouble.le_of_lt (JsDouble.lt_of_le_of_lt hf.le above)
    · rw [highest]
      exact JsDouble.le_of_lt above
  | other noFrame own highest role =>
    refine ⟨⟨by rw [own]; exact hf.own, by rw [highest]; exact hf.highest, ?_⟩, ?_, ?_⟩
    · rw [own, highest]
      exact hf.le
    · rw [own]
      exact JsDouble.le_refl hf.own
    · rw [highest]
      exact JsDouble.le_refl hf.highest

theorem Fenced.run (hf : Fenced f) : Fenced (run AnchorEpochFence.step f es) :=
  run_induction hf fun _ call h => (h.step call).1

theorem Fenced.run_mono (hf : Fenced f) :
    f.ownEpoch ≤ (Lib.run AnchorEpochFence.step f es).ownEpoch ∧
      f.highestObserved ≤ (Lib.run AnchorEpochFence.step f es).highestObserved := by
  induction es generalizing f with
  | nil => exact ⟨JsDouble.le_refl hf.own, JsDouble.le_refl hf.highest⟩
  | cons call es ih =>
    obtain ⟨hf', hown, hhighest⟩ := hf.step call
    obtain ⟨hown', hhighest'⟩ := ih hf'
    exact ⟨JsDouble.le_trans hown hown', JsDouble.le_trans hhighest hhighest'⟩

theorem Fenced.observed_le (hf : Fenced f) :
    ∀ e ∈ observedEpochs es, e ≠ .nan → e ≤ (Lib.run AnchorEpochFence.step f es).highestObserved := by
  induction es using List.reverseRecOn with
  | nil => simp [observedEpochs]
  | append_singleton es call ih =>
    intro e he hnum
    have hrun : Fenced (Lib.run AnchorEpochFence.step f es) := hf.run
    rw [run_snoc]
    obtain ⟨-, -, hmono⟩ := hrun.step call
    simp only [observedEpochs, List.filterMap_append, List.mem_append] at he
    rcases he with he | he
    · exact JsDouble.le_trans (ih e he hnum) hmono
    · cases callEffect call hrun with
      | frame frame isTopologyWrite isCall own highest role =>
        subst isCall
        have heq : e = inboundEpoch frame := by simpa using he
        subst heq
        rw [highest]
        split_ifs with h
        · exact JsDouble.le_refl hnum
        · exact (JsDouble.le_or_lt hnum hrun.highest).resolve_right h
      | takeover newEpoch taken above own highest =>
        obtain ⟨reason, event, rfl, -⟩ := taken
        simp at he
      | other noFrame own highest role =>
        cases call with
        | onInboundFrame frame isTopologyWrite => exact absurd rfl (noFrame frame isTopologyWrite)
        | onQuorumLost | onQuorumRestored | takeOwnership => simp at he

theorem Fenced.takeover_of_active (hf : Fenced f) (hstandby : f.role = .standby)
    (hactive : (Lib.run AnchorEpochFence.step f es).role = .active) :
    ∃ before take after newEpoch, es = before ++ take :: after ∧
      TakesOver (Lib.run AnchorEpochFence.step f before) take newEpoch ∧
      (Lib.run AnchorEpochFence.step f before).highestObserved < newEpoch := by
  induction es generalizing f with
  | nil =>
    rw [run_nil, hstandby] at hactive
    cases hactive
  | cons call es ih =>
    have later : ∀ hrole : (f.step call).role = .standby, _ := fun hrole => ih (hf.step call).1 hrole hactive
    have shift : (∃ before take after newEpoch, es = before ++ take :: after ∧
        TakesOver (Lib.run AnchorEpochFence.step (f.step call) before) take newEpoch ∧
        (Lib.run AnchorEpochFence.step (f.step call) before).highestObserved < newEpoch) →
        ∃ before take after newEpoch, call :: es = before ++ take :: after ∧
          TakesOver (Lib.run AnchorEpochFence.step f before) take newEpoch ∧
          (Lib.run AnchorEpochFence.step f before).highestObserved < newEpoch := by
      rintro ⟨before, take, after, newEpoch, rfl, h⟩
      exact ⟨call :: before, take, after, newEpoch, rfl, h⟩
    cases callEffect call hf with
    | frame frame isTopologyWrite isCall own highest role =>
      refine shift (later ?_)
      rw [role, hstandby, ite_self]
    | takeover newEpoch taken above own highest =>
      exact ⟨[], call, es, newEpoch, rfl, taken, above⟩
    | other noFrame own highest role => exact shift (later (role.trans hstandby))

theorem active_of_acceptsWrite (h : AcceptsWrite f call) : f.role = .active := by
  obtain ⟨frame, rfl, hok⟩ := h
  have hactive : f.isActive = true := by
    by_contra hno
    unfold AnchorEpochFence.onInboundFrame at hok
    dsimp only at hok
    split at hok
    · split at hok
      · cases hok
      · rw [if_pos ⟨rfl, hno⟩] at hok
        cases hok
    · split at hok
      · cases hok
      · rw [if_pos ⟨rfl, hno⟩] at hok
        cases hok
  simp only [AnchorEpochFence.isActive, Bool.and_eq_true, decide_eq_true_eq] at hactive
  exact hactive.1

end

/-- **Fencing safety**: in every run the own and the highest observed epoch never decrease and the
highest observed one bounds the own one; after a frame from a higher epoch a topology write is accepted
only after a takeover at an epoch above all that had been observed. -/
theorem epoch_fencing (options : AnchorEpochFenceOptions) (f : AnchorEpochFence)
    (hf : create options = .ok f) :
    (∀ es es' : List FenceCall,
      (run AnchorEpochFence.step f es).ownEpoch ≤ (run AnchorEpochFence.step f (es ++ es')).ownEpoch ∧
      (run AnchorEpochFence.step f es).highestObserved ≤
        (run AnchorEpochFence.step f (es ++ es')).highestObserved ∧
      (run AnchorEpochFence.step f es).ownEpoch ≤ (run AnchorEpochFence.step f es).highestObserved) ∧
    ∀ (pre mid : List FenceCall) (call write : FenceCall),
      Supersedes (run AnchorEpochFence.step f pre) call →
      AcceptsWrite (run AnchorEpochFence.step f (pre ++ call :: mid)) write →
      ∃ before take after newEpoch, mid = before ++ take :: after ∧
        TakesOver (run AnchorEpochFence.step f (pre ++ call :: before)) take newEpoch ∧
        ∀ e ∈ observedEpochs (pre ++ call :: before), e ≠ .nan → e < newEpoch := by
  have hfenced : Fenced f := fenced_create hf
  constructor
  · intro es es'
    have hrun : Fenced (run AnchorEpochFence.step f es) := hfenced.run
    have happend : run AnchorEpochFence.step f (es ++ es') =
        run AnchorEpochFence.step (run AnchorEpochFence.step f es) es' := List.foldl_append ..
    rw [happend]
    exact ⟨hrun.run_mono.1, hrun.run_mono.2, hrun.le⟩
  · intro pre mid call write hsuper haccepts
    have hsplit : ∀ before, run AnchorEpochFence.step f (pre ++ call :: before) =
        run AnchorEpochFence.step ((run AnchorEpochFence.step f pre).step call) before :=
      fun before => List.foldl_append ..
    have hpre : Fenced (run AnchorEpochFence.step f pre) := hfenced.run
    have hstandby : ((run AnchorEpochFence.step f pre).step call).role = .standby := by
      obtain ⟨frame, isTopologyWrite, rfl, hlt⟩ := hsuper
      simp only [AnchorEpochFence.step, AnchorEpochFence.onInboundFrame]
      split_ifs <;> rfl
    have hactive := active_of_acceptsWrite haccepts
    rw [hsplit] at hactive
    obtain ⟨before, take, after, newEpoch, hmid, htake, habove⟩ :=
      (hpre.step call).1.takeover_of_active hstandby hactive
    refine ⟨before, take, after, newEpoch, hmid, by rwa [hsplit], fun e he hnum => ?_⟩
    have hle := hfenced.observed_le e he hnum
    rw [hsplit] at hle
    exact JsDouble.lt_of_le_of_lt hle habove

/-- A fence at epoch 1 sees epoch 3 and refuses writes until it takes ownership at epoch 4. -/
theorem epoch_fencing_sample : ∃ before take after newEpoch,
    [FenceCall.onQuorumRestored, .takeOwnership 4 "planned"] = before ++ take :: after ∧
      TakesOver (run AnchorEpochFence.step ⟨"urn:nps:anchor:a", 1, .active, false, 1⟩
        ([] ++ .onInboundFrame (some { cluster_epoch := some 3 }) false :: before)) take newEpoch ∧
      ∀ e ∈ observedEpochs ([] ++ .onInboundFrame (some { cluster_epoch := some 3 }) false :: before),
        e ≠ .nan → e < newEpoch :=
  (epoch_fencing { anchorNid := "urn:nps:anchor:a" } ⟨"urn:nps:anchor:a", 1, .active, false, 1⟩ rfl).2 []
    [.onQuorumRestored, .takeOwnership 4 "planned"]
    (.onInboundFrame (some { cluster_epoch := some 3 }) false) (.onInboundFrame none true)
    ⟨_, _, rfl, by decide⟩ ⟨none, rfl, by decide⟩

end NpsSdk.Nwp
