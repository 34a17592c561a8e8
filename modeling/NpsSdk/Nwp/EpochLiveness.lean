import NpsSdk.Lib.StringToNumber
import NpsSdk.Nwp.AnchorEpoch

/-!
# Epochs that requests bring

What `AnchorNodeApp` reads of a request before its epoch fence, and which requests leave the fence an epoch
at which the anchor can take ownership.  The epoch of a request is any number that its body or its header
spells; `takeOwnership` asks for an integer above all of them.
-/

namespace NpsSdk.Nwp

open NpsSdk.Lib AnchorEpochFence

/-! ### Requests -/

structure AnchorNodeOptions where
  pathPrefix : String
  requireAuth : Bool := true
  requireTopologyCapability : Bool := false

/-- What is read of a request before the fence; a body that is not JSON is absent. -/
structure AnchorRequest where
  pathname : String
  method : String
  agent : Option String := none
  capabilities : Option String := none
  clusterEpoch : Option String := none
  anchorNid : Option String := none
  body : Option JsValue := none

/-- The routes behind the fence. -/
inductive AnchorRoute
  | invoke | query | subscribe

namespace AnchorNodeApp

/-- The path prefix without the slashes at its end. -/
def base (options : AnchorNodeOptions) : List Char :=
  (options.pathPrefix.toList.reverse.dropWhile (· = '/')).reverse

def routeOf (sub : String) : Option AnchorRoute :=
  if sub = "/invoke" ∨ sub = "/invoke/" then some .invoke
  else if sub = "/query" ∨ sub = "/query/" then some .query
  else if sub = "/subscribe" ∨ sub = "/subscribe/" then some .subscribe
  else none

/-- `checkTopologyCapability` passes; `lower` is `toLowerCase`. -/
def checkTopologyCapability (lower : String → String) (options : AnchorNodeOptions) (req : AnchorRequest) :
    Bool :=
  !options.requireTopologyCapability ||
    ((split (req.capabilities.getD "") ',').map fun c => lower (trim c)).contains "topology:read"

def member (body : JsValue) (name : String) : Option JsValue :=
  match body with
  | .obj members => JsMap.find name members
  | _ => none

def inboundFrame (req : AnchorRequest) (body : JsValue) : InboundEpochFrame :=
  let bodyEpoch : Option JsDouble := match member body "cluster_epoch" with
    | some (.num n) => some n.double
    | _ => none
  let bodyNid : Option String := match member body "sender_anchor_nid" with
    | some (.str s) => some s
    | _ => none
  readInboundEpoch stringToNumber bodyEpoch bodyNid req.clusterEpoch req.anchorNid

def fenceCall (lower : String → String) (options : AnchorNodeOptions) (req : AnchorRequest) :
    Option (InboundEpochFrame × Bool) :=
  if ¬ (base options).isPrefixOf req.pathname.toList then none
  else match routeOf (String.ofList (req.pathname.toList.drop (base options).length)), req.body with
    | none, _ | _, none => none
    | some route, some body =>
      if options.requireAuth ∧ req.agent.getD "" = "" then none
      else if req.method ≠ "POST" then none
      else match route with
        -- an action frame cannot be read of `null`
        | .invoke => match body with
          | .null => none
          | _ => some (inboundFrame req body, true)
        | .query | .subscribe =>
          if checkTopologyCapability lower options req then some (inboundFrame req body, false) else none

def passFence (lower : String → String) (stringOf : JsDouble → String) (options : AnchorNodeOptions)
    (fence : Option AnchorEpochFence) (req : AnchorRequest) : Option ErrorResponse × Option AnchorEpochFence :=
  match fenceCall lower options req with
  | none => (none, fence)
  | some (frame, isTopologyWrite) => applyFence stringOf fence frame isTopologyWrite

def afterRequest (lower : String → String) (stringOf : JsDouble → String) (options : AnchorNodeOptions)
    (f : AnchorEpochFence) (req : AnchorRequest) : AnchorEpochFence :=
  ((passFence lower stringOf options (some f) req).2).getD f

end AnchorNodeApp

open AnchorNodeApp

/-! ### Liveness -/

def SafeEpoch (e : JsDouble) : Prop := e.safeInteger.isSome = true

instance (e : JsDouble) : Decidable (SafeEpoch e) := inferInstanceAs (Decidable (_ = true))

/-- The highest epoch is a safe integer, and at some whole number, which is a double, ownership can be
taken. -/
structure CanTakeOver (f : AnchorEpochFence) : Prop where
  safe : SafeEpoch f.highestObserved
  next : ∃ n : ℤ, |n| ≤ 2 ^ 53 ∧ ∀ reason, (f.takeOwnership (.fin n) reason).outcome =
    .ok (.anchorFailover 0 f.anchorNid (.fin n) reason)

def KeepsSafe (lower : String → String) (options : AnchorNodeOptions) (f : AnchorEpochFence)
    (req : AnchorRequest) : Prop :=
  ∀ frame isTopologyWrite, fenceCall lower options req = some (frame, isTopologyWrite) →
    f.highestObserved < inboundEpoch (some frame) → SafeEpoch (inboundEpoch (some frame))

section

variable {lower : String → String} {stringOf : JsDouble → String} {options : AnchorNodeOptions}
  {f : AnchorEpochFence} {req : AnchorRequest}

theorem applyFence_fence {frame : InboundEpochFrame} {isTopologyWrite : Bool} :
    (applyFence stringOf (some f) frame isTopologyWrite).2 =
      some (f.onInboundFrame (some frame) isTopologyWrite).fence := by
  unfold applyFence
  dsimp only
  split <;> rfl

theorem highestObserved_onInboundFrame {frame : Option InboundEpochFrame} {isTopologyWrite : Bool} :
    (f.onInboundFrame frame isTopologyWrite).fence.highestObserved =
      if f.highestObserved < inboundEpoch frame then inboundEpoch frame else f.highestObserved := by
  simp only [AnchorEpochFence.onInboundFrame]
  split_ifs <;> rfl

theorem highestObserved_afterRequest :
    (afterRequest lower stringOf options f req).highestObserved =
      match fenceCall lower options req with
      | none => f.highestObserved
      | some (frame, _) =>
        if f.highestObserved < inboundEpoch (some frame) then inboundEpoch (some frame)
        else f.highestObserved := by
  unfold afterRequest passFence
  cases hcall : fenceCall lower options req with
  | none => rfl
  | some call =>
    obtain ⟨frame, isTopologyWrite⟩ := call
    show ((applyFence stringOf (some f) frame isTopologyWrite).2.getD f).highestObserved = _
    rw [applyFence_fence]
    exact highestObserved_onInboundFrame

theorem canTakeOver (h : SafeEpoch f.highestObserved) : CanTakeOver f := by
  obtain ⟨n, hn⟩ := Option.isSome_iff_exists.1 h
  refine ⟨h, ?_⟩
  cases hhighest : f.highestObserved with
  | nan | negInf | posInf =>
    rw [hhighest] at hn
    cases hn
  | fin q =>
    rw [hhighest] at hn
    simp only [JsDouble.safeInteger] at hn
    split at hn
    · rename_i hsafe
      obtain ⟨hwhole, hbound⟩ := hsafe
      have hq : q = (q.num : ℚ) := (Rat.den_eq_one_iff q).1 hwhole |>.symm
      refine ⟨q.num + 1, ?_, fun reason => ?_⟩
      · rw [abs_le] at hbound ⊢
        omega
      · have hinteger : (JsDouble.fin ((q.num + 1 : ℤ) : ℚ)).isInteger = true := by
          simp [JsDouble.isInteger]
        have habove : ¬ JsDouble.fin ((q.num + 1 : ℤ) : ℚ) ≤ f.highestObserved := by
          rw [hhighest, JsDouble.fin_le_fin, hq]
          push_cast
          simp
        have haccepted : ¬ ((JsDouble.fin ((q.num + 1 : ℤ) : ℚ)).isInteger = false ∨
            JsDouble.fin ((q.num + 1 : ℤ) : ℚ) ≤ f.highestObserved) := by
          rintro (h | h)
          · rw [hinteger] at h
            cases h
          · exact habove h
        simp only [AnchorEpochFence.takeOwnership, if_neg haccepted]
    · cases hn

/-- **One request** keeps the highest epoch a safe integer just when its own epoch is one, or is no higher. -/
theorem safe_afterRequest (h : SafeEpoch f.highestObserved) :
    SafeEpoch (afterRequest lower stringOf options f req).highestObserved ↔ KeepsSafe lower options f req := by
  rw [highestObserved_afterRequest]
  unfold KeepsSafe
  cases hcall : fenceCall lower options req with
  | none => simp [h]
  | some call =>
    obtain ⟨frame, isTopologyWrite⟩ := call
    simp only [Option.some.injEq, Prod.mk.injEq, and_imp]
    by_cases hlt : f.highestObserved < inboundEpoch (some frame)
    · rw [if_pos hlt]
      constructor
      · rintro hsafe _ _ rfl rfl -
        exact hsafe
      · intro hkeeps
        exact hkeeps frame isTopologyWrite rfl rfl hlt
    · rw [if_neg hlt]
      constructor
      · rintro - _ _ rfl rfl hlt'
        exact absurd hlt' hlt
      · intro _
        exact h

theorem no_takeOwnership (h : f.highestObserved = .posInf) (newEpoch : JsDouble) (reason : String) :
    (f.takeOwnership newEpoch reason).outcome = .error (.epochTooLow newEpoch f.highestObserved) := by
  have hrefused : newEpoch.isInteger = false ∨ newEpoch ≤ f.highestObserved := by
    rw [h]
    cases newEpoch with
    | nan | negInf | posInf => exact .inl rfl
    | fin q => exact .inr (JsDouble.le_of_lt rfl)
  simp only [AnchorEpochFence.takeOwnership, if_pos hrefused]

end

/-- **Fence liveness**: in every state of a sequence of requests the highest epoch is a safe integer and
ownership can be taken just when the highest epoch is one at first and every epoch that exceeds the highest
one observed before it is one. -/
theorem takeover_stays_possible (lower : String → String) (stringOf : JsDouble → String)
    (options : AnchorNodeOptions) (f : AnchorEpochFence) (reqs : List AnchorRequest) :
    (∀ before, before <+: reqs → CanTakeOver (run (afterRequest lower stringOf options) f before)) ↔
      SafeEpoch f.highestObserved ∧
        Along (afterRequest lower stringOf options) (KeepsSafe lower options) f reqs := by
  have hiff : (∀ before, before <+: reqs →
      SafeEpoch (run (afterRequest lower stringOf options) f before).highestObserved) ↔
        SafeEpoch f.highestObserved ∧ Along (afterRequest lower stringOf options) (KeepsSafe lower options) f reqs :=
    forall_prefix_iff_along (I := fun f : AnchorEpochFence => SafeEpoch f.highestObserved)
      fun _ _ => safe_afterRequest
  rw [← hiff]
  constructor
  · intro h before hbefore
    exact (h before hbefore).safe
  · intro h before hbefore
    exact canTakeOver (h before hbefore)

/-- A query with an epoch in its header that is read as infinite. -/
def overflowing : AnchorRequest :=
  { pathname := "/anchor/query", method := "POST", agent := some "urn:nps:agent:a",
    clusterEpoch := some "1e999", body := some (.obj []) }

/-- After that query, which the fence refuses, ownership can be taken at no epoch. -/
theorem overflowing_epoch_blocks_takeover :
    let f : AnchorEpochFence := ⟨"urn:nps:anchor:a", 1, .active, false, 1⟩
    let g := afterRequest id (fun _ => "") { pathPrefix := "/anchor" } f overflowing
    create { anchorNid := "urn:nps:anchor:a" } = .ok f ∧ ¬ SafeEpoch g.highestObserved ∧
      ∀ newEpoch reason, (g.takeOwnership newEpoch reason).outcome =
        .error (.epochTooLow newEpoch g.highestObserved) := by
  intro f g
  have hinfinite : g.highestObserved = .posInf := by decide +kernel
  refine ⟨rfl, ?_, no_takeOwnership hinfinite⟩
  rw [hinfinite]
  decide

end NpsSdk.Nwp
