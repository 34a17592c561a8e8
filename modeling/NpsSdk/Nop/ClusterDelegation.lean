import NpsSdk.Lib.Runs
import NpsSdk.Nop.Models

/-!
# Delegation to a cluster

`ClusterDelegationResolver`: the active anchor of each cluster is cached, and a failover replaces it only at a
higher epoch.  A lookup that comes back is cached as it is, whatever has been cached since it was started.
`ε` are the epochs, numbers other than `NaN`.
-/

namespace NpsSdk.Nop

open NpsSdk.Lib

variable {ε : Type}

/-- The guard of a cluster target. -/
def isNpsNid (value : String) : Bool := startsWith value "urn:nps:"

structure ClusterAnchorInfo (ε : Type) where
  activeNid : String
  clusterEpoch : ε
deriving DecidableEq

/-- A call of `resolveActive`, with its answer once it has one; a lookup that fails has its error. -/
structure ResolveCall (ε : Type) where
  clusterAnchor : String
  answer : Option (Except String (Option (ClusterAnchorInfo ε))) := none

structure ClusterDelegationResolver (ε : Type) where
  active : JsMap String (ClusterAnchorInfo ε) := .empty
  calls : List (ResolveCall ε) := []

inductive ClusterEvent (ε : Type)
  | resolveActive (clusterAnchor : String)
  | resolveDelegateTarget (frame : DelegateFrame)
  /-- The lookup of a call comes back. -/
  | looked (call : ℕ) (fresh : Except String (Option (ClusterAnchorInfo ε)))
  | anchorFailover (clusterAnchor successorNid : String) (clusterEpoch : ε)
  | invalidate (clusterAnchor : String)

namespace ClusterDelegationResolver

section

variable (r : ClusterDelegationResolver ε)

/-- `resolveActive`, up to its lookup. -/
def resolveActive (clusterAnchor : String) : ClusterDelegationResolver ε :=
  let answer := if clusterAnchor = "" then some (.error "clusterAnchor must be a non-empty NID.")
    else (r.active.get clusterAnchor).map fun cached => .ok (some cached)
  { r with calls := r.calls ++ [{ clusterAnchor, answer }] }

/-- The cluster whose active anchor a frame is to be dispatched to, or what `resolveDelegateTarget` answers
without asking for one. -/
def targetCluster (frame : DelegateFrame) : Except (Option String) String :=
  match truthy frame.targetClusterAnchor with
  | none => .error (some frame.agentNid)
  | some cluster => if isNpsNid cluster then .ok cluster else .error none

def resolveDelegateTarget (frame : DelegateFrame) : ClusterDelegationResolver ε :=
  match targetCluster frame with
  | .error _ => r
  | .ok cluster => r.resolveActive cluster

/-- `resolveActive` after its lookup. -/
def looked (i : ℕ) (fresh : Except String (Option (ClusterAnchorInfo ε))) : ClusterDelegationResolver ε :=
  match r.calls[i]? with
  | some { clusterAnchor, answer := none } =>
    let r := { r with calls := r.calls.set i { clusterAnchor, answer := some fresh } }
    match fresh with
    -- a negative result is not cached
    | .error _ | .ok none => r
    | .ok (some fresh) => { r with active := r.active.set clusterAnchor fresh }
  | _ => r

def invalidate (clusterAnchor : String) : ClusterDelegationResolver ε :=
  { r with active := r.active.delete clusterAnchor }

def lookingUp (i : ℕ) : Option String :=
  match r.calls[i]? with
  | some { clusterAnchor, answer := none } => some clusterAnchor
  | _ => none

theorem active_resolveDelegateTarget (frame : DelegateFrame) : (r.resolveDelegateTarget frame).active = r.active := by
  unfold resolveDelegateTarget
  split <;> rfl

theorem active_looked (i : ℕ) (fresh : Except String (Option (ClusterAnchorInfo ε))) :
    (r.looked i fresh).active = match r.lookingUp i, fresh with
      | some cluster, .ok (some fresh) => r.active.set cluster fresh
      | _, _ => r.active := by
  unfold looked lookingUp
  cases hcall : r.calls[i]? with
  | none => rfl
  | some call =>
    obtain ⟨clusterAnchor, answer⟩ := call
    cases answer with
    | some _ => rfl
    | none =>
      match fresh with
      | .error _ | .ok none | .ok (some _) => rfl

def routed : ClusterEvent ε → Option (String × ClusterAnchorInfo ε)
  | .resolveActive cluster => (r.active.get cluster).map fun cached => (cluster, cached)
  | .resolveDelegateTarget frame =>
    match targetCluster frame with
    | .error _ => none
    | .ok cluster => (r.active.get cluster).map fun cached => (cluster, cached)
  | .looked i (.ok (some fresh)) => (r.lookingUp i).map fun cluster => (cluster, fresh)
  | _ => none

variable {r} in
theorem routed_cases {e : ClusterEvent ε} {cluster : String} {info : ClusterAnchorInfo ε}
    (h : r.routed e = some (cluster, info)) :
    r.active.get cluster = some info ∨ ∃ i, e = .looked i (.ok (some info)) ∧ r.lookingUp i = some cluster := by
  cases e with
  | resolveActive cluster' =>
    rw [routed] at h
    obtain ⟨cached, hget, heq⟩ := Option.map_eq_some_iff.1 h
    cases heq
    exact .inl hget
  | resolveDelegateTarget frame =>
    rw [routed] at h
    cases htarget : targetCluster frame with
    | error _ => simp [htarget] at h
    | ok cluster' =>
      rw [htarget] at h
      obtain ⟨cached, hget, heq⟩ := Option.map_eq_some_iff.1 h
      cases heq
      exact .inl hget
  | looked i fresh =>
    match fresh, h with
    | .ok (some fresh), h =>
      obtain ⟨cluster', hpending, heq⟩ := Option.map_eq_some_iff.1 h
      cases heq
      exact .inr ⟨i, rfl, hpending⟩
  | anchorFailover | invalidate => cases h

end

section

variable [LinearOrder ε] (r : ClusterDelegationResolver ε)

/-- Whether the cache moved, or the error, and the resolver after the event. -/
def onAnchorFailover (clusterAnchor successorNid : String) (clusterEpoch : ε) :
    Except String Bool × ClusterDelegationResolver ε :=
  if clusterAnchor = "" then (.error "clusterAnchor must be a non-empty NID.", r)
  else if successorNid = "" then (.error "successorNid must be a non-empty NID.", r)
  else if (r.active.get clusterAnchor).any (fun current => clusterEpoch ≤ current.clusterEpoch) then
    (.ok false, r)
  else (.ok true, { r with active := r.active.set clusterAnchor { activeNid := successorNid, clusterEpoch } })

def step : ClusterEvent ε → ClusterDelegationResolver ε
  | .resolveActive clusterAnchor => r.resolveActive clusterAnchor
  | .resolveDelegateTarget frame => r.resolveDelegateTarget frame
  | .looked i fresh => r.looked i fresh
  | .anchorFailover clusterAnchor successorNid clusterEpoch =>
    (r.onAnchorFailover clusterAnchor successorNid clusterEpoch).2
  | .invalidate clusterAnchor => r.invalidate clusterAnchor

def after (es : List (ClusterEvent ε)) : ClusterDelegationResolver ε := run step {} es

/-! ### Monotone delegations -/

/-- **Delegations are monotone** in a run: between two invalidations of a cluster the epoch that is cached for it
never decreases, and no call is answered with an anchor below the epoch of a failover accepted before. -/
structure Monotone (es : List (ClusterEvent ε)) : Prop where
  epoch : ∀ pre mid post, es = pre ++ (mid ++ post) → ∀ cluster, .invalidate cluster ∉ mid →
    ∀ info, (after pre).active.get cluster = some info →
      ∃ info', (after (pre ++ mid)).active.get cluster = some info' ∧ info.clusterEpoch ≤ info'.clusterEpoch
  failover : ∀ pre mid e post cluster nid epoch,
    es = pre ++ .anchorFailover cluster nid epoch :: (mid ++ e :: post) →
      ((after pre).onAnchorFailover cluster nid epoch).1 = .ok true → .invalidate cluster ∉ mid →
        ∀ info, (after (pre ++ .anchorFailover cluster nid epoch :: mid)).routed e = some (cluster, info) →
          epoch ≤ info.clusterEpoch

/-- A lookup comes back with no smaller epoch than the one that is cached for its cluster by then. -/
def InTime : ClusterEvent ε → Prop
  | .looked i (.ok (some fresh)) => ∀ cluster current, r.lookingUp i = some cluster →
      r.active.get cluster = some current → current.clusterEpoch ≤ fresh.clusterEpoch
  | _ => True

/-! ### What an event does to the cache -/

/-- **What an event does** to the entry of one cluster. -/
inductive Effect (e : ClusterEvent ε) (cluster : String) : Prop
  | same (kept : (r.step e).active.get cluster = r.active.get cluster)
  | looked (i : ℕ) (fresh : ClusterAnchorInfo ε) (event : e = .looked i (.ok (some fresh)))
      (pending : r.lookingUp i = some cluster) (now : (r.step e).active.get cluster = some fresh)
  | moved (nid : String) (epoch : ε) (event : e = .anchorFailover cluster nid epoch)
      (above : ∀ current, r.active.get cluster = some current → current.clusterEpoch < epoch)
      (now : (r.step e).active.get cluster = some ⟨nid, epoch⟩)
  | dropped (event : e = .invalidate cluster)

variable {r} {e : ClusterEvent ε} {cluster nid : String} {epoch : ε} {es : List (ClusterEvent ε)}

variable (r cluster nid epoch) in
theorem onAnchorFailover_cases :
    (r.onAnchorFailover cluster nid epoch).1 ≠ .ok true ∧ (r.onAnchorFailover cluster nid epoch).2 = r ∨
    (r.onAnchorFailover cluster nid epoch).1 = .ok true ∧
      (∀ current, r.active.get cluster = some current → current.clusterEpoch < epoch) ∧
      (r.onAnchorFailover cluster nid epoch).2 = { r with active := r.active.set cluster ⟨nid, epoch⟩ } := by
  unfold onAnchorFailover
  by_cases hcluster : cluster = ""
  · left
    simp [hcluster]
  · by_cases hnid : nid = ""
    · left
      simp [hcluster, hnid]
    · by_cases hstale : (r.active.get cluster).any (fun current => decide (epoch ≤ current.clusterEpoch)) = true
      · left
        simp [hcluster, hnid, hstale]
      · right
        refine ⟨by simp [hcluster, hnid, hstale], fun current hget => ?_, by simp [hcluster, hnid, hstale]⟩
        simpa [hget] using hstale

theorem effect (r : ClusterDelegationResolver ε) (e : ClusterEvent ε) (cluster : String) : Effect r e cluster := by
  cases e with
  | resolveActive clusterAnchor => exact .same rfl
  | resolveDelegateTarget frame => exact .same (by rw [step, active_resolveDelegateTarget])
  | looked i fresh =>
    match hpending : r.lookingUp i, fresh with
    | none, fresh => exact .same (by rw [step, active_looked, hpending])
    | some _, .error _ | some _, .ok none => exact .same (by rw [step, active_looked, hpending])
    | some cluster', .ok (some fresh) =>
      have hset : (r.step (.looked i (.ok (some fresh)))).active = r.active.set cluster' fresh := by
        rw [step, active_looked, hpending]
      by_cases heq : cluster = cluster'
      · subst heq
        exact .looked i fresh rfl hpending (by rw [hset, JsMap.get_set_self])
      · exact .same (by rw [hset, JsMap.get_set_ne _ _ heq])
  | anchorFailover cluster' nid epoch =>
    rcases onAnchorFailover_cases r cluster' nid epoch with ⟨-, hkept⟩ | ⟨-, habove, hset⟩
    · exact .same (by rw [step, hkept])
    · by_cases heq : cluster = cluster'
      · subst heq
        exact .moved nid epoch rfl habove (by rw [step, hset, JsMap.get_set_self])
      · exact .same (by rw [step, hset, JsMap.get_set_ne _ _ heq])
  | invalidate cluster' =>
    by_cases heq : cluster = cluster'
    · exact .dropped (by rw [heq])
    · exact .same (by rw [step, invalidate, JsMap.get_delete, if_neg heq])

/-! ### Runs -/

theorem step_not_lower (htime : r.InTime e) (hkept : e ≠ .invalidate cluster) {info : ClusterAnchorInfo ε}
    (hget : r.active.get cluster = some info) :
    ∃ info', (r.step e).active.get cluster = some info' ∧ info.clusterEpoch ≤ info'.clusterEpoch := by
  cases effect r e cluster with
  | same kept => exact ⟨info, kept.trans hget, le_rfl⟩
  | looked i fresh event pending now =>
    subst event
    exact ⟨fresh, now, htime cluster info pending hget⟩
  | moved nid epoch event above now => exact ⟨_, now, (above info hget).le⟩
  | dropped event => exact absurd event hkept

theorem run_not_lower {r : ClusterDelegationResolver ε} {mid : List (ClusterEvent ε)}
    (htime : Along step InTime r mid) (hkept : .invalidate cluster ∉ mid) {info : ClusterAnchorInfo ε}
    (hget : r.active.get cluster = some info) :
    ∃ info', (run step r mid).active.get cluster = some info' ∧ info.clusterEpoch ≤ info'.clusterEpoch := by
  induction mid generalizing r info with
  | nil => exact ⟨info, hget, le_rfl⟩
  | cons e mid ih =>
    rw [List.mem_cons, not_or] at hkept
    obtain ⟨hnow, hrest⟩ := along_cons.1 htime
    obtain ⟨info', hget', hle⟩ := step_not_lower hnow (Ne.symm hkept.1) hget
    obtain ⟨info'', hget'', hle'⟩ := ih hrest hkept.2 hget'
    exact ⟨info'', hget'', hle.trans hle'⟩

theorem after_append {pre mid : List (ClusterEvent ε)} : after (pre ++ mid) = run step (after pre) mid :=
  run_append

/-- **Delegations are monotone exactly if the lookups come back in time**: none brings a smaller epoch than the
one that is cached for its cluster when it comes back. -/
theorem monotone_iff_inTime : Monotone es ↔ Along step InTime {} es := by
  constructor
  · intro h pre e post heq
    match e, heq with
    | .looked i (.ok (some fresh)), heq =>
      intro cluster current hpending hget
      obtain ⟨info', hget', hle⟩ := h.epoch pre [.looked i (.ok (some fresh))] post heq cluster (by simp) current hget
      have hset : (after (pre ++ [.looked i (.ok (some fresh))])).active.get cluster = some fresh := by
        rw [after_append, run_cons, run_nil, step, active_looked]
        rw [show (after pre).lookingUp i = some cluster from hpending, JsMap.get_set_self]
      rw [Option.some.inj (hset.symm.trans hget')]
      exact hle
    | .resolveActive _, _ | .resolveDelegateTarget _, _ | .looked _ (.error _), _ | .looked _ (.ok none), _
    | .anchorFailover .., _ | .invalidate _, _ => trivial
  · intro h
    have htime : ∀ pre mid post, es = pre ++ (mid ++ post) → Along step InTime (after pre) mid := by
      rintro pre mid post rfl
      exact h.within
    refine ⟨fun pre mid post heq cluster hkept info hget => ?_,
      fun pre mid e post cluster nid epoch heq haccepted hkept info hrouted => ?_⟩
    · rw [after_append]
      exact run_not_lower (htime pre mid post heq) hkept hget
    · -- the failover is cached, and the epoch has not decreased since
      have hcached : (after (pre ++ [.anchorFailover cluster nid epoch])).active.get cluster = some ⟨nid, epoch⟩ := by
        rw [after_append, run_cons, run_nil, step]
        rcases onAnchorFailover_cases (after pre) cluster nid epoch with ⟨hno, -⟩ | ⟨-, -, hset⟩
        · exact absurd haccepted hno
        · rw [hset, JsMap.get_set_self]
      have hmid := htime (pre ++ [.anchorFailover cluster nid epoch]) mid (e :: post) (by simp [heq])
      obtain ⟨current, hget, hle⟩ := run_not_lower hmid hkept hcached
      rw [← after_append, List.append_assoc, List.singleton_append] at hget
      rcases routed_cases hrouted with hanchor | ⟨i, rfl, hpending⟩
      · rw [Option.some.inj (hanchor.symm.trans hget)]
        exact hle
      · have hnow : (after (pre ++ .anchorFailover cluster nid epoch :: mid)).InTime (.looked i (.ok (some info))) :=
          h _ _ post (by simp [heq])
        exact hle.trans (hnow cluster current hpending hget)

end

end ClusterDelegationResolver

open ClusterDelegationResolver

def overtakenLookup : List (ClusterEvent ℕ) :=
  [.resolveActive "urn:nps:cluster:x:main", .anchorFailover "urn:nps:cluster:x:main" "urn:nps:node:x:anchor-b" 2,
    .looked 0 (.ok (some ⟨"urn:nps:node:x:anchor-a", 1⟩)), .resolveActive "urn:nps:cluster:x:main"]

/-- The lookup takes the cluster back to the anchor of epoch 1. -/
theorem failover_taken_back : ¬ ∀ es : List (ClusterEvent ℕ), Monotone es := by
  intro h
  obtain ⟨info, hget, hle⟩ := (h overtakenLookup).epoch (overtakenLookup.take 2) (overtakenLookup.drop 2) [] rfl
    "urn:nps:cluster:x:main" (by simp [overtakenLookup]) ⟨"urn:nps:node:x:anchor-b", 2⟩ (by decide)
  have hback : (after overtakenLookup).active.get "urn:nps:cluster:x:main" =
      some ⟨"urn:nps:node:x:anchor-a", 1⟩ := by decide
  rw [Option.some.inj (hget.symm.trans hback)] at hle
  exact absurd hle (by decide)

end NpsSdk.Nop
