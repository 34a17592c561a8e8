import NpsSdk.Lib.Decimal
import NpsSdk.Ndp.LivenessRefreshes

/-!
# The anchor of a cluster

Two registries that resolve a cluster to its anchor: `InMemoryNdpRegistry` by `resolveClusterFrom`, and
`NdpRegistryProfile` by a method of its own.
-/

namespace NpsSdk.Ndp

open NpsSdk.Lib

/-! ### The in-memory registry -/

structure InMemoryEntry where
  frame : AnnounceFrame
  expiresAt : JsDouble

abbrev InMemoryNdpRegistry := JsMap String InMemoryEntry

/-- `clock() + ttl * 1000`. -/
def expiry (clock : ℤ) (ttl : JsNum) : JsDouble :=
  match ttl.value with
  | .fin q => .fin (clock + q * 1000)
  | d => d

namespace InMemoryNdpRegistry

variable (store : InMemoryNdpRegistry)

def announce (clock : ℤ) (frame : AnnounceFrame) : InMemoryNdpRegistry :=
  if frame.ttl.value.eq 0 then store.delete frame.nid
  else store.set frame.nid { frame, expiresAt := expiry clock frame.ttl }

/-- An entry that a reading of the registry deletes. -/
def isExpired (now : ℤ) (entry : InMemoryEntry) : Bool := entry.expiresAt < .fin now

/-- The live frames, and the registry without the others. -/
def getAll (now : ℤ) : List AnnounceFrame × InMemoryNdpRegistry :=
  let kept := store.filter fun _ entry => !isExpired now entry
  (kept.values.map InMemoryEntry.frame, kept)

end InMemoryNdpRegistry

/-! ### `resolveClusterFrom` -/

inductive ClusterError
  /-- "clusterAnchor must be a non-empty NID." -/
  | emptyAnchor
  | split (clusterAnchor : String) (epoch : JsDouble)

/-- An absent epoch is 1. -/
def AnnounceFrame.effectiveClusterEpoch (f : AnnounceFrame) : JsDouble :=
  (f.cluster_epoch.map JsNum.value).getD 1

def resolveClusterFrom (liveMembers : List AnnounceFrame) (clusterAnchor : String) :
    Except ClusterError (Option AnnounceFrame) :=
  if clusterAnchor = "" then .error .emptyAnchor
  else
    let members := liveMembers.filter fun f => f.cluster_anchor = some clusterAnchor
    if members.isEmpty then .ok none
    else
      let top := members.foldl (fun top f =>
        if top < f.effectiveClusterEpoch then f.effectiveClusterEpoch else top) 1
      let leaders := members.filter fun f => f.effectiveClusterEpoch.eq top
      if 1 < leaders.length then .error (.split clusterAnchor top) else .ok leaders.head?

/-! ### The registry profile -/

structure NdpClusterSelection where
  nid : Option String := none
  epoch : Option JsDouble := none
  errorCode : Option String := none

def numberValue (frame : RawFrame) (field : String) : Option JsDouble :=
  match JsMap.find field frame with
  | some (.num n) => some n.value
  | _ => none

/-- An entry that takes part in the election. -/
def isMember (clusterAnchor : String) (now : ℤ) (entry : RegistryEntry) : Bool :=
  now < entry.expiresAt && stringValue entry.frame "cluster_anchor" = some clusterAnchor &&
    "anchor" ∈ roles entry.frame

/-- The leaders at the top epoch; where there is one, the order in which they are sorted is irrelevant. -/
def selectLeader (top : JsDouble) : List (String × JsDouble) → NdpClusterSelection
  | [leader] => { nid := some leader.1, epoch := some top }
  | _ => { errorCode := some NDP_CLUSTER_SPLIT }

def NdpRegistryProfile.resolveCluster (s : RegistryState) (clusterAnchor : String) (now : ℤ) :
    NdpClusterSelection :=
  let members := (s.entries.entries.filter fun e => isMember clusterAnchor now e.2).map fun e =>
    (e.1, (numberValue e.2.frame "cluster_epoch").getD 1)
  if members.isEmpty then {}
  else
    let top := (members.map Prod.snd).foldl JsDouble.max .negInf
    selectLeader top (members.filter fun m => m.2.eq top)

/-!
## Two resolvers of a cluster

Both registries take the same announces.  They pick the same anchor where the announces of the cluster that
they hold are live for both or for neither, those that are live have the role of an anchor, and no epoch is
below 1.
-/

/-! ### An election -/

/-- What the resolution of a cluster comes to. -/
inductive ClusterPick
  | none | anchor (nid : String) | split
  /-- The name of the cluster is refused. -/
  | refused
  deriving DecidableEq

def NdpClusterSelection.pick (selection : NdpClusterSelection) : ClusterPick :=
  match selection.errorCode, selection.nid with
  | some _, _ => .split
  | .none, some nid => .anchor nid
  | .none, .none => .none

def pickOf : Except ClusterError (Option AnnounceFrame) → ClusterPick
  | .error .emptyAnchor => .refused
  | .error (.split ..) => .split
  | .ok .none => .none
  | .ok (some f) => .anchor f.nid

/-- The greater of two epochs, as the loop of `resolveClusterFrom` keeps it. -/
def later (top epoch : JsDouble) : JsDouble := if top < epoch then epoch else top

section

variable {e top : JsDouble} {es : List JsDouble}

theorem max_eq_later (he : e ≠ .nan) (ht : top ≠ .nan) : JsDouble.max top e = later top e := by
  rw [JsDouble.max, if_neg (by simp [he, ht])]
  rfl

theorem later_ne_nan (he : e ≠ .nan) (ht : top ≠ .nan) : later top e ≠ .nan := by
  unfold later
  split
  · exact he
  · exact ht

theorem foldl_max_eq_later (ht : top ≠ .nan) (hes : ∀ e ∈ es, e ≠ .nan) :
    es.foldl JsDouble.max top = es.foldl later top := by
  induction es generalizing top with
  | nil => rfl
  | cons e es ih =>
    have he := hes e (by simp)
    rw [List.foldl_cons, List.foldl_cons, max_eq_later he ht]
    exact ih (later_ne_nan he ht) fun e' h => hes e' (List.mem_cons_of_mem _ h)

theorem foldl_later_mem : es.foldl later top ∈ top :: es := by
  induction es generalizing top with
  | nil => exact List.mem_singleton.2 rfl
  | cons e es ih =>
    rw [List.foldl_cons]
    have hmem : es.foldl later (later top e) ∈ later top e :: es := ih
    rcases List.mem_cons.1 hmem with h | h
    · rw [h]
      unfold later
      split
      · exact List.mem_cons_of_mem _ List.mem_cons_self
      · exact List.mem_cons_self
    · exact List.mem_cons_of_mem _ (List.mem_cons_of_mem _ h)

/-- **The top epoch** is the same for both, and an epoch of a member, where no epoch is below 1. -/
theorem top_eq (hne : es ≠ []) (hes : ∀ e ∈ es, (1 : JsDouble) ≤ e) :
    es.foldl JsDouble.max .negInf = es.foldl later 1 ∧ es.foldl later 1 ∈ es := by
  cases es with
  | nil => exact absurd rfl hne
  | cons e es =>
    have hnan : ∀ e' ∈ e :: es, e' ≠ .nan := fun e' h => by
      rcases JsDouble.le_iff.1 (hes e' h) with h | ⟨h, -⟩
      · exact (JsDouble.ne_nan_of_lt h).2
      · rw [← h]
        decide
    have he : e ≠ .nan := hnan e (by simp)
    have hfirst : later 1 e = e := by
      unfold later
      split
      · rfl
      · rename_i hlt
        rcases JsDouble.le_iff.1 (hes e (by simp)) with h | ⟨h, -⟩
        · exact absurd h hlt
        · exact h
    have hbottom : JsDouble.max .negInf e = e := by
      rw [max_eq_later he (by decide), later]
      split
      · rfl
      · rename_i hlt
        cases e with
        | negInf => rfl
        | nan => exact absurd rfl he
        | _ => exact absurd rfl hlt
    rw [List.foldl_cons, List.foldl_cons, hfirst, hbottom]
    exact ⟨foldl_max_eq_later he fun e' h => hnan e' (List.mem_cons_of_mem _ h), foldl_later_mem⟩

/-- The election of the profile, among members with their epochs. -/
theorem picks_agree {fs : List AnnounceFrame} {clusterAnchor : String}
    (hcluster : clusterAnchor ≠ "") (hepochs : ∀ f ∈ fs, (1 : JsDouble) ≤ f.effectiveClusterEpoch)
    (hfs : ∀ f ∈ fs, f.cluster_anchor = some clusterAnchor) {s : RegistryState} {now : ℤ}
    (hmembers : ((s.entries.entries.filter fun e => isMember clusterAnchor now e.2).map fun e =>
      (e.1, (numberValue e.2.frame "cluster_epoch").getD 1)) = fs.map fun f => (f.nid, f.effectiveClusterEpoch)) :
    (NdpRegistryProfile.resolveCluster s clusterAnchor now).pick = pickOf (resolveClusterFrom fs clusterAnchor) := by
  have hall : (fs.filter fun f => f.cluster_anchor = some clusterAnchor) = fs :=
    List.filter_eq_self.2 fun f hf => by simp [hfs f hf]
  unfold NdpRegistryProfile.resolveCluster resolveClusterFrom
  rw [hmembers, if_neg hcluster, hall]
  dsimp only
  by_cases hempty : fs = []
  · subst hempty
    rfl
  · have hne : fs.map AnnounceFrame.effectiveClusterEpoch ≠ [] := by simpa using hempty
    have hone : ∀ e ∈ fs.map AnnounceFrame.effectiveClusterEpoch, (1 : JsDouble) ≤ e := by
      intro e he
      obtain ⟨f, hf, rfl⟩ := List.mem_map.1 he
      exact hepochs f hf
    obtain ⟨htop, hmem⟩ := top_eq hne hone
    have hloop : (fs.foldl (fun top f =>
        if top < f.effectiveClusterEpoch then f.effectiveClusterEpoch else top) 1) =
          (fs.map AnnounceFrame.effectiveClusterEpoch).foldl later 1 := by
      rw [List.foldl_map]
      rfl
    rw [if_neg (by simpa using hempty), if_neg (by simpa using hempty), hloop, List.map_map]
    show (selectLeader ((fs.map AnnounceFrame.effectiveClusterEpoch).foldl JsDouble.max .negInf)
      ((fs.map fun f => (f.nid, f.effectiveClusterEpoch)).filter fun m =>
        m.2.eq ((fs.map AnnounceFrame.effectiveClusterEpoch).foldl JsDouble.max .negInf))).pick = _
    rw [htop, List.filter_map]
    generalize (fs.map AnnounceFrame.effectiveClusterEpoch).foldl later 1 = top at hmem ⊢
    -- the top epoch is that of a member, which leads
    obtain ⟨f, hf, rfl⟩ := List.mem_map.1 hmem
    have hnan : f.effectiveClusterEpoch ≠ .nan := by
      rcases JsDouble.le_iff.1 (hepochs f hf) with h | ⟨h, -⟩
      · exact (JsDouble.ne_nan_of_lt h).2
      · rw [← h]
        decide
    have hleader : f ∈ fs.filter fun g => g.effectiveClusterEpoch.eq f.effectiveClusterEpoch :=
      List.mem_filter.2 ⟨hf, by simp [JsDouble.eq, hnan]⟩
    show (selectLeader f.effectiveClusterEpoch ((fs.filter fun g =>
      g.effectiveClusterEpoch.eq f.effectiveClusterEpoch).map _)).pick = _
    rcases hleaders : fs.filter fun g => g.effectiveClusterEpoch.eq f.effectiveClusterEpoch with
      _ | ⟨g, _ | ⟨g', rest⟩⟩
    · rw [hleaders] at hleader
      cases hleader
    · rw [hleaders]
      rfl
    · rw [hleaders, if_pos (by simp)]
      rfl

end

/-! ### Two registries that take the same announces -/

structure Delivery where
  frame : AnnounceFrame
  signatureValid : Bool
  receivedAt : ℤ

namespace AnnounceFrame

/-- The members of a frame that is sent, defined or not. -/
def fields (f : AnnounceFrame) : List (String × Option JsValue) :=
  f.unsignedFields ++ [("signature", some (.str f.signature)), ("health", f.health.map .str),
    ("last_seen", f.last_seen.map .str)]

theorem toDict_eq (f : AnnounceFrame) : f.toDict = defined f.fields := by
  rw [toDict, unsignedDict, fields, defined, defined, defined, List.filterMap_append]

theorem fields_nodup (f : AnnounceFrame) : (f.fields.map Prod.fst).Nodup := by
  show (SIGNED_NAMES ++ ["signature", "health", "last_seen"]).Nodup
  decide

theorem toDict_nodup (f : AnnounceFrame) : (f.toDict.map Prod.fst).Nodup := by
  rw [toDict_eq]
  exact (names_defined _).nodup f.fields_nodup

theorem find_toDict (f : AnnounceFrame) (k : String) : JsMap.find k f.toDict = (JsMap.find k f.fields).join := by
  rw [toDict_eq]
  exact find_defined f.fields_nodup k

theorem nid_toDict (f : AnnounceFrame) : stringValue f.toDict "nid" = some f.nid := by
  rw [stringValue, find_toDict]
  rfl

theorem ttl_toDict (f : AnnounceFrame) : JsMap.find "ttl" f.toDict = some (.num f.ttl) := by
  rw [find_toDict]
  rfl

theorem cluster_anchor_toDict (f : AnnounceFrame) : stringValue f.toDict "cluster_anchor" = f.cluster_anchor := by
  have hfind : (JsMap.find "cluster_anchor" f.fields).join = f.cluster_anchor.map JsValue.str := rfl
  rw [stringValue, find_toDict, hfind]
  cases f.cluster_anchor <;> rfl

theorem cluster_epoch_toDict (f : AnnounceFrame) :
    (numberValue f.toDict "cluster_epoch").getD 1 = f.effectiveClusterEpoch := by
  have hfind : JsMap.find "cluster_epoch" f.toDict = f.cluster_epoch.map .num := by
    rw [find_toDict]
    rfl
  rw [numberValue, hfind, effectiveClusterEpoch]
  cases f.cluster_epoch <;> rfl

theorem roles_toDict (f : AnnounceFrame) : roles f.toDict = f.node_roles.getD [] := by
  have hfind : JsMap.find "node_roles" f.toDict = f.node_roles.map .strings := by
    rw [find_toDict]
    rfl
  rw [roles, strings, hfind]
  cases f.node_roles with
  | none => rfl
  | some names => simp [JsValue.strings, List.filterMap_map]

end AnnounceFrame

/-- The announce that the profile reads. -/
def Delivery.announce (d : Delivery) : Announce :=
  { frame := d.frame.toDict, names := d.frame.toDict_nodup, signatureValid := d.signatureValid,
    receivedAt := d.receivedAt }

/-- A decision by which the profile takes an announce. -/
def NdpRegistryDecision.takes : NdpRegistryDecision → Bool
  | .accepted | .refreshed | .removed => true
  | _ => false

theorem takes_accepted : NdpRegistryDecision.accepted.takes = true := rfl
theorem takes_refreshed : NdpRegistryDecision.refreshed.takes = true := rfl
theorem takes_removed : NdpRegistryDecision.removed.takes = true := rfl

structure Registries where
  profile : RegistryState := {}
  memory : InMemoryNdpRegistry := .empty

variable (p : NdpRegistryProfile)

def Registries.step (r : Registries) (d : Delivery) : Registries :=
  let (admission, profile) := p.applyAnnounce r.profile d.announce
  { profile
    memory := if admission.decision.takes then r.memory.announce d.receivedAt d.frame else r.memory }

def registriesAfter (ds : List Delivery) : Registries := run (Registries.step p) {} ds

variable {p} {r : Registries} {d : Delivery} {ds : List Delivery} {s : RegistryState} {a : Announce}

theorem registriesAfter_snoc : registriesAfter p (ds ++ [d]) = (registriesAfter p ds).step p d := run_snoc

theorem profile_registriesAfter : (registriesAfter p ds).profile = p.after (ds.map Delivery.announce) := by
  induction ds using List.reverseRecOn with
  | nil => rfl
  | append_singleton ds d ih =>
    rw [registriesAfter_snoc, List.map_append, List.map_singleton, NdpRegistryProfile.after_snoc, ← ih]
    rfl

/-! ### Lifetimes -/

theorem value_of_natOf {n : JsNumber} {k : ℕ} (h : natOf n = some k) : n.value = .fin k := by
  unfold natOf at h
  split at h
  · rename_i hdigits
    cases h
    rw [JsNumber.value, readDecimal_digits n.nonempty hdigits]
    rfl
  · cases h

theorem value_of_unsignedInteger {n : JsNum} {maximum k : ℕ}
    (h : unsignedInteger (some (.num n)) maximum = some k) : n.value = .fin k := by
  cases n with
  | finite n => exact value_of_natOf (Option.filter_eq_some_iff.1 h).1
  | _ => cases h

/-- The lifetime of an announce that is accepted is not 0, that of a removal is. -/
theorem ttl_of_decision (hnew : (p.applyAnnounce s a).1.decision = .accepted ∨
      (p.applyAnnounce s a).1.decision = .removed) :
    ∃ ttl, unsignedInteger (JsMap.find "ttl" a.frame) 0xffffffff = some ttl ∧
      (ttl = 0 ↔ (p.applyAnnounce s a).1.decision = .removed) := by
  have hadvance : ∀ nid sequence ttl, (p.advance s a nid sequence ttl).1.decision = .accepted ∨
      (p.advance s a nid sequence ttl).1.decision = .removed →
        (ttl = 0 ↔ (p.advance s a nid sequence ttl).1.decision = .removed) := by
    intro nid sequence ttl h
    unfold NdpRegistryProfile.advance at h ⊢
    split
    · rename_i httl
      simp [httl]
    · rename_i httl
      rw [if_neg httl] at h
      split at h
      · simp [reject] at h
      · simp [httl]
  have hrefresh : ∀ nid, ¬ ((p.refresh s a nid).1.decision = .accepted ∨
      (p.refresh s a nid).1.decision = .removed) := by
    intro nid h
    unfold NdpRegistryProfile.refresh at h
    split at h
    · simp at h
    split at h
    · simp [reject] at h
    split at h
    · simp at h
    split at h
    · simp [reject] at h
    · simp at h
  unfold NdpRegistryProfile.applyAnnounce at hnew ⊢
  split at hnew
  · simp [reject] at hnew
  rename_i nid sequence ttl had
  refine ⟨ttl, NdpRegistryProfile.ttl_of_admissible had, ?_⟩
  split at hnew
  · exact hadvance nid sequence ttl hnew
  split at hnew
  · simp [reject] at hnew
  rename_i hlt
  split at hnew
  · exact absurd hnew (hrefresh nid)
  · rename_i hne
    simp only [hlt, hne, if_false]
    exact hadvance nid sequence ttl hnew

/-! ### What both hold -/

/-- An entry of the profile and one of the other registry hold the same announce. -/
structure Holds (ds : List Delivery) (entry : String × RegistryEntry) (held : String × InMemoryEntry) :
    Prop where
  nid : entry.1 = held.1
  frame : entry.2.frame = held.2.frame.toDict
  own : held.2.frame.nid = held.1
  live : held.2.frame.ttl.value.eq 0 = false
  delivered : ∃ d ∈ ds, d.frame = held.2.frame

/-- **The invariant**: both registries hold the same announces, in the same order. -/
def Mirrors (ds : List Delivery) (r : Registries) : Prop :=
  List.Forall₂ (Holds ds) r.profile.entries.entries r.memory.entries

theorem Holds.later {entry : String × RegistryEntry} {held : String × InMemoryEntry}
    (h : Holds ds entry held) : Holds (ds ++ [d]) entry held where
  nid := h.nid
  frame := h.frame
  own := h.own
  live := h.live
  delivered := by
    obtain ⟨d', hd', hframe⟩ := h.delivered
    exact ⟨d', List.mem_append_left _ hd', hframe⟩

theorem Mirrors.later (h : Mirrors ds r) : Mirrors (ds ++ [d]) r :=
  List.Forall₂.imp (fun _ _ => Holds.later) h

variable {es : List (String × RegistryEntry)} {entry : RegistryEntry} {nid : String}

theorem forall₂_upsert {held : List (String × InMemoryEntry)}
    {mem : InMemoryEntry} (h : List.Forall₂ (Holds ds) es held) (hnew : Holds ds (nid, entry) (nid, mem)) :
    List.Forall₂ (Holds ds) (JsMap.upsert nid entry es) (JsMap.upsert nid mem held) := by
  induction h with
  | nil => exact .cons hnew .nil
  | cons hhead htail ih =>
    rename_i a b l l'
    obtain ⟨k, e⟩ := a
    obtain ⟨k', m⟩ := b
    obtain rfl : k = k' := hhead.nid
    by_cases hk : k = nid
    · subst hk
      simp only [JsMap.upsert, if_true]
      exact .cons hnew htail
    · simp only [JsMap.upsert, hk, if_false]
      exact .cons hhead ih

theorem Mirrors.set {mem : InMemoryEntry} {sequences : JsMap String ℕ}
    (h : Mirrors ds r) (hnew : Holds ds (nid, entry) (nid, mem)) :
    Mirrors ds { profile := { entries := r.profile.entries.set nid entry, sequences },
                 memory := r.memory.set nid mem } := forall₂_upsert h hnew

theorem Mirrors.delete {sequences : JsMap String ℕ} (h : Mirrors ds r) :
    Mirrors ds { profile := { entries := r.profile.entries.delete nid, sequences },
                 memory := r.memory.delete nid } := by
  refine List.rel_filter (fun a b hab => ?_) h
  show decide (a.1 ≠ nid) = true ↔ decide (b.1 ≠ nid) = true
  rw [hab.nid]

theorem forall₂_mem {held : List (String × InMemoryEntry)}
    (h : List.Forall₂ (Holds ds) es held) {e : String × RegistryEntry} (he : e ∈ es) : ∃ m ∈ held, Holds ds e m := by
  induction h with
  | nil => cases he
  | cons hhead _ ih =>
    rcases List.mem_cons.1 he with rfl | he
    · exact ⟨_, List.mem_cons_self, hhead⟩
    · obtain ⟨m, hm, hholds⟩ := ih he
      exact ⟨m, List.mem_cons_of_mem _ hm, hholds⟩

theorem Mirrors.held (h : Mirrors ds r)
    (hentry : r.profile.entries.get nid = some entry) : ∃ mem, Holds ds (nid, entry) (nid, mem) := by
  obtain ⟨⟨nid', mem⟩, -, hholds⟩ := forall₂_mem h ((JsMap.mem_entries_iff _ _ _).2 hentry)
  obtain rfl : nid = nid' := hholds.nid
  exact ⟨mem, hholds⟩

/-- No two announces of a sequence that differ have one digest. -/
def NoCollision (p : NdpRegistryProfile) (ds : List Delivery) : Prop :=
  ∀ d ∈ ds, ∀ d' ∈ ds, p.digestOf d.frame.toDict = p.digestOf d'.frame.toDict →
    canonicalAnnounceJson d.frame.toDict = canonicalAnnounceJson d'.frame.toDict

theorem live_of_ttl {f : AnnounceFrame} {ttl : ℕ}
    (httl : unsignedInteger (JsMap.find "ttl" f.toDict) 0xffffffff = some ttl) :
    f.ttl.value.eq 0 = decide (ttl = 0) := by
  rw [f.ttl_toDict] at httl
  rw [value_of_unsignedInteger httl]
  show (JsDouble.fin ttl).eq (.fin 0) = _
  simp [JsDouble.eq]

theorem Mirrors.live_of_refresh {current : RegistryEntry} {expiresAt : ℤ} (h : Mirrors ds r)
    (hr : r.profile = p.after (ds.map Delivery.announce)) (hno : NoCollision p (ds ++ [d]))
    (hrefresh : p.Refreshes r.profile d.announce d.frame.nid current expiresAt) : d.frame.ttl.value.eq 0 = false := by
  obtain ⟨mem, hheld⟩ := h.held hrefresh.entry
  obtain ⟨d', hd', hframe⟩ := hheld.delivered
  have hcurrent : current.frame = d'.frame.toDict := hheld.frame.trans (by rw [hframe])
  have hentered : NdpRegistryProfile.Entered p current :=
    NdpRegistryProfile.entered (ds.map Delivery.announce) (hr ▸ hrefresh.entry)
  have hdigest : p.digestOf d'.frame.toDict = p.digestOf d.frame.toDict := by
    rw [← hcurrent, ← hentered.digest]
    exact hrefresh.digest
  have hcanonical := hno d' (List.mem_append_left _ hd') d (by simp) hdigest
  obtain ⟨n, hn⟩ := hentered.ttl_finite
  obtain ⟨ttl, had⟩ := hrefresh.admitted
  have httl := NdpRegistryProfile.ttl_of_admissible had
  cases hfinite : d.frame.ttl with
  | finite m =>
    rw [hcurrent] at hn
    have hm : JsMap.find "ttl" d.frame.toDict = some (.num (.finite m)) := by
      rw [d.frame.ttl_toDict, hfinite]
    have heq : n = m := NdpRegistryProfile.ttl_of_canonical d'.frame.toDict_nodup d.frame.toDict_nodup
      hcanonical hn hm
    rw [d'.frame.ttl_toDict, hframe, Option.some.injEq, JsValue.num.injEq] at hn
    have hlive := hheld.live
    rw [hn, heq] at hlive
    exact hlive
  | _ =>
    have httl' : unsignedInteger (JsMap.find "ttl" d.frame.toDict) 0xffffffff = some ttl := httl
    rw [d.frame.ttl_toDict, hfinite] at httl'
    cases httl'

theorem delivered_self : ∃ d' ∈ ds ++ [d], d'.frame = d.frame := ⟨d, by simp, rfl⟩

/-- **One delivery** keeps the two registries alike. -/
theorem Mirrors.step (h : Mirrors ds r) (hr : r.profile = p.after (ds.map Delivery.announce))
    (hno : NoCollision p (ds ++ [d])) : Mirrors (ds ++ [d]) (r.step p d) := by
  have hown : stringValue d.announce.frame "nid" = some d.frame.nid := d.frame.nid_toDict
  have hstep : r.step p d = ⟨p.step r.profile d.announce,
      if (p.applyAnnounce r.profile d.announce).1.decision.takes then
        r.memory.announce d.receivedAt d.frame
      else r.memory⟩ := rfl
  cases NdpRegistryProfile.effect p r.profile d.announce with
  | unchanged decision same =>
    have htakes : (p.applyAnnounce r.profile d.announce).1.decision.takes = false := by
      rcases decision with hd | hd <;> rw [hd] <;> rfl
    rw [hstep, same, htakes, if_neg (by simp)]
    exact h.later
  | refreshed nid entry decision frame current live entries sequences =>
    have hisRefresh : p.IsRefresh r.profile d.announce d.frame.nid := ⟨hown, decision⟩
    obtain ⟨current, expiresAt, hrefresh⟩ := hisRefresh.refreshes
    have hlive := h.live_of_refresh hr hno hrefresh
    rw [hstep, decision, hrefresh.step_eq, if_pos takes_refreshed, InMemoryNdpRegistry.announce,
      if_neg (by simp [hlive])]
    exact h.later.set ⟨rfl, rfl, rfl, hlive, delivered_self⟩
  | removed nid isNid decision above entries sequences =>
    obtain rfl : nid = d.frame.nid := Option.some.inj (isNid.symm.trans hown)
    obtain ⟨ttl, httl, hzero⟩ := ttl_of_decision (.inr decision)
    have hlive : d.frame.ttl.value.eq 0 = true := by
      rw [live_of_ttl httl, decide_eq_true (hzero.2 decision)]
    rw [hstep, decision, if_pos takes_removed, InMemoryNdpRegistry.announce, if_pos hlive]
    have hprofile : p.step r.profile d.announce = ⟨r.profile.entries.delete d.frame.nid,
        r.profile.sequences.set d.frame.nid (NdpRegistryProfile.sequenceOf d.announce.frame)⟩ := by
      rw [← entries, ← sequences]
    rw [hprofile]
    exact h.later.delete
  | accepted nid entry isNid decision frame above entries sequences =>
    obtain rfl : nid = d.frame.nid := Option.some.inj (isNid.symm.trans hown)
    obtain ⟨ttl, httl, hzero⟩ := ttl_of_decision (.inl decision)
    have hne : ttl ≠ 0 := fun h0 => absurd (decision.symm.trans (hzero.1 h0)) (by decide)
    have hlive : d.frame.ttl.value.eq 0 = false := by
      rw [live_of_ttl httl, decide_eq_false hne]
    rw [hstep, decision, if_pos takes_accepted, InMemoryNdpRegistry.announce, if_neg (by simp [hlive])]
    have hprofile : p.step r.profile d.announce = ⟨r.profile.entries.set d.frame.nid entry,
        r.profile.sequences.set d.frame.nid (NdpRegistryProfile.sequenceOf d.announce.frame)⟩ := by
      rw [← entries, ← sequences]
    rw [hprofile]
    exact h.later.set ⟨rfl, frame, rfl, hlive, delivered_self⟩

theorem NoCollision.init (h : NoCollision p (ds ++ [d])) : NoCollision p ds := fun d₁ h₁ d₂ h₂ =>
  h d₁ (List.mem_append_left _ h₁) d₂ (List.mem_append_left _ h₂)

/-- **After every sequence of announces** the two registries hold the same. -/
theorem mirrors (hno : NoCollision p ds) : Mirrors ds (registriesAfter p ds) := by
  induction ds using List.reverseRecOn with
  | nil => exact .nil
  | append_singleton ds d ih =>
    rw [registriesAfter_snoc]
    exact (ih hno.init).step profile_registriesAfter hno

/-! ### The elections -/

/-- What the profile and the other registry hold of a cluster counts for both or for neither. -/
structure Alike (r : Registries) (clusterAnchor : String) (now : ℤ) : Prop where
  named : clusterAnchor ≠ ""
  live : ∀ nid entry mem, r.profile.entries.get nid = some entry → r.memory.get nid = some mem →
    mem.frame.cluster_anchor = some clusterAnchor →
      ((now < entry.expiresAt ∧ "anchor" ∈ mem.frame.node_roles.getD []) ↔
        ¬ InMemoryNdpRegistry.isExpired now mem)
  epoch : ∀ nid mem, r.memory.get nid = some mem → mem.frame.cluster_anchor = some clusterAnchor →
    ¬ InMemoryNdpRegistry.isExpired now mem → (1 : JsDouble) ≤ mem.frame.effectiveClusterEpoch

def inCluster (clusterAnchor : String) (now : ℤ) (mem : InMemoryEntry) : Bool :=
  !InMemoryNdpRegistry.isExpired now mem && mem.frame.cluster_anchor = some clusterAnchor

variable {clusterAnchor : String}

theorem isMember_eq {now : ℤ} {entry : String × RegistryEntry}
    {held : String × InMemoryEntry} (h : Holds ds entry held) (hr : Alike r clusterAnchor now)
    (hentry : entry ∈ r.profile.entries.entries) (hheld : held ∈ r.memory.entries) :
    isMember clusterAnchor now entry.2 = inCluster clusterAnchor now held.2 := by
  have hget := (JsMap.mem_entries_iff _ _ _).1 hentry
  have hget' := (JsMap.mem_entries_iff _ _ _).1 hheld
  rw [h.nid] at hget
  rw [isMember, inCluster, h.frame, AnnounceFrame.cluster_anchor_toDict, AnnounceFrame.roles_toDict]
  by_cases hcluster : held.2.frame.cluster_anchor = some clusterAnchor
  · have hiff := hr.live _ _ _ hget hget' hcluster
    rw [Bool.eq_iff_iff]
    simp only [hcluster, decide_true, Bool.and_true, Bool.and_eq_true, decide_eq_true_eq, Bool.not_eq_true']
    rw [hiff]
    exact Bool.not_eq_true _ ▸ Iff.rfl
  · simp [hcluster]

theorem members_eq {now : ℤ} {held : List (String × InMemoryEntry)} (h : List.Forall₂ (Holds ds) es held)
    (hsame : ∀ e ∈ es, ∀ m ∈ held, Holds ds e m → isMember clusterAnchor now e.2 = inCluster clusterAnchor now m.2) :
    ((es.filter fun e => isMember clusterAnchor now e.2).map fun e =>
      (e.1, (numberValue e.2.frame "cluster_epoch").getD 1)) =
        ((held.filter fun m => inCluster clusterAnchor now m.2).map fun m => m.2.frame).map fun f =>
          (f.nid, f.effectiveClusterEpoch) := by
  induction h with
  | nil => rfl
  | @cons e m es held hhead htail ih =>
    have ih := ih fun e' he' m' hm' => hsame e' (List.mem_cons_of_mem _ he') m' (List.mem_cons_of_mem _ hm')
    have hmember := hsame e List.mem_cons_self m List.mem_cons_self hhead
    rw [List.filter_cons, List.filter_cons, hmember]
    split
    · rw [List.map_cons, List.map_cons, List.map_cons, ih, hhead.nid, hhead.frame, hhead.own,
        AnnounceFrame.cluster_epoch_toDict]
    · exact ih

theorem filter_getAll {store : InMemoryNdpRegistry} {now : ℤ} :
    ((store.getAll now).1.filter fun f => f.cluster_anchor = some clusterAnchor) =
      (store.entries.filter fun m => inCluster clusterAnchor now m.2).map fun m => m.2.frame := by
  show ((((store.entries.filter fun e => !InMemoryNdpRegistry.isExpired now e.2).map Prod.snd).map
    InMemoryEntry.frame).filter _) = _
  rw [List.map_map, List.filter_map, List.filter_filter]
  congr 1
  refine List.filter_congr fun m _ => ?_
  rw [inCluster, Bool.and_comm]
  rfl

theorem resolveClusterFrom_filter {fs : List AnnounceFrame} :
    resolveClusterFrom (fs.filter fun f => f.cluster_anchor = some clusterAnchor) clusterAnchor =
      resolveClusterFrom fs clusterAnchor := by
  simp only [resolveClusterFrom, List.filter_filter, Bool.and_self]

/-- **The two resolvers agree**, at every instant after every sequence of announces, where what they hold of
the cluster counts for both or for neither. -/
theorem resolvers_agree (p : NdpRegistryProfile) (ds : List Delivery) (hno : NoCollision p ds)
    (clusterAnchor : String) (now : ℤ) (halike : Alike (registriesAfter p ds) clusterAnchor now) :
    (NdpRegistryProfile.resolveCluster (registriesAfter p ds).profile clusterAnchor now).pick =
      pickOf (resolveClusterFrom ((registriesAfter p ds).memory.getAll now).1 clusterAnchor) := by
  have hmirrors : Mirrors ds (registriesAfter p ds) := mirrors hno
  have hmembers := members_eq hmirrors fun e he m hm hholds => isMember_eq hholds halike he hm
  rw [← resolveClusterFrom_filter, filter_getAll]
  have hin : ∀ f ∈ ((registriesAfter p ds).memory.entries.filter fun m =>
      inCluster clusterAnchor now m.2).map fun m => m.2.frame,
      (1 : JsDouble) ≤ f.effectiveClusterEpoch ∧ f.cluster_anchor = some clusterAnchor := by
    intro f hf
    obtain ⟨⟨nid, mem⟩, hmem, rfl⟩ := List.mem_map.1 hf
    obtain ⟨hheld, hcluster⟩ := List.mem_filter.1 hmem
    simp only [inCluster, Bool.and_eq_true, Bool.not_eq_true', decide_eq_true_eq] at hcluster
    have hget := (JsMap.mem_entries_iff _ _ _).1 hheld
    exact ⟨halike.epoch nid mem hget hcluster.2 (by simp [hcluster.1]), hcluster.2⟩
  exact picks_agree halike.named (fun f hf => (hin f hf).1) (fun f hf => (hin f hf).2) hmembers

/-! ### A cluster of two -/

def anchorFrame (nid : String) (epoch : Option JsNum) : AnnounceFrame where
  nid
  addresses := []
  capabilities := []
  ttl := .finite (.ofNat 60)
  timestamp := "2026-07-29T12:00:00Z"
  signature := "ed25519:AA"
  node_roles := some ["anchor"]
  cluster_anchor := some "urn:nps:cluster:api.test:main"
  cluster_epoch := epoch
  graph_seq := some (.finite (.ofNat 1))

/-- The first anchor of the cluster has no epoch. -/
def firstAnchor : Delivery where
  frame := anchorFrame "urn:nps:node:api.test:a" none
  signatureValid := true
  receivedAt := 1785326400000

def secondAnchor : Delivery where
  frame := anchorFrame "urn:nps:node:api.test:b" (some (.finite (.ofNat 2)))
  signatureValid := true
  receivedAt := 1785326405000

def clusterProfile : NdpRegistryProfile where
  dateParse text := if text = "2026-07-29T12:00:00Z" then some 1785326400000 else none
  sha256 text :=
    if text = "\x7b\"addresses\":[],\"capabilities\":[]," ++
        "\"cluster_anchor\":\"urn:nps:cluster:api.test:main\"," ++
        "\"graph_seq\":1,\"heartbeat_interval_ms\":60000,\"nid\":\"urn:nps:node:api.test:a\"," ++
        "\"node_roles\":[\"anchor\"],\"timestamp\":\"2026-07-29T12:00:00Z\",\"ttl\":60\x7d" then
      "d32616ff7a690abdccf1cf382a13f0c77b274af03bce2d861a11714d2ad9a564"
    else if text = "\x7b\"addresses\":[],\"capabilities\":[]," ++
        "\"cluster_anchor\":\"urn:nps:cluster:api.test:main\",\"cluster_epoch\":2," ++
        "\"graph_seq\":1,\"heartbeat_interval_ms\":60000,\"nid\":\"urn:nps:node:api.test:b\"," ++
        "\"node_roles\":[\"anchor\"],\"timestamp\":\"2026-07-29T12:00:00Z\",\"ttl\":60\x7d" then
      "6d37f5e6aee8ffe6ce106b6b8b414a00c13b58771d2b8443d544c65d35df6e3d"
    else ""

theorem canonical_of_pieces {f : RawFrame} {a b c d : List Char}
    (h : (sortObject (.obj (signedMembers f))).json.text = a ++ b ++ c ++ d) :
    canonicalAnnounceJson f = String.ofList a ++ String.ofList b ++ String.ofList c ++ String.ofList d := by
  rw [canonicalAnnounceJson, h, String.ofList_append, String.ofList_append, String.ofList_append]

theorem canonical_firstAnchor : canonicalAnnounceJson firstAnchor.frame.toDict =
    "\x7b\"addresses\":[],\"capabilities\":[]," ++ "\"cluster_anchor\":\"urn:nps:cluster:api.test:main\"," ++
      "\"graph_seq\":1,\"heartbeat_interval_ms\":60000,\"nid\":\"urn:nps:node:api.test:a\"," ++
      "\"node_roles\":[\"anchor\"],\"timestamp\":\"2026-07-29T12:00:00Z\",\"ttl\":60\x7d" := by
  refine @canonical_of_pieces firstAnchor.frame.toDict _ _ _ _ ?_
  decide +kernel

theorem canonical_secondAnchor : canonicalAnnounceJson secondAnchor.frame.toDict =
    "\x7b\"addresses\":[],\"capabilities\":[]," ++
      "\"cluster_anchor\":\"urn:nps:cluster:api.test:main\",\"cluster_epoch\":2," ++
      "\"graph_seq\":1,\"heartbeat_interval_ms\":60000,\"nid\":\"urn:nps:node:api.test:b\"," ++
      "\"node_roles\":[\"anchor\"],\"timestamp\":\"2026-07-29T12:00:00Z\",\"ttl\":60\x7d" := by
  refine @canonical_of_pieces secondAnchor.frame.toDict _ _ _ _ ?_
  decide +kernel

theorem digest_firstAnchor : clusterProfile.digestOf firstAnchor.frame.toDict =
    "d32616ff7a690abdccf1cf382a13f0c77b274af03bce2d861a11714d2ad9a564" := by
  show clusterProfile.sha256 (canonicalAnnounceJson firstAnchor.frame.toDict) = _
  rw [canonical_firstAnchor]
  unfold clusterProfile
  dsimp only
  rw [if_pos rfl]

theorem digest_secondAnchor : clusterProfile.digestOf secondAnchor.frame.toDict =
    "6d37f5e6aee8ffe6ce106b6b8b414a00c13b58771d2b8443d544c65d35df6e3d" := by
  show clusterProfile.sha256 (canonicalAnnounceJson secondAnchor.frame.toDict) = _
  rw [canonical_secondAnchor]
  unfold clusterProfile
  dsimp only
  rw [if_neg (by decide +kernel), if_pos rfl]

theorem cluster_noCollision : NoCollision clusterProfile [firstAnchor, secondAnchor] := by
  have hdiffer : clusterProfile.digestOf firstAnchor.frame.toDict ≠
      clusterProfile.digestOf secondAnchor.frame.toDict := by
    rw [digest_firstAnchor, digest_secondAnchor]
    decide
  intro d hd d' hd' hdigest
  simp only [List.mem_cons, List.not_mem_nil, or_false] at hd hd'
  rcases hd with rfl | rfl <;> rcases hd' with rfl | rfl
  · rfl
  · exact absurd hdigest hdiffer
  · exact absurd hdigest.symm hdiffer
  · rfl
theorem cluster_held :
    (∀ e ∈ (registriesAfter clusterProfile [firstAnchor, secondAnchor]).profile.entries.entries,
      1785326430000 < e.2.expiresAt) ∧
    (∀ m ∈ (registriesAfter clusterProfile [firstAnchor, secondAnchor]).memory.entries,
      "anchor" ∈ m.2.frame.node_roles.getD [] ∧
        ¬ InMemoryNdpRegistry.isExpired 1785326430000 m.2 ∧ (1 : JsDouble) ≤ m.2.frame.effectiveClusterEpoch) ∧
    (NdpRegistryProfile.resolveCluster (registriesAfter clusterProfile [firstAnchor, secondAnchor]).profile
      "urn:nps:cluster:api.test:main" 1785326430000).pick = .anchor "urn:nps:node:api.test:b" := by
  decide +kernel

theorem cluster_expiring :
    (NdpRegistryProfile.resolveCluster (registriesAfter clusterProfile [firstAnchor]).profile
      "urn:nps:cluster:api.test:main" 1785326460000).pick = .none ∧
    pickOf (resolveClusterFrom ((registriesAfter clusterProfile [firstAnchor]).memory.getAll 1785326460000).1
      "urn:nps:cluster:api.test:main") = .anchor "urn:nps:node:api.test:a" := by decide +kernel

/-- At the instant an anchor expires, one registry picks it and the other none. -/
theorem expiry_instant_disagrees : ¬ ∀ (p : NdpRegistryProfile) (ds : List Delivery), NoCollision p ds →
    ∀ (clusterAnchor : String) (now : ℤ),
      (NdpRegistryProfile.resolveCluster (registriesAfter p ds).profile clusterAnchor now).pick =
        pickOf (resolveClusterFrom ((registriesAfter p ds).memory.getAll now).1 clusterAnchor) := by
  intro h
  have hno : NoCollision clusterProfile [firstAnchor] := by
    intro d hd d' hd' _
    rw [List.mem_singleton.1 hd, List.mem_singleton.1 hd']
  have hagree := h clusterProfile [firstAnchor] hno "urn:nps:cluster:api.test:main" 1785326460000
  rw [cluster_expiring.1, cluster_expiring.2] at hagree
  exact absurd hagree (by decide)

/-- While both anchors live, both registries pick the one with the higher epoch. -/
theorem both_pick_second :
    pickOf (resolveClusterFrom
      ((registriesAfter clusterProfile [firstAnchor, secondAnchor]).memory.getAll 1785326430000).1
      "urn:nps:cluster:api.test:main") = .anchor "urn:nps:node:api.test:b" := by
  have halike : Alike (registriesAfter clusterProfile [firstAnchor, secondAnchor])
      "urn:nps:cluster:api.test:main" 1785326430000 := by
    obtain ⟨hprofile, hmemory, -⟩ := cluster_held
    refine ⟨by decide, fun nid entry mem hentry hmem _ => ?_, fun nid mem hmem _ _ => ?_⟩
    · have hlive := hprofile (nid, entry) ((JsMap.mem_entries_iff _ _ _).2 hentry)
      obtain ⟨hrole, hlive', -⟩ := hmemory (nid, mem) ((JsMap.mem_entries_iff _ _ _).2 hmem)
      exact iff_of_true ⟨hlive, hrole⟩ hlive'
    · exact (hmemory (nid, mem) ((JsMap.mem_entries_iff _ _ _).2 hmem)).2.2
  rw [← resolvers_agree clusterProfile [firstAnchor, secondAnchor] cluster_noCollision
    "urn:nps:cluster:api.test:main" 1785326430000 halike]
  exact cluster_held.2.2

end NpsSdk.Ndp
