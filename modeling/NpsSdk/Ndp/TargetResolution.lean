import NpsSdk.Ndp.ClusterAgreement

/-!
# Resolving a target

`resolve` of `InMemoryNdpRegistry` gives the first live frame that covers a target and has an address.  Which
of them is the first is a matter of the order of the announces, except where they all answer the same.
-/

namespace NpsSdk.Ndp

open NpsSdk.Lib

structure NdpResolveResult where
  host : String
  port : JsNum
  ttl : JsNum
  deriving DecidableEq

/-- Does the node `urn:nps:node:{authority}:{path}` cover the target `nwp://{authority}/{path}`? -/
def nwpTargetMatchesNid (nid target : String) : Bool :=
  match split nid ':' with
  | urn :: nps :: node :: nidAuthority :: nidPath :: _ =>
    if urn ≠ "urn" ∨ nps ≠ "nps" ∨ node ≠ "node" then false
    else if ¬ startsWith target "nwp://" then false
    else
      let rest := target.toList.drop 6
      match rest.dropWhile (· ≠ '/') with
      | [] => false
      | _ :: urlPath =>
        if String.ofList (rest.takeWhile (· ≠ '/')) ≠ nidAuthority then false
        else String.ofList urlPath == nidPath || startsWith (String.ofList urlPath) (nidPath ++ "/")
  | _ => false

/-- The first address of a frame. -/
def AnnounceFrame.resolved (f : AnnounceFrame) : Option NdpResolveResult :=
  f.addresses.head?.map fun addr => { host := addr.host, port := addr.port, ttl := f.ttl }

/-- The scan over the entries: its answer, and the expired entries on the way. -/
def resolveFrom (now : ℤ) (target : String) :
    List (String × InMemoryEntry) → Option NdpResolveResult × List String
  | [] => (none, [])
  | (nid, entry) :: rest =>
    if InMemoryNdpRegistry.isExpired now entry then
      ((resolveFrom now target rest).1, nid :: (resolveFrom now target rest).2)
    else if ¬ nwpTargetMatchesNid nid target then resolveFrom now target rest
    else
      match entry.frame.resolved with
      | none => resolveFrom now target rest
      | some result => (some result, [])

def InMemoryNdpRegistry.resolve (store : InMemoryNdpRegistry) (now : ℤ) (target : String) :
    Option NdpResolveResult × InMemoryNdpRegistry :=
  let (result, expired) := resolveFrom now target store.entries
  (result, store.filterKeys fun nid => decide (nid ∉ expired))

/-- The registry after announces, removals among them, at one clock reading. -/
def storeAfter (clock : ℤ) (fs : List AnnounceFrame) : InMemoryNdpRegistry :=
  run (fun store f => InMemoryNdpRegistry.announce store clock f) JsMap.empty fs

/-- The live frames, in the order of the registry. -/
def liveFrames (clock now : ℤ) (fs : List AnnounceFrame) : List AnnounceFrame :=
  ((storeAfter clock fs).getAll now).1

/-- What a frame answers for a target, where it covers it. -/
def AnnounceFrame.answer (f : AnnounceFrame) (target : String) : Option NdpResolveResult :=
  if nwpTargetMatchesNid f.nid target then f.resolved else none

/-! ### The entries -/

variable {clock now : ℤ} {fs gs : List AnnounceFrame} {target : String}

def entryOf (clock : ℤ) (f : AnnounceFrame) : String × InMemoryEntry :=
  (f.nid, { frame := f, expiresAt := expiry clock f.ttl })

theorem entries_storeAfter {e : String × InMemoryEntry} (h : e ∈ (storeAfter clock fs).entries) :
    e = entryOf clock e.2.frame ∧ e.2.frame.ttl.value.eq 0 = false := by
  induction fs using List.reverseRecOn with
  | nil => cases h
  | append_singleton fs f ih =>
    rw [storeAfter, run_snoc] at h
    unfold InMemoryNdpRegistry.announce at h
    split at h
    · exact ih (List.mem_filter.1 h).1
    · rename_i hzero
      rcases JsMap.mem_upsert h with rfl | h
      · exact ⟨rfl, by simpa using hzero⟩
      · exact ih h

theorem resolveFrom_fst (es : List (String × InMemoryEntry)) (h : ∀ e ∈ es, e.1 = e.2.frame.nid) :
    (resolveFrom now target es).1 =
      ((es.filter fun e => !InMemoryNdpRegistry.isExpired now e.2).map fun e => e.2.frame).findSome?
        fun f => f.answer target := by
  induction es with
  | nil => rfl
  | cons e es ih =>
    obtain ⟨nid, entry⟩ := e
    have hrest := ih fun e he => h e (List.mem_cons_of_mem _ he)
    have hnid : nid = entry.frame.nid := h (nid, entry) (List.mem_cons_self ..)
    rw [resolveFrom, hnid]
    cases hexpired : InMemoryNdpRegistry.isExpired now entry with
    | true => simpa [hexpired] using hrest
    | false =>
      cases hmatch : nwpTargetMatchesNid entry.frame.nid target with
      | false => simpa [hexpired, hmatch, AnnounceFrame.answer] using hrest
      | true => cases hresolved : entry.frame.resolved <;> simp [hexpired, hmatch, AnnounceFrame.answer, hresolved, hrest]

theorem resolve_storeAfter : ((storeAfter clock fs).resolve now target).1 =
    (liveFrames clock now fs).findSome? fun f => f.answer target := by
  have hnid : ∀ e ∈ (storeAfter clock fs).entries, e.1 = e.2.frame.nid := fun e he =>
    congrArg Prod.fst (entries_storeAfter he).1
  show (resolveFrom now target (storeAfter clock fs).entries).1 = _
  rw [resolveFrom_fst _ hnid, liveFrames, InMemoryNdpRegistry.getAll, JsMap.filter, JsMap.values, List.map_map]
  rfl

/-! ### The order of the announces -/

theorem storeAfter_entries (hnodup : (fs.map AnnounceFrame.nid).Nodup)
    (hlive : ∀ f ∈ fs, f.ttl.value.eq 0 = false) : (storeAfter clock fs).entries = fs.map (entryOf clock) := by
  have hrun : ∀ store : InMemoryNdpRegistry, run (fun store f => InMemoryNdpRegistry.announce store clock f) store fs =
      (fs.map (entryOf clock)).foldl (fun m e => m.set e.1 e.2) store := by
    induction fs with
    | nil => exact fun _ => rfl
    | cons f fs ih =>
      intro store
      have hset : InMemoryNdpRegistry.announce store clock f = store.set f.nid (entryOf clock f).2 :=
        if_neg (by simp [hlive f])
      rw [run_cons, hset]
      exact ih (List.nodup_cons.1 hnodup).2 (fun g hg => hlive g (List.mem_cons_of_mem _ hg)) _
  have hkeys : (fs.map (entryOf clock)).map Prod.fst = fs.map AnnounceFrame.nid := by
    rw [List.map_map]
    rfl
  rw [storeAfter, hrun]
  exact JsMap.ofList_entries (hkeys ▸ hnodup)

theorem liveFrames_eq (hnodup : (fs.map AnnounceFrame.nid).Nodup) (hlive : ∀ f ∈ fs,
    InMemoryNdpRegistry.isExpired now (entryOf clock f).2 = false ∧ f.ttl.value.eq 0 = false) :
    liveFrames clock now fs = fs := by
  have hunexpired : (fs.map (entryOf clock)).filter (fun e => !InMemoryNdpRegistry.isExpired now e.2) =
      fs.map (entryOf clock) := by
    rw [List.filter_eq_self]
    intro e he
    obtain ⟨f, hf, rfl⟩ := List.mem_map.1 he
    rw [(hlive f hf).1]
    rfl
  show (((storeAfter clock fs).entries.filter fun e => !InMemoryNdpRegistry.isExpired now e.2).map Prod.snd).map
    InMemoryEntry.frame = _
  rw [storeAfter_entries hnodup fun f hf => (hlive f hf).2, hunexpired, List.map_map, List.map_map]
  exact List.map_id _

theorem mem_live {f : AnnounceFrame} (h : f ∈ liveFrames clock now fs) : entryOf clock f ∈ (storeAfter clock fs).entries ∧
    InMemoryNdpRegistry.isExpired now (entryOf clock f).2 = false ∧ f.ttl.value.eq 0 = false := by
  simp only [liveFrames, InMemoryNdpRegistry.getAll, JsMap.filter, JsMap.values, List.mem_map, List.mem_filter] at h
  obtain ⟨_, ⟨e, ⟨he, hexpired⟩, rfl⟩, rfl⟩ := h
  obtain ⟨heq, hzero⟩ := entries_storeAfter he
  rw [← heq]
  exact ⟨he, by simpa using hexpired, hzero⟩

/-- The live frames with `f` before the others. -/
def moveFirst (f : AnnounceFrame) (fs : List AnnounceFrame) : List AnnounceFrame :=
  f :: fs.filter fun g => g.nid ≠ f.nid

theorem live_moveFirst {f : AnnounceFrame} (hf : f ∈ liveFrames clock now fs) :
    liveFrames clock now (moveFirst f (liveFrames clock now fs)) = moveFirst f (liveFrames clock now fs) := by
  have hmem : ∀ g ∈ moveFirst f (liveFrames clock now fs), g ∈ liveFrames clock now fs := by
    intro g hg
    rcases List.mem_cons.1 hg with rfl | hg
    · exact hf
    · exact (List.mem_filter.1 hg).1
  have hlive : ((liveFrames clock now fs).map AnnounceFrame.nid).Nodup := by
    have hsub : ((liveFrames clock now fs).map AnnounceFrame.nid).Sublist ((storeAfter clock fs).entries.map Prod.fst) := by
      have hnids : (storeAfter clock fs).entries.map Prod.fst =
          (storeAfter clock fs).entries.map fun e => e.2.frame.nid :=
        List.map_congr_left fun e he => congrArg Prod.fst (entries_storeAfter he).1
      rw [hnids, liveFrames, InMemoryNdpRegistry.getAll, JsMap.filter, JsMap.values, List.map_map, List.map_map]
      exact List.filter_sublist.map _
    exact hsub.nodup (storeAfter clock fs).nodup
  have hnodup : ((moveFirst f (liveFrames clock now fs)).map AnnounceFrame.nid).Nodup := by
    rw [moveFirst, List.map_cons, List.nodup_cons]
    refine ⟨?_, (List.filter_sublist.map _).nodup hlive⟩
    simp
  exact liveFrames_eq hnodup fun g hg => (mem_live (hmem g hg)).2

theorem mem_moveFirst {f g : AnnounceFrame} (hf : f ∈ liveFrames clock now fs) :
    g ∈ moveFirst f (liveFrames clock now fs) ↔ g ∈ liveFrames clock now fs := by
  rw [moveFirst, List.mem_cons, List.mem_filter]
  refine ⟨fun h => h.elim (fun heq => heq ▸ hf) And.left, fun hg => ?_⟩
  by_cases hnid : g.nid = f.nid
  · have hgf := (JsMap.mem_entries_iff _ _ _).1 (mem_live hg).1
    rw [hnid, (JsMap.mem_entries_iff _ _ _).1 (mem_live hf).1] at hgf
    exact .inl (congrArg InMemoryEntry.frame (Option.some.inj hgf)).symm
  · exact .inr ⟨hg, by simpa using hnid⟩

/-- **A target resolves alike in every order of the announces** that leaves the same live frames, exactly if
the live frames that cover it answer alike. -/
theorem resolve_alike_iff (clock now : ℤ) (fs : List AnnounceFrame) (target : String) :
    (∀ gs, (∀ f, f ∈ liveFrames clock now gs ↔ f ∈ liveFrames clock now fs) →
      ((storeAfter clock gs).resolve now target).1 = ((storeAfter clock fs).resolve now target).1) ↔
    ∀ f ∈ liveFrames clock now fs, ∀ g ∈ liveFrames clock now fs, ∀ a b, f.answer target = some a →
      g.answer target = some b → a = b := by
  constructor
  · intro h
    have hfirst : ∀ f ∈ liveFrames clock now fs, ∀ a, f.answer target = some a →
        ((storeAfter clock fs).resolve now target).1 = some a := by
      intro f hf a ha
      rw [← h (moveFirst f (liveFrames clock now fs)) fun g => by rw [live_moveFirst hf, mem_moveFirst hf], resolve_storeAfter,
        live_moveFirst hf, moveFirst, List.findSome?_cons_of_isSome (by rw [ha]; rfl), ha]
    intro f hf g hg a b ha hb
    have hboth := (hfirst f hf a ha).symm.trans (hfirst g hg b hb)
    exact Option.some.inj hboth
  · intro halike gs hsame
    rw [resolve_storeAfter, resolve_storeAfter]
    cases hgs : (liveFrames clock now gs).findSome? fun f => f.answer target with
    | none =>
      rw [List.findSome?_eq_none_iff] at hgs
      exact (List.findSome?_eq_none_iff.2 fun f hf => hgs f ((hsame f).2 hf)).symm
    | some a =>
      obtain ⟨f, hf, ha⟩ := List.exists_of_findSome?_eq_some hgs
      cases hfs : (liveFrames clock now fs).findSome? fun f => f.answer target with
      | none =>
        rw [List.findSome?_eq_none_iff.1 hfs f ((hsame f).1 hf)] at ha
        cases ha
      | some b =>
        obtain ⟨g, hg, hb⟩ := List.exists_of_findSome?_eq_some hfs
        rw [halike f ((hsame f).1 hf) g hg a b ha hb]

def nodeAt (nid host : String) : AnnounceFrame :=
  { anchorFrame nid none with
    addresses := [{ host, port := .finite (.ofNat 443), protocol := "nwp" }] }

def outerNode : AnnounceFrame := nodeAt "urn:nps:node:api.test:a" "outer.test"

def innerNode : AnnounceFrame := nodeAt "urn:nps:node:api.test:a/b" "inner.test"

/-- Of two nodes that cover a target, the one that is announced first answers. -/
theorem first_announced_answers : ¬ ∀ (clock now : ℤ) (fs gs : List AnnounceFrame) (target : String),
    (fs.map AnnounceFrame.nid).Nodup → fs.Perm gs → (∀ f, f ∈ liveFrames clock now gs ↔ f ∈ liveFrames clock now fs) →
      ((storeAfter clock gs).resolve now target).1 = ((storeAfter clock fs).resolve now target).1 := by
  intro h
  have hlive : ∀ fs, fs = [outerNode, innerNode] ∨ fs = [innerNode, outerNode] → liveFrames 0 0 fs = fs := by
    rintro fs (rfl | rfl) <;> exact liveFrames_eq (by decide) (by simp; decide +kernel)
  have halike := h 0 0 _ _ "nwp://api.test/a/b" (show ([outerNode, innerNode].map AnnounceFrame.nid).Nodup by decide)
    (.swap _ _ _) fun f => by
      rw [hlive _ (.inl rfl), hlive _ (.inr rfl)]
      simp [or_comm]
  revert halike
  decide +kernel

end NpsSdk.Ndp
