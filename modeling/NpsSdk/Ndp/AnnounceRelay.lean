import NpsSdk.Ndp.ClusterAgreement

/-!
# Relayed announces

An announce is sent as the JSON of its dictionary, of which `fromDict` makes a frame again.  The validator judges
that frame as it judges the one that was sent.
-/

namespace NpsSdk.Ndp

open NpsSdk.Lib

/-! ### Reading a dictionary

The casts of `fromDict` check nothing.  A dictionary with a member of another type makes no frame here. -/

def asString : JsValue → Option String
  | .str s => some s
  | _ => none

def asNumber : JsValue → Option JsNum
  | .num n => some n
  | _ => none

def asStrings : JsValue → Option (List String)
  | .arr items => items.mapM asString
  | _ => none

def asAddress : JsValue → Option NdpAddress
  | .obj members => do
    let host ← JsMap.find "host" members >>= asString
    let port ← JsMap.find "port" members >>= asNumber
    let protocol ← JsMap.find "protocol" members >>= asString
    some { host, port, protocol }
  | _ => none

def asAddresses : JsValue → Option (List NdpAddress)
  | .arr items => items.mapM asAddress
  | _ => none

variable {α : Type}

/-- `(value as T | null) ?? undefined`. -/
def nullable (cast : JsValue → Option α) : Option JsValue → Option (Option α)
  | none | some .null => some none
  | some v => (cast v).map some

/-- `value ?? other`. -/
def orElse : Option JsValue → Option JsValue → Option JsValue
  | none, other | some .null, other => other
  | value, _ => value

namespace AnnounceFrame

def fromDict (data : RawFrame) : Option AnnounceFrame := do
  let get := fun name => JsMap.find name data
  let nid ← get "nid" >>= asString
  let addresses ← get "addresses" >>= asAddresses
  let capabilities ← get "capabilities" >>= asStrings
  let ttl ← get "ttl" >>= asNumber
  let timestamp ← get "timestamp" >>= asString
  let signature ← get "signature" >>= asString
  let nodeType ← nullable asString (get "node_type")
  let node_roles ← nullable asStrings (orElse (get "node_roles") (get "node_kind"))
  let cluster_anchor ← nullable asString (get "cluster_anchor")
  let spawn_spec_ref ← nullable asString (get "spawn_spec_ref")
  let bridge_protocols ← nullable asStrings (get "bridge_protocols")
  let activation_mode ← nullable asString (get "activation_mode")
  let activation_endpoint ← nullable asAddress (get "activation_endpoint")
  let heartbeat ← nullable asNumber (get "heartbeat_interval_ms")
  let health ← nullable asString (get "health")
  let last_seen ← nullable asString (get "last_seen")
  let cluster_epoch ← nullable asNumber (get "cluster_epoch")
  let bridge_inbound_protocols ← nullable asStrings (get "bridge_inbound_protocols")
  let graph_seq ← nullable asNumber (get "graph_seq")
  some {
    nid, addresses, capabilities, ttl, timestamp, signature, nodeType, node_roles, cluster_anchor, spawn_spec_ref,
    bridge_protocols, activation_mode, activation_endpoint, health, last_seen, cluster_epoch,
    bridge_inbound_protocols, graph_seq
    heartbeat_interval_ms := heartbeat.getD (.finite DEFAULT_HEARTBEAT) }

/-- `AnnounceFrame.fromDict(JSON.parse(JSON.stringify(frame.toDict())))`. -/
def relayed (f : AnnounceFrame) : Option AnnounceFrame :=
  match (JsValue.obj f.toDict).throughJson with
  | .obj data => fromDict data
  | _ => none

/-- Every field that is there holds a value that JSON can carry. -/
def JsonValued (f : AnnounceFrame) : Prop := ∀ m ∈ f.toDict, m.2.Plain

end AnnounceFrame

/-! ### The frame that is read -/

theorem asAddress_value (address : NdpAddress) : asAddress address.value = some address := rfl

theorem mapM_map_some {β : Type} {cast : β → Option α} {value : α → β} (h : ∀ a, cast (value a) = some a)
    (items : List α) : (items.map value).mapM cast = some items := by
  induction items with
  | nil => rfl
  | cons a items ih =>
    rw [List.map_cons, List.mapM_cons, h, ih]
    rfl

theorem asAddresses_value (addresses : List NdpAddress) :
    asAddresses (.arr (addresses.map NdpAddress.value)) = some addresses :=
  mapM_map_some asAddress_value addresses

theorem asStrings_strings (items : List String) : asStrings (.strings items) = some items :=
  @mapM_map_some _ _ asString .str (fun _ => rfl) items

/-- An optional field comes back as it was, there or not. -/
theorem nullable_map {cast : JsValue → Option α} {value : α → JsValue} (h : ∀ a, cast (value a) = some a)
    (hnull : ∀ a, value a ≠ .null) (field : Option α) : nullable cast (field.map value) = some field := by
  cases field with
  | none => rfl
  | some a =>
    show nullable cast (some (value a)) = _
    unfold nullable
    split
    · contradiction
    · rename_i heq
      exact absurd (Option.some.inj heq) (hnull a)
    · rename_i heq
      rw [← Option.some.inj heq, h]
      rfl

theorem orElse_strings (field : Option (List String)) : orElse (field.map .strings) none = field.map .strings := by
  cases field <;> rfl

namespace AnnounceFrame

variable {f : AnnounceFrame}

theorem fromDict_toDict : fromDict f.toDict = some f := by
  have hstring := @nullable_map String asString .str (fun _ => rfl) nofun
  have hstrings := @nullable_map _ asStrings .strings asStrings_strings nofun
  have hnumber := @nullable_map _ asNumber .num (fun _ => rfl) nofun
  have haddress := @nullable_map _ asAddress NdpAddress.value asAddress_value nofun
  have hheartbeat : nullable asNumber (some (.num f.heartbeat_interval_ms)) = some (some f.heartbeat_interval_ms) := rfl
  simp [fromDict, find_toDict, fields, unsignedFields, JsMap.find, hstring, hstrings, hnumber, haddress,
    hheartbeat, orElse_strings, asAddresses_value, asStrings_strings, asString, asNumber]

theorem plain_toDict (h : f.JsonValued) : (JsValue.obj f.toDict).Plain := by
  refine ⟨⟨f.toDict_nodup, ?_⟩, JsValue.plainMembers_iff.2 h⟩
  have hnames : ∀ k ∈ f.fields.map Prod.fst, arrayIndex k = none := by
    show ∀ k ∈ SIGNED_NAMES ++ ["signature", "health", "last_seen"], arrayIndex k = none
    decide
  refine fromEntries_of_names fun m hm => hnames _ ?_
  rw [toDict_eq] at hm
  exact (names_defined _).subset (List.mem_map_of_mem hm)

/-- **The relay.**  The frame that is read is the frame that was sent. -/
theorem relayed_eq (h : f.JsonValued) : f.relayed = some f := by
  rw [relayed, JsValue.throughJson_of_plain _ (plain_toDict h)]
  exact fromDict_toDict

end AnnounceFrame

/-! ### The judgement -/

variable (crypto : Crypto) (keys : JsMap String String)

theorem validate_beat (f : AnnounceFrame) (health last_seen : Option String) :
    validate crypto keys { f with health, last_seen } = validate crypto keys f := by
  have hbody : canonicalAnnounceJson ({ f with health, last_seen } : AnnounceFrame).toDict =
      canonicalAnnounceJson f.toDict := by
    rw [canonicalAnnounceJson, canonicalAnnounceJson, AnnounceFrame.signedMembers_toDict,
      AnnounceFrame.signedMembers_toDict]
    rfl
  unfold validate verifyAnnounceSignature
  rw [hbody]
  rfl

/-- **Announces survive relaying**, and no beat of liveness changes how they are judged. -/
theorem relay_judged_alike (f : AnnounceFrame) (hf : f.JsonValued) :
    f.relayed.map (validate crypto keys) = some (validate crypto keys f) ∧
      ∀ health last_seen : Option String,
        validate crypto keys { f with health, last_seen } = validate crypto keys f := by
  refine ⟨?_, validate_beat crypto keys f⟩
  rw [AnnounceFrame.relayed_eq hf]
  rfl

/-- A signed announce of a healthy node, which is judged alike at every hop. -/
def healthyFrame : AnnounceFrame where
  nid := "urn:nps:node:api.test:a"
  addresses := [⟨"10.0.0.1", .finite (.ofNat 17433), "nwp"⟩]
  capabilities := ["nwp:query"]
  ttl := .finite (.ofNat 60)
  timestamp := "2026-07-29T12:00:00Z"
  signature := "ed25519:AA"
  health := some "healthy"

theorem healthyFrame_judged_alike :
    healthyFrame.relayed.map (validate ⟨fun _ _ _ => false, fun _ _ _ => some true⟩
      (JsMap.empty.set "urn:nps:node:api.test:a" "ed25519:00")) = some .ok := by
  have hvalued : healthyFrame.JsonValued := by
    intro m hm
    simp [AnnounceFrame.toDict, AnnounceFrame.unsignedDict, AnnounceFrame.unsignedFields, defined, healthyFrame] at hm
    rcases hm with rfl | rfl | rfl | rfl | rfl | rfl | rfl | rfl <;>
      simp [JsValue.Plain, JsValue.strings, JsValue.PlainItems, JsValue.PlainMembers, NdpAddress.value, JsNum.isFinite]
    exact fromEntries_of_names (by decide)
  exact (relay_judged_alike ⟨fun _ _ _ => false, fun _ _ _ => some true⟩ _ healthyFrame hvalued).1

end NpsSdk.Ndp
