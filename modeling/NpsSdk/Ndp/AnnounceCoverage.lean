import NpsSdk.Ndp.Validator

/-!
# What the signature of an announce covers

Two accepted announces with one signature under one key were signed as one text: a key is readable
either in hexadecimal or in base64url, so both were signed in the same form.  The canonical text
determines every field, up to numbers that are not finite; the legacy text writes of an address
nothing but that there is one.
-/

namespace NpsSdk.Ndp

open NpsSdk.Lib

def Agree (f g : AnnounceFrame) : Prop :=
  { f with signature := g.signature, health := g.health, last_seen := g.last_seen } = g

/-- The numbers of a frame, in a fixed order. -/
def numbers (f : AnnounceFrame) : List (Option JsNum) :=
  [some f.ttl, some f.heartbeat_interval_ms, f.cluster_epoch, f.graph_seq,
    f.activation_endpoint.map NdpAddress.port] ++ f.addresses.map fun a => some a.port

def SameNonFinite (f g : AnnounceFrame) : Prop :=
  ∀ a b, (some a, some b) ∈ (numbers f).zip (numbers g) →
    a.isFinite = false → b.isFinite = false → a = b

def IsLegacyKey (key : String) : Prop := (legacyKey key).length = 32

/-- What the signed text leaves open is the same in both frames. -/
structure SameOpen (key : String) (f g : AnnounceFrame) : Prop where
  addresses : IsLegacyKey key → f.addresses = g.addresses
  endpoint : IsLegacyKey key → f.activation_endpoint = g.activation_endpoint
  nonFinite : SameNonFinite f g

variable {crypto : Crypto} {keys keys' : JsMap String String} {key : String} {f g : AnnounceFrame}
  {write write' : JsValue → Json}

theorem Agree.sameOpen (h : Agree f g) : SameOpen key f g := by
  have haddresses : f.addresses = g.addresses := by rw [← h]
  have hendpoint : f.activation_endpoint = g.activation_endpoint := by rw [← h]
  have hnumbers : numbers g = numbers f := by rw [← h]; rfl
  refine ⟨fun _ => haddresses, fun _ => hendpoint, fun a b hmem _ _ => ?_⟩
  rw [hnumbers, List.zip_eq_zipWith, List.zipWith_self, List.mem_map] at hmem
  obtain ⟨x, -, hx⟩ := hmem
  rw [Prod.mk.injEq] at hx
  exact Option.some.inj (hx.1.symm.trans hx.2)

/-! ### From what is written to the fields -/

theorem agree_of_sameWritten (hw : Plain write) (hw' : Plain write') (h : SameWritten f g write write')
    (haddresses : f.addresses = g.addresses) (hendpoint : f.activation_endpoint = g.activation_endpoint)
    (hfin : SameNonFinite f g) : Agree f g := by
  have hnum : ∀ (p q : Option JsNum), (p, q) ∈ (numbers f).zip (numbers g) →
      ∀ a b, p = some a → q = some b → a.isFinite = false → b.isFinite = false → a = b := by
    intro p q hmem a b hp hq
    rw [hp, hq] at hmem
    exact hfin a b hmem
  have hnid : some f.nid = some g.nid := str_eq hw hw' (h.field "nid")
  have hcapabilities : some f.capabilities = some g.capabilities :=
    strings_eq hw hw' (h.field "capabilities")
  have httl : some f.ttl = some g.ttl :=
    num_eq hw hw' (h.field "ttl") (hnum _ _ (by simp [numbers]))
  have htimestamp : some f.timestamp = some g.timestamp := str_eq hw hw' (h.field "timestamp")
  have hheartbeat : some f.heartbeat_interval_ms = some g.heartbeat_interval_ms :=
    num_eq hw hw' (h.field "heartbeat_interval_ms") (hnum _ _ (by simp [numbers]))
  have hnodeType : f.nodeType = g.nodeType := str_eq hw hw' (h.field "node_type")
  have hroles : f.node_roles = g.node_roles := strings_eq hw hw' (h.field "node_roles")
  have hanchor : f.cluster_anchor = g.cluster_anchor := str_eq hw hw' (h.field "cluster_anchor")
  have hspawn : f.spawn_spec_ref = g.spawn_spec_ref := str_eq hw hw' (h.field "spawn_spec_ref")
  have houtbound : f.bridge_protocols = g.bridge_protocols :=
    strings_eq hw hw' (h.field "bridge_protocols")
  have hmode : f.activation_mode = g.activation_mode := str_eq hw hw' (h.field "activation_mode")
  have hepoch : f.cluster_epoch = g.cluster_epoch :=
    num_eq hw hw' (h.field "cluster_epoch") (hnum _ _ (by simp [numbers]))
  have hinbound : f.bridge_inbound_protocols = g.bridge_inbound_protocols :=
    strings_eq hw hw' (h.field "bridge_inbound_protocols")
  have hseq : f.graph_seq = g.graph_seq :=
    num_eq hw hw' (h.field "graph_seq") (hnum _ _ (by simp [numbers]))
  rw [Option.some.injEq] at hnid hcapabilities httl htimestamp hheartbeat
  cases f
  cases g
  simp only [Agree, AnnounceFrame.mk.injEq]
  simp_all

theorem address_of_sorted {a b : NdpAddress} (h : (sortObject a.value).json = (sortObject b.value).json) :
    a.host = b.host ∧ a.port.json = b.port.json ∧ a.protocol = b.protocol := by
  have hnodup : ∀ c : NdpAddress, (([("host", .str c.host), ("port", .num c.port),
      ("protocol", .str c.protocol)] : RawFrame).map Prod.fst).Nodup := by
    intro c
    show ["host", "port", "protocol"].Nodup
    decide
  obtain ⟨written, hwritten⟩ : ∃ written, (sortObject a.value).json = .obj written := ⟨_, rfl⟩
  have hk : ∀ k, (JsMap.find k ([("host", .str a.host), ("port", .num a.port),
        ("protocol", .str a.protocol)] : RawFrame)).map (fun v => (sortObject v).json) =
      (JsMap.find k ([("host", .str b.host), ("port", .num b.port),
        ("protocol", .str b.protocol)] : RawFrame)).map fun v => (sortObject v).json := by
    intro k
    rw [← find_sorted (hnodup a) hwritten, ← find_sorted (hnodup b) (h.symm.trans hwritten)]
  have hhost := hk "host"
  have hport := hk "port"
  have hprotocol := hk "protocol"
  simp only [JsMap.find, String.reduceEq, if_true, if_false, Option.map_some, Option.some.injEq,
    sortObject, JsValue.json, Json.str.injEq] at hhost hport hprotocol
  exact ⟨hhost, hport, hprotocol⟩

theorem address_eq {a b : NdpAddress} (h : (sortObject a.value).json = (sortObject b.value).json)
    (hfin : a.port.isFinite = false → b.port.isFinite = false → a.port = b.port) : a = b := by
  obtain ⟨hhost, hport, hprotocol⟩ := address_of_sorted h
  cases a
  cases b
  simp only [NdpAddress.mk.injEq]
  exact ⟨hhost, JsNum.eq_of_json hport hfin, hprotocol⟩

theorem addresses_of_canonical (h : SameWritten f g (fun v => (sortObject v).json) (fun v => (sortObject v).json))
    (hfin : SameNonFinite f g) : f.addresses = g.addresses ∧ f.activation_endpoint = g.activation_endpoint := by
  constructor
  · have hfield : (some (JsValue.arr (f.addresses.map NdpAddress.value))).map (fun v => (sortObject v).json) =
        (some (JsValue.arr (g.addresses.map NdpAddress.value))).map fun v => (sortObject v).json :=
      h.field "addresses"
    simp only [Option.map_some, Option.some.injEq, sortObject, sortObjectItems_eq, JsValue.json,
      JsValue.jsonItems_eq, List.map_map, Json.arr.injEq] at hfield
    have hlength : f.addresses.length = g.addresses.length := by
      simpa only [List.length_map] using congrArg List.length hfield
    refine List.ext_getElem hlength fun i h1 h2 => address_eq ?_ fun ha hb => hfin _ _ ?_ ha hb
    · have hi := congrArg (fun l => l[i]?) hfield
      simpa only [List.getElem?_map, List.getElem?_eq_getElem h1, List.getElem?_eq_getElem h2,
        Option.map_some, Option.some.injEq, Function.comp] using hi
    · have hi : (some f.addresses[i].port, some g.addresses[i].port) ∈
          (f.addresses.map fun a => some a.port).zip (g.addresses.map fun a => some a.port) := by
        rw [List.mem_iff_getElem]
        exact ⟨i, by simpa using ⟨h1, h2⟩, by simp⟩
      simp only [numbers, List.cons_append, List.nil_append, List.zip_cons_cons, List.mem_cons]
      exact .inr (.inr (.inr (.inr (.inr hi))))
  · have hfield : (f.activation_endpoint.map NdpAddress.value).map (fun v => (sortObject v).json) =
        (g.activation_endpoint.map NdpAddress.value).map fun v => (sortObject v).json :=
      h.field "activation_endpoint"
    rw [Option.map_map, Option.map_map] at hfield
    have hport : (f.activation_endpoint.map NdpAddress.port, g.activation_endpoint.map NdpAddress.port) ∈
        (numbers f).zip (numbers g) := by simp [numbers]
    cases hf : f.activation_endpoint with
    | none => cases hg : g.activation_endpoint <;> simp_all
    | some a =>
      cases hg : g.activation_endpoint with
      | none => simp_all
      | some b =>
        simp only [hf, hg, Option.map_some, Function.comp, Option.some.injEq] at hfield hport
        rw [address_eq hfield fun ha hb => hfin _ _ hport ha hb]

/-! ### One signature, one text -/

theorem sameWritten_of_canonical (h : canonicalAnnounceJson f.toDict = canonicalAnnounceJson g.toDict) :
    SameWritten f g (fun v => (sortObject v).json) (fun v => (sortObject v).json) := by
  have htext := Json.text_injective (String.ofList_inj.1 h)
  rw [AnnounceFrame.signedMembers_toDict, AnnounceFrame.signedMembers_toDict] at htext
  obtain ⟨written, hwritten⟩ : ∃ written, (sortObject (.obj f.unsignedDict)).json = .obj written := ⟨_, rfl⟩
  intro k
  rw [← find_sorted AnnounceFrame.unsignedDict_nodup hwritten,
    ← find_sorted AnnounceFrame.unsignedDict_nodup (htext.symm.trans hwritten)]

def namesOf (f : AnnounceFrame) : List String := sortKeys (f.unsignedDict.map Prod.fst)

theorem find_written (f : AnnounceFrame) (k : String) :
    JsMap.find k (Json.select (namesOf f) (Json.shownMembers (namesOf f) (JsValue.jsonMembers f.unsignedDict))) =
      (JsMap.find k f.unsignedDict).map fun v => Json.shown (namesOf f) v.json := by
  rw [Json.find_select, Json.find_shownMembers, JsValue.find_jsonMembers, Option.map_map]
  split_ifs with hk
  · rfl
  · rw [namesOf, mem_sortKeys, ← JsMap.find_isSome, Option.not_isSome_iff_eq_none] at hk
    rw [hk]
    rfl

theorem sameWritten_of_legacy (h : legacyJson f = legacyJson g) :
    SameWritten f g (fun v => Json.shown (namesOf f) v.json) (fun v => Json.shown (namesOf g) v.json) := by
  have htext : Json.shown (namesOf f) (JsValue.obj f.unsignedDict).json =
      Json.shown (namesOf g) (JsValue.obj g.unsignedDict).json :=
    Json.text_injective (String.ofList_inj.1 h)
  simp only [JsValue.json, Json.shown, Json.obj.injEq] at htext
  intro k
  rw [← find_written f, ← find_written g, htext]

/-- **Coverage.**  Two announces that are accepted with one signature under one registered key agree
on everything but the signature and the liveness exactly when they agree on what the signed text
leaves open: the contents of the addresses under a hexadecimal key, and which number a number is that
is not finite. -/
theorem announce_covered_iff
    (hverify : ∀ m m' pk sig, crypto.verify m pk sig = true → crypto.verify m' pk sig = true → m = m')
    (hed : ∀ sig m m' pk, crypto.ed25519Verify sig m pk = some true →
      crypto.ed25519Verify sig m' pk = some true → m = m')
    (hlength : ∀ sig m pk, crypto.ed25519Verify sig m pk = some true → pk.length = 32)
    (hkf : keys.get f.nid = some key) (hkg : keys'.get g.nid = some key)
    (hf : (validate crypto keys f).isValid = true) (hg : (validate crypto keys' g).isValid = true)
    (hsig : f.signature = g.signature) :
    Agree f g ↔ SameOpen key f g := by
  refine ⟨Agree.sameOpen, fun hopen => ?_⟩
  have hbytes : ∀ s t : String, s.toUTF8 = t.toUTF8 → s = t := fun s t h => String.toByteArray_inj.1 h
  -- the key is readable in one form only, so both frames were signed in the same form
  rcases verified_of_valid hkf hf with ⟨hraw, hstart, hvf⟩ | hvf
  · rcases verified_of_valid hkg hg with ⟨-, -, hvg⟩ | hvg
    · rw [← hsig] at hvg
      have hsame := sameWritten_of_canonical (hbytes _ _ (hverify _ _ _ _ hvf hvg))
      obtain ⟨haddresses, hendpoint⟩ := addresses_of_canonical hsame hopen.nonFinite
      exact agree_of_sameWritten plain_sorted plain_sorted hsame haddresses hendpoint hopen.nonFinite
    · have hlegacy := hlength _ _ _ hvg
      rw [legacyKey, if_pos hstart] at hlegacy
      exact (hex_or_base64 hlegacy hraw).elim
  · have hlegacy := hlength _ _ _ hvf
    rcases verified_of_valid hkg hg with ⟨hraw, hstart, -⟩ | hvg
    · rw [legacyKey, if_pos hstart] at hlegacy
      exact (hex_or_base64 hlegacy hraw).elim
    · rw [← hsig] at hvg
      have hsame := sameWritten_of_legacy (hbytes _ _ (hed _ _ _ _ hvf hvg))
      exact agree_of_sameWritten (plain_shown _) (plain_shown _) hsame (hopen.addresses hlegacy)
        (hopen.endpoint hlegacy) hopen.nonFinite

/-! ### One signature, two addresses -/

/-- The key of the node, in hexadecimal. -/
def sampleKey : String := "03a107bff3ce10be1d70dd18e74bc09967e4d6309ba50d5f1ddc8664125531b8"

def announcedFrame : AnnounceFrame where
  nid := "urn:nps:node:example.com:data"
  addresses := [{ host := "10.0.0.5", port := .finite (.ofNat 17433),
                  protocol := "nwp" }]
  capabilities := ["nwp:query"]
  ttl := .finite (.ofNat 300)
  timestamp := "2026-01-01T00:00:00Z"
  signature := "ed25519:jFGOhidFOlSBi4SJ7RYztfqA9kOpTBkuxGlM1HMqjp0O8HhPpfaO33ERomfz" ++
    "EgsZKVj0gn1vfdWMZhQdwBnvCQ=="

def redirectedFrame : AnnounceFrame :=
  { announcedFrame with
    addresses := [{ host := "203.0.113.66", port := .finite (.ofNat 17433),
                    protocol := "nwp" }] }

/-- A signature scheme that knows this one signature. -/
def sampleCrypto : Crypto where
  verify _ _ _ := false
  ed25519Verify sig m pk :=
    if pk = legacyKey sampleKey then
      some (sig == bytesOfBase64 (bodyOf announcedFrame.signature) &&
        @decide _ (ByteArray.instDecidableEq m (legacyJson announcedFrame).toUTF8))
    else none

def sampleKeys : JsMap String String := JsMap.ofList [("urn:nps:node:example.com:data", sampleKey)]

theorem sampleCrypto_unique : ∀ sig m m' pk, sampleCrypto.ed25519Verify sig m pk = some true →
    sampleCrypto.ed25519Verify sig m' pk = some true → m = m' := by
  intro sig m m' pk h h'
  simp only [sampleCrypto] at h h'
  split_ifs at h h' with hpk
  simp only [Option.some.injEq, Bool.and_eq_true, decide_eq_true_eq] at h h'
  rw [h.2, h'.2]

theorem sampleCrypto_length : ∀ sig m pk, sampleCrypto.ed25519Verify sig m pk = some true → pk.length = 32 := by
  intro sig m pk h
  simp only [sampleCrypto] at h
  split_ifs at h with hpk
  rw [hpk]
  decide

theorem legacyJson_redirected : legacyJson redirectedFrame = legacyJson announcedFrame := rfl

theorem valid_of_legacyJson {f : AnnounceFrame} (hnid : f.nid = announcedFrame.nid)
    (hsig : f.signature = announcedFrame.signature) (htext : legacyJson f = legacyJson announcedFrame) :
    (validate sampleCrypto sampleKeys f).isValid = true := by
  have hkey : sampleKeys.get f.nid = some sampleKey := by rw [hnid]; rfl
  have hstart : startsWith f.signature ED25519 = true := by
    rw [hsig]
    decide
  have hverify : sampleCrypto.ed25519Verify (bytesOfBase64 (bodyOf f.signature)) (legacyJson f).toUTF8
      (legacyKey sampleKey) = some true := by
    simp [sampleCrypto, hsig, htext]
  simp only [validate, hkey, hstart, not_true_eq_false, if_false, hverify]
  split <;> rfl

theorem announced_valid : (validate sampleCrypto sampleKeys announcedFrame).isValid = true :=
  valid_of_legacyJson rfl rfl rfl

theorem redirected_valid : (validate sampleCrypto sampleKeys redirectedFrame).isValid = true :=
  valid_of_legacyJson rfl rfl legacyJson_redirected

/-- One signature under a hexadecimal key is good for an announce with any address: no two messages
share a signature, yet the two frames differ in what they announce. -/
theorem announce_signed_for_two :
    (∀ sig m m' pk, sampleCrypto.ed25519Verify sig m pk = some true →
      sampleCrypto.ed25519Verify sig m' pk = some true → m = m') ∧
    (validate sampleCrypto sampleKeys announcedFrame).isValid = true ∧
    (validate sampleCrypto sampleKeys redirectedFrame).isValid = true ∧
    announcedFrame.signature = redirectedFrame.signature ∧
    sampleKeys.get announcedFrame.nid = sampleKeys.get redirectedFrame.nid ∧
    announcedFrame.addresses.map NdpAddress.host ≠ redirectedFrame.addresses.map NdpAddress.host :=
  ⟨sampleCrypto_unique, announced_valid, redirected_valid, rfl, rfl, by decide⟩

/-- The redirected announce differs from the signed one in what the legacy text leaves open. -/
theorem redirected_not_sameOpen : ¬ SameOpen sampleKey announcedFrame redirectedFrame := fun h => by
  have hverify : ∀ m m' pk sig, sampleCrypto.verify m pk sig = true →
      sampleCrypto.verify m' pk sig = true → m = m' := nofun
  have hagree := (announce_covered_iff hverify sampleCrypto_unique sampleCrypto_length rfl rfl
    announced_valid redirected_valid rfl).2 h
  have haddresses := congrArg (fun f => f.addresses.map NdpAddress.host) hagree
  exact absurd haddresses (by decide)

end NpsSdk.Ndp
