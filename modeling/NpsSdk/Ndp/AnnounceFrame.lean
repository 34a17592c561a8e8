import NpsSdk.Lib.JsValue

/-!
# The signed body of an announce

`canonicalAnnounceJson`: an announce without its unsigned members and without nulls, with the keys of
every object sorted.
-/

namespace NpsSdk.Ndp

open NpsSdk.Lib

/-- The members of a frame object. -/
abbrev RawFrame := List (String × JsValue)

def EXCLUDED : List String := ["frame", "signature", "health", "last_seen"]

def isNull : JsValue → Bool
  | .null => true
  | _ => false

mutual
/-- Drops the null members of every object. -/
def withoutNulls : JsValue → JsValue
  | .arr items => .arr (withoutNullsItems items)
  | .obj members => .obj (fromEntries (withoutNullsMembers members))
  | v => v
def withoutNullsItems : List JsValue → List JsValue
  | [] => []
  | v :: vs => withoutNulls v :: withoutNullsItems vs
def withoutNullsMembers : List (String × JsValue) → List (String × JsValue)
  | [] => []
  | (k, v) :: ms => if isNull v then withoutNullsMembers ms else (k, withoutNulls v) :: withoutNullsMembers ms
end

mutual
/-- Sorts the keys of every object. -/
def sortObject : JsValue → JsValue
  | .arr items => .arr (sortObjectItems items)
  | .obj members =>
    .obj (fromEntries ((sortObjectMembers members).insertionSort fun a b =>
      unitsLe (utf16 a.1) (utf16 b.1) = true))
  | v => v
def sortObjectItems : List JsValue → List JsValue
  | [] => []
  | v :: vs => sortObject v :: sortObjectItems vs
def sortObjectMembers : List (String × JsValue) → List (String × JsValue)
  | [] => []
  | (k, v) :: ms => (k, sortObject v) :: sortObjectMembers ms
end

def DEFAULT_HEARTBEAT : JsNumber := .ofNat 60000

/-- The members of a frame that are signed.  An assignment to `__proto__` makes no member. -/
def signedMembers (frame : RawFrame) : RawFrame :=
  let root := withoutNullsMembers (frame.filter fun m => m.1 ∉ EXCLUDED ∧ m.1 ≠ "__proto__")
  match JsMap.find "heartbeat_interval_ms" root with
  | some _ => root
  | none => root ++ [("heartbeat_interval_ms", .num (.finite DEFAULT_HEARTBEAT))]

def canonicalAnnounceJson (frame : RawFrame) : String :=
  String.ofList (sortObject (.obj (signedMembers frame))).json.text

/-! ### Sorting -/

theorem withoutNullsItems_eq (items : List JsValue) : withoutNullsItems items = items.map withoutNulls := by
  induction items with
  | nil => rfl
  | cons v vs ih => rw [withoutNullsItems, ih, List.map_cons]

theorem sortObjectItems_eq (items : List JsValue) : sortObjectItems items = items.map sortObject := by
  induction items with
  | nil => rfl
  | cons v vs ih => rw [sortObjectItems, ih, List.map_cons]

theorem sortObjectMembers_eq (members : List (String × JsValue)) :
    sortObjectMembers members = members.map fun m => (m.1, sortObject m.2) := by
  induction members with
  | nil => rfl
  | cons m ms ih => obtain ⟨k, v⟩ := m; rw [sortObjectMembers, ih, List.map_cons]

theorem find_map_snd (f : JsValue → JsValue) (k : String) (members : List (String × JsValue)) :
    JsMap.find k (members.map fun m => (m.1, f m.2)) = (JsMap.find k members).map f := by
  induction members with
  | nil => rfl
  | cons m ms ih =>
    simp only [List.map_cons, JsMap.find]
    split_ifs
    · rfl
    · exact ih

theorem find_sorted {members : List (String × JsValue)} (hn : (members.map Prod.fst).Nodup)
    {written : List (String × Json)} (h : (sortObject (.obj members)).json = .obj written) (k : String) :
    JsMap.find k written = (JsMap.find k members).map fun v => (sortObject v).json := by
  have hkeys : ((members.map fun m => (m.1, sortObject m.2)).map Prod.fst) = members.map Prod.fst := by
    rw [List.map_map]
    rfl
  simp only [sortObject, JsValue.json, Json.obj.injEq] at h
  rw [← h, JsValue.find_jsonMembers, sortObjectMembers_eq,
    ← find_perm ((fromEntries_perm _).trans (List.perm_insertionSort _ _)).symm (by rwa [hkeys]),
    find_map_snd, Option.map_map]
  rfl

/-!
## The announce frame

An announce as the SDK holds it, the dictionary that is signed and the one that is sent.
-/

structure NdpAddress where
  host : String
  port : JsNum
  protocol : String

def NdpAddress.value (address : NdpAddress) : JsValue :=
  .obj [("host", .str address.host), ("port", .num address.port), ("protocol", .str address.protocol)]

structure AnnounceFrame where
  nid : String
  addresses : List NdpAddress
  capabilities : List String
  ttl : JsNum
  timestamp : String
  signature : String
  nodeType : Option String := none
  node_roles : Option (List String) := none
  cluster_anchor : Option String := none
  spawn_spec_ref : Option String := none
  bridge_protocols : Option (List String) := none
  activation_mode : Option String := none
  activation_endpoint : Option NdpAddress := none
  heartbeat_interval_ms : JsNum := .finite DEFAULT_HEARTBEAT
  health : Option String := none
  last_seen : Option String := none
  cluster_epoch : Option JsNum := none
  bridge_inbound_protocols : Option (List String) := none
  graph_seq : Option JsNum := none

def defined (members : List (String × Option JsValue)) : RawFrame :=
  members.filterMap fun m => m.2.map fun v => (m.1, v)

namespace AnnounceFrame

variable (f : AnnounceFrame)

/-- The members that are signed, defined or not. -/
def unsignedFields : List (String × Option JsValue) :=
  [("nid", some (.str f.nid)),
    ("addresses", some (.arr (f.addresses.map NdpAddress.value))),
    ("capabilities", some (.strings f.capabilities)),
    ("ttl", some (.num f.ttl)),
    ("timestamp", some (.str f.timestamp)),
    ("heartbeat_interval_ms", some (.num f.heartbeat_interval_ms)),
    ("node_type", f.nodeType.map .str),
    ("node_roles", f.node_roles.map .strings),
    ("cluster_anchor", f.cluster_anchor.map .str),
    ("spawn_spec_ref", f.spawn_spec_ref.map .str),
    ("bridge_protocols", f.bridge_protocols.map .strings),
    ("activation_mode", f.activation_mode.map .str),
    ("activation_endpoint", f.activation_endpoint.map NdpAddress.value),
    ("cluster_epoch", f.cluster_epoch.map .num),
    ("bridge_inbound_protocols", f.bridge_inbound_protocols.map .strings),
    ("graph_seq", f.graph_seq.map .num)]

def unsignedDict : RawFrame := defined f.unsignedFields

def toDict : RawFrame :=
  f.unsignedDict ++
    defined [("signature", some (.str f.signature)), ("health", f.health.map .str),
      ("last_seen", f.last_seen.map .str)]

/-- The names a signed dictionary can have. -/
def SIGNED_NAMES : List String :=
  ["nid", "addresses", "capabilities", "ttl", "timestamp", "heartbeat_interval_ms", "node_type",
    "node_roles", "cluster_anchor", "spawn_spec_ref", "bridge_protocols", "activation_mode",
    "activation_endpoint", "cluster_epoch", "bridge_inbound_protocols", "graph_seq"]

end AnnounceFrame

/-! ### Lookups -/

theorem names_defined (members : List (String × Option JsValue)) :
    ((defined members).map Prod.fst).Sublist (members.map Prod.fst) := by
  induction members with
  | nil => exact List.Sublist.refl _
  | cons m ms ih =>
    obtain ⟨name, value⟩ := m
    cases value with
    | none => exact ih.cons name
    | some v => exact ih.cons_cons name

theorem find_defined {members : List (String × Option JsValue)} (hn : (members.map Prod.fst).Nodup)
    (k : String) : JsMap.find k (defined members) = (JsMap.find k members).join := by
  induction members with
  | nil => rfl
  | cons m ms ih =>
    obtain ⟨name, value⟩ := m
    rw [List.map_cons, List.nodup_cons] at hn
    specialize ih hn.2
    by_cases hk : name = k
    · subst hk
      have hrest : JsMap.find name ms = none :=
        Option.not_isSome_iff_eq_none.1 fun h => hn.1 ((JsMap.find_isSome name ms).1 h)
      cases value with
      | none =>
        rw [hrest] at ih
        simpa [defined, JsMap.find] using ih
      | some v => simp [defined, JsMap.find]
    · cases value with
      | none => simpa [defined, JsMap.find, hk] using ih
      | some v => simpa [defined, JsMap.find, hk] using ih

theorem mem_defined {members : List (String × Option JsValue)} {name : String} {v : JsValue} :
    (name, v) ∈ defined members ↔ (name, some v) ∈ members := by
  simp only [defined, List.mem_filterMap, Option.map_eq_some_iff, Prod.mk.injEq]
  constructor
  · rintro ⟨⟨name', value⟩, hm, w, hw, rfl, rfl⟩
    exact hw ▸ hm
  · intro h
    exact ⟨_, h, v, rfl, rfl, rfl⟩

namespace AnnounceFrame

variable {f : AnnounceFrame}

theorem unsignedFields_nodup : (f.unsignedFields.map Prod.fst).Nodup := by
  show SIGNED_NAMES.Nodup
  decide

theorem unsignedDict_nodup : (f.unsignedDict.map Prod.fst).Nodup :=
  (names_defined _).nodup unsignedFields_nodup

theorem mem_names {k : String} (h : k ∈ f.unsignedDict.map Prod.fst) : k ∈ SIGNED_NAMES :=
  (names_defined _).subset h

theorem find_unsigned (k : String) : JsMap.find k f.unsignedDict = (JsMap.find k f.unsignedFields).join :=
  find_defined unsignedFields_nodup k

/-! ### The canonical body -/

def Clean (v : JsValue) : Prop := isNull v = false ∧ withoutNulls v = v

theorem withoutNulls_map {α : Type*} {items : List α} {value : α → JsValue}
    (h : ∀ a, withoutNulls (value a) = value a) : withoutNulls (.arr (items.map value)) = .arr (items.map value) := by
  rw [withoutNulls, withoutNullsItems_eq, List.map_map]
  exact congrArg _ (List.map_congr_left fun a _ => h a)

theorem withoutNulls_address (address : NdpAddress) : withoutNulls address.value = address.value := by
  have hentries : ∀ a b c : JsValue, fromEntries [("host", a), ("port", b), ("protocol", c)] =
      [("host", a), ("port", b), ("protocol", c)] := by
    have hindex : arrayIndex "host" = none ∧ arrayIndex "port" = none ∧ arrayIndex "protocol" = none := by
      decide
    simp [fromEntries, hindex]
  simp only [NdpAddress.value, withoutNulls, withoutNullsMembers, isNull, Bool.false_eq_true, if_false, hentries]

theorem clean_of_mem {name : String} {v : JsValue} (h : (name, v) ∈ f.unsignedDict) : Clean v := by
  rw [unsignedDict, mem_defined] at h
  have hstrings : ∀ items, Clean (.strings items) := fun items => ⟨rfl, withoutNulls_map fun _ => rfl⟩
  have haddresses : Clean (.arr (f.addresses.map NdpAddress.value)) :=
    ⟨rfl, withoutNulls_map withoutNulls_address⟩
  have haddress : ∀ a : NdpAddress, Clean a.value := fun a => ⟨rfl, withoutNulls_address a⟩
  simp only [unsignedFields, List.mem_cons, Prod.mk.injEq, Option.some.injEq, List.not_mem_nil,
    or_false, eq_comm (a := some v), Option.map_eq_some_iff] at h
  rcases h with ⟨-, rfl⟩ | ⟨-, rfl⟩ | ⟨-, rfl⟩ | ⟨-, rfl⟩ | ⟨-, rfl⟩ | ⟨-, rfl⟩ | ⟨-, _, -, rfl⟩ |
    ⟨-, _, -, rfl⟩ | ⟨-, _, -, rfl⟩ | ⟨-, _, -, rfl⟩ | ⟨-, _, -, rfl⟩ | ⟨-, _, -, rfl⟩ |
    ⟨-, _, -, rfl⟩ | ⟨-, _, -, rfl⟩ | ⟨-, _, -, rfl⟩ | ⟨-, _, -, rfl⟩
  all_goals first
    | exact ⟨rfl, rfl⟩
    | exact hstrings _
    | exact haddresses
    | exact haddress _

theorem withoutNullsMembers_of_clean {members : RawFrame} (h : ∀ m ∈ members, Clean m.2) :
    withoutNullsMembers members = members := by
  induction members with
  | nil => rfl
  | cons m ms ih =>
    obtain ⟨k, v⟩ := m
    obtain ⟨hnull, hv⟩ := h (k, v) List.mem_cons_self
    simp only [withoutNullsMembers, hnull, Bool.false_eq_true, if_false]
    rw [hv, ih fun m hm => h m (List.mem_cons_of_mem _ hm)]

theorem signedMembers_toDict : signedMembers f.toDict = f.unsignedDict := by
  have hkept : f.toDict.filter (fun m => m.1 ∉ EXCLUDED ∧ m.1 ≠ "__proto__") = f.unsignedDict := by
    rw [toDict, List.filter_append]
    have hleft : f.unsignedDict.filter (fun m => m.1 ∉ EXCLUDED ∧ m.1 ≠ "__proto__") = f.unsignedDict := by
      refine List.filter_eq_self.2 fun m hm => ?_
      have hname := mem_names (List.mem_map_of_mem hm)
      have hall : ∀ k ∈ SIGNED_NAMES, k ∉ EXCLUDED ∧ k ≠ "__proto__" := by decide
      exact decide_eq_true (hall _ hname)
    have hright : (defined [("signature", some (.str f.signature)), ("health", f.health.map .str),
        ("last_seen", f.last_seen.map .str)]).filter
          (fun m => m.1 ∉ EXCLUDED ∧ m.1 ≠ "__proto__") = [] := by
      refine List.filter_eq_nil_iff.2 fun m hm => ?_
      have hname := (names_defined _).subset (List.mem_map_of_mem (f := Prod.fst) hm)
      have hall : ∀ k ∈ ["signature", "health", "last_seen"], ¬(k ∉ EXCLUDED ∧ k ≠ "__proto__") := by
        decide
      exact fun h => hall _ hname (of_decide_eq_true h)
    rw [hleft, hright, List.append_nil]
  have hheartbeat : JsMap.find "heartbeat_interval_ms" f.unsignedDict = some (.num f.heartbeat_interval_ms) := rfl
  simp only [signedMembers, hkept, withoutNullsMembers_of_clean fun m hm => clean_of_mem hm, hheartbeat]

end AnnounceFrame

end NpsSdk.Ndp
