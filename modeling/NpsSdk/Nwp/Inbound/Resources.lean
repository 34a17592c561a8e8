import NpsSdk.Lib.UrlHost
import NpsSdk.Nwp.Inbound.ToolNames

/-!
# MCP resources

A queryable node is a resource at `nwp://<name>/`.  What is read is found by the host of the address, among
all nodes.  A name that is no host, or is written in another way as one, cannot be read again.
-/

namespace NpsSdk.Nwp.Inbound

open NpsSdk.Lib

/-! ### Listing and reading -/

def NwpNodeRole.text : NwpNodeRole → String
  | .unknown => "unknown"
  | .memory => "memory"
  | .action => "action"
  | .complex => "complex"
  | .anchor => "anchor"
  | .bridge => "bridge"

structure McpResource where
  uri : String
  name : String
  description : String
  mimeType : String := "application/json"

def resourceUri (name : String) : String := "nwp://" ++ name ++ "/"

def listResources (backends : List INwpBackend) : List McpResource :=
  (backends.filter fun backend => backend.descriptor.isQueryable).map fun backend =>
    let d := backend.descriptor
    { uri := resourceUri d.name
      name := d.displayName.getD d.name
      description := d.description.getD
        ("NWP " ++ d.role.text ++ " Node '" ++ d.name ++ "' — read to query.") }

/-- `slice(n)`, in code units; a character that is cut in two is left out. -/
def dropUnits : ℕ → List Char → List Char
  | _, [] => []
  | 0, cs => cs
  | n + 1, c :: cs => if c.toNat < 0x10000 then dropUnits n cs else dropUnits (n - 1) cs

section

variable (lower : String → String) (ipv6 : List Char → Option (List Char))

/-- The host of an address; `none` where it is no address of a node. -/
def readHost (uriRaw : String) : Option String :=
  match UrlHost.hostname ipv6 "nwp" uriRaw with
  | none => none
  | some hostname =>
    if hostname = "" then
      some (String.ofList ((dropUnits "nwp://".length uriRaw.toList).takeWhile (· ≠ '/')))
    else some hostname

def resolveBackend (backends : List INwpBackend) (nodeName : String) : Option INwpBackend :=
  backends.find? fun backend => eqIgnoreCase lower backend.descriptor.name nodeName

inductive ResourceRead
  | invalidParams (message : String)
  | notExposed (uri : String)
  | query (backend : INwpBackend)

/-- `readResource`, up to its query; an address that is no string is none. -/
def readResource (backends : List INwpBackend) (uri : Option String) : ResourceRead :=
  match uri with
  | none => .invalidParams "MCP resources/read requires params.uri."
  | some uriRaw =>
    if isBlank uriRaw then .invalidParams "MCP resources/read requires params.uri."
    else match readHost ipv6 uriRaw with
      | none => .invalidParams ("Resource URI '" ++ uriRaw ++ "' must be of the form nwp://<node>/.")
      | some host =>
        match resolveBackend lower backends host with
        | none => .notExposed uriRaw
        | some backend => .query backend

/-! ### What is asked of both -/

/-- **What is listed can be read**: the listed addresses are distinct, and reading one queries the backend it was
listed for. -/
structure ResourcesCoherent (backends : List INwpBackend) : Prop where
  distinct : ((listResources backends).map McpResource.uri).Nodup
  read : ∀ backend ∈ backends, backend.descriptor.isQueryable = true →
    readResource lower ipv6 backends (some (resourceUri backend.descriptor.name)) = .query backend

/-- The address of a name has that name as its host, up to case. -/
def ReadBack (name : String) : Prop := ∃ host, readHost ipv6 (resourceUri name) = some host ∧ lower host = lower name

/-- **Every resource is its own**: its name is read back, and no earlier backend is called by it. -/
structure Addressed (backends : List INwpBackend) : Prop where
  readBack : ∀ backend ∈ backends, backend.descriptor.isQueryable = true → ReadBack lower ipv6 backend.descriptor.name
  first : backends.Pairwise fun earlier later =>
    later.descriptor.isQueryable = true → lower earlier.descriptor.name ≠ lower later.descriptor.name

end

variable {lower : String → String} {ipv6 : List Char → Option (List Char)} {backends : List INwpBackend}
  {backend : INwpBackend}

theorem isBlank_resourceUri (name : String) : isBlank (resourceUri name) = false := by
  rw [isBlank, List.all_eq_false]
  exact ⟨'n', by simp [resourceUri], by decide⟩

theorem readResource_eq_query_iff {name : String} :
    readResource lower ipv6 backends (some (resourceUri name)) = .query backend ↔
      ∃ host, readHost ipv6 (resourceUri name) = some host ∧ resolveBackend lower backends host = some backend := by
  simp only [readResource, isBlank_resourceUri, Bool.false_eq_true, if_false]
  cases hhost : readHost ipv6 (resourceUri name) with
  | none => simp
  | some host =>
    cases hbackend : resolveBackend lower backends host with
    | none => simp [hbackend]
    | some backend' => simp [hbackend]

theorem resourceUri_inj {name name' : String} (h : resourceUri name = resourceUri name') : name = name' := by
  have hchars := congrArg String.toList h
  simp only [resourceUri, String.toList_append, List.append_cancel_left_eq, List.append_cancel_right_eq] at hchars
  exact String.toList_inj.1 hchars

theorem distinct_uris_iff : ((listResources backends).map McpResource.uri).Nodup ↔
    backends.Pairwise fun a b => a.descriptor.isQueryable = true → b.descriptor.isQueryable = true →
      resourceUri a.descriptor.name ≠ resourceUri b.descriptor.name := by
  rw [listResources, List.map_map, List.Nodup, List.pairwise_map, List.pairwise_filter]
  rfl

/-- **The resources that are listed can be read** exactly if every one is its own. -/
theorem resourcesCoherent_iff (backends : List INwpBackend) :
    ResourcesCoherent lower ipv6 backends ↔ Addressed lower ipv6 backends := by
  constructor
  · intro h
    have hread : ∀ backend ∈ backends, backend.descriptor.isQueryable = true → ∃ host,
        readHost ipv6 (resourceUri backend.descriptor.name) = some host ∧
          resolveBackend lower backends host = some backend :=
      fun backend hmem hqueryable => readResource_eq_query_iff.1 (h.read backend hmem hqueryable)
    have hback : ∀ backend ∈ backends, backend.descriptor.isQueryable = true →
        ReadBack lower ipv6 backend.descriptor.name := by
      intro backend hmem hqueryable
      obtain ⟨host, hhost, hfind⟩ := hread backend hmem hqueryable
      have hname : lower backend.descriptor.name = lower host := by
        simpa [eqIgnoreCase] using List.find?_some hfind
      exact ⟨host, hhost, hname.symm⟩
    refine ⟨hback, ?_⟩
    have hdistinct := distinct_uris_iff.1 h.distinct
    rw [List.pairwise_iff_getElem] at hdistinct ⊢
    intro i j hi hj hij hqueryable hname
    obtain ⟨host, hhost, hfind⟩ := hread _ (List.getElem_mem hj) hqueryable
    have hhere : lower backends[j].descriptor.name = lower host := by
      simpa [eqIgnoreCase] using List.find?_some hfind
    -- the one that is found stands no later than the earlier namesake, and has the same address
    obtain ⟨-, k, hk, hsame, hbefore⟩ := List.find?_eq_some_iff_getElem.1 hfind
    have hki : k ≤ i := by
      by_contra hlt
      have hno := hbefore i (by omega)
      rw [eqIgnoreCase, hname, hhere] at hno
      simp at hno
    exact hdistinct k j hk hj (by omega) (hsame ▸ hqueryable) hqueryable (by rw [hsame])
  · intro h
    refine ⟨distinct_uris_iff.2 (h.first.imp fun hfirst _ hqueryable huri =>
      hfirst hqueryable (congrArg lower (resourceUri_inj huri))), fun backend hmem hqueryable => ?_⟩
    obtain ⟨host, hhost, hname⟩ := h.readBack backend hmem hqueryable
    refine readResource_eq_query_iff.2 ⟨host, hhost, ?_⟩
    obtain ⟨j, hj, rfl⟩ := List.mem_iff_getElem.1 hmem
    refine List.find?_eq_some_iff_getElem.2 ⟨by simp [eqIgnoreCase, hname], j, hj, rfl, fun i hij => ?_⟩
    have hne := List.pairwise_iff_getElem.1 h.first i j (by omega) hj hij hqueryable
    simpa [eqIgnoreCase, hname] using hne

theorem readBack_plain {name : String} (hne : name ≠ "") (hname : ∀ c ∈ name.toList, UrlHost.isPlain c = true) :
    ReadBack lower ipv6 name := by
  have hhost : UrlHost.hostname ipv6 "nwp" (resourceUri name) = some name :=
    UrlHost.hostname_plain (by simp) hname
  refine ⟨name, ?_, rfl⟩
  rw [readHost, hhost]
  exact if_neg hne

/-- **Listing and calling, listing and reading.**  The listed tools can be called exactly if no two of them are
spelled alike, and the listed resources can be read exactly if each is its own. -/
theorem coherent_iff (hlower : LowersAscii lower) (ipv6 : List Char → Option (List Char))
    (backends : List INwpBackend) :
    (ToolsCoherent lower backends ↔ (invokableTools backends).Pairwise fun p q => ¬ SpelledAlike lower p q) ∧
      (ResourcesCoherent lower ipv6 backends ↔ Addressed lower ipv6 backends) :=
  ⟨toolsCoherent_iff hlower backends, resourcesCoherent_iff backends⟩

/-- A node with actions, and a node with rows. -/
def ordersAndRows : List INwpBackend :=
  [{ descriptor := { name := "orders", role := .action }
     actions := [{ actionId := "order.create" }, { actionId := "order.cancel" }] },
   { descriptor := { name := "rows", role := .memory }, actions := [] }]

/-- Both surfaces of these nodes are coherent. -/
theorem ordersAndRows_coherent : ToolsCoherent lowerLatin ordersAndRows ∧
    ResourcesCoherent lowerLatin (fun _ => none) ordersAndRows := by
  obtain ⟨htools, hresources⟩ := coherent_iff lowersAscii_lowerLatin (fun _ => none) ordersAndRows
  refine ⟨htools.2 ?_, hresources.2 ⟨?_, ?_⟩⟩
  · rw [← distinct_iff lowersAscii_lowerLatin]
    decide
  · intro backend hmem hqueryable
    simp only [ordersAndRows, List.mem_cons, List.not_mem_nil, or_false] at hmem
    rcases hmem with rfl | rfl
    · cases hqueryable
    · exact readBack_plain (by decide) (List.all_eq_true.1 (by decide))
  · simp only [ordersAndRows, List.pairwise_cons, List.mem_singleton, forall_eq, List.not_mem_nil, IsEmpty.forall_iff,
      implies_true, List.Pairwise.nil, and_true]
    exact fun _ => by decide +kernel

/-- Two actions whose ids differ in a dot only, and a node whose name has a space. -/
def dottedAndSpaced : List INwpBackend :=
  [{ descriptor := { name := "orders", role := .action }
     actions := [{ actionId := "order.create" }, { actionId := "order_create" }] },
   { descriptor := { name := "my rows", role := .memory }, actions := [] }]

/-- The two actions are listed under one name, and the address of the node cannot be read. -/
theorem listed_not_reached :
    (¬ ∀ backends : List INwpBackend,
      ((invokableTools backends).map fun tool => (tool.backend.descriptor.name, tool.action.actionId)).Nodup →
        ToolsCoherent lowerLatin backends) ∧
    ¬ ∀ backends : List INwpBackend,
      ((invokableTools backends).map fun tool => (tool.backend.descriptor.name, tool.action.actionId)).Nodup →
        ResourcesCoherent lowerLatin (fun _ => none) backends := by
  have hpairs : ((invokableTools dottedAndSpaced).map fun tool =>
      (tool.backend.descriptor.name, tool.action.actionId)).Nodup := by decide
  refine ⟨fun h => absurd (h dottedAndSpaced hpairs).distinct (by decide +kernel), fun h => ?_⟩
  have hread := (h dottedAndSpaced hpairs).read { descriptor := { name := "my rows", role := .memory }, actions := [] }
    (by simp [dottedAndSpaced]) rfl
  obtain ⟨host, hhost, -⟩ := readResource_eq_query_iff.1 hread
  have hnone : readHost (fun _ => none) (resourceUri "my rows") = none := by decide
  rw [hnone] at hhost
  cases hhost

end NpsSdk.Nwp.Inbound
