import NpsSdk.Lib.Json
import NpsSdk.Lib.LowerCase

/-!
# Names of MCP tools

The actions of the nodes behind a bridge are tools of one flat namespace.  A name is not split again: what it
names is found by writing the names of all actions once more.

`lower` is `toLowerCase`.  A backend describes itself in the same way whenever it is asked.
-/

namespace NpsSdk.Nwp.Inbound

open NpsSdk.Lib

/-! ### Backends -/

inductive NwpNodeRole
  | unknown | memory | action | complex | anchor | bridge
deriving DecidableEq

structure NwpNodeDescriptor where
  name : String
  role : NwpNodeRole
  displayName : Option String := none
  description : Option String := none

def NwpNodeDescriptor.isQueryable (d : NwpNodeDescriptor) : Bool := d.role = .memory || d.role = .complex

def NwpNodeDescriptor.isInvokable (d : NwpNodeDescriptor) : Bool := d.role = .action || d.role = .complex

structure NwpActionDescriptor where
  actionId : String
  description : Option String := none
  inputSchema : Option Json := none
  async : Option Bool := none

def openObjectSchema : Json := .obj [("type", .str "object"), ("additionalProperties", .bool true)]

/-- One node behind the bridge, as it describes itself. -/
structure INwpBackend where
  descriptor : NwpNodeDescriptor
  actions : List NwpActionDescriptor

structure ResolvedTool where
  backend : INwpBackend
  action : NwpActionDescriptor

/-- The pairs that a backend contributes to the loops over backends and their actions. -/
def INwpBackend.tools (backend : INwpBackend) : List ResolvedTool :=
  if backend.descriptor.isInvokable then backend.actions.map fun action => { backend, action } else []

/-- The pairs in the order of the loops. -/
def invokableTools (backends : List INwpBackend) : List ResolvedTool := backends.flatMap INwpBackend.tools

/-! ### Names -/

/-- `/[A-Za-z0-9_\-.]/`. -/
def isNameChar (c : Char) : Bool :=
  ('A' ≤ c && c ≤ 'Z') || ('a' ≤ c && c ≤ 'z') || ('0' ≤ c && c ≤ '9') || c = '_' || c = '-' || c = '.'

/-- A text without the underscores it starts and ends with. -/
def stripUnderscores (cs : List Char) : List Char :=
  ((cs.dropWhile (· = '_')).reverse.dropWhile (· = '_')).reverse

def sanitize (value : String) : String :=
  if isBlank value then "node"
  else
    let mapped := (trim value).toList.map fun ch => if isNameChar ch then ch else '_'
    let trimmed := stripUnderscores mapped
    if trimmed = [] then "node" else String.ofList trimmed

namespace McpToolName

def SEPARATOR : String := "__"

def encodeActionSegment (actionId : String) : String :=
  String.ofList ((sanitize actionId).toList.map fun c => if c = '.' then '_' else c)

def encode (nodeName actionId : String) : String := sanitize nodeName ++ SEPARATOR ++ encodeActionSegment actionId

end McpToolName

/-- The name under which a pair is listed. -/
def ResolvedTool.name (tool : ResolvedTool) : String :=
  McpToolName.encode tool.backend.descriptor.name tool.action.actionId

/-! ### Listing and calling -/

structure McpTool where
  name : String
  inputSchema : Json
  description : Option String

def listTools (backends : List INwpBackend) : List McpTool :=
  (invokableTools backends).map fun tool =>
    { name := tool.name
      inputSchema := tool.action.inputSchema.getD openObjectSchema
      description := tool.action.description }

section

variable (lower : String → String)

def eqIgnoreCase (a b : String) : Bool := lower a = lower b

/-- The loops of `resolveTool`, over the pairs that are left, with the unqualified ones that were found. -/
def resolveFrom (toolName : String) (unqualified : List ResolvedTool) :
    List ResolvedTool → Except (List String) ResolvedTool
  | [] =>
    match unqualified with
    | [tool] => .ok tool
    | _ => .error (unqualified.map ResolvedTool.name)
  | tool :: tools =>
    if eqIgnoreCase lower tool.name toolName then .ok tool
    else if eqIgnoreCase lower tool.action.actionId toolName ||
        eqIgnoreCase lower (McpToolName.encodeActionSegment tool.action.actionId) toolName then
      resolveFrom toolName (unqualified ++ [tool]) tools
    else resolveFrom toolName unqualified tools

/-- The tool of a name; else the candidates. -/
def resolveTool (backends : List INwpBackend) (toolName : String) : Except (List String) ResolvedTool :=
  resolveFrom lower toolName [] (invokableTools backends)

/-- The name is the one under which the pair is listed. -/
def Qualified (toolName : String) (tool : ResolvedTool) : Bool := eqIgnoreCase lower tool.name toolName

def Unqualified (toolName : String) (tool : ResolvedTool) : Bool :=
  eqIgnoreCase lower tool.action.actionId toolName ||
    eqIgnoreCase lower (McpToolName.encodeActionSegment tool.action.actionId) toolName

inductive ToolCall
  | invalidParams (message : String)
  | notFound (tool : String) (candidates : List String)
  | invoke (backend : INwpBackend) (actionId : String) (async : Bool)

/-- `callTool`, up to what it invokes; a name that is no string is none. -/
def callTool (backends : List INwpBackend) (name : Option String) : ToolCall :=
  match name with
  | none => .invalidParams "MCP tools/call requires params.name."
  | some name =>
    if isBlank name then .invalidParams "MCP tools/call requires params.name."
    else match resolveTool lower backends name with
      | .error candidates => .notFound name candidates
      | .ok tool => .invoke tool.backend tool.action.actionId (tool.action.async.getD false)

variable {lower} {backends : List INwpBackend} {tools : List ResolvedTool} {toolName : String}

/-- **What a name is resolved to**: the first pair that is listed under it, else the one that it fits unqualified. -/
theorem resolveFrom_eq {unqualified : List ResolvedTool} : resolveFrom lower toolName unqualified tools =
    match tools.find? (Qualified lower toolName) with
    | some tool => .ok tool
    | none =>
      match unqualified ++ tools.filter (Unqualified lower toolName) with
      | [tool] => .ok tool
      | candidates => .error (candidates.map ResolvedTool.name) := by
  induction tools generalizing unqualified with
  | nil =>
    rw [List.find?_nil, List.filter_nil, List.append_nil]
    match unqualified with
    | [] | [_] | _ :: _ :: _ => rfl
  | cons tool tools ih =>
    by_cases hqualified : Qualified lower toolName tool = true
    · rw [resolveFrom, List.find?_cons_of_pos hqualified]
      exact if_pos hqualified
    · rw [List.find?_cons_of_neg hqualified]
      by_cases hbare : Unqualified lower toolName tool = true
      · rw [List.filter_cons_of_pos hbare, resolveFrom]
        refine (if_neg hqualified).trans ((if_pos hbare).trans ?_)
        rw [ih, List.append_assoc, List.singleton_append]
      · rw [List.filter_cons_of_neg hbare, resolveFrom]
        exact (if_neg hqualified).trans ((if_neg hbare).trans ih)

end

/-! ### What a sanitised text is made of -/

theorem mem_stripUnderscores {cs : List Char} {c : Char} (h : c ∈ stripUnderscores cs) : c ∈ cs := by
  unfold stripUnderscores at h
  have hsuffix := List.dropWhile_suffix (fun c => decide (c = '_')) |>.subset (List.mem_reverse.1 h)
  exact (List.dropWhile_suffix _).subset (List.mem_reverse.1 hsuffix)

theorem getLast_stripUnderscores (cs : List Char) : (stripUnderscores cs).getLast? ≠ some '_' := by
  unfold stripUnderscores
  rw [List.getLast?_reverse]
  intro h
  have hhead := List.head?_dropWhile_not (fun c => decide (c = '_')) (cs.dropWhile (· = '_')).reverse
  rw [h] at hhead
  simp at hhead

theorem sanitize_spec (value : String) : (sanitize value).toList ≠ [] ∧
    (∀ c ∈ (sanitize value).toList, isNameChar c = true) ∧ (sanitize value).toList.getLast? ≠ some '_' := by
  have hnode : "node".toList ≠ [] ∧ (∀ c ∈ "node".toList, isNameChar c = true) ∧ "node".toList.getLast? ≠ some '_' :=
    ⟨by decide, List.all_eq_true.1 (by decide), by decide⟩
  unfold sanitize
  split
  · exact hnode
  · dsimp only
    split
    · exact hnode
    · rename_i hne
      rw [String.toList_ofList]
      refine ⟨hne, fun c hc => ?_, getLast_stripUnderscores _⟩
      obtain ⟨ch, -, rfl⟩ := List.mem_map.1 (mem_stripUnderscores hc)
      split
      · assumption
      · rfl

theorem ascii_of_isNameChar {c : Char} (h : isNameChar c = true) : c.toNat < 128 := by
  simp only [isNameChar, Bool.or_eq_true, Bool.and_eq_true, decide_eq_true_eq] at h
  rcases h with ((((⟨-, hle⟩ | ⟨-, hle⟩) | ⟨-, hle⟩) | rfl) | rfl) | rfl
  · have hnat : c.toNat ≤ 'Z'.toNat := hle
    exact hnat.trans_lt (by decide)
  · have hnat : c.toNat ≤ 'z'.toNat := hle
    exact hnat.trans_lt (by decide)
  · have hnat : c.toNat ≤ '9'.toNat := hle
    exact hnat.trans_lt (by decide)
  · decide
  · decide
  · decide

/-! ### When two pairs are listed under one name -/

section

variable (lower : String → String)

/-- What a name says of the node, and of the action. -/
def nodeForm (tool : ResolvedTool) : String := lower (sanitize tool.backend.descriptor.name)

def actionForm (tool : ResolvedTool) : String := lower (McpToolName.encodeActionSegment tool.action.actionId)

/-- The node of `q` is called like the one of `p` and a part of the action of `p`. -/
def Overlaps (p q : ResolvedTool) : Prop :=
  ∃ w, nodeForm lower q = nodeForm lower p ++ "__" ++ w ∧ actionForm lower p = w ++ "__" ++ actionForm lower q

/-- **Two pairs are spelled alike**: the node and the action of the one are written like those of the other, or
a part between double underscores belongs to the node in the one and to the action in the other. -/
def SpelledAlike (p q : ResolvedTool) : Prop :=
  (nodeForm lower p = nodeForm lower q ∧ actionForm lower p = actionForm lower q) ∨ Overlaps lower p q ∨
    Overlaps lower q p

end

variable {lower : String → String} {p q : ResolvedTool}

theorem ascii_segment (actionId : String) :
    ∀ c ∈ (McpToolName.encodeActionSegment actionId).toList, c.toNat < 128 := by
  intro c hc
  rw [McpToolName.encodeActionSegment, String.toList_ofList] at hc
  obtain ⟨d, hd, rfl⟩ := List.mem_map.1 hc
  split
  · decide
  · exact ascii_of_isNameChar ((sanitize_spec actionId).2.1 d hd)

theorem ascii_name (tool : ResolvedTool) : ∀ c ∈ tool.name.toList, c.toNat < 128 := by
  intro c hc
  simp only [ResolvedTool.name, McpToolName.encode, String.toList_append, List.mem_append] at hc
  rcases hc with (hnode | hsep) | haction
  · exact ascii_of_isNameChar ((sanitize_spec _).2.1 c hnode)
  · obtain rfl : c = '_' := by simpa [McpToolName.SEPARATOR] using hsep
    decide
  · exact ascii_segment _ c haction

theorem lower_name (hlower : LowersAscii lower) (tool : ResolvedTool) :
    (lower tool.name).toList = (nodeForm lower tool).toList ++ '_' :: '_' :: (actionForm lower tool).toList := by
  have hnode : ∀ c ∈ (sanitize tool.backend.descriptor.name).toList, c.toNat < 128 :=
    fun c hc => ascii_of_isNameChar ((sanitize_spec _).2.1 c hc)
  rw [hlower _ (ascii_name tool), nodeForm, hlower _ hnode, actionForm, hlower _ (ascii_segment _)]
  simp [ResolvedTool.name, McpToolName.encode, McpToolName.SEPARATOR]

theorem getLast_nodeForm (hlower : LowersAscii lower) (tool : ResolvedTool) :
    (nodeForm lower tool).toList.getLast? ≠ some '_' := by
  obtain ⟨-, hchars, hlast⟩ := sanitize_spec tool.backend.descriptor.name
  rw [nodeForm, hlower _ fun c hc => ascii_of_isNameChar (hchars c hc), String.toList_ofList, List.getLast?_map]
  intro h
  obtain ⟨c, hc, hunderscore⟩ := Option.map_eq_some_iff.1 h
  rw [eq_of_toLower (by decide) hunderscore] at hc
  exact hlast hc

theorem overlaps_iff : Overlaps lower p q ↔ ∃ w : List Char,
    (nodeForm lower q).toList = (nodeForm lower p).toList ++ '_' :: '_' :: w ∧
      (actionForm lower p).toList = w ++ '_' :: '_' :: (actionForm lower q).toList := by
  constructor
  · rintro ⟨w, hnode, haction⟩
    refine ⟨w.toList, ?_, ?_⟩
    · rw [hnode]
      simp
    · rw [haction]
      simp
  · rintro ⟨w, hnode, haction⟩
    refine ⟨String.ofList w, String.toList_inj.1 ?_, String.toList_inj.1 ?_⟩
    · rw [hnode]
      simp
    · rw [haction]
      simp

/-- **Two pairs are listed under one name**, up to case, exactly if they are spelled alike. -/
theorem lower_name_eq_iff (hlower : LowersAscii lower) : lower p.name = lower q.name ↔ SpelledAlike lower p q := by
  rw [← String.toList_inj, lower_name hlower, lower_name hlower,
    append_double_sep (getLast_nodeForm hlower p) (getLast_nodeForm hlower q), SpelledAlike, overlaps_iff,
    overlaps_iff, String.toList_inj, String.toList_inj]

/-! ### Listing and calling agree -/

/-- **What is listed can be called**: the listed names are distinct up to case, and calling one invokes the action
it was listed for. -/
structure ToolsCoherent (lower : String → String) (backends : List INwpBackend) : Prop where
  distinct : ((listTools backends).map fun tool => lower tool.name).Nodup
  called : ∀ tool ∈ invokableTools backends, callTool lower backends (some tool.name) =
    .invoke tool.backend tool.action.actionId (tool.action.async.getD false)

theorem isBlank_name (tool : ResolvedTool) : isBlank tool.name = false := by
  have hunderscore : '_' ∈ tool.name.toList := by simp [ResolvedTool.name, McpToolName.encode, McpToolName.SEPARATOR]
  rw [isBlank, List.all_eq_false]
  exact ⟨'_', hunderscore, by decide⟩

/-- Where the values of `f` are distinct, an element is found by its value. -/
theorem find?_of_nodup {α β : Type} [DecidableEq β] {f : α → β} {l : List α} {a : α} (hnodup : (l.map f).Nodup)
    (ha : a ∈ l) : l.find? (fun b => decide (f b = f a)) = some a := by
  obtain ⟨b, hb⟩ := Option.isSome_iff_exists.1 <|
    (List.find?_isSome (p := fun b => decide (f b = f a))).2 ⟨a, ha, decide_eq_true rfl⟩
  have heq : f b = f a := by simpa using List.find?_some hb
  rw [hb, List.inj_on_of_nodup_map hnodup (List.mem_of_find?_eq_some hb) ha heq]

theorem distinct_iff (hlower : LowersAscii lower) (backends : List INwpBackend) :
    ((listTools backends).map fun tool => lower tool.name).Nodup ↔
      (invokableTools backends).Pairwise fun p q => ¬ SpelledAlike lower p q := by
  rw [listTools, List.map_map, List.Nodup, List.pairwise_map]
  simp only [Function.comp_apply, ne_eq, lower_name_eq_iff hlower]

/-- **The tools that are listed can be called** exactly if no two of them are spelled alike. -/
theorem toolsCoherent_iff (hlower : LowersAscii lower) (backends : List INwpBackend) :
    ToolsCoherent lower backends ↔ (invokableTools backends).Pairwise fun p q => ¬ SpelledAlike lower p q := by
  rw [← distinct_iff hlower]
  refine ⟨ToolsCoherent.distinct, fun hdistinct => ⟨hdistinct, fun tool htool => ?_⟩⟩
  have hnodup : ((invokableTools backends).map fun tool => lower tool.name).Nodup := by
    rw [listTools, List.map_map] at hdistinct
    exact hdistinct
  have hfind : (invokableTools backends).find? (Qualified lower tool.name) = some tool := find?_of_nodup hnodup htool
  have hresolve : resolveTool lower backends tool.name = .ok tool := by
    rw [resolveTool, resolveFrom_eq, hfind]
  simp only [callTool, isBlank_name, hresolve, Bool.false_eq_true, if_false]

end NpsSdk.Nwp.Inbound
