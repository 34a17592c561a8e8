import NpsSdk.Nwp.Inbound.ToolNames

/-!
# One name for two protocols

MCP and A2A clients name the same actions, in their qualified form or by the action alone.  `resolveTool`
refuses a name that several actions answer to unqualified; `resolveAction` takes the first action that has the
name in either form.
-/

namespace NpsSdk.Nwp.Inbound

open NpsSdk.Lib

/-! ### The skill that a task asks for -/

structure A2aPart where
  type : String
  text : Option String := none
  data : Option Json := none
  metadata : Option Json := none

structure A2aMessage where
  role : String := "user"
  parts : List A2aPart := []
  metadata : Option Json := none

structure A2aSendTaskParams where
  id : String
  sessionId : Option String := none
  message : A2aMessage := {}
  metadata : Option Json := none

def SKILL_KEYS : List String := ["action_id", "actionId", "skill_id", "skillId", "skill"]

/-- The first of the members that an object has. -/
def tryGetElement (source : Option Json) (names : List String) : Option Json :=
  match source with
  | some (.obj members) => names.findSome? fun name => members.lookup name
  | _ => none

def tryGetString (source : Option Json) (names : List String) : Option String :=
  match tryGetElement source names with
  | some (.str value) => some value
  | _ => none

def firstNonEmpty (values : List (Option String)) : Option String :=
  (values.find? fun v => v.any (!isBlank ·)).join

/-- The first half of `resolveAction`. -/
def requestedSkill (task : A2aSendTaskParams) : Option String :=
  match firstNonEmpty [tryGetString task.metadata SKILL_KEYS, tryGetString task.message.metadata SKILL_KEYS] with
  | some requested => some requested
  | none => task.message.parts.findSome? fun part =>
      firstNonEmpty [tryGetString part.metadata SKILL_KEYS, tryGetString part.data SKILL_KEYS]

section

variable (lower : String → String)

/-- The loops of `resolveAction`, over the pairs that are left, with the candidates that were found. -/
def resolveActionFrom (requested : Option String) (candidates : List ResolvedTool) :
    List ResolvedTool → Option ResolvedTool
  | [] =>
    match candidates with
    | [tool] => some tool
    | _ => none
  | tool :: tools =>
    match requested with
    | none => resolveActionFrom requested (candidates ++ [tool]) tools
    | some requested' =>
      if eqIgnoreCase lower tool.name requested' || eqIgnoreCase lower tool.action.actionId requested' then some tool
      else resolveActionFrom requested candidates tools

def resolveAction (backends : List INwpBackend) (task : A2aSendTaskParams) : Option ResolvedTool :=
  resolveActionFrom lower (requestedSkill task) [] (invokableTools backends)

/-- What a client of MCP reaches by a name. -/
def toolOf (backends : List INwpBackend) (name : String) : Option ResolvedTool :=
  if isBlank name then none else (resolveTool lower backends name).toOption

def AsksFor (name : String) (task : A2aSendTaskParams) : Prop :=
  requestedSkill task = if isBlank name then none else some name

/-! ### What is asked of both -/

/-- A pair fits a name as well as `tool` does: qualified, where `tool` does, else by the action alone. -/
def FitsLike (name : String) (tool other : ResolvedTool) : Bool :=
  if Qualified lower name tool then Qualified lower name other
  else Unqualified lower name other && !Qualified lower name other

/-- **A name is shared and unambiguous**: both servers resolve it to the same action, none of several that it
fits equally, in whatever order the backends are. -/
structure Shared (backends : List INwpBackend) (name : String) : Prop where
  agree : ∀ task, AsksFor name task → ∀ tool,
    toolOf lower backends name = some tool ↔ resolveAction lower backends task = some tool
  single : ∀ task, AsksFor name task → ∀ tool,
    toolOf lower backends name = some tool ∨ resolveAction lower backends task = some tool →
      ((invokableTools backends).filter (FitsLike lower name tool)).length ≤ 1
  order : ∀ backends', backends'.Perm backends → toolOf lower backends' name = toolOf lower backends name ∧
    ∀ task, AsksFor name task → resolveAction lower backends' task = resolveAction lower backends task

def ById (name : String) (tool : ResolvedTool) : Bool := eqIgnoreCase lower tool.action.actionId name

/-- **When a name is shared**: it fits one pair qualified, and by its id no action of another node and none before
that pair; or it fits one pair unqualified, and by its id; or none by its id, and not just one unqualified.  Where
no name is given, there is not just one action. -/
inductive Clear (backends : List INwpBackend) (name : String) : Prop
  | unnamed (blank : isBlank name = true) (several : (invokableTools backends).length ≠ 1)
  | qualified (pre post : List INwpBackend) (backend : INwpBackend) (before after : List ResolvedTool)
      (tool : ResolvedTool) (named : isBlank name = false) (place : backends = pre ++ backend :: post)
      (inner : backend.tools = before ++ tool :: after) (fits : Qualified lower name tool = true)
      (others : ∀ other ∈ invokableTools pre ++ before ++ invokableTools post,
        Qualified lower name other = false ∧ ById lower name other = false)
      (later : ∀ other ∈ after, Qualified lower name other = false)
  | byId (tool : ResolvedTool) (named : isBlank name = false)
      (unlisted : ∀ other ∈ invokableTools backends, Qualified lower name other = false)
      (only : (invokableTools backends).filter (Unqualified lower name) = [tool]) (fits : ById lower name tool = true)
  | neither (named : isBlank name = false)
      (unlisted : ∀ other ∈ invokableTools backends,
        Qualified lower name other = false ∧ ById lower name other = false)
      (notOne : ((invokableTools backends).filter (Unqualified lower name)).length ≠ 1)

end

variable {lower : String → String} {backends backends' : List INwpBackend} {tools : List ResolvedTool}
  {tool : ResolvedTool} {name : String} {task : A2aSendTaskParams}

/-! ### What the servers resolve -/

/-- The one element of a list. -/
def sole {α : Type} : List α → Option α
  | [a] => some a
  | _ => none

theorem sole_eq_some_iff {α : Type} {l : List α} {a : α} : sole l = some a ↔ l = [a] := by
  match l with
  | [] | [_] | _ :: _ :: _ => simp [sole]

theorem sole_eq_none {α : Type} {l : List α} (h : l.length ≠ 1) : sole l = none := by
  match l, h with
  | [], _ | _ :: _ :: _, _ => rfl

/-- A pair that a task can ask for by a name. -/
def Asked (lower : String → String) (name : String) (tool : ResolvedTool) : Bool :=
  Qualified lower name tool || ById lower name tool

theorem toolOf_blank (h : isBlank name = true) : toolOf lower backends name = none := by
  rw [toolOf, if_pos h]

theorem toolOf_named (h : isBlank name = false) : toolOf lower backends name =
    match (invokableTools backends).find? (Qualified lower name) with
    | some tool => some tool
    | none => sole ((invokableTools backends).filter (Unqualified lower name)) := by
  rw [toolOf, h, resolveTool, resolveFrom_eq]
  cases (invokableTools backends).find? (Qualified lower name) with
  | some tool => rfl
  | none =>
    rw [List.nil_append]
    rcases (invokableTools backends).filter (Unqualified lower name) with _ | ⟨_, _ | ⟨_, _⟩⟩ <;> rfl

theorem resolveActionFrom_some {requested : String} :
    resolveActionFrom lower (some requested) [] tools = tools.find? (Asked lower requested) := by
  induction tools with
  | nil => rfl
  | cons tool tools ih =>
    by_cases hasked : Asked lower requested tool = true
    · rw [List.find?_cons_of_pos hasked, resolveActionFrom]
      exact if_pos hasked
    · rw [List.find?_cons_of_neg hasked, resolveActionFrom]
      exact (if_neg hasked).trans ih

theorem resolveActionFrom_none {candidates : List ResolvedTool} :
    resolveActionFrom lower none candidates tools = sole (candidates ++ tools) := by
  induction tools generalizing candidates with
  | nil =>
    rw [List.append_nil]
    match candidates with
    | [] | [_] | _ :: _ :: _ => rfl
  | cons tool tools ih =>
    rw [resolveActionFrom, ih, List.append_assoc, List.singleton_append]

theorem resolveAction_named (h : isBlank name = false) (hasks : AsksFor name task) :
    resolveAction lower backends task = (invokableTools backends).find? (Asked lower name) := by
  rw [AsksFor, h] at hasks
  rw [resolveAction, hasks]
  exact resolveActionFrom_some

theorem resolveAction_blank (h : isBlank name = true) (hasks : AsksFor name task) :
    resolveAction lower backends task = sole (invokableTools backends) := by
  rw [AsksFor, if_pos h] at hasks
  rw [resolveAction, hasks, resolveActionFrom_none, List.nil_append]

def taskFor (name : String) : A2aSendTaskParams :=
  { id := "task", metadata := some (.obj [("skill", .str name)]) }

theorem asksFor_taskFor (name : String) : AsksFor name (taskFor name) := by
  have hmember : tryGetString (taskFor name).metadata SKILL_KEYS = some name := by
    simp [tryGetString, tryGetElement, taskFor, SKILL_KEYS]
  have hnone : tryGetString (taskFor name).message.metadata SKILL_KEYS = none := rfl
  rw [AsksFor, requestedSkill, hmember, hnone]
  cases hblank : isBlank name with
  | true => simp [firstNonEmpty, hblank, taskFor]
  | false => simp [firstNonEmpty, hblank]

/-! ### Orders of the backends -/

theorem invokableTools_append {backends' : List INwpBackend} :
    invokableTools (backends ++ backends') = invokableTools backends ++ invokableTools backends' :=
  List.flatMap_append

theorem invokableTools_cons {backend : INwpBackend} :
    invokableTools (backend :: backends) = backend.tools ++ invokableTools backends :=
  List.flatMap_cons

theorem invokableTools_perm (h : backends'.Perm backends) :
    (invokableTools backends').Perm (invokableTools backends) := h.flatMap_right _

theorem find?_eq_some_of_only {p : ResolvedTool → Bool} (hmem : tool ∈ tools) (hp : p tool = true)
    (honly : ∀ other ∈ tools, p other = true → other = tool) : tools.find? p = some tool := by
  cases hfind : tools.find? p with
  | none =>
    rw [List.find?_eq_none] at hfind
    exact absurd hp (hfind tool hmem)
  | some other => rw [honly other (List.mem_of_find?_eq_some hfind) (List.find?_some hfind)]

theorem unqualified_of_byId (h : ById lower name tool = true) : Unqualified lower name tool = true := by
  rw [Unqualified, Bool.or_eq_true]
  exact .inl h

/-! ### A clear name is shared -/

theorem shared_of_result (result : Option ResolvedTool)
    (hresult : ∀ backends', backends'.Perm backends → toolOf lower backends' name = result ∧
      ∀ task, AsksFor name task → resolveAction lower backends' task = result)
    (hsingle : ∀ tool, result = some tool →
      ((invokableTools backends).filter (FitsLike lower name tool)).length ≤ 1) : Shared lower backends name := by
  obtain ⟨htool, htask⟩ := hresult backends (.refl _)
  refine ⟨fun task hasks tool => ?_, fun task hasks tool hor => ?_, fun backends' hperm => ?_⟩
  · rw [htool, htask task hasks]
  · rw [htool, htask task hasks, or_self] at hor
    exact hsingle tool hor
  · obtain ⟨htool', htask'⟩ := hresult backends' hperm
    exact ⟨htool'.trans htool.symm, fun task hasks => (htask' task hasks).trans (htask task hasks).symm⟩

theorem find?_asked_place {pre post : List INwpBackend} {backend : INwpBackend} {before after : List ResolvedTool}
    (hperm : backends'.Perm (pre ++ backend :: post)) (hinner : backend.tools = before ++ tool :: after)
    (hfits : Qualified lower name tool = true)
    (hothers : ∀ other ∈ invokableTools pre ++ before ++ invokableTools post, Asked lower name other = false) :
    (invokableTools backends').find? (Asked lower name) = some tool := by
  have hmem : backend ∈ backends' := hperm.mem_iff.2 (by simp)
  obtain ⟨pre', post', rfl⟩ := List.append_of_mem hmem
  have hrest : (pre' ++ post').Perm (pre ++ post) :=
    List.perm_cons backend |>.1 (List.perm_middle.symm.trans (hperm.trans List.perm_middle))
  have hpre : (invokableTools pre').find? (Asked lower name) = none := by
    rw [List.find?_eq_none]
    intro other hother
    have hmem' : other ∈ invokableTools (pre ++ post) :=
      (invokableTools_perm hrest).subset (by rw [invokableTools_append]; exact List.mem_append_left _ hother)
    rw [invokableTools_append, List.mem_append] at hmem'
    rw [hothers other (by simp only [List.mem_append]; tauto)]
    simp
  have hbefore : before.find? (Asked lower name) = none := by
    rw [List.find?_eq_none]
    intro other hother
    rw [hothers other (by simp [hother])]
    simp
  have hasked : Asked lower name tool = true := by
    rw [Asked, hfits, Bool.true_or]
  rw [invokableTools_append, List.find?_append, hpre, Option.none_or, invokableTools_cons, hinner,
    List.append_assoc, List.find?_append, hbefore, Option.none_or, List.cons_append, List.find?_cons_of_pos hasked]

theorem Clear.shared (h : Clear lower backends name) : Shared lower backends name := by
  cases h with
  | unnamed blank several =>
    refine shared_of_result none (fun backends' hperm => ⟨toolOf_blank blank, fun task hasks => ?_⟩) nofun
    rw [resolveAction_blank blank hasks, sole_eq_none]
    rwa [(invokableTools_perm hperm).length_eq]
  | qualified pre post backend before after tool named place inner fits others later =>
    subst place
    have hmem : tool ∈ invokableTools (pre ++ backend :: post) := by
      simp [invokableTools_append, invokableTools_cons, inner]
    have honly : ∀ other ∈ invokableTools (pre ++ backend :: post), Qualified lower name other = true →
        other = tool := by
      intro other hother hqualified
      simp only [invokableTools_append, invokableTools_cons, inner, List.mem_append, List.mem_cons] at hother
      rcases hother with hpre | (hbefore | rfl | hafter) | hpost
      · exact absurd hqualified (by rw [(others other (by simp [hpre])).1]; simp)
      · exact absurd hqualified (by rw [(others other (by simp [hbefore])).1]; simp)
      · rfl
      · exact absurd hqualified (by rw [later other hafter]; simp)
      · exact absurd hqualified (by rw [(others other (by simp [hpost])).1]; simp)
    refine shared_of_result (some tool) (fun backends' hperm => ⟨?_, fun task hasks => ?_⟩) ?_
    · have hfind := find?_eq_some_of_only ((invokableTools_perm hperm).mem_iff.2 hmem) fits
        fun other hother => honly other ((invokableTools_perm hperm).mem_iff.1 hother)
      rw [toolOf_named named, hfind]
    · rw [resolveAction_named named hasks]
      refine find?_asked_place hperm inner fits fun other hother => ?_
      rw [Asked, (others other hother).1, (others other hother).2, Bool.or_self]
    · rintro _ ⟨⟩
      have hfilter : ∀ other, FitsLike lower name tool other = Qualified lower name other := by
        intro other
        rw [FitsLike, if_pos fits]
      have hnil : ∀ tools : List ResolvedTool, (∀ other ∈ tools, Qualified lower name other = false) →
          tools.filter (Qualified lower name) = [] := by
        intro tools htools
        rw [List.filter_eq_nil_iff]
        exact fun other hother => by rw [htools other hother]; simp
      rw [funext hfilter, invokableTools_append, invokableTools_cons, inner, List.filter_append, List.filter_append,
        List.filter_append, List.filter_cons_of_pos fits, hnil _ later,
        hnil _ fun other hother => (others other (by simp [hother])).1,
        hnil _ fun other hother => (others other (by simp [hother])).1,
        hnil _ fun other hother => (others other (by simp [hother])).1]
      simp
  | byId tool named unlisted only fits =>
    have hmem : tool ∈ (invokableTools backends).filter (Unqualified lower name) := by rw [only]; simp
    refine shared_of_result (some tool) (fun backends' hperm => ⟨?_, fun task hasks => ?_⟩) ?_
    · have hnone : (invokableTools backends').find? (Qualified lower name) = none := by
        rw [List.find?_eq_none]
        intro other hother
        rw [unlisted other ((invokableTools_perm hperm).mem_iff.1 hother)]
        simp
      have honly := (invokableTools_perm hperm).filter (Unqualified lower name)
      rw [only, List.perm_singleton] at honly
      rw [toolOf_named named, hnone, honly]
      rfl
    · rw [resolveAction_named named hasks]
      refine find?_eq_some_of_only ((invokableTools_perm hperm).mem_iff.2 (List.mem_filter.1 hmem).1) ?_ ?_
      · rw [Asked, fits, Bool.or_true]
      · intro other hother hasked
        have hother' := (invokableTools_perm hperm).mem_iff.1 hother
        rw [Asked, unlisted other hother', Bool.false_or] at hasked
        have hfilter : other ∈ (invokableTools backends).filter (Unqualified lower name) :=
          List.mem_filter.2 ⟨hother', unqualified_of_byId hasked⟩
        rw [only] at hfilter
        exact List.mem_singleton.1 hfilter
    · rintro _ ⟨⟩
      have hsub : (invokableTools backends).filter (FitsLike lower name tool) =
          (invokableTools backends).filter (Unqualified lower name) := by
        refine List.filter_congr fun other hother => ?_
        rw [FitsLike, unlisted tool (List.mem_filter.1 hmem).1, unlisted other hother]
        simp
      rw [hsub, only]
      rfl
  | neither named unlisted notOne =>
    refine shared_of_result none (fun backends' hperm => ⟨?_, fun task hasks => ?_⟩) nofun
    · have hnone : (invokableTools backends').find? (Qualified lower name) = none := by
        rw [List.find?_eq_none]
        intro other hother
        rw [(unlisted other ((invokableTools_perm hperm).mem_iff.1 hother)).1]
        simp
      rw [toolOf_named named, hnone]
      refine sole_eq_none ?_
      rwa [((invokableTools_perm hperm).filter _).length_eq]
    · rw [resolveAction_named named hasks, List.find?_eq_none]
      intro other hother
      obtain ⟨hunlisted, hid⟩ := unlisted other ((invokableTools_perm hperm).mem_iff.1 hother)
      rw [Asked, hunlisted, hid]
      simp

/-! ### A shared name is clear -/

theorem Shared.found (h : Shared lower backends name) (hnamed : isBlank name = false)
    (hfind : (invokableTools backends).find? (Qualified lower name) = some tool)
    (hperm : backends'.Perm backends) : (invokableTools backends').find? (Asked lower name) = some tool := by
  have htask := asksFor_taskFor name
  rw [← resolveAction_named hnamed htask, (h.order backends' hperm).2 _ htask, ← h.agree _ htask,
    toolOf_named hnamed, hfind]

theorem Shared.mem_of_asked (h : Shared lower backends name) (hnamed : isBlank name = false)
    (hfind : (invokableTools backends).find? (Qualified lower name) = some tool) {backend : INwpBackend}
    {rest : List INwpBackend} (hperm : (backend :: rest).Perm backends) {other : ResolvedTool}
    {before after : List ResolvedTool} (hsplit : backend.tools = before ++ after) (hother : other ∈ before)
    (hasked : Asked lower name other = true) : tool ∈ before := by
  have hfound := h.found hnamed hfind hperm
  rw [invokableTools_cons, hsplit, List.append_assoc, List.find?_append] at hfound
  cases hbefore : before.find? (Asked lower name) with
  | none =>
    rw [List.find?_eq_none] at hbefore
    exact absurd hasked (hbefore other hother)
  | some found =>
    rw [hbefore, Option.some_or, Option.some.injEq] at hfound
    exact hfound ▸ List.mem_of_find?_eq_some hbefore

theorem Shared.clear (h : Shared lower backends name) : Clear lower backends name := by
  have htask := asksFor_taskFor name
  cases hblank : isBlank name with
  | true =>
    refine .unnamed hblank fun hone => ?_
    obtain ⟨tool, htools⟩ := List.length_eq_one_iff.1 hone
    have hagree := (h.agree _ htask tool).2 (by rw [resolveAction_blank hblank htask, htools]; rfl)
    rw [toolOf_blank hblank] at hagree
    cases hagree
  | false =>
    cases hfind : (invokableTools backends).find? (Qualified lower name) with
    | some tool =>
      have hfits := List.find?_some hfind
      obtain ⟨backend, hbackend, hmem⟩ := List.mem_flatMap.1 (List.mem_of_find?_eq_some hfind)
      obtain ⟨pre, post, rfl⟩ := List.append_of_mem hbackend
      obtain ⟨before, after, hinner⟩ := List.append_of_mem hmem
      -- the name fits no other pair qualified
      have hsingle := h.single _ htask tool (.inl (by rw [toolOf_named hblank, hfind]))
      have hlike : FitsLike lower name tool = Qualified lower name := by
        funext other
        rw [FitsLike, if_pos hfits]
      rw [hlike, invokableTools_append, invokableTools_cons, hinner] at hsingle
      simp only [List.filter_append, List.filter_cons_of_pos hfits, List.length_append, List.length_cons] at hsingle
      have hunlisted : ∀ tools : List ResolvedTool, (tools.filter (Qualified lower name)).length = 0 →
          ∀ other ∈ tools, Qualified lower name other = false := by
        intro tools hlength
        simpa [List.filter_eq_nil_iff] using List.length_eq_zero_iff.1 hlength
      have hpre := hunlisted (invokableTools pre) (by omega)
      have hbefore := hunlisted before (by omega)
      have hafter := hunlisted after (by omega)
      have hpost := hunlisted (invokableTools post) (by omega)
      have hothers : ∀ other ∈ invokableTools (pre ++ post), Qualified lower name other = false := by
        intro other hother
        rw [invokableTools_append, List.mem_append] at hother
        exact hother.elim (hpre other) (hpost other)
      -- and by its id no other node and no action before
      have hasked : ∀ other, Asked lower name other = true →
          other ∉ before ∧ other ∉ invokableTools (pre ++ post) := by
        refine fun other hasked => ⟨fun hother => ?_, fun hother => ?_⟩
        · have htool := h.mem_of_asked hblank hfind List.perm_middle.symm hinner hother hasked
          rw [hbefore tool htool] at hfits
          cases hfits
        · obtain ⟨backend', hbackend', hother'⟩ := List.mem_flatMap.1 hother
          obtain ⟨s, t, hsplit⟩ := List.append_of_mem hbackend'
          have hperm : (backend' :: backend :: (s ++ t)).Perm (pre ++ backend :: post) := by
            refine (List.Perm.swap backend backend' _).trans (.trans ?_ List.perm_middle.symm)
            rw [hsplit]
            exact List.perm_middle.symm.cons backend
          have htool := h.mem_of_asked hblank hfind hperm (List.append_nil _).symm hother' hasked
          have hmem' : tool ∈ invokableTools (pre ++ post) := List.mem_flatMap.2 ⟨backend', hbackend', htool⟩
          rw [hothers tool hmem'] at hfits
          cases hfits
      refine .qualified pre post backend before after tool hblank rfl hinner hfits (fun other hother => ?_) hafter
      have hno : Asked lower name other = false := by
        by_contra hyes
        obtain ⟨h1, h2⟩ := hasked other (by simpa using hyes)
        simp only [invokableTools_append, List.mem_append, not_or] at h2 hother
        tauto
      rw [Asked, Bool.or_eq_false_iff] at hno
      exact hno
    | none =>
      have hunlisted : ∀ other ∈ invokableTools backends, Qualified lower name other = false := by
        simpa using List.find?_eq_none.1 hfind
      have htool : toolOf lower backends name = _ := toolOf_named hblank
      rw [hfind] at htool
      have haction : resolveAction lower backends _ = _ := resolveAction_named hblank htask
      cases hid : (invokableTools backends).find? (Asked lower name) with
      | some tool =>
        have hagree := (h.agree _ htask tool).2 (haction.trans hid)
        rw [htool, sole_eq_some_iff] at hagree
        refine .byId tool hblank hunlisted hagree ?_
        have hasked := List.find?_some hid
        rwa [Asked, hunlisted tool (List.mem_of_find?_eq_some hid), Bool.false_or] at hasked
      | none =>
        refine .neither hblank (fun other hother => ?_) fun hone => ?_
        · have hno := List.find?_eq_none.1 hid other hother
          rw [Asked, hunlisted other hother, Bool.false_or] at hno
          exact ⟨hunlisted other hother, by simpa using hno⟩
        · obtain ⟨tool, honly⟩ := List.length_eq_one_iff.1 hone
          have hagree := (h.agree _ htask tool).1 (by rw [htool, honly]; rfl)
          rw [haction, hid] at hagree
          cases hagree

/-- **A name is shared by both servers exactly if it is clear.** -/
theorem shared_iff_clear (lower : String → String) (backends : List INwpBackend) (name : String) :
    Shared lower backends name ↔ Clear lower backends name :=
  ⟨Shared.clear, Clear.shared⟩

def ordersNode (name : String) : INwpBackend :=
  { descriptor := { name, role := .action }, actions := [{ actionId := "order" }] }

/-- Two nodes with an action of the same id. -/
def twoOrders : List INwpBackend := [ordersNode "east", ordersNode "west"]

/-- A task for the id is given to the first of them, and the tool of that name is not found. -/
theorem order_guessed : ¬ ∀ (backends : List INwpBackend) (name : String), Shared lowerLatin backends name := by
  intro h
  obtain ⟨tool, haction⟩ : ∃ tool, resolveAction lowerLatin twoOrders (taskFor "order") = some tool :=
    ⟨{ backend := ordersNode "east", action := { actionId := "order" } }, rfl⟩
  have htool := ((h twoOrders "order").agree _ (asksFor_taskFor _) tool).2 haction
  have hnone : toolOf lowerLatin twoOrders "order" = none := rfl
  rw [hnone] at htool
  cases htool

end NpsSdk.Nwp.Inbound
