import NpsSdk.Lib.BoundedWalk
import NpsSdk.Lib.Except
import NpsSdk.Nwp.ComplexServer

/-!
# Graph expansion

A query that is sent from node to node is a visit with a budget: its depth is the budget, and its trace holds the
nodes that it has come through.  Both are threaded through headers, as texts, and read as they were written where
the identifier of each node is an entry of a list that a header holds.

So the queries that one query leads to are walks with a budget, and the query has one answer, in which each child
has its entry.
-/

namespace NpsSdk.Nwp.ComplexNodeApp

open NpsSdk.Lib

/-- An identifier that a trace holds as it is: it is not empty, has no comma, no space around it, and no character
that a header does not hold. -/
structure IsNodeId (nodeId : String) : Prop where
  entry : IsEntry nodeId
  legal : ∀ c ∈ nodeId.toList, isHeaderChar c = true

theorem isNodeId_of_all {nodeId : String} (hne : nodeId ≠ "")
    (h : nodeId.toList.all (fun c => c ≠ ',' && !isJsSpace c && isHeaderChar c) = true) : IsNodeId nodeId := by
  have hall : ∀ c ∈ nodeId.toList, (c ≠ ',' ∧ isJsSpace c = false) ∧ isHeaderChar c = true := by
    simpa using h
  exact ⟨⟨hne, fun hcomma => (hall _ hcomma).1.1 rfl, trimmed_of_forall fun c hc => (hall c hc).1.2⟩,
    fun c hc => (hall c hc).2⟩

namespace Network

variable {ι F : Type} {net : Network ι F} {c d : Call ι} {query : Query F} {found : MemoryNodeQueryResult}
  {ref : ComplexGraphRef} {index : ℕ}

/-! ### What is read of a request -/

def headerDepth (depth : Option HeaderValue) : ℕ :=
  match depth with
  | none => 0
  | some depth => match stringToNumber depth.text with
    | .fin q => q.num.toNat
    | _ => 0

theorem capDepth_ok {q : ℚ} {n : ℕ} (hwhole : q.den = 1) (h : capDepth (.fin q) = .ok n) :
    n = q.num.toNat ∧ n ≤ COMPLEX_ABSOLUTE_MAX_DEPTH := by
  unfold capDepth at h
  dsimp only at h
  split at h
  · cases h
  · rename_i hnot
    cases h
    refine ⟨rfl, ?_⟩
    have hle : q ≤ COMPLEX_ABSOLUTE_MAX_DEPTH := by
      apply not_lt.1
      intro hlt
      apply hnot
      exact decide_eq_true hlt
    have hnum : (q.num : ℚ) ≤ ((COMPLEX_ABSOLUTE_MAX_DEPTH : ℤ) : ℚ) := by
      rw [(Rat.den_eq_one_iff q).1 hwhole]
      exact_mod_cast hle
    have hint : q.num ≤ (COMPLEX_ABSOLUTE_MAX_DEPTH : ℤ) := by exact_mod_cast hnum
    omega

theorem requestedDepth_ok {app : ComplexNodeApp} {depth : Option HeaderValue} {n : ℕ}
    (h : requestedDepth app depth = .ok n) : n = headerDepth depth ∧ n ≤ COMPLEX_ABSOLUTE_MAX_DEPTH := by
  cases depth with
  | none =>
    cases h
    exact ⟨rfl, Nat.zero_le _⟩
  | some v =>
    unfold requestedDepth at h
    unfold headerDepth
    dsimp only at h ⊢
    cases hparsed : stringToNumber v.text with
    | fin q =>
      rw [hparsed] at h
      split at h
      · cases h
      · rename_i hwhole
        have hden : q.den = 1 := of_decide_eq_true (Bool.not_eq_false _ ▸ (not_or.1 hwhole).1)
        cases hmax : app.graphMaxDepth with
        | none =>
          rw [hmax] at h
          exact capDepth_ok hden h
        | some m =>
          rw [hmax] at h
          dsimp only at h
          split at h
          · cases h
          · exact capDepth_ok hden h
    | _ =>
      rw [hparsed] at h
      cases h

theorem checkQuery_ok {app : ComplexNodeApp} {req : Request} (h : net.checkQuery app req = .ok query) :
    requestedDepth app req.depth = .ok query.requestedDepth ∧ query.trace = parseTrace req.trace ∧
      app.nodeId ∉ query.trace := by
  unfold checkQuery at h
  cases hframe : net.readFrame req.body with
  | error e =>
    rw [hframe] at h
    cases h
  | ok frame =>
    rw [hframe] at h
    dsimp only at h
    cases hdepth : requestedDepth app req.depth with
    | error r =>
      rw [hdepth] at h
      cases h
    | ok depth =>
      rw [hdepth] at h
      dsimp only at h
      split at h
      · cases h
      · rename_i hnew
        cases h
        exact ⟨rfl, rfl, hnew⟩

theorem receive_ok (h : net.receive c = .ok query) :
    requestedDepth (net.app c.node) c.request.depth = .ok query.requestedDepth ∧
      query.trace = parseTrace c.request.trace ∧ (net.app c.node).nodeId ∉ query.trace := by
  unfold receive at h
  dsimp only at h
  split at h
  · cases h
  · split at h
    · cases h
    · split at h
      · exact checkQuery_ok h
      · cases h

theorem plan_expands (h : net.plan c = .expands query found) :
    net.receive c = .ok query ∧ 0 < query.requestedDepth := by
  unfold plan at h
  cases hreceive : net.receive c with
  | error r =>
    rw [hreceive] at h
    cases h
  | ok q =>
    rw [hreceive] at h
    dsimp only at h
    cases hquery : net.query c.place c.node q.frame with
    | none =>
      rw [hquery] at h
      cases h
    | some f =>
      rw [hquery] at h
      dsimp only at h
      split at h
      · rename_i hdepth
        cases h
        exact ⟨rfl, hdepth.1⟩
      · cases h

/-! ### What is written into a child query -/

theorem exists_passOn (header : Option HeaderValue) : ∃ h, passOn header = .ok h := by
  cases header with
  | none => exact ⟨none, rfl⟩
  | some v =>
    unfold passOn
    dsimp only
    split
    · exact ⟨none, rfl⟩
    · obtain ⟨w, hw⟩ := v.exists_of_text
      exact ⟨some w, by rw [hw]; rfl⟩

theorem of_numberText {n : ℕ} (h : n < 2 ^ 53) :
    ∃ v, HeaderValue.of (numberText n) = .ok v ∧ headerDepth (some v) = n := by
  have htext : (numberText n).toList = Nat.toDigits 10 n := by rw [numberText_of_lt h, String.toList_ofList]
  have hdigit : ∀ c ∈ (numberText n).toList, c.isDigit = true := by
    rw [htext]
    exact fun c hc => Nat.isDigit_of_mem_toDigits (by decide) (by decide) hc
  have htrimmed : Trimmed isJsSpace (numberText n).toList :=
    trimmed_of_forall fun c hc => isJsSpace_of_isDigit (hdigit c hc)
  have hlegal : (numberText n).toList.all isHeaderChar = true := by
    rw [List.all_eq_true]
    intro c hc
    obtain ⟨hlow, hhigh⟩ := toNat_of_isDigit (hdigit c hc)
    exact isHeaderChar_of_visible (by omega) (by omega)
  refine ⟨_, HeaderValue.of_trimmed htrimmed hlegal, ?_⟩
  unfold headerDepth
  dsimp only
  rw [stringToNumber_numberText h]
  show (n : ℚ).num.toNat = n
  rw [Rat.num_natCast, Int.toNat_natCast]

theorem entries_of_trace (trace : Option HeaderValue) {nodeId : String} (hid : IsNodeId nodeId) :
    ∀ s ∈ parseTrace trace ++ [nodeId], IsEntry s ∧ ∀ c ∈ s.toList, isHeaderChar c = true := by
  intro s hs
  rcases List.mem_append.1 hs with hs | hs
  · cases trace with
    | none => cases hs
    | some v => exact ⟨isEntry_of_mem_commaList hs, fun c hc => List.all_eq_true.1 v.legal c (mem_of_mem_commaList hs hc)⟩
  · rw [List.mem_singleton.1 hs]
    exact ⟨hid.entry, hid.legal⟩

theorem childHeaders_ok (req : Request) {n : ℕ} (hn : n < 2 ^ 53) (trace : Option HeaderValue) {nodeId : String}
    (hid : IsNodeId nodeId) : ∃ depth trace' agent budget,
      childHeaders req n (parseTrace trace ++ [nodeId]) = .ok (depth, trace', agent, budget) ∧
        headerDepth (some depth) = n ∧ parseTrace (some trace') = parseTrace trace ++ [nodeId] := by
  have hentries := entries_of_trace trace hid
  obtain ⟨depth, hdepth, hspelled⟩ := of_numberText hn
  obtain ⟨trace', htrace, htext⟩ := HeaderValue.of_join (fun s hs => (hentries s hs).1) fun s hs => (hentries s hs).2
  obtain ⟨agent, hagent⟩ := exists_passOn req.agent
  obtain ⟨budget, hbudget⟩ := exists_passOn req.budget
  refine ⟨depth, trace', agent, budget, ?_, hspelled, ?_⟩
  · unfold childHeaders
    rw [hdepth, htrace, hagent, hbudget]
    rfl
  · unfold parseTrace
    dsimp only
    rw [htext]
    exact commaList_join fun s hs => (hentries s hs).1

/-! ### Steps -/

section

variable (hid : ∀ i, IsNodeId (net.app i).nodeId)

include hid

theorem attempt_cases (hreceive : net.receive c = .ok query) (ref : ComplexGraphRef) (index : ℕ) :
    (∃ code message, net.attempt c query ref index = .refused code message) ∨
      ∃ d lost, net.attempt c query ref index = .sends d lost ∧ headerDepth d.request.depth = query.requestedDepth - 1 ∧
        parseTrace d.request.trace = parseTrace c.request.trace ++ [(net.app c.node).nodeId] := by
  obtain ⟨hdepth, htrace, -⟩ := receive_ok hreceive
  have hshort : query.requestedDepth - 1 < 2 ^ 53 := by
    have hle := (requestedDepth_ok hdepth).2
    unfold COMPLEX_ABSOLUTE_MAX_DEPTH at hle
    omega
  obtain ⟨depth, trace, agent, budget, hheaders, hspelled, hparsed⟩ :=
    childHeaders_ok c.request hshort c.request.trace (hid c.node)
  unfold attempt
  rw [htrace, hheaders]
  cases net.validateChildUrl c.node ref.nodeUrl with
  | some ssrfError => exact .inl ⟨_, _, rfl⟩
  | none =>
    dsimp only
    cases net.writeFrame query.frame with
    | error e => exact .inl ⟨_, _, rfl⟩
    | ok body =>
      cases net.route c.node (queryUrl ref.nodeUrl) with
      | error e => exact .inl ⟨_, _, rfl⟩
      | ok target =>
        dsimp only
        cases net.delivery (c.place ++ [index]) with
        | fails aborted message => exact .inl ⟨_, _, rfl⟩
        | _ => exact .inr ⟨_, _, rfl, hspelled, hparsed⟩

end

def visit (net : Network ι F) (c : Call ι) : Visit ι where
  node := c.node
  budget := headerDepth c.request.depth
  visited := { i | (net.app i).nodeId ∈ parseTrace c.request.trace }

/-- The node takes up the query of a call: its provider is asked. -/
def TakesUp (net : Network ι F) (c : Call ι) : Prop := ∃ query, net.receive c = .ok query

theorem isNew_of_takesUp (h : net.TakesUp c) : (net.visit c).IsNew := by
  obtain ⟨query, hreceive⟩ := h
  obtain ⟨-, htrace, hnew⟩ := receive_ok hreceive
  rw [htrace] at hnew
  exact hnew

section Distinct

variable (hdistinct : Function.Injective fun i => (net.app i).nodeId) (hid : ∀ i, IsNodeId (net.app i).nodeId)

include hid

theorem budget_of_calls (h : net.Calls c d) : ∃ query, net.receive c = .ok query ∧ 0 < query.requestedDepth ∧
    headerDepth d.request.depth + 1 = query.requestedDepth ∧
      parseTrace d.request.trace = parseTrace c.request.trace ++ [(net.app c.node).nodeId] := by
  obtain ⟨hplan, href, hsends⟩ := h
  obtain ⟨hreceive, hpos⟩ := plan_expands hplan
  refine ⟨_, hreceive, hpos, ?_⟩
  obtain ⟨code, message, hrefused⟩ | ⟨d', lost', hsent, hdepth, htrace⟩ := attempt_cases hid hreceive _ _
  · rw [hrefused] at hsends
    cases hsends
  · rw [hsent] at hsends
    cases hsends
    exact ⟨by omega, htrace⟩

include hdistinct

/-- **A child query is a step of a walk.** -/
theorem step_of_calls (h : net.Calls c d) : Visit.Step (net.visit c) (net.visit d) := by
  obtain ⟨query, hreceive, -, hdepth, htrace⟩ := budget_of_calls hid h
  refine ⟨isNew_of_takesUp ⟨query, hreceive⟩, ?_, ?_⟩
  · show headerDepth d.request.depth + 1 = headerDepth c.request.depth
    rw [hdepth]
    exact (requestedDepth_ok (receive_ok hreceive).1).1
  · ext i
    show (net.app i).nodeId ∈ parseTrace d.request.trace ↔ i = c.node ∨ (net.app i).nodeId ∈ parseTrace c.request.trace
    rw [htrace, List.mem_append, List.mem_singleton, or_comm]
    refine or_congr_left ⟨fun hsame => hdistinct hsame, ?_⟩
    rintro rfl
    rfl

theorem walk_of_chain {cs : List (Call ι)} (h : List.IsChain net.Calls cs) :
    List.IsChain Visit.Step (cs.map net.visit) :=
  List.isChain_map _ |>.2 (h.imp fun _ _ => step_of_calls hdistinct hid)

theorem pairwise_of_chain {cs : List (Call ι)} (h : List.IsChain net.Calls cs) :
    cs.Pairwise fun a b => net.TakesUp b → a.node ≠ b.node := by
  have hwalk := List.pairwise_map.1 (Visit.pairwise_ne (walk_of_chain hdistinct hid h))
  exact hwalk.imp fun hne htakes => hne (isNew_of_takesUp htakes)

theorem length_of_chain {cs : List (Call ι)} (h : List.IsChain net.Calls (c :: cs)) (hne : cs ≠ []) :
    ∃ query, net.receive c = .ok query ∧ cs.length ≤ query.requestedDepth ∧
      query.requestedDepth ≤ COMPLEX_ABSOLUTE_MAX_DEPTH := by
  cases cs with
  | nil => exact absurd rfl hne
  | cons d cs =>
    obtain ⟨query, hreceive, -⟩ := budget_of_calls hid (List.isChain_cons_cons.1 h).1
    obtain ⟨hspelled, hcap⟩ := requestedDepth_ok (receive_ok hreceive).1
    refine ⟨query, hreceive, ?_, hcap⟩
    have hwalk := Visit.length_le_budget (walk_of_chain hdistinct hid h)
    rw [List.length_map] at hwalk
    rw [hspelled]
    exact hwalk

end Distinct

/-! ### Answers -/

/-- The answer to a call, once there is enough fuel for the deepest chain. -/
def Answers (net : Network ι F) (c : Call ι) (r : Response) : Prop :=
  ∀ fuel, COMPLEX_ABSOLUTE_MAX_DEPTH < fuel → net.serve fuel c = some (.ok r)

def entry (net : Network ι F) (c : Call ι) (query : Query F) (answer : Call ι → Response) (ref : ComplexGraphRef × ℕ) :
    ChildFetchResult :=
  match net.attempt c query ref.1 ref.2 with
  | .refused code message => ⟨ref.1.rel, ref.1.nodeUrl, .error (code, message)⟩
  | .throws message => ⟨ref.1.rel, ref.1.nodeUrl, .error (NWP_NODE_UNAVAILABLE, message)⟩
  | .sends d lost => net.readAnswer ref.1 lost (.ok (answer d))

section

variable (hid : ∀ i, IsNodeId (net.app i).nodeId)

include hid

theorem serve_expands (hplan : net.plan c = .expands query found) {answer : Call ι → Response} {fuel : ℕ}
    (hanswer : ∀ d, net.Calls c d → net.serve fuel d = some (.ok (answer d))) :
    net.serve (fuel + 1) c = some (.ok (capsResponse (net.app c.node) found
      (some ((net.app c.node).graph.zipIdx.map (net.entry c query answer))))) := by
  have hentries : ∀ ref ∈ (net.app c.node).graph.zipIdx,
      net.fetchChild (net.serve fuel) c query ref = some (.ok (net.entry c query answer ref)) := by
    rintro ⟨ref, index⟩ href
    unfold fetchChild entry
    obtain ⟨code, message, hrefused⟩ | ⟨d, lost, hsends, -⟩ := attempt_cases hid (plan_expands hplan).1 ref index
    · rw [hrefused]
    · dsimp only
      rw [hsends]
      dsimp only
      rw [hanswer d (.child hplan href hsends)]
      rfl
  unfold serve
  rw [hplan]
  dsimp only
  rw [mapM_answered hentries]
  rfl

/-- The size of a call: the hops that it may still take. -/
def size (c : Call ι) : ℕ := min (headerDepth c.request.depth) COMPLEX_ABSOLUTE_MAX_DEPTH

theorem size_of_calls (h : net.Calls c d) : size d < size c := by
  obtain ⟨query, hreceive, hpos, hdepth, -⟩ := budget_of_calls hid h
  obtain ⟨hspelled, hcap⟩ := requestedDepth_ok (receive_ok hreceive).1
  unfold size
  omega

theorem exists_answer_of_size (c : Call ι) : ∃ r, ∀ fuel, size c < fuel → net.serve fuel c = some (.ok r) := by
  refine exists_answer (fun n c r => net.serve n c = some (.ok r)) net.Calls (size_of_calls hid) (fun c answer => ?_) c
  cases hplan : net.plan c with
  | answers r =>
    refine ⟨r, fun n _ => ?_⟩
    unfold serve
    rw [hplan]
  | expands query found => exact ⟨_, fun n hanswer => serve_expands hid hplan hanswer⟩

end

theorem answers_of_size {r : Response} (h : ∀ fuel, size c < fuel → net.serve fuel c = some (.ok r)) :
    net.Answers c r :=
  fun fuel hfuel => h fuel (lt_of_le_of_lt (min_le_right _ _) hfuel)

theorem Answers.unique {r r' : Response} (h : net.Answers c r) (h' : net.Answers c r') : r = r' := by
  have heq := (h 6 (by decide)).symm.trans (h' 6 (by decide))
  exact Except.ok.inj (Option.some.inj heq)

/-! ### Expanded graphs -/

/-- The child of a reference is asked, its answer arrives, and it is a success with a body in JSON. -/
structure Succeeds (net : Network ι F) (c : Call ι) (query : Query F) (ref : ComplexGraphRef × ℕ) (data : Json) :
    Prop where
  exists_answer : ∃ d r, net.attempt c query ref.1 ref.2 = .sends d none ∧ net.Answers d r ∧ r.isOk = true ∧
    Json.parse r.body = some data

structure Reports (net : Network ι F) (c : Call ι) (query : Query F) (ref : ComplexGraphRef × ℕ)
    (entry : ChildFetchResult) : Prop where
  rel : entry.rel = ref.1.rel
  node : entry.node = ref.1.nodeUrl
  data (v : Json) : net.Succeeds c query ref v → entry.result = .ok v
  error : (¬ ∃ v, net.Succeeds c query ref v) → ∃ code message, entry.result = .error (code, message)

theorem reports_entry {answer : Call ι → Response} (hanswer : ∀ d, net.Answers d (answer d))
    (ref : ComplexGraphRef × ℕ) : net.Reports c query ref (net.entry c query answer ref) := by
  unfold entry
  cases hattempt : net.attempt c query ref.1 ref.2 with
  | refused code message =>
    refine ⟨rfl, rfl, ?_, fun _ => ⟨_, _, rfl⟩⟩
    rintro v ⟨d, r, hsends, -⟩
    rw [hattempt] at hsends
    cases hsends
  | throws message =>
    refine ⟨rfl, rfl, ?_, fun _ => ⟨_, _, rfl⟩⟩
    rintro v ⟨d, r, hsends, -⟩
    rw [hattempt] at hsends
    cases hsends
  | sends d lost =>
    refine ⟨rfl, rfl, ?_, fun hfails => ?_⟩
    · rintro v ⟨d', r, hsends, hr, hok, hparse⟩
      rw [hattempt] at hsends
      cases hsends
      rw [← (hanswer d).unique hr] at hok hparse
      show net.readResponse ref.1 (answer d) = .ok v
      unfold readResponse
      dsimp only
      rw [if_pos hok, hparse]
    · cases lost with
      | some message => exact ⟨_, _, rfl⟩
      | none =>
        show ∃ code message, net.readResponse ref.1 (answer d) = .error (code, message)
        unfold readResponse
        dsimp only
        split
        · rename_i hok
          cases hparse : Json.parse (answer d).body with
          | none => exact ⟨_, _, rfl⟩
          | some v => exact absurd ⟨v, d, _, hattempt, hanswer d, hok, hparse⟩ hfails
        · exact ⟨_, _, rfl⟩

/-- What is promised of a query: no node takes up what has come through it, no chain of child queries is longer than
the depth that is asked for, and there is one answer, with an entry for each reference. -/
structure GraphExpanded (net : Network ι F) (c : Call ι) : Prop where
  distinct {cs : List (Call ι)} (h : List.IsChain net.Calls (c :: cs)) :
    (c :: cs).Pairwise fun a b => net.TakesUp b → a.node ≠ b.node
  bounded {cs : List (Call ι)} (h : List.IsChain net.Calls (c :: cs)) (hne : cs ≠ []) :
    ∃ query, net.receive c = .ok query ∧ cs.length ≤ query.requestedDepth ∧
      query.requestedDepth ≤ COMPLEX_ABSOLUTE_MAX_DEPTH
  answered : ∃ r, net.Answers c r
  reported {query : Query F} {found : MemoryNodeQueryResult} (h : net.plan c = .expands query found) :
    ∃ entries, List.Forall₂ (net.Reports c query) (net.app c.node).graph.zipIdx entries ∧
      net.Answers c (capsResponse (net.app c.node) found (some entries))

/-- Nodes with empty providers, each of which refers to the next one. -/
def ring {ι : Type} (nodeId : ι → String) (next : ι → ι) : Network ι Unit where
  app i := { nodeId := nodeId i, pathPrefix := "", graph := [⟨"next", "https://example.com"⟩] }
  readFrame _ := .ok ()
  writeFrame _ := .ok "\x7b\x7d".toList
  query _ _ _ := some ⟨[], none⟩
  validateChildUrl _ _ := none
  route i _ := .ok (next i, "/query")
  delivery _ := .arrives
  elsewhere _ _ := ⟨404, []⟩
  toLowerCase s := s
  syntaxError _ := "SyntaxError"

/-- A query of a client, to a depth of two. -/
def start {ι : Type} (i : ι) : Call ι where
  node := i
  place := []
  request :=
    { pathname := "/query", depth := some ⟨"2", by decide⟩, trace := none, agent := none, budget := none
      body := "\x7b\x7d".toList }

def firstChild (net : Network ι F) (c : Call ι) : Option (Call ι) :=
  match net.plan c, (net.app c.node).graph.zipIdx with
  | .expands query _, (ref, index) :: _ => match net.attempt c query ref index with
    | .sends d _ => some d
    | _ => none
  | _, _ => none

theorem calls_firstChild (h : net.firstChild c = some d) : net.Calls c d := by
  unfold firstChild at h
  split at h
  · rename_i query found ref index refs hplan hgraph
    split at h
    · rename_i d' lost hsends
      obtain rfl : d' = d := Option.some.inj h
      exact .child hplan (hgraph ▸ List.mem_cons_self) hsends
    · cases h
  · cases h

/-- An identifier in ASCII, without a comma or a blank. -/
def IsAsciiId (nodeId : String) : Prop := ∀ c ∈ nodeId.toList, c.toNat < 128 ∧ c ≠ ',' ∧ c ≠ ' '

instance (nodeId : String) : Decidable (IsAsciiId nodeId) := List.decidableBAll _ _

theorem not_expanded_of_loop {nodeId : String}
    (h : ((ring (fun _ => nodeId) id).firstChild (start ())).any (fun d =>
      match (ring (fun _ => nodeId) id).receive d with | .ok _ => true | .error _ => false) = true) :
    ¬ (ring (fun _ : Unit => nodeId) id).GraphExpanded (start ()) := by
  intro hexpanded
  obtain ⟨d, hchild, htakes⟩ := (Option.any_eq_true _ _).1 h
  have hcalls : List.IsChain (ring (fun _ => nodeId) id).Calls [start (), d] :=
    List.isChain_pair.2 (calls_firstChild hchild)
  have hne := (List.pairwise_cons.1 (hexpanded.distinct hcalls)).1 d List.mem_cons_self
  apply hne
  · split at htakes
    · rename_i query hquery
      exact ⟨query, hquery⟩
    · cases htakes
  · rfl

end Network

end NpsSdk.Nwp.ComplexNodeApp
