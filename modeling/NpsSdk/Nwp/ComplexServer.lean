import NpsSdk.Lib.HeaderText
import NpsSdk.Lib.StringToNumber
import NpsSdk.Nwp.ErrorCodes

/-!
# Complex nodes

`ComplexNodeApp` of `complex-server.ts`, and a network of such nodes, whose references to children lead to
nodes of the network.

A query is a call of a node, at a place: the indices of the references that it was sent along.  What the
surroundings do may differ from place to place: what a provider answers, and whether the answer to a child
query arrives.  All requests are POSTs; headers of answers are left out.
-/

namespace NpsSdk.Nwp

open NpsSdk.Lib

def NWP_QUERY_FILTER_INVALID : String := "NWP-QUERY-FILTER-INVALID"
def NWP_DEPTH_EXCEEDED : String := "NWP-DEPTH-EXCEEDED"
def NWP_GRAPH_CYCLE : String := "NWP-GRAPH-CYCLE"

/-- The absolute ceiling of a traversal. -/
def COMPLEX_ABSOLUTE_MAX_DEPTH : ℕ := 5

structure ComplexGraphRef where
  rel : String
  nodeUrl : String

structure ComplexNodeApp where
  nodeId : String
  /-- Without the slashes at its end. -/
  pathPrefix : String
  requireAuth : Bool := false
  /-- `undefined` where the options name it without a value. -/
  graphMaxDepth : Option JsNum := some (.finite (.ofNat 2))
  graph : List ComplexGraphRef
  /-- Empty without a schema. -/
  anchorId : String := ""

namespace ComplexNodeApp

structure MemoryNodeQueryResult where
  rows : List Json
  nextCursor : Option String := none

structure Request where
  pathname : String
  depth : Option HeaderValue
  trace : Option HeaderValue
  agent : Option HeaderValue
  budget : Option HeaderValue
  body : List Char

structure Response where
  status : ℕ
  body : List Char
deriving Inhabited

def Response.isOk (r : Response) : Bool := decide (200 ≤ r.status) && decide (r.status ≤ 299)

structure Call (ι : Type) where
  node : ι
  place : List ℕ
  request : Request

/-- What becomes of a child query that is sent. -/
inductive Delivery
  | arrives
  /-- The query arrives, and its answer does not. -/
  | lost (aborted : Bool) (message : String)
  | fails (aborted : Bool) (message : String)

/-- Nodes that refer to each other, and their surroundings; `F` are the frames of queries. -/
structure Network (ι F : Type) where
  app : ι → ComplexNodeApp
  /-- `QueryFrame.fromDict(await req.json())`. -/
  readFrame : List Char → Except String F
  /-- `JSON.stringify(frame.toDict())`. -/
  writeFrame : F → Except String (List Char)
  /-- What a provider answers; it may throw. -/
  query : List ℕ → ι → F → Option MemoryNodeQueryResult
  /-- The error of a child URL that a node does not accept. -/
  validateChildUrl : ι → String → Option String
  /-- The node and the path that a URL leads to. -/
  route : ι → String → Except String (ι × String)
  delivery : List ℕ → Delivery
  /-- The manifest, the schema, the actions, invocations, and the paths that are not found. -/
  elsewhere : ι → Request → Response
  toLowerCase : String → String
  /-- The text of the error of `JSON.parse`. -/
  syntaxError : List Char → String

def errorResponse (httpStatus : ℕ) (npsStatus errorCode message : String) : Response :=
  ⟨httpStatus, Json.text (.obj [("status", .str npsStatus), ("error", .str errorCode), ("message", .str message)])⟩

def parseTrace (raw : Option HeaderValue) : List String :=
  match raw with
  | none => []
  | some raw => commaList raw.text

/-- What stands for a number in a message. -/
def numberOf : JsNum → String
  | .finite n => String.ofList n.text
  | .nan => "NaN"
  | .infinity => "Infinity"
  | .negInfinity => "-Infinity"

def depthExceeded (message : String) : Response :=
  errorResponse 400 "NPS-CLIENT-BAD-REQUEST" NWP_DEPTH_EXCEEDED message

def capDepth (parsed : JsDouble) : Except Response ℕ :=
  let parsedText := parsed.wholeText
  if .fin COMPLEX_ABSOLUTE_MAX_DEPTH < parsed then
    .error (depthExceeded s!"X-NWP-Depth {parsedText} exceeds NPS-2 §11 absolute cap {COMPLEX_ABSOLUTE_MAX_DEPTH}.")
  else match parsed with
    | .fin q => .ok q.num.toNat
    | _ => .ok 0

def requestedDepth (app : ComplexNodeApp) (depth : Option HeaderValue) : Except Response ℕ :=
  match depth with
  | none => .ok 0
  | some depth =>
    let depthRaw := depth.text
    let parsed := stringToNumber depthRaw
    let parsedText := parsed.wholeText
    if parsed.isInteger = false ∨ parsed < .fin 0 then
      .error (depthExceeded s!"X-NWP-Depth '{depthRaw}' is not a non-negative integer.")
    else match app.graphMaxDepth with
      | none => capDepth parsed
      | some graphMaxDepth =>
        let maxText := numberOf graphMaxDepth
        if graphMaxDepth.double < parsed then
          .error (depthExceeded s!"X-NWP-Depth {parsedText} exceeds node max_depth {maxText}.")
        else capDepth parsed

/-! ### Answers -/

/-- An entry of the graph of an answer: data, or a code and a message. -/
structure ChildFetchResult where
  rel : String
  node : String
  result : Except (String × String) Json

def ChildFetchResult.json (entry : ChildFetchResult) : Json :=
  match entry.result with
  | .ok data => .obj [("rel", .str entry.rel), ("node", .str entry.node), ("data", data)]
  | .error (code, message) => .obj [("rel", .str entry.rel), ("node", .str entry.node),
      ("error", .obj [("code", .str code), ("message", .str message)])]

def capsule (app : ComplexNodeApp) (found : MemoryNodeQueryResult) (graphElement : Option (List ChildFetchResult)) :
    Json :=
  .obj ([("anchor_ref", if app.anchorId = "" then .null else .str app.anchorId),
      ("count", .num (JsNumber.ofNat found.rows.length)),
      ("data", .arr found.rows)] ++
    (found.nextCursor.toList.map fun cursor => ("next_cursor", Json.str cursor)) ++
    graphElement.toList.map fun entries => ("graph", Json.arr (entries.map ChildFetchResult.json)))

def capsResponse (app : ComplexNodeApp) (found : MemoryNodeQueryResult)
    (graphElement : Option (List ChildFetchResult)) : Response :=
  ⟨200, Json.text (capsule app found graphElement)⟩

/-- The characters that fit into a number of code units; half of a surrogate pair is left out. -/
def takeUnits : ℕ → List Char → List Char
  | _, [] => []
  | n, c :: cs =>
    let units := if 0x10000 ≤ c.toNat then 2 else 1
    if units ≤ n then c :: takeUnits (n - units) cs else []

def truncate (s : List Char) : String :=
  if utf16Length (String.ofList s) ≤ 256 then String.ofList s else String.ofList (takeUnits 256 s ++ ['…'])

namespace Network

variable {ι F : Type} (net : Network ι F)

/-! ### Queries -/

/-- A query that passes the checks before the provider is asked. -/
structure Query (F : Type) where
  frame : F
  requestedDepth : ℕ
  trace : List String

/-- The part of `handleQuery` before the provider is asked. -/
def checkQuery (app : ComplexNodeApp) (req : Request) : Except Response (Query F) :=
  match net.readFrame req.body with
  | .error e => .error (errorResponse 400 "NPS-CLIENT-BAD-REQUEST" NWP_QUERY_FILTER_INVALID e)
  | .ok frame =>
    match requestedDepth app req.depth with
    | .error r => .error r
    | .ok depth =>
      let trace := parseTrace req.trace
      if app.nodeId ∈ trace then
        let nodeId := app.nodeId
        .error (errorResponse 422 "NPS-CLIENT-UNPROCESSABLE" NWP_GRAPH_CYCLE s!"graph cycle detected at '{nodeId}'.")
      else .ok ⟨frame, depth, trace⟩

/-- `fetch`, up to the provider of a query: the query, or an answer without one. -/
def receive (c : Call ι) : Except Response (Query F) :=
  let app := net.app c.node
  let req := c.request
  if startsWith (net.toLowerCase req.pathname) (net.toLowerCase app.pathPrefix) = false then .error ⟨404, []⟩
  else if app.requireAuth ∧ (req.agent.map (·.text)).getD "" = "" then
    .error (errorResponse 401 "NPS-CLIENT-UNAUTHORIZED" NWP_AUTH_NID_SCOPE_VIOLATION "X-NWP-Agent header is required.")
  else
    let sub := String.ofList (req.pathname.toList.drop (utf16Length app.pathPrefix))
    if sub = "/query" ∨ sub = "/query/" then net.checkQuery app req else .error (net.elsewhere c.node req)

/-- What a node does about a call once its provider has answered. -/
inductive Plan (F : Type)
  | answers (r : Response)
  | expands (query : Query F) (found : MemoryNodeQueryResult)

def plan (c : Call ι) : Plan F :=
  match net.receive c with
  | .error r => .answers r
  | .ok query =>
    match net.query c.place c.node query.frame with
    | none => .answers (errorResponse 500 "NPS-SERVER-INTERNAL" NWP_NODE_UNAVAILABLE "local query failed.")
    | some found =>
      if 0 < query.requestedDepth ∧ (net.app c.node).graph ≠ [] then .expands query found
      else .answers (capsResponse (net.app c.node) found none)

/-! ### Children -/

/-- What is done about a reference: it is refused, a header throws, or a query is sent, whose answer may be lost with
a message. -/
inductive Attempt (ι : Type)
  | refused (code message : String)
  | throws (message : String)
  | sends (call : Call ι) (lost : Option String)

def fetchError (ref : ComplexGraphRef) (aborted : Bool) (message : String) : String :=
  let rel := ref.rel
  if aborted then s!"child '{rel}' fetch timed out." else message

/-- `if (value) headers.set(name, value)`. -/
def passOn (header : Option HeaderValue) : Except String (Option HeaderValue) :=
  match header with
  | none => .ok none
  | some v => if v.text = "" then .ok none else (HeaderValue.of v.text).map some

/-- The headers of a child query: of what is set, each value may throw. -/
def childHeaders (parentReq : Request) (childDepth : ℕ) (nextTrace : List String) :
    Except String (HeaderValue × HeaderValue × Option HeaderValue × Option HeaderValue) := do
  let depth ← HeaderValue.of (numberText childDepth)
  let trace ← HeaderValue.of (join "," nextTrace)
  let agent ← passOn parentReq.agent
  let budget ← passOn parentReq.budget
  .ok (depth, trace, agent, budget)

/-- The address of the queries of a child. -/
def queryUrl (nodeUrl : String) : String :=
  String.ofList (nodeUrl.toList.rdropWhile (· == '/') ++ "/query".toList)

/-- `fetchChild`, up to the fetch. -/
def attempt (c : Call ι) (query : Query F) (ref : ComplexGraphRef) (index : ℕ) : Attempt ι :=
  match net.validateChildUrl c.node ref.nodeUrl with
  | some ssrfError => .refused NWP_AUTH_NID_SCOPE_VIOLATION ssrfError
  | none =>
    match childHeaders c.request (query.requestedDepth - 1) (query.trace ++ [(net.app c.node).nodeId]) with
    -- the headers are set outside of the `try`
    | .error e => .throws e
    | .ok (depth, trace, agent, budget) =>
      match net.writeFrame query.frame, net.route c.node (queryUrl ref.nodeUrl) with
      | .error e, _ => .refused NWP_NODE_UNAVAILABLE e
      | .ok _, .error e => .refused NWP_NODE_UNAVAILABLE e
      | .ok body, .ok (node, pathname) =>
        let call : Call ι :=
          { node, place := c.place ++ [index]
            request := { pathname, depth := some depth, trace := some trace, agent, budget, body } }
        match net.delivery call.place with
        | .fails aborted message => .refused NWP_NODE_UNAVAILABLE (fetchError ref aborted message)
        | .lost aborted message => .sends call (some (fetchError ref aborted message))
        | .arrives => .sends call none

/-- What is made of the answer of a child. -/
def readResponse (ref : ComplexGraphRef) (resp : Response) : Except (String × String) Json :=
  let rel := ref.rel
  let status := resp.status
  let shown := truncate resp.body
  if resp.isOk then
    match Json.parse resp.body with
    | some data => .ok data
    | none =>
      let jx := net.syntaxError resp.body
      .error (NWP_NODE_UNAVAILABLE, s!"child '{rel}' returned non-JSON body: {jx}")
  else .error (NWP_NODE_UNAVAILABLE, s!"child '{rel}' returned {status}: {shown}")

/-- `fetchChild`, from the answer of the child on. -/
def readAnswer (ref : ComplexGraphRef) (lost : Option String) (answer : Except String Response) : ChildFetchResult where
  rel := ref.rel
  node := ref.nodeUrl
  result := match lost, answer with
    | some message, _ => .error (NWP_NODE_UNAVAILABLE, message)
    | none, .error e => .error (NWP_NODE_UNAVAILABLE, e)
    | none, .ok resp => net.readResponse ref resp

/-- `fetchChild`: an entry, or what it throws; none while the child has not answered. -/
def fetchChild (ask : Call ι → Option (Except String Response)) (c : Call ι) (query : Query F)
    (ref : ComplexGraphRef × ℕ) : ExceptT String Option ChildFetchResult :=
  match net.attempt c query ref.1 ref.2 with
  | .refused code message => some (.ok ⟨ref.1.rel, ref.1.nodeUrl, .error (code, message)⟩)
  | .throws message => some (.error message)
  | .sends call lost => (ask call).map fun answer => .ok (net.readAnswer ref.1 lost answer)

def serve : ℕ → Call ι → Option (Except String Response)
  | 0, _ => none
  | fuel + 1, c =>
    match net.plan c with
    | .answers r => some (.ok r)
    | .expands query found =>
      let entries : ExceptT String Option (List ChildFetchResult) :=
        (net.app c.node).graph.zipIdx.mapM (net.fetchChild (serve fuel) c query)
      entries.run.map fun
        | .error e => .error e
        | .ok entries => .ok (capsResponse (net.app c.node) found (some entries))

/-- A call that is sent to a child in the course of another one. -/
inductive Calls (c : Call ι) : Call ι → Prop
  | child {query : Query F} {found : MemoryNodeQueryResult} {ref : ComplexGraphRef} {index : ℕ} {d : Call ι}
      {lost : Option String} (hplan : net.plan c = .expands query found)
      (href : (ref, index) ∈ (net.app c.node).graph.zipIdx)
      (hsends : net.attempt c query ref index = .sends d lost) : Calls c d

end Network

end ComplexNodeApp

end NpsSdk.Nwp
