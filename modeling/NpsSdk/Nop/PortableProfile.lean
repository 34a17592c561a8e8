import NpsSdk.Lib.DepthFirst
import NpsSdk.Lib.KahnOrders
import NpsSdk.Nop.ConditionEvaluator

/-!
# The portable profile

`evaluateOrchestration` of `nop/portable-profile.ts`: the transcript of a task whose nodes are run one after
the other, in the one order that takes the least name first.  What the workers answer is part of the task.
The order in which the members of a transcript are listed is left out.
-/

namespace NpsSdk.Nop

open NpsSdk.Lib

namespace PortableProfile

/-! ### Tasks -/

inductive Attempt
  | success (result : Option Json)
  | timeout
  /-- An answer of any other kind. -/
  | failure (errorCode : Option String) (retryable : Bool)

structure NodeInput where
  id : String
  dependsOn : List String
  attempts : List Attempt
  preflightAvailable : Option Bool := none
  condition : Option String := none
  inputMapping : Option (List (String × Json)) := none
  maxRetries : Option JsDouble := none
  retryOn : Option (List String) := none
  compensateAction : Option Json := none
  compensationOutcome : Option String := none

structure PortableTask where
  nodes : List NodeInput
  preflight : Bool := false
  cancelBefore : Option String := none
  maxRetries : Option JsDouble := none
  compensationPolicy : Option String := none
  aggregate : Option String := none

/-- The nodes by their ids. -/
abbrev NodeMap := JsMap String NodeInput

inductive NodeState
  | completed | failed | skipped | compensated | compensationFailed
  deriving DecidableEq

/-- An entry of a transcript. -/
inductive Event
  | preflight | running | taskCompleted | taskFailed | taskCancelled
  | attempt (id : String) (count : ℕ)
  | completed (id : String)
  | retrying (id : String)
  | failed (id : String)
  | skipped (id : String)
  | compensating (id : String)
  | compensated (id : String)
  | compensationFailed (id : String)

def Event.text : Event → String
  | .preflight => "task:preflight"
  | .running => "task:running"
  | .taskCompleted => "task:completed"
  | .taskFailed => "task:failed"
  | .taskCancelled => "task:cancelled"
  | .attempt id count => s!"{id}:attempt:{count}"
  | .completed id => s!"{id}:completed"
  | .retrying id => s!"{id}:retrying"
  | .failed id => s!"{id}:failed"
  | .skipped id => s!"{id}:skipped"
  | .compensating id => s!"{id}:compensating"
  | .compensated id => s!"{id}:compensated"
  | .compensationFailed id => s!"{id}:compensation_failed"

/-- What `result` makes. -/
structure Transcript where
  events : List Event
  terminalState : TaskState
  errorCode : Option String
  aggregate : Json := .null
  nodeStates : JsMap String NodeState := JsMap.empty
  attemptCounts : JsMap String ℕ := JsMap.empty
  mappedParams : JsMap String (List (String × Resolved)) := JsMap.empty
  compensationOrder : List String := []

def nopDelegateRejected : String := "NOP-DELEGATE-REJECTED"

def emptyFailure (error : String) : Transcript :=
  { events := [.taskFailed], terminalState := .failed, errorCode := some error }

/-! ### The order -/

def dependencies (nodes : NodeMap) : List (String × String) :=
  nodes.entries.flatMap fun e => e.2.dependsOn.map fun d => (d, e.1)

def indegree (nodes : NodeMap) : JsMap String ℤ :=
  (dependencies nodes).foldl (fun m e => m.set e.2 ((m.get e.2).getD 0 + 1))
    (JsMap.ofList (nodes.keys.map fun id => (id, 0)))

/-- The sort before its first removal. -/
def stableStart (nodes : NodeMap) : Kahn String where
  inDegree := indegree nodes
  queue := sortKeys (((indegree nodes).entries.filter fun e => decide (e.2 = 0)).map Prod.fst)
  order := []

def outgoing (nodes : NodeMap) (id : String) : List String := Kahn.targets (dependencies nodes) id

/-- The state of the sort at its end. -/
def stableSort (nodes : NodeMap) : Kahn String :=
  Kahn.sortBy sortKeys (fun id => sortKeys (outgoing nodes id)) nodes.size (stableStart nodes)

def stableTopology (nodes : NodeMap) : Option (List String) :=
  if (dependencies nodes).any fun e => decide (e.1 ∉ nodes.keys) then none
  else
    let order := (stableSort nodes).order
    if order.length = nodes.size then some order else none

/-! ### Attempts -/

def Attempt.finalError : Attempt → String
  | .failure errorCode _ => errorCode.getD nopDelegateRejected
  | _ => nopDelegateTimeout

def Attempt.isRetryable : Attempt → Bool
  | .failure _ retryable => retryable
  | _ => true

inductive Ending
  | completed (result : Json)
  | failed (error : String)
  /-- No attempt was made. -/
  | untried

/-- `outcome.result ?? {}`. -/
def resultOf : Option Json → Json
  | none | some .null => .obj []
  | some v => v

/-- Is the error one of those after which the node is tried again? -/
def selectedBy (retryOn : Option (List String)) (error : String) : Bool :=
  match retryOn with
  | none => true
  | some codes => decide (error ∈ codes)

/-- The attempts of a node from the one at `index` on: the events, the number of attempts and the end. -/
def tryAttempts (id : String) (maxRetries : JsDouble) (retryOn : Option (List String)) :
    ℕ → List Attempt → List Event × ℕ × Ending
  | index, [] => ([], index, .untried)
  | index, outcome :: rest =>
    if ¬ (JsDouble.fin index ≤ maxRetries) then ([], index, .untried)
    else
      let count := index + 1
      match outcome with
      | .success result => ([.attempt id count, .completed id], count, .completed (resultOf result))
      | outcome =>
        if outcome.isRetryable && selectedBy retryOn outcome.finalError &&
            decide (JsDouble.fin count ≤ maxRetries) && !rest.isEmpty then
          let r := tryAttempts id maxRetries retryOn count rest
          (.attempt id count :: .retrying id :: r.1, r.2)
        else ([.attempt id count, .failed id], count, .failed outcome.finalError)

/-! ### Compensation -/

def dependsOn (nodes : NodeMap) (id : String) : List String :=
  match nodes.get id with
  | some node => node.dependsOn
  | none => []

/-- The nodes that a node depends on.  Each call of `collect` adds a node, so it is no deeper than there are
nodes. -/
def ancestors (nodes : NodeMap) (id : String) : List String := collect (dependsOn nodes) (nodes.size + 1) [] id

def hasAction (nodes : NodeMap) (id : String) : Bool :=
  match nodes.get id with
  | some node => node.compensateAction.isSome
  | none => false

/-- Does the compensation of a node fail? -/
def compensationFails (nodes : NodeMap) (id : String) : Bool :=
  match nodes.get id with
  | some node => node.compensationOutcome == some "failure"
  | none => false

/-- What a compensation comes to. -/
structure Compensated where
  order : List String := []
  error : Option String := none
  events : List Event := []
  states : JsMap String NodeState

/-- Compensates the candidates that can be compensated, one after the other. -/
def compensateNodes (nodes : NodeMap) (strict : Bool) : List String → JsMap String NodeState → Compensated
  | [], states => { states := states }
  | id :: rest, states =>
    if !hasAction nodes id then compensateNodes nodes strict rest states
    else if compensationFails nodes id then
      let states := states.set id .compensationFailed
      if strict then
        { order := [id], error := some nopCompensationFailed
          events := [.compensating id, .compensationFailed id], states := states }
      else
        let r := compensateNodes nodes strict rest states
        { r with order := id :: r.order, events := .compensating id :: .compensationFailed id :: r.events }
    else
      let r := compensateNodes nodes strict rest (states.set id .compensated)
      { r with order := id :: r.order, events := .compensating id :: .compensated id :: r.events }

def candidates (nodes : NodeMap) (failedId : String) (topo : List String) (states : JsMap String NodeState) :
    List String :=
  (topo.filter fun id => decide (id ∈ ancestors nodes failedId) && states.get id == some .completed).reverse

def compensate (task : PortableTask) (failedId : String) (topo : List String) (nodes : NodeMap)
    (states : JsMap String NodeState) : Compensated :=
  if task.compensationPolicy ≠ some "best_effort" ∧ task.compensationPolicy ≠ some "strict" then
    { states := states }
  else
    let strict := task.compensationPolicy == some "strict"
    let candidates := candidates nodes failedId topo states
    if strict && candidates.any fun id => !hasAction nodes id then
      { error := some nopCompensationNotSupported, states := states }
    else compensateNodes nodes strict candidates states

/-! ### Aggregation -/

/-- Merges a member into the output; under `merge_all` arrays are joined. -/
def mergeMember (mergeAll : Bool) (output : JsMap String Json) (member : String × Json) : JsMap String Json :=
  match mergeAll, output.get member.1, member.2 with
  | true, some (.arr items), .arr more => output.assign member.1 (.arr (items ++ more))
  | _, _, item => output.assign member.1 item

def aggregateResults (task : PortableTask) (topo : List String) (nodes : NodeMap) (states : JsMap String NodeState)
    (results : Context) : Json :=
  let ends := topo.filter fun id =>
    decide (id ∉ nodes.values.flatMap NodeInput.dependsOn) && states.get id == some .completed
  match ends.filterMap fun id => (results.get id).join with
  | [] => .null
  | values =>
    if task.aggregate = some "all" then .arr values
    else
      .obj (values.foldl (fun output value =>
        match value with
        | .obj members => members.foldl (mergeMember (task.aggregate == some "merge_all")) output
        | _ => output) JsMap.empty).entries

/-! ### The loop -/

/-- What the loop has come to. -/
structure Progress where
  events : List Event
  results : Context := JsMap.empty
  states : JsMap String NodeState := JsMap.empty
  attempts : JsMap String ℕ := JsMap.empty
  mapped : JsMap String (List (String × Resolved)) := JsMap.empty

/-- Why a node failed. -/
inductive FailureCause
  | condition
  | inputMapping
  /-- All of its attempts failed, the last one with the error; or there was none. -/
  | attempts (error : Option String)

/-- How the loop leaves a node. -/
inductive Left
  | onward (s : Progress)
  | cancelled (s : Progress)
  | failed (id : String) (cause : FailureCause) (s : Progress)

/-- `clone` of a value that was resolved; the value must be there, and no function can be cloned. -/
def cloneResolved : Resolved → Option Resolved
  | .undefined | .builtin _ => none
  | .objectPrototype => some (.json (.obj []))
  | v => some v

/-- The parameters of a node. -/
def mapParams (results : Context) : List (String × Json) → JsMap String Resolved → Option (JsMap String Resolved)
  | [], params => some params
  | (name, path) :: rest, params => do
    let text ← path.toText
    let value ← (resolvePath text results).toOption
    let value ← cloneResolved value
    mapParams results rest (params.assign name value)

/-- `numberValue(node.max_retries, taskRetries)`. -/
def maxRetriesOf (task : PortableTask) (node : NodeInput) : JsDouble := node.maxRetries.getD (task.maxRetries.getD 0)

def attemptNode (task : PortableTask) (id : String) (node : NodeInput) (s : Progress) : Left :=
  let tried := tryAttempts id (maxRetriesOf task node) node.retryOn 0 node.attempts
  let s := { s with events := s.events ++ tried.1, attempts := s.attempts.set id tried.2.1 }
  match tried.2.2 with
  | .completed result =>
    .onward { s with results := s.results.set id (some result), states := s.states.set id .completed }
  | .failed error => .failed id (.attempts (some error)) { s with states := s.states.set id .failed }
  | .untried => .failed id (.attempts none) s

/-- The node fails before its first attempt. -/
def Progress.reject (s : Progress) (id : String) : Progress :=
  { s with
    events := s.events ++ [.failed id]
    states := s.states.set id .failed
    attempts := s.attempts.set id 0 }

def mapNode (task : PortableTask) (id : String) (node : NodeInput) (s : Progress) : Left :=
  match node.inputMapping with
  | none => attemptNode task id node s
  | some mapping =>
    match mapParams s.results mapping JsMap.empty with
    | none => .failed id .inputMapping (s.reject id)
    | some params => attemptNode task id node { s with mapped := s.mapped.set id params.entries }

/-- One turn of the loop. -/
def evaluateNode (task : PortableTask) (id : String) (node : NodeInput) (s : Progress) : Left :=
  if task.cancelBefore = some id then .cancelled { s with events := s.events ++ [.taskCancelled] }
  else
    match node.condition with
    | none => mapNode task id node s
    | some condition =>
      match evaluateCondition condition s.results with
      | .error _ => .failed id .condition (s.reject id)
      | .ok false => .onward { s with
          events := s.events ++ [.skipped id]
          states := s.states.set id .skipped
          attempts := s.attempts.set id 0 }
      | .ok true => mapNode task id node s

/-- The loop over the nodes that are left. -/
def evaluateNodes (task : PortableTask) (nodes : NodeMap) : List String → Progress → Left
  | [], s => .onward s
  | id :: rest, s =>
    match nodes.get id with
    | none => evaluateNodes task nodes rest s
    | some node =>
      match evaluateNode task id node s with
      | .onward s => evaluateNodes task nodes rest s
      | left => left

/-! ### The transcript -/

/-- `result`, of what the loop has come to. -/
def Progress.result (s : Progress) (events : List Event) (state : TaskState) (error : Option String) : Transcript where
  events := s.events ++ events
  terminalState := state
  errorCode := error
  nodeStates := s.states
  attemptCounts := s.attempts
  mappedParams := s.mapped

def failureTranscript (task : PortableTask) (topo : List String) (nodes : NodeMap) (id : String) (s : Progress) :
    FailureCause → Transcript
  | .condition => s.result [.taskFailed] .failed (some nopConditionEvalError)
  | .inputMapping => s.result [.taskFailed] .failed (some nopInputMappingError)
  | .attempts error =>
    let c := compensate task id topo nodes s.states
    { { s with states := c.states }.result (c.events ++ [Event.taskFailed]) .failed
        (some (c.error.getD (error.getD nopDelegateRejected))) with
      compensationOrder := c.order }

/-- The transcript of the loop. -/
def transcriptOf (task : PortableTask) (topo : List String) (nodes : NodeMap) : Left → Transcript
  | .onward s =>
    { s.result [.taskCompleted] .completed none with
      aggregate := aggregateResults task topo nodes s.states s.results }
  | .cancelled s => s.result [] .cancelled (some nopTaskCancelled)
  | .failed id cause s => failureTranscript task topo nodes id s cause

def nodeMap (task : PortableTask) : NodeMap := JsMap.ofList (task.nodes.map fun node => (node.id, node))

/-- The loop, once the task is running. -/
def runNodes (task : PortableTask) (topo : List String) : Left :=
  evaluateNodes task (nodeMap task) topo
    { events := (if task.preflight then [.preflight] else []) ++ [.running] }

/-- Is a node unavailable before the task starts? -/
def preflightFails (task : PortableTask) (topo : List String) : Bool :=
  task.preflight && topo.any fun id => ((nodeMap task).get id).any fun node => node.preflightAvailable == some false

def evaluateOrchestration (task : PortableTask) : Transcript :=
  if ¬ (task.nodes.map NodeInput.id).Nodup then emptyFailure nopTaskDagInvalid
  else
    match stableTopology (nodeMap task) with
    | none => emptyFailure nopTaskDagCycle
    | some topo =>
      if preflightFails task topo then
        { events := [.preflight, .taskFailed], terminalState := .failed, errorCode := some nopResourceInsufficient }
      else transcriptOf task topo (nodeMap task) (runNodes task topo)

end PortableProfile

end NpsSdk.Nop
