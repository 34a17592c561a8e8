import NpsSdk.Lib.JsDouble
import NpsSdk.Lib.JsMap

/-!
# Tasks and idempotency entries of an action node

`InMemoryActionTaskStore` and `InMemoryIdempotencyCache`.  Each operation is given the instant its clock
reads and answers its result together with the map it leaves.  `V` are the values a provider makes, `E` the
errors it fails with.
-/

namespace NpsSdk.Nwp

open NpsSdk.Lib

/-! ### Tasks -/

/-- A status is a string; those that the store does not name are `other`. -/
inductive ActionTaskStatus
  | pending | running | completed | failed | cancelled
  | other (text : String) (unnamed : text ∉ ["pending", "running", "completed", "failed", "cancelled"])
  deriving DecidableEq

/-- `TERMINAL`. -/
def ActionTaskStatus.terminal : ActionTaskStatus → Bool
  | .completed | .failed | .cancelled => true
  | _ => false

def ActionTaskStatus.text : ActionTaskStatus → String
  | .pending => "pending"
  | .running => "running"
  | .completed => "completed"
  | .failed => "failed"
  | .cancelled => "cancelled"
  | .other text _ => text

structure ActionTaskError where
  code : String
  message : String

structure ActionTaskRecord (V : Type) (E : Type := ActionTaskError) where
  taskId : String
  actionId : String
  status : ActionTaskStatus
  progress : Option JsDouble := none
  createdAt : ℚ
  updatedAt : ℚ
  requestId : Option String
  agentNid : Option String
  result : Option V := none
  error : Option E := none

abbrev ActionTasks (V : Type) (E : Type := ActionTaskError) := JsMap String (ActionTaskRecord V E)

namespace ActionTasks

variable {V E : Type} (tasks : ActionTasks V E) (now : ℚ) (taskId : String)

/-- Nothing where it throws, on an identifier that is taken. -/
def create (actionId : String) (requestId agentNid : Option String) : Option (ActionTasks V E) :=
  if tasks.has taskId then none
  else some (tasks.set taskId
    { taskId, actionId, status := .pending, createdAt := now, updatedAt := now, requestId, agentNid })

def tryTransition (expected next : ActionTaskStatus) : Bool × ActionTasks V E :=
  match tasks.get taskId with
  | none => (false, tasks)
  | some rec =>
    if rec.status ≠ expected then (false, tasks)
    else (true, tasks.set taskId { rec with status := next, updatedAt := now })

/-- Ends a task that has not ended. -/
def settle (update : ActionTaskRecord V E → ActionTaskRecord V E) : Bool × ActionTasks V E :=
  match tasks.get taskId with
  | none => (false, tasks)
  | some rec =>
    if rec.status.terminal then (false, tasks)
    else (true, tasks.set taskId { update rec with updatedAt := now })

def complete (result : Option V) : Bool × ActionTasks V E :=
  tasks.settle now taskId fun rec => { rec with status := .completed, result, progress := some 1 }

def fail (error : E) : Bool × ActionTasks V E :=
  tasks.settle now taskId fun rec => { rec with status := .failed, error := some error }

def cancel : Bool × ActionTasks V E := tasks.settle now taskId fun rec => { rec with status := .cancelled }

/-- A share of the work, `Math.max(0, Math.min(1, progress))`. -/
def clampProgress (progress : JsDouble) : JsDouble := JsDouble.max 0 (JsDouble.min 1 progress)

def updateProgress (progress : JsDouble) : Bool × ActionTasks V E :=
  match tasks.get taskId with
  | none => (false, tasks)
  | some rec =>
    (true, tasks.set taskId { rec with progress := some (clampProgress progress), updatedAt := now })

/-- The record is one that `purgeExpired` removes. -/
def expired (cutoff : ℚ) (rec : ActionTaskRecord V E) : Bool := rec.status.terminal && rec.updatedAt < cutoff

/-- The number of the records that go, and the others. -/
def purgeExpired (retentionMs now : ℚ) : ℕ × ActionTasks V E :=
  let kept := tasks.filter fun _ rec => !expired (now - retentionMs) rec
  (tasks.size - kept.size, kept)

end ActionTasks

/-! ### Idempotency entries -/

/-- A frame of a stream; `data` is the value of its `data` member. -/
structure StreamFrame (V : Type) where
  streamId : String
  seq : ℚ
  isLast : Bool
  data : V
  anchorRef : Option String := none
  windowSize : Option ℚ := none
  errorCode : Option String := none
deriving DecidableEq

structure IdempotentEntry (V : Type) where
  actionId : String
  paramsHash : String
  result : Option V := none
  streamFrames : Option (List (StreamFrame V)) := none
  anchorRef : Option String := none
  taskId : Option String := none
  expiresAt : ℚ

abbrev IdempotencyCache (V : Type) := JsMap String (IdempotentEntry V)

namespace IdempotencyCache

variable {V : Type} (cache : IdempotencyCache V)

def key (actionId idempotencyKey : String) : String := actionId ++ "\x1f" ++ idempotencyKey

def get (now : ℚ) (actionId idempotencyKey : String) : Option (IdempotentEntry V) × IdempotencyCache V :=
  let k := key actionId idempotencyKey
  match JsMap.get cache k with
  | none => (none, cache)
  | some entry => if entry.expiresAt ≤ now then (none, cache.delete k) else (some entry, cache)

def tryStore (now : ℚ) (actionId idempotencyKey : String) (entry : IdempotentEntry V) :
    Bool × IdempotencyCache V :=
  let k := key actionId idempotencyKey
  match JsMap.get cache k with
  | none => (true, cache.set k entry)
  | some existing =>
    if existing.expiresAt ≤ now then (true, (cache.delete k).set k entry)
    else (decide (existing.paramsHash = entry.paramsHash), cache)

end IdempotencyCache

end NpsSdk.Nwp
