import Mathlib.Tactic.Linarith
import NpsSdk.Core.FrameHeader
import NpsSdk.Lib.JsDouble
import NpsSdk.Lib.JsValue
import NpsSdk.Lib.Runs

/-!
# The schema cache of NCP

`AnchorCache` of `core/anchor-cache.ts`.  A call reads the clock up to two times: `now` is the first reading, and
`later` the last one, at which the call returns.  Times are milliseconds.

A frame that is announced again does not prolong the entry that is there, so an entry lasts as long as it was
announced for exactly if the earlier announcement lasts as long.
-/

namespace NpsSdk.Core

open NpsSdk.Lib

structure AnchorFrame where
  anchor_id : String
  schema : Json
  ttl : Option ℚ := none

namespace AnchorFrame

def ttlMs (frame : AnchorFrame) : ℚ := frame.ttl.getD 3600 * 1000

end AnchorFrame

structure CacheEntry where
  frame : AnchorFrame
  expiresAt : ℚ
  lastAccessed : ℚ

structure AnchorCache where
  cache : JsMap String CacheEntry := .empty
  maxSize : JsDouble := .fin 1000

namespace AnchorCache

/-- One turn of the loop of `evictLru`. -/
def older (oldest : Option String × JsDouble) (e : String × CacheEntry) : Option String × JsDouble :=
  if .fin e.2.lastAccessed < oldest.2 then (some e.1, .fin e.2.lastAccessed) else oldest

/-- The key that `evictLru` deletes; there is none in an empty cache, and an empty key is passed over. -/
def lruKey (cache : JsMap String CacheEntry) : Option String :=
  truthy (cache.entries.foldl older (none, .posInf)).1

def evictLru (c : AnchorCache) : AnchorCache :=
  match lruKey c.cache with
  | some oldestKey => { c with cache := c.cache.delete oldestKey }
  | none => c

def atCapacity (c : AnchorCache) : Bool := decide (c.maxSize ≤ .fin c.cache.size)

def set (c : AnchorCache) (frame : AnchorFrame) (now later : ℚ) : Except NcpError AnchorCache :=
  if frame.ttl = some 0 then .ok c
  else match c.cache.get frame.anchor_id with
    | some existing =>
      if Json.text existing.frame.schema ≠ Json.text frame.schema then
        let anchor_id := frame.anchor_id
        .error ⟨"NCP-ANCHOR-ID-MISMATCH",
          s!"Anchor poisoning detected: anchor_id {anchor_id} received with different schema"⟩
      else .ok { c with cache := c.cache.set frame.anchor_id { existing with lastAccessed := later } }
    | none =>
      let c := if c.atCapacity then c.evictLru else c
      let entry : CacheEntry := { frame, expiresAt := now + frame.ttlMs, lastAccessed := later }
      .ok { c with cache := c.cache.set frame.anchor_id entry }

def get (c : AnchorCache) (anchorId : String) (now later : ℚ) : Option AnchorFrame × AnchorCache :=
  match c.cache.get anchorId with
  | none => (none, c)
  | some entry =>
    if entry.expiresAt ≤ now then (none, { c with cache := c.cache.delete anchorId })
    else (some entry.frame, { c with cache := c.cache.set anchorId { entry with lastAccessed := later } })

/-! ### Calls -/

inductive Call
  | set (frame : AnchorFrame) (now later : ℚ)
  | get (anchorId : String) (now later : ℚ)

namespace Call

def now : Call → ℚ
  | .set _ now _ | .get _ now _ => now

def later : Call → ℚ
  | .set _ _ later | .get _ _ later => later

end Call

def step (c : AnchorCache) : Call → AnchorCache
  | .set frame now later => match c.set frame now later with
    | .ok c' => c'
    | .error _ => c
  | .get anchorId now later => (c.get anchorId now later).2

/-- The clock never goes back: not in a call, nor from one call to a later one. -/
structure Clocked (calls : List Call) : Prop where
  within : ∀ call ∈ calls, call.now ≤ call.later
  between : calls.Pairwise fun a b => a.later ≤ b.now

def evicted (c : AnchorCache) : Call → Option String
  | .set frame _ _ =>
    if frame.ttl ≠ some 0 ∧ c.cache.get frame.anchor_id = none ∧ c.atCapacity = true then lruKey c.cache else none
  | .get .. => none

/-- The key of the entry that a call announces or reads. -/
def used (c : AnchorCache) : Call → Option String
  | .set frame now later => match c.set frame now later with
    | .ok _ => if frame.ttl = some 0 then none else some frame.anchor_id
    | .error _ => none
  | .get anchorId now later => (c.get anchorId now later).1.map fun _ => anchorId

def noteUse (uses : String → Option ℚ) (c : AnchorCache) (call : Call) : String → Option ℚ :=
  fun key => if c.used call = some key then some call.later else uses key

section

variable (maxSize : JsDouble)

def after (calls : List Call) : AnchorCache := run step { maxSize } calls

def lastUse (calls : List Call) : String → Option ℚ := noted noteUse step (fun _ => none) { maxSize } calls

end

end AnchorCache

/-!
## The cache of anchor frames

`AnchorFrameCache` of `core/cache.ts`.  A call of `set` reads the clock up to two times: `now` is the first reading,
and `later` the last one.  Times are milliseconds.

An id that begins with `sha256:` is taken from the frame as it stands.  So the cache is addressed by content exactly
as far as the frames that are set bear the ids of their schemas.
-/

namespace AnchorFrameCache

structure SchemaField where
  name : String
  type : String
  semantic : Option String := none
  nullable : Option Bool := none
deriving DecidableEq

structure FrameSchema where
  fields : List SchemaField
deriving DecidableEq

structure AnchorFrame where
  anchorId : String
  schema : FrameSchema
  ttl : Option ℚ := none
deriving DecidableEq

/-- What the surroundings compute. -/
structure Host where
  localeCompare : String → String → Ordering
  /-- The digest of a text in UTF-8, in hexadecimal digits. -/
  sha256 : List Char → String

variable (host : Host)

/-- A field, without the members that it does not have. -/
def SchemaField.json (f : SchemaField) : Json :=
  .obj ([("name", .str f.name), ("type", .str f.type)] ++
    (f.semantic.toList.map fun semantic => ("semantic", .str semantic)) ++
    f.nullable.toList.map fun nullable => ("nullable", .bool nullable))

def computeAnchorId (schema : FrameSchema) : String :=
  let sorted := schema.fields.mergeSort fun a b => (host.localeCompare a.name b.name).isLE
  "sha256:" ++ host.sha256 (Json.text (.arr (sorted.map SchemaField.json)))

structure Entry where
  frame : AnchorFrame
  expiresAt : ℚ

end AnchorFrameCache

structure AnchorFrameCache where
  store : JsMap String AnchorFrameCache.Entry := .empty

namespace AnchorFrameCache

variable (host : Host)

def idOf (frame : AnchorFrame) : String :=
  if startsWith frame.anchorId "sha256:" then frame.anchorId else computeAnchorId host frame.schema

def schemasEqual (a b : FrameSchema) : Bool := computeAnchorId host a = computeAnchorId host b

def AnchorFrame.ttlMs (frame : AnchorFrame) : ℚ := frame.ttl.getD 3600 * 1000

def poisoned (c : AnchorFrameCache) (frame : AnchorFrame) (now : ℚ) : Bool :=
  match c.store.get (idOf host frame) with
  | some existing => decide (now < existing.expiresAt) && !schemasEqual host existing.frame.schema frame.schema
  | none => false

def set (c : AnchorFrameCache) (frame : AnchorFrame) (now later : ℚ) : Except String (String × AnchorFrameCache) :=
  let anchorId := idOf host frame
  if c.poisoned host frame now then .error s!"Anchor poison detected: {anchorId}"
  else .ok (anchorId, { c with store := c.store.set anchorId ⟨frame, later + frame.ttlMs⟩ })

def get (c : AnchorFrameCache) (anchorId : String) (now : ℚ) : Option AnchorFrame × AnchorFrameCache :=
  match c.store.get anchorId with
  | none => (none, c)
  | some entry =>
    if entry.expiresAt < now then (none, { c with store := c.store.delete anchorId })
    else (some entry.frame, c)

def invalidate (c : AnchorFrameCache) (anchorId : String) : AnchorFrameCache :=
  { c with store := c.store.delete anchorId }

/-! ### Calls -/

inductive Call
  | set (frame : AnchorFrame) (now later : ℚ)
  | get (anchorId : String) (now : ℚ)
  | invalidate (anchorId : String)
deriving DecidableEq

def Call.readings : Call → List ℚ
  | .set _ now later => [now, later]
  | .get _ now => [now]
  | .invalidate _ => []

def step (c : AnchorFrameCache) : Call → AnchorFrameCache
  | .set frame now later => match c.set host frame now later with
    | .ok (_, c') => c'
    | .error _ => c
  | .get anchorId now => (c.get anchorId now).2
  | .invalidate anchorId => c.invalidate anchorId

/-- The readings of the clock, in order. -/
def readings (calls : List Call) : List ℚ := calls.flatMap Call.readings

/-- The clock never goes back. -/
def Clocked (calls : List Call) : Prop := (readings calls).Pairwise (· ≤ ·)

instance (calls : List Call) : Decidable (Clocked calls) := inferInstanceAs (Decidable (List.Pairwise _ _))

def after (calls : List Call) : AnchorFrameCache := run (step host) {} calls

/-- A frame is stored, and not expired at once. -/
def Kept (c : AnchorFrameCache) (frame : AnchorFrame) (now : ℚ) : Prop :=
  c.poisoned host frame now = false ∧ 0 ≤ frame.ttlMs

instance (c : AnchorFrameCache) (frame : AnchorFrame) (now : ℚ) : Decidable (c.Kept host frame now) :=
  inferInstanceAs (Decidable (_ ∧ _))

def noteSchema (last : String → Option FrameSchema) (c : AnchorFrameCache) : Call → String → Option FrameSchema
  | .set frame now _ =>
    if c.Kept host frame now then Function.update last (idOf host frame) (some frame.schema) else last
  | .get _ _ => last
  | .invalidate anchorId => Function.update last anchorId none

/-- The schema that was set last for each id, since it was invalidated. -/
def lastSet (calls : List Call) : String → Option FrameSchema :=
  noted (noteSchema host) (step host) (fun _ => none) {} calls

end AnchorFrameCache

end NpsSdk.Core
